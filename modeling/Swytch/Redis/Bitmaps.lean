import Swytch.Redis.StringCommands

/-!
# The bits of a string

The loops of `GETRANGE`, `BITCOUNT` and `BITPOS` over the bytes give what Redis replies for them.
An overlay has one element for each place that was written, and the bytes that are reconstructed
from it have the bits that `GETBIT` reads off its elements; those that are set are as many as the
elements that `BITCOUNT` counts.
-/

namespace Swytch.Redis.Strings

open List
open Sql (Bytes utf8 F64)
open BitString
open Reference (position bitCount)

/-! ## 1.  Bits and ranges -/

theorem toNat_shiftRight_and_one {b : UInt8} {k : ℕ} (hk : k < 8) :
    ((b >>> UInt8.ofNat k) &&& 1).toNat = (b.toNat.testBit k).toNat := by
  have hsmall : (UInt8.ofNat k).toNat % 8 = k := by
    rw [UInt8.toNat_ofNat']
    omega
  rw [UInt8.toNat_and, UInt8.toNat_shiftRight, hsmall, UInt8.toNat_one, Nat.and_one_is_mod,
    Nat.shiftRight_eq_div_pow, Nat.toNat_testBit]

variable (data : Bytes)

variable {i : ℕ}

theorem bitOf_eq : bitOf data i = (bit data i).toNat :=
  toNat_shiftRight_and_one (by omega)

theorem getScalarBit_eq (offset : ℕ) : getScalarBit data offset = (bit data offset).toNat := by
  unfold getScalarBit
  split
  · rename_i hle
    rw [bit_of_length_le hle]
    rfl
  · rw [bitOf_eq]

variable {start stop : ℤ} {length n : ℕ} {id : Bytes}

theorem clampRange_eq_none (h : clampRange length start stop = none) (hi : i < length) :
    ¬ (position length start ≤ i ∧ (i : ℤ) ≤ position length stop) := by
  unfold clampRange at h
  simp only [ite_eq_left_iff, reduceCtorEq, imp_false] at h
  unfold position
  split_ifs at h ⊢ <;> omega

theorem clampRange_eq_some {lo hi : ℕ} (h : clampRange length start stop = some (lo, hi)) :
    lo ≤ hi ∧ hi < length ∧ ∀ i : ℕ, i < length →
      (position length start ≤ i ∧ (i : ℤ) ≤ position length stop ↔
        lo ≤ i ∧ i ≤ hi) := by
  unfold clampRange at h
  simp only [Option.ite_none_left_eq_some] at h
  obtain ⟨hle, rfl, rfl⟩ := h
  unfold position
  refine ⟨?_, ?_, fun i hi => ?_⟩
  all_goals split_ifs at hle ⊢ <;> omega

/-- The bits of a range, in order. -/
def places (data : Bytes) (range : Option BitInterval) : List ℕ :=
  (List.range (8 * data.length)).filter fun p => Reference.InRange data range p

/-- The bits of the bytes between two ends. -/
theorem filter_bytes {lo hi : ℕ} (hle : lo ≤ hi) (hhi : hi < n) :
    ((range (8 * n)).filter fun p => decide (lo ≤ p / 8 ∧ p / 8 ≤ hi)) =
      range' (8 * lo) (8 * (hi + 1 - lo)) := by
  have hcongr : ∀ p ∈ range (8 * n), decide (lo ≤ p / 8 ∧ p / 8 ≤ hi) =
      decide (8 * lo ≤ p ∧ p ≤ 8 * hi + 7) := fun p _ => decide_eq_decide.mpr (by omega)
  rw [filter_congr hcongr, filter_range_between (by omega)]
  congr 1
  omega

/-- The numbers that a function brings into a range, by the ends that `clampRange` gives. -/
theorem filter_clampRange {f : ℕ → ℕ} (hf : ∀ p < n, f p < length) :
    ((range n).filter fun p =>
        decide (position length start ≤ f p ∧ (f p : ℤ) ≤ position length stop)) =
      match clampRange length start stop with
      | none => []
      | some ends => (range n).filter fun p => decide (ends.1 ≤ f p ∧ f p ≤ ends.2) := by
  cases h : clampRange length start stop with
  | none =>
    apply filter_eq_nil_iff.mpr
    intro p hp
    rw [decide_eq_true_eq]
    exact clampRange_eq_none h (hf p (mem_range.mp hp))
  | some ends =>
    apply filter_congr
    intro p hp
    exact decide_eq_decide.mpr ((clampRange_eq_some h).2.2 _ (hf p (mem_range.mp hp)))

theorem places_bytes {data : Bytes} :
    places data (some ⟨start, stop, false⟩) =
      match clampRange data.length start stop with
      | none => []
      | some ends => range' (8 * ends.1) (8 * (ends.2 + 1 - ends.1)) := by
  refine (filter_clampRange fun p hp => by omega).trans ?_
  cases h : clampRange data.length start stop with
  | none => rfl
  | some ends => exact filter_bytes (clampRange_eq_some h).1 (clampRange_eq_some h).2.1

theorem places_bits {data : Bytes} :
    places data (some ⟨start, stop, true⟩) =
      match clampRange (data.length * 8) start stop with
      | none => []
      | some ends => between ends := by
  refine (filter_clampRange fun p hp => by omega).trans ?_
  cases h : clampRange (data.length * 8) start stop with
  | none => rfl
  | some ends => exact filter_range_between (by have := (clampRange_eq_some h).2.1; omega)

theorem places_none : places data none = places data (some ⟨0, (data.length : ℤ) - 1, false⟩) := by
  apply filter_congr
  intro p hp
  have hp := mem_range.mp hp
  apply decide_eq_decide.mpr
  simp only [Reference.InRange, position, true_iff]
  split_ifs <;> omega

theorem places_startingAt :
    places data (some ⟨start, -1, false⟩) =
      places data (some ⟨start, (data.length : ℤ) - 1, false⟩) := by
  apply filter_congr
  intro p hp
  apply decide_eq_decide.mpr
  simp only [Reference.InRange, position]
  split_ifs <;> omega

theorem bitCount_eq (range : Option BitInterval) :
    bitCount (some data) range = (places data range).countP (bit data) := by
  rw [places, countP_filter]
  rfl

theorem countBits_bytes (start stop : ℤ) : (match clampRange data.length start stop with
      | none => 0
      | some ends => ((between ends).map fun i => onesCount (data.getD i 0)).sum) =
    (places data (some ⟨start, stop, false⟩)).countP (bit data) := by
  rw [places_bytes]
  cases clampRange data.length start stop with
  | none => rfl
  | some ends => exact sum_onesCount data ends.1 _

theorem countBits_eq (range : Option BitInterval) :
    countBits data range = bitCount (some data) range := by
  rw [bitCount_eq]
  match range with
  | none =>
    rw [places_none]
    exact countBits_bytes data 0 _
  | some ⟨start, stop, false⟩ => exact countBits_bytes data start stop
  | some ⟨start, stop, true⟩ =>
    show (match clampRange (data.length * 8) start stop with
      | none => 0
      | some ends => (between ends).countP fun i => bitOf data i = 1) = _
    rw [places_bits]
    cases clampRange (data.length * 8) start stop with
    | none => rfl
    | some ends =>
      apply countP_congr
      intro p _
      rw [bitOf_eq]
      cases bit data p with
      | false | true => simp

theorem findSome?_eq_map_find? {α β : Type*} {g : α → Option β} {p : α → Bool} {f : α → β}
    {l : List α} (h : ∀ x ∈ l, g x = if p x then some (f x) else none) :
    l.findSome? g = (l.find? p).map f := by
  induction l with
  | nil => rfl
  | cons x l ih =>
    rw [findSome?_cons, find?_cons, h x mem_cons_self,
      ih fun y hy => h y (mem_cons_of_mem _ hy)]
    cases p x with
    | false | true => rfl

theorem searchByte_eq (searchBit : Bool) (i : ℕ) :
    searchByte data searchBit.toNat i =
      (range' (8 * i) 8).find? fun p => bit data p == searchBit := by
  have hdown : [7, 6, 5, 4, 3, 2, 1, 0] = (range 8).map fun k => 7 - k := by decide
  rw [searchByte, hdown, findSome?_map, range'_byte, find?_map]
  apply findSome?_eq_map_find?
  intro k hk
  have hk : k < 8 := mem_range.mp hk
  have hpl : i * 8 + (7 - (7 - k)) = 8 * i + k := by omega
  simp only [Function.comp_apply, toNat_shiftRight_and_one (show 7 - k < 8 by omega),
    bit_mul_add data hk, hpl]
  cases (data.getD i 0).toNat.testBit (7 - k) with
  | false | true => cases searchBit with
    | false | true => rfl

theorem searchBytes_eq (searchBit : Bool) (start stop : ℤ) (hasEnd : Bool) :
    searchBytes data searchBit.toNat start stop hasEnd =
      match (places data (some ⟨start, stop, false⟩)).find? fun p => bit data p == searchBit with
      | some p => (p : ℤ)
      | none =>
        if !searchBit && !hasEnd && !(places data (some ⟨start, stop, false⟩)).isEmpty then
          8 * data.length
        else -1 := by
  unfold searchBytes
  rw [places_bytes]
  cases h : clampRange data.length start stop with
  | none => simp
  | some ends =>
    obtain ⟨hle, -, -⟩ := clampRange_eq_some h
    have hsearch : (between ends).findSome? (searchByte data searchBit.toNat) =
        (range' (8 * ends.1) (8 * (ends.2 + 1 - ends.1))).find? fun p =>
          bit data p == searchBit := by
      rw [← findSome?_bytes, funext (searchByte_eq data searchBit)]
      rfl
    have hs : (range' (8 * ends.1) (8 * (ends.2 + 1 - ends.1))).isEmpty = false := by
      rw [isEmpty_eq_false_iff, ne_eq, range'_eq_nil_iff]
      omega
    simp only [hsearch, hs]
    cases (range' (8 * ends.1) (8 * (ends.2 + 1 - ends.1))).find? fun p =>
        bit data p == searchBit with
    | some p => rfl
    | none =>
      cases searchBit with
      | false =>
        cases hasEnd with
        | false => simp [Int.mul_comm]
        | true => simp
      | true => simp

theorem searchBits_eq (searchBit : Bool) (range : BitRange) :
    searchBits data searchBit.toNat range = Reference.bitPos (some data) searchBit range := by
  by_cases hnil : data = []
  · subst hnil
    cases searchBit with
    | false | true => rfl
  have hlen : data.length ≠ 0 := fun h => hnil (length_eq_zero_iff.mp h)
  unfold searchBits Reference.bitPos
  simp only [Option.getD_some]
  rw [if_neg hlen, if_neg hnil]
  match range with
  | .whole =>
    have h := searchBytes_eq data searchBit 0 ((data.length : ℤ) - 1) false
    rw [← places_none] at h
    exact h
  | .startingAt start =>
    have h := searchBytes_eq data searchBit start ((data.length : ℤ) - 1) false
    rw [← places_startingAt] at h
    exact h
  | .within ⟨start, stop, false⟩ =>
    exact searchBytes_eq data searchBit start stop true
  | .within ⟨start, stop, true⟩ =>
    have hcl : ∀ places : List ℕ,
        (!searchBit && (BitRange.within ⟨start, stop, true⟩).isOpen && !places.isEmpty) = false := by
      simp [BitRange.isOpen]
    simp only [hcl]
    show _ = match (places data (some ⟨start, stop, true⟩)).find? fun p =>
      bit data p == searchBit with
      | some p => (p : ℤ)
      | none => -1
    rw [places_bits]
    cases clampRange (data.length * 8) start stop with
    | none => rfl
    | some ends =>
      have hcongr : (fun i => decide (bitOf data i = searchBit.toNat)) = fun i =>
          bit data i == searchBit := by
        funext i
        rw [bitOf_eq]
        cases bit data i <;> cases searchBit <;> rfl
      simp only [hcongr]
      all_goals rfl

theorem sliceRange_eq (start stop : ℤ) :
    sliceRange data start stop = Reference.getRange (some data) start stop := by
  unfold sliceRange Reference.getRange
  simp only [Option.getD_some]
  by_cases hb : start < 0 ∧ stop < 0 ∧ start > stop
  · rw [if_pos hb, if_pos hb]
  rw [if_neg hb]
  unfold position
  generalize (if start < 0 then (data.length : ℤ) + start else start) = first
  generalize (if stop < 0 then (data.length : ℤ) + stop else stop) = last
  generalize h0 : (if first < 0 then 0 else first) = startIdx
  generalize hclamp : (if last < 0 then 0 else last) = clamped
  generalize hend : (if clamped ≥ (data.length : ℤ) then (data.length : ℤ) - 1 else clamped) = endIdx
  have hlo : startIdx.toNat = first.toNat := by
    split_ifs at h0 <;> omega
  split
  · symm
    apply eq_nil_of_length_eq_zero
    rw [length_take, length_drop]
    split_ifs at hclamp hend <;> omega
  · rw [hlo, take_eq_take_iff, length_drop]
    split_ifs at hclamp hend <;> omega

/-! ## 2.  Overlays -/

section Overlay

variable {element : Element StoredValue} {j : ℕ} {bytes : Bytes} {snap : StringSnapshot}

/-- The places that an overlay sets or toggles. -/
def positions (snap : StringSnapshot) : List ℕ :=
  ((bitEntries snap).filter BitEntry.set).map BitEntry.offset

theorem isInt64_natCast (hn : n < 2 ^ 63) : IsInt64 n := by
  unfold IsInt64
  omega

theorem offset_ofElement {offset : ℕ} (hoff : offset < 2 ^ 63) :
    (BitEntry.ofElement ⟨formatInt offset, element⟩).offset = offset := by
  simp [BitEntry.ofElement, parseInt64_formatInt (isInt64_natCast hoff)]

/-- Each entry belongs to an element, and its offset is the one of the element's id. -/
theorem IsOverlay.exists_offset (hoverlay : IsOverlay snap)
    (hmem : ⟨id, element⟩ ∈ snap.netAdds.entries) :
    ∃ offset : ℕ, offset < 2 ^ 63 ∧ id = formatInt offset ∧
      (BitEntry.ofElement ⟨id, element⟩).offset = offset := by
  have hkey : id ∈ snap.netAdds.keys := mem_map.mpr ⟨_, hmem, rfl⟩
  obtain ⟨offset, hlt, rfl⟩ := hoverlay.id id hkey
  exact ⟨offset, hlt, rfl, offset_ofElement hlt⟩

theorem mem_positions_iff (hoverlay : IsOverlay snap) (hj : j < 2 ^ 63) :
    j ∈ positions snap ↔
      ∃ element, snap.netAdds.lookup (formatInt j) = some element ∧ elementInt element = 1 := by
  constructor
  · intro h
    obtain ⟨entry, he, rfl⟩ := mem_map.mp h
    obtain ⟨he, hset⟩ := mem_filter.mp he
    obtain ⟨⟨id, element⟩, hmem, rfl⟩ := mem_map.mp he
    obtain ⟨offset, -, hid, hoff⟩ := hoverlay.exists_offset hmem
    refine ⟨element, ?_, of_decide_eq_true hset⟩
    rw [hoff, ← hid]
    exact AList.mem_lookup_iff.mpr hmem
  · rintro ⟨element, hl, hone⟩
    have hmem := AList.mem_lookup_iff.mp (Option.mem_def.mpr hl)
    apply mem_map.mpr
    exact ⟨_, mem_filter.mpr ⟨mem_map.mpr ⟨_, hmem, rfl⟩, decide_eq_true hone⟩,
      offset_ofElement hj⟩

theorem nodup_positions (hoverlay : IsOverlay snap) : (positions snap).Nodup := by
  have hoffsets : ((bitEntries snap).map BitEntry.offset).Nodup := by
    rw [bitEntries, map_map]
    apply List.Nodup.map_on _ snap.netAdds.nodupKeys.nodup
    rintro ⟨id, element⟩ hx ⟨id', element'⟩ hy heq
    obtain ⟨offset, -, rfl, hoff⟩ := hoverlay.exists_offset hx
    obtain ⟨offset', -, rfl, hoffset'⟩ := hoverlay.exists_offset hy
    have hsame : offset = offset' := by
      rw [← hoff, ← hoffset']
      exact heq
    subst hsame
    have hl : snap.netAdds.lookup (formatInt offset) = some element :=
      AList.mem_lookup_iff.mpr hx
    have hlookup' : snap.netAdds.lookup (formatInt offset) = some element' :=
      AList.mem_lookup_iff.mpr hy
    rw [Option.some.inj (hl.symm.trans hlookup')]
  exact hoffsets.sublist (filter_sublist.map _)

variable (entries : List BitEntry)

theorem le_foldl_max (n : ℕ) :
    n ≤ entries.foldl (fun largest entry => max largest entry.offset) n ∧
      ∀ entry ∈ entries,
        entry.offset ≤ entries.foldl (fun largest entry => max largest entry.offset) n := by
  induction entries generalizing n with
  | nil => exact ⟨le_rfl, fun _ h => nomatch h⟩
  | cons first entries ih =>
    obtain ⟨h0, hr⟩ := ih (max n first.offset)
    refine ⟨(le_max_left _ _).trans h0, fun entry he => ?_⟩
    rcases mem_cons.mp he with rfl | he
    · exact (le_max_right _ _).trans h0
    · exact hr entry he

theorem le_maxOffset (hj : j ∈ positions snap) : j ≤ maxOffset (bitEntries snap) := by
  obtain ⟨entry, he, rfl⟩ := mem_map.mp hj
  exact (le_foldl_max _ 0).2 entry (mem_of_mem_filter he)

variable {data : Bytes}

theorem foldl_toggle :
    entries.foldl (fun data entry => if entry.set then toggle entry.offset data else data) data =
      toggleAll ((entries.filter BitEntry.set).map BitEntry.offset) data := by
  rw [toggleAll, foldl_map, foldl_filter]

theorem foldl_put :
    entries.foldl (fun data entry => if entry.set then put entry.offset data else data) data =
      BitString.putAll ((entries.filter BitEntry.set).map BitEntry.offset) data := by
  rw [BitString.putAll, foldl_map, foldl_filter]

/-- The bits of an overlay: those of the scalar, toggled. -/
theorem bit_reconstruct (hkind : snap.collection = .keyed) (hoverlay : IsOverlay snap)
    (hbytes : reconstructBitmapBytes snap = some bytes) :
    bit bytes j = (bit ((scalarBytes snap).getD []) j ^^ decide (j ∈ positions snap)) := by
  have hnil : ∀ data : Bytes, (bitEntries snap).isEmpty = true →
      ∀ i ∈ positions snap, i / 8 < data.length := by
    intro data hemp i hi
    simp [positions, isEmpty_iff.mp hemp] at hi
  unfold reconstructBitmapBytes at hbytes
  rw [if_neg (by rw [hkind]; decide)] at hbytes
  cases hsc : snap.scalar with
  | some base =>
    rw [hsc] at hbytes
    cases hbytes
    rw [foldl_toggle]
    show bit (toggleAll (positions snap) _) j = _
    rw [bit_toggleAll (nodup_positions hoverlay)]
    · have hb : scalarBytes snap = base.decompress := by rw [scalarBytes, hsc]; rfl
      rw [hb]
      split
      · rfl
      · rw [bit_pad]
    · intro i hi
      split
      · rename_i hemp
        exact hnil _ hemp i hi
      · have := le_maxOffset hi
        rw [length_pad]
        omega
  | none =>
    rw [hsc] at hbytes
    simp only at hbytes
    split at hbytes
    · cases hbytes
    · cases hbytes
      rw [foldl_put]
      show bit (BitString.putAll (positions snap) _) j = _
      rw [bit_putAll, scalarBytes, hsc]
      · simp
      · intro i hi
        have := le_maxOffset hi
        rw [length_replicate]
        omega

theorem elementInt_cases (hoverlay : IsOverlay snap) (h : snap.netAdds.lookup id = some element) :
    elementInt element = 0 ∨ elementInt element = 1 := by
  rcases hoverlay.value id element h with hv | hv
  · exact .inl (by rw [elementInt, hv]; rfl)
  · exact .inr (by rw [elementInt, hv]; rfl)

section

variable (hkind : snap.collection = .keyed) (hoverlay : IsOverlay snap)
    (hbytes : reconstructBitmapBytes snap = some bytes)

include hkind hoverlay hbytes

/-- `GETBIT` on an overlay reads the bits that are reconstructed. -/
theorem getBit_eq (hj : j < 2 ^ 63) : getBit snap j = (bit bytes j).toNat := by
  rw [bit_reconstruct hkind hoverlay hbytes]
  have hmem := mem_positions_iff hoverlay hj
  have hb : (if snap.scalar = none then 0 else getScalarBit ((scalarBytes snap).getD []) j) =
      ((bit ((scalarBytes snap).getD []) j).toNat : ℤ) := by
    split
    · rename_i hn
      simp [scalarBytes, hn]
    · exact getScalarBit_eq _ _
  unfold getBit
  rw [if_pos hkind]
  simp only [hb]
  cases hl : snap.netAdds.lookup (formatInt j) with
  | none =>
    have hout : j ∉ positions snap := by
      rw [hmem, hl]
      rintro ⟨element, h, -⟩
      cases h
    simp [hout]
  | some element =>
    have hiff : j ∈ positions snap ↔ elementInt element = 1 := by
      rw [hmem, hl]
      simp
    simp only [hiff]
    by_cases hsc : snap.scalar = none
    · have h0 : bit ((scalarBytes snap).getD []) j = false := by
        simp [scalarBytes, hsc]
      rcases elementInt_cases hoverlay hl with h | h
      all_goals simp [h, h0]
    · rcases elementInt_cases hoverlay hl with h | h
      · simp [hsc, h]
      · cases bit ((scalarBytes snap).getD []) j with
        | false | true => simp [hsc, h]

theorem countP_entries (hsc : snap.scalar = none) :
    (snap.netAdds.entries.countP fun element => elementInt element.2 = 1) =
      bitCount (some bytes) none := by
  have hbit : ∀ j, bit bytes j = decide (j ∈ positions snap) := fun j => by
    rw [bit_reconstruct hkind hoverlay hbytes, scalarBytes, hsc]
    simp
  have hpm : (positions snap).Perm ((range (8 * bytes.length)).filter (bit bytes)) := by
    rw [perm_ext_iff_of_nodup (nodup_positions hoverlay) (nodup_range.filter _)]
    intro j
    rw [mem_filter, mem_range]
    constructor
    · intro hj
      have hset : bit bytes j = true := by rw [hbit]; exact decide_eq_true hj
      exact ⟨lt_length_of_bit hset, hset⟩
    · rintro ⟨-, hset⟩
      rw [hbit] at hset
      exact of_decide_eq_true hset
  have hc : bitCount (some bytes) none =
      ((range (8 * bytes.length)).filter (bit bytes)).length := by
    rw [← countP_eq_length_filter]
    apply countP_congr
    intro p _
    rw [Bool.and_eq_true, decide_eq_true_iff]
    exact and_iff_left trivial
  rw [hc, ← hpm.length_eq, positions, length_map, ← countP_eq_length_filter,
    bitEntries, countP_map]
  rfl

end

end Overlay

end Swytch.Redis.Strings
