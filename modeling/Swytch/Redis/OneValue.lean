import Swytch.Redis.Bitmaps

/-!
# The value that the string commands see

Whatever way a string is stored in, the commands should see one value, the one that `GET` replies.
They do exactly if the key is `Uniform`.  A counter or a float is written as a numeral by `GET`, and
the bitmap commands see no bytes; a deleted key is an empty string for `MGET`; an overlay over a
scalar that is marked as a string is of the wrong type for `GET`; an increment of a bitmap leaves a
number that is read as no bytes; and `ParseInt64` takes more than the canonical numerals.

The engine adds an increment to the numeral of an integer (`AddsIntegers`).  Of the text of a float
it is only used that it has a byte that is not zero.
-/

namespace Swytch.Redis.Strings

open Snapshot
open Int64
open Option
open Sql (Bytes utf8 F64)
open BitString
open Context (getAnySnapshot getAnySnapshot_of_live)
open Reference (bitCount)

/-! ## 1.  Keys that hold a string -/

variable {s : StringSnapshot} {offset : ℕ} {n : ℤ} {delta current : Int64}

section Reachable

/-- The effects that the string and bitmap commands emit. -/
inductive IsStringEffect : Effect StoredValue → Prop
  | noop : IsStringEffect .noop
  | mark (tag : ValueType) (expiresAt : Option ℤ) (htag : IsStringTag tag) :
      IsStringEffect (.metadata { typeTag := tag, expiresAt := expiresAt })
  | write (rule : MergeRule) (value : StoredValue) :
      IsStringEffect (.data
        { op := .insert, merge := rule, collection := .scalar, value := some value })
  | delete : IsStringEffect (.data { op := .remove, collection := .scalar })
  | setBit (offset : ℕ) (value : Int64) (hoffset : offset < 2 ^ 63) (hvalue : value = 0 ∨ value = 1) :
      IsStringEffect (.data
        { op := .insert, collection := .keyed, id := formatInt offset, value := some (.intVal value) })
  | clearBit (id : Bytes) : IsStringEffect (.data { op := .remove, collection := .keyed, id := id })

variable {snap : Option StringSnapshot}

theorem isStringTag_forInsert (h : StringKind snap) (collection : CollectionKind) :
    IsStringTag (forInsert snap collection).typeTag := by
  unfold forInsert
  split
  · exact .inl rfl
  · split
    · exact .inl rfl
    · split
      all_goals exact h.1

theorem isOverlay_forInsert (h : StringKind snap) : IsOverlay (forInsert snap .keyed) := by
  have hnil : ∀ s : StringSnapshot, s.netAdds = ∅ → IsOverlay s := by
    intro s hs
    refine ⟨fun id hid => ?_, fun id element hl => ?_⟩
    · rw [hs] at hid
      cases hid
    · rw [hs] at hl
      cases hl
  cases snap with
  | none => exact hnil _ rfl
  | some snap =>
    obtain ⟨-, h⟩ := h
    by_cases hop : snap.op = .remove
    · rw [forInsert, if_pos hop]
      exact hnil _ rfl
    · by_cases hkind : snap.collection = .keyed
      · have hinsert : snap.op = .insert := by
          cases hcs : snap.op with
          | insert => rfl
          | remove => exact absurd hcs hop
        rw [forInsert_of_same hinsert hkind]
        simp only [hinsert, hkind] at h
        exact h
      · rw [forInsert, if_neg hop, if_neg hkind]
        exact hnil _ rfl

theorem IsOverlay.insert (h : IsOverlay s) {value : Int64} (hoff : offset < 2 ^ 63)
    (hv : value = 0 ∨ value = 1) (rule : MergeRule) :
    IsOverlay { s with
      merge := rule
      netAdds := s.netAdds.insert (formatInt offset) ⟨some (.intVal value), none⟩ } where
  id := by
    intro id hid
    rcases (AList.mem_insert _).mp hid with rfl | hid
    · exact ⟨offset, hoff, rfl⟩
    · exact h.id id hid
  value := by
    intro id element hl
    by_cases hid : id = formatInt offset
    · subst hid
      simp only [AList.lookup_insert, some.injEq] at hl
      subst hl
      rcases hv with rfl | rfl
      · exact .inl rfl
      · exact .inr rfl
    · simp only [AList.lookup_insert_ne hid] at hl
      exact h.value id element hl

theorem IsOverlay.erase (h : IsOverlay s) (id : Bytes) :
    IsOverlay { s with netAdds := s.netAdds.erase id } where
  id := fun other ho => h.id other (AList.mem_erase.mp ho).2
  value := by
    intro other element hl
    by_cases hid : other = id
    · subst hid
      simp only [AList.lookup_erase] at hl
      cases hl
    · simp only [AList.lookup_erase_ne hid] at hl
      exact h.value other element hl

theorem stringKind_scalar (htag : IsStringTag s.typeTag) (hop : s.op = .insert)
    (hkind : s.collection = .scalar) : StringKind (some s) := by
  refine ⟨htag, ?_⟩
  simp only [hop, hkind]

theorem stringKind_keyed (htag : IsStringTag s.typeTag) (hop : s.op = .insert)
    (hkind : s.collection = .keyed) (hoverlay : IsOverlay s) : StringKind (some s) := by
  refine ⟨htag, ?_⟩
  simp only [hop, hkind]
  exact hoverlay

/-- The ways in which a string is stored. -/
theorem stringKind_cases (h : StringKind (some s)) :
    (s.op = .remove ∧ s.collection = .scalar ∧ s.scalar = none) ∨
      (s.op = .insert ∧ s.collection = .scalar) ∨
        (s.op = .insert ∧ s.collection = .keyed ∧ IsOverlay s) := by
  obtain ⟨-, h⟩ := h
  cases hop : s.op with
  | remove =>
    cases hkind : s.collection with
    | scalar =>
      simp only [hop, hkind] at h
      exact .inl ⟨rfl, rfl, h⟩
    | keyed | ordered => simp only [hop, hkind] at h
  | insert =>
    cases hkind : s.collection with
    | scalar => exact .inr (.inl ⟨rfl, rfl⟩)
    | keyed =>
      simp only [hop, hkind] at h
      exact .inr (.inr ⟨rfl, rfl, h⟩)
    | ordered => simp only [hop, hkind] at h

variable [MergeValue StoredValue]

/-- One more effect leaves a key that holds a string. -/
theorem stringKind_apply {effect : Effect StoredValue} (heffect : IsStringEffect effect)
    (h : StringKind snap) : StringKind (effect.apply snap) := by
  cases heffect with
  | noop => exact h
  | mark tag expiresAt htag =>
    have hmark : ∀ old, IsStringTag old → IsStringTag (if tag = .unspecified then old else tag) := by
      intro old hold
      split
      · exact hold
      · exact htag
    cases snap with
    | none => exact stringKind_scalar (hmark _ (.inl rfl)) rfl rfl
    | some snap =>
      rcases stringKind_cases h with ⟨hop, -, -⟩ | ⟨hop, hkind⟩ | ⟨hop, hkind, hoverlay⟩
      · simp only [Effect.apply, if_pos hop]
        exact h
      · simp only [Effect.apply, hop]
        exact stringKind_scalar (hmark _ h.1) hop hkind
      · simp only [Effect.apply, hop]
        exact stringKind_keyed (hmark _ h.1) hop hkind ⟨hoverlay.id, hoverlay.value⟩
  | write rule value =>
    exact stringKind_scalar (isStringTag_forInsert h .scalar) (forInsert_op _ _)
      (forInsert_collection _ _)
  | delete => exact ⟨.inl rfl, rfl⟩
  | setBit offset value hoff hv =>
    exact stringKind_keyed (isStringTag_forInsert h .keyed) (forInsert_op _ _)
      (forInsert_collection _ _)
      ((isOverlay_forInsert h).insert hoff hv .lastWriteWins)
  | clearBit id =>
    cases snap with
    | none => exact trivial
    | some snap =>
      rcases stringKind_cases h with ⟨hop, hkind, hsc⟩ | ⟨hop, hkind⟩ | ⟨hop, hkind, hoverlay⟩
      · refine ⟨h.1, ?_⟩
        simp only [remove, hop, hkind]
        exact hsc
      · exact stringKind_scalar h.1 hop hkind
      · exact stringKind_keyed h.1 hop hkind (hoverlay.erase id)

end Reachable

section Reads

variable {formatFloat : F64 → Bytes} {ctx : Context StoredValue} {key : Bytes}
  {snap str : StringSnapshot} {b : Bytes}

theorem getElem?_handleMGet {keys : List Bytes} {i : ℕ} (h : keys[i]? = some key) :
    (handleMGet formatFloat ctx keys)[i]? = some (mgetReply formatFloat (ctx.snapshots key)) := by
  rw [handleMGet, List.getElem?_map, h, map_some]

theorem showsReads_absent (h : ctx.getAnySnapshot key = none)
    (hmget : mgetReply formatFloat (ctx.snapshots key) = .null) :
    ShowsReads formatFloat ctx key none where
  get := by simp [handleGet, getStringSnapshot, h, Reference.get]
  strLen := by simp [handleStrLen, getStringSnapshot, h, Reference.strLen]
  getRange := by simp [handleGetRange, getStringSnapshot, h, Reference.getRange]
  mget := fun keys i hi => by rw [getElem?_handleMGet hi, hmget, Reference.get]
  bitCount := by simp [handleBitCount, getBitmapSnapshot, h, bitCount]
  getBit := by simp [handleGetBit, getBitmapSnapshot, h, Reference.getBit]
  bitPos := by
    intro searchBit range
    cases searchBit with
    | false | true => simp [handleBitPos, getBitmapSnapshot, h, Reference.bitPos]

/-- A key for which the lookups of both families give the same bytes. -/
theorem showsReads_found (hstr : getStringSnapshot ctx key = .found str)
    (hraw : snapshotToRaw formatFloat str = b) (hbm : getBitmapSnapshot ctx key = .found snap)
    (hbytes : reconstructBitmapBytes snap = some b)
    (hgetBit : ∀ offset, offset < 2 ^ 63 → getBit snap offset = (bit b offset).toNat)
    (hc : snap.collection = .keyed → snap.scalar = none →
      (snap.netAdds.entries.countP fun element => elementInt element.2 = 1) =
        bitCount (some b) none)
    (hmget : mgetReply formatFloat (ctx.snapshots key) = .bulk b) :
    ShowsReads formatFloat ctx key (some b) where
  get := by simp [handleGet, hstr, hraw, Reference.get]
  strLen := by simp [handleStrLen, hstr, hraw, Reference.strLen]
  getRange := by simp [handleGetRange, hstr, hraw, sliceRange_eq]
  mget := fun keys i hi => by rw [getElem?_handleMGet hi, hmget, Reference.get]
  bitCount := by
    intro range
    simp only [handleBitCount, hbm, hbytes, countBits_eq]
    split
    · rename_i hfast
      obtain ⟨hn, hkind, hsc⟩ := hfast
      rw [hc hkind hsc, isNone_iff_eq_none.mp hn]
    · rfl
  getBit := by
    intro offset hoff
    simp [handleGetBit, hbm, hgetBit offset hoff, Reference.getBit]
  bitPos := by
    simp [handleBitPos, hbm, hbytes, searchBits_eq]

theorem collection_of_isScalarString (h : isScalarString snap = true) :
    snap.collection = .scalar := by
  simp only [isScalarString, Bool.and_eq_true, decide_eq_true_eq] at h
  exact h.1

section

variable (h : ctx.getAnySnapshot key = some snap)

include h

theorem getBitmapSnapshot_of (hkind : snap.collection = .scalar ∨ snap.collection = .keyed) :
    getBitmapSnapshot ctx key = .found snap := by
  rcases hkind with hkind | hkind
  all_goals simp [getBitmapSnapshot, h, hkind]

theorem getStringSnapshot_of_bitmap (htag : snap.typeTag = .bitmap) :
    getStringSnapshot ctx key = .found (synthetic (reconstructBitmapBytes snap) snap.expiresAt) := by
  simp [getStringSnapshot, h, isScalarString, reconstructBytes, htag]

theorem getStringSnapshot_of_string (hstr : isScalarString snap = true) :
    getStringSnapshot ctx key = .found snap := by
  simp [getStringSnapshot, h, hstr]

end

theorem handleGet_of_found (h : getStringSnapshot ctx key = .found str) :
    handleGet formatFloat ctx key = .bulk (snapshotToRaw formatFloat str) := by
  simp [handleGet, h]

theorem mgetReply_of_bitmap (htag : snap.typeTag = .bitmap) :
    mgetReply formatFloat (some snap) =
      Reference.get (reconstructBitmapBytes snap) := by
  simp only [mgetReply, isScalarString, reconstructBytes, htag]
  cases reconstructBitmapBytes snap with
  | none | some data => simp [Reference.get]

theorem reconstruct_scalar (hkind : snap.collection = .scalar) :
    reconstructBitmapBytes snap = scalarBytes snap := by
  rw [reconstructBitmapBytes, if_pos hkind]

section

variable (h : scalarBytes snap = some b)

include h

theorem scalar_of_bytes : snap.scalar = some (.raw b) ∨ snap.scalar = some (.compressed b) := by
  obtain ⟨value, hsc, hv⟩ := bind_eq_some_iff.mp h
  cases value with
  | raw bytes => exact .inl (some.inj hv ▸ hsc)
  | compressed bytes => exact .inr (some.inj hv ▸ hsc)
  | intVal n | floatVal f => cases hv

theorem snapshotToRaw_of_bytes : snapshotToRaw formatFloat snap = b := by
  unfold snapshotToRaw
  rcases scalar_of_bytes h with h | h <;> rw [h]

theorem snapshotToInt_of_bytes : snapshotToInt snap = (parseInt64 b).map ofInt := by
  unfold snapshotToInt
  rcases scalar_of_bytes h with h | h <;> rw [h]

theorem snapshotToInt_of_parse (hp : parseInt64 b = some n) :
    snapshotToInt snap = some (ofInt n) := by
  rw [snapshotToInt_of_bytes h, hp]
  rfl

end

section

variable (hkind : snap.collection = .scalar ∨ snap.collection = .keyed)
    (hoverlay : snap.collection = .keyed → IsOverlay snap)
    (hbytes : reconstructBitmapBytes snap = some b)

include hkind hoverlay hbytes

theorem getBit_of_bytes (hoff : offset < 2 ^ 63) :
    getBit snap offset = (bit b offset).toNat := by
  rcases hkind with hsc | hkd
  · rw [reconstruct_scalar hsc] at hbytes
    rw [getBit, if_neg (by rw [hsc]; decide), hbytes, getD_some, getScalarBit_eq]
  · exact getBit_eq hkd (hoverlay hkd) hbytes hoff

/-- A bitmap whose bytes can be reconstructed. -/
theorem showsReads_bitmap (h : ctx.snapshots key = some snap) (hop : snap.op = .insert)
    (htag : snap.typeTag = .bitmap) : ShowsReads formatFloat ctx key (some b) := by
  have hany := getAnySnapshot_of_live h hop
  refine showsReads_found (getStringSnapshot_of_bitmap hany htag) ?_
    (getBitmapSnapshot_of hany hkind) hbytes
    (fun offset hoff => getBit_of_bytes hkind hoverlay hbytes hoff)
    (fun hkd hsc => countP_entries hkd (hoverlay hkd) hbytes hsc) ?_
  · rw [hbytes]
    rfl
  · rw [h, mgetReply_of_bitmap htag, hbytes]
    rfl

end

/-- A scalar with bytes that is marked as a string. -/
theorem showsReads_string (h : ctx.snapshots key = some snap) (hop : snap.op = .insert)
    (hstr : isScalarString snap = true) (hbytes : scalarBytes snap = some b) :
    ShowsReads formatFloat ctx key (some b) := by
  have hany := getAnySnapshot_of_live h hop
  have hkind := collection_of_isScalarString hstr
  have hkd : snap.collection ≠ .keyed := by
    rw [hkind]
    decide
  have hrec := (reconstruct_scalar hkind).trans hbytes
  refine showsReads_found (getStringSnapshot_of_string hany hstr) (snapshotToRaw_of_bytes hbytes)
    (getBitmapSnapshot_of hany (.inl hkind)) hrec
    (fun offset hoff => getBit_of_bytes (.inl hkind) (fun hk => absurd hk hkd) hrec
      hoff) (fun hk => absurd hk hkd) ?_
  rw [h, mgetReply, if_pos hstr, snapshotToRaw_of_bytes hbytes]

/-- `GET` and `MGET` tell whether there is a string. -/
theorem get_injective {b b' : Option Bytes} (h : Reference.get b = Reference.get b') : b = b' := by
  cases b with
  | none =>
    cases b' with
    | none => rfl
    | some _ => cases h
  | some _ =>
    cases b' with
    | none => cases h
    | some _ => rw [StringReply.bulk.inj h]

/-- What `GET` finds is the value that the reads show. -/
theorem eq_of_found {b : Option Bytes} (h : ShowsReads formatFloat ctx key b)
    (hfound : getStringSnapshot ctx key = .found str) :
    b = some (snapshotToRaw formatFloat str) := by
  apply get_injective
  rw [← h.get, handleGet_of_found hfound]
  rfl

theorem mgetReply_eq {b : Option Bytes} (h : ShowsReads formatFloat ctx key b) :
    mgetReply formatFloat (ctx.snapshots key) = Reference.get b := by
  have hone := h.mget [key] 0 rfl
  exact some.inj hone

theorem bitCount_ne_zero (h : ∃ c ∈ b, c ≠ 0) : bitCount (some b) none ≠ 0 := by
  obtain ⟨c, hmem, hne⟩ := h
  obtain ⟨i, hi⟩ := exists_bit hmem hne
  rw [bitCount_eq]
  have hpl : i ∈ places b none :=
    List.mem_filter.mpr ⟨List.mem_range.mpr (lt_length_of_bit hi), decide_eq_true trivial⟩
  exact (List.countP_pos_iff.mpr ⟨i, hpl, hi⟩).ne'

/-- The bit commands see nothing of a number. -/
theorem bitCount_of_number (h : ctx.getAnySnapshot key = some snap)
    (hkind : snap.collection = .scalar) (hn : scalarBytes snap = none) :
    handleBitCount ctx key none = .integer 0 := by
  have hkd : snap.collection ≠ .keyed := by
    rw [hkind]
    decide
  simp only [handleBitCount, getBitmapSnapshot_of h (.inl hkind), hkd, false_and,
    reconstruct_scalar hkind, hn]
  rfl

/-- A deleted key is not marked as a string. -/
theorem uniform_removed (hop : snap.op = .remove) (hkind : snap.collection = .scalar)
    (htag : IsStringTag snap.typeTag) (hsnap : ctx.snapshots key = some snap) {b : Option Bytes}
    (hrds : ShowsReads formatFloat ctx key b) : snap.typeTag = .bitmap := by
  have hany : ctx.getAnySnapshot key = none := by simp [getAnySnapshot, hsnap, hop]
  have hget : handleGet formatFloat ctx key = .null := by simp [handleGet, getStringSnapshot, hany]
  have hmget := mgetReply_eq hrds
  rw [← hrds.get, hget, hsnap, mgetReply] at hmget
  rcases htag with htag | htag | htag
  · rw [if_pos (by simp [isScalarString, hkind, htag])] at hmget
    cases hmget
  · rw [if_pos (by simp [isScalarString, hkind, htag])] at hmget
    cases hmget
  · exact htag

end Reads

/-! ## 3.  Increments -/

theorem overflows_eq_false_iff :
    overflows current delta = false ↔ IsInt64 (current.toInt + delta.toInt) := by
  have hc := isInt64_toInt current
  have hd := isInt64_toInt delta
  simp only [overflows, lt_iff_toInt_lt, toInt_add, toInt_zero, Bool.or_eq_false_iff,
    Bool.and_eq_false_iff, decide_eq_false_iff_not, Int.bmod_def]
  unfold IsInt64 at *
  omega

theorem toInt_add_of_isInt64 (h : IsInt64 (current.toInt + delta.toInt)) :
    (current + delta).toInt = current.toInt + delta.toInt := by
  obtain ⟨hlow, hhi⟩ := h
  rw [toInt_add]
  exact Int.bmod_eq_of_le (by omega) (by omega)

theorem toInt_ofInt_of_isInt64 (hn : IsInt64 n) : (ofInt n).toInt = n := by
  obtain ⟨hlow, hhi⟩ := hn
  rw [toInt_ofInt]
  exact Int.bmod_eq_of_le (by rw [size]; omega) (by rw [size]; omega)

theorem isInt64_add_zero (hn : IsInt64 n) : IsInt64 ((ofInt n).toInt + (0 : Int64).toInt) := by
  rw [toInt_ofInt_of_isInt64 hn, toInt_zero, add_zero]
  exact hn

theorem forInsert_of_absent {ctx : Context StoredValue} {key : Bytes}
    (h : ctx.getAnySnapshot key = none) :
    forInsert (ctx.snapshots key) .scalar = .fresh .scalar := by
  cases hsnap : ctx.snapshots key with
  | none => rfl
  | some snap =>
    have hop : snap.op = .remove := by
      by_contra hop
      simp [getAnySnapshot, hsnap, hop] at h
    simp [forInsert, hop]

section Increments

variable [MergeValue StoredValue] {formatFloat : F64 → Bytes} {ctx : Context StoredValue}
  {key : Bytes}

/-- The engine adds an increment to a numeral. -/
def AddsIntegers : Prop :=
  ∀ (value : StoredValue) (n delta : Int64), value.decompress = some (formatInt n.toInt) →
    IsInt64 (n.toInt + delta.toInt) →
      MergeValue.combine .additiveInt value (.intVal delta) = .intVal (n + delta)

/-- Each command that is accepted adds a number. -/
theorem exists_delta {cmd : Increment} (h : cmd.IsAccepted) :
    ∃ delta : Int64, delta.toInt = cmd.amount ∧
      ∀ (ctx : Context StoredValue) (key : Bytes), cmd.run ctx key = incrBy ctx key delta := by
  cases cmd with
  | incr => exact ⟨1, rfl, fun _ _ => rfl⟩
  | decr => exact ⟨-1, rfl, fun _ _ => rfl⟩
  | incrBy delta => exact ⟨delta, rfl, fun _ _ => rfl⟩
  | decrBy delta =>
    have hne : delta ≠ minValue := h
    have hlow : delta.toInt ≠ -2 ^ 63 := fun heq => hne (toInt_inj.mp heq)
    obtain ⟨hle, hlt⟩ := isInt64_toInt delta
    refine ⟨-delta, ?_, fun _ _ => if_neg hne⟩
    rw [toInt_neg]
    exact Int.bmod_eq_of_le (by omega) (by omega)

/-- The increments show `b` if `incrBy` does for every number. -/
theorem showsIncrements_of {b : Option Bytes}
    (hsuc : ∀ (delta : Int64) (n : ℤ), Reference.IsValue b n → IsInt64 (n + delta.toInt) →
      (incrBy ctx key delta).1 = .integer (n + delta.toInt) ∧
        handleGet formatFloat (incrBy ctx key delta).2 key = .bulk (formatInt (n + delta.toInt)))
    (hfails : ∀ delta : Int64, (¬ ∃ n, Reference.IsValue b n ∧ IsInt64 (n + delta.toInt)) →
      ∃ message, (incrBy ctx key delta).1 = .error message) :
    ShowsIncrements formatFloat ctx key b where
  succeeds := by
    intro cmd n hacc hv hf
    obtain ⟨delta, hd, hrun⟩ := exists_delta hacc
    rw [← hd] at hf ⊢
    rw [hrun]
    exact hsuc delta n hv hf
  fails := by
    intro cmd hacc hn
    obtain ⟨delta, hd, hrun⟩ := exists_delta hacc
    rw [← hd] at hn
    rw [hrun]
    exact hfails delta hn

/-- What the key holds after an increment is emitted. -/
def incremented (snap : Option StringSnapshot) (delta : Int64) : StringSnapshot :=
  (Snapshot.forInsert snap .scalar).insert
    { op := .insert, merge := .additiveInt, collection := .scalar, value := some (.intVal delta) }

variable (ctx key) in
theorem emitIncrInt_snapshots (delta : Int64) :
    (emitIncrInt key delta ctx).snapshots key = some (incremented (ctx.snapshots key) delta) :=
  Context.emit_snapshots_self _

theorem incremented_op (snap : Option StringSnapshot) (delta : Int64) :
    (incremented snap delta).op = .insert := forInsert_op snap .scalar

theorem incremented_collection (snap : Option StringSnapshot) (delta : Int64) :
    (incremented snap delta).collection = .scalar := forInsert_collection snap .scalar

/-- A meta effect on a key that is there. -/
theorem getAnySnapshot_emit_meta {snap : StringSnapshot} {effect : MetaEffect}
    (h : ctx.snapshots key = some snap) (hop : snap.op = .insert) :
    (ctx.emit key (.metadata effect)).snapshots key = some (snap.setMeta effect) := by
  rw [Context.emit_snapshots_self, h]
  simp [Effect.apply, hop]

/-- Without an overflow the sum is replied, and the scalar that is stored has the type of what it
is merged into. -/
theorem incrBy_found {str : StringSnapshot} (hfound : getStringSnapshot ctx key = .found str)
    (hcur : snapshotToInt str = some current) (hf : IsInt64 (current.toInt + delta.toInt)) :
    (incrBy ctx key delta).1 = .integer (current.toInt + delta.toInt) ∧
      ∃ snap, (incrBy ctx key delta).2.getAnySnapshot key = some snap ∧
        snap.collection = .scalar ∧
        snap.typeTag = (forInsert (ctx.snapshots key) .scalar).typeTag ∧
        snap.scalar = mergeValue .additiveInt (forInsert (ctx.snapshots key) .scalar).scalar
          (some (.intVal delta)) := by
  have hnowrap := overflows_eq_false_iff.mpr hf
  have hop := incremented_op (ctx.snapshots key) delta
  have hkind := incremented_collection (ctx.snapshots key) delta
  have hst := emitIncrInt_snapshots ctx key delta
  unfold incrBy
  rw [hfound]
  simp only [hcur, hnowrap, Bool.false_eq_true, if_false]
  cases str.expiresAt with
  | none =>
    refine ⟨by rw [toInt_add_of_isInt64 hf], _, ?_, hkind, rfl, rfl⟩
    simp [getAnySnapshot, hst, hop]
  | some expiresAt =>
    refine ⟨by rw [toInt_add_of_isInt64 hf],
      (incremented (ctx.snapshots key) delta).setMeta { expiresAt := some expiresAt }, ?_, hkind,
      rfl, rfl⟩
    · simp only [getAnySnapshot, emitStringTTL, getAnySnapshot_emit_meta hst hop]
      simp [setMeta, hop]

end Increments

/-! ## 4.  When the commands agree -/

section Agreement

variable [MergeValue StoredValue] {formatFloat : F64 → Bytes} {ctx : Context StoredValue}
  {key : Bytes} {snap str : StringSnapshot} {b : Bytes}

theorem showsIncrements_absent (h : ctx.getAnySnapshot key = none) :
    ShowsIncrements formatFloat ctx key none := by
  have hl : getStringSnapshot ctx key = .absent := by simp [getStringSnapshot, h]
  apply showsIncrements_of
  · rintro delta n rfl hf
    have hnowrap : overflows 0 delta = false := overflows_eq_false_iff.mpr hf
    have hst := emitIncrInt_snapshots ctx key delta
    have hop := incremented_op (ctx.snapshots key) delta
    have hv : incremented (ctx.snapshots key) delta =
        { fresh .scalar with merge := .additiveInt, scalar := some (.intVal delta) } := by
      rw [incremented, forInsert_of_absent h]
      rfl
    simp only [incrBy, hl, hnowrap, Bool.false_eq_true, if_false]
    have hany : (emitStringTypeTag key (emitIncrInt key delta ctx)).getAnySnapshot key =
        some ((incremented (ctx.snapshots key) delta).setMeta { typeTag := .string }) := by
      simp only [getAnySnapshot, emitStringTypeTag, getAnySnapshot_emit_meta hst hop]
      simp [setMeta, hop]
    rw [handleGet_of_found (getStringSnapshot_of_string hany (by rw [hv]; rfl)), hv]
    simp [snapshotToRaw, setMeta]
  · intro delta hn
    refine absurd ⟨0, rfl, ?_⟩ hn
    rw [zero_add]
    exact isInt64_toInt delta

section

variable (hfound : getStringSnapshot ctx key = .found str)

include hfound

theorem incrBy_of_text (hn : snapshotToInt str = none) (delta : Int64) :
    (incrBy ctx key delta).1 = notInteger := by
  simp [incrBy, hfound, hn]

theorem incrBy_of_overflow (hcur : snapshotToInt str = some current)
    (hout : ¬ IsInt64 (current.toInt + delta.toInt)) :
    (incrBy ctx key delta).1 = .error "ERR increment or decrement would overflow" := by
  have hwrap : overflows current delta = true := by
    rw [← Bool.not_eq_false, overflows_eq_false_iff]
    exact hout
  simp [incrBy, hfound, hcur, hwrap]

theorem showsIncrements_text (hbytes : scalarBytes str = some b) (hp : parseInt64 b = none) :
    ShowsIncrements formatFloat ctx key (some b) := by
  have hno : snapshotToInt str = none := by rw [snapshotToInt_of_bytes hbytes, hp]; rfl
  apply showsIncrements_of
  · rintro delta n ⟨hn, rfl⟩
    rw [parseInt64_formatInt hn] at hp
    cases hp
  · intro delta _
    exact ⟨_, incrBy_of_text hfound hno delta⟩

end

/-- An increment is added to a numeral. -/
theorem mergeValue_numeral (hadds : AddsIntegers) (hn : IsInt64 n)
    (hbytes : scalarBytes snap = some (formatInt n))
    (hf : IsInt64 ((ofInt n).toInt + delta.toInt)) :
    mergeValue .additiveInt snap.scalar (some (.intVal delta)) =
      some (.intVal (ofInt n + delta)) := by
  obtain ⟨value, hv, hdecompress⟩ := bind_eq_some_iff.mp hbytes
  rw [← toInt_ofInt_of_isInt64 hn] at hdecompress
  rw [hv]
  exact congrArg some (hadds value _ delta hdecompress hf)

/-- An increment is added to a numeral in a scalar that is marked as a string. -/
theorem showsIncrements_numeral (hadds : AddsIntegers) (h : ctx.snapshots key = some snap)
    (hop : snap.op = .insert) (hstr : isScalarString snap = true) (hn : IsInt64 n)
    (hbytes : scalarBytes snap = some (formatInt n)) :
    ShowsIncrements formatFloat ctx key (some (formatInt n)) := by
  have hany := getAnySnapshot_of_live h hop
  have hkind := collection_of_isScalarString hstr
  have hfound := getStringSnapshot_of_string hany hstr
  have hcur := snapshotToInt_of_parse hbytes (parseInt64_formatInt hn)
  have hb := toInt_ofInt_of_isInt64 hn
  have hsame : forInsert (ctx.snapshots key) .scalar = snap := by
    rw [h, forInsert_of_same hop hkind]
  apply showsIncrements_of
  · rintro delta m ⟨hm, heq⟩ hf
    obtain rfl := formatInt_injective hn hm heq
    rw [← hb] at hf
    obtain ⟨hr, after, ha, hsc, htag, hv⟩ := incrBy_found hfound hcur hf
    rw [hb] at hr
    refine ⟨hr, ?_⟩
    rw [hsame] at htag hv
    rw [mergeValue_numeral hadds hn hbytes hf] at hv
    have hafterString : isScalarString after = true := by
      rw [isScalarString, hkind] at hstr
      rw [isScalarString, hsc, htag]
      exact hstr
    rw [handleGet_of_found (getStringSnapshot_of_string ha hafterString), snapshotToRaw, hv]
    simp only [toInt_add_of_isInt64 hf, hb]
  · intro delta hno
    refine ⟨_, incrBy_of_overflow hfound hcur ?_⟩
    rw [hb]
    exact fun hf => hno ⟨n, ⟨hn, rfl⟩, hf⟩

omit [MergeValue StoredValue] in
/-- A scalar that is not marked as a bitmap is taken as it is. -/
theorem isScalarString_of_tag (hkind : snap.collection = .scalar) (htag : IsStringTag snap.typeTag)
    (hbm : snap.typeTag ≠ .bitmap) : isScalarString snap = true := by
  rcases htag with htag | htag | htag
  · simp [isScalarString, hkind, htag]
  · simp [isScalarString, hkind, htag]
  · exact absurd htag hbm

/-- The commands agree on what is stored in one of these ways. -/
theorem oneValue_of_uniform (hadds : AddsIntegers) (hkind : StringKind (ctx.snapshots key))
    (h : Uniform (ctx.snapshots key)) : OneValue formatFloat ctx key := by
  cases hsnap : ctx.snapshots key with
  | none =>
    have hany : ctx.getAnySnapshot key = none := by simp [getAnySnapshot, hsnap]
    exact ⟨none, showsReads_absent hany (by rw [hsnap]; rfl), showsIncrements_absent hany⟩
  | some snap =>
    rw [hsnap] at h hkind
    rcases stringKind_cases hkind with
      ⟨hop, hcoll, hsc⟩ | ⟨hop, hcoll⟩ | ⟨hop, hcoll, hoverlay⟩
    · have hany : ctx.getAnySnapshot key = none := by simp [getAnySnapshot, hsnap, hop]
      simp only [Uniform, hop] at h
      have hmget : mgetReply formatFloat (ctx.snapshots key) = .null := by
        rw [hsnap, mgetReply_of_bitmap h, reconstruct_scalar hcoll, scalarBytes, hsc]
        rfl
      exact ⟨none, showsReads_absent hany hmget, showsIncrements_absent hany⟩
    · have hany := getAnySnapshot_of_live hsnap hop
      simp only [Uniform, hop, hcoll] at h
      obtain ⟨bytes, hbytes, hnumeral⟩ := h
      by_cases hbm : snap.typeTag = .bitmap
      · have hrec := (reconstruct_scalar hcoll).trans hbytes
        have hp : parseInt64 bytes = none := by
          cases hp : parseInt64 bytes with
          | none => rfl
          | some n => exact absurd hbm (hnumeral n hp).1
        refine ⟨some bytes, showsReads_bitmap (.inl hcoll)
          (fun hkd => ?_) hrec hsnap hop hbm,
          showsIncrements_text (getStringSnapshot_of_bitmap hany hbm) ?_ hp⟩
        · rw [hcoll] at hkd
          cases hkd
        · rw [hrec]
          rfl
      · have hstr := isScalarString_of_tag hcoll hkind.1 hbm
        refine ⟨some bytes, showsReads_string hsnap hop hstr hbytes, ?_⟩
        cases hp : parseInt64 bytes with
        | none =>
          exact showsIncrements_text (getStringSnapshot_of_string hany hstr) hbytes hp
        | some n =>
          obtain ⟨-, rfl⟩ := hnumeral n hp
          exact showsIncrements_numeral hadds hsnap hop hstr (parseInt64_bounds hp) hbytes
    · have hany := getAnySnapshot_of_live hsnap hop
      simp only [Uniform, hop, hcoll] at h
      obtain ⟨hbm, bytes, hbytes, hp⟩ := h
      refine ⟨some bytes, showsReads_bitmap (.inr hcoll)
        (fun _ => hoverlay) hbytes hsnap hop hbm,
        showsIncrements_text (getStringSnapshot_of_bitmap hany hbm) ?_ hp⟩
      rw [hbytes]
      rfl

/-- An increment by zero succeeds only on a numeral. -/
theorem exists_isValue {b : Option Bytes} (h : ShowsIncrements formatFloat ctx key b)
    (hfound : getStringSnapshot ctx key = .found str) (hn : IsInt64 n)
    (hcur : snapshotToInt str = some (ofInt n)) : ∃ m, Reference.IsValue b m := by
  by_contra hno
  obtain ⟨hr, -⟩ := incrBy_found hfound hcur (isInt64_add_zero hn)
  obtain ⟨message, herror⟩ := h.fails (.incrBy 0) trivial
    fun ⟨m, hm, _⟩ => hno ⟨m, hm⟩
  cases hr.symm.trans herror

/-- A scalar that is marked as a string holds bytes, and no numeral but a canonical one. -/
theorem uniform_string (hformat : ∀ f, ∃ c ∈ formatFloat f, c ≠ 0)
    (hany : ctx.getAnySnapshot key = some snap) (hstr : isScalarString snap = true)
    {b : Option Bytes} (hrds : ShowsReads formatFloat ctx key b)
    (hincr : ShowsIncrements formatFloat ctx key b) :
    ∃ bytes, scalarBytes snap = some bytes ∧
      ∀ n, parseInt64 bytes = some n → bytes = formatInt n := by
  have hkind := collection_of_isScalarString hstr
  have hfound := getStringSnapshot_of_string hany hstr
  obtain rfl := eq_of_found hrds hfound
  have hcnt := hrds.bitCount none
  cases hbytes : scalarBytes snap with
  | none =>
    rw [bitCount_of_number hany hkind hbytes, StringReply.integer.injEq] at hcnt
    have hnil : ¬ ∃ c ∈ snapshotToRaw formatFloat snap, c ≠ 0 := fun hc =>
      bitCount_ne_zero hc (by exact_mod_cast hcnt.symm)
    unfold scalarBytes at hbytes
    cases hsc : snap.scalar with
    | none =>
      have hcur : snapshotToInt snap = some 0 := by rw [snapshotToInt, hsc]
      obtain ⟨m, -, hm⟩ := exists_isValue hincr hfound (n := 0) (by decide) hcur
      obtain ⟨c, hc, -⟩ := exists_mem_formatInt m
      rw [← hm, snapshotToRaw, hsc] at hc
      cases hc
    | some value =>
      rw [hsc] at hbytes
      unfold snapshotToRaw at hnil
      rw [hsc] at hnil
      cases value with
      | raw bytes | compressed bytes => cases hbytes
      | intVal n => exact absurd (exists_mem_formatInt n.toInt) hnil
      | floatVal f => exact absurd (hformat f) hnil
  | some bytes =>
    refine ⟨bytes, rfl, fun n hp => ?_⟩
    obtain ⟨m, hm, heq⟩ := exists_isValue hincr hfound (parseInt64_bounds hp)
      (snapshotToInt_of_parse hbytes hp)
    rw [snapshotToRaw_of_bytes hbytes] at heq
    rw [heq, parseInt64_formatInt hm] at hp
    rw [heq, some.inj hp]

section

variable (hadds : AddsIntegers) (hop : snap.op = .insert) (hsnap : ctx.snapshots key = some snap)
    (htag : snap.typeTag = .bitmap) (hkind : snap.collection = .scalar ∨ snap.collection = .keyed)

include hadds hop hsnap htag hkind

/-- After an increment of a bitmap, the number that is stored is read as no bytes. -/
theorem handleGet_after_bitmap (hn : IsInt64 n)
    (hbytes : reconstructBitmapBytes snap = some (formatInt n)) :
    handleGet formatFloat (incrBy ctx key 0).2 key = .bulk [] := by
  have hany := getAnySnapshot_of_live hsnap hop
  have hfound := getStringSnapshot_of_bitmap hany htag
  rw [hbytes] at hfound
  have hf := isInt64_add_zero hn
  obtain ⟨-, after, ha, hsc, hafterTag, hv⟩ :=
    incrBy_found hfound (snapshotToInt_of_parse rfl (parseInt64_formatInt hn)) hf
  have hno : ∃ m, after.scalar = some (.intVal m) ∧ after.typeTag = .bitmap := by
    rcases hkind with hkind | hkind
    · rw [hsnap, forInsert_of_same hop hkind] at hv hafterTag
      rw [reconstruct_scalar hkind] at hbytes
      rw [mergeValue_numeral hadds hn hbytes hf] at hv
      exact ⟨_, hv, hafterTag.trans htag⟩
    · rw [hsnap] at hv hafterTag
      simp only [forInsert, hop, hkind] at hv hafterTag
      exact ⟨0, hv, hafterTag.trans htag⟩
  obtain ⟨m, hm, htag'⟩ := hno
  rw [handleGet_of_found (getStringSnapshot_of_bitmap ha htag'), reconstruct_scalar hsc,
    scalarBytes, hm]
  rfl

/-- The bytes of a bitmap can be reconstructed and are no number. -/
theorem uniform_bitmap {b : Option Bytes} (hrds : ShowsReads formatFloat ctx key b)
    (hincr : ShowsIncrements formatFloat ctx key b) :
    ∃ bytes, reconstructBitmapBytes snap = some bytes ∧ parseInt64 bytes = none := by
  have hany := getAnySnapshot_of_live hsnap hop
  have hfound := getStringSnapshot_of_bitmap hany htag
  have hb : b = some ((reconstructBitmapBytes snap).getD []) := eq_of_found hrds hfound
  have hmget := mgetReply_eq hrds
  rw [hsnap, mgetReply_of_bitmap htag] at hmget
  have hbytes := (get_injective hmget).trans hb
  refine ⟨_, hbytes, ?_⟩
  generalize (reconstructBitmapBytes snap).getD [] = bytes at hbytes hb
  by_contra hp
  obtain ⟨n, hp⟩ := ne_none_iff_exists'.mp hp
  rw [hbytes] at hfound
  obtain ⟨m, hv⟩ := exists_isValue hincr hfound (parseInt64_bounds hp)
    (snapshotToInt_of_parse rfl hp)
  obtain ⟨hm, rfl⟩ : IsInt64 m ∧ bytes = formatInt m := by rwa [hb] at hv
  have hst := (hincr.succeeds (.incrBy 0) m trivial hv
    (by rw [show (Increment.incrBy 0).amount = 0 from rfl, add_zero]; exact hm)).2
  have hnil : handleGet formatFloat ((Increment.incrBy 0).run ctx key).2 key = .bulk [] :=
    handleGet_after_bitmap hadds hop hsnap htag hkind hm hbytes
  rw [hnil, StringReply.bulk.injEq] at hst
  obtain ⟨c, hc, -⟩ := exists_mem_formatInt (m + (Increment.incrBy 0).amount)
  rw [← hst] at hc
  cases hc

end

end Agreement

/-- An engine that adds numbers and numerals. -/
@[reducible] def numericMerge : MergeValue StoredValue where
  combine rule old new :=
    match rule, old, new with
    | .additiveInt, .intVal n, .intVal delta => .intVal (n + delta)
    | .additiveInt, .raw bytes, .intVal delta =>
      .intVal (Int64.ofInt ((parseInt64 bytes).getD 0) + delta)
    | .additiveInt, .compressed bytes, .intVal delta =>
      .intVal (Int64.ofInt ((parseInt64 bytes).getD 0) + delta)
    | _, _, new => new

theorem addsIntegers_numericMerge : @AddsIntegers numericMerge := by
  intro value n delta hv _
  have hrd : ofInt ((parseInt64 (formatInt n.toInt)).getD 0) = n := by
    rw [parseInt64_formatInt (isInt64_toInt n), getD_some, ofInt_toInt]
  cases value with
  | raw bytes | compressed bytes =>
    cases hv
    show StoredValue.intVal (ofInt ((parseInt64 (formatInt n.toInt)).getD 0) + delta) = _
    rw [hrd]
  | intVal m | floatVal f => cases hv

/-- A key that `SET` has written. -/
def stringContext (bytes : Bytes) : Context StoredValue where
  snapshots := fun _ => some
    { Snapshot.fresh .scalar with scalar := some (.raw bytes), typeTag := .string }
  emitted := []

/-- A key that `INCR` has written. -/
def counterContext : Context StoredValue :=
  (@Increment.run numericMerge ⟨fun _ => none, []⟩ (utf8 "k") .incr).2

end Swytch.Redis.Strings
