import Mathlib

/-!
# Bytes as strings of bits

A sequence of bytes is read as bits, those of a byte from the highest one down, and past the end
there are only zeros.  A bit is set or toggled in place; several positions are set or toggled one
after the other, and the result does not depend on their order.  Bits are counted and searched byte
by byte or one by one, with the same result.
-/

namespace Swytch.BitString

open List

variable {data : List UInt8} {j i : ℕ}

/-! ## 1.  Single bits -/

/-- The bit at a position. -/
def bit (data : List UInt8) (i : ℕ) : Bool := (data.getD (i / 8) 0).toNat.testBit (7 - i % 8)

/-- The byte in which only the bit of this position is set. -/
def mask (i : ℕ) : UInt8 := 1 <<< UInt8.ofNat (7 - i % 8)

/-- The bit at a position is set. -/
def put (i : ℕ) (data : List UInt8) : List UInt8 := data.modify (i / 8) fun b => b ||| mask i

/-- The bit at a position is toggled. -/
def toggle (i : ℕ) (data : List UInt8) : List UInt8 := data.modify (i / 8) fun b => b ^^^ mask i

/-- Zeros are added up to a length. -/
def pad (length : ℕ) (data : List UInt8) : List UInt8 :=
  data ++ List.replicate (length - data.length) 0

@[simp] theorem length_put (i : ℕ) (data : List UInt8) : (put i data).length = data.length := by
  simp [put]

@[simp] theorem length_toggle (i : ℕ) (data : List UInt8) :
    (toggle i data).length = data.length := by
  simp [toggle]

@[simp] theorem length_pad (length : ℕ) (data : List UInt8) :
    (pad length data).length = max data.length length := by
  simp only [pad, length_append, length_replicate]
  omega

theorem toNat_mask (i : ℕ) : (mask i).toNat = 2 ^ (7 - i % 8) := by
  have hsmall : 7 - i % 8 < 8 := by omega
  have hpow : 2 ^ (7 - i % 8) < 2 ^ 8 := Nat.pow_lt_pow_right (by decide) hsmall
  rw [mask, UInt8.toNat_shiftLeft, UInt8.toNat_ofNat', UInt8.toNat_one, Nat.one_shiftLeft]
  rw [Nat.mod_eq_of_lt (show 7 - i % 8 < 2 ^ 8 by omega), Nat.mod_eq_of_lt hsmall,
    Nat.mod_eq_of_lt hpow]

theorem testBit_mask (i j : ℕ) :
    (mask i).toNat.testBit (7 - j % 8) = decide (i % 8 = j % 8) := by
  rw [toNat_mask, Nat.testBit_two_pow]
  apply decide_eq_decide.mpr
  omega

variable {b : UInt8} {positions : List ℕ}

/-- The bits of a byte that is there. -/
theorem bit_of_getElem? (h : data[j / 8]? = some b) : bit data j = b.toNat.testBit (7 - j % 8) := by
  rw [bit, getD_eq_getElem?_getD, h, Option.getD_some]

/-- Past the end there are zeros. -/
theorem bit_of_length_le (h : data.length ≤ j / 8) :
    bit data j = false := by
  rw [bit, getD_eq_default _ _ h, UInt8.toNat_zero, Nat.zero_testBit]

theorem lt_length_of_bit (h : bit data j = true) :
    j < 8 * data.length := by
  by_contra hge
  rw [bit_of_length_le (by omega)] at h
  cases h

/-- One byte is replaced. -/
theorem bit_modify (op : UInt8 → UInt8) (hi : i / 8 < data.length)
    (j : ℕ) : bit (data.modify (i / 8) op) j =
      if i / 8 = j / 8 then (op (data.getD (j / 8) 0)).toNat.testBit (7 - j % 8)
      else bit data j := by
  split
  · rename_i hbyte
    have hget : data[j / 8]? = some data[j / 8] := getElem?_eq_getElem (hbyte ▸ hi)
    have hop : (data.modify (i / 8) op)[j / 8]? = some (op data[j / 8]) := by
      rw [getElem?_modify, hget]
      simp [hbyte]
    rw [bit_of_getElem? hop, getD_eq_getElem?_getD, hget, Option.getD_some]
  · rename_i hbyte
    have hsame : (data.modify (i / 8) op)[j / 8]? = data[j / 8]? := by
      simp [hbyte]
    simp [bit, hsame]

theorem bit_put (hi : i / 8 < data.length) (j : ℕ) :
    bit (put i data) j = (bit data j || decide (j = i)) := by
  rw [put, bit_modify _ hi]
  split
  · rw [UInt8.toNat_or, Nat.testBit_or, testBit_mask, bit,
      decide_eq_decide.mpr (show i % 8 = j % 8 ↔ j = i by omega)]
  · rename_i hbyte
    rw [decide_eq_false fun h : j = i => hbyte (by rw [h]), Bool.or_false]

theorem bit_toggle (hi : i / 8 < data.length) (j : ℕ) :
    bit (toggle i data) j = (bit data j ^^ decide (j = i)) := by
  rw [toggle, bit_modify _ hi]
  split
  · rw [UInt8.toNat_xor, Nat.testBit_xor, testBit_mask, bit,
      decide_eq_decide.mpr (show i % 8 = j % 8 ↔ j = i by omega)]
  · rename_i hbyte
    rw [decide_eq_false fun h : j = i => hbyte (by rw [h]), Bool.xor_false]

@[simp] theorem bit_pad (length : ℕ) (data : List UInt8) (j : ℕ) :
    bit (pad length data) j = bit data j := by
  by_cases hj : j / 8 < data.length
  · simp only [bit, pad, getD_eq_getElem?_getD, getElem?_append_left hj]
  · have hle : data.length ≤ j / 8 := Nat.le_of_not_lt hj
    rw [bit_of_length_le hle, bit, pad, getD_append_right _ _ _ _ hle]
    simp

@[simp] theorem bit_nil (j : ℕ) : bit [] j = false := bit_of_length_le (Nat.zero_le _)

@[simp] theorem bit_replicate_zero (n j : ℕ) : bit (replicate n 0) j = false := by
  have h := bit_pad n [] j
  rwa [bit_nil, pad, nil_append, length_nil, Nat.sub_zero] at h

/-- A byte that is not zero has a bit. -/
theorem exists_bit (hb : b ∈ data) (hne : b ≠ 0) : ∃ i, bit data i = true := by
  obtain ⟨k, hk⟩ := mem_iff_getElem?.mp hb
  have hpos : b.toNat ≠ 0 := fun h => hne (UInt8.toNat_inj.mp h)
  obtain ⟨e, he⟩ := Nat.exists_testBit_of_ne_zero hpos
  have hlt : e < 8 := by
    by_contra hge
    have hsmall : b.toNat < 2 ^ e :=
      b.toNat_lt.trans_le (Nat.pow_le_pow_right (by decide) (Nat.le_of_not_lt hge))
    rw [Nat.testBit_lt_two_pow hsmall] at he
    cases he
  refine ⟨8 * k + (7 - e), ?_⟩
  have hdiv : (8 * k + (7 - e)) / 8 = k := by omega
  have hmod : 7 - (8 * k + (7 - e)) % 8 = e := by omega
  rw [bit_of_getElem? (hdiv.symm ▸ hk), hmod, he]

/-! ## 2.  Several positions -/

/-- The bits at the positions are set. -/
def putAll (positions : List ℕ) (data : List UInt8) : List UInt8 :=
  positions.foldl (fun data i => put i data) data

def toggleAll (positions : List ℕ) (data : List UInt8) : List UInt8 :=
  positions.foldl (fun data i => toggle i data) data

theorem bit_putAll (hin : ∀ i ∈ positions, i / 8 < data.length) (j : ℕ) :
    bit (putAll positions data) j = (bit data j || decide (j ∈ positions)) := by
  induction positions generalizing data with
  | nil => simp [putAll]
  | cons i positions ih =>
    have hnext : ∀ k ∈ positions, k / 8 < (put i data).length := fun k hk => by
      rw [length_put]
      exact hin k (mem_cons_of_mem _ hk)
    show bit (putAll positions (put i data)) j = _
    rw [ih hnext, bit_put (hin i mem_cons_self), Bool.or_assoc]
    simp

/-- Positions that are not repeated are toggled once. -/
theorem bit_toggleAll (hnd : positions.Nodup) (hin : ∀ i ∈ positions, i / 8 < data.length)
    (j : ℕ) : bit (toggleAll positions data) j = (bit data j ^^ decide (j ∈ positions)) := by
  induction positions generalizing data with
  | nil => simp [toggleAll]
  | cons i positions ih =>
    obtain ⟨hfr, hr⟩ := nodup_cons.mp hnd
    have hnext : ∀ k ∈ positions, k / 8 < (toggle i data).length := fun k hk => by
      rw [length_toggle]
      exact hin k (mem_cons_of_mem _ hk)
    show bit (toggleAll positions (toggle i data)) j = _
    rw [ih hr hnext, bit_toggle (hin i mem_cons_self)]
    by_cases hj : j = i
    · subst hj
      simp [hfr]
    · simp [hj]

/-! ## 3.  Counting and searching -/

/-- The number of set bits of a byte. -/
def onesCount (b : UInt8) : ℕ := (List.range 8).countP fun k => b.toNat.testBit (7 - k)

/-- The positions of a byte. -/
theorem bit_mul_add (data : List UInt8) {k : ℕ} (hk : k < 8) :
    bit data (8 * i + k) = (data.getD i 0).toNat.testBit (7 - k) := by
  rw [bit, show (8 * i + k) / 8 = i by omega, show (8 * i + k) % 8 = k by omega]

theorem range'_byte (i : ℕ) : range' (8 * i) 8 = (range 8).map (8 * i + ·) := by
  rw [range'_eq_map_range]

theorem countP_byte (data : List UInt8) (i : ℕ) :
    (range' (8 * i) 8).countP (bit data) = onesCount (data.getD i 0) := by
  rw [range'_byte, countP_map]
  apply countP_congr
  intro k hk
  rw [Function.comp_apply, bit_mul_add data (mem_range.mp hk)]

theorem range'_bytes_succ (lo n : ℕ) :
    range' (8 * lo) (8 * (n + 1)) =
      range' (8 * lo) 8 ++ range' (8 * (lo + 1)) (8 * n) := by
  rw [show 8 * (n + 1) = 8 + 8 * n by omega, ← range'_append,
    show 8 * lo + 8 = 8 * (lo + 1) by omega]

/-- Counted byte by byte. -/
theorem sum_onesCount (data : List UInt8) (lo n : ℕ) :
    ((range' lo n).map fun i => onesCount (data.getD i 0)).sum =
      (range' (8 * lo) (8 * n)).countP (bit data) := by
  induction n generalizing lo with
  | zero => rfl
  | succ n ih =>
    rw [range'_succ, map_cons, sum_cons, ih, range'_bytes_succ, countP_append,
      countP_byte]

/-- Searched byte by byte. -/
theorem findSome?_bytes (p : ℕ → Bool) (lo n : ℕ) :
    (range' lo n).findSome? (fun i => (range' (8 * i) 8).find? p) =
      (range' (8 * lo) (8 * n)).find? p := by
  induction n generalizing lo with
  | zero => rfl
  | succ n ih =>
    rw [range'_succ, findSome?_cons, range'_bytes_succ, find?_append, ← ih]
    cases (range' (8 * lo) 8).find? p with
    | none | some i => rfl

theorem filter_range_between {lo hi n : ℕ} (hhi : hi < n) :
    ((range n).filter fun i => decide (lo ≤ i ∧ i ≤ hi)) = range' lo (hi + 1 - lo) := by
  apply List.Pairwise.eq_of_mem_iff (r := (· < ·)) (pairwise_lt_range.filter _)
    (pairwise_lt_range' 1)
  intro i
  rw [mem_filter, mem_range, mem_range'_1, decide_eq_true_eq]
  omega

end Swytch.BitString
