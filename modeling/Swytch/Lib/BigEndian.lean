import Mathlib

/-!
# Fixed-width big-endian numbers

`toBE w n` spells the low `w` bytes of `n`, most significant byte first, and
`ofBE` reads a byte string as a number.  They are inverse to each other on
strings of length `w` and numbers below `256 ^ w`, and the spelling keeps the order: byte
strings of one length are compared like the numbers they spell.
-/

namespace BigEndian

/-- The `w` low bytes of `n`, most significant first. -/
def toBE : ℕ → ℕ → List UInt8
  | 0, _ => []
  | w + 1, n => UInt8.ofNat (n / 256 ^ w) :: toBE w n

/-- The number a byte string spells. -/
def ofBE : List UInt8 → ℕ
  | [] => 0
  | b :: l => b.toNat * 256 ^ l.length + ofBE l

@[simp] theorem toBE_zero (n : ℕ) : toBE 0 n = [] := rfl

theorem toBE_succ (w n : ℕ) : toBE (w + 1) n = UInt8.ofNat (n / 256 ^ w) :: toBE w n := rfl

@[simp] theorem ofBE_nil : ofBE [] = 0 := rfl

theorem ofBE_cons (b : UInt8) (l : List UInt8) :
    ofBE (b :: l) = b.toNat * 256 ^ l.length + ofBE l := rfl

@[simp] theorem length_toBE (w n : ℕ) : (toBE w n).length = w := by
  induction w with
  | zero => rfl
  | succ w ih => rw [toBE_succ, List.length_cons, ih]

theorem ofBE_lt (l : List UInt8) : ofBE l < 256 ^ l.length := by
  induction l with
  | nil => simp
  | cons b l ih =>
    have hb : b.toNat + 1 ≤ 256 := b.toNat_lt
    calc ofBE (b :: l) < b.toNat * 256 ^ l.length + 256 ^ l.length := by
          rw [ofBE_cons]; omega
      _ = (b.toNat + 1) * 256 ^ l.length := by ring
      _ ≤ 256 * 256 ^ l.length := Nat.mul_le_mul_right _ hb
      _ = 256 ^ (b :: l).length := by rw [List.length_cons, pow_succ, mul_comm]

/-- Reading back the low `w` bytes. -/
theorem ofBE_toBE (w n : ℕ) : ofBE (toBE w n) = n % 256 ^ w := by
  induction w with
  | zero => simp [Nat.mod_one]
  | succ w ih =>
    have hb : (UInt8.ofNat (n / 256 ^ w)).toNat = n / 256 ^ w % 256 := by simp
    rw [toBE_succ, ofBE_cons, ih, length_toBE, hb, Nat.mod_pow_succ]
    ring

theorem eq_of_ofBE_eq {l l' : List UInt8} (hlen : l.length = l'.length) (h : ofBE l = ofBE l') :
    l = l' := by
  induction l generalizing l' with
  | nil => exact (List.eq_nil_of_length_eq_zero hlen.symm).symm
  | cons b l ih =>
    cases l' with
    | nil => cases hlen
    | cons b' l' =>
      have hlen' : l.length = l'.length := by simpa using hlen
      have hl := ofBE_lt l
      have hl' := ofBE_lt l'
      rw [← hlen'] at hl'
      rw [ofBE_cons, ofBE_cons, ← hlen'] at h
      -- the leading byte is the quotient and the rest is the remainder
      have hquot (x y : ℕ) (hy : y < 256 ^ l.length) :
          (x * 256 ^ l.length + y) / 256 ^ l.length = x := by
        rw [Nat.add_comm, Nat.add_mul_div_right _ _ (by positivity), Nat.div_eq_of_lt hy,
          Nat.zero_add]
      have hb : b.toNat = b'.toNat := by rw [← hquot b.toNat _ hl, h, hquot _ _ hl']
      rw [UInt8.toNat_inj.mp hb, ih hlen' (by rw [hb] at h; omega)]

theorem ofBE_toBE_of_lt {w n : ℕ} (h : n < 256 ^ w) : ofBE (toBE w n) = n := by
  rw [ofBE_toBE, Nat.mod_eq_of_lt h]

theorem toBE_ofBE (l : List UInt8) : toBE l.length (ofBE l) = l :=
  eq_of_ofBE_eq (length_toBE ..) (ofBE_toBE_of_lt (ofBE_lt l))

/-! ## Order -/

theorem compare_mul_add {B q q' r r' : ℕ} (hr : r < B) (hr' : r' < B) :
    compare (q * B + r) (q' * B + r') = (compare q q').then (compare r r') := by
  have hlt {a a' b b' : ℕ} (h : a < a') (hb : b < B) : a * B + b < a' * B + b' := by
    have hmul := Nat.mul_le_mul_right B (Nat.succ_le_of_lt h)
    rw [Nat.succ_mul] at hmul
    omega
  rcases lt_trichotomy q q' with h | rfl | h
  · rw [compare_lt_iff_lt.mpr (hlt h hr), compare_lt_iff_lt.mpr h]
    rfl
  · rw [compare_eq_iff_eq.mpr rfl, ← cmp_eq_compare, cmp_add_left, cmp_eq_compare]
    rfl
  · rw [compare_gt_iff_gt.mpr (hlt h hr'), compare_gt_iff_gt.mpr h]
    rfl

theorem compare_toBE_mod (w m n : ℕ) :
    compare (toBE w m) (toBE w n) = compare (m % 256 ^ w) (n % 256 ^ w) := by
  induction w with
  | zero => simp [Nat.mod_one]
  | succ w ih =>
    have hpos : 0 < 256 ^ w := Nat.pow_pos (by decide)
    have hb (k : ℕ) : (UInt8.ofNat (k / 256 ^ w)).toNat = k / 256 ^ w % 256 := by simp
    have hsp (k : ℕ) : k % 256 ^ (w + 1) = k / 256 ^ w % 256 * 256 ^ w + k % 256 ^ w := by
      rw [Nat.mod_pow_succ]
      ring
    rw [toBE_succ, toBE_succ, List.compare_cons_cons, ih, UInt8.compare_eq_toNat_compare_toNat, hb,
      hb, hsp m, hsp n, compare_mul_add (Nat.mod_lt _ hpos) (Nat.mod_lt _ hpos)]

/-- **Spelling keeps the order.** -/
theorem compare_toBE {w m n : ℕ} (hm : m < 256 ^ w) (hn : n < 256 ^ w) :
    compare (toBE w m) (toBE w n) = compare m n := by
  rw [compare_toBE_mod, Nat.mod_eq_of_lt hm, Nat.mod_eq_of_lt hn]

end BigEndian
