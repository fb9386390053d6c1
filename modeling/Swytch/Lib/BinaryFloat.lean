import Mathlib

/-!
# Binary floating point, exactly

A datum of a binary format with `p` fraction bits is a sign and a natural number, the
exponent field followed by the fraction field.  Its magnitude is an integer multiple of the
smallest subnormal, and `magnitude p` is that integer.  The fields are laid out so that the
order of the natural numbers is the order of the magnitudes; with the sign it is the order
of the values.  Where only the fraction bits matter, a number is rounded to the nearest one that has
`p` of them.
-/

namespace BinaryFloat

variable (p : ℕ)

/-- The magnitude of the exponent and fraction fields `n`, in units of the smallest
subnormal. -/
def magnitude (n : ℕ) : ℕ :=
  if n < 2 ^ p then n else (2 ^ p + n % 2 ^ p) * 2 ^ (n / 2 ^ p - 1)

@[simp] theorem magnitude_zero : magnitude p 0 = 0 := by
  simp [magnitude]

theorem magnitude_lt_succ (n : ℕ) : magnitude p n < magnitude p (n + 1) := by
  have hpos : 0 < 2 ^ p := Nat.two_pow_pos p
  by_cases hn : n + 1 < 2 ^ p
  · rw [magnitude, magnitude, if_pos (by omega), if_pos hn]
    omega
  by_cases hn' : n < 2 ^ p
  · -- the largest subnormal, below the smallest normal
    have heq : n + 1 = 2 ^ p := by omega
    rw [magnitude, magnitude, if_pos hn', heq, if_neg (by omega), Nat.mod_self,
      Nat.div_self hpos]
    simp only [Nat.sub_self, pow_zero, Nat.mul_one]
    exact hn'
  rw [magnitude, magnitude, if_neg hn', if_neg hn]
  have hdiv : 1 ≤ n / 2 ^ p := (Nat.one_le_div_iff hpos).mpr (by omega)
  have hsp := Nat.div_add_mod n (2 ^ p)
  by_cases hr : n % 2 ^ p + 1 < 2 ^ p
  · -- the same exponent
    have hd : (n + 1) / 2 ^ p = n / 2 ^ p := by
      rw [Nat.div_eq_iff hpos, Nat.mul_comm]
      omega
    have hm : (n + 1) % 2 ^ p = n % 2 ^ p + 1 := by
      rw [Nat.add_mod, Nat.mod_eq_of_lt (a := 1) (by omega), Nat.mod_eq_of_lt hr]
    rw [hd]
    exact Nat.mul_lt_mul_of_pos_right (by omega) (Nat.two_pow_pos _)
  · -- the next exponent
    have heq : n + 1 = 2 ^ p * (n / 2 ^ p + 1) := by
      rw [Nat.mul_add]
      omega
    rw [heq, Nat.mul_mod_right, Nat.mul_div_cancel_left _ hpos]
    calc (2 ^ p + n % 2 ^ p) * 2 ^ (n / 2 ^ p - 1)
        < (2 ^ p * 2) * 2 ^ (n / 2 ^ p - 1) :=
          Nat.mul_lt_mul_of_pos_right (by omega) (Nat.two_pow_pos _)
      _ = 2 ^ p * 2 ^ (n / 2 ^ p) := by
          rw [Nat.mul_assoc, ← Nat.pow_succ', Nat.succ_eq_add_one, Nat.sub_add_cancel hdiv]

theorem magnitude_strictMono : StrictMono (magnitude p) :=
  strictMono_nat_of_lt_succ (magnitude_lt_succ p)

/-- The value of a signed field pattern, in units of the smallest subnormal. -/
def value (z : ℤ) : ℤ := z.sign * magnitude p z.natAbs

theorem value_natCast (n : ℕ) : value p n = magnitude p n := by
  rcases Nat.eq_zero_or_pos n with rfl | hn
  · simp [value]
  · rw [value, Int.sign_eq_one_of_pos (by exact_mod_cast hn), one_mul, Int.natAbs_natCast]

theorem value_neg (z : ℤ) : value p (-z) = -value p z := by
  rw [value, value, Int.sign_neg, Int.natAbs_neg, neg_mul]

/-- **The order of the fields is the order of the values.** -/
theorem value_strictMono : StrictMono (value p) := by
  have hnn {n m : ℕ} (h : n < m) : value p n < value p m := by
    rw [value_natCast, value_natCast]
    exact_mod_cast magnitude_strictMono p h
  intro y z hyz
  rcases Int.eq_nat_or_neg y with ⟨n, rfl | rfl⟩ <;> rcases Int.eq_nat_or_neg z with ⟨m, rfl | rfl⟩
  · exact hnn (by exact_mod_cast hyz)
  · -- a negative value is not above a natural number
    omega
  · rw [value_neg, value_natCast, value_natCast]
    rcases Nat.eq_zero_or_pos n with rfl | hn
    · have hm : 0 < m := by
        have : (0 : ℤ) < m := by simpa using hyz
        exact_mod_cast this
      have := magnitude_strictMono p hm
      omega
    · have := magnitude_strictMono p hn
      omega
  · rw [value_neg, value_neg]
    have hmn : m < n := by
      have : (m : ℤ) < n := by omega
      exact_mod_cast this
    have := hnn hmn
    omega

/-! ## Rounding -/

/-- The nearest integer, a tie to the even one. -/
def roundEven (x : ℚ) : ℤ :=
  if x - ⌊x⌋ < 1 / 2 ∨ x - ⌊x⌋ = 1 / 2 ∧ ⌊x⌋ % 2 = 0 then ⌊x⌋ else ⌊x⌋ + 1

/-- The distance of the numbers with `p` fraction bits around another one, for an exponent in the
range of the format. -/
def ulp (x : ℚ) : ℚ := 2 ^ (Int.log 2 x - p)

/-- The nearest number with `p` fraction bits. -/
def nearest (x : ℚ) : ℚ := roundEven (x / ulp p x) * ulp p x

variable {p} {x : ℚ}

theorem floor_le_roundEven (x : ℚ) : ⌊x⌋ ≤ roundEven x := by
  unfold roundEven
  split <;> omega

theorem roundEven_le (x : ℚ) : (roundEven x : ℚ) ≤ x + 1 / 2 := by
  unfold roundEven
  split
  · linarith [Int.floor_le x]
  · rename_i h
    rw [not_or] at h
    push_cast
    linarith [h.1]

theorem ulp_pos : 0 < ulp p x := zpow_pos two_pos _

theorem log_le {k : ℕ} (hx : x < 2 ^ (k + 1)) : Int.log 2 x ≤ k := by
  rcases le_or_gt x 0 with hle | hpos
  · rw [Int.log_of_right_le_zero 2 hle]
    exact Int.natCast_nonneg k
  · have hlt : x < ((2 : ℕ) : ℚ) ^ ((k : ℤ) + 1) := by exact_mod_cast hx
    have := (Int.lt_zpow_iff_log_lt one_lt_two hpos).mp hlt
    omega

theorem nearest_le {k : ℕ} (hx : x < 2 ^ (k + 1)) : nearest p x ≤ x + 2 ^ k / 2 ^ (p + 1) := by
  have hulp : ulp p x ≤ 2 ^ k / 2 ^ p := by
    rw [← zpow_natCast, ← zpow_natCast, ← zpow_sub₀ two_ne_zero]
    exact zpow_le_zpow_right₀ one_le_two (by have := log_le hx; omega)
  have hround := mul_le_mul_of_nonneg_right (roundEven_le (x / ulp p x)) (ulp_pos (p := p) (x := x)).le
  rw [add_mul, div_mul_cancel₀ _ ulp_pos.ne'] at hround
  rw [nearest, pow_succ, ← div_div]
  linarith

/-- A whole number below is not passed. -/
theorem le_nearest {n : ℕ} (hn : n ≤ x) (hx : x < 2 ^ (p + 1)) : n ≤ nearest p x := by
  have hwhole : (n : ℚ) / ulp p x = ((n * 2 ^ (p - Int.log 2 x).toNat : ℕ) : ℤ) := by
    obtain ⟨m, hm⟩ := Int.eq_ofNat_of_zero_le (sub_nonneg.mpr (log_le hx))
    rw [ulp, div_eq_mul_inv, ← zpow_neg, neg_sub, hm]
    simp
  have hfloor := (Int.le_floor.mpr (hwhole ▸ div_le_div_of_nonneg_right hn ulp_pos.le)).trans
    (floor_le_roundEven (x / ulp p x))
  rw [nearest, ← div_le_iff₀ ulp_pos, hwhole]
  exact_mod_cast hfloor

end BinaryFloat
