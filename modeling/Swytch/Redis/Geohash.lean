import Swytch.Lib.BitLinear

/-!
# Interleaving the coordinates of a geohash

The cell of a position is one word: the bits of the latitude stand at the even places, those of the
longitude at the odd ones.  Five rounds of shifts and masks spread the bits of a coordinate, and six
gather them again.
-/

namespace Swytch.Redis.Geo

open BitVec

/-- The rounds `x = (x | (x << S[i])) & B[i]`, or with `>>`. -/
def rounds (shift : BitVec 64 → ℕ → BitVec 64) : List (ℕ × BitVec 64) → BitVec 64 → BitVec 64
  | [], x => x
  | (s, b) :: rest, x => rounds shift rest ((x ||| shift x s) &&& b)

def spread : BitVec 64 → BitVec 64 :=
  rounds (· <<< ·) [(16, 0x0000FFFF0000FFFF), (8, 0x00FF00FF00FF00FF), (4, 0x0F0F0F0F0F0F0F0F),
    (2, 0x3333333333333333), (1, 0x5555555555555555)]

def gather : BitVec 64 → BitVec 64 :=
  rounds (· >>> ·) [(0, 0x5555555555555555), (1, 0x3333333333333333), (2, 0x0F0F0F0F0F0F0F0F),
    (4, 0x00FF00FF00FF00FF), (8, 0x0000FFFF0000FFFF), (16, 0x00000000FFFFFFFF)]

def interleave64 (xlo ylo : BitVec 32) : BitVec 64 :=
  spread (xlo.setWidth 64) ||| spread (ylo.setWidth 64) <<< 1

def deinterleave64 (interleaved : BitVec 64) : BitVec 64 :=
  gather interleaved ||| gather (interleaved >>> 1) <<< 32

/-- The coordinates as `geoHashDecode` reads them off the word that `deinterleave64` returns. -/
def low (hashSep : BitVec 64) : BitVec 32 := hashSep.setWidth 32

def high (hashSep : BitVec 64) : BitVec 32 := (hashSep >>> 32).setWidth 32

theorem linear_rounds {shift : BitVec 64 → ℕ → BitVec 64} (hshift : ∀ s, BitLinear (shift · s))
    (l : List (ℕ × BitVec 64)) : BitLinear (rounds shift l) := by
  induction l with
  | nil => exact .id
  | cons r rest ih => exact ih.comp ((BitLinear.and_mask r.2).comp (BitLinear.id.union (hshift r.1)))

theorem linear_interleave64 : BitLinear fun w => interleave64 (low w) (high w) := by
  have hspread : BitLinear spread := linear_rounds .shiftLeft _
  have hlow : BitLinear low := .setWidth
  have hhi : BitLinear high := BitLinear.setWidth.comp (.ushiftRight 32)
  exact (hspread.comp (BitLinear.setWidth.comp hlow)).union
    ((BitLinear.shiftLeft 1).comp (hspread.comp (BitLinear.setWidth.comp hhi)))

theorem linear_deinterleave64 : BitLinear deinterleave64 := by
  have hgather : BitLinear gather := linear_rounds .ushiftRight _
  exact hgather.union ((BitLinear.shiftLeft 32).comp (hgather.comp (.ushiftRight 1)))

/-- Interleaving puts the bits of the low half at the even places, those of the high half at the odd
ones. -/
theorem getLsbD_interleave64 (w : BitVec 64) {j : ℕ} (hj : j < 64) :
    (interleave64 (low w) (high w)).getLsbD j = w.getLsbD (j / 2 + 32 * (j % 2)) := by
  have hbs : ∀ j < 64, ∀ i < 64, (interleave64 (low (twoPow 64 i)) (high (twoPow 64 i))).getLsbD j =
      (twoPow 64 i).getLsbD (j / 2 + 32 * (j % 2)) := by decide +kernel
  exact linear_interleave64.getLsbD_eq (hbs j hj) w

theorem getLsbD_deinterleave64 (w : BitVec 64) {j : ℕ} (hj : j < 64) :
    (deinterleave64 w).getLsbD j = w.getLsbD (2 * (j % 32) + j / 32) := by
  have hbs : ∀ j < 64, ∀ i < 64, (deinterleave64 (twoPow 64 i)).getLsbD j =
      (twoPow 64 i).getLsbD (2 * (j % 32) + j / 32) := by decide +kernel
  exact linear_deinterleave64.getLsbD_eq (hbs j hj) w

theorem getLsbD_low (w : BitVec 64) {i : ℕ} (hi : i < 32) : (low w).getLsbD i = w.getLsbD i := by
  simp [low, hi]

theorem getLsbD_high (w : BitVec 64) {i : ℕ} (hi : i < 32) :
    (high w).getLsbD i = w.getLsbD (32 + i) := by
  simp [high, hi]

theorem exists_halves (x y : BitVec 32) : ∃ w, low w = x ∧ high w = y := by
  refine ⟨y ++ x, eq_of_getLsbD_eq fun i hi => ?_, eq_of_getLsbD_eq fun i hi => ?_⟩
  · rw [getLsbD_low _ hi]
    exact getLsbD_append.trans (if_pos hi)
  · rw [getLsbD_high _ hi]
    exact getLsbD_append.trans (by simp)

theorem deinterleave64_interleave64 (w : BitVec 64) :
    deinterleave64 (interleave64 (low w) (high w)) = w := by
  apply eq_of_getLsbD_eq
  intro j hj
  rw [getLsbD_deinterleave64 _ hj, getLsbD_interleave64 _ (by omega)]
  congr 1
  omega

theorem interleave64_deinterleave64 (w : BitVec 64) :
    interleave64 (low (deinterleave64 w)) (high (deinterleave64 w)) = w := by
  apply eq_of_getLsbD_eq
  intro j hj
  rw [getLsbD_interleave64 _ hj, getLsbD_deinterleave64 _ (by omega)]
  congr 1
  omega

theorem interleave64_bits (x y : BitVec 32) (i : ℕ) :
    (interleave64 x y).getLsbD (2 * i) = x.getLsbD i ∧
      (interleave64 x y).getLsbD (2 * i + 1) = y.getLsbD i := by
  obtain ⟨w, rfl, rfl⟩ := exists_halves x y
  by_cases hi : i < 32
  · rw [getLsbD_interleave64 w (by omega), getLsbD_interleave64 w (by omega), getLsbD_low w hi,
      getLsbD_high w hi]
    constructor
    · congr 1
      omega
    · congr 1
      omega
  · constructor
    · rw [getLsbD_of_ge _ _ (by omega), getLsbD_of_ge _ _ (by omega)]
    · rw [getLsbD_of_ge _ _ (by omega), getLsbD_of_ge _ _ (by omega)]

/-- Interleaving is a bijection of pairs of coordinates and words, it places the bits of the
coordinates alternately, and in each coordinate it keeps the order. -/
theorem interleave64_bijection :
    (∀ x y, low (deinterleave64 (interleave64 x y)) = x ∧
      high (deinterleave64 (interleave64 x y)) = y) ∧
    (∀ w, interleave64 (low (deinterleave64 w)) (high (deinterleave64 w)) = w) ∧
    (∀ x y (i : Fin 32), (interleave64 x y).getLsbD (2 * i) = x.getLsbD i ∧
      (interleave64 x y).getLsbD (2 * i + 1) = y.getLsbD i) ∧
    (∀ x x' y, interleave64 x y ≤ interleave64 x' y ↔ x ≤ x') ∧
    ∀ x y y', interleave64 x y ≤ interleave64 x y' ↔ y ≤ y' := by
  refine ⟨fun x y => ?_, interleave64_deinterleave64, fun x y i => interleave64_bits x y i,
    fun x x' y => ?_, fun x y y' => ?_⟩
  · obtain ⟨w, rfl, rfl⟩ := exists_halves x y
    rw [deinterleave64_interleave64]
    exact ⟨rfl, rfl⟩
  · refine le_iff_of_placed (fun i => 2 * i) (fun i j hij => ?_)
      (fun i => (interleave64_bits x y i).1) (fun i => (interleave64_bits x' y i).1) fun j hj => ?_
    · show 2 * i < 2 * j
      omega
    · have hodd : j = 2 * (j / 2) + 1 := by
        have := hj (j / 2)
        omega
      rw [hodd, (interleave64_bits x y _).2, (interleave64_bits x' y _).2]
  · refine le_iff_of_placed (fun i => 2 * i + 1) (fun i j hij => ?_)
      (fun i => (interleave64_bits x y i).2) (fun i => (interleave64_bits x y' i).2) fun j hj => ?_
    · show 2 * i + 1 < 2 * j + 1
      omega
    · have heven : j = 2 * (j / 2) := by
        have := hj (j / 2)
        omega
      rw [heven, (interleave64_bits x y _).1, (interleave64_bits x y' _).1]

end Swytch.Redis.Geo
