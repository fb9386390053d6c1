import Mathlib

/-!
# Maps of words, bit by bit

A map of words that sends zero to zero and a union of bits to the union of their images is known
once the images of the single bits are.  Words are compared at the highest bit in which they differ,
so a map that places the bits of its argument in their order is monotone.
-/

namespace Swytch

open BitVec

variable {u v w : ℕ}

/-- The image of a word is the union of the images of its bits. -/
structure BitLinear (f : BitVec v → BitVec w) : Prop where
  zero : f 0#v = 0#w
  or : ∀ x y, f (x ||| y) = f x ||| f y

namespace BitLinear

variable {f g : BitVec v → BitVec w} {x y : BitVec v} {j k : ℕ}

theorem id : BitLinear (fun x : BitVec v => x) := ⟨rfl, fun _ _ => rfl⟩

theorem setWidth : BitLinear (fun x : BitVec v => x.setWidth w) :=
  ⟨by simp, fun _ _ => setWidth_or⟩

theorem shiftLeft (s : ℕ) : BitLinear (fun x : BitVec w => x <<< s) :=
  ⟨by simp, fun x y => shiftLeft_or_distrib x y s⟩

theorem ushiftRight (s : ℕ) : BitLinear (fun x : BitVec w => x >>> s) :=
  ⟨by simp, fun x y => ushiftRight_or_distrib x y s⟩

theorem and_mask (b : BitVec w) : BitLinear (fun x => x &&& b) :=
  ⟨zero_and, fun _ _ => and_or_distrib_right⟩

theorem comp {g : BitVec u → BitVec v} (hf : BitLinear f) (hg : BitLinear g) :
    BitLinear fun x => f (g x) :=
  ⟨by rw [hg.zero, hf.zero], fun x y => by rw [hg.or, hf.or]⟩

theorem union (hf : BitLinear f) (hg : BitLinear g) : BitLinear fun x => f x ||| g x := by
  constructor
  · rw [hf.zero, hg.zero, BitVec.or_self]
  · intro x y
    rw [hf.or, hg.or]
    ac_rfl

theorem getLsbD_eq (hf : BitLinear f)
    (hbit : ∀ i < v, (f (twoPow v i)).getLsbD j = (twoPow v i).getLsbD k) (x : BitVec v) :
    (f x).getLsbD j = x.getLsbD k := by
  -- the word is built up from its lowest bit
  have hlow : ∀ n ≤ v, (f ((x.setWidth n).setWidth v)).getLsbD j =
      ((x.setWidth n).setWidth v).getLsbD k := by
    intro n
    induction n with
    | zero =>
      intro _
      rw [show x.setWidth 0 = 0#0 from of_length_zero, setWidth_zero, hf.zero, getLsbD_zero,
        getLsbD_zero]
    | succ n ih =>
      intro hn
      cases hx : x.getLsbD n with
      | false =>
        rw [setWidth_setWidth_succ_eq_setWidth_setWidth_of_getLsbD_false hx]
        exact ih (by omega)
      | true =>
        rw [setWidth_setWidth_succ_eq_setWidth_setWidth_or_twoPow_of_getLsbD_true hx, hf.or,
          getLsbD_or, getLsbD_or, ih (by omega), hbit n hn]
  simpa using hlow v le_rfl

end BitLinear

theorem lt_iff_getLsbD {x y : BitVec w} : x < y ↔ ∃ i, x.getLsbD i = false ∧
    y.getLsbD i = true ∧ ∀ j, i < j → x.getLsbD j = y.getLsbD j := by
  constructor
  · intro hlt
    have hne : x.toNat ^^^ y.toNat ≠ 0 := by
      rw [Nat.xor_ne_zero_iff]
      exact Nat.ne_of_lt hlt
    obtain ⟨i, hi, habove⟩ := Nat.exists_most_significant_bit hne
    have hsame : ∀ j, i < j → x.toNat.testBit j = y.toNat.testBit j := by
      intro j hj
      simpa using habove j hj
    rw [Nat.testBit_xor] at hi
    cases hx : x.toNat.testBit i with
    | false =>
      rw [hx, Bool.false_xor] at hi
      exact ⟨i, hx, hi, hsame⟩
    | true =>
      have hy : y.toNat.testBit i = false := by simpa [hx] using hi
      have hgt : y.toNat < x.toNat := Nat.lt_of_testBit i hy hx fun j hj => (hsame j hj).symm
      exact absurd hlt (Nat.lt_asymm hgt)
  · rintro ⟨i, hx, hy, habove⟩
    exact Nat.lt_of_testBit i hx hy habove

/-- Two words whose bits are placed in order among the same others compare as their images do. -/
theorem le_iff_of_placed {x y : BitVec v} {f g : BitVec w} (place : ℕ → ℕ)
    (hpl : StrictMono place) (hx : ∀ i, f.getLsbD (place i) = x.getLsbD i)
    (hy : ∀ i, g.getLsbD (place i) = y.getLsbD i)
    (hothers : ∀ j, (∀ i, place i ≠ j) → f.getLsbD j = g.getLsbD j) : f ≤ g ↔ x ≤ y := by
  rw [← BitVec.not_lt, ← BitVec.not_lt, lt_iff_getLsbD, lt_iff_getLsbD, not_iff_not]
  constructor
  · rintro ⟨j, hg, hf, habove⟩
    by_cases hj : ∃ i, place i = j
    · obtain ⟨i, rfl⟩ := hj
      refine ⟨i, by rw [← hy, hg], by rw [← hx, hf], fun k hk => ?_⟩
      rw [← hx, ← hy, habove _ (hpl hk)]
    · rw [hothers j fun i hi => hj ⟨i, hi⟩, hg] at hf
      cases hf
  · rintro ⟨i, hyi, hxi, habove⟩
    refine ⟨place i, by rw [hy, hyi], by rw [hx, hxi], fun j hj => ?_⟩
    by_cases hk : ∃ k, place k = j
    · obtain ⟨k, rfl⟩ := hk
      rw [hx, hy, habove k (hpl.lt_iff_lt.mp hj)]
    · exact (hothers j fun i hi => hk ⟨i, hi⟩).symm

end Swytch
