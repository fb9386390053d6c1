import Mathlib

/-!
# Computations that may stop at a fault

A program reads its arguments by index and allocates slices whose length it has computed.  Both can
go wrong: an index that is out of range, a length that is negative or larger than there is any
reason for.  Here a computation is a value of `Comp`, which stops at the first such fault, and
`Returns m P` says that it does not and that its result satisfies `P`.  There is one rule for each
way to build a computation.

Integers of 64 bits are integers that are brought back into range after an operation, by `wrap64`.
-/

namespace Swytch.Checked

/-! ## 1.  Faults, accesses and allocations -/

/-- What can go wrong: an index, the end of a slice, or the length of an allocation. -/
inductive Fault where
  | index (i : ℤ) (length : ℕ)
  | slice (stop : ℤ) (length : ℕ)
  | alloc (length : ℤ) (limit : ℕ)
  deriving DecidableEq

/-- A computation that stops at the first fault. -/
abbrev Comp (α : Type) := Except Fault α

section Accesses

variable {α : Type}

/-- `xs[i]`. -/
def get (xs : List α) (i : ℤ) : Comp α :=
  if 0 ≤ i then
    match xs[i.toNat]? with
    | some x => .ok x
    | none => .error (.index i xs.length)
  else .error (.index i xs.length)

/-- `xs[:n]`. -/
def sliceTo (xs : List α) (n : ℤ) : Comp (List α) :=
  if 0 ≤ n ∧ n ≤ xs.length then .ok (xs.take n.toNat) else .error (.slice n xs.length)

/-- `make` of so many elements, where there is reason for `limit` at most. -/
def alloc (limit : ℕ) (n : ℤ) : Comp Unit :=
  if 0 ≤ n ∧ n ≤ limit then .ok () else .error (.alloc n limit)

/-- A loop that reads one element for every `i` below `n`. -/
def getEach (xs : List α) (index : ℕ → ℤ) (n : ℕ) : Comp (List α) :=
  (List.range n).mapM fun i => get xs (index i)

end Accesses

/-! ## 2.  Rules -/

/-- The computation comes to a result that satisfies `P`. -/
def Returns {α : Type} (m : Comp α) (P : α → Prop) : Prop := ∃ a, m = .ok a ∧ P a

/-- The computation comes to a result. -/
abbrev Finishes {α : Type} (m : Comp α) : Prop := Returns m fun _ => True

variable {n : ℤ} {limit : ℕ}

section Rules

variable {α β : Type} {m : Comp α} {P : α → Prop} {Q : β → Prop} {a : α}

theorem returns_pure (h : P a) : Returns (.ok a) P := ⟨a, rfl, h⟩

theorem Returns.imp {P' : α → Prop} (h : Returns m P) (himp : ∀ a, P a → P' a) : Returns m P' := by
  obtain ⟨a, hm, ha⟩ := h
  exact ⟨a, hm, himp a ha⟩

theorem finishes_pure : Finishes (.ok a) := returns_pure trivial

theorem Returns.finishes (h : Returns m P) : Finishes m := h.imp fun _ _ => trivial

/-- One computation after the other. -/
theorem Returns.bind {f : α → Comp β} (h : Returns m P) (hf : ∀ a, P a → Returns (f a) Q) :
    Returns (m >>= f) Q := by
  obtain ⟨a, rfl, ha⟩ := h
  exact hf a ha

theorem not_returns_error {fault : Fault} : ¬ Returns (.error fault) P := by
  rintro ⟨a, h, -⟩
  cases h

variable {xs : List α}

theorem returns_get {i : ℕ} (h : i < xs.length) : Returns (get xs i) (· = xs[i]) := by
  refine ⟨xs[i], ?_, rfl⟩
  unfold get
  rw [if_pos (Int.natCast_nonneg i), Int.toNat_natCast, List.getElem?_eq_getElem h]

theorem returns_sliceTo {n : ℕ} (h : n ≤ xs.length) : Returns (sliceTo xs n) (· = xs.take n) := by
  refine ⟨xs.take n, ?_, rfl⟩
  unfold sliceTo
  rw [if_pos ⟨Int.natCast_nonneg n, Int.ofNat_le.mpr h⟩, Int.toNat_natCast]

theorem returns_alloc (h : 0 ≤ n) (hle : n ≤ limit) : Finishes (alloc limit n) := by
  refine ⟨(), ?_, trivial⟩
  unfold alloc
  rw [if_pos ⟨h, hle⟩]

theorem alloc_eq_error (h : ¬ (0 ≤ n ∧ n ≤ limit)) : alloc limit n = .error (.alloc n limit) :=
  if_neg h

theorem returns_mapM {f : β → Comp α} (xs : List β) (h : ∀ x ∈ xs, Finishes (f x)) :
    Returns (xs.mapM f) fun ys => ys.length = xs.length := by
  induction xs with
  | nil => exact ⟨[], rfl, rfl⟩
  | cons x xs ih =>
    rw [List.mapM_cons]
    refine (h x List.mem_cons_self).bind fun y _ => ?_
    refine (ih fun x hx => h x (List.mem_cons_of_mem _ hx)).bind fun ys hys => ?_
    exact returns_pure (by rw [List.length_cons, List.length_cons, hys])

/-- A loop whose indices are in range. -/
theorem returns_getEach {index : ℕ → ℤ} {n : ℕ} (h : ∀ i < n, ∃ j < xs.length, index i = (j : ℕ)) :
    Returns (getEach xs index n) fun ys => ys.length = n := by
  refine (returns_mapM (List.range n) fun i hi => ?_).imp fun ys hys => ?_
  · obtain ⟨j, hj, heq⟩ := h i (List.mem_range.mp hi)
    rw [heq]
    exact (returns_get hj).finishes
  · rw [hys, List.length_range]

end Rules

/-! ## 3.  Integers of 64 bits -/

/-- Back into the range of `int64`. -/
def wrap64 (n : ℤ) : ℤ := n.bmod (2 ^ 64)

theorem wrap64_of_fits (hlo : -2 ^ 63 ≤ n) (hhi : n < 2 ^ 63) : wrap64 n = n := by
  exact Int.bmod_eq_of_le (by omega) (by omega)

theorem wrap64_of_overflow (hlo : 2 ^ 63 ≤ n) (hhi : n < 2 ^ 64) : wrap64 n = n - 2 ^ 64 := by
  have hsub : n - 2 ^ 64 = wrap64 (n - 2 ^ 64) := (wrap64_of_fits (by omega) (by omega)).symm
  rw [hsub]
  exact (Int.sub_bmod_right ..).symm

end Swytch.Checked
