import Mathlib

/-!
# Scans that stop early

A list is gone through from the left with a state.  At each element a step says that this is a hit,
that the scan ends without one, or the state to go on with.  A scan hits exactly if some element is
a hit in the state that the elements before it lead to.
-/

namespace Swytch.Scan

/-- What a step says of an element. -/
inductive Verdict (σ : Type*) where
  | hit
  | stop
  | next (state : σ)

variable {α σ : Type*} (step : σ → α → Verdict σ)

/-- The scan ends at a hit. -/
def hits : σ → List α → Bool
  | _, [] => false
  | state, x :: xs =>
    match step state x with
    | .hit => true
    | .stop => false
    | .next state => hits state xs

/-- The state after elements none of which is a hit or ends the scan. -/
def pass : σ → List α → Option σ
  | state, [] => some state
  | state, x :: xs =>
    match step state x with
    | .next state => pass state xs
    | _ => none

@[simp] theorem pass_nil (state : σ) : pass step state [] = some state := rfl

variable {state : σ} {xs : List α} {x : α}

theorem pass_cons_eq_some_iff {last : σ} :
    pass step state (x :: xs) = some last ↔
      ∃ next, step state x = .next next ∧ pass step next xs = some last := by
  rw [pass]
  cases step state x with
  | hit | stop | next state => simp

theorem hits_iff : hits step state xs = true ↔
    ∃ before x after last, xs = before ++ x :: after ∧ pass step state before = some last ∧
      step last x = .hit := by
  induction xs generalizing state with
  | nil => simp [hits]
  | cons y ys ih =>
    constructor
    · intro h
      unfold hits at h
      split at h
      · next hstep => exact ⟨[], y, ys, state, rfl, rfl, hstep⟩
      · cases h
      · next next hstep =>
        obtain ⟨before, x, after, last, rfl, hpass, hhit⟩ := ih.mp h
        exact ⟨y :: before, x, after, last, rfl,
          (pass_cons_eq_some_iff step).mpr ⟨next, hstep, hpass⟩, hhit⟩
    · rintro ⟨before, x, after, last, heq, hpass, hhit⟩
      cases before with
      | nil =>
        cases heq
        cases hpass
        simp [hits, hhit]
      | cons first before =>
        cases heq
        obtain ⟨next, hstep, hpass⟩ := (pass_cons_eq_some_iff step).mp hpass
        have hr := ih.mpr ⟨before, x, after, last, rfl, hpass, hhit⟩
        simpa [hits, hstep] using hr

theorem pass_cons_isSome :
    (pass step state (x :: xs)).isSome = true ↔
      ∃ next, step state x = .next next ∧ (pass step next xs).isSome = true := by
  simp only [Option.isSome_iff_exists, pass_cons_eq_some_iff]
  exact ⟨fun ⟨last, next, hstep, hpass⟩ => ⟨next, hstep, last, hpass⟩,
    fun ⟨next, hstep, last, hpass⟩ => ⟨last, next, hstep, hpass⟩⟩

/-- Where the states of a kind make no difference, the elements are passed one by one. -/
theorem pass_isSome_iff_forall {Inv : σ → Prop} {P : α → Prop}
    (hnext : ∀ state x next, step state x = .next next → Inv next)
    (hstep : ∀ state x, Inv state → ((∃ next, step state x = .next next) ↔ P x))
    (hst : Inv state) (xs : List α) : (pass step state xs).isSome = true ↔ ∀ x ∈ xs, P x := by
  induction xs generalizing state with
  | nil => simp
  | cons x xs ih =>
    rw [List.forall_mem_cons, ← hstep state x hst, pass_cons_isSome]
    constructor
    · rintro ⟨next, hx, hxs⟩
      exact ⟨⟨next, hx⟩, (ih (hnext state x next hx)).mp hxs⟩
    · rintro ⟨⟨next, hx⟩, hxs⟩
      exact ⟨next, hx, (ih (hnext state x next hx)).mpr hxs⟩

end Swytch.Scan
