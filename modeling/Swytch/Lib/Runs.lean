import Mathlib

/-!
# Runs of a system that takes events

A system is a step function: an event takes a state to the next one, or is not possible there.  A
run is a list of events.  What every step keeps holds after every run, and it is enough that the
steps keep it which meet a condition, for the runs whose steps all do.
-/

namespace Swytch.Runs

variable {ε σ : Type*}

/-- The state after the events, if all are possible. -/
def after (step : ε → σ → Option σ) : List ε → σ → Option σ
  | [], s => some s
  | e :: events, s => (step e s).bind (after step events)

/-- Every event meets the condition in the state in which it happens. -/
def Along (step : ε → σ → Option σ) (guard : ε → σ → Prop) : List ε → σ → Prop
  | [], _ => True
  | e :: events, s => guard e s ∧ ∀ s', step e s = some s' → Along step guard events s'

variable {step : ε → σ → Option σ} {guard : ε → σ → Prop} {events : List ε}

theorem along_cons {e : ε} {s s' : σ} (hstep : step e s = some s') (hguard : guard e s)
    (hr : Along step guard events s') : Along step guard (e :: events) s := by
  refine ⟨hguard, fun next hnext => ?_⟩
  obtain rfl := Option.some.inj (hstep.symm.trans hnext)
  exact hr

/-- What the steps keep that meet the condition holds after the runs whose steps do. -/
theorem invariant_of_along {inv : σ → Prop}
    (hstep : ∀ e s s', inv s → guard e s → step e s = some s' → inv s') {s s' : σ} (hs : inv s)
    (hguard : Along step guard events s) (hrun : after step events s = some s') : inv s' := by
  induction events generalizing s with
  | nil =>
    cases hrun
    exact hs
  | cons e events ih =>
    obtain ⟨next, hnext, hr⟩ := Option.bind_eq_some_iff.mp hrun
    exact ih (hstep e s next hs hguard.1 hnext) (hguard.2 next hnext) hr

end Swytch.Runs
