import Mathlib

/-!
# The refreshers of a lock

While a lock is held, a goroutine refreshes it, and `heldLocks` has the channel that stops this
goroutine.  A refresher that leaves on its own deletes the entry of the key, whosever it is: one that
was told to stop can still take a failed refresh or a cancelled context for its reason to leave, and
by then the key may have been locked again.
-/

namespace Swytch.Caddy.Refreshers

open Function (update)

/-! ## 1.  One key -/

/-- Where the refresher of a channel is: not started, in the `select`, in `refreshOnce`, about to
delete the entry of the key, or gone. -/
inductive Phase where
  | absent | selecting | refreshing | leaving | returned

structure State where
  /-- `heldLocks[lockKey]` -/
  heldLocks : Option ℕ
  phase : ℕ → Phase
  /-- How often a channel was closed. -/
  closes : ℕ → ℕ
  /-- What calls of `stopRefresh` have taken out of the table and have still to close. -/
  closing : List ℕ
  /-- Another refresher has deleted the entry with this channel. -/
  displaced : ℕ → Prop

def initial : State := ⟨none, fun _ => .absent, fun _ => 0, [], fun _ => False⟩

/-- A context can be cancelled at any time, so its case of the `select` can be taken at any time. -/
inductive Event where
  | startRefresh (stop : ℕ)
  /-- The part of `stopRefresh` under the lock. -/
  | stopRefresh
  /-- The `close` at its end. -/
  | close (stop : ℕ)
  | stopped (stop : ℕ)
  | cancelled (stop : ℕ)
  | tick (stop : ℕ)
  /-- `refreshOnce` returns. -/
  | refreshed (stop : ℕ) (held : Bool)
  /-- The refresher deletes the entry of the key. -/
  | leave (stop : ℕ)

/-- What an event needs. -/
def Enabled (s : State) : Event → Prop
  | .startRefresh stop => s.phase stop = .absent
  | .stopRefresh => True
  | .close stop => stop ∈ s.closing
  | .stopped stop => s.phase stop = .selecting ∧ 0 < s.closes stop
  | .cancelled stop | .tick stop => s.phase stop = .selecting
  | .refreshed stop _ => s.phase stop = .refreshing
  | .leave stop => s.phase stop = .leaving

def close (s : State) (stop : ℕ) : State :=
  { s with closes := update s.closes stop (s.closes stop + 1) }

def go (s : State) (stop : ℕ) (phase : Phase) : State := { s with phase := update s.phase stop phase }

def next (s : State) : Event → State
  | .startRefresh stop =>
    { go ((s.heldLocks.map (close s)).getD s) stop .selecting with heldLocks := some stop }
  | .stopRefresh => { s with heldLocks := none, closing := s.heldLocks.toList ++ s.closing }
  | .close stop => { close s stop with closing := s.closing.erase stop }
  | .stopped stop => go s stop .returned
  | .cancelled stop => go s stop .leaving
  | .tick stop => go s stop .refreshing
  | .refreshed stop held => go s stop (if held then .selecting else .leaving)
  | .leave stop =>
    { go s stop .returned with
      heldLocks := none
      displaced := fun i => s.displaced i ∨ s.heldLocks = some i ∧ i ≠ stop }

inductive Reachable : State → Prop
  | initial : Reachable initial
  | step {s : State} {event : Event} (h : Reachable s) (henabled : Enabled s event) :
      Reachable (next s event)

namespace State

variable (s : State)

/-- A refresher that has not been told to stop. -/
@[grind =] def Current (i : ℕ) : Prop :=
  s.phase i ≠ .absent ∧ s.phase i ≠ .returned ∧ s.closes i = 0

/-- No call and no case of a `select` is under way. -/
def Quiet : Prop :=
  s.closing = [] ∧ ∀ i, s.phase i ≠ .refreshing ∧ s.phase i ≠ .leaving

/-- At most one refresher has not been told to stop, and the table has its channel. -/
def Tracked : Prop := ∀ i, s.Current i ↔ s.heldLocks = some i

end State

/-! ## 2.  What every run keeps -/

/-- A channel that is not closed is in the table, or about to be closed, or its entry was deleted by
another refresher, and then nothing closes it any more. -/
structure Sound (s : State) : Prop where
  absent : ∀ i, s.phase i = .absent → s.closes i = 0 ∧ i ∉ s.closing ∧ ¬s.displaced i
  held : ∀ i, s.heldLocks = some i → s.Current i ∧ i ∉ s.closing ∧ ¬s.displaced i
  nodup : s.closing.Nodup
  closing : ∀ i ∈ s.closing, s.closes i = 0 ∧ ¬s.displaced i
  once : ∀ i, s.closes i ≤ 1
  displaced : ∀ i, s.displaced i → s.closes i = 0
  current : ∀ i, s.Current i → s.heldLocks = some i ∨ i ∈ s.closing ∨ s.displaced i

variable {s : State}

theorem Sound.next (h : Sound s) {event : Event} (henabled : Enabled s event) :
    Sound (next s event) := by
  obtain ⟨hab, hheld, hnd, hclosing, honce, hdisplaced, hcur⟩ := h
  cases event with
  | startRefresh stop =>
    -- what was in the table is closed here, and is not about to be closed elsewhere
    cases ht : s.heldLocks with
    | none | some prev =>
      simp only [Enabled, Refreshers.next, go, close, ht, Option.map_none, Option.map_some,
        Option.getD_none, Option.getD_some] at henabled ⊢
      constructor
      all_goals grind
  | stopRefresh | close stop | stopped stop | cancelled stop | tick stop | refreshed stop held
  | leave stop =>
    simp only [Enabled, Refreshers.next, go, close] at henabled ⊢
    constructor
    all_goals grind

theorem Reachable.sound (h : Reachable s) : Sound s := by
  induction h with
  | initial =>
    constructor
    all_goals simp [Refreshers.initial, State.Current]
  | step _ henabled ih => exact ih.next henabled

/-- The lock is taken, released and taken again. -/
def relocked : State :=
  next (next (next (next initial (.startRefresh 0)) .stopRefresh) (.close 0)) (.startRefresh 1)

theorem reachable_relocked : Reachable relocked := by
  unfold relocked
  refine .step (.step (.step (.step .initial ?_) ?_) ?_) ?_
  · rfl
  · trivial
  · exact List.mem_cons_self
  · rfl

/-- The first refresher finds its context cancelled only then. -/
def overtaken : State := next (next relocked (.cancelled 0)) (.leave 0)

end Swytch.Caddy.Refreshers
