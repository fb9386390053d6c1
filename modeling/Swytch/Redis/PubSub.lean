import Swytch.Sql.Value
import Swytch.Lib.Runs

/-!
# Announcing subscriptions to the cluster

The manager tells the router when a channel or a pattern gets its first local subscriber and when it
loses its last one.  Which calls do so is decided under the manager's lock; the announcements are
made after it is released, so those of two calls may come in the other order.
-/

namespace Swytch.Redis.PubSub

open List
open Sql (Bytes)

/-! ## 1.  The tables -/

/-- A channel or a pattern. -/
structure Topic where
  name : Bytes
  isPattern : Bool
  deriving DecidableEq

variable {Client : Type*} [DecidableEq Client]

/-- The maps of the manager.  A topic without an entry has no subscribers, and the last subscriber to
leave deletes the entry. -/
structure Manager (Client : Type*) where
  /-- `channels` and `patterns` -/
  subscribers : Topic → Finset Client
  /-- `clientChannels` and `clientPatterns` -/
  subscriptions : Client → Finset Topic

/-- What a call leaves when it releases the lock: the topics that it has to announce, and the
number of subscriptions after each topic. -/
structure Outcome (Client : Type*) where
  manager : Manager Client
  transitions : List Topic
  counts : List ℕ

namespace Manager

def new : Manager Client := ⟨fun _ => ∅, fun _ => ∅⟩

def add (m : Manager Client) (client : Client) (t : Topic) : Manager Client :=
  ⟨Function.update m.subscribers t (insert client (m.subscribers t)),
    Function.update m.subscriptions client (insert t (m.subscriptions client))⟩

def remove (m : Manager Client) (client : Client) (t : Topic) : Manager Client :=
  ⟨Function.update m.subscribers t ((m.subscribers t).erase client),
    Function.update m.subscriptions client ((m.subscriptions client).erase t)⟩

/-- The loop of `Subscribe` and `PSubscribe`. -/
def subscribe (client : Client) : List Topic → Manager Client → Outcome Client
  | [], m => ⟨m, [], []⟩
  | t :: topics, m =>
    let next := m.add client t
    let rest := subscribe client topics next
    let firstTime := if m.subscribers t = ∅ then t :: rest.transitions else rest.transitions
    ⟨rest.manager, firstTime, (next.subscriptions client).card :: rest.counts⟩

/-- The loop of `Unsubscribe`, `PUnsubscribe` and `Cleanup`. -/
def unsubscribe (client : Client) : List Topic → Manager Client → Outcome Client
  | [], m => ⟨m, [], []⟩
  | t :: topics, m =>
    let next := m.remove client t
    let rest := unsubscribe client topics next
    let lastGone :=
      if m.subscribers t ≠ ∅ ∧ next.subscribers t = ∅ then t :: rest.transitions
      else rest.transitions
    ⟨rest.manager, lastGone, (next.subscriptions client).card :: rest.counts⟩

end Manager

open Manager (subscribe unsubscribe remove add)

inductive Call (Client : Type*) where
  | subscribe (client : Client) (isPattern : Bool) (names : List Bytes)
  | unsubscribe (client : Client) (isPattern : Bool) (names : List Bytes)
  | cleanup (client : Client)

namespace Call

def client : Call Client → Client
  | .subscribe client _ _ | .unsubscribe client _ _ | .cleanup client => client

def leaves : Call Client → Bool
  | .subscribe .. => false
  | .unsubscribe .. | .cleanup _ => true

/-- The topics that the call goes through.  Without names `Unsubscribe` ranges over those of the
client, as `Cleanup` does, in the order in which the map gives them. -/
def topics (order : List Topic) : Call Client → List Topic
  | .subscribe _ isPattern names => names.map (⟨·, isPattern⟩)
  | .unsubscribe _ isPattern names =>
    if names = [] then order.filter (·.isPattern = isPattern) else names.map (⟨·, isPattern⟩)
  | .cleanup _ => order.filter (·.isPattern = false) ++ order.filter (·.isPattern = true)

/-- The part of the call that runs under the lock. -/
def run (order : List Topic) (call : Call Client) (m : Manager Client) : Outcome Client :=
  match call with
  | .subscribe client _ _ => m.subscribe client (call.topics order)
  | .unsubscribe client _ _ =>
    if call.topics order = [] then ⟨m, [], [0]⟩ else m.unsubscribe client (call.topics order)
  | .cleanup client =>
    let gone := m.unsubscribe client (call.topics order)
    ⟨⟨gone.manager.subscribers, Function.update gone.manager.subscriptions client ∅⟩,
      gone.transitions, []⟩

/-- The call brings the topic its first subscriber or takes the last one from it. -/
def Crosses (order : List Topic) (call : Call Client) (m : Manager Client) (t : Topic) : Prop :=
  t ∈ call.topics order ∧
    m.subscribers t = if call.leaves then {call.client} else ∅

end Call

/-! ## 2.  Calls in flight -/

/-- `AnnounceSub` or `AnnounceUnsub` of a topic. -/
structure Announcement where
  topic : Topic
  unsubscribe : Bool
  deriving DecidableEq

/-- The tables, what each call that has released the lock has still to announce, and what the
router was told. -/
structure State (Client : Type*) where
  manager : Manager Client
  inFlight : List (List Announcement)
  announced : List Announcement

inductive Event (Client : Type*) where
  /-- A call takes the lock, does its work and releases it. -/
  | locked (call : Call Client) (order : List Topic)
  /-- A call in flight makes its next announcement. -/
  | announce (call : ℕ)

/-- One event.  The order is one in which the range over the client's map may come. -/
def step : Event Client → State Client → Option (State Client)
  | .locked call order, s =>
    if order.Nodup ∧ order.toFinset = s.manager.subscriptions call.client then
      let outcome := call.run order s.manager
      some { s with
        manager := outcome.manager
        inFlight := s.inFlight ++ [outcome.transitions.map (⟨·, call.leaves⟩)] }
    else none
  | .announce call, s =>
    match s.inFlight[call]? with
    | some (a :: rest) =>
      some { s with inFlight := s.inFlight.set call rest, announced := s.announced ++ [a] }
    | _ => none

namespace State

def initial : State Client := ⟨.new, [], []⟩

/-- All calls have returned. -/
def Returned (s : State Client) : Prop := ∀ call ∈ s.inFlight, call = []

/-- The announcements of a topic that calls in flight have still to make. -/
def pending (s : State Client) (t : Topic) : List Announcement :=
  s.inFlight.flatten.filter (·.topic = t)

/-- The peers take the topic to have a subscriber here: the last announcement says so. -/
def Announced (s : State Client) (t : Topic) : Prop :=
  (s.announced.filter (·.topic = t)).getLast?.map (·.unsubscribe) = some false

instance (s : State Client) : Decidable s.Returned :=
  inferInstanceAs (Decidable (∀ call ∈ s.inFlight, call = []))

instance (s : State Client) (t : Topic) : Decidable (s.Announced t) :=
  inferInstanceAs (Decidable (_ = _))

end State

/-! ## 3.  What a call announces -/

section Loops

variable (client : Client) (topics : List Topic) (m : Manager Client) (t : Topic)

theorem transitions_subscribe :
    (m.subscribe client topics).transitions.filter (· = t) =
      if t ∈ topics ∧ m.subscribers t = ∅ then [t] else [] := by
  induction topics generalizing m with
  | nil => simp [subscribe]
  | cons u topics ih =>
    by_cases hu : u = t
    · subst hu
      by_cases hnil : m.subscribers u = ∅
      all_goals simp [subscribe, ih, add, hnil]
    · have hsame : (m.add client u).subscribers t = m.subscribers t :=
        Function.update_of_ne (Ne.symm hu) ..
      have ht : (m.subscribe client (u :: topics)).transitions.filter (· = t) =
          ((m.add client u).subscribe client topics).transitions.filter (· = t) := by
        rw [subscribe]
        split <;> simp [hu]
      rw [ht, ih, hsame]
      simp [Ne.symm hu]

theorem nonempty_subscribe :
    ((m.subscribe client topics).manager.subscribers t).Nonempty ↔
      t ∈ topics ∨ (m.subscribers t).Nonempty := by
  induction topics generalizing m with
  | nil => simp [subscribe]
  | cons u topics ih =>
    rw [subscribe, ih]
    by_cases hu : t = u
    · subst hu
      simp [add]
    · simp [add, hu]

theorem subscribers_unsubscribe :
    (m.unsubscribe client topics).manager.subscribers t =
      if t ∈ topics then (m.subscribers t).erase client else m.subscribers t := by
  induction topics generalizing m with
  | nil => simp [unsubscribe]
  | cons u topics ih =>
    rw [unsubscribe, ih]
    by_cases hu : t = u
    · subst hu
      simp [remove]
    · simp [remove, hu]

theorem transitions_unsubscribe :
    (m.unsubscribe client topics).transitions.filter (· = t) =
      if t ∈ topics ∧ m.subscribers t = {client} then [t] else [] := by
  induction topics generalizing m with
  | nil => simp [unsubscribe]
  | cons u topics ih =>
    by_cases hu : u = t
    · subst hu
      have hl : (m.subscribers u ≠ ∅ ∧ (m.remove client u).subscribers u = ∅) ↔
          m.subscribers u = {client} := by
        simp only [remove, Function.update_self, Finset.erase_eq_empty_iff]
        constructor
        · rintro ⟨hne, hnil | hone⟩
          · exact absurd hnil hne
          · exact hone
        · intro hone
          exact ⟨by simp [hone], .inr hone⟩
      -- once the client has left, it is not the only subscriber again
      have hg : (m.remove client u).subscribers u ≠ {client} := by
        intro hone
        have hmem : client ∈ (m.subscribers u).erase client := by
          rw [show (m.subscribers u).erase client = {client} by simpa [remove] using hone]
          exact Finset.mem_singleton_self client
        exact Finset.notMem_erase _ _ hmem
      rw [unsubscribe]
      simp only [hl]
      by_cases hone : m.subscribers u = {client}
      all_goals simp [ih, hg, hone]
    · have hsame : (m.remove client u).subscribers t = m.subscribers t :=
        Function.update_of_ne (Ne.symm hu) ..
      have ht : (m.unsubscribe client (u :: topics)).transitions.filter (· = t) =
          ((m.remove client u).unsubscribe client topics).transitions.filter (· = t) := by
        rw [unsubscribe]
        split <;> simp [hu]
      rw [ht, ih, hsame]
      simp [Ne.symm hu]

end Loops

section Calls

variable (order : List Topic) (call : Call Client) (m : Manager Client) (t : Topic)

/-- A call that leaves goes through its topics, whether it is `Unsubscribe` or `Cleanup`. -/
theorem run_of_leaves (h : call.leaves = true) :
    (call.run order m).transitions =
        (m.unsubscribe call.client (call.topics order)).transitions ∧
      (call.run order m).manager.subscribers =
        (m.unsubscribe call.client (call.topics order)).manager.subscribers := by
  cases call with
  | subscribe client isPattern names => cases h
  | unsubscribe client isPattern names =>
    rw [Call.run]
    split
    · rename_i hn
      rw [hn]
      exact ⟨rfl, rfl⟩
    · exact ⟨rfl, rfl⟩
  | cleanup client => exact ⟨rfl, rfl⟩

theorem transitions_run [Decidable (call.Crosses order m t)] :
    (call.run order m).transitions.filter (· = t) =
      if call.Crosses order m t then [t] else [] := by
  cases hlv : call.leaves with
  | true =>
    rw [(run_of_leaves order call m hlv).1, transitions_unsubscribe]
    simp [Call.Crosses, hlv]
  | false =>
    cases call with
    | subscribe client isPattern names =>
      rw [Call.run, transitions_subscribe]
      simp [Call.Crosses, hlv]
    | unsubscribe client isPattern names | cleanup client => cases hlv

/-- A topic that crosses has a subscriber afterwards if the call subscribes; for another one nothing
changes. -/
theorem nonempty_run [Decidable (call.Crosses order m t)] :
    ((call.run order m).manager.subscribers t).Nonempty ↔
      if call.Crosses order m t then call.leaves = false else (m.subscribers t).Nonempty := by
  cases hlv : call.leaves with
  | true =>
    have hcr : call.Crosses order m t ↔
        t ∈ call.topics order ∧ m.subscribers t = {call.client} := by
      simp [Call.Crosses, hlv]
    rw [(run_of_leaves order call m hlv).2, subscribers_unsubscribe]
    simp only [hcr]
    by_cases hmem : t ∈ call.topics order
    · rw [if_pos hmem]
      by_cases hone : m.subscribers t = {call.client}
      · simp [hmem, hone]
      · have hl : ((m.subscribers t).erase call.client).Nonempty ↔ (m.subscribers t).Nonempty := by
          rw [Finset.nonempty_iff_ne_empty, Finset.nonempty_iff_ne_empty, ne_eq,
            Finset.erase_eq_empty_iff, or_iff_left hone]
        rw [hl, if_neg fun hboth => hone hboth.2]
    · simp [hmem]
  | false =>
    cases call with
    | subscribe client isPattern names =>
      have hcr : (Call.subscribe client isPattern names).Crosses order m t ↔
          t ∈ (Call.subscribe client isPattern names).topics order ∧ m.subscribers t = ∅ := by
        simp [Call.Crosses, hlv]
      rw [Call.run, nonempty_subscribe]
      simp only [hcr]
      by_cases hmem : t ∈ (Call.subscribe client isPattern names).topics order
      · by_cases hnil : m.subscribers t = ∅
        · simp [hnil]
        · simp [hnil, Finset.nonempty_iff_ne_empty]
      · simp [hmem]
    | unsubscribe client isPattern names | cleanup client => cases hlv

end Calls

/-! ## 4.  Runs without a race -/

/-- No call makes or takes the first subscriber of a topic while an announcement of that topic is
outstanding. -/
def NoRace : Event Client → State Client → Prop
  | .locked call order, s => ∀ t, call.Crosses order s.manager t → s.pending t = []
  | .announce _, _ => True

/-- At most one announcement of a topic is outstanding, and the last one, made or outstanding, says
whether it has a subscriber. -/
structure Settling (s : State Client) : Prop where
  one : ∀ t, (s.pending t).length ≤ 1
  last : ∀ t, (((s.announced.filter (·.topic = t)) ++ s.pending t).getLast?.map (·.unsubscribe) =
    some false) ↔ (s.manager.subscribers t).Nonempty

omit [DecidableEq Client] in
theorem settling_initial : Settling (State.initial : State Client) := by
  constructor
  · intro t
    exact Nat.zero_le _
  · simp [State.initial, State.pending, Manager.new]

variable {s : State Client} {rest : List Announcement} {a : Announcement}

theorem Settling.locked (h : Settling s) {call : Call Client} {order : List Topic}
    (hra : NoRace (.locked call order) s) :
    Settling (⟨(call.run order s.manager).manager,
      s.inFlight ++ [(call.run order s.manager).transitions.map (⟨·, call.leaves⟩)],
      s.announced⟩ : State Client) := by
  classical
  have hpend : ∀ t, State.pending (⟨(call.run order s.manager).manager,
      s.inFlight ++ [(call.run order s.manager).transitions.map (⟨·, call.leaves⟩)],
      s.announced⟩ : State Client) t =
        s.pending t ++ if call.Crosses order s.manager t then [⟨t, call.leaves⟩] else [] := by
    intro t
    have hnew : (((call.run order s.manager).transitions.map
        fun u => (⟨u, call.leaves⟩ : Announcement)).filter (·.topic = t)) =
          ((call.run order s.manager).transitions.filter (· = t)).map (⟨·, call.leaves⟩) := by
      rw [filter_map]
      rfl
    simp only [State.pending, flatten_append, flatten_singleton, filter_append, hnew,
      transitions_run]
    split <;> rfl
  constructor
  · intro t
    rw [hpend]
    split
    · rename_i hcr
      rw [hra t hcr]
      exact le_rfl
    · rw [append_nil]
      exact h.one t
  · intro t
    rw [hpend, nonempty_run]
    split
    · simp
    · rw [append_nil]
      exact h.last t

/-- An announcement leaves the list of its call. -/
theorem flatten_set {l : List (List Announcement)} {i : ℕ} (h : l[i]? = some (a :: rest)) :
    ∃ before after, l.flatten = before ++ a :: after ∧
      (l.set i rest).flatten = before ++ after := by
  obtain ⟨hlt, hget⟩ := List.getElem?_eq_some_iff.mp h
  refine ⟨(l.take i).flatten, rest ++ (l.drop (i + 1)).flatten, ?_, ?_⟩
  · conv_lhs => rw [← List.take_append_drop i l, List.drop_eq_getElem_cons hlt, hget]
    simp
  · rw [List.set_eq_take_append_cons_drop, if_pos hlt]
    simp

omit [DecidableEq Client] in
theorem Settling.announce (h : Settling s) {call : ℕ} (hc : s.inFlight[call]? = some (a :: rest)) :
    Settling (⟨s.manager, s.inFlight.set call rest, s.announced ++ [a]⟩ : State Client) := by
  obtain ⟨before, after, hold, hnew⟩ := flatten_set hc
  have hone := h.one
  have hl := h.last
  simp only [State.pending, hold, filter_append, filter_cons] at hone hl
  constructor
  · intro t
    have hlen := hone t
    simp only [State.pending, hnew, filter_append, length_append] at hlen ⊢
    split at hlen
    · rw [length_cons] at hlen
      omega
    · exact hlen
  · intro t
    rw [← hl t]
    simp only [State.pending, hnew, filter_append, filter_cons, filter_nil]
    split
    · rename_i ha
      -- it was the one outstanding announcement of its topic
      have hlen := hone t
      rw [if_pos ha, length_append, length_cons] at hlen
      have hb : before.filter (·.topic = t) = [] :=
        eq_nil_of_length_eq_zero (by omega)
      rw [hb, nil_append, nil_append, append_assoc]
      rfl
    · rw [append_nil]

theorem Settling.step {s' : State Client} (h : Settling s) {event : Event Client}
    (hra : NoRace event s) (hstep : step event s = some s') : Settling s' := by
  cases event with
  | locked call order =>
    rw [PubSub.step] at hstep
    split at hstep
    · cases hstep
      exact h.locked hra
    · cases hstep
  | announce call =>
    rw [PubSub.step] at hstep
    split at hstep
    · rename_i a rest hc
      cases hstep
      exact h.announce hc
    · cases hstep

/-- If no call makes or takes the first subscriber of a topic while an announcement of that topic is
outstanding, then once all calls have returned the last announcement of every topic is a
subscription precisely when it has a local subscriber. -/
theorem announcements_converge {events : List (Event Client)} {s : State Client}
    (hrun : Runs.after step events .initial = some s)
    (hrace : Runs.Along step NoRace events .initial) (hreturned : s.Returned) (t : Topic) :
    s.Announced t ↔ (s.manager.subscribers t).Nonempty := by
  have hsettling : Settling s :=
    Runs.invariant_of_along (fun _ _ _ h hrace hstep => h.step hrace hstep) settling_initial hrace hrun
  have hn : s.pending t = [] := by
    rw [State.pending, flatten_eq_nil_iff.mpr hreturned, filter_nil]
  rw [← hsettling.last t, hn, append_nil, State.Announced]

section Race

/-- The channel `news`. -/
def news : Topic := ⟨[110, 101, 119, 115], false⟩

/-- Client `0` subscribes and announces it. -/
def oneSubscriber : List (Event ℕ) :=
  [.locked (.subscribe 0 false [news.name]) [], .announce 0]

/-- Client `0` leaves and client `1` comes; the announcements follow in the other order. -/
def crossing : List (Event ℕ) :=
  oneSubscriber ++ [.locked (.unsubscribe 0 false [news.name]) [news],
    .locked (.subscribe 1 false [news.name]) [], .announce 2, .announce 1]

theorem crossing_forgets_subscriber :
    ∃ s, Runs.after step crossing .initial = some s ∧ s.Returned ∧
      ¬s.Announced news ∧ (s.manager.subscribers news).Nonempty := by
  refine ⟨_, rfl, ?_, ?_, ?_⟩
  · decide
  · decide
  · exact ⟨1, by decide⟩

theorem oneSubscriber_converges :
    ∃ s, Runs.after step oneSubscriber .initial = some s ∧
      (s.Announced news ↔ (s.manager.subscribers news).Nonempty) := by
  have hra : Runs.Along step NoRace oneSubscriber .initial :=
    Runs.along_cons rfl (fun _ _ => rfl) (Runs.along_cons rfl trivial trivial)
  refine ⟨_, rfl, announcements_converge rfl hra ?_ news⟩
  decide

end Race

end Swytch.Redis.PubSub
