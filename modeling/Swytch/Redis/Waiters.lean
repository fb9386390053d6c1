import Swytch.Lib.Runs
import Swytch.Sql.Value

/-!
# Clients that wait for lists

`BLPOP`, `BRPOP`, `BLMPOP`, `BLMOVE` and `BRPOPLPUSH` register a waiter on their keys and then
loop: they try the keys in order, and when nothing was there they wait for a signal.  A
notification for a key signals the oldest waiter on it, and signals that are not received yet
fall together (the channel holds one).  A waiter leaves its queues when it is served, when its
time is over and when the destination of a move has another type; only in the last case the next
waiter is signalled.

So that no client is forgotten, this has to hold of every key that is not empty and has waiters:
a notification for it is on its way, or the oldest waiter is about to try it (`Served`).  Every
step keeps it but one: a waiter that leaves while it is the oldest on a key.  What this has to
meet is `HandsOver`.

The lists are numbers of elements.  The registration, the attempts on the single keys and the
delivery of notifications are steps of their own, so they interleave.  The topics are found by a
hash of the key in the source; here each key has its own.
-/

namespace Swytch.Redis.Waiters

open Option
open List
open Sql (Bytes utf8)
open Function (update_self update update_of_ne)
open Runs (along_cons)

/-! ## 1.  Clients and queues -/

/-- A blocking command: `BLPOP`, `BRPOP` and `BLMPOP` pop up to a number of elements from the
first key that has any, `BLMOVE` and `BRPOPLPUSH` move one. -/
inductive BlockingCommand where
  | pop (keys : List Bytes) (count : ℕ)
  | move (source destination : Bytes)
  deriving DecidableEq

def BlockingCommand.keys : BlockingCommand → List Bytes
  | .pop keys _ => keys
  | .move source _ => [source]

inductive Phase where
  | gone
  /-- In `Register`, with these keys to come. -/
  | registering (cmd : BlockingCommand) (todo : List Bytes)
  /-- In the loop over the keys, with these to come. -/
  | trying (cmd : BlockingCommand) (todo : List Bytes)
  /-- In `Wait`. -/
  | waiting (cmd : BlockingCommand)
  deriving DecidableEq

/-- The command of a blocked client. -/
def Phase.command : Phase → Option BlockingCommand
  | .gone => none
  | .registering cmd _ => some cmd
  | .trying cmd _ => some cmd
  | .waiting cmd => some cmd

/-- The keys that the client is not registered on yet. -/
def Phase.missing : Phase → List Bytes
  | .registering _ todo => todo
  | _ => []

open Phase (command missing)

/-- The client will try the key before it waits. -/
def Phase.Tries : Phase → Bytes → Prop
  | .gone, _ => False
  | .registering _ _, _ => True
  | .trying _ todo, key => key ∈ todo
  | .waiting _, _ => False

/-- The lists, the keys of another type, the waiters on each key with the oldest first, the
channel of each waiter, the clients, and the notifications that are not delivered yet. -/
structure State where
  lists : Bytes → ℕ
  otherType : Bytes → Bool
  queue : Bytes → List ℕ
  signal : ℕ → Bool
  phase : ℕ → Phase
  pending : List Bytes

/-- No client and no notification. -/
def State.idle (lists : Bytes → ℕ) (otherType : Bytes → Bool) : State where
  lists := lists
  otherType := otherType
  queue _ := []
  signal _ := false
  phase _ := .gone
  pending := []

/-- The client goes on to another phase. -/
def State.goTo (s : State) (client : ℕ) (phase : Phase) : State :=
  { s with phase := Function.update s.phase client phase }

def State.isOldestWaiter (s : State) (client : ℕ) (key : Bytes) : Bool :=
  match s.queue key with
  | [] => true
  | oldest :: _ => oldest = client

/-- `Notify`: the oldest waiter on the key is signalled. -/
def State.notify (s : State) (key : Bytes) : State :=
  match s.queue key with
  | [] => s
  | oldest :: _ => { s with signal := Function.update s.signal oldest true }

/-- `NotifyAllWaiters`. -/
def State.notifyAll (s : State) (key : Bytes) : State :=
  { s with signal := fun client => s.signal client || (s.queue key).contains client }

def State.cancel (s : State) (client : ℕ) : State :=
  { s with
    queue := fun key => (s.queue key).filter (· ≠ client)
    phase := Function.update s.phase client .gone
    signal := Function.update s.signal client false }

open State (goTo cancel idle notify)

/-! ## 2.  The steps -/

/-- What can happen. -/
inductive Event where
  | block (client : ℕ) (cmd : BlockingCommand)
  /-- It registers on its next key, or begins to try them. -/
  | register (client : ℕ)
  /-- It tries its next key, or begins to wait. -/
  | attempt (client : ℕ)
  /-- It receives its signal. -/
  | wake (client : ℕ)
  /-- Its time is over, it is unblocked or it disconnects. -/
  | leave (client : ℕ)
  /-- Another client pushes. -/
  | push (key : Bytes) (n : ℕ)
  /-- Another client pops. -/
  | take (key : Bytes) (n : ℕ)
  /-- The key is deleted, or set to a value of another type. -/
  | overwrite (key : Bytes) (otherType : Bool)
  | deliver (key : Bytes)
  | deliverDeleted (key : Bytes)
  deriving DecidableEq

/-- `tryPop`, `tryMultiPop` and the loop around them. -/
def State.tryPop (s : State) (client : ℕ) (cmd : BlockingCommand) (count : ℕ) (key : Bytes)
    (todo : List Bytes) : State :=
  if s.isOldestWaiter client key && 0 < s.lists key then
    { s.cancel client with lists := Function.update s.lists key (s.lists key - count) }
  else s.goTo client (.trying cmd todo)

/-- The data after a move of one element. -/
def State.moved (s : State) (source destination : Bytes) : Bytes → ℕ :=
  let taken := Function.update s.lists source (s.lists source - 1)
  Function.update taken destination (taken destination + 1)

/-- `doLMove` and the loop around it. -/
def State.tryMove (s : State) (client : ℕ) (source destination : Bytes) (todo : List Bytes) :
    State :=
  if s.otherType source then (s.cancel client).notify source
  else if s.lists source = 0 then s.goTo client (.trying (.move source destination) todo)
  else if source ≠ destination ∧ s.otherType destination = true then
    -- `CancelAndRenotify`
    (s.cancel client).notify source
  else
    { s.cancel client with
      lists := s.moved source destination
      pending := s.pending ++ [destination] }

def step (event : Event) (s : State) : Option State :=
  match event with
  | .block client cmd =>
    match s.phase client with
    | .gone =>
      if cmd.keys = [] then none
      else
        match cmd with
        | .pop keys count =>
          -- The check for other types before it blocks.
          if keys.any s.otherType then none
          else some (s.goTo client (.registering (.pop keys count) keys))
        | .move source destination =>
          some (s.goTo client (.registering (.move source destination) [source]))
    | _ => none
  | .register client =>
    match s.phase client with
    | .registering cmd (key :: todo) =>
      some { s.goTo client (.registering cmd todo) with
        queue := Function.update s.queue key (s.queue key ++ [client]) }
    | .registering cmd [] => some (s.goTo client (.trying cmd cmd.keys))
    | _ => none
  | .attempt client =>
    match s.phase client with
    | .trying cmd [] => some (s.goTo client (.waiting cmd))
    | .trying (.pop keys count) (key :: todo) =>
      some (s.tryPop client (.pop keys count) count key todo)
    | .trying (.move source destination) (_ :: todo) =>
      some (s.tryMove client source destination todo)
    | _ => none
  | .wake client =>
    match s.phase client with
    | .waiting cmd =>
      if s.signal client then
        some { s.goTo client (.trying cmd cmd.keys) with
          signal := Function.update s.signal client false }
      else none
    | _ => none
  | .leave client =>
    match s.phase client with
    | .waiting _ => some (s.cancel client)
    | _ => none
  | .push key n =>
    if n = 0 || s.otherType key then none
    else
      some { s with
        lists := Function.update s.lists key (s.lists key + n)
        pending := s.pending ++ [key] }
  | .take key n => some { s with lists := Function.update s.lists key (s.lists key - n) }
  | .overwrite key otherType =>
    some { s with
      lists := Function.update s.lists key 0
      otherType := Function.update s.otherType key otherType }
  | .deliver key =>
    if key ∈ s.pending then some ({ s with pending := s.pending.erase key }.notify key) else none
  | .deliverDeleted key => some (s.notifyAll key)

/-! ## 3.  What holds in every state -/

/-- The waiter has its signal or will try the key before it waits. -/
def Active (s : State) (client : ℕ) (key : Bytes) : Prop :=
  s.signal client = true ∨ (s.phase client).Tries key

/-- If the key is not empty, a notification for it is on its way or its oldest waiter is
active. -/
def Served (s : State) (key : Bytes) : Prop :=
  ∀ client, (s.queue key).head? = some client → 0 < s.lists key →
    key ∈ s.pending ∨ Active s client key

/-- The queues hold the blocked clients, each on its keys. -/
structure Queued (s : State) : Prop where
  blocked : ∀ key, ∀ client ∈ s.queue key, ∃ cmd, (s.phase client).command = some cmd ∧
    key ∈ cmd.keys
  everywhere : ∀ client cmd, (s.phase client).command = some cmd → ∀ key ∈ cmd.keys,
    key ∈ (s.phase client).missing ∨ client ∈ s.queue key
  within : ∀ client cmd, (s.phase client).command = some cmd →
    (s.phase client).missing ⊆ cmd.keys

structure Sound (s : State) : Prop extends Queued s where
  served : ∀ key, Served s key

/-- The condition on a waiter that leaves, with the data after it: each key on which it is the
oldest waiter is left empty, or is the last waiter's, or a notification for it is on its way, or
the next waiter is about to try it. -/
def HandsOver (s : State) (client : ℕ) (lists : Bytes → ℕ) : Prop :=
  ∀ key next, (s.queue key).head? = some client →
    ((s.queue key).filter (· ≠ client)).head? = some next → 0 < lists key →
    key ∈ s.pending ∨ Active s next key

/-- The condition on a step: a client that is served or leaves hands over. -/
def Good (event : Event) (s : State) : Prop :=
  match event with
  | .attempt client =>
    match s.phase client with
    | .trying (.pop _ count) (key :: _) =>
      s.isOldestWaiter client key = true → 0 < s.lists key →
        HandsOver s client (Function.update s.lists key (s.lists key - count))
    | .trying (.move source destination) (_ :: _) =>
      s.otherType source = false → 0 < s.lists source → source ≠ destination →
        s.otherType destination = false →
        HandsOver s client (Function.update s.lists source (s.lists source - 1))
    | _ => True
  | .leave client => HandsOver s client s.lists
  | _ => True

/-! ## 4.  The steps keep it -/

variable {s s' : State} {source : Bytes} {lists : Bytes → ℕ} {cmd : BlockingCommand} {client : ℕ}

section Steps

variable {key : Bytes} {todo : List Bytes}

theorem sound_idle (lists : Bytes → ℕ) (otherType : Bytes → Bool) :
    Sound (idle lists otherType) where
  blocked key client hmem := absurd hmem (not_mem_nil)
  everywhere client cmd hcmd := absurd hcmd (by simp [idle, command])
  within client cmd hcmd := absurd hcmd (by simp [idle, command])
  served key client hh := absurd hh (by simp [idle])

/-- What `Queued` says of one client. -/
structure Placed (s : State) (client : ℕ) : Prop where
  blocked : ∀ key, client ∈ s.queue key → ∃ cmd, (s.phase client).command = some cmd ∧
    key ∈ cmd.keys
  everywhere : ∀ cmd, (s.phase client).command = some cmd → ∀ key ∈ cmd.keys,
    key ∈ (s.phase client).missing ∨ client ∈ s.queue key
  within : ∀ cmd, (s.phase client).command = some cmd → (s.phase client).missing ⊆ cmd.keys

/-- A step of one client leaves the others where they are. -/
theorem Queued.of_placed (h : Queued s)
    (hp : ∀ other, other ≠ client → s'.phase other = s.phase other)
    (hqueue : ∀ other, other ≠ client → ∀ key, other ∈ s'.queue key ↔ other ∈ s.queue key)
    (hclient : Placed s' client) : Queued s' := by
  have hplaced : ∀ other, Placed s' other := by
    intro other
    by_cases hsame : other = client
    · exact hsame ▸ hclient
    · constructor
      all_goals simp only [hp other hsame, hqueue other hsame]
      · exact fun key => h.blocked key other
      · exact h.everywhere other
      · exact h.within other
  exact ⟨fun key other => (hplaced other).blocked key, fun other => (hplaced other).everywhere,
    fun other => (hplaced other).within⟩

/-- A client that goes on to another phase of the same command. -/
theorem Queued.goTo (h : Queued s) (phase : Phase) (hcmd : phase.command = (s.phase client).command)
    (hmissing : phase.missing = (s.phase client).missing) : Queued (s.goTo client phase) := by
  refine h.of_placed (fun other hne => update_of_ne hne _ _) (fun _ _ _ => Iff.rfl) ?_
  constructor
  all_goals simp only [State.goTo, update_self, hcmd, hmissing]
  · exact fun key => h.blocked key client
  · exact h.everywhere client
  · exact h.within client

/-- What the client tries in the old phase and not in the new one is not its to serve. -/
theorem Served.goTo (h : Served s key) {phase : Phase}
    (htries : (s.queue key).head? = some client → 0 < s.lists key →
      (s.phase client).Tries key → phase.Tries key) : Served (s.goTo client phase) key := by
  intro oldest hh hl
  refine (h oldest hh hl).imp id fun hact => ?_
  by_cases hsame : oldest = client
  · subst hsame
    refine hact.imp id fun hold => ?_
    simpa [State.goTo] using htries hh hl hold
  · refine hact.imp id fun hold => ?_
    simpa [State.goTo, update_of_ne hsame] using hold

theorem Queued.cancel (h : Queued s) (client : ℕ) : Queued (s.cancel client) := by
  refine h.of_placed (fun other hne => update_of_ne hne _ _) (fun other hne key => ?_) ?_
  · simp [State.cancel, hne]
  · constructor
    all_goals simp [State.cancel, command]

theorem active_cancel {other : ℕ} (hne : other ≠ client) (h : Active s other key) :
    Active (s.cancel client) other key := by
  simpa [Active, cancel, update_of_ne hne] using h

theorem head?_filter_ne {queue : List ℕ} {oldest : ℕ} (h : queue.head? = some oldest)
    (hne : oldest ≠ client) : (queue.filter (· ≠ client)).head? = some oldest := by
  cases queue with
  | nil => simp at h
  | cons first rest =>
    cases h
    simp [hne]

/-- A waiter that leaves, with the data after it, keeps a key served if it hands it over. -/
theorem Served.cancel (h : Served s key) (lists : Bytes → ℕ)
    (hless : 0 < lists key → 0 < s.lists key) (hover : ∀ next, (s.queue key).head? = some client →
      ((s.queue key).filter (· ≠ client)).head? = some next → 0 < lists key →
      key ∈ s.pending ∨ Active s next key) :
    Served { s.cancel client with lists := lists } key := by
  intro next hh hl
  have hnext : next ≠ client := by
    have hmem : next ∈ (s.queue key).filter (· ≠ client) := mem_of_mem_head? hh
    exact of_decide_eq_true (mem_filter.mp hmem).2
  have hact : key ∈ s.pending ∨ Active s next key := by
    cases hold : (s.queue key).head? with
    | none =>
      rw [head?_eq_none_iff] at hold
      simp [State.cancel, hold] at hh
    | some oldest =>
      by_cases hsame : oldest = client
      · exact hover next (hsame ▸ hold) hh hl
      · have hf := head?_filter_ne hold hsame
        obtain rfl : oldest = next := some.inj (hf.symm.trans hh)
        exact h oldest hold (hless hl)
  exact hact.imp id fun hold => active_cancel hnext hold

/-- `Notify` serves the key and keeps the others served. -/
theorem served_notify : Served (s.notify key) key := by
  intro oldest hh _
  unfold notify at hh ⊢
  cases hqueue : s.queue key with
  | nil => simp [hqueue] at hh
  | cons first rest =>
    simp only [hqueue, head?_cons, some.injEq] at hh ⊢
    subst hh
    exact .inr (.inl (by simp))

theorem Served.notify {other : Bytes} (h : Served s other) : Served (s.notify key) other := by
  unfold State.notify
  cases s.queue key with
  | nil => exact h
  | cons first rest =>
    intro oldest hh hl
    refine (h oldest hh hl).imp id fun hact => hact.imp (fun hsignal => ?_) id
    by_cases hsame : oldest = first
    · simp [hsame]
    · simpa [update_of_ne hsame] using hsignal

theorem Queued.notify (h : Queued s) (key : Bytes) : Queued (s.notify key) := by
  unfold State.notify
  cases s.queue key with
  | nil => exact h
  | cons first rest => exact { h with }

theorem Sound.cancel_notify (h : Sound s) (honly : ∀ key, client ∈ s.queue key → key = source) :
    Sound ((s.cancel client).notify source) := by
  refine ⟨(h.toQueued.cancel client).notify source, fun key => ?_⟩
  by_cases hkey : key = source
  · subst hkey
    exact served_notify
  · refine Served.notify ?_
    refine (h.served key).cancel s.lists id fun next hh => ?_
    exact absurd (honly key (mem_of_mem_head? hh)) hkey

theorem Sound.block (h : Sound s) (hg : s.phase client = .gone) :
    Sound (s.goTo client (.registering cmd cmd.keys)) := by
  have hnot : ∀ key, client ∉ s.queue key := by
    intro key hmem
    obtain ⟨other, hcmd, -⟩ := h.blocked key client hmem
    simp [hg, command] at hcmd
  refine ⟨h.of_placed (fun other hne => update_of_ne hne _ _) (fun _ _ _ => Iff.rfl) ?_,
    fun key => (h.served key).goTo fun hh => absurd (mem_of_mem_head? hh) (hnot key)⟩
  constructor
  all_goals simp only [goTo, update_self, command, missing, some.injEq]
  · exact fun key hmem => absurd hmem (hnot key)
  · rintro _ rfl key hkey
    exact .inl hkey
  · rintro _ rfl
    exact Subset.refl _

theorem Sound.register (h : Sound s) (hp : s.phase client = .registering cmd (key :: todo)) :
    Sound { s.goTo client (.registering cmd todo) with
      queue := update s.queue key (s.queue key ++ [client]) } := by
  have hwithin : key :: todo ⊆ cmd.keys := by
    simpa [hp, missing] using h.within client cmd (by simp [hp, command])
  have hmem : ∀ {other at_ : _}, other ∈ update s.queue key (s.queue key ++ [client]) at_ ↔
      other ∈ s.queue at_ ∨ (at_ = key ∧ other = client) := by
    intro other at_
    by_cases hat : at_ = key
    · subst hat
      simp
    · simp [hat]
  refine ⟨h.of_placed (fun other hne => update_of_ne hne _ _)
    (fun other hne at_ => hmem.trans (or_iff_left fun hnew => hne hnew.2)) ?_, fun at_ => ?_⟩
  · constructor
    all_goals simp only [goTo, update_self, command, missing, some.injEq]
    · intro at_ hin
      rcases hmem.mp hin with hold | ⟨rfl, -⟩
      · simpa [hp, command] using h.blocked at_ client hold
      · exact ⟨cmd, rfl, hwithin mem_cons_self⟩
    · rintro _ rfl at_ hat
      rcases h.everywhere client cmd (by simp [hp, command]) at_ hat with hin | hin
      · rw [hp] at hin
        rcases mem_cons.mp hin with rfl | htodo
        · exact .inr (hmem.mpr (.inr ⟨rfl, rfl⟩))
        · exact .inl htodo
      · exact .inr (hmem.mpr (.inl hin))
    · rintro _ rfl
      exact fun _ hin => hwithin (mem_cons_of_mem key hin)
  · intro oldest hh hl
    by_cases hsame : oldest = client
    · -- A client that registers is active on every key.
      exact .inr (.inr (by simp [hsame, goTo, Phase.Tries]))
    · have hold : (s.queue at_).head? = some oldest := by
        by_cases hat : at_ = key
        · subst hat
          cases hqueue : s.queue at_ with
          | nil => simp [hqueue, Ne.symm hsame] at hh
          | cons first rest => simpa [hqueue] using hh
        · simpa [update_of_ne hat] using hh
      refine (h.served at_ oldest hold hl).imp id fun hact => ?_
      simpa [Active, goTo, update_of_ne hsame] using hact

/-- The lists may lose elements. -/
theorem Sound.lists_le (h : Sound s) (hless : ∀ key, 0 < lists key → 0 < s.lists key) :
    Sound { s with lists := lists } :=
  { h with served := fun key oldest hh hl => h.served key oldest hh (hless key hl) }

theorem update_pos {n : ℕ} (hn : n ≤ lists key) (other : Bytes) (h : 0 < update lists key n other) :
    0 < lists other := by
  by_cases hsame : other = key
  · subst hsame
    rw [update_self] at h
    omega
  · rwa [update_of_ne hsame] at h

theorem isOldestWaiter_of_head? (h : (s.queue key).head? = some client) :
    s.isOldestWaiter client key = true := by
  unfold State.isOldestWaiter
  cases hqueue : s.queue key with
  | nil => rfl
  | cons first rest => simpa [hqueue] using h

section

variable (h : Sound s)

include h

theorem Sound.tryPop {keys : List Bytes} {count : ℕ}
    (hp : s.phase client = .trying (.pop keys count) (key :: todo))
    (hgood : s.isOldestWaiter client key = true → 0 < s.lists key →
      HandsOver s client (update s.lists key (s.lists key - count))) :
    Sound (s.tryPop client (.pop keys count) count key todo) := by
  unfold State.tryPop
  split
  · rename_i hsv
    obtain ⟨holdest, hl⟩ := Bool.and_eq_true_iff.mp hsv
    have hl : 0 < s.lists key := of_decide_eq_true hl
    refine { h.toQueued.cancel client with served := fun other => ?_ }
    refine (h.served other).cancel _ (update_pos (Nat.sub_le _ _) other) fun next hh hnext hpos => ?_
    exact hgood holdest hl other next hh hnext hpos
  · rename_i hnot
    refine ⟨h.toQueued.goTo _ (by simp [hp, command]) (by simp [hp, missing]),
      fun other => (h.served other).goTo fun hh hl htries => ?_⟩
    -- The oldest waiter on a key that is not empty would have been served.
    rw [hp] at htries
    rcases mem_cons.mp htries with rfl | htodo
    · refine absurd ?_ hnot
      rw [isOldestWaiter_of_head? hh]
      simpa using hl
    · exact htodo

theorem Sound.tryMove {destination : Bytes}
    (hp : s.phase client = .trying (.move source destination) (key :: todo))
    (hgood : s.otherType source = false → 0 < s.lists source → source ≠ destination →
      s.otherType destination = false →
      HandsOver s client (update s.lists source (s.lists source - 1))) :
    Sound (s.tryMove client source destination todo) := by
  have honly : ∀ other, client ∈ s.queue other → other = source := by
    intro other hmem
    obtain ⟨cmd, hcmd, ho⟩ := h.blocked other client hmem
    simp only [hp, command, some.injEq] at hcmd
    subst hcmd
    exact mem_singleton.mp ho
  unfold State.tryMove
  split
  · exact h.cancel_notify honly
  rename_i hsrc
  split
  · refine ⟨h.toQueued.goTo _ (by simp [hp, command]) (by simp [hp, missing]),
      fun other => (h.served other).goTo fun hh hl _ => ?_⟩
    obtain rfl := honly other (mem_of_mem_head? hh)
    omega
  rename_i hl
  split
  · exact h.cancel_notify honly
  rename_i hdst
  have hover : ∀ other next, other ≠ destination → (s.queue other).head? = some client →
      ((s.queue other).filter (· ≠ client)).head? = some next →
      0 < update s.lists source (s.lists source - 1) other →
      other ∈ s.pending ∨ Active s next other := by
    intro other next ho hh hnext hpos
    obtain rfl := honly other (mem_of_mem_head? hh)
    have ht : s.otherType destination = false :=
      Bool.eq_false_iff.mpr fun htrue => hdst ⟨ho, htrue⟩
    exact hgood (Bool.eq_false_iff.mpr hsrc) (Nat.pos_of_ne_zero hl) ho ht
      other next hh hnext hpos
  refine { h.toQueued.cancel client with served := fun other => ?_ }
  by_cases ho : other = destination
  · intro next _ _
    exact .inl (by simp [ho])
  · -- Of the other keys, none has more than before, and the source one less.
    have hsv : Served { s.cancel client with
        lists := update s.lists source (s.lists source - 1) } other :=
      (h.served other).cancel _ (update_pos (Nat.sub_le _ _) other) fun next => hover other next ho
    intro next hh hpos
    have hpos' : 0 < update s.lists source (s.lists source - 1) other := by
      simpa [State.moved, update_of_ne ho] using hpos
    exact (hsv next hh hpos').imp (fun hmem => mem_append_left _ hmem) id

theorem Sound.wake (hp : s.phase client = .waiting cmd) :
    Sound { s.goTo client (.trying cmd cmd.keys) with
      signal := update s.signal client false } := by
  have hqu : Queued (s.goTo client (.trying cmd cmd.keys)) :=
    h.toQueued.goTo _ (by simp [hp, command]) (by simp [hp, missing])
  refine { hqu with served := fun key oldest hh hl => ?_ }
  by_cases hsame : oldest = client
  · -- The signal is gone, but the client tries all its keys again.
    subst hsame
    obtain ⟨cmd', hcmd, hkey⟩ := h.blocked key oldest (mem_of_mem_head? hh)
    simp only [hp, command, some.injEq] at hcmd
    subst hcmd
    exact .inr (.inr (by simpa [goTo, Phase.Tries] using hkey))
  · refine (h.served key oldest hh hl).imp id fun hact => ?_
    simpa [Active, goTo, update_of_ne hsame] using hact

theorem Sound.push (key : Bytes) (n : ℕ) :
    Sound { s with
      lists := update s.lists key (s.lists key + n)
      pending := s.pending ++ [key] } := by
  refine { h with served := fun other oldest hh hl => ?_ }
  by_cases hsame : other = key
  · exact .inl (by simp [hsame])
  · have hl : 0 < s.lists other := by simpa [update_of_ne hsame] using hl
    exact (h.served other oldest hh hl).imp (fun hmem => mem_append_left _ hmem) id

theorem Sound.deliver (key : Bytes) :
    Sound ({ s with pending := s.pending.erase key }.notify key) := by
  have hqu : Queued { s with pending := s.pending.erase key } := { h with }
  refine ⟨hqu.notify key, fun other => ?_⟩
  by_cases hsame : other = key
  · subst hsame
    exact served_notify
  · refine Served.notify fun oldest hh hl => ?_
    exact (h.served other oldest hh hl).imp
      (fun hmem => (mem_erase_of_ne hsame).mpr hmem) id

theorem Sound.notifyAll (key : Bytes) : Sound (s.notifyAll key) := by
  refine { h with served := fun other oldest hh hl => ?_ }
  refine (h.served other oldest hh hl).imp id fun hact => hact.imp (fun hsignal => ?_) id
  simp [State.notifyAll, hsignal]

theorem Sound.attempt (hgood : Good (.attempt client) s)
    (hstep : step (.attempt client) s = some s') : Sound s' := by
  simp only [step] at hstep
  simp only [Good] at hgood
  split at hstep
  · rename_i cmd hp
    cases hstep
    refine ⟨h.toQueued.goTo _ (by simp [hp, command]) (by simp [hp, missing]),
      fun key => (h.served key).goTo fun _ _ htries => ?_⟩
    simp [hp, Phase.Tries] at htries
  · rename_i keys count key todo hp
    cases hstep
    exact h.tryPop hp (by simpa [hp] using hgood)
  · rename_i source destination key todo hp
    cases hstep
    exact h.tryMove hp (by simpa [hp] using hgood)
  · cases hstep

/-- Every step that meets the condition keeps the invariant. -/
theorem Sound.step {event : Event} (hgood : Good event s) (hstep : step event s = some s') :
    Sound s' := by
  cases event with
  | block client cmd =>
    simp only [Waiters.step] at hstep
    split at hstep
    · rename_i hg
      split at hstep
      · cases hstep
      · have hnext : s' = s.goTo client (.registering cmd cmd.keys) := by
          cases cmd with
          | pop keys count =>
            simp only at hstep
            split at hstep
            · cases hstep
            · exact (some.inj hstep).symm
          | move source destination => exact (some.inj hstep).symm
        exact hnext ▸ h.block hg
    · cases hstep
  | register client =>
    simp only [Waiters.step] at hstep
    split at hstep
    · rename_i cmd key todo hp
      cases hstep
      exact h.register hp
    · rename_i cmd hp
      cases hstep
      refine ⟨h.toQueued.goTo _ (by simp [hp, command]) (by simp [hp, missing]),
        fun key => (h.served key).goTo fun hh _ _ => ?_⟩
      obtain ⟨cmd', hcmd, hkey⟩ := h.blocked key client (mem_of_mem_head? hh)
      simp only [hp, command, some.injEq] at hcmd
      exact hcmd ▸ hkey
    · cases hstep
  | attempt client => exact h.attempt hgood hstep
  | wake client =>
    simp only [Waiters.step] at hstep
    split at hstep
    · rename_i cmd hp
      split at hstep
      · cases hstep
        exact h.wake hp
      · cases hstep
    · cases hstep
  | leave client =>
    simp only [Waiters.step] at hstep
    split at hstep
    · cases hstep
      exact ⟨h.toQueued.cancel client, fun key =>
        (h.served key).cancel s.lists id (hgood key)⟩
    · cases hstep
  | push key n =>
    simp only [Waiters.step] at hstep
    split at hstep
    · cases hstep
    · cases hstep
      exact h.push key n
  | take key n =>
    cases hstep
    exact h.lists_le (update_pos (Nat.sub_le _ _))
  | overwrite key otherType =>
    cases hstep
    have hless := h.lists_le (update_pos (Nat.zero_le (s.lists key)))
    exact { hless with }
  | deliver key =>
    simp only [Waiters.step] at hstep
    split at hstep
    · cases hstep
      exact h.deliver key
    · cases hstep
  | deliverDeleted key =>
    cases hstep
    exact h.notifyAll key

end

end Steps

/-! ## 5.  No client is forgotten -/

/-- No notification is on its way, and no client is running or about to. -/
def Quiescent (s : State) : Prop :=
  s.pending = [] ∧ ∀ client,
    match s.phase client with
    | .gone => True
    | .waiting _ => s.signal client = false
    | _ => False

theorem Quiescent.not_active (h : Quiescent s) (hcmd : (s.phase client).command = some cmd)
    (key : Bytes) : ¬ Active s client key := by
  have hclient := h.2 client
  cases hp : s.phase client with
  | gone => simp [hp, command] at hcmd
  | registering cmd todo | trying cmd todo => simp [hp] at hclient
  | waiting cmd =>
    rw [hp] at hclient
    simp [Active, hp, Phase.Tries, hclient]

/-- In a state that keeps the invariant and is quiescent the waiting clients' keys are empty. -/
theorem Sound.keys_empty (h : Sound s) (hquiet : Quiescent s)
    (hwaits : s.phase client = .waiting cmd) {key : Bytes} (hkey : key ∈ cmd.keys) :
    s.lists key = 0 := by
  have hqueue : client ∈ s.queue key := by
    have hmissing := h.everywhere client cmd (by simp [hwaits, command]) key hkey
    simpa [hwaits, missing] using hmissing
  cases hh : (s.queue key).head? with
  | none =>
    rw [head?_eq_none_iff] at hh
    simp [hh] at hqueue
  | some oldest =>
    by_contra hne
    obtain ⟨other, ho, -⟩ := h.blocked key oldest (mem_of_mem_head? hh)
    rcases h.served key oldest hh (Nat.pos_of_ne_zero hne) with hpend | hact
    · simp [hquiet.1] at hpend
    · exact hquiet.not_active ho key hact

/-- A client sends `BLPOP k 0`, finds nothing and waits. -/
def blocks (client : ℕ) : List Event :=
  [.block client (.pop [utf8 "k"] 1), .register client, .register client, .attempt client,
    .attempt client]

/-- Two clients wait, and one element is pushed: the first is served. -/
def onePush : List Event :=
  blocks 1 ++ blocks 2 ++ [.push (utf8 "k") 1, .deliver (utf8 "k"), .wake 1, .attempt 1]

/-- Two clients wait, and two elements are pushed before the first client runs. -/
def twoPushes : List Event :=
  blocks 1 ++ blocks 2 ++ [.push (utf8 "k") 1, .push (utf8 "k") 1, .deliver (utf8 "k"),
    .deliver (utf8 "k"), .wake 1, .attempt 1]

end Swytch.Redis.Waiters
