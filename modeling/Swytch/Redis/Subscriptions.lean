import Swytch.Redis.PubSub

/-!
# The two indexes of the subscriptions

The manager keeps the subscribers of every channel and pattern, and for every client its channels
and patterns.  Every call changes both, so they agree whenever no call is under way, and messages go
to those who subscribed and did not leave.  A call without names that finds nothing to leave returns
a count that belongs to no name.
-/

namespace Swytch.Redis.PubSub

open Function (update update_apply)
open Sql (Bytes)

/-! ## 1.  The maps -/

structure Tables (Client : Type*) where
  /-- `channels` and `patterns` -/
  subs : Topic → Option (Finset Client)
  /-- `clientChannels` and `clientPatterns` -/
  names : Client × Bool → Option (Finset Bytes)

/-- A count as a call returns it, with its name if it has one and the maps as they were then. -/
structure Report (Client : Type*) where
  topic : Option Topic
  tables : Tables Client
  count : ℕ

variable {Client : Type*}

namespace Tables

def new : Tables Client := ⟨fun _ => none, fun _ => none⟩

variable (tb : Tables Client)

def subscribers (t : Topic) : Finset Client := (tb.subs t).getD ∅

def namesOf (client : Client) (isPattern : Bool) : Finset Bytes :=
  (tb.names (client, isPattern)).getD ∅

def subscriptionCount (client : Client) : ℕ :=
  (tb.namesOf client false).card + (tb.namesOf client true).card

variable [DecidableEq Client]

/-- A round of `Subscribe` or `PSubscribe`. -/
def add (client : Client) (t : Topic) : Tables Client where
  subs := update tb.subs t (some (insert client (tb.subscribers t)))
  names := update tb.names (client, t.isPattern) (some (insert t.name (tb.namesOf client t.isPattern)))

/-- The client leaves the subscribers of a topic, and the last one deletes the entry. -/
def leave (client : Client) (t : Topic) : Tables Client :=
  { tb with subs := update tb.subs t ((tb.subs t).bind fun clients =>
      if clients.erase client = ∅ then none else some (clients.erase client)) }

/-- A round of `Unsubscribe` or `PUnsubscribe`. -/
def drop (client : Client) (t : Topic) : Tables Client :=
  { tb.leave client t with
    names := update tb.names (client, t.isPattern)
      ((tb.names (client, t.isPattern)).map (·.erase t.name)) }

/-- The part of `Cleanup` for channels or for patterns. -/
def forget (client : Client) (isPattern : Bool) (order : List Bytes) : Tables Client :=
  match tb.names (client, isPattern) with
  | none => tb
  | some _ =>
    { order.foldl (fun tb name => tb.leave client ⟨name, isPattern⟩) tb with
      names := update tb.names (client, isPattern) none }

end Tables

open Tables

def rounds (round : Tables Client → Topic → Tables Client) (client : Client) :
    List Topic → Tables Client → Tables Client × List (Report Client)
  | [], tb => (tb, [])
  | t :: topics, tb =>
    let next := round tb t
    let rest := rounds round client topics next
    (rest.1, ⟨t, next, next.subscriptionCount client⟩ :: rest.2)

/-- The topics a client gets a message for, if the patterns come in this order. -/
def Tables.deliverLocal (tb : Tables Client) [DecidableEq Client]
    (matchGlob : Bytes → Bytes → Bool) (patterns : List Bytes) (channel : Bytes) (client : Client) :
    List Topic :=
  (⟨channel, false⟩ :: (patterns.filter (matchGlob channel)).map (⟨·, true⟩)).filter
    (client ∈ tb.subscribers ·)

/-- The order of a range over the names of the client. -/
def Tables.Ranges (tb : Tables Client) (order : Bool → List Bytes) (client : Client) : Prop :=
  ∀ isPattern, (order isPattern).Nodup ∧ (order isPattern).toFinset = tb.namesOf client isPattern

variable [DecidableEq Client]

/-- A call, if the client's names come in this order. -/
def Tables.call (tb : Tables Client) (order : Bool → List Bytes) :
    Call Client → Tables Client × List (Report Client)
  | .subscribe client isPattern names =>
    rounds (add · client) client (names.map (⟨·, isPattern⟩)) tb
  | .unsubscribe client isPattern names =>
    if names = [] ∧ tb.namesOf client isPattern = ∅ then (tb, [⟨none, tb, 0⟩])
    else
      let names := if names = [] then order isPattern else names
      rounds (drop · client) client (names.map (⟨·, isPattern⟩)) tb
  | .cleanup client => ((tb.forget client false (order false)).forget client true (order true), [])

/-- The maps after some calls, of which the last comes first. -/
inductive Reached : List (Call Client) → Tables Client → Prop
  | new : Reached [] .new
  | call {calls : List (Call Client)} {tb : Tables Client} {call : Call Client}
      {order : Bool → List Bytes} (h : Reached calls tb) (horder : tb.Ranges order call.client) :
      Reached (call :: calls) (tb.call order call).1

/-! ## 2.  Who is subscribed -/

@[grind] def Call.Names : Call Client → Topic → Prop
  | .subscribe _ isPattern names, t => t.isPattern = isPattern ∧ t.name ∈ names
  | .unsubscribe _ isPattern names, t => t.isPattern = isPattern ∧ (names = [] ∨ t.name ∈ names)
  | .cleanup _, _ => True

/-- The client now holds these topics, or none of them. -/
@[grind] def changed (client : Client) (topics : Topic → Prop) (joins : Prop)
    (held : Client → Topic → Prop) (c : Client) (t : Topic) : Prop :=
  c = client ∧ topics t ∧ joins ∨ ¬(c = client ∧ topics t) ∧ held c t

/-- A client that subscribed and has not left since. -/
def Subscribed : List (Call Client) → Client → Topic → Prop
  | [] => fun _ _ => False
  | call :: calls => changed call.client call.Names (call.leaves = false) (Subscribed calls)

/-- Both indexes say who holds what. -/
structure Agree (tb : Tables Client) (held : Client → Topic → Prop) : Prop where
  subscriber : ∀ c t, c ∈ tb.subscribers t ↔ held c t
  name : ∀ c t, t.name ∈ tb.namesOf c t.isPattern ↔ held c t
  nonempty : ∀ t, tb.subs t ≠ some ∅

attribute [ext] Topic

variable {tb : Tables Client} {held held' : Client → Topic → Prop} {client : Client} {t : Topic}

omit [DecidableEq Client] in
theorem Agree.congr (h : Agree tb held) (heq : ∀ c t, held c t ↔ held' c t) : Agree tb held' :=
  ⟨fun c t => (h.subscriber c t).trans (heq c t), fun c t => (h.name c t).trans (heq c t),
    h.nonempty⟩

theorem Agree.add (h : Agree tb held) :
    Agree (tb.add client t) (changed client (· = t) True held) := by
  refine ⟨fun c u => ?_, fun c u => ?_, fun u => ?_⟩
  · rw [changed, ← h.subscriber]
    simp only [Tables.add, subscribers, update_apply]
    grind
  · rw [changed, ← h.name, Topic.ext_iff]
    simp only [Tables.add, namesOf, update_apply]
    grind
  · simp only [Tables.add, update_apply]
    grind [Finset.insert_ne_empty, h.nonempty u]

theorem mem_leave (c : Client) (u : Topic) :
    c ∈ (tb.leave client t).subscribers u ↔ c ∈ tb.subscribers u ∧ ¬(c = client ∧ u = t) := by
  simp only [leave, subscribers, update_apply]
  cases hs : tb.subs t with
  | none | some clients => grind

theorem leave_nonempty (h : ∀ u, tb.subs u ≠ some ∅) (u : Topic) :
    (tb.leave client t).subs u ≠ some ∅ := by
  simp only [leave, update_apply]
  cases hs : tb.subs t with
  | none | some clients => grind

theorem Agree.drop (h : Agree tb held) :
    Agree (tb.drop client t) (changed client (· = t) False held) := by
  refine ⟨fun c u => (mem_leave c u).trans ?_, fun c u => ?_, leave_nonempty h.nonempty⟩
  · rw [changed, ← h.subscriber]
    tauto
  · rw [changed, ← h.name, Topic.ext_iff]
    simp only [Tables.drop, namesOf, update_apply]
    cases hs : tb.names (client, t.isPattern) with
    | none | some names => grind

theorem foldl_leave (h : ∀ u, tb.subs u ≠ some ∅) (client : Client) (isPattern : Bool)
    (order : List Bytes) :
    let left := order.foldl (fun tb name => tb.leave client ⟨name, isPattern⟩) tb
    (∀ c u, c ∈ left.subscribers u ↔
      c ∈ tb.subscribers u ∧ ¬(c = client ∧ u.isPattern = isPattern ∧ u.name ∈ order)) ∧
      ∀ u, left.subs u ≠ some ∅ := by
  induction order generalizing tb with
  | nil => simpa using h
  | cons name order ih =>
    obtain ⟨hmem, hne⟩ := ih (leave_nonempty h)
    refine ⟨fun c u => (hmem c u).trans ?_, hne⟩
    rw [mem_leave, Topic.ext_iff]
    grind

section Ranges

variable (h : Agree tb held) {isPattern : Bool} {order : List Bytes}
  (horder : order.toFinset = tb.namesOf client isPattern)

include h horder

omit [DecidableEq Client] in
theorem Agree.held_iff (ht : t.isPattern = isPattern) : held client t ↔ t.name ∈ order := by
  rw [← h.name, ht, ← horder, List.mem_toFinset]

theorem Agree.forget :
    Agree (tb.forget client isPattern order) (changed client (·.isPattern = isPattern) False held) := by
  unfold Tables.forget
  cases hs : tb.names (client, isPattern) with
  | none =>
    have hn : order = [] := by simpa [namesOf, hs] using horder
    exact h.congr fun c u => by grind [h.held_iff horder]
  | some names =>
    obtain ⟨hmem, hne⟩ := foldl_leave h.nonempty client isPattern order
    refine ⟨fun c u => (hmem c u).trans ?_, fun c u => ?_, hne⟩
    · rw [h.subscriber]
      grind [h.held_iff horder]
    · rw [changed, ← h.name]
      simp only [namesOf, update_apply]
      grind

end Ranges

/-- The client's number of topics, and the count that is returned for it. -/
def Report.Right (client : Client) (r : Report Client) : Prop :=
  r.tables.subscriptionCount client = {t | client ∈ r.tables.subscribers t}.ncard ∧
    r.count = if r.topic.isSome then r.tables.subscriptionCount client else 0

omit [DecidableEq Client] in
theorem Agree.subscriptionCount_eq (h : Agree tb held) (client : Client) :
    tb.subscriptionCount client = {t | client ∈ tb.subscribers t}.ncard := by
  have hset : {t | client ∈ tb.subscribers t} =
      ((tb.namesOf client false).image (⟨·, false⟩ : Bytes → Topic) ∪
        (tb.namesOf client true).image (⟨·, true⟩) : Finset Topic) := by
    ext ⟨name, isPattern⟩
    have := (h.subscriber client ⟨name, isPattern⟩).trans (h.name client ⟨name, isPattern⟩).symm
    cases isPattern with
    | false | true => simpa using this
  rw [hset, Set.ncard_coe_finset, Finset.card_union_of_disjoint, Finset.card_image_of_injective,
    Finset.card_image_of_injective]
  · rfl
  · exact fun a b hab => congrArg Topic.name hab
  · exact fun a b hab => congrArg Topic.name hab
  · simp [Finset.disjoint_left]

omit [DecidableEq Client] in
theorem Agree.rounds {round : Tables Client → Topic → Tables Client} {joins : Prop}
    (hround : ∀ {tb held t}, Agree tb held → Agree (round tb t) (changed client (· = t) joins held))
    (h : Agree tb held) (topics : List Topic) :
    Agree (rounds round client topics tb).1 (changed client (· ∈ topics) joins held) ∧
      ∀ r ∈ (PubSub.rounds round client topics tb).2, r.Right client := by
  induction topics generalizing tb held with
  | nil => exact ⟨h.congr fun c t => by simp [changed], by simp [PubSub.rounds]⟩
  | cons t topics ih =>
    have hnext := hround (t := t) h
    obtain ⟨hre, hrep⟩ := ih hnext
    refine ⟨hre.congr fun c u => by grind, fun r hr => ?_⟩
    rcases List.mem_cons.mp hr with rfl | hr
    · exact ⟨hnext.subscriptionCount_eq client, rfl⟩
    · exact hrep r hr

theorem Agree.call (h : Agree tb held) {call : Call Client} {order : Bool → List Bytes}
    (horder : tb.Ranges order call.client) :
    Agree (tb.call order call).1 (changed call.client call.Names (call.leaves = false) held) ∧
      ∀ r ∈ (tb.call order call).2, r.Right call.client := by
  have htopics {names : List Bytes} {p : Bool} {t : Topic} :
      t ∈ names.map (⟨·, p⟩ : Bytes → Topic) ↔ t.isPattern = p ∧ t.name ∈ names := by
    obtain ⟨name, isPattern⟩ := t
    simp [and_comm, eq_comm]
  cases call with
  | subscribe client isPattern names =>
    obtain ⟨hr, hrep⟩ := h.rounds Agree.add (names.map (⟨·, isPattern⟩))
    refine ⟨hr.congr fun c t => ?_, hrep⟩
    simp [changed, htopics, Call.client, Call.Names, Call.leaves]
  | unsubscribe client isPattern names =>
    have hall : ∀ t : Topic, t.isPattern = isPattern → (held client t ↔ t.name ∈ order isPattern) :=
      fun _ => h.held_iff (horder isPattern).2
    rw [Tables.call]
    split
    · rename_i hn
      have hnil : order isPattern = [] := by
        simpa [Call.client, hn.2] using (horder isPattern).2
      refine ⟨h.congr fun c t => ?_, ?_⟩
      · simp only [changed, Call.client, Call.Names, Call.leaves]
        grind
      · simpa [Report.Right, Call.client] using h.subscriptionCount_eq client
    · obtain ⟨hr, hrep⟩ := h.rounds Agree.drop
        ((if names = [] then order isPattern else names).map (⟨·, isPattern⟩))
      refine ⟨hr.congr fun c t => ?_, hrep⟩
      simp only [changed, htopics, Call.client, Call.Names, Call.leaves]
      grind
  | cleanup client =>
    have hsame : (tb.forget client false (order false)).namesOf client true = tb.namesOf client true := by
      unfold Tables.forget
      split <;> simp [namesOf]
    refine ⟨((h.forget (horder false).2).forget (hsame ▸ (horder true).2)).congr fun c t => ?_,
      fun r hr => absurd hr List.not_mem_nil⟩
    simp only [changed, Call.client, Call.Names, Call.leaves]
    grind

theorem Reached.agree {calls : List (Call Client)} (h : Reached calls tb) :
    Agree tb (Subscribed calls) := by
  induction h with
  | new =>
    constructor
    all_goals simp [Tables.new, subscribers, namesOf, Subscribed]
  | call _ horder ih => exact (ih.call horder).1

/-- In every run the two indexes say the same, namely who subscribed and has not left since, and no
topic has an empty set.  A client gets one message for the channel and one for each pattern that
matches it, if it is subscribed to them.  The count of a name is the number of topics the client then
holds; a count without a name is zero. -/
theorem indexes_agree {calls : List (Call Client)} (h : Reached calls tb) :
    (∀ c t, (c ∈ tb.subscribers t ↔ Subscribed calls c t) ∧
      (t.name ∈ tb.namesOf c t.isPattern ↔ Subscribed calls c t) ∧ tb.subs t ≠ some ∅) ∧
    (∀ matchGlob patterns channel c, patterns.Nodup →
      (∀ name, name ∈ patterns ↔ (tb.subs ⟨name, true⟩).isSome) →
      (tb.deliverLocal matchGlob patterns channel c).Nodup ∧
      ∀ t, t ∈ tb.deliverLocal matchGlob patterns channel c ↔ Subscribed calls c t ∧
        if t.isPattern then matchGlob channel t.name = true else t.name = channel) ∧
    ∀ call order, tb.Ranges order call.client → ∀ r ∈ (tb.call order call).2, r.Right call.client := by
  have hag := h.agree
  refine ⟨fun c t => ⟨hag.subscriber c t, hag.name c t, hag.nonempty t⟩,
    fun matchGlob patterns channel c hnd hall => ?_, fun call order horder => (hag.call horder).2⟩
  constructor
  · refine .filter _ (List.nodup_cons.mpr ⟨by simp, (hnd.filter _).map ?_⟩)
    exact fun a b hab => congrArg Topic.name hab
  · intro t
    have he : c ∈ tb.subscribers t → (tb.subs t).isSome := by
      intro hc
      by_contra hn
      simp_all [subscribers]
    obtain ⟨name, isPattern⟩ := t
    rw [← hag.subscriber]
    cases isPattern with
    | false => simp [deliverLocal, and_comm]
    | true =>
      have := hall name
      simp [deliverLocal]
      tauto

/-- Client `0` subscribes to a channel. -/
def oneChannel : Tables ℕ := (Tables.new.call (fun _ => []) (.subscribe 0 false [[97]])).1

theorem reached_oneChannel : Reached [.subscribe 0 false [[97]]] oneChannel :=
  .call .new fun _ => ⟨List.nodup_nil, rfl⟩

theorem oneChannel_agrees :
    0 ∈ oneChannel.subscribers ⟨[97], false⟩ ∧
      Subscribed [.subscribe 0 false [[97]]] 0 ⟨[97], false⟩ := by
  have hmem : 0 ∈ oneChannel.subscribers ⟨[97], false⟩ := by decide
  exact ⟨hmem, ((indexes_agree reached_oneChannel).1 0 _).1.mp hmem⟩

/-- It leaves all its patterns, of which it has none. -/
theorem oneChannel_count_without_name :
    ∃ order, oneChannel.Ranges order 0 ∧ ∃ r ∈ (oneChannel.call order (.unsubscribe 0 true [])).2,
      r.count ≠ {t | 0 ∈ r.tables.subscribers t}.ncard := by
  refine ⟨fun isPattern => if isPattern then [] else [[97]], ?_, ⟨none, oneChannel, 0⟩, ?_, ?_⟩
  · unfold Ranges
    decide
  · exact List.mem_singleton_self _
  · rw [← reached_oneChannel.agree.subscriptionCount_eq]
    decide

end Swytch.Redis.PubSub
