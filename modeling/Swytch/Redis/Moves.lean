import Swytch.Redis.Replay
import Swytch.Redis.Residue

/-!
# What `RENAME` and `COPY` carry

`RENAME`, `RENAMENX` and `COPY` write the value of a key at another one (`emitSnapshotAtKey`), and
for a stream they copy the groups (`copyStreamGroups`).  What the read commands see of a key is its
`reading`: the fields of its snapshot that they use, and, for what `getStreamSnapshot` takes for a
stream, the groups with their pending entries and the numbers of `XINFO STREAM`.

Some of it is not written again: the scalar under a keyed collection, the tombstones of a stream,
which tell its last id, its counters, its configuration and its producers.  A value without data,
such as an empty stream, is written by meta effects only, and these do not bring back a key that is
deleted.  And what was left around the destination may show through.
-/

namespace Swytch.Redis.Moves

open Option
open Sql (Bytes utf8)
open Residue
open Snapshot (fresh)
open Context

/-! ## 1.  What the read commands see -/

/-- What the read commands see of the key itself. -/
structure OwnReading where
  collection : CollectionKind
  scalar : Option Bytes
  elements : Bytes → Option (Element Bytes)
  orderedElements : List (Bytes × Option Bytes)
  typeTag : ValueType
  expiresAt : Option ℤ
  metadata : StreamMetadata

/-- What they see of a snapshot. -/
def ownReading (snap : Snapshot Bytes) : OwnReading where
  collection := snap.collection
  scalar := snap.scalar
  elements := fun id => snap.netAdds.lookup id
  orderedElements := snap.orderedElements
  typeTag := snap.typeTag
  expiresAt := snap.expiresAt
  metadata := streamMetadata (some snap)

/-- The numbers of `XINFO STREAM` that are not read off the stream's own key. -/
structure StreamInfo where
  entriesAdded : Int64
  iidsAdded : Int64
  iidsDuplicates : Int64
  idmpDuration : Int64
  idmpMaxsize : Int64
  producerCount : ℕ
  iidsTracked : ℕ
  deriving DecidableEq

/-- Those of a stream that has nothing around it. -/
def StreamInfo.initial (entries : ℕ) : StreamInfo where
  entriesAdded := .ofNat entries
  iidsAdded := 0
  iidsDuplicates := 0
  idmpDuration := 100
  idmpMaxsize := 100
  producerCount := 0
  iidsTracked := 0

/-- A producer's entry is of the current generation. -/
def isCurrent (generation : Int64) (raw : Bytes) : Bool :=
  if 32 ≤ raw.length then getInt64 ((raw.drop 24).take 8) = generation
  else 16 ≤ raw.length && generation = 0

/-- How many entries of a producer count. -/
def iidCount (ctx : Context Bytes) (stream producer : Bytes) : ℕ :=
  (netAddsOf ctx (producerKey stream producer)).entries.countP fun entry =>
    isCurrent (getConfigCounter ctx stream (utf8 "idmp-generation") 0) entry.2.raw

def listProducerNames (ctx : Context Bytes) (stream : Bytes) : List Bytes :=
  (netAddsOf ctx (producerKey stream registryName)).keys

/-- What `handleXInfoStream` collects for a stream with so many entries. -/
def streamInfo (ctx : Context Bytes) (stream : Bytes) (entries : ℕ) : StreamInfo :=
  let added := getConfigCounter ctx stream (utf8 "entries-added") (-1)
  let counts := (listProducerNames ctx stream).map (iidCount ctx stream)
  { entriesAdded := if 0 ≤ added then added else .ofNat entries
    iidsAdded := getConfigCounter ctx stream (utf8 "iids-added") 0
    iidsDuplicates := getConfigCounter ctx stream (utf8 "iids-duplicates") 0
    idmpDuration := getConfigCounter ctx stream (utf8 "idmp-duration") 100
    idmpMaxsize := getConfigCounter ctx stream (utf8 "idmp-maxsize") 100
    producerCount := counts.countP (0 < ·)
    iidsTracked := counts.sum }

/-- What the read commands see around a stream. -/
structure AroundReading where
  groups : Bytes → Bytes → Option (Element Bytes)
  pending : Bytes → Bytes → Option (Element Bytes)
  info : StreamInfo

/-- What they see around a stream with so many entries. -/
def aroundReading (ctx : Context Bytes) (stream : Bytes) (entries : ℕ) : AroundReading where
  groups := fun name id => (netAddsOf ctx (groupKey stream name)).lookup id
  pending := fun name id => (netAddsOf ctx (pelKey stream name)).lookup id
  info := streamInfo ctx stream entries

/-- The snapshots that `getStreamSnapshot` takes for a stream. -/
def readsAsStream (snap : Snapshot Bytes) : Bool :=
  snap.collection = .ordered || (snap.collection = .scalar && snap.typeTag = .stream)

/-- The entries that `streamMetadata` counts. -/
def entryCount (snap : Snapshot Bytes) : ℕ :=
  if snap.collection = .ordered then snap.orderedElements.length else 0

/-- What the read commands see of a key. -/
structure Reading where
  own : OwnReading
  around : Option AroundReading

/-- What they see of a snapshot at a key. -/
def readingOf (ctx : Context Bytes) (key : Bytes) (snap : Snapshot Bytes) : Reading where
  own := ownReading snap
  around := if readsAsStream snap then some (aroundReading ctx key (entryCount snap)) else none

/-- What they see of a key, if it is there. -/
def reading (ctx : Context Bytes) (key : Bytes) : Option Reading :=
  (ctx.getAnySnapshot key).map (readingOf ctx key)

/-! ## 2.  The commands -/

inductive MoveCommand where
  | rename (key newKey : UserKey)
  | renameNX (key newKey : UserKey)
  | copy (srcKey dstKey : UserKey) (replace : Bool)

/-- The key that is read. -/
def MoveCommand.src : MoveCommand → UserKey
  | .rename key _ => key
  | .renameNX key _ => key
  | .copy srcKey _ _ => srcKey

/-- The key that is written. -/
def MoveCommand.dst : MoveCommand → UserKey
  | .rename _ newKey => newKey
  | .renameNX _ newKey => newKey
  | .copy _ dstKey _ => dstKey

def run (cmd : MoveCommand) (ctx : Context Bytes) : KeyReply × Context Bytes :=
  match cmd with
  | .rename key newKey => handleRename key newKey ctx
  | .renameNX key newKey => handleRenameNX key newKey ctx
  | .copy srcKey dstKey replace => handleCopy srcKey dstKey replace ctx

/-- The reply says that the command was carried out. -/
def Succeeds (cmd : MoveCommand) (ctx : Context Bytes) : Prop :=
  match cmd with
  | .rename _ _ => (run cmd ctx).1 = .ok
  | _ => (run cmd ctx).1 = .integer 1

/-- The destination reads as the source did, and the source is gone after `RENAME` and `RENAMENX`
and unchanged after `COPY`. -/
def Carries (cmd : MoveCommand) (ctx : Context Bytes) : Prop :=
  reading (run cmd ctx).2 cmd.dst = reading ctx cmd.src ∧
    match cmd with
    | .copy srcKey _ _ => reading (run cmd ctx).2 srcKey = reading ctx srcKey
    | _ => cmd.src ≠ cmd.dst → reading (run cmd ctx).2 cmd.src = none

/-! ## 3.  What is carried -/

/-- The destination's key before its value is written. -/
def MoveCommand.base (cmd : MoveCommand) (ctx : Context Bytes) : Option (Snapshot Bytes) :=
  match cmd with
  | .rename _ _ => some .removed
  | .renameNX _ newKey => ctx.snapshots newKey
  | .copy _ dstKey replace => if replace then some .removed else ctx.snapshots dstKey

/-- The command cleans up around the destination. -/
def MoveCommand.cleans (cmd : MoveCommand) (ctx : Context Bytes) : Bool :=
  match cmd with
  | .rename _ newKey => isStream (ctx.getAnySnapshot newKey)
  | .renameNX _ _ => false
  | .copy _ dstKey replace => replace && isStream (ctx.getAnySnapshot dstKey)

/-- The snapshot holds data of its kind and nothing else that is seen, or nothing but a type or a
time for a destination that was never written. -/
def OwnCarried (snap : Snapshot Bytes) (base : Option (Snapshot Bytes)) : Prop :=
  match snap.collection with
  | .scalar =>
    snap.scalar ≠ none ∨ base = none ∧ ¬ (snap.typeTag = .unspecified ∧ snap.expiresAt = none)
  | .keyed => snap.scalar = none ∧ snap.netAdds ≠ ∅
  | .ordered => snap.orderedElements ≠ [] ∧ maxDeleted snap.netRemoves = .zero

/-- The group has an entry in the registry. -/
def IsRegistered (ctx : Context Bytes) (stream name : Bytes) : Prop :=
  name ∈ (netAddsOf ctx (groupKey stream registryName)).keys

instance (ctx : Context Bytes) (stream name : Bytes) : Decidable (IsRegistered ctx stream name) :=
  inferInstanceAs (Decidable (name ∈ (netAddsOf ctx (groupKey stream registryName)).keys))

/-- An element of a group's key at the destination before the groups are copied. -/
def leftGroup (cleans : Bool) (ctx : Context Bytes) (stream name id : Bytes) :
    Option (Element Bytes) :=
  if cleans ∧ (name = registryName ∨ IsRegistered ctx stream name) then none
  else (netAddsOf ctx (groupKey stream name)).lookup id

/-- A pending entry at the destination before the groups are copied. -/
def leftPending (cleans : Bool) (ctx : Context Bytes) (stream name id : Bytes) :
    Option (Element Bytes) :=
  if cleans ∧ IsRegistered ctx stream name then none
  else (netAddsOf ctx (pelKey stream name)).lookup id

/-- The numbers at the destination, which are not copied. -/
def leftInfo (cleans : Bool) (ctx : Context Bytes) (stream : Bytes) (entries : ℕ) : StreamInfo :=
  if cleans then .initial entries else streamInfo ctx stream entries

/-- What is left is covered by what is copied; where nothing is copied, it is the same. -/
def Covered (copied : Prop) (left source : Option (Element Bytes)) : Prop :=
  (copied → left.isSome → source.isSome) ∧ (¬ copied → left = source)

/-- Nothing around the destination shows through, and the numbers are those of the source. -/
structure AroundCarried (src dst : UserKey) (copies cleans : Bool) (ctx : Context Bytes)
    (entries : ℕ) : Prop where
  groups : ∀ name id, Covered
    (copies ∧ src ≠ dst ∧ (name = registryName ∨ IsRegistered ctx src name))
    (leftGroup cleans ctx dst name id) ((netAddsOf ctx (groupKey src name)).lookup id)
  pending : ∀ name id, Covered (copies ∧ src ≠ dst ∧ IsRegistered ctx src name)
    (leftPending cleans ctx dst name id) ((netAddsOf ctx (pelKey src name)).lookup id)
  info : leftInfo cleans ctx dst entries = streamInfo ctx src entries

/-- The command is `RENAME` of a key to itself. -/
def MoveCommand.IsIdle : MoveCommand → Prop
  | .rename key newKey => key = newKey
  | _ => False

/-- What the source holds is written again as a whole. -/
def Carriable (cmd : MoveCommand) (ctx : Context Bytes) : Prop :=
  cmd.IsIdle ∨ ∀ snap, ctx.getAnySnapshot cmd.src = some snap →
    OwnCarried snap (cmd.base ctx) ∧
      (readsAsStream snap → AroundCarried cmd.src cmd.dst (isStream (some snap)) (cmd.cleans ctx)
        ctx (entryCount snap))

/-! ## 4.  The key itself -/

variable {other : Snapshot Bytes} {key : Bytes} {replace : Bool}

variable {id name : Bytes} {entries : ℕ}

section Own

variable {ctx : Context Bytes} {snap : Snapshot Bytes} {base : Option (Snapshot Bytes)}

theorem streamMetadata_ordered (hk : snap.collection = .ordered) :
    (streamMetadata (some snap)).maxDeletedID = maxDeleted snap.netRemoves := by
  simp [streamMetadata, hk]

/-- Without tombstones the metadata are read off the last element. -/
theorem streamMetadata_of_zero (hk : snap.collection = .ordered) (ho : other.collection = .ordered)
    (hel : other.orderedElements = snap.orderedElements)
    (hs : maxDeleted snap.netRemoves = .zero) (h0 : maxDeleted other.netRemoves = .zero) :
    streamMetadata (some other) = streamMetadata (some snap) := by
  have ht : tailID other = tailID snap := by
    simp only [tailID, Snapshot.orderedIds, hel]
  simp only [streamMetadata, hk, ho, hs, h0, ht]

theorem lookup_insertAll_entries {adds : AList (fun _ : Bytes => Element Bytes)} :
    (insertAll adds.entries ∅).lookup id = adds.lookup id := by
  rw [lookup_insertAll adds.nodupKeys, AList.lookup_empty, or_none]
  rfl

theorem blank_of_getAnySnapshot (h : ctx.getAnySnapshot key = none) :
    Blank (ctx.snapshots key) := by
  intro s hs
  by_contra hop
  simp [getAnySnapshot, hs, hop] at h

/-- A snapshot without data is not there afterwards, or as a scalar. -/
theorem own_without_data (hb : Blank base) (ha : ctx.snapshots key =
    replay (snapshotEffects snap) base) (hd : ¬ snap.HasData) :
    (ctx.getAnySnapshot key).map ownReading =
      if base = none ∧ ¬ (snap.typeTag = .unspecified ∧ snap.expiresAt = none) then
        some (ownReading { fresh .scalar with
          typeTag := snap.typeTag, expiresAt := snap.expiresAt })
      else none := by
  rw [replay_without_data hd] at ha
  cases base with
  | none =>
    rw [replay_metaEffects_none] at ha
    split at ha
    · rename_i hnothing
      simp [getAnySnapshot, ha, hnothing]
    · rename_i hs
      rw [getAnySnapshot_of_live ha rfl, if_pos ⟨rfl, hs⟩]
      rfl
  | some old =>
    have hop := hb old rfl
    rw [replay_metaEffects_removed hop] at ha
    simp [getAnySnapshot_of_removed ha hop]

/-- The destination's own key reads as the source's exactly when `OwnCarried` holds. -/
theorem own_iff (hwell : snap.WellKinded) (hb : Blank base)
    (ha : ctx.snapshots key = replay (snapshotEffects snap) base) :
    (ctx.getAnySnapshot key).map ownReading = some (ownReading snap) ↔ OwnCarried snap base := by
  cases hk : snap.collection with
  | scalar =>
    have had : snap.netAdds = ∅ := hwell.netAdds (by simp [hk])
    have hord : snap.orderedElements = [] := hwell.orderedElements (by simp [hk])
    simp only [OwnCarried, hk]
    cases hv : snap.scalar with
    | some value =>
      rw [replay_scalar hb hk hv] at ha
      rw [getAnySnapshot_of_live ha rfl]
      simp [ownReading, fresh, hk, hv, had, hord, streamMetadata]
    | none =>
      rw [own_without_data hb ha (by simp [Snapshot.HasData, hk, hv])]
      split
      · rename_i hbare
        simp [ownReading, fresh, hk, hv, had, hord, streamMetadata, hbare]
      · rename_i hbare
        simp only [ne_eq, not_true_eq_false, false_or, reduceCtorEq, false_iff]
        exact hbare
  | keyed =>
    have hord : snap.orderedElements = [] := hwell.orderedElements (by simp [hk])
    simp only [OwnCarried, hk]
    by_cases had : snap.netAdds = ∅
    · rw [own_without_data hb ha (by simp [Snapshot.HasData, hk, had])]
      split <;> simp [ownReading, fresh, hk, had]
    · rw [replay_keyed hb hk had] at ha
      rw [getAnySnapshot_of_live ha rfl]
      simp [ownReading, fresh, hk, had, hord, streamMetadata,
        lookup_insertAll_entries, eq_comm]
  | ordered =>
    have had : snap.netAdds = ∅ := hwell.netAdds (by simp [hk])
    have hsc : snap.scalar = none := hwell.scalar hk
    simp only [OwnCarried, hk]
    by_cases hel : snap.orderedElements = []
    · rw [own_without_data hb ha (by simp [Snapshot.HasData, hk, hel])]
      split <;> simp [ownReading, fresh, hk, hel]
    · rw [replay_ordered_snapshot hb hk hel] at ha
      rw [getAnySnapshot_of_live ha rfl]
      constructor
      · intro h
        have hmetadata := congrArg (fun r : OwnReading => r.metadata.maxDeletedID)
          (some.inj h)
        refine ⟨hel, ?_⟩
        rw [← streamMetadata_ordered hk]
        exact hmetadata.symm.trans (streamMetadata_ordered rfl)
      · rintro ⟨-, h0⟩
        set written : Snapshot Bytes := {
          fresh .ordered with
          merge := snap.merge
          orderedElements := snap.orderedElements
          typeTag := snap.typeTag
          expiresAt := snap.expiresAt }
        have hmetadata : streamMetadata (some written) = streamMetadata (some snap) :=
          streamMetadata_of_zero hk rfl rfl h0 rfl
        have hown : ownReading written = ownReading snap := by
          simp only [ownReading, hmetadata]
          simp [written, fresh, hk, had, hsc]
        exact congrArg some hown

end Own

/-! ## 5.  The keys around it -/

section AroundKeys

variable {ctx ctx' start prepared : Context Bytes} {src dst : UserKey} {stream : Bytes}
  {copies cleans : Bool} {entries : ℕ}

theorem streamInfo_congr (hcfg : ctx'.snapshots (cfgKey stream) = ctx.snapshots (cfgKey stream))
    (hprod : ∀ name, ctx'.snapshots (producerKey stream name) =
      ctx.snapshots (producerKey stream name)) (entries : ℕ) :
    streamInfo ctx' stream entries = streamInfo ctx stream entries := by
  have hcounter : ∀ field fallback, getConfigCounter ctx' stream field fallback =
      getConfigCounter ctx stream field fallback := by
    intro field fallback
    simp only [getConfigCounter, netAddsOf_congr hcfg]
  have hc : ∀ name, iidCount ctx' stream name = iidCount ctx stream name := by
    intro name
    simp only [iidCount, netAddsOf_congr (hprod name), hcounter]
  have hns : listProducerNames ctx' stream = listProducerNames ctx stream := by
    simp only [listProducerNames, netAddsOf_congr (hprod registryName)]
  simp only [streamInfo, hcounter, hns, funext hc]

theorem aroundReading_congr
    (h : ∀ key, Around stream key → ctx'.snapshots key = ctx.snapshots key) :
    aroundReading ctx' stream entries = aroundReading ctx stream entries := by
  have hgroups : ∀ name, netAddsOf ctx' (groupKey stream name) =
      netAddsOf ctx (groupKey stream name) := fun name => netAddsOf_congr (h _ (.group name))
  have hpend : ∀ name, netAddsOf ctx' (pelKey stream name) =
      netAddsOf ctx (pelKey stream name) := fun name => netAddsOf_congr (h _ (.pel name))
  simp only [aroundReading, hgroups, hpend,
    streamInfo_congr (h _ .cfg) (fun name => h _ (.producer name)) entries]

theorem streamInfo_cleanup (entries : ℕ) :
    streamInfo (cleanupStreamGroups stream ctx) stream entries = .initial entries := by
  have hcounter : ∀ field fallback,
      getConfigCounter (cleanupStreamGroups stream ctx) stream field fallback = fallback := by
    intro field fallback
    have hn : (netAddsOf (cleanupStreamGroups stream ctx) (cfgKey stream)).lookup field = none :=
      cleanupConfig_noElements field
    rw [getConfigCounter, hn]
  have hns : listProducerNames (cleanupStreamGroups stream ctx) stream = [] := by
    rw [listProducerNames, netAddsOf, cleanupStreamGroups_producer]
    rfl
  simp [streamInfo, hcounter, hns, StreamInfo.initial]

/-- The context after the cleaning up, where a command does it. -/
def cleaned (cleans : Bool) (stream : Bytes) (ctx : Context Bytes) : Context Bytes :=
  if cleans then cleanupStreamGroups stream ctx else ctx

theorem cleaned_frame (h : ¬ Around stream key) :
    (cleaned cleans stream ctx).snapshots key = ctx.snapshots key := by
  unfold cleaned
  split
  · exact cleanupStreamGroups_frame h
  · rfl

theorem reachable_cleaned (h : Reachable ctx) (stream : Bytes) {cleans : Bool} :
    Reachable (cleaned cleans stream ctx) := by
  unfold cleaned
  split
  · exact h.cleanupStreamGroups stream
  · exact h

/-- What is left of a key that goes with its group. -/
theorem lookup_cleaned {gone : Prop} [Decidable gone]
    (hsame : start.snapshots key = ctx.snapshots key)
    (h : (cleanupStreamGroups stream start).snapshots key =
      if gone then some .removed else ctx.snapshots key) (id : Bytes) :
    (netAddsOf (cleaned cleans stream start) key).lookup id =
      if cleans ∧ gone then none else (netAddsOf ctx key).lookup id := by
  unfold cleaned
  cases cleans with
  | false => simp [netAddsOf_congr hsame]
  | true =>
    simp only [if_true, true_and]
    by_cases hg : gone
    · rw [if_pos hg, netAddsOf, h.trans (if_pos hg)]
      exact AList.lookup_empty id
    · rw [if_neg hg, netAddsOf_congr (h.trans (if_neg hg))]

section Left

variable (hstart : ∀ key, Internal key → start.snapshots key = ctx.snapshots key)
  (hprepared : ∀ key, Internal key → prepared.snapshots key =
    (cleaned cleans dst start).snapshots key)

include hstart hprepared

theorem lookup_leftGroup (name id : Bytes) :
    (netAddsOf prepared (groupKey dst name)).lookup id = leftGroup cleans ctx dst name id := by
  rw [netAddsOf_congr (hprepared _ ⟨dst, .group name⟩)]
  refine lookup_cleaned (hstart _ ⟨dst, .group name⟩) ?_ id
  rw [cleanupStreamGroups_group, netAddsOf_congr (hstart _ ⟨dst, .group registryName⟩),
    hstart _ ⟨dst, .group name⟩]
  rfl

theorem lookup_leftPending (name id : Bytes) :
    (netAddsOf prepared (pelKey dst name)).lookup id = leftPending cleans ctx dst name id := by
  rw [netAddsOf_congr (hprepared _ ⟨dst, .pel name⟩)]
  refine lookup_cleaned (hstart _ ⟨dst, .pel name⟩) ?_ id
  rw [cleanupStreamGroups_pel, netAddsOf_congr (hstart _ ⟨dst, .group registryName⟩),
    hstart _ ⟨dst, .pel name⟩]
  rfl

theorem streamInfo_left (entries : ℕ) :
    streamInfo prepared dst entries = leftInfo cleans ctx dst entries := by
  rw [streamInfo_congr (hprepared _ ⟨dst, .cfg⟩) fun name => hprepared _ ⟨dst, .producer name⟩]
  unfold leftInfo cleaned
  split
  · exact streamInfo_cleanup entries
  · exact streamInfo_congr (hstart _ ⟨dst, .cfg⟩) (fun name => hstart _ ⟨dst, .producer name⟩) entries

end Left

def copyGroup (src dst : Bytes) (ctx : Context Bytes) (name : Bytes) : Context Bytes :=
  copyKey (pelKey src name) (pelKey dst name) (copyKey (groupKey src name) (groupKey dst name) ctx)

theorem copyGroup_frame (hg : key ≠ groupKey dst name) (hpel : key ≠ pelKey dst name) :
    (copyGroup src dst ctx name).snapshots key = ctx.snapshots key := by
  rw [copyGroup, copyKey_frame _ hpel, copyKey_frame _ hg]

theorem reachable_copyGroup (h : Reachable ctx) (src dst : UserKey) (name : Bytes) :
    Reachable (copyGroup src dst ctx name) :=
  (h.copyKey ⟨src, .group name⟩ _).copyKey ⟨src, .pel name⟩ _

/-- An element of a key over which another one is laid, if that is copied. -/
def overlay (ctx : Context Bytes) (copied : Prop) [Decidable copied] (source target id : Bytes) :
    Option (Element Bytes) :=
  if copied then ((netAddsOf ctx source).lookup id).or ((netAddsOf ctx target).lookup id)
  else (netAddsOf ctx target).lookup id

/-- Laying a key over another one twice is doing it once. -/
theorem overlay_twice {source target : Bytes} {first rest both : Prop} [Decidable first]
    [Decidable rest] [Decidable both] (hboth : both ↔ first ∨ rest)
    (hsrc : ctx'.snapshots source = ctx.snapshots source)
    (htgt : (netAddsOf ctx' target).lookup id = overlay ctx first source target id) :
    overlay ctx' rest source target id = overlay ctx both source target id := by
  simp only [overlay, netAddsOf_congr hsrc, htgt, hboth]
  by_cases hf : first <;> by_cases hr : rest <;>
    cases (netAddsOf ctx source).lookup id <;> simp [hr]

variable {other : Bytes}

/-- The copy of one key of a family, seen at any of them. -/
theorem lookup_copyKey_family {source target : Bytes → Bytes} (htgt : Function.Injective target)
    (hint : ∀ name, Internal (source name)) (h : Reachable ctx) (name : Bytes) :
    (netAddsOf (copyKey (source name) (target name) ctx) (target other)).lookup id =
      overlay ctx (other = name) (source other) (target other) id := by
  unfold overlay
  split
  · rename_i hsame
    subst hsame
    exact lookup_copyKey h (hint other) id
  · rename_i hne
    rw [netAddsOf_congr (copyKey_frame _ (fun heq => hne (htgt heq)) _)]

theorem lookup_copyGroup_group (h : Reachable ctx) (name : Bytes) :
    (netAddsOf (copyGroup src dst ctx name) (groupKey dst other)).lookup id =
      overlay ctx (other = name) (groupKey src other) (groupKey dst other) id := by
  rw [copyGroup, netAddsOf_congr (copyKey_frame _ (pelKey_ne_groupKey name other).symm _)]
  exact lookup_copyKey_family (groupKey_injective dst) (fun name => ⟨src, .group name⟩) h ..

theorem lookup_copyGroup_pel (hne : src ≠ dst) (h : Reachable ctx) (name : Bytes) :
    (netAddsOf (copyGroup src dst ctx name) (pelKey dst other)).lookup id =
      overlay ctx (other = name) (pelKey src other) (pelKey dst other) id := by
  have hg : pelKey dst other ≠ groupKey dst name := pelKey_ne_groupKey other name
  have hsrc : pelKey src other ≠ groupKey dst name :=
    Around.ne_of_ne (.pel other) (.group name) hne
  rw [copyGroup, lookup_copyKey_family (pelKey_injective dst) (fun name => ⟨src, .pel name⟩)
      (h.copyKey ⟨src, .group name⟩ _), overlay, overlay,
    netAddsOf_congr (copyKey_frame _ hg _), netAddsOf_congr (copyKey_frame _ hsrc _)]

/-- The groups one after the other: what they hold is laid over what is there. -/
theorem lookup_copyGroups (hne : src ≠ dst) (h : Reachable ctx) {names : List Bytes}
    (other id : Bytes) :
    (netAddsOf (names.foldl (copyGroup src dst) ctx) (groupKey dst other)).lookup id =
        overlay ctx (other ∈ names) (groupKey src other) (groupKey dst other) id ∧
      (netAddsOf (names.foldl (copyGroup src dst) ctx) (pelKey dst other)).lookup id =
        overlay ctx (other ∈ names) (pelKey src other) (pelKey dst other) id := by
  induction names generalizing ctx with
  | nil => exact ⟨rfl, rfl⟩
  | cons first names ih =>
    have hsrc : ∀ key, Around src key →
        (copyGroup src dst ctx first).snapshots key = ctx.snapshots key := fun key har =>
      copyGroup_frame (har.ne_of_ne (.group first) hne) (har.ne_of_ne (.pel first) hne)
    obtain ⟨hg, hpel⟩ := ih (reachable_copyGroup h src dst first)
    rw [List.foldl_cons, hg, hpel]
    exact ⟨overlay_twice List.mem_cons (hsrc _ (.group other)) (lookup_copyGroup_group h ..),
      overlay_twice List.mem_cons (hsrc _ (.pel other)) (lookup_copyGroup_pel hne h ..)⟩

theorem copyStreamGroups_eq {src dst : Bytes} {ctx : Context Bytes} :
    copyStreamGroups src dst ctx =
      (netAddsOf ctx (groupKey src registryName)).keys.foldl (copyGroup src dst)
        (copyKey (groupKey src registryName) (groupKey dst registryName) ctx) :=
  rfl

/-- The copied groups lie over those of the destination. -/
theorem lookup_copyStreamGroups_group (hne : src ≠ dst) (h : Reachable ctx) :
    (netAddsOf (copyStreamGroups src dst ctx) (groupKey dst name)).lookup id =
      overlay ctx (name = registryName ∨ IsRegistered ctx src name) (groupKey src name)
        (groupKey dst name) id := by
  have hsrc : groupKey src name ≠ groupKey dst registryName :=
    Around.ne_of_ne (.group name) (.group registryName) hne
  rw [copyStreamGroups_eq,
    (lookup_copyGroups hne (h.copyKey ⟨src, .group registryName⟩ _) name id).1]
  exact overlay_twice Iff.rfl (copyKey_frame _ hsrc _)
    (lookup_copyKey_family (groupKey_injective dst) (fun name => ⟨src, .group name⟩) h ..)

theorem lookup_copyStreamGroups_pel (hne : src ≠ dst) (h : Reachable ctx) :
    (netAddsOf (copyStreamGroups src dst ctx) (pelKey dst name)).lookup id =
      overlay ctx (IsRegistered ctx src name) (pelKey src name) (pelKey dst name) id := by
  have hsrc : pelKey src name ≠ groupKey dst registryName :=
    Around.ne_of_ne (.pel name) (.group registryName) hne
  have hdest : pelKey dst name ≠ groupKey dst registryName := pelKey_ne_groupKey name registryName
  rw [copyStreamGroups_eq, (lookup_copyGroups hne (h.copyKey ⟨src,
    .group registryName⟩ _) name id).2, overlay, netAddsOf_congr (copyKey_frame _ hsrc _),
    netAddsOf_congr (copyKey_frame _ hdest _)]
  rfl

theorem copyStreamGroups_of_removed {src dst : Bytes}
    (h : ctx.snapshots (groupKey src registryName) = some .removed) :
    copyStreamGroups src dst ctx = ctx := by
  have hns : (netAddsOf ctx (groupKey src registryName)).keys = [] := by
    rw [netAddsOf, h]
    rfl
  rw [copyStreamGroups_eq, hns, copyKey, h]
  rfl

/-- Counters and producers are not copied. -/
theorem streamInfo_copyStreamGroups {src : Bytes} :
    streamInfo (copyStreamGroups src stream ctx) stream entries = streamInfo ctx stream entries := by
  have hfr : ∀ key, (∀ name, key ≠ groupKey stream name) → (∀ name, key ≠ pelKey stream name) →
      (copyStreamGroups src stream ctx).snapshots key = ctx.snapshots key := by
    intro key hg hpel
    rw [copyStreamGroups_eq, foldl_frame fun ctx name => ?_]
    · exact copyKey_frame _ (hg registryName) ctx
    · rw [copyGroup, copyKey_frame _ (hpel name), copyKey_frame _ (hg name)]
  exact streamInfo_congr (hfr _ cfgKey_ne_groupKey cfgKey_ne_pelKey)
    (fun name => hfr _ (producerKey_ne_groupKey name) (producerKey_ne_pelKey name)) entries

theorem covered_iff {copied : Prop} [Decidable copied] {left source : Option (Element Bytes)} :
    (if copied then source.or left else left) = source ↔ Covered copied left source := by
  unfold Covered
  by_cases hcopied : copied
  · cases left <;> cases source <;> simp
  · simp [hcopied]

/-- What is seen around the destination is what was seen around the source exactly when
`AroundCarried` holds. -/
theorem around_iff (h : Reachable prepared)
    (hstart : ∀ key, Internal key → start.snapshots key = ctx.snapshots key)
    (hprepared : ∀ key, Internal key → prepared.snapshots key =
      (cleaned cleans dst start).snapshots key)
    (hsame : src = dst → copies → cleans) (ha : ∀ key, Around dst key → ctx'.snapshots key =
      (if copies then copyStreamGroups src dst prepared else prepared).snapshots key) :
    aroundReading ctx' dst entries = aroundReading ctx src entries ↔
      AroundCarried src dst copies cleans ctx entries := by
  have hgroupLeft := lookup_leftGroup hstart hprepared
  have hpelLeft := lookup_leftPending hstart hprepared
  have hinfoLeft := streamInfo_left hstart hprepared
  -- away from the destination nothing has changed
  have hsrc : src ≠ dst → ∀ key, Around src key → prepared.snapshots key = ctx.snapshots key := by
    intro hne key har
    rw [hprepared key ⟨src, har⟩, cleaned_frame fun hdst => har.ne_of_ne hdst hne rfl,
      hstart key ⟨src, har⟩]
  have hrd : aroundReading ctx' dst entries = {
      groups := fun name id =>
        if copies ∧ src ≠ dst ∧ (name = registryName ∨ IsRegistered ctx src name) then
          ((netAddsOf ctx (groupKey src name)).lookup id).or (leftGroup cleans ctx dst name id)
        else leftGroup cleans ctx dst name id
      pending := fun name id =>
        if copies ∧ src ≠ dst ∧ IsRegistered ctx src name then
          ((netAddsOf ctx (pelKey src name)).lookup id).or (leftPending cleans ctx dst name id)
        else leftPending cleans ctx dst name id
      info := leftInfo cleans ctx dst entries } := by
    rw [aroundReading_congr ha]
    cases copies with
    | false => simp [aroundReading, hgroupLeft, hpelLeft, hinfoLeft]
    | true =>
      by_cases hne : src = dst
      · subst hne
        have hcleans : cleans = true := hsame rfl rfl
        have hregistry : prepared.snapshots (groupKey src registryName) = some .removed := by
          rw [hprepared _ ⟨src, .group registryName⟩, cleaned, if_pos hcleans,
            cleanupStreamGroups_group, if_pos (.inl rfl)]
        simp [copyStreamGroups_of_removed hregistry, aroundReading, hgroupLeft, hpelLeft,
          hinfoLeft]
      · have hreg : ∀ name, IsRegistered prepared src name ↔ IsRegistered ctx src name := by
          intro name
          rw [IsRegistered, netAddsOf_congr (hsrc hne _ (.group registryName)), IsRegistered]
        simp [aroundReading, lookup_copyStreamGroups_group hne h,
          lookup_copyStreamGroups_pel hne h, overlay, streamInfo_copyStreamGroups, hgroupLeft,
          hpelLeft, hinfoLeft, hreg, hne, netAddsOf_congr (hsrc hne _ (.group _)),
          netAddsOf_congr (hsrc hne _ (.pel _))]
  rw [hrd, aroundReading]
  simp only [AroundReading.mk.injEq, funext_iff, covered_iff]
  constructor
  · rintro ⟨hgroups, hpend, hinfo⟩
    exact ⟨hgroups, hpend, hinfo⟩
  · intro hcarried
    exact ⟨hcarried.groups, hcarried.pending, hcarried.info⟩

end AroundKeys

/-! ## 6.  The commands carry what they can -/

section Commands

variable {ctx ctx' start prepared : Context Bytes} {src dst : UserKey} {snap : Snapshot Bytes}
  {base : Option (Snapshot Bytes)} {cleans : Bool}

theorem readsAsStream_congr (h : ownReading other = ownReading snap) :
    readsAsStream other = readsAsStream snap ∧ entryCount other = entryCount snap := by
  have hk : other.collection = snap.collection := congrArg OwnReading.collection h
  have htag : other.typeTag = snap.typeTag := congrArg OwnReading.typeTag h
  have hel : other.orderedElements = snap.orderedElements :=
    congrArg OwnReading.orderedElements h
  simp [readsAsStream, entryCount, hk, htag, hel]

/-- What a command makes of the destination: it starts from keys that are as before around the
streams, cleans up or not, writes the value, and copies the groups of a stream. -/
structure Transfers (ctx ctx' : Context Bytes) (src dst : UserKey) (snap : Snapshot Bytes)
    (base : Option (Snapshot Bytes)) (cleans : Bool) (start prepared : Context Bytes) : Prop where
  unchanged : ∀ key, Internal key → start.snapshots key = ctx.snapshots key
  reachable : Reachable prepared
  cleaned : ∀ key, Internal key → prepared.snapshots key =
    (cleaned cleans dst start).snapshots key
  cleansSame : src = dst → isStream (some snap) → cleans
  blank : Blank base
  own : ctx'.snapshots dst = replay (snapshotEffects snap) base
  around : ∀ key, Around dst key → ctx'.snapshots key =
    (if isStream (some snap) then copyStreamGroups src dst prepared else prepared).snapshots key

/-- The value is written again as a whole, and for a stream what is around it. -/
def CarriedTo (snap : Snapshot Bytes) (base : Option (Snapshot Bytes)) (src dst : UserKey)
    (cleans : Bool) (ctx : Context Bytes) : Prop :=
  OwnCarried snap base ∧ (readsAsStream snap →
    AroundCarried src dst (isStream (some snap)) cleans ctx (entryCount snap))

theorem Transfers.reading_iff (hctx : Reachable ctx) (hs : ctx.getAnySnapshot src = some snap)
    (h : Transfers ctx ctx' src dst snap base cleans start prepared) :
    reading ctx' dst = reading ctx src ↔ CarriedTo snap base src dst cleans ctx := by
  have hwell := hctx.wellKinded (snapshots_of_getAnySnapshot hs)
  have har : aroundReading ctx' dst (entryCount snap) = aroundReading ctx src _ ↔ _ :=
    around_iff h.reachable h.unchanged h.cleaned h.cleansSame h.around
  unfold CarriedTo
  rw [← har, ← own_iff hwell h.blank h.own]
  simp only [reading, hs, map_some]
  constructor
  · intro heq
    obtain ⟨written, hwr, hrd⟩ := map_eq_some_iff.mp heq
    have hown : ownReading written = ownReading snap := congrArg Reading.own hrd
    refine ⟨by rw [hwr, map_some, hown], fun hstream => ?_⟩
    have hfs := congrArg Reading.around hrd
    simpa only [readingOf, readsAsStream_congr hown, hstream, if_true, some.injEq] using
      hfs
  · rintro ⟨hown, har⟩
    obtain ⟨written, hwr, hown⟩ := map_eq_some_iff.mp hown
    rw [hwr, map_some]
    simp only [readingOf, readsAsStream_congr hown, hown]
    split
    · rename_i hstream
      rw [har hstream]
    · rfl

/-- What `RENAME` and `RENAMENX` do after the value is written. -/
def movedGroups (src dst : UserKey) (snap : Snapshot Bytes) (cleans : Bool) (start : Context Bytes) :
    Context Bytes :=
  if isStream (some snap) then
    cleanupStreamGroups src (copyStreamGroups src dst (cleaned cleans dst start))
  else cleaned cleans dst start

theorem movedGroups_user (user : UserKey) :
    (movedGroups src dst snap cleans start).snapshots user = start.snapshots user := by
  unfold movedGroups
  split
  · rw [cleanupStreamGroups_frame (user.not_around src),
      copyStreamGroups_frame _ (user.not_around dst), cleaned_frame (user.not_around dst)]
  · exact cleaned_frame (user.not_around dst)

theorem reading_of_removed (h : ctx.snapshots src = some .removed) : reading ctx src = none := by
  rw [reading, getAnySnapshot_of_removed h rfl, map_none]

theorem blank_removed : Blank (some .removed) := by
  intro s hs
  rw [← some.inj hs]
  rfl

/-- The source is deleted, the value is written, and the groups are moved after it. -/
theorem reading_moved (hctx : Reachable ctx) (hs : ctx.getAnySnapshot src = some snap)
    (hne : src ≠ dst) (hre : Reachable start) (hg : start.snapshots src = some .removed)
    (hun : ∀ key, Internal key → start.snapshots key = ctx.snapshots key)
    (hbl : Blank (start.snapshots dst)) :
    (reading (movedGroups src dst snap cleans (emitSnapshotAtKey dst snap start)) dst =
        reading ctx src ↔ CarriedTo snap (start.snapshots dst) src dst cleans ctx) ∧
      reading (movedGroups src dst snap cleans (emitSnapshotAtKey dst snap start)) src = none := by
  set written := emitSnapshotAtKey dst snap start
  constructor
  · refine Transfers.reading_iff hctx hs (?_ : Transfers _ _ _ _ _ _ _ written
      (cleaned cleans dst written))
    refine ⟨?_, reachable_cleaned (hre.emitSnapshotAtKey dst snap) dst, fun key hkey => rfl,
      fun heq => absurd heq hne, hbl, ?_, fun key har => ?_⟩
    · rintro key ⟨stream, har⟩
      exact (emitAll_frame _ (har.ne_user dst)).trans (hun key ⟨stream, har⟩)
    · exact (movedGroups_user dst).trans (emitAll_self _ start)
    · unfold movedGroups
      split
      · exact cleanupStreamGroups_frame fun hsrc => har.ne_of_ne hsrc hne.symm rfl
      · rfl
  · refine reading_of_removed ((movedGroups_user src).trans ?_)
    exact (emitAll_frame _ fun heq => hne (Subtype.ext heq)).trans hg

/-- What `RENAME` and `RENAMENX` do first. -/
def sourceGone (src dst : UserKey) (ctx : Context Bytes) : Context Bytes :=
  ((ctx.emit src .noop).pin dst).emitDeleteKey src

theorem sourceGone_frame (h : key ≠ src) :
    (sourceGone src dst ctx).snapshots key = ctx.snapshots key := by
  rw [sourceGone, emitDeleteKey_of_ne h, pin_snapshots, emit_noop_snapshots]

theorem reachable_sourceGone (hctx : Reachable ctx) : Reachable (sourceGone src dst ctx) :=
  ((hctx.emitUser src .noop).pin dst).emitDeleteKey src

/-- `RENAME` to another key. -/
theorem reading_rename (hctx : Reachable ctx) (hne : src ≠ dst)
    (hs : ctx.getAnySnapshot src = some snap) :
    (reading (handleRename src dst ctx).2 dst = reading ctx src ↔
        CarriedTo snap (some .removed) src dst (isStream (ctx.getAnySnapshot dst)) ctx) ∧
      reading (handleRename src dst ctx).2 src = none := by
  have hres : (handleRename src dst ctx).2 =
      movedGroups src dst snap (isStream (ctx.getAnySnapshot dst))
        (emitSnapshotAtKey dst snap ((sourceGone src dst ctx).emitDeleteKey dst)) := by
    simp [handleRename, hs, hne, movedGroups, cleaned, moveValue, sourceGone]
  have hown : ((sourceGone src dst ctx).emitDeleteKey dst).snapshots dst = some .removed :=
    emitDeleteKey_self
  rw [hres, ← hown]
  refine reading_moved hctx hs hne ((reachable_sourceGone hctx).emitDeleteKey dst) ?_ ?_ ?_
  · rw [emitDeleteKey_of_ne fun heq => hne (Subtype.ext heq)]
    exact emitDeleteKey_self
  · rintro key ⟨stream, har⟩
    rw [emitDeleteKey_of_ne (har.ne_user dst), sourceGone_frame (har.ne_user src)]
  · rw [hown]
    exact blank_removed

/-- `RENAMENX` to a key that is not there. -/
theorem reading_renameNX (hctx : Reachable ctx) (hne : src ≠ dst)
    (hs : ctx.getAnySnapshot src = some snap) (hdest : ctx.getAnySnapshot dst = none) :
    (reading (handleRenameNX src dst ctx).2 dst = reading ctx src ↔
        CarriedTo snap (ctx.snapshots dst) src dst false ctx) ∧
      reading (handleRenameNX src dst ctx).2 src = none := by
  have hres : (handleRenameNX src dst ctx).2 =
      movedGroups src dst snap false (emitSnapshotAtKey dst snap (sourceGone src dst ctx)) := by
    simp [handleRenameNX, hs, hne, hdest, movedGroups, cleaned, sourceGone]
  have hown : (sourceGone src dst ctx).snapshots dst = ctx.snapshots dst :=
    sourceGone_frame fun heq => hne (Subtype.ext heq.symm)
  rw [hres, ← hown]
  refine reading_moved hctx hs hne (reachable_sourceGone hctx) emitDeleteKey_self ?_ ?_
  · rintro key ⟨stream, har⟩
    exact sourceGone_frame (har.ne_user src)
  · rw [hown]
    exact blank_of_getAnySnapshot hdest

theorem reading_congr (hown : ctx'.snapshots src = ctx.snapshots src)
    (har : ∀ key, Around src key → ctx'.snapshots key = ctx.snapshots key) :
    reading ctx' src = reading ctx src := by
  unfold reading
  rw [getAnySnapshot_congr hown]
  refine congrArg (Option.map · _) (funext fun snap => ?_)
  simp only [readingOf, aroundReading_congr har]

/-- What `COPY` does first. -/
def replaced (replace : Bool) (dst : UserKey) (ctx : Context Bytes) : Context Bytes :=
  if replace then ctx.emitDeleteKey dst else ctx

theorem replaced_frame (h : key ≠ dst) :
    (replaced replace dst ctx).snapshots key = ctx.snapshots key := by
  unfold replaced
  split
  · exact emitDeleteKey_of_ne h
  · rfl

theorem reachable_replaced (hctx : Reachable ctx) (replace : Bool) (dst : UserKey) :
    Reachable (replaced replace dst ctx) := by
  unfold replaced
  split
  · exact hctx.emitDeleteKey dst
  · exact hctx

/-- `COPY`, to a key that is not there or with `REPLACE`. -/
theorem reading_copy (hctx : Reachable ctx) (hs : ctx.getAnySnapshot src = some snap)
    (hdest : replace = false → ctx.getAnySnapshot dst = none) :
    (reading (handleCopy src dst replace ctx).2 dst = reading ctx src ↔
        CarriedTo snap (if replace then some .removed else ctx.snapshots dst) src dst
          (replace && isStream (ctx.getAnySnapshot dst)) ctx) ∧
      (src ≠ dst → reading (handleCopy src dst replace ctx).2 src = reading ctx src) := by
  set start := replaced replace dst ctx with hstart
  set copied := emitSnapshotAtKey dst snap
    (cleaned (replace && isStream (ctx.getAnySnapshot dst)) dst start) with hcopied
  have hf : (!replace && (ctx.getAnySnapshot dst).isSome) = false := by
    cases hc : replace with
    | true => rfl
    | false => simp [hdest hc]
  have hres : (handleCopy src dst replace ctx).2 =
      if isStream (some snap) then copyStreamGroups src dst copied else copied := by
    simp [handleCopy, hs, hf, hcopied, hstart, cleaned, replaced]
  -- the command writes the destination and the keys around it only
  have hfr : ∀ key : Bytes, ¬ Around dst key →
      (handleCopy src dst replace ctx).2.snapshots key = copied.snapshots key := by
    intro key har
    rw [hres]
    split
    · exact copyStreamGroups_frame _ har
    · rfl
  constructor
  · refine Transfers.reading_iff hctx hs (?_ : Transfers _ _ _ _ _ _ _ start copied)
    refine ⟨?_, ?_, ?_, ?_, ?_, ?_, fun key har => by rw [hres]⟩
    · rintro key ⟨stream, har⟩
      exact replaced_frame (har.ne_user dst)
    · exact (reachable_cleaned (reachable_replaced hctx replace dst) dst).emitSnapshotAtKey dst snap
    · rintro key ⟨stream, har⟩
      exact emitAll_frame _ (har.ne_user dst)
    · rintro rfl hstream
      cases hc : replace with
      | true => rw [hs, hstream]; rfl
      | false => cases (hdest hc).symm.trans hs
    · split
      · exact blank_removed
      · rename_i hkeep
        exact blank_of_getAnySnapshot (hdest (Bool.eq_false_iff.mpr hkeep))
    · have hown : start.snapshots dst = if replace then some .removed else ctx.snapshots dst := by
        rw [hstart, replaced]
        split
        · exact emitDeleteKey_self
        · rfl
      rw [hfr dst (dst.not_around dst), ← hown, hcopied, emitSnapshotAtKey, emitAll_self,
        cleaned_frame (dst.not_around dst)]
      rfl
  · intro hne
    have hsame : ∀ key : Bytes, key ≠ dst → ¬ Around dst key →
        (handleCopy src dst replace ctx).2.snapshots key = ctx.snapshots key := by
      intro key hdst har
      rw [hfr key har, hcopied, emitSnapshotAtKey, emitAll_frame _ hdst,
        cleaned_frame har, hstart, replaced_frame hdst]
    exact reading_congr (hsame _ (fun heq => hne (Subtype.ext heq)) (src.not_around dst))
      fun key har => hsame key (har.ne_user dst) fun h => har.ne_of_ne h hne rfl

end Commands

/-- A command that succeeds carries the whole value exactly when what the source holds can be
written again as a whole. -/
theorem carries_iff (cmd : MoveCommand) (ctx : Context Bytes) (hctx : Reachable ctx)
    (hsucceeds : Succeeds cmd ctx) : Carries cmd ctx ↔ Carriable cmd ctx := by
  have hc : ∀ {snap}, ctx.getAnySnapshot cmd.src = some snap → ¬ cmd.IsIdle →
      (Carriable cmd ctx ↔
        CarriedTo snap (cmd.base ctx) cmd.src cmd.dst (cmd.cleans ctx) ctx) := by
    intro snap hs hbusy
    simp [Carriable, CarriedTo, hbusy, hs]
  cases cmd with
  | rename key newKey =>
    cases hs : ctx.getAnySnapshot key with
    | none => simp [Succeeds, run, handleRename, hs] at hsucceeds
    | some snap =>
      by_cases hne : key = newKey
      · subst hne
        have hi : (handleRename key key ctx).2 = ctx := by simp [handleRename, hs]
        exact ⟨fun _ => .inl rfl, fun _ => ⟨congrArg (reading · key) hi, fun h => absurd rfl h⟩⟩
      · obtain ⟨hrd, hg⟩ := reading_rename hctx hne hs
        rw [hc hs hne]
        exact (and_iff_left fun _ => hg).trans hrd
  | renameNX key newKey =>
    cases hs : ctx.getAnySnapshot key with
    | none => simp [Succeeds, run, handleRenameNX, hs] at hsucceeds
    | some snap =>
      have hne : key ≠ newKey := by
        rintro rfl
        simp [Succeeds, run, handleRenameNX, hs] at hsucceeds
      have hdest : ctx.getAnySnapshot newKey = none := by
        cases hdest : ctx.getAnySnapshot newKey with
        | none => rfl
        | some old => simp [Succeeds, run, handleRenameNX, hs, hdest] at hsucceeds
      obtain ⟨hrd, hg⟩ := reading_renameNX hctx hne hs hdest
      rw [hc hs id]
      exact (and_iff_left fun _ => hg).trans hrd
  | copy srcKey dstKey replace =>
    cases hs : ctx.getAnySnapshot srcKey with
    | none => simp [Succeeds, run, handleCopy, hs] at hsucceeds
    | some snap =>
      have hdest : replace = false → ctx.getAnySnapshot dstKey = none := by
        rintro rfl
        cases hdest : ctx.getAnySnapshot dstKey with
        | none => rfl
        | some old => simp [Succeeds, run, handleCopy, hs, hdest] at hsucceeds
      obtain ⟨hrd, hsame⟩ := reading_copy hctx hs hdest
      rw [hc hs id]
      refine Iff.trans ?_ hrd
      by_cases hne : srcKey = dstKey
      · subst hne
        exact and_self_iff
      · exact and_iff_left (hsame hne)

/-- The destination key `d`. -/
def otherKey : UserKey := ⟨utf8 "d", by decide +kernel⟩

/-- `SET k v`. -/
def withString : Context Bytes :=
  Context.emit sampleKey (.data { op := .insert, collection := .scalar, value := some (utf8 "v") })
    ⟨fun _ => none, []⟩

theorem rename_carries_string : Carries (.rename sampleKey otherKey) withString := by
  refine (carries_iff _ _ (.emit .empty fun stream h => absurd h (sampleKey.not_around stream))
    (by rfl)).mpr (.inr fun snap hs => ?_)
  obtain rfl := Option.some.inj hs
  exact ⟨.inl nofun, nofun⟩

/-- `XADD k 5-0 f v`. -/
def withEntry : Context Bytes :=
  (StreamCommands.handleXAdd sampleKey { idStr := utf8 "5-0", fields := [utf8 "f", utf8 "v"] } 0
    ⟨fun _ => none, []⟩).ctx

/-- `XADD k 5-0 f v` and `XDEL k 5-0`: the stream is empty. -/
def withEmptyStream : Context Bytes :=
  (StreamCommands.handleXDel sampleKey [⟨5, 0⟩] withEntry).ctx

theorem reachable_withEmptyStream : Reachable withEmptyStream := by
  have he : Reachable withEntry := by
    refine Reachable.emitUser (.emit (.emitUser (.pin .empty _) sampleKey _) ?_) sampleKey _
    exact fun _ _ => .inl rfl
  exact (((he.emitUser sampleKey _).emitUser sampleKey _).emitUser sampleKey _)

/-- `RENAME` of an empty stream succeeds, and neither key is there afterwards. -/
theorem rename_loses_empty_stream :
    Reachable withEmptyStream ∧ Succeeds (.rename sampleKey otherKey) withEmptyStream ∧
      (withEmptyStream.getAnySnapshot sampleKey).isSome = true ∧
      ((run (.rename sampleKey otherKey) withEmptyStream).2.getAnySnapshot otherKey).isSome =
        false ∧
      ¬ Carries (.rename sampleKey otherKey) withEmptyStream := by
  have hex : (withEmptyStream.getAnySnapshot sampleKey).isSome = true := by decide
  have hlost : ((run (.rename sampleKey otherKey) withEmptyStream).2.getAnySnapshot
      otherKey).isSome = false := by decide
  have hr : (run (.rename sampleKey otherKey) withEmptyStream).1 = .ok := by decide
  refine ⟨reachable_withEmptyStream, hr, hex, hlost, fun hcarries => ?_⟩
  have hrd := congrArg isSome hcarries.1
  exact nomatch hlost.symm.trans (hrd.trans hex)

end Swytch.Redis.Moves
