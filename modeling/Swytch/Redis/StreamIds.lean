import Swytch.Lib.Runs
import Swytch.Redis.StreamCommands

/-!
# The ids of a stream never go backwards

`XADD` accepts an id that is greater than the stream's last id, and that is not stored: it is the
greater of the last element's id and the greatest tombstone.  So whatever takes the last element
out has to leave a tombstone.  `XDEL` does, by a second `REMOVE` for the same id, and `XSETID`
leaves one on purpose.  `XDELEX`, `XACKDEL`, `XTRIM` and the trimming of `XADD` emit one `REMOVE`
only: when it is the last entry they take out, its id is forgotten and smaller ids are accepted
again.

What the steps have to meet is `LeavesLast`.  The clock and the node size are read at each step.
What happens to other keys between the steps is arbitrary (`elsewhere`).
-/

namespace Swytch.Redis.StreamIds

open Context
open List
open Sql (Bytes utf8)
open StreamCommands
open StreamID (compare_pos_iff compare_neg_iff zero_le)
open BigEndian (ofBE toBE ofBE_lt toBE_ofBE)

/-! ## 1.  Runs -/

/-- A command on the stream, or a change of other keys. -/
inductive Event where
  | xadd (args : XAddArgs) (now : Int64)
  | xdel (ids : List StreamID)
  | xdelex (mode : RefMode) (ids : List StreamID)
  | xackdel (group : Bytes) (mode : RefMode) (ids : List StreamID)
  | xtrim (opts : TrimOptions)
  | xsetid (lastID : StreamID) (entriesAdded : Option Int64) (maxDeletedID : Option StreamID)
  | elsewhere (other : Bytes → Option (Snapshot Bytes))

/-- The keys, and the ids accepted so far with the latest first. -/
structure Run where
  ctx : Context Bytes
  log : List Accepted

/-- What a command leaves of the run. -/
def Run.next (run : Run) (outcome : Outcome) : Run where
  ctx := outcome.ctx
  log := outcome.accepted.toList ++ run.log

/-- What a command on the stream does. -/
def execute (key : Bytes) (event : Event) (ctx : Context Bytes) : Outcome :=
  match event with
  | .xadd args now => handleXAdd key args now ctx
  | .xdel ids => handleXDel key ids ctx
  | .xdelex mode ids => handleXDelEx key mode ids ctx
  | .xackdel group mode ids => handleXAckDel key group mode ids ctx
  | .xtrim opts => handleXTrim key opts ctx
  | .xsetid lastID entriesAdded maxDeletedID => handleXSetId key lastID entriesAdded maxDeletedID ctx
  | .elsewhere other =>
    ⟨.ok, { ctx with snapshots := Function.update other key (ctx.snapshots key) }, none⟩

def step (key : Bytes) (event : Event) (run : Run) : Option Run :=
  some (run.next (execute key event run.ctx))

/-- Every entry's id is greater than all that was accepted before it. -/
def Increasing (log : List Accepted) : Prop :=
  log.Pairwise fun newer older => ∀ id, newer = .added id → older.id < id

/-- The entries that an event removes with one `REMOVE` each. -/
def removedOnce (key : Bytes) (event : Event) (ctx : Context Bytes) : List StreamID :=
  let snap := (getStreamSnapshot ctx key).snap
  match event with
  | .xdelex mode ids => delExSelection key mode ids ctx snap
  | .xackdel group mode ids =>
    if groupExists ctx key group then ackDelSelection key group mode ids ctx else []
  | .xtrim opts => xTrimSelection key opts ctx snap
  | _ => []

/-- The condition on a step.  `XADD` does not trim the entry it adds.  `XDELEX`, `XACKDEL` and
`XTRIM` do not remove the last entry, or there is a tombstone that is not smaller; an entry that
the command names twice leaves one itself. -/
def LeavesLast (key : Bytes) (event : Event) (run : Run) : Prop :=
  let snap := (getStreamSnapshot run.ctx key).snap
  match event with
  | .xadd args now =>
    ∀ id, chooseID snap now args.idStr = .ok id →
      id ∉ trimSelection args.trim (canTrim run.ctx key args.trim.refMode)
        (snapshotToEntries snap ++ [id])
  | event =>
    ∀ last, (snapshotToEntries snap).getLast? = some last →
      (removedOnce key event run.ctx).count last ≠ 1 ∨ last ≤ (streamMetadata snap).maxDeletedID

/-! ## 2.  What one effect does to the last id -/

/-- The effect of `emitStreamRemove`. -/
def removal (id : StreamID) : Effect Bytes :=
  .data { op := .remove, collection := .ordered, id := encodeStreamElementID id }

/-- A live stream with elements or tombstones. -/
def IsOrdered (snap : Snapshot Bytes) : Prop := snap.op = .insert ∧ snap.collection = .ordered

/-- The stream's last id is not smaller. -/
def Covers (snap : Option (Snapshot Bytes)) (id : StreamID) : Prop :=
  id = .zero ∨ ∃ s, snap = some s ∧ IsOrdered s ∧
    (id ≤ tailID s ∨ id ≤ maxDeleted s.netRemoves)

/-- Only the first element may be something else than an entry: the one that `MKSTREAM` inserts. -/
def Tidy (snap : Option (Snapshot Bytes)) : Prop :=
  ∀ s, snap = some s → ∀ id ∈ s.orderedIds.tail, id.length = 16

variable {p : Bytes → Bool} {bound id : StreamID} {at_ : Bytes} {mode : RefMode}

variable {s : Snapshot Bytes} {snap : Option (Snapshot Bytes)} {ids : List StreamID}
    {args : XAddArgs} {now : Int64}

section Effects

variable {ids : List StreamID} {s : Snapshot Bytes} {other : StreamID}

theorem maxDeleted_cons (id : StreamID) (removes : List Bytes) :
    maxDeleted (encodeStreamElementID id :: removes) = max id (maxDeleted removes) := by
  simp only [maxDeleted, length_encodeStreamElementID, decode_encodeStreamElementID, true_and,
    compare_pos_iff]
  split
  · rename_i hlt
    exact (max_eq_left hlt.le).symm
  · rename_i hle
    exact (max_eq_right (not_lt.mp hle)).symm

theorem lastID_eq_max (h : IsOrdered s) :
    (streamMetadata (some s)).lastID = max (tailID s) (maxDeleted s.netRemoves) := by
  simp only [streamMetadata, h.2, if_true]
  split
  · rename_i hlt
    exact (max_eq_right (compare_pos_iff.mp hlt).le).symm
  · rename_i hle
    rw [compare_pos_iff, not_lt] at hle
    exact (max_eq_left hle).symm

theorem lastID_le_lastIDOf (snap : Option (Snapshot Bytes)) :
    (streamMetadata snap).lastID ≤ lastIDOf snap := by
  simp only [lastIDOf]
  split
  · rename_i h0
    rw [StreamID.isZero_iff.mp h0]
    exact zero_le _
  · exact le_rfl

theorem encode_decode {id : Bytes} (h : id.length = 16) :
    encodeStreamElementID (decodeStreamElementID id) = id := by
  have hms : ofBE (id.take 8) < 2 ^ 64 := by
    have hlt := ofBE_lt (id.take 8)
    simpa [h] using hlt
  have hseq : ofBE (id.drop 8) < 2 ^ 64 := by
    have hlt := ofBE_lt (id.drop 8)
    simpa [h] using hlt
  have hf : toBE 8 (ofBE (id.take 8)) = id.take 8 := by
    simpa [h] using toBE_ofBE (id.take 8)
  have hl : toBE 8 (ofBE (id.drop 8)) = id.drop 8 := by
    simpa [h] using toBE_ofBE (id.drop 8)
  unfold decodeStreamElementID encodeStreamElementID
  rw [if_neg (by simp [h])]
  simp [UInt64.toNat_ofNat_of_lt' hms, UInt64.toNat_ofNat_of_lt' hseq, hf, hl]

theorem tailID_cases (s : Snapshot Bytes) :
    tailID s = .zero ∨ s.orderedIds.getLast? = some (encodeStreamElementID (tailID s)) := by
  unfold tailID
  cases hl : s.orderedIds.getLast? with
  | none => exact .inl rfl
  | some id =>
    by_cases hlen : id.length = 16
    · exact .inr (by simp [encode_decode hlen])
    · exact .inl (by simp [decodeStreamElementID, hlen])

theorem tailID_of_getLast? (h : s.orderedIds.getLast? = some (encodeStreamElementID id)) :
    tailID s = id := by
  simp [tailID, h]

theorem getLast?_filter {ids : List Bytes} {last : Bytes} (h : ids.getLast? = some last)
    (hp : p last = true) : (ids.filter p).getLast? = some last := by
  obtain ⟨front, rfl⟩ := getLast?_eq_some_iff.mp h
  simp [hp]

theorem apply_removal :
    (removal id).apply (some s) = some (s.remove .ordered (encodeStreamElementID id)) := rfl

theorem isOrdered_remove (h : IsOrdered s) {id : Bytes} : IsOrdered (s.remove .ordered id) := by
  simp only [Snapshot.remove]
  split <;> exact h

theorem netRemoves_remove_of_not_mem (h : encodeStreamElementID id ∉ s.orderedIds) :
    (s.remove .ordered (encodeStreamElementID id)).netRemoves =
      encodeStreamElementID id :: s.netRemoves := by
  simp [Snapshot.remove, h]

theorem orderedIds_remove (s : Snapshot Bytes) (id : StreamID) :
    (s.remove .ordered (encodeStreamElementID id)).orderedIds =
      s.orderedIds.filter (· ≠ encodeStreamElementID id) := by
  simp only [Snapshot.remove]
  split
  · rw [Snapshot.orderedIds, Snapshot.orderedIds, filter_map]
    rfl
  · rename_i h
    refine (filter_eq_self.mpr fun other ho => ?_).symm
    exact decide_eq_true fun heq => h (heq ▸ ho)

/-- Tombstones stay. -/
theorem maxDeleted_le_remove (s : Snapshot Bytes) (id : StreamID) :
    maxDeleted s.netRemoves ≤
      maxDeleted (s.remove .ordered (encodeStreamElementID id)).netRemoves := by
  by_cases h : encodeStreamElementID id ∈ s.orderedIds
  · simp [Snapshot.remove, h]
  · rw [netRemoves_remove_of_not_mem h, maxDeleted_cons]
    exact le_max_right _ _

def removeAll (ids : List StreamID) (s : Snapshot Bytes) : Snapshot Bytes :=
  ids.foldl (fun s id => s.remove .ordered (encodeStreamElementID id)) s

theorem removeAll_cons (ids : List StreamID) :
    removeAll (id :: ids) s = removeAll ids (s.remove .ordered (encodeStreamElementID id)) := rfl

theorem isOrdered_removeAll (h : IsOrdered s) (ids : List StreamID) :
    IsOrdered (removeAll ids s) := by
  induction ids generalizing s with
  | nil => exact h
  | cons first ids ih => exact ih (isOrdered_remove h)

theorem maxDeleted_le_removeAll (s : Snapshot Bytes) (ids : List StreamID) :
    maxDeleted s.netRemoves ≤ maxDeleted (removeAll ids s).netRemoves := by
  induction ids generalizing s with
  | nil => exact le_rfl
  | cons first ids ih => exact (maxDeleted_le_remove s first).trans (ih _)

theorem le_maxDeleted_removeAll (h : encodeStreamElementID id ∉ s.orderedIds)
    (hmem : id ∈ ids) : id ≤ maxDeleted (removeAll ids s).netRemoves := by
  induction ids generalizing s with
  | nil => simp at hmem
  | cons first ids ih =>
    rcases mem_cons.mp hmem with rfl | hr
    · refine le_trans ?_ (maxDeleted_le_removeAll _ ids)
      rw [netRemoves_remove_of_not_mem h, maxDeleted_cons]
      exact le_max_left _ _
    · refine ih ?_ hr
      rw [orderedIds_remove]
      exact fun hin => h (mem_of_mem_filter hin)

/-- The last entry stays, or gets a tombstone, unless it is removed exactly once. -/
theorem last_removeAll
    (hl : s.orderedIds.getLast? = some (encodeStreamElementID id)) (hc : ids.count id ≠ 1) :
    tailID (removeAll ids s) = id ∨ id ≤ maxDeleted (removeAll ids s).netRemoves := by
  induction ids generalizing s with
  | nil => exact .inl (tailID_of_getLast? hl)
  | cons first ids ih =>
    rw [removeAll_cons]
    by_cases hf : first = id
    · -- The first remove takes the entry out, so another one leaves the tombstone.
      subst hf
      have hr : first ∈ ids := by
        rw [count_cons_self] at hc
        exact one_le_count_iff.mp (by omega)
      refine .inr (le_maxDeleted_removeAll ?_ hr)
      rw [orderedIds_remove]
      simp
    · refine ih ?_ (by simpa [hf] using hc)
      rw [orderedIds_remove]
      refine getLast?_filter hl (decide_eq_true fun heq => hf ?_)
      exact (encodeStreamElementID_injective heq).symm

theorem covers_removeAll (hs : IsOrdered s)
    (hbd : bound ≤ tailID s ∨ bound ≤ maxDeleted s.netRemoves)
    (hl : ∀ last, s.orderedIds.getLast? = some (encodeStreamElementID last) →
      ids.count last ≠ 1 ∨ last ≤ maxDeleted s.netRemoves) :
    Covers (some (removeAll ids s)) bound := by
  have hord := isOrdered_removeAll hs ids
  rcases hbd with ht | hdel
  · rcases tailID_cases s with h0 | he
    · exact .inl (le_antisymm (h0 ▸ ht) (zero_le _))
    · rcases hl _ he with hc | hdel
      · rcases last_removeAll he hc with hstays | htombstone
        · exact .inr ⟨_, rfl, hord, .inl (hstays ▸ ht)⟩
        · exact .inr ⟨_, rfl, hord, .inr (ht.trans htombstone)⟩
      · have hle := hdel.trans (maxDeleted_le_removeAll s ids)
        exact .inr ⟨_, rfl, hord, .inr (ht.trans hle)⟩
  · exact .inr ⟨_, rfl, hord, .inr (hdel.trans (maxDeleted_le_removeAll s ids))⟩

theorem Tidy.filter {s' : Snapshot Bytes} (h : Tidy (some s))
    (hids : s'.orderedIds = s.orderedIds.filter p) : Tidy (some s') := by
  intro _ hs' other ho
  cases hs'
  rw [hids] at ho
  refine h s rfl other ?_
  cases hold : s.orderedIds with
  | nil => simp [hold] at ho
  | cons head rest =>
    simp only [hold, filter_cons] at ho
    split at ho
    · exact mem_of_mem_filter ho
    · exact mem_of_mem_filter (mem_of_mem_tail ho)

theorem tidy_removeAll (h : Tidy (some s)) :
    Tidy (some (removeAll ids s)) := by
  induction ids generalizing s with
  | nil => exact h
  | cons first ids ih => exact ih (h.filter (orderedIds_remove s first))

end Effects

/-! ## 3.  What a command does to it -/

section Frames

variable {key : Bytes} {ctx : Context Bytes}

theorem dropReferences_frame (id : StreamID) :
    (dropReferences key id ctx).snapshots key = ctx.snapshots key := by
  refine foldl_frame (fun ctx group => ?_) _ _
  split
  · exact emit_snapshots_of_ne _ (stream_ne_pelKey key group)
  · rfl

theorem acknowledge_frame (group : Bytes) (mode : RefMode) (ctx : Context Bytes) (id : StreamID) :
    (acknowledge key group mode ctx id).snapshots key = ctx.snapshots key := by
  have hf : (emitPELRemove key group id ctx).snapshots key = ctx.snapshots key :=
    emit_snapshots_of_ne _ (stream_ne_pelKey key group)
  simp only [acknowledge]
  split
  · refine (foldl_frame (fun ctx other => ?_) _ _).trans hf
    exact emit_snapshots_of_ne _ (stream_ne_pelKey key other)
  · exact hf

theorem emitCfgSet_frame {field : Bytes} {value : Int64} :
    (emitCfgSet key field value ctx).snapshots key = ctx.snapshots key :=
  emit_snapshots_of_ne _ (stream_ne_cfgKey key)

theorem evict_frame {pKey : Bytes} (h : at_ ≠ pKey) (seq : Bytes) (gen maxsize : Int64) :
    (evict pKey seq gen maxsize ctx).snapshots at_ = ctx.snapshots at_ := by
  simp only [evict]
  split
  · exact foldl_frame (fun _ _ => emit_snapshots_of_ne _ h) _ _
  · rfl

/-- Recording a producer writes the producers' keys and the counters only. -/
theorem recordProducer_frame (hcfg : at_ ≠ cfgKey key)
    (hprod : ∀ producer, at_ ≠ producerKey key producer) (idmp : Option (Bytes × Bytes))
    (id : StreamID) (now : Int64) {config : IdmpConfig} :
    (recordProducer key idmp id now config ctx).snapshots at_ = ctx.snapshots at_ := by
  cases idmp with
  | none => rfl
  | some entry =>
    obtain ⟨producer, iid⟩ := entry
    calc (recordProducer key (some (producer, iid)) id now config ctx).snapshots at_
        = (emitProducerSeq key producer iid id config.gen config.maxsize now ctx).snapshots at_ :=
          emit_snapshots_of_ne _ hcfg
      _ = (evict (producerKey key producer) iid config.gen config.maxsize
            (emitKeyedInsert (producerKey key producer) iid
              (encodeStreamElementID id ++ putInt64 now ++ putInt64 config.gen) ctx)).snapshots
            at_ := emit_snapshots_of_ne _ (hprod registryName)
      _ = (emitKeyedInsert (producerKey key producer) iid
            (encodeStreamElementID id ++ putInt64 now ++ putInt64 config.gen) ctx).snapshots at_ :=
          evict_frame (hprod producer) iid config.gen config.maxsize
      _ = ctx.snapshots at_ := emit_snapshots_of_ne _ (hprod producer)

theorem removeEntry_snapshots (mode : RefMode) (ctx : Context Bytes) (id : StreamID) :
    (removeEntry key mode ctx id).snapshots key = (removal id).apply (ctx.snapshots key) := by
  have hrem : (emitStreamRemove key id ctx).snapshots key =
      (removal id).apply (ctx.snapshots key) := emit_snapshots_self _
  simp only [removeEntry]
  split
  · rw [dropReferences_frame, hrem]
  · exact hrem

/-- A loop that removes entry after entry. -/
theorem foldl_removes {f : Context Bytes → StreamID → Context Bytes}
    (hf : ∀ ctx id, (f ctx id).snapshots key = (removal id).apply (ctx.snapshots key))
    (ids : List StreamID) (hs : ctx.snapshots key = some s) :
    (ids.foldl f ctx).snapshots key = some (removeAll ids s) := by
  induction ids generalizing ctx s with
  | nil => exact hs
  | cons first ids ih =>
    refine ih ?_
    rw [hf, hs, apply_removal]

end Frames

section Lookups

variable {key : Bytes} {ctx : Context Bytes} {s : Snapshot Bytes}

theorem of_getStreamSnapshot (h : getStreamSnapshot ctx key = .stream s) :
    ctx.snapshots key = some s ∧ s.op = .insert := by
  unfold getStreamSnapshot getAnySnapshot at h
  cases hs : ctx.snapshots key with
  | none => simp [hs] at h
  | some snap =>
    cases hop : snap.op with
    | remove => simp [hs, hop] at h
    | insert =>
      simp only [hs, hop] at h
      have heq : snap = s := by
        simp only [reduceCtorEq, if_false] at h
        split at h
        · exact StreamLookup.stream.inj h
        · split at h
          · exact StreamLookup.stream.inj h
          · cases h
      exact ⟨congrArg some heq, heq ▸ hop⟩

theorem getStreamSnapshot_of_ordered (hsn : ctx.snapshots key = some s) (hs : IsOrdered s) :
    getStreamSnapshot ctx key = .stream s := by
  simp [getStreamSnapshot, getAnySnapshot, hsn, hs.1, hs.2]

theorem Covers.le (h : Covers (ctx.snapshots key) id) :
    id ≤ lastIDOf (getStreamSnapshot ctx key).snap := by
  rcases h with rfl | ⟨s, hsn, hs, hle⟩
  · exact zero_le _
  · rw [getStreamSnapshot_of_ordered hsn hs]
    refine le_trans ?_ (lastID_le_lastIDOf (some s))
    rw [lastID_eq_max hs]
    exact hle.elim le_max_of_le_left le_max_of_le_right

theorem Covers.mono (h : Covers snap id) (hle : bound ≤ id) : Covers snap bound := by
  rcases h with rfl | ⟨s, hsn, hs, hcs⟩
  · exact .inl (le_antisymm hle (zero_le _))
  · exact .inr ⟨s, hsn, hs, hcs.imp hle.trans hle.trans⟩

/-- The last element, if it is an entry, is the last entry. -/
theorem getLast?_snapshotToEntries (hs : IsOrdered s)
    (hl : s.orderedIds.getLast? = some (encodeStreamElementID id)) :
    (snapshotToEntries (some s)).getLast? = some id := by
  have hfilter := getLast?_filter (p := fun id => decide (id.length = 16)) hl (by simp)
  simp [snapshotToEntries, hs.2, hfilter]

/-- In a tidy stream the last entry is the last element, and so the last id is the metadata's. -/
theorem lastIDOf_eq (hs : IsOrdered s) (htidy : Tidy (some s)) :
    lastIDOf (some s) = (streamMetadata (some s)).lastID := by
  simp only [lastIDOf]
  split
  · rename_i h0
    have hmax := StreamID.isZero_iff.mp h0
    rw [hmax]
    rw [lastID_eq_max hs] at hmax
    have ht : tailID s = .zero := le_antisymm (hmax ▸ le_max_left _ _) (zero_le _)
    unfold streamLastID
    cases hl : s.orderedIds.getLast? with
    | none =>
      rw [getLast?_eq_none_iff] at hl
      simp [snapshotToEntries, hl]
    | some last =>
      by_cases hlen : last.length = 16
      · have he : s.orderedIds.getLast? = some (encodeStreamElementID .zero) := by
          rw [← ht]
          simp [tailID, hl, encode_decode hlen]
        rw [getLast?_snapshotToEntries hs he]
        rfl
      · -- It is the only element, and no entry.
        have honly : s.orderedIds = [last] := by
          cases hids : s.orderedIds with
          | nil => simp [hids] at hl
          | cons first rest =>
            cases rest with
            | nil => simpa [hids] using hl
            | cons second rest =>
              refine absurd (htidy s rfl last ?_) hlen
              rw [hids] at hl ⊢
              exact mem_of_getLast? (by simpa using hl)
        simp [snapshotToEntries, honly, hlen]
  · rfl

end Lookups

section Commands

variable {key : Bytes} {ctx : Context Bytes} {s : Snapshot Bytes}

/-- What an insert makes of a key: the entry comes last. -/
theorem emitStreamInsert_spec (id : StreamID) (fields : List Bytes)
    (htidy : Tidy (ctx.snapshots key)) :
    ∃ s, (emitStreamInsert key id fields ctx).snapshots key = some s ∧ IsOrdered s ∧
      Tidy (some s) ∧ s.orderedIds.getLast? = some (encodeStreamElementID id) := by
  set base := Snapshot.forInsert (ctx.snapshots key) .ordered with hb
  set s := base.insert {
    op := .insert
    collection := .ordered
    placement := .tail
    id := encodeStreamElementID id
    value := some (encodeStreamFields fields) } with hs
  have hids : s.orderedIds = base.orderedIds ++ [encodeStreamElementID id] := by
    simp [hs, Snapshot.insert, Snapshot.orderedIds]
  have hord : IsOrdered s := by
    have hop := Snapshot.forInsert_op (ctx.snapshots key) .ordered
    have hk := Snapshot.forInsert_collection (ctx.snapshots key) .ordered
    exact ⟨hop, hk⟩
  have hbasetidy : ∀ other ∈ base.orderedIds.tail, other.length = 16 := by
    rcases Snapshot.forInsert_cases (ctx.snapshots key) .ordered with hsame | hnil
    · exact htidy base hsame
    · simp [Snapshot.orderedIds, hb, hnil.orderedElements]
  refine ⟨s, emit_snapshots_self _, hord, ?_, by simp [hids]⟩
  intro s' hs' other ho
  cases hs'
  rw [hids] at ho
  cases hcs : base.orderedIds with
  | nil => simp [hcs] at ho
  | cons first rest =>
    rw [hcs] at ho
    rcases mem_append.mp ho with hr | hnew
    · exact hbasetidy other (by rwa [hcs, tail_cons])
    · simp [mem_singleton.mp hnew]

def sentinel (s : Snapshot Bytes) (id : StreamID) : Snapshot Bytes :=
  let base := Snapshot.forInsert (some s) .ordered
  { base with
    merge := .lastWriteWins
    orderedElements := base.orderedElements.filter (·.1 ≠ encodeStreamElementID id)
    netRemoves := encodeStreamElementID id :: base.netRemoves }

theorem emitSentinel_snapshot (hs : ctx.snapshots key = some s) :
    (emitSentinel key id ctx).snapshots key = some (sentinel s id) := by
  rw [emitSentinel, emitStreamRemove, emit_snapshots_self, emitStreamRemove, emit_snapshots_self,
    emitStreamInsert, emit_snapshots_self, hs]
  simp [Effect.apply, Snapshot.insert, Snapshot.remove, Snapshot.orderedIds, sentinel]

theorem isOrdered_sentinel (s : Snapshot Bytes) (id : StreamID) : IsOrdered (sentinel s id) :=
  ⟨Snapshot.forInsert_op _ _, Snapshot.forInsert_collection _ _⟩

theorem orderedIds_sentinel (s : Snapshot Bytes) (id : StreamID) :
    (sentinel s id).orderedIds = (Snapshot.forInsert (some s) .ordered).orderedIds.filter
      (· ≠ encodeStreamElementID id) := by
  rw [Snapshot.orderedIds, Snapshot.orderedIds, filter_map]
  rfl

theorem tidy_sentinel (h : Tidy (some s)) : Tidy (some (sentinel s id)) := by
  rcases Snapshot.forInsert_cases (some s) .ordered with hsame | hnil
  · refine h.filter (p := (· ≠ encodeStreamElementID id)) ?_
    rw [orderedIds_sentinel, ← Option.some.inj hsame]
  · refine h.filter (p := fun _ => false) ?_
    rw [orderedIds_sentinel, Snapshot.orderedIds, hnil.orderedElements]
    simp

theorem covers_sentinel_self (s : Snapshot Bytes) (id : StreamID) :
    Covers (some (sentinel s id)) id :=
  .inr ⟨_, rfl, isOrdered_sentinel s id, .inr (maxDeleted_cons id _ ▸ le_max_left _ _)⟩

/-- What was covered stays so: the last entry stays, or it has the sentinel's id. -/
theorem covers_sentinel (h : Covers (some s) bound) : Covers (some (sentinel s id)) bound := by
  rcases h with rfl | ⟨_, hs, hord, hle⟩
  · exact .inl rfl
  cases hs
  have hb := Snapshot.forInsert_of_same hord.1 hord.2
  rcases hle with ht | hdel
  · rcases tailID_cases s with h0 | he
    · exact .inl (le_antisymm (h0 ▸ ht) (zero_le _))
    · by_cases hsame : tailID s = id
      · exact (covers_sentinel_self s id).mono (hsame ▸ ht)
      · have hstays : (sentinel s id).orderedIds.getLast? =
            some (encodeStreamElementID (tailID s)) := by
          rw [orderedIds_sentinel, hb]
          exact getLast?_filter he (decide_eq_true (encodeStreamElementID_injective.ne hsame))
        exact .inr ⟨_, rfl, isOrdered_sentinel s id,
          .inl ((tailID_of_getLast? hstays).symm ▸ ht)⟩
  · refine .inr ⟨_, rfl, isOrdered_sentinel s id, .inr (hdel.trans ?_)⟩
    rw [sentinel, hb, maxDeleted_cons]
    exact le_max_right _ _

theorem covers_sentinels (h : Covers (some s) bound ∨ bound ∈ ids) :
    Covers (some (ids.foldl sentinel s)) bound := by
  induction ids generalizing s with
  | nil => simpa using h
  | cons first ids ih =>
    rcases h with hold | hmem
    · exact ih (.inl (covers_sentinel hold))
    · rcases mem_cons.mp hmem with rfl | hr
      · exact ih (.inl (covers_sentinel_self s bound))
      · exact ih (.inr hr)

theorem tidy_sentinels (h : Tidy (some s)) : Tidy (some (ids.foldl sentinel s)) := by
  induction ids generalizing s with
  | nil => exact h
  | cons first ids ih => exact ih (tidy_sentinel h)

theorem raise_snapshot {current : StreamID} (hs : ctx.snapshots key = some s) :
    (raise key id current ctx).snapshots key =
      some ((if current < id then [id] else []).foldl sentinel s) := by
  simp only [raise, compare_pos_iff]
  split
  · exact emitSentinel_snapshot hs
  · exact hs

theorem lastIDOf_le (hdel : (streamMetadata (some s)).maxDeletedID ≤ id)
    (he : streamLastID (snapshotToEntries (some s)) ≤ id) : lastIDOf (some s) ≤ id := by
  unfold lastIDOf
  simp only
  split
  · exact he
  by_cases hk : s.collection = .ordered
  · simp only [streamMetadata, hk, if_true] at hdel ⊢
    split
    · exact hdel
    · rcases tailID_cases s with h0 | hl
      · exact h0 ▸ zero_le _
      · have hfilter := getLast?_filter (p := fun id => decide (id.length = 16)) hl (by simp)
        simpa [streamLastID, snapshotToEntries, hk, hfilter] using he
  · simp only [streamMetadata, hk]
    exact zero_le _

/-- The ids that `XSETID` inserts and removes again. -/
def sentinels (lastID : StreamID) (maxDeletedID : Option StreamID)
    (snap : Option (Snapshot Bytes)) : List StreamID :=
  (if lastIDOf snap < lastID then [lastID] else []) ++
    maxDeletedID.toList.filter fun id => (streamMetadata snap).maxDeletedID < id

theorem setLastID_snapshot (lastID : StreamID) (entriesAdded : Option Int64)
    (maxDeletedID : Option StreamID) (hs : ctx.snapshots key = some s) :
    (setLastID key lastID entriesAdded maxDeletedID s ctx).snapshots key =
      some ((sentinels lastID maxDeletedID (some s)).foldl sentinel s) := by
  have hpinned : (ctx.pin key).snapshots key = some s := by rw [pin_snapshots, hs]
  have hraised : (raiseIDs key lastID maxDeletedID s ctx).snapshots key =
      some ((sentinels lastID maxDeletedID (some s)).foldl sentinel s) := by
    unfold raiseIDs sentinels
    rw [foldl_append]
    cases maxDeletedID with
    | none => exact raise_snapshot hpinned
    | some id =>
      simp only [Option.toList_some, filter_singleton, Bool.cond_decide]
      exact raise_snapshot (raise_snapshot hpinned)
  cases entriesAdded with
  | none => exact hraised
  | some n => exact (emitCfgSet_frame).trans hraised

/-- What `XSETID` does: it refuses, or its id is neither smaller than the last one nor than
`MAXDELETEDID`. -/
theorem handleXSetId_cases (key : Bytes) (lastID : StreamID) (entriesAdded : Option Int64)
    (maxDeletedID : Option StreamID) (ctx : Context Bytes) :
    (∃ reply, reply ≠ .ok ∧
      handleXSetId key lastID entriesAdded maxDeletedID ctx = ⟨reply, ctx, none⟩) ∨
    ∃ s, ctx.snapshots key = some s ∧ s.op = .insert ∧ lastIDOf (some s) ≤ lastID ∧
      (∀ id ∈ maxDeletedID, id ≤ lastID) ∧
      handleXSetId key lastID entriesAdded maxDeletedID ctx =
        ⟨.ok, setLastID key lastID entriesAdded maxDeletedID s ctx, some (.set lastID)⟩ := by
  unfold handleXSetId
  split
  · exact .inl ⟨_, by simp, rfl⟩
  · exact .inl ⟨_, by simp, rfl⟩
  rename_i s hf
  obtain ⟨hs, hop⟩ := of_getStreamSnapshot hf
  simp only
  split_ifs with hdel hgiven he hadded
  · exact .inl ⟨_, by simp, rfl⟩
  · exact .inl ⟨_, by simp, rfl⟩
  · exact .inl ⟨_, by simp, rfl⟩
  · exact .inl ⟨_, by simp, rfl⟩
  rw [compare_neg_iff, not_lt] at hdel
  refine .inr ⟨s, hs, hop, lastIDOf_le hdel ?_, fun id hid => ?_, rfl⟩
  · by_cases hn : snapshotToEntries (some s) = []
    · exact hn ▸ zero_le _
    · rw [← not_lt, ← compare_neg_iff]
      exact fun hlt => he ⟨hn, hlt⟩
  · rw [Option.mem_def.mp hid] at hgiven
    simpa [compare_pos_iff] using hgiven

/-- Type tags leave the elements and tombstones alone. -/
theorem emitStreamTypeTag_spec (hsn : ctx.snapshots key = some s) (hs : IsOrdered s) :
    ∃ s', (emitStreamTypeTag key ctx).snapshots key = some s' ∧ IsOrdered s' ∧
      s'.orderedIds = s.orderedIds ∧ s'.netRemoves = s.netRemoves := by
  refine ⟨s.setMeta { typeTag := .stream }, ?_, hs, rfl, rfl⟩
  rw [emitStreamTypeTag, emit_snapshots_self, hsn]
  simp [Effect.apply, hs.1]

/-- What `XADD` makes of the stream before it trims. -/
theorem insertEntry_spec (args : XAddArgs) (now : Int64) (snap : Option (Snapshot Bytes))
    (id : StreamID) (htidy : Tidy (ctx.snapshots key)) :
    ∃ s, (insertEntry key args now snap id ctx).snapshots key = some s ∧ IsOrdered s ∧
      Tidy (some s) ∧ s.orderedIds.getLast? = some (encodeStreamElementID id) := by
  have hpinned : Tidy ((ctx.pin key).snapshots key) := by rwa [pin_snapshots]
  obtain ⟨s, hinserted, hs, hstidy, hl⟩ := emitStreamInsert_spec id args.fields hpinned
  have hcounted : (incrementStreamEntriesAdded key
      (emitStreamInsert key id args.fields (ctx.pin key))).snapshots key = some s :=
    (emitCfgSet_frame).trans hinserted
  have hproducers : ∀ tagged : Context Bytes,
      (recordProducer key args.idmp id now (readIdmpConfig ctx key) tagged).snapshots key =
        tagged.snapshots key := fun tagged =>
    recordProducer_frame (stream_ne_cfgKey key) (stream_ne_producerKey key) args.idmp id now
  simp only [insertEntry]
  rw [hproducers]
  split
  · obtain ⟨s', htag, hs', hids, -⟩ := emitStreamTypeTag_spec hcounted hs
    refine ⟨s', htag, hs', fun other ho => ?_, hids ▸ hl⟩
    cases ho
    rw [hids]
    exact hstidy s rfl
  · exact ⟨s, hcounted, hs, hstidy, hl⟩

/-- The keys that `XADD` writes before it trims. -/
theorem insertEntry_frame (args : XAddArgs) (now : Int64) (snap : Option (Snapshot Bytes))
    (id : StreamID) (hkey : at_ ≠ key) (hcfg : at_ ≠ cfgKey key)
    (hprod : ∀ producer, at_ ≠ producerKey key producer) :
    (insertEntry key args now snap id ctx).snapshots at_ = ctx.snapshots at_ := by
  have hinserted : (emitStreamInsert key id args.fields (ctx.pin key)).snapshots at_ =
      ctx.snapshots at_ := by
    rw [emitStreamInsert, emit_snapshots_of_ne _ hkey, pin_snapshots]
  have hcounted : (incrementStreamEntriesAdded key
      (emitStreamInsert key id args.fields (ctx.pin key))).snapshots at_ = ctx.snapshots at_ :=
    (emit_snapshots_of_ne _ hcfg).trans hinserted
  simp only [insertEntry]
  rw [recordProducer_frame hcfg hprod]
  split
  · exact (emit_snapshots_of_ne _ hkey).trans hcounted
  · exact hcounted

end Commands

section Groups

variable {key : Bytes} {ctx ctx' : Context Bytes}

/-- What may be trimmed is read off the groups' keys. -/
theorem canTrim_congr (hg : ∀ group, ctx'.snapshots (groupKey key group) =
      ctx.snapshots (groupKey key group))
    (hpel : ∀ group, ctx'.snapshots (pelKey key group) = ctx.snapshots (pelKey key group))
    (mode : RefMode) : canTrim ctx' key mode = canTrim ctx key mode := by
  have had : ∀ group, netAddsOf ctx' (groupKey key group) = netAddsOf ctx (groupKey key group) :=
    fun group => netAddsOf_congr (hg group)
  have hpend : ∀ group, netAddsOf ctx' (pelKey key group) = netAddsOf ctx (pelKey key group) :=
    fun group => netAddsOf_congr (hpel group)
  have hdelivered : ∀ group, lastDelivered ctx' key group = lastDelivered ctx key group :=
    fun group => by unfold lastDelivered; rw [had]
  funext id
  simp only [canTrim, ackedEverywhere, listGroupNames, isPending, had, hpend, hdelivered]

theorem canTrim_insertEntry :
    canTrim (insertEntry key args now snap id ctx) key mode = canTrim ctx key mode := by
  refine canTrim_congr (fun group => ?_) (fun group => ?_) mode
  · exact insertEntry_frame args now snap id (stream_ne_groupKey key group).symm
      (cfgKey_ne_groupKey group).symm fun producer => (producerKey_ne_groupKey producer group).symm
  · exact insertEntry_frame args now snap id (stream_ne_pelKey key group).symm
      (cfgKey_ne_pelKey group).symm fun producer => (producerKey_ne_pelKey producer group).symm

/-- An entry that `XADD` does not trim itself is the last one, and all smaller ids are covered. -/
theorem addEntry_spec (args : XAddArgs) (now : Int64) (snap : Option (Snapshot Bytes))
    (htidy : Tidy (ctx.snapshots key))
    (hk : id ∉ trimSelection args.trim (canTrim ctx key args.trim.refMode)
      (snapshotToEntries snap ++ [id])) :
    Tidy ((addEntry key args now snap id ctx).snapshots key) ∧
      Covers ((addEntry key args now snap id ctx).snapshots key) id := by
  obtain ⟨s, hsn, hs, hstidy, hl⟩ := insertEntry_spec args now snap id htidy
  have hbd : id ≤ tailID s := (tailID_of_getLast? hl).ge
  simp only [addEntry]
  split
  · rw [canTrim_insertEntry, foldl_removes (removeEntry_snapshots _) _ hsn]
    refine ⟨tidy_removeAll hstidy, covers_removeAll hs (.inl hbd) fun last he => .inl ?_⟩
    obtain rfl := encodeStreamElementID_injective (Option.some.inj (hl.symm.trans he))
    rw [count_eq_zero_of_not_mem hk]
    exact Nat.zero_ne_one
  · rw [hsn]
    exact ⟨hstidy, .inr ⟨s, rfl, hs, .inl hbd⟩⟩

end Groups

/-! ## 4.  Ids never go backwards -/

structure Inv (key : Bytes) (run : Run) : Prop where
  tidy : Tidy (run.ctx.snapshots key)
  covered : ∀ a ∈ run.log, Covers (run.ctx.snapshots key) a.id
  increasing : Increasing run.log

section Steps

variable {ctx : Context Bytes} {s : Snapshot Bytes} {ids : List StreamID} {key : Bytes} {run : Run}

section

variable (h : Inv key run)

include h

theorem Inv.of_same (reply : StreamReply)
    (hsame : ctx.snapshots key = run.ctx.snapshots key) : Inv key (run.next ⟨reply, ctx, none⟩) where
  tidy := by
    show Tidy (ctx.snapshots key)
    rw [hsame]
    exact h.tidy
  covered := by
    show ∀ a ∈ run.log, Covers (ctx.snapshots key) a.id
    rw [hsame]
    exact h.covered
  increasing := h.increasing

/-- A step that removes entries of the stream. -/
theorem Inv.of_removes (reply : StreamReply) (hs : run.ctx.snapshots key = some s)
    (hctx : ctx.snapshots key = some (removeAll ids s))
    (hl : ∀ last, (snapshotToEntries (some s)).getLast? = some last →
      ids.count last ≠ 1 ∨ last ≤ (streamMetadata (some s)).maxDeletedID) :
    Inv key (run.next ⟨reply, ctx, none⟩) where
  tidy := by
    show Tidy (ctx.snapshots key)
    rw [hctx]
    exact tidy_removeAll (hs ▸ h.tidy)
  covered := by
    show ∀ a ∈ run.log, Covers (ctx.snapshots key) a.id
    intro a ha
    rw [hctx]
    rcases h.covered a ha with h0 | ⟨s', hs', hord, hle⟩
    · exact .inl h0
    · obtain rfl := Option.some.inj (hs.symm.trans hs')
      refine covers_removeAll hord hle fun last he => ?_
      have hcs := hl last (getLast?_snapshotToEntries hord he)
      simpa [streamMetadata, hord.2] using hcs
  increasing := h.increasing

theorem Inv.xadd (hgood : LeavesLast key (.xadd args now) run) :
    Inv key (run.next (handleXAdd key args now run.ctx)) := by
  unfold handleXAdd
  split
  · exact h.of_same _ rfl
  simp only
  split
  · exact h.of_same _ rfl
  split
  · exact h.of_same _ (emitCfgSet_frame)
  split
  · exact h.of_same _ rfl
  rename_i id hid
  split
  · exact h.of_same _ rfl
  rename_i hgt
  split
  · exact h.of_same _ rfl
  have hgt : lastIDOf (getStreamSnapshot run.ctx key).snap < id := by
    rwa [StreamID.compare_nonpos_iff, not_le] at hgt
  obtain ⟨htidy, hcv⟩ := addEntry_spec args now (getStreamSnapshot run.ctx key).snap h.tidy
    (hgood id hid)
  refine ⟨htidy, ?_, ?_⟩
  · intro a ha
    rcases mem_cons.mp ha with rfl | hold
    · exact hcv
    · exact hcv.mono ((h.covered a hold).le.trans hgt.le)
  · refine pairwise_cons.mpr ⟨fun a ha new hnew => ?_, h.increasing⟩
    cases hnew
    exact (h.covered a ha).le.trans_lt hgt

theorem Inv.xdel (ids : List StreamID) : Inv key (run.next (handleXDel key ids run.ctx)) := by
  unfold handleXDel
  split
  · exact h.of_same _ rfl
  · exact h.of_same _ rfl
  rename_i s hf
  obtain ⟨hs, -⟩ := of_getStreamSnapshot hf
  simp only
  split
  · exact h.of_same _ rfl
  refine h.of_removes _ hs (foldl_removes (fun _ _ => emit_snapshots_self _) _ ?_)
    fun last _ => .inl ?_
  · rw [emit_noop_snapshots, hs]
  · -- Every entry is removed an even number of times.
    have heven : ∀ l : List StreamID, (l.flatMap fun id => [id, id]).count last =
        2 * l.count last := by
      intro l
      induction l with
      | nil => rfl
      | cons first l ih =>
        simp only [flatMap_cons, count_append, count_cons, count_nil]
        split <;> omega
    rw [heven]
    omega

theorem Inv.xdelex (hgood : LeavesLast key (.xdelex mode ids) run) :
    Inv key (run.next (handleXDelEx key mode ids run.ctx)) := by
  unfold handleXDelEx
  split
  · exact h.of_same _ rfl
  · exact h.of_same _ rfl
  rename_i s hf
  obtain ⟨hs, -⟩ := of_getStreamSnapshot hf
  refine h.of_removes _ hs (foldl_removes (removeEntry_snapshots mode) _ ?_) ?_
  · rw [emit_noop_snapshots, hs]
  · simpa [LeavesLast, removedOnce, hf, StreamLookup.snap] using hgood

theorem Inv.xackdel {group : Bytes} (hgood : LeavesLast key (.xackdel group mode ids) run) :
    Inv key (run.next (handleXAckDel key group mode ids run.ctx)) := by
  unfold handleXAckDel
  split
  · exact h.of_same _ rfl
  · exact h.of_same _ rfl
  rename_i s hf
  obtain ⟨hs, -⟩ := of_getStreamSnapshot hf
  split
  · exact h.of_same _ rfl
  rename_i hg
  refine h.of_removes _ hs (foldl_removes (fun _ _ => emit_snapshots_self _) _ ?_) ?_
  · rw [foldl_frame (acknowledge_frame group mode), hs]
  · have hex : groupExists run.ctx key group = true := by simpa using hg
    simpa [LeavesLast, removedOnce, hf, StreamLookup.snap, hex] using hgood

theorem Inv.xtrim {opts : TrimOptions} (hgood : LeavesLast key (.xtrim opts) run) :
    Inv key (run.next (handleXTrim key opts run.ctx)) := by
  unfold handleXTrim
  split
  · exact h.of_same _ rfl
  · exact h.of_same _ rfl
  rename_i s hf
  obtain ⟨hs, -⟩ := of_getStreamSnapshot hf
  have hrem := foldl_removes (f := fun ctx id => emitStreamRemove key id ctx)
    (fun _ _ => emit_snapshots_self _)
    (xTrimSelection key opts run.ctx (some s))
    ((congrFun (emit_noop_snapshots key) key).trans hs)
  refine h.of_removes (.integer _) hs (Eq.trans ?_ hrem) ?_
  · split
    · exact foldl_frame (fun _ id => dropReferences_frame id) _ _
    · rfl
  · simpa [LeavesLast, removedOnce, hf, StreamLookup.snap] using hgood

end

theorem covers_of_le_lastIDOf (hop : s.op = .insert) (htidy : Tidy (some s))
    (hle : id ≤ lastIDOf (some s)) : Covers (some s) id := by
  by_cases hk : s.collection = .ordered
  · rw [lastIDOf_eq ⟨hop, hk⟩ htidy, lastID_eq_max ⟨hop, hk⟩] at hle
    exact .inr ⟨s, rfl, ⟨hop, hk⟩, le_max_iff.mp hle⟩
  · have h0 : lastIDOf (some s) = .zero := by
      simp [lastIDOf, streamMetadata, snapshotToEntries, hk, streamLastID]
    exact .inl (le_antisymm (h0 ▸ hle) (zero_le _))

theorem Inv.xsetid (h : Inv key run) (lastID : StreamID) (entriesAdded : Option Int64)
    (maxDeletedID : Option StreamID) :
    Inv key (run.next (handleXSetId key lastID entriesAdded maxDeletedID run.ctx)) := by
  rcases handleXSetId_cases key lastID entriesAdded maxDeletedID run.ctx with
    ⟨reply, -, heq⟩ | ⟨s, hs, hop, hl, -, heq⟩
  · rw [heq]
    exact h.of_same _ rfl
  have htidy : Tidy (some s) := hs ▸ h.tidy
  have haft := setLastID_snapshot lastID entriesAdded maxDeletedID hs
  rw [heq]
  refine ⟨haft ▸ tidy_sentinels htidy, fun a ha => haft ▸ covers_sentinels ?_, ?_⟩
  · rcases mem_cons.mp ha with rfl | hold
    · rcases hl.lt_or_eq with hlt | hsame
      · exact .inr (by simp [sentinels, hlt, Accepted.id])
      · exact .inl (covers_of_le_lastIDOf hop htidy hsame.ge)
    · exact .inl (hs ▸ h.covered a hold)
  · exact pairwise_cons.mpr ⟨fun _ _ _ hnew => Accepted.noConfusion hnew, h.increasing⟩

theorem Inv.step {event : Event} {run' : Run} (h : Inv key run) (hgood : LeavesLast key event run)
    (hstep : step key event run = some run') : Inv key run' := by
  cases hstep
  cases event with
  | xadd args now => exact h.xadd hgood
  | xdel ids => exact h.xdel ids
  | xdelex mode ids => exact h.xdelex hgood
  | xackdel group mode ids => exact h.xackdel hgood
  | xtrim opts => exact h.xtrim hgood
  | xsetid lastID entriesAdded maxDeletedID => exact h.xsetid lastID entriesAdded maxDeletedID
  | elsewhere other => exact h.of_same _ (Function.update_self ..)

end Steps

/-- In every run whose steps leave the last entry or a tombstone for it, every id that `XADD`
accepts is greater than all ids that were accepted before. -/
theorem ids_increase {key : Bytes} {ctx : Context Bytes} {events : List Event} {run : Run}
    (htidy : Tidy (ctx.snapshots key)) (hrun : Runs.after (step key) events ⟨ctx, []⟩ = some run)
    (hgood : Runs.Along (step key) (LeavesLast key) events ⟨ctx, []⟩) : Increasing run.log := by
  have h0 : Inv key ⟨ctx, []⟩ := ⟨htidy, fun a ha => absurd ha not_mem_nil, .nil⟩
  have hinv : Inv key run :=
    Runs.invariant_of_along (fun _ _ _ h hgood hstep => h.step hgood hstep) h0 hgood hrun
  exact hinv.increasing

/-- `XADD k <id> f v`, at a time. -/
def add (idStr : String) (now : Int64) : Event :=
  .xadd { idStr := utf8 idStr, fields := [utf8 "f", utf8 "v"] } now

def noKeys : Context Bytes := ⟨fun _ => none, []⟩

/-- After `XDEL` of the last entry the next id that is generated is greater. -/
theorem ids_increase_after_xdel :
    ∃ run, Runs.after (step (utf8 "k"))
        [add "5-0" 0, .xdel [⟨5, 0⟩], add "*" 3] ⟨noKeys, []⟩ = some run ∧
      run.log = [.added ⟨5, 1⟩, .added ⟨5, 0⟩] ∧ Increasing run.log := by
  have hgood : Runs.Along (step (utf8 "k")) (LeavesLast (utf8 "k"))
      [add "5-0" 0, .xdel [⟨5, 0⟩], add "*" 3] ⟨noKeys, []⟩ := by
    refine Runs.along_cons rfl ?_ (Runs.along_cons rfl ?_ (Runs.along_cons rfl ?_ trivial))
    · exact fun _ _ hmem => absurd hmem not_mem_nil
    · exact fun _ _ => .inl Nat.zero_ne_one
    · exact fun _ _ hmem => absurd hmem not_mem_nil
  exact ⟨_, rfl, by decide,
    ids_increase (fun _ hs => absurd hs (by simp [noKeys])) rfl hgood⟩

/-- After `XDELEX` of the last entry a smaller id is accepted. -/
theorem smaller_id_after_xdelex :
    ∃ run, Runs.after (step (utf8 "k"))
        [add "5-0" 0, .xdelex .keepRef [⟨5, 0⟩], add "3-0" 0] ⟨noKeys, []⟩ = some run ∧
      run.log = [.added ⟨3, 0⟩, .added ⟨5, 0⟩] ∧ ¬ Increasing run.log := by
  refine ⟨_, rfl, by decide, fun hincreasing => ?_⟩
  have hless := (pairwise_cons.mp hincreasing).1 (.added ⟨5, 0⟩) mem_cons_self ⟨3, 0⟩ rfl
  exact absurd hless (by decide)

end Swytch.Redis.StreamIds
