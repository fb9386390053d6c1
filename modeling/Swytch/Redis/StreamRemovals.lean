import Swytch.Redis.Residue
import Swytch.Redis.StreamIds

/-!
# What leaves a stream

`XADD` trims with `trimEntries`, over the entries as they are stored, `XTRIM` with
`StreamValue.Trim`, over an index in the order of the ids.  With one of `MINID` and `MAXLEN` they
take the same entries out, and in `DELREF` mode the same references to them.

`XSETID` keeps its ids as tombstones: it inserts an element and removes it twice.  Where an entry has
that id, it goes as well; and one tombstone hides a smaller one.
-/

namespace Swytch.Redis.StreamRemovals

open List
open Sql (Bytes utf8)
open Snapshot (forInsert)
open StreamCommands StreamIds Residue

/-! ## 1.  The pending entries lists -/

variable {ids entries : List StreamID}

section Pending

variable {key group name : Bytes} {id other : StreamID} {ctx : Context Bytes}

/-- A `REMOVE` from a keyed collection. -/
theorem netAddsOf_emitKeyedRemove {pel elem : Bytes} :
    netAddsOf (emitKeyedRemove pel elem ctx) pel = (netAddsOf ctx pel).erase elem := by
  unfold netAddsOf emitKeyedRemove
  rw [Context.emit_snapshots_self]
  cases ctx.snapshots pel <;> rfl

theorem isPending_emitPELRemove :
    isPending (emitPELRemove key group id ctx) key name other =
      (isPending ctx key name other && !decide (name = group ∧ other = id)) := by
  by_cases hn : name = group
  · subst hn
    rw [isPending, emitPELRemove, netAddsOf_emitKeyedRemove, isPending]
    by_cases hid : other = id
    · subst hid
      simp
    · rw [AList.lookup_erase_ne (encodeStreamElementID_injective.ne hid)]
      simp [hid]
  · have hfr : (emitPELRemove key group id ctx).snapshots (pelKey key name) =
        ctx.snapshots (pelKey key name) :=
      Context.emit_snapshots_of_ne _ ((pelKey_injective key).ne hn)
    simp [isPending, netAddsOf, hfr, hn]

/-- With `DELREF` an entry leaves every list that it is in. -/
theorem isPending_dropReferences :
    isPending (dropReferences key id ctx) key name other =
      (isPending ctx key name other && !decide (name ∈ listGroupNames ctx key ∧ other = id)) := by
  unfold dropReferences
  generalize listGroupNames ctx key = names
  induction names generalizing ctx with
  | nil => simp
  | cons group names ih =>
    rw [foldl_cons, ih]
    split
    · rw [isPending_emitPELRemove]
      by_cases hn : name = group <;> by_cases hid : other = id <;> simp [hn, hid]
    · by_cases hn : name = group <;> by_cases hid : other = id <;> simp_all

/-- A loop that drops the references of entry after entry. -/
theorem isPending_foldl {f : Context Bytes → StreamID → Context Bytes}
    (hns : ∀ ctx id, listGroupNames (f ctx id) key = listGroupNames ctx key)
    (hf : ∀ ctx id, isPending (f ctx id) key name other =
      (isPending ctx key name other && !decide (name ∈ listGroupNames ctx key ∧ other = id))) :
    isPending (ids.foldl f ctx) key name other =
      (isPending ctx key name other && !decide (name ∈ listGroupNames ctx key ∧ other ∈ ids)) := by
  induction ids generalizing ctx with
  | nil => simp
  | cons id ids ih =>
    rw [foldl_cons, ih, hf, hns]
    by_cases hn : name ∈ listGroupNames ctx key <;> by_cases hid : other = id <;>
      simp [hn, hid]

/-- Groups and pending entries are not kept under the stream's own key. -/
theorem groups_of_frame {ctx' : Context Bytes}
    (h : ∀ at_, at_ ≠ key → ctx'.snapshots at_ = ctx.snapshots at_) :
    listGroupNames ctx' key = listGroupNames ctx key ∧ isPending ctx' key = isPending ctx key := by
  refine ⟨?_, funext fun name => funext fun id => ?_⟩
  · rw [listGroupNames, netAddsOf, h _ (stream_ne_groupKey key _).symm]
    rfl
  · rw [isPending, netAddsOf, h _ (stream_ne_pelKey key _).symm]
    rfl

theorem listGroupNames_dropReferences :
    listGroupNames (dropReferences key id ctx) key = listGroupNames ctx key := by
  have hfr : (dropReferences key id ctx).snapshots (groupKey key registryName) =
      ctx.snapshots (groupKey key registryName) := by
    refine foldl_frame (fun ctx group => ?_) _ _
    split
    · exact Context.emit_snapshots_of_ne _ (pelKey_ne_groupKey group registryName).symm
    · rfl
  rw [listGroupNames, netAddsOf, hfr]
  rfl

end Pending

/-! ## 2.  Two ways to trim -/

section Trims

variable {opts : TrimOptions} {entries : List StreamID}

theorem valueTrimSelection_eq (hso : entries.Pairwise (· < ·))
    (hone : opts.minID = none ∨ opts.hasMaxLen = false) (canTrim : StreamID → Bool) :
    valueTrimSelection opts canTrim entries = trimSelection opts canTrim entries := by
  have hix : entries.dedup.insertionSort (· ≤ ·) = entries := by
    rw [Nodup.dedup (hso.imp fun h => h.ne)]
    exact (hso.imp le_of_lt).insertionSort_eq
  rw [valueTrimSelection, trimSelection, hix]
  rcases hone with hn | hn
  · have hbelow : opts.isBelow = fun _ => false := by
      funext id
      simp [TrimOptions.isBelow, hn]
    simp [belowMinID, hn, hbelow]
  · simp [hn]

theorem selectMinID_sublist (canTrim : StreamID → Bool) {minID : StreamID} {limit count : Int64} :
    selectMinID canTrim minID limit count entries <+ entries := by
  induction entries generalizing count with
  | nil => exact .refl _
  | cons id entries ih =>
    unfold selectMinID
    split_ifs
    · exact nil_sublist _
    · exact ih.cons_cons id
    · exact ih.cons id

theorem selectMaxLen_sublist {skip : StreamID → Bool} (canTrim : StreamID → Bool)
    {toTrim count : Int64} : selectMaxLen canTrim skip toTrim count entries <+ entries := by
  induction entries generalizing count with
  | nil => exact .refl _
  | cons id entries ih =>
    unfold selectMaxLen
    split_ifs
    · exact nil_sublist _
    · exact ih.cons_cons id
    · exact ih.cons id

theorem mem_of_mem_trimSelection {canTrim : StreamID → Bool} {id : StreamID}
    (h : id ∈ trimSelection opts canTrim entries) : id ∈ entries := by
  rcases mem_append.mp h with h | h
  · unfold belowMinID at h
    split at h
    · cases h
    · exact (selectMinID_sublist ..).subset h
  · split at h
    · exact (selectMaxLen_sublist ..).subset h
    · cases h

end Trims

def entriesOf (snap : Option (Snapshot Bytes)) : List (Bytes × Option Bytes) :=
  match snap with
  | none => []
  | some snap =>
    if snap.collection = .ordered then
      snap.orderedElements.filter fun element => element.1.length = 16
    else []

/-- The entries stay, the last id becomes the greater one of the new and the old one, and the
greatest deleted id the one that is given, if that is greater. -/
def MovesCursor (lastID : StreamID) (maxDeletedID : Option StreamID)
    (before after : Option (Snapshot Bytes)) : Prop :=
  entriesOf after = entriesOf before ∧
    (streamMetadata after).lastID = max lastID (streamMetadata before).lastID ∧
    ∀ id ∈ maxDeletedID, (streamMetadata before).maxDeletedID < id →
      (streamMetadata after).maxDeletedID = id

section Cursor

variable {key : Bytes} {ctx : Context Bytes} {s : Snapshot Bytes} {id lastID : StreamID}
  {entriesAdded : Option Int64} {maxDeletedID : Option StreamID}

theorem mem_snapshotToEntries :
    id ∈ snapshotToEntries (some s) ↔
      ∃ element ∈ entriesOf (some s), element.1 = encodeStreamElementID id := by
  by_cases hk : s.collection = .ordered
  · simp only [snapshotToEntries, entriesOf, Snapshot.orderedIds, hk, if_true, mem_map,
      mem_filter, decide_eq_true_eq]
    constructor
    · rintro ⟨_, ⟨⟨element, hmem, rfl⟩, hlen⟩, rfl⟩
      exact ⟨element, ⟨hmem, hlen⟩, (encode_decode hlen).symm⟩
    · rintro ⟨element, ⟨hmem, hlen⟩, hid⟩
      exact ⟨element.1, ⟨⟨element, hmem, rfl⟩, hlen⟩, by simp [hid]⟩
  · simp [snapshotToEntries, entriesOf, hk]

section

variable (hop : s.op = .insert)

include hop

/-- As an ordered collection a live stream has the same entries and the same metadata. -/
theorem forInsert_ordered :
    entriesOf (some (forInsert (some s) .ordered)) = entriesOf (some s) ∧
      streamMetadata (some (forInsert (some s) .ordered)) = streamMetadata (some s) := by
  by_cases hk : s.collection = .ordered
  · rw [Snapshot.forInsert_of_same hop hk]
    exact ⟨rfl, rfl⟩
  · simp [forInsert, hop, hk, Snapshot.fresh, entriesOf, streamMetadata, maxDeleted, tailID,
      Snapshot.orderedIds]

theorem entriesOf_sentinel :
    entriesOf (some (sentinel s id)) =
      (entriesOf (some s)).filter (·.1 ≠ encodeStreamElementID id) := by
  rw [← (forInsert_ordered hop).1]
  simp [entriesOf, sentinel, Snapshot.forInsert_collection, Bool.and_comm]

/-- Where there is none both ids rise. -/
theorem streamMetadata_sentinel (hf : id ∉ snapshotToEntries (some s)) :
    streamMetadata (some (sentinel s id)) =
      ⟨max (streamMetadata (some s)).lastID id, max (streamMetadata (some s)).maxDeletedID id⟩ := by
  have hb : IsOrdered (forInsert (some s) .ordered) := isOrdered_sentinel s id
  have hstays : (sentinel s id).orderedIds = (forInsert (some s) .ordered).orderedIds := by
    rw [orderedIds_sentinel, filter_eq_self]
    refine fun other ho => decide_eq_true fun hid => hf ?_
    obtain ⟨element, hmem, rfl⟩ := mem_map.mp ho
    rw [mem_snapshotToEntries, ← (forInsert_ordered hop).1]
    exact ⟨element, by simp [entriesOf, hb.2, hmem, hid], hid⟩
  have hl : (streamMetadata (some (sentinel s id))).lastID =
      max (streamMetadata (some (forInsert (some s) .ordered))).lastID id := by
    rw [lastID_eq_max hb, lastID_eq_max (isOrdered_sentinel s id), tailID, hstays, ← tailID,
      sentinel, maxDeleted_cons, max_assoc, max_comm id]
  rw [← (forInsert_ordered hop).2, ← hl]
  simp [streamMetadata, sentinel, hb.2, maxDeleted_cons, max_comm]

theorem entriesOf_sentinels (ids : List StreamID) :
    entriesOf (some (ids.foldl sentinel s)) = (entriesOf (some s)).filter fun element =>
      ∀ id ∈ ids, element.1 ≠ encodeStreamElementID id := by
  induction ids generalizing s with
  | nil => simp
  | cons id ids ih =>
    rw [foldl_cons, ih (isOrdered_sentinel s id).1, entriesOf_sentinel hop]
    simp [Bool.and_comm]

theorem entriesOf_sentinels_iff (ids : List StreamID) :
    entriesOf (some (ids.foldl sentinel s)) = entriesOf (some s) ↔
      ∀ id ∈ ids, id ∉ snapshotToEntries (some s) := by
  simp only [entriesOf_sentinels hop, filter_eq_self, decide_eq_true_eq, mem_snapshotToEntries,
    not_exists, not_and]
  exact ⟨fun h id hid element hmem => h element hmem id hid,
    fun h element hmem id hid => h id hid element hmem⟩

theorem streamMetadata_sentinels (hfe : ∀ id ∈ ids, id ∉ snapshotToEntries (some s)) :
    streamMetadata (some (ids.foldl sentinel s)) =
      ⟨ids.foldl max (streamMetadata (some s)).lastID,
        ids.foldl max (streamMetadata (some s)).maxDeletedID⟩ := by
  induction ids generalizing s with
  | nil => rfl
  | cons id ids ih =>
    have hf := hfe id mem_cons_self
    have hsame : entriesOf (some (sentinel s id)) = entriesOf (some s) :=
      (entriesOf_sentinels_iff hop [id]).mpr (by simpa using hf)
    rw [foldl_cons, ih (isOrdered_sentinel s id).1, streamMetadata_sentinel hop hf]
    · rfl
    · intro other ho
      rw [mem_snapshotToEntries, hsame, ← mem_snapshotToEntries]
      exact hfe other (mem_cons_of_mem _ ho)

end

theorem lastIDOf_cases (s : Snapshot Bytes) :
    lastIDOf (some s) = (streamMetadata (some s)).lastID ∨
      lastIDOf (some s) ∈ snapshotToEntries (some s) := by
  unfold lastIDOf
  simp only
  split
  · rename_i h0
    rw [StreamID.isZero_iff.mp h0, streamLastID]
    cases he : (snapshotToEntries (some s)).getLast? with
    | none => exact .inl rfl
    | some last => exact .inr (mem_of_getLast? he)
  · exact .inl rfl

/-- `XSETID` moves the cursor, and nothing else, exactly where no entry has the id of a sentinel,
and where only one of the two ids gets one: the tombstone of the greater one hides the other. -/
theorem movesCursor_iff
    (hok : (handleXSetId key lastID entriesAdded maxDeletedID ctx).reply = .ok) :
    MovesCursor lastID maxDeletedID (ctx.snapshots key)
        ((handleXSetId key lastID entriesAdded maxDeletedID ctx).ctx.snapshots key) ↔
      (∀ id ∈ sentinels lastID maxDeletedID (ctx.snapshots key),
        id ∉ snapshotToEntries (ctx.snapshots key)) ∧
      if lastIDOf (ctx.snapshots key) < lastID then
        ∀ id ∈ maxDeletedID, (streamMetadata (ctx.snapshots key)).maxDeletedID < id → id = lastID
      else (streamMetadata (ctx.snapshots key)).lastID = lastID := by
  rcases handleXSetId_cases key lastID entriesAdded maxDeletedID ctx with
    ⟨reply, hr, heq⟩ | ⟨s, hs, hop, hl, hgiven, heq⟩
  · rw [heq] at hok
    exact absurd hok hr
  have hle := (lastID_le_lastIDOf (some s)).trans hl
  rw [heq, setLastID_snapshot lastID entriesAdded maxDeletedID hs, hs, MovesCursor,
    entriesOf_sentinels_iff hop]
  refine and_congr_right fun hf => ?_
  rw [streamMetadata_sentinels hop hf, max_eq_left hle]
  unfold sentinels at hf ⊢
  cases maxDeletedID with
  | none => split <;> simp [hle]
  | some id =>
    have hid := hgiven id rfl
    by_cases hgt : (streamMetadata (some s)).maxDeletedID < id
    · have hdel := hgt.le.trans hid
      split
      · simp [hgt, hle, hid, hdel, eq_comm]
      · rename_i hlt
        have heq := le_antisymm hl (not_lt.mp hlt)
        have hmem : id ∉ snapshotToEntries (some s) := hf id (by simp [hgt])
        suffices hmax : max (streamMetadata (some s)).lastID id = lastID ↔
            (streamMetadata (some s)).lastID = lastID by
          simpa [hgt, hgt.le] using hmax
        refine ⟨fun hmax => ?_, fun hsame => hsame ▸ max_eq_left (hsame ▸ hid)⟩
        -- If the tombstone were the last id, then the last entry would have it.
        rcases lastIDOf_cases s with hmetadata | he
        · rw [← hmetadata, heq]
        · rcases max_choice (streamMetadata (some s)).lastID id with hchoice | hchoice
          · rw [← hmax, hchoice]
          · rw [heq, ← hmax, hchoice] at he
            exact absurd he hmem
    · split <;> simp [hgt, hle]

end Cursor

/-- The stream with the entries `1-0` and `5-0`. -/
def twoEntries : Context Bytes :=
  emitStreamInsert (utf8 "k") ⟨5, 0⟩ [] (emitStreamInsert (utf8 "k") ⟨1, 0⟩ [] noKeys)

/-- `XSETID k 7-0` on two entries. -/
theorem movesCursor_ahead :
    (handleXSetId (utf8 "k") ⟨7, 0⟩ none none twoEntries).reply = .ok ∧
      MovesCursor ⟨7, 0⟩ none (twoEntries.snapshots (utf8 "k"))
        ((handleXSetId (utf8 "k") ⟨7, 0⟩ none none twoEntries).ctx.snapshots (utf8 "k")) := by
  have hok : (handleXSetId (utf8 "k") ⟨7, 0⟩ none none twoEntries).reply = .ok := by decide
  exact ⟨hok, (movesCursor_iff hok).mpr (by decide)⟩

/-- `XSETID k 5-0 MAXDELETEDID 1-0` deletes the entry `1-0`. -/
theorem xsetid_deletes_entry :
    (handleXSetId (utf8 "k") ⟨5, 0⟩ none (some ⟨1, 0⟩) twoEntries).reply = .ok ∧
      snapshotToEntries (twoEntries.snapshots (utf8 "k")) = [⟨1, 0⟩, ⟨5, 0⟩] ∧
      snapshotToEntries ((handleXSetId (utf8 "k") ⟨5, 0⟩ none (some ⟨1, 0⟩) twoEntries).ctx.snapshots
        (utf8 "k")) = [⟨5, 0⟩] ∧
      ¬ MovesCursor ⟨5, 0⟩ (some ⟨1, 0⟩) (twoEntries.snapshots (utf8 "k"))
        ((handleXSetId (utf8 "k") ⟨5, 0⟩ none (some ⟨1, 0⟩) twoEntries).ctx.snapshots
          (utf8 "k")) := by
  refine ⟨by decide, by decide, by decide, fun h => ?_⟩
  exact absurd h.1 (by decide)

end Swytch.Redis.StreamRemovals
