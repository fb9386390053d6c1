import Swytch.Sql.Statements

/-!
# Write sets

A body reads, checks and emits in turns, but what it emits is a function of what it has
read first.  For every body this module gives the list of effects it emits when it
succeeds and the condition under which it does: the schema loads, no unique entry it
inserts is held by another row, and no key column is `NULL`.  A body that fails has
emitted part of them.
-/

namespace Swytch.Sql

open Ctx
open List
open KeyedStore TxM
open TableSchema (valueAt)

/-! ## Entry operations -/

/-- One change of an index entry of a row. -/
inductive EntryOp where
  | remove (indexID encoded : Bytes)
  | insert (idx : IndexSchema) (encoded : Bytes)

/-- Some row other than `pk` has an entry at the key. -/
def holdsOther (s : Store) (key pk : Bytes) : Bool :=
  match s[key]? with
  | none => false
  | some snap => snap.keys.any (· ≠ pk)

variable {α ι : Type} {pk : Bytes} {s : Store} {ops : List EntryOp} {c : Ctx}
    {indexes : List IndexSchema} {op : EntryOp} {tbl : TableSchema} {cols : List Value} {v : VTable}

variable {key : Bytes} {g : ι → TxM Unit} {l : List ι} {vals : List Value}

theorem holdsOther_iff :
    holdsOther s key pk = true ↔ ∃ pk', pk' ≠ pk ∧ (cell s key pk').isSome = true := by
  unfold holdsOther
  cases h : s[key]? with
  | none => simp [cell, h]
  | some snap =>
    simp only [cell, h, Option.bind_some, any_eq_true, decide_eq_true_eq,
      Std.ExtTreeMap.mem_keys, Std.ExtTreeMap.isSome_getElem?_iff_mem]
    constructor
    · rintro ⟨pk', hmem, hne⟩
      exact ⟨pk', hne, hmem⟩
    · rintro ⟨pk', hne, hmem⟩
      exact ⟨pk', hmem, hne⟩

theorem holdsOther_applyAll {ws : List Write} (h : ∀ w ∈ ws, w.field = pk) :
    holdsOther (applyAll ws s) key pk = holdsOther s key pk := by
  have hc (pk' : Bytes) (hne : pk' ≠ pk) :
      cell (applyAll ws s) key pk' = cell s key pk' := by
    have hn : assigned ws key pk' = none :=
      assigned_eq_none fun w hw _ hf => hne (hf ▸ h w hw)
    rw [cell_applyAll, hn]
    rfl
  rw [Bool.eq_iff_iff, holdsOther_iff, holdsOther_iff]
  constructor
  · rintro ⟨pk', hne, hso⟩
    exact ⟨pk', hne, hc pk' hne ▸ hso⟩
  · rintro ⟨pk', hne, hso⟩
    exact ⟨pk', hne, (hc pk' hne).symm ▸ hso⟩

namespace EntryOp

/-- The body of one operation. -/
def run (pk : Bytes) : EntryOp → TxM Unit
  | remove indexID encoded => emitIndexEntryRemove indexID encoded pk
  | insert idx encoded => emitIndexEntry idx encoded pk

/-- The data effects of one operation. -/
def write (pk : Bytes) : EntryOp → Write
  | remove indexID encoded => .drop (indexKey indexID encoded) pk
  | insert idx encoded => .put (indexKey idx.indexID encoded) pk (.raw [1])

def effects (pk : Bytes) (op : EntryOp) : List Effect :=
  match op with
  | remove _ _ => [.data (op.write pk)]
  | insert idx encoded => [.noop (indexKey idx.indexID encoded), .data (op.write pk)]

/-- An insertion into a unique index whose entry another row holds. -/
def conflicts (s : Store) (pk : Bytes) : EntryOp → Bool
  | remove _ _ => false
  | insert idx encoded => idx.unique && holdsOther s (indexKey idx.indexID encoded) pk

@[simp] theorem field_write (pk : Bytes) (op : EntryOp) : (op.write pk).field = pk := by
  cases op <;> rfl

@[simp] theorem dataWrites_effects (pk : Bytes) (op : EntryOp) :
    dataWrites (op.effects pk) = [op.write pk] := by
  cases op <;> rfl

@[simp] theorem dataWrites_flatMap_effects (pk : Bytes) (ops : List EntryOp) :
    dataWrites (ops.flatMap (effects pk)) = ops.map (write pk) := by
  induction ops with
  | nil => rfl
  | cons op ops ih => simp [ih]

theorem run_checkUnique {indexID encoded : Bytes} :
    checkUniqueBeforeInsert indexID encoded pk c =
      if holdsOther c.view (indexKey indexID encoded) pk then .error .uniqueViolation c
      else .ok () c := by
  unfold checkUniqueBeforeInsert holdsOther
  rw [run_getSnapshot_bind]
  cases h : c.view[indexKey indexID encoded]? with
  | none => rfl
  | some snap =>
    simp only
    split <;> rfl

/-- An operation emits its effects, or fails on a conflict after its pin. -/
theorem run_eq (pk : Bytes) (op : EntryOp) (c : Ctx) :
    op.run pk c = if op.conflicts c.view pk then
        .error .uniqueViolation (c.emitAll [.noop (op.write pk).key])
      else .ok () (c.emitAll (op.effects pk)) := by
  cases op with
  | remove indexID encoded => rfl
  | insert idx encoded =>
    have hv : (c.emitAll [.noop (indexKey idx.indexID encoded)]).view = c.view :=
      c.view_emitAll _
    show emitIndexEntry idx encoded pk c = _
    unfold emitIndexEntry emitIndexEntryInsert
    cases hu : idx.unique with
    | false => simp [effects, write, conflicts, hu]
    | true =>
      simp only [run_getSnapshot_bind, run_emit_bind, if_true]
      rw [run_bind, run_checkUnique, hv, conflicts, hu, Bool.true_and]
      cases holdsOther c.view (indexKey idx.indexID encoded) pk with
      | true => rfl
      | false => simp [effects, write]

theorem conflicts_emitAll_effects {op' : EntryOp} :
    op'.conflicts (c.emitAll (op.effects pk)).view pk = op'.conflicts c.view pk := by
  cases op' with
  | remove indexID encoded => rfl
  | insert idx encoded =>
    have hf : ∀ w ∈ dataWrites (op.effects pk), w.field = pk := by
      simp
    simp only [conflicts]
    rw [view_emitAll, holdsOther_applyAll hf]

/-- Operations of one row emit all their effects when none of them conflicts with the
state before the first. -/
theorem run_forM_eq_ok (h : ∀ op ∈ ops, op.conflicts c.view pk = false) :
    (forM ops (run pk)) c = .ok () (c.emitAll (ops.flatMap (effects pk))) := by
  induction ops generalizing c with
  | nil => simp
  | cons op ops ih =>
    have hop : op.run pk c = .ok () (c.emitAll (op.effects pk)) := by
      rw [run_eq, h op mem_cons_self]
      rfl
    have hr : ∀ op' ∈ ops,
        op'.conflicts (c.emitAll (op.effects pk)).view pk = false := by
      intro op' hop'
      rw [conflicts_emitAll_effects]
      exact h op' (mem_cons_of_mem _ hop')
    rw [forM_cons, run_bind_ok hop, ih hr, emitAll_emitAll]
    rfl

/-- If one of them conflicts, they fail. -/
theorem run_forM_eq_error (h : ∃ op ∈ ops, op.conflicts c.view pk = true) :
    ∃ es, (forM ops (run pk)) c = .error .uniqueViolation (c.emitAll es) := by
  induction ops generalizing c with
  | nil => simp at h
  | cons op ops ih =>
    have hrun := run_eq pk op c
    cases hop : op.conflicts c.view pk with
    | true =>
      rw [hop] at hrun
      exact ⟨_, by rw [forM_cons, run_bind_error hrun]⟩
    | false =>
      rw [hop] at hrun
      obtain ⟨op', hmem, hop'⟩ := h
      have hr : op' ∈ ops := by
        rcases mem_cons.mp hmem with rfl | hmem
        · rw [hop] at hop'
          cases hop'
        · exact hmem
      obtain ⟨es, hes⟩ := ih (c := c.emitAll (op.effects pk))
        ⟨op', hr, by rwa [conflicts_emitAll_effects]⟩
      refine ⟨op.effects pk ++ es, ?_⟩
      rw [forM_cons, run_bind_ok hrun, hes, emitAll_emitAll]

/-- If one of them conflicts or what comes after them fails, the whole fails. -/
theorem run_forM_bind_eq_error {g : TxM α}
    (h : (∀ op ∈ ops, op.conflicts c.view pk = false) → ∀ c', ∃ e es,
      g c' = .error e (c'.emitAll es)) :
    ∃ e es, (do forM ops (run pk); g) c = .error e (c.emitAll es) := by
  by_cases hops : ∀ op ∈ ops, op.conflicts c.view pk = false
  · obtain ⟨e, es, hes⟩ := h hops (c.emitAll (ops.flatMap (effects pk)))
    rw [run_bind_ok (run_forM_eq_ok hops), hes, emitAll_emitAll]
    exact ⟨_, _, rfl⟩
  · obtain ⟨op, hmem, hop⟩ : ∃ op ∈ ops, op.conflicts c.view pk = true := by
      simpa using hops
    obtain ⟨es, hes⟩ := run_forM_eq_error ⟨op, hmem, hop⟩
    rw [run_bind_error hes]
    exact ⟨_, _, rfl⟩

end EntryOp

open EntryOp (run_forM_eq_ok effects conflicts run_forM_eq_error run_forM_bind_eq_error)

/-! ## The three loops over the indexes -/

/-- A loop whose turns are themselves loops of operations. -/
theorem forM_flatMap_ops {f : ι → List EntryOp} (pk : Bytes)
    (h : ∀ i ∈ l, g i = forM (f i) (EntryOp.run pk)) :
    forM l g = forM (l.flatMap f) (EntryOp.run pk) := by
  induction l with
  | nil => rfl
  | cons i l ih =>
    rw [forM_cons, flatMap_cons, forM_append, h i (mem_cons_self ..),
      ih fun j hj => h j (mem_cons_of_mem _ hj)]

/-- The operations that move a row from an old to a new tuple in every index. -/
def entryOps (indexes : List IndexSchema) (old new : IndexSchema → Option Bytes) :
    List EntryOp :=
  indexes.flatMap fun idx =>
    ((old idx).map (EntryOp.remove idx.indexID)).toList ++
      ((new idx).map (EntryOp.insert idx)).toList

theorem mem_entryOps {old new : IndexSchema → Option Bytes} :
    op ∈ entryOps indexes old new ↔ ∃ idx ∈ indexes,
      (∃ e, old idx = some e ∧ op = .remove idx.indexID e) ∨
        ∃ e, new idx = some e ∧ op = .insert idx e := by
  simp only [entryOps, mem_flatMap, mem_append, Option.mem_toList,
    Option.map_eq_some_iff]
  simp only [eq_comm]

/-- Only insertions into unique indexes can conflict. -/
theorem conflicts_entryOps_iff {old new : IndexSchema → Option Bytes} :
    (∀ op ∈ entryOps indexes old new, op.conflicts s pk = false) ↔
      ∀ idx ∈ indexes, idx.unique = true → ∀ e, new idx = some e →
        holdsOther s (indexKey idx.indexID e) pk = false := by
  constructor
  · intro h idx hidx hu e he
    have hop := h _ (mem_entryOps.mpr ⟨idx, hidx, .inr ⟨e, he, rfl⟩⟩)
    simpa [conflicts, hu] using hop
  · intro h op hop
    obtain ⟨idx, hidx, ⟨e, -, rfl⟩ | ⟨e, he, rfl⟩⟩ := mem_entryOps.mp hop
    · rfl
    · cases hu : idx.unique with
      | false => simp [conflicts, hu]
      | true => simp [conflicts, h idx hidx hu e he]

section Loops

variable [Host]

/-- The operations of `emitIndexInserts`. -/
def insertOps (tbl : TableSchema) (vals : List Value) : List EntryOp :=
  entryOps tbl.indexes (fun _ => none) fun idx => indexTupleForRow idx tbl vals

/-- The operations of `emitIndexRemoves`. -/
def removeOps (tbl : TableSchema) (vals : List Value) : List EntryOp :=
  entryOps tbl.indexes (fun idx => indexTupleForRow idx tbl vals) fun _ => none

/-- The ordinals of an index that a same-key update has to look at: none for an index with
a missing column or without a supplied one. -/
def deltaOrds (tbl : TableSchema) (newVals : List Value) (idx : IndexSchema) :
    Option (List ℕ) :=
  ((idx.columnIndexes tbl).mapM id).filter fun ords =>
    !ords.all fun ord => (TableSchema.valueAt newVals ord).noChange

/-- The tuple `emitIndexDelta` removes. -/
def deltaOld (tbl : TableSchema) (oldSnap : Option Fields) (newVals : List Value)
    (idx : IndexSchema) : Option Bytes :=
  let affs := idx.columnAffinities tbl
  (deltaOrds tbl newVals idx).bind fun ords =>
    let old := oldTuple tbl oldSnap (ords.zip affs)
    if old.2 then some (encodeIndexKeyTuple old.1 affs) else none

/-- The tuple `emitIndexDelta` inserts. -/
def deltaNew (tbl : TableSchema) (oldSnap : Option Fields) (newVals : List Value)
    (idx : IndexSchema) : Option Bytes :=
  let affs := idx.columnAffinities tbl
  (deltaOrds tbl newVals idx).bind fun ords =>
    (newTuple ords (oldTuple tbl oldSnap (ords.zip affs)).1 newVals).map fun new =>
      encodeIndexKeyTuple new affs

/-- The operations of `emitIndexDeltasSamePK`. -/
def deltaOps (tbl : TableSchema) (oldSnap : Option Fields) (newVals : List Value) :
    List EntryOp :=
  entryOps tbl.indexes (deltaOld tbl oldSnap newVals) (deltaNew tbl oldSnap newVals)

theorem emitIndexInserts_eq (tbl : TableSchema) (pk : Bytes) (vals : List Value) :
    emitIndexInserts tbl pk vals = forM (insertOps tbl vals) (EntryOp.run pk) := by
  refine forM_flatMap_ops pk fun idx _ => ?_
  dsimp only
  cases indexTupleForRow idx tbl vals with
  | none => rfl
  | some encoded => simp [EntryOp.run]

theorem emitIndexRemoves_eq :
    emitIndexRemoves tbl pk vals = forM (removeOps tbl vals) (EntryOp.run pk) := by
  refine forM_flatMap_ops pk fun idx _ => ?_
  dsimp only
  cases indexTupleForRow idx tbl vals with
  | none => rfl
  | some encoded => simp [EntryOp.run]

theorem emitIndexDeltasSamePK_eq (tbl : TableSchema) (pk : Bytes) (oldSnap : Option Fields)
    (newVals : List Value) :
    emitIndexDeltasSamePK tbl pk oldSnap newVals =
      forM (deltaOps tbl oldSnap newVals) (EntryOp.run pk) := by
  refine forM_flatMap_ops pk fun idx _ => ?_
  unfold deltaOld deltaNew deltaOrds
  cases (idx.columnIndexes tbl).mapM id with
  | none => rfl
  | some ords =>
    unfold emitIndexDelta
    by_cases hall : (ords.all fun ord => (valueAt newVals ord).noChange) = true
    · simp only [hall, Option.filter, Bool.not_true]
      rfl
    · simp only [hall, Option.filter, Bool.not_false, if_true, Option.bind_some]
      generalize oldTuple tbl oldSnap (ords.zip (idx.columnAffinities tbl)) = old
      obtain ⟨tuple, present⟩ := old
      cases present <;> cases newTuple ords tuple newVals <;> simp [EntryOp.run]

theorem conflicts_of_mem_removeOps (h : op ∈ removeOps tbl vals) : op.conflicts s pk = false :=
  conflicts_entryOps_iff.mpr (fun _ _ _ _ he => absurd he (by simp)) op h

end Loops

/-! ## The fields of a row -/

/-- The presence fields of the key columns. -/
def presenceWrites (v : VTable) (key : Bytes) (cols : List Value) : List Write :=
  v.schema.pkColumns.filterMap fun ord =>
    (setEncodedValue (TableSchema.valueAt cols ord)).map fun p =>
      .put key (utf8 (v.schema.nameAt ord)) p

/-- The fields of the other columns. -/
def columnWrites (tbl : TableSchema) (key : Bytes) (vals : List Value) : List Write :=
  tbl.enumColumns.filterMap fun (col, i) =>
    if tbl.isPKColumn i then none
    else (setEncodedValue (TableSchema.valueAt vals i)).map fun p => .put key (utf8 col.name) p

/-- The fields a same-key update sets and removes. -/
def updateWrites (v : VTable) (pk : Bytes) (cols : List Value) : List Write :=
  let key := rowKey v.schema.tableID pk
  v.schema.enumColumns.filterMap fun (col, i) =>
    let val := TableSchema.valueAt cols i
    if v.schema.isPKColumn i || val.noChange then none
    else match setEncodedValue val with
      | none => some (.drop key (utf8 col.name))
      | some p => some (.put key (utf8 col.name) p)

/-- The fields `emitRowDelete` removes. -/
def deleteWrites (v : VTable) (pk : Bytes) : List Write :=
  let key := rowKey v.schema.tableID pk
  v.schema.columns.map (fun col => .drop key (utf8 col.name)) ++
    if v.schema.syntheticPK then [.drop key (utf8 rowFieldSyntheticRowID)] else []

/-- No key column of the tuple is `NULL`. -/
def pkPresent (v : VTable) (cols : List Value) : Bool :=
  v.schema.pkColumns.all fun ord => !(TableSchema.valueAt cols ord).isNull

/-- A loop that emits at most one data effect a turn. -/
theorem run_forM_filterMap {f : ι → Option Write} (c : Ctx)
    (h : ∀ i c, g i c = .ok () (c.emitAll ((f i).toList.map .data))) :
    (forM l g) c = .ok () (c.emitAll ((l.filterMap f).map .data)) := by
  induction l generalizing c with
  | nil => simp
  | cons i l ih =>
    rw [forM_cons, run_bind_ok (h i c), ih]
    cases hf : f i <;> simp [hf]

theorem run_emitColumns :
    emitColumns tbl key vals c = .ok () (c.emitAll ((columnWrites tbl key vals).map .data)) := by
  refine run_forM_filterMap c fun ⟨col, i⟩ c => ?_
  dsimp only
  split
  · simp
  · cases setEncodedValue (valueAt vals i) <;> simp

theorem run_emitSamePKUpdate (v : VTable) (pk : Bytes) (cols : List Value) (c : Ctx) :
    emitSamePKUpdate v pk cols c = .ok () (c.emitAll ((updateWrites v pk cols).map .data)) := by
  refine run_forM_filterMap c fun ⟨col, i⟩ c => ?_
  dsimp only
  cases v.schema.isPKColumn i
  · cases (valueAt cols i).noChange
    · cases setEncodedValue (valueAt cols i) <;> simp [emitKeyedRemove]
    · simp
  · simp

theorem run_emitRowDelete :
    emitRowDelete v pk c = .ok () (c.emitAll ((deleteWrites v pk).map .data)) := by
  unfold emitRowDelete deleteWrites emitKeyedRemove
  rw [run_bind_ok (run_forM_emit _ _ c)]
  cases v.schema.syntheticPK <;> simp [Function.comp_def]

/-- The key columns are all present: their fields are emitted. -/
theorem run_emitPKPresence_ok (h : pkPresent v cols = true) :
    emitPKPresence v key cols c =
      .ok () (c.emitAll ((presenceWrites v key cols).map .data)) := by
  unfold emitPKPresence presenceWrites
  unfold pkPresent at h
  generalize v.schema.pkColumns = ords at h ⊢
  induction ords generalizing c with
  | nil => simp
  | cons ord ords ih =>
    obtain ⟨hord, hords⟩ : (valueAt cols ord).isNull = false ∧
        (ords.all fun ord => !(valueAt cols ord).isNull) = true := by
      simpa using h
    cases hp : setEncodedValue (valueAt cols ord) with
    | none =>
      cases hval : valueAt cols ord <;> simp_all [setEncodedValue]
    | some p =>
      rw [forM_cons]
      simp only [emitPresenceField, hp, run_emit_bind]
      simp only [emitPresenceField] at ih
      rw [ih hords]
      simp [hp]

/-- A `NULL` key column is an error. -/
theorem run_emitPKPresence_error (h : pkPresent v cols = false) (key : Bytes) (c : Ctx) :
    ∃ column es, emitPKPresence v key cols c =
      .error (.nullPrimaryKey v.name column) (c.emitAll es) := by
  unfold emitPKPresence
  unfold pkPresent at h
  generalize v.schema.pkColumns = ords at h ⊢
  induction ords generalizing c with
  | nil => simp at h
  | cons ord ords ih =>
    cases hp : setEncodedValue (valueAt cols ord) with
    | none =>
      refine ⟨v.schema.nameAt ord, [], ?_⟩
      simp [emitPresenceField, hp]
    | some p =>
      have hords : (ords.all fun ord => !(valueAt cols ord).isNull) = false := by
        cases hval : valueAt cols ord <;> simp_all [setEncodedValue]
      obtain ⟨column, es, hes⟩ :=
        ih (c.emitAll [.data (.put key (utf8 (v.schema.nameAt ord)) p)]) hords
      refine ⟨column, .data (.put key (utf8 (v.schema.nameAt ord)) p) :: es, ?_⟩
      rw [forM_cons]
      simp only [emitPresenceField, hp, run_emit_bind]
      simp only [emitPresenceField] at hes
      rw [hes, emitAll_emitAll]
      rfl

/-! ## The bodies -/

theorem run_pinLiveSchema_bind (h : storedSchema c.view v.name = .ok tbl)
    (f : TableSchema → TxM α) :
    (pinLiveSchema v >>= f) c = f tbl (c.emitAll [.noop (schemaKey v.name)]) := by
  unfold pinLiveSchema loadLiveSchema
  rw [bind_assoc, run_bind, run_loadSchema, h]
  rfl

theorem run_pinLiveSchema_bind_error {e : SqlError} (h : storedSchema c.view v.name = .error e)
    (f : TableSchema → TxM α) : (pinLiveSchema v >>= f) c = .error e c := by
  unfold pinLiveSchema loadLiveSchema
  rw [bind_assoc, run_bind, run_loadSchema, h]

@[simp] theorem run_pinRow_bind (v : VTable) (pk : Bytes) (f : Option Fields → TxM α) (c : Ctx) :
    (pinRow v pk >>= f) c =
      f c.view[rowKey v.schema.tableID pk]? (c.emitAll [.noop (rowKey v.schema.tableID pk)]) :=
  rfl

@[simp] theorem view_emitAll_noop : (c.emitAll [.noop key]).view = c.view :=
  c.view_emitAll _

@[simp] theorem view_emitAll_noop_cons (c : Ctx) (key : Bytes) (es : List Effect) :
    (c.emitAll (.noop key :: es)).view = (c.emitAll es).view := by
  rw [view_emitAll, view_emitAll, dataWrites_noop]

theorem view_emitAll_data (c : Ctx) (ws : List Write) :
    (c.emitAll (ws.map .data)).view = applyAll ws c.view := by
  rw [view_emitAll, dataWrites_map_data]

/-- The presence fields of a new row. -/
def rowPresence (v : VTable) (rowid : Int64) (key : Bytes) (cols : List Value) : List Write :=
  if v.schema.syntheticPK then [.put key (utf8 rowFieldSyntheticRowID) (.intVal rowid)]
  else presenceWrites v key cols

/-- What `insertBody` does once the entries are in. -/
theorem run_insertRow (hpk : v.schema.syntheticPK = true ∨ pkPresent v cols = true) (rowid : Int64)
    (tbl : TableSchema) (key : Bytes) (rw : RowWrite) (c : Ctx) :
    (do let _ ← getSnapshot key
        if v.schema.syntheticPK then emitSyntheticPKPresence v key rowid
        else emitPKPresence v key cols
        emitColumns tbl key cols
        emitRowWriteEffect v rw : TxM Unit) c =
      .ok () (c.emitAll ((rowPresence v rowid key cols ++ columnWrites tbl key cols).map .data ++
        [.rowWrite (schemaKey v.name) rw])) := by
  rw [run_getSnapshot_bind]
  cases hsyn : v.schema.syntheticPK with
  | true =>
    simp only [if_true, emitSyntheticPKPresence, emitPresenceField, setEncodedValue,
      run_emit_bind]
    rw [run_bind_ok (run_emitColumns)]
    simp [emitRowWriteEffect, rowPresence, hsyn]
  | false =>
    have hpr : pkPresent v cols = true := by simpa [hsyn] using hpk
    simp only [Bool.false_eq_true, if_false]
    rw [run_bind_ok (run_emitPKPresence_ok hpr), run_bind_ok (run_emitColumns)]
    simp [emitRowWriteEffect, rowPresence, hsyn]

/-- What `pkChangeBody` does once the entries are in. -/
theorem run_pkChangeRow (hpk : pkPresent v cols = true) (tbl : TableSchema) (key : Bytes)
    (old new : RowWrite) (c : Ctx) :
    (do emitPKPresence v key cols
        emitColumns tbl key cols
        emitRowWriteEffect v old
        emitRowWriteEffect v new : TxM Unit) c =
      .ok () (c.emitAll ((presenceWrites v key cols ++ columnWrites tbl key cols).map .data ++
        [.rowWrite (schemaKey v.name) old, .rowWrite (schemaKey v.name) new])) := by
  rw [run_bind_ok (run_emitPKPresence_ok hpk), run_bind_ok (run_emitColumns)]
  simp [emitRowWriteEffect]

section Bodies

variable [Host]

/-- What `insertBody` emits. -/
def insertEffects (v : VTable) (tbl : TableSchema) (rowid : Int64) (pk : Bytes)
    (cols : List Value) : List Effect :=
  let key := rowKey v.schema.tableID pk
  .noop (schemaKey v.name) :: (insertOps tbl cols).flatMap (EntryOp.effects pk) ++
    (rowPresence v rowid key cols ++ columnWrites tbl key cols).map .data ++
    [.rowWrite (schemaKey v.name) (rowWriteForTuple v .insert pk cols)]

/-- When `insertBody` succeeds. -/
def InsertAccepts (s : Store) (v : VTable) (tbl : TableSchema) (pk : Bytes)
    (cols : List Value) : Prop :=
  (∀ op ∈ insertOps tbl cols, op.conflicts s pk = false) ∧
    (v.schema.syntheticPK = true ∨ pkPresent v cols = true)

section

variable (hs : storedSchema c.view v.name = .ok tbl)

include hs

theorem run_insertBody_ok (h : InsertAccepts c.view v tbl pk cols) (rowid : Int64) :
    insertBody v rowid pk cols c = .ok () (c.emitAll (insertEffects v tbl rowid pk cols)) := by
  obtain ⟨hops, hpk⟩ := h
  unfold insertBody
  rw [run_pinLiveSchema_bind hs, emitIndexInserts_eq,
    run_bind_ok (run_forM_eq_ok (by simpa using hops)), run_insertRow hpk]
  simp [insertEffects]

/-- A body that loads its schema and is not accepted fails after the pin on it. -/
theorem run_insertBody_error (h : ¬ InsertAccepts c.view v tbl pk cols) (rowid : Int64) :
    ∃ e es, insertBody v rowid pk cols c =
      .error e (c.emitAll (.noop (schemaKey v.name) :: es)) := by
  unfold insertBody
  rw [run_pinLiveSchema_bind hs, emitIndexInserts_eq]
  refine (run_forM_bind_eq_error fun hops c' => ?_).imp fun e h => h.imp fun es hes =>
    hes.trans (by simp)
  obtain ⟨hsyn, hpk⟩ : v.schema.syntheticPK = false ∧ pkPresent v cols = false := by
    by_contra hcon
    refine h ⟨by simpa using hops, ?_⟩
    cases h1 : v.schema.syntheticPK <;> cases h2 : pkPresent v cols <;> simp_all
  obtain ⟨column, es, hes⟩ := run_emitPKPresence_error hpk (rowKey v.schema.tableID pk) c'
  rw [run_getSnapshot_bind, hsyn]
  exact ⟨_, es, run_bind_error hes⟩

/-- What `samePKBody` emits. -/
def samePKEffects (v : VTable) (tbl : TableSchema) (pk : Bytes) (oldSnap : Option Fields)
    (cols : List Value) : List Effect :=
  .noop (schemaKey v.name) :: .noop (rowKey v.schema.tableID pk) ::
    (deltaOps tbl oldSnap cols).flatMap (EntryOp.effects pk) ++
    (updateWrites v pk cols).map .data ++
    [.rowWrite (schemaKey v.name)
      (rowWriteForTuple v .update pk (mergeSamePKRow tbl pk oldSnap cols))]

/-- When `samePKBody` succeeds. -/
def SamePKAccepts (s : Store) (v : VTable) (tbl : TableSchema) (pk : Bytes)
    (cols : List Value) : Prop :=
  ∀ op ∈ deltaOps tbl s[rowKey v.schema.tableID pk]? cols, op.conflicts s pk = false

theorem run_samePKBody_ok (h : SamePKAccepts c.view v tbl pk cols) :
    samePKBody v pk cols c =
      .ok () (c.emitAll (samePKEffects v tbl pk c.view[rowKey v.schema.tableID pk]? cols)) := by
  unfold samePKBody
  rw [run_pinLiveSchema_bind hs, run_pinRow_bind, emitIndexDeltasSamePK_eq,
    run_bind_ok (run_forM_eq_ok (by simpa [SamePKAccepts] using h)),
    run_bind_ok (run_emitSamePKUpdate _ _ _ _)]
  simp [emitRowWriteEffect, samePKEffects]

theorem run_samePKBody_error (h : ¬ SamePKAccepts c.view v tbl pk cols) :
    ∃ e es, samePKBody v pk cols c =
      .error e (c.emitAll (.noop (schemaKey v.name) :: es)) := by
  obtain ⟨op, hmem, hop⟩ : ∃ op ∈ deltaOps tbl c.view[rowKey v.schema.tableID pk]? cols,
      op.conflicts c.view pk = true := by
    simpa [SamePKAccepts] using h
  unfold samePKBody
  rw [run_pinLiveSchema_bind hs, run_pinRow_bind, emitIndexDeltasSamePK_eq, view_emitAll_noop]
  obtain ⟨es, hes⟩ := @run_forM_eq_error pk _
    ((c.emitAll [.noop (schemaKey v.name)]).emitAll [.noop (rowKey v.schema.tableID pk)])
    ⟨op, hmem, by simpa using hop⟩
  refine ⟨.uniqueViolation, .noop (rowKey v.schema.tableID pk) :: es, ?_⟩
  rw [run_bind_error hes]
  simp

/-- The operations that take the old row out of the indexes. -/
def oldRowOps (tbl : TableSchema) (pk : Bytes) (oldSnap : Option Fields) : List EntryOp :=
  if oldSnap.isSome then removeOps tbl (oldRowVals tbl pk oldSnap) else []

omit hs in
theorem run_oldRowOps {oldSnap : Option Fields} :
    emitOldRowRemoves tbl pk oldSnap c =
      .ok () (c.emitAll ((oldRowOps tbl pk oldSnap).flatMap (effects pk))) := by
  cases oldSnap with
  | none => simp [emitOldRowRemoves, oldRowOps]
  | some snap =>
    simp only [emitOldRowRemoves, Option.isSome_some, if_true, oldRowOps]
    rw [emitIndexRemoves_eq]
    exact run_forM_eq_ok fun op hop => conflicts_of_mem_removeOps hop

/-- What `deleteBody` emits. -/
def deleteEffects (v : VTable) (tbl : TableSchema) (pk : Bytes) (oldSnap : Option Fields) :
    List Effect :=
  .noop (schemaKey v.name) :: .noop (rowKey v.schema.tableID pk) ::
    (oldRowOps tbl pk oldSnap).flatMap (EntryOp.effects pk) ++
    (deleteWrites v pk).map .data ++
    [.rowWrite (schemaKey v.name) (rowWriteForTuple v .delete pk (oldRowVals tbl pk oldSnap))]

theorem run_deleteBody :
    deleteBody v pk c =
      .ok () (c.emitAll (deleteEffects v tbl pk c.view[rowKey v.schema.tableID pk]?)) := by
  unfold deleteBody
  rw [run_pinLiveSchema_bind hs, run_pinRow_bind, run_bind_ok (run_oldRowOps),
    run_bind_ok (run_emitRowDelete)]
  simp [emitRowWriteEffect, deleteEffects]

end

/-- The data effects that take the old row of a key change away. -/
def pkChangeRemoves (v : VTable) (tbl : TableSchema) (oldPK : Bytes) (oldSnap : Option Fields) :
    List Write :=
  (oldRowOps tbl oldPK oldSnap).map (EntryOp.write oldPK) ++ deleteWrites v oldPK

/-- What `emitPKChange` emits. -/
def pkChangeRowEffects (v : VTable) (tbl : TableSchema) (oldPK newPK : Bytes)
    (oldSnap : Option Fields) (cols : List Value) : List Effect :=
  let newVals := pkChangeVals tbl oldSnap cols
  let newKey := rowKey v.schema.tableID newPK
  .noop (schemaKey v.name) :: .noop (rowKey v.schema.tableID oldPK) ::
    (oldRowOps tbl oldPK oldSnap).flatMap (EntryOp.effects oldPK) ++
    (deleteWrites v oldPK).map .data ++
    (insertOps tbl newVals).flatMap (EntryOp.effects newPK) ++
    (presenceWrites v newKey newVals ++ columnWrites tbl newKey newVals).map .data

/-- What `pkChangeBody` emits. -/
def pkChangeEffects (v : VTable) (tbl : TableSchema) (oldPK newPK : Bytes)
    (oldSnap : Option Fields) (cols : List Value) : List Effect :=
  pkChangeRowEffects v tbl oldPK newPK oldSnap cols ++
    [.rowWrite (schemaKey v.name)
      (rowWriteForTuple v .delete oldPK (oldRowVals tbl oldPK oldSnap)),
     .rowWrite (schemaKey v.name)
      (rowWriteForTuple v .insert newPK (pkChangeVals tbl oldSnap cols))]

/-- When `pkChangeBody` succeeds: the new entries are checked with the old row gone. -/
def PKChangeAccepts (s : Store) (v : VTable) (tbl : TableSchema) (oldPK newPK : Bytes)
    (cols : List Value) : Prop :=
  let oldSnap := s[rowKey v.schema.tableID oldPK]?
  let newVals := pkChangeVals tbl oldSnap cols
  (∀ op ∈ insertOps tbl newVals,
    op.conflicts (applyAll (pkChangeRemoves v tbl oldPK oldSnap) s) newPK = false) ∧
    pkPresent v newVals = true

section PKChange

variable {oldPK newPK : Bytes}

/-- The context of a key change once the old row is gone. -/
def afterRemoves (v : VTable) (tbl : TableSchema) (oldPK : Bytes) (c : Ctx) : Ctx :=
  c.emitAll (.noop (schemaKey v.name) :: .noop (rowKey v.schema.tableID oldPK) ::
    (oldRowOps tbl oldPK c.view[rowKey v.schema.tableID oldPK]?).flatMap
      (EntryOp.effects oldPK) ++ (deleteWrites v oldPK).map .data)

theorem view_afterRemoves :
    (afterRemoves v tbl oldPK c).view =
      applyAll (pkChangeRemoves v tbl oldPK c.view[rowKey v.schema.tableID oldPK]?) c.view := by
  simp [afterRemoves, view_emitAll, pkChangeRemoves]

theorem run_emitPKChange (hs : storedSchema c.view v.name = .ok tbl) :
    emitPKChange v oldPK newPK cols c =
      (let oldSnap := c.view[rowKey v.schema.tableID oldPK]?
       let newVals := pkChangeVals tbl oldSnap cols
       let newKey := rowKey v.schema.tableID newPK
       (do emitIndexInserts tbl newPK newVals
           emitPKPresence v newKey newVals
           emitColumns tbl newKey newVals
           return (newVals, oldRowVals tbl oldPK oldSnap) : TxM (List Value × List Value))
        (afterRemoves v tbl oldPK c)) := by
  unfold emitPKChange
  rw [run_pinLiveSchema_bind hs, run_pinRow_bind, view_emitAll_noop,
    run_bind_ok (run_oldRowOps), run_bind_ok (run_emitRowDelete)]
  simp only [emitAll_emitAll]
  rfl

theorem run_pkChangeBody_ok (hs : storedSchema c.view v.name = .ok tbl)
    (h : PKChangeAccepts c.view v tbl oldPK newPK cols) :
    pkChangeBody v oldPK newPK cols c =
      .ok () (c.emitAll
        (pkChangeEffects v tbl oldPK newPK c.view[rowKey v.schema.tableID oldPK]? cols)) := by
  obtain ⟨hops, hpk⟩ := h
  unfold pkChangeBody
  rw [run_bind, run_emitPKChange hs, ← run_bind]
  simp only [bind_assoc, pure_bind, emitIndexInserts_eq]
  rw [run_bind_ok (run_forM_eq_ok (by rw [view_afterRemoves]; exact hops)),
    run_pkChangeRow hpk]
  simp [pkChangeEffects, pkChangeRowEffects, afterRemoves]

theorem run_pkChangeBody_error (hs : storedSchema c.view v.name = .ok tbl)
    (h : ¬ PKChangeAccepts c.view v tbl oldPK newPK cols) :
    ∃ e es, pkChangeBody v oldPK newPK cols c =
      .error e (c.emitAll (.noop (schemaKey v.name) :: es)) := by
  set newVals := pkChangeVals tbl c.view[rowKey v.schema.tableID oldPK]? cols with hnew
  suffices hrow : ∃ e es, emitPKChange v oldPK newPK cols c =
      .error e ((afterRemoves v tbl oldPK c).emitAll es) by
    obtain ⟨e, es, hes⟩ := hrow
    unfold pkChangeBody
    rw [run_bind_error hes, afterRemoves, emitAll_emitAll]
    exact ⟨e, _, rfl⟩
  rw [run_emitPKChange hs]
  simp only
  rw [emitIndexInserts_eq]
  refine run_forM_bind_eq_error fun hops c' => ?_
  have hpk : pkPresent v newVals = false := by
    by_contra hcon
    refine h ⟨?_, by simpa using hcon⟩
    rw [← view_afterRemoves]
    exact hops
  obtain ⟨column, es, hes⟩ := run_emitPKPresence_error hpk (rowKey v.schema.tableID newPK) c'
  exact ⟨_, es, run_bind_error hes⟩

end PKChange

end Bodies

end Swytch.Sql
