import Swytch.Sql.Backfill
import Swytch.Sql.Ddl

/-!
# What data definition writes

For every handler one equation: it is refused and leaves the store alone, or it applies a
list of writes that is a function of the store.  The lists are made of a few batches: the
fields of a schema or their removal, the metadata of an index or its removal, and per scanned
key the writes of one turn of a loop.
-/

namespace Swytch.Sql

open List
open KeyedStore TxM
open Ctx (emitAll_emitAll emitAll)

variable {name : String} {w : Write} {α : Type} {c : Ctx}

/-! ## Loops over keys -/

variable {keys : List Bytes} {idx : IndexSchema} {snap : Option Fields} {body : TxM Unit}
    {store : Store} {e : SqlError}

/-- A loop over distinct keys whose turns read and write their own key only. -/
theorem run_forM_keys {g : Bytes → TxM Unit} {ws : Option Fields → Bytes → List Write}
    (hg : ∀ k c, g k c = .ok () (c.emitAll ((ws c.view[k]? k).map .data)))
    (hkey : ∀ o k, ∀ w ∈ ws o k, w.key = k) (hnd : keys.Nodup) (c : Ctx) :
    (forM keys g) c =
      .ok () (c.emitAll ((keys.flatMap fun k => ws c.view[k]? k).map .data)) := by
  induction keys generalizing c with
  | nil => simp
  | cons k keys ih =>
    rw [nodup_cons] at hnd
    -- the other keys are as they were before this turn
    have hv (k' : Bytes) (hk' : k' ∈ keys) :
        (c.emitAll ((ws c.view[k]? k).map .data)).view[k']? = c.view[k']? := by
      rw [view_emitAll_data]
      refine getElem?_applyAll_of_forall_ne (fun w hw => ?_) _
      rw [hkey _ _ w hw]
      rintro rfl
      exact hnd.1 hk'
    have hr : (keys.flatMap fun k' =>
        ws (c.emitAll ((ws c.view[k]? k).map .data)).view[k']? k') =
          keys.flatMap fun k' => ws c.view[k']? k' :=
      flatMap_congr fun k' hk' => by rw [hv k' hk']
    rw [forM_cons, run_bind_ok (hg k c), ih hnd.2, hr]
    simp

theorem nodup_scanKeys [Keytrie] (s : Store) {after pattern : Bytes} :
    (scanKeys s after pattern).Nodup :=
  s.nodup_keys.filter _

/-! ## Batches -/

theorem run_forM_keyedRemove (key : Bytes) (fields : List Bytes) (c : Ctx) :
    (forM fields fun f => emitKeyedRemove key f) c =
      .ok () (c.emitAll ((dropAll key fields).map .data)) := by
  unfold emitKeyedRemove
  rw [run_forM_emit]
  simp [dropAll, Function.comp_def]

/-- What `emitIndexMetadataRemove` writes. -/
def indexMetaDrops (name : String) : List Write :=
  dropAll (indexMetaKey name) indexMetaFields ++ [.drop indexListKey (utf8 name)]

variable {indexID : Bytes} {f : TableSchema → TxM α}

theorem run_emitIndexMetadataRemove :
    emitIndexMetadataRemove name c = .ok () (c.emitAll ((indexMetaDrops name).map .data)) := by
  unfold emitIndexMetadataRemove
  rw [run_bind_ok (run_forM_keyedRemove _ _ c)]
  simp [indexMetaDrops, emitKeyedRemove]

theorem key_indexMetaDrops (hw : w ∈ indexMetaDrops name) :
    w.key = indexMetaKey name ∨ w.key = indexListKey := by
  rcases mem_append.mp hw with hw | hw
  · obtain ⟨f, -, rfl⟩ := mem_dropAll.mp hw
    exact .inl rfl
  · rw [mem_singleton.mp hw]
    exact .inr rfl

theorem storedIndex_name {s : Store} (h : storedIndex s name = .ok idx) : idx.name = name := by
  unfold storedIndex indexOfSnapshot at h
  split at h
  · cases h
  split at h
  · cases h
  dsimp only at h
  split at h
  · cases h
  rw [← Except.ok.inj h]

/-- What a scan of entry keys removes at one key. -/
def entryDrops (snap : Option Fields) (ek : Bytes) : List Write :=
  dropAll ek (snap.elim [] (·.keys))

theorem key_entryDrops {ek : Bytes} (hw : w ∈ entryDrops snap ek) : w.key = ek := by
  obtain ⟨f, -, rfl⟩ := mem_dropAll.mp hw
  rfl

/-- What a schema loses at its old name. -/
def schemaDrops (name : String) : List Write :=
  dropAll (schemaKey name) droppedSchemaFields ++ [.drop tableListKey (utf8 name)]

section Scans

variable [Keytrie]

/-- What `dropIndexEntries` writes. -/
def indexEntryDrops (base view : Store) (indexID : Bytes) : List Write :=
  (scanKeys base [] (indexKeyPattern indexID)).flatMap fun ek => entryDrops view[ek]? ek

theorem run_dropIndexEntries :
    dropIndexEntries indexID c =
      .ok () (c.emitAll ((indexEntryDrops c.base c.view indexID).map .data)) := by
  refine @run_forM_keys _ _ entryDrops (fun k c => ?_) (fun o k w hw => key_entryDrops hw)
    (nodup_scanKeys ..) c
  rw [run_getSnapshot_bind]
  cases c.view[k]? with
  | none => simp [entryDrops, dropAll]
  | some snap =>
    exact run_forM_keyedRemove k snap.keys c

def dropIndexWrites (base view : Store) (idx : IndexSchema) : List Write :=
  indexEntryDrops base view idx.indexID ++ indexMetaDrops idx.name

theorem run_dropIndex (idx : IndexSchema) (c : Ctx) :
    dropIndex idx c = .ok () (c.emitAll ((dropIndexWrites c.base c.view idx).map .data)) := by
  unfold dropIndex
  rw [run_bind_ok (run_dropIndexEntries), run_emitIndexMetadataRemove]
  simp [dropIndexWrites]

/-- What dropping one index after the other writes. -/
def dropIndexesWrites (base : Store) : Store → List IndexSchema → List Write
  | _, [] => []
  | view, idx :: rest =>
    let ws := dropIndexWrites base view idx
    ws ++ dropIndexesWrites base (applyAll ws view) rest

theorem run_forM_dropIndex {indexes : List IndexSchema} :
    (forM indexes dropIndex) c =
      .ok () (c.emitAll ((dropIndexesWrites c.base c.view indexes).map .data)) := by
  induction indexes generalizing c with
  | nil => simp [dropIndexesWrites]
  | cons idx rest ih =>
    rw [forM_cons, run_bind_ok (run_dropIndex idx c), ih, view_emitAll_data]
    simp [dropIndexesWrites]

end Scans

/-! ## Running one handler -/

/-- A body that emits data effects only, besides its pins. -/
theorem runRMW_writes {es : List Effect} {ws : List Write}
    (h : body ⟨store, []⟩ = .ok () (emitAll ⟨store, []⟩ es)) (hes : dataWrites es = ws) :
    runRMW store body = (.ok (), applyAll ws store) := by
  rw [runRMW_of_ok h, Ctx.view_emitAll, hes, Ctx.view_fresh]

@[simp] theorem run_pinKey_bind {key : Bytes} {f : Option Fields → TxM α} :
    (pinKey key >>= f) c = f c.view[key]? (c.emitAll [.noop key]) := rfl

theorem run_loadSchema_bind {tbl : TableSchema} (h : storedSchema c.view name = .ok tbl) :
    (loadSchema name >>= f) c = f tbl c := by
  rw [run_bind, run_loadSchema, h]

theorem run_loadSchema_bind_error (h : storedSchema c.view name = .error e) :
    (loadSchema name >>= f) c = .error e c := by
  rw [run_bind, run_loadSchema, h]

/-- A refused statement leaves the store alone. -/
def RefusedBy (s : Store) (r : Except SqlError Unit × Store) : Prop := ∃ e, r = (.error e, s)

theorem refusedBy_runRMW (h : body ⟨store, []⟩ = .error e c) :
    RefusedBy store (runRMW store body) :=
  ⟨e, runRMW_of_error h⟩

/-- A body that pins and loads the schema of a table refuses, or goes on with the schema. -/
theorem pinned_outcome (body : TxM Unit) (s : Store) {f : TableSchema → TxM Unit}
    (hb : body = pinKey (schemaKey name) >>= fun _ => loadSchema name >>= f) :
    RefusedBy s (runRMW s body) ∨ ∃ t, storedSchema s name = .ok t ∧
      body ⟨s, []⟩ = f t (emitAll ⟨s, []⟩ [.noop (schemaKey name)]) := by
  have h : body ⟨s, []⟩ =
      (loadSchema name >>= f) (emitAll ⟨s, []⟩ [.noop (schemaKey name)]) := by
    rw [hb]
    rfl
  cases ht : storedSchema s name with
  | error e =>
    rw [run_loadSchema_bind_error (show storedSchema (emitAll ⟨s, []⟩
      [.noop (schemaKey name)]).view name = .error e from ht)] at h
    exact .inl (refusedBy_runRMW h)
  | ok t =>
    rw [run_loadSchema_bind (show storedSchema (emitAll ⟨s, []⟩
      [.noop (schemaKey name)]).view name = .ok t from ht)] at h
    exact .inr ⟨t, rfl, h⟩

/-! ## Tables -/

theorem handleCreateTable_outcome (schema : TableSchema) (s : Store) :
    RefusedBy s (handleCreateTable schema s) ∨
      listed s[tableListKey]? schema.name = false ∧ schema.tableID ≠ [] ∧
        handleCreateTable schema s = (.ok (), applyAll (schemaWrites schema) s) := by
  have hb : createTableBody schema ⟨s, []⟩ =
      if listed s[tableListKey]? schema.name then .error (.tableExists schema.name) ⟨s, []⟩
      else emitSchema schema (emitAll ⟨s, []⟩ [.noop tableListKey]) := by
    unfold createTableBody
    rw [run_getSnapshot_bind, Ctx.view_fresh]
    cases listed s[tableListKey]? schema.name <;> rfl
  cases hli : listed s[tableListKey]? schema.name with
  | true =>
    rw [hli] at hb
    exact .inl (refusedBy_runRMW hb)
  | false =>
    rw [hli, run_emitSchema] at hb
    by_cases hid : schema.tableID = []
    · rw [if_pos hid] at hb
      exact .inl (refusedBy_runRMW hb)
    · rw [if_neg hid] at hb
      exact .inr ⟨rfl, hid, runRMW_writes hb (by simp)⟩

section Tables

variable {base view : Store} [Keytrie]

/-- The column fields `DROP TABLE` removes from the rows it scans. -/
def rowFieldDrops (s : Store) (t : TableSchema) : List Write :=
  (scanKeys s [] (rowKeyPattern t.tableID)).flatMap fun key =>
    dropAll key (t.columns.map fun col => utf8 col.name)

def dropTableWrites (s : Store) (name : String) (t : TableSchema) : List Write :=
  rowFieldDrops s t ++ dropIndexesWrites s (applyAll (rowFieldDrops s t) s) t.indexes ++
    schemaDrops name

theorem run_dropTableBody (name : String) (t : TableSchema) (s : Store) :
    dropTableBody name t ⟨s, []⟩ = .ok () (emitAll ⟨s, []⟩
      (.noop (schemaKey name) :: (dropTableWrites s name t).map .data)) := by
  have hr (keys : List Bytes) (c : Ctx) :
      (forM keys fun key => forM t.columns fun col => emitKeyedRemove key (utf8 col.name)) c =
        .ok () (c.emitAll ((keys.flatMap fun key =>
          dropAll key (t.columns.map fun col => utf8 col.name)).map .data)) := by
    rw [map_flatMap]
    refine run_forM_flatMap (fun key _ c => ?_) c
    unfold emitKeyedRemove
    rw [run_forM_emit]
    simp [dropAll, Function.comp_def]
  unfold dropTableBody
  rw [run_pinKey_bind, run_scanCommitted_bind, run_bind_ok (hr _ _),
    run_bind_ok (run_forM_dropIndex), run_bind_ok (run_forM_keyedRemove _ _ _)]
  simp [emitKeyedRemove, dropTableWrites, rowFieldDrops, schemaDrops, Ctx.view_emitAll]

theorem handleDropTable_outcome (name : String) (ifExists : Bool) (s : Store) :
    RefusedBy s (handleDropTable name ifExists s) ∨ handleDropTable name ifExists s = (.ok (), s) ∨
      ∃ t, storedSchema s name = .ok t ∧
        handleDropTable name ifExists s = (.ok (), applyAll (dropTableWrites s name t) s) := by
  unfold handleDropTable
  cases hs : storedSchema s name with
  | ok t =>
    exact .inr (.inr ⟨t, rfl, runRMW_writes (run_dropTableBody name t s) (by simp)⟩)
  | error e =>
    cases e
    case noSuchTable =>
      cases ifExists with
      | true => exact .inr (.inl rfl)
      | false => exact .inl ⟨_, rfl⟩
    all_goals exact .inl ⟨_, rfl⟩

/-! ## Indexes -/

theorem key_indexEntryDrops (hw : w ∈ indexEntryDrops base view indexID) :
    ∃ e, w.key = indexKey indexID e := by
  obtain ⟨ek, hek, hw⟩ := mem_flatMap.mp hw
  obtain ⟨-, e, rfl⟩ := mem_scanKeys_indexKeyPattern.mp hek
  exact ⟨e, key_entryDrops hw⟩

theorem schemaKey_ne_of_mem_dropIndexWrites (hw : w ∈ dropIndexWrites base view idx)
    (table : String) : w.key ≠ schemaKey table := by
  rcases mem_append.mp hw with hw | hw
  · obtain ⟨e, hkey⟩ := key_indexEntryDrops hw
    rw [hkey]
    exact ((isMetaKey_schemaKey table).ne_indexKey _ _).symm
  · rcases key_indexMetaDrops hw with hkey | hkey
    · rw [hkey]
      exact indexMetaKey_ne_schemaKey _ _
    · rw [hkey]
      exact indexListKey_ne_schemaKey _

theorem schemaKey_ne_of_mem_dropIndexesWrites {idxs : List IndexSchema}
    (hw : w ∈ dropIndexesWrites base view idxs) (table : String) :
    w.key ≠ schemaKey table := by
  induction idxs generalizing view with
  | nil => exact absurd hw (by simp [dropIndexesWrites])
  | cons idx rest ih =>
    rcases mem_append.mp hw with hw | hw
    · exact schemaKey_ne_of_mem_dropIndexWrites hw table
    · exact ih hw

/-- The schema a `DROP INDEX` emits. -/
def TableSchema.withoutIndex (t : TableSchema) (name : String) : TableSchema :=
  { t with indexes := t.indexes.filter (·.name ≠ name) }

/-- The body of `DROP INDEX` sees the schema of the store: nothing it has emitted touches a
schema key. -/
theorem run_dropIndexBody {m : IndexSchema} (hn : m.name = name) (s : Store) :
    dropIndexBody name m ⟨s, []⟩ =
      match storedSchema s m.table with
      | .error e => .error e (emitAll ⟨s, []⟩
          (.noop (indexMetaKey name) :: (dropIndexWrites s s m).map .data))
      | .ok t => emitSchema (t.withoutIndex name) (emitAll ⟨s, []⟩
          (.noop (indexMetaKey name) :: (dropIndexWrites s s m).map .data)) := by
  subst hn
  have hd : (emitAll ⟨s, []⟩ [.noop (indexMetaKey m.name)]).emitAll
      ((dropIndexWrites s s m).map .data) =
        emitAll ⟨s, []⟩ (.noop (indexMetaKey m.name) :: (dropIndexWrites s s m).map .data) := by
    simp
  have hload : storedSchema (emitAll ⟨s, []⟩
      (.noop (indexMetaKey m.name) :: (dropIndexWrites s s m).map .data)).view m.table =
        storedSchema s m.table := by
    rw [Ctx.view_emitAll, storedSchema, getElem?_applyAll_of_forall_ne]
    · rfl
    · intro w hw
      rw [dataWrites_noop, dataWrites_map_data] at hw
      exact schemaKey_ne_of_mem_dropIndexWrites hw _
  have hassoc : dropIndexBody m.name m = (do
      let _ ← pinKey (indexMetaKey m.name)
      dropIndex m
      let tbl ← loadSchema m.table
      emitSchema (tbl.withoutIndex m.name)) := by
    unfold dropIndexBody dropIndex
    simp only [bind_assoc]
    rfl
  rw [hassoc, run_pinKey_bind, run_bind_ok (run_dropIndex _ _)]
  have hv : (emitAll ⟨s, []⟩ [.noop (indexMetaKey m.name)]).view = s := rfl
  rw [Ctx.emitAll_base, hv, hd, run_bind, run_loadSchema, hload]
  cases storedSchema s m.table <;> rfl

theorem handleDropIndex_outcome (name : String) (ifExists : Bool) (s : Store) :
    RefusedBy s (handleDropIndex name ifExists s) ∨ handleDropIndex name ifExists s = (.ok (), s) ∨
      ∃ m t, storedIndex s name = .ok m ∧ storedSchema s m.table = .ok t ∧
        handleDropIndex name ifExists s =
          (.ok (), applyAll (dropIndexWrites s s m ++ schemaWrites (t.withoutIndex name)) s) := by
  unfold handleDropIndex
  cases hs : storedIndex s name with
  | ok m =>
    have hb := run_dropIndexBody (storedIndex_name hs) s
    cases ht : storedSchema s m.table with
    | error e =>
      rw [ht] at hb
      exact .inl (refusedBy_runRMW hb)
    | ok t =>
      rw [ht] at hb
      dsimp only at hb
      rw [run_emitSchema] at hb
      split at hb
      · exact .inl (refusedBy_runRMW hb)
      · exact .inr (.inr ⟨m, t, rfl, ht, runRMW_writes hb (by simp)⟩)
  | error e =>
    cases e
    case noSuchIndex =>
      cases ifExists with
      | true => exact .inr (.inl rfl)
      | false => exact .inl ⟨_, rfl⟩
    all_goals exact .inl ⟨_, rfl⟩

theorem handleCreateIndex_outcome [Host] (stmt : CreateIndexStmt) (indexID : Bytes) (s : Store) :
    RefusedBy s (handleCreateIndex stmt indexID s) ∨
      ∃ t, storedSchema s stmt.table = .ok t ∧ checkCreateIndex t stmt = .ok () ∧ indexID ≠ [] ∧
        handleCreateIndex stmt indexID s =
          (.ok (), applyAll (createIndexWrites s t (stmt.index t indexID)) s) := by
  unfold handleCreateIndex
  cases ht : storedSchema s stmt.table with
  | error e => exact .inl ⟨e, rfl⟩
  | ok t =>
    dsimp only
    cases hch : checkCreateIndex t stmt with
    | error e => exact .inl ⟨e, rfl⟩
    | ok u =>
      cases hrun : createIndexBody t (stmt.index t indexID) ⟨s, []⟩ with
      | error e c => exact .inl (refusedBy_runRMW hrun)
      | ok u c =>
        obtain ⟨hv, hiid, -⟩ := run_createIndexBody_ok hrun
        refine .inr ⟨t, rfl, hch, hiid, ?_⟩
        rw [runRMW_of_ok hrun, hv]

end Tables

/-! ## Views -/

/-- What `emitView` writes. -/
def viewWrites (v : ViewSchema) : List Write :=
  [.put (viewMetaKey v.name) viewFieldSQL (.raw (utf8 v.body)),
    .put viewListKey (utf8 v.name) (.raw [1])]

/-- What `emitViewRemove` writes. -/
def viewDrops (name : String) : List Write :=
  [.drop (viewMetaKey name) viewFieldSQL, .drop viewListKey (utf8 name)]

theorem run_emitView {v : ViewSchema} :
    emitView v c = if v.name = "" ∨ v.body = "" then .error (.viewEmpty v.name) c
      else .ok () (c.emitAll ((viewWrites v).map .data)) := by
  unfold emitView emitRawField viewWrites
  by_cases hn : v.name = ""
  · simp [hn]
  · by_cases hb : v.body = ""
    all_goals simp [hn, hb]

theorem run_createViewBody (v : ViewSchema) (ifNotExists : Bool) (s : Store) :
    createViewBody v ifNotExists ⟨s, []⟩ =
      if listed s[viewListKey]? v.name then
        if ifNotExists then .ok () ⟨s, []⟩ else .error (.viewExists v.name) ⟨s, []⟩
      else if listed s[tableListKey]? v.name then
        .error (.nameInUse v.name) (emitAll ⟨s, []⟩ [.noop viewListKey])
      else emitView v (emitAll ⟨s, []⟩ [.noop viewListKey, .noop tableListKey]) := by
  unfold createViewBody
  rw [run_getSnapshot_bind, Ctx.view_fresh]
  cases listed s[viewListKey]? v.name with
  | true => cases ifNotExists <;> rfl
  | false =>
    have hv : (emitAll ⟨s, []⟩ [.noop viewListKey]).view[tableListKey]? =
        s[tableListKey]? := rfl
    show (getSnapshot tableListKey >>= fun tables => do
        if listed tables v.name then throw (.nameInUse v.name)
        emit (.noop tableListKey)
        emitView v) (emitAll ⟨s, []⟩ [.noop viewListKey]) = _
    rw [run_getSnapshot_bind, hv]
    cases listed s[tableListKey]? v.name <;> rfl

theorem handleCreateView_outcome (v : ViewSchema) (ifNotExists : Bool) (s : Store) :
    RefusedBy s (handleCreateView v ifNotExists s) ∨
      handleCreateView v ifNotExists s = (.ok (), s) ∨
      listed s[viewListKey]? v.name = false ∧ listed s[tableListKey]? v.name = false ∧
        v.body ≠ "" ∧ handleCreateView v ifNotExists s = (.ok (), applyAll (viewWrites v) s) := by
  have hb : RefusedBy s (runRMW s (createViewBody v ifNotExists)) ∨
      runRMW s (createViewBody v ifNotExists) = (.ok (), s) ∨
      listed s[viewListKey]? v.name = false ∧ listed s[tableListKey]? v.name = false ∧
        v.body ≠ "" ∧
        runRMW s (createViewBody v ifNotExists) = (.ok (), applyAll (viewWrites v) s) := by
    have hrun := run_createViewBody v ifNotExists s
    cases hV : listed s[viewListKey]? v.name with
    | true =>
      rw [hV] at hrun
      cases ifNotExists with
      | true => exact .inr (.inl (runRMW_of_ok hrun))
      | false => exact .inl (refusedBy_runRMW hrun)
    | false =>
      rw [hV, if_neg (by simp)] at hrun
      cases hL : listed s[tableListKey]? v.name with
      | true =>
        rw [hL] at hrun
        exact .inl (refusedBy_runRMW hrun)
      | false =>
        rw [hL, if_neg (by simp), run_emitView] at hrun
        split at hrun
        · exact .inl (refusedBy_runRMW hrun)
        · rename_i hne
          exact .inr (.inr ⟨rfl, rfl, fun h => hne (.inr h),
            runRMW_writes hrun (by simp)⟩)
  unfold handleCreateView
  split
  · cases ifNotExists with
    | true => exact .inr (.inl rfl)
    | false => exact .inl ⟨_, rfl⟩
  · split
    · exact .inl ⟨_, rfl⟩
    · exact hb
  · exact .inl ⟨_, rfl⟩

theorem handleDropView_outcome (name : String) (ifExists : Bool) (s : Store) :
    RefusedBy s (handleDropView name ifExists s) ∨ handleDropView name ifExists s = (.ok (), s) ∨
      handleDropView name ifExists s = (.ok (), applyAll (viewDrops name) s) := by
  unfold handleDropView
  split
  · cases ifExists with
    | true => exact .inr (.inl rfl)
    | false => exact .inl ⟨_, rfl⟩
  · exact .inl ⟨_, rfl⟩
  · refine .inr (.inr (@runRMW_writes (dropViewBody name) s
      (.noop (viewMetaKey name) :: (viewDrops name).map .data) _ ?_ (by simp)))
    rfl

/-! ## `ALTER TABLE` -/

/-- The `table` fields that `RENAME TO` rewrites. -/
def indexTableWrites (t : TableSchema) : List Write :=
  t.indexes.map fun idx => .put (indexMetaKey idx.name) indexFieldTable (.raw (utf8 t.name))

/-- What `RENAME TO` writes; `t` is the schema under the new name. -/
def renameTableWrites (oldName : String) (t : TableSchema) : List Write :=
  schemaWrites t ++ schemaDrops oldName ++ indexTableWrites t

theorem run_renameTableBody (oldName newName : String) (s : Store) :
    renameTableBody oldName newName ⟨s, []⟩ =
      if listed s[tableListKey]? newName then
        .error (.tableExists newName) (emitAll ⟨s, []⟩ [.noop (schemaKey oldName)])
      else match storedSchema s oldName with
        | .error e => .error e (emitAll ⟨s, []⟩ [.noop (schemaKey oldName), .noop tableListKey])
        | .ok t =>
          if t.tableID = [] then .error (.missingID newName)
            (emitAll ⟨s, []⟩ [.noop (schemaKey oldName), .noop tableListKey])
          else .ok () (emitAll ⟨s, []⟩ (.noop (schemaKey oldName) :: .noop tableListKey ::
            (renameTableWrites oldName (t.renamed newName)).map .data)) := by
  have hv (es : List Effect) (hes : dataWrites es = []) : (emitAll ⟨s, []⟩ es).view = s := by
    rw [Ctx.view_emitAll, hes]
    rfl
  unfold renameTableBody
  rw [run_pinKey_bind, run_getSnapshot_bind, hv _ rfl]
  cases listed s[tableListKey]? newName with
  | true => rfl
  | false =>
    rw [if_neg (by simp), if_neg (by simp)]
    show (loadSchema oldName >>= _) (emitAll ⟨s, []⟩
      [.noop (schemaKey oldName), .noop tableListKey]) = _
    cases ht : storedSchema s oldName with
    | error e => rw [run_loadSchema_bind_error (by rw [hv _ rfl, ht])]
    | ok t =>
      rw [run_loadSchema_bind (by rw [hv _ rfl, ht])]
      by_cases hid : t.tableID = []
      · rw [run_bind_error (by rw [run_emitSchema]; exact if_pos hid)]
        exact (if_pos hid).symm
      · rw [run_bind_ok (by rw [run_emitSchema]; exact if_neg hid),
          run_bind_ok (run_forM_keyedRemove _ _ _)]
        unfold emitKeyedRemove emitRawField
        rw [run_emit_bind, run_forM_emit]
        simp [hid, renameTableWrites, schemaDrops, indexTableWrites, TableSchema.renamed,
          Function.comp_def]

/-- What `RENAME COLUMN` writes at one row key. -/
def renameFieldWrites (oldName newName : Bytes) (snap : Option Fields) (rk : Bytes) :
    List Write :=
  match snap.bind (·[oldName]?) with
  | none => []
  | some value => [.put rk newName value, .drop rk oldName]

theorem key_renameFieldWrites {oldName newName rk : Bytes}
    (hw : w ∈ renameFieldWrites oldName newName snap rk) : w.key = rk := by
  unfold renameFieldWrites at hw
  split at hw
  · simp at hw
  · simp only [mem_cons, not_mem_nil, or_false] at hw
    rcases hw with rfl | rfl <;> rfl

theorem run_forM_renameField {oldName newName : Bytes} (hnd : keys.Nodup) :
    (forM keys (renameField oldName newName)) c = .ok () (c.emitAll ((keys.flatMap fun rk =>
      renameFieldWrites oldName newName c.view[rk]? rk).map .data)) := by
  refine @run_forM_keys _ _ (renameFieldWrites oldName newName) (fun k c => ?_)
    (fun o k w hw => key_renameFieldWrites hw) hnd c
  unfold renameField
  rw [run_getSnapshot_bind]
  cases hs : c.view[k]? with
  | none => simp [renameFieldWrites]
  | some snap =>
    cases hf : snap[oldName]? with
    | none => simp [renameFieldWrites, hf]
    | some value => simp [renameFieldWrites, hf, emitKeyedRemove]

section Alter

variable [Host]

theorem handleAlterRenameTable_outcome (oldName newName : String) (s : Store) :
    RefusedBy s (handleAlterRenameTable oldName newName s) ∨
      equalFold oldName newName = true ∧ handleAlterRenameTable oldName newName s = (.ok (), s) ∨
      equalFold oldName newName = false ∧ listed s[tableListKey]? newName = false ∧
        ∃ t, storedSchema s oldName = .ok t ∧ handleAlterRenameTable oldName newName s =
          (.ok (), applyAll (renameTableWrites oldName (t.renamed newName)) s) := by
  unfold handleAlterRenameTable
  cases hfold : equalFold oldName newName with
  | true => exact .inr (.inl ⟨rfl, rfl⟩)
  | false =>
    have hrun := run_renameTableBody oldName newName s
    cases hL : listed s[tableListKey]? newName with
    | true =>
      rw [hL] at hrun
      exact .inl (refusedBy_runRMW hrun)
    | false =>
      rw [hL, if_neg (by simp)] at hrun
      cases ht : storedSchema s oldName with
      | error e =>
        rw [ht] at hrun
        exact .inl (refusedBy_runRMW hrun)
      | ok t =>
        rw [ht] at hrun
        dsimp only at hrun
        split at hrun
        · exact .inl (refusedBy_runRMW hrun)
        · exact .inr (.inr ⟨rfl, rfl, t, rfl, runRMW_writes hrun (by simp)⟩)

def TableSchema.withColumn (t : TableSchema) (newCol : ColumnSchema) : TableSchema :=
  { t with columns := t.columns ++ [newCol] }

theorem handleAlterAddColumn_outcome (name : String) (newCol : ColumnSchema) (s : Store) :
    RefusedBy s (handleAlterAddColumn name newCol s) ∨
      ∃ t, storedSchema s name = .ok t ∧
        (t.columns.any fun c => equalFold c.name newCol.name) = false ∧
        handleAlterAddColumn name newCol s =
          (.ok (), applyAll (schemaWrites (t.withColumn newCol)) s) := by
  unfold handleAlterAddColumn
  split
  · exact .inl ⟨_, rfl⟩
  split
  · exact .inl ⟨_, rfl⟩
  obtain href | ⟨t, ht, hpin⟩ := pinned_outcome (addColumnBody name newCol) s rfl
  · exact .inl href
  cases hany : t.columns.any fun c => equalFold c.name newCol.name with
  | true =>
    rw [hany] at hpin
    exact .inl (refusedBy_runRMW hpin)
  | false =>
    rw [hany] at hpin
    change _ = emitSchema (t.withColumn newCol) _ at hpin
    rw [run_emitSchema] at hpin
    split at hpin
    · exact .inl (refusedBy_runRMW hpin)
    · exact .inr ⟨t, ht, hany, runRMW_writes hpin (by simp)⟩

section Rows

variable [Keytrie]

/-- The field `DROP COLUMN` removes from the rows it scans. -/
def columnDrops (s : Store) (t : TableSchema) (colIdx : ℕ) : List Write :=
  (scanKeys s [] (rowKeyPattern t.tableID)).map fun rk => .drop rk (utf8 (t.nameAt colIdx))

/-- The indexes that mention the column at an ordinal. -/
def TableSchema.mentioning (t : TableSchema) (colIdx : ℕ) : List IndexSchema :=
  t.indexes.filter fun idx => idx.columns.any fun c => equalFold c (t.nameAt colIdx)

def dropColumnWrites (s : Store) (t : TableSchema) (colIdx : ℕ) : List Write :=
  columnDrops s t colIdx ++
    dropIndexesWrites s (applyAll (columnDrops s t colIdx) s) (t.mentioning colIdx) ++
    schemaWrites (t.withoutColumn colIdx)

theorem handleAlterDropColumn_outcome (tableName colName : String) (s : Store) :
    RefusedBy s (handleAlterDropColumn tableName colName s) ∨
      ∃ t colIdx, storedSchema s tableName = .ok t ∧
        (t.columns.findIdx? fun c => equalFold c.name colName) = some colIdx ∧
        colIdx ∉ t.pkColumns ∧ handleAlterDropColumn tableName colName s =
          (.ok (), applyAll (dropColumnWrites s t colIdx) s) := by
  obtain href | ⟨t, ht, hpin⟩ := pinned_outcome (dropColumnBody tableName colName) s rfl
  · exact .inl href
  cases hf : t.columns.findIdx? fun c => equalFold c.name colName with
  | none =>
    rw [hf] at hpin
    exact .inl (refusedBy_runRMW hpin)
  | some colIdx =>
    rw [hf] at hpin
    dsimp only at hpin
    by_cases hpk : colIdx ∈ t.pkColumns
    · rw [if_pos hpk] at hpin
      exact .inl (refusedBy_runRMW hpin)
    · have hr (c : Ctx) : (forM (scanKeys s [] (rowKeyPattern t.tableID)) fun rk =>
          emitKeyedRemove rk (utf8 (t.nameAt colIdx))) c =
            .ok () (c.emitAll ((columnDrops s t colIdx).map .data)) := by
        unfold emitKeyedRemove columnDrops
        rw [run_forM_emit, map_map]
        rfl
      rw [if_neg hpk, run_scanCommitted_bind, Ctx.emitAll_base, run_bind_ok (hr _),
        run_bind_ok (run_forM_dropIndex), run_emitSchema] at hpin
      split at hpin
      · exact .inl (refusedBy_runRMW hpin)
      · refine .inr ⟨t, colIdx, ht, hf, hpk, (runRMW_of_ok hpin).trans ?_⟩
        simp [dropColumnWrites, TableSchema.mentioning, Ctx.view_emitAll, applyAll_append]

/-- The moves of the stored values of a renamed column. -/
def columnMoves (s : Store) (t : TableSchema) (colIdx : ℕ) (newCol : String) : List Write :=
  (scanKeys s [] (rowKeyPattern t.tableID)).flatMap fun rk =>
    renameFieldWrites (utf8 (t.nameAt colIdx)) (utf8 newCol) s[rk]? rk

/-- The `cols` fields that `RENAME COLUMN` rewrites. -/
def indexColumnWrites (t : TableSchema) (newCol : String) : List Write :=
  (t.indexes.filter fun idx => idx.columns.contains newCol).map fun idx =>
    .put (indexMetaKey idx.name) indexFieldColumns (.raw (joinNUL idx.columns))

def renameColumnWrites (s : Store) (t : TableSchema) (colIdx : ℕ) (newCol : String) :
    List Write :=
  columnMoves s t colIdx newCol ++ schemaWrites (t.withRenamed colIdx newCol) ++
    indexColumnWrites (t.withRenamed colIdx newCol) newCol

theorem handleAlterRenameColumn_outcome (tableName oldCol newCol : String) (s : Store) :
    RefusedBy s (handleAlterRenameColumn tableName oldCol newCol s) ∨
      equalFold oldCol newCol = true ∧
        handleAlterRenameColumn tableName oldCol newCol s = (.ok (), s) ∨
      equalFold oldCol newCol = false ∧ ∃ t colIdx, storedSchema s tableName = .ok t ∧
        renameTarget oldCol newCol t.enumColumns none = .ok (some colIdx) ∧
        handleAlterRenameColumn tableName oldCol newCol s =
          (.ok (), applyAll (renameColumnWrites s t colIdx newCol) s) := by
  unfold handleAlterRenameColumn
  cases hfold : equalFold oldCol newCol with
  | true => exact .inr (.inl ⟨rfl, rfl⟩)
  | false =>
    obtain href | ⟨t, ht, hpin⟩ :=
      pinned_outcome (renameColumnBody tableName oldCol newCol) s rfl
    · exact .inl href
    cases htgt : renameTarget oldCol newCol t.enumColumns none with
    | error e =>
      rw [htgt] at hpin
      exact .inl (refusedBy_runRMW hpin)
    | ok target =>
      rw [htgt] at hpin
      cases target with
      | none => exact .inl (refusedBy_runRMW hpin)
      | some colIdx =>
        rw [run_bind, run_ofExcept] at hpin
        dsimp only at hpin
        rw [run_scanCommitted_bind, run_bind_ok (run_forM_renameField (nodup_scanKeys ..)),
          run_bind, run_emitSchema] at hpin
        by_cases hid : (t.withRenamed colIdx newCol).tableID = []
        · rw [if_pos hid] at hpin
          exact .inl (refusedBy_runRMW hpin)
        · rw [if_neg hid] at hpin
          unfold emitRawField at hpin
          dsimp only at hpin
          rw [run_forM_emit] at hpin
          refine .inr (.inr ⟨rfl, t, colIdx, ht, htgt, @runRMW_writes _ s (.noop (schemaKey
            tableName) :: (renameColumnWrites s t colIdx newCol).map .data) _ (hpin.trans ?_)
              (by simp)⟩)
          simp [columnMoves, renameColumnWrites, indexColumnWrites, Function.comp_def]

end Rows

end Alter

end Swytch.Sql
