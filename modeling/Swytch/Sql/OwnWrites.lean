import Swytch.Sql.RangePlans
import Swytch.Sql.Transaction

/-!
# Reading one's own writes

Inside a transaction a plan should return what it would return if the transaction had just
been committed.  Snapshots are read through the context and see pending effects; a scan
walks the keys of the committed store and does not.  The full scan makes up for this with
the rows the session has marked dirty, and so a transaction finds every row it has written
as long as every row it has written is marked.  The range scan has no such set: a row that
the transaction files under an entry key of its own is not found.
-/

namespace Swytch.Sql

variable {pending : List Effect} {c' : Conn} {name : String}

open Session
open Conn
open List
open KeyedStore TxM

variable {c : Conn} {pk : Bytes} {Q : Effect → Prop} {rowid : Int64}

/-! ## After the commit -/

variable {key : Bytes} {argv : List Value} {index : String}

namespace Conn

theorem store_handleCommit : c.handleCommit.store = c.view := by
  rw [handleCommit, view, ctx]
  cases h : c.session.txContext with
  | none => simp
  | some pending => rfl

@[simp] theorem vtab_handleCommit (c : Conn) : c.handleCommit.vtab = c.vtab := by
  rw [handleCommit]
  cases c.session.txContext <;> rfl

theorem txContext_handleCommit (c : Conn) : c.handleCommit.session.txContext = none := by
  rw [handleCommit]
  cases h : c.session.txContext with
  | none => exact h
  | some pending => rfl

@[simp] theorem view_handleCommit (c : Conn) : c.handleCommit.view = c.view := by
  rw [view_of_idle c.txContext_handleCommit, store_handleCommit]

theorem mem_view_of_mem_store (h : key ∈ c.store) : key ∈ c.view :=
  (mem_applyAll_iff ..).mpr (.inl h)

end Conn

/-- Two answers of a plan: the same rows in any order, or the same error. -/
def SameRows : Except SqlError (List MaterialisedRow) → Except SqlError (List MaterialisedRow) → Prop
  | .ok rows, .ok rows' => rows.Perm rows'
  | .error e, .error e' => e = e'
  | _, _ => False

theorem sameRows_refl (r : Except SqlError (List MaterialisedRow)) : SameRows r r := by
  cases r with
  | error e => rfl
  | ok rows => exact List.Perm.refl rows

variable {e : Effect} {P : Effect → Prop} {c₁ : Conn} {cols : List Value}

section Lookups

variable [Host]

theorem filterPKEquality_congr (hvtab : c'.vtab = c.vtab) (hv : c'.view = c.view) :
    filterPKEquality c' argv = filterPKEquality c argv := by
  simp only [filterPKEquality, hvtab, hv]

theorem filterIndexEquality_congr (hvtab : c'.vtab = c.vtab) (hv : c'.view = c.view) :
    filterIndexEquality c' index argv = filterIndexEquality c index argv := by
  simp only [filterIndexEquality, hvtab, hv]

end Lookups

theorem mem_view_of_rowAt {tbl : TableSchema} {r : MaterialisedRow}
    (h : rowAt tbl c.view pk = some r) : rowKey tbl.tableID pk ∈ c.view := by
  obtain ⟨snap, hs⟩ := (rowAt_eq_some_iff.mp h).1.exists_snap
  exact Std.ExtTreeMap.mem_iff_isSome_getElem?.mpr (by simp [hs])

/-- The entry bytes a scan visits and gathers. -/
def RangeScan.Covers (scan : RangeScan) (b : Bytes) : Prop :=
  compare scan.start (scan.keyPrefix ++ b) = .lt ∧ scan.Admits b

/-- The primary keys a scan gathers over the committed keys. -/
def Conn.gathered [Keytrie] (c : Conn) (scan : RangeScan) : List Bytes :=
  distinct (rangeScan scan c.view (scanKeys c.store scan.start (glob scan.keyPrefix)))

theorem mem_gathered [Keytrie] {scan : RangeScan} :
    pk ∈ c.gathered scan ↔ ∃ b, scan.keyPrefix ++ b ∈ c.store ∧ scan.Covers b ∧
      (cell c.view (scan.keyPrefix ++ b) pk).isSome = true := by
  rw [gathered, mem_distinct, mem_rangeScan (pairwise_scanKeys ..) fun _ =>
    exists_of_mem_scanKeys_glob]
  simp only [mem_scanKeys_glob, RangeScan.Covers, and_assoc]

section Plans

variable [Host] [Keytrie]

/-- The plan returns what it returns after a `COMMIT`: the rows of the committed state under
the transaction's own writes. -/
def ReadsOwnWrites (c : Conn) (plan : Plan) (argv : List Value) : Prop :=
  SameRows (runPlan c plan argv) (runPlan c.handleCommit plan argv)

/-! ## The full scan -/

/-- **A full scan reads the transaction's rows when it finds them.** -/
theorem readsOwnWrites_fullScan_iff (hpk : c.vtab.schema.hasPK = true) :
    ReadsOwnWrites c .fullScan argv ↔
      ∀ pk, Live c.view c.vtab.schema.tableID pk → c.Finds pk := by
  obtain ⟨rows, hrw, hsel⟩ := filterFullScan_ok hpk
  obtain ⟨all, hall, hselAll⟩ := filterFullScan_ok (c := c.handleCommit) (by simpa using hpk)
  rw [vtab_handleCommit, view_handleCommit] at hselAll
  rw [ReadsOwnWrites, runPlan, runPlan, hrw, hall, SameRows, hsel.perm_iff hselAll]
  have hcom (pk : Bytes) (r : MaterialisedRow)
      (hr : rowAt c.vtab.schema c.view pk = some r) : c.handleCommit.Finds pk := by
    left
    rw [vtab_handleCommit, store_handleCommit]
    exact mem_view_of_rowAt hr
  constructor
  · intro h pk hl
    have hr := rowAt_eq_some_iff.mpr ⟨hl, rfl⟩
    exact (h pk _ hr).mpr (hcom pk _ hr)
  · intro h pk r hr
    exact iff_of_true (h pk (rowAt_eq_some_iff.mp hr).1) (hcom pk r hr)

/-! ## The range scan -/

def rangePlanScan (v : VTable) (index : String) (lower upper : Option Bound) (argv : List Value) :
    Except SqlError RangeScan :=
  match v.findIndex index with
  | none => .error (.planIndex index)
  | some idx =>
    let affs := idx.columnAffinities v.schema
    if affs.isEmpty then .error (.planIndex index)
    else do
      let (eqArgs, lowerArg, upperArg) ← rangeArgs (affs.length - 1) lower upper argv
      return rangeScanOf idx affs eqArgs lower upper lowerArg upperArg

theorem filterIndexRange_eq {lower upper : Option Bound} :
    filterIndexRange c index lower upper argv =
      (rangePlanScan c.vtab index lower upper argv >>= fun scan =>
        loadRowsForPKs c.vtab c.view (c.gathered scan)) := by
  unfold filterIndexRange rangePlanScan
  cases c.vtab.findIndex index with
  | none => rfl
  | some idx =>
    dsimp only
    split
    · rfl
    · cases rangeArgs ((idx.columnAffinities c.vtab.schema).length - 1) lower upper argv <;> rfl

/-- Every row of the overlay that is filed in the range of a plan is filed there under an entry
key of the committed store.  The other plans ask for nothing. -/
def EntriesCommitted (c : Conn) (plan : Plan) (argv : List Value) : Prop :=
  match plan with
  | .indexRange index lower upper =>
    ∀ scan, rangePlanScan c.vtab index lower upper argv = .ok scan →
      ∀ pk, Live c.view c.vtab.schema.tableID pk →
        (∃ b, scan.Covers b ∧ (cell c.view (scan.keyPrefix ++ b) pk).isSome = true) →
        ∃ b, scan.Covers b ∧ (cell c.view (scan.keyPrefix ++ b) pk).isSome = true ∧
          scan.keyPrefix ++ b ∈ c.store
  | _ => True

/-- **A range scan reads the transaction's rows when their entry keys are committed.** -/
theorem readsOwnWrites_indexRange_iff (hpk : c.vtab.schema.hasPK = true)
    (index : String) (lower upper : Option Bound) (argv : List Value) :
    ReadsOwnWrites c (.indexRange index lower upper) argv ↔
      EntriesCommitted c (.indexRange index lower upper) argv := by
  rw [ReadsOwnWrites, runPlan, runPlan, filterIndexRange_eq, filterIndexRange_eq,
    vtab_handleCommit, view_handleCommit, EntriesCommitted]
  cases hsc : rangePlanScan c.vtab index lower upper argv with
  | error e =>
    refine iff_of_true (sameRows_refl (.error e)) fun scan h => ?_
    cases h
  | ok scan =>
    have hselects (c' : Conn) :
        Selects c.vtab.schema c.view (fun pk => pk ∈ c'.gathered scan)
          ((c'.gathered scan).filterMap (rowAt c.vtab.schema c.view)) :=
      selects_filterMap (nodup_distinct _) fun _ _ _ => Iff.rfl
    have hok (r : List MaterialisedRow) (f : RangeScan → Except SqlError (List MaterialisedRow))
        (hf : f scan = .ok r) : (Except.ok scan >>= f) = .ok r := hf
    rw [hok _ _ (loadRowsForPKs_eq hpk _), hok _ _ (loadRowsForPKs_eq hpk _), SameRows,
      (hselects c).perm_iff (hselects c.handleCommit)]
    simp only [mem_gathered, view_handleCommit, store_handleCommit,
      Except.ok.injEq, forall_eq']
    constructor
    · rintro h pk hl ⟨b, hcov, hc⟩
      have hmem : scan.keyPrefix ++ b ∈ c.view := by
        by_contra hnot
        rw [cell_of_getElem?_eq_none (Std.ExtTreeMap.getElem?_eq_none hnot)] at hc
        cases hc
      obtain ⟨b', hs, hcov', hcell'⟩ :=
        (h pk _ (rowAt_eq_some_iff.mpr ⟨hl, rfl⟩)).mpr ⟨b, hmem, hcov, hc⟩
      exact ⟨b', hcov', hcell', hs⟩
    · intro h pk r hr
      constructor
      · rintro ⟨b, hs, hcov, hc⟩
        exact ⟨b, mem_view_of_mem_store hs, hcov, hc⟩
      · rintro ⟨b, -, hcov, hc⟩
        obtain ⟨b', hcov', hcell', hs⟩ :=
          h pk (rowAt_eq_some_iff.mp hr).1 ⟨b, hcov, hc⟩
        exact ⟨b', hs, hcov', hcell'⟩

end Plans

/-! ## The rows a body writes -/

/-- The fields an effect sets in rows of a table are those of the given rows. -/
def PutsIn (tid : Bytes) (pks : List Bytes) (e : Effect) : Prop :=
  ∀ pk f p, e = .data (.put (rowKey tid pk) f p) → pk ∈ pks

section PutsIn

variable {tid : Bytes} {pks : List Bytes}

theorem PutsIn.mono {pks' : List Bytes} (h : PutsIn tid pks e) (hsub : pks ⊆ pks') :
    PutsIn tid pks' e :=
  fun pk f p he => hsub (h pk f p he)

theorem PutsIn.of_nil (h : PutsIn tid [] e) : PutsIn tid pks e :=
  h.mono (nil_subset pks)

@[simp] theorem putsIn_noop : PutsIn tid pks (.noop key) := by
  intro pk f p he
  cases he

@[simp] theorem putsIn_rowWrite (key : Bytes) (rw : RowWrite) :
    PutsIn tid pks (.rowWrite key rw) := by
  intro pk f p he
  cases he

@[simp] theorem putsIn_drop {f : Bytes} : PutsIn tid pks (.data (.drop key f)) := by
  intro pk f p he
  cases he

@[simp] theorem putsIn_entry (pk : Bytes) (op : EntryOp) :
    PutsIn tid pks (.data (op.write pk)) := by
  intro pk' f p he
  have hkey : (op.write pk).key = rowKey tid pk' := by rw [Effect.data.inj he]; rfl
  cases op <;> simp [EntryOp.write, Write.key] at hkey

theorem putsIn_of_key {ws : List Write} (h : ∀ w ∈ ws, w.key = rowKey tid pk) :
    ∀ e ∈ ws.map Effect.data, PutsIn tid [pk] e := by
  intro e he pk' f p hput
  obtain ⟨w, hw, rfl⟩ := mem_map.mp he
  have hkey := h w hw
  rw [Effect.data.inj hput] at hkey
  exact mem_singleton.mpr (rowKey_inj.mp hkey)

theorem putsIn_effects (pk : Bytes) (op : EntryOp) : ∀ e ∈ op.effects pk, PutsIn tid [] e := by
  cases op <;> simp [EntryOp.effects]

end PutsIn

section Bodies

variable {c : Ctx} {v : VTable} {tid : Bytes}

theorem emits_entryOps (pk : Bytes) {ops : List EntryOp} :
    Emits (PutsIn tid []) (PutsIn tid []) c (forM ops (EntryOp.run pk)) := by
  induction ops generalizing c with
  | nil => exact emits_pure ()
  | cons op ops ih =>
    refine Emits.bind ?_ (fun _ h => h) (fun _ h => h) fun _ _ _ => ih
    have hrun := EntryOp.run_eq pk op c
    split at hrun
    · exact emits_of_error hrun (by simp)
    · exact emits_of_ok hrun (putsIn_effects pk op)

/-- A body that starts with the schema, which it pins. -/
theorem emits_pinLiveSchema_bind {α : Type} {f : TableSchema → TxM α} (hP : ∀ key, P (.noop key))
    (hQ : ∀ key, Q (.noop key)) (hf : ∀ tbl, storedSchema c.view v.name = .ok tbl →
      Emits P Q (c.emitAll [.noop (schemaKey v.name)]) (f tbl)) :
    Emits P Q c (pinLiveSchema v >>= f) := by
  cases hs : storedSchema c.view v.name with
  | ok tbl =>
    exact (hf tbl hs).of_run (run_pinLiveSchema_bind hs f) (by simpa using hP _)
      (by simpa using hQ _)
  | error e =>
    rw [Emits, run_pinLiveSchema_bind_error hs]
    exact ⟨[], (Ctx.emitAll_nil c).symm, by simp⟩

variable [Host]

/-- An `INSERT` without a `NULL` in its key writes its row or none. -/
theorem emits_insertBody (hkey : v.schema.syntheticPK = true ∨ pkPresent v cols = true) :
    Emits (PutsIn v.schema.tableID [pk]) (PutsIn v.schema.tableID []) c
      (insertBody v rowid pk cols) := by
  refine emits_pinLiveSchema_bind (fun _ => putsIn_noop) (fun _ => putsIn_noop) fun tbl _ => ?_
  rw [emitIndexInserts_eq]
  refine (emits_entryOps pk).bind (fun _ h => h.of_nil) (fun _ h => h) fun _ c' _ => ?_
  refine emits_of_ok (run_insertRow hkey rowid tbl _ _ c') ?_
  rw [forall_mem_append]
  exact ⟨putsIn_of_key fun w hw => key_newRow hw, by simp⟩

/-- A same-key `UPDATE` writes its row or none. -/
theorem emits_samePKBody (hv : v.Declares v.schema) :
    Emits (PutsIn v.schema.tableID [pk]) (PutsIn v.schema.tableID []) c (samePKBody v pk cols) := by
  refine emits_pinLiveSchema_bind (fun _ => putsIn_noop) (fun _ => putsIn_noop) fun tbl _ => ?_
  refine Emits.of_run (run_pinRow_bind v pk _ _) (by simp) (by simp) ?_
  rw [emitIndexDeltasSamePK_eq]
  refine (emits_entryOps pk).bind (fun _ h => h.of_nil) (fun _ h => h) fun _ c' _ => ?_
  have hrun (rw : RowWrite) : (emitSamePKUpdate v pk cols >>= fun _ => emitRowWriteEffect v rw) c' =
      .ok () (c'.emitAll ((updateWrites v pk cols).map .data ++
        [.rowWrite (schemaKey v.name) rw])) := by
    rw [run_bind_ok (run_emitSamePKUpdate v pk cols c')]
    simp [emitRowWriteEffect]
  refine emits_of_ok (hrun _) ?_
  rw [forall_mem_append]
  exact ⟨putsIn_of_key fun w hw => key_updateWrites hv hw, by simp⟩

/-- Taking a row away sets no field of any row. -/
theorem putsIn_removes (hv : v.Declares v.schema) (tid : Bytes) (tbl : TableSchema) (pk : Bytes)
    (oldSnap : Option Fields) :
    ∀ e ∈ (oldRowOps tbl pk oldSnap).flatMap (EntryOp.effects pk) ++ (deleteWrites v pk).map .data,
      PutsIn tid [] e := by
  intro e he
  rcases mem_append.mp he with he | he
  · obtain ⟨op, -, he⟩ := mem_flatMap.mp he
    exact putsIn_effects pk op e he
  · obtain ⟨w, hw, rfl⟩ := mem_map.mp he
    rcases (mem_deleteWrites hv).mp hw with ⟨col, -, rfl⟩ | ⟨-, rfl⟩
    all_goals exact putsIn_drop

/-- A `DELETE` sets no field of any row. -/
theorem emits_deleteBody (hv : v.Declares v.schema) :
    Emits (PutsIn v.schema.tableID []) Q c (deleteBody v pk) := by
  cases hs : storedSchema c.view v.name with
  | error e =>
    rw [Emits, deleteBody, run_pinLiveSchema_bind_error hs]
    exact ⟨[], (Ctx.emitAll_nil c).symm, by simp⟩
  | ok tbl =>
    have hrem := putsIn_removes hv v.schema.tableID tbl pk
      c.view[rowKey v.schema.tableID pk]?
    refine emits_of_ok (run_deleteBody hs) ?_
    simp only [deleteEffects, cons_append, forall_mem_cons, forall_mem_append]
      at hrem ⊢
    exact ⟨putsIn_noop, putsIn_noop, hrem, by simp⟩

/-- A key-changing `UPDATE` without a `NULL` in its new key writes the new row or none. -/
theorem emits_pkChangeBody (hv : v.Declares v.schema) {oldPK newPK : Bytes}
    (hkey : ∀ tbl, storedSchema c.view v.name = .ok tbl →
      pkPresent v (pkChangeVals tbl c.view[rowKey v.schema.tableID oldPK]? cols) = true) :
    Emits (PutsIn v.schema.tableID [newPK]) (PutsIn v.schema.tableID []) c
      (pkChangeBody v oldPK newPK cols) := by
  unfold pkChangeBody
  cases hs : storedSchema c.view v.name with
  | error e =>
    have hrun : emitPKChange v oldPK newPK cols c = .error e c :=
      run_pinLiveSchema_bind_error hs _
    rw [Emits, run_bind_error hrun]
    exact ⟨[], (Ctx.emitAll_nil c).symm, by simp⟩
  | ok tbl =>
    set oldSnap := c.view[rowKey v.schema.tableID oldPK]?
    have hrem : ∀ e ∈ Effect.noop (schemaKey v.name) ::
        .noop (rowKey v.schema.tableID oldPK) ::
          (oldRowOps tbl oldPK oldSnap).flatMap (EntryOp.effects oldPK) ++
        (deleteWrites v oldPK).map .data, PutsIn v.schema.tableID [] e := by
      have h := putsIn_removes hv v.schema.tableID tbl oldPK oldSnap
      simp only [cons_append, forall_mem_cons] at h ⊢
      exact ⟨putsIn_noop, putsIn_noop, h⟩
    refine Emits.of_run (by rw [run_bind, run_emitPKChange hs, ← run_bind, afterRemoves])
      (fun e he => (hrem e he).of_nil) hrem ?_
    simp only [bind_assoc, emitIndexInserts_eq]
    refine (emits_entryOps newPK).bind (fun _ h => h.of_nil) (fun _ h => h) fun _ c' _ => ?_
    refine emits_of_ok (run_pkChangeRow (hkey tbl hs) tbl _ _ _ c') ?_
    rw [forall_mem_append]
    refine ⟨putsIn_of_key fun w hw => ?_, by simp⟩
    rcases mem_append.mp hw with hw | hw
    · exact key_presenceWrites hw
    · exact key_columnWrites hw

end Bodies

/-! ## Transactions -/

/-- A statement inside a transaction. -/
inductive TxOp where
  | insert (rowid : Int64) (cols : List Value)
  | update (oldRowID : Int64) (cols : List Value)
  | delete (rowid : Int64)
  | savepoint (name : String)
  | release (name : String)
  | rollbackTo (name : String)

/-- Every row field the effects set belongs to a row that is marked dirty. -/
def Marked (v : VTable) (es : List Effect) (dirty : List (String × Bytes)) : Prop :=
  ∀ pk f p, Effect.data (.put (rowKey v.schema.tableID pk) f p) ∈ es → (v.name, pk) ∈ dirty

/-- An open transaction whose rows are marked dirty, now and in every savepoint. -/
structure Tracked (c : Conn) : Prop where
  declares : c.vtab.Declares c.vtab.schema
  hasPK : c.vtab.schema.hasPK = true
  pending : ∃ es, c.session.txContext = some es ∧ Marked c.vtab es c.session.txDirtyRows
  frames : ∀ frame ∈ c.session.savepoints, Marked c.vtab frame.ctxSnap frame.dirtyRows

/-- **A full scan finds every row of a tracked transaction.** -/
theorem Tracked.finds (h : Tracked c) (hl : Live c.view c.vtab.schema.tableID pk) : c.Finds pk := by
  obtain ⟨es, htx, hmarked⟩ := h.pending
  obtain ⟨f, hf⟩ := hl
  have hv : c.view = applyAll (dataWrites es) c.store := by
    rw [view, ctx, htx, Option.getD_some, Ctx.view]
  rw [hv] at hf
  rcases mem_or_mem_of_cell_applyAll hf with hs | ⟨p, hput⟩
  · exact .inl hs
  · right
    obtain ⟨e, he, hd⟩ := mem_filterMap.mp hput
    cases e with
    | data w =>
      obtain rfl : w = _ := Option.some.inj hd
      rw [dirtyRowPKs, htx]
      exact mem_filterMap.mpr ⟨_, hmarked pk f p he, by simp⟩
    | noop key | rowWrite key rw | observation key pred => cases hd

/-- What a body leaves in the transaction it runs in. -/
theorem Conn.runWrite_emits {body : TxM Unit} (htx : c.session.txContext = some pending)
    (h : Emits P Q c.ctx body) :
    ∃ es, (c.runWrite body = (.ok (), { c with session.txContext := some (pending ++ es) }) ∧
        ∀ e ∈ es, P e) ∨
      ∃ e, c.runWrite body = (.error e, { c with session.txContext := some (pending ++ es) }) ∧
        ∀ e ∈ es, Q e := by
  unfold Emits at h
  have haccept (es : List Effect) :
      c.accept es = { c with session.txContext := some (pending ++ es) } := by
    simp [accept, htx]
  have habandon (es : List Effect) :
      c.abandon es = { c with session.txContext := some (pending ++ es) } := by
    simp [abandon, htx]
  cases hrun : body c.ctx with
  | ok a ctx =>
    rw [hrun] at h
    obtain ⟨es, rfl, hes⟩ := h
    exact ⟨es, .inl ⟨(runWrite_ok hrun).trans (by rw [haccept]), hes⟩⟩
  | error e ctx =>
    rw [hrun] at h
    obtain ⟨es, rfl, hes⟩ := h
    exact ⟨es, .inr ⟨e, (runWrite_error hrun).trans (by rw [habandon]), hes⟩⟩

theorem Session.markRowDirty_foldl {s : Session}
    (htx : s.txContext = some pending) (table : String) (pks : List Bytes) :
    let s' := pks.foldl (fun s pk => s.markRowDirty table pk) s
    s'.txContext = some pending ∧ s'.savepoints = s.savepoints ∧
      s.txDirtyRows ⊆ s'.txDirtyRows ∧ ∀ pk ∈ pks, (table, pk) ∈ s'.txDirtyRows := by
  induction pks generalizing s with
  | nil => exact ⟨htx, rfl, List.Subset.refl _, by simp⟩
  | cons pk pks ih =>
    have hmark : s.markRowDirty table pk =
        { s with txDirtyRows := s.txDirtyRows.insert (table, pk) } := by
      simp [markRowDirty, htx]
    simp only [foldl_cons, hmark]
    obtain ⟨htx', hfrs, hsub, hpks⟩ :=
      ih (s := { s with txDirtyRows := s.txDirtyRows.insert (table, pk) }) htx
    refine ⟨htx', hfrs, fun row hrow => hsub (mem_insert_of_mem hrow), ?_⟩
    rw [forall_mem_cons]
    exact ⟨hsub mem_insert_self, hpks⟩

/-- More effects, with their rows marked. -/
theorem Tracked.extend {es : List Effect} (h : Tracked c)
    (htx : c.session.txContext = some pending) (pks : List Bytes)
    (hes : ∀ e ∈ es, PutsIn c.vtab.schema.tableID pks e)
    (hn : c'.vtab.name = c.vtab.name) (hsch : c'.vtab.schema = c.vtab.schema)
    (hsession : c'.session = pks.foldl (fun s pk => s.markRowDirty c.vtab.name pk)
      { c.session with txContext := some (pending ++ es) }) : Tracked c' := by
  have hmarked {es' : List Effect} {dirty : List (String × Bytes)} :
      Marked c'.vtab es' dirty ↔ Marked c.vtab es' dirty := by
    rw [Marked, Marked, hn, hsch]
  obtain ⟨htx', hfrs, hsub, hpks⟩ := markRowDirty_foldl
    (s := { c.session with txContext := some (pending ++ es) }) rfl c.vtab.name pks
  rw [← hsession] at htx' hfrs hsub hpks
  refine ⟨?_, hsch ▸ h.hasPK, ⟨pending ++ es, htx', hmarked.mpr fun pk f p hmem => ?_⟩,
    fun frame hfr => ?_⟩
  · rw [hsch]
    exact ⟨hn ▸ h.declares.name_eq, by rw [hsch], by rw [hsch], by rw [hsch],
      by rw [hsch]⟩
  · rcases mem_append.mp hmem with hmem | hmem
    · obtain ⟨es', htx'', hmarked'⟩ := h.pending
      obtain rfl : pending = es' := Option.some.inj (htx.symm.trans htx'')
      exact hsub (hmarked' pk f p hmem)
    · exact hpks pk (hes _ hmem pk f p rfl)
  · rw [hfrs] at hfr
    exact hmarked.mpr (h.frames frame hfr)

theorem mem_of_findSavepoint {frames : List SavepointFrame}
    {frame : SavepointFrame} (h : frame ∈ findSavepoint name frames) : frame ∈ frames :=
  (dropWhile_suffix _).subset h

theorem Tracked.handleSavepoint (h : Tracked c)
    (hstep : c.handleSavepoint name = some c') : Tracked c' := by
  obtain ⟨pending, htx, hmarked⟩ := h.pending
  simp only [Conn.handleSavepoint, htx, pushSavepoint, Option.some.injEq] at hstep
  subst hstep
  refine ⟨h.declares, h.hasPK, ⟨pending, rfl, hmarked⟩, fun frame hfr => ?_⟩
  rcases mem_cons.mp hfr with rfl | hfr
  · exact hmarked
  · exact h.frames frame hfr

theorem Tracked.handleReleaseSavepoint (h : Tracked c)
    (hstep : c.handleReleaseSavepoint name = some c') : Tracked c' := by
  obtain ⟨pending, htx, hmarked⟩ := h.pending
  simp only [Conn.handleReleaseSavepoint, htx, releaseSavepoint] at hstep
  cases hf : findSavepoint name c.session.savepoints with
  | nil => simp [hf] at hstep
  | cons top frames =>
    simp only [hf, Option.map_some, Option.some.injEq] at hstep
    subst hstep
    refine ⟨h.declares, h.hasPK, ⟨pending, rfl, hmarked⟩, fun frame hfr => h.frames frame ?_⟩
    exact mem_of_findSavepoint (hf ▸ mem_cons_of_mem _ hfr)

theorem Tracked.handleRollbackTo (h : Tracked c)
    (hstep : c.handleRollbackTo name = some c') : Tracked c' := by
  obtain ⟨pending, htx, hmarked⟩ := h.pending
  simp only [Conn.handleRollbackTo, htx, rollbackToSavepoint] at hstep
  cases hf : findSavepoint name c.session.savepoints with
  | nil => simp [hf] at hstep
  | cons top frames =>
    simp only [hf, Option.map_some, Option.some.injEq] at hstep
    subst hstep
    have hfrs (frame : SavepointFrame) (hfr : frame ∈ top :: frames) :
        Marked c.vtab frame.ctxSnap frame.dirtyRows :=
      h.frames frame (mem_of_findSavepoint (hf ▸ hfr))
    exact ⟨h.declares, h.hasPK, ⟨top.ctxSnap, rfl, hfrs top (mem_cons_self ..)⟩, hfrs⟩

/-- A transaction starts with nothing to mark. -/
theorem tracked_handleBegin {c₀ : Conn} (hi : c₀.session = idle)
    (hst : storedSchema c₀.store c₀.vtab.name = .ok c₀.vtab.schema)
    (hbegin : c₀.handleBegin = some c₁) : Tracked c₁ := by
  obtain ⟨r, -, hload⟩ := storedSchema_eq_ok_iff.mp hst
  obtain ⟨-, -, -, -, hkey, -⟩ := schemaFromSnapshot_eq_ok_iff.mp hload
  have hpk : c₀.vtab.schema.hasPK = true := by
    rcases hkey with hkey | hkey <;> simp [TableSchema.hasPK, hkey]
  simp only [handleBegin, hi, idle, Option.some.injEq] at hbegin
  subst hbegin
  exact ⟨⟨storedSchema_name hst, rfl, rfl, rfl, rfl⟩, hpk, ⟨[], rfl, fun _ _ _ h => absurd h (by simp)⟩,
    fun _ h => absurd h (by simp)⟩

section Run

variable [Host]

/-- `TxOp`, run on a connection; a statement that is refused still leaves what it leaves. -/
def TxOp.step (c : Conn) : TxOp → Conn
  | insert rowid cols => (doInsert rowid cols c).2
  | update oldRowID cols => (doUpdate oldRowID cols c).2
  | delete rowid => (deleteRow rowid c).2
  | savepoint name => (c.handleSavepoint name).getD c
  | release name => (c.handleReleaseSavepoint name).getD c
  | rollbackTo name => (c.handleRollbackTo name).getD c

/-- The statement has no `NULL` for a key column of the row it writes. -/
def TxOp.KeyPresent (c : Conn) : TxOp → Prop
  | insert _ cols => c.vtab.schema.syntheticPK = true ∨ pkPresent c.vtab cols = true
  | update oldRowID cols =>
    ∀ oldPK newPK, updatePKs c.vtab oldRowID cols = .ok (oldPK, newPK) → newPK ≠ oldPK →
      ∀ tbl, storedSchema c.view c.vtab.name = .ok tbl →
        pkPresent c.vtab
          (pkChangeVals tbl c.view[rowKey c.vtab.schema.tableID oldPK]? cols) = true
  | _ => True

theorem Tracked.doInsert (h : Tracked c) (hkey : (TxOp.insert rowid cols).KeyPresent c) :
    Tracked (doInsert rowid cols c).2 := by
  unfold Sql.doInsert
  cases insertTarget c.vtab rowid cols with
  | error e => exact h
  | ok pk =>
    have hb : Emits (PutsIn c.vtab.schema.tableID [pk]) (PutsIn c.vtab.schema.tableID []) c.ctx
        (insertBody c.vtab rowid pk cols) := emits_insertBody hkey
    obtain ⟨pending, htx, -⟩ := h.pending
    obtain ⟨es, ⟨hrun, hes⟩ | ⟨e, hrun, hes⟩⟩ := runWrite_emits htx hb
    · simp only [hrun]
      refine h.extend htx [pk] hes ?_ ?_ rfl
      all_goals split <;> rfl
    · simp only [hrun]
      exact h.extend htx [] hes rfl rfl rfl

theorem Tracked.doUpdate {oldRowID : Int64} (h : Tracked c)
    (hkey : (TxOp.update oldRowID cols).KeyPresent c) : Tracked (doUpdate oldRowID cols c).2 := by
  unfold Sql.doUpdate
  cases hpks : updatePKs c.vtab oldRowID cols with
  | error e => exact h
  | ok pks =>
    obtain ⟨oldPK, newPK⟩ := pks
    obtain ⟨pending, htx, -⟩ := h.pending
    by_cases hne : newPK ≠ oldPK
    · have hb : Emits (PutsIn c.vtab.schema.tableID [newPK])
          (PutsIn c.vtab.schema.tableID []) c.ctx (pkChangeBody c.vtab oldPK newPK cols) :=
        emits_pkChangeBody h.declares (hkey oldPK newPK hpks hne)
      obtain ⟨es, ⟨hrun, hes⟩ | ⟨e, hrun, hes⟩⟩ := runWrite_emits htx hb
      · simp only [hrun, if_pos hne]
        refine h.extend htx [oldPK, newPK] (fun e he => (hes e he).mono (by simp)) ?_ ?_ rfl
        all_goals split <;> simp
      · simp only [hrun, if_pos hne]
        exact h.extend htx [] hes rfl rfl rfl
    · have hb : Emits (PutsIn c.vtab.schema.tableID [oldPK])
          (PutsIn c.vtab.schema.tableID []) c.ctx (samePKBody c.vtab oldPK cols) :=
        emits_samePKBody h.declares
      obtain rfl : newPK = oldPK := not_not.mp hne
      obtain ⟨es, ⟨hrun, hes⟩ | ⟨e, hrun, hes⟩⟩ := runWrite_emits htx hb
      · simp only [hrun, if_neg hne]
        exact h.extend htx [newPK] hes rfl rfl rfl
      · simp only [hrun, if_neg hne]
        exact h.extend htx [] hes rfl rfl rfl

theorem Tracked.deleteRow (h : Tracked c) : Tracked (deleteRow rowid c).2 := by
  unfold Sql.deleteRow
  cases c.vtab.pkForRowID rowid with
  | none => exact h
  | some pk =>
    have hb : Emits (PutsIn c.vtab.schema.tableID []) (PutsIn c.vtab.schema.tableID []) c.ctx
        (deleteBody c.vtab pk) := emits_deleteBody h.declares
    obtain ⟨pending, htx, -⟩ := h.pending
    obtain ⟨es, ⟨hrun, hes⟩ | ⟨e, hrun, hes⟩⟩ := runWrite_emits htx hb
    · simp only [hrun]
      exact h.extend htx [pk] (fun e he => (hes e he).of_nil) (by simp) (by simp) rfl
    · simp only [hrun]
      exact h.extend htx [] hes rfl rfl rfl

/-- **Every statement keeps a transaction tracked.** -/
theorem Tracked.step {op : TxOp} (h : Tracked c) (hkey : op.KeyPresent c) :
    Tracked (op.step c) := by
  have hgetD {c' : Option Conn} (hc' : ∀ d, c' = some d → Tracked d) : Tracked (c'.getD c) := by
    cases c' with
    | none => exact h
    | some d => exact hc' d rfl
  cases op with
  | insert rowid cols => exact h.doInsert hkey
  | update oldRowID cols => exact h.doUpdate hkey
  | delete rowid => exact h.deleteRow
  | savepoint name => exact hgetD fun d hd => h.handleSavepoint hd
  | release name => exact hgetD fun d hd => h.handleReleaseSavepoint hd
  | rollbackTo name => exact hgetD fun d hd => h.handleRollbackTo hd

/-- The transactions whose statements all meet a condition. -/
def TxRun (P : Conn → TxOp → Prop) : Conn → Conn → Prop :=
  Relation.ReflTransGen fun c c' => ∃ op : TxOp, P c op ∧ c' = op.step c

theorem Tracked.run (h : Tracked c₁) (hrun : TxRun (fun c op => op.KeyPresent c) c₁ c) :
    Tracked c := by
  induction hrun with
  | refl => exact h
  | tail _ hstep ih =>
    obtain ⟨op, hkey, rfl⟩ := hstep
    exact ih.step hkey

end Run

section Sample

local instance ownHost : Host := Host.inert

local instance ownKeytrie : Keytrie := Keytrie.ofPrefix

/-- `BEGIN` on the empty table with an index on its key. -/
def openedKey : Conn := { Conn.create keyTable with session := ⟨some [], [], []⟩ }

/-- `INSERT INTO t VALUES (0)` in that transaction. -/
def ownRow : Conn := (TxOp.insert 0 [.integer 0]).step openedKey

theorem txRun_ownRow : TxRun (fun c op => op.KeyPresent c) openedKey ownRow :=
  Relation.ReflTransGen.single ⟨.insert 0 [.integer 0], .inr (by decide), rfl⟩

end Sample

end Swytch.Sql
