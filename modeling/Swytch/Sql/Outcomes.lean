import Swytch.Sql.Agreement

/-!
# What a statement does to its connection

A statement reads through the context of its connection, which outside a transaction is the
committed store.  Its body either succeeds, and then its effects are applied to the store
or joined to those of the transaction, or it fails, and then its effects are dropped
outside a transaction and stay pending inside one.

For each statement, one equation for the outcome that is accepted and one for each that is
not; what the accepted effects write is the write list of the agreement theorems.
-/

namespace Swytch.Sql

open Conn
open KeyedStore TxM

variable {c c' : Conn} {e : SqlError} {oldPK newPK : Bytes}

/-! ## Connections -/

variable {es : List Effect} {body : TxM Unit} {pk : Bytes} {v : VTable}

namespace Conn

/-- The context the statements of a connection run in. -/
def ctx (c : Conn) : Ctx := ⟨c.store, c.session.txContext.getD []⟩

/-- What the statements of a connection read. -/
def view (c : Conn) : Store := c.ctx.view

/-- The connection after a body that succeeded. -/
def accept (c : Conn) (es : List Effect) : Conn :=
  match c.session.txContext with
  | some pending => { c with session.txContext := some (pending ++ es) }
  | none => { c with store := applyAll (dataWrites es) c.store }

/-- The connection after a body that failed. -/
def abandon (c : Conn) (es : List Effect) : Conn :=
  match c.session.txContext with
  | some pending => { c with session.txContext := some (pending ++ es) }
  | none => c

theorem view_of_idle (h : c.session.txContext = none) : c.view = c.store := by
  simp [view, ctx, h]

theorem view_congr (hst : c'.store = c.store)
    (htx : c'.session.txContext = c.session.txContext) : c'.view = c.view := by
  rw [view, view, ctx, ctx, hst, htx]

theorem view_accept : (c.accept es).view = applyAll (dataWrites es) c.view := by
  rw [view, view, ctx, accept, ctx]
  cases h : c.session.txContext with
  | none => simp [h]
  | some pending => exact Ctx.view_emitAll ⟨c.store, pending⟩ es

@[simp] theorem vtab_accept (c : Conn) (es : List Effect) : (c.accept es).vtab = c.vtab := by
  rw [accept]
  cases c.session.txContext <;> rfl

section

variable (h : c.session.txContext = none) (es : List Effect)

include h

theorem store_accept_of_idle : (c.accept es).store = applyAll (dataWrites es) c.store := by
  simp [accept, h]

theorem txContext_accept_of_idle : (c.accept es).session.txContext = none := by
  simp [accept, h]

theorem abandon_of_idle : c.abandon es = c := by
  simp [abandon, h]

end

@[simp] theorem abandon_nil : c.abandon [] = c := by
  obtain ⟨store, ⟨txContext, txDirtyRows, savepoints⟩, vtab⟩ := c
  cases txContext with
  | none => rfl
  | some pending => simp [abandon]

@[simp] theorem store_markRowDirty (c : Conn) (pk : Bytes) :
    (c.markRowDirty pk).store = c.store := rfl

@[simp] theorem txContext_markRowDirty (c : Conn) (pk : Bytes) :
    (c.markRowDirty pk).session.txContext = c.session.txContext := by
  rw [markRowDirty, Session.markRowDirty]
  cases h : c.session.txContext <;> simp [h]

@[simp] theorem vtab_markRowDirty (c : Conn) (pk : Bytes) :
    (c.markRowDirty pk).vtab = c.vtab := rfl

theorem runWrite_ok (h : body c.ctx = .ok () (c.ctx.emitAll es)) :
    c.runWrite body = (.ok (), c.accept es) := by
  unfold runWrite accept
  cases htx : c.session.txContext with
  | none =>
    simp only [ctx, htx, Option.getD_none] at h ⊢
    rw [runRMW_of_ok h, Ctx.view_emitAll, Ctx.view_fresh]
  | some pending =>
    simp only [ctx, htx, Option.getD_some] at h
    simp [h]

theorem runWrite_error (h : body c.ctx = .error e (c.ctx.emitAll es)) :
    c.runWrite body = (.error e, c.abandon es) := by
  unfold runWrite abandon
  cases htx : c.session.txContext with
  | none =>
    simp only [ctx, htx] at h ⊢
    rw [runRMW_of_error h]
  | some pending =>
    simp only [ctx, htx, Option.getD_some] at h
    simp [h]

end Conn

/-! ## Keys -/

/-- What follows a successful step. -/
theorem except_bind_eq_ok {α β : Type} {x : Except SqlError α} {f : α → Except SqlError β} {b : β} :
    (x >>= f) = .ok b ↔ ∃ a, x = .ok a ∧ f a = .ok b := by
  cases x with
  | error e | ok a => simp [bind, Except.bind]

section Keys

variable {v : VTable} {cols : List Value} [Host]

theorem tuplePK_eq_ok :
    tuplePK v cols = .ok pk ↔
      encodePK (v.schema.pkValues cols) v.schema.pkAffinities = some pk := by
  unfold tuplePK
  cases h : encodePK (v.schema.pkValues cols) v.schema.pkAffinities <;> simp [h]

/-- The key of an `INSERT` encodes the key columns of its tuple. -/
theorem insertTarget_ok {rowid : Int64} (h : insertTarget v rowid cols = .ok pk)
    (hsyn : v.schema.syntheticPK = false) :
    encodePK (v.schema.pkValues cols) v.schema.pkAffinities = some pk := by
  obtain ⟨-, -, hpk⟩ := except_bind_eq_ok.mp h
  rw [insertPK, if_neg (by simp [hsyn])] at hpk
  exact tuplePK_eq_ok.mp hpk

/-- An `UPDATE` keeps a synthetic key and otherwise moves the row to the key of its tuple. -/
theorem updatePKs_ok {oldRowID : Int64} (h : updatePKs v oldRowID cols = .ok (oldPK, newPK)) :
    v.pkForRowID oldRowID = some oldPK ∧ (v.schema.syntheticPK = true → newPK = oldPK) ∧
      (v.schema.syntheticPK = false →
        encodePK (v.schema.pkValues cols) v.schema.pkAffinities = some newPK) := by
  obtain ⟨-, -, h⟩ := except_bind_eq_ok.mp h
  cases hrow : v.pkForRowID oldRowID with
  | none => simp [hrow] at h
  | some pk =>
    simp only [hrow] at h
    obtain ⟨pk', hnew, hp⟩ := except_bind_eq_ok.mp h
    obtain ⟨rfl, rfl⟩ : pk = oldPK ∧ pk' = newPK := by
      simpa [pure, Except.pure] using hp
    rw [updatePK] at hnew
    refine ⟨rfl, fun hsyn => ?_, fun hsyn => ?_⟩
    · rw [if_pos hsyn] at hnew
      exact (Except.ok.inj hnew).symm
    · rw [if_neg (by simp [hsyn])] at hnew
      exact tuplePK_eq_ok.mp hnew

end Keys

/-! ## The statements -/

@[simp] theorem VTable.name_forgetRowID (v : VTable) (rowid : Int64) :
    (v.forgetRowID rowid).name = v.name := by
  rw [forgetRowID]
  split <;> rfl

@[simp] theorem VTable.schema_forgetRowID (v : VTable) (rowid : Int64) :
    (v.forgetRowID rowid).schema = v.schema := by
  rw [forgetRowID]
  split <;> rfl

@[simp] theorem VTable.name_rememberRowID (v : VTable) (rowid : Int64) (pk : Bytes) :
    (v.rememberRowID rowid pk).name = v.name := rfl

@[simp] theorem VTable.schema_rememberRowID (v : VTable) (rowid : Int64) (pk : Bytes) :
    (v.rememberRowID rowid pk).schema = v.schema := rfl

section Statements

variable {rowid oldRowID : Int64} {cols : List Value} {pk : Bytes} [Host] {tbl : TableSchema}

/-- The rowids a virtual table remembers after a statement wrote a row. -/
def VTable.remembered (v : VTable) (pk : Bytes) : VTable :=
  if v.schema.integerRowidFastPath then v else v.rememberRowID (v.rowIDForPK pk) pk

@[simp] theorem VTable.name_remembered (v : VTable) (pk : Bytes) :
    (v.remembered pk).name = v.name := by
  rw [remembered]
  split <;> rfl

@[simp] theorem VTable.schema_remembered (v : VTable) (pk : Bytes) :
    (v.remembered pk).schema = v.schema := by
  rw [remembered]
  split <;> rfl

/-- The connection after an `INSERT` that is accepted. -/
def Conn.inserted (c : Conn) (tbl : TableSchema) (rowid : Int64) (pk : Bytes)
    (cols : List Value) : Conn :=
  { (c.accept (insertEffects c.vtab tbl rowid pk cols)).markRowDirty pk with
    vtab := c.vtab.remembered pk }

theorem doInsert_of_refused
    (h : insertTarget c.vtab rowid cols = .error e) : doInsert rowid cols c = (.error e, c) := by
  simp [doInsert, h]

section

variable (hs : storedSchema c.view c.vtab.name = .ok tbl)

include hs

theorem doInsert_of_accepts (hpk : insertTarget c.vtab rowid cols = .ok pk)
    (hacc : InsertAccepts c.view c.vtab tbl pk cols) :
    doInsert rowid cols c = (.ok (c.vtab.rowIDForPK pk), c.inserted tbl rowid pk cols) := by
  simp [doInsert, hpk, runWrite_ok (run_insertBody_ok hs hacc rowid), inserted,
    VTable.remembered]

theorem doInsert_of_not_accepts (hpk : insertTarget c.vtab rowid cols = .ok pk)
    (hacc : ¬ InsertAccepts c.view c.vtab tbl pk cols) :
    ∃ e es, doInsert rowid cols c =
      (.error e, c.abandon (.noop (schemaKey c.vtab.name) :: es)) := by
  obtain ⟨e, es, hes⟩ := run_insertBody_error hs hacc rowid
  exact ⟨e, es, by simp [doInsert, hpk, runWrite_error hes]⟩

/-- What an `INSERT` does. -/
theorem doInsert_cases (rowid : Int64) (cols : List Value) :
    (∃ e es, doInsert rowid cols c = (.error e, c.abandon es)) ∨
      ∃ pk, insertTarget c.vtab rowid cols = .ok pk ∧ InsertAccepts c.view c.vtab tbl pk cols ∧
        doInsert rowid cols c = (.ok (c.vtab.rowIDForPK pk), c.inserted tbl rowid pk cols) := by
  cases hpk : insertTarget c.vtab rowid cols with
  | error e => exact .inl ⟨e, [], by rw [doInsert_of_refused hpk, abandon_nil]⟩
  | ok pk =>
    by_cases hacc : InsertAccepts c.view c.vtab tbl pk cols
    · exact .inr ⟨pk, rfl, hacc, doInsert_of_accepts hs hpk hacc⟩
    · obtain ⟨e, es, hes⟩ := doInsert_of_not_accepts hs hpk hacc
      exact .inl ⟨e, _, hes⟩

/-- The connection after an accepted `UPDATE` that keeps the key. -/
def Conn.updated (c : Conn) (tbl : TableSchema) (pk : Bytes) (cols : List Value) : Conn :=
  (c.accept (samePKEffects c.vtab tbl pk c.view[rowKey c.vtab.schema.tableID pk]? cols)).markRowDirty
    pk

/-- The connection after an accepted `UPDATE` that changes the key. -/
def Conn.moved (c : Conn) (tbl : TableSchema) (oldRowID : Int64) (oldPK newPK : Bytes)
    (cols : List Value) : Conn :=
  { ((c.accept (pkChangeEffects c.vtab tbl oldPK newPK
      c.view[rowKey c.vtab.schema.tableID oldPK]? cols)).markRowDirty oldPK).markRowDirty newPK with
    vtab := (c.vtab.forgetRowID oldRowID).remembered newPK }

omit hs in
theorem doUpdate_of_refused (h : updatePKs c.vtab oldRowID cols = .error e) :
    doUpdate oldRowID cols c = (.error e, c) := by
  simp [doUpdate, h]

theorem doUpdate_samePK_of_accepts (hpk : updatePKs c.vtab oldRowID cols = .ok (pk, pk))
    (hacc : SamePKAccepts c.view c.vtab tbl pk cols) :
    doUpdate oldRowID cols c = (.ok (c.vtab.rowIDForPK pk), c.updated tbl pk cols) := by
  simp [doUpdate, hpk, runWrite_ok (run_samePKBody_ok hs hacc), updated, view]

theorem doUpdate_samePK_of_not_accepts (hpk : updatePKs c.vtab oldRowID cols = .ok (pk, pk))
    (hacc : ¬ SamePKAccepts c.view c.vtab tbl pk cols) :
    ∃ e es, doUpdate oldRowID cols c =
      (.error e, c.abandon (.noop (schemaKey c.vtab.name) :: es)) := by
  obtain ⟨e, es, hes⟩ := run_samePKBody_error hs hacc
  exact ⟨e, es, by simp [doUpdate, hpk, runWrite_error hes]⟩

section

variable (hpk : updatePKs c.vtab oldRowID cols = .ok (oldPK, newPK)) (hne : newPK ≠ oldPK)

include hpk hne

theorem doUpdate_pkChange_of_accepts (hacc : PKChangeAccepts c.view c.vtab tbl oldPK newPK cols) :
    doUpdate oldRowID cols c =
      (.ok (c.vtab.rowIDForPK newPK), c.moved tbl oldRowID oldPK newPK cols) := by
  simp [doUpdate, hpk, hne, runWrite_ok (run_pkChangeBody_ok hs hacc), moved, view,
    VTable.remembered, VTable.rowIDForPK]

theorem doUpdate_pkChange_of_not_accepts
    (hacc : ¬ PKChangeAccepts c.view c.vtab tbl oldPK newPK cols) :
    ∃ e es, doUpdate oldRowID cols c =
      (.error e, c.abandon (.noop (schemaKey c.vtab.name) :: es)) := by
  obtain ⟨e, es, hes⟩ := run_pkChangeBody_error hs hacc
  exact ⟨e, es, by simp [doUpdate, hpk, hne, runWrite_error hes]⟩

end

/-- What an `UPDATE` does. -/
theorem doUpdate_cases (oldRowID : Int64) (cols : List Value) :
    (∃ e es, doUpdate oldRowID cols c = (.error e, c.abandon es)) ∨
      ∃ oldPK newPK, updatePKs c.vtab oldRowID cols = .ok (oldPK, newPK) ∧
        (newPK = oldPK ∧ SamePKAccepts c.view c.vtab tbl oldPK cols ∧
            doUpdate oldRowID cols c = (.ok (c.vtab.rowIDForPK oldPK), c.updated tbl oldPK cols) ∨
          newPK ≠ oldPK ∧ PKChangeAccepts c.view c.vtab tbl oldPK newPK cols ∧
            doUpdate oldRowID cols c =
              (.ok (c.vtab.rowIDForPK newPK), c.moved tbl oldRowID oldPK newPK cols)) := by
  cases hpk : updatePKs c.vtab oldRowID cols with
  | error e => exact .inl ⟨e, [], by rw [doUpdate_of_refused hpk, abandon_nil]⟩
  | ok pks =>
    obtain ⟨oldPK, newPK⟩ := pks
    by_cases hne : newPK = oldPK
    · subst hne
      by_cases hacc : SamePKAccepts c.view c.vtab tbl newPK cols
      · exact .inr ⟨_, _, rfl, .inl ⟨rfl, hacc, doUpdate_samePK_of_accepts hs hpk hacc⟩⟩
      · obtain ⟨e, es, hes⟩ := doUpdate_samePK_of_not_accepts hs hpk hacc
        exact .inl ⟨e, _, hes⟩
    · by_cases hacc : PKChangeAccepts c.view c.vtab tbl oldPK newPK cols
      · exact .inr ⟨_, _, rfl, .inr ⟨hne, hacc, doUpdate_pkChange_of_accepts hs hpk hne hacc⟩⟩
      · obtain ⟨e, es, hes⟩ := doUpdate_pkChange_of_not_accepts hs hpk hne hacc
        exact .inl ⟨e, _, hes⟩

def Conn.deleted (c : Conn) (tbl : TableSchema) (rowid : Int64) (pk : Bytes) : Conn :=
  { (c.accept (deleteEffects c.vtab tbl pk
      c.view[rowKey c.vtab.schema.tableID pk]?)).markRowDirty pk with
    vtab := c.vtab.forgetRowID rowid }

omit hs in
theorem deleteRow_of_refused (h : c.vtab.pkForRowID rowid = none) :
    deleteRow rowid c = (.error (.unknownRowid "delete" rowid), c) := by
  simp [deleteRow, h]

theorem deleteRow_ok (hpk : c.vtab.pkForRowID rowid = some pk) :
    deleteRow rowid c = (.ok (), c.deleted tbl rowid pk) := by
  simp [deleteRow, hpk, runWrite_ok (run_deleteBody hs), deleted, view]

end

/-! ## What the statements write -/

theorem Conn.view_inserted (rowid : Int64) (pk : Bytes) (cols : List Value) :
    (c.inserted tbl rowid pk cols).view =
      applyAll (dataWrites (insertEffects c.vtab tbl rowid pk cols)) c.view := by
  rw [← view_accept]
  exact view_congr rfl (txContext_markRowDirty _ _)

theorem Conn.view_updated (pk : Bytes) (cols : List Value) :
    (c.updated tbl pk cols).view = applyAll (dataWrites
      (samePKEffects c.vtab tbl pk c.view[rowKey c.vtab.schema.tableID pk]? cols)) c.view := by
  rw [← view_accept]
  exact view_congr rfl (txContext_markRowDirty _ _)

theorem Conn.view_moved (oldRowID : Int64) (oldPK newPK : Bytes) (cols : List Value) :
    (c.moved tbl oldRowID oldPK newPK cols).view = applyAll (dataWrites
      (pkChangeEffects c.vtab tbl oldPK newPK
        c.view[rowKey c.vtab.schema.tableID oldPK]? cols)) c.view := by
  rw [← view_accept]
  exact view_congr rfl
    ((txContext_markRowDirty _ _).trans (txContext_markRowDirty _ _))

theorem dataWrites_insertEffects (hv : v.Declares tbl) (rowid : Int64) (pk : Bytes)
    (cols : List Value) :
    dataWrites (insertEffects v tbl rowid pk cols) = insertWrites v tbl rowid pk cols := by
  simp [insertEffects, insertWrites, hv.tableID_eq]

theorem dataWrites_samePKEffects (v : VTable) (tbl : TableSchema) (pk : Bytes)
    (oldSnap : Option Fields) (cols : List Value) :
    dataWrites (samePKEffects v tbl pk oldSnap cols) = samePKWrites v tbl pk oldSnap cols := by
  simp [samePKEffects, samePKWrites]

theorem dataWrites_deleteEffects (v : VTable) (tbl : TableSchema) (pk : Bytes)
    (oldSnap : Option Fields) :
    dataWrites (deleteEffects v tbl pk oldSnap) = pkChangeRemoves v tbl pk oldSnap := by
  simp [deleteEffects, pkChangeRemoves]

theorem dataWrites_pkChangeEffects (hv : v.Declares tbl) (oldPK newPK : Bytes)
    (oldSnap : Option Fields) (cols : List Value) :
    dataWrites (pkChangeEffects v tbl oldPK newPK oldSnap cols) =
      pkChangeWrites v tbl oldPK newPK oldSnap cols := by
  simp [pkChangeEffects, pkChangeRowEffects, pkChangeWrites, pkChangeRemoves, hv.tableID_eq]

end Statements

end Swytch.Sql
