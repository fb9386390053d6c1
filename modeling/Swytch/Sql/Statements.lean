import Swytch.Sql.WritePath

/-!
# Row statements

The bodies of `doInsert`, `doUpdate` and `DeleteRow`, and the statements around them: the
checks before the body, `runWrite`, and the session state a successful statement leaves.
-/

namespace Swytch.Sql

open KeyedStore TxM

variable [Host]

/-! ## Bodies -/

/-- The body of `doInsert`. -/
def insertBody (v : VTable) (syntheticRowID : Int64) (pk : Bytes) (cols : List Value) :
    TxM Unit := do
  let tbl ← pinLiveSchema v
  emitIndexInserts tbl pk cols
  let key := rowKey v.schema.tableID pk
  let _ ← getSnapshot key
  if v.schema.syntheticPK then emitSyntheticPKPresence v key syntheticRowID
  else emitPKPresence v key cols
  emitColumns tbl key cols
  emitRowWriteEffect v (rowWriteForTuple v .insert pk cols)

/-- The values of the row a key change writes: what is supplied, and the stored value of a
column that is not. -/
def pkChangeVals (tbl : TableSchema) (oldSnap : Option Fields) (cols : List Value) :
    List Value :=
  tbl.enumColumns.map fun (col, i) =>
    let val := TableSchema.valueAt cols i
    if val.noChange && oldSnap.isSome then carriedValue col oldSnap else val

/-- The row a statement removes: what its snapshot holds, all `NULL` without one. -/
def oldRowVals (tbl : TableSchema) (pk : Bytes) (oldSnap : Option Fields) : List Value :=
  match oldSnap with
  | some snap => valuesFromSnapshot tbl pk snap
  | none => List.replicate tbl.columns.length .null

/-- The entries of the row a statement removes; nothing without a snapshot. -/
def emitOldRowRemoves (tbl : TableSchema) (pk : Bytes) (oldSnap : Option Fields) : TxM Unit :=
  if oldSnap.isSome then emitIndexRemoves tbl pk (oldRowVals tbl pk oldSnap) else pure ()

/-- `emitPKChange`: the new row and the old row. -/
def emitPKChange (v : VTable) (oldPK newPK : Bytes) (cols : List Value) :
    TxM (List Value × List Value) := do
  let tbl ← pinLiveSchema v
  let oldSnap ← pinRow v oldPK
  let oldVals := oldRowVals tbl oldPK oldSnap
  emitOldRowRemoves tbl oldPK oldSnap
  emitRowDelete v oldPK
  let newVals := pkChangeVals tbl oldSnap cols
  emitIndexInserts tbl newPK newVals
  let newKey := rowKey v.schema.tableID newPK
  let _ ← getSnapshot newKey
  emitPKPresence v newKey newVals
  emitColumns tbl newKey newVals
  return (newVals, oldVals)

/-- The body of a key-changing `doUpdate`. -/
def pkChangeBody (v : VTable) (oldPK newPK : Bytes) (cols : List Value) : TxM Unit := do
  let (newVals, oldVals) ← emitPKChange v oldPK newPK cols
  emitRowWriteEffect v (rowWriteForTuple v .delete oldPK oldVals)
  emitRowWriteEffect v (rowWriteForTuple v .insert newPK newVals)

/-- The body of a same-key `doUpdate`. -/
def samePKBody (v : VTable) (pk : Bytes) (cols : List Value) : TxM Unit := do
  let tbl ← pinLiveSchema v
  let oldSnap ← pinRow v pk
  emitIndexDeltasSamePK tbl pk oldSnap cols
  let newVals := mergeSamePKRow tbl pk oldSnap cols
  emitSamePKUpdate v pk cols
  emitRowWriteEffect v (rowWriteForTuple v .update pk newVals)

/-- The body of `DeleteRow`. -/
def deleteBody (v : VTable) (pk : Bytes) : TxM Unit := do
  let tbl ← pinLiveSchema v
  let oldSnap ← pinRow v pk
  let deletedVals := oldRowVals tbl pk oldSnap
  emitOldRowRemoves tbl pk oldSnap
  emitRowDelete v pk
  emitRowWriteEffect v (rowWriteForTuple v .delete pk deletedVals)

/-! ## Statements -/

/-- One connection: the committed store, the session, the virtual table. -/
structure Conn where
  store : Store
  session : Session
  vtab : VTable

/-- `runWrite`: inside a transaction the body runs on the session's context and whatever it
has emitted stays there; otherwise it is its own read-modify-write. -/
def Conn.runWrite (c : Conn) (body : TxM Unit) : Except SqlError Unit × Conn :=
  match c.session.txContext with
  | some pending =>
    match body ⟨c.store, pending⟩ with
    | .ok _ ctx => (.ok (), { c with session.txContext := some ctx.pending })
    | .error e ctx => (.error e, { c with session.txContext := some ctx.pending })
  | none =>
    let (r, store) := runRMW c.store body
    (r, { c with store })

/-- `markRowDirty` on the session of a connection. -/
def Conn.markRowDirty (c : Conn) (pk : Bytes) : Conn :=
  { c with session := c.session.markRowDirty c.vtab.name pk }

/-- The checks that `doInsert` and `doUpdate` start with. -/
def checkTuple (v : VTable) (statement : String) (cols : List Value) : Except SqlError Unit := do
  if !v.schema.hasPK then throw (.noPrimaryKey v.name)
  if cols.length ≠ v.schema.columns.length then
    throw (.columnCount statement cols.length v.schema.columns.length)

/-- The primary key of a tuple of a table with a declared key. -/
def tuplePK (v : VTable) (cols : List Value) : Except SqlError Bytes :=
  let pkVals := v.schema.pkValues cols
  let pkAffs := v.schema.pkAffinities
  match encodePK pkVals pkAffs with
  | some pk => .ok pk
  | none => .error (.pkArity pkVals.length pkAffs.length)

/-- The primary key `doInsert` writes at; a synthetic key is the allocated rowid. -/
def insertPK (v : VTable) (syntheticRowID : Int64) (cols : List Value) : Except SqlError Bytes :=
  if v.schema.syntheticPK then .ok (pkOfRowID syntheticRowID) else tuplePK v cols

/-- The primary key `doUpdate` moves the row to. -/
def updatePK (v : VTable) (oldPK : Bytes) (cols : List Value) : Except SqlError Bytes :=
  if v.schema.syntheticPK then .ok oldPK else tuplePK v cols

/-- The checks of `doInsert` and the primary key it writes at. -/
def insertTarget (v : VTable) (syntheticRowID : Int64) (cols : List Value) :
    Except SqlError Bytes := do
  checkTuple v "insert" cols
  insertPK v syntheticRowID cols

/-- `doInsert`; `syntheticRowID` is what `nextSyntheticRowID` returns. -/
def doInsert (syntheticRowID : Int64) (cols : List Value) (c : Conn) :
    Except SqlError Int64 × Conn :=
  match insertTarget c.vtab syntheticRowID cols with
  | .error e => (.error e, c)
  | .ok pk =>
    match c.runWrite (insertBody c.vtab syntheticRowID pk cols) with
    | (.error e, c') => (.error e, c')
    | (.ok _, c') =>
      let rowid := c.vtab.rowIDForPK pk
      let vtab := if c.vtab.schema.integerRowidFastPath then c.vtab
        else c.vtab.rememberRowID rowid pk
      (.ok rowid, { c'.markRowDirty pk with vtab })

/-- The primary keys `doUpdate` works on: that of the row and that of its new tuple. -/
def updatePKs (v : VTable) (oldRowID : Int64) (cols : List Value) :
    Except SqlError (Bytes × Bytes) := do
  checkTuple v "update" cols
  match v.pkForRowID oldRowID with
  | none => throw (.unknownRowid "update" oldRowID)
  | some oldPK => return (oldPK, ← updatePK v oldPK cols)

def doUpdate (oldRowID : Int64) (cols : List Value) (c : Conn) : Except SqlError Int64 × Conn :=
  match updatePKs c.vtab oldRowID cols with
  | .error e => (.error e, c)
  | .ok (oldPK, newPK) =>
    if newPK ≠ oldPK then
      match c.runWrite (pkChangeBody c.vtab oldPK newPK cols) with
      | (.error e, c') => (.error e, c')
      | (.ok _, c') =>
        let newRowID := c.vtab.rowIDForPK newPK
        let vtab := c.vtab.forgetRowID oldRowID
        let vtab := if c.vtab.schema.integerRowidFastPath then vtab
          else vtab.rememberRowID newRowID newPK
        (.ok newRowID, { (c'.markRowDirty oldPK).markRowDirty newPK with vtab })
    else
      match c.runWrite (samePKBody c.vtab oldPK cols) with
      | (.error e, c') => (.error e, c')
      | (.ok _, c') => (.ok (c.vtab.rowIDForPK newPK), c'.markRowDirty newPK)

def deleteRow (rowid : Int64) (c : Conn) : Except SqlError Unit × Conn :=
  match c.vtab.pkForRowID rowid with
  | none => (.error (.unknownRowid "delete" rowid), c)
  | some pk =>
    match c.runWrite (deleteBody c.vtab pk) with
    | (.error e, c') => (.error e, c')
    | (.ok _, c') => (.ok (), { c'.markRowDirty pk with vtab := c.vtab.forgetRowID rowid })

end Swytch.Sql
