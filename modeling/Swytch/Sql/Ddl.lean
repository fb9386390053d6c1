import Swytch.Sql.CreateIndex

/-!
# Data definition

The handlers of `CREATE TABLE`, `DROP TABLE`, `ALTER TABLE`, `DROP INDEX`, `CREATE VIEW` and
`DROP VIEW`.  Some read what they need before their transaction (the *preflight*) and some
inside its body; the difference matters under contention, so every body here takes the
preflight value as an argument and reads the rest through its context.

What a handler does to the SQLite connection of its session after the commit is not part of
the model: the catalog is the store.
-/

namespace Swytch.Sql

open KeyedStore TxM

/-! ## Index metadata -/

/-- The fields of the metadata of an index. -/
def indexMetaFields : List Bytes :=
  [indexFieldIndexID, indexFieldTable, indexFieldTableID, indexFieldColumns, indexFieldUnique]

def emitIndexMetadataRemove (name : String) : TxM Unit := do
  forM indexMetaFields fun f => emitKeyedRemove (indexMetaKey name) f
  emitKeyedRemove indexListKey (utf8 name)

def splitNUL (b : Bytes) : List Bytes := b.splitOn 0

/-- `GetData().Decompress()`: the bytes of a raw value. -/
def Payload.bytes : Payload → Bytes
  | .raw b => b
  | _ => []

/-- The bytes of a field, none when it is absent. -/
def rawField (reduced : Fields) (field : Bytes) : Bytes := (reduced[field]?).elim [] Payload.bytes

/-- The stored `cols` list. -/
def indexColumns (reduced : Fields) : List String :=
  let raw := rawField reduced indexFieldColumns
  if raw.isEmpty then [] else (splitNUL raw).map ofUtf8

/-- The stored `unique` flag. -/
def indexUnique (reduced : Fields) : Bool :=
  match reduced[indexFieldUnique]? with
  | some (.intVal i) => i ≠ 0
  | _ => false

/-- `loadIndexSchema` on a snapshot. -/
def indexOfSnapshot (name : String) : Option Fields → Except SqlError IndexSchema
  | none => .error (.noSuchIndex name)
  | some reduced =>
    if reduced.isEmpty then .error (.noSuchIndex name)
    else
      let indexID := rawField reduced indexFieldIndexID
      if indexID = [] then .error (.indexMissingID name)
      else .ok
        { name, indexID
          table := ofUtf8 (rawField reduced indexFieldTable)
          tableID := rawField reduced indexFieldTableID
          columns := indexColumns reduced
          unique := indexUnique reduced }

/-- The index metadata a store holds under a name. -/
def storedIndex (store : Store) (name : String) : Except SqlError IndexSchema :=
  indexOfSnapshot name store[indexMetaKey name]?

/-! ## Views -/

structure ViewSchema where
  name : String
  body : String
  deriving DecidableEq, Repr

def emitView (v : ViewSchema) : TxM Unit := do
  if v.name = "" then throw (.viewEmpty v.name)
  if v.body = "" then throw (.viewEmpty v.name)
  emitRawField (viewMetaKey v.name) viewFieldSQL (utf8 v.body)
  emitRawField viewListKey (utf8 v.name) [1]

def emitViewRemove (name : String) : TxM Unit := do
  emitKeyedRemove (viewMetaKey name) viewFieldSQL
  emitKeyedRemove viewListKey (utf8 name)

/-- `loadView` on a snapshot. -/
def viewOfSnapshot (name : String) : Option Fields → Except SqlError ViewSchema
  | none => .error (.noSuchView name)
  | some reduced =>
    if reduced.isEmpty then .error (.noSuchView name)
    else
      let body := rawField reduced viewFieldSQL
      if body = [] then .error (.viewMissing name) else .ok ⟨name, ofUtf8 body⟩

/-- The view a store holds under a name. -/
def storedView (store : Store) (name : String) : Except SqlError ViewSchema :=
  viewOfSnapshot name store[viewMetaKey name]?

/-! ## Registries -/

/-- A name is present in the snapshot of a registry. -/
def listed (registry : Option Fields) (name : String) : Bool :=
  registry.any fun reduced => reduced.contains (utf8 name)

/-- The read of a key and its pin. -/
def pinKey (key : Bytes) : TxM (Option Fields) := do
  let snap ← getSnapshot key
  emit (.noop key)
  return snap

/-! ## `CREATE TABLE` and `DROP TABLE` -/

/-- The body of `handleCreateTable`. -/
def createTableBody (schema : TableSchema) : TxM Unit := do
  if listed (← getSnapshot tableListKey) schema.name then throw (.tableExists schema.name)
  emit (.noop tableListKey)
  emitSchema schema

/-- `handleCreateTable` without contention; `schema` is what `parseCreateTable` returns. -/
def handleCreateTable (schema : TableSchema) (store : Store) : Except SqlError Unit × Store :=
  runRMW store (createTableBody schema)

section Scans

variable [Keytrie]

def dropIndexEntries (indexID : Bytes) : TxM Unit := do
  let entryKeys ← scanCommitted [] (indexKeyPattern indexID)
  forM entryKeys fun ek => do
    match ← getSnapshot ek with
    | none => pure ()
    | some snap => forM snap.keys fun field => emitKeyedRemove ek field

/-- The entries and the metadata of an index, removed. -/
def dropIndex (idx : IndexSchema) : TxM Unit := do
  dropIndexEntries idx.indexID
  emitIndexMetadataRemove idx.name

/-- The schema fields that `DROP TABLE` and `RENAME TO` remove. -/
def droppedSchemaFields : List Bytes :=
  [schemaFieldTableID, schemaFieldColumns, schemaFieldPK, schemaFieldIndexes]

/-- The body of `handleDropTable`, with the schema of the preflight. -/
def dropTableBody (name : String) (schema : TableSchema) : TxM Unit := do
  let _ ← pinKey (schemaKey name)
  let rowKeys ← scanCommitted [] (rowKeyPattern schema.tableID)
  forM rowKeys fun key => forM schema.columns fun col => emitKeyedRemove key (utf8 col.name)
  forM schema.indexes dropIndex
  forM droppedSchemaFields fun field => emitKeyedRemove (schemaKey name) field
  emitKeyedRemove tableListKey (utf8 name)

/-- `handleDropTable` without contention. -/
def handleDropTable (name : String) (ifExists : Bool) (store : Store) :
    Except SqlError Unit × Store :=
  match storedSchema store name with
  | .error (.noSuchTable _) =>
    if ifExists then (.ok (), store) else (.error (.noSuchTable name), store)
  | .error e => (.error e, store)
  | .ok schema => runRMW store (dropTableBody name schema)

/-! ## `DROP INDEX` -/

/-- The body of `handleDropIndex`, with the metadata of the preflight. -/
def dropIndexBody (name : String) (metadata : IndexSchema) : TxM Unit := do
  let _ ← pinKey (indexMetaKey name)
  dropIndexEntries metadata.indexID
  emitIndexMetadataRemove name
  let tbl ← loadSchema metadata.table
  emitSchema { tbl with indexes := tbl.indexes.filter (·.name ≠ name) }

/-- `handleDropIndex` without contention. -/
def handleDropIndex (name : String) (ifExists : Bool) (store : Store) :
    Except SqlError Unit × Store :=
  match storedIndex store name with
  | .error (.noSuchIndex _) =>
    if ifExists then (.ok (), store) else (.error (.noSuchIndex name), store)
  | .error e => (.error e, store)
  | .ok metadata => runRMW store (dropIndexBody name metadata)

end Scans

/-! ## `CREATE VIEW` and `DROP VIEW` -/

/-- The body of `handleCreateView`. -/
def createViewBody (v : ViewSchema) (ifNotExists : Bool) : TxM Unit := do
  if listed (← getSnapshot viewListKey) v.name then
    if ifNotExists then return else throw (.viewExists v.name)
  emit (.noop viewListKey)
  if listed (← getSnapshot tableListKey) v.name then throw (.nameInUse v.name)
  emit (.noop tableListKey)
  emitView v

/-- `handleCreateView` without contention. -/
def handleCreateView (v : ViewSchema) (ifNotExists : Bool) (store : Store) :
    Except SqlError Unit × Store :=
  match storedView store v.name with
  | .ok _ => if ifNotExists then (.ok (), store) else (.error (.viewExists v.name), store)
  | .error (.noSuchView _) =>
    match storedSchema store v.name with
    | .ok _ => (.error (.nameInUse v.name), store)
    | .error _ => runRMW store (createViewBody v ifNotExists)
  | .error e => (.error e, store)

/-- The body of `handleDropView`. -/
def dropViewBody (name : String) : TxM Unit := do
  let _ ← pinKey (viewMetaKey name)
  emitViewRemove name

/-- `handleDropView` without contention. -/
def handleDropView (name : String) (ifExists : Bool) (store : Store) :
    Except SqlError Unit × Store :=
  match storedView store name with
  | .error (.noSuchView _) =>
    if ifExists then (.ok (), store) else (.error (.noSuchView name), store)
  | .error e => (.error e, store)
  | .ok _ => runRMW store (dropViewBody name)

/-! ## `ALTER TABLE` -/

section Alter

variable [Host]

def TableSchema.renamed (t : TableSchema) (newName : String) : TableSchema :=
  { t with name := newName, indexes := t.indexes.map fun idx => { idx with table := newName } }

/-- The body of `handleAlterRenameTable`. -/
def renameTableBody (oldName newName : String) : TxM Unit := do
  let _ ← pinKey (schemaKey oldName)
  if listed (← getSnapshot tableListKey) newName then throw (.tableExists newName)
  emit (.noop tableListKey)
  let tbl := (← loadSchema oldName).renamed newName
  emitSchema tbl
  forM droppedSchemaFields fun f => emitKeyedRemove (schemaKey oldName) f
  emitKeyedRemove tableListKey (utf8 oldName)
  forM tbl.indexes fun idx =>
    emitRawField (indexMetaKey idx.name) indexFieldTable (utf8 newName)

/-- `handleAlterRenameTable` without contention: a rename to the same name is no change. -/
def handleAlterRenameTable (oldName newName : String) (store : Store) :
    Except SqlError Unit × Store :=
  if equalFold oldName newName then (.ok (), store)
  else runRMW store (renameTableBody oldName newName)

/-- The body of `handleAlterAddColumn`. -/
def addColumnBody (name : String) (newCol : ColumnSchema) : TxM Unit := do
  let _ ← pinKey (schemaKey name)
  let tbl ← loadSchema name
  if tbl.columns.any fun c => equalFold c.name newCol.name then
    throw (.duplicateColumn newCol.name)
  emitSchema { tbl with columns := tbl.columns ++ [newCol] }

/-- `handleAlterAddColumn` without contention; `newCol` is what `parseAddColumnSpec` and
`sqliteAffinity` make of the clause. -/
def handleAlterAddColumn (name : String) (newCol : ColumnSchema) (store : Store) :
    Except SqlError Unit × Store :=
  if newCol.notNull && newCol.default.isNone then
    (.error (.notNullNeedsDefault newCol.name), store)
  else if newCol.notNull && newCol.default == some .null then
    (.error (.notNullDefaultNull newCol.name), store)
  else runRMW store (addColumnBody name newCol)

/-- The schema without the column at an ordinal: the key ordinals above it move down and the
indexes that mention it go. -/
def TableSchema.withoutColumn (t : TableSchema) (colIdx : ℕ) : TableSchema :=
  { t with
    columns := t.columns.eraseIdx colIdx
    pkColumns := t.pkColumns.map fun ord => if ord > colIdx then ord - 1 else ord
    indexes := t.indexes.filter fun idx =>
      !idx.columns.any fun c => equalFold c (t.nameAt colIdx) }

/-- The schema with the column at an ordinal renamed, in the indexes too. -/
def TableSchema.withRenamed (t : TableSchema) (colIdx : ℕ) (newCol : String) : TableSchema :=
  { t with
    columns := t.columns.modify colIdx fun c => { c with name := newCol }
    indexes := t.indexes.map fun idx =>
      { idx with
        columns := idx.columns.map fun c => if equalFold c (t.nameAt colIdx) then newCol else c } }

/-- The column `RENAME COLUMN` addresses, the last that matches; a match with the new name
before the end is an error. -/
def renameTarget (oldCol newCol : String) :
    List (ColumnSchema × ℕ) → Option ℕ → Except SqlError (Option ℕ)
  | [], colIdx => .ok colIdx
  | (c, i) :: rest, colIdx =>
    if equalFold c.name oldCol then renameTarget oldCol newCol rest (some i)
    else if equalFold c.name newCol then .error (.columnExists newCol)
    else renameTarget oldCol newCol rest colIdx

section Rows

variable [Keytrie]

/-- The body of `handleAlterDropColumn`. -/
def dropColumnBody (tableName colName : String) : TxM Unit := do
  let _ ← pinKey (schemaKey tableName)
  let tbl ← loadSchema tableName
  match tbl.columns.findIdx? fun c => equalFold c.name colName with
  | none => throw (.noSuchColumn colName)
  | some colIdx =>
    if colIdx ∈ tbl.pkColumns then throw (.dropKeyColumn colName)
    let canonicalName := tbl.nameAt colIdx
    let rowKeys ← scanCommitted [] (rowKeyPattern tbl.tableID)
    forM rowKeys fun rk => emitKeyedRemove rk (utf8 canonicalName)
    forM (tbl.indexes.filter fun idx => idx.columns.any fun c => equalFold c canonicalName)
      dropIndex
    emitSchema (tbl.withoutColumn colIdx)

/-- `handleAlterDropColumn` without contention. -/
def handleAlterDropColumn (tableName colName : String) (store : Store) :
    Except SqlError Unit × Store :=
  runRMW store (dropColumnBody tableName colName)

/-- One row of `handleAlterRenameColumn`: the stored value moves to the new field. -/
def renameField (oldName newName rk : Bytes) : TxM Unit := do
  match ← getSnapshot rk with
  | none => pure ()
  | some snap =>
    match snap[oldName]? with
    | none => pure ()
    | some value =>
      emit (.data (.put rk newName value))
      emitKeyedRemove rk oldName

/-- The body of `handleAlterRenameColumn`. -/
def renameColumnBody (tableName oldCol newCol : String) : TxM Unit := do
  let _ ← pinKey (schemaKey tableName)
  let tbl ← loadSchema tableName
  match ← ofExcept (renameTarget oldCol newCol tbl.enumColumns none) with
  | none => throw (.noSuchColumn oldCol)
  | some colIdx =>
    let rowKeys ← scanCommitted [] (rowKeyPattern tbl.tableID)
    forM rowKeys (renameField (utf8 (tbl.nameAt colIdx)) (utf8 newCol))
    let tbl := tbl.withRenamed colIdx newCol
    emitSchema tbl
    forM (tbl.indexes.filter fun idx => idx.columns.contains newCol) fun idx =>
      emitRawField (indexMetaKey idx.name) indexFieldColumns (joinNUL idx.columns)

/-- `handleAlterRenameColumn` without contention. -/
def handleAlterRenameColumn (tableName oldCol newCol : String) (store : Store) :
    Except SqlError Unit × Store :=
  if equalFold oldCol newCol then (.ok (), store)
  else runRMW store (renameColumnBody tableName oldCol newCol)

end Rows

end Alter

end Swytch.Sql
