import Swytch.Sql.Statements

/-!
# `CREATE INDEX`

The handler reads the table's schema before its transaction, checks the statement against
it, and then, in one body, writes the index metadata, an entry for every row whose indexed
columns are all present, and the schema with the index appended.
-/

namespace Swytch.Sql

open KeyedStore TxM

/-- What `parseCreateIndex` accepts: it rejects an empty column list. -/
structure CreateIndexStmt where
  name : String
  table : String
  columns : List String
  unique : Bool
  columns_ne_nil : columns ≠ []

/-- The column checks of `handleCreateIndex`, with the ordinals resolved so far. -/
def checkIndexColumns (tbl : TableSchema) (name : String) :
    List String → List ℕ → Except SqlError Unit
  | [], _ => .ok ()
  | colName :: columns, ords =>
    match IndexSchema.columnOrdinal tbl colName with
    | none => .error (.indexColumnNotFound name colName tbl.name)
    | some ord =>
      if ord ∈ ords then .error (.indexColumnDuplicate name colName)
      else checkIndexColumns tbl name columns (ord :: ords)

/-- The preflight checks of `handleCreateIndex`. -/
def checkCreateIndex (tbl : TableSchema) (stmt : CreateIndexStmt) : Except SqlError Unit := do
  checkIndexColumns tbl stmt.name stmt.columns []
  if tbl.indexes.any (·.name == stmt.name) then throw (.indexExists stmt.name)

/-- The index a statement declares, under a derived identifier. -/
def CreateIndexStmt.index (stmt : CreateIndexStmt) (tbl : TableSchema) (indexID : Bytes) :
    IndexSchema :=
  { name := stmt.name, indexID, table := stmt.table, tableID := tbl.tableID,
    columns := stmt.columns, unique := stmt.unique }

/-- One indexed value of a stored row, `none` when its field is absent. -/
def presentField (row : Bytes → Option Payload) (column : String × Affinity) : Option Value :=
  (row (utf8 column.1)).bind fun p =>
    let val := decodeValue p column.2
    if val.isNull then none else some val

/-- The indexed values of a stored row, field by field; `none` when one is absent. -/
def storedComponents (columns : List String) (affs : List Affinity)
    (row : Bytes → Option Payload) : Option (List Value) :=
  (columns.zip affs).mapM (presentField row)

section Body

variable [Host] [Keytrie]

/-- One turn of the backfill: the entry of one row key, and the tuples seen so far when the
index is unique. -/
def backfillRow (tbl : TableSchema) (idx : IndexSchema) (seen : List (Bytes × Bytes))
    (rk : Bytes) : TxM (List (Bytes × Bytes)) :=
  match parseRowKey rk tbl.tableID with
  | none => pure seen
  | some pk => do
    match ← getSnapshot rk with
    | none => pure seen
    | some rowSnap =>
      let affs := idx.columnAffinities tbl
      match storedComponents idx.columns affs (fun f => rowSnap[f]?) with
      | none => pure seen
      | some vals =>
        let encoded := encodeIndexKeyTuple vals affs
        if idx.unique then
          match seen.lookup encoded with
          | some otherPK => throw (.uniqueCollision idx.name otherPK pk)
          | none =>
            emitIndexEntryInsert idx.indexID encoded pk
            pure ((encoded, pk) :: seen)
        else
          emitIndexEntryInsert idx.indexID encoded pk
          pure seen

/-- The body of `handleCreateIndex`. -/
def createIndexBody (tbl : TableSchema) (idx : IndexSchema) : TxM Unit := do
  let _ ← getSnapshot (schemaKey idx.table)
  emit (.noop (schemaKey idx.table))
  emitIndexMetadata idx
  let rowKeys ← scanCommitted [] (rowKeyPattern tbl.tableID)
  let _ ← rowKeys.foldlM (backfillRow tbl idx) []
  emitSchema { tbl with indexes := tbl.indexes ++ [idx] }

/-- `handleCreateIndex` without contention; `indexID` is what `deriveIndexID` returns. -/
def handleCreateIndex (stmt : CreateIndexStmt) (indexID : Bytes) (store : Store) :
    Except SqlError Unit × Store :=
  match storedSchema store stmt.table with
  | .error e => (.error e, store)
  | .ok tbl =>
    match checkCreateIndex tbl stmt with
    | .error e => (.error e, store)
    | .ok _ => runRMW store (createIndexBody tbl (stmt.index tbl indexID))

end Body

end Swytch.Sql
