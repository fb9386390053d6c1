import Swytch.Sql.Catalog
import Swytch.Sql.Encoding
import Swytch.Sql.Session

/-!
# The write path

`INSERT`, `UPDATE` and `DELETE` of one row.  A row is the fields of its row key; an index
holds, under the key of an indexed tuple, one field for every row with that tuple.  Each
statement runs a body that reads what it needs, pins it and emits the row's fields, its
index entries and a row write.

The bodies here follow the source statement by statement.  `tbl` is the schema the body
reloads from the store; `v.schema` is the schema the virtual table was declared with.
-/

namespace Swytch.Sql

open KeyedStore TxM

/-- `swytchVTable`: the declared table and the rowids its cursors have handed out. -/
structure VTable where
  name : String
  schema : TableSchema
  pkByRowID : Int64 → Option Bytes

variable [Host]

/-! ## Rowids -/

/-- The row-key suffix of a synthetic or `INTEGER` rowid. -/
def pkOfRowID (rowid : Int64) : Bytes := encodeIndexValue (.integer rowid) .integer

namespace VTable

def rowIDForPK (v : VTable) (pk : Bytes) : Int64 :=
  if v.schema.integerRowidFastPath && pk.length == 8 then bitsInt (getUint64 pk)
  else (Host.hashString pk).toInt64

def rememberRowID (v : VTable) (rowid : Int64) (pk : Bytes) : VTable :=
  { v with pkByRowID := fun r => if r = rowid then some pk else v.pkByRowID r }

def pkForRowID (v : VTable) (rowid : Int64) : Option Bytes :=
  if v.schema.integerRowidFastPath then some (pkOfRowID rowid) else v.pkByRowID rowid

def forgetRowID (v : VTable) (rowid : Int64) : VTable :=
  if v.schema.integerRowidFastPath then v
  else { v with pkByRowID := fun r => if r = rowid then none else v.pkByRowID r }

end VTable

/-! ## Index entries -/

def emitIndexEntryInsert (indexID encoded pk : Bytes) : TxM Unit :=
  emit (.data (.put (indexKey indexID encoded) pk (.raw [1])))

def emitIndexEntryRemove (indexID encoded pk : Bytes) : TxM Unit :=
  emit (.data (.drop (indexKey indexID encoded) pk))

def checkUniqueBeforeInsert (indexID encoded selfPK : Bytes) : TxM Unit := do
  match ← getSnapshot (indexKey indexID encoded) with
  | none => pure ()
  | some snap => if snap.keys.any (· ≠ selfPK) then throw .uniqueViolation

/-- The pin, the uniqueness check and the insertion of one entry. -/
def emitIndexEntry (idx : IndexSchema) (encoded pk : Bytes) : TxM Unit := do
  let entryKey := indexKey idx.indexID encoded
  let _ ← getSnapshot entryKey
  emit (.noop entryKey)
  if idx.unique then checkUniqueBeforeInsert idx.indexID encoded pk
  emitIndexEntryInsert idx.indexID encoded pk

/-- One component of an index over a row, `none` when it is `NULL` or its column is
missing. -/
def presentAt (vals : List Value) (ord? : Option ℕ) : Option Value :=
  ord?.bind fun ord =>
    let v := TableSchema.valueAt vals ord
    if v.isNull then none else some v

/-- The components of an index over a row, `none` when one of them is. -/
def indexComponents (idx : IndexSchema) (tbl : TableSchema) (vals : List Value) :
    Option (List Value) :=
  (idx.columnIndexes tbl).mapM (presentAt vals)

/-- `indexTupleForRow`; `none` is the source's `skip`. -/
def indexTupleForRow (idx : IndexSchema) (tbl : TableSchema) (vals : List Value) :
    Option Bytes :=
  (indexComponents idx tbl vals).map fun comps =>
    encodeIndexKeyTuple comps (idx.columnAffinities tbl)

def emitIndexInserts (tbl : TableSchema) (pk : Bytes) (vals : List Value) : TxM Unit :=
  forM tbl.indexes fun idx =>
    match indexTupleForRow idx tbl vals with
    | none => pure ()
    | some encoded => emitIndexEntry idx encoded pk

def emitIndexRemoves (tbl : TableSchema) (pk : Bytes) (vals : List Value) : TxM Unit :=
  forM tbl.indexes fun idx =>
    match indexTupleForRow idx tbl vals with
    | none => pure ()
    | some encoded => emitIndexEntryRemove idx.indexID encoded pk

/-! ## Row fields -/

/-- A column read back from the fields of a row: a key column from the row key, any other
from its field, with a value of its own for an absent field. -/
def columnFromFields (tbl : TableSchema) (pk : Bytes) (snap : Fields)
    (absent : ColumnSchema → Value) (col : ColumnSchema) (i : ℕ) : Value :=
  match tbl.pkPosition i with
  | some pos => (decodePK pk tbl.pkAffinities)[pos]?.getD .null
  | none => (snap[utf8 col.name]?).elim (absent col) fun p => decodeValue p col.affinity

/-- A row read back from its fields. -/
def rowFromFields (tbl : TableSchema) (pk : Bytes) (snap : Fields)
    (absent : ColumnSchema → Value) : List Value :=
  tbl.enumColumns.map fun (col, i) => columnFromFields tbl pk snap absent col i

/-- `valuesFromSnapshot`: an absent field is `NULL`. -/
def valuesFromSnapshot (tbl : TableSchema) (pk : Bytes) (snap : Fields) : List Value :=
  rowFromFields tbl pk snap fun _ => .null

/-- The stored value of a column, `NULL` where it has none. -/
def carriedValue (col : ColumnSchema) (oldSnap : Option Fields) : Value :=
  match oldSnap with
  | none => .null
  | some snap =>
    match snap[utf8 col.name]? with
    | none => .null
    | some p => decodeValue p col.affinity

/-- `mergeSamePKRow`: key columns from the row key, supplied values, and stored values for
columns that are not supplied. -/
def mergeSamePKRow (tbl : TableSchema) (pk : Bytes) (oldSnap : Option Fields)
    (newParams : List Value) : List Value :=
  let pkVals := decodePK pk tbl.pkAffinities
  tbl.enumColumns.map fun (col, i) =>
    match tbl.pkPosition i with
    | some pos => pkVals[pos]?.getD .null
    | none =>
      let val := TableSchema.valueAt newParams i
      if val.noChange then carriedValue col oldSnap else val

def emitPresenceField (table : String) (key : Bytes) (colName : String) (val : Value) :
    TxM Unit :=
  match setEncodedValue val with
  | none => throw (.nullPrimaryKey table colName)
  | some p => emit (.data (.put key (utf8 colName) p))

/-- The name of the column at an ordinal. -/
def TableSchema.nameAt (t : TableSchema) (ord : ℕ) : String :=
  (t.columns[ord]?).elim "" (·.name)

def emitPKPresence (v : VTable) (key : Bytes) (cols : List Value) : TxM Unit :=
  forM v.schema.pkColumns fun ord =>
    emitPresenceField v.name key (v.schema.nameAt ord) (TableSchema.valueAt cols ord)

def emitSyntheticPKPresence (v : VTable) (key : Bytes) (rowid : Int64) : TxM Unit :=
  emitPresenceField v.name key rowFieldSyntheticRowID (.integer rowid)

/-- The fields of the columns outside the key; a `NULL` column has none. -/
def emitColumns (tbl : TableSchema) (key : Bytes) (vals : List Value) : TxM Unit :=
  forM tbl.enumColumns fun (col, i) =>
    if tbl.isPKColumn i then pure ()
    else match setEncodedValue (TableSchema.valueAt vals i) with
      | none => pure ()
      | some p => emit (.data (.put key (utf8 col.name) p))

def emitSamePKUpdate (v : VTable) (pk : Bytes) (cols : List Value) : TxM Unit :=
  let key := rowKey v.schema.tableID pk
  forM v.schema.enumColumns fun (col, i) =>
    if v.schema.isPKColumn i then pure ()
    else
      let val := TableSchema.valueAt cols i
      if val.noChange then pure ()
      else match setEncodedValue val with
        | none => emitKeyedRemove key (utf8 col.name)
        | some p => emit (.data (.put key (utf8 col.name) p))

def emitRowDelete (v : VTable) (pk : Bytes) : TxM Unit := do
  let key := rowKey v.schema.tableID pk
  forM v.schema.columns fun col => emitKeyedRemove key (utf8 col.name)
  if v.schema.syntheticPK then emitKeyedRemove key (utf8 rowFieldSyntheticRowID)

def rowWriteForTuple (v : VTable) (kind : WriteKind) (pk : Bytes) (cols : List Value) :
    RowWrite :=
  ⟨v.name, pk, kind, cols.map typedValueFromSqlite⟩

def emitRowWriteEffect (v : VTable) (rw : RowWrite) : TxM Unit :=
  emit (.rowWrite (schemaKey v.name) rw)

def loadLiveSchema (v : VTable) : TxM TableSchema := loadSchema v.name

/-- `loadLiveSchema` and the pin on the schema it has read. -/
def pinLiveSchema (v : VTable) : TxM TableSchema := do
  let tbl ← loadLiveSchema v
  emit (.noop (schemaKey v.name))
  return tbl

/-- The read of a row and its pin. -/
def pinRow (v : VTable) (pk : Bytes) : TxM (Option Fields) := do
  let snap ← getSnapshot (rowKey v.schema.tableID pk)
  emit (.noop (rowKey v.schema.tableID pk))
  return snap

/-! ## Same-key updates of the indexes -/

/-- The old tuple of an index, read from the fields of the row until one is missing; the
components after it stay `NULL`. -/
def oldTupleFrom (tbl : TableSchema) (snap : Fields) :
    List (ℕ × Affinity) → List Value × Bool
  | [] => ([], true)
  | (ord, aff) :: rest =>
    match snap[utf8 (tbl.nameAt ord)]? with
    | none => (List.replicate (rest.length + 1) .null, false)
    | some p =>
      let val := decodeValue p aff
      if val.isNull then (val :: List.replicate rest.length .null, false)
      else
        let (tuple, allPresent) := oldTupleFrom tbl snap rest
        (val :: tuple, allPresent)

/-- The old tuple of an index and whether every component is present. -/
def oldTuple (tbl : TableSchema) (oldSnap : Option Fields) (comps : List (ℕ × Affinity)) :
    List Value × Bool :=
  match oldSnap with
  | none => (List.replicate comps.length .null, false)
  | some snap => oldTupleFrom tbl snap comps

/-- The new tuple of an index: supplied values, the old component for a column that is not
supplied; `none` when a component is `NULL`. -/
def newTuple (ords : List ℕ) (old newVals : List Value) : Option (List Value) :=
  (ords.zip old).mapM fun (ord, oldVal) =>
    let supplied := TableSchema.valueAt newVals ord
    let nv := if supplied.noChange then oldVal else supplied
    if nv.isNull then none else some nv

/-- One turn of `emitIndexDeltasSamePK`, for an index whose columns all resolve. -/
def emitIndexDelta (tbl : TableSchema) (pk : Bytes) (oldSnap : Option Fields)
    (newVals : List Value) (idx : IndexSchema) (ords : List ℕ) : TxM Unit := do
  let affs := idx.columnAffinities tbl
  if ords.all fun ord => (TableSchema.valueAt newVals ord).noChange then return
  let (old, oldAllPresent) := oldTuple tbl oldSnap (ords.zip affs)
  if oldAllPresent then emitIndexEntryRemove idx.indexID (encodeIndexKeyTuple old affs) pk
  match newTuple ords old newVals with
  | none => pure ()
  | some new => emitIndexEntry idx (encodeIndexKeyTuple new affs) pk

/-- `emitIndexDeltasSamePK`: an index with a missing column is skipped. -/
def emitIndexDeltasSamePK (tbl : TableSchema) (pk : Bytes) (oldSnap : Option Fields)
    (newVals : List Value) : TxM Unit :=
  forM tbl.indexes fun idx =>
    match (idx.columnIndexes tbl).mapM id with
    | none => pure ()
    | some ords => emitIndexDelta tbl pk oldSnap newVals idx ords

end Swytch.Sql
