import Swytch.Sql.Effects

/-!
# Stored schemas and index metadata

A schema lives under `s/<table>` as the fields `tid`, `cols`, `pk`, `idx` and, for a table
without a declared key, `spk`; the registry `L` lists the tables.  An index has its own
record under `x/<index>` and a place in the registry `I`.
-/

namespace Swytch.Sql

open KeyedStore TxM

/-! ## Keyed emissions -/

def emitRawField (key field value : Bytes) : TxM Unit :=
  emit (.data (.put key field (.raw value)))

def emitIntField (key field : Bytes) (value : Int64) : TxM Unit :=
  emit (.data (.put key field (.intVal value)))

/-- `emitRawField` of a marshalled document. -/
def emitDocField (key field : Bytes) (doc : Payload) : TxM Unit :=
  emit (.data (.put key field doc))

def emitKeyedRemove (key field : Bytes) : TxM Unit := emit (.data (.drop key field))

/-! ## Table schemas -/

/-- The fields `emitSchema` writes under the schema key. -/
def schemaFieldsOf (schema : TableSchema) : List (Bytes × Payload) :=
  [(schemaFieldTableID, .raw schema.tableID),
   (schemaFieldColumns, .columnsDoc schema.columns),
   (schemaFieldPK, .ordinalsDoc schema.pkColumns),
   (schemaFieldIndexes, .indexesDoc schema.indexes)] ++
  if schema.syntheticPK then [(schemaFieldSyntheticPK, .raw [1])] else []

/-- The data effects of `emitSchema`. -/
def schemaWrites (schema : TableSchema) : List Write :=
  putAll (schemaKey schema.name) (schemaFieldsOf schema) ++
    [.put tableListKey (utf8 schema.name) (.raw [1])]

def emitSchema (schema : TableSchema) : TxM Unit := do
  if schema.tableID = [] then throw (.missingID schema.name)
  let sk := schemaKey schema.name
  emitRawField sk schemaFieldTableID schema.tableID
  emitDocField sk schemaFieldColumns (.columnsDoc schema.columns)
  emitDocField sk schemaFieldPK (.ordinalsDoc schema.pkColumns)
  emitDocField sk schemaFieldIndexes (.indexesDoc schema.indexes)
  if schema.syntheticPK then emitRawField sk schemaFieldSyntheticPK [1]
  emitRawField tableListKey (utf8 schema.name) [1]

/-- `emitSchema` fails on an empty identifier and otherwise emits its fields. -/
theorem run_emitSchema (schema : TableSchema) (c : Ctx) :
    emitSchema schema c =
      if schema.tableID = [] then .error (.missingID schema.name) c
      else .ok () (c.emitAll ((schemaWrites schema).map .data)) := by
  unfold emitSchema schemaWrites schemaFieldsOf putAll emitRawField emitDocField
  by_cases hid : schema.tableID = []
  · simp [hid]
  · cases hspk : schema.syntheticPK <;> simp [hid]

/-- The stored `cols` document. -/
def schemaColumns (name : String) (reduced : Fields) : Except SqlError (List ColumnSchema) :=
  match reduced[schemaFieldColumns]? with
  | none => .error (.schemaMissing name "columns field")
  | some (.columnsDoc cols) => .ok cols
  | some _ => .error (.schemaUnmarshal name "columns")

/-- The stored `pk` document; an absent or empty one is the empty list. -/
def schemaPKColumns (name : String) (reduced : Fields) : Except SqlError (List ℕ) :=
  match reduced[schemaFieldPK]? with
  | none | some (.raw []) | some (.intVal _) | some (.floatVal _) => .ok []
  | some (.ordinalsDoc ords) => .ok ords
  | some _ => .error (.schemaUnmarshal name "pk_columns")

/-- The stored `spk` mark: set unless it is absent, empty or starts with a zero byte. -/
def schemaSyntheticPK (reduced : Fields) : Bool :=
  match reduced[schemaFieldSyntheticPK]? with
  | none | some (.raw []) | some (.intVal _) | some (.floatVal _) => false
  | some (.raw (b :: _)) => b != 0
  | some _ => true

/-- The stored `idx` document; an absent or empty one is the empty list. -/
def schemaIndexes (name : String) (reduced : Fields) : Except SqlError (List IndexSchema) :=
  match reduced[schemaFieldIndexes]? with
  | none | some (.raw []) | some (.intVal _) | some (.floatVal _) => .ok []
  | some (.indexesDoc idxs) => .ok idxs
  | some _ => .error (.schemaUnmarshal name "indexes")

/-- The stored `tid`. -/
def schemaTableID (reduced : Fields) : Bytes :=
  match reduced[schemaFieldTableID]? with
  | some (.raw b) => b
  | _ => []

def schemaFromSnapshot (name : String) (reduced : Fields) : Except SqlError TableSchema :=
  if reduced.isEmpty then .error (.noSuchTable name)
  else
    match schemaColumns name reduced with
    | .error e => .error e
    | .ok columns =>
      match schemaPKColumns name reduced with
      | .error e => .error e
      | .ok pkColumns =>
        let syntheticPK := schemaSyntheticPK reduced
        let tableID := schemaTableID reduced
        if pkColumns.isEmpty && !syntheticPK then .error (.schemaMissing name "pk_columns")
        else if tableID = [] then .error (.schemaMissing name "tableID field")
        else
          match schemaIndexes name reduced with
          | .error e => .error e
          | .ok indexes => .ok { name, tableID, columns, pkColumns, indexes, syntheticPK }

/-- Decoding of a snapshot that may be missing. -/
def schemaOfSnapshot (name : String) : Option Fields → Except SqlError TableSchema
  | none => .error (.noSuchTable name)
  | some reduced => schemaFromSnapshot name reduced

def loadSchema (name : String) : TxM TableSchema := do
  let reduced ← getSnapshot (schemaKey name)
  ofExcept (schemaOfSnapshot name reduced)

/-- The schema a store holds under a name. -/
def storedSchema (store : Store) (name : String) : Except SqlError TableSchema :=
  schemaOfSnapshot name store[schemaKey name]?

theorem run_loadSchema (name : String) (c : Ctx) :
    loadSchema name c = match storedSchema c.view name with
      | .ok t => .ok t c
      | .error e => .error e c := by
  unfold loadSchema
  rw [run_getSnapshot_bind, storedSchema]
  cases schemaOfSnapshot name c.view[schemaKey name]? <;> rfl

/-! ## Index metadata -/

/-- The column names of an index, joined by `NUL`. -/
def joinNUL : List String → Bytes
  | [] => []
  | [c] => utf8 c
  | c :: cs => utf8 c ++ 0 :: joinNUL cs

/-- The data effects of `emitIndexMetadata`. -/
def indexMetaWrites (idx : IndexSchema) : List Write :=
  let mkey := indexMetaKey idx.name
  [.put mkey indexFieldIndexID (.raw idx.indexID),
   .put mkey indexFieldTable (.raw (utf8 idx.table)),
   .put mkey indexFieldTableID (.raw idx.tableID),
   .put mkey indexFieldColumns (.raw (joinNUL idx.columns)),
   .put mkey indexFieldUnique (.intVal (if idx.unique then 1 else 0)),
   .put indexListKey (utf8 idx.name) (.raw [1])]

def emitIndexMetadata (idx : IndexSchema) : TxM Unit := do
  if idx.indexID = [] then throw (.missingID idx.name)
  if idx.tableID = [] then throw (.missingID idx.name)
  let mkey := indexMetaKey idx.name
  emitRawField mkey indexFieldIndexID idx.indexID
  emitRawField mkey indexFieldTable (utf8 idx.table)
  emitRawField mkey indexFieldTableID idx.tableID
  emitRawField mkey indexFieldColumns (joinNUL idx.columns)
  emitIntField mkey indexFieldUnique (if idx.unique then 1 else 0)
  emitRawField indexListKey (utf8 idx.name) [1]

/-- `emitIndexMetadata` fails on an empty identifier and otherwise emits its fields. -/
theorem run_emitIndexMetadata (idx : IndexSchema) (c : Ctx) :
    emitIndexMetadata idx c =
      if idx.indexID = [] ∨ idx.tableID = [] then .error (.missingID idx.name) c
      else .ok () (c.emitAll ((indexMetaWrites idx).map .data)) := by
  unfold emitIndexMetadata indexMetaWrites emitRawField emitIntField
  by_cases hiid : idx.indexID = []
  · simp [hiid]
  · by_cases htid : idx.tableID = []
    all_goals simp [hiid, htid]

end Swytch.Sql
