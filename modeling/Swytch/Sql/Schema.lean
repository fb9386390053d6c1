import Swytch.Sql.Value

/-!
# Table and index schemas

A table is a list of columns, the ordinals of its primary-key columns in key order, and
its secondary indexes.  `tableID` and `indexID` are the stable identifiers that row keys
and index-entry keys are built from; the user-visible names are only looked up.

A table declared without a primary key has `syntheticPK` set and no key columns; its rows
are identified by an allocated 64-bit rowid.
-/

namespace Swytch.Sql

/-- `defaultValue`: the `DEFAULT` of a column. -/
inductive DefaultValue where
  | null
  | int (i : Int64)
  | float (f : F64)
  | text (s : String)
  | blob (b : Bytes)
  deriving DecidableEq, Repr

structure ColumnSchema where
  name : String
  affinity : Affinity
  declType : String
  notNull : Bool
  isPK : Bool
  default : Option DefaultValue
  deriving DecidableEq, Repr

structure IndexSchema where
  name : String
  indexID : Bytes
  table : String
  tableID : Bytes
  columns : List String
  unique : Bool
  deriving DecidableEq, Repr

structure TableSchema where
  name : String
  tableID : Bytes
  columns : List ColumnSchema
  pkColumns : List ℕ
  indexes : List IndexSchema
  syntheticPK : Bool
  deriving DecidableEq, Repr

namespace TableSchema

def hasPK (t : TableSchema) : Bool := t.syntheticPK || !t.pkColumns.isEmpty

/-- The affinity of the column at an ordinal. -/
def affinityAt (t : TableSchema) (ord : ℕ) : Affinity :=
  (t.columns[ord]?).elim .unresolved (·.affinity)

/-- `pkAffinities`: the key of a synthetic table is one `INTEGER`. -/
def pkAffinities (t : TableSchema) : List Affinity :=
  if t.syntheticPK then [.integer] else t.pkColumns.map t.affinityAt

/-- The value of a row tuple at an ordinal. -/
def valueAt (cols : List Value) (ord : ℕ) : Value := cols[ord]?.getD .null

/-- `pkValues`: the key components of a row tuple. -/
def pkValues (t : TableSchema) (cols : List Value) : List Value :=
  t.pkColumns.map (valueAt cols)

def isPKColumn (t : TableSchema) (ord : ℕ) : Bool := t.pkColumns.contains ord

/-- `pkPosition`: the first place of `ord` among the key columns. -/
def pkPosition (t : TableSchema) (ord : ℕ) : Option ℕ := t.pkColumns.findIdx? (· == ord)

def integerRowidFastPath (t : TableSchema) : Bool :=
  if t.syntheticPK then true
  else match t.pkColumns with
    | [ord] => t.affinityAt ord == .integer
    | _ => false

def enumColumns (t : TableSchema) : List (ColumnSchema × ℕ) := t.columns.zipIdx

@[simp] theorem length_pkValues (t : TableSchema) (cols : List Value) :
    (t.pkValues cols).length = t.pkColumns.length := by
  simp [pkValues]

theorem pkAffinities_of_not_syntheticPK {t : TableSchema} (h : t.syntheticPK = false) :
    t.pkAffinities = t.pkColumns.map t.affinityAt := by
  simp [pkAffinities, h]

theorem isPKColumn_iff {t : TableSchema} {ord : ℕ} :
    t.isPKColumn ord = true ↔ ord ∈ t.pkColumns := by
  simp [isPKColumn]

end TableSchema

namespace IndexSchema

/-- One slot of `columnIndexes`: the ordinal of a column name, if the table has it. -/
def columnOrdinal (tbl : TableSchema) (name : String) : Option ℕ :=
  tbl.columns.findIdx? (·.name == name)

/-- `columnIndexes`; `none` is the source's `-1`. -/
def columnIndexes (idx : IndexSchema) (tbl : TableSchema) : List (Option ℕ) :=
  idx.columns.map (columnOrdinal tbl)

/-- One slot of `columnAffinities`. -/
def columnAffinity (tbl : TableSchema) (name : String) : Affinity :=
  (tbl.columns.find? (·.name == name)).elim .unresolved (·.affinity)

def columnAffinities (idx : IndexSchema) (tbl : TableSchema) : List Affinity :=
  idx.columns.map (columnAffinity tbl)

@[simp] theorem length_columnAffinities (idx : IndexSchema) (tbl : TableSchema) :
    (idx.columnAffinities tbl).length = idx.columns.length := by
  simp [columnAffinities]

end IndexSchema

/-! ## Stored fields -/

/-- The payload of a keyed field.  Schema documents are JSON in the source; each is kept
here as the list it denotes. -/
inductive Payload where
  | intVal (i : Int64)
  | floatVal (f : F64)
  | raw (b : Bytes)
  | columnsDoc (cols : List ColumnSchema)
  | ordinalsDoc (ords : List ℕ)
  | indexesDoc (idxs : List IndexSchema)
  deriving DecidableEq, Repr

end Swytch.Sql
