import Swytch.Sql.Outcomes

/-!
# The read path

A cursor runs one of four plans.  A full scan walks the committed row keys and the rows the
transaction has touched; a key lookup and an index lookup read one snapshot; a range scan
walks the committed entry keys of an index from its lower bound until the first key past its
upper bound.  Each plan gathers primary keys and loads their rows through the context of the
connection.

`Plan` is the identifier `BestIndex` hands to `Filter`; the tag of a range plan is kept as
the index name and the two bound codes it is built from.
-/

namespace Swytch.Sql

open KeyedStore

/-- The code of a supplied bound; `x` is no bound at all. -/
inductive Bound where
  | inclusive
  | exclusive
  deriving DecidableEq, Repr

/-- `sqlite.IndexID`, as `BestIndex` builds it. -/
inductive Plan where
  | fullScan
  | pkEquality
  | indexEquality (index : String)
  | indexRange (index : String) (lower upper : Option Bound)
  deriving DecidableEq, Repr

structure MaterialisedRow where
  pk : Bytes
  cols : List Value
  deriving DecidableEq, Repr

def defaultValueToSqlite : Option DefaultValue → Value
  | none | some .null => .null
  | some (.int i) => .integer i
  | some (.float f) => .float f
  | some (.text s) => .text (utf8 s)
  | some (.blob b) => .blob b

/-- The distinct keys of a list, where they first occur: the `seen` and `pkSet` maps. -/
def distinct (pks : List Bytes) : List Bytes :=
  pks.foldl (fun seen pk => if pk ∈ seen then seen else seen ++ [pk]) []

def VTable.findIndex (v : VTable) (name : String) : Option IndexSchema :=
  v.schema.indexes.find? (·.name == name)

section Read

variable [Host]

/-- `loadRow`: a row without fields does not exist. -/
def loadRow (v : VTable) (view : Store) (pk : Bytes) : Except SqlError (Option MaterialisedRow) :=
  if !v.schema.hasPK then .error (.noPrimaryKey v.name)
  else match view[rowKey v.schema.tableID pk]? with
    | none => .ok none
    | some reduced =>
      if reduced.isEmpty then .ok none
      else .ok (some ⟨pk, rowFromFields v.schema pk reduced fun col =>
        defaultValueToSqlite col.default⟩)

/-- `loadRowsForPKs`: keys without a row are skipped. -/
def loadRowsForPKs (v : VTable) (view : Store) (pks : List Bytes) :
    Except SqlError (List MaterialisedRow) := do
  let rows ← pks.mapM (loadRow v view)
  return rows.reduceOption

def filterPKEquality (c : Conn) (argv : List Value) : Except SqlError (List MaterialisedRow) := do
  let pkCols := c.vtab.schema.pkColumns
  if pkCols.isEmpty then throw (.noPrimaryKey c.vtab.name)
  if argv.length ≠ pkCols.length then throw (.planArgs argv.length pkCols.length)
  match encodePK argv c.vtab.schema.pkAffinities with
  | none => throw (.pkArity argv.length c.vtab.schema.pkAffinities.length)
  | some pk => loadRowsForPKs c.vtab c.view [pk]

def filterIndexEquality (c : Conn) (index : String) (argv : List Value) :
    Except SqlError (List MaterialisedRow) :=
  match c.vtab.findIndex index with
  | none => .error (.planIndex index)
  | some idx =>
    if argv.length ≠ idx.columns.length then .error (.planArgs argv.length idx.columns.length)
    else
      let encoded := encodeIndexKeyTuple argv (idx.columnAffinities c.vtab.schema)
      match c.view[indexKey idx.indexID encoded]? with
      | none => .ok []
      | some snap => loadRowsForPKs c.vtab c.view snap.keys

/-- The bytes a range bound is compared by.  A text or blob column that is alone in its index
is compared raw; an empty blob gives Go's nil slice, which bounds nothing. -/
def encodeBound (affs : List Affinity) (lastAff : Affinity) (arg : Value) : Option Bytes :=
  if affs.length = 1 ∧ lastAff = .blob then
    if arg.toBytes = [] then none else some (encodeIndexValue arg lastAff)
  else if affs.length = 1 ∧ lastAff = .text then some (encodeIndexValue arg lastAff)
  else some (encodeTupleComponent arg lastAff)

/-- The bounds of a range plan as its scan uses them. -/
structure RangeScan where
  keyPrefix : Bytes
  start : Bytes
  /-- The lower bound, when it is inclusive. -/
  lower : Option Bytes
  upper : Option Bytes
  upperInc : Bool

/-- The callback of the range scan over the keys it is given: the gathered primary keys, up
to the first key past the upper bound. -/
def rangeScan (scan : RangeScan) (view : Store) : List Bytes → List Bytes
  | [] => []
  | key :: keys =>
    if !scan.keyPrefix.isPrefixOf key then []
    else
      let valueBytes := key.drop scan.keyPrefix.length
      if scan.lower.any fun lowerEnc => compare valueBytes lowerEnc == .lt then
        rangeScan scan view keys
      else if scan.upper.any fun upperEnc => compare valueBytes upperEnc == .gt ||
          (compare valueBytes upperEnc == .eq && !scan.upperInc) then []
      else match view[key]? with
        | none => rangeScan scan view keys
        | some snap => snap.keys ++ rangeScan scan view keys

/-- The arguments of a range plan: the equality prefix, then the bounds that are supplied. -/
def rangeArgs (eqCount : ℕ) (lower upper : Option Bound) (argv : List Value) :
    Except SqlError (List Value × Option Value × Option Value) := do
  if argv.length < eqCount then throw (.planArgs argv.length eqCount)
  let want := eqCount + lower.toList.length + upper.toList.length
  match lower, upper with
  | none, none => return (argv.take eqCount, none, none)
  | some _, none =>
    match argv[eqCount]? with
    | none => throw (.planArgs argv.length want)
    | some l => return (argv.take eqCount, some l, none)
  | none, some _ =>
    match argv[eqCount]? with
    | none => throw (.planArgs argv.length want)
    | some u => return (argv.take eqCount, none, some u)
  | some _, some _ =>
    match argv[eqCount]?, argv[eqCount + 1]? with
    | some l, some u => return (argv.take eqCount, some l, some u)
    | _, _ => throw (.planArgs argv.length want)

def rangeScanOf (idx : IndexSchema) (affs : List Affinity) (eqArgs : List Value)
    (lower upper : Option Bound) (lowerArg upperArg : Option Value) : RangeScan :=
  let lastAff := affs.getLast?.getD .unresolved
  let eqPrefix := encodeIndexKeyPrefix eqArgs affs (affs.length - 1)
  let lowerEnc := lowerArg.bind (encodeBound affs lastAff)
  let keyPrefix := indexKeyPrefix idx.indexID ++ eqPrefix
  { keyPrefix
    start := if lower = some .exclusive then keyPrefix ++ lowerEnc.getD [] else keyPrefix
    lower := if lower = some .inclusive then lowerEnc else none
    upper := upperArg.bind (encodeBound affs lastAff)
    upperInc := upper = some .inclusive }

section Scan

variable [Keytrie]

def filterFullScan (c : Conn) : Except SqlError (List MaterialisedRow) :=
  let tid := c.vtab.schema.tableID
  let committed := (scanKeys c.store [] (rowKeyPattern tid)).filterMap fun key => parseRowKey key tid
  loadRowsForPKs c.vtab c.view (distinct (committed ++ c.session.dirtyRowPKs c.vtab.name))

def filterIndexRange (c : Conn) (index : String) (lower upper : Option Bound)
    (argv : List Value) : Except SqlError (List MaterialisedRow) :=
  match c.vtab.findIndex index with
  | none => .error (.planIndex index)
  | some idx =>
    let affs := idx.columnAffinities c.vtab.schema
    if affs.isEmpty then .error (.planIndex index)
    else do
      let (eqArgs, lowerArg, upperArg) ← rangeArgs (affs.length - 1) lower upper argv
      let scan := rangeScanOf idx affs eqArgs lower upper lowerArg upperArg
      loadRowsForPKs c.vtab c.view
        (distinct (rangeScan scan c.view (scanKeys c.store scan.start (glob scan.keyPrefix))))

/-- The plan dispatch of `Filter`. -/
def runPlan (c : Conn) (plan : Plan) (argv : List Value) : Except SqlError (List MaterialisedRow) :=
  match plan with
  | .fullScan => filterFullScan c
  | .pkEquality => filterPKEquality c argv
  | .indexEquality index => filterIndexEquality c index argv
  | .indexRange index lower upper => filterIndexRange c index lower upper argv

end Scan

end Read

/-- `refreshSchema`: the schema a plan runs with is the one the connection reads. -/
def Conn.refreshSchema (c : Conn) : Except SqlError Conn :=
  match storedSchema c.view c.vtab.name with
  | .error e => .error e
  | .ok schema => .ok { c with vtab.schema := schema }

end Swytch.Sql
