import Swytch.Lib.OrderedCollection
import Swytch.Redis.Engine

/-!
# The list commands

A list is an ordered collection.  Each element has an id, which is a reading of the clock, and a
command that names a place looks up the id of the element there in the snapshot and emits an effect
for it.  What the effects do to an ordered collection is fixed as the handlers use it: an element is
prepended, appended, placed next to another one, changed in place or removed.  `GetSnapshot` of the
context drops a collection without elements (`filterSnapshot`, as the comments in `sort.go` and
`server_cmds.go` say), and the clock does not repeat itself.

The arguments are what `ParseInt64` and the option names give, with the checks that the handlers make
on them.  An index is an `int64`; the sum of a negative one and a length does not overflow, so it is
taken as an integer.  Where the source negates a rank, the arithmetic is that of `int64`.
-/

namespace Swytch.Redis.Lists

open Sql (Bytes)
open OrderedCollection

/-! ## 1.  The engine -/

/-- The part of `pb.ReducedEffect` that the list commands read. -/
structure ListSnapshot where
  op : EffectOp
  collection : CollectionKind
  typeTag : ValueType
  orderedElements : List (ℕ × Bytes)

/-- `pb.Placement` with the `Reference`. -/
inductive ListPlacement where
  | head
  | tail
  | before (reference : ℕ)
  | after (reference : ℕ)
  | self

inductive ListEffect where
  | insert (placement : ListPlacement) (id : ℕ) (value : Bytes)
  | remove (id : ℕ)
  | typeTag
  | noop

/-- Where an `INSERT` puts an element. -/
def place : ListPlacement → ℕ × Bytes → List (ℕ × Bytes) → List (ℕ × Bytes)
  | .head, new, elements => new :: elements
  | .tail, new, elements => elements ++ [new]
  | .before reference, new, elements => insertBefore reference new elements
  | .after reference, new, elements => insertAfter reference new elements
  | .self, new, elements => OrderedCollection.update new.1 new.2 elements

/-- What an `INSERT` builds on: the collection, or a new one. -/
def forInsert (snap : Option ListSnapshot) : ListSnapshot :=
  match snap with
  | none => ⟨.insert, .ordered, .unspecified, []⟩
  | some snap =>
    if snap.op = .remove then ⟨.insert, .ordered, .unspecified, []⟩
    else if snap.collection = .ordered then snap
    else ⟨.insert, .ordered, snap.typeTag, []⟩

/-- The reduced state after one more effect. -/
def ListEffect.apply (effect : ListEffect) (snap : Option ListSnapshot) : Option ListSnapshot :=
  match effect with
  | .noop => snap
  | .insert placement id value =>
    let base := forInsert snap
    some { base with orderedElements := place placement (id, value) base.orderedElements }
  | .remove id =>
    snap.map fun snap => { snap with orderedElements := OrderedCollection.remove id snap.orderedElements }
  | .typeTag =>
    match snap with
    | none => some ⟨.insert, .scalar, .list, []⟩
    | some snap => some (if snap.op = .remove then snap else { snap with typeTag := .list })

/-- The reduced state of every key, and the next reading of the clock. -/
structure ListStore where
  keys : Bytes → Option ListSnapshot
  clock : ℕ

def ListStore.emit (s : ListStore) (key : Bytes) (effect : ListEffect) : ListStore :=
  { s with keys := Function.update s.keys key (effect.apply (s.keys key)) }

/-- `GetSnapshot` of the context, which drops a collection without elements. -/
def ListStore.getSnapshot (s : ListStore) (key : Bytes) : Option ListSnapshot :=
  match s.keys key with
  | none => none
  | some snap =>
    if snap.collection = .ordered ∧ snap.orderedElements = [] then none else some snap

/-! ## 2.  Lookups and effects -/

/-- What `getListSnapshot` finds. -/
inductive ListLookup where
  | absent
  | wrongType
  | found (snap : ListSnapshot)

def getListSnapshot (s : ListStore) (key : Bytes) : ListLookup :=
  match s.getSnapshot key with
  | none => .absent
  | some snap =>
    if snap.op = .remove then .absent
    else if snap.collection = .ordered then
      if snap.typeTag ≠ .list ∧ snap.typeTag ≠ .unspecified then .wrongType else .found snap
    else if snap.collection = .scalar ∧ snap.typeTag = .list then .found snap
    else .wrongType

/-- `emitListInsert` and `emitListInsertAt`, with a new id. -/
def emitListInsert (key : Bytes) (placement : ListPlacement) (value : Bytes) (s : ListStore) :
    ListStore :=
  { s.emit key (.insert placement s.clock value) with clock := s.clock + 1 }

def emitListUpdate (key : Bytes) (elementID : ℕ) (value : Bytes) (s : ListStore) : ListStore :=
  s.emit key (.insert .self elementID value)

def emitListRemove (key : Bytes) (elementID : ℕ) (s : ListStore) : ListStore :=
  s.emit key (.remove elementID)

def emitListTypeTag (key : Bytes) (s : ListStore) : ListStore := s.emit key .typeTag

/-- The loop that removes elements, after the effect by which the transaction depends on the
key. -/
def removeElements (key : Bytes) (elements : List (ℕ × Bytes)) (s : ListStore) : ListStore :=
  elements.foldl (fun s element => emitListRemove key element.1 s) (s.emit key .noop)

/-! ## 3.  The commands -/

inductive ListReply where
  | null
  | nullArray
  | ok
  | bulk (bytes : Bytes)
  | integer (n : ℤ)
  | array (values : List Bytes)
  | integers (positions : List ℤ)
  | error (message : String)
  deriving DecidableEq

/-- `WriteWrongType`. -/
def wrongType : ListReply :=
  .error "WRONGTYPE Operation against a key holding the wrong kind of value"

/-- `WriteNotInteger`. -/
def notInteger : ListReply := .error "ERR value is not an integer or out of range"

/-- The loop of the push commands. -/
def pushElements (key : Bytes) (placement : ListPlacement) (elements : List Bytes) (s : ListStore) :
    ListStore :=
  elements.foldl (fun s element => emitListInsert key placement element s) s

/-- The runners of `handleLPush` and `handleRPush`. -/
def push (placement : ListPlacement) (key : Bytes) (elements : List Bytes) (s : ListStore) :
    ListReply × ListStore :=
  match getListSnapshot s key with
  | .wrongType => (wrongType, s)
  | .absent =>
    (.integer (0 + elements.length),
      emitListTypeTag key (pushElements key placement elements s))
  | .found snap =>
    (.integer (snap.orderedElements.length + elements.length),
      pushElements key placement elements s)

/-- The runners of `handleLPushX` and `handleRPushX`. -/
def pushX (placement : ListPlacement) (key : Bytes) (elements : List Bytes) (s : ListStore) :
    ListReply × ListStore :=
  match getListSnapshot s key with
  | .absent => (.integer 0, s)
  | .wrongType => (wrongType, s)
  | .found snap =>
    (.integer (snap.orderedElements.length + elements.length),
      pushElements key placement elements s)

def handleLPush : Bytes → List Bytes → ListStore → ListReply × ListStore := push .head

def handleRPush : Bytes → List Bytes → ListStore → ListReply × ListStore := push .tail

def handleLPushX : Bytes → List Bytes → ListStore → ListReply × ListStore := pushX .head

def handleRPushX : Bytes → List Bytes → ListStore → ListReply × ListStore := pushX .tail

/-- The reply with the elements that are popped. -/
def writePopped (count : Option ℕ) (popped : List (ℕ × Bytes)) : ListReply :=
  match count, popped with
  | none, element :: _ => .bulk element.2
  | _, popped => .array (values popped)

/-- The runners of `handleLPop` and `handleRPop`, which go through the elements in this order. -/
def pop (order : List (ℕ × Bytes) → List (ℕ × Bytes)) (key : Bytes) (count : Option ℕ)
    (s : ListStore) : ListReply × ListStore :=
  let nothing := if count.isSome then ListReply.nullArray else .null
  match getListSnapshot s key with
  | .wrongType => (wrongType, s)
  | .absent => (nothing, s)
  | .found snap =>
    let elements := snap.orderedElements
    if elements.length = 0 then (nothing, s)
    else
      let n := min (count.getD 1) elements.length
      let popped := (order elements).take n
      (writePopped count popped, removeElements key popped s)

/-- The check of the count in `handleLPop` and `handleRPop`. -/
def popChecked (order : List (ℕ × Bytes) → List (ℕ × Bytes)) (key : Bytes) (count : Option Int64)
    (s : ListStore) : ListReply × ListStore :=
  match count with
  | none => pop order key none s
  | some count =>
    if count.toInt < 0 then (notInteger, s) else pop order key (some count.toInt.toNat) s

def handleLPop : Bytes → Option Int64 → ListStore → ListReply × ListStore := popChecked id

def handleRPop : Bytes → Option Int64 → ListStore → ListReply × ListStore := popChecked List.reverse

def handleLLen (key : Bytes) (s : ListStore) : ListReply :=
  match getListSnapshot s key with
  | .absent => .integer 0
  | .wrongType => wrongType
  | .found snap => .integer snap.orderedElements.length

/-- An index that counts from the end if it is negative. -/
def fromEnd (listLen : ℕ) (index : Int64) : ℤ :=
  if index.toInt < 0 then listLen + index.toInt else index.toInt

/-- The two ends as `handleLRange` and `handleLTrim` bring them into the list. -/
def clampEnds (listLen : ℕ) (start stop : Int64) : ℤ × ℤ :=
  let s := fromEnd listLen start
  let e := fromEnd listLen stop
  (if s < 0 then 0 else s, if e ≥ listLen then (listLen : ℤ) - 1 else e)

def handleLRange (key : Bytes) (start stop : Int64) (s : ListStore) : ListReply :=
  match getListSnapshot s key with
  | .absent => .array []
  | .wrongType => wrongType
  | .found snap =>
    let elements := snap.orderedElements
    let ends := clampEnds elements.length start stop
    if elements.length = 0 then .array []
    else if ends.1 > ends.2 then .array []
    else
      .array (values ((elements.drop ends.1.toNat).take (ends.2 + 1 - ends.1).toNat))

def elementAt (elements : List (ℕ × Bytes)) (index : Int64) : Option (ℕ × Bytes) :=
  let idx := fromEnd elements.length index
  if idx < 0 ∨ idx ≥ elements.length then none else elements[idx.toNat]?

def handleLIndex (key : Bytes) (index : Int64) (s : ListStore) : ListReply :=
  match getListSnapshot s key with
  | .absent => .null
  | .wrongType => wrongType
  | .found snap =>
    match elementAt snap.orderedElements index with
    | none => .null
    | some element => .bulk element.2

def handleLSet (key : Bytes) (index : Int64) (value : Bytes) (s : ListStore) :
    ListReply × ListStore :=
  match getListSnapshot s key with
  | .absent => (.error "ERR no such key", s)
  | .wrongType => (wrongType, s)
  | .found snap =>
    match elementAt snap.orderedElements index with
    | none => (.error "ERR index out of range", s)
    | some element => (.ok, emitListUpdate key element.1 value (s.emit key .noop))

def handleLTrim (key : Bytes) (start stop : Int64) (s : ListStore) : ListReply × ListStore :=
  match getListSnapshot s key with
  | .absent => (.ok, s)
  | .wrongType => (wrongType, s)
  | .found snap =>
    let elements := snap.orderedElements
    let ends := clampEnds elements.length start stop
    let toRemove := atPlaces (fun i => decide ((i : ℤ) < ends.1 ∨ (i : ℤ) > ends.2)) elements
    if toRemove.length = 0 then (.ok, s) else (.ok, removeElements key toRemove s)

def handleLInsert (key : Bytes) (before : Bool) (pivot element : Bytes) (s : ListStore) :
    ListReply × ListStore :=
  match getListSnapshot s key with
  | .absent => (.integer 0, s)
  | .wrongType => (wrongType, s)
  | .found snap =>
    match snap.orderedElements.find? fun element => element.2 = pivot with
    | none => (.integer (-1), s)
    | some found =>
      let placement := if before then ListPlacement.before found.1 else .after found.1
      (.integer (snap.orderedElements.length + 1),
        emitListInsert key placement element (s.emit key .noop))

inductive PosOption where
  | rank (r : Int64)
  | count (c : Int64)
  | maxlen (m : Int64)

/-- What the options of `LPOS` set.  The count `-1` means that there is none. -/
structure PosOptions where
  rank : Int64 := 1
  count : Int64 := -1
  maxlen : Int64 := 0

/-- The reply to an option that `handleLPos` refuses. -/
def PosOption.refusal : PosOption → Option ListReply
  | .rank r =>
    if r = 0 then
      some (.error ("ERR RANK can't be zero: use 1 to start from the first match, 2 from the " ++
        "second ... or use negative to start from the end of the list"))
    else if r = Int64.minValue then some (.error "ERR value is out of range")
    else none
  | .count c => if c < 0 then some (.error "ERR COUNT can't be negative") else none
  | .maxlen m => if m < 0 then some (.error "ERR MAXLEN can't be negative") else none

def PosOptions.set (options : PosOptions) : PosOption → PosOptions
  | .rank r => { options with rank := r }
  | .count c => { options with count := c }
  | .maxlen m => { options with maxlen := m }

/-- The loop of `handleLPos` over its options. -/
def parsePosOptions : List PosOption → PosOptions → Except ListReply PosOptions
  | [], options => .ok options
  | option :: rest, options =>
    match option.refusal with
    | some reply => .error reply
    | none => parsePosOptions rest (options.set option)

/-- The loop of `handleLPos` over the elements with their indexes. -/
def searchMatches (element : Bytes) (maxlen matchesNeeded : ℕ) :
    List ((ℕ × Bytes) × ℕ) → (skipCount comparisons : ℕ) → List ℕ → List ℕ
  | [], _, _, found => found
  | (candidate, idx) :: rest, skipCount, comparisons, found =>
    if maxlen > 0 ∧ comparisons ≥ maxlen then found
    else if candidate.2 = element then
      if skipCount > 0 then
        searchMatches element maxlen matchesNeeded rest (skipCount - 1) (comparisons + 1) found
      else if (found ++ [idx]).length ≥ matchesNeeded then found ++ [idx]
      else
        searchMatches element maxlen matchesNeeded rest skipCount (comparisons + 1)
          (found ++ [idx])
    else searchMatches element maxlen matchesNeeded rest skipCount (comparisons + 1) found

/-- The runner of `handleLPos`. -/
def searchList (key element : Bytes) (options : PosOptions) (s : ListStore) : ListReply :=
  let nothing := if options.count ≥ 0 then ListReply.integers [] else .null
  match getListSnapshot s key with
  | .absent => nothing
  | .wrongType => wrongType
  | .found snap =>
    let elements := snap.orderedElements
    if elements.length = 0 then nothing
    else
      let matchesNeeded :=
        if options.count < 0 then 1
        else if options.count = 0 then elements.length
        else options.count.toInt.toNat
      let skipCount := if options.rank > 0 then options.rank - 1 else -options.rank - 1
      let scanned := if options.rank > 0 then elements.zipIdx else elements.zipIdx.reverse
      let found := searchMatches element options.maxlen.toInt.toNat matchesNeeded scanned
        skipCount.toInt.toNat 0 []
      if options.count ≥ 0 then .integers (found.map fun idx => (idx : ℤ))
      else
        match found with
        | [] => .null
        | idx :: _ => .integer idx

def handleLPos (key element : Bytes) (options : List PosOption) (s : ListStore) : ListReply :=
  match parsePosOptions options {} with
  | .error reply => reply
  | .ok options => searchList key element options s

/-- `doLMove` with its reply. -/
def doLMove (source destination : Bytes) (popLeft pushLeft : Bool) (s : ListStore) :
    ListReply × ListStore :=
  match getListSnapshot s source with
  | .absent => (.null, s)
  | .wrongType => (wrongType, s)
  | .found snap =>
    match if popLeft then snap.orderedElements.head? else snap.orderedElements.getLast? with
    | none => (.null, s)
    | some element =>
      let checked :=
        if source = destination then ListLookup.absent else getListSnapshot s destination
      match checked with
      | .wrongType => (wrongType, s)
      | _ =>
        let s := s.emit source .noop
        let s := if source = destination then s else s.emit destination .noop
        let s := emitListRemove source element.1 s
        (.bulk element.2,
          emitListInsert destination (if pushLeft then .head else .tail) element.2 s)

def handleLMove : Bytes → Bytes → Bool → Bool → ListStore → ListReply × ListStore := doLMove

def handleRPopLPush (source destination : Bytes) : ListStore → ListReply × ListStore :=
  doLMove source destination false true

inductive ListCommand where
  | lpush (key first : Bytes) (rest : List Bytes)
  | rpush (key first : Bytes) (rest : List Bytes)
  | lpushx (key first : Bytes) (rest : List Bytes)
  | rpushx (key first : Bytes) (rest : List Bytes)
  | lpop (key : Bytes) (count : Option Int64)
  | rpop (key : Bytes) (count : Option Int64)
  | llen (key : Bytes)
  | lrange (key : Bytes) (start stop : Int64)
  | lindex (key : Bytes) (index : Int64)
  | lset (key : Bytes) (index : Int64) (value : Bytes)
  | ltrim (key : Bytes) (start stop : Int64)
  | linsert (key : Bytes) (before : Bool) (pivot element : Bytes)
  | lpos (key element : Bytes) (options : List PosOption)
  | lmove (source destination : Bytes) (popLeft pushLeft : Bool)
  | rpoplpush (source destination : Bytes)

def run (s : ListStore) : ListCommand → ListReply × ListStore
  | .lpush key first rest => handleLPush key (first :: rest) s
  | .rpush key first rest => handleRPush key (first :: rest) s
  | .lpushx key first rest => handleLPushX key (first :: rest) s
  | .rpushx key first rest => handleRPushX key (first :: rest) s
  | .lpop key count => handleLPop key count s
  | .rpop key count => handleRPop key count s
  | .llen key => (handleLLen key s, s)
  | .lrange key start stop => (handleLRange key start stop s, s)
  | .lindex key index => (handleLIndex key index s, s)
  | .lset key index value => handleLSet key index value s
  | .ltrim key start stop => handleLTrim key start stop s
  | .linsert key before pivot element => handleLInsert key before pivot element s
  | .lpos key element options => (handleLPos key element options s, s)
  | .lmove source destination popLeft pushLeft => handleLMove source destination popLeft pushLeft s
  | .rpoplpush source destination => handleRPopLPush source destination s

/-! ## 4.  Sequences -/

/-- What a key holds: a sequence, which is not there if it is empty, or something else. -/
inductive Content where
  | sequence (elements : List Bytes)
  | other

namespace Reference

/-- A place that counts from the end if it is negative. -/
def position (length : ℕ) (index : Int64) : ℤ :=
  if index.toInt < 0 then length + index.toInt else index.toInt

/-- The elements whose places lie between two others. -/
def slice (l : List Bytes) (start stop : Int64) : List Bytes :=
  atPlaces (fun i => decide (position l.length start ≤ i ∧ (i : ℤ) ≤ position l.length stop)) l

/-- The element next to the first one that equals the pivot. -/
def insertAt (before : Bool) (pivot element : Bytes) : List Bytes → List Bytes
  | [] => []
  | x :: l =>
    if x = pivot then if before then element :: x :: l else x :: element :: l
    else x :: insertAt before pivot element l

/-- The place that an index names. -/
def place? (l : List Bytes) (index : Int64) : Option ℕ :=
  let i := position l.length index
  if 0 ≤ i ∧ i < l.length then some i.toNat else none

/-- The last rank that is given, or the first match. -/
def rank (options : List PosOption) : ℤ :=
  ((options.filterMap fun | .rank r => some r.toInt | _ => none).getLast?).getD 1

/-- The last count that is given. -/
def count? (options : List PosOption) : Option ℕ :=
  (options.filterMap fun | .count c => some c.toInt.toNat | _ => none).getLast?

/-- The last number of comparisons that is given, or zero, for no bound. -/
def maxlen (options : List PosOption) : ℕ :=
  ((options.filterMap fun | .maxlen m => some m.toInt.toNat | _ => none).getLast?).getD 0

/-- The places of an element: those among the first `maxlen` from the head or the tail, without
the first ones that the rank skips. -/
def places (l : List Bytes) (element : Bytes) (rank : ℤ) (maxlen : ℕ) : List ℕ :=
  let scanned := if 0 < rank then l.zipIdx else l.zipIdx.reverse
  let scanned := if maxlen = 0 then scanned else scanned.take maxlen
  ((scanned.filter fun x => x.1 = element).map Prod.snd).drop (rank.natAbs - 1)

/-- The answer to `LPOS`. -/
def posReply (l : List Bytes) (element : Bytes) (options : List PosOption) : ListReply :=
  let found := places l element (rank options) (maxlen options)
  match count? options with
  | none =>
    match found with
    | [] => .null
    | i :: _ => .integer i
  | some 0 => .integers (found.map fun i => (i : ℤ))
  | some count => .integers ((found.take count).map fun i => (i : ℤ))

/-- The first or the last element, and the others. -/
def popEnd (left : Bool) (l : List Bytes) : Option (Bytes × List Bytes) :=
  if left then l.head?.map fun x => (x, l.tail) else l.getLast?.map fun x => (x, l.dropLast)

/-- One more element at an end. -/
def pushEnd (left : Bool) (x : Bytes) (l : List Bytes) : List Bytes :=
  if left then x :: l else l ++ [x]

def reads (key : Bytes) (reply : List Bytes → ListReply) (st : Bytes → Content) :
    ListReply × (Bytes → Content) :=
  match st key with
  | .other => (wrongType, st)
  | .sequence l => (reply l, st)

/-- A command that changes one sequence. -/
def writes (key : Bytes) (result : List Bytes → ListReply × List Bytes) (st : Bytes → Content) :
    ListReply × (Bytes → Content) :=
  match st key with
  | .other => (wrongType, st)
  | .sequence l => ((result l).1, Function.update st key (.sequence (result l).2))

/-- What is popped from the front of the sequence. -/
def popReply (count : Option Int64) (l : List Bytes) : ListReply :=
  match count, l with
  | none, [] => .null
  | some _, [] => .nullArray
  | none, x :: _ => .bulk x
  | some count, l => .array (l.take count.toInt.toNat)

/-- How many elements are popped. -/
def popped (count : Option Int64) : ℕ :=
  match count with
  | none => 1
  | some count => count.toInt.toNat

def refusesCount (count : Option Int64) : Bool :=
  match count with
  | none => false
  | some count => count.toInt < 0

def run (st : Bytes → Content) : ListCommand → ListReply × (Bytes → Content)
  | .lpush key first rest =>
    writes key (fun l => (.integer (l.length + (rest.length + 1)),
      (first :: rest).reverse ++ l)) st
  | .rpush key first rest =>
    writes key (fun l => (.integer (l.length + (rest.length + 1)), l ++ first :: rest)) st
  | .lpushx key first rest =>
    writes key (fun l =>
      if l = [] then (.integer 0, [])
      else (.integer (l.length + (rest.length + 1)), (first :: rest).reverse ++ l)) st
  | .rpushx key first rest =>
    writes key (fun l =>
      if l = [] then (.integer 0, [])
      else (.integer (l.length + (rest.length + 1)), l ++ first :: rest)) st
  | .lpop key count =>
    if refusesCount count then (notInteger, st)
    else writes key (fun l => (popReply count l, l.drop (popped count))) st
  | .rpop key count =>
    if refusesCount count then (notInteger, st)
    else
      writes key (fun l =>
        (popReply count l.reverse, (l.reverse.drop (popped count)).reverse)) st
  | .llen key => reads key (fun l => .integer l.length) st
  | .lrange key start stop => reads key (fun l => .array (slice l start stop)) st
  | .lindex key index =>
    reads key (fun l =>
      match (place? l index).bind fun i => l[i]? with
      | none => .null
      | some x => .bulk x) st
  | .lset key index value =>
    writes key (fun l =>
      if l = [] then (.error "ERR no such key", [])
      else
        match place? l index with
        | none => (.error "ERR index out of range", l)
        | some i => (.ok, l.set i value)) st
  | .ltrim key start stop => writes key (fun l => (.ok, slice l start stop)) st
  | .linsert key before pivot element =>
    writes key (fun l =>
      if l = [] then (.integer 0, [])
      else if pivot ∈ l then (.integer (l.length + 1), insertAt before pivot element l)
      else (.integer (-1), l)) st
  | .lpos key element options =>
    match options.findSome? PosOption.refusal with
    | some reply => (reply, st)
    | none => reads key (fun l => posReply l element options) st
  | .lmove source destination popLeft pushLeft =>
    move source destination popLeft pushLeft st
  | .rpoplpush source destination => move source destination false true st
where
  /-- An element is taken from one end of a sequence and added at one end of another one, or of
  the same. -/
  move (source destination : Bytes) (popLeft pushLeft : Bool) (st : Bytes → Content) :
      ListReply × (Bytes → Content) :=
    match st source with
    | .other => (wrongType, st)
    | .sequence l =>
      match popEnd popLeft l with
      | none => (.null, st)
      | some (x, rest) =>
        let popped := Function.update st source (.sequence rest)
        match popped destination with
        | .other => (wrongType, st)
        | .sequence m =>
          (.bulk x, Function.update popped destination (.sequence (pushEnd pushLeft x m)))

end Reference

end Swytch.Redis.Lists
