import Swytch.Lib.BitString
import Swytch.Redis.StoredValues

/-!
# The string and bitmap commands

A string is stored in several ways: as a scalar with its bytes, as a scalar that is a number, which
`INCR` and `INCRBYFLOAT` make of it, or as a keyed collection that has an element for each bit that
was written.  Such an overlay may lie over a scalar, and then its elements say which bits of the
scalar are toggled.  `GET`, `STRLEN`, `GETRANGE` and the increments look at a key through
`getStringSnapshot`, `MGET` by its own copy of it, and the bitmap commands through
`getBitmapSnapshot`.

The arguments are those that the handlers accept, after they are parsed.  Sums of an index and of a
length are not wrapped, since a slice has at most 2 ^ 48 bytes.  How a float is written is a
parameter.
-/

namespace Swytch.Redis.Strings

open Sql (Bytes utf8 F64)
open BitString (bit toggle put pad onesCount)

/-! ## 1.  Bitmaps -/

/-- The reduced state of a key. -/
abbrev StringSnapshot := Snapshot StoredValue

/-- A bit as the commands cut it out of the bytes. -/
def bitOf (data : Bytes) (i : ℕ) : ℕ :=
  ((data.getD (i / 8) 0 >>> UInt8.ofNat (7 - i % 8)) &&& 1).toNat

def getScalarBit (data : Bytes) (offset : ℕ) : ℤ :=
  if data.length ≤ offset / 8 then 0 else bitOf data offset

/-- `snap.GetScalar().Decompress()`. -/
def scalarBytes (snap : StringSnapshot) : Option Bytes := snap.scalar.bind StoredValue.decompress

/-- `elem.GetData().GetIntVal()`. -/
def elementInt (element : Element StoredValue) : Int64 :=
  match element.value with
  | none => 0
  | some value => value.getIntVal

/-- `getBit` on a snapshot that is there. -/
def getBit (snap : StringSnapshot) (offset : ℕ) : ℤ :=
  if snap.collection = .keyed then
    let baseBit :=
      if snap.scalar = none then 0 else getScalarBit ((scalarBytes snap).getD []) offset
    match snap.netAdds.lookup (formatInt offset) with
    | some element =>
      if snap.scalar ≠ none then
        -- the element says whether the bit of the scalar is toggled
        if elementInt element = 1 then 1 - baseBit else baseBit
      else (elementInt element).toInt
    | none => baseBit
  else getScalarBit ((scalarBytes snap).getD []) offset

structure BitEntry where
  offset : ℕ
  set : Bool

/-- An element's entry.  The ids are written from offsets, so they are numerals. -/
def BitEntry.ofElement (element : Sigma fun _ : Bytes => Element StoredValue) : BitEntry where
  offset := ((parseInt64 element.1).getD 0).toNat
  set := elementInt element.2 = 1

/-- The entries that `reconstructBitmapBytes` collects. -/
def bitEntries (snap : StringSnapshot) : List BitEntry :=
  snap.netAdds.entries.map BitEntry.ofElement

def maxOffset (entries : List BitEntry) : ℕ :=
  entries.foldl (fun largest entry => max largest entry.offset) 0

/-- `reconstructBitmapBytes` on a snapshot that is there, where `none` is the nil slice. -/
def reconstructBitmapBytes (snap : StringSnapshot) : Option Bytes :=
  if snap.collection = .scalar then scalarBytes snap
  else
    let entries := bitEntries snap
    match snap.scalar with
    | some base =>
      let data := base.decompress.getD []
      let data := if entries.isEmpty then data else pad (maxOffset entries / 8 + 1) data
      some (entries.foldl
        (fun data entry => if entry.set then toggle entry.offset data else data) data)
    | none =>
      if entries.isEmpty then none
      else
        some (entries.foldl
          (fun data entry => if entry.set then put entry.offset data else data)
          (List.replicate (maxOffset entries / 8 + 1) 0))

/-! ## 2.  Lookups -/

inductive StringLookup where
  | absent
  | wrongType
  | found (snap : StringSnapshot)

/-- `shared.ReconstructBytes`: bitmaps are the only type with a reconstructor. -/
def reconstructBytes (snap : StringSnapshot) : Option (Option Bytes) :=
  if snap.typeTag = .bitmap then some (reconstructBitmapBytes snap) else none

/-- The snapshots that are taken for strings as they are. -/
def isScalarString (snap : StringSnapshot) : Bool :=
  snap.collection = .scalar && (snap.typeTag = .string || snap.typeTag = .unspecified)

/-- The scalar that stands for a reconstructed string. -/
def synthetic (data : Option Bytes) (expiresAt : Option ℤ) : StringSnapshot :=
  { Snapshot.fresh .scalar with
    typeTag := .string
    scalar := some (.raw (data.getD []))
    expiresAt := expiresAt }

def getStringSnapshot (ctx : Context StoredValue) (key : Bytes) : StringLookup :=
  match ctx.getAnySnapshot key with
  | none => .absent
  | some snap =>
    if isScalarString snap then .found snap
    else
      match reconstructBytes snap with
      | some data => .found (synthetic data snap.expiresAt)
      | none => .wrongType

def getBitmapSnapshot (ctx : Context StoredValue) (key : Bytes) : StringLookup :=
  match ctx.getAnySnapshot key with
  | none => .absent
  | some snap =>
    if snap.collection ≠ .keyed ∧ snap.collection ≠ .scalar then .wrongType else .found snap

/-- `snapshotToRaw`, the nil slice as the empty one. -/
def snapshotToRaw (formatFloat : F64 → Bytes) (snap : StringSnapshot) : Bytes :=
  match snap.scalar with
  | none => []
  | some (.raw bytes) => bytes
  | some (.compressed bytes) => bytes
  | some (.intVal n) => formatInt n.toInt
  | some (.floatVal f) => formatFloat f

def snapshotToInt (snap : StringSnapshot) : Option Int64 :=
  match snap.scalar with
  | none => some 0
  | some (.intVal n) => some n
  | some (.raw bytes) => (parseInt64 bytes).map Int64.ofInt
  | some (.compressed bytes) => (parseInt64 bytes).map Int64.ofInt
  | some (.floatVal _) => none

/-! ## 3.  The commands that read -/

inductive StringReply where
  | null
  | bulk (bytes : Bytes)
  | integer (n : ℤ)
  | error (message : String)
  deriving DecidableEq

/-- `WriteWrongType`. -/
def wrongType : StringReply :=
  .error "WRONGTYPE Operation against a key holding the wrong kind of value"

/-- `WriteNotInteger`. -/
def notInteger : StringReply := .error "ERR value is not an integer or out of range"

section Reads

variable (formatFloat : F64 → Bytes) (ctx : Context StoredValue) (key : Bytes)

def handleGet : StringReply :=
  match getStringSnapshot ctx key with
  | .absent => .null
  | .wrongType => wrongType
  | .found snap => .bulk (snapshotToRaw formatFloat snap)

def handleStrLen : StringReply :=
  match getStringSnapshot ctx key with
  | .absent => .integer 0
  | .wrongType => wrongType
  | .found snap => .integer (snapshotToRaw formatFloat snap).length

/-- The part of `handleGetRange` after the lookup. -/
def sliceRange (data : Bytes) (start stop : ℤ) : Bytes :=
  let length : ℤ := data.length
  if start < 0 ∧ stop < 0 ∧ start > stop then []
  else
    let startIdx := if start < 0 then length + start else start
    let endIdx := if stop < 0 then length + stop else stop
    let startIdx := if startIdx < 0 then 0 else startIdx
    let endIdx := if endIdx < 0 then 0 else endIdx
    let endIdx := if endIdx ≥ length then length - 1 else endIdx
    if startIdx > endIdx ∨ startIdx ≥ length then []
    else (data.drop startIdx.toNat).take (endIdx + 1 - startIdx).toNat

def handleGetRange (start stop : ℤ) : StringReply :=
  match getStringSnapshot ctx key with
  | .absent => .bulk []
  | .wrongType => wrongType
  | .found snap => .bulk (sliceRange (snapshotToRaw formatFloat snap) start stop)

/-- What `handleMGet` replies for one snapshot.  It does not ask whether the key is deleted, and it
takes the nil slice for a key that is not there. -/
def mgetReply (snap : Option StringSnapshot) : StringReply :=
  match snap with
  | none => .null
  | some snap =>
    if isScalarString snap then .bulk (snapshotToRaw formatFloat snap)
    else
      match reconstructBytes snap with
      | some (some data) => .bulk data
      | _ => .null

def handleMGet (keys : List Bytes) : List StringReply :=
  keys.map fun key => mgetReply formatFloat (ctx.snapshots key)

def handleGetBit (offset : ℕ) : StringReply :=
  match getBitmapSnapshot ctx key with
  | .absent => .integer 0
  | .wrongType => wrongType
  | .found snap => .integer (getBit snap offset)

/-- `start`, `end` and whether they count bits. -/
structure BitInterval where
  start : ℤ
  stop : ℤ
  useBitIndex : Bool

/-- How `handleBitCount` and `handleBitPos` bring the two ends into a string of so many bytes or
bits; `none` if nothing is left. -/
def clampRange (length : ℕ) (start stop : ℤ) : Option (ℕ × ℕ) :=
  let actualStart := if start < 0 then length + start else start
  let actualEnd := if stop < 0 then length + stop else stop
  let actualStart := if actualStart < 0 then 0 else actualStart
  let actualEnd := if actualEnd ≥ length then (length : ℤ) - 1 else actualEnd
  if actualStart > actualEnd ∨ actualStart ≥ length then none
  else some (actualStart.toNat, actualEnd.toNat)

/-- The positions of a loop with both ends included. -/
def between (ends : ℕ × ℕ) : List ℕ := List.range' ends.1 (ends.2 + 1 - ends.1)

/-- The part of `handleBitCount` that counts in the bytes. -/
def countBits (data : Bytes) (range : Option BitInterval) : ℕ :=
  match range with
  | none =>
    match clampRange data.length 0 ((data.length : ℤ) - 1) with
    | none => 0
    | some ends => ((between ends).map fun i => onesCount (data.getD i 0)).sum
  | some ⟨start, stop, true⟩ =>
    match clampRange (data.length * 8) start stop with
    | none => 0
    | some ends => (between ends).countP fun i => bitOf data i = 1
  | some ⟨start, stop, false⟩ =>
    match clampRange data.length start stop with
    | none => 0
    | some ends => ((between ends).map fun i => onesCount (data.getD i 0)).sum

/-- The runner of `handleBitCount`.  Without a range the elements of an overlay over nothing are
counted. -/
def handleBitCount (range : Option BitInterval) : StringReply :=
  match getBitmapSnapshot ctx key with
  | .absent => .integer 0
  | .wrongType => wrongType
  | .found snap =>
    if range.isNone ∧ snap.collection = .keyed ∧ snap.scalar = none then
      .integer (snap.netAdds.entries.countP fun element => elementInt element.2 = 1)
    else .integer (countBits ((reconstructBitmapBytes snap).getD []) range)

/-- The arguments of `BITPOS` after the bit. -/
inductive BitRange where
  | whole
  | startingAt (start : ℤ)
  | within (range : BitInterval)

/-- The search of `handleBitPos` in the bits of one byte. -/
def searchByte (data : Bytes) (searchBit : ℕ) (byteIdx : ℕ) : Option ℕ :=
  [7, 6, 5, 4, 3, 2, 1, 0].findSome? fun bitIdx =>
    if ((data.getD byteIdx 0 >>> UInt8.ofNat bitIdx) &&& 1).toNat = searchBit then
      some (byteIdx * 8 + (7 - bitIdx))
    else none

/-- The search of `handleBitPos` byte by byte, and what it replies if nothing is found. -/
def searchBytes (data : Bytes) (searchBit : ℕ) (start stop : ℤ) (hasEnd : Bool) : ℤ :=
  match clampRange data.length start stop with
  | none => -1
  | some ends =>
    match (between ends).findSome? (searchByte data searchBit) with
    | some position => position
    | none => if searchBit = 0 ∧ hasEnd = false then (data.length : ℤ) * 8 else -1

/-- The part of `handleBitPos` that searches in the bytes. -/
def searchBits (data : Bytes) (searchBit : ℕ) (range : BitRange) : ℤ :=
  if data.length = 0 then if searchBit = 0 then 0 else -1
  else
    match range with
    | .whole => searchBytes data searchBit 0 ((data.length : ℤ) - 1) false
    | .startingAt start => searchBytes data searchBit start ((data.length : ℤ) - 1) false
    | .within ⟨start, stop, false⟩ => searchBytes data searchBit start stop true
    | .within ⟨start, stop, true⟩ =>
      match clampRange (data.length * 8) start stop with
      | none => -1
      | some ends =>
        match (between ends).find? fun i => bitOf data i = searchBit with
        | some position => position
        | none => -1

def handleBitPos (searchBit : ℕ) (range : BitRange) : StringReply :=
  match getBitmapSnapshot ctx key with
  | .absent => .integer (if searchBit = 0 then 0 else -1)
  | .wrongType => wrongType
  | .found snap =>
    .integer (searchBits ((reconstructBitmapBytes snap).getD []) searchBit range)

end Reads

/-! ## 4.  The increments -/

section Increments

variable [MergeValue StoredValue]

def emitIncrInt (key : Bytes) (delta : Int64) (ctx : Context StoredValue) : Context StoredValue :=
  ctx.emit key (.data
    { op := .insert, merge := .additiveInt, collection := .scalar, value := some (.intVal delta) })

def emitStringTTL (key : Bytes) (expiresAt : ℤ) (ctx : Context StoredValue) :
    Context StoredValue :=
  ctx.emit key (.metadata { expiresAt := some expiresAt })

def emitStringTypeTag (key : Bytes) (ctx : Context StoredValue) : Context StoredValue :=
  ctx.emit key (.metadata { typeTag := .string })

/-- The check of `incrBy` for an overflow of `current + delta`. -/
def overflows (current delta : Int64) : Bool :=
  (delta > 0 && current + delta < current) || (delta < 0 && current + delta > current)

def incrBy (ctx : Context StoredValue) (key : Bytes) (delta : Int64) :
    StringReply × Context StoredValue :=
  match getStringSnapshot ctx key with
  | .wrongType => (wrongType, ctx)
  | .absent =>
    if overflows 0 delta then (.error "ERR increment or decrement would overflow", ctx)
    else (.integer (0 + delta).toInt, emitStringTypeTag key (emitIncrInt key delta ctx))
  | .found snap =>
    match snapshotToInt snap with
    | none => (notInteger, ctx)
    | some current =>
      if overflows current delta then (.error "ERR increment or decrement would overflow", ctx)
      else
        let ctx := emitIncrInt key delta ctx
        match snap.expiresAt with
        | some expiresAt => (.integer (current + delta).toInt, emitStringTTL key expiresAt ctx)
        | none => (.integer (current + delta).toInt, ctx)

inductive Increment where
  | incr
  | decr
  | incrBy (delta : Int64)
  | decrBy (delta : Int64)

/-- `handleDecrBy` refuses the argument whose negation does not fit, before it looks at the key. -/
def Increment.IsAccepted : Increment → Prop
  | .decrBy delta => delta ≠ Int64.minValue
  | _ => True

def Increment.amount : Increment → ℤ
  | .incr => 1
  | .decr => -1
  | .incrBy delta => delta.toInt
  | .decrBy delta => -delta.toInt

/-- The runners of `handleIncr`, `handleDecr`, `handleIncrBy` and `handleDecrBy`. -/
def Increment.run (ctx : Context StoredValue) (key : Bytes) :
    Increment → StringReply × Context StoredValue
  | .incr => Strings.incrBy ctx key 1
  | .decr => Strings.incrBy ctx key (-1)
  | .incrBy delta => Strings.incrBy ctx key delta
  | .decrBy delta =>
    if delta = Int64.minValue then (.error "ERR value is out of range", ctx)
    else Strings.incrBy ctx key (-delta)

end Increments

/-! ## 5.  What Redis replies -/

namespace Reference

/-- An index counts from the end if it is negative. -/
def position (length : ℕ) (i : ℤ) : ℤ := if i < 0 then length + i else i

/-- `GET`, and what `MGET` replies for the key. -/
def get : Option Bytes → StringReply
  | none => .null
  | some b => .bulk b

def strLen (b : Option Bytes) : ℤ := (b.getD []).length

/-- `GETRANGE`: the bytes from `start` to `stop`, both brought into the string. -/
def getRange (b : Option Bytes) (start stop : ℤ) : Bytes :=
  let data := b.getD []
  let lo := (position data.length start).toNat
  let hi := (position data.length stop).toNat
  if start < 0 ∧ stop < 0 ∧ stop < start then [] else (data.drop lo).take (hi + 1 - lo)

/-- The bit at this place is in the range. -/
def InRange (data : Bytes) (range : Option BitInterval) (p : ℕ) : Prop :=
  match range with
  | none => True
  | some ⟨start, stop, true⟩ =>
    position (data.length * 8) start ≤ p ∧ (p : ℤ) ≤ position (data.length * 8) stop
  | some ⟨start, stop, false⟩ =>
    position data.length start ≤ (p / 8 : ℕ) ∧ ((p / 8 : ℕ) : ℤ) ≤ position data.length stop

instance (data : Bytes) (range : Option BitInterval) : DecidablePred (InRange data range) :=
  fun _ =>
    match range with
    | none => .isTrue trivial
    | some ⟨_, _, true⟩ => inferInstanceAs (Decidable (_ ∧ _))
    | some ⟨_, _, false⟩ => inferInstanceAs (Decidable (_ ∧ _))

/-- `BITCOUNT`: the number of set bits in the range. -/
def bitCount (b : Option Bytes) (range : Option BitInterval) : ℕ :=
  let data := b.getD []
  (List.range (8 * data.length)).countP fun p => bit data p && decide (InRange data range p)

def getBit (b : Option Bytes) (offset : ℕ) : ℤ := (bit (b.getD []) offset).toNat

end Reference

/-- The interval of a search: without an end it goes up to the last byte. -/
def BitRange.interval : BitRange → Option BitInterval
  | .whole => none
  | .startingAt start => some ⟨start, -1, false⟩
  | .within range => some range

/-- No end is given. -/
def BitRange.isOpen : BitRange → Bool
  | .within _ => false
  | _ => true

namespace Reference

/-- `BITPOS`: the first place in the range with that bit.  If no end is given, the string goes on
with zeros, unless the range starts after its end; an empty string is as one that is not there. -/
def bitPos (b : Option Bytes) (searchBit : Bool) (range : BitRange) : ℤ :=
  let data := b.getD []
  let places := (List.range (8 * data.length)).filter fun p => InRange data range.interval p
  if data = [] then if searchBit then -1 else 0
  else
    match places.find? fun p => bit data p == searchBit with
    | some p => p
    | none => if !searchBit && range.isOpen && !places.isEmpty then 8 * data.length else -1

/-- The integer that an increment starts from: the one whose numeral the string is, or zero if
there is no string. -/
def IsValue : Option Bytes → ℤ → Prop
  | none, n => n = 0
  | some b, n => IsInt64 n ∧ b = formatInt n

end Reference

/-! ## 6.  Keys that hold a string -/

section OneValue

variable (formatFloat : F64 → Bytes) (ctx : Context StoredValue) (key : Bytes)

/-- The commands that read reply what Redis does for a key that holds `b`. -/
structure ShowsReads (b : Option Bytes) : Prop where
  get : handleGet formatFloat ctx key = Reference.get b
  strLen : handleStrLen formatFloat ctx key = .integer (Reference.strLen b)
  getRange : ∀ start stop,
    handleGetRange formatFloat ctx key start stop = .bulk (Reference.getRange b start stop)
  mget : ∀ (keys : List Bytes) (i : ℕ), keys[i]? = some key →
    (handleMGet formatFloat ctx keys)[i]? = some (Reference.get b)
  bitCount : ∀ range, handleBitCount ctx key range = .integer (Reference.bitCount b range)
  getBit : ∀ offset, offset < 2 ^ 63 →
    handleGetBit ctx key offset = .integer (Reference.getBit b offset)
  bitPos : ∀ (searchBit : Bool) range,
    handleBitPos ctx key searchBit.toNat range = .integer (Reference.bitPos b searchBit range)

variable [MergeValue StoredValue]

/-- The increments succeed exactly if `b` is a numeral, or not there, and the sum fits; they reply
and store the sum. -/
structure ShowsIncrements (b : Option Bytes) : Prop where
  succeeds : ∀ (cmd : Increment) (n : ℤ), cmd.IsAccepted → Reference.IsValue b n →
    IsInt64 (n + cmd.amount) → (cmd.run ctx key).1 = .integer (n + cmd.amount) ∧
      handleGet formatFloat (cmd.run ctx key).2 key = .bulk (formatInt (n + cmd.amount))
  fails : ∀ cmd : Increment, cmd.IsAccepted →
    (¬ ∃ n, Reference.IsValue b n ∧ IsInt64 (n + cmd.amount)) →
      ∃ message, (cmd.run ctx key).1 = .error message

/-- All commands see the same value, the one that `GET` replies. -/
def OneValue : Prop :=
  ∃ b, ShowsReads formatFloat ctx key b ∧ ShowsIncrements formatFloat ctx key b

end OneValue

/-- The types of a string. -/
def IsStringTag (tag : ValueType) : Prop := tag = .unspecified ∨ tag = .string ∨ tag = .bitmap

instance : DecidablePred IsStringTag := fun _ => inferInstanceAs (Decidable (_ ∨ _ ∨ _))

/-- The elements of an overlay are those of bits. -/
structure IsOverlay (snap : StringSnapshot) : Prop where
  id : ∀ id ∈ snap.netAdds.keys, ∃ offset : ℕ, offset < 2 ^ 63 ∧ id = formatInt offset
  value : ∀ id element, snap.netAdds.lookup id = some element →
    element.value = some (.intVal 0) ∨ element.value = some (.intVal 1)

/-- The key holds a string in one of the ways in which the commands store it, or is deleted. -/
def StringKind (snap : Option StringSnapshot) : Prop :=
  match snap with
  | none => True
  | some snap =>
    IsStringTag snap.typeTag ∧
      match snap.op, snap.collection with
      | .remove, .scalar => snap.scalar = none
      | .insert, .scalar => True
      | .insert, .keyed => IsOverlay snap
      | _, _ => False

/-- The commands agree on the key: it is not there; or it is deleted and not marked as a string; or
it holds bytes, as a scalar or as an overlay that is marked as a bitmap and not empty, and the bytes
are no number, or the canonical numeral in a scalar that is marked as a string. -/
def Uniform (snap : Option StringSnapshot) : Prop :=
  match snap with
  | none => True
  | some snap =>
    match snap.op, snap.collection with
    | .remove, _ => snap.typeTag = .bitmap
    | .insert, .scalar =>
      ∃ bytes, scalarBytes snap = some bytes ∧
        ∀ n, parseInt64 bytes = some n → snap.typeTag ≠ .bitmap ∧ bytes = formatInt n
    | .insert, _ =>
      snap.typeTag = .bitmap ∧
        ∃ bytes, reconstructBitmapBytes snap = some bytes ∧ parseInt64 bytes = none

end Swytch.Redis.Strings
