import Swytch.Lib.BigEndian
import Swytch.Sql.Schema

/-!
# Byte encodings of values and tuples

Row keys and index-entry keys are byte strings whose lexicographic order follows the
order of the values they spell.  Numbers take eight bytes; a text or blob is raw where
it stands alone, and escaped and terminated where it is a component of a tuple.

`setEncodedValue` and `decodeValue` are the other codec of the layer: the value a column
stores as a field of its row.
-/

namespace Swytch.Sql

open BigEndian

/-- The sign bit of a 64-bit word. -/
def signBit : UInt64 := 0x8000000000000000

/-- `binary.BigEndian.PutUint64` into a fresh buffer. -/
def putUint64 (u : UInt64) : Bytes := toBE 8 u.toNat

/-- `binary.BigEndian.Uint64`. -/
def getUint64 (b : Bytes) : UInt64 := UInt64.ofNat (ofBE b)

/-- An `int64` as a word whose unsigned order is the integer order. -/
def intBits (i : Int64) : UInt64 := i.toUInt64 ^^^ signBit

/-- The inverse of `intBits`. -/
def bitsInt (u : UInt64) : Int64 := (u ^^^ signBit).toInt64

/-- A double as a word whose unsigned order is the numeric order: negatives are flipped
whole, the others in the sign bit. -/
def floatBits (f : F64) : UInt64 :=
  if f.bits &&& signBit ≠ 0 then ~~~f.bits else f.bits ^^^ signBit

/-- The inverse of `floatBits`. -/
def bitsFloat (u : UInt64) : F64 :=
  if u &&& signBit ≠ 0 then ⟨u ^^^ signBit⟩ else ⟨~~~u⟩

/-! ## Stored fields -/

/-- `setEncodedValue`: the payload of a non-`NULL` value; `none` where the source
returns false. -/
def setEncodedValue : Value → Option Payload
  | .integer i => some (.intVal i)
  | .float f => some (.floatVal f)
  | .text b => some (.raw b)
  | .blob b => some (.raw b)
  | .null | .unchanged => none

/-- `decodeValue`: the affinity tells texts from blobs. -/
def decodeValue (p : Payload) (affinity : Affinity) : Value :=
  match p with
  | .intVal i => .integer i
  | .floatVal f => .float f
  | .raw b => if affinity = .blob then .blob b else .text b
  -- a column never holds a schema document
  | .columnsDoc _ | .ordinalsDoc _ | .indexesDoc _ => .null

/-! ## Index values and tuple components -/

section Encode

variable [Host]

def encodeIndexValue (v : Value) (affinity : Affinity) : Bytes :=
  match affinity with
  | .integer => putUint64 (intBits v.toInt64)
  | .real => putUint64 (floatBits v.toFloat)
  | .text | .blob | .numeric | .unresolved => v.toBytes

/-- `encodeTupleBytes`: `00` becomes `00 01`, and `00 00` ends the component. -/
def encodeTupleBytes : Bytes → Bytes
  | [] => [0x00, 0x00]
  | b :: raw => if b = 0x00 then 0x00 :: 0x01 :: encodeTupleBytes raw else b :: encodeTupleBytes raw

def encodeTupleComponent (v : Value) (affinity : Affinity) : Bytes :=
  match affinity with
  | .integer | .real => encodeIndexValue v affinity
  | .text | .blob | .numeric | .unresolved => encodeTupleBytes v.toBytes

/-- The concatenated components of a tuple. -/
def encodeTuple (vals : List Value) (affinities : List Affinity) : Bytes :=
  (List.zipWith encodeTupleComponent vals affinities).flatten

/-- `encodeIndexKeyTuple`: a tuple of one column is the bare index value. -/
def encodeIndexKeyTuple (vals : List Value) (affinities : List Affinity) : Bytes :=
  match vals, affinities with
  | [v], affinity :: _ => encodeIndexValue v affinity
  | _, _ => encodeTuple vals affinities

/-- `encodeIndexKeyPrefix`: the first `prefixCount` components, in full. -/
def encodeIndexKeyPrefix (vals : List Value) (affinities : List Affinity) (prefixCount : ℕ) :
    Bytes :=
  if prefixCount = 0 then []
  else
    let prefixCount := min prefixCount vals.length
    match vals, affinities with
    | v :: _, [affinity] =>
      if prefixCount = 1 then encodeIndexValue v affinity
      else encodeTuple (vals.take prefixCount) affinities
    | _, _ => encodeTuple (vals.take prefixCount) affinities

/-! ## Primary keys -/

/-- `encodePK`; the source's only error is a length mismatch. -/
def encodePK (values : List Value) (affinities : List Affinity) : Option Bytes :=
  if values.length ≠ affinities.length then none
  else
    match values, affinities with
    | [v], [.integer] => some (encodeIndexValue v .integer)
    | [v], [.real] => some (encodeIndexValue v .real)
    | [v], [_] => some v.toBytes
    | _, _ => some (encodeTuple values affinities)

end Encode

/-- `decodeTupleBytes`: the component up to the first `00 00`, and what follows it. -/
def decodeTupleBytes : Bytes → Option (Bytes × Bytes)
  | [] => none
  | [b] => if b ≠ 0x00 then (decodeTupleBytes []).map fun (raw, rest) => (b :: raw, rest) else none
  | b :: next :: buf =>
    if b ≠ 0x00 then (decodeTupleBytes (next :: buf)).map fun (raw, rest) => (b :: raw, rest)
    else if next = 0x00 then some ([], buf)
    else if next = 0x01 then (decodeTupleBytes buf).map fun (raw, rest) => (0x00 :: raw, rest)
    else none

def decodeTupleComponent (buf : Bytes) (affinity : Affinity) : Option (Value × Bytes) :=
  match affinity with
  | .integer =>
    if buf.length < 8 then none
    else some (.integer (bitsInt (getUint64 (buf.take 8))), buf.drop 8)
  | .real =>
    if buf.length < 8 then none
    else some (.float (bitsFloat (getUint64 (buf.take 8))), buf.drop 8)
  | .blob => (decodeTupleBytes buf).map fun (raw, rest) => (.blob raw, rest)
  | .text | .numeric | .unresolved =>
    (decodeTupleBytes buf).map fun (raw, rest) => (.text raw, rest)

def decodeSinglePK (pk : Bytes) (affinity : Affinity) : Value :=
  match affinity with
  | .integer =>
    if pk.length ≠ 8 then .text pk else .integer (bitsInt (getUint64 pk))
  | .real =>
    if pk.length ≠ 8 then .text pk else .float (bitsFloat (getUint64 pk))
  | .blob => .blob pk
  | .text | .numeric | .unresolved => .text pk

/-- The composite walk of `decodePK`: a malformed component and all later ones are
`NULL`. -/
def decodeTuple : Bytes → List Affinity → List Value
  | _, [] => []
  | buf, affinity :: affinities =>
    match decodeTupleComponent buf affinity with
    | none => List.replicate (affinities.length + 1) .null
    | some (v, rest) => v :: decodeTuple rest affinities

def decodePK (pk : Bytes) (affinities : List Affinity) : List Value :=
  match affinities with
  | [affinity] => [decodeSinglePK pk affinity]
  | _ => decodeTuple pk affinities

end Swytch.Sql
