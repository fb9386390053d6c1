import Swytch.Redis.Engine
import Swytch.Redis.Registry

/-!
# Streams

A stream is an ordered collection whose element ids are the entries' ids, sixteen bytes with the
milliseconds first.  Everything else of it lives under keys of its own that are made from the
stream's: the registry of its consumer groups, a key and a pending entries list for each group,
the registry of its producers, a key for each producer, and the counters.

The last id is not stored.  It is read off the last element and the greatest tombstone
(`streamMetadata`).

Streams of the older keyed form are left out.
-/

namespace Swytch.Redis

open Sql (Bytes utf8)
open BigEndian (toBE ofBE)

/-! ## 1.  Stream ids -/

structure StreamID where
  ms : UInt64
  seq : UInt64
  deriving DecidableEq

namespace StreamID

variable {id other : StreamID}

/-- The id `0-0`. -/
def zero : StreamID := ⟨0, 0⟩

def isZero (id : StreamID) : Bool := id.ms = 0 && id.seq = 0

def compare (id other : StreamID) : ℤ :=
  if id.ms < other.ms then -1
  else if id.ms > other.ms then 1
  else if id.seq < other.seq then -1
  else if id.seq > other.seq then 1
  else 0

/-- The pair of numbers by which the ids are ordered. -/
def rank (id : StreamID) : ℕ ×ₗ ℕ := toLex (id.ms.toNat, id.seq.toNat)

theorem rank_injective : Function.Injective rank := by
  intro id other h
  have hp : (id.ms.toNat, id.seq.toNat) = (other.ms.toNat, other.seq.toNat) :=
    toLex.injective h
  cases id
  cases other
  simpa [UInt64.toNat_inj] using hp

instance : LinearOrder StreamID := LinearOrder.lift' rank rank_injective

theorem lt_iff :
    id < other ↔ id.ms.toNat < other.ms.toNat ∨
      id.ms.toNat = other.ms.toNat ∧ id.seq.toNat < other.seq.toNat :=
  Prod.Lex.toLex_lt_toLex

theorem compare_pos_iff : 0 < id.compare other ↔ other < id := by
  rw [lt_iff]
  unfold compare
  simp only [UInt64.lt_iff_toNat_lt]
  split_ifs <;> omega

theorem compare_neg_iff : id.compare other < 0 ↔ id < other := by
  rw [lt_iff]
  unfold compare
  simp only [UInt64.lt_iff_toNat_lt]
  split_ifs <;> omega

theorem compare_nonpos_iff : id.compare other ≤ 0 ↔ id ≤ other := by
  rw [← not_lt, compare_pos_iff, not_lt]

theorem zero_le (id : StreamID) : zero ≤ id := by
  rw [← not_lt, lt_iff]
  simp [zero]

theorem isZero_iff : id.isZero = true ↔ id = zero := by
  cases id
  simp [isZero, zero]

end StreamID

/-! ## 2.  Ids as bytes and as text -/

def encodeStreamElementID (id : StreamID) : Bytes := toBE 8 id.ms.toNat ++ toBE 8 id.seq.toNat

def decodeStreamElementID (id : Bytes) : StreamID :=
  if id.length ≠ 16 then .zero
  else ⟨UInt64.ofNat (ofBE (id.take 8)), UInt64.ofNat (ofBE (id.drop 8))⟩

@[simp] theorem length_encodeStreamElementID (id : StreamID) :
    (encodeStreamElementID id).length = 16 := by
  simp [encodeStreamElementID]

@[simp] theorem decode_encodeStreamElementID (id : StreamID) :
    decodeStreamElementID (encodeStreamElementID id) = id := by
  have hms : ofBE (toBE 8 id.ms.toNat) = id.ms.toNat :=
    BigEndian.ofBE_toBE_of_lt (by simpa using id.ms.toNat_lt)
  have hseq : ofBE (toBE 8 id.seq.toNat) = id.seq.toNat :=
    BigEndian.ofBE_toBE_of_lt (by simpa using id.seq.toNat_lt)
  unfold decodeStreamElementID
  simp [encodeStreamElementID, hms, hseq]

theorem encodeStreamElementID_injective : Function.Injective encodeStreamElementID := by
  intro id other h
  simpa using congrArg decodeStreamElementID h

/-- The loop of `strconv.ParseUint` over the digits. -/
def parseUintDigits : ℕ → Bytes → Option ℕ
  | n, [] => some n
  | n, c :: cs =>
    if !isDigit c then none
    else
      let n := n * 10 + (c.toNat - 0x30)
      if 2 ^ 64 ≤ n then none else parseUintDigits n cs

/-- `strconv.ParseUint` in base ten with 64 bits. -/
def parseUint (s : Bytes) : Option UInt64 :=
  if s = [] then none else (parseUintDigits 0 s).map UInt64.ofNat

/-- What `ParseStreamID` gives. -/
structure ParsedID where
  id : StreamID
  exclusive : Bool
  isSpecial : Bool
  deriving DecidableEq

/-- `ParseStreamID` after the exclusive mark. -/
def parsePlainID (s : Bytes) (exclusive : Bool) : Option ParsedID :=
  if s = utf8 "*" || s = utf8 "$" || s = utf8 ">" then some ⟨.zero, false, true⟩
  else if s = utf8 "-" then some ⟨.zero, exclusive, true⟩
  else if s = utf8 "+" then some ⟨⟨-1, -1⟩, exclusive, true⟩
  else
    match parseUint (s.takeWhile (· ≠ 0x2d)), s.dropWhile (· ≠ 0x2d) with
    | none, _ => none
    | some ms, [] => some ⟨⟨ms, 0⟩, exclusive, false⟩
    | some ms, _ :: rest =>
      if rest = utf8 "*" then some ⟨⟨ms, 0⟩, false, true⟩
      else (parseUint rest).map fun seq => ⟨⟨ms, seq⟩, exclusive, false⟩

def parseStreamID (s : Bytes) : Option ParsedID :=
  match s with
  | [] => none
  | 0x28 :: rest => if rest = [] then none else parsePlainID rest true
  | _ => parsePlainID s false

/-! ## 3.  The stream's own key -/

/-- What `getStreamSnapshot` finds. -/
inductive StreamLookup where
  | absent
  | wrongType
  | stream (snap : Snapshot Bytes)

def getStreamSnapshot (ctx : Context Bytes) (key : Bytes) : StreamLookup :=
  match ctx.getAnySnapshot key with
  | none => .absent
  | some snap =>
    if snap.collection = .ordered then .stream snap
    else if snap.collection = .scalar ∧ snap.typeTag = .stream then .stream snap
    else .wrongType

/-- The snapshot that the handlers go on with, `nil` for a key that is not there. -/
def StreamLookup.snap : StreamLookup → Option (Snapshot Bytes)
  | .stream snap => some snap
  | _ => none

/-- `snapshotToEntries`, the ids only. -/
def snapshotToEntries (snap : Option (Snapshot Bytes)) : List StreamID :=
  match snap with
  | none => []
  | some snap =>
    if snap.collection = .ordered then
      (snap.orderedIds.filter fun id => id.length = 16).map decodeStreamElementID
    else []

def streamLastID (entries : List StreamID) : StreamID := entries.getLast?.getD .zero

/-- The id of the last ordered element, if it has the length of one. -/
def tailID (snap : Snapshot Bytes) : StreamID :=
  match snap.orderedIds.getLast? with
  | none => .zero
  | some id => decodeStreamElementID id

/-- The loop over `NetRemoves`. -/
def maxDeleted : List Bytes → StreamID
  | [] => .zero
  | id :: rest =>
    let greatest := maxDeleted rest
    if id.length = 16 ∧ 0 < (decodeStreamElementID id).compare greatest then
      decodeStreamElementID id
    else greatest

/-- The last id and the greatest deleted one, of `streamMetadata`. -/
structure StreamMetadata where
  lastID : StreamID
  maxDeletedID : StreamID
  deriving DecidableEq

def streamMetadata (snap : Option (Snapshot Bytes)) : StreamMetadata :=
  match snap with
  | none => ⟨.zero, .zero⟩
  | some snap =>
    if snap.collection = .ordered then
      let deleted := maxDeleted snap.netRemoves
      ⟨if 0 < deleted.compare (tailID snap) then deleted else tailID snap, deleted⟩
    else ⟨.zero, .zero⟩

/-- The last id that the handlers compare with: where the metadata say `0-0`, the last entry's. -/
def lastIDOf (snap : Option (Snapshot Bytes)) : StreamID :=
  let lastID := (streamMetadata snap).lastID
  if lastID.isZero then streamLastID (snapshotToEntries snap) else lastID

def generateStreamID (snap : Option (Snapshot Bytes)) (now : UInt64) : StreamID :=
  let lastID := lastIDOf snap
  if now > lastID.ms then ⟨now, 0⟩
  else if now = lastID.ms then
    if lastID.seq = -1 then ⟨now + 1, 0⟩ else ⟨now, lastID.seq + 1⟩
  else if lastID.seq = -1 then ⟨lastID.ms + 1, 0⟩
  else ⟨lastID.ms, lastID.seq + 1⟩

def generateStreamIDWithMs (snap : Option (Snapshot Bytes)) (ms : UInt64) : Option StreamID :=
  let lastID := lastIDOf snap
  if ms > lastID.ms then some ⟨ms, 0⟩
  else if ms = lastID.ms then some ⟨ms, lastID.seq + 1⟩
  else none

/-- Four bytes, the lowest first. -/
def putUint32 (n : ℕ) : Bytes := (toBE 4 n).reverse

def encodeStreamFields (fields : List Bytes) : Bytes :=
  putUint32 fields.length ++ fields.flatMap fun field => putUint32 field.length ++ field

def emitStreamInsert (key : Bytes) (id : StreamID) (fields : List Bytes) (ctx : Context Bytes) :
    Context Bytes :=
  ctx.emit key (.data {
    op := .insert
    collection := .ordered
    placement := .tail
    id := encodeStreamElementID id
    value := some (encodeStreamFields fields) })

def emitStreamRemove (key : Bytes) (id : StreamID) (ctx : Context Bytes) : Context Bytes :=
  ctx.emit key (.data { op := .remove, collection := .ordered, id := encodeStreamElementID id })

def emitStreamTypeTag (key : Bytes) (ctx : Context Bytes) : Context Bytes :=
  ctx.emit key (.metadata { typeTag := .stream })

/-! ## 4.  The keys around it -/

def producerKey (stream producer : Bytes) : Bytes := stream ++ (utf8 "\x01p\x01" ++ producer)

def groupKey (stream group : Bytes) : Bytes := stream ++ (utf8 "\x01g\x01" ++ group)

def pelKey (stream group : Bytes) : Bytes := stream ++ (utf8 "\x01pel\x01" ++ group)

def cfgKey (stream : Bytes) : Bytes := stream ++ utf8 "\x01cfg"

/-- The name under which both registries are kept. -/
def registryName : Bytes := utf8 "__registry__"

theorem append_ne_self {stream suffix : Bytes} (h : suffix ≠ []) : stream ++ suffix ≠ stream := by
  simpa using h

theorem stream_ne_producerKey (stream producer : Bytes) : stream ≠ producerKey stream producer :=
  (append_ne_self (List.append_ne_nil_of_left_ne_nil (by decide) _)).symm

theorem stream_ne_groupKey (stream group : Bytes) : stream ≠ groupKey stream group :=
  (append_ne_self (List.append_ne_nil_of_left_ne_nil (by decide) _)).symm

theorem stream_ne_pelKey (stream group : Bytes) : stream ≠ pelKey stream group :=
  (append_ne_self (List.append_ne_nil_of_left_ne_nil (by decide) _)).symm

theorem stream_ne_cfgKey (stream : Bytes) : stream ≠ cfgKey stream :=
  (append_ne_self (by decide)).symm

/-- The elements of a keyed collection; a key that is not there has none. -/
def netAddsOf (ctx : Context Bytes) (key : Bytes) : AList (fun _ : Bytes => Element Bytes) :=
  match ctx.snapshots key with
  | none => ∅
  | some snap => snap.netAdds

/-- `Decompress` of an element, empty for a value that is not set. -/
def Element.raw (element : Element Bytes) : Bytes := element.value.getD []

/-- An `INSERT` of a raw value into a keyed collection. -/
def emitKeyedInsert (key id raw : Bytes) (ctx : Context Bytes) : Context Bytes :=
  ctx.emit key (.data { op := .insert, collection := .keyed, id := id, value := some raw })

/-- A `REMOVE` from a keyed collection. -/
def emitKeyedRemove (key id : Bytes) (ctx : Context Bytes) : Context Bytes :=
  ctx.emit key (.data { op := .remove, collection := .keyed, id := id })

/-- `listGroupNames`; the source sorts the names. -/
def listGroupNames (ctx : Context Bytes) (stream : Bytes) : List Bytes :=
  (netAddsOf ctx (groupKey stream registryName)).keys

def groupExists (ctx : Context Bytes) (stream group : Bytes) : Bool :=
  ((netAddsOf ctx (groupKey stream group)).lookup (utf8 "__group__")).isSome

/-- The last delivered id of `getGroupMeta`. -/
def lastDelivered (ctx : Context Bytes) (stream group : Bytes) : StreamID :=
  match (netAddsOf ctx (groupKey stream group)).lookup (utf8 "__group__") with
  | none => .zero
  | some element =>
    if element.raw.length < 32 then .zero else decodeStreamElementID (element.raw.take 16)

/-- The entry is in the group's pending entries list. -/
def isPending (ctx : Context Bytes) (stream group : Bytes) (id : StreamID) : Bool :=
  ((netAddsOf ctx (pelKey stream group)).lookup (encodeStreamElementID id)).isSome

def emitPELRemove (stream group : Bytes) (id : StreamID) : Context Bytes → Context Bytes :=
  emitKeyedRemove (pelKey stream group) (encodeStreamElementID id)

/-- An eight byte number, the lowest byte first. -/
def putInt64 (n : Int64) : Bytes := (toBE 8 n.toUInt64.toNat).reverse

/-- The number in eight bytes, the lowest first. -/
def getInt64 (raw : Bytes) : Int64 := (UInt64.ofNat (ofBE raw.reverse)).toInt64

def emitCfgSet (stream field : Bytes) (value : Int64) : Context Bytes → Context Bytes :=
  emitKeyedInsert (cfgKey stream) field (putInt64 value)

def getConfigCounter (ctx : Context Bytes) (stream field : Bytes) (fallback : Int64) : Int64 :=
  match (netAddsOf ctx (cfgKey stream)).lookup field with
  | none => fallback
  | some element => if element.raw.length = 8 then getInt64 element.raw else fallback

def incrementStreamEntriesAdded (stream : Bytes) (ctx : Context Bytes) : Context Bytes :=
  let current := getConfigCounter ctx stream (utf8 "entries-added") (-1)
  emitCfgSet stream (utf8 "entries-added") (max current 0 + 1) ctx

/-- `incrementIidsAdded` and `incrementIidsDuplicates`. -/
def incrementCounter (stream field : Bytes) (ctx : Context Bytes) : Context Bytes :=
  emitCfgSet stream field (getConfigCounter ctx stream field 0 + 1) ctx

end Swytch.Redis
