import Swytch.Redis.Engine

/-!
# The snapshot helpers

Every family of commands has a helper that reads a key and decides whether it is of the family's
type.  They all do the same, and each has its own idea of which snapshots it takes: by the kind of
the collection, by the type tag, or by both.
-/

namespace Swytch.Redis

open Sql (Bytes utf8)

/-- What a helper finds. -/
inductive Lookup where
  | absent
  | wrongType
  | found (snap : Snapshot Bytes)

/-- The helper that takes these snapshots. -/
def lookupWith (accepts : Snapshot Bytes → Bool) (ctx : Context Bytes) (key : Bytes) : Lookup :=
  match ctx.getAnySnapshot key with
  | none => .absent
  | some snap => if accepts snap then .found snap else .wrongType

/-- A value without data that only has a type. -/
def isBare (tags : List ValueType) (snap : Snapshot Bytes) : Bool :=
  snap.collection = .scalar && snap.typeTag ∈ tags

/-- `getListSnapshot`, the only one that asks for the tag of a collection. -/
def getListSnapshot : Context Bytes → Bytes → Lookup :=
  lookupWith fun snap =>
    (snap.collection = .ordered && (snap.typeTag = .list || snap.typeTag = .unspecified)) ||
      isBare [.list] snap

def getHashSnapshot : Context Bytes → Bytes → Lookup :=
  lookupWith fun snap => snap.collection = .keyed || isBare [.hash] snap

def getSetSnapshot : Context Bytes → Bytes → Lookup :=
  lookupWith fun snap => snap.collection = .keyed || isBare [.set] snap

def getZSetSnapshot : Context Bytes → Bytes → Lookup :=
  lookupWith fun snap => snap.collection = .keyed || isBare [.zset, .geo] snap

def getBitmapSnapshot : Context Bytes → Bytes → Lookup :=
  lookupWith fun snap => snap.collection = .keyed || snap.collection = .scalar

/-- `getStringSnapshot`.  A bitmap is handed on as the string that `ReconstructBytes` makes of it,
the only type for which there is a reconstructor. -/
def getStringSnapshot : Context Bytes → Bytes → Lookup :=
  lookupWith fun snap => isBare [.string, .unspecified] snap || snap.typeTag = .bitmap

/-- `getMembersWithScoresFromSnapshot`, the helper of the set operations on sorted sets. -/
def getMembersWithScores : Context Bytes → Bytes → Lookup :=
  lookupWith fun snap => snap.collection = .keyed || isBare [.zset, .set] snap

/-- `getStreamSnapshot`, with the streams that are still keyed collections. -/
def getStreamOrLegacy : Context Bytes → Bytes → Lookup :=
  lookupWith fun snap =>
    snap.collection = .ordered || isBare [.stream] snap ||
      (snap.collection = .keyed && snap.typeTag = .stream)

/-- A key is of the wrong type if it is there and not taken. -/
theorem lookupWith_eq_wrongType_iff {accepts : Snapshot Bytes → Bool} {ctx : Context Bytes}
    {key : Bytes} : lookupWith accepts ctx key = .wrongType ↔
      ∃ snap, ctx.getAnySnapshot key = some snap ∧ accepts snap = false := by
  unfold lookupWith
  cases ctx.getAnySnapshot key with
  | none => simp
  | some snap =>
    cases hacc : accepts snap with
    | true | false => simp

end Swytch.Redis
