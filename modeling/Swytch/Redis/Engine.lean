import Swytch.Sql.Value

/-!
# The effects engine, as the data commands see it

The engine itself is not part of the repository.  The commands talk to it through a context:
`GetSnapshot` gives the reduced state of a key, and `Emit` adds an effect to it.  A context sees
its own effects (`emitProducerSeqWithConfig` relies on it: it skips the entry it has just
inserted).  What an effect does to the reduced state is fixed here as the handlers' comments and
their use of it say.

* A `SCALAR` `REMOVE` deletes the whole key, and a meta effect does not bring it back.
* An ordered `INSERT` appends at the tail, or at the head if it says so.
* An ordered `REMOVE` takes an element out that is there and leaves no trace of it; if the element
  is not there, it is recorded in `NetRemoves`.

Reads and effects that fail are left out, and so are the tips, by which the engine finds out
whether a transaction has to be run again.
-/

namespace Swytch.Redis

open Sql (Bytes utf8)

/-! ## 1.  Snapshots and effects -/

inductive EffectOp where
  | insert
  | remove
  deriving DecidableEq

inductive CollectionKind where
  | scalar
  | keyed
  | ordered
  deriving DecidableEq

inductive MergeRule where
  | lastWriteWins
  | additiveInt
  | additiveFloat
  | maxBytes
  deriving DecidableEq

/-- `pb.Placement`, without the ones that name another element. -/
inductive Placement where
  | unspecified
  | head
  | tail
  | self
  deriving DecidableEq

inductive ValueType where
  | unspecified
  | string
  | list
  | hash
  | set
  | zset
  | stream
  | hll
  | bitmap
  | geo
  | json
  | jsonObject
  | jsonArray
  deriving DecidableEq

/-- How the engine merges a value into another under the rules that do. -/
class MergeValue (ν : Type) where
  combine : MergeRule → ν → ν → ν

instance : MergeValue Bytes where
  combine _ _ new := new

/-- `pb.ReducedElement` of a keyed collection. -/
structure Element (ν : Type) where
  value : Option ν
  expiresAt : Option ℤ
  deriving DecidableEq

/-- `pb.ReducedEffect`. -/
structure Snapshot (ν : Type) where
  op : EffectOp
  collection : CollectionKind
  merge : MergeRule
  scalar : Option ν
  netAdds : AList (fun _ : Bytes => Element ν)
  orderedElements : List (Bytes × Option ν)
  netRemoves : List Bytes
  typeTag : ValueType
  expiresAt : Option ℤ

structure DataEffect (ν : Type) where
  op : EffectOp
  collection : CollectionKind
  merge : MergeRule := .lastWriteWins
  placement : Placement := .unspecified
  id : Bytes := []
  value : Option ν := none
  deriving DecidableEq

structure MetaEffect where
  elementId : Option Bytes := none
  typeTag : ValueType := .unspecified
  expiresAt : Option ℤ := none
  deriving DecidableEq

/-- `pb.Effect` without its key. -/
inductive Effect (ν : Type) where
  | data (effect : DataEffect ν)
  | metadata (effect : MetaEffect)
  | noop
  deriving DecidableEq

/-! ## 2.  What an effect does to a key -/

section Apply

variable {ν : Type}

/-- A key that has just been written for the first time. -/
def Snapshot.fresh (collection : CollectionKind) : Snapshot ν where
  op := .insert
  collection := collection
  merge := .lastWriteWins
  scalar := none
  netAdds := ∅
  orderedElements := []
  netRemoves := []
  typeTag := .unspecified
  expiresAt := none

/-- A deleted key. -/
def Snapshot.removed : Snapshot ν := { Snapshot.fresh .scalar with op := .remove }

/-- What an `INSERT` into a collection builds on: what is there if it is of the same kind.  A
value of another kind goes, with its type and time kept; only a scalar stays under a keyed
collection, as the base that `reconstructBitmapBytes` toggles. -/
def Snapshot.forInsert (snap : Option (Snapshot ν)) (collection : CollectionKind) : Snapshot ν :=
  match snap with
  | none => .fresh collection
  | some snap =>
    if snap.op = .remove then .fresh collection
    else if snap.collection = collection then snap
    else
      { Snapshot.fresh collection with
        scalar := if collection = .keyed then snap.scalar else none
        typeTag := snap.typeTag
        expiresAt := snap.expiresAt }

/-- A key without elements. -/
structure Snapshot.IsEmpty (snap : Snapshot ν) : Prop where
  netAdds : snap.netAdds = ∅
  orderedElements : snap.orderedElements = []
  netRemoves : snap.netRemoves = []

theorem Snapshot.forInsert_op (snap : Option (Snapshot ν)) (collection : CollectionKind) :
    (forInsert snap collection).op = .insert := by
  unfold forInsert
  split
  · rfl
  · rename_i old
    split
    · rfl
    · rename_i hop
      split
      · cases hcs : old.op with
        | insert => rfl
        | remove => exact absurd hcs hop
      · rfl

theorem Snapshot.forInsert_collection (snap : Option (Snapshot ν)) (collection : CollectionKind) :
    (forInsert snap collection).collection = collection := by
  unfold forInsert
  split
  · rfl
  · split
    · rfl
    · split
      · assumption
      · rfl

theorem Snapshot.forInsert_of_same {snap : Snapshot ν} {collection : CollectionKind}
    (hop : snap.op = .insert) (hk : snap.collection = collection) :
    forInsert (some snap) collection = snap := by
  simp [forInsert, hop, hk]

/-- An `INSERT` builds on what is there, or on nothing. -/
theorem Snapshot.forInsert_cases (snap : Option (Snapshot ν)) (collection : CollectionKind) :
    snap = some (forInsert snap collection) ∨ (forInsert snap collection).IsEmpty := by
  unfold forInsert
  split
  · exact .inr ⟨rfl, rfl, rfl⟩
  · split
    · exact .inr ⟨rfl, rfl, rfl⟩
    · split
      · exact .inl rfl
      · exact .inr ⟨rfl, rfl, rfl⟩

def Snapshot.orderedIds (snap : Snapshot ν) : List Bytes := snap.orderedElements.map Prod.fst

/-- The value after one more write. -/
def mergeValue [MergeValue ν] (rule : MergeRule) (old new : Option ν) : Option ν :=
  match rule, old, new with
  | .lastWriteWins, _, new => new
  | rule, some old, some new => some (MergeValue.combine rule old new)
  | _, _, new => new

/-- An `INSERT`. -/
def Snapshot.insert [MergeValue ν] (effect : DataEffect ν) (snap : Snapshot ν) : Snapshot ν :=
  match effect.collection with
  | .scalar =>
    { snap with
      merge := effect.merge
      scalar := mergeValue effect.merge snap.scalar effect.value }
  | .keyed =>
    let old := (snap.netAdds.lookup effect.id).bind Element.value
    { snap with
      merge := effect.merge
      netAdds := snap.netAdds.insert effect.id
        ⟨mergeValue effect.merge old effect.value, none⟩ }
  | .ordered =>
    let element := (effect.id, effect.value)
    { snap with
      merge := effect.merge
      orderedElements :=
        if effect.placement = .head then element :: snap.orderedElements
        else snap.orderedElements ++ [element] }

/-- A `REMOVE`. -/
def Snapshot.remove (collection : CollectionKind) (id : Bytes) (snap : Snapshot ν) : Snapshot ν :=
  match collection with
  | .scalar => .removed
  | .keyed => { snap with netAdds := snap.netAdds.erase id }
  | .ordered =>
    if id ∈ snap.orderedIds then
      { snap with orderedElements := snap.orderedElements.filter fun element => element.1 ≠ id }
    else { snap with netRemoves := id :: snap.netRemoves }

/-- A meta effect on a key that is not deleted. -/
def Snapshot.setMeta (effect : MetaEffect) (snap : Snapshot ν) : Snapshot ν :=
  match effect.elementId with
  | some id =>
    match snap.netAdds.lookup id with
    | none => snap
    | some element =>
      { snap with netAdds := snap.netAdds.insert id ⟨element.value, effect.expiresAt⟩ }
  | none =>
    { snap with
      typeTag := if effect.typeTag = .unspecified then snap.typeTag else effect.typeTag
      expiresAt := effect.expiresAt.or snap.expiresAt }

/-- The reduced state after one more effect. -/
def Effect.apply [MergeValue ν] (effect : Effect ν) (snap : Option (Snapshot ν)) :
    Option (Snapshot ν) :=
  match effect with
  | .noop => snap
  | .metadata effect =>
    match snap with
    | none => some (Snapshot.setMeta effect (.fresh .scalar))
    | some snap => some (if snap.op = .remove then snap else snap.setMeta effect)
  | .data effect =>
    match effect.op with
    | .insert => some ((Snapshot.forInsert snap effect.collection).insert effect)
    | .remove =>
      match effect.collection with
      | .scalar => some .removed
      | collection => snap.map (Snapshot.remove collection effect.id)

end Apply

/-! ## 3.  Contexts -/

/-- The reduced state of every key, and the effects emitted so far, the latest last. -/
structure Context (ν : Type) where
  snapshots : Bytes → Option (Snapshot ν)
  emitted : List (Bytes × Effect ν)

namespace Context

variable {ν : Type} [MergeValue ν] {ctx : Context ν} {key other : Bytes}

def emit (key : Bytes) (effect : Effect ν) (ctx : Context ν) : Context ν where
  snapshots := Function.update ctx.snapshots key (effect.apply (ctx.snapshots key))
  emitted := ctx.emitted ++ [(key, effect)]

@[simp] theorem emit_snapshots_self (effect : Effect ν) :
    (ctx.emit key effect).snapshots key = effect.apply (ctx.snapshots key) := by
  simp [emit]

theorem emit_snapshots_of_ne (effect : Effect ν) (h : other ≠ key) :
    (ctx.emit key effect).snapshots other = ctx.snapshots other := by
  simp [emit, h]

@[simp] theorem emit_noop_snapshots (key : Bytes) :
    (ctx.emit key .noop).snapshots = ctx.snapshots := by
  funext other
  by_cases h : other = key
  · subst h
    simp [Effect.apply]
  · exact emit_snapshots_of_ne _ h

/-- The dependency on the key's tips, where the source leaves it out if there are none. -/
def pin (key : Bytes) (ctx : Context ν) : Context ν :=
  if (ctx.snapshots key).isSome then ctx.emit key .noop else ctx

@[simp] theorem pin_snapshots (key : Bytes) : (ctx.pin key).snapshots = ctx.snapshots := by
  unfold pin
  split
  · exact emit_noop_snapshots key
  · rfl

def emitDeleteKey (key : Bytes) (ctx : Context ν) : Context ν :=
  ctx.emit key (.data { op := .remove, collection := .scalar })

omit [MergeValue ν] in
/-- `getAnySnapshot`: what is there if the key is not deleted. -/
def getAnySnapshot (ctx : Context ν) (key : Bytes) : Option (Snapshot ν) :=
  match ctx.snapshots key with
  | none => none
  | some snap => if snap.op = .remove then none else some snap

section

variable {snap : Snapshot ν}

omit [MergeValue ν]

theorem getAnySnapshot_of_live (h : ctx.snapshots key = some snap) (hop : snap.op = .insert) :
    ctx.getAnySnapshot key = some snap := by
  simp [getAnySnapshot, h, hop]

theorem getAnySnapshot_of_removed (h : ctx.snapshots key = some snap) (hop : snap.op = .remove) :
    ctx.getAnySnapshot key = none := by
  simp [getAnySnapshot, h, hop]

theorem snapshots_of_getAnySnapshot (h : ctx.getAnySnapshot key = some snap) :
    ctx.snapshots key = some snap := by
  unfold getAnySnapshot at h
  split at h
  · cases h
  · rename_i s hs
    split at h
    · cases h
    · rw [hs, Option.some.inj h]

end

@[simp] theorem emitDeleteKey_self : (ctx.emitDeleteKey key).snapshots key = some .removed := by
  simp [emitDeleteKey, Effect.apply]

theorem emitDeleteKey_of_ne (h : other ≠ key) :
    (ctx.emitDeleteKey key).snapshots other = ctx.snapshots other :=
  emit_snapshots_of_ne _ h

end Context

end Swytch.Redis
