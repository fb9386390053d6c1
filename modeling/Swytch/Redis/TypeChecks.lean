import Swytch.Lib.Scan
import Swytch.Redis.Blocking

/-!
# Type checks

Before a command acts on a key, the helper of its family looks at the snapshot and refuses a key of
another type.  For the hashes, the sets and the sorted sets it looks at the kind of the collection
and not at the type tag, and all three are keyed collections; so are bitmaps and HyperLogLogs.  The
helper of the streams takes every ordered collection, lists too, and that of the bitmaps everything
that is not ordered.

A command with several keys goes through them and stops at the first one that is refused, but it may
have stopped before: `ZINTER` at a key that is not there, `ZMPOP` at a sorted set with members,
`XREADGROUP` at a stream without the group.  `XREAD` passes over a key of another type, and
`BITFIELD` without subcommands does not look at its key.

What a command does once the checks are passed is a parameter.  So is the parsing of its arguments;
only arguments that are accepted are considered.  `BZPOPMIN`, `BZPOPMAX` and `BZMPOP` are those of a
client.
-/

namespace Swytch.Redis.TypeChecks

open Scan
open List
open Sql (Bytes utf8)

/-! ## 1.  Families and helpers -/

inductive Family where
  | string
  | hll
  | hash
  | set
  | zset
  | stream
  | list
  | json
  deriving DecidableEq

def familyOf : ValueType → Option Family
  | .unspecified => none
  | .string => some .string
  | .bitmap => some .string
  | .hll => some .hll
  | .hash => some .hash
  | .set => some .set
  | .zset => some .zset
  | .geo => some .zset
  | .stream => some .stream
  | .list => some .list
  | .json => some .json
  | .jsonObject => some .json
  | .jsonArray => some .json

inductive Helper where
  | string
  | bitmap
  | hash
  | set
  | zset
  | members
  | stream
  deriving DecidableEq

def Helper.lookup : Helper → Context Bytes → Bytes → Lookup
  | .string => getStringSnapshot
  | .bitmap => getBitmapSnapshot
  | .hash => getHashSnapshot
  | .set => getSetSnapshot
  | .zset => getZSetSnapshot
  | .members => getMembersWithScores
  | .stream => getStreamOrLegacy

/-- The family whose commands use the helper. -/
def Helper.family : Helper → Family
  | .string => .string
  | .bitmap => .string
  | .hash => .hash
  | .set => .set
  | .zset => .zset
  | .members => .zset
  | .stream => .stream

/-! ## 2.  The commands and their keys -/

/-- Where a command has the keys that it reads. -/
inductive Place where
  | first
  | second
  | firstTwo
  | all
  | allButFirst
  | allButLast
  | numkeysAt (offset : ℕ)
  | afterStreams
  deriving DecidableEq

def Place.keys : Place → List Bytes → List Bytes
  | .first, args => args.take 1
  | .second, args => (args.drop 1).take 1
  | .firstTwo, args => args.take 2
  | .all, args => args
  | .allButFirst, args => args.drop 1
  | .allButLast, args => args.dropLast
  | .numkeysAt offset, args => keysNumkeysAtOffset offset args
  | .afterStreams, args => keysAfterStreams args

/-- How a command goes through its keys. -/
inductive Walk where
  /-- Every key is checked. -/
  | every
  /-- `BITFIELD`, which does not look at its key if it has no subcommand. -/
  | bitfield
  /-- Up to the first key with members. -/
  | untilData
  /-- Up to a key that is not there, or to the end of the common members. -/
  | intersect
  /-- A first key that is not there ends it. -/
  | difference
  /-- Up to a key that is not there or does not have the group. -/
  | groups
  /-- `XREAD`: what is not a stream is passed over. -/
  | skip
  /-- `MGET`: every key has its own reply. -/
  | each
  deriving DecidableEq

structure Guard where
  helper : Helper
  walk : Walk
  place : Place
  deriving DecidableEq

/-- The commands by their checks.  The commands that overwrite a key (`SET`, `SETNX`, `SETEX`,
`PSETEX`, `MSET`, `MSETNX`, `MSETEX`) are left out, and of those with a destination only the sources
are checked. -/
def guards : List (Guard × List CommandType) := [
  (⟨.string, .every, .first⟩, [
    .cmdGet, .cmdStrLen, .cmdGetRange, .cmdSubstr, .cmdDigest, .cmdGetSet, .cmdGetDel, .cmdGetEx,
    .cmdSetRange, .cmdAppend, .cmdIncr, .cmdDecr, .cmdIncrBy, .cmdDecrBy, .cmdIncrByFloat]),
  (⟨.string, .every, .firstTwo⟩, [.cmdLcs]),
  (⟨.string, .each, .all⟩, [.cmdMGet]),
  (⟨.bitmap, .every, .first⟩, [.cmdSetBit, .cmdGetBit, .cmdBitCount, .cmdBitPos]),
  (⟨.bitmap, .bitfield, .first⟩, [.cmdBitField]),
  (⟨.hash, .every, .first⟩, [
    .cmdHGet, .cmdHSet, .cmdHSetNX, .cmdHDel, .cmdHExists, .cmdHGetAll, .cmdHKeys, .cmdHVals,
    .cmdHLen, .cmdHMGet, .cmdHMSet, .cmdHIncrBy, .cmdHIncrByFloat, .cmdHStrLen, .cmdHRandField,
    .cmdHScan, .cmdHGetDel, .cmdHExpire, .cmdHPExpire, .cmdHExpireAt, .cmdHPExpireAt, .cmdHTTL,
    .cmdHPTTL, .cmdHExpireTime, .cmdHPExpireTime, .cmdHPersist, .cmdHSetEx, .cmdHGetEx]),
  (⟨.set, .every, .first⟩, [
    .cmdSCard, .cmdSIsMember, .cmdSMIsMember, .cmdSMembers, .cmdSRandMember, .cmdSAdd, .cmdSRem,
    .cmdSPop]),
  (⟨.set, .every, .firstTwo⟩, [.cmdSMove]),
  (⟨.set, .every, .all⟩, [.cmdSInter, .cmdSUnion, .cmdSDiff]),
  (⟨.set, .every, .numkeysAt 0⟩, [.cmdSInterCard]),
  (⟨.set, .every, .allButFirst⟩, [.cmdSInterStore, .cmdSUnionStore, .cmdSDiffStore]),
  (⟨.zset, .every, .first⟩, [
    .cmdZScore, .cmdZMScore, .cmdZCard, .cmdZRank, .cmdZRevRank, .cmdZRange, .cmdZRevRange,
    .cmdZRangeByScore, .cmdZRevRangeByScore, .cmdZCount, .cmdZLexCount, .cmdZRangeByLex,
    .cmdZRevRangeByLex, .cmdZRandMember, .cmdZAdd, .cmdZRem, .cmdZIncrBy, .cmdZPopMin, .cmdZPopMax,
    .cmdZRemRangeByScore, .cmdZRemRangeByRank, .cmdZRemRangeByLex]),
  (⟨.zset, .every, .second⟩, [.cmdZRangeStore]),
  (⟨.zset, .untilData, .numkeysAt 0⟩, [.cmdZMPop]),
  (⟨.zset, .every, .allButLast⟩, [.cmdBZPopMin, .cmdBZPopMax]),
  (⟨.zset, .every, .numkeysAt 1⟩, [.cmdBZMPop]),
  (⟨.members, .every, .numkeysAt 0⟩, [.cmdZUnion]),
  (⟨.members, .every, .numkeysAt 1⟩, [.cmdZUnionStore]),
  (⟨.members, .intersect, .numkeysAt 0⟩, [.cmdZInter, .cmdZInterCard]),
  (⟨.members, .intersect, .numkeysAt 1⟩, [.cmdZInterStore]),
  (⟨.members, .difference, .numkeysAt 0⟩, [.cmdZDiff]),
  (⟨.members, .difference, .numkeysAt 1⟩, [.cmdZDiffStore]),
  (⟨.stream, .every, .first⟩, [
    .cmdXAdd, .cmdXLen, .cmdXRange, .cmdXRevRange, .cmdXAck, .cmdXPending, .cmdXTrim, .cmdXDel,
    .cmdXSetId, .cmdXDelEx, .cmdXAckDel, .cmdXClaim, .cmdXAutoClaim, .cmdXIdmpRecord,
    .cmdXCfgSet]),
  (⟨.stream, .every, .second⟩, [.cmdXInfo, .cmdXGroup]),
  (⟨.stream, .skip, .afterStreams⟩, [.cmdXRead]),
  (⟨.stream, .groups, .afterStreams⟩, [.cmdXReadGroup])]

def guardOf (cmd : CommandType) : Option Guard :=
  (guards.find? fun entry => cmd ∈ entry.2).map Prod.fst

/-! ## 3.  The checks of a command -/

/-- The subcommands of `BITFIELD` are `OVERFLOW` only, which is none. -/
def noSubcommands : List Bytes → Bool
  | [] => true
  | op :: _ :: rest => ByteText.toUpper op = utf8 "OVERFLOW" && noSubcommands rest
  | _ => false

/-- The group of `XREADGROUP`. -/
def groupArg (args : List Bytes) : Bytes := args.getD 1 []

/-- The members that the keys so far have in common; `none` before the first key. -/
abbrev Seen := Option (List Bytes)

/-- The common members with one more key. -/
def Seen.add (seen : Seen) (snap : Snapshot Bytes) : List Bytes :=
  match seen with
  | none => snap.netAdds.keys
  | some members => members.filter fun member => member ∈ snap.netAdds.keys

/-- A key that is not there ends the command. -/
def Walk.endsAtAbsent (walk : Walk) (seen : Seen) : Bool :=
  match walk with
  | .intersect => true
  | .groups => true
  | .difference => seen.isNone
  | _ => false

/-- A key that is taken ends the command. -/
def Walk.endsAt (walk : Walk) (args : List Bytes) (ctx : Context Bytes) (seen : Seen) (key : Bytes)
    (snap : Snapshot Bytes) : Bool :=
  match walk with
  | .untilData => Blocking.hasMembers snap
  | .intersect => seen.isSome && (seen.add snap).isEmpty
  | .groups => !groupExists ctx key (groupArg args)
  | _ => false

/-- One key of a command: a key that is refused is a hit. -/
def Guard.step (guard : Guard) (args : List Bytes) (ctx : Context Bytes) (seen : Seen)
    (key : Bytes) : Scan.Verdict Seen :=
  match guard.helper.lookup ctx key with
  | .wrongType => .hit
  | .absent => if guard.walk.endsAtAbsent seen then .stop else .next (some [])
  | .found snap =>
    if guard.walk.endsAt args ctx seen key snap then .stop else .next (some (seen.add snap))

def Guard.keys (guard : Guard) (args : List Bytes) : List Bytes := guard.place.keys args

/-- The command replies `WRONGTYPE`. -/
def Guard.refuses (guard : Guard) (args : List Bytes) (ctx : Context Bytes) : Bool :=
  match guard.walk with
  | .skip => false
  | .each => false
  | .bitfield => !noSubcommands args.tail && Scan.hits (guard.step args ctx) none (guard.keys args)
  | _ => Scan.hits (guard.step args ctx) none (guard.keys args)

/-- What comes before and after the checks: whether the arguments are accepted, the reply if they
are not, what the command does, and the bytes of a string. -/
structure Rest (ρ : Type) where
  accepts : CommandType → List Bytes → Bool
  refusal : CommandType → List Bytes → ρ
  act : CommandType → List Bytes → Context Bytes → ρ × Context Bytes
  raw : Snapshot Bytes → Bytes

/-- What a command replies; `values` are those of `MGET`. -/
inductive Outcome (ρ : Type) where
  | wrongType
  | values (replies : List (Option Bytes))
  | other (reply : ρ)

section Run

variable {ρ : Type} (rest : Rest ρ)

/-- The reply of `MGET` for a key. -/
def mgetValue (ctx : Context Bytes) (key : Bytes) : Option Bytes :=
  match getStringSnapshot ctx key with
  | .found snap => some (rest.raw snap)
  | _ => none

def Guard.run (guard : Guard) (cmd : CommandType) (args : List Bytes) (ctx : Context Bytes) :
    Outcome ρ × Context Bytes :=
  if !rest.accepts cmd args then (.other (rest.refusal cmd args), ctx)
  else if guard.walk = .each then (.values ((guard.keys args).map (mgetValue rest ctx)), ctx)
  else if guard.refuses args ctx then (.wrongType, ctx)
  else (.other (rest.act cmd args ctx).1, (rest.act cmd args ctx).2)

/-- The command replies `WRONGTYPE`, or null for the key if it is `MGET`, and emits nothing on the
key. -/
def Guard.Respects (guard : Guard) (cmd : CommandType) (args : List Bytes) (ctx : Context Bytes)
    (key : Bytes) : Prop :=
  (if guard.walk = .each then
    ∃ values, (guard.run rest cmd args ctx).1 = .values values ∧
      ∀ reply, (key, reply) ∈ (guard.keys args).zip values → reply = none
  else (guard.run rest cmd args ctx).1 = .wrongType) ∧
    ∀ effect, (key, effect) ∈ (guard.run rest cmd args ctx).2.emitted → (key, effect) ∈ ctx.emitted

end Run

/-! ## 4.  Which keys are refused -/

def Helper.Refuses (helper : Helper) (snap : Snapshot Bytes) : Prop :=
  match helper with
  | .string =>
    ¬ (snap.collection = .scalar ∧ (snap.typeTag = .string ∨ snap.typeTag = .unspecified)) ∧
      snap.typeTag ≠ .bitmap
  | .bitmap => snap.collection = .ordered
  | .hash => snap.collection ≠ .keyed ∧ ¬ (snap.collection = .scalar ∧ snap.typeTag = .hash)
  | .set => snap.collection ≠ .keyed ∧ ¬ (snap.collection = .scalar ∧ snap.typeTag = .set)
  | .zset =>
    snap.collection ≠ .keyed ∧
      ¬ (snap.collection = .scalar ∧ (snap.typeTag = .zset ∨ snap.typeTag = .geo))
  | .members =>
    snap.collection ≠ .keyed ∧
      ¬ (snap.collection = .scalar ∧ (snap.typeTag = .zset ∨ snap.typeTag = .set))
  | .stream => snap.collection ≠ .ordered ∧ snap.typeTag ≠ .stream

/-- The kinds of collection that keep a key of another family apart. -/
def Helper.Apart (helper : Helper) (collection : CollectionKind) : Prop :=
  match helper with
  | .string => True
  | .bitmap => collection = .ordered
  | .hash => collection ≠ .keyed
  | .set => collection ≠ .keyed
  | .zset => collection ≠ .keyed
  | .members => collection ≠ .keyed
  | .stream => collection ≠ .ordered

/-- The key is there and the helper refuses it. -/
def Helper.Foreign (helper : Helper) (ctx : Context Bytes) (key : Bytes) : Prop :=
  ∃ snap, ctx.getAnySnapshot key = some snap ∧ helper.Refuses snap

theorem Helper.lookup_eq_wrongType_iff (helper : Helper) {ctx : Context Bytes} {key : Bytes} :
    helper.lookup ctx key = .wrongType ↔ helper.Foreign ctx key := by
  cases helper
  all_goals
    refine lookupWith_eq_wrongType_iff.trans
      (exists_congr fun snap => and_congr_right fun _ => ?_)
    unfold Helper.Refuses
    cases hk : snap.collection <;> cases htag : snap.typeTag <;> simp [isBare, hk, htag]

/-- A key of another family is refused exactly if its kind of collection keeps it apart. -/
theorem Helper.refuses_iff_apart (helper : Helper) {snap : Snapshot Bytes} {other : Family}
    (hfamily : familyOf snap.typeTag = some other) (ho : other ≠ helper.family)
    (hset : helper = .members → other ≠ .set) :
    helper.Refuses snap ↔ helper.Apart snap.collection := by
  -- The tags that a helper looks at are those of its own family.
  have hne : ∀ tag, familyOf tag = some helper.family → snap.typeTag ≠ tag := by
    rintro tag htag rfl
    rw [hfamily] at htag
    exact ho (Option.some.inj htag)
  have hspecified : snap.typeTag ≠ .unspecified := by
    intro htag
    rw [htag] at hfamily
    cases hfamily
  cases helper with
  | string =>
    simp [Helper.Refuses, Helper.Apart, hne .string rfl, hne .bitmap rfl, hspecified]
  | bitmap => exact Iff.rfl
  | hash => simp [Helper.Refuses, Helper.Apart, hne .hash rfl]
  | set => simp [Helper.Refuses, Helper.Apart, hne .set rfl]
  | zset => simp [Helper.Refuses, Helper.Apart, hne .zset rfl, hne .geo rfl]
  | members =>
    have hnotSet : snap.typeTag ≠ .set := by
      intro htag
      rw [htag] at hfamily
      exact hset rfl (Option.some.inj hfamily).symm
    simp [Helper.Refuses, Helper.Apart, hne .zset rfl, hnotSet]
  | stream => simp [Helper.Refuses, Helper.Apart, hne .stream rfl]

/-! ## 5.  When a command respects the type of a key -/

def Present (ctx : Context Bytes) (key : Bytes) : Prop := ∃ snap, ctx.getAnySnapshot key = some snap

def HasMember (ctx : Context Bytes) (member key : Bytes) : Prop :=
  ∃ snap, ctx.getAnySnapshot key = some snap ∧ member ∈ snap.netAdds.keys

/-- The command gets past these keys: none is refused and none ends it. -/
def Guard.GetsPast (guard : Guard) (args : List Bytes) (ctx : Context Bytes)
    (before : List Bytes) : Prop :=
  (∀ key ∈ before, ¬ guard.helper.Foreign ctx key) ∧
    match guard.walk with
    | .every => True
    | .bitfield => noSubcommands args.tail = false
    | .untilData => ∀ key ∈ before, ∀ member, ¬ HasMember ctx member key
    | .intersect =>
      (∀ key ∈ before, Present ctx key) ∧
        (before.length ≤ 1 ∨ ∃ member, ∀ key ∈ before, HasMember ctx member key)
    | .difference => ∀ key ∈ before.head?, Present ctx key
    | .groups =>
      ∀ key ∈ before, Present ctx key ∧ groupExists ctx key (groupArg args) = true
    | .skip => False
    | .each => False

/-- The condition: the reply is per key, or the command gets to a key that is refused. -/
def Guard.Keeps (guard : Guard) (args : List Bytes) (ctx : Context Bytes) : Prop :=
  guard.walk = .each ∨
    ∃ before key after, guard.keys args = before ++ key :: after ∧
      guard.GetsPast args ctx before ∧ guard.helper.Foreign ctx key

section Walks

variable {key : Bytes} {snap : Snapshot Bytes} {guard : Guard} {args : List Bytes}
    {ctx : Context Bytes} {seen : Seen}

/-- What is found is what is there. -/
theorem Helper.lookup_cases (helper : Helper) (ctx : Context Bytes) (key : Bytes) :
    (helper.lookup ctx key = .wrongType ∧ helper.Foreign ctx key) ∨
      (helper.lookup ctx key = .absent ∧ ctx.getAnySnapshot key = none) ∨
      ∃ snap, helper.lookup ctx key = .found snap ∧ ctx.getAnySnapshot key = some snap ∧
        ¬ helper.Foreign ctx key := by
  obtain ⟨accepts, heq⟩ : ∃ accepts, helper.lookup ctx key = lookupWith accepts ctx key := by
    cases helper <;> exact ⟨_, rfl⟩
  rw [← helper.lookup_eq_wrongType_iff, heq]
  unfold lookupWith
  cases ctx.getAnySnapshot key with
  | none => exact .inr (.inl ⟨rfl, rfl⟩)
  | some snap =>
    dsimp only
    split
    · exact .inr (.inr ⟨snap, rfl, rfl, by simp⟩)
    · exact .inl ⟨rfl, rfl⟩

theorem hasMember_iff {member : Bytes} (h : ctx.getAnySnapshot key = some snap) :
    HasMember ctx member key ↔ member ∈ snap.netAdds.keys := by
  unfold HasMember
  rw [h]
  simp

/-- A key is passed if it is not refused and does not end the command. -/
theorem Guard.step_eq_next_iff {next : Seen} :
    guard.step args ctx seen key = .next next ↔ ¬ guard.helper.Foreign ctx key ∧
      ((ctx.getAnySnapshot key = none ∧ guard.walk.endsAtAbsent seen = false ∧ some [] = next) ∨
        ∃ snap, ctx.getAnySnapshot key = some snap ∧
          guard.walk.endsAt args ctx seen key snap = false ∧ some (seen.add snap) = next) := by
  unfold Guard.step
  rcases guard.helper.lookup_cases ctx key with
    ⟨hl, hfo⟩ | ⟨hl, hs⟩ | ⟨snap, hl, hs, hfo⟩
  · simp [hl, hfo]
  · have hfo : ¬ guard.helper.Foreign ctx key := by simp [Helper.Foreign, hs]
    cases guard.walk.endsAtAbsent seen with
    | true | false => simp [hl, hs, hfo]
  · cases hends : guard.walk.endsAt args ctx seen key snap with
    | true | false => simp [hl, hs, hfo, hends]

/-- A command that goes through its keys whatever the ones before were. -/
theorem Guard.pass_iff_forall (guard : Guard) (args : List Bytes) (ctx : Context Bytes)
    (Inv : Seen → Prop) (P : Bytes → Prop) (hs : ∀ seen, seen.isSome = true → Inv seen)
    (hpasses : ∀ seen key, Inv seen → (((ctx.getAnySnapshot key = none →
      guard.walk.endsAtAbsent seen = false) ∧ ∀ snap, ctx.getAnySnapshot key = some snap →
        guard.walk.endsAt args ctx seen key snap = false) ↔ P key))
    (hseen : Inv seen) (before : List Bytes) :
    (pass (guard.step args ctx) seen before).isSome = true ↔
      (∀ key ∈ before, ¬ guard.helper.Foreign ctx key) ∧ ∀ key ∈ before, P key := by
  rw [← forall₂_and]
  refine pass_isSome_iff_forall _ (fun state key next h => hs next ?_)
    (fun state key hst => ?_) hseen before
  · rcases (step_eq_next_iff.mp h).2 with ⟨-, -, rfl⟩ | ⟨snap, -, -, rfl⟩
    all_goals rfl
  · rw [← hpasses state key hst]
    simp only [step_eq_next_iff]
    cases ctx.getAnySnapshot key with
    | none | some snap => simp

/-- A key that has to be there. -/
theorem Guard.pass_cons_iff {before : List Bytes} (h : guard.walk.endsAtAbsent seen = true) :
    (pass (guard.step args ctx) seen (key :: before)).isSome = true ↔
      ¬ guard.helper.Foreign ctx key ∧ ∃ snap, ctx.getAnySnapshot key = some snap ∧
        guard.walk.endsAt args ctx seen key snap = false ∧
          (pass (guard.step args ctx) (some (seen.add snap)) before).isSome = true := by
  simp only [pass_cons_isSome, step_eq_next_iff, h]
  cases ctx.getAnySnapshot key with
  | none | some snap => simp [and_assoc]

/-- The keys after the first in an intersection: they are there, and members stay in common. -/
theorem Guard.pass_intersect (hw : guard.walk = .intersect) (members before : List Bytes) :
    (pass (guard.step args ctx) (some members) before).isSome = true ↔
      (∀ key ∈ before, ¬ guard.helper.Foreign ctx key) ∧ (∀ key ∈ before, Present ctx key) ∧
        (before = [] ∨ ∃ member ∈ members, ∀ key ∈ before, HasMember ctx member key) := by
  induction before generalizing members with
  | nil => simp
  | cons key before ih =>
    rw [pass_cons_iff (by rw [hw]; rfl)]
    simp only [ih, hw, forall_mem_cons, reduceCtorEq, false_or]
    constructor
    · rintro ⟨hfo, snap, hs, hends, hfos, hpr, hr⟩
      refine ⟨⟨hfo, hfos⟩, ⟨⟨snap, hs⟩, hpr⟩, ?_⟩
      rcases hr with rfl | ⟨member, hmb, hr⟩
      · obtain ⟨member, hmb, had⟩ : ∃ member ∈ members, member ∈ snap.netAdds.keys := by
          simpa [Walk.endsAt, Seen.add] using hends
        exact ⟨member, hmb, ⟨snap, hs, had⟩, by simp⟩
      · obtain ⟨hold, had⟩ : member ∈ members ∧ member ∈ snap.netAdds.keys := by
          simpa [Seen.add] using hmb
        exact ⟨member, hold, ⟨snap, hs, had⟩, hr⟩
    · rintro ⟨⟨hfo, hfos⟩, ⟨-, hpr⟩, member, hmb, ⟨snap, hs, had⟩, hr⟩
      have hin : member ∈ Seen.add (some members) snap := by
        simpa [Seen.add] using And.intro hmb had
      refine ⟨hfo, snap, hs, ?_, hfos, hpr, .inr ⟨member, hin, hr⟩⟩
      exact isEmpty_eq_false_iff_exists_mem.mpr ⟨member, hin⟩

theorem hasMembers_eq_false_iff (h : ctx.getAnySnapshot key = some snap) :
    Blocking.hasMembers snap = false ↔ ∀ member, ¬ HasMember ctx member key := by
  simp only [hasMember_iff h, Blocking.hasMembers, AList.keys]
  cases snap.netAdds.entries with
  | nil => simp
  | cons first others =>
    simp only [ne_eq, reduceCtorEq, not_false_eq_true, decide_true, false_iff, not_forall]
    exact ⟨first.1, by simp⟩

/-- The scan passes the keys that the command gets past. -/
theorem Guard.pass_iff_getsPast (hskip : guard.walk ≠ .skip) (heach : guard.walk ≠ .each)
    (hf : guard.walk = .bitfield → noSubcommands args.tail = false) (before : List Bytes) :
    (pass (guard.step args ctx) none before).isSome = true ↔
      guard.GetsPast args ctx before := by
  unfold GetsPast
  cases hw : guard.walk with
  | every =>
    rw [guard.pass_iff_forall args ctx (fun _ => True) (fun _ => True) (fun _ _ => trivial)
      (fun seen key _ => by simp [hw, Walk.endsAtAbsent, Walk.endsAt]) trivial]
    simp
  | bitfield =>
    rw [guard.pass_iff_forall args ctx (fun _ => True) (fun _ => True) (fun _ _ => trivial)
      (fun seen key _ => by simp [hw, Walk.endsAtAbsent, Walk.endsAt]) trivial]
    simp [hf hw]
  | untilData =>
    refine guard.pass_iff_forall args ctx (fun _ => True) _ (fun _ _ => trivial)
      (fun seen key _ => ?_) trivial before
    rw [hw]
    refine ⟨fun ⟨_, hends⟩ member hmb => ?_, fun hn => ⟨fun _ => rfl, fun snap hs => ?_⟩⟩
    · obtain ⟨snap, hs, had⟩ := hmb
      exact (hasMembers_eq_false_iff hs).mp (hends snap hs) member ⟨snap, hs, had⟩
    · exact (hasMembers_eq_false_iff hs).mpr hn
  | intersect =>
    cases before with
    | nil => simp
    | cons key before =>
      have hsh : (key :: before).length ≤ 1 ↔ before = [] := by simp
      rw [pass_cons_iff (by rw [hw]; rfl)]
      simp only [pass_intersect hw, forall_mem_cons, hsh]
      constructor
      · rintro ⟨hfo, snap, hs, -, hfos, hpr, hcommon⟩
        simp only [hasMember_iff hs]
        exact ⟨⟨hfo, hfos⟩, ⟨⟨snap, hs⟩, hpr⟩, hcommon⟩
      · rintro ⟨⟨hfo, hfos⟩, ⟨⟨snap, hs⟩, hpr⟩, hcommon⟩
        simp only [hasMember_iff hs] at hcommon
        exact ⟨hfo, snap, hs, by rw [hw]; rfl, hfos, hpr, hcommon⟩
  | difference =>
    cases before with
    | nil => simp
    | cons key before =>
      have hr : ∀ members : List Bytes,
          (pass (guard.step args ctx) (some members) before).isSome = true ↔
            ∀ key ∈ before, ¬ guard.helper.Foreign ctx key := by
        intro members
        rw [guard.pass_iff_forall args ctx (fun seen => seen.isSome = true) (fun _ => True)
          (fun _ h => h) (fun seen key hseen => ?_) rfl]
        · simp
        · cases seen with
          | none => cases hseen
          | some members => simp [hw, Walk.endsAtAbsent, Walk.endsAt]
      rw [pass_cons_iff (by rw [hw]; rfl), forall_mem_cons]
      simp only [hr, hw, head?_cons, Option.mem_some_iff, forall_eq']
      constructor
      · rintro ⟨hfo, snap, hs, -, hfos⟩
        exact ⟨⟨hfo, hfos⟩, snap, hs⟩
      · rintro ⟨⟨hfo, hfos⟩, snap, hs⟩
        exact ⟨hfo, snap, hs, rfl, hfos⟩
  | groups =>
    refine guard.pass_iff_forall args ctx (fun _ => True) _ (fun _ _ => trivial)
      (fun seen key _ => ?_) trivial before
    rw [hw]
    refine ⟨fun ⟨hab, hends⟩ => ?_, fun ⟨⟨snap, hs⟩, hg⟩ => ⟨fun h => ?_, fun _ _ => ?_⟩⟩
    · cases hs : ctx.getAnySnapshot key with
      | none => exact nomatch hab hs
      | some snap =>
        have hg : (!groupExists ctx key (groupArg args)) = false := hends snap hs
        exact ⟨⟨snap, hs⟩, by simpa using hg⟩
    · rw [hs] at h
      cases h
    · show (!groupExists ctx key (groupArg args)) = false
      rw [hg]
      rfl
  | skip => exact absurd hw hskip
  | each => exact absurd hw heach

theorem Guard.refuses_iff (heach : guard.walk ≠ .each) :
    guard.refuses args ctx = true ↔ guard.Keeps args ctx := by
  have hsc : ∀ (hskip : guard.walk ≠ .skip)
      (hf : guard.walk = .bitfield → noSubcommands args.tail = false),
      hits (guard.step args ctx) none (guard.keys args) = true ↔ guard.Keeps args ctx := by
    intro hskip hf
    rw [hits_iff]
    constructor
    · rintro ⟨before, key, after, last, heq, hpass, hhit⟩
      refine .inr ⟨before, key, after, heq, ?_, ?_⟩
      · rw [← pass_iff_getsPast hskip heach hf, hpass]
        rfl
      · unfold Guard.step at hhit
        split at hhit
        · next hl => exact guard.helper.lookup_eq_wrongType_iff.mp hl
        all_goals split at hhit <;> cases hhit
    · rintro (h | ⟨before, key, after, heq, hpast, hfo⟩)
      · exact absurd h heach
      · rw [← pass_iff_getsPast hskip heach hf] at hpast
        obtain ⟨last, hpass⟩ := Option.isSome_iff_exists.mp hpast
        have hhit : guard.step args ctx last key = .hit := by
          rw [Guard.step, guard.helper.lookup_eq_wrongType_iff.mpr hfo]
        exact ⟨before, key, after, last, heq, hpass, hhit⟩
  -- Where the walk does not look at the keys, nothing gets past even an empty list of them.
  have hnever : (∀ before, ¬ guard.GetsPast args ctx before) → ¬ guard.Keeps args ctx := by
    rintro hpast (h | ⟨before, -, -, -, hgets, -⟩)
    · exact heach h
    · exact hpast before hgets
  unfold Guard.refuses
  split
  · rename_i hw
    refine iff_of_false Bool.false_ne_true (hnever fun before h => ?_)
    have hfalse := h.2
    rw [hw] at hfalse
    exact hfalse
  · rename_i hw
    exact absurd hw heach
  · rename_i hw
    cases hsub : noSubcommands args.tail with
    | true =>
      refine iff_of_false (by simp) (hnever fun before h => ?_)
      have hfalse := h.2
      rw [hw, hsub] at hfalse
      cases hfalse
    | false =>
      exact hsc (by rw [hw]; decide) fun _ => hsub
  · rename_i hskip _ hf
    exact hsc hskip fun h => absurd h hf

end Walks

section Respects

variable {ρ : Type} {rest : Rest ρ} {cmd : CommandType} {guard : Guard} {args : List Bytes}
  {ctx : Context Bytes} {key : Bytes}

/-- Replies per key are those of strings. -/
theorem helper_of_each (hcmd : guardOf cmd = some guard) (hw : guard.walk = .each) :
    guard.helper = .string := by
  have ht : ∀ entry ∈ guards, entry.1.walk = .each → entry.1.helper = .string := by decide
  obtain ⟨entry, he, rfl⟩ := Option.map_eq_some_iff.mp hcmd
  exact ht entry (mem_of_find?_eq_some he) hw

theorem Guard.respects_of_each (ha : rest.accepts cmd args = true) (hw : guard.walk = .each)
    (hfo : Helper.string.Foreign ctx key) : guard.Respects rest cmd args ctx key := by
  have hrun : guard.run rest cmd args ctx =
      (.values ((guard.keys args).map (mgetValue rest ctx)), ctx) := by
    simp [Guard.run, ha, hw]
  unfold Guard.Respects
  rw [if_pos hw, hrun]
  refine ⟨⟨_, rfl, fun reply hr => ?_⟩, fun effect heffect => heffect⟩
  have hzip : (guard.keys args).zip ((guard.keys args).map (mgetValue rest ctx)) =
      (guard.keys args).map fun key => (key, mgetValue rest ctx key) := by
    nth_rewrite 1 [← map_id (guard.keys args)]
    exact zip_map'
  rw [hzip, mem_map] at hr
  obtain ⟨first, -, heq⟩ := hr
  obtain ⟨rfl, rfl⟩ := Prod.mk.inj heq
  have hl : getStringSnapshot ctx first = .wrongType :=
    Helper.string.lookup_eq_wrongType_iff.mpr hfo
  unfold mgetValue
  rw [hl]

theorem Guard.respects_iff_refuses (ha : rest.accepts cmd args = true) (hw : guard.walk ≠ .each) :
    guard.Respects rest cmd args ctx key ↔ guard.refuses args ctx = true := by
  unfold Guard.Respects
  cases hrefuses : guard.refuses args ctx with
  | true | false => simp [Guard.run, ha, hw, hrefuses]

end Respects

section Samples

/-- A hash with the field `f`. -/
def hashContext : Context Bytes :=
  ((⟨fun _ => none, []⟩ : Context Bytes).emit (utf8 "k")
    (.data { op := .insert, collection := .keyed, id := utf8 "f", value := some (utf8 "v") })).emit
    (utf8 "k") (.metadata { typeTag := .hash })

/-- `SADD` after its check: the members that are not there are inserted. -/
def addMembers (key : Bytes) (members : List Bytes) (ctx : Context Bytes) : ℕ × Context Bytes :=
  let known := ((ctx.getAnySnapshot key).map fun snap => snap.netAdds.keys).getD []
  let added := members.filter fun member => member ∉ known
  let inserted := added.foldl (fun ctx member => ctx.emit key
    (.data { op := .insert, collection := .keyed, id := member, value := some member })) ctx
  (added.length, if (ctx.getAnySnapshot key).isSome then inserted
    else inserted.emit key (.metadata { typeTag := .set }))

def saddRest : Rest ℕ where
  accepts cmd args := cmd = .cmdSAdd && 2 ≤ args.length
  refusal _ _ := 0
  act _ args ctx := addMembers (args.headD []) args.tail ctx
  raw _ := []

end Samples

end Swytch.Redis.TypeChecks
