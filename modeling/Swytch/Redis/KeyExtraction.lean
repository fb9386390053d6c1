import Swytch.Redis.Registry

/-!
# The keys that the registry names

For a command with `Keys` the registry finds the keys among the arguments on its own, and the
handler finds them again when it reads its options.  Locks, forwarding and transactions go by the
first, the work is done on the second.  For most commands both are an argument at a fixed place.  For
some they differ: `BITOP` has the operation among its keys, the condition of `DELEX` and the number
and the values of `MSETEX` count as keys, the sources of `ZUNIONSTORE` and the destination of
`GEORADIUS` are left out, `XGROUP` has its subcommand for a key, a group with the name `streams` is
taken for the keyword, and `SORT` can read keys that its patterns make up.

`KeyUse` says for each kind of handler which keys it reports, or reads and writes, for the arguments
that it accepts; checks that only refuse more arguments are left out.
-/

namespace Swytch.Redis.KeyExtraction

open List
open Sql (Bytes utf8)
open ByteText (upperByte toUpper)

/-! ## 1.  Options of streams, of radius searches and of `SORT` -/

/-- The check of a value that `COUNT` has. -/
def isCount (arg : Bytes) : Bool :=
  match parseInt64 arg with
  | none => false
  | some n => 0 ≤ n

/-- The loop over the options up to `STREAMS`: flags stand alone, and a valued option is followed
by a value that passes its check. -/
def afterStreams (flags : List Bytes) (valued : List (Bytes × (Bytes → Bool))) :
    List Bytes → Option (List Bytes)
  | [] => none
  | word :: rest =>
    if upper word = utf8 "STREAMS" then some rest
    else if upper word ∈ flags then afterStreams flags valued rest
    else
      match valued.find? fun option => option.1 = upper word, rest with
      | some option, value :: rest =>
        if option.2 value then afterStreams flags valued rest else none
      | _, _ => none

/-- The keys of the streams: the first half of what follows. -/
def streamKeys (remaining : List Bytes) : Option (List Bytes) :=
  if remaining.length < 2 || remaining.length % 2 ≠ 0 then none
  else some (remaining.take (remaining.length / 2))

def xreadOptions (isFloat : Bytes → Bool) : List (Bytes × (Bytes → Bool)) :=
  [(utf8 "COUNT", isCount), (utf8 "BLOCK", isFloat)]

/-- The options of `XREADGROUP`.  In a transaction the times are not looked at. -/
def xreadgroupOptions : List (Bytes × (Bytes → Bool)) :=
  [(utf8 "COUNT", isCount), (utf8 "BLOCK", fun _ => true), (utf8 "CLAIM", fun _ => true)]

/-- The destination after `STORE` or `STOREDIST`; the last one counts. -/
def geoStore : Bytes → List Bytes → Option Bytes
  | dest, [] => some dest
  | dest, word :: rest =>
    let opt := ByteText.toUpper word
    if opt = utf8 "STORE" || opt = utf8 "STOREDIST" then
      match rest with
      | [] => none
      | dest :: rest => geoStore dest rest
    else geoStore dest rest

/-- `sortOptions`, without those that only change the order. -/
structure SortOptions where
  byPattern : Bytes := []
  getPatterns : List Bytes := []
  limit : Option (ℤ × ℤ) := none
  store : Bytes := []
  noSort : Bool := false

/-- `BY`. -/
def SortOptions.sortBy (opts : SortOptions) (pattern : Bytes) : SortOptions :=
  if ByteText.toLower pattern = utf8 "nosort" then { opts with noSort := true, byPattern := [] }
  else { opts with byPattern := pattern }

def parseSortOptions : SortOptions → List Bytes → Option SortOptions
  | opts, [] => some opts
  | opts, word :: rest =>
    let opt := upper word
    if opt = utf8 "BY" then
      match rest with
      | [] => none
      | pattern :: rest => parseSortOptions (opts.sortBy pattern) rest
    else if opt = utf8 "GET" then
      match rest with
      | [] => none
      | pattern :: rest =>
        parseSortOptions { opts with getPatterns := opts.getPatterns ++ [pattern] } rest
    else if opt = utf8 "LIMIT" then
      match rest with
      | offset :: count :: rest =>
        match parseInt64 offset, parseInt64 count with
        | some offset, some count =>
          parseSortOptions { opts with limit := some (offset, count) } rest
        | _, _ => none
      | _ => none
    else if opt = utf8 "ASC" || opt = utf8 "DESC" || opt = utf8 "ALPHA" then
      parseSortOptions opts rest
    else if opt = utf8 "STORE" then
      match rest with
      | [] => none
      | dest :: rest => parseSortOptions { opts with store := dest } rest
    else none

/-- `strings.Cut` at the arrow of a hash field. -/
def cutArrow : Bytes → Bytes × Option Bytes
  | [] => ([], none)
  | b :: rest =>
    match b, rest with
    | 0x2d, 0x3e :: field => ([], some field)
    | b, rest => (b :: (cutArrow rest).1, (cutArrow rest).2)

/-- `substitutePattern`: the key, and the field if there is one. -/
def substitutePattern (pattern element : Bytes) : Bytes × Option Bytes :=
  match pattern.dropWhile (· ≠ 0x2a) with
  | [] => cutArrow pattern
  | _ :: after => cutArrow (pattern.takeWhile (· ≠ 0x2a) ++ element ++ after)

/-- `applyLimit`; a negative offset panics. -/
def applyLimit (limit : Option (ℤ × ℤ)) (items : List Bytes) : Option (List Bytes) :=
  match limit with
  | none => some items
  | some (offset, count) =>
    if items.length ≤ offset then some []
    else if offset < 0 then none
    else
      let items := items.drop offset.toNat
      if 0 ≤ count && count < items.length then some (items.take count.toNat) else some items

/-- The elements of the collections, and their order once they are sorted. -/
structure World where
  elements : Bytes → List Bytes
  sorted : Bytes → List Bytes
  perm : ∀ key, (sorted key).Perm (elements key)

/-- The patterns whose keys `buildSortItems` reads. -/
def SortOptions.byPatterns (opts : SortOptions) : List Bytes :=
  if opts.byPattern ≠ [] && !opts.noSort then [opts.byPattern] else []

/-- The patterns whose keys `buildResults` reads. -/
def SortOptions.lookups (opts : SortOptions) : List Bytes :=
  opts.getPatterns.filter (· ≠ utf8 "#")

/-- The keys of patterns, for each element. -/
def externalKeys (patterns elements : List Bytes) : List Bytes :=
  elements.flatMap fun element => patterns.map fun pattern => (substitutePattern pattern element).1

/-- The destination that `handleSort` writes. -/
def SortOptions.stores (opts : SortOptions) : List Bytes :=
  if opts.store ≠ [] then [opts.store] else []

/-- The keys that `handleSort` uses: source, destination, and what the patterns make. -/
def SortOptions.keys (opts : SortOptions) (world : World) (key : Bytes) : List Bytes :=
  key :: (opts.stores ++
    (externalKeys opts.byPatterns (world.elements key) ++
      externalKeys opts.lookups ((applyLimit opts.limit (world.sorted key)).getD [])))

/-! ## 2.  The keys that handlers use -/

/-- The kinds of handlers. -/
inductive KeyUse where
  | first
  | firstTwo
  | all
  | allButLast
  /-- `MSET` and `MSETNX`. -/
  | pairs
  /-- `JSON.MSET`. -/
  | triples
  /-- The pops from several keys, with so many arguments before the number of keys. -/
  | pop (offset : ℕ)
  /-- Scripts and functions. -/
  | script
  /-- `handleMove`, which accepts nothing. -/
  | move
  | jsonDebug
  | bitOp
  | delEx
  | mSetEx
  /-- `ZUNIONSTORE`, `ZINTERSTORE` and `ZDIFFSTORE`. -/
  | zStore
  /-- `GEORADIUS` and `GEORADIUSBYMEMBER`, with so many arguments before the options. -/
  | geoRadius (fixed : ℕ)
  | xGroup
  | xRead
  | xReadGroup
  | sort
  | sortRO
  deriving DecidableEq

/-- A number of keys at this place, and the keys after it; `extra` more arguments have to follow. -/
def countedKeys (offset : ℕ) (least : ℤ) (extra : ℕ) (args : List Bytes) : Option (List Bytes) :=
  match args.drop offset with
  | [] => none
  | number :: rest =>
    match parseInt64 number with
    | none => none
    | some n =>
      if n < least || (rest.length : ℤ) < n + extra then none else some (rest.take n.toNat)

/-- `handleBitOp`. -/
def bitOpKeys : List Bytes → Option (List Bytes)
  | op :: dest :: sources =>
    let op := ByteText.toUpper op
    if sources = [] then none
    else if op ∈ [utf8 "AND", utf8 "OR", utf8 "XOR", utf8 "ONE"] then some (dest :: sources)
    else if op = utf8 "NOT" then if sources.length = 1 then some (dest :: sources) else none
    else if op ∈ [utf8 "DIFF", utf8 "DIFF1", utf8 "ANDOR"] then
      if sources.length < 2 then none else some (dest :: sources)
    else none
  | _ => none

/-- `handleDelEx`. -/
def delExKeys : List Bytes → Option (List Bytes)
  | [key] => some [key]
  | [key, condition, _] =>
    if upper condition ∈ [utf8 "IFEQ", utf8 "IFNE", utf8 "IFDEQ", utf8 "IFDNE"] then some [key]
    else none
  | _ => none

/-- The pairs of `handleMSetEX`, and the options after them. -/
def mSetExPairs : List Bytes → Option (List Bytes × List Bytes)
  | [] => none
  | number :: rest =>
    match parseInt64 number with
    | none => none
    | some n =>
      if n ≤ 0 || 2147483647 < n || (rest.length : ℤ) < n * 2 then none
      else some (rest.take (n.toNat * 2), rest.drop (n.toNat * 2))

/-- The sources of `parseZStoreArgs` and `handleZDiffStore`. -/
def zStoreSources (args : List Bytes) : Option (List Bytes) := countedKeys 1 1 0 args

/-- `handleXGroup`. -/
def xGroupKeys : List Bytes → Option (List Bytes)
  | [] => none
  | sub :: rest =>
    let sub := upper sub
    if sub ∈ [utf8 "CREATE", utf8 "CREATECONSUMER", utf8 "DELCONSUMER", utf8 "SETID"] then
      if rest.length < 3 then none else some (rest.take 1)
    else if sub = utf8 "DESTROY" then if rest.length < 2 then none else some (rest.take 1)
    else if sub = utf8 "HELP" then if rest = [] then some [] else none
    else none

/-- What follows `STREAMS` in the arguments of `handleXReadGroupNonBlocking`. -/
def xReadGroupStreams (args : List Bytes) : Option (List Bytes) :=
  match args with
  | word :: _ :: _ :: rest =>
    if upper word = utf8 "GROUP" then afterStreams [utf8 "NOACK"] xreadgroupOptions rest else none
  | _ => none

/-- The keys that the handler reports, or reads and writes, if it accepts the arguments. -/
def KeyUse.keys (isFloat : Bytes → Bool) (world : World) : KeyUse → List Bytes → Option (List Bytes)
  | .first, args => if args = [] then none else some (args.take 1)
  | .firstTwo, args => if args.length < 2 then none else some (args.take 2)
  | .all, args => if args = [] then none else some args
  | .allButLast, args => if args.length < 2 then none else some args.dropLast
  | .pairs, args => if args.length < 2 || args.length % 2 ≠ 0 then none else some (everyOther args)
  | .triples, args =>
    if args.length < 3 || args.length % 3 ≠ 0 then none else some (everyTriple args)
  | .pop offset, args => countedKeys offset 1 1 args
  | .script, args => countedKeys 1 0 0 args
  | .move, _ => none
  | .jsonDebug, args =>
    match args with
    | [] => none
    | sub :: rest =>
      if ByteText.toUpper sub = utf8 "HELP" then some []
      else if ByteText.toUpper sub = utf8 "MEMORY" then
        if rest.length < 1 || 2 < rest.length then none else some (rest.take 1)
      else none
  | .bitOp, args => bitOpKeys args
  | .delEx, args => delExKeys args
  | .mSetEx, args => (mSetExPairs args).map fun split => everyOther split.1
  | .zStore, args => (zStoreSources args).map fun sources => args.take 1 ++ sources
  | .geoRadius fixed, args =>
    if args.length < fixed then none
    else
      (geoStore [] (args.drop fixed)).map fun dest =>
        if dest ≠ [] then dest :: args.take 1 else args.take 1
  | .xGroup, args => xGroupKeys args
  | .xRead, args => (afterStreams [] (xreadOptions isFloat) args).bind streamKeys
  | .xReadGroup, args => (xReadGroupStreams args).bind streamKeys
  | .sort, args =>
    match args with
    | [] => none
    | key :: rest => (parseSortOptions {} rest).map fun opts => opts.keys world key
  | .sortRO, args =>
    match args with
    | [] => none
    | key :: rest =>
      if rest.any (equalFold (utf8 "STORE")) then none
      else (parseSortOptions {} rest).map fun opts => opts.keys world key

/-- The handlers of the commands that have `Keys`. -/
def handlers : List (KeyUse × List CommandType) :=
  [(.first, [.cmdJSONGet, .cmdJSONType, .cmdJSONArrLen, .cmdJSONArrIndex, .cmdJSONStrLen,
      .cmdJSONObjKeys, .cmdJSONObjLen, .cmdJSONResp, .cmdJSONSet, .cmdJSONMerge, .cmdJSONDel,
      .cmdJSONForget, .cmdJSONClear, .cmdJSONNumIncrBy, .cmdJSONNumMultBy, .cmdJSONNumPowBy,
      .cmdJSONArrAppend, .cmdJSONArrInsert, .cmdJSONArrPop, .cmdJSONArrTrim, .cmdJSONStrAppend,
      .cmdJSONToggle, .cmdHSet, .cmdHSetNX, .cmdHDel, .cmdHMSet, .cmdHIncrBy, .cmdHIncrByFloat,
      .cmdHGetDel, .cmdHExpire, .cmdHPExpire, .cmdHExpireAt, .cmdHPExpireAt, .cmdHPersist,
      .cmdHSetEx, .cmdHGetEx, .cmdSetBit, .cmdBitField, .cmdZAdd, .cmdZRem, .cmdZIncrBy,
      .cmdZPopMin, .cmdZPopMax, .cmdZRemRangeByScore, .cmdZRemRangeByRank, .cmdZRemRangeByLex,
      .cmdGeoAdd, .cmdLPush, .cmdLPushX, .cmdRPush, .cmdRPushX, .cmdLPop, .cmdRPop, .cmdLSet,
      .cmdLRem, .cmdLTrim, .cmdLInsert, .cmdPFAdd, .cmdXAdd, .cmdXAck, .cmdXTrim, .cmdXDel,
      .cmdXSetId, .cmdXDelEx, .cmdXAckDel, .cmdXClaim, .cmdXAutoClaim, .cmdXIdmpRecord,
      .cmdXCfgSet, .cmdSAdd, .cmdSRem, .cmdSPop, .cmdSet, .cmdSetNX, .cmdSetEX, .cmdPSetEX,
      .cmdGetSet, .cmdGetDel, .cmdGetEx, .cmdSetRange, .cmdAppend, .cmdIncr, .cmdDecr,
      .cmdIncrBy, .cmdDecrBy, .cmdIncrByFloat, .cmdExpire, .cmdExpireAt, .cmdPExpire,
      .cmdPExpireAt, .cmdPersist]),
    (.firstTwo, [.cmdZRangeStore, .cmdGeoSearchStore, .cmdLMove, .cmdRPopLPush, .cmdSMove,
      .cmdRename, .cmdRenameNX, .cmdCopy, .cmdBLMove, .cmdBRPopLPush]),
    (.all, [.cmdPFMerge, .cmdSInterStore, .cmdSUnionStore, .cmdSDiffStore, .cmdDel, .cmdUnlink]),
    (.allButLast, [.cmdJSONMGet, .cmdBZPopMin, .cmdBZPopMax, .cmdBLPop, .cmdBRPop]),
    (.pairs, [.cmdMSet, .cmdMSetNX]),
    (.triples, [.cmdJSONMSet]),
    (.pop 0, [.cmdZMPop, .cmdLMPop]),
    (.pop 1, [.cmdBZMPop, .cmdBLMPop]),
    (.script, [.cmdEval, .cmdEvalSha, .cmdEvalRO, .cmdEvalShaRO, .cmdFcall, .cmdFcallRO]),
    (.move, [.cmdMove]),
    (.jsonDebug, [.cmdJSONDebug]),
    (.bitOp, [.cmdBitOp]),
    (.delEx, [.cmdDelEx]),
    (.mSetEx, [.cmdMSetEX]),
    (.zStore, [.cmdZUnionStore, .cmdZInterStore, .cmdZDiffStore]),
    (.geoRadius 5, [.cmdGeoRadius]),
    (.geoRadius 4, [.cmdGeoRadiusByMember]),
    (.xGroup, [.cmdXGroup]),
    (.xRead, [.cmdXRead]),
    (.xReadGroup, [.cmdXReadGroup]),
    (.sort, [.cmdSort]),
    (.sortRO, [.cmdSortRO])]

def keyUse (cmd : CommandType) : Option KeyUse :=
  (handlers.find? fun kind => cmd ∈ kind.2).map Prod.fst

/-- The keys that a command uses, if its handler accepts the arguments. -/
def usedKeys (isFloat : Bytes → Bool) (world : World) (cmd : CommandType) (args : List Bytes) :
    Option (List Bytes) :=
  (keyUse cmd).bind fun use => use.keys isFloat world args

/-! ## 3.  When both are the same -/

def SameKeys (as bs : List Bytes) : Prop := ∀ key, key ∈ as ↔ key ∈ bs

def Accepts (isFloat : Bytes → Bool) (cmd : CommandType) (args : List Bytes) : Prop :=
  ∃ world, (usedKeys isFloat world cmd args).isSome

/-- The registry names the keys that the handler uses, whatever the collections have in them. -/
def Exact (isFloat : Bytes → Bool) (entry : Registration) (args : List Bytes) : Prop :=
  ∀ world keys, usedKeys isFloat world entry.cmd args = some keys →
    SameKeys (entry.keys.extract args) keys

/-- No pattern that is looked up leads to another key than these. -/
def SortOptions.Within (opts : SortOptions) (keys : List Bytes) : Prop :=
  (∀ pattern ∈ opts.byPatterns, ∀ element, (substitutePattern pattern element).1 ∈ keys) ∧
    ((∀ offset count, opts.limit = some (offset, count) → 0 ≤ offset ∧ count ≠ 0) →
      ∀ pattern ∈ opts.lookups, ∀ element, (substitutePattern pattern element).1 ∈ keys)

/-- The condition for each kind of handler: what is named wrongly happens to be one of the keys, and
what is left out happens to be named. -/
def KeyUse.Named : KeyUse → List Bytes → Prop
  | .bitOp, args => ∀ op ∈ args.take 1, op ∈ args.drop 1
  | .delEx, args => ∀ arg ∈ args.drop 1, arg ∈ args.take 1
  | .mSetEx, args =>
    ∀ pairs options, mSetExPairs args = some (pairs, options) →
      SameKeys (args.take 1 ++ (everyOther pairs.tail ++ everyOther options.tail))
        (everyOther pairs)
  | .zStore, args =>
    ∀ sources, zStoreSources args = some sources → ∀ source ∈ sources, source ∈ args.take 1
  | .geoRadius fixed, args =>
    ∀ dest, geoStore [] (args.drop fixed) = some dest → dest ≠ [] → dest ∈ args.take 1
  | .xGroup, args => (args.drop 1).take 1 = args.take 1
  | .xReadGroup, args =>
    ∀ streams keys, xReadGroupStreams args = some streams → streamKeys streams = some keys →
      (∀ word ∈ args.take (args.length - streams.length - 1),
          equalFold (utf8 "STREAMS") word = false) ∨
        SameKeys (keysAfterStreams args) keys
  | .sort, args =>
    ∀ key rest opts, args = key :: rest → parseSortOptions {} rest = some opts →
      SameKeys (key :: sortDestination rest) (key :: opts.stores) ∧
        opts.Within (key :: sortDestination rest)
  | .sortRO, args =>
    ∀ key rest opts, args = key :: rest → parseSortOptions {} rest = some opts →
      opts.Within [key]
  | _, _ => True

/-- An extractor and a kind of handler agree where the condition holds. -/
def Agree (isFloat : Bytes → Bool) (extractor : KeyExtractor) (use : KeyUse) (args : List Bytes) :
    Prop :=
  (∃ world, (use.keys isFloat world args).isSome) →
    ((∀ world keys, use.keys isFloat world args = some keys →
        SameKeys (extractor.extract args) keys) ↔ use.Named args)

variable {keys streams rest : List Bytes} {least : ℤ} {key : Bytes} {opts : SortOptions}

section Places

variable {isFloat : Bytes → Bool} {args : List Bytes} {extractor : KeyExtractor} {use : KeyUse}

theorem sameKeys_refl (keys : List Bytes) : SameKeys keys keys := fun _ => Iff.rfl

theorem sameKeys_of_superset {as bs : List Bytes} (h : bs ⊆ as) :
    SameKeys as bs ↔ ∀ key ∈ as, key ∈ bs :=
  ⟨fun hsame key => (hsame key).mp, fun hall key => ⟨hall key, fun hkey => h hkey⟩⟩

theorem sameKeys_of_subset {as bs : List Bytes} (h : as ⊆ bs) :
    SameKeys as bs ↔ ∀ key ∈ bs, key ∈ as :=
  ⟨fun hsame key => (hsame key).mpr, fun hall key => ⟨fun hkey => h hkey, hall key⟩⟩

/-- It is enough to compare for each outcome of the handler. -/
theorem agree_of_forall (h : ∀ world keys, use.keys isFloat world args = some keys →
    (SameKeys (extractor.extract args) keys ↔ use.Named args)) :
    Agree isFloat extractor use args := by
  rintro ⟨world, hacc⟩
  obtain ⟨keys, hks⟩ := Option.isSome_iff_exists.mp hacc
  constructor
  · intro hsame
    exact (h world keys hks).mp (hsame world keys hks)
  · intro hnm world' keys' hkeys'
    exact (h world' keys' hkeys').mpr hnm

/-- The extractor finds the very list. -/
theorem agree_of_eq (hnm : use.Named args)
    (h : ∀ world keys, use.keys isFloat world args = some keys → extractor.extract args = keys) :
    Agree isFloat extractor use args :=
  agree_of_forall fun world keys hks => by
    rw [h world keys hks]
    exact iff_of_true (sameKeys_refl keys) hnm

/-! ## 4.  Fixed places -/

theorem eq_of_if_none {α : Type} {p : Prop} [Decidable p] {x y : α}
    (h : (if p then none else some x) = some y) : ¬ p ∧ x = y := by
  split at h
  · exact nomatch h
  · rename_i hp
    exact ⟨hp, Option.some.inj h⟩

theorem agree_first : Agree isFloat .first .first args :=
  agree_of_eq trivial fun _ _ h => (eq_of_if_none h).2

theorem agree_firstTwo : Agree isFloat .firstTwo .firstTwo args :=
  agree_of_eq trivial fun _ _ h => by
    obtain ⟨hlen, rfl⟩ := eq_of_if_none h
    exact if_neg hlen

theorem agree_all : Agree isFloat .all .all args :=
  agree_of_eq trivial fun _ _ h => (eq_of_if_none h).2

theorem agree_allButLast : Agree isFloat .allButLast .allButLast args :=
  agree_of_eq trivial fun _ _ h => by
    obtain ⟨hlen, rfl⟩ := eq_of_if_none h
    exact if_neg hlen

theorem agree_pairs : Agree isFloat .msetStyle .pairs args :=
  agree_of_eq trivial fun _ _ h => by
    obtain ⟨hlen, rfl⟩ := eq_of_if_none h
    rw [Bool.or_eq_true, not_or, decide_eq_true_eq] at hlen
    exact if_neg hlen.1

theorem agree_triples : Agree isFloat .jsonMSet .triples args :=
  agree_of_eq trivial fun _ _ h => (eq_of_if_none h).2

theorem agree_move : Agree isFloat .first .move args :=
  agree_of_eq trivial fun _ _ h => nomatch h

/-- The number, and what follows it. -/
theorem countedKeys_eq_some {offset extra : ℕ}
    (h : countedKeys offset least extra args = some keys) :
    ∃ number rest n, args.drop offset = number :: rest ∧ parseInt64 number = some n ∧ least ≤ n ∧
      n + extra ≤ rest.length ∧ keys = rest.take n.toNat := by
  unfold countedKeys at h
  split at h
  · exact nomatch h
  · rename_i number rest hd
    split at h
    · exact nomatch h
    · rename_i n hn
      obtain ⟨hbds, rfl⟩ := eq_of_if_none h
      rw [Bool.or_eq_true, not_or, decide_eq_true_eq, decide_eq_true_eq, not_lt, not_lt] at hbds
      exact ⟨number, rest, n, hd, hn, hbds.1, hbds.2, rfl⟩

theorem keysNumkeysAtOffset_eq {offset extra : ℕ}
    (h : countedKeys offset least extra args = some keys) :
    keysNumkeysAtOffset offset args = keys := by
  obtain ⟨number, rest, n, hd, hn, hlow, hr, rfl⟩ := countedKeys_eq_some h
  unfold keysNumkeysAtOffset
  rw [hd]
  simp only [hn]
  by_cases h0 : n ≤ 0
  · have ht : n.toNat = 0 := by omega
    rw [if_pos (by simp [h0]), ht, take_zero]
  · rw [if_neg]
    rw [Bool.or_eq_true, not_or, decide_eq_true_eq, decide_eq_true_eq]
    exact ⟨h0, by omega⟩

theorem agree_pop (offset : ℕ) : Agree isFloat (.numkeysAt offset) (.pop offset) args :=
  agree_of_eq trivial fun _ _ h => keysNumkeysAtOffset_eq h

theorem agree_script : Agree isFloat (.numkeysAt 1) .script args :=
  agree_of_eq trivial fun _ _ h => keysNumkeysAtOffset_eq h

/-- The operation is named and is no key. -/
theorem agree_bitOp : Agree isFloat .all .bitOp args := by
  refine agree_of_forall fun world keys h => ?_
  obtain ⟨op, dest, sources, rfl, rfl⟩ : ∃ op dest sources, args = op :: dest :: sources ∧
      keys = dest :: sources := by
    have h : bitOpKeys args = some keys := h
    rcases args with _ | ⟨op, _ | ⟨dest, sources⟩⟩
    · exact nomatch h
    · exact nomatch h
    · refine ⟨op, dest, sources, rfl, ?_⟩
      unfold bitOpKeys at h
      simp only at h
      split_ifs at h <;> exact (Option.some.inj h).symm
  show SameKeys (op :: dest :: sources) (dest :: sources) ↔ ∀ arg ∈ [op], arg ∈ dest :: sources
  rw [sameKeys_of_superset (subset_cons_self _ _), forall_mem_cons, forall_mem_singleton]
  exact and_iff_left fun key hkey => hkey

/-- The condition is named and is no key. -/
theorem agree_delEx : Agree isFloat .all .delEx args := by
  refine agree_of_forall fun world keys h => ?_
  obtain ⟨key, rest, rfl, rfl⟩ : ∃ key rest, args = key :: rest ∧ keys = [key] := by
    have h : delExKeys args = some keys := h
    unfold delExKeys at h
    split at h
    · exact ⟨_, [], rfl, (Option.some.inj h).symm⟩
    · split_ifs at h
      exact ⟨_, _, rfl, (Option.some.inj h).symm⟩
    · exact nomatch h
  show SameKeys (key :: rest) [key] ↔ ∀ arg ∈ rest, arg ∈ [key]
  rw [sameKeys_of_superset (by simp), forall_mem_cons]
  exact and_iff_right mem_cons_self

/-- The sources are not named. -/
theorem agree_zStore : Agree isFloat .first .zStore args := by
  refine agree_of_forall fun world keys h => ?_
  obtain ⟨sources, hsources, rfl⟩ := Option.map_eq_some_iff.mp h
  show SameKeys (args.take 1) (args.take 1 ++ sources) ↔ ∀ other, zStoreSources args = some other → _
  rw [sameKeys_of_subset (subset_append_left _ _), forall_mem_append, hsources]
  refine (and_iff_right fun key hkey => hkey).trans ⟨?_, fun hnm => hnm sources rfl⟩
  rintro hnm _ ⟨⟩
  exact hnm

/-- The destination is not named. -/
theorem agree_geoRadius (fixed : ℕ) : Agree isFloat .first (.geoRadius fixed) args := by
  refine agree_of_forall fun world keys h => ?_
  have h : (if args.length < fixed then none
      else (geoStore [] (args.drop fixed)).map fun dest =>
        if dest ≠ [] then dest :: args.take 1 else args.take 1) = some keys := h
  split at h
  · exact nomatch h
  · obtain ⟨dest, hdest, rfl⟩ := Option.map_eq_some_iff.mp h
    show SameKeys (args.take 1) _ ↔
      ∀ other, geoStore [] (args.drop fixed) = some other → other ≠ [] → other ∈ args.take 1
    by_cases hnil : dest = []
    · rw [if_neg (not_not.mpr hnil)]
      refine iff_of_true (sameKeys_refl _) fun other ho hne => ?_
      obtain rfl := Option.some.inj (hdest.symm.trans ho)
      exact absurd hnil hne
    · rw [if_pos hnil]
      rw [sameKeys_of_subset (subset_cons_self _ _), forall_mem_cons, hdest]
      refine (and_iff_left fun key hkey => hkey).trans ⟨?_, fun hnm => hnm dest rfl hnil⟩
      rintro hnm _ ⟨⟩ -
      exact hnm

/-- The subcommand is named, and the key is not. -/
theorem agree_xGroup : Agree isFloat .first .xGroup args := by
  refine agree_of_forall fun world keys h => ?_
  have h : xGroupKeys args = some keys := h
  cases args with
  | nil => exact nomatch h
  | cons sub rest =>
    have hks : keys = rest.take 1 := by
      unfold xGroupKeys at h
      simp only at h
      split_ifs at h with _ _ _ _ _ hr
      · exact (Option.some.inj h).symm
      · exact (Option.some.inj h).symm
      · rw [hr]
        exact (Option.some.inj h).symm
    subst hks
    show SameKeys [sub] (rest.take 1) ↔ rest.take 1 = [sub]
    constructor
    · intro hsame
      have hmem := (hsame sub).mp (mem_singleton_self _)
      cases rest with
      | nil => exact nomatch hmem
      | cons key rest =>
        obtain rfl := mem_singleton.mp hmem
        rfl
    · intro heq
      rw [heq]
      exact sameKeys_refl _

theorem everyOther_cons (arg : Bytes) (rest : List Bytes) :
    everyOther (arg :: rest) = arg :: everyOther rest.tail := by
  cases rest with
  | nil | cons next rest => rfl

/-- After an odd number of arguments the next one is skipped. -/
theorem everyOther_append_of_odd : ∀ {as : List Bytes} (bs : List Bytes), as.length % 2 = 1 →
    everyOther (as ++ bs) = everyOther as ++ everyOther bs.tail
  | [], _, h => absurd h (by decide)
  | [a], bs, _ => everyOther_cons a bs
  | a :: b :: as, bs, h => by
    have hodd : as.length % 2 = 1 := by
      rw [length_cons, length_cons] at h
      omega
    show a :: everyOther (as ++ bs) = a :: (everyOther as ++ everyOther bs.tail)
    rw [everyOther_append_of_odd bs hodd]

/-- The number and the values are named, and the keys are not. -/
theorem agree_mSetEx : Agree isFloat .msetStyle .mSetEx args := by
  refine agree_of_forall fun world keys h => ?_
  obtain ⟨⟨pairs, options⟩, hsp, rfl⟩ := Option.map_eq_some_iff.mp h
  obtain ⟨number, rest, n, rfl, hpos, hr, rfl, rfl⟩ : ∃ number rest n, args = number :: rest ∧
      0 < n ∧ n * 2 ≤ rest.length ∧ pairs = rest.take (n * 2) ∧ options = rest.drop (n * 2) := by
    cases args with
    | nil => exact nomatch hsp
    | cons number rest =>
      unfold mSetExPairs at hsp
      simp only at hsp
      split at hsp
      · exact nomatch hsp
      · rename_i n _
        obtain ⟨hbds, heq⟩ := eq_of_if_none hsp
        cases heq
        simp only [Bool.or_eq_true, decide_eq_true_eq] at hbds
        exact ⟨number, rest, n.toNat, rfl, by omega, by omega, rfl, rfl⟩
  have hne : rest.take (n * 2) ≠ [] := by
    intro hnil
    have := congrArg length hnil
    rw [length_take, length_nil] at this
    omega
  have hodd : (rest.take (n * 2)).tail.length % 2 = 1 := by
    rw [length_tail, length_take]
    omega
  have hns : KeyExtractor.msetStyle.extract (number :: rest) =
      number :: (everyOther (rest.take (n * 2)).tail ++ everyOther (rest.drop (n * 2)).tail) := by
    have hlen : ¬ (number :: rest).length < 2 := by
      rw [length_cons]
      omega
    show (if (number :: rest).length < 2 then [] else everyOther (number :: rest)) = _
    rw [if_neg hlen, everyOther_cons, ← everyOther_append_of_odd _ hodd]
    congr 2
    rw [← tail_append_of_ne_nil hne, take_append_drop]
  rw [hns]
  constructor
  · intro hsame pairs options ho
    obtain ⟨rfl, rfl⟩ := Prod.mk.inj (Option.some.inj (hsp.symm.trans ho))
    exact hsame
  · intro hnm
    exact hnm _ _ hsp

end Places

/-! ## 5.  Keywords -/

section Keywords

variable {word arg : Bytes} {isFloat : Bytes → Bool} {args : List Bytes}

/-- A word of which only the ASCII letters of either case are variants, and the long `s`. -/
def PlainWord (word : Bytes) : Prop :=
  ∀ x ∈ word, x < 0x80 ∧ ByteText.upperByte x = x ∧ x ≠ 0x4b ∧ x ≠ 0x49

instance (word : Bytes) : Decidable (PlainWord word) :=
  inferInstanceAs (Decidable (∀ x ∈ word, x < 0x80 ∧ ByteText.upperByte x = x ∧ x ≠ 0x4b ∧ x ≠ 0x49))

theorem PlainWord.equalFold_of_upper (hw : PlainWord word) (h : upper arg = word) :
    equalFold word arg = true := by
  have hup : upper word = word := by
    rw [upper, map_congr_left fun x hx => (hw x hx).2.1, map_id_fun', id]
  refine equalFold_of_upper_eq (fun x hx => ?_) (h.trans hup.symm)
  obtain ⟨hlt, hx, -⟩ := hw x hx
  rwa [hx]

theorem equalFold_iff_toUpper (hw : PlainWord word) (arg : Bytes) :
    equalFold word arg = true ↔ toUpper arg = word := by
  induction word generalizing arg with
  | nil =>
    cases arg with
    | nil => exact iff_of_true rfl rfl
    | cons b rest =>
      refine iff_of_false (by simp [equalFold]) fun h => ?_
      unfold toUpper at h
      split at h <;> cases h
  | cons x word ih =>
    obtain ⟨hlt, hx, hk, hi⟩ := hw x mem_cons_self
    have hr := ih fun y hy => hw y (mem_cons_of_mem _ hy)
    unfold equalFold
    split
    · exact iff_of_false (by simp) (by simp [toUpper])
    · rw [hx, Bool.and_eq_true, beq_iff_eq, hr, toUpper, cons.injEq]
      exact and_congr_left fun _ => eq_comm
    · rw [hx, Bool.and_eq_true, beq_iff_eq]
      refine iff_of_false (fun h => hk h.1) fun h => ?_
      have hh : (0xe2 : UInt8) = x := by
        exact (cons.inj h).1
      rw [← hh] at hlt
      exact absurd hlt (by decide)
    · rename_i b rest hlong hkelvin
      unfold toUpper
      split
      · -- The dotless letter has a capital, but no variant.
        refine iff_of_false (fun h => ?_) fun h => hi (cons.inj h).1.symm
        rw [Bool.and_eq_true, beq_iff_eq, hx] at h
        rw [← h.1] at hlt
        exact absurd hlt (by decide)
      · exact absurd rfl (hlong _ rfl)
      · rw [hx, Bool.and_eq_true, beq_iff_eq, hr, cons.injEq]

theorem plainWord_keywords : PlainWord (utf8 "MEMORY") ∧ PlainWord (utf8 "STREAMS") ∧
    PlainWord (utf8 "STORE") := by decide +kernel

theorem agree_jsonDebug : Agree isFloat .jsonDebug .jsonDebug args := by
  refine agree_of_eq trivial fun world keys h => ?_
  cases args with
  | nil => exact nomatch h
  | cons sub rest =>
    have h : (if toUpper sub = utf8 "HELP" then some []
        else if toUpper sub = utf8 "MEMORY" then
          if rest.length < 1 || 2 < rest.length then none else some (rest.take 1)
        else none) = some keys := h
    by_cases hmemory : toUpper sub = utf8 "MEMORY"
    · have hfold := (equalFold_iff_toUpper plainWord_keywords.1 sub).mpr hmemory
      rw [if_neg (by rw [hmemory]; decide), if_pos hmemory] at h
      obtain ⟨hlen, rfl⟩ := eq_of_if_none h
      cases rest with
      | nil => exact absurd rfl hlen
      | cons key rest =>
        show (if equalFold (utf8 "MEMORY") sub then [key] else []) = [key]
        rw [if_pos hfold]
    · have hfold : ¬ equalFold (utf8 "MEMORY") sub = true := fun hfold =>
        hmemory ((equalFold_iff_toUpper plainWord_keywords.1 sub).mp hfold)
      split at h
      · cases h
        cases rest with
        | nil => rfl
        | cons key rest => exact if_neg hfold
      · exact nomatch h

/-- A variant of the keyword begins with its letter or with the first byte of the long `s`. -/
theorem first_of_equalFold (h : equalFold (utf8 "STREAMS") arg = true) :
    ∃ b rest, arg = b :: rest ∧ (b = 0x53 ∨ b = 0x73 ∨ b = 0xc5) := by
  have hw : utf8 "STREAMS" = 0x53 :: utf8 "TREAMS" := by decide
  rw [hw] at h
  unfold equalFold at h
  split at h
  · exact nomatch h
  · exact ⟨_, _, rfl, .inr (.inr rfl)⟩
  · rw [Bool.and_eq_true] at h
    exact absurd h.1 (by decide)
  · rename_i b rest _ _
    rw [Bool.and_eq_true, beq_iff_eq] at h
    have hb : upperByte b = 0x53 := h.1
    refine ⟨b, rest, rfl, ?_⟩
    unfold upperByte at hb
    split at hb
    · right
      left
      rw [← UInt8.sub_add_cancel b 0x20, hb]
      rfl
    · exact .inl hb

/-- A number is not the keyword. -/
theorem not_isCount_of_equalFold (h : equalFold (utf8 "STREAMS") arg = true) :
    isCount arg = false := by
  obtain ⟨b, rest, rfl, hb⟩ := first_of_equalFold h
  have hn : parseInt64 (b :: rest) = none := by
    rcases hb with rfl | rfl | rfl <;> rfl
  unfold isCount
  rw [hn]

theorem not_equalFold_of_upper {c : UInt8} (h : upper arg = c :: word)
    (hc : c ≠ 0x53 ∧ c < 0x80) : equalFold (utf8 "STREAMS") arg = false := by
  by_contra hfold
  obtain ⟨b, rest, rfl, hb⟩ := first_of_equalFold (Bool.not_eq_false _ ▸ hfold)
  have hh : upperByte b = c := (cons.inj h).1
  rcases hb with rfl | rfl | rfl
  · exact hc.1 (hh.symm.trans (by decide))
  · exact hc.1 (hh.symm.trans (by decide))
  · rw [← hh] at hc
    exact absurd hc.2 (by decide)

/-- What the options before the keyword are. -/
theorem afterStreams_eq_some {flags : List Bytes} {valued : List (Bytes × (Bytes → Bool))}
    (h : afterStreams flags valued args = some streams) :
    ∃ before keyword, args = before ++ keyword :: streams ∧ upper keyword = utf8 "STREAMS" ∧
      ∀ word ∈ before, upper word ∈ flags ∨ ∃ option ∈ valued,
        option.1 = upper word ∨ option.2 word = true := by
  fun_induction afterStreams flags valued args with
  | case1 => exact nomatch h
  | case2 word rest hwd =>
    cases h
    exact ⟨[], word, rfl, hwd, fun _ hw => nomatch hw⟩
  | case3 word rest _ hflag ih =>
    obtain ⟨before, keyword, rfl, hkw, hb⟩ := ih h
    refine ⟨word :: before, keyword, rfl, hkw, fun w hw => ?_⟩
    rcases mem_cons.mp hw with rfl | hw
    · exact .inl hflag
    · exact hb w hw
  | case4 word _ _ option value rest hf hv ih =>
    obtain ⟨before, keyword, rfl, hkw, hb⟩ := ih h
    have hoption := mem_of_find?_eq_some hf
    have hn : option.1 = upper word := by
      simpa using find?_some hf
    refine ⟨word :: value :: before, keyword, rfl, hkw, fun w hw => ?_⟩
    rcases mem_cons.mp hw with rfl | hw
    · exact .inr ⟨option, hoption, .inl hn⟩
    · rcases mem_cons.mp hw with rfl | hw
      · exact .inr ⟨option, hoption, .inr hv⟩
      · exact hb w hw
  | case5 => exact nomatch h
  | case6 => exact nomatch h

/-- Where nothing before the keyword is taken for it, the registry finds the keys. -/
theorem keysAfterStreams_eq {before : List Bytes} {keyword : Bytes}
    (hkw : upper keyword = utf8 "STREAMS")
    (hb : ∀ word ∈ before, equalFold (utf8 "STREAMS") word = false)
    (hks : streamKeys streams = some keys) :
    keysAfterStreams (before ++ keyword :: streams) = keys := by
  have hfold := plainWord_keywords.2.1.equalFold_of_upper hkw
  obtain ⟨hlen, rfl⟩ := eq_of_if_none hks
  rw [Bool.or_eq_true, not_or, decide_eq_true_eq, decide_eq_true_eq] at hlen
  unfold keysAfterStreams
  rw [dropWhile_append_of_pos fun word hw => by rw [hb word hw]; rfl,
    dropWhile_cons_of_neg (by rw [hfold]; decide)]
  simp only
  rw [if_neg]
  rw [Bool.or_eq_true, not_or, decide_eq_true_eq, decide_eq_true_eq]
  refine ⟨fun hnil => ?_, hlen.2⟩
  rw [hnil] at hlen
  exact hlen.1 (by decide)

/-- Neither the names nor the values of the options of `XREAD` are taken for the keyword. -/
theorem agree_xRead (hfloat : ∀ arg, equalFold (utf8 "STREAMS") arg = true → isFloat arg = false) :
    Agree isFloat .afterStreams .xRead args := by
  refine agree_of_eq trivial fun world keys h => ?_
  obtain ⟨streams, hstr, hks⟩ := Option.bind_eq_some_iff.mp h
  obtain ⟨before, keyword, rfl, hkw, hb⟩ := afterStreams_eq_some hstr
  refine keysAfterStreams_eq hkw (fun word hw => ?_) hks
  have hc : utf8 "COUNT" = 0x43 :: utf8 "OUNT" := by decide
  have hbk : utf8 "BLOCK" = 0x42 :: utf8 "LOCK" := by decide
  rcases hb word hw with hflag | ⟨option, hoption, hw⟩
  · exact nomatch hflag
  · rw [xreadOptions, mem_cons, mem_singleton] at hoption
    rcases hoption with rfl | rfl
    · rcases hw with hn | hv
      · exact not_equalFold_of_upper (hn.symm.trans hc) (by decide)
      · by_contra hfold
        have hv : isCount word = true := hv
        rw [not_isCount_of_equalFold (Bool.not_eq_false _ ▸ hfold)] at hv
        exact nomatch hv
    · rcases hw with hn | hv
      · exact not_equalFold_of_upper (hn.symm.trans hbk) (by decide)
      · by_contra hfold
        have hv : isFloat word = true := hv
        rw [hfloat word (Bool.not_eq_false _ ▸ hfold)] at hv
        exact nomatch hv

/-- A name before the keyword can be taken for it. -/
theorem agree_xReadGroup : Agree isFloat .afterStreams .xReadGroup args := by
  refine agree_of_forall fun world keys h => ?_
  obtain ⟨streams, hstr, hks⟩ := Option.bind_eq_some_iff.mp h
  obtain ⟨before, keyword, ha, hkw⟩ : ∃ before keyword, args = before ++ keyword :: streams ∧
      upper keyword = utf8 "STREAMS" := by
    unfold xReadGroupStreams at hstr
    split at hstr
    · rename_i group name consumer rest
      split at hstr
      · obtain ⟨before, keyword, rfl, hkw, -⟩ := afterStreams_eq_some hstr
        exact ⟨group :: name :: consumer :: before, keyword, rfl, hkw⟩
      · exact nomatch hstr
    · exact nomatch hstr
  show SameKeys (keysAfterStreams args) keys ↔ _
  constructor
  · intro hsame other otherKeys ho hotherKeys
    obtain rfl := Option.some.inj (hstr.symm.trans ho)
    obtain rfl := Option.some.inj (hks.symm.trans hotherKeys)
    exact .inr hsame
  · intro hnm
    rcases hnm streams keys hstr hks with hb | hsame
    · have ht : args.take (args.length - streams.length - 1) = before := by
        rw [ha, length_append, length_cons]
        exact take_left' (by omega)
      rw [ht] at hb
      rw [ha, keysAfterStreams_eq hkw hb hks]
      exact sameKeys_refl keys
    · exact hsame

end Keywords

/-! ## 6.  `SORT` -/

section Sorting

variable {isFloat : Bytes → Bool} {args : List Bytes}

/-- Every collection has these elements, in this order. -/
def constWorld (elements : List Bytes) : World where
  elements _ := elements
  sorted _ := elements
  perm _ := List.Perm.refl _

/-- The items after the limit, of a collection with enough copies of one element. -/
theorem mem_applyLimit_replicate (limit : Option (ℤ × ℤ)) (element : Bytes)
    (hlim : ∀ offset count, limit = some (offset, count) → 0 ≤ offset ∧ count ≠ 0) :
    ∃ n, element ∈ (applyLimit limit (replicate n element)).getD [] := by
  cases limit with
  | none => exact ⟨1, mem_singleton_self _⟩
  | some pair =>
    obtain ⟨offset, count⟩ := pair
    obtain ⟨hoff, hc⟩ := hlim offset count rfl
    obtain ⟨n, rfl⟩ := Int.eq_ofNat_of_zero_le hoff
    refine ⟨n + 1, ?_⟩
    have hd : (replicate (n + 1) element).drop n = [element] := by
      rw [drop_replicate, Nat.add_sub_cancel_left]
      rfl
    unfold applyLimit
    simp only [length_replicate, Int.toNat_natCast, hd]
    rw [if_neg (by push_cast; omega), if_neg (by omega), if_neg]
    · exact mem_singleton_self _
    · simp only [length_singleton, Bool.and_eq_true, decide_eq_true_eq]
      omega

/-- An item that is left by a limit. -/
theorem limit_of_mem_applyLimit {limit : Option (ℤ × ℤ)} {items : List Bytes} {item : Bytes}
    (h : item ∈ (applyLimit limit items).getD []) :
    ∀ offset count, limit = some (offset, count) → 0 ≤ offset ∧ count ≠ 0 := by
  rintro offset count rfl
  unfold applyLimit at h
  simp only at h
  split at h
  · exact nomatch h
  · split at h
    · exact nomatch h
    · rename_i hoff
      refine ⟨not_lt.mp hoff, ?_⟩
      rintro rfl
      split at h
      · exact nomatch h
      · rename_i hc
        refine hc ?_
        rw [length_drop, Bool.and_eq_true, decide_eq_true_eq, decide_eq_true_eq]
        omega

theorem mem_externalKeys {patterns elements : List Bytes} :
    key ∈ externalKeys patterns elements ↔
      ∃ element ∈ elements, ∃ pattern ∈ patterns, (substitutePattern pattern element).1 = key := by
  unfold externalKeys
  simp

theorem SortOptions.mem_keys {world : World} {other : Bytes} :
    other ∈ opts.keys world key ↔ other ∈ key :: opts.stores ∨
      other ∈ externalKeys opts.byPatterns (world.elements key) ∨
      other ∈ externalKeys opts.lookups ((applyLimit opts.limit (world.sorted key)).getD []) := by
  show other ∈ key :: (opts.stores ++ (_ ++ _)) ↔ _
  rw [mem_cons, mem_append, mem_append, mem_cons, or_assoc]

/-- The names are exact for all collections if they are without any element and no pattern leads
elsewhere. -/
theorem SortOptions.sameKeys_iff (opts : SortOptions) (key : Bytes) (names : List Bytes) :
    (∀ world, SameKeys names (opts.keys world key)) ↔
      SameKeys names (key :: opts.stores) ∧ opts.Within names := by
  constructor
  · intro hsame
    refine ⟨fun other => ?_, fun pattern hpat element => ?_, fun hlim pattern hpat element => ?_⟩
    · have hnil : (applyLimit opts.limit []).getD [] = [] := by
        refine eq_nil_iff_forall_not_mem.mpr fun item hi => ?_
        have hlim := limit_of_mem_applyLimit hi
        cases ho : opts.limit with
        | none =>
          rw [ho] at hi
          exact nomatch hi
        | some pair =>
          obtain ⟨offset, count⟩ := pair
          rw [ho] at hi
          unfold applyLimit at hi
          simp only at hi
          rw [if_pos (by exact_mod_cast (hlim offset count ho).1)] at hi
          exact nomatch hi
      rw [hsame (constWorld []) other, SortOptions.mem_keys]
      show _ ∨ other ∈ externalKeys opts.byPatterns [] ∨
        other ∈ externalKeys opts.lookups ((applyLimit opts.limit []).getD []) ↔ _
      rw [hnil]
      simp [externalKeys]
    · refine (hsame (constWorld [element]) _).mpr (SortOptions.mem_keys.mpr (.inr (.inl ?_)))
      exact mem_externalKeys.mpr ⟨element, mem_singleton_self _, pattern, hpat, rfl⟩
    · obtain ⟨n, hn⟩ := mem_applyLimit_replicate opts.limit element hlim
      refine (hsame (constWorld (replicate n element)) _).mpr
        (SortOptions.mem_keys.mpr (.inr (.inr ?_)))
      exact mem_externalKeys.mpr ⟨element, hn, pattern, hpat, rfl⟩
  · rintro ⟨hns, hby, hget⟩ world other
    rw [SortOptions.mem_keys, hns other]
    refine ⟨.inl, fun h => ?_⟩
    rcases h with h | h | h
    · exact h
    · obtain ⟨element, -, pattern, hpat, rfl⟩ := mem_externalKeys.mp h
      exact (hns _).mp (hby pattern hpat element)
    · obtain ⟨element, helement, pattern, hpat, rfl⟩ := mem_externalKeys.mp h
      exact (hns _).mp (hget (limit_of_mem_applyLimit helement) pattern hpat element)

/-- The keys of a sort are named if what the parsed options ask for holds. -/
theorem sorted_iff {names : List Bytes} {P : Bytes → List Bytes → SortOptions → Prop}
    (ho : parseSortOptions {} rest = some opts)
    (hiff : (∀ world, SameKeys names (opts.keys world key)) ↔ P key rest opts) :
    (∀ world keys, some (opts.keys world key) = some keys → SameKeys names keys) ↔
      ∀ key' rest' opts', key :: rest = key' :: rest' → parseSortOptions {} rest' = some opts' →
        P key' rest' opts' := by
  constructor
  · intro hsame key' rest' opts' ha hopts'
    cases ha
    obtain rfl := Option.some.inj (ho.symm.trans hopts')
    exact hiff.mp fun world => hsame world _ rfl
  · intro hnm world keys hks
    cases hks
    exact hiff.mpr (hnm key rest opts rfl ho) world

theorem agree_sort : Agree isFloat .sort .sort args := by
  rintro ⟨world, hacc⟩
  cases args with
  | nil => exact nomatch hacc
  | cons key rest =>
    show (∀ world keys, (parseSortOptions {} rest).map (fun opts => opts.keys world key) = some keys →
      SameKeys (key :: sortDestination rest) keys) ↔ _
    cases ho : parseSortOptions {} rest with
    | none =>
      have hacc : ((parseSortOptions {} rest).map fun opts => opts.keys world key).isSome := hacc
      rw [ho] at hacc
      exact nomatch hacc
    | some opts =>
      exact sorted_iff ho (opts.sameKeys_iff key (key :: sortDestination rest))

/-- Without `STORE` nothing is stored. -/
theorem store_of_parse {result : SortOptions} (hs : rest.any (equalFold (utf8 "STORE")) = false)
    (h : parseSortOptions opts rest = some result) : result.store = opts.store := by
  fun_induction parseSortOptions opts rest with
  | case1 opts => rw [Option.some.inj h]
  | case2 | case4 | case7 | case8 | case10 | case12 => exact nomatch h
  | case3 opts word _ _ pattern rest ih =>
    simp only [any_cons, Bool.or_eq_false_iff] at hs
    rw [ih hs.2.2 h]
    unfold SortOptions.sortBy
    split
    · rfl
    · rfl
  | case5 opts word _ _ _ pattern rest ih =>
    simp only [any_cons, Bool.or_eq_false_iff] at hs
    exact ih hs.2.2 h
  | case6 opts word _ _ _ _ offset count rest _ _ _ _ ih =>
    simp only [any_cons, Bool.or_eq_false_iff] at hs
    exact ih hs.2.2.2 h
  | case9 opts word rest _ _ _ _ _ ih =>
    rw [any_cons, Bool.or_eq_false_iff] at hs
    exact ih hs.2 h
  | case11 opts word _ _ _ _ _ hw dest rest ih =>
    rw [any_cons, Bool.or_eq_false_iff,
      plainWord_keywords.2.2.equalFold_of_upper hw] at hs
    exact nomatch hs.1

theorem agree_sortRO : Agree isFloat .first .sortRO args := by
  rintro ⟨world, hacc⟩
  cases args with
  | nil => exact nomatch hacc
  | cons key rest =>
    have hks : ∀ world, KeyUse.sortRO.keys isFloat world (key :: rest) =
        if rest.any (equalFold (utf8 "STORE")) then none
        else (parseSortOptions {} rest).map fun opts => opts.keys world key := fun _ => rfl
    rw [hks] at hacc
    cases hs : rest.any (equalFold (utf8 "STORE")) with
    | true =>
      rw [hs] at hacc
      exact nomatch hacc
    | false =>
      cases ho : parseSortOptions {} rest with
      | none =>
        rw [hs, ho] at hacc
        exact nomatch hacc
      | some opts =>
        have hst : opts.stores = [] := by
          unfold SortOptions.stores
          rw [store_of_parse hs ho]
          rfl
        have hiff := opts.sameKeys_iff key [key]
        rw [hst, and_iff_right (sameKeys_refl _)] at hiff
        simp only [hks, hs, ho]
        exact sorted_iff ho hiff

end Sorting

/-! ## 7.  The registry -/

section Entries

/-- The extractors that handlers of a kind are registered with. -/
def registeredKinds : List (KeyExtractor × KeyUse) :=
  [(.first, .first), (.firstTwo, .firstTwo), (.all, .all), (.allButLast, .allButLast),
    (.msetStyle, .pairs), (.jsonMSet, .triples), (.numkeysAt 0, .pop 0), (.numkeysAt 1, .pop 1),
    (.numkeysAt 1, .script), (.first, .move), (.jsonDebug, .jsonDebug), (.all, .bitOp),
    (.all, .delEx), (.msetStyle, .mSetEx), (.first, .zStore), (.first, .geoRadius 5),
    (.first, .geoRadius 4), (.first, .xGroup), (.afterStreams, .xRead),
    (.afterStreams, .xReadGroup), (.sort, .sort), (.first, .sortRO)]

theorem registered_kind {entry : Registration} (he : entry ∈ registrations)
    (hks : entry.keys ≠ .none) :
    ∃ use, keyUse entry.cmd = some use ∧ (entry.keys, use) ∈ registeredKinds := by
  have hall : (registrations.all fun entry => entry.keys = .none ||
      (keyUse entry.cmd).any fun use => (entry.keys, use) ∈ registeredKinds) = true := by
    decide +kernel
  have hone := all_eq_true.mp hall entry he
  rw [Bool.or_eq_true, decide_eq_true_eq] at hone
  have hany := hone.resolve_left hks
  cases huse : keyUse entry.cmd with
  | none =>
    rw [huse] at hany
    exact nomatch hany
  | some use =>
    rw [huse] at hany
    exact ⟨use, rfl, of_decide_eq_true hany⟩

theorem agree_of_mem {isFloat : Bytes → Bool}
    (hfloat : ∀ arg, equalFold (utf8 "STREAMS") arg = true → isFloat arg = false)
    (args : List Bytes) : ∀ kind ∈ registeredKinds, Agree isFloat kind.1 kind.2 args := by
  simp only [registeredKinds, forall_mem_cons]
  exact ⟨agree_first, agree_firstTwo, agree_all, agree_allButLast, agree_pairs, agree_triples,
    agree_pop 0, agree_pop 1, agree_script, agree_move, agree_jsonDebug, agree_bitOp, agree_delEx,
    agree_mSetEx, agree_zStore, agree_geoRadius 5, agree_geoRadius 4, agree_xGroup,
    agree_xRead hfloat, agree_xReadGroup, agree_sort, agree_sortRO, forall_mem_nil _⟩

def Named (cmd : CommandType) (args : List Bytes) : Prop :=
  ∀ use, keyUse cmd = some use → use.Named args

end Entries

end Swytch.Redis.KeyExtraction
