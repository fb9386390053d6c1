import Swytch.Redis.Lookups
import Swytch.Redis.StreamCommands

/-!
# Blocking commands in a script

A blocking command must not block in a script or in a forwarded transaction.  Its handler then
turns to the variant that transactions use, which does not block: that one checks the arguments,
answers at once if they are wrong, and otherwise returns a runner.  The handlers of `BZPOPMIN`,
`BZPOPMAX` and `BZMPOP` call the runner.  Those of the other seven commands drop it, and nothing is
answered or done.

The handlers of `BLPOP`, `BRPOP`, `BZPOPMIN` and `BZPOPMAX` turn to the variant late: before, they
have refused a bad timeout, which the variant ignores, and a key of another type, even one that the
variant would not have come to.

A `numkeys` for which `numkeys + 3` overflows is left out.
-/

namespace Swytch.Redis.Blocking

open Sql (Bytes utf8)
open StreamCommands

/-! ## 1.  Replies, runners and what comes from outside -/

inductive BlockingReply where
  | error (text : String)
  | wrongType
  | nullArray
  | nullBulkString
  | bulkString (value : Bytes)
  | popped (key value : Bytes)
  | poppedMany (key : Bytes) (values : List Bytes)
  | scored (key member : Bytes) (score : ℤ)
  | scoredMany (key : Bytes) (entries : List (Bytes × ℤ))
  | streams (results : List (Bytes × List (StreamID × Bytes)))
  deriving DecidableEq

/-- `WriteWrongNumArguments`. -/
def wrongNumArguments (name : String) : BlockingReply :=
  .error ("ERR wrong number of arguments for '" ++ name ++ "' command")

/-- `WriteSyntaxError`. -/
def syntaxError : BlockingReply := .error "ERR syntax error"

/-- What a variant that does not block returns. -/
abbrev Runner := Context Bytes → BlockingReply × Context Bytes

/-- It refuses the arguments, or returns the keys and the runner. -/
abbrev Prepared := Except BlockingReply (List Bytes × Runner)

/-- A number that `strconv.ParseFloat` reads. -/
inductive GoFloat where
  | nan
  | inf
  | finite (value : ℚ)

/-- What the handlers get from outside: the number parsers of the standard library, the score in
an element as a number with the same order, the id of a new list element, and the clock. -/
structure Env where
  parseFloat : Bytes → Option GoFloat
  parseInt : Bytes → Option ℤ
  parseUint : Bytes → Option ℕ
  score : Element Bytes → ℤ
  newID : Bytes
  now : Int64

/-- `ParseBlockingTimeout` on a number. -/
def checkTimeout (timeout : GoFloat) : Except String ℚ :=
  match timeout with
  | .finite value =>
    if value < 0 then .error "ERR timeout is negative"
    else if 2 ^ 62 / 1000000000 < value then .error "ERR timeout is out of range"
    else .ok value
  | _ => .error "ERR timeout is not a float or out of range"

def parseBlockingTimeout (env : Env) (arg : Bytes) : Except String ℚ :=
  match env.parseFloat arg with
  | some timeout => checkTimeout timeout
  | none =>
    match env.parseInt arg with
    | some n => checkTimeout (.finite n)
    | none =>
      match env.parseUint arg with
      | some n => checkTimeout (.finite n)
      | none => .error "ERR timeout is not a float or out of range"

/-! ## 2.  The variants for lists -/

def emitListRemove (key id : Bytes) (ctx : Context Bytes) : Context Bytes :=
  ctx.emit key (.data { op := .remove, collection := .ordered, placement := .self, id := id })

def emitListInsert (env : Env) (key : Bytes) (placement : Placement) (value : Bytes)
    (ctx : Context Bytes) : Context Bytes :=
  ctx.emit key (.data {
    op := .insert, collection := .ordered, placement := placement, id := env.newID,
    value := some value })

/-- The elements in the order in which they are popped. -/
def inPopOrder {α : Type} (left : Bool) (elements : List α) : List α :=
  if left then elements else elements.reverse

/-- The runner of `handleLPopNonBlocking`. -/
def popFirst (left : Bool) : List Bytes → Runner
  | [], ctx => (.nullArray, ctx)
  | key :: keys, ctx =>
    match getListSnapshot ctx key with
    | .wrongType => (.wrongType, ctx)
    | .absent => popFirst left keys ctx
    | .found snap =>
      match inPopOrder left snap.orderedElements with
      | [] => popFirst left keys ctx
      | element :: _ =>
        (.popped key (element.2.getD []), emitListRemove key element.1 (ctx.emit key .noop))

def handleLPopNonBlocking (left : Bool) (args : List Bytes) : Prepared :=
  if args.length < 2 then .error (wrongNumArguments (if left then "blpop" else "brpop"))
  else .ok (args.dropLast, popFirst left args.dropLast)

/-- The second loop of the runner of `handleBLMPopNonBlocking`. -/
def popMany (left : Bool) (count : ℕ) : List Bytes → Runner
  | [], ctx => (.nullArray, ctx)
  | key :: keys, ctx =>
    match getListSnapshot ctx key with
    | .found snap =>
      if snap.orderedElements = [] then popMany left count keys ctx
      else
        let elements := (inPopOrder left snap.orderedElements).take count
        (.poppedMany key (elements.map fun element => element.2.getD []),
          elements.foldl (fun ctx element => emitListRemove key element.1 ctx)
            (ctx.emit key .noop))
    | _ => popMany left count keys ctx

/-- The direction argument of the list commands. -/
def parseDirection (arg : Bytes) : Option Bool :=
  if upper arg = utf8 "LEFT" then some true
  else if upper arg = utf8 "RIGHT" then some false
  else none

/-- The end of the arguments of `BLMPOP`: the direction and the count. -/
def parseLMPopOptions (args : List Bytes) : Except BlockingReply (Bool × ℕ) :=
  match args with
  | [] => .error syntaxError
  | direction :: options =>
    match parseDirection direction with
    | none => .error syntaxError
    | some left =>
      match options with
      | [] => .ok (left, 1)
      | [word, count] =>
        if upper word = utf8 "COUNT" then
          match parseInt64 count with
          | none => .error (.error "ERR count should be greater than 0")
          | some n =>
            if n < 1 then .error (.error "ERR count should be greater than 0")
            else .ok (left, n.toNat)
        else .error syntaxError
      | _ => .error syntaxError

/-- Some key is of another type. -/
def anyWrongType (lookup : Context Bytes → Bytes → Lookup) (keys : List Bytes)
    (ctx : Context Bytes) : Bool :=
  keys.any fun key =>
    match lookup ctx key with
    | .wrongType => true
    | _ => false

def handleBLMPopNonBlocking (args : List Bytes) : Prepared :=
  if args.length < 4 then .error (wrongNumArguments "blmpop")
  else
    match parseInt64 (args.getD 1 []) with
    | none => .error (.error "ERR numkeys should be greater than 0")
    | some numKeys =>
      if numKeys < 1 then .error (.error "ERR numkeys should be greater than 0")
      else if args.length < numKeys + 3 then .error syntaxError
      else
        let keys := (args.drop 2).take numKeys.toNat
        match parseLMPopOptions (args.drop (numKeys.toNat + 2)) with
        | .error reply => .error reply
        | .ok (left, count) =>
          .ok (keys, fun ctx =>
            if anyWrongType getListSnapshot keys ctx then (.wrongType, ctx)
            else popMany left count keys ctx)

def doLMove (env : Env) (source destination : Bytes) (popLeft pushLeft : Bool) : Runner :=
  fun ctx =>
    match getListSnapshot ctx source with
    | .absent => (.nullBulkString, ctx)
    | .wrongType => (.wrongType, ctx)
    | .found snap =>
      match inPopOrder popLeft snap.orderedElements with
      | [] => (.nullBulkString, ctx)
      | element :: _ =>
        if source ≠ destination && anyWrongType getListSnapshot [destination] ctx then
          (.wrongType, ctx)
        else
          let value := element.2.getD []
          let read := ctx.emit source .noop
          let pinned := if source = destination then read else read.pin destination
          (.bulkString value,
            emitListInsert env destination (if pushLeft then .head else .tail) value
              (emitListRemove source element.1 pinned))

def handleBLMoveNonBlocking (env : Env) (args : List Bytes) : Prepared :=
  match args with
  | [source, destination, whereFrom, whereTo, _] =>
    match parseDirection whereFrom with
    | none => .error syntaxError
    | some popLeft =>
      match parseDirection whereTo with
      | none => .error syntaxError
      | some pushLeft =>
        .ok ([source, destination], doLMove env source destination popLeft pushLeft)
  | _ => .error (wrongNumArguments "blmove")

def handleBRPopLPushNonBlocking (env : Env) (args : List Bytes) : Prepared :=
  match args with
  | [source, destination, _] =>
    .ok ([source, destination], doLMove env source destination false true)
  | _ => .error (wrongNumArguments "brpoplpush")

/-! ## 3.  The variants for sorted sets -/

def emitZSetRemove (key member : Bytes) : Context Bytes → Context Bytes :=
  emitKeyedRemove key member

/-- The order of `zsetSortedMembers`. -/
def scoreBefore (entry other : Bytes × ℤ) : Bool :=
  if entry.2 = other.2 then entry.1 < other.1 else entry.2 < other.2

def zsetSortedMembers (env : Env) (snap : Snapshot Bytes) : List (Bytes × ℤ) :=
  (snap.netAdds.entries.map fun entry => (entry.1, env.score entry.2)).mergeSort
    fun entry other => !scoreBefore other entry

/-- The runner of `handleZPopNonBlocking`. -/
def zpopFirst (env : Env) (popMin : Bool) : List Bytes → Runner
  | [], ctx => (.nullArray, ctx)
  | key :: keys, ctx =>
    match getZSetSnapshot ctx key with
    | .wrongType => (.wrongType, ctx)
    | .absent => zpopFirst env popMin keys ctx
    | .found snap =>
      match inPopOrder popMin (zsetSortedMembers env snap) with
      | [] => zpopFirst env popMin keys ctx
      | entry :: _ =>
        (.scored key entry.1 entry.2, emitZSetRemove key entry.1 (ctx.emit key .noop))

def handleZPopNonBlocking (env : Env) (popMin : Bool) (args : List Bytes) : Prepared :=
  if args.length < 2 then .error (wrongNumArguments (if popMin then "bzpopmin" else "bzpopmax"))
  else .ok (args.dropLast, zpopFirst env popMin args.dropLast)

/-- The runner of `handleBZMPopNonBlocking`. -/
def zpopMany (env : Env) (popMin : Bool) (count : ℕ) : List Bytes → Runner
  | [], ctx => (.nullArray, ctx)
  | key :: keys, ctx =>
    match getZSetSnapshot ctx key with
    | .wrongType => (.wrongType, ctx)
    | .absent => zpopMany env popMin count keys ctx
    | .found snap =>
      if zsetSortedMembers env snap = [] then zpopMany env popMin count keys ctx
      else
        let entries := (inPopOrder popMin (zsetSortedMembers env snap)).take count
        (.scoredMany key entries,
          entries.foldl (fun ctx entry => emitZSetRemove key entry.1 ctx)
            (ctx.emit key .noop))

/-- The loop over the options of `BZMPOP`; the count may be given once. -/
def parseZMPopCount : List Bytes → Option ℕ → Except BlockingReply ℕ
  | [], count => .ok (count.getD 1)
  | word :: rest, count =>
    if upper word ≠ utf8 "COUNT" || count.isSome then .error syntaxError
    else
      match rest with
      | [] => .error syntaxError
      | arg :: rest =>
        match parseInt64 arg with
        | none => .error (.error "ERR count must be positive")
        | some n =>
          if n ≤ 0 then .error (.error "ERR count must be positive")
          else parseZMPopCount rest (some n.toNat)

/-- The end of the arguments of `BZMPOP`: the direction and the count. -/
def parseZMPopOptions (args : List Bytes) : Except BlockingReply (Bool × ℕ) :=
  match args with
  | [] => .error syntaxError
  | direction :: options =>
    if upper direction = utf8 "MIN" then (parseZMPopCount options none).map (true, ·)
    else if upper direction = utf8 "MAX" then (parseZMPopCount options none).map (false, ·)
    else .error syntaxError

def handleBZMPopNonBlocking (env : Env) (args : List Bytes) : Prepared :=
  if args.length < 4 then .error (wrongNumArguments "bzmpop")
  else
    match parseInt64 (args.getD 1 []) with
    | none => .error (.error "ERR numkeys should be greater than 0")
    | some numKeys =>
      if numKeys ≤ 0 then .error (.error "ERR numkeys should be greater than 0")
      else if args.length < numKeys + 3 then .error syntaxError
      else
        let keys := (args.drop 2).take numKeys.toNat
        match parseZMPopOptions (args.drop (numKeys.toNat + 2)) with
        | .error reply => .error reply
        | .ok (popMin, count) => .ok (keys, zpopMany env popMin count keys)

/-! ## 4.  The variants for streams -/

/-- `snapshotToEntries`, with the encoded fields. -/
def streamEntries (snap : Snapshot Bytes) : List (StreamID × Bytes) :=
  if snap.collection = .ordered then
    (snap.orderedElements.filter fun element => element.1.length = 16).map fun element =>
      (decodeStreamElementID element.1, element.2.getD [])
  else []

/-- `rangeEntries` after an id; a count of zero is no limit. -/
def entriesAfter (start : StreamID) (count : ℕ) (entries : List (StreamID × Bytes)) :
    List (StreamID × Bytes) :=
  let later := entries.filter fun entry => 0 < entry.1.compare start
  if count = 0 then later else later.take count

/-- Where `XREAD` begins to read a stream. -/
inductive ReadFrom where
  | lastID
  | lastEntry
  | after (id : StreamID)
  deriving DecidableEq

/-- The error for an id that is none. -/
def invalidID : BlockingReply := .error "ERR Invalid stream ID specified as stream command argument"

/-- An id argument of `XREAD`. -/
def parseReadFrom (arg : Bytes) : Except BlockingReply ReadFrom :=
  if arg = utf8 "$" then .ok .lastID
  else if arg = utf8 "+" then .ok .lastEntry
  else
    match parseStreamID arg with
    | none => .error invalidID
    | some parsed =>
      if parsed.isSpecial && arg ≠ utf8 "-" then .error invalidID else .ok (.after parsed.id)

/-- The error for a number that is none. -/
def notInteger : BlockingReply := .error "ERR value is not an integer or out of range"

/-- The options of `XREAD`, up to the streams. -/
def parseXReadOptions (env : Env) : List Bytes → ℕ → Except BlockingReply (ℕ × List Bytes)
  | [], _ => .error syntaxError
  | word :: rest, count =>
    if upper word = utf8 "COUNT" then
      match rest with
      | [] => .error syntaxError
      | arg :: rest =>
        match parseInt64 arg with
        | none => .error notInteger
        | some n => if n < 0 then .error notInteger else parseXReadOptions env rest n.toNat
    else if upper word = utf8 "BLOCK" then
      match rest with
      | [] => .error syntaxError
      | arg :: rest =>
        match env.parseFloat arg with
        | none => .error notInteger
        | some _ => parseXReadOptions env rest count
    else if upper word = utf8 "STREAMS" then .ok (count, rest)
    else if upper word = utf8 "CLAIM" then
      .error (.error "ERR The CLAIM option is only supported when using the GROUP option")
    else .error syntaxError

/-- The last id of `streamMetadata`, where it finds one, and otherwise that of the last entry. -/
def lastIDFound (snap : Snapshot Bytes) : StreamID :=
  if snap.collection = .ordered && (snap.orderedElements ≠ [] || snap.netRemoves ≠ []) then
    (streamMetadata (some snap)).lastID
  else streamLastID (snapshotToEntries (some snap))

/-- The entries of one stream that `XREAD` gives. -/
def readStream (snap : Snapshot Bytes) (start : ReadFrom) (count : ℕ) : List (StreamID × Bytes) :=
  match start with
  | .lastEntry => (streamEntries snap).getLast?.toList
  | .lastID => entriesAfter (lastIDFound snap) count (streamEntries snap)
  | .after id => entriesAfter id count (streamEntries snap)

/-- The loop over the streams. -/
def readStreams (count : ℕ) (ctx : Context Bytes) :
    List (Bytes × ReadFrom) → List (Bytes × List (StreamID × Bytes))
  | [] => []
  | (key, start) :: rest =>
    match getStreamSnapshot ctx key with
    | .stream snap =>
      match readStream snap start count with
      | [] => readStreams count ctx rest
      | entries => (key, entries) :: readStreams count ctx rest
    | _ => readStreams count ctx rest

def readReply (results : List (Bytes × List (StreamID × Bytes))) : BlockingReply :=
  if results = [] then .nullArray else .streams results

/-- The keys and the ids of the `STREAMS` argument, as many of the ones as of the others. -/
def splitStreams (args : List Bytes) (unbalanced : String) :
    Except BlockingReply (List Bytes × List Bytes) :=
  if args.length < 2 || args.length % 2 ≠ 0 then .error (.error unbalanced)
  else .ok (args.take (args.length / 2), args.drop (args.length / 2))

def handleXReadNonBlocking (env : Env) (args : List Bytes) : Prepared :=
  if args.length < 3 then .error (wrongNumArguments "xread")
  else do
    let (count, remaining) ← parseXReadOptions env args 0
    let (keys, ids) ← splitStreams remaining
      "ERR Unbalanced 'xread' list of streams: for each stream key an ID, '+', or '$' must be specified."
    let starts ← ids.mapM parseReadFrom
    .ok (keys, fun ctx => (readReply (readStreams count ctx (keys.zip starts)), ctx))

structure XReadGroupOptions where
  count : ℕ := 0
  noAck : Bool := false

/-- The options of `XREADGROUP`, up to the streams. -/
def parseXReadGroupOptions :
    List Bytes → XReadGroupOptions → Except BlockingReply (XReadGroupOptions × List Bytes)
  | [], _ => .error syntaxError
  | word :: rest, options =>
    if upper word = utf8 "COUNT" then
      match rest with
      | [] => .error syntaxError
      | arg :: rest =>
        match parseInt64 arg with
        | none => .error notInteger
        | some n =>
          if n < 0 then .error notInteger
          else parseXReadGroupOptions rest { options with count := n.toNat }
    else if upper word = utf8 "BLOCK" || upper word = utf8 "CLAIM" then
      match rest with
      | [] => .error syntaxError
      | _ :: rest => parseXReadGroupOptions rest options
    else if upper word = utf8 "NOACK" then
      parseXReadGroupOptions rest { options with noAck := true }
    else if upper word = utf8 "STREAMS" then .ok (options, rest)
    else .error syntaxError

/-- An id argument of `XREADGROUP`: new entries, or the history after an id. -/
def parseHistory (arg : Bytes) : Except BlockingReply (Option StreamID) :=
  if arg = utf8 ">" then .ok none
  else
    match parseStreamID arg with
    | none => .error invalidID
    | some parsed =>
      if parsed.isSpecial && arg ≠ utf8 "0" && arg ≠ utf8 "0-0" then .error invalidID
      else .ok (some parsed.id)

/-- The metadata of a group: `getGroupMeta`. -/
structure GroupMeta where
  lastDelivered : StreamID
  entriesRead : Int64
  createdAt : Int64

def getGroupMeta (ctx : Context Bytes) (stream group : Bytes) : GroupMeta :=
  match (netAddsOf ctx (groupKey stream group)).lookup (utf8 "__group__") with
  | none => ⟨.zero, 0, 0⟩
  | some element =>
    if element.raw.length < 32 then ⟨.zero, 0, 0⟩
    else
      ⟨decodeStreamElementID (element.raw.take 16), getInt64 ((element.raw.drop 16).take 8),
        getInt64 ((element.raw.drop 24).take 8)⟩

/-- The element of a consumer in its group's key. -/
def consumerField (consumer : Bytes) : Bytes := utf8 "c" ++ 0 :: consumer

/-- `emitConsumerInsert` with `encodeConsumerMeta`. -/
def emitConsumerInsert (stream group consumer : Bytes) (seenTime activeTime : Int64) :
    Context Bytes → Context Bytes :=
  emitKeyedInsert (groupKey stream group) (consumerField consumer)
    (putInt64 seenTime ++ putInt64 activeTime)

/-- The active time of a consumer, zero for a new one. -/
def activeTime (ctx : Context Bytes) (stream group consumer : Bytes) : Int64 :=
  match (netAddsOf ctx (groupKey stream group)).lookup (consumerField consumer) with
  | none => 0
  | some element =>
    if consumer = [] || element.raw.length < 16 then 0
    else getInt64 ((element.raw.drop 8).take 8)

def encodePELEntry (consumer : Bytes) (deliveryTime deliveryCount : Int64) : Bytes :=
  putUint32 consumer.length ++ consumer ++ putInt64 deliveryTime ++ putInt64 deliveryCount

/-- The consumer of `decodePELEntry`. -/
def decodePELConsumer (raw : Bytes) : Bytes :=
  let nameLen := BigEndian.ofBE (raw.take 4).reverse
  if raw.length < 4 || raw.length < 4 + nameLen + 16 then [] else (raw.drop 4).take nameLen

/-- `pelToEntries`, the ids and consumers. -/
def pelToEntries (ctx : Context Bytes) (stream group : Bytes) : List (StreamID × Bytes) :=
  (((netAddsOf ctx (pelKey stream group)).entries.filter fun entry =>
      entry.1.length = 16).map fun entry =>
    (decodeStreamElementID entry.1, decodePELConsumer entry.2.raw)).mergeSort
      fun entry other => !(other.1.compare entry.1 < 0)

/-- New entries for a consumer. -/
def deliverNew (env : Env) (stream group consumer : Bytes) (options : XReadGroupOptions)
    (snap : Snapshot Bytes) (ctx : Context Bytes) : List (StreamID × Bytes) × Context Bytes :=
  let info := getGroupMeta ctx stream group
  let entries := entriesAfter info.lastDelivered options.count (streamEntries snap)
  match entries.getLast? with
  | none => ([], ctx)
  | some last =>
    let read := (if 0 ≤ info.entriesRead then info.entriesRead else 0) + .ofNat entries.length
    let grouped := emitKeyedInsert (groupKey stream group) (utf8 "__group__")
      (encodeGroupMeta last.1 read info.createdAt) ctx
    let seen := emitConsumerInsert stream group consumer env.now env.now grouped
    (entries,
      if options.noAck then seen
      else
        entries.foldl (fun ctx entry =>
          emitKeyedInsert (pelKey stream group) (encodeStreamElementID entry.1)
            (encodePELEntry consumer env.now 1) ctx) seen)

/-- The history of a consumer after an id; a deleted entry comes without fields. -/
def deliverHistory (env : Env) (stream group consumer : Bytes) (count : ℕ) (start : StreamID)
    (snap : Snapshot Bytes) (ctx : Context Bytes) : List (StreamID × Bytes) × Context Bytes :=
  if (ctx.getAnySnapshot (pelKey stream group)).isNone then ([], ctx)
  else
    let mine := (pelToEntries ctx stream group).filter fun entry =>
      entry.2 = consumer && 0 < entry.1.compare start
    let limited := if count = 0 then mine else mine.take count
    (limited.map fun entry =>
        ((streamEntries snap).find? fun candidate => candidate.1 = entry.1).getD (entry.1, []),
      emitConsumerInsert stream group consumer env.now (activeTime ctx stream group consumer) ctx)

/-- The loop of `doXReadGroup`; what a failed read has emitted is taken back. -/
def readGroups (env : Env) (group consumer : Bytes) (options : XReadGroupOptions) :
    List (Bytes × Option StreamID) → Context Bytes →
      Except Bool (List (Bytes × List (StreamID × Bytes)) × Context Bytes)
  | [], ctx => .ok ([], ctx)
  | (stream, start) :: rest, ctx =>
    match getStreamSnapshot ctx stream with
    | .wrongType => .error true
    | .absent => .error false
    | .stream snap =>
      if !groupExists ctx stream group then .error false
      else
        let (entries, ctx) :=
          match start with
          | none => deliverNew env stream group consumer options snap ctx
          | some id => deliverHistory env stream group consumer options.count id snap ctx
        match readGroups env group consumer options rest ctx with
        | .error wrongType => .error wrongType
        | .ok (results, ctx) =>
          .ok (if entries = [] then (results, ctx) else ((stream, entries) :: results, ctx))

/-- The text of an argument in an error message. -/
def argText (arg : Bytes) : String := String.ofList (arg.map fun b => Char.ofNat b.toNat)

/-- The runner of `handleXReadGroupNonBlocking`. -/
def runXReadGroup (env : Env) (group consumer : Bytes) (options : XReadGroupOptions)
    (streams : List (Bytes × Option StreamID)) : Runner :=
  fun ctx =>
    match readGroups env group consumer options streams ctx with
    | .error true => (.wrongType, ctx)
    | .error false =>
      (.error ("NOGROUP No such consumer group '" ++ argText group ++ "' for key name '" ++
        argText ((streams.map Prod.fst).headD []) ++ "'"), ctx)
    | .ok (results, after) => (readReply results, after)

def handleXReadGroupNonBlocking (env : Env) (args : List Bytes) : Prepared :=
  if args.length < 6 then .error (wrongNumArguments "xreadgroup")
  else
    match args with
    | word :: group :: consumer :: rest =>
      if upper word ≠ utf8 "GROUP" then .error syntaxError
      else do
        let (options, remaining) ← parseXReadGroupOptions rest {}
        let (keys, ids) ← splitStreams remaining
          "ERR Unbalanced 'xreadgroup' list of streams: for each stream key an ID or '>' must be specified."
        let starts ← ids.mapM parseHistory
        .ok (keys, runXReadGroup env group consumer options (keys.zip starts))
    | _ => .error (wrongNumArguments "xreadgroup")

/-! ## 5.  The handlers in a script -/

inductive BlockingCommand where
  | blpop
  | brpop
  | blmpop
  | blmove
  | brpoplpush
  | bzpopmin
  | bzpopmax
  | bzmpop
  | xread
  | xreadgroup
  deriving DecidableEq

/-- The variant for transactions. -/
def nonBlocking (env : Env) : BlockingCommand → List Bytes → Prepared
  | .blpop => handleLPopNonBlocking true
  | .brpop => handleLPopNonBlocking false
  | .blmpop => handleBLMPopNonBlocking
  | .blmove => handleBLMoveNonBlocking env
  | .brpoplpush => handleBRPopLPushNonBlocking env
  | .bzpopmin => handleZPopNonBlocking env true
  | .bzpopmax => handleZPopNonBlocking env false
  | .bzmpop => handleBZMPopNonBlocking env
  | .xread => handleXReadNonBlocking env
  | .xreadgroup => handleXReadGroupNonBlocking env

/-- What a handler has written, one after the other, and the context it leaves. -/
abbrev Written := List BlockingReply × Context Bytes

/-- The variant is prepared and its runner called. -/
def runPrepared (prepared : Prepared) (ctx : Context Bytes) : Written :=
  match prepared with
  | .error reply => ([reply], ctx)
  | .ok (_, runner) => ([(runner ctx).1], (runner ctx).2)

/-- The variant is prepared and its runner dropped. -/
def dropPrepared (prepared : Prepared) (ctx : Context Bytes) : Written :=
  match prepared with
  | .error reply => ([reply], ctx)
  | .ok _ => ([], ctx)

/-- `handleBlockingPop` and `handleBlockingZPop` up to the branch for scripts. -/
def checkedFirst (env : Env) (lookup : Context Bytes → Bytes → Lookup) (name : String)
    (args : List Bytes) (ctx : Context Bytes) (rest : Written) : Written :=
  if args.length < 2 then ([wrongNumArguments name], ctx)
  else
    match parseBlockingTimeout env (args.getLastD []) with
    | .error text => ([.error text], ctx)
    | .ok _ =>
      if anyWrongType lookup args.dropLast ctx then ([.wrongType], ctx) else rest

/-- The handlers with `conn.InScript` set. -/
def inScript (env : Env) (cmd : BlockingCommand) (args : List Bytes) (ctx : Context Bytes) :
    Written :=
  match cmd with
  | .blpop =>
    checkedFirst env getListSnapshot "blpop" args ctx
      (dropPrepared (handleLPopNonBlocking true args) ctx)
  | .brpop =>
    checkedFirst env getListSnapshot "brpop" args ctx
      (dropPrepared (handleLPopNonBlocking false args) ctx)
  | .blmpop => dropPrepared (handleBLMPopNonBlocking args) ctx
  | .blmove => dropPrepared (handleBLMoveNonBlocking env args) ctx
  | .brpoplpush => dropPrepared (handleBRPopLPushNonBlocking env args) ctx
  | .bzpopmin =>
    checkedFirst env getZSetSnapshot "bzpopmin" args ctx
      (runPrepared (handleZPopNonBlocking env true args) ctx)
  | .bzpopmax =>
    checkedFirst env getZSetSnapshot "bzpopmax" args ctx
      (runPrepared (handleZPopNonBlocking env false args) ctx)
  | .bzmpop => runPrepared (handleBZMPopNonBlocking env args) ctx
  | .xread => dropPrepared (handleXReadNonBlocking env args) ctx
  | .xreadgroup => dropPrepared (handleXReadGroupNonBlocking env args) ctx

/-- One reply is written, and the reply and the effects are those of the variant. -/
def AsNonBlocking (env : Env) (cmd : BlockingCommand) (args : List Bytes) (ctx : Context Bytes) :
    Prop :=
  (inScript env cmd args ctx).1.length = 1 ∧
    inScript env cmd args ctx = runPrepared (nonBlocking env cmd args) ctx

/-! ## 6.  When they do what the variant does -/

/-- The variant refuses the arguments. -/
def Refused (prepared : Prepared) : Prop := ∃ reply, prepared = .error reply

/-- The first key with something in it is of another type. -/
def firstIsWrongType (lookup : Context Bytes → Bytes → Lookup) (hasData : Snapshot Bytes → Bool)
    (ctx : Context Bytes) : List Bytes → Bool
  | [] => false
  | key :: keys =>
    match lookup ctx key with
    | .wrongType => true
    | .absent => firstIsWrongType lookup hasData ctx keys
    | .found snap => if hasData snap then false else firstIsWrongType lookup hasData ctx keys

def hasElements (snap : Snapshot Bytes) : Bool := snap.orderedElements ≠ []

/-- A sorted set with members. -/
def hasMembers (snap : Snapshot Bytes) : Bool := snap.netAdds.entries ≠ []

/-- The condition for the commands that look at the keys before they turn to the variant. -/
def CheckedAlike (env : Env) (lookup : Context Bytes → Bytes → Lookup)
    (hasData : Snapshot Bytes → Bool) (args : List Bytes) (ctx : Context Bytes) : Prop :=
  args.length < 2 ∨ (∃ timeout, parseBlockingTimeout env (args.getLastD []) = .ok timeout) ∧
    firstIsWrongType lookup hasData ctx args.dropLast = true

/-- The condition under which a command does in a script what its variant does. -/
def Alike (env : Env) (cmd : BlockingCommand) (args : List Bytes) (ctx : Context Bytes) : Prop :=
  match cmd with
  | .blpop => CheckedAlike env getListSnapshot hasElements args ctx
  | .brpop => CheckedAlike env getListSnapshot hasElements args ctx
  | .bzpopmin =>
    CheckedAlike env getZSetSnapshot hasMembers args ctx ∨
      (∃ timeout, parseBlockingTimeout env (args.getLastD []) = .ok timeout) ∧
        anyWrongType getZSetSnapshot args.dropLast ctx = false
  | .bzpopmax =>
    CheckedAlike env getZSetSnapshot hasMembers args ctx ∨
      (∃ timeout, parseBlockingTimeout env (args.getLastD []) = .ok timeout) ∧
        anyWrongType getZSetSnapshot args.dropLast ctx = false
  | .bzmpop => True
  | cmd => Refused (nonBlocking env cmd args)

variable {prepared : Prepared} {loop : List Bytes → Runner}

section Agreement

variable {env : Env} {args : List Bytes} {ctx : Context Bytes}
  {lookup : Context Bytes → Bytes → Lookup} {hasData : Snapshot Bytes → Bool}

/-- The variant writes one reply. -/
theorem runPrepared_length {ctx : Context Bytes} : (runPrepared prepared ctx).1.length = 1 := by
  unfold runPrepared
  split <;> rfl

theorem asNonBlocking_iff {cmd : BlockingCommand} : AsNonBlocking env cmd args ctx ↔
    inScript env cmd args ctx = runPrepared (nonBlocking env cmd args) ctx := by
  refine ⟨And.right, fun h => ⟨?_, h⟩⟩
  rw [h]
  exact runPrepared_length

/-- Dropping the runner is running it only if there is none. -/
theorem dropPrepared_eq_iff {ctx : Context Bytes} :
    dropPrepared prepared ctx = runPrepared prepared ctx ↔ Refused prepared := by
  cases prepared with
  | error reply => exact ⟨fun _ => ⟨reply, rfl⟩, fun _ => rfl⟩
  | ok prepared => simp [dropPrepared, runPrepared, Refused]

theorem anyWrongType_of_first {keys : List Bytes}
    (h : firstIsWrongType lookup hasData ctx keys = true) : anyWrongType lookup keys ctx = true := by
  induction keys with
  | nil => cases h
  | cons key keys ih =>
    simp only [anyWrongType, List.any_cons, Bool.or_eq_true] at ih ⊢
    simp only [firstIsWrongType] at h
    split at h
    · rename_i hl
      exact .inl (by rw [hl])
    · exact .inr (ih h)
    · split at h
      · cases h
      · exact .inr (ih h)

/-- A loop over the keys that stops at a key of another type and at one with data. -/
structure StopsAtFirst (lookup : Context Bytes → Bytes → Lookup) (hasData : Snapshot Bytes → Bool)
    (loop : List Bytes → Runner) : Prop where
  nil : ∀ ctx, loop [] ctx = (.nullArray, ctx)
  wrongType : ∀ {ctx key} keys, lookup ctx key = .wrongType →
    loop (key :: keys) ctx = (.wrongType, ctx)
  absent : ∀ {ctx key} keys, lookup ctx key = .absent → loop (key :: keys) ctx = loop keys ctx
  empty : ∀ {ctx key snap} keys, lookup ctx key = .found snap → hasData snap = false →
    loop (key :: keys) ctx = loop keys ctx
  data : ∀ {ctx key snap} keys, lookup ctx key = .found snap → hasData snap = true →
    (loop (key :: keys) ctx).1 ≠ .wrongType ∧ ∀ text, (loop (key :: keys) ctx).1 ≠ .error text

/-- It replies with the wrong type exactly if the first key that counts is of another type, and it
has no other error. -/
theorem StopsAtFirst.reply (h : StopsAtFirst lookup hasData loop) (keys : List Bytes) :
    if firstIsWrongType lookup hasData ctx keys then loop keys ctx = (.wrongType, ctx)
    else (loop keys ctx).1 ≠ .wrongType ∧ ∀ text, (loop keys ctx).1 ≠ .error text := by
  induction keys with
  | nil =>
    simp only [firstIsWrongType, h.nil]
    exact ⟨nofun, fun _ => nofun⟩
  | cons key keys ih =>
    cases hl : lookup ctx key with
    | absent =>
      rw [h.absent keys hl]
      simpa only [firstIsWrongType, hl] using ih
    | wrongType => simp [firstIsWrongType, hl, h.wrongType keys hl]
    | found snap =>
      cases hd : hasData snap with
      | false =>
        rw [h.empty keys hl hd]
        simpa [firstIsWrongType, hl, hd] using ih
      | true =>
        simp only [firstIsWrongType, hl, hd, if_true]
        exact h.data keys hl hd

theorem inPopOrder_eq_nil_iff {α : Type} {left : Bool} {elements : List α} :
    inPopOrder left elements = [] ↔ elements = [] := by
  cases left <;> simp [inPopOrder]

theorem hasElements_iff (left : Bool) (snap : Snapshot Bytes) :
    hasElements snap = true ↔ inPopOrder left snap.orderedElements ≠ [] := by
  simp [hasElements, inPopOrder_eq_nil_iff]

theorem hasMembers_iff (env : Env) (popMin : Bool) (snap : Snapshot Bytes) :
    hasMembers snap = true ↔ inPopOrder popMin (zsetSortedMembers env snap) ≠ [] := by
  have hso : zsetSortedMembers env snap = [] ↔ snap.netAdds.entries = [] := by
    rw [← List.length_eq_zero_iff, zsetSortedMembers, List.length_mergeSort, List.length_map,
      List.length_eq_zero_iff]
  simp [hasMembers, inPopOrder_eq_nil_iff, hso]

theorem popFirst_stopsAtFirst (left : Bool) :
    StopsAtFirst getListSnapshot hasElements (popFirst left) where
  nil _ := rfl
  wrongType _ hl := by simp only [popFirst, hl]
  absent _ hl := by simp only [popFirst, hl]
  empty {_ _ snap} _ hl hemp := by
    have hnil : inPopOrder left snap.orderedElements = [] := by
      rw [← not_ne_iff, ← hasElements_iff, hemp]
      exact nofun
    simp only [popFirst, hl, hnil]
  data {_ _ snap} _ hl hd := by
    obtain ⟨element, rest, hcons⟩ := List.exists_cons_of_ne_nil ((hasElements_iff left snap).mp hd)
    simp only [popFirst, hl, hcons]
    exact ⟨nofun, fun _ => nofun⟩

theorem zpopFirst_stopsAtFirst (popMin : Bool) :
    StopsAtFirst getZSetSnapshot hasMembers (zpopFirst env popMin) where
  nil _ := rfl
  wrongType _ hl := by simp only [zpopFirst, hl]
  absent _ hl := by simp only [zpopFirst, hl]
  empty {_ _ snap} _ hl hemp := by
    have hnil : inPopOrder popMin (zsetSortedMembers env snap) = [] := by
      rw [← not_ne_iff, ← hasMembers_iff, hemp]
      exact nofun
    simp only [zpopFirst, hl, hnil]
  data {_ _ snap} _ hl hd := by
    obtain ⟨entry, rest, hcons⟩ :=
      List.exists_cons_of_ne_nil ((hasMembers_iff env popMin snap).mp hd)
    simp only [zpopFirst, hl, hcons]
    exact ⟨nofun, fun _ => nofun⟩

/-- The commands that look at the timeout and at all keys first agree with the variant on an error
for the arguments, and on a first key of another type; otherwise the rest has to. -/
theorem checkedFirst_eq_iff {name : String} {rest : Written}
    (hloop : StopsAtFirst lookup hasData loop)
    (hprep : prepared = if args.length < 2 then .error (wrongNumArguments name)
      else .ok (args.dropLast, loop args.dropLast)) :
    checkedFirst env lookup name args ctx rest = runPrepared prepared ctx ↔
      CheckedAlike env lookup hasData args ctx ∨
        (2 ≤ args.length ∧ ∃ timeout, parseBlockingTimeout env (args.getLastD []) = .ok timeout) ∧
          anyWrongType lookup args.dropLast ctx = false ∧ rest = runPrepared prepared ctx := by
  unfold checkedFirst CheckedAlike
  by_cases ha : args.length < 2
  · simp [hprep, runPrepared, ha]
  · rw [if_neg ha] at hprep ⊢
    have hr : if firstIsWrongType lookup hasData ctx args.dropLast then
        loop args.dropLast ctx = (.wrongType, ctx)
      else (loop args.dropLast ctx).1 ≠ .wrongType ∧
        ∀ text, (loop args.dropLast ctx).1 ≠ .error text := hloop.reply args.dropLast
    have hrun : runPrepared prepared ctx =
        ([(loop args.dropLast ctx).1], (loop args.dropLast ctx).2) := by rw [hprep, runPrepared]
    simp only [ha, false_or, Nat.le_of_not_lt ha, true_and]
    split
    · rename_i text htimeout
      -- the variant has no error for a timeout
      have hne : [BlockingReply.error text] ≠ (runPrepared prepared ctx).1 := by
        rw [hrun]
        split at hr
        · rw [hr]
          exact nofun
        · exact fun heq => hr.2 text (List.head_eq_of_cons_eq heq).symm
      simp only [htimeout, reduceCtorEq, exists_false, false_and, or_self, iff_false]
      exact fun heq => hne (congrArg Prod.fst heq)
    · rename_i timeout htimeout
      have hex : ∃ other, Except.ok timeout = (Except.ok other : Except String ℚ) := ⟨_, rfl⟩
      simp only [htimeout, hex, true_and]
      split
      · rename_i hwr
        rw [hrun]
        simp only [hwr, Bool.true_eq_false, false_and, or_false]
        constructor
        · intro heq
          by_contra hf
          rw [if_neg hf] at hr
          exact hr.1 (List.head_eq_of_cons_eq (congrArg Prod.fst heq)).symm
        · intro hf
          rw [if_pos hf] at hr
          rw [hr]
      · rename_i hright
        have hf : firstIsWrongType lookup hasData ctx args.dropLast ≠ true :=
          fun h => hright (anyWrongType_of_first h)
        simp [Bool.eq_false_iff.mpr hright, Bool.eq_false_iff.mpr hf]

end Agreement

/-- A list `k` with one element. -/
def withList : Context Bytes :=
  (Context.emit (utf8 "k") (.data {
      op := .insert, collection := .ordered, id := [1], value := some (utf8 "a") })
    ⟨fun _ => none, []⟩).emit (utf8 "k") (.metadata { typeTag := .list })

/-- The numbers that the samples need. -/
def sampleEnv : Env where
  parseFloat arg := if arg = utf8 "0" then some (.finite 0) else none
  parseInt _ := none
  parseUint _ := none
  score _ := 0
  newID := [2]
  now := 0

end Swytch.Redis.Blocking
