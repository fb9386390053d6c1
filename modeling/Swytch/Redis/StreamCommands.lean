import Swytch.Redis.KeyCommands

/-!
# The commands that change a stream

`XADD` with its trimming and its producers, `XDEL`, `XDELEX`, `XACKDEL`, `XTRIM`, `XSETID` and
`XGROUP CREATE`.  The handlers are modelled after their arguments are parsed, except for the ids of
`XADD` and `XGROUP CREATE`, which their runners parse.

Where a loop of the source decides entry by entry what to remove and removes it at once, the
decisions come first here, as a selection, and the removes after it: what the decisions read is not
changed by the removes.
-/

namespace Swytch.Redis.StreamCommands

open Sql (Bytes utf8)

/-! ## 1.  Trimming -/

inductive RefMode where
  | keepRef
  | delRef
  | acked
  deriving DecidableEq

structure TrimOptions where
  maxLen : Int64 := 0
  minID : Option StreamID := none
  approx : Bool := false
  limit : Int64 := 0
  nodeSize : Int64 := 0
  refMode : RefMode := .keepRef
  hasMaxLen : Bool := false
  hasExplicitLimit : Bool := false
  deriving DecidableEq

namespace TrimOptions

/-- How many entries may be trimmed at most. -/
def effectiveLimit (opts : TrimOptions) (size : Int64) : Int64 :=
  if opts.limit = 0 then
    if opts.approx && 0 < opts.nodeSize then 100 * opts.nodeSize else size
  else opts.limit

/-- The length to trim to, rounded up to whole nodes. -/
def effectiveMaxLen (opts : TrimOptions) : Int64 :=
  if opts.approx && 0 < opts.nodeSize then
    (opts.maxLen + opts.nodeSize - 1) / opts.nodeSize * opts.nodeSize
  else opts.maxLen

/-- How many entries `MAXLEN` trims, when `trimCount` of them are trimmed already. -/
def toTrim (opts : TrimOptions) (size limit trimCount : Int64) : Int64 :=
  let excess := size - trimCount - opts.effectiveMaxLen
  if 0 < excess then
    let allowed := if limit - trimCount < excess then limit - trimCount else excess
    if opts.approx && opts.hasExplicitLimit && 0 < opts.nodeSize then
      allowed / opts.nodeSize * opts.nodeSize
    else allowed
  else excess

/-- The entry is below `MINID`. -/
def isBelow (opts : TrimOptions) (id : StreamID) : Bool :=
  match opts.minID with
  | none => false
  | some minID => id.compare minID < 0

end TrimOptions

/-- The loop of `MINID` over the entries. -/
def selectMinID (canTrim : StreamID → Bool) (minID : StreamID) (limit : Int64) :
    Int64 → List StreamID → List StreamID
  | _, [] => []
  | count, id :: entries =>
    if limit ≤ count || 0 ≤ id.compare minID then []
    else if canTrim id then id :: selectMinID canTrim minID limit (count + 1) entries
    else selectMinID canTrim minID limit count entries

/-- The loop of `MAXLEN` over the entries, without those that are to be skipped. -/
def selectMaxLen (canTrim skip : StreamID → Bool) (toTrim : Int64) :
    Int64 → List StreamID → List StreamID
  | _, [] => []
  | count, id :: entries =>
    if toTrim ≤ count then []
    else if canTrim id && !skip id then
      id :: selectMaxLen canTrim skip toTrim (count + 1) entries
    else selectMaxLen canTrim skip toTrim count entries

def belowMinID (opts : TrimOptions) (canTrim : StreamID → Bool) (entries : List StreamID) :
    List StreamID :=
  match opts.minID with
  | none => []
  | some minID =>
    selectMinID canTrim minID (opts.effectiveLimit (.ofNat entries.length)) 0 entries

/-- The entries that `trimEntries` removes, in order. -/
def trimSelection (opts : TrimOptions) (canTrim : StreamID → Bool) (entries : List StreamID) :
    List StreamID :=
  let below := belowMinID opts canTrim entries
  let size := Int64.ofNat entries.length
  let toTrim := opts.toTrim size (opts.effectiveLimit size) (.ofNat below.length)
  below ++ if opts.hasMaxLen then selectMaxLen canTrim opts.isBelow toTrim 0 entries else []

/-- The entries that `StreamValue.Trim` removes.  It goes through the index, which is in the order
of the ids, and `MAXLEN` begins after as many entries as `MINID` has trimmed. -/
def valueTrimSelection (opts : TrimOptions) (canTrim : StreamID → Bool)
    (entries : List StreamID) : List StreamID :=
  let index := entries.dedup.insertionSort (· ≤ ·)
  let below := belowMinID opts canTrim index
  let size := Int64.ofNat index.length
  let toTrim := opts.toTrim size (opts.effectiveLimit size) (.ofNat below.length)
  below ++
    if opts.hasMaxLen then
      selectMaxLen canTrim (fun _ => false) toTrim 0 (index.drop below.length)
    else []

/-- The entry is delivered to every group and pending in none. -/
def ackedEverywhere (ctx : Context Bytes) (key : Bytes) (id : StreamID) : Bool :=
  (listGroupNames ctx key).all fun group =>
    !(0 < id.compare (lastDelivered ctx key group)) && !isPending ctx key group id

/-- `canTrim` of `trimEntries`. -/
def canTrim (ctx : Context Bytes) (key : Bytes) (mode : RefMode) (id : StreamID) : Bool :=
  mode ≠ .acked || ackedEverywhere ctx key id

/-- The entry is pending in the groups that `populateStreamGroups` builds: it leaves out the
entries whose value is shorter than 24 bytes. -/
def isPopulated (ctx : Context Bytes) (key group : Bytes) (id : StreamID) : Bool :=
  match (netAddsOf ctx (pelKey key group)).lookup (encodeStreamElementID id) with
  | none => false
  | some element => 24 ≤ element.raw.length

/-- `canTrim` of `StreamValue.Trim`. -/
def valueCanTrim (ctx : Context Bytes) (key : Bytes) (mode : RefMode) (id : StreamID) : Bool :=
  mode ≠ .acked || (listGroupNames ctx key).all fun group =>
    !(0 < id.compare (lastDelivered ctx key group)) && !isPopulated ctx key group id

/-- The entry leaves the pending entries lists it is in. -/
def dropReferences (key : Bytes) (id : StreamID) (ctx : Context Bytes) : Context Bytes :=
  (listGroupNames ctx key).foldl
    (fun ctx group => if isPending ctx key group id then emitPELRemove key group id ctx else ctx)
    ctx

/-- The entry is removed, and with `DELREF` its references too. -/
def removeEntry (key : Bytes) (mode : RefMode) (ctx : Context Bytes) (id : StreamID) :
    Context Bytes :=
  let ctx := emitStreamRemove key id ctx
  if mode = .delRef then dropReferences key id ctx else ctx

/-! ## 2.  The commands -/

inductive StreamReply where
  | error (text : String)
  | wrongType
  | null
  | ok
  | id (id : StreamID)
  | integer (n : ℤ)
  | integers (ns : List ℤ)
  deriving DecidableEq

/-- An id that the stream has taken over: an entry's or the last id that `XSETID` sets. -/
inductive Accepted where
  | added (id : StreamID)
  | set (id : StreamID)
  deriving DecidableEq

def Accepted.id : Accepted → StreamID
  | .added id => id
  | .set id => id

/-- The reply, the context after the command, and what was accepted. -/
structure Outcome where
  reply : StreamReply
  ctx : Context Bytes
  accepted : Option Accepted := none

/-- `XADD` after its arguments are parsed. -/
structure XAddArgs where
  noMkStream : Bool := false
  trim : TrimOptions := {}
  idmp : Option (Bytes × Bytes) := none
  idStr : Bytes
  fields : List Bytes
  deriving DecidableEq

/-- The text of the error for an id that is not greater. -/
def tooSmall : String :=
  "ERR The ID specified in XADD is equal or smaller than the target stream top item"

/-- The text of the error for an id that is none. -/
def invalidID : String := "ERR Invalid stream ID specified as stream command argument"

/-- The id that `XADD` generates or parses. -/
def chooseID (snap : Option (Snapshot Bytes)) (now : Int64) (idStr : Bytes) :
    Except String StreamID :=
  if idStr = utf8 "*" then
    let id := generateStreamID snap now.toUInt64
    if id.isZero then .error tooSmall else .ok id
  else
    match parseStreamID idStr with
    | none => .error invalidID
    | some parsed =>
      if parsed.isSpecial then
        if 2 < idStr.length && idStr.drop (idStr.length - 2) = utf8 "-*" then
          match generateStreamIDWithMs snap parsed.id.ms with
          | none => .error tooSmall
          | some id => .ok id
        else .error invalidID
      else .ok parsed.id

/-- The number in eight bytes of a value, from an offset on. -/
def int64At (raw : Bytes) (offset : ℕ) : Int64 := getInt64 ((raw.drop offset).take 8)

/-- `lookupProducerSeqWithConfig`. -/
def lookupProducerSeq (ctx : Context Bytes) (key producer seq : Bytes)
    (gen duration now : Int64) : Option StreamID :=
  match (netAddsOf ctx (producerKey key producer)).lookup seq with
  | none => none
  | some element =>
    if element.raw.length < 16 then none
    else if 32 ≤ element.raw.length && int64At element.raw 24 ≠ gen then none
    else if 24 ≤ element.raw.length && 0 < duration &&
        duration * 1000 < now - int64At element.raw 16 then none
    else some (decodeStreamElementID (element.raw.take 16))

/-- The entries of the current generation, other than the new one, that may be evicted. -/
def evictable (ctx : Context Bytes) (pKey seq : Bytes) (gen : Int64) : List (Bytes × StreamID) :=
  (netAddsOf ctx pKey).entries.filterMap fun entry =>
    let raw := entry.2.raw
    if entry.1 = seq then none
    else if 32 ≤ raw.length then
      if int64At raw 24 ≠ gen then none else some (entry.1, decodeStreamElementID (raw.take 16))
    else if gen ≠ 0 then none
    else some (entry.1, if 16 ≤ raw.length then decodeStreamElementID (raw.take 16) else .zero)

/-- The eviction of `emitProducerSeqWithConfig`: the oldest entries go so that the new one fits. -/
def evict (pKey seq : Bytes) (gen maxsize : Int64) (ctx : Context Bytes) : Context Bytes :=
  let entries := evictable ctx pKey seq gen
  if 0 < maxsize && maxsize ≤ .ofNat entries.length then
    ((entries.insertionSort fun a b => a.2 ≤ b.2).take (entries.length - maxsize.toNatClampNeg + 1)).foldl
      (fun ctx entry => emitKeyedRemove pKey entry.1 ctx) ctx
  else ctx

/-- `emitProducerSeqWithConfig`. -/
def emitProducerSeq (key producer seq : Bytes) (id : StreamID) (gen maxsize now : Int64)
    (ctx : Context Bytes) : Context Bytes :=
  let raw := encodeStreamElementID id ++ putInt64 now ++ putInt64 gen
  let pKey := producerKey key producer
  emitKeyedInsert (producerKey key registryName) producer [1]
    (evict pKey seq gen maxsize (emitKeyedInsert pKey seq raw ctx))

/-- The configuration of the producers that `XADD` reads at its beginning. -/
structure IdmpConfig where
  gen : Int64
  duration : Int64
  maxsize : Int64
  deriving DecidableEq

/-- `getIdmpGeneration` and `getStreamConfig`; without a configured duration nothing expires. -/
def readIdmpConfig (ctx : Context Bytes) (key : Bytes) : IdmpConfig where
  gen := getConfigCounter ctx key (utf8 "idmp-generation") 0
  duration := getConfigCounter ctx key (utf8 "idmp-duration") 0
  maxsize := getConfigCounter ctx key (utf8 "idmp-maxsize") 100

/-- The entry is already recorded for the producer. -/
def findDuplicate (ctx : Context Bytes) (key : Bytes) (idmp : Option (Bytes × Bytes))
    (now : Int64) : Option StreamID :=
  match idmp with
  | none => none
  | some (producer, iid) =>
    let config := readIdmpConfig ctx key
    lookupProducerSeq ctx key producer iid config.gen config.duration now

/-- The producer's record of a new entry. -/
def recordProducer (key : Bytes) (idmp : Option (Bytes × Bytes)) (id : StreamID) (now : Int64)
    (config : IdmpConfig) (ctx : Context Bytes) : Context Bytes :=
  match idmp with
  | none => ctx
  | some (producer, iid) =>
    incrementCounter key (utf8 "iids-added")
      (emitProducerSeq key producer iid id config.gen config.maxsize now ctx)

/-- What `XADD` emits before it trims. -/
def insertEntry (key : Bytes) (args : XAddArgs) (now : Int64) (snap : Option (Snapshot Bytes))
    (id : StreamID) (ctx : Context Bytes) : Context Bytes :=
  let inserted := incrementStreamEntriesAdded key (emitStreamInsert key id args.fields (ctx.pin key))
  let tagged := if snap.isNone then emitStreamTypeTag key inserted else inserted
  recordProducer key args.idmp id now (readIdmpConfig ctx key) tagged

/-- The part of `XADD` that emits. -/
def addEntry (key : Bytes) (args : XAddArgs) (now : Int64) (snap : Option (Snapshot Bytes))
    (id : StreamID) (ctx : Context Bytes) : Context Bytes :=
  let ctx := insertEntry key args now snap id ctx
  if args.trim.hasMaxLen || args.trim.minID.isSome then
    (trimSelection args.trim (canTrim ctx key args.trim.refMode)
      (snapshotToEntries snap ++ [id])).foldl (removeEntry key args.trim.refMode) ctx
  else ctx

def handleXAdd (key : Bytes) (args : XAddArgs) (now : Int64) (ctx : Context Bytes) : Outcome :=
  match getStreamSnapshot ctx key with
  | .wrongType => ⟨.wrongType, ctx, none⟩
  | found =>
    let snap := found.snap
    if args.noMkStream && snap.isNone then ⟨.null, ctx, none⟩
    else
      match if snap.isSome then findDuplicate ctx key args.idmp now else none with
      | some existing =>
        ⟨.id existing, incrementCounter key (utf8 "iids-duplicates") ctx, none⟩
      | none =>
        match chooseID snap now args.idStr with
        | .error text => ⟨.error text, ctx, none⟩
        | .ok id =>
          if id.compare (lastIDOf snap) ≤ 0 then ⟨.error tooSmall, ctx, none⟩
          else if id.isZero then
            ⟨.error "ERR The ID specified in XADD must be greater than 0-0", ctx, none⟩
          else ⟨.id id, addEntry key args now snap id ctx, some (.added id)⟩

/-- The runner of `handleXDel`: each entry is removed twice, the second time for the tombstone. -/
def handleXDel (key : Bytes) (ids : List StreamID) (ctx : Context Bytes) : Outcome :=
  match getStreamSnapshot ctx key with
  | .absent => ⟨.integer 0, ctx, none⟩
  | .wrongType => ⟨.wrongType, ctx, none⟩
  | .stream snap =>
    let toDelete := ids.filter (· ∈ snapshotToEntries (some snap))
    if toDelete = [] then ⟨.integer 0, ctx, none⟩
    else
      ⟨.integer toDelete.length,
        (toDelete.flatMap fun id => [id, id]).foldl (fun ctx id => emitStreamRemove key id ctx)
          (ctx.emit key .noop), none⟩

/-- The entries that `XDELEX` deletes. -/
def delExSelection (key : Bytes) (mode : RefMode) (ids : List StreamID) (ctx : Context Bytes)
    (snap : Option (Snapshot Bytes)) : List StreamID :=
  ids.filter fun id => id ∈ snapshotToEntries snap && canTrim ctx key mode id

def handleXDelEx (key : Bytes) (mode : RefMode) (ids : List StreamID) (ctx : Context Bytes) :
    Outcome :=
  match getStreamSnapshot ctx key with
  | .absent => ⟨.integers (ids.map fun _ => -1), ctx, none⟩
  | .wrongType => ⟨.wrongType, ctx, none⟩
  | .stream snap =>
    ⟨.integers (ids.map fun id =>
        if id ∉ snapshotToEntries (some snap) then -1
        else if canTrim ctx key mode id then 1 else 2),
      (delExSelection key mode ids ctx (some snap)).foldl (removeEntry key mode)
        (ctx.emit key .noop), none⟩

/-- No other group has the entry pending. -/
def ackedByOthers (ctx : Context Bytes) (key group : Bytes) (id : StreamID) : Bool :=
  (listGroupNames ctx key).all fun other => other = group || !isPending ctx key other id

/-- The entries that `XACKDEL` deletes from the stream: those pending in the group, with `ACKED`
those that no other group waits for. -/
def ackDelSelection (key group : Bytes) (mode : RefMode) (ids : List StreamID)
    (ctx : Context Bytes) : List StreamID :=
  ids.filter fun id =>
    isPending ctx key group id && (mode ≠ .acked || ackedByOthers ctx key group id)

/-- The references that `XACKDEL` drops for an entry that is pending in the group. -/
def acknowledge (key group : Bytes) (mode : RefMode) (ctx : Context Bytes) (id : StreamID) :
    Context Bytes :=
  let ctx := emitPELRemove key group id ctx
  if mode = .delRef then
    ((listGroupNames ctx key).filter (· ≠ group)).foldl
      (fun ctx other => emitPELRemove key other id ctx) ctx
  else ctx

/-- The runner of `handleXAckDel`.  The source acknowledges and deletes entry by entry; the lists
it reads for `ACKED` are not changed by it. -/
def handleXAckDel (key group : Bytes) (mode : RefMode) (ids : List StreamID)
    (ctx : Context Bytes) : Outcome :=
  match getStreamSnapshot ctx key with
  | .absent => ⟨.integers (ids.map fun _ => -1), ctx, none⟩
  | .wrongType => ⟨.wrongType, ctx, none⟩
  | .stream _ =>
    if !groupExists ctx key group then ⟨.integers (ids.map fun _ => -1), ctx, none⟩
    else
      let deleted := ackDelSelection key group mode ids ctx
      let acked := (ids.filter (isPending ctx key group)).foldl (acknowledge key group mode) ctx
      ⟨.integers (ids.map fun id =>
          if !isPending ctx key group id then -1
          else if mode ≠ .acked || ackedByOthers ctx key group id then 1 else 2),
        deleted.foldl (fun ctx id => emitStreamRemove key id ctx) acked, none⟩

/-- The entries that `XTRIM` removes, in the order of the stream. -/
def xTrimSelection (key : Bytes) (opts : TrimOptions) (ctx : Context Bytes)
    (snap : Option (Snapshot Bytes)) : List StreamID :=
  let entries := snapshotToEntries snap
  let trimmed := valueTrimSelection opts (valueCanTrim ctx key opts.refMode) entries
  entries.filter (· ∈ trimmed)

def handleXTrim (key : Bytes) (opts : TrimOptions) (ctx : Context Bytes) : Outcome :=
  match getStreamSnapshot ctx key with
  | .absent => ⟨.integer 0, ctx, none⟩
  | .wrongType => ⟨.wrongType, ctx, none⟩
  | .stream snap =>
    let trimmed := xTrimSelection key opts ctx (some snap)
    let removed := trimmed.foldl (fun ctx id => emitStreamRemove key id ctx) (ctx.emit key .noop)
    ⟨.integer (valueTrimSelection opts (valueCanTrim ctx key opts.refMode)
        (snapshotToEntries (some snap))).length,
      if opts.refMode = .delRef then
        trimmed.foldl (fun ctx id => dropReferences key id ctx) removed
      else removed, none⟩

/-- An entry that is inserted and removed at once, and once more for its tombstone. -/
def emitSentinel (key : Bytes) (id : StreamID) (ctx : Context Bytes) : Context Bytes :=
  emitStreamRemove key id (emitStreamRemove key id (emitStreamInsert key id [] ctx))

/-- A sentinel for an id that is greater than the stream's. -/
def raise (key : Bytes) (id current : StreamID) (ctx : Context Bytes) : Context Bytes :=
  if 0 < id.compare current then emitSentinel key id ctx else ctx

/-- The effects of `XSETID` on the stream itself. -/
def raiseIDs (key : Bytes) (lastID : StreamID) (maxDeletedID : Option StreamID)
    (snap : Snapshot Bytes) (ctx : Context Bytes) : Context Bytes :=
  let raised := raise key lastID (lastIDOf (some snap)) (ctx.pin key)
  match maxDeletedID with
  | none => raised
  | some id => raise key id (streamMetadata (some snap)).maxDeletedID raised

/-- The effects of `XSETID`. -/
def setLastID (key : Bytes) (lastID : StreamID) (entriesAdded : Option Int64)
    (maxDeletedID : Option StreamID) (snap : Snapshot Bytes) (ctx : Context Bytes) :
    Context Bytes :=
  let raised := raiseIDs key lastID maxDeletedID snap ctx
  match entriesAdded with
  | none => raised
  | some n => emitCfgSet key (utf8 "entries-added") n raised

def handleXSetId (key : Bytes) (lastID : StreamID) (entriesAdded : Option Int64)
    (maxDeletedID : Option StreamID) (ctx : Context Bytes) : Outcome :=
  match getStreamSnapshot ctx key with
  | .absent => ⟨.error "ERR no such key", ctx, none⟩
  | .wrongType => ⟨.wrongType, ctx, none⟩
  | .stream snap =>
    let entries := snapshotToEntries (some snap)
    if lastID.compare (streamMetadata (some snap)).maxDeletedID < 0 then
      ⟨.error "ERR The ID specified in XSETID is smaller than current max_deleted_entry_id",
        ctx, none⟩
    else if maxDeletedID.any fun id => 0 < id.compare lastID then
      ⟨.error "ERR The ID specified in XSETID is smaller than the provided max_deleted_entry_id",
        ctx, none⟩
    else if entries ≠ [] ∧ lastID.compare (streamLastID entries) < 0 then
      ⟨.error "ERR The ID specified in XSETID is smaller than the target stream top item",
        ctx, none⟩
    else if entries ≠ [] ∧ (entriesAdded.any fun n => n < .ofNat entries.length) = true then
      ⟨.error "ERR The entries_added specified in XSETID is smaller than the target stream length",
        ctx, none⟩
    else
      ⟨.ok, setLastID key lastID entriesAdded maxDeletedID snap ctx, some (.set lastID)⟩

/-- The id from which a new group delivers. -/
def startID (snap : Option (Snapshot Bytes)) (idStr : Bytes) : Except String StreamID :=
  if idStr = utf8 "$" then .ok (streamMetadata snap).lastID
  else if idStr = utf8 "0" || idStr = utf8 "0-0" then .ok .zero
  else
    match parseStreamID idStr with
    | none => .error invalidID
    | some parsed => if parsed.isSpecial then .error invalidID else .ok parsed.id

def encodeGroupMeta (id : StreamID) (entriesRead createdAt : Int64) : Bytes :=
  encodeStreamElementID id ++ putInt64 entriesRead ++ putInt64 createdAt

/-- The empty stream that `MKSTREAM` creates: its tag, an element without id that lifts a deletion,
and the counter. -/
def makeStream (key : Bytes) (ctx : Context Bytes) : Context Bytes :=
  emitCfgSet key (utf8 "entries-added") 0
    ((emitStreamTypeTag key ctx).emit key (.data { op := .insert, collection := .ordered }))

/-- `ENTRIESREAD` is capped by what was added to a stream that exists. -/
def capEntriesRead (ctx : Context Bytes) (key : Bytes) (snap : Option (Snapshot Bytes))
    (entriesRead : Int64) : Int64 :=
  match snap with
  | none => entriesRead
  | some snap =>
    if entriesRead < 0 then entriesRead
    else
      let counted := getConfigCounter ctx key (utf8 "entries-added") (-1)
      let added := if 0 ≤ counted then counted else .ofNat snap.orderedElements.length
      if added < entriesRead then added else entriesRead

def handleXGroupCreate (key group idStr : Bytes) (mkStream : Bool) (entriesRead now : Int64)
    (ctx : Context Bytes) : Outcome :=
  match getStreamSnapshot ctx key with
  | .wrongType => ⟨.wrongType, ctx, none⟩
  | found =>
    let snap := found.snap
    match startID snap idStr with
    | .error text => ⟨.error text, ctx, none⟩
    | .ok id =>
      if snap.isNone && !mkStream then
        ⟨.error "ERR The XGROUP subcommand requires the key to exist. Note that for CREATE you may want to use the MKSTREAM option to create an empty stream automatically.",
          ctx, none⟩
      else
        let made := if snap.isNone then makeStream key ctx else ctx
        if groupExists made key group then
          ⟨.error "BUSYGROUP Consumer Group name already exists", made, none⟩
        else
          let read := capEntriesRead made key snap entriesRead
          ⟨.ok,
            emitKeyedInsert (groupKey key registryName) group [1]
              (emitKeyedInsert (groupKey key group) (utf8 "__group__")
                (encodeGroupMeta id read now) made), none⟩

end Swytch.Redis.StreamCommands
