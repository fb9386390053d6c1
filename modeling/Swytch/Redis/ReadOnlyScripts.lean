import Swytch.Redis.Engine
import Swytch.Redis.KeyChecks
import Swytch.Redis.Registry

/-!
# Read-only scripts

`EVAL_RO`, `EVALSHA_RO` and `FCALL_RO` run a script whose calls are refused unless their command is
in `readOnlyCommands`.  The table goes by the command alone, and two of its commands write for
some arguments: `SORT` with `STORE`, and `CONFIG SET` of one of the two safety policies.  These and
`SORT_RO`, which refuses `STORE`, are modelled here as their handlers are.  The handlers of the
other commands of the table only read snapshots; they are parameters, of a type that has no way to
emit (`Reader`).

A called command goes through the dispatcher like any other.  What it emits is in the log: each
effect is a write of its key.

The settings that `CONFIG SET` changes in memory are left out, and so is a flush of the policies
that fails.
-/

namespace Swytch.Redis.ReadOnly

open List
open Sql (Bytes utf8)

/-! ## 1.  Handlers that only read -/

/-- What a handler does that reads keys and replies. -/
inductive Reader where
  | done (reply : Reply)
  | read (key : Bytes) (next : Option Bytes → Reader)

/-- The runner of such a handler. -/
def Reader.runner : Reader → Runner
  | .done reply => .done reply
  | .read key next => .read key fun value => (next value).runner

/-- A `ConnHandler` that changes the session or only reads. -/
inductive ReadConn where
  | session (run : Users → Session → List Bytes → Reply × Session)
  | data (run : Bool → List Bytes → Reader)

/-- What such a handler returns for the arguments. -/
abbrev ReadPrepared := Except Reply (List Bytes × Reader)

/-- A registered command whose handlers only read. -/
structure ReadEntry where
  connHandler : Option ReadConn
  handler : Option (List Bytes → ReadPrepared)
  txnPrepare : Option (List Bytes → ReadPrepared)
  keys : Option (List Bytes → List Bytes)
  noAuth : Bool
  noQueue : Bool
  pubSub : Bool
  live : (connHandler.isSome || handler.isSome) = true

def ReadConn.handler : ReadConn → ConnHandler
  | .session run => .session run
  | .data run => .data fun inScript args => (run inScript args).runner

/-- The `Handler` or `TxnPrepare` of the entry. -/
def ReadPrepared.prepared (prepared : ReadPrepared) : Prepared :=
  prepared.map fun accepted => (accepted.1, accepted.2.runner)

def ReadEntry.entry (entry : ReadEntry) : Entry where
  connHandler := entry.connHandler.map ReadConn.handler
  handler := entry.handler.map fun prepare args => (prepare args).prepared
  txnPrepare := entry.txnPrepare.map fun prepare args => (prepare args).prepared
  keys := entry.keys
  write := false
  noAuth := entry.noAuth
  noQueue := entry.noQueue
  pubSub := entry.pubSub
  live := by
    rw [Option.isSome_map, Option.isSome_map]
    exact entry.live

/-! ## 2.  Snapshots and effects in a runner -/

/-- How the reduced state of a key is kept in the store. -/
structure Coding where
  encode : Snapshot Bytes → Bytes
  decode : Bytes → Snapshot Bytes

def Coding.getSnapshot (coding : Coding) (key : Bytes) (next : Option (Snapshot Bytes) → Runner) :
    Runner :=
  .read key fun value => next (value.map coding.decode)

def Coding.emit (coding : Coding) (key : Bytes) (effect : Effect Bytes) (next : Runner) : Runner :=
  .read key fun value =>
    .write key ((effect.apply (value.map coding.decode)).map coding.encode) next

def Coding.emitAll (coding : Coding) (effects : List (Bytes × Effect Bytes)) (next : Runner) :
    Runner :=
  effects.foldr (fun effect next => coding.emit effect.1 effect.2 next) next

def deleteEffect : Effect Bytes := .data { op := .remove, collection := .scalar }

def errorReply (text : Bytes) : Reply := .error (.handler text)

/-- `WriteWrongType`. -/
def wrongType : Reply :=
  errorReply (utf8 "WRONGTYPE Operation against a key holding the wrong kind of value")

/-! ## 3.  `SORT` -/

structure SortOptions where
  byPattern : Bytes := []
  getPatterns : List Bytes := []
  limit : Bool := false
  offset : ℤ := 0
  count : ℤ := -1
  desc : Bool := false
  alpha : Bool := false
  store : Bytes := []
  noSort : Bool := false

structure SortItem (W : Type) where
  element : Bytes
  weight : W
  strWeight : Bytes

/-- What the two commands use from outside: the numbers that weigh elements, the stable sort of
the standard library, the ids of new list elements, JSON, and the engine's safety modes. -/
structure Env (W : Type) where
  coding : Coding
  parseFloat64 : Bytes → Option W
  zero : W
  less : W → W → Bool
  sliceStable : (SortItem W → SortItem W → Bool) → List (SortItem W) → List (SortItem W)
  elementId : ℕ → Bytes
  parseSafetyMode : Bytes → Except Bytes Unit
  safetyConfigGet : Bytes → Option (Snapshot Bytes) → Except Bytes Bytes
  validUTF8 : Bytes → Bool
  unmarshal : Bytes → Option (List (Bytes × Bytes))
  quote : Bytes → Bytes
  setting : Bytes → Bytes
  readers : CommandType → Option ReadEntry

/-- `BY pattern`. -/
def SortOptions.setBy (opts : SortOptions) (pattern : Bytes) : SortOptions :=
  if pattern.map ByteText.lowerByte = utf8 "nosort" then
    { opts with byPattern := [], noSort := true }
  else { opts with byPattern := pattern }

def parseSortOptions : List Bytes → SortOptions → Except String SortOptions
  | [], opts => .ok opts
  | arg :: rest, opts =>
    if upper arg = utf8 "BY" then
      match rest with
      | [] => .error "ERR syntax error"
      | pattern :: rest => parseSortOptions rest (opts.setBy pattern)
    else if upper arg = utf8 "GET" then
      match rest with
      | [] => .error "ERR syntax error"
      | pattern :: rest =>
        parseSortOptions rest { opts with getPatterns := opts.getPatterns ++ [pattern] }
    else if upper arg = utf8 "LIMIT" then
      match rest with
      | offset :: count :: rest =>
        match parseInt64 offset, parseInt64 count with
        | some offset, some count =>
          parseSortOptions rest { opts with limit := true, offset := offset, count := count }
        | _, _ => .error "ERR value is not an integer or out of range"
      | _ => .error "ERR syntax error"
    else if upper arg = utf8 "ASC" then parseSortOptions rest { opts with desc := false }
    else if upper arg = utf8 "DESC" then parseSortOptions rest { opts with desc := true }
    else if upper arg = utf8 "ALPHA" then parseSortOptions rest { opts with alpha := true }
    else if upper arg = utf8 "STORE" then
      match rest with
      | [] => .error "ERR syntax error"
      | dest :: rest => parseSortOptions rest { opts with store := dest }
    else .error "ERR syntax error"

def cut (sep : Bytes) : Bytes → Option (Bytes × Bytes)
  | [] => if sep = [] then some ([], []) else none
  | b :: rest =>
    if sep.isPrefixOf (b :: rest) then some ([], (b :: rest).drop sep.length)
    else (cut sep rest).map fun parts => (b :: parts.1, parts.2)

/-- `substitutePattern`: the key, and the field if the pattern has one. -/
def substitutePattern (pattern element : Bytes) : Bytes × Option Bytes :=
  let key :=
    match cut (utf8 "*") pattern with
    | none => pattern
    | some (before, after) => before ++ element ++ after
  match cut (utf8 "->") key with
  | some (before, after) => (before, some after)
  | none => (key, none)

/-- The value that `getExternalValue` finds in a snapshot. -/
def externalValue (field : Option Bytes) (snap : Option (Snapshot Bytes)) : Option Bytes :=
  match snap, field with
  | none, _ => none
  | some snap, some field =>
    if snap.collection = .keyed then (snap.netAdds.lookup field).bind Element.value else none
  | some snap, none => snap.scalar

section Sorting

variable {W : Type} (env : Env W)

def getExternalValue (pattern element : Bytes) (next : Option Bytes → Runner) : Runner :=
  let target := substitutePattern pattern element
  env.coding.getSnapshot target.1 fun snap => next (externalValue target.2 snap)

/-- The weight that a text gives an element. -/
def weighted (opts : SortOptions) (element : Bytes) (text : Option Bytes) : SortItem W :=
  match text with
  | none => ⟨element, env.zero, []⟩
  | some text =>
    if opts.alpha then ⟨element, env.zero, text⟩
    else ⟨element, (env.parseFloat64 text).getD env.zero, []⟩

def buildSortItems (opts : SortOptions) : List Bytes → (List (SortItem W) → Runner) → Runner
  | [], next => next []
  | element :: elements, next =>
    if opts.noSort then
      buildSortItems opts elements fun items => next (weighted env opts element none :: items)
    else if opts.byPattern ≠ [] then
      getExternalValue env opts.byPattern element fun text =>
        buildSortItems opts elements fun items => next (weighted env opts element text :: items)
    else
      buildSortItems opts elements fun items =>
        next (weighted env opts element (some element) :: items)

/-- `sortItems`; with `DESC` equal elements count as less than each other. -/
def sortItems (opts : SortOptions) (items : List (SortItem W)) : List (SortItem W) :=
  env.sliceStable
    (fun a b =>
      let less :=
        if opts.alpha then decide (a.strWeight < b.strWeight) else env.less a.weight b.weight
      if opts.desc then !less else less)
    items

omit env in
/-- `applyLimit`; a negative offset is out of the bounds of the slice. -/
def applyLimit (items : List (SortItem W)) (offset count : ℤ) : Option (List (SortItem W)) :=
  if (items.length : ℤ) ≤ offset then some []
  else if offset < 0 then none
  else
    let items := items.drop offset.toNat
    some (if 0 ≤ count ∧ count < items.length then items.take count.toNat else items)

/-- The results of one item, by the `GET` patterns. -/
def itemResults (element : Bytes) : List Bytes → (List (Option Bytes) → Runner) → Runner
  | [], next => next []
  | pattern :: patterns, next =>
    if pattern = utf8 "#" then
      itemResults element patterns fun results => next (some element :: results)
    else
      getExternalValue env pattern element fun value =>
        itemResults element patterns fun results => next (value :: results)

def allResults (patterns : List Bytes) :
    List (SortItem W) → (List (Option Bytes) → Runner) → Runner
  | [], next => next []
  | item :: items, next =>
    itemResults env item.element patterns fun first =>
      allResults patterns items fun others => next (first ++ others)

def buildResults (opts : SortOptions) (items : List (SortItem W))
    (next : List (Option Bytes) → Runner) : Runner :=
  if opts.getPatterns = [] then next (items.map fun item => some item.element)
  else allResults env opts.getPatterns items next

/-- The effects of `storeResults`. -/
def storeEffects (results : List (Option Bytes)) : List (Effect Bytes) :=
  if results = [] then [deleteEffect]
  else
    deleteEffect ::
      (results.mapIdx fun i result =>
        .data {
          op := .insert, collection := .ordered, placement := .tail, id := env.elementId i
          value := some (result.getD []) }) ++
      [.metadata { typeTag := .list }]

def storeResults (dest : Bytes) (results : List (Option Bytes)) (next : Runner) : Runner :=
  env.coding.emitAll ((storeEffects env results).map fun effect => (dest, effect)) next

/-- `handleSort` from the elements on. -/
def sortElements (opts : SortOptions) (elements : List Bytes) : Runner :=
  buildSortItems env opts elements fun items =>
    let items := if opts.noSort then items else sortItems env opts items
    match if opts.limit then applyLimit items opts.offset opts.count else some items with
    | none => .done (errorReply (utf8 "runtime error: slice bounds out of range"))
    | some items =>
      buildResults env opts items fun results =>
        if opts.store ≠ [] then
          storeResults env opts.store results (.done (.integer results.length))
        else .done (.array (results.map .bulk))

/-- `handleSort` from the snapshot on. -/
def sortSnapshot (opts : SortOptions) (snap : Option (Snapshot Bytes)) : Runner :=
  match snap.filter fun snap => snap.op ≠ .remove with
  | none =>
    if opts.store ≠ [] then
      env.coding.emit opts.store deleteEffect (.done (.integer 0))
    else .done (.array [])
  | some snap =>
    match snap.collection with
    | .scalar => .done wrongType
    | .ordered => sortElements env opts (snap.orderedElements.map fun element => element.2.getD [])
    | .keyed =>
      sortElements env opts (snap.netAdds.entries.map fun element => element.2.value.getD [])

def handleSort (args : List Bytes) : Runner :=
  match args with
  | [] => .done (.error (.wrongNumArguments "sort"))
  | key :: rest =>
    match parseSortOptions rest {} with
    | .error text => .done (errorReply (utf8 text))
    | .ok opts => env.coding.getSnapshot key (sortSnapshot env opts)

def handleSortRO (args : List Bytes) : Runner :=
  if args.tail.any (equalFold (utf8 "STORE")) then .done (errorReply (utf8 "ERR syntax error"))
  else handleSort env args

/-- `SORT` in the registry. -/
def sortEntry : Entry where
  connHandler := some (.data fun _ args => handleSort env args)
  handler := none
  txnPrepare := some fun args => .ok ([], handleSort env args)
  keys := some (KeyExtractor.extract .sort)
  write := true
  noAuth := false
  noQueue := false
  pubSub := false
  live := rfl

/-- `SORT_RO` in the registry. -/
def sortROEntry : Entry where
  connHandler := some (.data fun _ args => handleSortRO env args)
  handler := none
  txnPrepare := some fun args => .ok ([], handleSortRO env args)
  keys := some (KeyExtractor.extract .first)
  write := false
  noAuth := false
  noQueue := false
  pubSub := false
  live := rfl

end Sorting

/-! ## 4.  `CONFIG` -/

def clusterSafeModeConfig : Bytes := utf8 "cluster_safe_mode"

def keySafeModeConfig : Bytes := utf8 "key_safe_mode"

def configMatchPattern (pattern name : Bytes) : Bool :=
  pattern = utf8 "*" || pattern = name ||
    (1 < pattern.length && pattern.getLast? = some 0x2a && pattern.dropLast.isPrefixOf name)

def argPairs : List Bytes → List (Bytes × Bytes)
  | name :: value :: rest => (name, value) :: argPairs rest
  | _ => []

/-- A setting that has to be a number within bounds: the error for the value. -/
def checkNumber (name : String) (value : Bytes) (valid : ℤ → Bool) (message : String) :
    Option Bytes :=
  match parseInt64 value with
  | none => some (utf8 "ERR Invalid argument '" ++ value ++ utf8 ("' for CONFIG SET '" ++ name ++ "'"))
  | some n => if valid n then none else some (utf8 ("ERR " ++ name ++ " " ++ message))

/-- The error of a setting; settings that are not known are accepted. -/
def settingError (pair : Bytes × Bytes) : Option Bytes :=
  if pair.1 = utf8 "proto-max-bulk-len" then
    checkNumber "proto-max-bulk-len" pair.2 (fun n => 1024 * 1024 ≤ n) "must be at least 1MB"
  else if pair.1 = utf8 "stream-node-max-entries" then
    checkNumber "stream-node-max-entries" pair.2 (fun n => 0 ≤ n) "must be non-negative"
  else if pair.1 = utf8 "lua-time-limit" then
    checkNumber "lua-time-limit" pair.2 (fun _ => true) ""
  else if pair.1 = utf8 "stream-idmp-duration" then
    checkNumber "stream-idmp-duration" pair.2 (fun n => 1 ≤ n && n ≤ 86400)
      "must be between 1 and 86400"
  else if pair.1 = utf8 "stream-idmp-maxsize" then
    checkNumber "stream-idmp-maxsize" pair.2 (fun n => 1 ≤ n && n ≤ 10000)
      "must be between 1 and 10000"
  else none

section Config

variable {W : Type} (env : Env W)

/-- The values of the safety policies that match. -/
def safetyValues (pattern : Bytes) :
    List (Bytes × Bytes) → (List Bytes → Runner) → Runner
  | [], next => next []
  | (name, key) :: rest, next =>
    if configMatchPattern pattern name then
      env.coding.getSnapshot key fun snap =>
        match env.safetyConfigGet name snap with
        | .error text => .done (errorReply (utf8 "ERR " ++ text))
        | .ok value => safetyValues pattern rest fun results => next (name :: value :: results)
    else safetyValues pattern rest next

def handleConfigGet (pattern : Bytes) : Runner :=
  safetyValues env pattern
    [(clusterSafeModeConfig, clusterSafetyKey), (keySafeModeConfig, keySafetyKey)] fun results =>
    let settings := ["proto-max-bulk-len", "stream-node-max-entries", "stream-idmp-duration",
      "stream-idmp-maxsize"].map utf8
    let others := (settings.filter (configMatchPattern pattern)).flatMap fun name =>
      [name, env.setting name]
    .done (.array ((results ++ others).map fun text => .bulk (some text)))

omit env in
/-- `configRemove` and `configType`, with which a policy is replaced. -/
def replacePolicy (key : Bytes) (tag : ValueType) : List (Bytes × Effect Bytes) :=
  [(key, deleteEffect), (key, .metadata { typeTag := tag })]

/-- The effects of one pair of `CONFIG SET`. -/
def safetyUpdate (name value : Bytes) : Except Bytes (List (Bytes × Effect Bytes)) :=
  if name = clusterSafeModeConfig then
    match env.parseSafetyMode value with
    | .error text => .error text
    | .ok _ =>
      .ok (replacePolicy clusterSafetyKey .string ++
        [(clusterSafetyKey, .data { op := .insert, collection := .scalar, value := some value })])
  else if name = keySafeModeConfig then
    if !env.validUTF8 value then .error (utf8 "key_safe_mode requires UTF-8 JSON")
    else
      match env.unmarshal value with
      | none =>
        .error (utf8
          "key_safe_mode requires a JSON object mapping patterns to safe or unsafe")
      | some modes =>
        match modes.findSome? fun mode =>
            match env.parseSafetyMode mode.2 with
            | .error text =>
              some (utf8 "key_safe_mode pattern " ++ env.quote mode.1 ++ utf8 ": " ++ text)
            | .ok _ => none with
        | some text => .error text
        | none =>
          .ok (replacePolicy keySafetyKey .hash ++
            (modes.mergeSort fun a b => decide (a.1 ≤ b.1)).map fun mode =>
              (keySafetyKey, .data {
                op := .insert, collection := .keyed, id := mode.1, value := some mode.2 }))
  else .ok []

def safetyConfigEffects : List (Bytes × Bytes) → Except Bytes (List (Bytes × Effect Bytes))
  | [] => .ok []
  | pair :: pairs =>
    match safetyUpdate env pair.1 pair.2 with
    | .error text => .error text
    | .ok updates => (safetyConfigEffects pairs).map fun others => updates ++ others

def handleConfigSet (args : List Bytes) : Runner :=
  match safetyConfigEffects env (argPairs args) with
  | .error text => .done (errorReply (utf8 "ERR " ++ text))
  | .ok updates =>
    match (argPairs args).findSome? settingError with
    | some text => .done (errorReply text)
    | none => env.coding.emitAll updates (.done .ok)

def handleConfig (args : List Bytes) : Runner :=
  match args with
  | [] => .done (.error (.wrongNumArguments "config"))
  | sub :: rest =>
    if upper sub = utf8 "GET" then
      match rest with
      | [] => .done (.error (.wrongNumArguments "config get"))
      | pattern :: _ => handleConfigGet env pattern
    else if upper sub = utf8 "SET" then
      if rest.length < 2 ∨ rest.length % 2 ≠ 0 then
        .done (.error (.wrongNumArguments "config set"))
      else handleConfigSet env rest
    else if upper sub = utf8 "RESETSTAT" then .done .ok
    else if upper sub = utf8 "REWRITE" then .done .ok
    else .done (errorReply (utf8 "ERR unknown subcommand"))

/-- `CONFIG` in the registry. -/
def configEntry : Entry where
  connHandler := some (.data fun _ args => handleConfig env args)
  handler := none
  txnPrepare := none
  keys := none
  write := false
  noAuth := false
  noQueue := false
  pubSub := false
  live := rfl

end Config

/-! ## 5.  The server and its scripts -/

section Scripts

variable {W : Type} (env : Env W) (base : Server)

/-- The server with the commands of the table. -/
def server : Server :=
  { base with
    registry := fun type =>
      if type = .cmdSort then some (sortEntry env)
      else if type = .cmdSortRO then some (sortROEntry env)
      else if type = .cmdConfig then some (configEntry env)
      else if type ∈ readOnlyCommands then (env.readers type).map ReadEntry.entry
      else base.registry type }

/-- The body of a script, which goes on by what its calls reply. -/
inductive Body where
  | returns (reply : Reply)
  | call (name : Bytes) (args : List Bytes) (next : Reply → Body)

/-- The body run by `EVAL_RO`, `EVALSHA_RO` or `FCALL_RO`. -/
def Body.runner : Body → Runner
  | .returns reply => .done reply
  | .call name args next => .call name args true fun reply => (next reply).runner

/-- `redis.call` and `redis.pcall` in the script. -/
def scriptCall (name : Bytes) (args : List Bytes) (w : World) : Reply × World :=
  redisCall (executeInScript (server env base)) name args true w

def Body.calls : Body → World → List (Bytes × List Bytes)
  | .returns _, _ => []
  | .call name args next, w =>
    let called := scriptCall env base name args w
    (name, args) :: (next called.1).calls called.2

/-- The attempt emitted nothing. -/
def Silent (a : Attempt) : Prop := ∀ access ∈ a.accesses, access.isWrite = false

/-- The script and the commands it called emit nothing. -/
def EmitsNothing (body : Body) (w : World) : Prop :=
  let ran := body.runner.run (redisCall (executeInScript (server env base))) w
  (∀ access ∈ ran.2.1, access.isWrite = false) ∧ Logs Silent w ran.2.2

omit base in
/-- The arguments with which `SORT` stores: they are accepted and name a destination. -/
def SortStores (args : List Bytes) : Prop :=
  ∃ key rest opts, args = key :: rest ∧ parseSortOptions rest {} = .ok opts ∧ opts.store ≠ []

/-- The arguments with which `CONFIG` replaces a safety policy: it is `SET` with arguments that
are accepted, and one pair names a policy. -/
def ConfigReplaces (args : List Bytes) : Prop :=
  ∃ sub rest, args = sub :: rest ∧ upper sub = utf8 "SET" ∧ 2 ≤ rest.length ∧
    rest.length % 2 = 0 ∧ (safetyConfigEffects env (argPairs rest)).isOk = true ∧
    (argPairs rest).findSome? settingError = none ∧
    ∃ pair ∈ argPairs rest, pair.1 = clusterSafeModeConfig ∨ pair.1 = keySafeModeConfig

omit base in
/-- The call is a `SORT` that stores or a `CONFIG SET` of a safety policy. -/
def Storing (name : Bytes) (args : List Bytes) : Prop :=
  lookupCommandName (ByteText.toUpper name) = some .cmdSort ∧ SortStores args ∨
    lookupCommandName (ByteText.toUpper name) = some .cmdConfig ∧ ConfigReplaces env args

end Scripts

/-! ## 6.  Runners that do not write -/

def NoWrite (runner : Runner) : Prop := ∀ key, ¬ runner.Touches ⟨key, true⟩

theorem noWrite_done (reply : Reply) : NoWrite (.done reply) := fun _ h => h

variable {key pattern element name : Bytes} {coding : Coding} {args : List Bytes}
    {base : Server} {cmd : Command} {entry : Entry}

theorem noWrite_read {next : Option Bytes → Runner} (h : ∀ value, NoWrite (next value)) :
    NoWrite (.read key next) := by
  rintro written (hrd | ⟨value, hnext⟩)
  · simp at hrd
  · exact h value written hnext

theorem Reader.noWrite (reader : Reader) : NoWrite reader.runner := by
  induction reader with
  | done reply => exact noWrite_done reply
  | read key next ih => exact noWrite_read ih

variable {runner : Runner}

theorem ReadPrepared.noWrite {prepared : ReadPrepared} {keys : List Bytes}
    (h : prepared.prepared = .ok (keys, runner)) : NoWrite runner := by
  cases prepared with
  | error reply => cases h
  | ok accepted =>
    have hrn : accepted.2.runner = runner := congrArg Prod.snd (Except.ok.inj h)
    rw [← hrn]
    exact accepted.2.noWrite

section NoWrite

variable {next : List (Option Bytes) → Runner} {W : Type} {env : Env W} {opts : SortOptions}

theorem noWrite_getSnapshot {next : Option (Snapshot Bytes) → Runner}
    (h : ∀ snap, NoWrite (next snap)) : NoWrite (coding.getSnapshot key next) :=
  noWrite_read fun _ => h _

theorem noWrite_getExternalValue {next : Option Bytes → Runner}
    (h : ∀ value, NoWrite (next value)) : NoWrite (getExternalValue env pattern element next) :=
  noWrite_getSnapshot fun _ => h _

theorem noWrite_buildSortItems (elements : List Bytes) {next : List (SortItem W) → Runner}
    (h : ∀ items, NoWrite (next items)) : NoWrite (buildSortItems env opts elements next) := by
  induction elements generalizing next with
  | nil => exact h []
  | cons element elements ih =>
    unfold buildSortItems
    split_ifs
    · exact ih fun items => h _
    · exact noWrite_getExternalValue fun text => ih fun items => h _
    · exact ih fun items => h _

theorem noWrite_itemResults (patterns : List Bytes) (h : ∀ results, NoWrite (next results)) :
    NoWrite (itemResults env element patterns next) := by
  induction patterns generalizing next with
  | nil => exact h []
  | cons pattern patterns ih =>
    unfold itemResults
    split_ifs
    · exact ih fun results => h _
    · exact noWrite_getExternalValue fun value => ih fun results => h _

theorem noWrite_allResults {patterns : List Bytes} (items : List (SortItem W))
    (h : ∀ results, NoWrite (next results)) :
    NoWrite (allResults env patterns items next) := by
  induction items generalizing next with
  | nil => exact h []
  | cons item items ih => exact noWrite_itemResults patterns fun first => ih fun others => h _

theorem noWrite_buildResults {items : List (SortItem W)}
    (h : ∀ results, NoWrite (next results)) : NoWrite (buildResults env opts items next) := by
  unfold buildResults
  split_ifs
  · exact h _
  · exact noWrite_allResults items h

theorem noWrite_sortElements (hs : opts.store = []) {elements : List Bytes} :
    NoWrite (sortElements env opts elements) := by
  refine noWrite_buildSortItems elements fun items => ?_
  simp only
  split
  · exact noWrite_done _
  · refine noWrite_buildResults fun results => ?_
    rw [if_neg (fun hne => hne hs)]
    exact noWrite_done _

theorem noWrite_sortSnapshot (hs : opts.store = []) (snap : Option (Snapshot Bytes)) :
    NoWrite (sortSnapshot env opts snap) := by
  unfold sortSnapshot
  split
  · rw [if_neg (fun hne => hne hs)]
    exact noWrite_done _
  · split
    · exact noWrite_done _
    all_goals exact noWrite_sortElements hs

/-- `SORT` writes only if it stores. -/
theorem noWrite_handleSort (h : ¬ SortStores args) : NoWrite (handleSort env args) := by
  unfold handleSort
  split
  · exact noWrite_done _
  · rename_i key rest
    split
    · exact noWrite_done _
    · rename_i opts ho
      refine noWrite_getSnapshot (noWrite_sortSnapshot ?_)
      by_contra hs
      exact h ⟨key, rest, opts, rfl, ho, hs⟩

theorem SortOptions.setBy_store : (opts.setBy pattern).store = opts.store := by
  unfold SortOptions.setBy
  split_ifs <;> rfl

/-- The destination comes from a `STORE` among the arguments. -/
theorem parseSortOptions_store (args : List Bytes) {before after : SortOptions}
    (h : parseSortOptions args before = .ok after)
    (hs : ∀ arg ∈ args, upper arg ≠ utf8 "STORE") : after.store = before.store := by
  fun_induction parseSortOptions args before with
  | case1 opts =>
    rw [Except.ok.inj h]
  | case3 arg opts hby pattern rest ih =>
    rw [ih h fun arg harg => hs arg (by simp [harg]), SortOptions.setBy_store]
  | case5 arg opts hby hget pattern rest ih =>
    exact ih h fun arg harg => hs arg (by simp [harg])
  | case6 arg opts hby hget hlim first second rest offset count hc hoff ih =>
    exact ih h fun arg harg => hs arg (by simp [harg])
  | case9 arg rest opts hby hget hlim hasc ih =>
    exact ih h fun arg harg => hs arg (by simp [harg])
  | case10 arg rest opts hby hget hlim hasc hdesc ih =>
    exact ih h fun arg harg => hs arg (by simp [harg])
  | case11 arg rest opts hby hget hlim hasc hdesc halpha ih =>
    exact ih h fun arg harg => hs arg (by simp [harg])
  | case13 arg opts hby hget hlim hasc hdesc halpha hdest dest rest ih =>
    exact absurd hdest (hs arg (by simp))
  | _ => cases h

/-- `SORT_RO` never stores. -/
theorem noWrite_handleSortRO (args : List Bytes) : NoWrite (handleSortRO env args) := by
  unfold handleSortRO
  split_ifs with hfold
  · exact noWrite_done _
  · refine noWrite_handleSort ?_
    rintro ⟨key, rest, opts, rfl, ho, hs⟩
    refine hs (parseSortOptions_store rest ho fun arg harg hup => hfold ?_)
    refine any_eq_true.mpr ⟨arg, harg, equalFold_of_upper_eq (by decide +kernel) ?_⟩
    rw [hup]
    decide

theorem noWrite_safetyValues {policies : List (Bytes × Bytes)} {next : List Bytes → Runner}
    (h : ∀ results, NoWrite (next results)) : NoWrite (safetyValues env pattern policies next) := by
  induction policies generalizing next with
  | nil => exact h []
  | cons policy policies ih =>
    unfold safetyValues
    split_ifs
    · refine noWrite_getSnapshot fun snap => ?_
      split
      · exact noWrite_done _
      · exact ih fun results => h _
    · exact ih h

/-- One pair has effects exactly if it names a policy. -/
theorem safetyUpdate_eq_nil_iff {value : Bytes} {updates : List (Bytes × Effect Bytes)}
    (h : safetyUpdate env name value = .ok updates) :
    updates ≠ [] ↔ name = clusterSafeModeConfig ∨ name = keySafeModeConfig := by
  unfold safetyUpdate at h
  split_ifs at h with hcluster hkey hva
  · split at h
    · cases h
    · rw [← Except.ok.inj h]
      simp [hcluster]
  · split at h
    · cases h
    · split at h
      · cases h
      · rw [← Except.ok.inj h]
        simp [hkey, replacePolicy]
  · rw [← Except.ok.inj h]
    simp [hcluster, hkey]

/-- The pairs have effects exactly if one names a policy. -/
theorem safetyConfigEffects_ne_nil_iff {pairs : List (Bytes × Bytes)} :
    ∀ {updates : List (Bytes × Effect Bytes)}, safetyConfigEffects env pairs = .ok updates →
      (updates ≠ [] ↔
        ∃ pair ∈ pairs, pair.1 = clusterSafeModeConfig ∨ pair.1 = keySafeModeConfig) := by
  induction pairs with
  | nil =>
    intro updates h
    rw [← Except.ok.inj h]
    simp
  | cons pair pairs ih =>
    intro updates h
    unfold safetyConfigEffects at h
    split at h
    · cases h
    · rename_i first hf
      cases hothers : safetyConfigEffects env pairs with
      | error text =>
        rw [hothers] at h
        cases h
      | ok others =>
        rw [hothers] at h
        rw [← Except.ok.inj h, exists_mem_cons_iff, ← safetyUpdate_eq_nil_iff hf,
          ← ih hothers, ← not_and_or, not_iff_not, append_eq_nil_iff]

/-- `CONFIG` writes only if it replaces a policy. -/
theorem noWrite_handleConfig (h : ¬ ConfigReplaces env args) : NoWrite (handleConfig env args) := by
  unfold handleConfig
  split
  · exact noWrite_done _
  · rename_i sub rest
    split_ifs with hget hset hc
    · split
      · exact noWrite_done _
      · exact noWrite_safetyValues fun results => noWrite_done _
    · exact noWrite_done _
    · unfold handleConfigSet
      split
      · exact noWrite_done _
      · rename_i updates hupdates
        split
        · exact noWrite_done _
        · rename_i hsettings
          have hn : updates = [] := by
            by_contra hne
            refine h ⟨sub, rest, rfl, hset, by omega, by omega, ?_, hsettings,
              (safetyConfigEffects_ne_nil_iff hupdates).mp hne⟩
            rw [hupdates]
            rfl
          rw [hn]
          exact noWrite_done _
    all_goals exact noWrite_done _

end NoWrite

/-! ## 7.  When a script emits nothing -/

section Quiet

variable {W : Type} {env : Env W}

/-- For these arguments the entry does not write: nothing it runs does, and it is not `EXEC`. -/
structure Quiet (entry : Entry) (args : List Bytes) : Prop where
  noWrite : ∀ runner, entry.Gives args runner → NoWrite runner
  notExec : entry.connHandler ≠ some .exec

theorem makes_silent {server : Server}
    (h : ∀ entry, server.registry cmd.type = some entry → Quiet entry cmd.args) :
    Makes Silent server cmd where
  refused _ _ _ _ _ _ := fun access hacc => nomatch hacc
  ran {user entry route checked runner accesses reply} he hgives _ hto := by
    intro access hacc
    by_contra hw
    have htouched := hto access hacc
    obtain ⟨key, isWrite⟩ := access
    rw [show isWrite = true from Bool.of_not_eq_false hw] at htouched
    exact (h entry he).noWrite runner hgives key htouched
  exec entry he hexec := absurd hexec (h entry he).notExec

/-- Both sorting commands have one runner for all routes. -/
theorem quiet_of_runner {run : List Bytes → Runner}
    (hc : entry.connHandler = some (.data fun _ => run)) (hh : entry.handler = none)
    (hprepare : entry.txnPrepare = some fun args => .ok ([], run args)) (h : NoWrite (run args)) :
    Quiet entry args where
  noWrite runner hgives := by
    cases hgives with
    | conn inScript hd =>
      obtain rfl := ConnHandler.data.inj (Option.some.inj (hc.symm.trans hd))
      exact h
    | prepared hprep hacc =>
      rcases hprep with hprep | hprep
      · exact nomatch hh.symm.trans hprep
      · obtain rfl := Option.some.inj (hprepare.symm.trans hprep)
        rw [← (Prod.mk.inj (Except.ok.inj hacc)).2]
        exact h
  notExec hexec := nomatch hc.symm.trans hexec

theorem quiet_config (h : ¬ ConfigReplaces env args) : Quiet (configEntry env) args where
  noWrite runner hgives := by
    cases hgives with
    | conn inScript hh =>
      obtain rfl := ConnHandler.data.inj (Option.some.inj hh)
      exact noWrite_handleConfig h
    | prepared hh hacc => exact hh.elim (nomatch ·) (nomatch ·)
  notExec hexec := nomatch hexec

theorem ReadEntry.quiet (entry : ReadEntry) (args : List Bytes) : Quiet entry.entry args where
  noWrite runner hgives := by
    cases hgives with
    | conn inScript hh =>
      obtain ⟨conn, hc, hd⟩ := Option.map_eq_some_iff.mp hh
      cases conn with
      | session run => cases hd
      | data run =>
        cases hd
        exact (run inScript args).noWrite
    | prepared hh hacc =>
      rcases hh with hh | hh
      all_goals
        obtain ⟨prepare, -, rfl⟩ := Option.map_eq_some_iff.mp hh
        exact ReadPrepared.noWrite hacc
  notExec hexec := by
    obtain ⟨conn, -, hd⟩ := Option.map_eq_some_iff.mp hexec
    cases conn with
    | session run | data run => cases hd

/-- What the table lets through is quiet unless it stores. -/
theorem quiet_of_readOnly {type : CommandType} (ht : type ∈ readOnlyCommands)
    (hso : type = .cmdSort → ¬ SortStores args)
    (hconfig : type = .cmdConfig → ¬ ConfigReplaces env args)
    (he : (server env base).registry type = some entry) : Quiet entry args := by
  unfold server at he
  simp only at he
  split_ifs at he with h₁ h₂ h₃
  · cases he
    exact quiet_of_runner rfl rfl rfl (noWrite_handleSort (hso h₁))
  · cases he
    exact quiet_of_runner rfl rfl rfl (noWrite_handleSortRO args)
  · cases he
    exact quiet_config (hconfig h₃)
  · obtain ⟨reader, -, rfl⟩ := Option.map_eq_some_iff.mp he
    exact reader.quiet args

theorem logs_scriptCall (base : Server) (h : ¬ Storing env name args) (w : World) :
    Logs Silent w (scriptCall env base name args w).2 := by
  refine logs_redisCall (fun type hn hw => makes_silent fun entry he => ?_) w
  have ht : type ∈ readOnlyCommands := by
    simpa [isWriteCommand] using hw
  refine quiet_of_readOnly ht ?_ ?_ he
  · rintro rfl hst
    exact h (.inl ⟨hn, hst⟩)
  · rintro rfl hreplaces
    exact h (.inr ⟨hn, hreplaces⟩)

/-- A body none of whose calls stores emits nothing. -/
theorem emitsNothing_of_calls (base : Server) (body : Body) (w : World)
    (h : ∀ call ∈ body.calls env base w, ¬ Storing env call.1 call.2) :
    EmitsNothing env base body w := by
  induction body generalizing w with
  | returns reply => exact ⟨fun access hacc => (nomatch hacc), .of_log_eq rfl⟩
  | call name args next ih =>
    have hf := logs_scriptCall base (h _ (mem_cons_self ..)) w
    obtain ⟨hown, hr⟩ := ih _ (scriptCall env base name args w).2 fun call hc =>
      h call (mem_cons_of_mem _ hc)
    exact ⟨hown, hf.trans hr⟩

end Quiet

section Loud

variable {type : CommandType} {W : Type} {env : Env W}

/-- A connection of the default user, who may do everything, to an empty database. -/
def openWorld : World :=
  { World.fresh (AList.singleton defaultUsername defaultUser) (fun _ => none) with
    conn := Conn.fresh (some defaultUser) false }

/-- The same while a script runs. -/
def scriptWorld : World := { openWorld with conn := Conn.fresh (some defaultUser) true }

/-- The runner writes a key of the empty database. -/
def Loud (runner : Runner) : Prop :=
  ∃ access ∈ (runner.run noCall scriptWorld).2.1, access.isWrite = true

theorem loud_sort (h : SortStores args) : Loud (handleSort env args) := by
  obtain ⟨key, rest, opts, rfl, ho, hs⟩ := h
  refine ⟨⟨opts.store, true⟩, ?_, rfl⟩
  simp [handleSort, ho, Coding.getSnapshot, Coding.emit, Runner.run, sortSnapshot, hs,
    scriptWorld, openWorld, World.fresh]

theorem loud_emitAll {effects : List (Bytes × Effect Bytes)} (h : effects ≠ []) {next : Runner} :
    Loud (coding.emitAll effects next) := by
  cases effects with
  | nil => exact absurd rfl h
  | cons effect effects =>
    refine ⟨⟨effect.1, true⟩, ?_, rfl⟩
    simp [Coding.emitAll, Coding.emit, Runner.run]

theorem loud_config (h : ConfigReplaces env args) : Loud (handleConfig env args) := by
  obtain ⟨sub, rest, rfl, hset, hlen, heven, hok, hsettings, hnm⟩ := h
  cases hupdates : safetyConfigEffects env (argPairs rest) with
  | error text =>
    rw [hupdates] at hok
    cases hok
  | ok updates =>
    have hget : ¬ upper sub = utf8 "GET" := by
      rw [hset]
      decide
    have hc : ¬ (rest.length < 2 ∨ rest.length % 2 ≠ 0) := by omega
    have hrn : handleConfig env (sub :: rest) = env.coding.emitAll updates (.done .ok) := by
      simp only [handleConfig, if_neg hget, if_pos hset, if_neg hc, handleConfigSet, hupdates,
        hsettings]
    rw [hrn]
    exact loud_emitAll ((safetyConfigEffects_ne_nil_iff hupdates).mpr hnm)

theorem accesses_runDataCommand {calls : Calls} (hcmd : isScriptCommand cmd.type = false)
    {w : World} : (runDataCommand calls entry cmd runner w).2.1 = (runner.run noCall w).2.1 := by
  unfold runDataCommand undoOnError
  rw [hcmd]
  simp only [Bool.false_eq_true, if_false]
  split_ifs <;> rfl

/-- A loop over attempts keeps what the first attempt logged. -/
theorem logs_after_attempt (server : Server) {attempt : World → Reply × World}
    (hat : ∀ w, Logs (fun _ => True) w (attempt w).2) (retries : ℕ) (w : World) :
    Logs (fun _ => True) (attempt w).2 (attemptLoop server false attempt retries w).2 := by
  cases retries with
  | zero => exact logs_settle (.of_log_eq rfl) fun _ => .of_log_eq rfl
  | succ retries =>
    exact logs_settle (.of_log_eq rfl) fun w' => logs_attemptLoop hat retries w'

/-- On the open connection a command with a `ConnHandler` is run, and the attempt is logged. -/
theorem exists_attempt {server : Server} {run : Bool → List Bytes → Runner}
    (he : server.registry type = some entry) (hc : entry.connHandler = some (.data run))
    (ht : type = .cmdSort ∨ type = .cmdConfig) (args : List Bytes) :
    ∃ attempt ∈ (executeInScript server ⟨type, args⟩ scriptWorld).2.log,
      attempt.accesses = ((run true args).run noCall scriptWorld).2.1 := by
  have hadm : admission server ⟨type, args⟩ scriptWorld = .ok scriptWorld := by
    rcases ht with rfl | rfl <;> rfl
  have hks : (entry.declared ⟨type, args⟩).findSome?
      (keyError scriptWorld.conn.session.user entry.write) = none :=
    findSome?_eq_none_iff.mpr fun key _ => rfl
  have hnotExec : decide (type = CommandType.cmdExec) = false := by
    rcases ht with rfl | rfl <;> rfl
  have hnotScript : isScriptCommand type = false := by
    rcases ht with rfl | rfl <;> rfl
  have hex : executeInScript server ⟨type, args⟩ scriptWorld =
      attemptLoop server false
        (runConnHandler server none (some defaultUser) entry ⟨type, args⟩ (.data run))
        maxTxnRetries scriptWorld := by
    simp only [executeInScript, executeInto, hadm, dispatch, he, hc, dispatchConn,
      hks, hnotExec]
    rfl
  have hat : ∀ w, Logs (fun _ => True) w
      (runConnHandler server none (some defaultUser) entry ⟨type, args⟩ (.data run) w).2 := fun w =>
    logs_perform callsLog_none (fun _ _ _ => trivial) w
  obtain ⟨added, hlog, -⟩ := logs_after_attempt server hat maxTxnRetries scriptWorld
  rw [hex, hlog]
  refine ⟨_, mem_append_left _ (mem_append_right _ (mem_singleton_self _)), ?_⟩
  exact accesses_runDataCommand hnotScript

/-- The names of the two commands are not blocked. -/
theorem notBlocked_of_lookup
    (hnm : lookupCommandName name = some type) (ht : type = .cmdSort ∨ type = .cmdConfig) :
    (blockedCommands.any fun blocked => utf8 blocked = name) = false := by
  have hn : ∀ blocked ∈ blockedCommands, lookupCommandName (utf8 blocked) ≠ some .cmdSort ∧
      lookupCommandName (utf8 blocked) ≠ some .cmdConfig := by decide
  rw [any_eq_false]
  intro blocked hmem heq
  rw [← of_decide_eq_true heq] at hnm
  rcases ht with rfl | rfl
  · exact (hn blocked hmem).1 hnm
  · exact (hn blocked hmem).2 hnm

/-- A call of one of the two commands gets to the dispatcher. -/
theorem log_scriptCall (hn : lookupCommandName (ByteText.toUpper name) = some type)
    (ht : type = .cmdSort ∨ type = .cmdConfig) :
    (scriptCall env base name args openWorld).2.log =
      (executeInScript (server env base) ⟨type, args⟩ scriptWorld).2.log := by
  have hpasses : ¬ type = .cmdUnknown ∧ (true && isWriteCommand type) = false := by
    rcases ht with rfl | rfl <;> exact ⟨by decide, by decide⟩
  simp only [scriptCall, redisCall, notBlocked_of_lookup hn ht, hn, if_neg hpasses.1,
    hpasses.2]
  rfl

/-- The script that makes one call and returns its reply. -/
def Body.single (name : Bytes) (args : List Bytes) : Body := .call name args .returns

theorem not_emitsNothing_of_storing (h : Storing env name args) :
    ¬ EmitsNothing env base (.single name args) openWorld := by
  have hloud : ∀ {type entry run}, lookupCommandName (ByteText.toUpper name) = some type →
      type = .cmdSort ∨ type = .cmdConfig → (server env base).registry type = some entry →
      entry.connHandler = some (.data run) → Loud (run true args) →
      ¬ EmitsNothing env base (.single name args) openWorld := by
    rintro type entry run hn ht he hc ⟨access, hacc, hw⟩ ⟨-, hlogs⟩
    obtain ⟨attempt, hmem, haccesses⟩ := exists_attempt he hc ht args
    rw [← log_scriptCall hn ht] at hmem
    have hsilent := hlogs.mem (fun attempt hat => (nomatch hat)) attempt hmem
    rw [← haccesses] at hacc
    rw [hsilent access hacc] at hw
    exact Bool.false_ne_true hw
  rcases h with ⟨hn, hst⟩ | ⟨hn, hreplaces⟩
  · exact hloud hn (.inl rfl) rfl rfl (loud_sort hst)
  · exact hloud hn (.inr rfl) rfl rfl (loud_config hreplaces)

end Loud

/-- A read-only script emits nothing if no call it makes is a `SORT` that stores or a `CONFIG SET`
of a safety policy.  A script of one call never emits exactly if its call is neither. -/
theorem read_only_script_emits_nothing {W : Type} (env : Env W) (base : Server) :
    (∀ body w, (∀ call ∈ Body.calls env base body w, ¬ Storing env call.1 call.2) →
      EmitsNothing env base body w) ∧
    ∀ name args, (∀ w, EmitsNothing env base (.single name args) w) ↔ ¬ Storing env name args := by
  refine ⟨emitsNothing_of_calls base, fun name args => ⟨fun h hstoring => ?_, fun h w => ?_⟩⟩
  · exact not_emitsNothing_of_storing hstoring (h openWorld)
  · refine emitsNothing_of_calls base _ w fun call hc => ?_
    rw [mem_singleton.mp hc]
    exact h

section Samples

def sampleList : Snapshot Bytes :=
  { Snapshot.fresh .ordered with
    typeTag := .list, orderedElements := [(utf8 "1", some (utf8 "a"))] }

/-- Every key that is there is that list; no other command is registered. -/
def sampleEnv : Env Unit where
  coding := ⟨fun _ => [], fun _ => sampleList⟩
  parseFloat64 _ := none
  zero := ()
  less _ _ := false
  sliceStable _ items := items
  elementId _ := utf8 "2"
  parseSafetyMode _ := .ok ()
  safetyConfigGet _ _ := .ok (utf8 "safe")
  validUTF8 _ := true
  unmarshal _ := some []
  quote pattern := pattern
  setting _ := utf8 "0"
  readers _ := none

/-- The default user and the list `app:q`. -/
def sampleUserWorld : World :=
  { sampleWorld defaultUser with conn := Conn.fresh (some defaultUser) false }

/-- The script `return redis.call('SORT', 'app:q', 'ALPHA', 'STORE', 'd')`. -/
def sortStore : Body :=
  .single (utf8 "SORT") [utf8 "app:q", utf8 "ALPHA", utf8 "STORE", utf8 "d"]

/-- Run by `EVAL_RO` it deletes `d` and makes it a list. -/
theorem sort_store_in_read_only_script :
    ((sortStore.runner.run (redisCall (executeInScript (server sampleEnv (sampleServer false))))
      sampleUserWorld).2.2.log.map Attempt.accesses) =
      [[⟨utf8 "app:q", false⟩, ⟨utf8 "d", false⟩, ⟨utf8 "d", true⟩, ⟨utf8 "d", false⟩,
        ⟨utf8 "d", true⟩, ⟨utf8 "d", false⟩, ⟨utf8 "d", true⟩]] ∧
      ¬ EmitsNothing sampleEnv (sampleServer false) sortStore sampleUserWorld := by
  have haccesses : ((sortStore.runner.run
      (redisCall (executeInScript (server sampleEnv (sampleServer false))))
      sampleUserWorld).2.2.log.map Attempt.accesses) =
      [[⟨utf8 "app:q", false⟩, ⟨utf8 "d", false⟩, ⟨utf8 "d", true⟩, ⟨utf8 "d", false⟩,
        ⟨utf8 "d", true⟩, ⟨utf8 "d", false⟩, ⟨utf8 "d", true⟩]] := by decide
  refine ⟨haccesses, fun h => ?_⟩
  obtain ⟨attempt, hmem, heq⟩ := mem_map.mp (haccesses ▸ mem_singleton_self _)
  have hsilent := h.2.mem (fun attempt hat => (nomatch hat)) attempt hmem
  exact Bool.false_ne_true (hsilent ⟨utf8 "d", true⟩ (by rw [heq]; simp)).symm

end Samples

end Swytch.Redis.ReadOnly
