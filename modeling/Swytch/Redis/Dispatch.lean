import Swytch.Redis.Acl

/-!
# The dispatcher

How a command gets from a client to its handler, and what the connection remembers in between:
`ExecuteInto` with its checks, the queue of `MULTI`, `EXEC`, calls out of scripts and commands
forwarded by other nodes.

The handlers of the commands are parameters.  What a handler does to the data is a `Runner`: it
reads keys, writes keys, calls commands (a script does) and replies.  The registry says for every
command which handlers it has, which keys it declares and its flags.  What the cluster answers
(forwarding, the verdict on a flush, the check of the watches) is given by the server for every
tick of a counter.

A world keeps the committed data and the view of the running effects context, and a log: each
time a command has come to the point where its handler runs, by any route, the attempt is logged
with the keys that were checked for it, what it read and wrote, and its reply.
-/

namespace Swytch.Redis

open Sql (Bytes utf8)

/-! ## 1.  Replies, runners and the registry -/

structure Command where
  type : CommandType
  args : List Bytes
  deriving DecidableEq

inductive DispatchError where
  /-- `NOAUTH Authentication required.` -/
  | noAuth
  /-- `NOPERM this user has no permissions to run the '%s' command`. -/
  | noCommandPermission (cmd : CommandType)
  /-- `NOPERM this user has no permissions to access key '%s'`. -/
  | noKeyPermission (key : Bytes)
  /-- `ERR cannot write to internal key '%s'`. -/
  | internalKey (key : Bytes)
  /-- `ERR only (P|S)SUBSCRIBE / (P|S)UNSUBSCRIBE / PING / QUIT are allowed in this context`. -/
  | pubSubContext
  /-- `BUSY Redis is busy running a script.` and what may be called. -/
  | busy
  /-- `ERR unknown command`. -/
  | unknownCommand
  /-- `ERR wrong number of arguments for '%s' command`. -/
  | wrongNumArguments (name : String)
  /-- `ERR command '%s' cannot be used inside an SSI transaction`. -/
  | notInSSI (cmd : CommandType)
  /-- `ERR command '%s' cannot be used inside a transaction`. -/
  | notInTransaction (cmd : CommandType)
  /-- `ERR MULTI calls can not be nested`. -/
  | nestedMulti
  /-- `ERR EXEC without MULTI`. -/
  | execWithoutMulti
  /-- `ERR DISCARD without MULTI`. -/
  | discardWithoutMulti
  /-- `ERR WATCH inside MULTI is not allowed`. -/
  | watchInsideMulti
  /-- `EXECABORT Transaction discarded because of previous errors.` -/
  | execAbort
  /-- `EXECABORT Transaction discarded because of: BUSY`. -/
  | execAbortBusy
  /-- `TRYAGAIN` and the error of the flush. -/
  | tryAgain
  /-- `ERR This Redis command is not allowed from script`. -/
  | notAllowedFromScript
  /-- `ERR Unknown Redis command called from script`. -/
  | unknownFromScript
  /-- `ERR Write commands are not allowed from read-only scripts`. -/
  | writeFromReadOnlyScript
  /-- No reply at all: a script called from a script waits for the lock that the outer one
  holds. -/
  | scriptLock
  /-- `NOPERM unknown user '%s'` of a forwarded transaction. -/
  | unknownUser (username : Bytes)
  /-- `NOPERM user '%s' is disabled` of a forwarded transaction. -/
  | disabledUser (username : Bytes)
  /-- `empty transaction` forwarded. -/
  | emptyTransaction
  /-- An error that a handler writes. -/
  | handler (text : Bytes)
  deriving DecidableEq

inductive Reply where
  | ok
  | queued
  | nullArray
  | error (err : DispatchError)
  | integer (n : ℤ)
  | bulk (value : Option Bytes)
  | array (replies : List Reply)

def Reply.isError : Reply → Bool
  | .error _ => true
  | _ => false

/-- What a handler does: it reads and writes keys, a script calls commands, and it replies. -/
inductive Runner where
  | done (reply : Reply)
  | read (key : Bytes) (next : Option Bytes → Runner)
  | write (key : Bytes) (value : Option Bytes) (next : Runner)
  | call (name : Bytes) (args : List Bytes) (readOnly : Bool) (next : Reply → Runner)

/-- What a `HandlerFunc` or a `TxnPrepareFunc` returns: the error it wrote for arguments that
are not valid, or the keys and the runner. -/
abbrev Prepared := Except Reply (List Bytes × Runner)

/-- The part of a connection that commands such as `AUTH`, `HELLO` and `SUBSCRIBE` change:
`User`, whether `Protocol` is RESP3, and whether there is a `PubSubClient`. -/
structure Session where
  user : Option ACLUser
  resp3 : Bool
  pubSub : Bool

/-- A `ConnHandlerFunc`.  A blocking command runs once when it is called in a script. -/
inductive ConnHandler where
  | multi
  | exec
  | discard
  | watch
  | unwatch
  | session (run : Users → Session → List Bytes → Reply × Session)
  | data (run : Bool → List Bytes → Runner)

/-- `shared.CommandEntry` with its flags. -/
structure Entry where
  connHandler : Option ConnHandler
  handler : Option (List Bytes → Prepared)
  txnPrepare : Option (List Bytes → Prepared)
  keys : Option (List Bytes → List Bytes)
  write : Bool
  noAuth : Bool
  noQueue : Bool
  pubSub : Bool
  live : (connHandler.isSome || handler.isSome) = true

/-- `entry.Keys(cmd)`, empty where there is no extractor. -/
def Entry.declared (entry : Entry) (cmd : Command) : List Bytes :=
  match entry.keys with
  | none => []
  | some keys => keys cmd.args

/-- What queues a command: `TxnPrepare`, or `Handler`. -/
def Entry.prepare (entry : Entry) : Option (List Bytes → Prepared) :=
  entry.txnPrepare.or entry.handler

def isScriptCommand (cmd : CommandType) : Bool :=
  cmd ∈ [.cmdEval, .cmdEvalSha, .cmdEvalRO, .cmdEvalShaRO, .cmdFcall, .cmdFcallRO]

def ssiCommandAllowed (cmd : CommandType) : Bool :=
  cmd ∉ [.cmdFlushDB, .cmdFlushAll, .cmdPublish, .cmdSubscribe, .cmdUnsubscribe, .cmdPSubscribe,
    .cmdPUnsubscribe, .cmdKeys, .cmdScan, .cmdRandomKey, .cmdDBSize]

/-! ## 2.  The connection and the world -/

/-- A read or a write of a key. -/
structure Access where
  key : Bytes
  isWrite : Bool
  deriving DecidableEq

/-- How a command came to its handler. -/
inductive Route where
  | handler
  | connHandler
  /-- Run at once on the snapshot of an SSI transaction. -/
  | ssi
  /-- Queued and run by `EXEC`. -/
  | exec
  deriving DecidableEq

/-- A command at the point where its handler runs, or is refused: `user` is who sent it,
`checked` are the keys its route checks, `accesses` what it did itself, not through the commands
it called. -/
structure Attempt where
  user : Option ACLUser
  entry : Entry
  cmd : Command
  route : Route
  checked : List Bytes
  runner : Runner
  accesses : List Access
  reply : Reply

structure QueuedCommand where
  cmd : Command
  entry : Entry
  keys : List Bytes
  runner : Runner

/-- `shared.Connection`, as far as the dispatcher reads it. -/
structure Conn where
  session : Session
  inTransaction : Bool
  ssiTransaction : Bool
  txnAborted : Bool
  queuedCmds : List QueuedCommand
  bufferedResults : List Reply
  inScript : Bool

/-- A connection just made. -/
def Conn.fresh (user : Option ACLUser) (inScript : Bool) : Conn where
  session := ⟨user, false, false⟩
  inTransaction := false
  ssiTransaction := false
  txnAborted := false
  queuedCmds := []
  bufferedResults := []
  inScript := inScript

def Conn.resetTransaction (conn : Conn) : Conn :=
  { conn with
    inTransaction := false, ssiTransaction := false, txnAborted := false, queuedCmds := [],
    bufferedResults := [] }

abbrev Store := Bytes → Option Bytes

/-- One connection, the users, whether a script has timed out, the committed data, the view of
the running effects context, the ticks of the cluster and the log. -/
structure World where
  conn : Conn
  users : Users
  timedOut : Bool
  committed : Store
  view : Store
  ticks : ℕ
  log : List Attempt

/-- A connection just made to a server with these users and data. -/
def World.fresh (users : Users) (store : Store) : World :=
  ⟨Conn.fresh none false, users, false, store, store, 0, []⟩

/-- `conn.TxnAborted = true`. -/
def World.abortTxn (w : World) : World := { w with conn := { w.conn with txnAborted := true } }

/-- `Context.Abort`: the effects not yet flushed are dropped. -/
def World.dropPending (w : World) : World := { w with view := w.committed }

/-- `conn.ResetTransaction()`. -/
def World.resetTransaction (w : World) : World := { w with conn := w.conn.resetTransaction }

/-- Asks the cluster once. -/
def World.tick (w : World) : World := { w with ticks := w.ticks + 1 }

/-- `Flush` went through. -/
def World.commit (w : World) : World := { w with committed := w.view }

/-- What `Flush` returns: nothing, `ErrTxnAborted` or another error. -/
inductive Verdict where
  | committed
  | aborted
  | failed
  deriving DecidableEq

/-- The registry, whether `MULTI` begins an SSI transaction, and what the cluster answers at
each tick. -/
structure Server where
  registry : CommandType → Option Entry
  ssi : Bool
  forward : ℕ → Command → Option Reply
  forwardExec : ℕ → List Command → Option Reply
  flush : ℕ → Verdict
  checkWatches : ℕ → Bool

/-! ## 3.  Running a handler -/

/-- How a runner calls commands: `none` where a script runs already. -/
abbrev Calls := Option (Bytes → List Bytes → Bool → World → Reply × World)

/-- Runs a runner: its reply, what it accessed, and the world after it. -/
def Runner.run (call : Bytes → List Bytes → Bool → World → Reply × World) :
    Runner → World → Reply × List Access × World
  | .done reply, w => (reply, [], w)
  | .read key next, w =>
    let rest := (next (w.view key)).run call w
    (rest.1, ⟨key, false⟩ :: rest.2.1, rest.2.2)
  | .write key value next, w =>
    let rest := next.run call { w with view := Function.update w.view key value }
    (rest.1, ⟨key, true⟩ :: rest.2.1, rest.2.2)
  | .call name args readOnly next, w =>
    let called := call name args readOnly w
    (next called.1).run call called.2

/-- A call where there is no script: nothing runs. -/
def noCall : Bytes → List Bytes → Bool → World → Reply × World :=
  fun _ _ _ w => (.error .scriptLock, w)

/-- The effects of a writing command that replied with an error are taken back. -/
def undoOnError (entry : Entry) (w : World) (ran : Reply × List Access × World) :
    Reply × List Access × World :=
  if entry.write && entry.keys.isSome && ran.1.isError then
    (ran.1, ran.2.1, { ran.2.2 with view := w.view })
  else ran

/-- `runDataCommand`.  A script waits for the lock where one runs already. -/
def runDataCommand (calls : Calls) (entry : Entry) (cmd : Command) (runner : Runner)
    (w : World) : Reply × List Access × World :=
  if isScriptCommand cmd.type then
    match calls with
    | none => (.error .scriptLock, [], w)
    | some call => runner.run call w
  else undoOnError entry w (runner.run noCall w)

/-- Runs the handler of a command and logs the attempt. -/
def perform (calls : Calls) (user : Option ACLUser) (route : Route) (checked : List Bytes)
    (entry : Entry) (cmd : Command) (runner : Runner) (w : World) : Reply × World :=
  let ran := runDataCommand calls entry cmd runner w
  (ran.1, { ran.2.2 with
    log := ran.2.2.log ++ [⟨user, entry, cmd, route, checked, runner, ran.2.1, ran.1⟩] })

/-- Refuses to run the handler of a command and logs the attempt. -/
def refuse (err : DispatchError) (route : Route) (checked : List Bytes) (entry : Entry)
    (cmd : Command) (runner : Runner) (w : World) : Reply × World :=
  (.error err, { w with
    log := w.log ++
      [⟨w.conn.session.user, entry, cmd, route, checked, runner, [], .error err⟩] })

def clusterSafetyKey : Bytes := utf8 "__swytch::dc"

def keySafetyKey : Bytes := utf8 "__swytch::kc"

/-- An internal key that is not one of the two safety policies. -/
def reservedKey (key : Bytes) : Bool :=
  (utf8 "__swytch:").isPrefixOf key && key != clusterSafetyKey && key != keySafetyKey

/-- The check of a key against the user; without a user it is skipped. -/
def keyError (user : Option ACLUser) (isWrite : Bool) (key : Bytes) : Option DispatchError :=
  match user with
  | none => none
  | some user =>
    match checkKey (some user) key isWrite with
    | .ok _ => none
    | .error _ => some (.noKeyPermission key)

/-- The check of a key that is written. -/
def internalError (isWrite : Bool) (key : Bytes) : Option DispatchError :=
  if isWrite && reservedKey key then some (.internalKey key) else none

/-- Outside a transaction an attempt is flushed; `retry` is what follows an aborted one. -/
def settle (server : Server) (made : Reply × World) (retry : World → Reply × World) :
    Reply × World :=
  if made.2.conn.inTransaction then made
  else
    match server.flush made.2.ticks with
    | .committed => (made.1, made.2.tick.commit)
    | .failed => (.error .tryAgain, made.2.tick.dropPending)
    | .aborted => retry made.2.tick.dropPending

/-- The loop over the attempts of a command: an aborted one is made again, `EXEC` is not. -/
def attemptLoop (server : Server) (isExec : Bool) (attempt : World → Reply × World) :
    ℕ → World → Reply × World
  | 0, w => settle server (attempt w) fun w => (.error .tryAgain, w)
  | retries + 1, w =>
    settle server (attempt w) fun w =>
      if isExec then (.nullArray, w) else attemptLoop server isExec attempt retries w

def maxTxnRetries : ℕ := 10

/-! ## 4.  Transactions -/

/-- The checks of `queueCommand` in an SSI transaction. -/
def ssiError (user : Option ACLUser) (isWrite : Bool) (keys : List Bytes) :
    Option DispatchError :=
  keys.findSome? fun key => (keyError user isWrite key).or (internalError isWrite key)

/-- A command of an SSI transaction is checked and run at once; its result is kept for `EXEC`
unless a script called it. -/
def runInSSI (calls : Calls) (entry : Entry) (cmd : Command) (keys : List Bytes)
    (runner : Runner) (w : World) : Reply × World :=
  let checked := keys ++ entry.declared cmd
  match ssiError w.conn.session.user entry.write checked with
  | some err => refuse err .ssi checked entry cmd runner w.abortTxn
  | none =>
    let ran := perform calls w.conn.session.user .ssi checked entry cmd runner w
    if w.conn.inScript then ran
    else
      (ran.1, { ran.2 with
        conn := { ran.2.conn with bufferedResults := ran.2.conn.bufferedResults ++ [ran.1] } })

def queueCommand (server : Server) (calls : Calls) (cmd : Command) (w : World) :
    Reply × World :=
  if w.conn.ssiTransaction && !ssiCommandAllowed cmd.type then
    (.error (.notInSSI cmd.type), w.abortTxn)
  else
    match server.registry cmd.type with
    | none => (.error .unknownCommand, w.abortTxn)
    | some entry =>
      match entry.prepare with
      | none => (.error (.notInTransaction cmd.type), w.abortTxn)
      | some prepare =>
        match prepare cmd.args with
        | .error reply => (reply, w.abortTxn)
        | .ok (keys, runner) =>
          if w.conn.ssiTransaction then runInSSI calls entry cmd keys runner w
          else
            (.queued, { w with
              conn := { w.conn with
                queuedCmds := w.conn.queuedCmds ++ [⟨cmd, entry, keys, runner⟩] } })

def handleMulti (server : Server) (args : List Bytes) (w : World) : Reply × World :=
  if args ≠ [] then (.error (.wrongNumArguments "multi"), w)
  else if w.conn.inTransaction then (.error .nestedMulti, w)
  else
    (.ok, { w with
      conn := { w.conn with
        inTransaction := true
        ssiTransaction := w.conn.ssiTransaction || server.ssi
        txnAborted := false } })

def handleDiscard (args : List Bytes) (w : World) : Reply × World :=
  if args ≠ [] then (.error (.wrongNumArguments "discard"), w)
  else if !w.conn.inTransaction then (.error .discardWithoutMulti, w)
  else (.ok, w.dropPending.resetTransaction)

/-- `handleWatch`; what is watched is known to the cluster. -/
def handleWatch (args : List Bytes) (w : World) : Reply × World :=
  if args = [] then (.error (.wrongNumArguments "watch"), w)
  else if w.conn.inTransaction then (.error .watchInsideMulti, w)
  else (.ok, w)

def handleUnwatch (args : List Bytes) (w : World) : Reply × World :=
  if args ≠ [] then (.error (.wrongNumArguments "unwatch"), w) else (.ok, w)

/-- The loop of `handleExec` over the queued commands.  Nothing is checked. -/
def runQueued (calls : Calls) : List QueuedCommand → World → List Reply × World
  | [], w => ([], w)
  | queued :: rest, w =>
    let ran := perform calls w.conn.session.user .exec [] queued.entry queued.cmd queued.runner w
    let others := runQueued calls rest ran.2
    (ran.1 :: others.1, others.2)

def handleExec (server : Server) (calls : Calls) (args : List Bytes) (w : World) :
    Reply × World :=
  if args ≠ [] then (.error (.wrongNumArguments "exec"), w)
  else if !w.conn.inTransaction then (.error .execWithoutMulti, w)
  else if w.conn.txnAborted then (.error .execAbort, w.dropPending.resetTransaction)
  else if w.timedOut then (.error .execAbortBusy, w.dropPending.resetTransaction)
  else
    match if w.conn.ssiTransaction then none
        else server.forwardExec w.ticks (w.conn.queuedCmds.map QueuedCommand.cmd) with
    | some reply => (reply, w.tick.resetTransaction)
    | none =>
      if !server.checkWatches w.tick.ticks then
        (.nullArray, w.tick.tick.dropPending.resetTransaction)
      else if w.conn.ssiTransaction then
        (.array w.conn.bufferedResults, w.tick.tick.resetTransaction)
      else
        let ran := runQueued calls w.conn.queuedCmds w.tick.tick
        (.array ran.1, ran.2.resetTransaction)

/-! ## 5.  `ExecuteInto`, scripts and forwarded commands -/

/-- The `ConnHandler` of a command. -/
def runConnHandler (server : Server) (calls : Calls) (user : Option ACLUser) (entry : Entry)
    (cmd : Command) (handler : ConnHandler) (w : World) : Reply × World :=
  match handler with
  | .multi => handleMulti server cmd.args w
  | .exec => handleExec server calls cmd.args w
  | .discard => handleDiscard cmd.args w
  | .watch => handleWatch cmd.args w
  | .unwatch => handleUnwatch cmd.args w
  | .session run =>
    let ran := run w.users w.conn.session cmd.args
    (ran.1, { w with conn := { w.conn with session := ran.2 } })
  | .data run =>
    perform calls user .connHandler (entry.declared cmd) entry cmd
      (run w.conn.inScript cmd.args) w

/-- The runner of a `ConnHandler` that has one. -/
def ConnHandler.runner (handler : ConnHandler) (inScript : Bool) (args : List Bytes) : Runner :=
  match handler with
  | .data run => run inScript args
  | _ => .done .ok

/-- The `ConnHandler` path: the declared keys are checked against the user. -/
def dispatchConn (server : Server) (calls : Calls) (entry : Entry) (cmd : Command)
    (handler : ConnHandler) (w : World) : Reply × World :=
  match (entry.declared cmd).findSome? (keyError w.conn.session.user entry.write) with
  | some err =>
    refuse err .connHandler (entry.declared cmd) entry cmd
      (handler.runner w.conn.inScript cmd.args) w
  | none =>
    attemptLoop server (cmd.type = .cmdExec)
      (runConnHandler server calls w.conn.session.user entry cmd handler) maxTxnRetries w

/-- The checks of the `Handler` path: the user first, then the internal keys. -/
def handlerError (user : Option ACLUser) (isWrite : Bool) (keys : List Bytes) :
    Option DispatchError :=
  (keys.findSome? (keyError user isWrite)).or (keys.findSome? (internalError isWrite))

/-- The `Handler` path: the keys of the handler are checked, a writing command may be answered
by the leader, and the rest runs here. -/
def dispatchHandler (server : Server) (calls : Calls) (entry : Entry) (cmd : Command)
    (handler : List Bytes → Prepared) (w : World) : Reply × World :=
  match handler cmd.args with
  | .error reply => (reply, w)
  | .ok (keys, runner) =>
    match handlerError w.conn.session.user entry.write keys with
    | some err => refuse err .handler keys entry cmd runner w
    | none =>
      match if entry.write && !(entry.declared cmd).isEmpty then server.forward w.ticks cmd
          else none with
      | some reply => (reply, w.tick)
      | none =>
        attemptLoop server false
          (perform calls w.conn.session.user .handler keys entry cmd runner)
          maxTxnRetries w.tick

/-- The dispatch through the registry. -/
def dispatch (server : Server) (calls : Calls) (cmd : Command) (w : World) : Reply × World :=
  match server.registry cmd.type with
  | none => (.error .unknownCommand, w)
  | some entry =>
    match entry.connHandler with
    | some handler => dispatchConn server calls entry cmd handler w
    | none =>
      match entry.handler with
      | some handler => dispatchHandler server calls entry cmd handler w
      | none => (.error .unknownCommand, w)

def authenticateDefault (users : Users) : Option ACLUser :=
  match users.lookup defaultUsername with
  | none => none
  | some user => if user.enabled && user.noPass then some user else none

def Server.flag (server : Server) (cmd : Command) (flag : Entry → Bool) : Bool :=
  match server.registry cmd.type with
  | none => false
  | some entry => flag entry

/-- The default user is taken for a connection without one, unless the command needs none. -/
def authenticated (server : Server) (cmd : Command) (w : World) : Option World :=
  match w.conn.session.user with
  | some _ => some w
  | none =>
    if server.flag cmd Entry.noAuth then some w
    else
      match authenticateDefault w.users with
      | none => none
      | some user =>
        some { w with
          conn := { w.conn with session := { w.conn.session with user := some user } } }

/-- `CheckCommand` refuses; `AUTH` and `QUIT` are not checked. -/
def commandDenied (cmd : Command) (w : World) : Bool :=
  match w.conn.session.user with
  | none => false
  | some user =>
    cmd.type != .cmdAuth && cmd.type != .cmdQuit &&
      match checkCommand (some user) cmd.type with
      | .ok _ => false
      | .error _ => true

/-- In pub/sub mode only the commands for it are allowed. -/
def pubSubDenied (server : Server) (cmd : Command) (w : World) : Bool :=
  w.conn.session.pubSub && !w.conn.session.resp3 && !server.flag cmd Entry.pubSub

/-- While a script has timed out only a few commands are allowed. -/
def busyDenied (cmd : Command) (w : World) : Bool :=
  w.timedOut &&
    !(if cmd.type = .cmdScript ∨ cmd.type = .cmdFunction then
        (cmd.args.head?.map fun arg => arg.map ByteText.upperByte) = some (utf8 "KILL")
      else cmd.type ∈ [.cmdShutdown, .cmdMulti, .cmdExec, .cmdDiscard])

/-- The checks of `ExecuteInto` before a command is queued or dispatched: the world in which it
is, or the reply that refuses it. -/
def admission (server : Server) (cmd : Command) (w : World) : Except (Reply × World) World :=
  match authenticated server cmd w with
  | none => .error (.error .noAuth, w)
  | some w =>
    if commandDenied cmd w then
      .error (.error (.noCommandPermission cmd.type),
        -- Only an SSI transaction is aborted here.
        if w.conn.ssiTransaction then w.abortTxn else w)
    else if pubSubDenied server cmd w then .error (.error .pubSubContext, w)
    else if busyDenied cmd w then
      .error (.error .busy, if w.conn.inTransaction then w.abortTxn else w)
    else .ok w

def executeInto (server : Server) (calls : Calls) (cmd : Command) (w : World) : Reply × World :=
  match admission server cmd w with
  | .error refused => refused
  | .ok w =>
    if w.conn.inTransaction && !server.flag cmd Entry.noQueue then
      if cmd.type = .cmdUnknown then (.error .unknownCommand, w.abortTxn)
      else queueCommand server calls cmd w
    else dispatch server calls cmd w

def blockedCommands : List String :=
  ["SUBSCRIBE", "PSUBSCRIBE", "MULTI", "EXEC", "DISCARD", "WATCH", "UNWATCH"]

def readOnlyCommands : List CommandType :=
  [.cmdGet, .cmdMGet, .cmdStrLen, .cmdGetRange, .cmdSubstr,
    .cmdExists, .cmdType, .cmdKeys, .cmdScan, .cmdRandomKey,
    .cmdTTL, .cmdPTTL, .cmdExpireTime, .cmdPExpireTime,
    .cmdSort, .cmdSortRO,
    .cmdHGet, .cmdHMGet, .cmdHGetAll, .cmdHKeys, .cmdHVals,
    .cmdHLen, .cmdHExists, .cmdHScan, .cmdHStrLen, .cmdHRandField,
    .cmdLLen, .cmdLRange, .cmdLIndex, .cmdLPos,
    .cmdSMembers, .cmdSIsMember, .cmdSMIsMember, .cmdSCard,
    .cmdSRandMember, .cmdSInter, .cmdSUnion, .cmdSDiff,
    .cmdZCard, .cmdZCount, .cmdZRange, .cmdZRangeByScore,
    .cmdZRevRange, .cmdZRevRangeByScore, .cmdZRank, .cmdZRevRank,
    .cmdZScore, .cmdZMScore, .cmdZLexCount,
    .cmdZRangeByLex, .cmdZRevRangeByLex, .cmdZRandMember,
    .cmdXLen, .cmdXRange, .cmdXRevRange, .cmdXRead,
    .cmdXInfo, .cmdXPending,
    .cmdPFCount,
    .cmdGetBit, .cmdBitCount, .cmdBitPos,
    .cmdPing, .cmdEcho, .cmdTime,
    .cmdInfo, .cmdDebug, .cmdMemory,
    .cmdConfig, .cmdClient, .cmdCommand]

def isWriteCommand (cmd : CommandType) : Bool := cmd ∉ readOnlyCommands

/-- `redisCall`: the command of a call out of a script. -/
def redisCall (exec : Command → World → Reply × World) (name : Bytes) (args : List Bytes)
    (readOnly : Bool) (w : World) : Reply × World :=
  let cmdName := ByteText.toUpper name
  if blockedCommands.any fun blocked => utf8 blocked = cmdName then
    (.error .notAllowedFromScript, w)
  else
    match lookupCommandName cmdName with
    | none => (.error .unknownFromScript, w)
    | some type =>
      if type = .cmdUnknown then (.error .unknownFromScript, w)
      else if readOnly && isWriteCommand type then (.error .writeFromReadOnlyScript, w)
      else
        let ran := exec ⟨type, args⟩ { w with conn := { w.conn with inScript := true } }
        (ran.1, { ran.2 with conn := { ran.2.conn with inScript := w.conn.inScript } })

/-- A command called by a script. -/
def executeInScript (server : Server) (cmd : Command) (w : World) : Reply × World :=
  executeInto server none cmd w

def Server.calls (server : Server) : Calls := some (redisCall (executeInScript server))

/-- A command of a client. -/
def execute (server : Server) (cmd : Command) (w : World) : Reply × World :=
  executeInto server server.calls cmd w

/-- The commands of a forwarded transaction are queued, then run; the replies of the queueing
are discarded. -/
def executeForwarded (server : Server) (cmds : List Command) (w : World) : Reply × World :=
  let queued := cmds.foldl (fun w cmd => (queueCommand server server.calls cmd w).2) w
  let ran := handleExec server server.calls [] queued
  match server.flush ran.2.ticks with
  | .committed => (ran.1, ran.2.tick.commit)
  | .aborted => (.nullArray, ran.2.tick.dropPending)
  | .failed => (.error .tryAgain, ran.2.tick.dropPending)

/-- A single forwarded command is executed like that of a client, on the connection given. -/
def runForwarded (server : Server) (conn : Conn) (cmds : List Command) (w : World) :
    Reply × World :=
  match cmds with
  | [cmd] => execute server cmd { w with conn := conn, view := w.committed }
  | cmds =>
    executeForwarded server cmds
      { w with conn := { conn with inTransaction := true }, view := w.committed }

/-- `HandleForwardedTransaction`: the commands run on a connection of their own with an effects
context of its own. -/
def handleForwardedTransaction (server : Server) (authorizedUser : Bytes) (cmds : List Command)
    (w : World) : Reply × World :=
  let username := if authorizedUser = [] then defaultUsername else authorizedUser
  match w.users.lookup username with
  | none => (.error (if cmds = [] then .emptyTransaction else .unknownUser username), w)
  | some user =>
    if cmds = [] then (.error .emptyTransaction, w)
    else if !user.enabled then (.error (.disabledUser username), w)
    else
      let ran := runForwarded server (Conn.fresh (some user) true) cmds w
      (ran.1, { ran.2 with
        conn := w.conn
        view := if w.conn.ssiTransaction then w.view else ran.2.committed })

/-- What happens to a connection and its node. -/
inductive Event where
  | client (cmd : Command)
  /-- Another node forwards commands. -/
  | forwarded (authorizedUser : Bytes) (cmds : List Command)
  /-- The users are changed, in place. -/
  | acl (users : Users)
  /-- A script runs out of its time, or ends. -/
  | script (timedOut : Bool)
  /-- Others write to the data. -/
  | external (store : Store)

def step (server : Server) : Event → World → Reply × World
  | .client cmd, w => execute server cmd w
  | .forwarded user cmds, w => handleForwardedTransaction server user cmds w
  | .acl users, w =>
    (.ok, { w with
      users := users
      conn := { w.conn with
        session := { w.conn.session with
          user := w.conn.session.user.map fun user =>
            (users.lookup user.name).getD user } } })
  | .script timedOut, w => (.ok, { w with timedOut := timedOut })
  | .external store, w =>
    (.ok, { w with
      committed := store, view := if w.conn.ssiTransaction then w.view else store })

def runEvents (server : Server) (events : List Event) (w : World) : World :=
  events.foldl (fun w event => (step server event w).2) w

end Swytch.Redis
