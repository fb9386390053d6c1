import Swytch.Redis.Transactions

/-!
# Scripts in a transaction

A script that is a list of `redis.call`s, sent alone and sent between `MULTI` and `EXEC`.  The
called commands go back through `ExecuteInto` on the connection of the script.

In an SSI transaction a called command runs at once on the snapshot, and the two runs go in
lockstep (`call_agrees`, `run_script_agrees`).  Outside SSI the connection is still in its
transaction while `EXEC` runs the queued script: a called command is queued, the script gets
`QUEUED` for it, and `ResetTransaction` drops it (`PlainAs.queued`).
-/

namespace Swytch.Redis

open List
open Sql (Bytes utf8)

/-! ## 1.  Scripts -/

/-- A script whose body is a list of `redis.call` commands: what it returns when all went
through, and what `executeScript` writes when one raised an error. -/
structure Script where
  calls : List (Bytes × List Bytes)
  readOnly : Bool
  result : List Reply → Reply
  failure : Reply → Reply

/-- The rest of a script after some calls. -/
def Script.runnerFrom (script : Script) : List Reply → List (Bytes × List Bytes) → Runner
  | replies, [] => .done (script.result replies)
  | replies, call :: rest =>
    .call call.1 call.2 script.readOnly fun reply =>
      if reply.isError then .done (script.failure reply)
      else script.runnerFrom (replies ++ [reply]) rest

/-- `executeScript`. -/
def Script.runner (script : Script) : Runner := script.runnerFrom [] script.calls

/-- The entries of `EVAL`, `FCALL` and the others: `ConnHandler` and `TxnPrepare` run the same
script, and `TxnPrepare` names no keys. -/
structure IsScriptEntry (entry : Entry) (args : List Bytes) (script : Script) : Prop where
  connHandler : ∃ run, entry.connHandler = some (.data run) ∧
    ∀ inScript, run inScript args = script.runner
  txnPrepare : ∃ prepare, entry.txnPrepare = some prepare ∧
    prepare args = .ok ([], script.runner)
  isQueued : entry.noQueue = false

/-! ## 2.  What a data command computes -/

/-- What a runner that calls no command makes of the data. -/
def Runner.eval : Runner → Store → Reply × Store
  | .done reply, store => (reply, store)
  | .read key next, store => (next (store key)).eval store
  | .write key value next, store => next.eval (Function.update store key value)
  | .call _ _ _ next, store => (next (.error .scriptLock)).eval store

/-- The same for a command, whose effects are taken back when it replied with an error. -/
def Entry.eval (entry : Entry) (runner : Runner) (store : Store) : Reply × Store :=
  if entry.write && entry.keys.isSome && (runner.eval store).1.isError then
    ((runner.eval store).1, store)
  else runner.eval store

theorem Runner.run_noCall_eval (runner : Runner) (w : World) :
    (runner.run noCall w).1 = (runner.eval w.view).1 ∧
      (runner.run noCall w).2.2.view = (runner.eval w.view).2 := by
  induction runner generalizing w with
  | done reply => exact ⟨rfl, rfl⟩
  | read key next ih => exact ih _ w
  | write key value next ih => exact ih { w with view := Function.update w.view key value }
  | call name args readOnly next ih => exact ih _ w

theorem runDataCommand_eval (calls : Calls) (entry : Entry) (cmd : Command)
    (hcmd : isScriptCommand cmd.type = false) (runner : Runner) (w : World) :
    (runDataCommand calls entry cmd runner w).1 = (entry.eval runner w.view).1 ∧
      (runDataCommand calls entry cmd runner w).2.2 =
        { w with view := (entry.eval runner w.view).2 } := by
  obtain ⟨hr, hv⟩ := runner.run_noCall_eval w
  have hworld := runDataCommand_notScript calls entry hcmd runner w
  have hcommand : runDataCommand calls entry cmd runner w =
      undoOnError entry w (runner.run noCall w) := by simp [runDataCommand, hcmd]
  rw [hworld, hcommand]
  unfold undoOnError Entry.eval
  rw [hr]
  split_ifs with hundo
  · exact ⟨rfl, rfl⟩
  · exact ⟨hr, by rw [hv]⟩

/-! ## 3.  One call, alone and in a transaction -/

/-- The cluster leaves the commands to this node, and everything it flushes commits. -/
structure Undisturbed (server : Server) : Prop where
  flush : ∀ tick, server.flush tick = .committed
  forward : ∀ tick cmd, server.forward tick cmd = none
  forwardExec : ∀ tick cmds, server.forwardExec tick cmds = none
  checkWatches : ∀ tick, server.checkWatches tick = true

/-- A connection of the user that may send commands. -/
structure Open (user : ACLUser) (w : World) : Prop where
  user : w.conn.session.user = some user
  notPubSub : w.conn.session.pubSub = false
  notTimedOut : w.timedOut = false

/-- `redis.call` refuses the command before it gets to the dispatcher. -/
def ApiRefused (readOnly : Bool) (name : Bytes) : Prop :=
  (blockedCommands.any fun blocked => utf8 blocked = ByteText.toUpper name) = true ∨
    ∀ type, lookupCommandName (ByteText.toUpper name) = some type →
      type = .cmdUnknown ∨ (readOnly = true ∧ isWriteCommand type = true)

/-- A called command that `redis.call` lets through and that both ways of the dispatcher run: it
has a `Handler` only, it is allowed in SSI, the user may run it, its arguments are accepted, and
its keys and those the registry declares pass the checks. -/
structure PlainAs (server : Server) (user : ACLUser) (readOnly : Bool) (name : Bytes)
    (args : List Bytes) (type : CommandType) (entry : Entry) (handler : List Bytes → Prepared)
    (keys : List Bytes) (runner : Runner) : Prop where
  notBlocked : (blockedCommands.any fun blocked => utf8 blocked = ByteText.toUpper name) = false
  named : lookupCommandName (ByteText.toUpper name) = some type
  known : type ≠ .cmdUnknown
  mayWrite : (readOnly && isWriteCommand type) = false
  registered : server.registry type = some entry
  noConnHandler : entry.connHandler = none
  noTxnPrepare : entry.txnPrepare = none
  hasHandler : entry.handler = some handler
  isQueued : entry.noQueue = false
  inSSI : ssiCommandAllowed type = true
  notScript : isScriptCommand type = false
  permitted : checkCommand (some user) type = .ok ()
  accepted : handler args = .ok (keys, runner)
  checked : ssiError (some user) entry.write (keys ++ entry.declared ⟨type, args⟩) = none

/-- See `PlainAs`. -/
def PlainCall (server : Server) (user : ACLUser) (readOnly : Bool) (name : Bytes)
    (args : List Bytes) : Prop :=
  ∃ type entry handler keys runner,
    PlainAs server user readOnly name args type entry handler keys runner

section Calls

variable {w : World} {server : Server} {user : ACLUser} {readOnly : Bool} {name : Bytes}
    {args : List Bytes}

theorem admission_of_open {cmd : Command} (h : Open user w)
    (hch : checkCommand (some user) cmd.type = .ok ()) : admission server cmd w = .ok w := by
  have hau : authenticated server cmd w = some w := authenticated_of_user (by simp [h.user])
  have hden : commandDenied cmd w = false := by simp [commandDenied, h.user, hch]
  have hpubSub : pubSubDenied server cmd w = false := by simp [pubSubDenied, h.notPubSub]
  have hbusy : busyDenied cmd w = false := by simp [busyDenied, h.notTimedOut]
  simp [admission, hau, hden, hpubSub, hbusy]

/-- A refused call gets an error and changes nothing, whatever the world. -/
theorem call_refused (href : ApiRefused readOnly name) (args : List Bytes)
    (exec : Command → World → Reply × World) :
    ∃ err, ∀ w, redisCall exec name args readOnly w = (.error err, w) := by
  unfold redisCall
  by_cases hblocked :
      (blockedCommands.any fun blocked => utf8 blocked = ByteText.toUpper name) = true
  · exact ⟨_, fun w => if_pos hblocked⟩
  have hl := href.resolve_left hblocked
  cases hn : lookupCommandName (ByteText.toUpper name) with
  | none => exact ⟨.unknownFromScript, fun w => by simp only [if_neg hblocked, hn]⟩
  | some type =>
    by_cases hunk : type = .cmdUnknown
    · exact ⟨.unknownFromScript, fun w => by
        simp only [if_neg hblocked, hn, if_pos hunk]⟩
    · obtain ⟨hreadOnly, hw⟩ := (hl type hn).resolve_left hunk
      have hboth : (readOnly && isWriteCommand type) = true := by simp [hreadOnly, hw]
      exact ⟨.writeFromReadOnlyScript, fun w => by
        simp only [if_neg hblocked, hn, if_neg hunk, if_pos hboth]⟩

variable {type : CommandType} {entry : Entry} {handler : List Bytes → Prepared}
  {keys : List Bytes} {runner : Runner}

/-- The world in which the executor gets the command of a call. -/
def World.enterScript (w : World) : World := { w with conn := { w.conn with inScript := true } }

theorem Open.enterScript (h : Open user w) : Open user w.enterScript :=
  ⟨h.user, h.notPubSub, h.notTimedOut⟩

section

variable (h : PlainAs server user readOnly name args type entry handler keys runner)

include h

theorem PlainAs.redisCall_eq (exec : Command → World → Reply × World) (w : World) :
    redisCall exec name args readOnly w =
      ((exec ⟨type, args⟩ w.enterScript).1,
        { (exec ⟨type, args⟩ w.enterScript).2 with
          conn := { (exec ⟨type, args⟩ w.enterScript).2.conn with
            inScript := w.conn.inScript } }) := by
  unfold redisCall
  simp only [h.notBlocked, h.named, h.known, h.mayWrite]
  rfl

theorem PlainAs.flag_noQueue : server.flag ⟨type, args⟩ Entry.noQueue = false := by
  simp [Server.flag, h.registered, h.isQueued]

theorem PlainAs.prepare_eq : entry.prepare = some handler := by
  simp [Entry.prepare, h.noTxnPrepare, h.hasHandler]

theorem PlainAs.handlerError_eq : handlerError (some user) entry.write keys = none := by
  have hch : ∀ key ∈ keys, (keyError (some user) entry.write key).or
      (internalError entry.write key) = none :=
    fun key hkey => findSome?_eq_none_iff.mp h.checked key (mem_append_left _ hkey)
  have hu : keys.findSome? (keyError (some user) entry.write) = none :=
    findSome?_eq_none_iff.mpr fun key hkey => (Option.or_eq_none_iff.mp (hch key hkey)).1
  have hint : keys.findSome? (internalError entry.write) = none :=
    findSome?_eq_none_iff.mpr fun key hkey => (Option.or_eq_none_iff.mp (hch key hkey)).2
  simp [handlerError, hu, hint]

theorem PlainAs.admitted (hopen : Open user w) :
    admission server ⟨type, args⟩ w.enterScript = .ok w.enterScript :=
  admission_of_open hopen.enterScript h.permitted

/-- A plain command called outside a transaction runs and is flushed. -/
theorem PlainAs.alone
    (hserver : Undisturbed server) (hopen : Open user w) (houtside : w.conn.inTransaction = false) :
    ∃ ticks log, redisCall (executeInScript server) name args readOnly w =
      ((entry.eval runner w.view).1,
        { w with
          committed := (entry.eval runner w.view).2
          view := (entry.eval runner w.view).2
          ticks := ticks
          log := log }) := by
  have houtside' : w.enterScript.conn.inTransaction = false := houtside
  have hdispatch : executeInScript server ⟨type, args⟩ w.enterScript =
      dispatchHandler server none entry ⟨type, args⟩ handler w.enterScript := by
    simp [executeInScript, executeInto, h.admitted hopen, houtside', dispatch, h.registered,
      h.noConnHandler, h.hasHandler]
  have hu : w.enterScript.conn.session.user = some user := hopen.user
  obtain ⟨hr, hworld⟩ :=
    runDataCommand_eval none entry ⟨type, args⟩ h.notScript runner w.enterScript.tick
  have hran : executeInScript server ⟨type, args⟩ w.enterScript =
      ((entry.eval runner w.view).1,
        (perform none (some user) .handler keys entry ⟨type, args⟩ runner
          w.enterScript.tick).2.tick.commit) := by
    rw [hdispatch, dispatchHandler]
    simp only [h.accepted, hu, h.handlerError_eq, hserver.forward, ite_self, maxTxnRetries,
      attemptLoop, settle, hserver.flush]
    rw [if_neg]
    · exact Prod.ext hr rfl
    · have hc : w.enterScript.tick.conn.inTransaction = false := houtside
      simp only [perform]
      rw [hworld, hc]
      simp
  refine ⟨w.ticks + 1 + 1, (perform none (some user) .handler keys entry ⟨type, args⟩ runner
    w.enterScript.tick).2.log, ?_⟩
  rw [h.redisCall_eq, hran]
  simp only [perform]
  rw [hworld]
  rfl

/-- In an SSI transaction it runs on the snapshot. -/
theorem PlainAs.in_ssi (hopen : Open user w) (hin : w.conn.inTransaction = true)
    (hssi : w.conn.ssiTransaction = true) :
    ∃ log, redisCall (executeInScript server) name args readOnly w =
      ((entry.eval runner w.view).1,
        { w with view := (entry.eval runner w.view).2, log := log }) := by
  have hinside' : w.enterScript.conn.inTransaction = true := hin
  have hssi' : w.enterScript.conn.ssiTransaction = true := hssi
  have hu : w.enterScript.conn.session.user = some user := hopen.user
  have hsc : w.enterScript.conn.inScript = true := rfl
  obtain ⟨hr, hworld⟩ :=
    runDataCommand_eval none entry ⟨type, args⟩ h.notScript runner w.enterScript
  have hran : executeInScript server ⟨type, args⟩ w.enterScript =
      perform none (some user) .ssi (keys ++ entry.declared ⟨type, args⟩) entry ⟨type, args⟩
        runner w.enterScript := by
    simp only [executeInScript, executeInto, h.admitted hopen, hinside', h.flag_noQueue,
      Bool.not_false, Bool.and_self, if_true, h.known, if_false, queueCommand, hssi', h.inSSI, Bool.not_true,
      Bool.and_false, Bool.false_eq_true, h.registered, h.prepare_eq, h.accepted, runInSSI, hu,
      h.checked, hsc]
  refine ⟨(perform none (some user) .ssi (keys ++ entry.declared ⟨type, args⟩) entry
    ⟨type, args⟩ runner w.enterScript).2.log, ?_⟩
  rw [h.redisCall_eq, hran]
  simp only [perform]
  rw [hworld]
  exact Prod.ext hr rfl

/-- In a transaction outside SSI it is queued. -/
theorem PlainAs.queued (hopen : Open user w) (hin : w.conn.inTransaction = true)
    (hssi : w.conn.ssiTransaction = false) :
    redisCall (executeInScript server) name args readOnly w =
      (.queued, { w with
        conn := { w.conn with
          queuedCmds := w.conn.queuedCmds ++ [⟨⟨type, args⟩, entry, keys, runner⟩] } }) := by
  have hinside' : w.enterScript.conn.inTransaction = true := hin
  have hssi' : w.enterScript.conn.ssiTransaction = false := hssi
  rw [h.redisCall_eq]
  simp only [executeInScript, executeInto, h.admitted hopen, hinside', h.flag_noQueue,
    Bool.not_false, h.known, queueCommand, hssi', h.registered, h.prepare_eq, h.accepted]
  rw [hin, hssi]
  rfl

end

end Calls

/-! ## 4.  A script, alone and in a transaction -/

/-- The same data behind two connections, one outside a transaction and one in an SSI
transaction. -/
structure Lockstep (user : ACLUser) (w v : World) : Prop where
  openAlone : Open user w
  openInside : Open user v
  outside : w.conn.inTransaction = false
  flushed : w.committed = w.view
  inside : v.conn.inTransaction = true
  ssi : v.conn.ssiTransaction = true
  view : w.view = v.view

section Lockstep

variable {server : Server} {user : ACLUser} {script : Script}

/-- The run of a script whose calls go back to the dispatcher. -/
def Script.run (script : Script) (server : Server) : World → Reply × List Access × World :=
  script.runner.run (redisCall (executeInScript server))

theorem Script.runDataCommand_eq {cmd : Command} (h : isScriptCommand cmd.type = true)
    (entry : Entry) (w : World) :
    runDataCommand server.calls entry cmd script.runner w = script.run server w := by
  simp [runDataCommand, h, Server.calls, Script.run]

theorem call_agrees (hserver : Undisturbed server) {readOnly : Bool} {name : Bytes}
    {args : List Bytes}
    (hc : ApiRefused readOnly name ∨ PlainCall server user readOnly name args) {w v : World}
    (h : Lockstep user w v) :
    (redisCall (executeInScript server) name args readOnly w).1 =
        (redisCall (executeInScript server) name args readOnly v).1 ∧
      Lockstep user (redisCall (executeInScript server) name args readOnly w).2
        (redisCall (executeInScript server) name args readOnly v).2 ∧
      (redisCall (executeInScript server) name args readOnly w).2.conn = w.conn ∧
      ∃ view log, (redisCall (executeInScript server) name args readOnly v).2 =
        { v with view := view, log := log } := by
  rcases hc with href | ⟨type, entry, handler, keys, runner, hpl⟩
  · obtain ⟨err, hcalled⟩ := call_refused href args (executeInScript server)
    rw [hcalled w, hcalled v]
    exact ⟨rfl, h, rfl, v.view, v.log, rfl⟩
  · obtain ⟨ticks, log, hal⟩ := hpl.alone hserver h.openAlone h.outside
    obtain ⟨log', hin⟩ := hpl.in_ssi h.openInside h.inside h.ssi
    rw [hal, hin, h.view]
    refine ⟨rfl, ⟨⟨h.openAlone.user, h.openAlone.notPubSub, h.openAlone.notTimedOut⟩,
      ⟨h.openInside.user, h.openInside.notPubSub, h.openInside.notTimedOut⟩, h.outside, rfl,
      h.inside, h.ssi, rfl⟩, rfl, _, _, rfl⟩

/-- The runs of the rest of a script stay in lockstep and reply the same. -/
theorem run_script_agrees (hserver : Undisturbed server) {calls : List (Bytes × List Bytes)}
    (hcs : ∀ call ∈ calls, ApiRefused script.readOnly call.1 ∨
      PlainCall server user script.readOnly call.1 call.2)
    (replies : List Reply) {w v : World} (h : Lockstep user w v) :
    ((script.runnerFrom replies calls).run (redisCall (executeInScript server)) w).1 =
        ((script.runnerFrom replies calls).run (redisCall (executeInScript server)) v).1 ∧
      Lockstep user
        ((script.runnerFrom replies calls).run (redisCall (executeInScript server)) w).2.2
        ((script.runnerFrom replies calls).run (redisCall (executeInScript server)) v).2.2 ∧
      ((script.runnerFrom replies calls).run (redisCall (executeInScript server)) w).2.2.conn =
        w.conn ∧
      ∃ view log,
        ((script.runnerFrom replies calls).run (redisCall (executeInScript server)) v).2.2 =
          { v with view := view, log := log } := by
  induction calls generalizing replies w v with
  | nil => exact ⟨rfl, h, rfl, v.view, v.log, rfl⟩
  | cons call rest ih =>
    obtain ⟨hr, hstep, hw, view, log, hv⟩ := call_agrees hserver (hcs call mem_cons_self) h
    simp only [Script.runnerFrom, Runner.run, hr]
    split
    · exact ⟨rfl, hstep, hw, view, log, hv⟩
    · obtain ⟨hrs, hl, hw', view', log', hv'⟩ :=
        ih (fun call hmem => hcs call (mem_cons_of_mem _ hmem)) _ hstep
      exact ⟨hrs, hl, hw'.trans hw, view', log', by rw [hv', hv]⟩

end Lockstep

/-- A script that has its first call refused, or none, does the same in every world and changes
nothing. -/
theorem run_script_refused {script : Script}
    (hf : ∀ call ∈ script.calls.head?, ApiRefused script.readOnly call.1) (server : Server) :
    ∃ reply, ∀ w, script.run server w = (reply, [], w) := by
  unfold Script.run Script.runner
  cases hcs : script.calls with
  | nil => exact ⟨script.result [], fun w => rfl⟩
  | cons call rest =>
    rw [hcs] at hf
    obtain ⟨err, hcalled⟩ := call_refused (hf call rfl) call.2 (executeInScript server)
    refine ⟨script.failure (.error err), fun w => ?_⟩
    simp [Script.runnerFrom, Runner.run, hcalled w, Reply.isError]

/-! ## 5.  `MULTI`, the script, `EXEC` -/

/-- A connection outside a transaction, with nothing that is not flushed. -/
structure Idle (user : ACLUser) (w : World) : Prop extends Open user w where
  outside : w.conn.inTransaction = false
  notSSI : w.conn.ssiTransaction = false
  noneQueued : w.conn.queuedCmds = []
  noResults : w.conn.bufferedResults = []
  notInScript : w.conn.inScript = false
  flushed : w.committed = w.view

/-- `MULTI`, `EXEC` and the script command are registered, the user may run them on the declared
keys, and the cluster does not interfere. -/
structure ScriptReady (server : Server) (user : ACLUser) (cmd : Command) (entry : Entry)
    (script : Script) : Prop where
  undisturbed : Undisturbed server
  multi : ∃ entry, server.registry .cmdMulti = some entry ∧ entry.connHandler = some .multi ∧
    entry.noQueue = true ∧ entry.keys = none
  exec : ∃ entry, server.registry .cmdExec = some entry ∧ entry.connHandler = some .exec ∧
    entry.noQueue = true ∧ entry.keys = none
  mayMulti : checkCommand (some user) .cmdMulti = .ok ()
  mayExec : checkCommand (some user) .cmdExec = .ok ()
  mayScript : checkCommand (some user) cmd.type = .ok ()
  isScript : isScriptCommand cmd.type = true
  registered : server.registry cmd.type = some entry
  isEntry : IsScriptEntry entry cmd.args script
  checked : ssiError (some user) entry.write (entry.declared cmd) = none

def World.afterMulti (w : World) (ssi : Bool) : World :=
  { w with
    conn := { w.conn with inTransaction := true, ssiTransaction := ssi, txnAborted := false } }

/-- What `MULTI`, the command and `EXEC` reply in the end, and the world after them. -/
def execAfter (server : Server) (cmd : Command) (w : World) : Reply × World :=
  execute server ⟨.cmdExec, []⟩
    (execute server cmd (execute server ⟨.cmdMulti, []⟩ w).2).2

/-- `EXEC` returns the reply that the command gives alone, and leaves the same data. -/
def SameInExec (server : Server) (cmd : Command) (w : World) : Prop :=
  (execAfter server cmd w).1 = .array [(execute server cmd w).1] ∧
    (execAfter server cmd w).2.committed = (execute server cmd w).2.committed

/-- The condition: in an SSI transaction every call is refused by `redis.call` or is plain, or
the first call is refused, so that no command gets to the dispatcher. -/
def ScriptAgrees (server : Server) (user : ACLUser) (script : Script) : Prop :=
  (server.ssi = true ∧ ∀ call ∈ script.calls, ApiRefused script.readOnly call.1 ∨
      PlainCall server user script.readOnly call.1 call.2) ∨
    ∀ call ∈ script.calls.head?, ApiRefused script.readOnly call.1

section Exec

variable {server : Server} {user : ACLUser} {cmd : Command} {entry : Entry} {script : Script}
  {w : World}

section

variable (hready : ScriptReady server user cmd entry script)

include hready

theorem execute_multi (hi : Idle user w) :
    (execute server ⟨.cmdMulti, []⟩ w).2 = w.afterMulti server.ssi := by
  obtain ⟨multi, he, hh, hnoQueue, hks⟩ := hready.multi
  have hadm : admission server ⟨.cmdMulti, []⟩ w = .ok w :=
    admission_of_open hi.toOpen hready.mayMulti
  have hdec : multi.declared ⟨.cmdMulti, []⟩ = [] := by simp [Entry.declared, hks]
  simp only [execute, executeInto, hadm, hi.outside, dispatch, he, hh,
    dispatchConn, hdec, maxTxnRetries, attemptLoop, runConnHandler, handleMulti, ne_eq,
    hi.notSSI]
  rfl

/-- The script alone: its runner, then a flush. -/
theorem execute_script_alone (hi : Idle user w) (hc : (script.run server w).2.2.conn = w.conn) :
    (execute server cmd w).1 = (script.run server w).1 ∧
      (execute server cmd w).2.committed =
        (script.run server w).2.2.view := by
  obtain ⟨run, hh, hrun⟩ := hready.isEntry.connHandler
  have hadm : admission server cmd w = .ok w :=
    admission_of_open hi.toOpen hready.mayScript
  have hks : (entry.declared cmd).findSome? (keyError (some user) entry.write) = none := by
    refine findSome?_eq_none_iff.mpr fun key hkey => ?_
    exact (Option.or_eq_none_iff.mp (findSome?_eq_none_iff.mp hready.checked key hkey)).1
  have houtside : ¬ (perform server.calls (some user) .connHandler (entry.declared cmd) entry cmd
      script.runner w).2.conn.inTransaction = true := by
    simp [perform, Script.runDataCommand_eq hready.isScript, hc, hi.outside]
  have hex : execute server cmd w =
      ((perform server.calls (some user) .connHandler (entry.declared cmd) entry cmd
          script.runner w).1,
        (perform server.calls (some user) .connHandler (entry.declared cmd) entry cmd
          script.runner w).2.tick.commit) := by
    simp only [execute, executeInto, hadm, hi.outside, Bool.false_and, Bool.false_eq_true,
      if_false, dispatch, hready.registered, hh, dispatchConn, hi.user, hks,
      maxTxnRetries, attemptLoop, runConnHandler, hrun, settle, hready.undisturbed.flush]
    rw [if_neg houtside]
  rw [hex]
  simp only [perform, Script.runDataCommand_eq hready.isScript]
  exact ⟨trivial, rfl⟩

omit hready in
theorem Open.afterMulti (h : Open user w) (ssi : Bool) : Open user (w.afterMulti ssi) :=
  ⟨h.user, h.notPubSub, h.notTimedOut⟩

theorem ScriptReady.execReady (hi : Idle user w) : ExecReady server (w.afterMulti server.ssi) where
  registered := hready.exec
  permitted := by simp [commandDenied, (hi.toOpen.afterMulti _).user, hready.mayExec]
  notPubSub := by simp [pubSubDenied, (hi.toOpen.afterMulti _).notPubSub]
  flush := hready.undisturbed.flush
  forwardExec := hready.undisturbed.forwardExec
  checkWatches := hready.undisturbed.checkWatches

/-- The script sent after `MULTI` goes to `queueCommand` with its runner. -/
theorem execute_script_in_multi (hi : Idle user w) :
    execute server cmd (w.afterMulti server.ssi) =
      if server.ssi = true then
        runInSSI server.calls entry cmd [] script.runner (w.afterMulti server.ssi)
      else
        (.queued, { w.afterMulti server.ssi with
          conn := { (w.afterMulti server.ssi).conn with
            queuedCmds := [⟨cmd, entry, [], script.runner⟩] } }) := by
  obtain ⟨prepare, hprep, hrn⟩ := hready.isEntry.txnPrepare
  have hadm : admission server cmd (w.afterMulti server.ssi) =
      .ok (w.afterMulti server.ssi) :=
    admission_of_open (hi.toOpen.afterMulti _) hready.mayScript
  have hqu : server.flag cmd Entry.noQueue = false := by
    simp [Server.flag, hready.registered, hready.isEntry.isQueued]
  have hknown : cmd.type ≠ .cmdUnknown := by
    intro hunk
    have hsc := hready.isScript
    rw [hunk] at hsc
    cases hsc
  have hok : ssiCommandAllowed cmd.type = true := by
    have hsc : cmd.type ∈ [CommandType.cmdEval, .cmdEvalSha, .cmdEvalRO, .cmdEvalShaRO,
        .cmdFcall, .cmdFcallRO] := of_decide_eq_true hready.isScript
    revert hsc
    generalize cmd.type = type
    revert type
    decide
  have hin : (w.afterMulti server.ssi).conn.inTransaction = true := rfl
  have hssi : (w.afterMulti server.ssi).conn.ssiTransaction = server.ssi := rfl
  have hn : (w.afterMulti server.ssi).conn.queuedCmds = [] := hi.noneQueued
  simp only [execute, executeInto, hadm, hin, hqu, Bool.not_false, Bool.and_self, if_true,
    hknown, if_false, queueCommand, hok, Bool.not_true, Bool.and_false, Bool.false_eq_true,
    hready.registered, Entry.prepare, hprep, Option.some_or, hrn, hssi, hn,
    nil_append]

/-- In SSI: the run of the script is kept, and `EXEC` returns its reply and commits its view. -/
theorem execAfter_ssi (hi : Idle user w)
    (hssi : server.ssi = true) (view : Store) (log : List Attempt)
    (hran : (script.run server (w.afterMulti true)).2.2 =
      { w.afterMulti true with view := view, log := log }) :
    (execAfter server cmd w).1 = .array
        [(script.run server (w.afterMulti true)).1] ∧
      (execAfter server cmd w).2.committed = view := by
  have hrun := execute_script_in_multi hready hi
  have hexec := hready.execReady hi
  rw [hssi] at hrun hexec
  have hch : ssiError (w.afterMulti true).conn.session.user entry.write
      ([] ++ entry.declared cmd) = none := by
    rw [(hi.toOpen.afterMulti true).user]
    exact hready.checked
  have hoff : (w.afterMulti true).conn.inScript = false := hi.notInScript
  simp only [if_true, runInSSI, hch, hoff, perform,
    Script.runDataCommand_eq hready.isScript, hran] at hrun
  have hresults : (w.afterMulti true).conn.bufferedResults = [] := hi.noResults
  rw [hresults] at hrun
  have hk : Kept (w.afterMulti true) (execute server cmd (w.afterMulti true)).2 := by
    rw [hrun]
    exact ⟨rfl, rfl, rfl, rfl, rfl, rfl⟩
  unfold execAfter
  rw [execute_multi hready hi, hssi,
    execute_exec hexec hk (by rw [(hi.toOpen.afterMulti true).user]; rfl), hrun]
  have ht : w.timedOut = false := hi.notTimedOut
  simp [handleExec, World.afterMulti, ht, hready.undisturbed.checkWatches, World.tick,
    World.resetTransaction, World.commit]

/-- Outside SSI: `EXEC` runs the script on the connection that is still in its transaction. -/
theorem execAfter_queued (hi : Idle user w) (hssi : server.ssi = false) :
    ∃ v, Open user v ∧ v.conn.inTransaction = true ∧ v.conn.ssiTransaction = false ∧
      v.view = w.view ∧
      (execAfter server cmd w).1 = .array
        [(script.run server v).1] ∧
      (execAfter server cmd w).2.committed =
        (script.run server v).2.2.view := by
  have hrun := execute_script_in_multi hready hi
  have hexec := hready.execReady hi
  rw [hssi] at hrun hexec
  have hk : Kept (w.afterMulti false) (execute server cmd (w.afterMulti false)).2 := by
    rw [hrun]
    exact ⟨rfl, rfl, rfl, hi.notInScript, rfl, rfl⟩
  refine ⟨{ w.afterMulti false with
    conn := { (w.afterMulti false).conn with queuedCmds := [⟨cmd, entry, [], script.runner⟩] }
    ticks := w.ticks + 1 + 1 }, ⟨hi.user, hi.notPubSub, hi.notTimedOut⟩, rfl, rfl, rfl, ?_⟩
  unfold execAfter
  rw [execute_multi hready hi, hssi,
    execute_exec hexec hk (by rw [(hi.toOpen.afterMulti false).user]; rfl), hrun]
  have ht : w.timedOut = false := hi.notTimedOut
  simp only [handleExec, World.afterMulti, ht, hready.undisturbed.checkWatches,
    hready.undisturbed.forwardExec, ne_eq, not_true_eq_false, if_false, Bool.not_true,
    Bool.false_eq_true, World.tick, World.resetTransaction, World.commit, runQueued, perform,
    Script.runDataCommand_eq hready.isScript]
  exact ⟨trivial, trivial⟩

end

theorem Idle.lockstep (hi : Idle user w) : Lockstep user w (w.afterMulti true) where
  openAlone := hi.toOpen
  openInside := hi.toOpen.afterMulti true
  outside := hi.outside
  flushed := hi.flushed
  inside := rfl
  ssi := rfl
  view := rfl

end Exec

/-- Under the condition a script replies the same in `EXEC` as alone and leaves the same data.
A script that returns the reply of one plain call does so in an SSI transaction only. -/
theorem script_same_in_exec {server : Server} {user : ACLUser} {cmd : Command} {entry : Entry}
    {script : Script} {w : World} (hready : ScriptReady server user cmd entry script)
    (hidle : Idle user w) :
    (ScriptAgrees server user script → SameInExec server cmd w) ∧
    (∀ name args type called handler keys runner, script.calls = [(name, args)] →
      PlainAs server user script.readOnly name args type called handler keys runner →
      script.result = Reply.array → (∀ reply, (script.failure reply).isError = true) →
      (called.eval runner w.view).1 ≠ .queued →
      (SameInExec server cmd w ↔ server.ssi = true)) := by
  have hagrees : ScriptAgrees server user script → SameInExec server cmd w := by
    rintro (⟨hssi, hcs⟩ | hf)
    · obtain ⟨hr, hl, hc, view, log, hin⟩ :=
        run_script_agrees hready.undisturbed hcs [] hidle.lockstep
      obtain ⟨hal, hd⟩ := execute_script_alone hready hidle hc
      obtain ⟨hexec, hcom⟩ := execAfter_ssi hready hidle hssi view log hin
      refine ⟨by rw [hexec, hal]; exact congrArg (fun r => Reply.array [r]) hr.symm, ?_⟩
      rw [hcom, hd]
      have hv := hl.view
      rw [hin] at hv
      exact hv.symm
    · obtain ⟨reply, hran⟩ := run_script_refused hf server
      obtain ⟨hal, hd⟩ := execute_script_alone hready hidle (by rw [hran])
      rw [hran] at hal hd
      rcases hssi : server.ssi with _ | _
      · obtain ⟨v, -, -, -, hv, hexec, hcom⟩ := execAfter_queued hready hidle hssi
        rw [hran] at hexec hcom
        exact ⟨by rw [hexec, hal], by rw [hcom, hd]; exact hv⟩
      · obtain ⟨hexec, hcom⟩ :=
          execAfter_ssi hready hidle hssi w.view w.log (by rw [hran]; rfl)
        rw [hran] at hexec
        exact ⟨by rw [hexec, hal], by rw [hcom, hd]⟩
  refine ⟨hagrees, ?_⟩
  intro name args type called handler keys runner hcs hpl hres hfailure hnever
  refine ⟨fun hsame => ?_, fun hssi => hagrees (.inl ⟨hssi, fun call hmem => ?_⟩)⟩
  · -- Outside SSI the script gets `QUEUED` for its call.
    by_contra hoff
    obtain ⟨v, hopen, hin, hnotSSI, -, hexec, -⟩ :=
      execAfter_queued hready hidle (Bool.not_eq_true _ ▸ hoff)
    obtain ⟨ticks, log, hca⟩ := hpl.alone hready.undisturbed hidle.toOpen hidle.outside
    have hrn : script.runner = .call name args script.readOnly fun reply =>
        if reply.isError then .done (script.failure reply) else .done (.array [reply]) := by
      simp [Script.runner, hcs, Script.runnerFrom, hres]
    have hc : (script.run server w).2.2.conn = w.conn := by
      rw [Script.run, hrn]
      simp only [Runner.run, hca]
      split <;> rfl
    have hal := (execute_script_alone hready hidle hc).1
    have hqu : (script.run server v).1 =
        .array [.queued] := by
      rw [Script.run, hrn]
      simp [Runner.run, hpl.queued hopen hin hnotSSI, Reply.isError]
    have hrs : Reply.array [.queued] =
        (script.run server w).1 := by
      have hboth := hsame.1
      rw [hexec, hal, hqu] at hboth
      simpa using hboth
    rw [Script.run, hrn] at hrs
    simp only [Runner.run, hca] at hrs
    by_cases herror : (called.eval runner w.view).1.isError = true
    · rw [if_pos herror] at hrs
      have hnot := hfailure (called.eval runner w.view).1
      rw [← show Reply.array [.queued] = script.failure _ from hrs] at hnot
      exact Bool.false_ne_true hnot
    · rw [if_neg herror] at hrs
      have hsingle : Reply.array [.queued] = .array [(called.eval runner w.view).1] := hrs
      exact hnever (by simpa using hsingle.symm)
  · rw [hcs, mem_singleton] at hmem
    subst hmem
    exact .inr ⟨type, called, handler, keys, runner, hpl⟩

section Samples

/-- `return {redis.call('GET', 'app:q')}`. -/
def sampleScript : Script where
  calls := [(utf8 "GET", [utf8 "app:q"])]
  readOnly := false
  result := .array
  failure reply := reply

/-- `EVAL` of that script. -/
def sampleEval : Entry where
  connHandler := some (.data fun _ _ => sampleScript.runner)
  handler := none
  txnPrepare := some fun _ => .ok ([], sampleScript.runner)
  keys := some fun args => args.drop 2
  write := true
  noAuth := false
  noQueue := false
  pubSub := false
  live := rfl

/-- The server with `EVAL`. -/
def scriptServer (ssi : Bool) : Server :=
  { sampleServer ssi with
    registry := fun cmd =>
      if cmd = .cmdEval then some sampleEval else (sampleServer ssi).registry cmd }

/-- A connection of the default user, who may do everything. -/
def userWorld : World :=
  { sampleWorld defaultUser with conn := Conn.fresh (some defaultUser) false }

/-- In an SSI transaction the script reads the same as alone. -/
theorem script_same_in_ssi :
    SameInExec (scriptServer true) ⟨.cmdEval, []⟩ userWorld := by
  have hpl : PlainAs (scriptServer true) defaultUser false (utf8 "GET") [utf8 "app:q"] .cmdGet
      sampleGet (sampleGet.handler.get rfl) [utf8 "app:q"]
      (.read (utf8 "app:q") fun value => .done (.bulk value)) :=
    { notBlocked := by decide
      named := by decide
      known := by decide
      mayWrite := rfl
      registered := rfl
      noConnHandler := rfl
      noTxnPrepare := rfl
      hasHandler := rfl
      isQueued := rfl
      inSSI := by decide
      notScript := by decide
      permitted := rfl
      accepted := rfl
      checked := by decide }
  have hready : ScriptReady (scriptServer true) defaultUser ⟨.cmdEval, []⟩ sampleEval
      sampleScript :=
    { undisturbed := ⟨fun _ => rfl, fun _ _ => rfl, fun _ _ => rfl, fun _ => rfl⟩
      multi := ⟨_, rfl, rfl, rfl, rfl⟩
      exec := ⟨_, rfl, rfl, rfl, rfl⟩
      mayMulti := rfl
      mayExec := rfl
      mayScript := rfl
      isScript := rfl
      registered := rfl
      isEntry := ⟨⟨_, rfl, fun _ => rfl⟩, ⟨_, rfl, rfl⟩, rfl⟩
      checked := rfl }
  refine (script_same_in_exec hready ⟨⟨rfl, rfl, rfl⟩, rfl, rfl, rfl, rfl, rfl, rfl⟩).1
    (.inl ⟨rfl, fun call hmem => ?_⟩)
  obtain rfl := mem_singleton.mp hmem
  exact .inr ⟨_, _, _, _, _, hpl⟩

/-- Outside SSI the script in `EXEC` gets `QUEUED` instead of the value. -/
theorem script_queues_in_exec :
    (execute (scriptServer false) ⟨.cmdEval, []⟩ userWorld).1 =
        .array [.bulk (some (utf8 "x"))] ∧
      (execAfter (scriptServer false) ⟨.cmdEval, []⟩ userWorld).1 = .array [.array [.queued]] ∧
      ¬ SameInExec (scriptServer false) ⟨.cmdEval, []⟩ userWorld := by
  have hal : (execute (scriptServer false) ⟨.cmdEval, []⟩ userWorld).1 =
      .array [.bulk (some (utf8 "x"))] := rfl
  have hexec : (execAfter (scriptServer false) ⟨.cmdEval, []⟩ userWorld).1 =
      .array [.array [.queued]] := rfl
  refine ⟨hal, hexec, fun hsame => ?_⟩
  have hrs := hsame.1
  rw [hal, hexec] at hrs
  simp at hrs

end Samples

end Swytch.Redis
