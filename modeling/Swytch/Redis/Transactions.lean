import Swytch.Redis.KeyChecks

/-!
# `MULTI` and `EXEC`

A command sent between `MULTI` and `EXEC` is rejected, and then the transaction is aborted, or it
is taken: queued, or run at once in an SSI transaction (`step_in_multi`).  From this, along any
list of commands, `EXEC` aborts if one was rejected and otherwise runs or has run every command
once, in order, and replies with their replies.

Not every rejection sets the flag: outside SSI a command that `CheckCommand` refuses leaves the
transaction as it was, and so do the refusals in pub/sub mode and those of commands that are
never queued (`MULTI`, `WATCH`).  `Queueable` excludes these.
-/

namespace Swytch.Redis

variable {cmd : Command} {w w₀ : World}

open Sql (Bytes utf8)

/-! ## 1.  Commands in a transaction -/

/-- The world after commands that are sent one after the other. -/
def sendAll (server : Server) (cmds : List Command) (w : World) : World :=
  cmds.foldl (fun w cmd => (execute server cmd w).2) w

/-- A connection right after `MULTI`. -/
structure InMulti (w : World) : Prop where
  inTransaction : w.conn.inTransaction = true
  notAborted : w.conn.txnAborted = false
  noneQueued : w.conn.queuedCmds = []
  noResults : w.conn.bufferedResults = []
  user : w.conn.session.user.isSome = true
  notInScript : w.conn.inScript = false

/-- The command is answered with an error instead of being taken into the transaction. -/
def Rejected (server : Server) (w : World) (cmd : Command) : Prop :=
  (execute server cmd w).1.isError = true ∧
    (execute server cmd w).2.conn.queuedCmds = w.conn.queuedCmds ∧
    (execute server cmd w).2.conn.bufferedResults = w.conn.bufferedResults

/-- One of the commands, each sent after the ones before it, is rejected. -/
def SomeRejected (server : Server) : List Command → World → Prop
  | [], _ => False
  | cmd :: cmds, w => Rejected server w cmd ∨ SomeRejected server cmds (execute server cmd w).2

/-- The condition on a command and the world it is sent in: outside SSI the user may run it, it
is not refused for pub/sub mode, it is of those that are queued, its handler writes an error when
it refuses the arguments, and it is not a script in an SSI transaction. -/
structure Queueable (server : Server) (w : World) (cmd : Command) : Prop where
  permitted : w.conn.ssiTransaction = false → commandDenied cmd w = false
  notPubSub : pubSubDenied server cmd w = false
  isQueued : server.flag cmd Entry.noQueue = false
  refusesWithError : ∀ entry prepare reply, server.registry cmd.type = some entry →
    entry.prepare = some prepare → prepare cmd.args = .error reply → reply.isError = true
  notScript : w.conn.ssiTransaction = true → isScriptCommand cmd.type = false

/-- Every command meets the condition in the world it is sent in. -/
def AllQueueable (server : Server) : List Command → World → Prop
  | [], _ => True
  | cmd :: cmds, w => Queueable server w cmd ∧ AllQueueable server cmds (execute server cmd w).2

/-! ## 2.  What a command does to the transaction -/

theorem Runner.run_noCall (runner : Runner) (w : World) :
    (runner.run noCall w).2.2 = { w with view := (runner.run noCall w).2.2.view } := by
  induction runner generalizing w with
  | done reply => rfl
  | read key next ih => exact ih _ w
  | write key value next ih => exact ih { w with view := Function.update w.view key value }
  | call name args readOnly next ih => exact ih _ w

theorem runDataCommand_notScript (calls : Calls) (entry : Entry)
    (hcmd : isScriptCommand cmd.type = false) (runner : Runner) (w : World) :
    (runDataCommand calls entry cmd runner w).2.2 =
      { w with view := (runDataCommand calls entry cmd runner w).2.2.view } := by
  unfold runDataCommand undoOnError
  rw [hcmd]
  simp only [Bool.false_eq_true, if_false]
  split_ifs
  · rw [runner.run_noCall w]
  · exact runner.run_noCall w

/-- A command sent in a transaction, by what it does. -/
inductive Taken (server : Server) (w : World) (cmd : Command) : Prop
  | rejected (added : List Attempt)
      (reply : (execute server cmd w).1.isError = true)
      (world : (execute server cmd w).2 =
        { w with conn := { w.conn with txnAborted := true }, log := w.log ++ added })
  | queued (q : QueuedCommand) (outside : w.conn.ssiTransaction = false) (isCmd : q.cmd = cmd)
      (reply : (execute server cmd w).1 = .queued)
      (world : (execute server cmd w).2 =
        { w with conn := { w.conn with queuedCmds := w.conn.queuedCmds ++ [q] } })
  | ran (a : Attempt) (view : Store) (inside : w.conn.ssiTransaction = true) (isCmd : a.cmd = cmd)
      (reply : (execute server cmd w).1 = a.reply)
      (world : (execute server cmd w).2 =
        { w with
          conn := { w.conn with bufferedResults := w.conn.bufferedResults ++ [a.reply] }
          view := view
          log := w.log ++ [a] })

variable {sent cmds : List Command}

theorem authenticated_of_user (h : w.conn.session.user.isSome = true) :
    authenticated server cmd w = some w := by
  obtain ⟨user, hu⟩ := Option.isSome_iff_exists.mp h
  simp [authenticated, hu]

theorem runInSSI_taken (calls : Calls) (entry : Entry) (keys : List Bytes)
    (runner : Runner) (hsc : w.conn.inScript = false) (hcmd : isScriptCommand cmd.type = false) :
    ((runInSSI calls entry cmd keys runner w).1.isError = true ∧
      ∃ added, (runInSSI calls entry cmd keys runner w).2 =
        { w with conn := { w.conn with txnAborted := true }, log := w.log ++ added }) ∨
      ∃ a view, a.cmd = cmd ∧ (runInSSI calls entry cmd keys runner w).1 = a.reply ∧
        (runInSSI calls entry cmd keys runner w).2 =
          { w with
            conn := { w.conn with bufferedResults := w.conn.bufferedResults ++ [a.reply] }
            view := view
            log := w.log ++ [a] } := by
  unfold runInSSI
  cases herr : ssiError w.conn.session.user entry.write (keys ++ entry.declared cmd) with
  | some err =>
    simp only [herr]
    exact .inl ⟨rfl, _, rfl⟩
  | none =>
    have hfr := runDataCommand_notScript calls entry hcmd runner w
    refine .inr ⟨⟨w.conn.session.user, entry, cmd, .ssi, keys ++ entry.declared cmd, runner,
      (runDataCommand calls entry cmd runner w).2.1, (runDataCommand calls entry cmd runner w).1⟩,
      (runDataCommand calls entry cmd runner w).2.2.view, rfl, ?_⟩
    have houter : ¬ w.conn.inScript = true := by simp [hsc]
    simp only [herr, if_neg houter, perform]
    rw [hfr]
    exact ⟨trivial, rfl⟩

theorem taken_of_queueCommand (hsc : w.conn.inScript = false) (h : Queueable server w cmd)
    (hex : execute server cmd w =
      if cmd.type = .cmdUnknown then (.error .unknownCommand, w.abortTxn)
      else queueCommand server server.calls cmd w) : Taken server w cmd := by
  have hrej : ∀ reply, reply.isError = true → execute server cmd w = (reply, w.abortTxn) →
      Taken server w cmd := by
    intro reply herror heq
    exact .rejected [] (by rw [heq]; exact herror) (by rw [heq]; simp [World.abortTxn])
  by_cases hunk : cmd.type = .cmdUnknown
  · rw [if_pos hunk] at hex
    exact hrej _ rfl hex
  rw [if_neg hunk, queueCommand] at hex
  split at hex
  · exact hrej _ rfl hex
  split at hex
  · exact hrej _ rfl hex
  rename_i entry he
  split at hex
  · exact hrej _ rfl hex
  rename_i prepare hprep
  split at hex
  · rename_i reply hinvalid
    exact hrej reply (h.refusesWithError entry prepare reply he hprep hinvalid) hex
  rename_i keys runner hva
  split at hex
  · rename_i hssi
    rcases runInSSI_taken server.calls entry keys runner hsc (h.notScript hssi) with
      ⟨herror, added, hworld⟩ | ⟨a, view, hcmd, hr, hworld⟩
    · exact .rejected added (by rw [hex]; exact herror) (by rw [hex]; exact hworld)
    · exact .ran a view hssi hcmd (by rw [hex]; exact hr) (by rw [hex]; exact hworld)
  · rename_i hssi
    exact .queued ⟨cmd, entry, keys, runner⟩ (Bool.not_eq_true _ ▸ hssi) rfl
      (by rw [hex]) (by rw [hex])

theorem step_in_multi (hin : w.conn.inTransaction = true)
    (hu : w.conn.session.user.isSome = true) (hsc : w.conn.inScript = false)
    (h : Queueable server w cmd) : Taken server w cmd := by
  have hau : authenticated server cmd w = some w := authenticated_of_user hu
  have hex : execute server cmd w = executeInto server server.calls cmd w := rfl
  unfold executeInto admission at hex
  simp only [hau, h.notPubSub] at hex
  by_cases hden : commandDenied cmd w = true
  · -- Refused by `CheckCommand`, which aborts an SSI transaction.
    have hssi : w.conn.ssiTransaction = true := by
      by_contra hssi
      rw [h.permitted (Bool.not_eq_true _ ▸ hssi)] at hden
      exact Bool.false_ne_true hden
    simp only [hden, hssi] at hex
    exact .rejected [] (by rw [hex]; rfl) (by rw [hex]; simp [World.abortTxn])
  · simp only [hden] at hex
    by_cases hbusy : busyDenied cmd w = true
    · simp only [hbusy, hin] at hex
      exact .rejected [] (by rw [hex]; rfl) (by rw [hex]; simp [World.abortTxn])
    · simp only [hbusy, Bool.false_eq_true, if_false, hin, h.isQueued] at hex
      exact taken_of_queueCommand hsc h hex

theorem Taken.rejected_iff (h : Taken server w cmd) :
    (Rejected server w cmd ∧ (execute server cmd w).2.conn.txnAborted = true) ∨
      (¬ Rejected server w cmd ∧
        (execute server cmd w).2.conn.txnAborted = w.conn.txnAborted) := by
  cases h with
  | rejected added reply world =>
    exact .inl ⟨⟨reply, by rw [world], by rw [world]⟩, by rw [world]⟩
  | queued q outside isCmd reply world =>
    refine .inr ⟨fun hrej => ?_, by rw [world]⟩
    have herror := hrej.1
    rw [reply] at herror
    exact Bool.false_ne_true herror
  | ran a view inside isCmd reply world =>
    refine .inr ⟨fun hrej => ?_, by rw [world]⟩
    have hbuffered := hrej.2.2
    rw [world] at hbuffered
    simp at hbuffered

/-! ## 3.  What a list of commands does -/

/-- What commands sent in a transaction leave as it was. -/
structure Kept (w₀ w : World) : Prop where
  session : w.conn.session = w₀.conn.session
  inTransaction : w.conn.inTransaction = true
  ssi : w.conn.ssiTransaction = w₀.conn.ssiTransaction
  notInScript : w.conn.inScript = false
  committed : w.committed = w₀.committed
  timedOut : w.timedOut = w₀.timedOut

/-- No command was rejected so far: outside SSI all are queued and none has run, in SSI each has
run once, in order, and its reply is kept. -/
structure AllTaken (w₀ w : World) (sent : List Command) : Prop where
  notAborted : w.conn.txnAborted = false
  outside : w₀.conn.ssiTransaction = false →
    w.conn.queuedCmds.map QueuedCommand.cmd = sent ∧ w.log = w₀.log
  inside : w₀.conn.ssiTransaction = true →
    ∃ attempts, w.log = w₀.log ++ attempts ∧ attempts.map Attempt.cmd = sent ∧
      w.conn.bufferedResults = attempts.map Attempt.reply

variable {server : Server}

theorem Kept.step (h : Kept w₀ w) (htaken : Taken server w cmd) :
    Kept w₀ (execute server cmd w).2 := by
  cases htaken with
  | rejected added reply world | queued q outside isCmd reply world
  | ran a view inside isCmd reply world =>
    rw [world]
    exact ⟨h.session, h.inTransaction, h.ssi, h.notInScript, h.committed, h.timedOut⟩

theorem AllTaken.step (hk : Kept w₀ w) (h : AllTaken w₀ w sent) (htaken : Taken server w cmd)
    (hnot : ¬ Rejected server w cmd) : AllTaken w₀ (execute server cmd w).2 (sent ++ [cmd]) := by
  cases htaken with
  | rejected added reply world => exact absurd ⟨reply, by rw [world], by rw [world]⟩ hnot
  | queued q outside isCmd reply world =>
    rw [world]
    refine ⟨h.notAborted, fun hssi => ?_, fun hssi => ?_⟩
    · obtain ⟨hqu, hlog⟩ := h.outside hssi
      exact ⟨by simp [hqu, isCmd], hlog⟩
    · rw [hk.ssi, hssi] at outside
      cases outside
  | ran a view inside isCmd reply world =>
    rw [world]
    refine ⟨h.notAborted, fun hssi => ?_, fun hssi => ?_⟩
    · rw [hk.ssi, hssi] at inside
      cases inside
    · obtain ⟨attempts, hlog, hcmds, hresults⟩ := h.inside hssi
      exact ⟨attempts ++ [a], by simp [hlog], by simp [hcmds, isCmd], by simp [hresults]⟩

/-- An aborted transaction stays aborted. -/
theorem sendAll_aborted (hk : Kept w₀ w) (hu : w₀.conn.session.user.isSome = true)
    (haborted : w.conn.txnAborted = true) (h : AllQueueable server cmds w) :
    Kept w₀ (sendAll server cmds w) ∧ (sendAll server cmds w).conn.txnAborted = true := by
  induction cmds generalizing w with
  | nil => exact ⟨hk, haborted⟩
  | cons cmd cmds ih =>
    have htaken := step_in_multi hk.inTransaction (hk.session ▸ hu) hk.notInScript h.1
    refine ih (hk.step htaken) ?_ h.2
    rcases htaken.rejected_iff with ⟨-, hflag⟩ | ⟨-, hflag⟩
    · exact hflag
    · rw [hflag, haborted]

/-- After the commands: one was rejected and the transaction is aborted, or all were taken. -/
theorem sendAll_cases (hk : Kept w₀ w) (hu : w₀.conn.session.user.isSome = true)
    (htakenAll : AllTaken w₀ w sent) (h : AllQueueable server cmds w) :
    Kept w₀ (sendAll server cmds w) ∧
      ((SomeRejected server cmds w ∧ (sendAll server cmds w).conn.txnAborted = true) ∨
        (¬ SomeRejected server cmds w ∧ AllTaken w₀ (sendAll server cmds w) (sent ++ cmds))) := by
  induction cmds generalizing w sent with
  | nil =>
    refine ⟨hk, .inr ⟨fun hfalse => hfalse, ?_⟩⟩
    rw [List.append_nil]
    exact htakenAll
  | cons cmd cmds ih =>
    have htaken := step_in_multi hk.inTransaction (hk.session ▸ hu) hk.notInScript h.1
    rcases htaken.rejected_iff with ⟨hrej, hflag⟩ | ⟨hnot, -⟩
    · obtain ⟨hkept', haborted⟩ := sendAll_aborted (hk.step htaken) hu hflag h.2
      exact ⟨hkept', .inl ⟨.inl hrej, haborted⟩⟩
    · obtain ⟨hkept', hcs⟩ :=
        ih (hk.step htaken) (htakenAll.step hk htaken hnot) h.2
      refine ⟨hkept', hcs.imp (fun hs => ⟨.inr hs.1, hs.2⟩) fun hn => ?_⟩
      refine ⟨fun hs => hs.elim hnot hn.1, ?_⟩
      have hall := hn.2
      rw [List.append_assoc] at hall
      exact hall

/-! ## 4.  `EXEC` -/

/-- The queued commands run once each, in order, with these replies. -/
inductive RanInOrder (calls : Calls) : List QueuedCommand → World → List Reply → World → Prop
  | nil (w : World) : RanInOrder calls [] w [] w
  | cons (q : QueuedCommand) (w : World) {rest : List QueuedCommand} {replies : List Reply}
      {w' : World} :
      RanInOrder calls rest
        (perform calls w.conn.session.user .exec [] q.entry q.cmd q.runner w).2 replies w' →
      RanInOrder calls (q :: rest) w
        ((perform calls w.conn.session.user .exec [] q.entry q.cmd q.runner w).1 :: replies) w'

theorem ranInOrder_runQueued (calls : Calls) (queued : List QueuedCommand) (w : World) :
    RanInOrder calls queued w (runQueued calls queued w).1 (runQueued calls queued w).2 := by
  induction queued generalizing w with
  | nil => exact .nil w
  | cons q rest ih => exact .cons q w (ih _)

/-- `EXEC` is registered, the user may send it, and the cluster answers here and commits. -/
structure ExecReady (server : Server) (w : World) : Prop where
  registered : ∃ entry, server.registry .cmdExec = some entry ∧
    entry.connHandler = some .exec ∧ entry.noQueue = true ∧ entry.keys = none
  permitted : commandDenied ⟨.cmdExec, []⟩ w = false
  notPubSub : pubSubDenied server ⟨.cmdExec, []⟩ w = false
  flush : ∀ tick, server.flush tick = .committed
  forwardExec : ∀ tick cmds, server.forwardExec tick cmds = none
  checkWatches : ∀ tick, server.checkWatches tick = true

theorem inTransaction_handleExec (h : w.conn.inTransaction = true) :
    (handleExec server server.calls [] w).2.conn.inTransaction = false := by
  unfold handleExec
  simp only [ne_eq, not_true_eq_false, if_false, h, Bool.not_true, Bool.false_eq_true]
  split
  · rfl
  split
  · rfl
  split
  · rfl
  split
  · rfl
  split <;> rfl

/-- `EXEC` in a transaction is `handleExec`, then a flush. -/
theorem execute_exec (hr : ExecReady server w₀) (hk : Kept w₀ w)
    (hu : w₀.conn.session.user.isSome = true) :
    execute server ⟨.cmdExec, []⟩ w =
      ((handleExec server server.calls [] w).1,
        (handleExec server server.calls [] w).2.tick.commit) := by
  obtain ⟨entry, he, hh, hnoQueue, hks⟩ := hr.registered
  have hau : authenticated server ⟨.cmdExec, []⟩ w = some w :=
    authenticated_of_user (hk.session ▸ hu)
  have hden : commandDenied ⟨.cmdExec, []⟩ w = false := by
    have hpermitted := hr.permitted
    unfold commandDenied at hpermitted ⊢
    rw [hk.session]
    exact hpermitted
  have hpubSub : pubSubDenied server ⟨.cmdExec, []⟩ w = false := by
    have hnot := hr.notPubSub
    unfold pubSubDenied at hnot ⊢
    rw [hk.session]
    exact hnot
  have hbusy : busyDenied ⟨.cmdExec, []⟩ w = false := by simp [busyDenied]
  have hflag : server.flag ⟨.cmdExec, []⟩ Entry.noQueue = true := by
    simp [Server.flag, he, hnoQueue]
  have hdec : entry.declared ⟨.cmdExec, []⟩ = [] := by simp [Entry.declared, hks]
  have hdispatch : execute server ⟨.cmdExec, []⟩ w =
      dispatchConn server server.calls entry ⟨.cmdExec, []⟩ .exec w := by
    simp [execute, executeInto, admission, hau, hden, hpubSub, hbusy, hflag, dispatch, he,
      hh]
  rw [hdispatch, dispatchConn, hdec]
  simp [maxTxnRetries, attemptLoop, runConnHandler, settle,
    inTransaction_handleExec hk.inTransaction, hr.flush]

/-- Between `MULTI` and `EXEC`, with commands that all meet the condition: if one is rejected,
`EXEC` aborts and the data stay as they were; otherwise every command runs exactly once, in
order, by `EXEC` or, in SSI, before it, and `EXEC` replies with their replies. -/
theorem multi_exec_all_or_nothing {server : Server} {w : World} {cmds : List Command}
    (hmulti : InMulti w) (hready : ExecReady server w) (hqueueable : AllQueueable server cmds w) :
    (SomeRejected server cmds w →
      (execute server ⟨.cmdExec, []⟩ (sendAll server cmds w)).1 = .error .execAbort ∧
      (execute server ⟨.cmdExec, []⟩ (sendAll server cmds w)).2.committed = w.committed ∧
      (execute server ⟨.cmdExec, []⟩ (sendAll server cmds w)).2.view = w.committed) ∧
    (¬ SomeRejected server cmds w → w.timedOut = false →
      (w.conn.ssiTransaction = false → ∃ queued replies w',
        queued.map QueuedCommand.cmd = cmds ∧
        RanInOrder server.calls queued (sendAll server cmds w).tick.tick replies w' ∧
        (execute server ⟨.cmdExec, []⟩ (sendAll server cmds w)).1 = .array replies ∧
        (execute server ⟨.cmdExec, []⟩ (sendAll server cmds w)).2.committed = w'.view) ∧
      (w.conn.ssiTransaction = true → ∃ attempts,
        attempts.map Attempt.cmd = cmds ∧
        (execute server ⟨.cmdExec, []⟩ (sendAll server cmds w)).2.log = w.log ++ attempts ∧
        (execute server ⟨.cmdExec, []⟩ (sendAll server cmds w)).1 =
          .array (attempts.map Attempt.reply) ∧
        (execute server ⟨.cmdExec, []⟩ (sendAll server cmds w)).2.committed =
          (sendAll server cmds w).view)) := by
  have hkept₀ : Kept w w :=
    ⟨rfl, hmulti.inTransaction, rfl, hmulti.notInScript, rfl, rfl⟩
  have htaken₀ : AllTaken w w [] := by
    refine ⟨hmulti.notAborted, fun _ => ?_, fun _ => ⟨[], ?_⟩⟩
    · simp [hmulti.noneQueued]
    · simp [hmulti.noResults]
  obtain ⟨hk, hcs⟩ := sendAll_cases hkept₀ hmulti.user htaken₀ hqueueable
  have hin := hk.inTransaction
  rw [execute_exec hready hk hmulti.user, handleExec]
  simp only [ne_eq, not_true_eq_false, if_false, hin, Bool.not_true, Bool.false_eq_true]
  refine ⟨fun hs => ?_, fun hn ht => ?_⟩
  · rcases hcs with ⟨-, haborted⟩ | ⟨hnot, -⟩
    · rw [if_pos haborted]
      exact ⟨rfl, hk.committed, hk.committed⟩
    · exact absurd hs hnot
  · rcases hcs with ⟨hs, -⟩ | ⟨-, htaken⟩
    · exact absurd hs hn
    have hrun : (sendAll server cmds w).timedOut = false := hk.timedOut.trans ht
    have hssi := hk.ssi
    rw [if_neg (by rw [htaken.notAborted]; simp), if_neg (by rw [hrun]; simp)]
    simp only [hready.forwardExec, ite_self, hready.checkWatches, Bool.not_true, Bool.false_eq_true,
      if_false]
    refine ⟨fun houtside => ?_, fun hinside => ?_⟩
    · rw [houtside] at hssi
      rw [if_neg (by rw [hssi]; simp)]
      exact ⟨_, _, _, (htaken.outside houtside).1, ranInOrder_runQueued _ _ _, rfl, rfl⟩
    · rw [hinside] at hssi
      rw [if_pos hssi]
      obtain ⟨attempts, hlog, hcmds, hresults⟩ := htaken.inside hinside
      exact ⟨attempts, hcmds, hlog, by rw [hresults], rfl⟩

section Samples

/-- A connection right after `MULTI`, outside SSI. -/
def sampleMulti (user : ACLUser) : World :=
  (execute (sampleServer false) ⟨.cmdMulti, []⟩ (sampleWorld user)).2

/-- `GET` without a key is rejected, and `EXEC` aborts. -/
theorem exec_aborts_after_arity_error :
    SomeRejected (sampleServer false) [⟨.cmdGet, [utf8 "app:q"]⟩, ⟨.cmdGet, []⟩]
      (sampleMulti appUser) ∧
    (execute (sampleServer false) ⟨.cmdExec, []⟩
      (sendAll (sampleServer false) [⟨.cmdGet, [utf8 "app:q"]⟩, ⟨.cmdGet, []⟩]
        (sampleMulti appUser))).1 = .error .execAbort := by
  have hs : SomeRejected (sampleServer false) [⟨.cmdGet, [utf8 "app:q"]⟩, ⟨.cmdGet, []⟩]
      (sampleMulti appUser) := .inr (.inl ⟨rfl, rfl, rfl⟩)
  have hqueueable : ∀ w args, commandDenied ⟨.cmdGet, args⟩ w = false →
      pubSubDenied (sampleServer false) ⟨.cmdGet, args⟩ w = false →
      Queueable (sampleServer false) w ⟨.cmdGet, args⟩ := by
    intro w args hden hpubSub
    refine ⟨fun _ => hden, hpubSub, rfl, ?_, fun _ => rfl⟩
    intro entry prepare reply he hprep hr
    obtain rfl := Option.some.inj he
    obtain rfl := Option.some.inj hprep
    rcases args with _ | ⟨key, _ | ⟨other, rest⟩⟩
    · obtain rfl := Except.error.inj hr
      rfl
    · simp at hr
    · obtain rfl := Except.error.inj hr
      rfl
  refine ⟨hs, ?_⟩
  refine ((multi_exec_all_or_nothing ⟨rfl, rfl, rfl, rfl, rfl, rfl⟩
    ⟨⟨_, rfl, rfl, rfl, rfl⟩, rfl, rfl, fun _ => rfl, fun _ _ => rfl, fun _ => rfl⟩ ?_).1 hs).1
  exact ⟨hqueueable _ _ rfl rfl, hqueueable _ _ rfl rfl, trivial⟩

/-- A user who may run three commands. -/
def limitedUser : ACLUser :=
  { defaultUser with
    allCommands := false
    commands := fun cmd =>
      if cmd ∈ [CommandType.cmdGet, .cmdMulti, .cmdExec] then some true else none }

/-- Outside SSI a command that the user may not run is rejected, and `EXEC` runs the others. -/
theorem exec_after_denied_command :
    SomeRejected (sampleServer false)
      [⟨.cmdBRPopLPush, [utf8 "app:q", utf8 "app:r", utf8 "0"]⟩, ⟨.cmdGet, [utf8 "app:q"]⟩]
      (sampleMulti limitedUser) ∧
    (execute (sampleServer false) ⟨.cmdExec, []⟩
      (sendAll (sampleServer false)
        [⟨.cmdBRPopLPush, [utf8 "app:q", utf8 "app:r", utf8 "0"]⟩, ⟨.cmdGet, [utf8 "app:q"]⟩]
        (sampleMulti limitedUser))).1 = .array [.bulk (some (utf8 "x"))] :=
  ⟨.inl ⟨rfl, rfl, rfl⟩, rfl⟩

end Samples

end Swytch.Redis
