import Swytch.Redis.Dispatch

/-!
# Key permissions on every route

Every attempt in the log was refused, or its route had let the checked keys through
(`Attempt.WellChecked`); this holds of every run of events, whatever scripts call and whatever
other nodes forward (`logs_runEvents`).  What a route checks differs: `EXEC` outside SSI checks
nothing, and the `ConnHandler` path does not look for internal keys.  So an attempt is enforced
where its runner keeps to what was checked (`Attempt.Guarded`).
-/

namespace Swytch.Redis

open Option
open List
open Sql (Bytes utf8)

variable {w' : World} {user : Option ACLUser} {runner : Runner}

/-! ## 1.  What a runner can touch, and what is denied -/

/-- The runner makes the access on some data and some replies to its calls. -/
def Runner.Touches (access : Access) : Runner → Prop
  | .done _ => False
  | .read key next => access = ⟨key, false⟩ ∨ ∃ value, (next value).Touches access
  | .write key _ next => access = ⟨key, true⟩ ∨ next.Touches access
  | .call _ _ _ next => ∃ reply, (next reply).Touches access

theorem Runner.touches_of_mem_run
    (call : Bytes → List Bytes → Bool → World → Reply × World) (runner : Runner) (w : World) :
    ∀ access ∈ (runner.run call w).2.1, runner.Touches access := by
  induction runner generalizing w with
  | done reply => simp [Runner.run]
  | read key next ih =>
    intro access hacc
    rcases mem_cons.mp hacc with rfl | hacc
    · exact .inl rfl
    · exact .inr ⟨_, ih _ w access hacc⟩
  | write key value next ih =>
    intro access hacc
    rcases mem_cons.mp hacc with rfl | hacc
    · exact .inl rfl
    · exact .inr (ih _ access hacc)
  | call name args readOnly next ih =>
    intro access hacc
    exact ⟨_, ih _ _ access hacc⟩

theorem touches_of_mem_runDataCommand (calls : Calls) (entry : Entry) (cmd : Command)
    (runner : Runner) (w : World) :
    ∀ access ∈ (runDataCommand calls entry cmd runner w).2.1, runner.Touches access := by
  unfold runDataCommand undoOnError
  split_ifs
  · cases calls with
    | none => simp
    | some call => exact runner.touches_of_mem_run call w
  all_goals exact runner.touches_of_mem_run noCall w

/-- The user may not make the access in a command with this write flag: `CheckKey` fails, or it
writes an internal key. -/
def AccessDenied (user : Option ACLUser) (isWrite : Bool) (access : Access) : Prop :=
  checkKey user access.key isWrite ≠ .ok () ∨
    access.isWrite = true ∧ reservedKey access.key = true

/-! ## 2.  The log grows by attempts of one kind -/

/-- The second world has a longer log, and the attempts added are of a kind. -/
def Logs (P : Attempt → Prop) (w w' : World) : Prop :=
  ∃ added, w'.log = w.log ++ added ∧ ∀ attempt ∈ added, P attempt

variable {calls : Calls} {checked : List Bytes} {route : Route} {entry : Entry} {cmd : Command}
    {server : Server} {isWrite : Bool} {key : Bytes}

section Logs

variable {w : World} {P : Attempt → Prop}

theorem Logs.of_log_eq (h : w'.log = w.log) : Logs P w w' :=
  ⟨[], by simpa using h, by simp⟩

theorem Logs.trans {w₁ w₂ w₃ : World} (h₁ : Logs P w₁ w₂) (h₂ : Logs P w₂ w₃) : Logs P w₁ w₃ := by
  obtain ⟨added₁, hlog₁, hP₁⟩ := h₁
  obtain ⟨added₂, hlog₂, hP₂⟩ := h₂
  refine ⟨added₁ ++ added₂, by rw [hlog₂, hlog₁, append_assoc], fun attempt hat => ?_⟩
  rcases mem_append.mp hat with h | h
  · exact hP₁ attempt h
  · exact hP₂ attempt h

theorem Logs.congr {w₁ w₂ w₁' w₂' : World} (h : Logs P w₁ w₂) (h₁ : w₁'.log = w₁.log)
    (h₂ : w₂'.log = w₂.log) : Logs P w₁' w₂' := by
  obtain ⟨added, hlog, hP⟩ := h
  exact ⟨added, by rw [h₁, h₂, hlog], hP⟩

theorem Logs.mem (h : Logs P w w') (hw : ∀ attempt ∈ w.log, P attempt) :
    ∀ attempt ∈ w'.log, P attempt := by
  obtain ⟨added, hlog, hP⟩ := h
  intro attempt hat
  rw [hlog, mem_append] at hat
  exact hat.elim (hw attempt) (hP attempt)

/-- The commands that a runner calls log attempts of the kind. -/
def CallsLog (P : Attempt → Prop) (calls : Calls) : Prop :=
  ∀ call, calls = some call → ∀ name args readOnly w, Logs P w (call name args readOnly w).2

theorem callsLog_none : CallsLog P none := by
  intro call hc
  simp at hc

theorem Runner.logs_run {call : Bytes → List Bytes → Bool → World → Reply × World}
    (hc : ∀ name args readOnly w, Logs P w (call name args readOnly w).2) (runner : Runner)
    (w : World) : Logs P w (runner.run call w).2.2 := by
  induction runner generalizing w with
  | done reply => exact .of_log_eq rfl
  | read key next ih => exact ih _ w
  | write key value next ih =>
    exact (ih { w with view := Function.update w.view key value }).congr rfl rfl
  | call name args readOnly next ih =>
    exact (hc name args readOnly w).trans (ih _ _)

theorem logs_noCall (name : Bytes) (args : List Bytes) (readOnly : Bool) (w : World) :
    Logs P w (noCall name args readOnly w).2 :=
  .of_log_eq rfl

theorem logs_runDataCommand (hcalls : CallsLog P calls) (entry : Entry) (cmd : Command)
    (runner : Runner) (w : World) : Logs P w (runDataCommand calls entry cmd runner w).2.2 := by
  unfold runDataCommand undoOnError
  split_ifs
  · cases calls with
    | none => exact .of_log_eq rfl
    | some call => exact runner.logs_run (hcalls call rfl) w
  · exact (runner.logs_run logs_noCall w).congr rfl rfl
  · exact runner.logs_run logs_noCall w

theorem logs_perform (hcalls : CallsLog P calls)
    (hP : ∀ accesses reply, (∀ access ∈ accesses, runner.Touches access) →
      P ⟨user, entry, cmd, route, checked, runner, accesses, reply⟩) (w : World) :
    Logs P w (perform calls user route checked entry cmd runner w).2 := by
  refine (logs_runDataCommand hcalls entry cmd runner w).trans ⟨[_], rfl, fun attempt hat => ?_⟩
  rw [mem_singleton.mp hat]
  exact hP _ _ (touches_of_mem_runDataCommand calls entry cmd runner w)

theorem logs_refuse {err : DispatchError}
    (hP : P ⟨w.conn.session.user, entry, cmd, route, checked, runner, [], .error err⟩) :
    Logs P w (refuse err route checked entry cmd runner w).2 := by
  refine ⟨[_], rfl, fun attempt hat => ?_⟩
  rw [mem_singleton.mp hat]
  exact hP

theorem logs_settle {made : Reply × World} {retry : World → Reply × World} (hmade : Logs P w made.2)
    (hretry : ∀ w', Logs P w' (retry w').2) : Logs P w (settle server made retry).2 := by
  unfold settle
  split
  · exact hmade
  · split
    · exact hmade.congr rfl rfl
    · exact hmade.congr rfl rfl
    · exact (hmade.congr rfl rfl).trans (hretry made.2.tick.dropPending)

/-- An attempt that is made again logs attempts of the same kind. -/
theorem logs_attemptLoop {isExec : Bool} {attempt : World → Reply × World}
    (hat : ∀ w, Logs P w (attempt w).2) (retries : ℕ) (w : World) :
    Logs P w (attemptLoop server isExec attempt retries w).2 := by
  induction retries generalizing w with
  | zero => exact logs_settle (hat w) fun _ => .of_log_eq rfl
  | succ retries ih =>
    refine logs_settle (hat w) fun w' => ?_
    split_ifs
    · exact .of_log_eq rfl
    · exact ih w'

end Logs

/-! ## 3.  What every attempt was checked for -/

/-- The attempt was refused with an error, or it did what its runner can do and its route had let
the checked keys through. -/
def Attempt.WellChecked (a : Attempt) : Prop :=
  a.reply.isError = true ∧ a.accesses = [] ∨
    (∀ access ∈ a.accesses, a.runner.Touches access) ∧
      match a.route with
      | .handler => handlerError a.user a.entry.write a.checked = none
      | .connHandler => a.checked.findSome? (keyError a.user a.entry.write) = none
      | .ssi => ssiError a.user a.entry.write a.checked = none
      | .exec => True

/-- The checks of a route let the keys through. -/
def Route.Passed (user : Option ACLUser) (isWrite : Bool) (checked : List Bytes) : Route → Prop
  | .handler => handlerError user isWrite checked = none
  | .connHandler => checked.findSome? (keyError user isWrite) = none
  | .ssi => ssiError user isWrite checked = none
  | .exec => True

/-- The runner is one that the entry gives for the arguments. -/
inductive Entry.Gives (entry : Entry) (args : List Bytes) : Runner → Prop
  | conn {run : Bool → List Bytes → Runner} (inScript : Bool)
      (isHandler : entry.connHandler = some (.data run)) : Gives entry args (run inScript args)
  | prepared {prepare : List Bytes → Prepared} {keys : List Bytes} {runner : Runner}
      (isHandler : entry.handler = some prepare ∨ entry.txnPrepare = some prepare)
      (accepted : prepare args = .ok (keys, runner)) : Gives entry args runner

/-- Whatever the server makes of the command, it logs attempts of the kind. -/
structure Makes (P : Attempt → Prop) (server : Server) (cmd : Command) : Prop where
  refused : ∀ user entry route checked runner err,
    P ⟨user, entry, cmd, route, checked, runner, [], .error err⟩
  ran : ∀ {user entry route checked runner accesses reply},
    server.registry cmd.type = some entry → entry.Gives cmd.args runner →
    route.Passed user entry.write checked → (∀ access ∈ accesses, runner.Touches access) →
    P ⟨user, entry, cmd, route, checked, runner, accesses, reply⟩
  exec : ∀ entry, server.registry cmd.type = some entry → entry.connHandler = some .exec →
    ∀ (queued : QueuedCommand) user accesses reply,
      (∀ access ∈ accesses, queued.runner.Touches access) →
      P ⟨user, queued.entry, queued.cmd, .exec, [], queued.runner, accesses, reply⟩

theorem makes_wellChecked (server : Server) (cmd : Command) :
    Makes Attempt.WellChecked server cmd where
  refused _ _ _ _ _ _ := .inl ⟨rfl, rfl⟩
  ran {user entry route checked runner accesses reply} _ _ hps hto := by
    refine .inr ⟨hto, ?_⟩
    cases route with
    | handler | connHandler | ssi => exact hps
    | exec => trivial
  exec _ _ _ _ _ _ _ hto := .inr ⟨hto, trivial⟩

variable {args : List Bytes} {w : World}

section Server

variable {P : Attempt → Prop}

/-- What queues a command is one of its two handlers. -/
theorem Entry.gives_of_prepare {prepare : List Bytes → Prepared} {keys : List Bytes}
    (hprep : entry.prepare = some prepare) (hacc : prepare args = .ok (keys, runner)) :
    entry.Gives args runner := by
  refine .prepared ?_ hacc
  unfold Entry.prepare at hprep
  cases htxn : entry.txnPrepare with
  | none =>
    rw [htxn] at hprep
    exact .inl hprep
  | some other =>
    rw [htxn] at hprep
    exact .inr hprep

theorem log_authenticated (h : authenticated server cmd w = some w') : w'.log = w.log := by
  unfold authenticated at h
  split at h
  · rw [← some.inj h]
  · split at h
    · rw [← some.inj h]
    · split at h
      · simp at h
      · rw [← some.inj h]

/-- The checks before a command is queued or dispatched log nothing. -/
theorem log_admission (server : Server) (cmd : Command) (w : World) :
    (∀ refused, admission server cmd w = .error refused → refused.2.log = w.log) ∧
      ∀ w', admission server cmd w = .ok w' → w'.log = w.log := by
  unfold admission
  cases hau : authenticated server cmd w with
  | none =>
    refine ⟨fun refused h => ?_, fun w' h => by simp at h⟩
    cases h
    rfl
  | some w₁ =>
    have hlog := log_authenticated hau
    simp only
    split_ifs
    all_goals refine ⟨fun refused h => ?_, fun w' h => ?_⟩
    all_goals first
      | (obtain rfl := Except.error.inj h; exact hlog)
      | (obtain rfl := Except.ok.inj h; exact hlog)
      | simp at h

section

variable (args : List Bytes)

theorem log_handleMulti (w : World) : (handleMulti server args w).2.log = w.log := by
  unfold handleMulti
  split_ifs <;> rfl

theorem log_handleDiscard (w : World) : (handleDiscard args w).2.log = w.log := by
  unfold handleDiscard
  split_ifs <;> rfl

theorem log_handleWatch (w : World) : (handleWatch args w).2.log = w.log := by
  unfold handleWatch
  split_ifs <;> rfl

theorem log_handleUnwatch (w : World) : (handleUnwatch args w).2.log = w.log := by
  unfold handleUnwatch
  split_ifs <;> rfl

end

section Calls

variable (hcalls : CallsLog P calls)

include hcalls

section

variable (hP : ∀ (queued : QueuedCommand) user accesses reply,
  (∀ access ∈ accesses, queued.runner.Touches access) →
  P ⟨user, queued.entry, queued.cmd, .exec, [], queued.runner, accesses, reply⟩)

include hP

theorem logs_runQueued (queued : List QueuedCommand) (w : World) :
    Logs P w (runQueued calls queued w).2 := by
  induction queued generalizing w with
  | nil => exact .of_log_eq rfl
  | cons first rest ih =>
    have hrun : Logs P w (perform calls w.conn.session.user .exec []
        first.entry first.cmd first.runner w).2 :=
      logs_perform hcalls (fun accesses reply hto => hP first _ accesses reply hto) w
    exact hrun.trans (ih _)

theorem logs_handleExec (args : List Bytes) (w : World) :
    Logs P w (handleExec server calls args w).2 := by
  unfold handleExec
  split
  · exact .of_log_eq rfl
  split
  · exact .of_log_eq rfl
  split
  · exact .of_log_eq rfl
  split
  · exact .of_log_eq rfl
  split
  · exact .of_log_eq rfl
  split
  · exact .of_log_eq rfl
  split
  · exact .of_log_eq rfl
  · exact (logs_runQueued hcalls hP w.conn.queuedCmds w.tick.tick).congr rfl rfl

end

variable (hmakes : Makes P server cmd)

include hmakes

theorem logs_runInSSI (he : server.registry cmd.type = some entry) (keys : List Bytes)
    (hrn : entry.Gives cmd.args runner) (w : World) :
    Logs P w (runInSSI calls entry cmd keys runner w).2 := by
  unfold runInSSI
  cases herr : ssiError w.conn.session.user entry.write (keys ++ entry.declared cmd) with
  | some err =>
    simp only [herr]
    exact (logs_refuse (w := w.abortTxn) (hmakes.refused _ _ _ _ _ _)).congr rfl rfl
  | none =>
    have hps : Route.ssi.Passed w.conn.session.user entry.write
        (keys ++ entry.declared cmd) := herr
    have hrun : Logs P w (perform calls w.conn.session.user .ssi
        (keys ++ entry.declared cmd) entry cmd runner w).2 :=
      logs_perform hcalls (fun accesses reply hto => hmakes.ran he hrn hps hto) w
    simp only [herr]
    split
    · exact hrun
    · exact hrun.congr rfl rfl

theorem logs_queueCommand (w : World) : Logs P w (queueCommand server calls cmd w).2 := by
  unfold queueCommand
  split
  · exact .of_log_eq rfl
  · split
    · exact .of_log_eq rfl
    · rename_i entry he
      split
      · exact .of_log_eq rfl
      · rename_i prepare hprep
        split
        · exact .of_log_eq rfl
        · rename_i keys runner hacc
          split
          · exact logs_runInSSI hcalls hmakes he keys
              (Entry.gives_of_prepare hprep hacc) w
          · exact .of_log_eq rfl

theorem logs_dispatchConn (he : server.registry cmd.type = some entry) {handler : ConnHandler}
    (hh : entry.connHandler = some handler) (w : World) :
    Logs P w (dispatchConn server calls entry cmd handler w).2 := by
  unfold dispatchConn
  cases herr : (entry.declared cmd).findSome? (keyError w.conn.session.user entry.write) with
  | some err => exact logs_refuse (hmakes.refused _ _ _ _ _ _)
  | none =>
    refine logs_attemptLoop (fun w' => ?_) maxTxnRetries w
    cases handler with
    | multi => exact .of_log_eq (log_handleMulti cmd.args w')
    | exec => exact logs_handleExec hcalls (hmakes.exec entry he hh) cmd.args w'
    | discard => exact .of_log_eq (log_handleDiscard cmd.args w')
    | watch => exact .of_log_eq (log_handleWatch cmd.args w')
    | unwatch => exact .of_log_eq (log_handleUnwatch cmd.args w')
    | session run => exact .of_log_eq rfl
    | data run =>
      have hps : Route.connHandler.Passed w.conn.session.user entry.write
          (entry.declared cmd) := herr
      exact logs_perform hcalls
        (fun accesses reply hto => hmakes.ran he (.conn _ hh) hps hto) w'

theorem logs_dispatchHandler (he : server.registry cmd.type = some entry)
    {handler : List Bytes → Prepared} (hh : entry.handler = some handler) (w : World) :
    Logs P w (dispatchHandler server calls entry cmd handler w).2 := by
  unfold dispatchHandler
  split
  · exact .of_log_eq rfl
  · rename_i keys runner hprep
    cases herr : handlerError w.conn.session.user entry.write keys with
    | some err => exact logs_refuse (hmakes.refused _ _ _ _ _ _)
    | none =>
      simp only
      split
      · exact .of_log_eq rfl
      · have hperform : ∀ w', Logs P w'
            (perform calls w.conn.session.user .handler keys entry cmd runner w').2 :=
          logs_perform hcalls fun accesses reply hto =>
            hmakes.ran he (.prepared (.inl hh) hprep) herr hto
        exact (logs_attemptLoop hperform maxTxnRetries w.tick).congr rfl rfl

theorem logs_dispatch (w : World) : Logs P w (dispatch server calls cmd w).2 := by
  unfold dispatch
  split
  · exact .of_log_eq rfl
  · rename_i entry he
    split
    · rename_i handler hh
      exact logs_dispatchConn hcalls hmakes he hh w
    · split
      · rename_i handler hh
        exact logs_dispatchHandler hcalls hmakes he hh w
      · exact .of_log_eq rfl

theorem logs_executeInto (w : World) : Logs P w (executeInto server calls cmd w).2 := by
  obtain ⟨href, hgiven⟩ := log_admission server cmd w
  unfold executeInto
  cases hadm : admission server cmd w with
  | error refused => exact .of_log_eq (href refused hadm)
  | ok w₁ =>
    have hlog : Logs P w w₁ := .of_log_eq (hgiven w₁ hadm)
    simp only
    split_ifs
    · exact hlog.congr rfl rfl
    · exact hlog.trans (logs_queueCommand hcalls hmakes w₁)
    · exact hlog.trans (logs_dispatch hcalls hmakes w₁)

end Calls

/-- A call out of a script logs what the command does if it gets to the dispatcher. -/
theorem logs_redisCall {name : Bytes} {readOnly : Bool}
    (hmakes : ∀ type, lookupCommandName (ByteText.toUpper name) = some type →
      (readOnly && isWriteCommand type) = false → Makes P server ⟨type, args⟩) (w : World) :
    Logs P w (redisCall (executeInScript server) name args readOnly w).2 := by
  unfold redisCall
  simp only
  split
  · exact .of_log_eq rfl
  split
  · exact .of_log_eq rfl
  rename_i type hn
  split
  · exact .of_log_eq rfl
  split
  · exact .of_log_eq rfl
  · rename_i hw
    exact (logs_executeInto callsLog_none (hmakes type hn (Bool.not_eq_true _ ▸ hw))
      { w with conn := { w.conn with inScript := true } }).congr rfl rfl

theorem callsLog_calls (server : Server) : CallsLog Attempt.WellChecked server.calls := by
  intro call hc name args readOnly w
  cases hc
  exact logs_redisCall (fun type _ _ => makes_wellChecked server ⟨type, args⟩) w

theorem logs_executeForwarded {cmds : List Command} :
    Logs Attempt.WellChecked w (executeForwarded server cmds w).2 := by
  have hqu : ∀ w, Logs Attempt.WellChecked w
      (cmds.foldl (fun w cmd => (queueCommand server server.calls cmd w).2) w) := by
    induction cmds with
    | nil => exact fun w => .of_log_eq rfl
    | cons cmd cmds ih => exact fun w =>
      (logs_queueCommand (callsLog_calls server) (makes_wellChecked server cmd) w).trans (ih _)
  have hran : Logs Attempt.WellChecked w (handleExec server server.calls []
      (cmds.foldl (fun w cmd => (queueCommand server server.calls cmd w).2) w)).2 :=
    (hqu w).trans (logs_handleExec (callsLog_calls server)
      (fun _ _ _ _ hto => .inr ⟨hto, trivial⟩) [] _)
  unfold executeForwarded
  simp only
  split <;> exact hran.congr rfl rfl

theorem logs_handleForwardedTransaction (authorizedUser : Bytes) (cmds : List Command) (w : World) :
    Logs Attempt.WellChecked w
      (handleForwardedTransaction server authorizedUser cmds w).2 := by
  have hran : ∀ conn, Logs Attempt.WellChecked w (runForwarded server conn cmds w).2 := by
    intro conn
    unfold runForwarded
    split
    · refine Logs.trans ?_ (logs_executeInto (callsLog_calls server) (makes_wellChecked server _) _)
      exact .of_log_eq rfl
    · refine Logs.trans ?_ (logs_executeForwarded)
      exact .of_log_eq rfl
  unfold handleForwardedTransaction
  simp only
  split
  · exact .of_log_eq rfl
  · split
    · exact .of_log_eq rfl
    · split
      · exact .of_log_eq rfl
      · exact (hran _).congr rfl rfl

theorem logs_step (event : Event) (w : World) :
    Logs Attempt.WellChecked w (step server event w).2 := by
  cases event with
  | client cmd => exact logs_executeInto (callsLog_calls server) (makes_wellChecked server cmd) w
  | forwarded user cmds => exact logs_handleForwardedTransaction user cmds w
  | acl users | script timedOut | external store => exact .of_log_eq rfl

/-- In every run every attempt is well checked. -/
theorem logs_runEvents (events : List Event) (w : World) :
    Logs Attempt.WellChecked w (runEvents server events w) := by
  induction events generalizing w with
  | nil => exact .of_log_eq rfl
  | cons event events ih => exact (logs_step event w).trans (ih _)

end Server

/-! ## 4.  Enforcement -/

/-- If the runner can read or write a key that is denied, the attempt was answered with an error
and did nothing to the key; and nothing it did is denied. -/
def Attempt.Enforced (a : Attempt) : Prop :=
  (∀ access, a.runner.Touches access → AccessDenied a.user a.entry.write access →
    a.reply.isError = true ∧ ∀ made ∈ a.accesses, made.key ≠ access.key) ∧
    ∀ made ∈ a.accesses, ¬ AccessDenied a.user a.entry.write made

/-- The runner keeps to the keys that its route checks, writes only with the write flag, and
touches nothing where nobody is logged in. -/
def Attempt.KeepsToChecked (a : Attempt) : Prop :=
  ∀ access, a.runner.Touches access →
    access.key ∈ a.checked ∧ (access.isWrite = true → a.entry.write = true) ∧ a.user ≠ none

/-- The condition under which an attempt is enforced: its runner keeps to the checked keys; on
the `ConnHandler` path it writes no internal key; and run by `EXEC` outside SSI, where nothing is
checked, it touches nothing that is denied. -/
def Attempt.Guarded (a : Attempt) : Prop :=
  match a.route with
  | .handler | .ssi => a.KeepsToChecked
  | .connHandler =>
    a.KeepsToChecked ∧
      ∀ access, a.runner.Touches access → access.isWrite = true →
        reservedKey access.key = false
  | .exec =>
    ∀ access, a.runner.Touches access → ¬ AccessDenied a.user a.entry.write access

theorem checkKey_of_keyError (h : keyError user isWrite key = none) (hu : user ≠ none) :
    checkKey user key isWrite = .ok () := by
  cases user with
  | none => exact absurd rfl hu
  | some user =>
    cases hch : checkKey (some user) key isWrite with
    | ok _ => rfl
    | error e => simp [keyError, hch] at h

theorem reservedKey_of_internalError (h : internalError true key = none) :
    reservedKey key = false := by
  cases hkey : reservedKey key with
  | false => rfl
  | true => simp [internalError, hkey] at h

/-- A key that passed both checks is not denied. -/
theorem not_accessDenied {access : Access} (hu : user ≠ none)
    (hkey : keyError user isWrite access.key = none)
    (hreserved : access.isWrite = true → reservedKey access.key = false) :
    ¬ AccessDenied user isWrite access := by
  rintro (hden | ⟨hw, hint⟩)
  · exact hden (checkKey_of_keyError hkey hu)
  · rw [hreserved hw] at hint
    exact Bool.false_ne_true hint

theorem Attempt.WellChecked.enforced {a : Attempt} (h : a.WellChecked) (hguarded : a.Guarded) :
    a.Enforced := by
  rcases h with ⟨hr, hn⟩ | ⟨hto, hch⟩
  · refine ⟨fun access _ _ => ⟨hr, ?_⟩, ?_⟩
    all_goals simp [hn]
  · -- It was not refused: then nothing that the runner can touch is denied.
    have hok : ∀ access, a.runner.Touches access →
        ¬ AccessDenied a.user a.entry.write access := by
      intro access hacc
      obtain ⟨user, entry, cmd, route, checked, runner, accesses, reply⟩ := a
      cases route with
      | handler =>
        obtain ⟨hmem, hflag, hu⟩ := hguarded access hacc
        obtain ⟨hks, hint⟩ := or_eq_none_iff.mp hch
        refine not_accessDenied hu (findSome?_eq_none_iff.mp hks _ hmem) fun hw => ?_
        have hkey := findSome?_eq_none_iff.mp hint _ hmem
        rw [hflag hw] at hkey
        exact reservedKey_of_internalError hkey
      | connHandler =>
        obtain ⟨hmem, -, hu⟩ := hguarded.1 access hacc
        exact not_accessDenied hu (findSome?_eq_none_iff.mp hch _ hmem)
          (hguarded.2 access hacc)
      | ssi =>
        obtain ⟨hmem, hflag, hu⟩ := hguarded access hacc
        obtain ⟨hkey, hint⟩ :=
          or_eq_none_iff.mp (findSome?_eq_none_iff.mp hch _ hmem)
        refine not_accessDenied hu hkey fun hw => ?_
        rw [hflag hw] at hint
        exact reservedKey_of_internalError hint
      | exec => exact hguarded access hacc
    refine ⟨fun access hacc hden => absurd hden (hok access hacc), ?_⟩
    exact fun made hmade => hok made (hto made hmade)

/-- In every run of events on a connection, by every route, an attempt that is guarded is
enforced. -/
theorem guarded_attempts_enforced (server : Server) (users : Users) (store : Store)
    (events : List Event) :
    ∀ a ∈ (runEvents server events (World.fresh users store)).log, a.Guarded → a.Enforced := by
  intro a ha hguarded
  have hrun : Logs Attempt.WellChecked (World.fresh users store)
      (runEvents server events (World.fresh users store)) := logs_runEvents events _
  have hlog := hrun.mem (by simp [World.fresh])
  exact (hlog a ha).enforced hguarded

section Samples

/-- `GET`. -/
def sampleGet : Entry where
  connHandler := none
  handler := some fun args =>
    match args with
    | [key] => .ok ([key], .read key fun value => .done (.bulk value))
    | _ => .error (.error (.wrongNumArguments "get"))
  txnPrepare := none
  keys := none
  write := false
  noAuth := false
  noQueue := false
  pubSub := false
  live := rfl

/-- `BRPOPLPUSH` on lists of one element. -/
def sampleBRPopLPush : Entry where
  connHandler := some (.data fun _ args =>
    match args with
    | [source, destination, _] =>
      .read source fun value =>
        match value with
        | none => .done (.bulk none)
        | some elem =>
          .write source none (.write destination (some elem) (.done (.bulk (some elem))))
    | _ => .done (.error (.wrongNumArguments "brpoplpush")))
  handler := none
  txnPrepare := none
  keys := some fun args => if args.length < 2 then [] else args.take 2
  write := true
  noAuth := false
  noQueue := false
  pubSub := false
  live := rfl

/-- `MULTI` and `EXEC`. -/
def sampleTransaction (handler : ConnHandler) : Entry where
  connHandler := some handler
  handler := none
  txnPrepare := none
  keys := none
  write := false
  noAuth := false
  noQueue := true
  pubSub := false
  live := rfl

/-- A server with four commands in a cluster that commits everything. -/
def sampleServer (ssi : Bool) : Server where
  registry cmd :=
    match cmd with
    | .cmdGet => some sampleGet
    | .cmdBRPopLPush => some sampleBRPopLPush
    | .cmdMulti => some (sampleTransaction .multi)
    | .cmdExec => some (sampleTransaction .exec)
    | _ => none
  ssi := ssi
  forward _ _ := none
  forwardExec _ _ := none
  flush _ := .committed
  checkWatches _ := true

/-- The default user may use the keys `app:*` only. -/
def appUser : ACLUser :=
  { defaultUser with allKeys := false, keyPatterns := [⟨utf8 "app:*", .readWrite⟩] }

/-- A secret, and a list of one element. -/
def sampleStore : Store := fun key =>
  if key = utf8 "secret" then some (utf8 "s3cret")
  else if key = utf8 "app:q" then some (utf8 "x") else none

/-- A connection of the default user. -/
def sampleWorld (user : ACLUser) : World :=
  World.fresh (AList.singleton defaultUsername user) sampleStore

/-- The request `GET secret`. -/
def getSecret : Command := ⟨.cmdGet, [utf8 "secret"]⟩

/-- `GET secret` sent alone is refused and reads nothing. -/
theorem direct_get_enforced :
    ∃ a ∈ (runEvents (sampleServer false) [.client getSecret] (sampleWorld appUser)).log,
      AccessDenied a.user a.entry.write ⟨utf8 "secret", false⟩ ∧
        a.runner.Touches ⟨utf8 "secret", false⟩ ∧ a.Enforced := by
  have hden : AccessDenied (some appUser) false ⟨utf8 "secret", false⟩ :=
    .inl (by decide)
  refine ⟨⟨some appUser, sampleGet, getSecret, .handler, [utf8 "secret"],
    .read (utf8 "secret") fun value => .done (.bulk value), [],
    .error (.noKeyPermission (utf8 "secret"))⟩, ?_, hden, .inl rfl, ?_⟩
  · exact mem_singleton.mpr rfl
  · refine guarded_attempts_enforced (sampleServer false)
      (AList.singleton defaultUsername appUser) sampleStore [.client getSecret] _
      (mem_singleton.mpr rfl) ?_
    rintro access (rfl | ⟨_, hfalse⟩)
    · exact ⟨mem_singleton.mpr rfl, by simp, by simp⟩
    · exact hfalse.elim

/-- Sent between `MULTI` and `EXEC`, or forwarded in a transaction, the same request returns the
secret; and `BRPOPLPUSH` writes an internal key. -/
theorem unchecked_routes :
    (∃ a ∈ (runEvents (sampleServer false)
        [.client ⟨.cmdMulti, []⟩, .client getSecret, .client ⟨.cmdExec, []⟩]
        (sampleWorld appUser)).log,
      a.accesses = [⟨utf8 "secret", false⟩] ∧ a.reply = .bulk (some (utf8 "s3cret")) ∧
        ¬ a.Enforced) ∧
      (∃ a ∈ (runEvents (sampleServer false) [.forwarded [] [getSecret, getSecret]]
          (sampleWorld appUser)).log,
        a.accesses = [⟨utf8 "secret", false⟩] ∧ a.reply = .bulk (some (utf8 "s3cret")) ∧
          ¬ a.Enforced) ∧
      ∃ a ∈ (runEvents (sampleServer false)
          [.client ⟨.cmdBRPopLPush, [utf8 "app:q", utf8 "__swytch:x", utf8 "0"]⟩]
          (sampleWorld defaultUser)).log,
        ⟨utf8 "__swytch:x", true⟩ ∈ a.accesses ∧ a.reply = .bulk (some (utf8 "x")) ∧
          ¬ a.Enforced := by
  have hget : AccessDenied (some appUser) false ⟨utf8 "secret", false⟩ :=
    .inl (by decide)
  have hint : AccessDenied (some defaultUser) true ⟨utf8 "__swytch:x", true⟩ :=
    .inr ⟨rfl, by decide⟩
  refine ⟨⟨_, mem_cons_self, rfl, rfl, fun h => ?_⟩,
    ⟨_, mem_cons_self, rfl, rfl, fun h => ?_⟩, _, mem_cons_self, ?_, rfl, fun h => ?_⟩
  · exact h.2 _ (mem_singleton.mpr rfl) hget
  · exact h.2 _ (mem_singleton.mpr rfl) hget
  · exact .tail _ (.tail _ (.head _))
  · exact h.2 _ (.tail _ (.tail _ (.head _))) hint

end Samples

end Swytch.Redis
