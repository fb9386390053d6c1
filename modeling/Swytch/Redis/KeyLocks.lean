import Swytch.Redis.Registry

/-!
# The per-key lock of the dispatcher

`ExecuteInto` locks the mutex of the first declared key around the runner of a `Handler`, outside
a transaction.  The mutexes of `GetLock` are not reentrant: a thread that asks for one that it
holds waits for itself.  The runner of `BITFIELD` is the only one that asks for a mutex, and it
asks for the one of its first argument, which is what the registry declares.
-/

namespace Swytch.Redis

open Sql (Bytes utf8)

/-! ## 1.  `BITFIELD` -/

/-- What `OVERFLOW` sets. -/
inductive OverflowBehavior where
  | wrap
  | sat
  | fail
  deriving DecidableEq

/-- The operation of a subcommand, with its value. -/
inductive BitFieldOp where
  | get
  | set (value : ℤ)
  | incrBy (increment : ℤ)
  deriving DecidableEq

/-- `subCommand` of `handleBitField`. -/
structure BitFieldSubCommand where
  op : BitFieldOp
  signed : Bool
  bits : ℤ
  offset : ℤ
  overflow : OverflowBehavior
  deriving DecidableEq

/-- The errors that `handleBitField` writes for its arguments. -/
inductive BitFieldError where
  /-- `ERR wrong number of arguments for 'bitfield' command`. -/
  | wrongNumArguments
  /-- `ERR syntax error`. -/
  | syntaxError
  /-- `ERR Invalid bitfield type.` and how it is written. -/
  | invalidType
  /-- `ERR bit offset is not an integer or out of range`. -/
  | invalidOffset
  /-- `ERR value is not an integer or out of range`. -/
  | notInteger
  /-- `ERR Invalid OVERFLOW type (should be one of WRAP, SAT, FAIL)`. -/
  | invalidOverflow
  deriving DecidableEq

/-- `parseBitfieldType`: whether it is signed, and the width. -/
def parseBitfieldType (arg : Bytes) : Option (Bool × ℤ) :=
  match arg with
  | c :: digits =>
    if digits = [] then none
    else
      let signed := c = 0x69 || c = 0x49
      if !signed && c ≠ 0x75 && c ≠ 0x55 then none
      else
        match parseInt64 digits with
        | none => none
        | some bits =>
          if bits < 1 || bits > 64 || (!signed && bits = 64) then none
          else some (signed, bits)
  | [] => none

/-- `parseBitfieldOffset`: a number, or `#` and a number of widths. -/
def parseBitfieldOffset (arg : Bytes) (bitWidth : ℤ) : Option ℤ :=
  match arg with
  | [] => none
  | 0x23 :: digits =>
    match parseInt64 digits with
    | none => none
    | some idx => if idx < 0 then none else some ((idx * bitWidth).bmod (2 ^ 64))
  | arg =>
    match parseInt64 arg with
    | none => none
    | some offset => if offset < 0 then none else some offset

/-- The type and the offset of a subcommand. -/
def parseBitfieldField (type offset : Bytes) : Except BitFieldError (Bool × ℤ × ℤ) :=
  match parseBitfieldType type with
  | none => .error .invalidType
  | some (signed, bits) =>
    match parseBitfieldOffset offset bits with
    | none => .error .invalidOffset
    | some offset => .ok (signed, bits, offset)

/-- The loop of `handleBitField` over its arguments. -/
def parseSubCommands (overflow : OverflowBehavior) :
    List Bytes → Except BitFieldError (List BitFieldSubCommand)
  | [] => .ok []
  | op :: rest =>
    let name := ByteText.toUpper op
    if name = utf8 "GET" then
      match rest with
      | type :: offset :: rest => do
        let (signed, bits, offset) ← parseBitfieldField type offset
        let others ← parseSubCommands overflow rest
        .ok (⟨.get, signed, bits, offset, overflow⟩ :: others)
      | _ => .error .syntaxError
    else if name = utf8 "SET" || name = utf8 "INCRBY" then
      match rest with
      | type :: offset :: value :: rest => do
        let (signed, bits, offset) ← parseBitfieldField type offset
        match parseInt64 value with
        | none => .error .notInteger
        | some value =>
          let others ← parseSubCommands overflow rest
          let op := if name = utf8 "SET" then BitFieldOp.set value else .incrBy value
          .ok (⟨op, signed, bits, offset, overflow⟩ :: others)
      | _ => .error .syntaxError
    else if name = utf8 "OVERFLOW" then
      match rest with
      | behavior :: rest =>
        let behavior := ByteText.toUpper behavior
        if behavior = utf8 "WRAP" then parseSubCommands .wrap rest
        else if behavior = utf8 "SAT" then parseSubCommands .sat rest
        else if behavior = utf8 "FAIL" then parseSubCommands .fail rest
        else .error .invalidOverflow
      | [] => .error .syntaxError
    else .error .syntaxError

/-- `handleBitField` on its arguments: the key and the subcommands. -/
def handleBitField (args : List Bytes) : Except BitFieldError (Bytes × List BitFieldSubCommand) :=
  match args with
  | [] => .error .wrongNumArguments
  | key :: rest => (parseSubCommands .wrap rest).map fun subCmds => (key, subCmds)

/-- The command is `BITFIELD` with a subcommand other than `OVERFLOW`. -/
def bitFieldOperates (cmd : CommandType) (args : List Bytes) : Bool :=
  cmd = .cmdBitField &&
    match handleBitField args with
    | .error _ => false
    | .ok (_, subCmds) => !subCmds.isEmpty

/-! ## 2.  The locks of a command -/

/-- What a thread does with mutexes. -/
inductive LockStep (μ : Type*) where
  | lock (mutex : μ)
  | unlock (mutex : μ)

/-- The thread, which holds these mutexes, comes to ask for one that it holds. -/
def WaitsForItself {μ : Type*} [DecidableEq μ] : List μ → List (LockStep μ) → Prop
  | _, [] => False
  | held, .lock mutex :: rest => mutex ∈ held ∨ WaitsForItself (mutex :: held) rest
  | held, .unlock mutex :: rest => WaitsForItself (held.erase mutex) rest

section Locks

variable {cmd : CommandType} {args : List Bytes} {μ : Type*} (getLock : Bytes → μ)

/-- What the runner of a command asks for.  Only `handleBitField` has a `GetLock`, and not where
there is no operation. -/
def runnerLocks (cmd : CommandType) (args : List Bytes) : List (LockStep μ) :=
  if cmd = .cmdBitField then
    match handleBitField args with
    | .error _ => []
    | .ok (_, []) => []
    | .ok (key, _ :: _) => [.lock (getLock key), .unlock (getLock key)]
  else []

/-- The runner is run once for each attempt. -/
def attemptLocks (cmd : CommandType) (args : List Bytes) (attempts : ℕ) : List (LockStep μ) :=
  (List.replicate attempts (runnerLocks getLock cmd args)).flatten

/-- What `ExecuteInto` does with mutexes for a command outside a transaction, when its runner is
run this many times. -/
def dispatchLocks (entry : Registration) (args : List Bytes) (attempts : ℕ) :
    List (LockStep μ) :=
  match entry.kind with
  | .connHandler => attemptLocks getLock entry.cmd args attempts
  | .handler =>
    match entry.keys.extract args with
    | [] => attemptLocks getLock entry.cmd args attempts
    | key :: _ =>
      .lock (getLock key) ::
        (attemptLocks getLock entry.cmd args attempts ++ [.unlock (getLock key)])

/-! ## 3.  When a command waits for itself -/

theorem runnerLocks_of_not
    (h : bitFieldOperates cmd args = false) : runnerLocks getLock cmd args = [] := by
  unfold runnerLocks
  split
  · rename_i hcmd
    cases hp : handleBitField args with
    | error err => rfl
    | ok parsed =>
      obtain ⟨key, _ | ⟨subCmd, rest⟩⟩ := parsed
      · rfl
      · simp [bitFieldOperates, hcmd, hp] at h
  · rfl

theorem attemptLocks_of_not (h : bitFieldOperates cmd args = false) (attempts : ℕ) :
    attemptLocks getLock cmd args attempts = [] := by
  rw [attemptLocks, runnerLocks_of_not getLock h]
  induction attempts with
  | zero => rfl
  | succ attempts ih => simp

/-- The first lock that `BITFIELD` takes is that of its first argument. -/
theorem runnerLocks_bitField (h : bitFieldOperates cmd args = true) :
    ∃ key rest, args = key :: rest ∧
      runnerLocks getLock cmd args = [.lock (getLock key), .unlock (getLock key)] := by
  have hboth := Bool.and_eq_true_iff.mp h
  have hcmd : cmd = .cmdBitField := of_decide_eq_true hboth.1
  cases args with
  | nil => simp [handleBitField] at hboth
  | cons key rest =>
    refine ⟨key, rest, rfl, ?_⟩
    unfold runnerLocks
    rw [if_pos hcmd]
    cases hp : parseSubCommands .wrap rest with
    | error err => simp [handleBitField, hp, Except.map] at hboth
    | ok subCmds =>
      cases subCmds with
      | nil => simp [handleBitField, hp, Except.map] at hboth
      | cons subCmd subCmds => simp [handleBitField, hp, Except.map]

/-- The entry of `BITFIELD`, the only one of this command. -/
theorem bitField_registered {entry : Registration} (h : entry ∈ registrations)
    (hcmd : entry.cmd = .cmdBitField) : entry.kind = .handler ∧ entry.keys = .first := by
  have hall : (registrations.all fun entry =>
      entry.cmd != .cmdBitField || (entry.kind = .handler && entry.keys = .first)) = true := by
    decide +kernel
  have he := List.all_eq_true.mp hall entry h
  rw [hcmd] at he
  simpa using he

end Locks

end Swytch.Redis
