import Swytch.Lib.Heap
import Swytch.Redis.Registry

/-!
# Reading commands from a connection

A client sends a command as an array of bulk strings: `*` and their number on a line, and then for
each of them `$` and its length on a line, its bytes, and the end of a line.  The parser reads one
command after the other, all into one `Command` whose array of arguments it reuses.  A line that does
not begin with `*` is a command of words separated by blanks.

Commands that are encoded so are read back exactly, however many of them follow each other and
whatever follows them (`readPipeline`).  What comes after the bytes of a bulk string is skipped, two
bytes, without a look at them.  So a length that is too small or too large is not noticed, and the
bytes that follow are read as something else than they are; a reader that looks, `strictCommand`,
reads the same exactly where every bulk string has the end of a line after it.
-/

namespace Swytch.Redis.Protocol

open List
open Sql (Bytes utf8)
open Decimal (ofNat)

/-! ## 1.  The connection -/

inductive ReadError where
  | eof
  | unexpectedEOF
  | lineTooLong
  | invalidProtocol
  | invalidBulkLength
  | invalidArrayCount
  deriving DecidableEq

/-- `Command`, as far as the parser writes it.  A null bulk string is an argument that is `nil`. -/
structure Command where
  type : CommandType
  args : Slice (Option Bytes)
  rawName : Option Bytes

/-- The bytes not read yet, and the command that is read into. -/
structure Conn where
  input : Bytes
  cmd : Command

/-- A step of the parser, which leaves the connection in some state also when it fails. -/
abbrev Reader (α : Type) := EStateM ReadError Conn α

/-- What comes of a step. -/
def outcome {α : Type} (m : Reader α) (conn : Conn) : Except ReadError α :=
  match m conn with
  | .ok a _ => .ok a
  | .error err _ => .error err

/-- The connection after a step. -/
def after {α : Type} (m : Reader α) (conn : Conn) : Conn :=
  match m conn with
  | .ok _ next => next
  | .error _ next => next

/-- The two bytes at the end of a line. -/
def crlf : Bytes := [0x0d, 0x0a]

/-- The size of the buffer, which has at least 16 bytes. -/
def bufSize (size : ℕ) : ℕ := max size 16

/-- `io.ReadFull` of so many bytes. -/
def readFull (n : ℕ) : Reader Bytes := fun conn =>
  if n ≤ conn.input.length then
    .ok (conn.input.take n) { conn with input := conn.input.drop n }
  else .error (if conn.input = [] then .eof else .unexpectedEOF) { conn with input := [] }

def discard (n : ℕ) : Reader Unit := fun conn =>
  if n ≤ conn.input.length then .ok () { conn with input := conn.input.drop n }
  else .error .eof { conn with input := [] }

/-! ## 2.  Lines and headers -/

/-- The last byte goes if it is `b`. -/
def trimByte (b : UInt8) (line : Bytes) : Bytes :=
  if line.getLast? = some b then line.dropLast else line

/-- The first line and what is after it, if it ends within the buffer. -/
def cutLine (size : ℕ) (input : Bytes) : Option (Bytes × Bytes) :=
  let i := input.idxOf 0x0a
  if i < bufSize size ∧ i < input.length then
    some (trimByte 0x0d (trimByte 0x0a (input.take (i + 1))), input.drop (i + 1))
  else none

def readLine (size : ℕ) : Reader Bytes := fun conn =>
  match cutLine size conn.input with
  | some (line, after) => .ok line { conn with input := after }
  | none =>
    if conn.input.length < bufSize size then .error .eof { conn with input := [] }
    else .error .lineTooLong { conn with input := conn.input.drop (bufSize size) }

def maxArrayCount : ℕ := 1048576

def defaultProtoMaxBulkLen : ℕ := 512 * 1024 * 1024

/-- The number of bulk strings, from the first line of an array. -/
def arrayHeader : Bytes → Except ReadError ℕ
  | [] => .error .invalidProtocol
  | b :: digits =>
    if b ≠ 0x2a then .error .invalidProtocol
    else
      match parseInt64 digits with
      | none => .error .invalidArrayCount
      | some count =>
        if count < 0 then .error .invalidArrayCount
        else if maxArrayCount < count then .error .invalidArrayCount
        else .ok count.toNat

/-- The length of a bulk string, from its first line; `none` for a null bulk string. -/
def bulkHeader : Bytes → Except ReadError (Option ℕ)
  | [] => .error .invalidProtocol
  | b :: digits =>
    if b ≠ 0x24 then .error .invalidProtocol
    else
      match parseInt64 digits with
      | none => .error .invalidBulkLength
      | some length =>
        if length = -1 then .ok none
        else if length < 0 then .error .invalidBulkLength
        else if defaultProtoMaxBulkLen < length then .error .invalidBulkLength
        else .ok (some length.toNat)

/-! ## 3.  Bulk strings and arrays -/

/-- A bulk string, whose end is read by `terminator`. -/
def bulkString (size : ℕ) (terminator : Reader Unit) : Reader (Option Bytes) := do
  let line ← readLine size
  match bulkHeader line with
  | .error err => throw err
  | .ok none => return none
  | .ok (some length) => do
    let data ← readFull length
    terminator
    return some data

def readBulkString (size : ℕ) : Reader (Option Bytes) := bulkString size (discard 2)

/-- `append(cmd.Args, arg)`. -/
def appendArg (arg : Option Bytes) : Reader Unit :=
  modify fun conn => { conn with cmd := { conn.cmd with args := conn.cmd.args.append arg } }

/-- The loop of `readArrayCommand`. -/
def readArgs (bulk : Reader (Option Bytes)) : ℕ → Reader Unit
  | 0 => pure ()
  | count + 1 => do
    let arg ← bulk
    appendArg arg
    readArgs bulk count

/-- The array of the arguments is emptied, or a larger one is made. -/
def resetArgs (least : ℕ) : Reader Unit :=
  modify fun conn =>
    let args := conn.cmd.args
    { conn with cmd :=
        { conn.cmd with
          args := if args.array.length < least then .make none least else args.truncate 0 } }

def parseCommandType (name : Bytes) : CommandType := (lookupCommandName (upper name)).getD .cmdUnknown

/-- The first argument is the name of the command. -/
def Command.takeName (cmd : Command) : Command :=
  match cmd.args.elems with
  | [] => cmd
  | name :: _ =>
    let type := parseCommandType (name.getD [])
    let last := cmd.args.len - 1
    { type := type
      args := (cmd.args.copyDown.set last none).truncate last
      rawName := if type = .cmdUnknown then name else cmd.rawName }

/-- The command is changed and returned. -/
def finish (change : Command → Command) : Reader Command := fun conn =>
  .ok (change conn.cmd) { conn with cmd := change conn.cmd }

/-- `readArrayCommand`, with a way to read a bulk string. -/
def arrayCommand (size : ℕ) (bulk : Reader (Option Bytes)) : Reader Command := do
  let line ← readLine size
  match arrayHeader line with
  | .error err => throw err
  | .ok 0 => finish fun cmd => { cmd with type := .cmdUnknown }
  | .ok (count + 1) => do
    resetArgs (count + 1)
    readArgs bulk (count + 1)
    finish Command.takeName

/-! ## 4.  Lines of words, and commands -/

def nextToken (b : Bytes) : Option (Bytes × Bytes) :=
  let b := b.dropWhile (· = 0x20)
  if b = [] then none
  else some (b.takeWhile (· ≠ 0x20), (b.dropWhile (· ≠ 0x20)).drop 1)

/-- The loop over the tokens; there are no more of them than bytes. -/
def appendTokens : ℕ → Bytes → Reader Unit
  | 0, _ => pure ()
  | rounds + 1, rest =>
    match nextToken rest with
    | none => pure ()
    | some (token, remaining) => do
      appendArg (some token)
      appendTokens rounds remaining

def readInlineCommand (size : ℕ) : Reader Command := do
  let line ← readLine size
  if line = [] then finish fun cmd => { cmd with type := .cmdNoop }
  else do
    resetArgs 8
    appendTokens line.length line
    finish fun cmd => if cmd.args.elems = [] then { cmd with type := .cmdNoop } else cmd.takeName

/-- `ReadCommandInto`, with a way to read a bulk string. -/
def commandInto (size : ℕ) (bulk : Reader (Option Bytes)) : Reader Command := fun conn =>
  match conn.input with
  | [] => .error .eof conn
  | b :: _ => if b = 0x2a then arrayCommand size bulk conn else readInlineCommand size conn

def readCommandInto (size : ℕ) : Reader Command := commandInto size (readBulkString size)

/-- One read after the other with the same command, also after errors: what comes of each, and what
it leaves unread. -/
def reads (read : Reader Command) : ℕ → Conn → List (Except ReadError Command × Bytes)
  | 0, _ => []
  | n + 1, conn =>
    (outcome read conn, (after read conn).input) :: reads read n (after read conn)

/-! ## 5.  The reader that looks -/

/-- The end of a line, or a protocol error. -/
def expectCRLF : Reader Unit := fun conn =>
  if 2 ≤ conn.input.length ∧ conn.input.take 2 ≠ crlf then .error .invalidProtocol conn
  else discard 2 conn

/-- The command that a reader gets that does not take anything but the end of a line after a bulk
string. -/
def strictCommand (size : ℕ) : Reader Command := commandInto size (bulkString size expectCRLF)

/-- The two bytes after each bulk string that a reader of so many of them comes to. -/
def bulkTerminators (size : ℕ) : ℕ → Bytes → List Bytes
  | 0, _ => []
  | count + 1, input =>
    match cutLine size input with
    | none => []
    | some (line, after) =>
      match bulkHeader line with
      | .error _ => []
      | .ok none => bulkTerminators size count after
      | .ok (some length) =>
        if after.length < length + 2 then []
        else
          (after.drop length).take 2 :: bulkTerminators size count (after.drop (length + 2))

/-- The two bytes after each bulk string of the next command. -/
def terminators (size : ℕ) (input : Bytes) : List Bytes :=
  if input.head? = some 0x2a then
    match cutLine size input with
    | none => []
    | some (line, after) =>
      match arrayHeader line with
      | .error _ => []
      | .ok count => bulkTerminators size count after
  else []

/-- In the next command all of them are the end of a line. -/
def Terminated (size : ℕ) (input : Bytes) : Prop := ∀ t ∈ terminators size input, t = crlf

/-- The inputs from which the reads of a run start. -/
def starts (read : Reader Command) : ℕ → Conn → List Bytes
  | 0, _ => []
  | n + 1, conn => conn.input :: starts read n (after read conn)

/-! ## 6.  Encoded commands -/

/-- A number on a line after a letter. -/
def encodeHeader (b : UInt8) (n : ℕ) : Bytes := b :: (Decimal.ofNat n ++ crlf)

def encodeBulk (arg : Bytes) : Bytes := encodeHeader 0x24 arg.length ++ (arg ++ crlf)

/-- A command as an array of bulk strings. -/
def encodeCommand (words : List Bytes) : Bytes :=
  encodeHeader 0x2a words.length ++ words.flatMap encodeBulk

/-- The command can be sent: it has a name and keeps the limits. -/
structure Sendable (words : List Bytes) : Prop where
  ne_nil : words ≠ []
  count : words.length ≤ maxArrayCount
  bulk : ∀ word ∈ words, word.length ≤ defaultProtoMaxBulkLen

/-- What was read is the command with this name and these arguments.  The name is kept where the
type does not say it. -/
structure Shows (cmd : Command) (name : Bytes) (args : List Bytes) : Prop where
  type : cmd.type = parseCommandType name
  args : cmd.args.elems = args.map some
  rawName : cmd.type = .cmdUnknown → cmd.rawName = some name

variable {err : ReadError} {line : Bytes} {words : List Bytes} {count : ℕ}

section Rules

variable {α β : Type} {m : Reader α} {f : α → Reader β} {conn next : Conn}

theorem bind_of_ok {a : α} (h : m conn = .ok a next) : (m >>= f) conn = f a next := by
  show EStateM.bind m f conn = _
  unfold EStateM.bind
  rw [h]

theorem bind_of_error (h : m conn = .error err next) : (m >>= f) conn = .error err next := by
  show EStateM.bind m f conn = _
  unfold EStateM.bind
  rw [h]

theorem outcome_of_ok {a : α} (h : m conn = .ok a next) : outcome m conn = .ok a := by
  unfold outcome
  rw [h]

theorem after_of_ok {a : α} (h : m conn = .ok a next) : after m conn = next := by
  unfold after
  rw [h]

theorem after_of_error (h : m conn = .error err next) : after m conn = next := by
  unfold after
  rw [h]

end Rules

variable {rest : Bytes} {cmd : Command} {n : ℕ}

section Encoded

variable {b : UInt8} {n : ℕ} {size : ℕ}

theorem cutLine_append (hl : 0x0a ∉ line) (hlen : line.length < bufSize size) :
    cutLine size (line ++ 0x0a :: rest) = some (trimByte 0x0d line, rest) := by
  have hix : (line ++ 0x0a :: rest).idxOf 0x0a = line.length := by
    rw [idxOf_append_of_notMem hl, idxOf_cons_self, Nat.add_zero]
  have ht : (line ++ 0x0a :: rest).take (line.length + 1) = line ++ [0x0a] := by
    rw [take_length_add_append]
    rfl
  have hd : (line ++ 0x0a :: rest).drop (line.length + 1) = rest := by
    rw [drop_length_add_append]
    rfl
  have htr : trimByte 0x0a (line ++ [0x0a]) = line := by
    unfold trimByte
    rw [if_pos getLast?_concat, dropLast_concat]
  unfold cutLine
  simp only [hix]
  rw [if_pos ⟨hlen, by rw [length_append]; exact Nat.lt_add_of_pos_right (Nat.succ_pos _)⟩,
    ht, hd, htr]

theorem notMem_of_isDigit {digits : Bytes} (h : ∀ c ∈ digits, Decimal.IsDigit c)
    (hb : ¬ Decimal.IsDigit b) : b ∉ digits := fun hmem => hb (h b hmem)

theorem cutLine_header (hb : b ≠ 0x0a) (hn : n < 10 ^ 9) :
    cutLine size (encodeHeader b n ++ rest) = some (b :: ofNat n, rest) := by
  have hdigits : ∀ c ∈ ofNat n, Decimal.IsDigit c := fun _ hc =>
    Decimal.isDigit_of_mem_ofNat hc
  have hfeed : (0x0a : UInt8) ∉ b :: (ofNat n ++ [0x0d]) := by
    rw [mem_cons, mem_append, not_or, not_or]
    exact ⟨hb.symm, notMem_of_isDigit hdigits (by decide), by decide⟩
  have hlen : (b :: (ofNat n ++ [0x0d])).length < bufSize size := by
    have hle := Decimal.length_ofNat_le (by decide) hn
    unfold bufSize
    rw [length_cons, length_append, length_singleton]
    omega
  have hsp : encodeHeader b n ++ rest = (b :: (ofNat n ++ [0x0d])) ++ 0x0a :: rest := by
    simp [encodeHeader, crlf]
  have htr : trimByte 0x0d (b :: (ofNat n ++ [0x0d])) = b :: ofNat n := by
    unfold trimByte
    rw [← cons_append, if_pos getLast?_concat, dropLast_concat]
  rw [hsp, cutLine_append hfeed hlen, htr]

theorem readLine_header (hb : b ≠ 0x0a) (hn : n < 10 ^ 9) :
    readLine size ⟨encodeHeader b n ++ rest, cmd⟩ = .ok (b :: ofNat n) ⟨rest, cmd⟩ := by
  unfold readLine
  rw [cutLine_header hb hn]

theorem arrayHeader_ofNat (hn : n ≤ maxArrayCount) :
    arrayHeader (0x2a :: ofNat n) = .ok n := by
  have hbd : n < 2 ^ 63 := hn.trans_lt (by decide)
  have hle : ¬ ((maxArrayCount : ℤ) < n) := by omega
  simp only [arrayHeader, ne_eq, not_true_eq_false, if_false, parseInt64_ofNat hbd]
  rw [if_neg (by omega), if_neg hle, Int.toNat_natCast]

theorem bulkHeader_ofNat (hn : n ≤ defaultProtoMaxBulkLen) :
    bulkHeader (0x24 :: ofNat n) = .ok (some n) := by
  have hbd : n < 2 ^ 63 := hn.trans_lt (by decide)
  have hle : ¬ ((defaultProtoMaxBulkLen : ℤ) < n) := by omega
  simp only [bulkHeader, ne_eq, not_true_eq_false, if_false, parseInt64_ofNat hbd]
  rw [if_neg (by omega), if_neg (by omega), if_neg hle, Int.toNat_natCast]

variable (size)

/-- A bulk string is read back, whatever its bytes are and whatever follows. -/
theorem readBulkString_encode {arg : Bytes} (harg : arg.length ≤ defaultProtoMaxBulkLen)
    (rest : Bytes) (cmd : Command) :
    readBulkString size ⟨encodeBulk arg ++ rest, cmd⟩ = .ok (some arg) ⟨rest, cmd⟩ := by
  have hl : readLine size ⟨encodeBulk arg ++ rest, cmd⟩ =
      .ok (0x24 :: ofNat arg.length) ⟨arg ++ (crlf ++ rest), cmd⟩ := by
    have hsp : encodeBulk arg ++ rest =
        encodeHeader 0x24 arg.length ++ (arg ++ (crlf ++ rest)) := by
      simp [encodeBulk]
    rw [hsp]
    exact readLine_header (by decide) (harg.trans_lt (by decide))
  have hf : readFull arg.length ⟨arg ++ (crlf ++ rest), cmd⟩ = .ok arg ⟨crlf ++ rest, cmd⟩ := by
    unfold readFull
    rw [if_pos (by rw [length_append]; omega), take_left, drop_left]
  unfold readBulkString bulkString
  rw [bind_of_ok hl, bulkHeader_ofNat harg]
  show (readFull arg.length >>= _) _ = _
  rw [bind_of_ok hf]
  rfl

/-- The arguments of a command are read back, after those that are already there. -/
theorem readArgs_encode (hwords : ∀ word ∈ words, word.length ≤ defaultProtoMaxBulkLen)
    (rest : Bytes) (cmd : Command) :
    ∃ args : Slice (Option Bytes), args.elems = cmd.args.elems ++ words.map some ∧
      readArgs (readBulkString size) words.length ⟨words.flatMap encodeBulk ++ rest, cmd⟩ =
        .ok () ⟨rest, { cmd with args := args }⟩ := by
  induction words generalizing cmd with
  | nil => exact ⟨cmd.args, by rw [map_nil, append_nil], rfl⟩
  | cons word words ih =>
    obtain ⟨args, helems, hrd⟩ := ih (fun w hw => hwords w (mem_cons_of_mem _ hw))
      { cmd with args := cmd.args.append (some word) }
    refine ⟨args, ?_, ?_⟩
    · rw [helems, Slice.elems_append, append_assoc]
      rfl
    · have hbulk := readBulkString_encode size (hwords word mem_cons_self)
        (words.flatMap encodeBulk ++ rest) cmd
      rw [flatMap_cons, append_assoc]
      show (readBulkString size >>= _) _ = _
      rw [bind_of_ok hbulk]
      exact hrd

/-- A command is read back into whatever was read before. -/
theorem readCommandInto_encode (hwords : Sendable words) (rest : Bytes) (cmd : Command) :
    ∃ read name args, words = name :: args ∧ Shows read name args ∧
      readCommandInto size ⟨encodeCommand words ++ rest, cmd⟩ = .ok read ⟨rest, read⟩ := by
  obtain ⟨hne, hc, hbulk⟩ := hwords
  obtain ⟨name, args, rfl⟩ := exists_cons_of_ne_nil hne
  have hl : readLine size ⟨encodeCommand (name :: args) ++ rest, cmd⟩ =
      .ok (0x2a :: ofNat (args.length + 1))
        ⟨(name :: args).flatMap encodeBulk ++ rest, cmd⟩ := by
    unfold encodeCommand
    rw [append_assoc]
    exact readLine_header (by decide) (hc.trans_lt (by decide))
  -- The arguments that were read before are not seen in the array that is emptied or new.
  obtain ⟨reset, hrs, hemptied⟩ : ∃ reset : Slice (Option Bytes), reset.elems = [] ∧
      ∀ input, resetArgs (args.length + 1) ⟨input, cmd⟩ = .ok () ⟨input, { cmd with args := reset }⟩ := by
    refine ⟨if cmd.args.array.length < args.length + 1 then .make none (args.length + 1)
      else cmd.args.truncate 0, ?_, fun _ => rfl⟩
    split
    · rfl
    · rw [Slice.elems_truncate, take_zero]
  obtain ⟨read, helems, hrd⟩ :=
    readArgs_encode size hbulk rest { cmd with args := reset }
  rw [length_cons] at hrd
  have hnm : read.elems = some name :: args.map some := by
    rw [helems, hrs]
    rfl
  refine ⟨({ cmd with args := read } : Command).takeName, name, args, rfl, ?_, ?_⟩
  · have ht : ({ cmd with args := read } : Command).takeName =
        { type := parseCommandType name
          args := (read.copyDown.set (read.len - 1) none).truncate (read.len - 1)
          rawName := if parseCommandType name = .cmdUnknown then some name else cmd.rawName } := by
      unfold Command.takeName
      simp only [hnm]
      rfl
    rw [ht]
    refine ⟨rfl, ?_, fun hunk => if_pos hunk⟩
    rw [Slice.elems_copyDown_truncate, hnm, tail_cons]
  · have hhd : arrayHeader (0x2a :: ofNat (args.length + 1)) = .ok (args.length + 1) :=
      arrayHeader_ofNat hc
    show arrayCommand size (readBulkString size) _ = _
    unfold arrayCommand
    rw [bind_of_ok hl, hhd]
    show (resetArgs (args.length + 1) >>= _) _ = _
    rw [bind_of_ok (hemptied _), bind_of_ok hrd]
    rfl

end Encoded

/-! ## 7.  What is read is not read again -/

/-- The step takes from the input and gives nothing back. -/
def Shrinks {α : Type} (m : Reader α) : Prop :=
  ∀ conn, (after m conn).input.length ≤ conn.input.length

section Shrink

variable {α β : Type} {size : ℕ}

theorem Shrinks.bind {m : Reader α} {f : α → Reader β} (hm : Shrinks m)
    (hf : ∀ a, Shrinks (f a)) : Shrinks (m >>= f) := by
  intro conn
  have hfst := hm conn
  cases hrun : m conn with
  | ok a next =>
    rw [after_of_ok hrun] at hfst
    unfold after
    rw [bind_of_ok hrun]
    exact (hf a next).trans hfst
  | error err next =>
    rw [after_of_error hrun] at hfst
    rw [after_of_error (bind_of_error hrun)]
    exact hfst

theorem shrinks_of_input {m : Reader α} (h : ∀ conn, (after m conn).input = conn.input) :
    Shrinks m := fun conn => (congrArg length (h conn)).le

theorem length_drop_le {bytes : Bytes} : (bytes.drop n).length ≤ bytes.length := by
  rw [length_drop]
  exact Nat.sub_le _ _

theorem cutLine_eq_some {input : Bytes} (h : cutLine size input = some (line, rest)) :
    rest = input.drop (input.idxOf 0x0a + 1) := by
  unfold cutLine at h
  simp only at h
  split at h
  · exact (Prod.mk.inj (Option.some.inj h)).2.symm
  · cases h

theorem shrinks_readLine : Shrinks (readLine size) := by
  intro conn
  unfold after readLine
  cases hcut : cutLine size conn.input with
  | some pair =>
    obtain ⟨line, rest⟩ := pair
    rw [cutLine_eq_some hcut]
    exact length_drop_le
  | none =>
    by_cases hsh : conn.input.length < bufSize size
    · simp only [if_pos hsh]
      exact Nat.zero_le _
    · simp only [if_neg hsh]
      exact length_drop_le

theorem shrinks_readFull : Shrinks (readFull n) := by
  intro conn
  unfold after readFull
  by_cases hr : n ≤ conn.input.length
  · simp only [if_pos hr]
    exact length_drop_le
  · simp only [if_neg hr]
    exact Nat.zero_le _

theorem shrinks_discard (n : ℕ) : Shrinks (discard n) := by
  intro conn
  unfold after discard
  by_cases hr : n ≤ conn.input.length
  · simp only [if_pos hr]
    exact length_drop_le
  · simp only [if_neg hr]
    exact Nat.zero_le _

theorem shrinks_readBulkString : Shrinks (readBulkString size) := by
  refine shrinks_readLine.bind fun line => ?_
  split
  · exact shrinks_of_input fun _ => rfl
  · exact shrinks_of_input fun _ => rfl
  · refine (shrinks_readFull).bind fun data => (shrinks_discard 2).bind fun _ => ?_
    exact shrinks_of_input fun _ => rfl

theorem shrinks_readArgs (size count : ℕ) : Shrinks (readArgs (readBulkString size) count) := by
  induction count with
  | zero => exact shrinks_of_input fun _ => rfl
  | succ count ih =>
    refine shrinks_readBulkString.bind fun arg => Shrinks.bind ?_ fun _ => ih
    exact shrinks_of_input fun _ => rfl

end Shrink

/-! ## 8.  Where the two readers agree -/

section Agree

variable {conn : Conn} {rest : Bytes} {size : ℕ}

theorem readLine_of_none (hcut : cutLine size conn.input = none) :
    ∃ err next, readLine size conn = .error err next := by
  unfold readLine
  rw [hcut]
  by_cases hsh : conn.input.length < bufSize size
  · exact ⟨_, _, if_pos hsh⟩
  · exact ⟨_, _, if_neg hsh⟩

theorem readLine_of_some (hcut : cutLine size conn.input = some (line, rest)) :
    readLine size conn = .ok line ⟨rest, conn.cmd⟩ := by
  unfold readLine
  rw [hcut]

/-- The first reader reads as the second if all of these are the end of a line, and otherwise leaves
less unread. -/
def Compares {α : Type} (ts : List Bytes) (m m' : Reader α) (conn : Conn) : Prop :=
  ((∀ t ∈ ts, t = crlf) → m conn = m' conn) ∧
    ((¬ ∀ t ∈ ts, t = crlf) → (after m conn).input.length < (after m' conn).input.length)

section Compares

variable {α : Type} {ts ts' : List Bytes} {m m' n n' : Reader α} {start : Conn}

theorem compares_of_eq (heq : m conn = m' conn) (hts : ts = []) : Compares ts m m' conn := by
  subst hts
  exact ⟨fun _ => heq, fun h => absurd (forall_mem_nil _) h⟩

theorem Compares.congr (h : Compares ts m m' start)
    (hts : (∀ t ∈ ts', t = crlf) ↔ ∀ t ∈ ts, t = crlf) (hm : n conn = m start)
    (hm' : n' conn = m' start) : Compares ts' n n' conn := by
  unfold Compares after
  rw [hts, hm, hm']
  exact h

/-- The end of a command does not touch the input. -/
theorem Compares.finish {m m' : Reader Unit} (h : Compares ts m m' conn)
    (change : Command → Command) :
    Compares ts (m >>= fun _ => finish change) (m' >>= fun _ => finish change) conn := by
  have hinput : ∀ m : Reader Unit,
      (after (m >>= fun _ => Protocol.finish change) conn).input = (after m conn).input := by
    intro m
    cases hrun : m conn with
    | ok a next =>
      rw [after_of_ok hrun]
      unfold after
      rw [bind_of_ok hrun]
      rfl
    | error err next => rw [after_of_error hrun, after_of_error (bind_of_error hrun)]
  refine ⟨fun hts => ?_, fun hts => ?_⟩
  · show EStateM.bind _ _ conn = EStateM.bind _ _ conn
    unfold EStateM.bind
    rw [h.1 hts]
  · rw [hinput, hinput]
    exact h.2 hts

end Compares

/-- One bulk string: both readers fail, both go on behind it, or the one that looks stops at what is
after its bytes. -/
theorem bulkString_cases (size count : ℕ) (conn : Conn) :
    (∃ err next, readBulkString size conn = .error err next ∧
        bulkString size expectCRLF conn = .error err next ∧
        bulkTerminators size (count + 1) conn.input = []) ∨
      (∃ arg rest, readBulkString size conn = .ok arg ⟨rest, conn.cmd⟩ ∧
        bulkString size expectCRLF conn = .ok arg ⟨rest, conn.cmd⟩ ∧
        ((∀ t ∈ bulkTerminators size (count + 1) conn.input, t = crlf) ↔
          ∀ t ∈ bulkTerminators size count rest, t = crlf)) ∨
      ∃ arg rest err next, readBulkString size conn = .ok arg ⟨rest, conn.cmd⟩ ∧
        bulkString size expectCRLF conn = .error err next ∧ rest.length < next.input.length ∧
        ¬ ∀ t ∈ bulkTerminators size (count + 1) conn.input, t = crlf := by
  unfold readBulkString bulkString
  cases hcut : cutLine size conn.input with
  | none =>
    obtain ⟨err, next, hln⟩ := readLine_of_none hcut
    refine .inl ⟨err, next, bind_of_error hln, bind_of_error hln, ?_⟩
    simp only [bulkTerminators, hcut]
  | some pair =>
    obtain ⟨line, rest⟩ := pair
    have hln := readLine_of_some hcut
    simp only [bind_of_ok hln, bulkTerminators, hcut]
    cases hhd : bulkHeader line with
    | error err => exact .inl ⟨err, _, rfl, rfl, rfl⟩
    | ok length =>
      cases length with
      | none => exact .inr (.inl ⟨none, rest, rfl, rfl, .rfl⟩)
      | some length =>
        by_cases hf : length ≤ rest.length
        · have hd : readFull length ⟨rest, conn.cmd⟩ =
              .ok (rest.take length) ⟨rest.drop length, conn.cmd⟩ := if_pos hf
          simp only [bind_of_ok hd]
          have hl : (rest.drop length).length = rest.length - length := length_drop
          by_cases hr : 2 ≤ (rest.drop length).length
          · have hdiscard : discard 2 ⟨rest.drop length, conn.cmd⟩ =
                .ok () ⟨rest.drop (length + 2), conn.cmd⟩ := by
              unfold discard
              rw [if_pos hr, drop_drop]
            rw [if_neg (by omega), forall_mem_cons]
            by_cases hcrlf : (rest.drop length).take 2 = crlf
            · have hexpect : expectCRLF ⟨rest.drop length, conn.cmd⟩ =
                  .ok () ⟨rest.drop (length + 2), conn.cmd⟩ :=
                (if_neg fun h => h.2 hcrlf).trans hdiscard
              exact .inr (.inl ⟨_, _, bind_of_ok hdiscard, bind_of_ok hexpect,
                and_iff_right hcrlf⟩)
            · have hexpect : expectCRLF ⟨rest.drop length, conn.cmd⟩ =
                  .error .invalidProtocol ⟨rest.drop length, conn.cmd⟩ := if_pos ⟨hr, hcrlf⟩
              refine .inr (.inr ⟨_, _, _, _, bind_of_ok hdiscard, bind_of_error hexpect, ?_,
                fun h => hcrlf h.1⟩)
              show (rest.drop (length + 2)).length < (rest.drop length).length
              rw [length_drop]
              omega
          · -- The end of the line has not come: both readers wait for it in vain.
            have hdiscard : discard 2 ⟨rest.drop length, conn.cmd⟩ =
                .error .eof ⟨[], conn.cmd⟩ := if_neg hr
            have hexpect : expectCRLF ⟨rest.drop length, conn.cmd⟩ =
                .error .eof ⟨[], conn.cmd⟩ := (if_neg fun h => hr h.1).trans hdiscard
            exact .inl ⟨.eof, _, bind_of_error hdiscard, bind_of_error hexpect,
              if_pos (by omega)⟩
        · have hd : readFull length ⟨rest, conn.cmd⟩ =
              .error (if rest = [] then .eof else .unexpectedEOF) ⟨[], conn.cmd⟩ := if_neg hf
          exact .inl ⟨_, _, bind_of_error hd, bind_of_error hd, if_pos (by omega)⟩

/-- After one argument the others are read. -/
theorem readArgs_of_ok {bulk : Reader (Option Bytes)} {arg : Option Bytes}
    (h : bulk conn = .ok arg ⟨rest, cmd⟩) :
    readArgs bulk (count + 1) conn =
      readArgs bulk count ⟨rest, { cmd with args := cmd.args.append arg }⟩ := by
  show (bulk >>= _) conn = _
  rw [bind_of_ok h]
  rfl

theorem readArgs_compares (size count : ℕ) (conn : Conn) :
    Compares (bulkTerminators size count conn.input) (readArgs (readBulkString size) count)
      (readArgs (bulkString size expectCRLF) count) conn := by
  induction count generalizing conn with
  | zero => exact compares_of_eq rfl rfl
  | succ count ih =>
    rcases bulkString_cases size count conn with
      ⟨err, next, hrd, hstrict, hnil⟩ | ⟨arg, rest, hrd, hstrict, hts⟩ |
      ⟨arg, rest, err, next, hrd, hstrict, hlt, hts⟩
    · exact compares_of_eq ((bind_of_error hrd).trans (bind_of_error hstrict).symm) hnil
    · exact (ih _).congr hts (readArgs_of_ok hrd) (readArgs_of_ok hstrict)
    · refine ⟨fun h => absurd h hts, fun _ => ?_⟩
      have hshrinks := shrinks_readArgs size count
        ⟨rest, { conn.cmd with args := conn.cmd.args.append arg }⟩
      have hsp : after (readArgs (bulkString size expectCRLF) (count + 1)) conn = next :=
        after_of_error (bind_of_error hstrict)
      rw [hsp]
      unfold after at hshrinks ⊢
      rw [readArgs_of_ok hrd]
      exact hshrinks.trans_lt hlt

theorem arrayCommand_compares (hcut : cutLine size conn.input = some (line, rest))
    (hhd : arrayHeader line = .ok count) :
    Compares (bulkTerminators size count rest) (arrayCommand size (readBulkString size))
      (arrayCommand size (bulkString size expectCRLF)) conn := by
  have hl := readLine_of_some hcut
  cases count with
  | zero =>
    have hrd : ∀ bulk, arrayCommand size bulk conn =
        finish (fun cmd => { cmd with type := .cmdUnknown }) ⟨rest, conn.cmd⟩ := fun bulk => by
      unfold arrayCommand
      rw [bind_of_ok hl, hhd]
    exact compares_of_eq ((hrd _).trans (hrd _).symm) rfl
  | succ count =>
    have hrd : ∀ bulk, arrayCommand size bulk conn =
        (readArgs bulk (count + 1) >>= fun _ => finish Command.takeName)
          (after (resetArgs (count + 1)) ⟨rest, conn.cmd⟩) := fun bulk => by
      unfold arrayCommand
      rw [bind_of_ok hl, hhd]
      rfl
    exact ((readArgs_compares size (count + 1) _).finish _).congr .rfl (hrd _) (hrd _)

theorem readCommandInto_compares (size : ℕ) (conn : Conn) :
    Compares (terminators size conn.input) (readCommandInto size) (strictCommand size) conn := by
  unfold readCommandInto strictCommand terminators
  cases hinput : conn.input with
  | nil =>
    have hrd : ∀ bulk, commandInto size bulk conn = .error .eof conn := fun bulk => by
      unfold commandInto
      rw [hinput]
    exact compares_of_eq ((hrd _).trans (hrd _).symm) rfl
  | cons b input =>
    by_cases hb : b = 0x2a
    · have hrd : ∀ bulk, commandInto size bulk conn = arrayCommand size bulk conn := fun bulk => by
        unfold commandInto
        rw [hinput]
        exact if_pos hb
      rw [if_pos (by rw [hb]; rfl), ← hinput]
      refine Compares.congr ?_ .rfl (hrd _) (hrd _)
      cases hcut : cutLine size conn.input with
      | none =>
        obtain ⟨err, next, hl⟩ := readLine_of_none hcut
        exact compares_of_eq ((bind_of_error hl).trans (bind_of_error hl).symm) rfl
      | some pair =>
        obtain ⟨line, rest⟩ := pair
        cases hhd : arrayHeader line with
        | error err =>
          have hfl : ∀ bulk, arrayCommand size bulk conn = .error err ⟨rest, conn.cmd⟩ :=
              fun bulk => by
            unfold arrayCommand
            rw [bind_of_ok (readLine_of_some hcut), hhd]
            rfl
          exact compares_of_eq ((hfl _).trans (hfl _).symm) (by simp only [hhd])
        | ok count =>
          simp only [hhd]
          exact arrayCommand_compares hcut hhd
    · have hrd : ∀ bulk, commandInto size bulk conn = readInlineCommand size conn := fun bulk => by
        unfold commandInto
        rw [hinput]
        exact if_neg hb
      exact compares_of_eq ((hrd _).trans (hrd _).symm) (if_neg (by simpa using hb))

end Agree

/-! ## 9.  Exact framing -/

section Framing

variable (size : ℕ)

/-- What was read is what was sent. -/
def ReadBack (read : Except ReadError Command × Bytes) (words : List Bytes) : Prop :=
  ∃ cmd name args, read.1 = .ok cmd ∧ words = name :: args ∧ Shows cmd name args

/-- Commands that are sent one after the other are read one after the other, and what follows them
is left. -/
theorem readPipeline {cmds : List (List Bytes)} (hcmds : ∀ words ∈ cmds, Sendable words)
    (rest : Bytes) (cmd : Command) :
    List.Forall₂ ReadBack
        (reads (readCommandInto size) cmds.length ⟨cmds.flatMap encodeCommand ++ rest, cmd⟩) cmds ∧
      ((after (readCommandInto size))^[cmds.length]
        ⟨cmds.flatMap encodeCommand ++ rest, cmd⟩).input = rest := by
  induction cmds generalizing cmd with
  | nil => exact ⟨.nil, rfl⟩
  | cons words cmds ih =>
    obtain ⟨read, name, args, hwords, hshows, hrun⟩ := readCommandInto_encode size
      (hcmds words mem_cons_self) (cmds.flatMap encodeCommand ++ rest) cmd
    obtain ⟨hmore, hl⟩ := ih (fun other ho => hcmds other (mem_cons_of_mem _ ho)) read
    rw [flatMap_cons, append_assoc, length_cons]
    refine ⟨.cons ⟨read, name, args, outcome_of_ok hrun, hwords, hshows⟩ ?_, ?_⟩
    · rw [after_of_ok hrun]
      exact hmore
    · rw [Function.iterate_succ_apply, after_of_ok hrun]
      exact hl

/-- The parser reads as the reader that looks exactly where every bulk string it comes to has the
end of a line after it. -/
theorem reads_eq_iff (n : ℕ) (conn : Conn) :
    reads (readCommandInto size) n conn = reads (strictCommand size) n conn ↔
      ∀ input ∈ starts (readCommandInto size) n conn, Terminated size input := by
  induction n generalizing conn with
  | zero => exact iff_of_true rfl fun input hinput => nomatch hinput
  | succ n ih =>
    obtain ⟨hag, hless⟩ := readCommandInto_compares size conn
    show (_ :: reads _ n _ = _ :: reads _ n _) ↔ ∀ input ∈ conn.input :: starts _ n _, _
    rw [forall_mem_cons]
    by_cases hterm : Terminated size conn.input
    · have houtcome : outcome (readCommandInto size) conn = outcome (strictCommand size) conn := by
        unfold outcome
        rw [hag hterm]
      have ha : after (readCommandInto size) conn = after (strictCommand size) conn := by
        unfold after
        rw [hag hterm]
      rw [← ih, houtcome, ha, cons.injEq]
      exact and_congr_left fun _ => iff_of_true rfl hterm
    · refine iff_of_false (fun heq => ?_) fun h => hterm h.1
      obtain ⟨hh, -⟩ := cons.inj heq
      have hinput := (Prod.mk.inj hh).2
      have hlt := hless hterm
      rw [hinput] at hlt
      exact lt_irrefl _ hlt

/-- **Framing.**  Commands within the limits are read back exactly, one after the other and whatever
follows; and in any run the parser reports what is not a bulk string as such, as the reader that
looks does, exactly where every bulk string it comes to has the end of a line after it. -/
theorem framing_exact (size : ℕ) :
    (∀ cmds : List (List Bytes), (∀ words ∈ cmds, Sendable words) → ∀ (rest : Bytes) (cmd : Command),
      List.Forall₂ ReadBack
          (reads (readCommandInto size) cmds.length ⟨cmds.flatMap encodeCommand ++ rest, cmd⟩) cmds ∧
        ((after (readCommandInto size))^[cmds.length]
          ⟨cmds.flatMap encodeCommand ++ rest, cmd⟩).input = rest) ∧
      ∀ (n : ℕ) (conn : Conn),
        reads (readCommandInto size) n conn = reads (strictCommand size) n conn ↔
          ∀ input ∈ starts (readCommandInto size) n conn, Terminated size input :=
  ⟨fun _ hcmds rest cmd => readPipeline size hcmds rest cmd, reads_eq_iff size⟩

/-- A command as it comes from the pool. -/
def freshCommand : Command := ⟨.cmdUnknown, .make none 8, none⟩

/-- A length that is too small by one: the parser takes a command that was not sent, and is left in
the middle of the line.  The reader that looks reports it. -/
theorem short_length_accepted :
    (outcome (readCommandInto 65536) ⟨utf8 "*1\r\n$3\r\nPING\r\n", freshCommand⟩).map
        (fun cmd => (cmd.type, cmd.rawName, cmd.args.elems)) =
          .ok (.cmdUnknown, some (utf8 "PIN"), []) ∧
      (after (readCommandInto 65536) ⟨utf8 "*1\r\n$3\r\nPING\r\n", freshCommand⟩).input = [0x0a] ∧
      (outcome (strictCommand 65536) ⟨utf8 "*1\r\n$3\r\nPING\r\n", freshCommand⟩).map
        (fun cmd => (cmd.type, cmd.rawName, cmd.args.elems)) = .error .invalidProtocol := by
  refine ⟨?_, ?_, ?_⟩
  all_goals decide

end Framing

end Swytch.Redis.Protocol
