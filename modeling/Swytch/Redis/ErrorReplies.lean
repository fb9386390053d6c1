import Swytch.Redis.Dispatch

/-!
# The reply of a write command that fails

A runner writes its reply as it goes and may fail in the middle of it.  `runDataCommand` looks at
the number of errors before and after: if it has grown, the reply is cut back to where it began and
replaced by the error that was written last, whose place in the buffer the writer remembers, and
the context goes back to its savepoint.

A runner is a tree of what it does to the writer and to the context.  It may read both at any point,
so that savepoints of its own are states that it has read and goes back to; and it may run another
command on the same writer.  What it writes, at any depth, is a list of pieces, and `Ran` says what
the writer looks like after them.
-/

namespace Swytch.Redis.ErrorReplies

open List
open Sql (Bytes utf8)

/-! ## 1.  The writer -/

inductive ErrorWrite where
  | error (msg : Bytes)
  | errorf (format : Bytes)
  | blobError (errType msg : Bytes)
  | wrongType
  | noAuth
  | wrongNumArguments (cmd : Bytes)
  | wrongNumArgs (cmd : Bytes)
  | unknownCommand (cmd : Bytes) (args : List Bytes)
  | syntaxError
  | notInteger
  | outOfRange
  deriving DecidableEq

def crlf : Bytes := [0x0d, 0x0a]

/-- `-` and a line. -/
def simpleError (msg : Bytes) : Bytes := 0x2d :: (msg ++ crlf)

/-- The arguments that `WriteUnknownCommand` shows: three, with dots after the third. -/
def shownArgs (args : List Bytes) : Bytes :=
  let quoted := (args.take 3).map fun arg => 0x27 :: (arg ++ [0x27])
  [0x20].intercalate quoted ++ if 2 < args.length then utf8 "..." else []

def ErrorWrite.reply (resp3 : Bool) : ErrorWrite → Bytes
  | .error msg => simpleError msg
  | .errorf format => simpleError (utf8 "ERR " ++ format)
  | .blobError errType msg =>
    let fullMsg := errType ++ [0x20] ++ msg
    if resp3 then 0x21 :: (utf8 (toString fullMsg.length) ++ crlf ++ fullMsg ++ crlf)
    else simpleError fullMsg
  | .wrongType =>
    simpleError (utf8 "WRONGTYPE Operation against a key holding the wrong kind of value")
  | .noAuth => simpleError (utf8 "NOAUTH Authentication required.")
  | .wrongNumArguments cmd =>
    simpleError (utf8 "ERR wrong number of arguments for '" ++ cmd ++ utf8 "' command")
  | .wrongNumArgs cmd =>
    simpleError (utf8 "ERR wrong number of args for '" ++ cmd ++ utf8 "' command")
  | .unknownCommand cmd args =>
    simpleError (utf8 "ERR unknown command '" ++ cmd ++
      utf8 "', with args beginning with: " ++ shownArgs args)
  | .syntaxError => simpleError (utf8 "ERR syntax error")
  | .notInteger => simpleError (utf8 "ERR value is not an integer or out of range")
  | .outOfRange => simpleError (utf8 "ERR index out of range")

/-- `shared.Writer`: the buffer, the protocol, and where the last error stands. -/
structure Writer where
  buf : Bytes
  resp3 : Bool
  errorCount : ℕ
  errorStart : ℕ
  errorEnd : ℕ

namespace Writer

/-- What the other methods do. -/
def write (bytes : Bytes) (w : Writer) : Writer := { w with buf := w.buf ++ bytes }

def recordError (start : ℕ) (w : Writer) : Writer :=
  { w with errorCount := w.errorCount + 1, errorStart := start, errorEnd := w.buf.length }

/-- An error is written and recorded. -/
def writeError (e : ErrorWrite) (w : Writer) : Writer :=
  (w.write (e.reply w.resp3)).recordError w.buf.length

/-- The last error in the buffer. -/
def lastError (w : Writer) : Bytes := (w.buf.drop w.errorStart).take (w.errorEnd - w.errorStart)

def discardPartialReply (start previousErrors : ℕ) (w : Writer) : Bool × Writer :=
  if w.errorCount = previousErrors then (false, w)
  else
    let buf := w.buf.take start ++ w.lastError
    (true, { w with buf := buf, errorStart := start, errorEnd := buf.length })

end Writer

/-! ## 2.  Runners and `runDataCommand` -/

/-- The writer and the context, which may be missing. -/
structure State (κ : Type) where
  writer : Writer
  context : Option κ

variable {reply : Bytes} {type : CommandType} {entry : Entry}

section Running

variable {κ : Type}

def runDataCommand (entry : Entry) (type : CommandType) (run : State κ → State κ) (s : State κ) :
    State κ :=
  if !entry.write || entry.keys.isNone || isScriptCommand type then run s
  else
    let savepoint := s.context
    let after := run s
    let discarded := after.writer.discardPartialReply s.writer.buf.length s.writer.errorCount
    { writer := discarded.2
      context := if discarded.1 && after.context.isSome then savepoint else after.context }

inductive Run (κ : Type) where
  | done
  | write (bytes : Bytes) (next : Run κ)
  | error (e : ErrorWrite) (next : Run κ)
  | change (f : κ → κ) (next : Run κ)
  | look (next : State κ → Run κ)
  | nested (entry : Entry) (type : CommandType) (inner next : Run κ)

def Run.exec : Run κ → State κ → State κ
  | .done, s => s
  | .write bytes next, s => next.exec { s with writer := s.writer.write bytes }
  | .error e next, s => next.exec { s with writer := s.writer.writeError e }
  | .change f next, s => next.exec { s with context := s.context.map f }
  | .look next, s => (next s).exec s
  | .nested entry type inner next, s =>
    next.exec (runDataCommand entry type (fun s => inner.exec s) s)

/-! ## 3.  What a runner writes -/

inductive Piece where
  | bytes (bytes : Bytes)
  | error (e : ErrorWrite) (resp3 : Bool)
  deriving DecidableEq

/-- What is written, at any depth, in this order. -/
def Run.pieces : Run κ → State κ → List Piece
  | .done, _ => []
  | .write bytes next, s => .bytes bytes :: next.pieces { s with writer := s.writer.write bytes }
  | .error e next, s =>
    .error e s.writer.resp3 :: next.pieces { s with writer := s.writer.writeError e }
  | .change f next, s => next.pieces { s with context := s.context.map f }
  | .look next, s => (next s).pieces s
  | .nested entry type inner next, s =>
    inner.pieces s ++ next.pieces (runDataCommand entry type (fun s => inner.exec s) s)

def Piece.errorReply : Piece → Option Bytes
  | .bytes _ => none
  | .error e resp3 => some (e.reply resp3)

def Piece.output : Piece → Bytes
  | .bytes text => text
  | .error e resp3 => e.reply resp3

def errorsOf (pieces : List Piece) : List Bytes := pieces.filterMap Piece.errorReply

def outputOf (pieces : List Piece) : Bytes := pieces.flatMap Piece.output

theorem errorsOf_append {ps qs : List Piece} : errorsOf (ps ++ qs) = errorsOf ps ++ errorsOf qs :=
  filterMap_append ..

theorem outputOf_append {ps qs : List Piece} : outputOf (ps ++ qs) = outputOf ps ++ outputOf qs :=
  flatMap_append ..

/-- The writer remembers where this error stands. -/
structure Writer.Holds (w : Writer) (reply : Bytes) : Prop where
  lastError : w.lastError = reply
  le : w.errorEnd ≤ w.buf.length

/-- From one state to another these pieces were written. -/
structure Ran (s after : State κ) (pieces : List Piece) : Prop where
  grows : ∃ tail, after.writer.buf = s.writer.buf ++ tail
  count : after.writer.errorCount = s.writer.errorCount + (errorsOf pieces).length
  output : errorsOf pieces = [] → after.writer.buf = s.writer.buf ++ outputOf pieces
  start : errorsOf pieces = [] → after.writer.errorStart = s.writer.errorStart
  stop : errorsOf pieces = [] → after.writer.errorEnd = s.writer.errorEnd
  holds : ∀ reply ∈ (errorsOf pieces).getLast?, after.writer.Holds reply
  context : after.context.isSome = s.context.isSome

variable {s mid after : State κ} {ps qs : List Piece}

/-- What the writer remembers stays where it is when more is written. -/
theorem Writer.Holds.append {w next : Writer} {tail : Bytes} (h : w.Holds reply)
    (hbuf : next.buf = w.buf ++ tail) (h0 : next.errorStart = w.errorStart)
    (hsp : next.errorEnd = w.errorEnd) : next.Holds reply where
  lastError := by
    have hle := h.le
    rw [← h.lastError]
    unfold Writer.lastError
    rw [hbuf, h0, hsp]
    by_cases hc : w.errorStart ≤ w.buf.length
    · rw [drop_append_of_le_length hc, take_append_of_le_length]
      rw [length_drop]
      omega
    · have hz : w.errorEnd - w.errorStart = 0 := by omega
      rw [hz, take_zero, take_zero]
  le := by
    have hle := h.le
    rw [hbuf, length_append]
    omega

theorem Ran.refl (s : State κ) : Ran s s [] where
  grows := ⟨[], by simp⟩
  count := rfl
  output _ := by simp [outputOf]
  start _ := rfl
  stop _ := rfl
  holds _ h := nomatch h
  context := rfl

theorem Ran.trans (h : Ran s mid ps) (h' : Ran mid after qs) : Ran s after (ps ++ qs) where
  grows := by
    obtain ⟨tail, ht⟩ := h.grows
    obtain ⟨more, hmore⟩ := h'.grows
    exact ⟨tail ++ more, by rw [hmore, ht, append_assoc]⟩
  count := by
    rw [h'.count, h.count, errorsOf_append, length_append]
    omega
  output hn := by
    rw [errorsOf_append, append_eq_nil_iff] at hn
    rw [h'.output hn.2, h.output hn.1, outputOf_append, append_assoc]
  start hn := by
    rw [errorsOf_append, append_eq_nil_iff] at hn
    rw [h'.start hn.2, h.start hn.1]
  stop hn := by
    rw [errorsOf_append, append_eq_nil_iff] at hn
    rw [h'.stop hn.2, h.stop hn.1]
  holds reply hr := by
    rw [errorsOf_append, getLast?_append] at hr
    cases hl : (errorsOf qs).getLast? with
    | some last =>
      rw [hl] at hr
      cases hr
      exact h'.holds _ hl
    | none =>
      -- The second part wrote no error, so that the place is the one of the first.
      rw [hl] at hr
      have hn := getLast?_eq_none_iff.mp hl
      exact (h.holds reply hr).append (h'.output hn) (h'.start hn) (h'.stop hn)
  context := h'.context.trans h.context

theorem ran_write (s : State κ) (bytes : Bytes) :
    Ran s { s with writer := s.writer.write bytes } [.bytes bytes] where
  grows := ⟨bytes, rfl⟩
  count := rfl
  output _ := by simp [outputOf, Piece.output, Writer.write]
  start _ := rfl
  stop _ := rfl
  holds _ h := nomatch h
  context := rfl

theorem ran_error (s : State κ) (e : ErrorWrite) :
    Ran s { s with writer := s.writer.writeError e } [.error e s.writer.resp3] where
  grows := ⟨e.reply s.writer.resp3, rfl⟩
  count := rfl
  output h := nomatch h
  start h := nomatch h
  stop h := nomatch h
  holds reply hr := by
    cases hr
    refine ⟨?_, le_refl _⟩
    simp [Writer.lastError, Writer.writeError, Writer.recordError, Writer.write]
  context := rfl

theorem ran_change (s : State κ) (f : κ → κ) : Ran s { s with context := s.context.map f } [] where
  grows := ⟨[], by simp⟩
  count := rfl
  output _ := by simp [outputOf]
  start _ := rfl
  stop _ := rfl
  holds _ h := nomatch h
  context := Option.isSome_map

/-- The command is one whose effects are taken back when it fails. -/
def rollsBack (entry : Entry) (type : CommandType) : Bool :=
  entry.write && entry.keys.isSome && !isScriptCommand type

theorem rollsBack_eq :
    rollsBack entry type = !(!entry.write || entry.keys.isNone || isScriptCommand type) := by
  unfold rollsBack
  cases entry.write <;> cases entry.keys <;> cases isScriptCommand type <;> rfl

theorem runDataCommand_of_not_rollsBack (h : rollsBack entry type = false) (run : State κ → State κ)
    (s : State κ) : runDataCommand entry type run s = run s := by
  rw [rollsBack_eq, Bool.not_eq_eq_eq_not, Bool.not_false] at h
  rw [runDataCommand, if_pos h]

theorem runDataCommand_of_rollsBack (h : rollsBack entry type = true) {run : State κ → State κ} :
    runDataCommand entry type run s =
      let discarded :=
        (run s).writer.discardPartialReply s.writer.buf.length s.writer.errorCount
      { writer := discarded.2
        context := if discarded.1 && (run s).context.isSome then s.context
          else (run s).context } := by
  rw [rollsBack_eq, Bool.not_eq_eq_eq_not] at h
  rw [runDataCommand, if_neg (Bool.eq_false_iff.mp h)]

variable {entry : Entry} {type : CommandType} {run : State κ → State κ}

theorem runDataCommand_of_clean (hran : Ran s (run s) ps) (hn : errorsOf ps = []) :
    runDataCommand entry type run s = run s := by
  cases hroll : rollsBack entry type with
  | false => exact runDataCommand_of_not_rollsBack hroll run s
  | true =>
    have hc : (run s).writer.errorCount = s.writer.errorCount := by
      rw [hran.count, hn]
      rfl
    rw [runDataCommand_of_rollsBack hroll]
    simp only [Writer.discardPartialReply, if_pos hc]
    rfl

/-- With an error the reply is that error, and the context is as it was. -/
theorem runDataCommand_of_failed (hroll : rollsBack entry type = true) (hran : Ran s (run s) ps)
    (hl : (errorsOf ps).getLast? = some reply) :
    (runDataCommand entry type run s).writer.buf = s.writer.buf ++ reply ∧
      (runDataCommand entry type run s).writer.errorStart = s.writer.buf.length ∧
      (runDataCommand entry type run s).writer.errorEnd = (s.writer.buf ++ reply).length ∧
      (runDataCommand entry type run s).writer.errorCount = (run s).writer.errorCount ∧
      (runDataCommand entry type run s).context = s.context := by
  have hc : (run s).writer.errorCount ≠ s.writer.errorCount := by
    have hne : errorsOf ps ≠ [] := by
      intro hnil
      rw [hnil] at hl
      cases hl
    have hpos := length_pos_iff.mpr hne
    rw [hran.count]
    omega
  obtain ⟨tail, ht⟩ := hran.grows
  have hbuf : (run s).writer.buf.take s.writer.buf.length ++ (run s).writer.lastError =
      s.writer.buf ++ reply := by
    rw [ht, take_left, (hran.holds reply hl).lastError]
  have hcontext : (if (true && (run s).context.isSome) = true then s.context
      else (run s).context) = s.context := by
    cases hs : s.context with
    | none =>
      simp
    | some saved =>
      have hso : (run s).context.isSome = true := by
        rw [hran.context, hs]
        rfl
      rw [Bool.true_and, if_pos hso]
  rw [runDataCommand_of_rollsBack hroll]
  simp only [Writer.discardPartialReply, if_neg hc, hbuf]
  exact ⟨trivial, trivial, trivial, trivial, hcontext⟩

theorem ran_runDataCommand (hran : Ran s (run s) ps) :
    Ran s (runDataCommand entry type run s) ps := by
  cases hl : (errorsOf ps).getLast? with
  | none => rwa [runDataCommand_of_clean hran (getLast?_eq_none_iff.mp hl)]
  | some reply =>
    cases hroll : rollsBack entry type with
    | false => rwa [runDataCommand_of_not_rollsBack hroll run s]
    | true =>
      obtain ⟨hbuf, h0, hsp, hc, hcontext⟩ := runDataCommand_of_failed hroll hran hl
      have hfl : errorsOf ps ≠ [] := by
        intro hnil
        rw [hnil] at hl
        cases hl
      exact {
        grows := ⟨reply, hbuf⟩
        count := hc.trans hran.count
        output := fun hn => absurd hn hfl
        start := fun hn => absurd hn hfl
        stop := fun hn => absurd hn hfl
        holds := by
          intro other ho
          obtain rfl := Option.some.inj (hl.symm.trans ho)
          refine ⟨?_, ?_⟩
          · unfold Writer.lastError
            rw [hbuf, h0, hsp, drop_left, length_append, Nat.add_sub_cancel_left,
              take_length]
          · rw [hbuf, hsp]
        context := by rw [hcontext] }

/-- What a runner writes. -/
theorem Run.ran (run : Run κ) (s : State κ) : Ran s (run.exec s) (run.pieces s) := by
  induction run generalizing s with
  | done => exact .refl s
  | write bytes next ih => exact (ran_write s bytes).trans (ih _)
  | error e next ih => exact (ran_error s e).trans (ih _)
  | change f next ih => exact (ran_change s f).trans (ih _)
  | look next ih => exact ih s s
  | nested entry type inner next ihInner ihNext =>
    exact (ran_runDataCommand (ihInner s)).trans (ihNext _)

/-! ## 4.  A failing write command leaves its error -/

/-- A write command with a key extractor, not a script.  If its runner writes an error at any depth,
the context is as before and the buffer is the one before with the last error reply after it.  If it
writes none, the state is the one that the runner leaves, and the buffer is the one before with all
that it wrote after it. -/
theorem runDataCommand_leaves_error {κ : Type} {entry : Entry} {type : CommandType}
    (hwrite : entry.write = true) (hkeys : entry.keys.isSome = true)
    (hscript : isScriptCommand type = false) (run : Run κ) (s : State κ) :
    (∀ hfailed : errorsOf (run.pieces s) ≠ [],
        (runDataCommand entry type run.exec s).context = s.context ∧
        (runDataCommand entry type run.exec s).writer.buf =
          s.writer.buf ++ (errorsOf (run.pieces s)).getLast hfailed) ∧
      (errorsOf (run.pieces s) = [] →
        runDataCommand entry type run.exec s = run.exec s ∧
        (runDataCommand entry type run.exec s).writer.buf =
          s.writer.buf ++ outputOf (run.pieces s)) := by
  have hroll : rollsBack entry type = true := by
    unfold rollsBack
    rw [hwrite, hkeys, hscript]
    rfl
  have hran := run.ran s
  constructor
  · intro hfailed
    obtain ⟨hbuf, -, -, -, hcontext⟩ :=
      runDataCommand_of_failed hroll hran (getLast?_eq_some_getLast hfailed)
    exact ⟨hcontext, hbuf⟩
  · intro hn
    have hcl : runDataCommand entry type run.exec s = run.exec s :=
      runDataCommand_of_clean hran hn
    exact ⟨hcl, hcl ▸ hran.output hn⟩

end Running

section Samples

/-- An entry such as that of `SADD`. -/
def writeEntry : Entry where
  connHandler := none
  handler := some fun args => .ok (args.take 1, .done .ok)
  txnPrepare := none
  keys := some (List.take 1)
  write := true
  noAuth := false
  noQueue := false
  pubSub := false
  live := rfl

/-- Half an array, an effect, and an error in the middle of it. -/
def halfReply : Run ℕ :=
  .write (utf8 "*2\r\n:1\r\n") (.change (· + 1) (.error .wrongType (.write (utf8 ":2\r\n") .done)))

theorem halfReply_leaves_error :
    errorsOf (halfReply.pieces ⟨⟨utf8 "+OK\r\n", false, 0, 0, 0⟩, some 7⟩) ≠ [] ∧
      (runDataCommand writeEntry .cmdSAdd halfReply.exec
        ⟨⟨utf8 "+OK\r\n", false, 0, 0, 0⟩, some 7⟩).context = some 7 :=
  have hfl : errorsOf (halfReply.pieces ⟨⟨utf8 "+OK\r\n", false, 0, 0, 0⟩, some 7⟩) ≠ [] :=
    cons_ne_nil _ _
  ⟨hfl, ((runDataCommand_leaves_error rfl rfl (by decide) halfReply _).1 hfl).1⟩

end Samples

end Swytch.Redis.ErrorReplies
