import Swytch.Lib.Decimal
import Swytch.Redis.ErrorReplies

/-!
# One reply, one value

An error or a simple string ends with its line, and what is quoted in it is written as it came.  With
a line break in it, one reply is read as several values and every later reply of the pipeline is
taken for the wrong command.  A script has the same in its hands with the fields `err` and `ok` of a
table.  Bulk strings have a length and cannot be split.
-/

namespace Swytch.Redis.ReplyFraming

open Decimal
open Option
open List
open Sql (Bytes utf8)
open ErrorReplies (crlf simpleError shownArgs)

/-! ## 1.  Reading -/

inductive RespValue where
  | line (tag : UInt8) (text : Bytes)
  | bulk (data : Bytes)
  | null
  | array (items : List RespValue)

/-- No byte of a line break. -/
def Unbroken (text : Bytes) : Prop := ∀ b ∈ text, b ≠ 0x0d ∧ b ≠ 0x0a

instance : DecidablePred Unbroken := fun text =>
  inferInstanceAs (Decidable (∀ b ∈ text, b ≠ 0x0d ∧ b ≠ 0x0a))

/-- A line, and what follows its end. -/
def readLine (input : Bytes) : Option (Bytes × Bytes) :=
  match input.dropWhile fun b => b ≠ 0x0d ∧ b ≠ 0x0a with
  | 0x0d :: 0x0a :: rest => some (input.takeWhile fun b => b ≠ 0x0d ∧ b ≠ 0x0a, rest)
  | _ => none

def readCount (digits : Bytes) : Option ℕ :=
  if digits ≠ [] ∧ ∀ b ∈ digits, Decimal.IsDigit b then some (Decimal.valueFrom 0 digits) else none

/-- So many bytes and the end of a line. -/
def readBulk (n : ℕ) (input : Bytes) : Option (RespValue × Bytes) :=
  match input.drop n with
  | 0x0d :: 0x0a :: rest => some (.bulk (input.take n), rest)
  | _ => none

def readMany (read : Bytes → Option (RespValue × Bytes)) :
    ℕ → Bytes → Option (List RespValue × Bytes)
  | 0, input => some ([], input)
  | n + 1, input =>
    (read input).bind fun first =>
      (readMany read n first.2).map fun more => (first.1 :: more.1, more.2)

/-- The value that begins with this line. -/
def readTagged (read : Bytes → Option (RespValue × Bytes)) (tag : UInt8) (text rest : Bytes) :
    Option (RespValue × Bytes) :=
  if tag = 0x2a then
    (readCount text).bind fun n => (readMany read n rest).map fun found => (.array found.1, found.2)
  else if tag = 0x24 then
    if text = [0x2d, 0x31] then some (.null, rest) else (readCount text).bind (readBulk · rest)
  else if tag = 0x5f then some (.null, rest)
  else if tag ∈ [0x2b, 0x2d, 0x3a, 0x2c] then some (.line tag text, rest)
  else none

/-- A value of at most this depth. -/
def readValue : ℕ → Bytes → Option (RespValue × Bytes)
  | 0, _ => none
  | depth + 1, input =>
    match readLine input with
    | some (tag :: text, rest) => readTagged (readValue depth) tag text rest
    | _ => none

/-! ## 2.  Writing -/

/-- What is taken of a Lua number.  `strconv.AppendFloat` writes no line break. -/
structure NumberFormat (Number : Type) where
  toInt64 : Number → Int64
  appendFloat : Number → Bytes
  unbroken : ∀ n, Unbroken (appendFloat n)

/-- The methods of the writer, for what they write or for what is meant by it. -/
structure Writer (Number α : Type) where
  error : Bytes → α
  simpleString : Bytes → α
  null : α
  integer : Int64 → α
  bulkString : Bytes → α
  double : Number → α
  /-- `WriteArray` and the elements after it. -/
  array : List α → α

/-- `lua.LValue`: a table has the three fields that are looked up, and what lies in its length. -/
inductive LuaValue (Number : Type) where
  | nil
  | bool (b : Bool)
  | number (n : Number)
  | string (s : Bytes)
  | table (err ok double : LuaValue Number) (items : List (LuaValue Number))
  | other

/-- The assertion of `lua.LString`. -/
def LuaValue.asString {Number : Type} : LuaValue Number → Option Bytes
  | .string s => some s
  | _ => none

/-- The assertion of `lua.LNumber`. -/
def LuaValue.asNumber {Number : Type} : LuaValue Number → Option Number
  | .number n => some n
  | _ => none

section Writing

variable {Number α : Type} (format : NumberFormat Number) (w : Writer Number α)

/-- `luaToRESPWithDepth`, with the depth that is left. -/
def luaToRESPWithDepth : ℕ → LuaValue Number → α
  | 0, _ => w.error (utf8 "ERR reached lua stack limit")
  | depth + 1, val =>
    match val with
    | .nil | .other => w.null
    | .bool b => if b then w.integer 1 else w.null
    | .number n => w.integer (format.toInt64 n)
    | .string s => w.bulkString s
    | .table err ok double items =>
      match err.asString, ok.asString, double.asNumber with
      | some s, _, _ => w.error s
      | none, some s, _ => w.simpleString s
      | none, none, some n => w.double n
      | none, none, none => w.array (items.map (luaToRESPWithDepth depth))

/-- `maxLuaToRESPDepth` is the last depth that is written. -/
def luaToRESP (val : LuaValue Number) : α := luaToRESPWithDepth format w 1001 val

/-- The replies: `WriteError` with any text, `WriteUnknownCommand`, and the result of a script. -/
inductive Reply (Number : Type) where
  | error (msg : Bytes)
  | unknownCommand (cmd : Bytes) (args : List Bytes)
  | script (val : LuaValue Number)

def Reply.write : Reply Number → α
  | .error msg => w.error msg
  | .unknownCommand cmd args =>
    w.error (utf8 "ERR unknown command '" ++ cmd ++ utf8 "', with args beginning with: " ++
      shownArgs args)
  | .script val => luaToRESP format w val

end Writing

/-- `strconv.AppendInt`. -/
def appendInt (n : Int64) : Bytes :=
  if n.toInt < 0 then 0x2d :: Decimal.ofNat n.toInt.natAbs else Decimal.ofNat n.toInt.natAbs

def bytesWriter {Number : Type} (format : NumberFormat Number) (resp3 : Bool) :
    Writer Number Bytes where
  error := simpleError
  simpleString s := 0x2b :: (s ++ crlf)
  null := if resp3 then 0x5f :: crlf else [0x24, 0x2d, 0x31] ++ crlf
  integer n := 0x3a :: (appendInt n ++ crlf)
  bulkString b := 0x24 :: (Decimal.ofNat b.length ++ crlf) ++ (b ++ crlf)
  double n :=
    let text := format.appendFloat n
    if resp3 then 0x2c :: (text ++ crlf)
    else 0x24 :: (Decimal.ofNat text.length ++ crlf) ++ (text ++ crlf)
  array parts := 0x2a :: (Decimal.ofNat parts.length ++ crlf) ++ parts.flatten

def valueWriter {Number : Type} (format : NumberFormat Number) (resp3 : Bool) :
    Writer Number RespValue where
  error := .line 0x2d
  simpleString := .line 0x2b
  null := .null
  integer n := .line 0x3a (appendInt n)
  bulkString := .bulk
  double n := if resp3 then .line 0x2c (format.appendFloat n) else .bulk (format.appendFloat n)
  array := .array

/-- The lines of the value have no line break. -/
inductive Whole : RespValue → Prop
  | line {tag : UInt8} {text : Bytes} (h : Unbroken text) : Whole (.line tag text)
  | bulk {data : Bytes} : Whole (.bulk data)
  | null : Whole .null
  | array {items : List RespValue} (h : ∀ item ∈ items, Whole item) : Whole (.array items)

/-! ## 3.  Reading back -/

theorem readLine_append {text : Bytes} (h : Unbroken text) (rest : Bytes) :
    readLine (text ++ (crlf ++ rest)) = some (text, rest) := by
  have hl : ∀ b ∈ text, decide (b ≠ 0x0d ∧ b ≠ 0x0a) = true := fun b hb => decide_eq_true (h b hb)
  rw [readLine, dropWhile_append_of_pos hl, takeWhile_append_of_pos hl]
  simp [crlf]

variable {input : Bytes} {read : Bytes → Option (RespValue × Bytes)} {tag : UInt8}

theorem unbroken_of_readLine {line rest : Bytes} (h : readLine input = some (line, rest)) :
    Unbroken line := by
  unfold readLine at h
  split at h
  · obtain ⟨rfl, -⟩ := Prod.mk.inj (some.inj h)
    exact fun b hb => of_decide_eq_true
      (mem_takeWhile_imp (p := fun b : UInt8 => decide (b ≠ 0x0d ∧ b ≠ 0x0a)) hb)
  · cases h

theorem unbroken_ofNat (n : ℕ) : Unbroken (ofNat n) := fun b hb => by
  have hdigit := isDigit_of_mem_ofNat hb
  constructor <;> rintro rfl <;> exact absurd hdigit (by decide)

theorem readCount_ofNat (n : ℕ) : readCount (ofNat n) = some n := by
  rw [readCount, if_pos ⟨ofNat_ne_nil n, fun _ => isDigit_of_mem_ofNat⟩,
    valueFrom_ofNat]

theorem readBulk_append (data rest : Bytes) :
    readBulk data.length (data ++ crlf ++ rest) = some (.bulk data, rest) := by
  simp [readBulk, crlf]

theorem readMany_flatMap {ι : Type} {bytes : ι → Bytes} {value : ι → RespValue} {items : List ι}
    (h : ∀ item ∈ items, ∀ rest, read (bytes item ++ rest) = some (value item, rest))
    (rest : Bytes) :
    readMany read items.length (items.flatMap bytes ++ rest) = some (items.map value, rest) := by
  induction items with
  | nil => rfl
  | cons item items ih =>
    obtain ⟨hi, his⟩ := forall_mem_cons.mp h
    rw [length_cons, readMany, flatMap_cons, append_assoc, hi, bind_some,
      ih his]
    rfl

section ReadBack

variable {Number : Type} {format : NumberFormat Number} {resp3 : Bool} {depth : ℕ} {text rest : Bytes}

theorem readValue_line (htag : tag ≠ 0x0d ∧ tag ≠ 0x0a) (h : Unbroken text) :
    readValue (depth + 1) (tag :: (text ++ crlf) ++ rest) =
      readTagged (readValue depth) tag text rest := by
  have hl := readLine_append (forall_mem_cons.mpr ⟨htag, h⟩) rest
  rw [← append_assoc, cons_append] at hl
  rw [readValue, hl]

theorem readValue_text (htag : tag ∈ [0x2b, 0x2d, 0x3a, 0x2c]) (h : Unbroken text) :
    readValue (depth + 1) (tag :: (text ++ crlf) ++ rest) = some (.line tag text, rest) := by
  have hcs : tag = 0x2b ∨ tag = 0x2d ∨ tag = 0x3a ∨ tag = 0x2c := by simpa using htag
  rcases hcs with rfl | rfl | rfl | rfl <;> exact readValue_line (by decide) h

theorem readValue_bulk (data : Bytes) :
    readValue (depth + 1) (0x24 :: (ofNat data.length ++ crlf) ++ (data ++ crlf) ++ rest) =
      some (.bulk data, rest) := by
  have hminus : ofNat data.length ≠ [0x2d, 0x31] := fun heq =>
    absurd (isDigit_of_mem_ofNat (heq ▸ mem_cons_self)) (by decide)
  rw [append_assoc, readValue_line (by decide) (unbroken_ofNat _), readTagged,
    if_neg (by decide), if_pos rfl, if_neg hminus, readCount_ofNat, bind_some,
    readBulk_append]

theorem readValue_null : readValue (depth + 1) ((bytesWriter format resp3).null ++ rest) =
    some (.null, rest) := by
  cases resp3
  · exact readValue_line (by decide) (by simp [Unbroken] : Unbroken [0x2d, 0x31])
  · exact readValue_line (by decide) (forall_mem_nil _)

theorem unbroken_appendInt (n : Int64) : Unbroken (appendInt n) := by
  unfold appendInt
  split
  · exact forall_mem_cons.mpr ⟨by decide, unbroken_ofNat _⟩
  · exact unbroken_ofNat _

/-- A script's result without line breaks is read as the value that was meant. -/
theorem readValue_luaToRESP {left : ℕ} (val : LuaValue Number) (hdepth : left < depth)
    (h : Whole (luaToRESPWithDepth format (valueWriter format resp3) left val)) (rest : Bytes) :
    readValue depth (luaToRESPWithDepth format (bytesWriter format resp3) left val ++ rest) =
      some (luaToRESPWithDepth format (valueWriter format resp3) left val, rest) := by
  induction left generalizing depth val rest with
  | zero =>
    obtain ⟨depth, rfl⟩ := Nat.exists_eq_succ_of_ne_zero hdepth.ne'
    exact readValue_text (by decide) (by decide +kernel)
  | succ left ih =>
    obtain ⟨depth, rfl⟩ := Nat.exists_eq_succ_of_ne_zero (Nat.ne_zero_of_lt hdepth)
    cases val with
    | nil | other => exact readValue_null
    | bool b =>
      cases b
      · exact readValue_null
      · exact readValue_text (by decide) (unbroken_appendInt 1)
    | number n => exact readValue_text (by decide) (unbroken_appendInt _)
    | string s => exact readValue_bulk s
    | table err ok double items =>
      simp only [luaToRESPWithDepth] at h ⊢
      split at h
      · cases h with
        | line htext => exact readValue_text (by decide) htext
      · cases h with
        | line htext => exact readValue_text (by decide) htext
      · cases resp3
        · exact readValue_bulk _
        · exact readValue_text (by decide) (format.unbroken _)
      · cases h with
        | array his =>
          have hmany := readMany_flatMap (fun item hi => ih item (Nat.lt_of_succ_lt_succ hdepth)
            (his _ (mem_map_of_mem hi))) rest
          show readValue (depth + 1) (0x2a :: (ofNat (items.map _).length ++ crlf) ++
            (items.map _).flatten ++ rest) = _
          rw [append_assoc, readValue_line (by decide) (unbroken_ofNat _), length_map,
            ← flatMap_def, readTagged, readCount_ofNat, bind_some, hmany]
          rfl

theorem whole_of_readMany
    (hrd : ∀ {input value rest}, read input = some (value, rest) → Whole value) {n : ℕ}
    {values : List RespValue} (h : readMany read n input = some (values, rest)) :
    ∀ value ∈ values, Whole value := by
  induction n generalizing input values with
  | zero =>
    obtain ⟨rfl, -⟩ := Prod.mk.inj (some.inj h)
    exact forall_mem_nil _
  | succ n ih =>
    obtain ⟨first, hf, hmore⟩ := bind_eq_some_iff.mp h
    obtain ⟨more, hmany, heq⟩ := map_eq_some_iff.mp hmore
    cases heq
    exact forall_mem_cons.mpr ⟨hrd hf, ih hmany⟩

theorem whole_of_readValue {value : RespValue} (h : readValue depth input = some (value, rest)) :
    Whole value := by
  induction depth generalizing input value rest with
  | zero => cases h
  | succ depth ih =>
    unfold readValue at h
    split at h
    · rename_i tag text after hl
      obtain ⟨-, htext⟩ := forall_mem_cons.mp (unbroken_of_readLine hl)
      unfold readTagged at h
      split_ifs at h
      · obtain ⟨n, -, hmany⟩ := bind_eq_some_iff.mp h
        obtain ⟨found, hf, heq⟩ := map_eq_some_iff.mp hmany
        cases heq
        exact .array (whole_of_readMany ih hf)
      · obtain ⟨rfl, -⟩ := Prod.mk.inj (some.inj h)
        exact .null
      · obtain ⟨n, -, hbulk⟩ := bind_eq_some_iff.mp h
        unfold readBulk at hbulk
        split at hbulk
        · obtain ⟨rfl, -⟩ := Prod.mk.inj (some.inj hbulk)
          exact .bulk
        · cases hbulk
      · obtain ⟨rfl, -⟩ := Prod.mk.inj (some.inj h)
        exact .null
      · obtain ⟨rfl, -⟩ := Prod.mk.inj (some.inj h)
        exact .line htext
    · cases h

/-- The stream of the replies is read as exactly the values that were meant, one for each reply, if
and only if no line of them has a line break in it. -/
theorem replies_read_one_by_one_iff (format : NumberFormat Number) (resp3 : Bool) (extra : ℕ)
    (replies : List (Reply Number)) :
    readMany (readValue (1002 + extra)) replies.length
        (replies.flatMap (Reply.write format (bytesWriter format resp3))) =
      some (replies.map (Reply.write format (valueWriter format resp3)), []) ↔
      ∀ reply ∈ replies, Whole (reply.write format (valueWriter format resp3)) := by
  constructor
  · intro h reply hr
    exact whole_of_readMany whole_of_readValue h _ (mem_map_of_mem hr)
  · intro h
    rw [← append_nil (flatMap _ replies)]
    refine readMany_flatMap (fun reply hr rest => ?_) []
    have hwhole := h reply hr
    rw [Nat.add_comm]
    cases reply with
    | error msg | unknownCommand cmd args =>
      cases hwhole with
      | line htext => exact readValue_text (by decide) htext
    | script val => exact readValue_luaToRESP val (by omega) hwhole rest

end ReadBack

/-- Lua numbers that are not looked at. -/
def noNumbers : NumberFormat Unit := ⟨fun _ => 0, fun _ => [], fun _ => List.forall_mem_nil _⟩

/-- The error about the argument `\r\n+` is read as two values. -/
theorem error_read_as_two :
    readMany (readValue 1002) 2 ((Reply.error (utf8 "ERR unknown argument '" ++ [0x0d, 0x0a, 0x2b]
        ++ utf8 "'")).write noNumbers (bytesWriter noNumbers false)) =
      some ([.line 0x2d (utf8 "ERR unknown argument '"), .line 0x2b (utf8 "'")], []) := by
  rfl

end Swytch.Redis.ReplyFraming
