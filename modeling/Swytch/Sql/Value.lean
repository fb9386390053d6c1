import Mathlib

/-!
# SQLite values

The SQL layer handles rows as tuples of SQLite values: `NULL`, a 64-bit integer, a
double, a text or a blob.  A value carries its storage class; the accessors
`Int64()`, `Float()`, `Text()` and `Blob()` convert a value of another class the way
SQLite's `CAST` does.  Those conversions, and the other routines the repository calls
but does not contain, are the fields of `Host`.

A column keeps one of five *affinities*, the canonical buckets of SQLite's type names.
-/

namespace Swytch.Sql

/-- Go strings and byte slices used as opaque byte containers. -/
abbrev Bytes := List UInt8

instance Bytes.lawfulBEq : LawfulBEq Bytes := inferInstance

/-- The bytes of an identifier or of a literal. -/
def utf8 (s : String) : Bytes := s.toUTF8.data.toList

theorem utf8_injective : Function.Injective utf8 := by
  intro s t h
  exact String.toByteArray_inj.mp (ByteArray.ext (Array.toList_inj.mp h))

@[simp] theorem utf8_inj {s t : String} : utf8 s = utf8 t ↔ s = t :=
  utf8_injective.eq_iff

/-- The name that bytes spell; the layer only reads back names it has written. -/
def ofUtf8 (b : Bytes) : String := (String.fromUTF8? ⟨b.toArray⟩).getD ""

@[simp] theorem ofUtf8_utf8 (s : String) : ofUtf8 (utf8 s) = s := by
  have hb : (⟨s.toUTF8.data.toList.toArray⟩ : ByteArray) = s.toUTF8 := by simp
  rw [ofUtf8, utf8, hb, String.fromUTF8?]
  simp [String.fromUTF8, String.isValidUTF8]

/-- An IEEE 754 double, named by its bit pattern. -/
structure F64 where
  bits : UInt64
  deriving DecidableEq, Repr

/-- What the repository takes from its dependencies: SQLite's conversions between
storage classes, the number a text denotes under numeric affinity, the string hash
behind rowids, and the simple case folding of `strings.EqualFold`. -/
class Host where
  int64OfFloat : F64 → Int64
  int64OfText : Bytes → Int64
  floatOfInt64 : Int64 → F64
  floatOfText : Bytes → F64
  textOfInt64 : Int64 → Bytes
  textOfFloat : F64 → Bytes
  numberOfText : Bytes → Option (Int64 ⊕ F64)
  hashString : Bytes → UInt64
  foldRune : Char → Char

/-- A host that converts every value to nothing, for concrete runs that never ask it. -/
@[reducible] def Host.inert : Host where
  int64OfFloat _ := 0
  int64OfText _ := 0
  floatOfInt64 _ := ⟨0⟩
  floatOfText _ := ⟨0⟩
  textOfInt64 _ := []
  textOfFloat _ := []
  numberOfText _ := none
  hashString _ := 0
  foldRune c := c

def equalFold [Host] (s t : String) : Bool :=
  s.toList.map Host.foldRune == t.toList.map Host.foldRune

theorem equalFold_iff [Host] {s t : String} :
    equalFold s t = true ↔ s.toList.map Host.foldRune = t.toList.map Host.foldRune := by
  simp [equalFold]

@[simp] theorem equalFold_self [Host] (s : String) : equalFold s s = true :=
  equalFold_iff.mpr rfl

/-- A SQLite value.  `unchanged` is the placeholder of a column that an `UPDATE` does
not supply: its type is `NULL` and its `NoChange` flag is set. -/
inductive Value where
  | null
  | unchanged
  | integer (i : Int64)
  | float (f : F64)
  | text (b : Bytes)
  | blob (b : Bytes)
  deriving DecidableEq, Repr

namespace Value

/-- `v.Type() == sqlite.TypeNull`. -/
def isNull : Value → Bool
  | null | unchanged => true
  | _ => false

/-- `v.NoChange()`. -/
def noChange : Value → Bool
  | unchanged => true
  | _ => false

@[simp] theorem isNull_null : null.isNull = true := rfl
@[simp] theorem isNull_unchanged : unchanged.isNull = true := rfl
@[simp] theorem isNull_integer (i : Int64) : (integer i).isNull = false := rfl
@[simp] theorem isNull_float (f : F64) : (float f).isNull = false := rfl
@[simp] theorem isNull_text (b : Bytes) : (text b).isNull = false := rfl
@[simp] theorem isNull_blob (b : Bytes) : (blob b).isNull = false := rfl

theorem isNull_of_noChange {v : Value} (h : v.noChange = true) : v.isNull = true := by
  cases v <;> simp_all [noChange]

variable [Host]

/-- `v.Int64()`. -/
def toInt64 : Value → Int64
  | null | unchanged => 0
  | integer i => i
  | float f => Host.int64OfFloat f
  | text b | blob b => Host.int64OfText b

/-- `v.Float()`. -/
def toFloat : Value → F64
  | null | unchanged => ⟨0⟩
  | integer i => Host.floatOfInt64 i
  | float f => f
  | text b | blob b => Host.floatOfText b

/-- `v.Text()`, and the bytes of `v.Blob()`: `CAST(v AS BLOB)` is the text of `v`. -/
def toBytes : Value → Bytes
  | null | unchanged => []
  | integer i => Host.textOfInt64 i
  | float f => Host.textOfFloat f
  | text b | blob b => b

end Value

/-- The canonical column affinities, and the empty string `columnAffinities` leaves in
the slot of a column it cannot resolve. -/
inductive Affinity where
  | integer
  | real
  | text
  | blob
  | numeric
  | unresolved
  deriving DecidableEq, Repr

/-- The value is `NULL` or has the storage class of an affinity. -/
def Value.Conforms (v : Value) (affinity : Affinity) : Prop :=
  v.isNull = true ∨ match affinity, v with
    | .integer, .integer _ => True
    | .real, .float _ => True
    | .text, .text _ => True
    | .blob, .blob _ => True
    | .numeric, _ => True
    | _, _ => False

end Swytch.Sql
