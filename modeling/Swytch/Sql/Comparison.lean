import Swytch.Lib.BinaryFloat
import Swytch.Sql.Predicate

/-!
# SQL comparison

How SQL compares a column with an argument.  Before the comparison the affinity of the
column is applied to both operands: a numeric column turns a text that spells a number into
that number, and a text column turns a number that meets a text into its text.  Numbers are
compared by value, whatever their storage class, and stand before texts, which stand before
blobs; texts and blobs are compared byte by byte.  A comparison with `NULL` has no result.

The value of a number is kept exactly, in units of the smallest subnormal double.
-/

namespace Swytch.Sql

/-- Where a value stands in comparison order. -/
inductive SortKey where
  | number (z : ℤ)
  | text (b : Bytes)
  | blob (b : Bytes)
  deriving DecidableEq, Repr

/-- Numbers first, then texts, then blobs. -/
def SortKey.compare : SortKey → SortKey → Ordering
  | .number y, .number z => Ord.compare y z
  | .number _, _ => .lt
  | _, .number _ => .gt
  | .text b, .text c => Ord.compare b c
  | .text _, .blob _ => .lt
  | .blob _, .text _ => .gt
  | .blob b, .blob c => Ord.compare b c

/-- One, in units of the smallest subnormal double. -/
def unitScale : ℤ := 2 ^ 1074

/-- The place of a value; `NULL` has none, nor has a `NaN`, which SQLite holds as `NULL`. -/
def Value.sortKey : Value → Option SortKey
  | .null | .unchanged => none
  | .integer i => some (.number (i.toInt * unitScale))
  | .float f => f.order.map fun z => .number (BinaryFloat.value 52 z)
  | .text b => some (.text b)
  | .blob b => some (.blob b)

/-- Whether the storage class is text. -/
def Value.isText : Value → Bool
  | .text _ => true
  | _ => false

theorem compare_of_strictMono {f : ℤ → ℤ} (hf : StrictMono f) (y z : ℤ) :
    compare (f y) (f z) = compare y z := by
  rw [← cmp_eq_compare, ← cmp_eq_compare, hf.cmp_map_eq]

theorem strictMono_mul_unitScale : StrictMono fun z : ℤ => z * unitScale := by
  have hpos : 0 < unitScale := by
    rw [unitScale]
    positivity
  intro y z h
  exact mul_lt_mul_of_pos_right h hpos

section Compare

variable [Host]

/-- Numeric affinity: a text that spells a number becomes the number. -/
def Value.applyNumericAffinity : Value → Value
  | .text b => match Host.numberOfText b with
      | none => .text b
      | some (.inl i) => .integer i
      | some (.inr f) => .float f
  | v => v

/-- Text affinity: a number becomes its text. -/
def Value.applyTextAffinity : Value → Value
  | .integer i => .text (Host.textOfInt64 i)
  | .float f => .text (Host.textOfFloat f)
  | v => v

/-- The operands of a comparison under the affinity of the column. -/
def applyAffinity (affinity : Affinity) (x y : Value) : Value × Value :=
  match affinity with
  | .integer | .real | .numeric => (x.applyNumericAffinity, y.applyNumericAffinity)
  | .text => if x.isText || y.isText then (x.applyTextAffinity, y.applyTextAffinity) else (x, y)
  | .blob | .unresolved => (x, y)

/-- The result of comparing a column with an argument, if the comparison has one. -/
def sqlCompare (affinity : Affinity) (x y : Value) : Option Ordering :=
  let operands := applyAffinity affinity x y
  operands.1.sortKey.bind fun k => operands.2.sortKey.map k.compare

/-- The column compares equal to the argument. -/
def sqlEq (affinity : Affinity) (x y : Value) : Bool := sqlCompare affinity x y == some .eq

@[simp] theorem sqlEq_iff {affinity : Affinity} {x y : Value} :
    sqlEq affinity x y = true ↔ sqlCompare affinity x y = some .eq := by
  simp [sqlEq]

/-! ## Operands of the class of the column -/

theorem sqlCompare_integer (i j : Int64) :
    sqlCompare .integer (.integer i) (.integer j) = some (compare i.toInt j.toInt) := by
  rw [← compare_of_strictMono strictMono_mul_unitScale]
  rfl

/-- Doubles are compared by their place in numeric order. -/
theorem sqlCompare_real {f g : F64} {y z : ℤ} (hf : f.order = some y) (hg : g.order = some z) :
    sqlCompare .real (.float f) (.float g) = some (compare y z) := by
  rw [← compare_of_strictMono (BinaryFloat.value_strictMono 52)]
  simp [sqlCompare, applyAffinity, Value.applyNumericAffinity, Value.sortKey, hf, hg,
    SortKey.compare]

theorem sqlCompare_text (b c : Bytes) :
    sqlCompare .text (.text b) (.text c) = some (compare b c) := rfl

theorem sqlCompare_blob (b c : Bytes) :
    sqlCompare .blob (.blob b) (.blob c) = some (compare b c) := rfl

end Compare

end Swytch.Sql
