import Swytch.Redis.Engine
import Swytch.Redis.Registry

/-!
# Stored values

The value of an effect is one of several variants: the bytes as they are, the bytes compressed, an
integer or a float.  Counters are kept as numbers so that concurrent increments add up, and the
engine may compress bytes.  `Decompress` gives the bytes of the first two and nothing for a number.
-/

namespace Swytch.Redis

open Decimal
open Sql (Bytes utf8 F64)

/-! ## 1.  Values -/

/-- The variants of `pb.DataEffect.Value` that hold data; a compressed value by the bytes it was
made of. -/
inductive StoredValue where
  | raw (bytes : Bytes)
  | compressed (bytes : Bytes)
  | intVal (n : Int64)
  | floatVal (f : F64)
  deriving DecidableEq

namespace StoredValue

/-- `Decompress`, where `none` is the nil slice. -/
def decompress : StoredValue → Option Bytes
  | raw bytes => some bytes
  | compressed bytes => some bytes
  | intVal _ => none
  | floatVal _ => none

def getIntVal : StoredValue → Int64
  | intVal n => n
  | _ => 0

end StoredValue

/-! ## 2.  Numerals -/

def IsInt64 (n : ℤ) : Prop := -2 ^ 63 ≤ n ∧ n < 2 ^ 63

instance (n : ℤ) : Decidable (IsInt64 n) := inferInstanceAs (Decidable (_ ∧ _))

/-- `strconv.FormatInt` in base ten. -/
def formatInt (n : ℤ) : Bytes :=
  if n < 0 then 0x2d :: Decimal.ofNat n.natAbs else Decimal.ofNat n.natAbs

theorem isInt64_toInt (n : Int64) : IsInt64 n.toInt := ⟨n.le_toInt, n.toInt_lt⟩

/-- A numeral is read back. -/
theorem parseInt64_formatInt {n : ℤ} (hn : IsInt64 n) : parseInt64 (formatInt n) = some n := by
  obtain ⟨hlow, hhi⟩ := hn
  unfold formatInt
  split
  · have hrd : parseDigits true 0 (ofNat n.natAbs) = some n.natAbs := by
      rw [parseDigits_eq_some fun _ hc => isDigit_of_mem_ofNat hc, valueFrom_ofNat]
      rw [valueFrom_ofNat, if_pos rfl]
      omega
    have hne := ofNat_ne_nil n.natAbs
    have hv : -(n.natAbs : ℤ) = n := by omega
    simp only [parseInt64, decide_true, Bool.true_or, if_true, hne, hrd]
    exact congrArg some hv
  · rw [parseInt64_ofNat (by omega)]
    congr 1
    omega

theorem formatInt_injective {m n : ℤ} (hm : IsInt64 m) (hn : IsInt64 n)
    (h : formatInt m = formatInt n) : m = n := by
  have hrd := parseInt64_formatInt hm
  rw [h, parseInt64_formatInt hn] at hrd
  exact (Option.some.inj hrd).symm

theorem exists_mem_formatInt (n : ℤ) : ∃ c ∈ formatInt n, c ≠ 0 := by
  unfold formatInt
  split
  · exact ⟨0x2d, List.mem_cons_self, by decide⟩
  · obtain ⟨c, hc⟩ := List.exists_mem_of_ne_nil _ (ofNat_ne_nil n.natAbs)
    obtain ⟨hlow, -⟩ := isDigit_of_mem_ofNat hc
    refine ⟨c, hc, ?_⟩
    rintro rfl
    cases hlow

end Swytch.Redis
