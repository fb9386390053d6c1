import Mathlib

/-!
# Decimal numerals

The numeral of a natural number as bytes, and the number a sequence of digits stands for, read from
the left as programs read it.  A numeral is read back as its number, it has as few digits as the
number allows, and it has no other bytes.
-/

namespace Swytch.Decimal

open List

/-! ## 1.  Numerals and their values -/

def digitByte (d : ℕ) : UInt8 := UInt8.ofNat (0x30 + d)

def IsDigit (b : UInt8) : Prop := 0x30 ≤ b.toNat ∧ b.toNat ≤ 0x39

instance : DecidablePred IsDigit := fun b =>
  inferInstanceAs (Decidable (0x30 ≤ b.toNat ∧ b.toNat ≤ 0x39))

/-- The numeral of a number, without leading zeros. -/
def ofNat (n : ℕ) : List UInt8 :=
  if n = 0 then [digitByte 0] else (Nat.digits 10 n).reverse.map digitByte

/-- The number that the digits stand for after those of `n`. -/
def valueFrom (n : ℕ) (digits : List UInt8) : ℕ :=
  digits.foldl (fun m b => m * 10 + (b.toNat - 0x30)) n

/-! ## 2.  Reading a numeral back -/

theorem toNat_digitByte {d : ℕ} (hd : d < 10) : (digitByte d).toNat = 0x30 + d := by
  unfold digitByte
  rw [UInt8.toNat_ofNat']
  omega

theorem isDigit_digitByte {d : ℕ} (hd : d < 10) : IsDigit (digitByte d) := by
  unfold IsDigit
  rw [toNat_digitByte hd]
  omega

theorem valueFrom_append (n : ℕ) (as bs : List UInt8) :
    valueFrom n (as ++ bs) = valueFrom (valueFrom n as) bs := foldl_append

theorem le_valueFrom (n : ℕ) (digits : List UInt8) : n ≤ valueFrom n digits := by
  induction digits generalizing n with
  | nil => exact le_rfl
  | cons b digits ih =>
    have hstep : n ≤ n * 10 + (b.toNat - 0x30) := by omega
    exact hstep.trans (ih _)

theorem valueFrom_reverse_map (ds : List ℕ) (hds : ∀ d ∈ ds, d < 10) :
    valueFrom 0 (ds.reverse.map digitByte) = Nat.ofDigits 10 ds := by
  induction ds with
  | nil => rfl
  | cons d ds ih =>
    have hd : d < 10 := hds d mem_cons_self
    rw [reverse_cons, map_append, valueFrom_append,
      ih fun e he => hds e (mem_cons_of_mem _ he), Nat.ofDigits_cons]
    show Nat.ofDigits 10 ds * 10 + ((digitByte d).toNat - 0x30) = _
    rw [toNat_digitByte hd]
    omega

theorem digits_lt {n d : ℕ} (hd : d ∈ Nat.digits 10 n) : d < 10 :=
  Nat.digits_lt_base (by decide) hd

theorem valueFrom_ofNat (n : ℕ) : valueFrom 0 (ofNat n) = n := by
  unfold ofNat
  split
  · rename_i hn
    rw [hn]
    rfl
  · rw [valueFrom_reverse_map _ fun d hd => digits_lt hd, Nat.ofDigits_digits]

theorem isDigit_of_mem_ofNat {n : ℕ} {b : UInt8} (hb : b ∈ ofNat n) : IsDigit b := by
  unfold ofNat at hb
  split at hb
  · obtain rfl := mem_singleton.mp hb
    exact isDigit_digitByte (by decide)
  · obtain ⟨d, hd, rfl⟩ := mem_map.mp hb
    exact isDigit_digitByte (digits_lt (mem_reverse.mp hd))

theorem ofNat_ne_nil (n : ℕ) : ofNat n ≠ [] := by
  unfold ofNat
  split
  · exact cons_ne_nil _ _
  · rename_i hn
    intro hnil
    rw [map_eq_nil_iff, reverse_eq_nil_iff] at hnil
    exact hn (Nat.digits_eq_nil_iff_eq_zero.mp hnil)

theorem length_ofNat_le {n k : ℕ} (hk : 0 < k) (hn : n < 10 ^ k) : (ofNat n).length ≤ k := by
  unfold ofNat
  split
  · exact hk
  · rw [length_map, length_reverse]
    exact (Nat.digits_length_le_iff (by decide) n).mpr hn

end Swytch.Decimal
