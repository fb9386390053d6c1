import Swytch.Sql.Comparison
import Swytch.Sql.EncodingLaws

/-!
# The order of keys

Index entries are scanned in byte order.  Byte order is integer order for the eight bytes of
an `INTEGER`, the order of the doubles for those of a `REAL`, with the negative zero before
the positive one, and the order of the raw bytes for a text or a blob, framed or not:
escaping a zero byte as `00 01` and ending the component with `00 00` changes no comparison.
-/

namespace Swytch.Sql

open List
open List (compare_cons_cons)
open BigEndian

/-- A common prefix decides nothing. -/
theorem compare_append_left (p a b : Bytes) : compare (p ++ a) (p ++ b) = compare a b := by
  induction p with
  | nil => rfl
  | cons c p ih =>
    rw [cons_append, cons_append, compare_cons_cons, Std.ReflOrd.compare_self, ih]
    rfl

/-! ## Words -/

theorem compare_putUint64 (u w : UInt64) :
    compare (putUint64 u) (putUint64 w) = compare u.toNat w.toNat :=
  compare_toBE u.toNat_lt w.toNat_lt

theorem toNat_xor_signBit (u : UInt64) :
    (u ^^^ signBit).toNat = if u.toNat < 2 ^ 63 then u.toNat + 2 ^ 63 else u.toNat - 2 ^ 63 := by
  have hlt := u.toNat_lt
  have hdiv : (u.toNat ^^^ 2 ^ 63) / 2 ^ 63 = (u.toNat / 2 ^ 63) ^^^ 1 := by
    rw [Nat.xor_div_two_pow, Nat.div_self (by decide)]
  have hmod : (u.toNat ^^^ 2 ^ 63) % 2 ^ 63 = u.toNat % 2 ^ 63 := by
    rw [Nat.xor_mod_two_pow, Nat.mod_self, Nat.xor_zero]
  rw [UInt64.toNat_xor, show signBit.toNat = 2 ^ 63 from rfl]
  split
  · rw [show u.toNat / 2 ^ 63 = 0 by omega, Nat.zero_xor] at hdiv
    omega
  · rw [show u.toNat / 2 ^ 63 = 1 by omega, Nat.xor_self] at hdiv
    omega

theorem toNat_intBits (i : Int64) : ((intBits i).toNat : ℤ) = i.toInt + 2 ^ 63 := by
  have hint : i.toInt = if 2 * i.toUInt64.toNat < 2 ^ 64 then (i.toUInt64.toNat : ℤ)
      else (i.toUInt64.toNat : ℤ) - 2 ^ 64 := BitVec.toInt_eq_toNat_cond i.toBitVec
  rw [intBits, toNat_xor_signBit]
  split <;> split at hint <;> omega

theorem compare_intBits (i j : Int64) :
    compare (intBits i).toNat (intBits j).toNat = compare i.toInt j.toInt := by
  have hi := toNat_intBits i
  have hj := toNat_intBits j
  rcases lt_trichotomy i.toInt j.toInt with h | h | h
  · rw [compare_lt_iff_lt.mpr h, compare_lt_iff_lt.mpr (by omega)]
  · rw [compare_eq_iff_eq.mpr h, compare_eq_iff_eq.mpr (by omega)]
  · rw [compare_gt_iff_gt.mpr h, compare_gt_iff_gt.mpr (by omega)]

theorem toNat_floatBits (f : F64) :
    (floatBits f).toNat = if 2 ^ 63 ≤ f.bits.toNat then 2 ^ 64 - 1 - f.bits.toNat
      else f.bits.toNat + 2 ^ 63 := by
  have hsign : f.bits &&& signBit ≠ 0 ↔ 2 ^ 63 ≤ f.bits.toNat := and_topBit_ne_zero_iff f.bits
  rw [floatBits]
  by_cases h : 2 ^ 63 ≤ f.bits.toNat
  · rw [if_pos (hsign.mpr h), if_pos h, UInt64.toNat_not]
    rfl
  · rw [if_neg fun h' => h (hsign.mp h'), if_neg h, toNat_xor_signBit, if_pos (by omega)]

/-- Where the bytes of a double stand: the positive ones from the middle up, the negative
ones below it, and the zeros on both sides of it. -/
theorem toNat_floatBits_of_order {f : F64} {y : ℤ} (hf : f.order = some y) :
    (y < 0 ∧ ((floatBits f).toNat : ℤ) = y + 2 ^ 63 - 1) ∨
      (0 < y ∧ ((floatBits f).toNat : ℤ) = y + 2 ^ 63) ∨
      (y = 0 ∧ 2 ^ 63 - 1 ≤ (floatBits f).toNat ∧ (floatBits f).toNat ≤ 2 ^ 63) := by
  have hlt := f.bits.toNat_lt
  rw [F64.order_eq] at hf
  rw [toNat_floatBits]
  split_ifs at hf ⊢ <;> rw [Option.some.injEq] at hf <;> omega

/-- The bytes of doubles are ordered like the doubles, unless both are zero. -/
theorem compare_floatBits {f g : F64} {y z : ℤ} (hf : f.order = some y) (hg : g.order = some z)
    (hne : y ≠ 0 ∨ z ≠ 0) :
    compare (floatBits f).toNat (floatBits g).toNat = compare y z := by
  have hy := toNat_floatBits_of_order hf
  have hz := toNat_floatBits_of_order hg
  rcases lt_trichotomy y z with h | h | h
  · rw [compare_lt_iff_lt.mpr h, compare_lt_iff_lt.mpr (by omega)]
  · rw [compare_eq_iff_eq.mpr h, compare_eq_iff_eq.mpr (by omega)]
  · rw [compare_gt_iff_gt.mpr h, compare_gt_iff_gt.mpr (by omega)]

/-! ## Framed bytes -/

theorem compare_zero_of_ne {d : UInt8} (hd : d ≠ 0) : compare 0 d = .lt := by
  rw [UInt8.compare_eq_toNat_compare_toNat, compare_lt_iff_lt]
  have hne : d.toNat ≠ 0 := fun h => hd (UInt8.toNat_inj.mp h)
  show 0 < d.toNat
  omega

/-- **Framing keeps the order of raw bytes**, and ends the component: what follows decides
only between equal bytes. -/
theorem compare_encodeTupleBytes_append (a b r r' : Bytes) :
    compare (encodeTupleBytes a ++ r) (encodeTupleBytes b ++ r') =
      (compare a b).then (compare r r') := by
  have hgt {d : UInt8} (hd : d ≠ 0) : compare d 0 = .gt := by
    rw [Std.OrientedOrd.eq_swap, compare_zero_of_ne hd]
    rfl
  induction a generalizing b with
  | nil =>
    cases b with
    | nil => simp [encodeTupleBytes]
    | cons d b =>
      by_cases hd : d = 0
      · simp [hd]
        rfl
      · simp [encodeTupleBytes, hd, compare_zero_of_ne hd]
  | cons c a ih =>
    cases b with
    | nil =>
      by_cases hc : c = 0
      · simp [hc]
        rfl
      · simp [encodeTupleBytes, hc, hgt hc]
    | cons d b =>
      by_cases hc : c = 0 <;> by_cases hd : d = 0
      · simp [encodeTupleBytes, hc, hd, ih]
      · simp [encodeTupleBytes, hc, hd, compare_zero_of_ne hd]
      · simp [encodeTupleBytes, hc, hd, hgt hc]
      · simp [encodeTupleBytes, hc, hd, ih, Ordering.then_assoc]

theorem compare_encodeTupleBytes (a b : Bytes) :
    compare (encodeTupleBytes a) (encodeTupleBytes b) = compare a b := by
  have h := compare_encodeTupleBytes_append a b [] []
  rw [append_nil, append_nil] at h
  rw [h]
  exact Ordering.then_eq

/-! ## Tuples -/

/-- The value has the storage class of the affinity; a `NUMERIC` column keeps texts. -/
def Value.HasClass (v : Value) (affinity : Affinity) : Prop :=
  match affinity, v with
  | .integer, .integer _ | .real, .float _ | .text, .text _ | .blob, .blob _
  | .numeric, .text _ => True
  | _, _ => False

/-- A tuple with the storage classes of its columns. -/
def Typed (affs : List Affinity) (vals : List Value) : Prop :=
  List.Forall₂ (fun affinity v => Value.HasClass v affinity) affs vals

theorem Typed.take {affs : List Affinity} {vals : List Value} (h : Typed affs vals) (k : ℕ) :
    Typed (affs.take k) (vals.take k) :=
  forall₂_take k h

/-- Integers by their values, texts and blobs by their bytes. -/
def compareValues : Value → Value → Ordering
  | .integer i, .integer j => compare i.toInt j.toInt
  | .text a, .text b | .blob a, .blob b => compare a b
  | _, _ => .eq

/-- Column by column. -/
def compareTuples : List Value → List Value → Ordering
  | v :: vals, w :: vals' => (compareValues v w).then (compareTuples vals vals')
  | _, _ => .eq

theorem compare_append_of_length {a b : Bytes} (h : a.length = b.length) (r r' : Bytes) :
    compare (a ++ r) (b ++ r') = (compare a b).then (compare r r') := by
  induction a generalizing b with
  | nil =>
    obtain rfl : b = [] := eq_nil_of_length_eq_zero h.symm
    rfl
  | cons c a ih =>
    cases b with
    | nil => cases h
    | cons d b =>
      rw [cons_append, cons_append, compare_cons_cons, compare_cons_cons,
        ih (by simpa using h), Ordering.then_assoc]

section Tuples

variable {vals : List Value} [Host] {affs : List Affinity} {affinity : Affinity}

/-- One component decides unless the values are equal. -/
theorem compare_encodeTupleComponent (hreal : affinity ≠ .real) {v w : Value}
    (hv : v.HasClass affinity) (hw : w.HasClass affinity) (r r' : Bytes) :
    compare (encodeTupleComponent v affinity ++ r) (encodeTupleComponent w affinity ++ r') =
      (compareValues v w).then (compare r r') := by
  cases affinity with
  | integer =>
    cases v <;> cases w <;> try exact absurd ‹_› id
    rename_i i j
    have hlen : (putUint64 (intBits i)).length = (putUint64 (intBits j)).length := by simp
    show compare (putUint64 (intBits i) ++ r) (putUint64 (intBits j) ++ r') = _
    rw [compare_append_of_length hlen, compare_putUint64, compare_intBits]
    rfl
  | real => exact absurd rfl hreal
  | text | blob | numeric =>
    cases v <;> cases w <;> try exact absurd ‹_› id
    exact compare_encodeTupleBytes_append _ _ r r'
  | unresolved => cases v <;> exact absurd hv id

theorem compare_encodeTuple (hreal : .real ∉ affs) {a b : List Value} (ha : Typed affs a)
    (hb : Typed affs b) :
    compare (encodeTuple a affs) (encodeTuple b affs) = compareTuples a b := by
  induction affs generalizing a b with
  | nil =>
    cases ha
    cases hb
    rfl
  | cons affinity affs ih =>
    rw [mem_cons, not_or] at hreal
    cases ha with
    | cons hv ha =>
      cases hb with
      | cons hw hb =>
        rw [encodeTuple_cons, encodeTuple_cons,
          compare_encodeTupleComponent (Ne.symm hreal.1) hv hw, ih hreal.2 ha hb]
        rfl

theorem coerce_of_hasClass {v : Value} (h : v.HasClass affinity) : coerce affinity v = v := by
  cases affinity <;> cases v <;> first | rfl | exact absurd h id

/-- A typed tuple is its own coercion. -/
theorem coerceAll_of_typed (h : Typed affs vals) :
    coerceAll affs vals = vals := by
  induction h with
  | nil => rfl
  | cons hv _ ih =>
    rw [coerceAll, zipWith_cons_cons, coerce_of_hasClass hv]
    exact congrArg _ ih

theorem encodeIndexKeyTuple_of_length (hlen : 2 ≤ vals.length) :
    encodeIndexKeyTuple vals affs = encodeTuple vals affs := by
  match vals, hlen with
  | v :: w :: vals, _ => rfl

/-- The first components of a tuple, and the rest. -/
theorem encodeTuple_take_drop (hlen : vals.length = affs.length) (k : ℕ) :
    encodeTuple vals affs =
      encodeTuple (vals.take k) (affs.take k) ++ encodeTuple (vals.drop k) (affs.drop k) := by
  rw [← encodeTuple_append (by simp [hlen]), take_append_drop, take_append_drop]

theorem encodeIndexKeyPrefix_eq (hlen : vals.length = affs.length)
    (htwo : 2 ≤ affs.length) (k : ℕ) :
    encodeIndexKeyPrefix vals affs k = encodeTuple (vals.take k) (affs.take k) := by
  have hmin : vals.take (min k vals.length) = vals.take k := by
    rw [take_eq_take_iff]
    omega
  have ht : encodeTuple (vals.take k) affs = encodeTuple (vals.take k) (affs.take k) := by
    conv_lhs => rw [← take_append_drop k affs]
    exact encodeTuple_append_affinities (by simp [hlen]) _
  rw [← ht, encodeIndexKeyPrefix]
  split
  · rename_i hk
    rw [hk]
    rfl
  · match vals, affs, hlen, htwo with
    | [], affs, hlen, htwo => exact absurd htwo (by rw [← hlen]; decide)
    | v :: vals, a :: a' :: affs, _, _ =>
      show encodeTuple ((v :: vals).take (min k (v :: vals).length)) _ = _
      rw [hmin]

/-- **Composite entry keys are ordered like the tuples they spell**, none is a proper beginning
of another, and the key of some leading components begins exactly the keys of the tuples that
have them. -/
theorem encodeIndexKeyTuple_embeds (htwo : 2 ≤ affs.length) (hreal : .real ∉ affs) :
    (∀ a b, Typed affs a → Typed affs b →
        compare (encodeIndexKeyTuple a affs) (encodeIndexKeyTuple b affs) = compareTuples a b) ∧
      (∀ a b, Typed affs a → Typed affs b →
        encodeIndexKeyTuple a affs <+: encodeIndexKeyTuple b affs →
          encodeIndexKeyTuple a affs = encodeIndexKeyTuple b affs) ∧
      ∀ v t k, Typed affs v → Typed affs t →
        (encodeIndexKeyPrefix v affs k <+: encodeIndexKeyTuple t affs ↔ t.take k = v.take k) := by
  have hlen {vals : List Value} (h : Typed affs vals) : vals.length = affs.length :=
    h.length_eq.symm
  have hkey {vals : List Value} (h : Typed affs vals) :
      encodeIndexKeyTuple vals affs = encodeTuple vals affs :=
    encodeIndexKeyTuple_of_length (by rw [hlen h]; exact htwo)
  refine ⟨fun a b ha hb => ?_, fun a b ha hb => ?_, fun v t k hv ht => ?_⟩
  · rw [hkey ha, hkey hb]
    exact compare_encodeTuple hreal ha hb
  · rw [hkey ha, hkey hb]
    rintro ⟨rest, hr⟩
    rw [← append_nil (encodeTuple b affs)] at hr
    obtain ⟨hcoerce, rfl⟩ := (encodeTuple_append_eq_iff (hlen ha) (hlen hb)).mp hr
    rw [← encodeTuple_coerceAll a, hcoerce, encodeTuple_coerceAll]
  · have hiff {rest : Bytes} : encodeTuple (v.take k) (affs.take k) ++ rest =
        encodeTuple t affs ↔ t.take k = v.take k ∧ rest = encodeTuple (t.drop k) (affs.drop k) := by
      rw [encodeTuple_take_drop (hlen ht) k, encodeTuple_append_eq_iff
        (by simp [hlen hv]) (by simp [hlen ht]), coerceAll_of_typed (hv.take k),
        coerceAll_of_typed (ht.take k), eq_comm]
    rw [hkey ht, encodeIndexKeyPrefix_eq (hlen hv) htwo]
    constructor
    · rintro ⟨rest, hr⟩
      exact (hiff.mp hr).1
    · intro htake
      exact ⟨_, hiff.mpr ⟨htake, rfl⟩⟩

end Tuples

section Sample

local instance orderHost : Host := Host.inert

/-- `(1, 'a')` comes before `(1, 'a\x00')`: the terminator of the first component against an
escaped zero of the second. -/
theorem tuple_before_longer_text :
    compare (encodeIndexKeyTuple [.integer 1, .text [0x61]] [.integer, .text])
      (encodeIndexKeyTuple [.integer 1, .text [0x61, 0]] [.integer, .text]) = .lt := by
  have htyped (a : Bytes) : Typed [.integer, .text] [.integer 1, .text a] :=
    .cons trivial (.cons trivial .nil)
  exact ((encodeIndexKeyTuple_embeds (by decide) (by decide)).1 _ _ (htyped _) (htyped _)).trans
    (by decide)

end Sample

end Swytch.Sql
