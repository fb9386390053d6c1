import Swytch.Sql.Encoding

/-!
# What keys spell

An encoded key does not keep a value but the value *coerced* to the affinity of its
column: `5`, `'5'` and `'5abc'` spell one key in an `INTEGER` column, and so do `NULL` and
`0`.  This module says so exactly.  `coerce` is the coercion; decoding an encoded tuple
gives the coerced tuple, two tuples have one key precisely when their coercions agree, and
a stored field coerces like the value it was written from.
-/

namespace Swytch.Sql

open List
open BigEndian

/-! ## Words -/

variable (u : UInt64)

theorem getUint64_putUint64 : getUint64 (putUint64 u) = u := by
  rw [getUint64, putUint64, ofBE_toBE_of_lt u.toNat_lt, UInt64.ofNat_toNat]

@[simp] theorem length_putUint64 : (putUint64 u).length = 8 := length_toBE 8 _

theorem xor_signBit_xor_signBit : (u ^^^ signBit) ^^^ signBit = u := by
  rw [UInt64.xor_assoc, UInt64.xor_self, UInt64.xor_zero]

theorem bitsInt_intBits (i : Int64) : bitsInt (intBits i) = i := by
  rw [bitsInt, intBits, xor_signBit_xor_signBit, Int64.toInt64_toUInt64]

/-- The test of the sign bit, on bits. -/
theorem and_signBit_ne_zero_iff : u &&& signBit ≠ 0 ↔ u.toBitVec.getLsbD 63 = true := by
  have hnat : (u &&& signBit).toNat = (u.toNat.testBit 63).toNat * 2 ^ 63 := by
    rw [UInt64.toNat_and, show signBit.toNat = 2 ^ 63 from rfl, Nat.and_two_pow]
  have hbit : u.toBitVec.getLsbD 63 = u.toNat.testBit 63 := rfl
  rw [hbit, Ne, ← UInt64.toNat_inj, hnat]
  cases u.toNat.testBit 63 <;> simp

theorem not_and_signBit_ne_zero_iff : ~~~u &&& signBit ≠ 0 ↔ ¬ u &&& signBit ≠ 0 := by
  rw [and_signBit_ne_zero_iff, and_signBit_ne_zero_iff]
  simp

theorem xor_and_signBit_ne_zero_iff : (u ^^^ signBit) &&& signBit ≠ 0 ↔ ¬ u &&& signBit ≠ 0 := by
  have h : signBit.toBitVec.getLsbD 63 = true := rfl
  rw [and_signBit_ne_zero_iff, and_signBit_ne_zero_iff, UInt64.toBitVec_xor, BitVec.getLsbD_xor, h]
  simp

theorem bitsFloat_floatBits (f : F64) : bitsFloat (floatBits f) = f := by
  obtain ⟨u⟩ := f
  unfold bitsFloat floatBits
  by_cases h : u &&& signBit ≠ 0
  · have hflip : ¬ ~~~u &&& signBit ≠ 0 := by
      rw [not_and_signBit_ne_zero_iff]
      exact not_not_intro h
    rw [if_pos h, if_neg hflip, UInt64.not_not]
  · rw [if_neg h, if_pos ((xor_and_signBit_ne_zero_iff u).mpr h), xor_signBit_xor_signBit]

/-! ## Coercion -/

variable {v : Value} {p : Payload} {pk : Bytes}

section Coerce

variable [Host]

/-- The value an encoded key keeps of a column's value. -/
def coerce (affinity : Affinity) (v : Value) : Value :=
  match affinity with
  | .integer => .integer v.toInt64
  | .real => .float v.toFloat
  | .blob => .blob v.toBytes
  | .text | .numeric | .unresolved => .text v.toBytes

/-- Column by column. -/
def coerceAll (affinities : List Affinity) (vals : List Value) : List Value :=
  List.zipWith coerce affinities vals

@[simp] theorem isNull_coerce (affinity : Affinity) (v : Value) :
    (coerce affinity v).isNull = false := by
  cases affinity <;> rfl

@[simp] theorem encodeIndexValue_coerce (affinity : Affinity) (v : Value) :
    encodeIndexValue (coerce affinity v) affinity = encodeIndexValue v affinity := by
  cases affinity <;> rfl

@[simp] theorem encodeTupleComponent_coerce (affinity : Affinity) (v : Value) :
    encodeTupleComponent (coerce affinity v) affinity = encodeTupleComponent v affinity := by
  cases affinity <;> rfl

theorem coerce_decodeValue (h : setEncodedValue v = some p) (affinity : Affinity) :
    coerce affinity (decodeValue p affinity) = coerce affinity v := by
  cases v <;> cases h <;> cases affinity <;> rfl

end Coerce

theorem isNull_decodeValue (h : setEncodedValue v = some p) (affinity : Affinity) :
    (decodeValue p affinity).isNull = false := by
  cases v <;> cases h <;> cases affinity <;> rfl

@[simp] theorem setEncodedValue_eq_none_iff : setEncodedValue v = none ↔ v.isNull = true := by
  cases v <;> simp [setEncodedValue]

theorem exists_setEncodedValue (h : v.isNull = false) : ∃ p, setEncodedValue v = some p := by
  cases v <;> simp_all [setEncodedValue]

/-! ## Tuples -/

/-- A terminated component is read back, whatever follows it. -/
theorem decodeTupleBytes_encodeTupleBytes (raw rest : Bytes) :
    decodeTupleBytes (encodeTupleBytes raw ++ rest) = some (raw, rest) := by
  induction raw with
  | nil => rfl
  | cons b raw ih =>
    unfold encodeTupleBytes
    by_cases hb : b = 0x00
    · simp [decodeTupleBytes, ih, hb]
    · -- the byte is followed by at least the terminator
      obtain ⟨next, buf, hnext⟩ : ∃ next buf, encodeTupleBytes raw ++ rest = next :: buf := by
        cases raw with
        | nil => exact ⟨_, _, rfl⟩
        | cons c raw =>
          unfold encodeTupleBytes
          split <;> exact ⟨_, _, rfl⟩
      rw [hnext] at ih
      rw [if_neg hb, cons_append, hnext, decodeTupleBytes, if_pos hb, ih]
      rfl

section Tuple

variable {vals vals' : List Value} {affinities affs : List Affinity} [Host]

/-- A component is read back coerced. -/
theorem decodeTupleComponent_encodeTupleComponent (v : Value) (affinity : Affinity) (rest : Bytes) :
    decodeTupleComponent (encodeTupleComponent v affinity ++ rest) affinity =
      some (coerce affinity v, rest) := by
  cases affinity with
  | integer =>
    simp [decodeTupleComponent, encodeTupleComponent, encodeIndexValue, getUint64_putUint64,
      bitsInt_intBits, coerce]
  | real =>
    simp [decodeTupleComponent, encodeTupleComponent, encodeIndexValue, getUint64_putUint64,
      bitsFloat_floatBits, coerce]
  | _ =>
    simp [decodeTupleComponent, encodeTupleComponent, decodeTupleBytes_encodeTupleBytes, coerce]

theorem decodeTuple_encodeTuple (hlen : vals.length = affinities.length) :
    decodeTuple (encodeTuple vals affinities) affinities = coerceAll affinities vals := by
  induction vals generalizing affinities with
  | nil =>
    obtain rfl : affinities = [] := eq_nil_of_length_eq_zero hlen.symm
    rfl
  | cons v vals ih =>
    cases affinities with
    | nil => simp at hlen
    | cons affinity affinities =>
      have hh : encodeTuple (v :: vals) (affinity :: affinities) =
          encodeTupleComponent v affinity ++ encodeTuple vals affinities := rfl
      rw [hh, decodeTuple, decodeTupleComponent_encodeTupleComponent]
      simp only [ih (by simpa using hlen)]
      rfl

/-- **`decodePK` reverses `encodePK` up to coercion.** -/
theorem decodePK_encodePK (h : encodePK vals affinities = some pk) :
    decodePK pk affinities = coerceAll affinities vals := by
  unfold encodePK at h
  by_cases hlen : vals.length = affinities.length
  · rw [if_neg (not_not_intro hlen)] at h
    split at h
    · cases h
      simp [decodePK, decodeSinglePK, encodeIndexValue, getUint64_putUint64, bitsInt_intBits,
        coerceAll, coerce]
    · cases h
      simp [decodePK, decodeSinglePK, encodeIndexValue, getUint64_putUint64,
        bitsFloat_floatBits, coerceAll, coerce]
    · cases h
      rename_i v affinity hint hreal
      cases affinity with
      | integer => exact (hint rfl).elim
      | real => exact (hreal rfl).elim
      | _ => rfl
    · rename_i h1 h2 h3
      cases h
      cases affinities with
      | nil => exact decodeTuple_encodeTuple hlen
      | cons affinity affinities =>
        cases affinities with
        | nil =>
          obtain ⟨v, rfl⟩ := length_eq_one_iff.mp hlen
          exact absurd rfl (h3 v affinity rfl)
        | cons affinity' affinities => exact decodeTuple_encodeTuple hlen
  · rw [if_pos hlen] at h
    cases h

/-- Tuples with one primary key coerce alike. -/
theorem coerceAll_eq_of_encodePK (h : encodePK vals affinities = some pk)
    (h' : encodePK vals' affinities = some pk) :
    coerceAll affinities vals = coerceAll affinities vals' := by
  rw [← decodePK_encodePK h, decodePK_encodePK h']

theorem encodeTuple_coerceAll (vals : List Value) (affinities : List Affinity) :
    encodeTuple (coerceAll affinities vals) affinities = encodeTuple vals affinities := by
  induction vals generalizing affinities with
  | nil => cases affinities <;> rfl
  | cons v vals ih =>
    cases affinities with
    | nil => rfl
    | cons affinity affinities =>
      have ih' := ih affinities
      simp only [encodeTuple, coerceAll] at ih' ⊢
      simp [ih']

section

variable (hlen : vals.length = affinities.length)

include hlen

theorem encodeIndexKeyTuple_coerceAll :
    encodeIndexKeyTuple (coerceAll affinities vals) affinities =
      encodeIndexKeyTuple vals affinities := by
  match vals, affinities, hlen with
  | [], [], _ => rfl
  | [v], [affinity], _ => exact encodeIndexValue_coerce affinity v
  | v :: v' :: vals, affinity :: affinity' :: affinities, _ =>
    exact encodeTuple_coerceAll (v :: v' :: vals) (affinity :: affinity' :: affinities)

/-- Tuples that coerce alike have one entry key. -/
theorem encodeIndexKeyTuple_congr (hlen' : vals'.length = affinities.length)
    (h : coerceAll affinities vals = coerceAll affinities vals') :
    encodeIndexKeyTuple vals affinities = encodeIndexKeyTuple vals' affinities := by
  rw [← encodeIndexKeyTuple_coerceAll hlen, h, encodeIndexKeyTuple_coerceAll hlen']

theorem encodePK_eq_some :
    encodePK vals affinities = some (encodeIndexKeyTuple vals affinities) := by
  unfold encodePK
  rw [if_neg (not_not_intro hlen)]
  match vals, affinities, hlen with
  | [], [], _ => rfl
  | [v], [affinity], _ => cases affinity <;> rfl
  | v :: v' :: vals, affinity :: affinity' :: affinities, _ => rfl

/-- **Two tuples have one entry key precisely when they coerce alike.** -/
theorem encodeIndexKeyTuple_eq_iff (hlen' : vals'.length = affinities.length) :
    encodeIndexKeyTuple vals affinities = encodeIndexKeyTuple vals' affinities ↔
      coerceAll affinities vals = coerceAll affinities vals' := by
  constructor
  · intro h
    have hpk := encodePK_eq_some hlen
    rw [h] at hpk
    exact coerceAll_eq_of_encodePK hpk (encodePK_eq_some hlen')
  · exact encodeIndexKeyTuple_congr hlen hlen'

end

theorem encodeTuple_cons (v : Value) (vals : List Value) (affinity : Affinity)
    (affs : List Affinity) : encodeTuple (v :: vals) (affinity :: affs) =
      encodeTupleComponent v affinity ++ encodeTuple vals affs := rfl

section

variable (hlen : vals.length = affs.length)

include hlen

/-- Components end where the next one begins. -/
theorem encodeTuple_append_eq_iff {args : List Value} (ha : args.length = affs.length)
    {a b : Bytes} :
    encodeTuple vals affs ++ a = encodeTuple args affs ++ b ↔
      coerceAll affs vals = coerceAll affs args ∧ a = b := by
  induction affs generalizing vals args with
  | nil =>
    simp [encodeTuple, coerceAll]
  | cons affinity affs ih =>
    cases vals with
    | nil => simp at hlen
    | cons v vals =>
      cases args with
      | nil => simp at ha
      | cons w args =>
        have ih' := ih (by simpa using hlen) (by simpa using ha)
        rw [encodeTuple_cons, encodeTuple_cons, append_assoc, append_assoc]
        simp only [coerceAll, zipWith_cons_cons, cons.injEq] at ih' ⊢
        rw [and_assoc, ← ih']
        constructor
        · intro h
          have hv := decodeTupleComponent_encodeTupleComponent v affinity
            (encodeTuple vals affs ++ a)
          rw [h, decodeTupleComponent_encodeTupleComponent] at hv
          simp only [Option.some.injEq, Prod.mk.injEq] at hv
          exact ⟨hv.1.symm, hv.2.symm⟩
        · rintro ⟨hv, hr⟩
          rw [hr, ← encodeTupleComponent_coerce affinity v, hv,
            encodeTupleComponent_coerce]

theorem encodeTuple_append (vals' : List Value) (affs' : List Affinity) :
    encodeTuple (vals ++ vals') (affs ++ affs') =
      encodeTuple vals affs ++ encodeTuple vals' affs' := by
  rw [encodeTuple, zipWith_append hlen, flatten_append]
  rfl

theorem encodeTuple_concat (v : Value) (affinity : Affinity) :
    encodeTuple (vals ++ [v]) (affs ++ [affinity]) =
      encodeTuple vals affs ++ encodeTupleComponent v affinity := by
  rw [encodeTuple_append hlen]
  exact congrArg _ (append_nil _)

theorem encodeTuple_append_affinities (rest : List Affinity) :
    encodeTuple vals (affs ++ rest) = encodeTuple vals affs := by
  have h := encodeTuple_append hlen [] rest
  rw [append_nil] at h
  rw [h]
  exact append_nil _

end

end Tuple

end Swytch.Sql
