import Swytch.Sql.KeyOrder

/-!
# The codec of primary keys

`decodePK` walks a composite key with no length fields to guide it: numbers take eight bytes,
texts and blobs run to their terminator.

## 1.  Slices

The walk of the source, with every index and slice expression as a partial operation.  It
never leaves its buffer, and computes what `decodePK` says.

## 2.  Canonical keys

A key the walk consumes whole is the key of the values it yields, so every key has one
spelling.
-/

namespace Swytch.Sql

open Option
open List
open BigEndian

/-! ## 1.  Slices -/

/-- A run-time panic of the source. -/
inductive Panic where
  | outOfRange
  deriving DecidableEq, Repr

/-- `buf[i]`. -/
def byteAt (buf : Bytes) (i : ℕ) : Except Panic UInt8 := buf[i]?.elim (.error .outOfRange) .ok

/-- `buf[i:]`. -/
def sliceFrom (buf : Bytes) (i : ℕ) : Except Panic Bytes :=
  if i ≤ buf.length then .ok (buf.drop i) else .error .outOfRange

/-- `buf[:i]`. -/
def sliceTo (buf : Bytes) (i : ℕ) : Except Panic Bytes :=
  if i ≤ buf.length then .ok (buf.take i) else .error .outOfRange

variable {buf : Bytes} {i : ℕ}

theorem byteAt_of_getElem? {b : UInt8} (h : buf[i]? = some b) : byteAt buf i = .ok b := by
  rw [byteAt, h]
  rfl

theorem sliceFrom_of_le (h : i ≤ buf.length) : sliceFrom buf i = .ok (buf.drop i) := if_pos h

theorem sliceTo_of_le (h : i ≤ buf.length) : sliceTo buf i = .ok (buf.take i) := if_pos h

/-- The loop of `decodeTupleBytes` from an index on, with the bytes unescaped so far. -/
def decodeTupleBytesFrom (buf : Bytes) (i : ℕ) (out : Bytes) :
    Except Panic (Option (Bytes × Bytes)) :=
  if i < buf.length then
    match byteAt buf i with
    | .error e => .error e
    | .ok b =>
      if b ≠ 0x00 then decodeTupleBytesFrom buf (i + 1) (out ++ [b])
      else if i + 1 ≥ buf.length then .ok none
      else
        match byteAt buf (i + 1) with
        | .error e => .error e
        | .ok next =>
          if next = 0x00 then (sliceFrom buf (i + 2)).map fun rest => some (out, rest)
          else if next = 0x01 then decodeTupleBytesFrom buf (i + 2) (out ++ [0x00])
          else .ok none
  else .ok none
termination_by buf.length - i

/-- `decodeTupleComponent`, slice by slice. -/
def decodeTupleComponentSlices (buf : Bytes) (affinity : Affinity) :
    Except Panic (Option (Value × Bytes)) :=
  match affinity with
  | .integer =>
    if buf.length < 8 then .ok none
    else do
      let word ← sliceTo buf 8
      let rest ← sliceFrom buf 8
      return some (.integer (bitsInt (getUint64 word)), rest)
  | .real =>
    if buf.length < 8 then .ok none
    else do
      let word ← sliceTo buf 8
      let rest ← sliceFrom buf 8
      return some (.float (bitsFloat (getUint64 word)), rest)
  | .blob => do
    let decoded ← decodeTupleBytesFrom buf 0 []
    return decoded.map fun (raw, rest) => (.blob raw, rest)
  | .text | .numeric | .unresolved => do
    let decoded ← decodeTupleBytesFrom buf 0 []
    return decoded.map fun (raw, rest) => (.text raw, rest)

/-- The composite walk of `decodePK`, slice by slice. -/
def decodeTupleSlices : Bytes → List Affinity → Except Panic (List Value)
  | _, [] => .ok []
  | buf, affinity :: affinities => do
    match ← decodeTupleComponentSlices buf affinity with
    | none => return List.replicate (affinities.length + 1) .null
    | some (v, rest) =>
      let vals ← decodeTupleSlices rest affinities
      return v :: vals

/-- `decodePK`, slice by slice. -/
def decodePKSlices (pk : Bytes) (affinities : List Affinity) : Except Panic (List Value) :=
  match affinities with
  | [affinity] => .ok [decodeSinglePK pk affinity]
  | _ => decodeTupleSlices pk affinities

/-- The loop stays in its buffer. -/
theorem decodeTupleBytesFrom_eq (buf : Bytes) (i : ℕ) (out : Bytes) :
    decodeTupleBytesFrom buf i out =
      .ok ((decodeTupleBytes (buf.drop i)).map fun (raw, rest) => (out ++ raw, rest)) := by
  induction hn : buf.length - i using Nat.strong_induction_on generalizing i out with
  | _ n ih =>
    rw [decodeTupleBytesFrom]
    by_cases hi : i < buf.length
    · have hb : buf[i]? = some buf[i] := getElem?_eq_getElem hi
      rw [if_pos hi, byteAt_of_getElem? hb, drop_eq_getElem_cons hi]
      generalize buf[i] = b
      dsimp only
      by_cases hb0 : b = 0x00
      · rw [if_neg (not_not_intro hb0), hb0]
        by_cases hi1 : i + 1 < buf.length
        · have hnext : buf[i + 1]? = some buf[i + 1] := getElem?_eq_getElem hi1
          rw [if_neg (by omega), byteAt_of_getElem? hnext, drop_eq_getElem_cons hi1]
          generalize buf[i + 1] = next
          by_cases hnext0 : next = 0x00
          · rw [sliceFrom_of_le (by omega)]
            simp [decodeTupleBytes, hnext0, Except.map]
          · by_cases hnext1 : next = 0x01
            · rw [ih _ (by omega) (i + 2) _ rfl]
              simp [decodeTupleBytes, hnext1, Function.comp_def]
            · simp [decodeTupleBytes, hnext0, hnext1]
        · rw [if_pos (by omega), drop_eq_nil_of_le (by omega)]
          rfl
      · rw [if_pos hb0, ih _ (by omega) (i + 1) _ rfl]
        cases hr : buf.drop (i + 1) with
        | nil => simp [decodeTupleBytes]
        | cons next rest => simp [decodeTupleBytes, hb0, Function.comp_def]
    · rw [if_neg hi, drop_eq_nil_of_le (by omega)]
      rfl

theorem decodeTupleComponentSlices_eq (buf : Bytes) (affinity : Affinity) :
    decodeTupleComponentSlices buf affinity = .ok (decodeTupleComponent buf affinity) := by
  have hb : decodeTupleBytesFrom buf 0 [] = .ok (decodeTupleBytes buf) := by
    rw [decodeTupleBytesFrom_eq]
    simp
  cases affinity with
  | integer | real =>
    rw [decodeTupleComponentSlices, decodeTupleComponent]
    by_cases hlen : buf.length < 8
    · rw [if_pos hlen, if_pos hlen]
    · rw [if_neg hlen, if_neg hlen, sliceTo_of_le (by omega), sliceFrom_of_le (by omega)]
      rfl
  | text | blob | numeric | unresolved =>
    rw [decodeTupleComponentSlices, hb]
    rfl

theorem decodeTupleSlices_eq (buf : Bytes) (affs : List Affinity) :
    decodeTupleSlices buf affs = .ok (decodeTuple buf affs) := by
  induction affs generalizing buf with
  | nil => rfl
  | cons affinity affs ih =>
    rw [decodeTupleSlices, decodeTuple, decodeTupleComponentSlices_eq]
    cases decodeTupleComponent buf affinity with
    | none => rfl
    | some decoded =>
      show (decodeTupleSlices decoded.2 affs >>= _) = _
      rw [ih]
      rfl

/-- `decodePK` never leaves its buffer. -/
theorem decodePKSlices_eq (pk : Bytes) (affs : List Affinity) :
    decodePKSlices pk affs = .ok (decodePK pk affs) := by
  match affs with
  | [] => rfl
  | [affinity] => rfl
  | a :: a' :: affs => exact decodeTupleSlices_eq pk (a :: a' :: affs)

theorem length_decodePK (pk : Bytes) (affs : List Affinity) :
    (decodePK pk affs).length = affs.length := by
  have htu (buf : Bytes) (affs : List Affinity) : (decodeTuple buf affs).length = affs.length := by
    induction affs generalizing buf with
    | nil => rfl
    | cons affinity affs ih =>
      rw [decodeTuple]
      cases decodeTupleComponent buf affinity with
      | none => simp
      | some decoded => simp [ih]
  rcases affs with _ | ⟨a, _ | ⟨a', affs⟩⟩
  · rfl
  · rfl
  · exact htu pk (a :: a' :: affs)

/-! ## 2.  Canonical keys -/

theorem putUint64_getUint64 {b : Bytes} (h : b.length = 8) : putUint64 (getUint64 b) = b := by
  have hlt : ofBE b < 2 ^ 64 := by
    have hlt := ofBE_lt b
    rwa [h, show 256 ^ 8 = 2 ^ 64 by norm_num] at hlt
  rw [putUint64, getUint64, UInt64.toNat_ofNat', Nat.mod_eq_of_lt hlt, ← h, toBE_ofBE]

theorem intBits_bitsInt (u : UInt64) : intBits (bitsInt u) = u := by
  rw [intBits, bitsInt, UInt64.toUInt64_toInt64, xor_signBit_xor_signBit]

theorem floatBits_bitsFloat (u : UInt64) : floatBits (bitsFloat u) = u := by
  unfold bitsFloat floatBits
  by_cases h : u &&& signBit ≠ 0
  · have hflip : ¬ (u ^^^ signBit) &&& signBit ≠ 0 := by
      rw [xor_and_signBit_ne_zero_iff]
      exact not_not_intro h
    rw [if_pos h, if_neg hflip, xor_signBit_xor_signBit]
  · rw [if_neg h, if_pos ((not_and_signBit_ne_zero_iff u).mpr h), UInt64.not_not]

/-- What `decodeTupleBytes` reads is framed as it was. -/
theorem encodeTupleBytes_of_decode {raw rest : Bytes}
    (h : decodeTupleBytes buf = some (raw, rest)) : encodeTupleBytes raw ++ rest = buf := by
  induction buf using decodeTupleBytes.induct generalizing raw rest with
  | case1 | case2 b hb | case3 b hb => exact absurd h (by simp [decodeTupleBytes])
  | case4 b next buf hb ih =>
    rw [decodeTupleBytes, if_pos hb] at h
    obtain ⟨⟨raw, rest⟩, hraw, heq⟩ := map_eq_some_iff.mp h
    cases heq
    rw [encodeTupleBytes, if_neg hb, cons_append, ih hraw]
  | case5 b buf hb =>
    rw [decodeTupleBytes, if_neg hb] at h
    obtain ⟨rfl, rfl⟩ := Prod.mk.inj (some.inj h)
    rw [not_not.mp hb]
    rfl
  | case6 b buf hb hne ih =>
    rw [decodeTupleBytes, if_neg hb] at h
    obtain ⟨⟨raw, rest⟩, hraw, heq⟩ := map_eq_some_iff.mp h
    cases heq
    rw [encodeTupleBytes, if_pos rfl, cons_append, cons_append, ih hraw, not_not.mp hb]
  | case7 b next buf hb hnext hnext1 =>
    rw [decodeTupleBytes, if_neg hb, if_neg hnext, if_neg hnext1] at h
    cases h

/-- The values of all components and what is left over, when every component decodes. -/
def decodeComponents : Bytes → List Affinity → Option (List Value × Bytes)
  | buf, [] => some ([], buf)
  | buf, affinity :: affinities =>
    (decodeTupleComponent buf affinity).bind fun (v, rest) =>
      (decodeComponents rest affinities).map fun (vals, left) => (v :: vals, left)

section Canonical

variable [Host]

theorem encodeTupleComponent_of_decode {rest : Bytes} {affinity : Affinity} {v : Value}
    (h : decodeTupleComponent buf affinity = some (v, rest)) :
    encodeTupleComponent v affinity ++ rest = buf := by
  cases affinity with
  | integer =>
    rw [decodeTupleComponent] at h
    split at h
    · cases h
    · obtain ⟨rfl, rfl⟩ := Prod.mk.inj (some.inj h)
      show putUint64 (intBits (bitsInt (getUint64 (buf.take 8)))) ++ buf.drop 8 = buf
      rw [intBits_bitsInt, putUint64_getUint64 (by simp; omega), take_append_drop]
  | real =>
    rw [decodeTupleComponent] at h
    split at h
    · cases h
    · obtain ⟨rfl, rfl⟩ := Prod.mk.inj (some.inj h)
      show putUint64 (floatBits (bitsFloat (getUint64 (buf.take 8)))) ++ buf.drop 8 = buf
      rw [floatBits_bitsFloat, putUint64_getUint64 (by simp; omega), take_append_drop]
  | text | blob | numeric | unresolved =>
    obtain ⟨⟨raw, rest⟩, hraw, heq⟩ := map_eq_some_iff.mp h
    cases heq
    exact encodeTupleBytes_of_decode hraw

/-- The components, put together again. -/
theorem encodeTuple_of_decodeComponents {left : Bytes} {affs : List Affinity} {vals : List Value}
    (h : decodeComponents buf affs = some (vals, left)) :
    encodeTuple vals affs ++ left = buf ∧ decodeTuple buf affs = vals := by
  induction affs generalizing buf vals with
  | nil =>
    obtain ⟨rfl, rfl⟩ := Prod.mk.inj (some.inj h)
    exact ⟨rfl, rfl⟩
  | cons affinity affs ih =>
    obtain ⟨⟨v, rest⟩, hv, h⟩ := bind_eq_some_iff.mp h
    obtain ⟨⟨vals, left⟩, hvals, heq⟩ := map_eq_some_iff.mp h
    cases heq
    obtain ⟨hencode, hdecode⟩ := ih hvals
    constructor
    · rw [encodeTuple_cons, append_assoc, hencode, encodeTupleComponent_of_decode hv]
    · rw [decodeTuple, hv]
      exact congrArg _ hdecode

/-- **The codec of primary keys.**  A typed tuple survives the round trip; a composite key that
decodes component by component with nothing left over is the key of what it decodes to; and
any key at all decodes to as many values as there are columns, inside its buffer. -/
theorem pkCodec :
    (∀ affs vals, affs ≠ [] → Typed affs vals →
        ∃ pk, encodePK vals affs = some pk ∧ decodePK pk affs = vals) ∧
      (∀ affs pk vals, 2 ≤ affs.length → decodeComponents pk affs = some (vals, []) →
        decodePK pk affs = vals ∧ encodePK (decodePK pk affs) affs = some pk) ∧
      ∀ affs pk, decodePKSlices pk affs = .ok (decodePK pk affs) ∧
        (decodePK pk affs).length = affs.length := by
  refine ⟨fun affs vals _ htyped => ?_, fun affs pk vals htwo h => ?_, fun affs pk =>
    ⟨decodePKSlices_eq pk affs, length_decodePK pk affs⟩⟩
  · have hpk := encodePK_eq_some htyped.length_eq.symm
    refine ⟨_, hpk, ?_⟩
    rw [decodePK_encodePK hpk, coerceAll_of_typed htyped]
  · obtain ⟨hencode, hdecode⟩ := encodeTuple_of_decodeComponents h
    have hw : decodePK pk affs = vals := by
      match affs, htwo with
      | a :: a' :: affs, _ => exact hdecode
    have hlen := length_decodePK pk affs
    refine ⟨hw, ?_⟩
    rw [encodePK_eq_some hlen, encodeIndexKeyTuple_of_length (by rw [hlen]; exact htwo), hw]
    rw [append_nil] at hencode
    rw [hencode]

end Canonical

section Sample

local instance codecHost : Host := Host.inert

/-- The key of `(-1, 'a\x00')`, and back. -/
theorem pkCodec_zero_byte :
    ∃ pk, encodePK [.integer (-1), .text [0x61, 0]] [.integer, .text] = some pk ∧
      decodePK pk [.integer, .text] = [.integer (-1), .text [0x61, 0]] :=
  pkCodec.1 _ _ (by decide) (.cons trivial (.cons trivial .nil))

end Sample

end Swytch.Sql
