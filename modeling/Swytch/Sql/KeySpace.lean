import Swytch.Caddy.Storage
import Swytch.Sql.Keys

/-!
# The partition of the key space

The header of a key ends where the length in it says, so that it can be told from the suffix, and
every byte of a header that a pattern would read otherwise is escaped.
-/

namespace Swytch.Sql

open List
open BigEndian Caddy

theorem encodeIDHeader_append_inj {tag : UInt8} {id id' p p' : Bytes} (h : id.length < 2 ^ 32)
    (h' : id'.length < 2 ^ 32) :
    encodeIDHeader tag id ++ p = encodeIDHeader tag id' ++ p' ↔ id = id' ∧ p = p' := by
  constructor
  · intro heq
    simp only [encodeIDHeader, cons_append, append_assoc, cons.injEq, true_and]
      at heq
    obtain ⟨hhd, hr⟩ := append_inj heq (by simp)
    have hlen : id.length = id'.length := by
      rw [← ofBE_toBE_of_lt (w := 4) h, hhd, ofBE_toBE_of_lt h']
    exact append_inj hr hlen
  · rintro ⟨rfl, rfl⟩
    rfl

theorem parseRowKey_eq_none_iff {key id : Bytes} :
    parseRowKey key id = none ↔ ∀ p, key ≠ rowKey id p := by
  constructor
  · rintro h p rfl
    rw [parseRowKey_rowKey] at h
    cases h
  · intro h
    by_contra hpar
    obtain ⟨p, hp⟩ := Option.ne_none_iff_exists'.mp hpar
    exact h p (rowKey_of_parseRowKey hp)

theorem matchGlob_glob_iff [Glob] (p key : Bytes) : Glob.matchGlob (glob p) key ↔ p <+: key := by
  have hstar : utf8 "*" = [0x2a] := rfl
  rw [glob, hstar]
  induction p generalizing key with
  | nil => simpa [escapeGlob] using matchGlob_star key
  | cons c p ih =>
    rw [escapeGlob, flatMap_cons, ← escapeGlob, cons_prefix_iff]
    split
    · rw [append_assoc, cons_append, cons_append, nil_append, Glob.escape]
      simp only [ih]
    · rename_i hliteral
      rw [append_assoc, cons_append, nil_append, Glob.literal _ _ _ hliteral]
      simp only [ih]

/-- Keys name their table or index and keep their suffix, and patterns select by the prefix. -/
theorem key_space_partition [Glob] :
    (∀ id id' p p' : Bytes, id.length < 2 ^ 32 → id'.length < 2 ^ 32 →
      (rowKey id p = rowKey id' p' ↔ id = id' ∧ p = p') ∧
      (indexKey id p = indexKey id' p' ↔ id = id' ∧ p = p') ∧
      rowKey id p ≠ indexKey id' p' ∧
      parseRowKey (rowKey id p) id' = if id = id' then some p else none) ∧
    (∀ key id, parseRowKey key id = none ↔ ∀ p, key ≠ rowKey id p) ∧
    ∀ key p id, (Glob.matchGlob (glob p) key ↔ p <+: key) ∧
      (Glob.matchGlob (rowKeyPattern id) key ↔ rowKeyPrefix id <+: key) ∧
      (Glob.matchGlob (indexKeyPattern id) key ↔ indexKeyPrefix id <+: key) := by
  refine ⟨?_, fun _ _ => parseRowKey_eq_none_iff, fun key p id =>
    ⟨matchGlob_glob_iff p key, matchGlob_glob_iff _ key, matchGlob_glob_iff _ key⟩⟩
  intro id id' p p' h h'
  refine ⟨encodeIDHeader_append_inj h h', encodeIDHeader_append_inj h h',
    rowKey_ne_indexKey id p id' p', ?_⟩
  split
  · rename_i hid
    rw [← hid, parseRowKey_rowKey]
  · rename_i hid
    refine parseRowKey_eq_none_iff.mpr fun suffix heq => hid ?_
    exact ((encodeIDHeader_append_inj h h').mp heq).1

end Swytch.Sql
