import Swytch.Lib.BigEndian
import Swytch.Sql.Schema

/-!
# The key space

Row keys and index-entry keys name their table or index by its identifier, behind a
one-byte tag and a 32-bit length, so no two tables or indexes share a key and the suffix
after the header is free-form.  Schema and index metadata stay keyed by name.
-/

namespace Swytch.Sql

open List
open BigEndian

/-- `encodeIDHeader`: the tag byte, the length of the identifier, the identifier. -/
def encodeIDHeader (tag : UInt8) (id : Bytes) : Bytes := tag :: toBE 4 id.length ++ id

def prefixRow : UInt8 := 0x72

def prefixIndex : UInt8 := 0x69

def rowKeyPrefix (tableID : Bytes) : Bytes := encodeIDHeader prefixRow tableID

def rowKey (tableID pk : Bytes) : Bytes := rowKeyPrefix tableID ++ pk

def indexKeyPrefix (indexID : Bytes) : Bytes := encodeIDHeader prefixIndex indexID

def indexKey (indexID encoded : Bytes) : Bytes := indexKeyPrefix indexID ++ encoded

def schemaKey (table : String) : Bytes := utf8 "s" ++ utf8 "/" ++ utf8 table

def indexMetaKey (index : String) : Bytes := utf8 "x" ++ utf8 "/" ++ utf8 index

def tableListKey : Bytes := utf8 "L"

def indexListKey : Bytes := utf8 "I"

def viewMetaKey (view : String) : Bytes := utf8 "v" ++ utf8 "/" ++ utf8 view

def viewListKey : Bytes := utf8 "V"

def viewFieldSQL : Bytes := utf8 "sql"

def schemaFieldColumns : Bytes := utf8 "cols"

def schemaFieldPK : Bytes := utf8 "pk"

def schemaFieldIndexes : Bytes := utf8 "idx"

def schemaFieldTableID : Bytes := utf8 "tid"

def schemaFieldSyntheticPK : Bytes := utf8 "spk"

def rowFieldSyntheticRowID : String := "__rowid"

def indexFieldTable : Bytes := utf8 "table"

def indexFieldTableID : Bytes := utf8 "tid"

def indexFieldColumns : Bytes := utf8 "cols"

def indexFieldUnique : Bytes := utf8 "unique"

def indexFieldIndexID : Bytes := utf8 "iid"

/-- `parseRowKey`: the primary key of a row key of the table. -/
def parseRowKey (key tableID : Bytes) : Option Bytes :=
  if (rowKeyPrefix tableID).isPrefixOf key then some (key.drop (rowKeyPrefix tableID).length)
  else none

/-- `escapeGlob`: a backslash before `*`, `?`, `[` and the backslash. -/
def escapeGlob (s : Bytes) : Bytes :=
  s.flatMap fun c => if c ∈ [0x2a, 0x3f, 0x5b, 0x5c] then [0x5c, c] else [c]

/-- `glob`: the pattern of the keys that start with a literal prefix. -/
def glob (p : Bytes) : Bytes := escapeGlob p ++ utf8 "*"

def rowKeyPattern (tableID : Bytes) : Bytes := glob (rowKeyPrefix tableID)

def indexKeyPattern (indexID : Bytes) : Bytes := glob (indexKeyPrefix indexID)

/-- The engine's key trie: `MatchGlob` reads an escaped prefix and a star as "starts
with". -/
class Keytrie where
  matchGlob : Bytes → Bytes → Bool
  matchGlob_glob : ∀ p key, matchGlob (glob p) key = p.isPrefixOf key

/-- What a pattern says before its first bare star, unescaped. -/
def literalPrefix : Bytes → Bytes
  | [] => []
  | [c] => if c = 0x2a then [] else [c]
  | c :: d :: rest =>
    if c = 0x2a then [] else if c = 0x5c then d :: literalPrefix rest
    else c :: literalPrefix (d :: rest)

theorem literalPrefix_glob (p : Bytes) : literalPrefix (glob p) = p := by
  have hstar : utf8 "*" = [0x2a] := rfl
  rw [glob, hstar]
  induction p with
  | nil => rfl
  | cons c p ih =>
    obtain ⟨d, rest, hr⟩ : ∃ d rest, escapeGlob p ++ [0x2a] = d :: rest :=
      exists_cons_of_ne_nil (by simp)
    rw [escapeGlob, flatMap_cons, ← escapeGlob]
    by_cases hc : c ∈ [0x2a, 0x3f, 0x5b, 0x5c]
    · rw [if_pos hc, append_assoc, cons_append, cons_append, nil_append,
        literalPrefix, if_neg (by decide), if_pos rfl, ih]
    · have hne : c ≠ 0x2a ∧ c ≠ 0x5c := by
        constructor <;> rintro rfl <;> exact hc (by decide)
      rw [if_neg hc, append_assoc, cons_append, nil_append, hr, literalPrefix,
        if_neg hne.1, if_neg hne.2, ← hr, ih]

/-- A trie that reads patterns as the literal prefix they start with. -/
@[reducible] def Keytrie.ofPrefix : Keytrie where
  matchGlob pattern key := (literalPrefix pattern).isPrefixOf key
  matchGlob_glob p key := by rw [literalPrefix_glob]

/-! ## Distinct keys -/

@[simp] theorem rowKey_inj {tid pk pk' : Bytes} : rowKey tid pk = rowKey tid pk' ↔ pk = pk' := by
  simp [rowKey]

@[simp] theorem indexKey_inj {iid e e' : Bytes} : indexKey iid e = indexKey iid e' ↔ e = e' := by
  simp [indexKey]

@[simp] theorem rowKey_ne_indexKey (tid pk iid e : Bytes) : rowKey tid pk ≠ indexKey iid e := by
  simp [rowKey, indexKey, rowKeyPrefix, indexKeyPrefix, encodeIDHeader, prefixRow, prefixIndex]

@[simp] theorem indexKey_ne_rowKey (tid pk iid e : Bytes) : indexKey iid e ≠ rowKey tid pk :=
  (rowKey_ne_indexKey tid pk iid e).symm

/-- A metadata key or a registry is neither a row key nor an entry key. -/
def IsMetaKey (key : Bytes) : Prop := key.head? ≠ some prefixRow ∧ key.head? ≠ some prefixIndex

theorem head?_schemaKey (table : String) : (schemaKey table).head? = some 0x73 := rfl

theorem isMetaKey_schemaKey (table : String) : IsMetaKey (schemaKey table) := by
  rw [IsMetaKey, head?_schemaKey]
  decide

theorem isMetaKey_indexMetaKey (index : String) : IsMetaKey (indexMetaKey index) := by
  have h : (indexMetaKey index).head? = some 0x78 := rfl
  rw [IsMetaKey, h]
  decide

theorem isMetaKey_tableListKey : IsMetaKey tableListKey := by
  unfold IsMetaKey
  decide

theorem isMetaKey_indexListKey : IsMetaKey indexListKey := by
  unfold IsMetaKey
  decide

theorem IsMetaKey.ne_rowKey {key : Bytes} (h : IsMetaKey key) (tid pk : Bytes) :
    key ≠ rowKey tid pk := by
  rintro rfl
  exact h.1 rfl

theorem IsMetaKey.ne_indexKey {key : Bytes} (h : IsMetaKey key) (iid e : Bytes) :
    key ≠ indexKey iid e := by
  rintro rfl
  exact h.2 rfl

@[simp] theorem schemaKey_inj {t t' : String} : schemaKey t = schemaKey t' ↔ t = t' := by
  simp [schemaKey]

@[simp] theorem indexMetaKey_inj {i i' : String} : indexMetaKey i = indexMetaKey i' ↔ i = i' := by
  simp [indexMetaKey]

theorem indexKey_ne_of_ne {iid iid' : Bytes} (hlen : iid.length = iid'.length) (h : iid ≠ iid')
    (e e' : Bytes) : indexKey iid e ≠ indexKey iid' e' := by
  intro heq
  apply h
  unfold indexKey indexKeyPrefix encodeIDHeader at heq
  rw [hlen] at heq
  have ht := (append_cancel_left_eq _ _ _).mp
    (by simpa only [append_assoc] using heq)
  exact (append_inj ht hlen).1

theorem parseRowKey_rowKey (tid pk : Bytes) : parseRowKey (rowKey tid pk) tid = some pk := by
  simp [parseRowKey, rowKey]

theorem rowKey_of_parseRowKey {key tid pk : Bytes} (h : parseRowKey key tid = some pk) :
    key = rowKey tid pk := by
  unfold parseRowKey at h
  split at h
  · rename_i hp
    obtain ⟨t, rfl⟩ := isPrefixOf_iff_prefix.mp hp
    simp only [drop_left', Option.some.injEq] at h
    rw [← h, rowKey]
  · cases h

end Swytch.Sql
