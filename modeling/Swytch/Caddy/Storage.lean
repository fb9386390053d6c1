import Swytch.Sql.Value

/-!
# Paths of the certificate storage

`swytchStore` keeps a file under a data key and lists a directory with `ScanKeys`, whose pattern is
the key with `/*` at its end.  Nothing in the key is escaped, so a key with a metacharacter of the
pattern language lists, and deletes, what lies under other keys.
-/

namespace Swytch.Caddy

open List
open Sql (Bytes)

/-! ## 1.  The functions of the storage -/

/-- `keytrie.MatchGlob`.  What classes match is left open. -/
class Glob where
  matchGlob : Bytes → Bytes → Bool
  nil : ∀ key, matchGlob [] key ↔ key = []
  star : ∀ pattern key, matchGlob (0x2a :: pattern) key ↔ ∃ rest, rest <:+ key ∧ matchGlob pattern rest
  any : ∀ pattern key, matchGlob (0x3f :: pattern) key ↔
    ∃ b rest, key = b :: rest ∧ matchGlob pattern rest
  escape : ∀ b pattern key, matchGlob (0x5c :: b :: pattern) key ↔
    ∃ rest, key = b :: rest ∧ matchGlob pattern rest
  literal : ∀ b pattern key, b ∉ [0x2a, 0x3f, 0x5b, 0x5c] →
    (matchGlob (b :: pattern) key ↔ ∃ rest, key = b :: rest ∧ matchGlob pattern rest)

/-- What `GetSnapshot` has for a live scalar. -/
structure Scalar where
  raw : Option Bytes
  hlc : Option ℤ

/-- `swytchStore` with the live keys in the order of the scan, all of them scalars. -/
structure SwytchStore where
  dataPrefix : Bytes
  live : List Bytes
  scalar : Bytes → Scalar
  nodup : live.Nodup

/-- `certmagic.KeyInfo`. -/
structure KeyInfo where
  key : Bytes
  modified : Option ℤ := none
  size : ℕ := 0
  isTerminal : Bool
  deriving DecidableEq

namespace SwytchStore

variable (s : SwytchStore)

def dataKey (key : Bytes) : Bytes := s.dataPrefix ++ key

def Stored (key : Bytes) : Prop := s.dataKey key ∈ s.live

/-- The key is stored and lies below the path. -/
def Below (path key : Bytes) : Prop := s.Stored key ∧ path ++ [0x2f] <+: key

variable [Glob]

def scanKeys (pattern : Bytes) : List Bytes := s.live.filter (Glob.matchGlob pattern)

def listAll (path : Bytes) : List Bytes :=
  let keyPrefix := s.dataKey path
  let scanGlob := if path ≠ [] ∧ ¬[0x2f] <:+ keyPrefix then keyPrefix ++ [0x2f, 0x2a]
    else keyPrefix ++ [0x2a]
  ((s.scanKeys scanGlob).filter (s.dataPrefix.isPrefixOf ·)).map (·.drop s.dataPrefix.length)

/-- A listed key, cut after its first segment below the path. -/
def firstSegment (pathPrefix key : Bytes) : Bytes :=
  let rest := if pathPrefix <+: key then key.drop pathPrefix.length else key
  pathPrefix ++ rest.takeWhile (· ≠ 0x2f)

/-- The loop body with the map of what was seen. -/
def collect (out : List Bytes) (full : Bytes) : List Bytes :=
  if full ∈ out then out else out ++ [full]

def list (path : Bytes) (recursive : Bool) : List Bytes :=
  if recursive then s.listAll path
  else
    let pathPrefix := if path ≠ [] ∧ ¬[0x2f] <:+ path then path ++ [0x2f] else path
    ((s.listAll path).map (firstSegment pathPrefix)).foldl collect []

/-- The live keys afterwards, or `fs.ErrNotExist`. -/
def delete (key : Bytes) : Option (List Bytes) :=
  let hadDirect := s.dataKey key ∈ s.live
  let children := s.listAll key
  if ¬hadDirect ∧ children = [] then none
  else some (s.live.filter fun k => ¬(hadDirect ∧ k = s.dataKey key) ∧ k ∉ children.map s.dataKey)

/-- The scan for a key below the key. -/
def isDirectory (key : Bytes) : Bool := s.scanKeys (s.dataKey key ++ [0x2f, 0x2a]) ≠ []

def exist (key : Bytes) : Bool := s.dataKey key ∈ s.live || s.isDirectory key

def stat (key : Bytes) : Option KeyInfo :=
  if s.dataKey key ∉ s.live then
    if s.isDirectory key then some { key, isTerminal := false } else none
  else
    let found := s.scalar (s.dataKey key)
    some { key, modified := found.hlc, size := (found.raw.getD []).length, isTerminal := true }

/-! ## 2.  What a path stands for -/

/-- The functions take the path for its subtree. -/
structure DenotesSubtree (path : Bytes) : Prop where
  recursive : ∀ k, k ∈ s.list path true ↔ s.Below path k
  direct : ∀ k, k ∈ s.list path false ↔
    ∃ rest, s.Below path (path ++ 0x2f :: rest) ∧ k = path ++ 0x2f :: rest.takeWhile (· ≠ 0x2f)
  once : (s.list path true).Nodup ∧ (s.list path false).Nodup
  fails : s.delete path = none ↔ ¬s.Stored path ∧ ∀ k, ¬s.Below path k
  removes : ∀ live, s.delete path = some live → ∀ k, k ∈ live ↔
    k ∈ s.live ∧ k ≠ s.dataKey path ∧ ∀ child, s.Below path child → k ≠ s.dataKey child
  exist : s.exist path = true ↔ s.Stored path ∨ ∃ k, s.Below path k
  stat : (s.stat path).isSome = true ↔ s.Stored path ∨ ∃ k, s.Below path k

end SwytchStore

open SwytchStore

/-! ## 3.  Patterns -/

section Patterns

variable [Glob]

/-- The bytes that are not themselves in a pattern, classes apart. -/
def IsMeta (b : UInt8) : Prop := b = 0x2a ∨ b = 0x3f ∨ b = 0x5c

theorem matchGlob_star (key : Bytes) : Glob.matchGlob [0x2a] key := by
  rw [Glob.star]
  exact ⟨[], nil_suffix, (Glob.nil []).mpr rfl⟩

theorem matchGlob_prefix_iff {text : Bytes} (h : ∀ b ∈ text, b ≠ 0x5b ∧ ¬IsMeta b) (key : Bytes) :
    Glob.matchGlob (text ++ [0x2a]) key ↔ text <+: key := by
  induction text generalizing key with
  | nil => simp [matchGlob_star]
  | cons b text ih =>
    obtain ⟨hb, htext⟩ := forall_mem_cons.mp h
    have hliteral : b ∉ [0x2a, 0x3f, 0x5b, 0x5c] := by
      simp only [IsMeta] at hb
      grind
    rw [cons_append, Glob.literal _ _ _ hliteral, cons_prefix_iff]
    simp only [ih htext]

/-- The pattern of a directory matches a text of at most its length with a slash at the end, and
not only itself if it has a metacharacter. -/
theorem exists_matchGlob : ∀ text : Bytes, 0x5b ∉ text →
    ∃ key, Glob.matchGlob (text ++ [0x2f, 0x2a]) key ∧ [0x2f] <:+ key ∧
      key.length ≤ text.length + 1 ∧ ((∃ b ∈ text, IsMeta b) → key ≠ text ++ [0x2f])
  | [], _ => by
    refine ⟨[0x2f], ?_, suffix_rfl, le_rfl, by simp⟩
    rw [nil_append, Glob.literal _ _ _ (by decide)]
    exact ⟨[], rfl, matchGlob_star []⟩
  | b :: text, h => by
    obtain ⟨hb, htext⟩ := not_or.mp (mt mem_cons.mpr h)
    obtain ⟨key, hkey, hslash, hlen, hne⟩ := exists_matchGlob text htext
    by_cases hm : IsMeta b
    · rcases hm with rfl | rfl | rfl
      · refine ⟨key, (Glob.star _ _).mpr ⟨key, suffix_rfl, hkey⟩, hslash, by simp; omega,
          fun _ heq => ?_⟩
        have := congrArg length heq
        simp at this
        omega
      · refine ⟨0x61 :: key, (Glob.any _ _).mpr ⟨_, _, rfl, hkey⟩,
          hslash.trans (suffix_cons _ _), by simpa using hlen, by simp⟩
      · cases text with
        | nil =>
          exact ⟨[0x2f], (Glob.escape _ _ _).mpr ⟨[], rfl, matchGlob_star []⟩,
            suffix_rfl, by simp, by simp⟩
        | cons c text =>
          -- the escaped byte stands for itself, so the backslash is missing
          obtain ⟨key, hkey, hslash, hlen, -⟩ :=
            exists_matchGlob text (mt (mem_cons_of_mem c) htext)
          refine ⟨c :: key, (Glob.escape _ _ _).mpr ⟨key, rfl, hkey⟩,
            hslash.trans (suffix_cons _ _), by simp; omega, fun _ heq => ?_⟩
          have := congrArg length heq
          simp at this
          omega
    · refine ⟨b :: key, (Glob.literal _ _ _ ?_).mpr ⟨key, rfl, hkey⟩,
        hslash.trans (suffix_cons _ _), by simpa using hlen, ?_⟩
      · simp only [IsMeta] at hm
        grind
      · simpa [hm] using hne

end Patterns

/-! ## 4.  Paths and patterns agree -/

section Paths

theorem collect_spec (segments out : List Bytes) (h : out.Nodup) :
    (segments.foldl collect out).Nodup ∧
      ∀ k, k ∈ segments.foldl collect out ↔ k ∈ out ∨ k ∈ segments := by
  induction segments generalizing out with
  | nil => simp [h]
  | cons full segments ih =>
    have hout : (collect out full).Nodup := by
      rw [collect]
      split
      · exact h
      · exact nodup_append.mpr ⟨h, nodup_singleton _, by grind⟩
    obtain ⟨hnd, hmem⟩ := ih _ hout
    refine ⟨hnd, fun k => ?_⟩
    rw [foldl_cons, collect]
    grind

variable {s : SwytchStore} {path : Bytes}

theorem not_slash_dataKey (hpath : path ≠ []) (hslash : ¬[0x2f] <:+ path) :
    ¬[0x2f] <:+ s.dataKey path := fun h =>
  hslash (suffix_of_suffix_length_le h (suffix_append _ _)
    (length_pos_iff.mpr hpath))

variable [Glob]

/-- The scan visits the data keys of what lies below the path. -/
theorem mem_scanKeys_iff (h : ∀ b ∈ s.dataKey path, b ≠ 0x5b ∧ ¬IsMeta b) (k : Bytes) :
    k ∈ s.scanKeys (s.dataKey path ++ [0x2f, 0x2a]) ↔ ∃ key, k = s.dataKey key ∧ s.Below path key := by
  have htext : ∀ b ∈ s.dataKey path ++ [0x2f], b ≠ 0x5b ∧ ¬IsMeta b := by
    intro b hb
    rcases mem_append.mp hb with hb | hb
    · exact h b hb
    · rw [mem_singleton.mp hb, IsMeta]
      decide
  have hsc := matchGlob_prefix_iff htext k
  rw [append_assoc, singleton_append] at hsc
  rw [scanKeys, mem_filter, hsc]
  constructor
  · rintro ⟨hl, rest, rfl⟩
    exact ⟨path ++ [0x2f] ++ rest, by simp [dataKey],
      by simpa [Stored, dataKey] using hl, prefix_append _ _⟩
  · rintro ⟨key, rfl, hl, rest, rfl⟩
    exact ⟨hl, rest, by simp [dataKey]⟩

variable (hpath : path ≠ []) (hslash : ¬[0x2f] <:+ path)

include hpath hslash

section

variable (h : ∀ b ∈ s.dataKey path, b ≠ 0x5b ∧ ¬IsMeta b)

include h

theorem listAll_spec : (s.listAll path).Nodup ∧ ∀ k, k ∈ s.listAll path ↔ s.Below path k := by
  rw [listAll, if_pos ⟨hpath, not_slash_dataKey hpath hslash⟩]
  constructor
  · refine ((s.nodup.filter _).filter _).map_on fun k hk k' hk' heq => ?_
    obtain ⟨rest, rfl⟩ := isPrefixOf_iff_prefix.mp (mem_filter.mp hk).2
    obtain ⟨rest', rfl⟩ := isPrefixOf_iff_prefix.mp (mem_filter.mp hk').2
    simpa using heq
  · intro k
    simp only [mem_map, mem_filter, mem_scanKeys_iff h]
    constructor
    · rintro ⟨_, ⟨⟨key, rfl, hkey⟩, -⟩, rfl⟩
      simpa [dataKey] using hkey
    · intro hk
      exact ⟨_, ⟨⟨k, rfl, hk⟩, by simp [dataKey]⟩, by simp [dataKey]⟩

theorem mem_list_direct_iff (k : Bytes) :
    k ∈ s.list path false ↔ ∃ rest, s.Below path (path ++ 0x2f :: rest) ∧
      k = path ++ 0x2f :: rest.takeWhile (· ≠ 0x2f) := by
  have hsegment : ∀ rest, firstSegment (path ++ [0x2f]) (path ++ 0x2f :: rest) =
      path ++ 0x2f :: rest.takeWhile (· ≠ 0x2f) := fun rest => by
    simp [firstSegment]
  rw [list, if_neg (by decide), if_pos ⟨hpath, hslash⟩, (collect_spec _ [] .nil).2]
  simp only [not_mem_nil, false_or, mem_map, (listAll_spec hpath hslash h).2]
  constructor
  · rintro ⟨_, ⟨hl, rest, rfl⟩, rfl⟩
    rw [append_assoc, singleton_append, hsegment]
    exact ⟨rest, ⟨by simpa using hl, rest, by simp⟩, rfl⟩
  · rintro ⟨rest, hbelow, rfl⟩
    exact ⟨_, hbelow, hsegment rest⟩

theorem denotesSubtree_of_literal : s.DenotesSubtree path := by
  obtain ⟨hnd, hmem⟩ := listAll_spec hpath hslash h
  have hdirectory : s.isDirectory path = true ↔ ∃ k, s.Below path k := by
    rw [isDirectory, decide_eq_true_iff, Ne, eq_nil_iff_forall_not_mem]
    simp only [mem_scanKeys_iff h, not_forall, not_not]
    exact ⟨fun ⟨_, key, _, hkey⟩ => ⟨key, hkey⟩, fun ⟨key, hkey⟩ => ⟨_, key, rfl, hkey⟩⟩
  have hn : s.listAll path = [] ↔ ∀ k, ¬s.Below path k := by
    simp only [eq_nil_iff_forall_not_mem, hmem]
  exact
    { recursive := by simpa [list] using hmem
      direct := mem_list_direct_iff hpath hslash h
      once := ⟨by simpa [list] using hnd, by
        exact (collect_spec _ [] .nil).1⟩
      fails := by
        simp [delete, Stored, hn]
      removes := fun live hl k => by
        simp only [delete] at hl
        grind
      exist := by
        rw [exist, Bool.or_eq_true, hdirectory, decide_eq_true_iff]
        rfl
      stat := by
        rw [Stored, stat]
        split <;> [split; skip] <;> simp_all }

end

end Paths

/-! ## 5.  A matcher -/

/-- A matcher without classes. -/
def globMatch : Bytes → Bytes → Bool
  | [], key => key.isEmpty
  | 0x5c :: b :: pattern, key => key.head? == some b && globMatch pattern key.tail
  | b :: pattern, key =>
    if b = 0x2a then key.tails.any (globMatch pattern ·)
    else (if b = 0x3f then !key.isEmpty else key.head? == some b) && globMatch pattern key.tail

instance globMatchGlob : Glob where
  matchGlob := globMatch
  nil := by simp [globMatch]
  star := by simp [globMatch]
  any := by
    rintro pattern (_ | ⟨b, key⟩) <;> simp [globMatch]
  escape := by
    rintro b pattern (_ | ⟨c, key⟩) <;> simp [globMatch]
  literal := by
    intro b pattern key hb
    simp only [List.mem_cons, not_or] at hb
    rw [globMatch.eq_3 _ _ _ (fun _ _ h => absurd h hb.2.2.2.1), if_neg hb.1, if_neg hb.2.1]
    cases key <;> simp

/-- The file `ab/x` and nothing else, under the prefix `c/`. -/
def oneFile : SwytchStore :=
  ⟨[0x63, 0x2f], [[0x63, 0x2f, 0x61, 0x62, 0x2f, 0x78]], fun _ => ⟨none, none⟩, by decide⟩

end Swytch.Caddy
