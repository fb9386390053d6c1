import Swytch.Lib.Paging
import Swytch.Redis.Registry

/-!
# `SCAN`

A client reads the keys of the database batch by batch: it starts with the cursor `0` and calls
`SCAN` with the cursor that it got until that is `0` again.  The server keeps nothing between the
calls.  A batch has the next `COUNT` keys, and the cursor is the last key of a full batch.

So the key `0` cannot be told from the end: if a batch is full and its last key is `0`, the client
stops there.  The empty key is not found at all, since the first batch starts after it.  `TYPE` is
parsed and not used.  The batch is allocated with room for `COUNT` keys before the keys are read,
and `make` panics if that is too many.

The matching of patterns and the largest capacity that `make` gives are parameters.
-/

namespace Swytch.Redis.KeyScan

open Paging
open Sql (Bytes utf8)

/-! ## 1.  The handler -/

/-- The keys of the engine in ascending order. -/
structure Keyspace where
  keys : List Bytes
  ascending : Paging.Ascending keys

/-- What the handler depends on: how patterns match keys, and the largest capacity that `make`
gives. -/
structure Env where
  matchGlob : Bytes → Bytes → Bool
  maxCap : ℕ

structure ScanOptions where
  pattern : Bytes := utf8 "*"
  count : ℕ := 10
  deriving DecidableEq

def notInteger : String := "ERR value is not an integer or out of range"

/-- The loop over the options.  `TYPE` is not implemented; it is passed over, as any other word
is, and an argument without a value too. -/
def parseScanOptions (opts : ScanOptions) : List Bytes → Except String ScanOptions
  | opt :: value :: rest =>
    if upper opt = utf8 "MATCH" then parseScanOptions { opts with pattern := value } rest
    else if upper opt = utf8 "COUNT" then
      match parseInt64 value with
      | none => .error notInteger
      | some c =>
        if c ≤ 0 then .error notInteger
        else parseScanOptions { opts with count := c.toNat } rest
    else parseScanOptions opts rest
  | _ => .ok opts

inductive ScanReply where
  | error (text : String)
  | panic
  | page (cursor : Bytes) (keys : List Bytes)
  deriving DecidableEq

variable (env : Env) (space : Keyspace)

/-- `ScanKeys`: the keys after this one that match. -/
def scanKeys (after pattern : Bytes) : List Bytes :=
  space.keys.filter fun key => compare after key == .lt && env.matchGlob pattern key

/-- The callback that fills the batch; it asks for more until the batch is full. -/
def collect (count : ℕ) (batch : List Bytes) : List Bytes → List Bytes
  | [] => batch
  | key :: keys =>
    if (batch ++ [key]).length < count then collect count (batch ++ [key]) keys
    else batch ++ [key]

/-- The key after which a batch starts. -/
def afterOf (cursor : Bytes) : Bytes := if cursor ≠ utf8 "0" then cursor else []

def handleScan (args : List Bytes) : ScanReply :=
  match args with
  | [] => .error "ERR wrong number of arguments for 'scan' command"
  | cursor :: rest =>
    match parseScanOptions {} rest with
    | .error text => .error text
    | .ok opts =>
      if env.maxCap < opts.count then .panic
      else
        let batch := collect opts.count [] (scanKeys env space (afterOf cursor) opts.pattern)
        let nextCursor :=
          if batch.length = opts.count then batch.getLastD (utf8 "0") else utf8 "0"
        .page nextCursor batch

/-! ## 2.  A whole iteration -/

/-- The keys that a client gets that starts with this cursor and goes on until it is `0`. -/
inductive Iterates (rest : List Bytes) : Bytes → List Bytes → Prop
  | last {cursor : Bytes} {batch : List Bytes} :
      handleScan env space (cursor :: rest) = .page (utf8 "0") batch → Iterates rest cursor batch
  | more {cursor next : Bytes} {batch returned : List Bytes} :
      handleScan env space (cursor :: rest) = .page next batch → next ≠ utf8 "0" →
      Iterates rest next returned → Iterates rest cursor (batch ++ returned)

section Iteration

variable {env : Env} {space : Keyspace} {opts : ScanOptions} {rest : List Bytes}

theorem parseScanOptions_count_pos {start : ScanOptions} (h0 : 0 < start.count)
    (h : parseScanOptions start rest = .ok opts) : 0 < opts.count := by
  fun_induction parseScanOptions start rest with
  | case1 start opt value rest hm ih => exact ih h0 h
  | case2 => cases h
  | case3 => cases h
  | case4 start opt value rest _ _ c _ hc ih => exact ih (by simp only; omega) h
  | case5 start opt value rest _ _ ih => exact ih h0 h
  | case6 start args _ =>
    cases h
    exact h0

/-- A batch is a prefix of what comes. -/
theorem collect_eq_take {count : ℕ} (keys batch : List Bytes) (h : batch.length < count) :
    collect count batch keys = batch ++ keys.take (count - batch.length) := by
  induction keys generalizing batch with
  | nil => simp [collect]
  | cons key keys ih =>
    have hstep : count - batch.length = (count - (batch ++ [key]).length) + 1 := by
      rw [List.length_append, List.length_singleton]
      omega
    unfold collect
    rw [hstep]
    by_cases hless : (batch ++ [key]).length < count
    · rw [if_pos hless, ih _ hless]
      simp
    · rw [if_neg hless, Nat.sub_eq_zero_of_le (not_lt.mp hless)]
      simp

theorem afterOf_of_ne {cursor : Bytes} (h : cursor ≠ utf8 "0") : afterOf cursor = cursor :=
  if_pos h

/-- The keys that match, in ascending order. -/
def matching (env : Env) (space : Keyspace) (pattern : Bytes) : List Bytes :=
  space.keys.filter fun key => env.matchGlob pattern key

theorem ascending_matching (pattern : Bytes) : Paging.Ascending (matching env space pattern) :=
  space.ascending.sublist List.filter_sublist

theorem scanKeys_eq_above (after pattern : Bytes) :
    scanKeys env space after pattern = above after (matching env space pattern) := by
  unfold scanKeys above matching
  rw [List.filter_filter]

section

variable (hopts : parseScanOptions {} rest = .ok opts)

include hopts

/-- A call gives a page and where to go on. -/
theorem handleScan_eq_page (hcap : opts.count ≤ env.maxCap) (cursor : Bytes) :
    handleScan env space (cursor :: rest) =
      .page
        (next opts.count (utf8 "0")
          (page (matching env space opts.pattern) opts.count (afterOf cursor)))
        (page (matching env space opts.pattern) opts.count (afterOf cursor)) := by
  have hbatch : collect opts.count [] (scanKeys env space (afterOf cursor) opts.pattern) =
      page (matching env space opts.pattern) opts.count (afterOf cursor) := by
    rw [collect_eq_take _ [] (parseScanOptions_count_pos (by decide) hopts), scanKeys_eq_above]
    rfl
  simp only [handleScan, hopts, if_neg (not_lt.mpr hcap), hbatch]
  rfl

theorem handleScan_eq_panic (hcap : env.maxCap < opts.count) (cursor : Bytes) :
    handleScan env space (cursor :: rest) = .panic := by
  simp only [handleScan, hopts, if_pos hcap]

/-- An iteration reads page after page. -/
theorem iterates_iff_pages (hcap : opts.count ≤ env.maxCap) {cursor : Bytes}
    {returned : List Bytes} :
    Iterates env space rest cursor returned ↔
      Paging.Pages (matching env space opts.pattern) opts.count (utf8 "0") (afterOf cursor)
        returned := by
  constructor
  · intro h
    induction h with
    | last hr =>
      rw [handleScan_eq_page hopts hcap] at hr
      obtain ⟨hnext, rfl⟩ := ScanReply.page.inj hr
      exact .last hnext
    | more hr hne _ ih =>
      rw [handleScan_eq_page hopts hcap] at hr
      obtain ⟨hnext, rfl⟩ := ScanReply.page.inj hr
      rw [afterOf_of_ne hne] at ih
      rw [← hnext] at hne ih
      exact .more hne ih
  · -- Every page comes from a call with its cursor.
    suffices h : ∀ after returned,
        Paging.Pages (matching env space opts.pattern) opts.count (utf8 "0") after returned →
        ∀ cursor, afterOf cursor = after → Iterates env space rest cursor returned from
      fun hpages => h _ _ hpages cursor rfl
    intro after returned h
    induction h with
    | last hnext =>
      rintro cursor rfl
      refine .last ?_
      rw [handleScan_eq_page hopts hcap, hnext]
    | more hne _ ih =>
      rintro cursor rfl
      exact .more (handleScan_eq_page hopts hcap cursor) hne (ih _ (afterOf_of_ne hne))

end

end Iteration

/-! ## 3.  Which keys are returned -/

/-- The type that `TYPE` asks for. -/
def typeFilter : List Bytes → Option Bytes
  | opt :: value :: rest =>
    (typeFilter rest).or (if upper opt = utf8 "TYPE" then some value else none)
  | _ => none

/-- The key matches the pattern and is of the type that is asked for. -/
def Wanted (hasType : Bytes → Bytes → Prop) (rest : List Bytes) (opts : ScanOptions)
    (key : Bytes) : Prop :=
  env.matchGlob opts.pattern key = true ∧ ∀ type ∈ typeFilter rest, hasType type key

/-- A full batch ends with the key `0`: it is there, and the number of keys up to it is a multiple
of the count. -/
def ZeroEnds (opts : ScanOptions) : Prop :=
  let visited := scanKeys env space [] opts.pattern
  utf8 "0" ∈ visited ∧ opts.count ∣ (visited.filter fun key => compare key (utf8 "0") != .gt).length

/-- The iteration gets to the key if it matches. -/
def Reached (opts : ScanOptions) (key : Bytes) : Prop :=
  key ≠ [] ∧ (ZeroEnds env space opts → compare key (utf8 "0") ≠ .gt)

section Completeness

variable {env : Env} {space : Keyspace} {opts : ScanOptions} {rest : List Bytes}
  {returned : List Bytes} {key : Bytes}

/-- The keys of an iteration, each of them once. -/
theorem iterates_zero_iff (hopts : parseScanOptions {} rest = .ok opts)
    (hcap : opts.count ≤ env.maxCap) :
    Iterates env space rest (utf8 "0") returned ↔
      returned = reads opts.count (utf8 "0") (scanKeys env space [] opts.pattern) := by
  have ha : afterOf (utf8 "0") = [] := by simp [afterOf]
  rw [iterates_iff_pages hopts hcap, ha, pages_iff
    (parseScanOptions_count_pos (by decide) hopts) (ascending_matching _), scanKeys_eq_above]

theorem mem_reads_scanKeys :
    key ∈ reads opts.count (utf8 "0") (scanKeys env space [] opts.pattern) ↔
      (key ∈ space.keys ∧ env.matchGlob opts.pattern key = true) ∧ Reached env space opts key := by
  have hvisited : key ∈ scanKeys env space [] opts.pattern ↔
      (key ∈ space.keys ∧ env.matchGlob opts.pattern key = true) ∧ key ≠ [] := by
    rw [show key ≠ [] ↔ compare [] key = .lt by cases key <;> simp]
    simp only [scanKeys, List.mem_filter, Bool.and_eq_true, beq_iff_eq]
    tauto
  rw [mem_reads, hvisited, and_assoc]
  rfl

theorem nodup_reads_scanKeys :
    (reads opts.count (utf8 "0") (scanKeys env space [] opts.pattern)).Nodup := by
  apply nodup_reads
  rw [scanKeys_eq_above]
  exact (ascending_above (ascending_matching _) _).nodup

theorem not_iterates_of_panic (hopts : parseScanOptions {} rest = .ok opts)
    (hcap : env.maxCap < opts.count) {cursor : Bytes} :
    ¬ Iterates env space rest cursor returned := by
  intro h
  cases h with
  | last hr | more hr =>
    rw [handleScan_eq_panic hopts hcap] at hr
    cases hr

end Completeness

/-- With options that are accepted, an iteration from the cursor `0` comes to its end and returns
every key that is wanted exactly once, if and only if there is room for a batch and all these keys
are reached.  If it is to return no other keys, those that are reached have to be of the type. -/
theorem scan_complete_iff (env : Env) (space : Keyspace) (hasType : Bytes → Bytes → Prop)
    {rest : List Bytes} {opts : ScanOptions} (hopts : parseScanOptions {} rest = .ok opts) :
    ((∃ returned, Iterates env space rest (utf8 "0") returned ∧
        ∀ key ∈ space.keys, Wanted env hasType rest opts key → returned.count key = 1) ↔
      opts.count ≤ env.maxCap ∧
        ∀ key ∈ space.keys, Wanted env hasType rest opts key → Reached env space opts key) ∧
    ((∃ returned, Iterates env space rest (utf8 "0") returned ∧
        (∀ key ∈ space.keys, Wanted env hasType rest opts key → returned.count key = 1) ∧
        ∀ key ∈ returned, key ∈ space.keys ∧ Wanted env hasType rest opts key) ↔
      opts.count ≤ env.maxCap ∧
        ∀ key ∈ space.keys, env.matchGlob opts.pattern key = true →
          (Reached env space opts key ↔ Wanted env hasType rest opts key)) := by
  by_cases hcap : opts.count ≤ env.maxCap
  · have honce : ∀ key ∈ space.keys, Wanted env hasType rest opts key →
        ((reads opts.count (utf8 "0") (scanKeys env space [] opts.pattern)).count key = 1 ↔
          Reached env space opts key) := by
      intro key hkey hwa
      constructor
      · intro hc
        have hmem := List.count_pos_iff.mp (hc ▸ Nat.one_pos)
        exact (mem_reads_scanKeys.mp hmem).2
      · intro hreached
        exact List.count_eq_one_of_mem nodup_reads_scanKeys
          (mem_reads_scanKeys.mpr ⟨⟨hkey, hwa.1⟩, hreached⟩)
    simp only [iterates_zero_iff hopts hcap, exists_eq_left, hcap, true_and]
    refine ⟨forall₂_congr fun key hkey => forall_congr' fun hwa => honce key hkey hwa, ?_⟩
    constructor
    · rintro ⟨hc, honly⟩ key hkey hm
      constructor
      · intro hreached
        exact (honly key (mem_reads_scanKeys.mpr ⟨⟨hkey, hm⟩, hreached⟩)).2
      · intro hwa
        exact (honce key hkey hwa).mp (hc key hkey hwa)
    · intro h
      refine ⟨fun key hkey hwa => ?_, fun key hkey => ?_⟩
      · exact (honce key hkey hwa).mpr ((h key hkey hwa.1).mpr hwa)
      · obtain ⟨⟨hks, hm⟩, hreached⟩ := mem_reads_scanKeys.mp hkey
        exact ⟨hks, (h key hks hm).mp hreached⟩
  · have hn : ∀ returned, ¬ Iterates env space rest (utf8 "0") returned :=
      fun _ => not_iterates_of_panic hopts (not_le.mp hcap)
    simp [hn, hcap]

section Samples

/-- Every key matches. -/
def sampleEnv : Env := ⟨fun _ _ => true, 2 ^ 44⟩

/-- The keys `a` and `b`. -/
def letters : Keyspace := ⟨[utf8 "a", utf8 "b"], by unfold Paging.Ascending; decide +kernel⟩

/-- The keys `0` and `a`. -/
def withZero : Keyspace := ⟨[utf8 "0", utf8 "a"], by unfold Paging.Ascending; decide +kernel⟩

theorem scan_letters_complete :
    ∃ returned, Iterates sampleEnv letters [utf8 "COUNT", utf8 "1"] (utf8 "0") returned ∧
      ∀ key ∈ letters.keys,
        Wanted sampleEnv (fun _ _ => True) [utf8 "COUNT", utf8 "1"] { count := 1 } key →
        returned.count key = 1 := by
  have hopts : parseScanOptions {} [utf8 "COUNT", utf8 "1"] = .ok { count := 1 } := by
    decide
  refine (scan_complete_iff sampleEnv letters (fun _ _ => True) hopts).1.mpr ⟨by decide, ?_⟩
  have hnonempty : ∀ key ∈ letters.keys, key ≠ [] := by decide
  have h0 : utf8 "0" ∉ letters.keys := by decide
  exact fun key hkey _ =>
    ⟨hnonempty key hkey, fun hends => absurd (List.mem_filter.mp hends.1).1 h0⟩

/-- With `COUNT 1` the client stops at the key `0` and does not get to `a`. -/
theorem scan_stops_at_zero :
    utf8 "a" ∈ withZero.keys ∧
      handleScan sampleEnv withZero [utf8 "0", utf8 "COUNT", utf8 "1"] =
        .page (utf8 "0") [utf8 "0"] ∧
      ¬ ∃ returned, Iterates sampleEnv withZero [utf8 "COUNT", utf8 "1"] (utf8 "0") returned ∧
        ∀ key ∈ withZero.keys, returned.count key = 1 := by
  have hmem : utf8 "a" ∈ withZero.keys := by decide
  have hr : handleScan sampleEnv withZero [utf8 "0", utf8 "COUNT", utf8 "1"] =
      .page (utf8 "0") [utf8 "0"] := by decide
  have hc : [utf8 "0"].count (utf8 "a") ≠ 1 := by decide
  refine ⟨hmem, hr, ?_⟩
  rintro ⟨returned, hiterates, honce⟩
  cases hiterates with
  | last h =>
    obtain ⟨-, rfl⟩ := ScanReply.page.inj (hr.symm.trans h)
    exact hc (honce _ hmem)
  | more h hne =>
    obtain ⟨hnext, -⟩ := ScanReply.page.inj (hr.symm.trans h)
    exact hne hnext.symm

end Samples

end Swytch.Redis.KeyScan
