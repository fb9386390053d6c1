import Swytch.Redis.ReadOnlyScripts

/-!
# `SORT`

What `SORT` looks up and what it returns, against the pattern and the options alone.

A pattern is cut at its arrow only after the element has been put in, so an arrow that the element
brings, or that forms where the two meet, moves the cut.  The comparator of `DESC` is the negation
of the ascending one: it puts equal elements before each other, and a sort that is stable for a
strict order then turns them around.
-/

namespace Swytch.Redis.ReadOnly

open List
open Sql (Bytes utf8)

/-! ## 1.  Patterns -/

/-- What a pattern asks for: the part before its arrow with the element for the star, and the field
that an arrow after the star names. -/
def requested (pattern element : Bytes) : Bytes × Option Bytes :=
  match cut (utf8 "*") pattern with
  | none => ((cut (utf8 "->") pattern).elim pattern Prod.fst, none)
  | some (before, after) =>
    let field := (cut (utf8 "->") after).map Prod.snd
    match cut (utf8 "->") before with
    | some (key, _) => (key, field)
    | none => (before ++ element ++ (cut (utf8 "->") after).elim after Prod.fst, field)

/-- The bytes in which an arrow would start before the part of the pattern after the star. -/
def substituted (pattern element : Bytes) : Bytes :=
  match cut (utf8 "*") pattern with
  | none => pattern
  | some (before, after) => before ++ element ++ after.take 1

variable {α : Type} {text front rest : Bytes}

theorem cut_length {sep : Bytes} {parts : Bytes × Bytes} (h : cut sep text = some parts) :
    text.length = parts.1.length + sep.length + parts.2.length := by
  induction text generalizing parts with
  | nil =>
    simp only [cut, Option.ite_none_right_eq_some] at h
    obtain ⟨rfl, ⟨⟩⟩ := h
    rfl
  | cons b text ih =>
    rw [cut] at h
    split at h
    · next hsep =>
      cases h
      have := ( isPrefixOf_iff_prefix.mp hsep).length_le
      simp only [length_nil, length_drop]
      omega
    · obtain ⟨parts, hcut, rfl⟩ := Option.map_eq_some_iff.mp h
      simp only [length_cons, ih hcut]
      omega

/-- An arrow that starts in `front` starts in it with at most one byte after it. -/
theorem arrow_prefix_iff {b : UInt8} :
    utf8 "->" <+: b :: (front ++ rest) ↔ utf8 "->" <+: b :: (front ++ rest.take 1) := by
  change [45, 62] <+: _ ↔ [45, 62] <+: _
  cases front <;> cases rest <;> simp [cons_prefix_cons]

theorem cut_append (h : ¬ utf8 "->" <:+: front ++ rest.take 1) :
    cut (utf8 "->") (front ++ rest) =
      (cut (utf8 "->") rest).map fun parts => (front ++ parts.1, parts.2) := by
  induction front with
  | nil => exact Option.map_id'.symm
  | cons b front ih =>
    rw [cons_append, infix_cons_iff, not_or, ← arrow_prefix_iff] at h
    rw [cons_append, cut, if_neg (mt isPrefixOf_iff_prefix.mp h.1), ih h.2, Option.map_map]
    rfl

theorem cut_arrow_inside (h : utf8 "->" <:+: front ++ rest.take 1) :
    ∃ parts, cut (utf8 "->") (front ++ rest) = some parts ∧ parts.1.length < front.length := by
  induction front with
  | nil => exact absurd (h.length_le.trans (length_take_le 1 rest)) (by decide)
  | cons b front ih =>
    rw [cons_append, cut]
    split
    · exact ⟨_, rfl, Nat.succ_pos _⟩
    · next hsep =>
      rw [ isPrefixOf_iff_prefix, arrow_prefix_iff] at hsep
      obtain ⟨parts, hcut, hlt⟩ := ih ((infix_cons_iff.mp h).resolve_left hsep)
      exact ⟨(b :: parts.1, parts.2), by rw [hcut]; rfl, Nat.succ_lt_succ hlt⟩

theorem cut_eq_none_iff : cut (utf8 "->") text = none ↔ ¬ utf8 "->" <:+: text := by
  constructor
  · intro hcut hin
    obtain ⟨parts, hs, -⟩ := @cut_arrow_inside text [] (by simpa using hin)
    rw [append_nil, hcut] at hs
    cases hs
  · intro h
    have hcut := @cut_append text [] (by simpa using h)
    rwa [append_nil] at hcut

/-- The lookup is the one that the pattern asks for exactly where no arrow starts in the pattern up
to the star or in the element. -/
theorem substitutePattern_eq_requested_iff (pattern element : Bytes) :
    substitutePattern pattern element = requested pattern element ↔
      ¬ utf8 "->" <:+: substituted pattern element := by
  unfold substitutePattern requested substituted
  cases hstar : cut (utf8 "*") pattern with
  | none =>
    simp only [← cut_eq_none_iff]
    cases cut (utf8 "->") pattern <;> simp
  | some parts =>
    obtain ⟨before, after⟩ := parts
    constructor
    · intro heq hin
      obtain ⟨parts, hcut, hlt⟩ := cut_arrow_inside hin
      have hlen := cut_length hcut
      simp only [hcut] at heq
      split at heq
      -- an arrow before the star: the field found is longer than what follows the star
      · obtain ⟨-, hfd⟩ := Prod.ext_iff.mp heq
        obtain ⟨found, hf, hsnd⟩ := Option.map_eq_some_iff.mp hfd.symm
        have := cut_length hf
        simp only [hsnd, length_append] at this hlen hlt
        omega
      · have := congrArg (fun target => target.1.length) heq
        simp only [length_append] at this hlt
        omega
    · intro hin
      have hb : cut (utf8 "->") before = none :=
        cut_eq_none_iff.mpr fun h => hin (infix_append_of_infix_left (infix_append_of_infix_left h))
      simp only [hb, cut_append hin]
      cases cut (utf8 "->") after <;> rfl

/-- The element `a->b` of `SORT s BY w_*` is looked up in the hash `w_a`. -/
theorem substitutePattern_arrow_in_element :
    substitutePattern (utf8 "w_*") (utf8 "a->b") = (utf8 "w_a", some (utf8 "b")) ∧
      requested (utf8 "w_*") (utf8 "a->b") = (utf8 "w_a->b", none) := by
  decide

/-! ## 2.  The window of a stable sort -/

/-- `sorted` has the elements of `items` in the order of `before`, and where that leaves the order of
two elements open in the order of `items`. -/
structure StablySorted {α : Type} (before : α → α → Bool) (items sorted : List α) : Prop where
  perm : sorted ~ items
  ordered : sorted.Pairwise fun a b => before b a = false
  stable : ∀ a, (sorted.filter fun b => !before a b && !before b a) =
    items.filter fun b => !before a b && !before b a

theorem insertionSort_stablySorted {before : α → α → Bool}
    (hasymm : ∀ a b, before a b → before b a = false)
    (htrans : ∀ a b c, before a b = false → before b c = false → before a c = false)
    (items : List α) :
    StablySorted before items (items.insertionSort fun a b => before b a = false) where
  perm := perm_insertionSort _ _
  ordered := by
    have : Std.Total fun a b => before b a = false :=
      ⟨fun a b => (Bool.eq_false_or_eq_true (before b a)).symm.imp_right (hasymm b a)⟩
    have : IsTrans α fun a b => before b a = false :=
      ⟨fun a b c hab hbc => htrans c b a hbc hab⟩
    exact pairwise_insertionSort _ _
  stable a := by
    set tie : α → Bool := fun b => !before a b && !before b a
    have hties : (items.filter tie).Pairwise fun b c => before c b = false := by
      refine pairwise_of_forall_mem_list fun b hb c hc => ?_
      simp only [tie, mem_filter, Bool.and_eq_true, Bool.not_eq_true'] at hb hc
      exact htrans c a b hc.2.2 hb.2.1
    have hsub := (sublist_insertionSort hties filter_sublist).filter tie
    rw [filter_filter] at hsub
    simp only [Bool.and_self] at hsub
    exact (hsub.eq_of_length ((perm_insertionSort _ _).filter tie).length_eq.symm).symm

theorem insertionSort_eq_reverse {r : α → α → Prop} [DecidableRel r] {items : List α}
    (h : ∀ a ∈ items, ∀ b ∈ items, ¬ r a b) : items.insertionSort r = items.reverse := by
  induction items with
  | nil => rfl
  | cons a items ih =>
    have hl : ∀ b ∈ items.reverse, decide ¬ r a b := fun b hb =>
      decide_eq_true (h a mem_cons_self b (mem_cons_of_mem a (mem_reverse.mp hb)))
    rw [insertionSort_cons, ih fun b hb c hc => h b (mem_cons_of_mem a hb) c (mem_cons_of_mem a hc),
      orderedInsert_eq_take_drop, takeWhile_eq_self_iff.mpr hl, dropWhile_eq_nil_iff.mpr hl,
      reverse_cons]

section Window

variable {W : Type} (env : Env W) (opts : SortOptions) (items : List (SortItem W))

/-- The weight of `a` is below the weight of `b`. -/
def below (a b : SortItem W) : Bool :=
  if opts.alpha then decide (a.strWeight < b.strWeight) else env.less a.weight b.weight

/-- The options ask for `a` before `b`. -/
def before (a b : SortItem W) : Bool :=
  if opts.desc then below env opts b a else below env opts a b

/-- What is assumed of the weights and of `sort.SliceStable`.  The sort asks its comparator about a
later element and an earlier one and puts the later one first where it holds; where the comparator
and its negation are transitive the answers fix the result. -/
structure Env.Lawful : Prop where
  less_irrefl : ∀ a, env.less a a = false
  less_trans : ∀ a b c, env.less a b → env.less b c → env.less a c
  not_less_trans : ∀ a b c, env.less a b = false → env.less b c = false → env.less a c = false
  sliceStable_eq : ∀ less : SortItem W → SortItem W → Bool,
    (∀ a b c, less a b → less b c → less a c) →
    (∀ a b c, less a b = false → less b c = false → less a c = false) →
    env.sliceStable less = insertionSort fun a b => less b a = false

omit env in
/-- The window of `LIMIT`: a negative offset is 0, a negative count is no bound. -/
def limitWindow : List (SortItem W) :=
  if opts.limit then
    let rest := items.drop opts.offset.toNat
    if opts.count < 0 then rest else rest.take opts.count.toNat
  else items

/-- What `handleSort` goes on with; `none` is an index out of range. -/
def sortWindow : Option (List (SortItem W)) :=
  let items := sortItems env opts items
  if opts.limit then applyLimit items opts.offset opts.count else some items

omit env in
theorem applyLimit_eq (hlim : opts.limit) (hoff : 0 ≤ opts.offset) :
    applyLimit items opts.offset opts.count = some (limitWindow opts items) := by
  rw [limitWindow, if_pos hlim, applyLimit]
  split
  · rw [drop_of_length_le (by omega)]
    simp
  · rw [if_neg (by omega)]
    simp only [Option.some.injEq]
    split <;> split
    · omega
    · rfl
    · rfl
    · exact (take_of_length_le (by omega)).symm

theorem sortWindow_eq (hoff : opts.limit → 0 ≤ opts.offset) :
    sortWindow env opts items = some (limitWindow opts (sortItems env opts items)) := by
  unfold sortWindow
  split
  · next hlim => exact applyLimit_eq opts _ hlim (hoff hlim)
  · next hlim => rw [limitWindow, if_neg hlim]

omit env in
theorem limitWindow_head? (hc : ¬ (opts.limit ∧ opts.count = 0)) :
    (limitWindow opts items).head? = items[if opts.limit then opts.offset.toNat else 0]? := by
  unfold limitWindow
  split
  · next hlim =>
    split
    · exact head?_drop
    · have : opts.count.toNat ≠ 0 := fun h => hc ⟨hlim, by omega⟩
      rw [head?_take, if_neg this, head?_drop]
  · exact head?_eq_getElem?

variable {env} (hlaw : env.Lawful)
include hlaw

theorem below_irrefl (a : SortItem W) : below env opts a a = false := by
  unfold below
  split
  · exact decide_eq_false (List.lt_irrefl _)
  · exact hlaw.less_irrefl _

theorem below_trans (a b c : SortItem W) :
    below env opts a b → below env opts b c → below env opts a c := by
  unfold below
  split
  · simpa using List.lt_trans
  · exact hlaw.less_trans _ _ _

theorem not_below_trans (a b c : SortItem W) :
    below env opts a b = false → below env opts b c = false → below env opts a c = false := by
  unfold below
  split
  · simpa using fun hab hbc => List.le_trans hbc hab
  · exact hlaw.not_less_trans _ _ _

theorem before_stablySorted :
    StablySorted (before env opts) items
      (items.insertionSort fun a b => before env opts b a = false) := by
  have hasymm : ∀ a b, below env opts a b → below env opts b a = false := fun a b hab =>
    Bool.eq_false_iff.mpr fun hba =>
      Bool.false_ne_true ((below_irrefl opts hlaw a).symm.trans (below_trans opts hlaw a b a hab hba))
  apply insertionSort_stablySorted
  · intro a b
    unfold before
    split
    · exact hasymm b a
    · exact hasymm a b
  · intro a b c hab hbc
    unfold before at *
    split_ifs at *
    · exact not_below_trans opts hlaw c b a hbc hab
    · exact not_below_trans opts hlaw a b c hab hbc

theorem sortItems_asc (hdesc : opts.desc = false) :
    sortItems env opts items = items.insertionSort fun a b => before env opts b a = false := by
  have hless : sortItems env opts items = env.sliceStable (below env opts) items := by
    simp only [sortItems, hdesc]
    rfl
  rw [hless, hlaw.sliceStable_eq _ (below_trans opts hlaw) (not_below_trans opts hlaw)]
  simp [before, hdesc]

theorem sortItems_desc (hdesc : opts.desc)
    (hties : ∀ a ∈ items, ∀ b ∈ items, below env opts a b = false) :
    sortItems env opts items = items.reverse := by
  have hless : sortItems env opts items = env.sliceStable (fun a b => !below env opts a b) items := by
    simp only [sortItems, hdesc]
    rfl
  rw [hless, hlaw.sliceStable_eq]
  · refine insertionSort_eq_reverse fun a ha b hb => ?_
    simp [hties b hb a ha]
  · simpa using not_below_trans opts hlaw
  · simpa using below_trans opts hlaw

end Window

/-- Weights that are all equal, under a sort that inserts the elements one by one. -/
def stableEnv : Env Unit :=
  { sampleEnv with sliceStable := fun less => insertionSort fun a b => less b a = false }

theorem stableEnv_lawful : stableEnv.Lawful where
  less_irrefl _ := rfl
  less_trans _ _ _ h := absurd h Bool.false_ne_true
  not_less_trans _ _ _ _ h := h
  sliceStable_eq _ _ _ := rfl

end Swytch.Redis.ReadOnly
