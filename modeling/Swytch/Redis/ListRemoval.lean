import Swytch.Redis.ListRefinement

/-!
# `LREM`

The handler walks the list from the end that the sign of the count names and stops when it has as
many matches as the count asks for.  From the tail it compares with the negated count, and the least
`int64` is its own negation: every number of matches is enough for it.
-/

namespace Swytch.Redis.Lists

open List hiding removeAll
open Sql (Bytes)
open OrderedCollection
open Reference (writes)

variable {element : Bytes}

/-! ## 1.  Some of the matches -/

def matching (element : Bytes) (elements : List (ℕ × Bytes)) : List (ℕ × Bytes) :=
  elements.filter fun x => x.2 = element

variable {elements : List (ℕ × Bytes)}

theorem length_matching : (matching element elements).length = (values elements).count element := by
  rw [count, values, countP_map, countP_eq_length_filter]
  exact congrArg length (filter_congr fun x _ => (beq_eq_decide x.2 element).symm)

/-- The sequence without the first matches, as many as `n`. -/
def removeFirst (element : Bytes) : ℕ → List Bytes → List Bytes
  | 0, l => l
  | _ + 1, [] => []
  | n + 1, x :: l =>
    if x = element then removeFirst element n l else x :: removeFirst element (n + 1) l

/-- Where the ids are distinct, the first matches are what their ids take out. -/
theorem removeAll_matching {n : ℕ} (h : (ids elements).Nodup) :
    values (removeAll (ids ((matching element elements).take n)) elements) =
      removeFirst element n (values elements) := by
  induction elements generalizing n with
  | nil => cases n <;> rfl
  | cons x elements ih =>
    obtain ⟨hx, hr⟩ := nodup_cons.mp h
    cases n with
    | zero => rfl
    | succ n =>
      rw [matching, filter_cons, values_cons, removeFirst]
      by_cases hm : x.2 = element
      · rw [if_pos (decide_eq_true hm), if_pos hm, ← ih hr]
        show values (removeAll _ (removeAll (ids [x]) ([x] ++ elements))) = _
        rw [removeAll_front h]
        rfl
      · have hkeep : x.1 ∉ ids ((matching element elements).take (n + 1)) := fun hmem =>
          hx ((((take_sublist _ _).trans filter_sublist).map _).subset hmem)
        rw [if_neg (by simpa using hm), if_neg hm, ← ih hr, removeAll_eq_filter,
          removeAll_eq_filter]
        exact congrArg values (filter_cons_of_pos (decide_eq_true hkeep))

/-! ## 2.  The handler -/

/-- The loops of `handleLRem` that stop: the matches up to the bound. -/
def collectMatches (element : Bytes) (bound : ℤ) :
    List (ℕ × Bytes) → List (ℕ × Bytes) → List (ℕ × Bytes)
  | [], toRemove => toRemove
  | elem :: elements, toRemove =>
    if elem.2 = element then
      let toRemove := toRemove ++ [elem]
      if (toRemove.length : ℤ) ≥ bound then toRemove
      else collectMatches element bound elements toRemove
    else collectMatches element bound elements toRemove

/-- The elements that `handleLRem` removes. -/
def toRemove (count : Int64) (element : Bytes) (elements : List (ℕ × Bytes)) : List (ℕ × Bytes) :=
  if count.toInt > 0 then collectMatches element count.toInt elements []
  else if count.toInt < 0 then collectMatches element (-count).toInt elements.reverse []
  else matching element elements

def handleLRem (key : Bytes) (count : Int64) (element : Bytes) (s : ListStore) :
    ListReply × ListStore :=
  match getListSnapshot s key with
  | .absent => (.integer 0, s)
  | .wrongType => (wrongType, s)
  | .found snap =>
    let toRemove := toRemove count element snap.orderedElements
    if toRemove.length = 0 then (.integer 0, s)
    else (.integer toRemove.length, removeElements key toRemove s)

/-- How many of so many matches `LREM` removes. -/
def Reference.removed (count : ℤ) (found : ℕ) : ℕ :=
  if count = 0 then found else min count.natAbs found

/-- `LREM` on sequences: a negative count removes the last matches. -/
def Reference.lrem (count : ℤ) (element : Bytes) (l : List Bytes) : ListReply × List Bytes :=
  let n := removed count (l.count element)
  (.integer n, if count < 0 then (removeFirst element n l.reverse).reverse
    else removeFirst element n l)

theorem collectMatches_eq {bound : ℤ} {toRemove : List (ℕ × Bytes)}
    (h : toRemove.length < max 1 bound) :
    collectMatches element bound elements toRemove = toRemove ++
      (matching element elements).take ((max 1 bound).toNat - toRemove.length) := by
  unfold matching
  fun_induction collectMatches element bound elements toRemove with
  | case1 => simp
  | case2 elem elements toRemove hm found hbd =>
    have hl : (max 1 bound).toNat - toRemove.length = 1 := by
      simp only [found, length_append, length_singleton] at hbd
      omega
    rw [hl, filter_cons_of_pos (by simpa using hm), take_succ_cons, take_zero]
  | case3 elem elements toRemove hm found hbd ih =>
    simp only [found, length_append, length_singleton] at hbd ih
    rw [ih (by omega), append_assoc, filter_cons_of_pos (by simpa using hm), singleton_append,
      ← take_succ_cons]
    congr 2
    omega
  | case4 elem elements toRemove hm ih =>
    rw [ih h, filter_cons_of_neg (by simpa using hm)]

/-- The count that the handler acts on: its loop stops at the first match at the earliest. -/
def effective (count : Int64) : ℤ :=
  if count.toInt < 0 then -max 1 (-count).toInt else count.toInt

theorem effective_of_ne {count : Int64} (h : count ≠ Int64.minValue) :
    effective count = count.toInt := by
  unfold effective
  split
  · have hlow := count.le_toInt
    have hne : count.toInt ≠ -2 ^ 63 := fun heq => h (Int64.toInt_inj.mp heq)
    rw [Int64.toInt_neg, Int.bmod_eq_of_le (by omega) (by omega)]
    omega
  · rfl

/-- The handler removes the matches that it should, in the order in which it walks. -/
theorem toRemove_eq (count : Int64) (elements : List (ℕ × Bytes)) :
    toRemove count element elements =
      (matching element (if effective count < 0 then elements.reverse else elements)).take
        (Reference.removed (effective count) ((values elements).count element)) := by
  have hreverse : (values elements.reverse).count element = (values elements).count element := by
    rw [values, map_reverse, count_reverse, values]
  unfold toRemove Reference.removed
  rcases lt_trichotomy count.toInt 0 with hneg | h0 | hpos
  · have heff : effective count = -max 1 (-count).toInt := if_pos hneg
    rw [if_neg (by omega), if_pos hneg, collectMatches_eq (by simp),
      if_pos (show effective count < 0 by omega), if_neg (by omega), nil_append,
      take_eq_take_min, length_matching, hreverse, length_nil, heff]
    congr 2
    omega
  · have heff : effective count = 0 := (if_neg (by omega)).trans h0
    rw [heff, h0, if_neg (lt_irrefl _), if_neg (lt_irrefl _), if_neg (lt_irrefl _),
      if_pos rfl, ← length_matching, take_length]
  · have heff : effective count = count.toInt := if_neg (by omega)
    rw [heff, if_pos hpos, collectMatches_eq (by simp), if_neg (not_lt.mpr hpos.le),
      if_neg hpos.ne', nil_append, take_eq_take_min, length_matching, length_nil]
    congr 2
    omega

theorem lrem_eq (count : Int64) (h : (ids elements).Nodup) :
    Reference.lrem (effective count) element (values elements) =
      (.integer (toRemove count element elements).length,
        values (removeAll (ids (toRemove count element elements)) elements)) := by
  have hle : ∀ found, Reference.removed (effective count) found ≤ found := by
    unfold Reference.removed
    split <;> omega
  have hreverse : values elements.reverse = (values elements).reverse := map_reverse
  rw [toRemove_eq, Reference.lrem]
  split
  · have hnd : (ids elements.reverse).Nodup := by
      rw [ids, map_reverse]
      exact nodup_reverse.mpr h
    have hg : ∀ gone, values (removeAll gone elements) =
        (values (removeAll gone elements.reverse)).reverse := by
      intro gone
      rw [removeAll_eq_filter, removeAll_eq_filter, filter_reverse, values, values, map_reverse,
        reverse_reverse]
    rw [hg, removeAll_matching hnd, length_take, length_matching, hreverse, count_reverse,
      min_eq_left (hle _)]
  · rw [removeAll_matching h, length_take, length_matching, min_eq_left (hle _)]

section Run

variable {s : ListStore} (h : WellFormed s) (key : Bytes) (count : Int64) (element : Bytes)
include h

/-- `LREM` acts as it should for another count than the least, and for that one as for `-1`. -/
theorem handleLRem_simulates :
    Simulates (handleLRem key count element s)
      (writes key (Reference.lrem (effective count) element) (contents s)) := by
  apply simulates_writes h
  · intro hc
    rw [← values_nil, @lrem_eq element [] count nodup_nil, toRemove_eq,
      reverse_nil, ite_self, matching, filter_nil, take_nil]
    exact ⟨rfl, .refl h hc⟩
  · intro snap hkey hl hne hc
    rw [lrem_eq count hl.nodup]
    dsimp only
    split
    · next hnil =>
      rw [eq_nil_of_length_eq_zero hnil]
      exact ⟨rfl, .refl h hc⟩
    · exact ⟨rfl, stores_remove h hkey hl _⟩

end Run

end Swytch.Redis.Lists
