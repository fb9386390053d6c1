import Mathlib

/-!
# Ordered collections

A sequence whose elements have ids.  Elements are added at an end or next to the element with a
given id, and an element is changed or taken out by its id.  If no id occurs twice, each of these
acts at one place: an operation that names an id is the one on the sequence of values that names the
place of that id.
-/

namespace Swytch.OrderedCollection

open List

variable {ι α : Type*}

/-! ## 1.  The operations -/

def ids (l : List (ι × α)) : List ι := l.map Prod.fst

def values (l : List (ι × α)) : List α := l.map Prod.snd

@[simp] theorem values_nil : values ([] : List (ι × α)) = [] := rfl

@[simp] theorem values_cons (x : ι × α) (l : List (ι × α)) : values (x :: l) = x.2 :: values l := rfl

@[simp] theorem values_append (l r : List (ι × α)) : values (l ++ r) = values l ++ values r :=
  map_append

@[simp] theorem values_take (n : ℕ) (l : List (ι × α)) : values (l.take n) = (values l).take n :=
  map_take

@[simp] theorem values_drop (n : ℕ) (l : List (ι × α)) : values (l.drop n) = (values l).drop n :=
  map_drop

@[simp] theorem length_values (l : List (ι × α)) : (values l).length = l.length := length_map _

@[simp] theorem ids_append (l r : List (ι × α)) : ids (l ++ r) = ids l ++ ids r := map_append

variable {β : Type*} {value : α} {before after l : List (ι × α)} {id : ι} {gone : List ι}

section Operations

variable [DecidableEq ι]

def insertBefore (id : ι) (new : ι × α) : List (ι × α) → List (ι × α)
  | [] => []
  | x :: l => if x.1 = id then new :: x :: l else x :: insertBefore id new l

def insertAfter (id : ι) (new : ι × α) : List (ι × α) → List (ι × α)
  | [] => []
  | x :: l => if x.1 = id then x :: new :: l else x :: insertAfter id new l

/-- Another value for the element with this id. -/
def update (id : ι) (value : α) (l : List (ι × α)) : List (ι × α) :=
  l.map fun x => if x.1 = id then (id, value) else x

/-- The element with this id is taken out. -/
def remove (id : ι) (l : List (ι × α)) : List (ι × α) := l.filter fun x => x.1 ≠ id

/-! ## 2.  One place -/

/-- Where a new element goes if the one beside it is there once. -/
theorem insert_of_split {new : ι × α} (hfr : id ∉ ids before) :
    insertBefore id new (before ++ (id, value) :: after) = before ++ new :: (id, value) :: after ∧
      insertAfter id new (before ++ (id, value) :: after) =
        before ++ (id, value) :: new :: after := by
  induction before with
  | nil => simp [insertBefore, insertAfter]
  | cons x before ih =>
    obtain ⟨hx, hr⟩ : id ≠ x.1 ∧ id ∉ ids before := by simpa [ids] using hfr
    simp [insertBefore, insertAfter, if_neg (Ne.symm hx), ih hr]

theorem update_of_not_mem (h : id ∉ ids l) : update id value l = l := by
  induction l with
  | nil => rfl
  | cons x l ih =>
    obtain ⟨hx, hr⟩ : id ≠ x.1 ∧ id ∉ ids l := by simpa [ids] using h
    rw [update, map_cons, if_neg (Ne.symm hx)]
    exact congrArg (x :: ·) (ih hr)

theorem update_of_split {old : α} (hb : id ∉ ids before) (ha : id ∉ ids after) :
    update id value (before ++ (id, old) :: after) = before ++ (id, value) :: after := by
  have hone : update id value (before ++ (id, old) :: after) =
      update id value before ++ (id, value) :: update id value after := by
    simp [update]
  rw [hone, update_of_not_mem hb, update_of_not_mem ha]

omit [DecidableEq ι] in
theorem not_mem_of_nodup (h : (ids (before ++ (id, value) :: after)).Nodup) :
    id ∉ ids before ∧ id ∉ ids after := by
  rw [ids_append, nodup_append] at h
  obtain ⟨-, ha, hdisjoint⟩ := h
  refine ⟨fun hid => hdisjoint id hid id mem_cons_self rfl, ?_⟩
  exact (nodup_cons.mp ha).1

/-- An element is changed at its place. -/
theorem values_update {old : α} {i : ℕ} (h : (ids l).Nodup) (hi : l[i]? = some (id, old)) :
    values (update id value l) = (values l).set i value := by
  obtain ⟨hlt, hget⟩ := List.getElem?_eq_some_iff.mp hi
  have hsp : l = l.take i ++ (id, old) :: l.drop (i + 1) := by
    rw [← hget, List.getElem_cons_drop, List.take_append_drop]
  have hlen : (values (l.take i)).length = i := by
    rw [length_values, List.length_take, Nat.min_eq_left hlt.le]
  rw [hsp] at h
  obtain ⟨hb, ha⟩ := not_mem_of_nodup h
  have hset : (values (l.take i) ++ old :: values (l.drop (i + 1))).set i value =
      values (l.take i) ++ value :: values (l.drop (i + 1)) := by
    rw [List.set_append_right _ _ hlen.le, hlen, Nat.sub_self, List.set_cons_zero]
  rw [hsp, update_of_split hb ha, values_append, values_append, values_cons,
    values_cons, hset]

/-! ## 3.  Many places -/

/-- The elements with these ids are taken out, one after the other. -/
def removeAll (gone : List ι) (l : List (ι × α)) : List (ι × α) :=
  gone.foldl (fun l id => remove id l) l

theorem removeAll_eq_filter (gone : List ι) (l : List (ι × α)) :
    removeAll gone l = l.filter fun x => x.1 ∉ gone := by
  induction gone generalizing l with
  | nil => simp [removeAll]
  | cons id gone ih =>
    show removeAll gone (remove id l) = _
    rw [ih, remove, filter_filter]
    apply filter_congr
    simp [Bool.and_comm]

/-- The order does not matter. -/
theorem removeAll_congr {gone' : List ι} (h : ∀ id, id ∈ gone ↔ id ∈ gone') (l : List (ι × α)) :
    removeAll gone l = removeAll gone' l := by
  rw [removeAll_eq_filter, removeAll_eq_filter]
  apply filter_congr
  intro x _
  simp only [h]

theorem filter_not_mem_self (l : List (ι × α)) : (l.filter fun x => x.1 ∉ ids l) = [] := by
  apply filter_eq_nil_iff.mpr
  intro x hx
  have hmem : x.1 ∈ ids l := mem_map_of_mem hx
  simpa using hmem

theorem filter_not_mem_of_disjoint (h : ∀ id ∈ ids l, id ∉ gone) :
    (l.filter fun x => x.1 ∉ gone) = l := by
  apply filter_eq_self.mpr
  intro x hx
  simpa using h x.1 (mem_map_of_mem hx)

/-- What is taken out at the front. -/
theorem removeAll_front {front rest : List (ι × α)} (h : (ids (front ++ rest)).Nodup) :
    removeAll (ids front) (front ++ rest) = rest := by
  rw [ids_append, nodup_append] at h
  rw [removeAll_eq_filter, filter_append, filter_not_mem_self]
  exact filter_not_mem_of_disjoint fun id hid hg => h.2.2 id hg id hid rfl

/-- What is taken out at the back. -/
theorem removeAll_back {rest back : List (ι × α)} (h : (ids (rest ++ back)).Nodup) :
    removeAll (ids back) (rest ++ back) = rest := by
  rw [ids_append, nodup_append] at h
  rw [removeAll_eq_filter, filter_append, filter_not_mem_self, append_nil]
  exact filter_not_mem_of_disjoint fun id hid hg => h.2.2 id hid id hg rfl

end Operations

/-- The elements at the places that satisfy a condition. -/
def atPlaces {β : Type*} (p : ℕ → Bool) (l : List β) : List β :=
  (l.zipIdx.filter fun x => p x.2).map Prod.fst

theorem values_atPlaces (p : ℕ → Bool) (l : List (ι × α)) :
    values (atPlaces p l) = atPlaces p (values l) := by
  rw [atPlaces, atPlaces, values, values, zipIdx_map, filter_map, map_map,
    map_map]
  rfl

theorem atPlaces_congr {p q : ℕ → Bool} {l : List β} (h : ∀ i < l.length, p i = q i) :
    atPlaces p l = atPlaces q l := by
  apply congrArg (map Prod.fst)
  apply filter_congr
  rintro ⟨x, i⟩ hx
  have hlt := (mem_zipIdx hx).2.1
  rw [Nat.zero_add] at hlt
  exact h i hlt

theorem atPlaces_between (lo hi : ℕ) (l : List β) :
    atPlaces (fun i => decide (lo ≤ i ∧ i ≤ hi)) l = (l.drop lo).take (hi + 1 - lo) := by
  have hgeneral : ∀ (l : List β) (k : ℕ),
      (((l.zipIdx k).filter fun x => decide (lo ≤ x.2 ∧ x.2 ≤ hi)).map Prod.fst) =
        (l.drop (lo - k)).take (hi + 1 - max lo k) := by
    intro l
    induction l with
    | nil => simp
    | cons x l ih =>
      intro k
      rw [zipIdx_cons]
      by_cases hlo : lo ≤ k
      · have hd : lo - (k + 1) = 0 := by omega
        have h0 : lo - k = 0 := by omega
        by_cases hhi : k ≤ hi
        · have ht : hi + 1 - max lo k = (hi + 1 - max lo (k + 1)) + 1 := by omega
          rw [filter_cons_of_pos (by simp [hlo, hhi]), map_cons, ih, hd, h0, ht]
          rfl
        · have hn : hi + 1 - max lo k = 0 := by omega
          have hnone' : hi + 1 - max lo (k + 1) = 0 := by omega
          rw [filter_cons_of_neg (by simp [hhi]), ih, hn, hnone', take_zero,
            take_zero]
      · have hd : lo - k = (lo - (k + 1)) + 1 := by omega
        have hmax : max lo (k + 1) = max lo k := by omega
        rw [filter_cons_of_neg (by simp [hlo]), ih, hd, hmax, drop_succ_cons]
  have h := hgeneral l 0
  rwa [Nat.sub_zero, Nat.max_zero] at h

theorem removeAll_atPlaces [DecidableEq ι] (h : (ids l).Nodup) (p : ℕ → Bool) :
    removeAll (ids (atPlaces p l)) l = atPlaces (fun i => !p i) l := by
  have hzip : l = l.zipIdx.map Prod.fst := by simp
  have hg : ∀ x ∈ l.zipIdx, x.1.1 ∈ ids (atPlaces p l) ↔ p x.2 = true := by
    rintro ⟨x, i⟩ hx
    constructor
    · intro hmem
      obtain ⟨y, hy, hid⟩ := List.mem_map.mp hmem
      obtain ⟨⟨z, j⟩, hz, rfl⟩ := List.mem_map.mp hy
      obtain ⟨hz, hp⟩ := List.mem_filter.mp hz
      -- both elements have the same id, so they stand at the same place
      have hi : (ids l)[i]? = some x.1 := by
        rw [ids, List.getElem?_map, List.mem_zipIdx_iff_getElem?.mp hx, Option.map_some]
      have hj : (ids l)[j]? = some x.1 := by
        rw [ids, List.getElem?_map, List.mem_zipIdx_iff_getElem?.mp hz, Option.map_some, hid]
      have hsame : j = i := by
        obtain ⟨hlt, -⟩ := List.getElem?_eq_some_iff.mp hj
        exact (List.getElem?_inj hlt h).mp (hj.trans hi.symm)
      rw [← hsame]
      exact hp
    · intro hp
      exact List.mem_map.mpr ⟨x, List.mem_map.mpr ⟨(x, i), List.mem_filter.mpr ⟨hx, hp⟩, rfl⟩, rfl⟩
  have hfilter : ∀ q : ι × α → Bool,
      l.filter q = (l.zipIdx.filter fun x => q x.1).map Prod.fst := by
    intro q
    conv_lhs => rw [hzip]
    rw [List.filter_map]
    rfl
  rw [removeAll_eq_filter, hfilter]
  apply congrArg (List.map Prod.fst)
  apply List.filter_congr
  intro x hx
  simp only [hg x hx]
  cases p x.2 with
  | false | true => rfl

/-! ## 4.  Ids -/

theorem ids_update [DecidableEq ι] (id : ι) (value : α) (l : List (ι × α)) :
    ids (update id value l) = ids l := by
  rw [ids, update, map_map]
  apply map_congr_left
  intro x _
  rw [Function.comp_apply]
  split
  · rename_i hid
    exact hid.symm
  · rfl

theorem ids_removeAll_sublist [DecidableEq ι] (gone : List ι) (l : List (ι × α)) :
    (ids (removeAll gone l)).Sublist (ids l) := by
  rw [removeAll_eq_filter]
  exact filter_sublist.map Prod.fst

end Swytch.OrderedCollection
