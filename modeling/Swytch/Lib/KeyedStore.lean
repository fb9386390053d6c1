import Mathlib

/-!
# Keyed stores

A two-level map: every key carries a finite map of fields.  The store is changed
by *writes* only, each of which touches one cell, that is one field of one key:
`put` sets the field and `drop` deletes it.  A key stays in the store once it was
written, also when its last field is gone.

Everything about a sequence of writes is read off one function: `assigned ws k f`
is the last thing that `ws` does to the cell `(k, f)`, and `cell_applyAll` says
that the cell then holds exactly that, or what it held before.
-/

namespace KeyedStore

open List
open Std

/-- One change of one cell. -/
inductive Write (κ φ ν : Type) where
  | put (k : κ) (f : φ) (v : ν)
  | drop (k : κ) (f : φ)
  deriving DecidableEq, Repr

variable {κ φ ν : Type}

namespace Write

def key : Write κ φ ν → κ
  | put k _ _ => k
  | drop k _ => k

def field : Write κ φ ν → φ
  | put _ f _ => f
  | drop _ f => f

/-- What the written cell holds afterwards. -/
def result : Write κ φ ν → Option ν
  | put _ _ v => some v
  | drop _ _ => none

end Write

/-- Fields set under one key. -/
def putAll (k : κ) (kvs : List (φ × ν)) : List (Write κ φ ν) := kvs.map fun p => .put k p.1 p.2

/-- Fields deleted under one key. -/
def dropAll (k : κ) (fs : List φ) : List (Write κ φ ν) := fs.map fun f => .drop k f

variable {k : κ} {w : Write κ φ ν} {kvs : List (φ × ν)} {ws : List (Write κ φ ν)} {f : φ}

theorem mem_putAll : w ∈ putAll k kvs ↔ ∃ p ∈ kvs, w = .put k p.1 p.2 := by
  simp [putAll, eq_comm]

theorem mem_dropAll {fs : List φ} : w ∈ dropAll k fs ↔ ∃ f ∈ fs, w = .drop k f := by
  simp [dropAll, eq_comm]

/-! ## What a sequence of writes does to one cell -/

section Assigned

variable [DecidableEq κ] [DecidableEq φ]

/-- The last thing a sequence of writes does to the cell `(k, f)`: nothing, set
it to a value, or delete it. -/
def assigned : List (Write κ φ ν) → κ → φ → Option (Option ν)
  | [], _, _ => none
  | w :: ws, k, f =>
    (assigned ws k f).or (if w.key = k ∧ w.field = f then some w.result else none)

@[simp] theorem assigned_nil (k : κ) (f : φ) :
    assigned ([] : List (Write κ φ ν)) k f = none := rfl

theorem assigned_cons (w : Write κ φ ν) (ws : List (Write κ φ ν)) (k : κ) (f : φ) :
    assigned (w :: ws) k f =
      (assigned ws k f).or (if w.key = k ∧ w.field = f then some w.result else none) := rfl

theorem assigned_append (ws vs : List (Write κ φ ν)) (k : κ) (f : φ) :
    assigned (ws ++ vs) k f = (assigned vs k f).or (assigned ws k f) := by
  induction ws with
  | nil => simp
  | cons w ws ih =>
    rw [cons_append, assigned_cons, assigned_cons, ih, Option.or_assoc]

theorem assigned_eq_none (h : ∀ w ∈ ws, w.key = k → w.field ≠ f) : assigned ws k f = none := by
  induction ws with
  | nil => rfl
  | cons w ws ih =>
    have hw : ¬ (w.key = k ∧ w.field = f) := fun hkf =>
      h w (mem_cons_self ..) hkf.1 hkf.2
    rw [assigned_cons, ih fun v hv => h v (mem_cons_of_mem _ hv), if_neg hw]
    rfl

/-- When all writes to a cell agree and there is one, the cell is assigned what
they say. -/
theorem assigned_eq_some {r : Option ν} (hex : ∃ w ∈ ws, w.key = k ∧ w.field = f)
    (hall : ∀ w ∈ ws, w.key = k → w.field = f → w.result = r) : assigned ws k f = some r := by
  induction ws with
  | nil => simp at hex
  | cons w ws ih =>
    rw [assigned_cons]
    by_cases hws : ∃ v ∈ ws, v.key = k ∧ v.field = f
    · rw [ih hws fun v hv => hall v (mem_cons_of_mem _ hv)]
      rfl
    · have hn : assigned ws k f = none :=
        assigned_eq_none fun v hv hk hf => hws ⟨v, hv, hk, hf⟩
      have hw : w.key = k ∧ w.field = f := by
        obtain ⟨v, hv, hkf⟩ := hex
        rcases mem_cons.mp hv with rfl | hv
        · exact hkf
        · exact absurd ⟨v, hv, hkf⟩ hws
      rw [hn, if_pos hw, hall w (mem_cons_self ..) hw.1 hw.2]
      rfl

theorem mem_of_assigned {v : ν} (h : assigned ws k f = some (some v)) : .put k f v ∈ ws := by
  induction ws with
  | nil => simp at h
  | cons w ws ih =>
    rw [assigned_cons] at h
    cases hr : assigned ws k f with
    | some r =>
      rw [hr] at h
      exact mem_cons_of_mem _ (ih (hr.trans h))
    | none =>
      rw [hr, Option.none_or, Option.ite_none_right_eq_some] at h
      obtain ⟨⟨rfl, rfl⟩, hres⟩ := h
      cases w with
      | put k f v' =>
        obtain rfl : v' = v := by simpa [Write.result] using hres
        exact mem_cons_self ..
      | drop k f => simp [Write.result] at hres

theorem assigned_putAll [BEq φ] [LawfulBEq φ] (k : κ) (h : (kvs.map Prod.fst).Nodup) (f : φ) :
    assigned (putAll k kvs) k f = (kvs.lookup f).map some := by
  induction kvs with
  | nil => rfl
  | cons p kvs ih =>
    obtain ⟨f₀, v₀⟩ := p
    rw [map_cons, nodup_cons] at h
    have ih' := ih h.2
    have hsp : putAll k ((f₀, v₀) :: kvs) = .put k f₀ v₀ :: putAll k kvs := rfl
    rw [hsp, assigned_cons, ih', lookup_cons]
    by_cases hf : f₀ = f
    · subst hf
      have hn : kvs.lookup f₀ = none := by
        rw [lookup_eq_none_iff]
        intro p hp
        rw [bne_iff_ne]
        rintro rfl
        exact h.1 (mem_map.mpr ⟨p, hp, rfl⟩)
      simp [hn, Write.key, Write.field, Write.result]
    · have hbeq : (f == f₀) = false := by simpa using Ne.symm hf
      simp [hbeq, hf, Write.field]

theorem assigned_dropAll (k : κ) (fs : List φ) (f : φ) :
    assigned (dropAll k fs : List (Write κ φ ν)) k f = if f ∈ fs then some none else none := by
  split
  · rename_i hf
    refine assigned_eq_some ⟨.drop k f, mem_dropAll.mpr ⟨f, hf, rfl⟩, rfl, rfl⟩ fun w hw _ _ => ?_
    obtain ⟨f', -, rfl⟩ := mem_dropAll.mp hw
    rfl
  · rename_i hf
    refine assigned_eq_none fun w hw _ hwf => hf ?_
    obtain ⟨f', hf', rfl⟩ := mem_dropAll.mp hw
    exact hwf ▸ hf'

end Assigned

/-! ## Stores -/

section Store

variable [Ord κ] [TransOrd κ] [Ord φ] [TransOrd φ]

abbrev Fields (φ ν : Type) [Ord φ] : Type := ExtTreeMap φ ν

/-- A store: every key that was ever written, with its fields. -/
abbrev Store (κ φ ν : Type) [Ord κ] [Ord φ] : Type := ExtTreeMap κ (Fields φ ν)

/-- The content of the cell `(k, f)`. -/
def cell (s : Store κ φ ν) (k : κ) (f : φ) : Option ν :=
  s[k]?.bind fun m => m[f]?

def apply (s : Store κ φ ν) : Write κ φ ν → Store κ φ ν
  | .put k f v => s.insert k ((s[k]?.getD ∅).insert f v)
  | .drop k f => s.insert k ((s[k]?.getD ∅).erase f)

/-- Writes, applied in order. -/
def applyAll (ws : List (Write κ φ ν)) (s : Store κ φ ν) : Store κ φ ν :=
  ws.foldl apply s

@[simp] theorem applyAll_nil (s : Store κ φ ν) : applyAll [] s = s := rfl

@[simp] theorem applyAll_cons (w : Write κ φ ν) (ws : List (Write κ φ ν))
    (s : Store κ φ ν) : applyAll (w :: ws) s = applyAll ws (apply s w) := rfl

theorem applyAll_append (ws vs : List (Write κ φ ν)) (s : Store κ φ ν) :
    applyAll (ws ++ vs) s = applyAll vs (applyAll ws s) :=
  foldl_append

variable {s : Store κ φ ν}

theorem cell_of_getElem? {m : Fields φ ν} (h : s[k]? = some m) (f : φ) : cell s k f = m[f]? := by
  rw [cell, h, Option.bind_some]

theorem cell_of_getElem?_eq_none (h : s[k]? = none) (f : φ) : cell s k f = none := by
  rw [cell, h, Option.bind_none]

variable [LawfulEqOrd κ]

theorem getElem?_apply_of_ne (s : Store κ φ ν) (h : w.key ≠ k) : (apply s w)[k]? = s[k]? := by
  cases w with
  | put k' f v | drop k' f =>
    rw [apply, ExtTreeMap.getElem?_insert, if_neg]
    rw [LawfulEqOrd.compare_eq_iff_eq]
    exact h

theorem getElem?_applyAll_of_forall_ne (h : ∀ w ∈ ws, w.key ≠ k) (s : Store κ φ ν) :
    (applyAll ws s)[k]? = s[k]? := by
  induction ws generalizing s with
  | nil => rfl
  | cons w ws ih =>
    rw [applyAll_cons, ih (fun v hv => h v (mem_cons_of_mem _ hv)),
      getElem?_apply_of_ne s (h w (mem_cons_self ..))]

theorem mem_applyAll_iff (ws : List (Write κ φ ν)) (s : Store κ φ ν) (k : κ) :
    k ∈ applyAll ws s ↔ k ∈ s ∨ ∃ w ∈ ws, w.key = k := by
  induction ws generalizing s with
  | nil => simp
  | cons w ws ih =>
    have hw : k ∈ apply s w ↔ k ∈ s ∨ w.key = k := by
      cases w <;>
        simp [apply, Write.key, or_comm]
    rw [applyAll_cons, ih, hw, exists_mem_cons_iff, or_assoc]

variable [DecidableEq κ] [LawfulEqOrd φ] [DecidableEq φ]

theorem cell_apply (s : Store κ φ ν) (w : Write κ φ ν) (k : κ) (f : φ) :
    cell (apply s w) k f = if w.key = k ∧ w.field = f then w.result else cell s k f := by
  by_cases hk : w.key = k
  · subst hk
    have hold : (s[w.key]?.getD ∅)[f]? = cell s w.key f := by
      cases hs : s[w.key]? <;> simp [cell, hs]
    cases w with
    | put k f' v =>
      have hc : cell (apply s (.put k f' v)) k f = ((s[k]?.getD ∅).insert f' v)[f]? := by
        rw [cell, apply, ExtTreeMap.getElem?_insert_self, Option.bind_some]
      simp only [Write.key, Write.field, Write.result] at hold ⊢
      simp [hc, ExtTreeMap.getElem?_insert, hold]
    | drop k f' =>
      have hc : cell (apply s (.drop k f')) k f = ((s[k]?.getD ∅).erase f')[f]? := by
        rw [cell, apply, ExtTreeMap.getElem?_insert_self, Option.bind_some]
      simp only [Write.key, Write.field, Write.result] at hold ⊢
      simp [hc, ExtTreeMap.getElem?_erase, hold]
  · rw [if_neg fun h => hk h.1, cell, getElem?_apply_of_ne s hk, cell]

/-- **Reading a cell after a sequence of writes**: the last write to it, or what
was there. -/
theorem cell_applyAll (ws : List (Write κ φ ν)) (s : Store κ φ ν) (k : κ) (f : φ) :
    cell (applyAll ws s) k f = (assigned ws k f).getD (cell s k f) := by
  induction ws generalizing s with
  | nil => rfl
  | cons w ws ih =>
    rw [applyAll_cons, ih, assigned_cons, cell_apply]
    cases assigned ws k f with
    | some r => rfl
    | none =>
      by_cases h : w.key = k ∧ w.field = f
      all_goals simp [h]

theorem mem_or_mem_of_cell_applyAll (h : (cell (applyAll ws s) k f).isSome = true) :
    k ∈ s ∨ ∃ v, .put k f v ∈ ws := by
  rw [cell_applyAll] at h
  cases hassigned : assigned ws k f with
  | none =>
    left
    rw [hassigned] at h
    by_contra hmem
    rw [cell_of_getElem?_eq_none (ExtTreeMap.getElem?_eq_none hmem)] at h
    cases h
  | some r =>
    rw [hassigned] at h
    obtain ⟨v, rfl⟩ := Option.isSome_iff_exists.mp h
    exact .inr ⟨v, mem_of_assigned hassigned⟩

end Store

end KeyedStore
