import Mathlib

/-!
# Registries

Definitions kept under their names, next to a list of the names in use.  The two are
written by separate writes, so that they agree is an invariant of the operations, not part
of the structure: `Sound` says that exactly the listed names have a definition.

* `put` and `remove` write both sides and keep a sound registry sound;
* `modify` rewrites a definition in place and does not touch the list;
* `removeAll` and `modifyEach` do one of these for every name of a list, and are read off
  per name (`entry_removeAll`, `entry_modifyEach`).
-/

/-- Definitions by name, and the list of names. -/
@[ext] structure Registry (κ α : Type) where
  entry : κ → Option α
  listed : κ → Bool

namespace Registry

variable {κ α ι : Type} [DecidableEq κ] (r : Registry κ α)

/-- A definition set and its name listed. -/
def put (n : κ) (a : α) : Registry κ α :=
  ⟨Function.update r.entry n (some a), Function.update r.listed n true⟩

/-- A definition removed and its name with it. -/
def remove (n : κ) : Registry κ α :=
  ⟨Function.update r.entry n none, Function.update r.listed n false⟩

/-- A definition rewritten in place. -/
def modify (n : κ) (g : α → α) : Registry κ α :=
  ⟨Function.update r.entry n ((r.entry n).map g), r.listed⟩

/-- Several names removed. -/
def removeAll (ns : List κ) : Registry κ α := ns.foldl remove r

/-- For every item of a list, the definition under its name rewritten. -/
def modifyEach (name : ι → κ) (g : ι → α → α) (l : List ι) : Registry κ α :=
  l.foldl (fun r i => r.modify (name i) (g i)) r

@[simp] theorem entry_put (n m : κ) (a : α) :
    (r.put n a).entry m = if m = n then some a else r.entry m := by
  simp [put, Function.update_apply]

@[simp] theorem listed_put (n m : κ) (a : α) :
    (r.put n a).listed m = if m = n then true else r.listed m := by
  simp [put, Function.update_apply]

@[simp] theorem entry_remove (n m : κ) :
    (r.remove n).entry m = if m = n then none else r.entry m := by
  simp [remove, Function.update_apply]

@[simp] theorem listed_remove (n m : κ) :
    (r.remove n).listed m = if m = n then false else r.listed m := by
  simp [remove, Function.update_apply]

@[simp] theorem entry_modify (n m : κ) (g : α → α) :
    (r.modify n g).entry m = if m = n then (r.entry m).map g else r.entry m := by
  show Function.update r.entry n ((r.entry n).map g) m = _
  rw [Function.update_apply]
  split
  · rename_i h
    rw [h]
  · rfl

@[simp] theorem listed_modify (n : κ) (g : α → α) : (r.modify n g).listed = r.listed := rfl

theorem remove_put_of_ne {n m : κ} (h : m ≠ n) (a : α) :
    (r.put n a).remove m = (r.remove m).put n a := by
  simp [put, remove, Function.update_comm h]

@[simp] theorem removeAll_nil : r.removeAll [] = r := rfl

@[simp] theorem removeAll_cons (n : κ) (ns : List κ) :
    r.removeAll (n :: ns) = (r.remove n).removeAll ns := rfl

@[simp] theorem modifyEach_cons (name : ι → κ) (g : ι → α → α) (i : ι) (l : List ι) :
    r.modifyEach name g (i :: l) = (r.modify (name i) (g i)).modifyEach name g l := rfl

theorem entry_removeAll (ns : List κ) (m : κ) :
    (r.removeAll ns).entry m = if m ∈ ns then none else r.entry m := by
  induction ns generalizing r with
  | nil => simp
  | cons n ns ih =>
    rw [removeAll_cons, ih]
    by_cases hns : m ∈ ns
    · simp [hns]
    · by_cases hn : m = n
      · simp [hn]
      · simp [hn]

theorem entry_modifyEach_of_notMem {name : ι → κ} (g : ι → α → α) {l : List ι} {m : κ}
    (h : m ∉ l.map name) : (r.modifyEach name g l).entry m = r.entry m := by
  induction l generalizing r with
  | nil => rfl
  | cons i l ih =>
    rw [List.map_cons, List.mem_cons, not_or] at h
    rw [modifyEach_cons, ih _ h.2, entry_modify, if_neg h.1]

/-- With distinct names every item rewrites its own definition. -/
theorem entry_modifyEach {name : ι → κ} (g : ι → α → α) {l : List ι} (hnd : (l.map name).Nodup)
    {i : ι} (hi : i ∈ l) : (r.modifyEach name g l).entry (name i) = (r.entry (name i)).map (g i) := by
  induction l generalizing r with
  | nil => cases hi
  | cons j l ih =>
    rw [List.map_cons, List.nodup_cons] at hnd
    rw [modifyEach_cons]
    rcases List.mem_cons.mp hi with rfl | hi
    · rw [entry_modifyEach_of_notMem _ g hnd.1, entry_modify, if_pos rfl]
    · have hne : name i ≠ name j := by
        intro h
        exact hnd.1 (h ▸ List.mem_map_of_mem hi)
      rw [ih _ hnd.2 hi, entry_modify, if_neg hne]

/-! ## Soundness -/

/-- Exactly the listed names have a definition. -/
def Sound (r : Registry κ α) : Prop := ∀ n, r.listed n = (r.entry n).isSome

variable {r}

theorem Sound.put (h : r.Sound) (n : κ) (a : α) : (r.put n a).Sound := by
  intro m
  rw [listed_put, entry_put]
  split
  · rfl
  · exact h m

theorem Sound.remove (h : r.Sound) (n : κ) : (r.remove n).Sound := by
  intro m
  rw [listed_remove, entry_remove]
  split
  · rfl
  · exact h m

theorem Sound.removeAll (h : r.Sound) (ns : List κ) : (r.removeAll ns).Sound := by
  induction ns generalizing r with
  | nil => exact h
  | cons n ns ih => exact ih (h.remove n)

theorem Sound.modify (h : r.Sound) (n : κ) (g : α → α) : (r.modify n g).Sound := by
  intro m
  rw [entry_modify]
  split
  · rw [Option.isSome_map]
    exact h m
  · exact h m

theorem Sound.modifyEach (h : r.Sound) (name : ι → κ) (g : ι → α → α) (l : List ι) :
    (r.modifyEach name g l).Sound := by
  induction l generalizing r with
  | nil => exact h
  | cons i l ih => exact ih (h.modify (name i) (g i))

end Registry
