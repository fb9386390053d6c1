import Mathlib

/-!
# Heaps and slices

Values reached through pointers.  A heap is the list of cells allocated so far and an
address is a position in it; nothing is ever freed, so an address that has been handed out
stays good and a new one differs from all of them.  Two heaps are compared by `Extends`:
the larger one has the cells of the smaller, unchanged, and perhaps more.

A slice is a backing array with a length.  Shortening it leaves the array alone, and
appending writes into the array while there is room: what was cut off is overwritten later.
Only the elements below the length are seen.
-/

namespace Swytch

open List

/-! ## 1.  Heaps -/

/-- The cells allocated so far. -/
structure Heap (α : Type*) where
  cells : List α

namespace Heap

variable {α : Type*} {h h' : Heap α} {a b : ℕ}

/-- The first address not handed out yet. -/
def size (h : Heap α) : ℕ := h.cells.length

/-- What a cell holds. -/
def read [Inhabited α] (h : Heap α) (a : ℕ) : α := h.cells.getD a default

/-- A new cell, and its address. -/
def alloc (h : Heap α) (x : α) : Heap α × ℕ := (⟨h.cells ++ [x]⟩, h.size)

/-- Overwrites a cell. -/
def write (h : Heap α) (a : ℕ) (x : α) : Heap α := ⟨h.cells.set a x⟩

/-- The second heap has all the cells of the first, as they were. -/
def Extends (h h' : Heap α) : Prop := h.cells <+: h'.cells

theorem Extends.refl (h : Heap α) : h.Extends h := prefix_refl _

theorem Extends.trans {h'' : Heap α} (hh : h.Extends h') (hh' : h'.Extends h'') :
    h.Extends h'' :=
  List.IsPrefix.trans hh hh'

theorem Extends.size_le (hh : h.Extends h') : h.size ≤ h'.size := hh.length_le

theorem extends_alloc (h : Heap α) (x : α) : h.Extends (h.alloc x).1 :=
  prefix_append _ _

@[simp] theorem size_alloc (h : Heap α) (x : α) : (h.alloc x).1.size = h.size + 1 := by
  simp [alloc, size]

@[simp] theorem size_write (h : Heap α) (a : ℕ) (x : α) : (h.write a x).size = h.size := by
  simp [write, size]

variable [Inhabited α]

theorem Extends.read_eq (hh : h.Extends h') (ha : a < h.size) : h'.read a = h.read a := by
  obtain ⟨cells, hcells⟩ := hh
  rw [read, read, ← hcells, getD_append _ _ _ _ ha]

@[simp] theorem read_alloc_size (h : Heap α) (x : α) : (h.alloc x).1.read h.size = x := by
  simp [alloc, read, size]

theorem read_write_self (ha : a < h.size) (x : α) : (h.write a x).read a = x := by
  have ha' : a < h.cells.length := ha
  simp [write, read, ha']

theorem read_write_of_ne (hab : a ≠ b) (x : α) : (h.write a x).read b = h.read b := by
  simp [write, read, hab]

end Heap

/-! ## 2.  Slices -/

/-- A backing array and how much of it is in use. -/
structure Slice (α : Type*) where
  array : List α
  len : ℕ
  len_le : len ≤ array.length

namespace Slice

variable {α : Type*}

/-- The elements in use. -/
def elems (s : Slice α) : List α := s.array.take s.len

/-- The nil slice. -/
def empty : Slice α := ⟨[], 0, le_rfl⟩

/-- Appends in place while the array has room; a full array is replaced by a longer one. -/
def append (s : Slice α) (x : α) : Slice α :=
  if h : s.len < s.array.length then
    ⟨s.array.set s.len x, s.len + 1, by simpa using h⟩
  else
    ⟨s.array ++ [x], s.len + 1, by simpa using s.len_le⟩

/-- `s[:n]`, on the same array. -/
def truncate (s : Slice α) (n : ℕ) : Slice α :=
  ⟨s.array, min n s.len, (min_le_right _ _).trans s.len_le⟩

/-- `make([]T, 0, n)`. -/
def make (zero : α) (n : ℕ) : Slice α := ⟨List.replicate n zero, 0, Nat.zero_le _⟩

/-- `copy(s, s[1:])`: every element but the first moves down, and the last one stays too. -/
def copyDown (s : Slice α) : Slice α where
  array := s.elems.tail ++ s.array.drop (s.len - 1)
  len := s.len
  len_le := by
    have hle := s.len_le
    simp only [elems, List.length_append, List.length_tail, List.length_drop, List.length_take]
    omega

/-- `s[i] = x`. -/
def set (s : Slice α) (i : ℕ) (x : α) : Slice α :=
  ⟨s.array.set i x, s.len, by rw [List.length_set]; exact s.len_le⟩

@[simp] theorem elems_append (s : Slice α) (x : α) : (s.append x).elems = s.elems ++ [x] := by
  by_cases h : s.len < s.array.length
  · -- The cell just past the end is overwritten; the ones before it are not touched.
    rw [append, dif_pos h]
    show (s.array.set s.len x).take (s.len + 1) = s.array.take s.len ++ [x]
    have hlen : s.len < (s.array.set s.len x).length := by simpa using h
    rw [take_succ_eq_append_getElem hlen, getElem_set_self,
      take_set_of_le le_rfl]
  · rw [append, dif_neg h]
    show (s.array ++ [x]).take (s.len + 1) = s.array.take s.len ++ [x]
    have hlen : s.len = s.array.length := le_antisymm s.len_le (not_lt.mp h)
    simp [hlen]

@[simp] theorem elems_truncate (s : Slice α) (n : ℕ) : (s.truncate n).elems = s.elems.take n := by
  simp [truncate, elems, take_take]

theorem length_elems (s : Slice α) : s.elems.length = s.len := by
  rw [elems, length_take]
  exact Nat.min_eq_left s.len_le

/-- Moving all elements down and giving up the last place removes the first element, whatever is
written to that place. -/
theorem elems_copyDown_truncate (s : Slice α) (x : α) :
    ((s.copyDown.set (s.len - 1) x).truncate (s.len - 1)).elems = s.elems.tail := by
  have hlen : s.elems.tail.length = s.len - 1 := by rw [length_tail, length_elems]
  rw [elems_truncate]
  show (((s.elems.tail ++ s.array.drop (s.len - 1)).set (s.len - 1) x).take s.len).take
    (s.len - 1) = _
  rw [take_take, Nat.min_eq_left (Nat.sub_le _ _), take_set_of_le le_rfl,
    take_left' hlen]

end Slice

end Swytch
