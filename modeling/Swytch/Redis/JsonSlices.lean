import Swytch.Lib.Checked
import Swytch.Redis.Registry

/-!
# Slices of a JSON array

`[start:end:step]` selects the indices of Python's slice by a loop on machine integers.  Upwards the
loop adds the step once more after the last index.  Where that sum leaves `int64` it is negative,
below the end, and the loop takes it for an index.
-/

namespace Swytch.Redis.Json

open Checked
open Sql (Bytes utf8)

variable {start stop step i n : ℤ}

/-! ## 1.  Ranges -/

/-- The condition of a loop up or down to `stop`. -/
def before (stop step i : ℤ) : Prop := 0 < step ∧ i < stop ∨ step < 0 ∧ stop < i

instance : Decidable (before stop step i) := inferInstanceAs (Decidable (_ ∨ _))

/-- Python's `range(start, stop, step)`, without elements for a step of zero. -/
def pyRange (start stop step : ℤ) : List ℤ :=
  if before stop step start then start :: pyRange (start + step) stop step else []
termination_by (if 0 < step then stop - start else start - stop).toNat
decreasing_by
  rename_i h
  unfold before at h
  split <;> omega

theorem mem_pyRange (h : i ∈ pyRange start stop step) :
    before stop step i ∧ (0 < step → start ≤ i) ∧ (step < 0 → i ≤ start) := by
  fun_induction pyRange start stop step with
  | case1 start hb ih =>
    rcases List.mem_cons.mp h with rfl | h
    · exact ⟨hb, fun _ => le_rfl, fun _ => le_rfl⟩
    · obtain ⟨hi, hup, hdown⟩ := ih h
      exact ⟨hi, fun hpos => by have := hup hpos; omega, fun hneg => by have := hdown hneg; omega⟩
  | case2 => cases h

/-! ## 2.  The slice -/

/-- The fields of `sliceSpec` with their flags. -/
structure SliceSpec where
  start : Option Int64
  end_ : Option Int64
  step : Option Int64
  deriving DecidableEq

/-- The encodings of the white space that `strings.TrimSpace` strips. -/
def whiteSpace : List Bytes :=
  [0x09, 0x0a, 0x0b, 0x0c, 0x0d, 0x20, 0x85, 0xa0, 0x1680, 0x2000, 0x2001, 0x2002, 0x2003, 0x2004,
    0x2005, 0x2006, 0x2007, 0x2008, 0x2009, 0x200a, 0x2028, 0x2029, 0x202f, 0x205f, 0x3000].map
    fun c => utf8 (Char.ofNat c).toString

/-- The text without what it starts with, as often as it does. -/
def trimStart (spaces : List Bytes) (text : Bytes) : Bytes :=
  (fun text => text.drop ((spaces.find? (·.isPrefixOf text)).elim 0 List.length))^[text.length] text

def trimSpace (text : Bytes) : Bytes :=
  (trimStart (whiteSpace.map List.reverse) (trimStart whiteSpace text).reverse).reverse

/-- The closure `set` of `parseSlice`. -/
def parseBound (raw : Bytes) : Option (Option Int64) :=
  let raw := trimSpace raw
  if raw = [] then some none else (parseInt64 raw).map fun v => some (.ofInt v)

def parseSlice (t : Bytes) : Option SliceSpec :=
  match t.splitOn 0x3a with
  | [start] => return ⟨← parseBound start, none, none⟩
  | [start, end_] => return ⟨← parseBound start, ← parseBound end_, none⟩
  | [start, end_, step] => return ⟨← parseBound start, ← parseBound end_, ← parseBound step⟩
  | _ => none

namespace SliceSpec

variable {s : SliceSpec}

def stepOf (s : SliceSpec) : ℤ := s.step.elim 1 Int64.toInt

/-- The least value of a bound. -/
def lo (s : SliceSpec) : ℤ := if s.stepOf < 0 then -1 else 0

/-- The greatest. -/
def hi (s : SliceSpec) (n : ℤ) : ℤ := if s.stepOf < 0 then n - 1 else n

/-- The variables `start` and `end`: what is given, brought into range, or the ends. -/
def bounds (s : SliceSpec) (n : ℤ) (fit : ℤ → ℤ) : ℤ × ℤ :=
  (s.start.elim (if s.stepOf < 0 then s.hi n else s.lo) fun v => fit v.toInt,
    s.end_.elim (if s.stepOf < 0 then s.lo else s.hi n) fun v => fit v.toInt)

/-- `sliceIndices` brings a bound into range by its closure `clamp`. -/
def clampBound (s : SliceSpec) (n v : ℤ) : ℤ :=
  let v := if v < 0 then v + n else v
  if v < s.lo then s.lo else if v > s.hi n then s.hi n else v

/-- Python's `slice.indices` does it so. -/
def pyBound (s : SliceSpec) (n v : ℤ) : ℤ :=
  if v < 0 then max (v + n) s.lo else min v (s.hi n)

theorem clampBound_eq : s.clampBound n = s.pyBound n := by
  funext v
  unfold clampBound pyBound lo hi
  dsimp only
  split_ifs <;> omega

/-- Python's `range(*slice(start, end, step).indices(n))`. -/
def pyIndices (s : SliceSpec) (n : ℤ) : List ℤ :=
  pyRange (s.bounds n (s.pyBound n)).1 (s.bounds n (s.pyBound n)).2 s.stepOf

theorem bounds_mem (hn : 0 ≤ n) :
    (s.lo ≤ (s.bounds n (s.pyBound n)).1 ∧ (s.bounds n (s.pyBound n)).1 ≤ s.hi n) ∧
      s.lo ≤ (s.bounds n (s.pyBound n)).2 ∧ (s.bounds n (s.pyBound n)).2 ≤ s.hi n := by
  have hends : s.lo ≤ s.hi n := by
    unfold lo hi
    split <;> omega
  have hfit (v : ℤ) : s.lo ≤ s.pyBound n v ∧ s.pyBound n v ≤ s.hi n := by
    unfold pyBound lo hi at *
    split_ifs <;> omega
  unfold bounds
  constructor
  · cases s.start with
    | none => simp only [Option.elim_none]; split <;> omega
    | some v => exact hfit v.toInt
  · cases s.end_ with
    | none => simp only [Option.elim_none]; split <;> omega
    | some v => exact hfit v.toInt

theorem mem_pyIndices (hn : 0 ≤ n) (h : i ∈ s.pyIndices n) : 0 ≤ i ∧ i < n := by
  obtain ⟨hb, hup, hdown⟩ := mem_pyRange h
  have hbds := @bounds_mem n s hn
  unfold before at hb
  unfold lo hi at hbds
  split at hbds <;> omega

end SliceSpec

/-- The loops of `sliceIndices`; downwards an index out of range is left out. -/
def sliceLoop (n end_ step : ℤ) : ℕ → ℤ → Option (List ℤ)
  | 0, _ => none
  | fuel + 1, i =>
    if before end_ step i then
      (sliceLoop n end_ step fuel (wrap64 (i + step))).map fun out =>
        if step > 0 ∨ 0 ≤ i ∧ i < n then i :: out else out
    else some []

/-- `sliceIndices`, as far as the fuel reaches.  For a step of zero it returns before the loops,
which would not run. -/
def sliceIndices (s : SliceSpec) (n : ℤ) (fuel : ℕ) : Option (List ℤ) :=
  sliceLoop n (s.bounds n (s.clampBound n)).2 s.stepOf fuel (s.bounds n (s.clampBound n)).1

/-- The `segSlice` case of `resolveMatches` at an array: the elements at the indices. -/
def resolveSlice {α : Type} (s : SliceSpec) (arr : List α) (fuel : ℕ) : Option (Comp (List α)) :=
  (sliceIndices s arr.length fuel).map fun indices => indices.mapM (get arr)

theorem exists_sliceLoop (h : ∀ j ∈ pyRange start stop step,
      wrap64 (j + step) = j + step ∧ 0 ≤ j ∧ j < n) :
    ∃ fuel, sliceLoop n stop step fuel start = some (pyRange start stop step) := by
  fun_induction pyRange start stop step with
  | case1 start hb ih =>
    obtain ⟨⟨hf, hkeep⟩, hr⟩ := List.forall_mem_cons.mp h
    obtain ⟨fuel, hloop⟩ := ih hr
    refine ⟨fuel + 1, ?_⟩
    rw [sliceLoop, if_pos hb, hf, hloop, Option.map_some, if_pos (.inr hkeep)]
  | case2 start hb => exact ⟨1, if_neg hb⟩

/-- Upwards, a sum out of range is one more index, and a negative one. -/
theorem fits_of_sliceLoop {fuel : ℕ} (hpos : 0 < step) (hf : step < 2 ^ 63) (h0 : 0 ≤ start)
    (hsp : stop < 2 ^ 63) (h : sliceLoop n stop step fuel start = some (pyRange start stop step)) :
    ∀ j ∈ pyRange start stop step, j + step < 2 ^ 63 := by
  induction fuel generalizing start with
  | zero => cases h
  | succ fuel ih =>
    rw [pyRange] at h ⊢
    split_ifs at h ⊢ with hb
    · rw [sliceLoop, if_pos hb, Option.map_eq_some_iff] at h
      obtain ⟨out, hout, heq⟩ := h
      rw [if_pos (.inl hpos)] at heq
      obtain ⟨-, rfl⟩ := List.cons.inj heq
      unfold before at hb
      by_cases hnext : start + step < 2 ^ 63
      · rw [wrap64_of_fits (by omega) hnext] at hout
        exact List.forall_mem_cons.mpr ⟨hnext, ih (by omega) hout⟩
      · rw [wrap64_of_overflow (by omega) (by omega), pyRange,
          if_neg (by unfold before; omega)] at hout
        cases fuel with
        | zero => cases hout
        | succ fuel =>
          rw [sliceLoop, if_pos (by unfold before; omega)] at hout
          simp [hpos] at hout
    · simp

/-- A slice selects what Python's does exactly where the step past its last index is a machine
integer. -/
theorem resolveSlice_iff {α : Type} (s : SliceSpec) (arr : List α) (hlen : arr.length < 2 ^ 63) :
    (∃ fuel, sliceIndices s arr.length fuel = some (s.pyIndices arr.length) ∧
        (∀ i ∈ s.pyIndices arr.length, 0 ≤ i ∧ i < arr.length) ∧
        ∃ found, resolveSlice s arr fuel = some found ∧ Finishes found) ↔
      ∀ i ∈ s.pyIndices arr.length, i + s.stepOf < 2 ^ 63 := by
  have hn : (0 : ℤ) ≤ arr.length := by omega
  have hrange : ∀ i ∈ s.pyIndices arr.length, 0 ≤ i ∧ i < arr.length := fun i => s.mem_pyIndices hn
  have hInt : -2 ^ 63 ≤ s.stepOf ∧ s.stepOf < 2 ^ 63 := by
    rw [SliceSpec.stepOf]
    cases s.step with
    | none => simp
    | some step => exact ⟨step.le_toInt, step.toInt_lt⟩
  simp only [sliceIndices, SliceSpec.clampBound_eq]
  constructor
  · rintro ⟨fuel, hloop, -⟩ i hi
    by_cases hpos : 0 < s.stepOf
    · have hbds := @SliceSpec.bounds_mem _ s hn
      rw [SliceSpec.lo, SliceSpec.hi, if_neg hpos.not_gt, if_neg hpos.not_gt] at hbds
      exact fits_of_sliceLoop hpos hInt.2 hbds.1.1 (by omega) hloop i hi
    · have := hrange i hi
      omega
  · intro h
    obtain ⟨fuel, hloop⟩ := exists_sliceLoop fun j hj =>
      ⟨wrap64_of_fits (by have := hrange j hj; omega) (h j hj), hrange j hj⟩
    refine ⟨fuel, hloop, hrange, (s.pyIndices arr.length).mapM (get arr), ?_, ?_⟩
    · rw [resolveSlice, sliceIndices, SliceSpec.clampBound_eq, hloop]
      rfl
    · refine (returns_mapM _ fun i hi => ?_).finishes
      obtain ⟨hlo, hhi⟩ := hrange i hi
      lift i to ℕ using hlo
      exact (returns_get (by omega)).finishes

/-- `[::2]` of three elements. -/
theorem resolveSlice_everyOther : ∃ fuel, sliceIndices ⟨none, none, some 2⟩ 3 fuel =
    some (SliceSpec.pyIndices ⟨none, none, some 2⟩ 3) := by
  obtain ⟨fuel, hindices, -⟩ := (resolveSlice_iff ⟨none, none, some 2⟩ [(), (), ()] (by decide)).mpr
    fun i hi => by
      have hlt := (SliceSpec.mem_pyIndices (by decide) hi).2
      exact (add_lt_add_left hlt _).trans (by decide)
  exact ⟨fuel, hindices⟩

/-- `[1::9223372036854775807]` of two elements: the second, and then an index below zero. -/
theorem resolveSlice_wraps :
    parseSlice (utf8 "1::9223372036854775807") = some ⟨some 1, none, some Int64.maxValue⟩ ∧
      SliceSpec.pyIndices ⟨some 1, none, some Int64.maxValue⟩ 2 = [1] ∧
      resolveSlice ⟨some 1, none, some Int64.maxValue⟩ [(), ()] 4 =
        some (.error (.index (-9223372036854775808) 2)) := by
  refine ⟨by decide, ?_, by rfl⟩
  rw [SliceSpec.pyIndices, pyRange, if_pos (by decide), pyRange, if_neg (by decide)]
  rfl

end Swytch.Redis.Json
