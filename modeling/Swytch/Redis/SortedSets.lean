import Mathlib.Order.Lattice
import Swytch.Sql.Value

/-!
# `ZADD`

The runner judges every pair by the snapshot that it took before the first.  For a member that comes
twice this is not what the pairs do one after the other: the second pair is counted as new again.
-/

namespace Swytch.Redis.SortedSets

open Sql (Bytes)

variable {α : Type}

/-! ## 1.  The runner -/

/-- The snapshot of a sorted set with scores in `α`, if the key is there. -/
abbrev ZSet (α : Type) := Option (Bytes → Option α)

def zsetMemberScore (snap : ZSet α) (member : Bytes) : Option α := snap.bind (· member)

@[simp] theorem zsetMemberScore_some (scores : Bytes → Option α) :
    zsetMemberScore (some scores) = scores := rfl

variable [LinearOrder α]

/-- The options of `handleZAdd` but for `INCR`. -/
structure ZAddOptions where
  nx : Bool
  xx : Bool
  gt : Bool
  lt : Bool
  ch : Bool

/-- `handleZAdd` has no error for these options. -/
def ZAddOptions.accepted (o : ZAddOptions) : Bool :=
  !(o.nx && o.xx) && !(o.gt && o.lt) && !((o.gt || o.lt) && o.nx)

/-- What a pair adds to `addedCount` and `changedCount`, unless the loop goes on without it. -/
def judge (o : ZAddOptions) (score : α) : Option α → Option (ℕ × ℕ)
  | some existingScore =>
    if o.nx then none
    else if o.gt ∧ score ≤ existingScore then none
    else if o.lt ∧ score ≥ existingScore then none
    else some (0, if score ≠ existingScore then 1 else 0)
  | none => if o.xx then none else some (1, 0)

/-- The loop of `handleZAdd`: the counts, and the set with the effects that it emits. -/
def zaddLoop (o : ZAddOptions) (snap : ZSet α) :
    List (α × Bytes) → (Bytes → Option α) → (ℕ × ℕ) × (Bytes → Option α)
  | [], scores => (0, scores)
  | (score, member) :: pairs, scores =>
    match judge o score (zsetMemberScore snap member) with
    | none => zaddLoop o snap pairs scores
    | some counts =>
      let (rest, scores) := zaddLoop o snap pairs (Function.update scores member (some score))
      (counts + rest, scores)

def handleZAdd (o : ZAddOptions) (pairs : List (α × Bytes)) (snap : ZSet α) : ℕ × ZSet α :=
  if o.xx ∧ snap = none then (0, snap)
  else
    let (counts, scores) := zaddLoop o snap pairs (zsetMemberScore snap)
    (if o.ch then counts.1 + counts.2 else counts.1, some scores)

/-- One `ZADD` for each pair; the replies are added up. -/
def addEach (o : ZAddOptions) : List (α × Bytes) → ZSet α → ℕ × ZSet α
  | [], snap => (0, snap)
  | pair :: pairs, snap =>
    let (first, snap) := handleZAdd o [pair] snap
    let (rest, snap) := addEach o pairs snap
    (first + rest, snap)

/-! ## 2.  Distinct members -/

variable {o : ZAddOptions} {pairs : List (α × Bytes)} {pair : α × Bytes}

/-- The loop reads the snapshot at the members of its pairs. -/
theorem zaddLoop_congr {snap snap' : ZSet α}
    (h : ∀ member ∈ pairs.map Prod.snd, zsetMemberScore snap member = zsetMemberScore snap' member)
    (scores : Bytes → Option α) : zaddLoop o snap pairs scores = zaddLoop o snap' pairs scores := by
  induction pairs generalizing scores with
  | nil => rfl
  | cons pair pairs ih =>
    obtain ⟨hmb, hr⟩ := List.forall_mem_cons.mp h
    rw [zaddLoop, zaddLoop, hmb]
    simp only [ih hr]

theorem handleZAdd_cons (h : pair.2 ∉ pairs.map Prod.snd) (snap : ZSet α) :
    handleZAdd o (pair :: pairs) snap =
      ((handleZAdd o [pair] snap).1 + (handleZAdd o pairs (handleZAdd o [pair] snap).2).1,
        (handleZAdd o pairs (handleZAdd o [pair] snap).2).2) := by
  by_cases hxx : o.xx ∧ snap = none
  · simp [handleZAdd, hxx]
  · have hag {written : Bytes → Option α} (hwr : ∀ member ≠ pair.2,
        written member = zsetMemberScore snap member) :
        zaddLoop o (some written) pairs = zaddLoop o snap pairs :=
      funext <| zaddLoop_congr fun member hmb => hwr member fun heq => h (heq ▸ hmb)
    cases hjudge : judge o pair.1 (zsetMemberScore snap pair.2) with
    | none =>
      have hn := hag fun _ _ => rfl
      simp [handleZAdd, hxx, zaddLoop, hjudge, hn]
    | some counts =>
      have hs : zaddLoop o (some (Function.update _ pair.2 (some pair.1))) pairs = _ :=
        hag fun member hne => Function.update_of_ne hne _ _
      simp only [handleZAdd, if_neg hxx, zaddLoop, hjudge, zsetMemberScore_some, hs,
        reduceCtorEq, and_false, if_false, Prod.fst_add, Prod.snd_add, add_zero]
      split_ifs <;> simp [add_add_add_comm]

theorem handleZAdd_eq_addEach (h : ((pair :: pairs).map Prod.snd).Nodup) (snap : ZSet α) :
    handleZAdd o (pair :: pairs) snap = addEach o (pair :: pairs) snap := by
  induction pairs generalizing pair snap with
  | nil => rfl
  | cons next pairs ih =>
    obtain ⟨hmem, hr⟩ := List.nodup_cons.mp h
    rw [handleZAdd_cons hmem, ih hr]
    rfl

/-! ## 3.  A member that comes twice -/

/-- `ZADD` without options. -/
def plain : ZAddOptions := ⟨false, false, false, false, false⟩

theorem handleZAdd_plain (pairs : List (α × Bytes)) :
    (handleZAdd plain pairs none).1 = pairs.length := by
  show (zaddLoop plain none pairs _).1.1 = _
  generalize zsetMemberScore none = scores
  induction pairs generalizing scores with
  | nil => rfl
  | cons pair pairs ih =>
    show 1 + (zaddLoop plain none pairs _).1.1 = _
    rw [ih, add_comm, List.length_cons]

/-- Each pair adds a member only if the members are new and distinct. -/
theorem addEach_plain (pairs : List (α × Bytes)) (snap : ZSet α) :
    (addEach plain pairs snap).1 ≤ pairs.length ∧
      ((addEach plain pairs snap).1 = pairs.length → (pairs.map Prod.snd).Nodup ∧
        ∀ member ∈ pairs.map Prod.snd, zsetMemberScore snap member = none) := by
  induction pairs generalizing snap with
  | nil => simp [addEach]
  | cons pair pairs ih =>
    let scores := Function.update (zsetMemberScore snap) pair.2 (some pair.1)
    have hf : handleZAdd plain [pair] snap =
        (if zsetMemberScore snap pair.2 = none then 1 else 0, some scores) := by
      cases hscore : zsetMemberScore snap pair.2 <;>
        simp [handleZAdd, zaddLoop, judge, plain, scores, hscore]
    obtain ⟨hle, heq⟩ := ih (some scores)
    simp only [addEach, hf, List.length_cons, List.map_cons, List.nodup_cons,
      List.forall_mem_cons]
    split_ifs with hnew
    · refine ⟨by omega, fun hc => ?_⟩
      obtain ⟨hnd, hn⟩ := heq (by omega)
      have hne : ∀ member ∈ pairs.map Prod.snd, member ≠ pair.2 := by
        rintro member hmem rfl
        simpa [scores] using hn _ hmem
      refine ⟨⟨fun hmem => hne _ hmem rfl, hnd⟩, hnew, fun member hmem => ?_⟩
      simpa [scores, hne member hmem] using hn member hmem
    · exact ⟨by omega, fun hc => by omega⟩

end Swytch.Redis.SortedSets
