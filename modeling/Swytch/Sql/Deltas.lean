import Swytch.Sql.RowCells

/-!
# Index deltas of a same-key update

`emitIndexDeltasSamePK` rebuilds the old tuple of an index from the fields of the row and
the new one from the supplied values.  When every column is supplied the old tuple is the
one the fields spell and the new one is that of the supplied tuple.
-/

namespace Swytch.Sql

variable {columns : List String} {ords : List ℕ}

open List
open KeyedStore
open IndexSchema (columnAffinity columnOrdinal columnIndexes)

variable {tbl : TableSchema}

/-- Column names and the ordinals they resolve to. -/
def Resolves (tbl : TableSchema) : List String → List ℕ → Prop :=
  List.Forall₂ fun n ord => IndexSchema.columnOrdinal tbl n = some ord

theorem exists_resolves (h : ∀ n ∈ columns, ∃ col ∈ tbl.columns, col.name = n) :
    ∃ ords, (columns.map (columnOrdinal tbl)).mapM id = some ords ∧
      Resolves tbl columns ords := by
  induction columns with
  | nil => exact ⟨[], rfl, List.Forall₂.nil⟩
  | cons n columns ih =>
    obtain ⟨ord, hord⟩ := exists_columnOrdinal (h n (mem_cons_self ..))
    obtain ⟨ords, hords, hres⟩ := ih fun n' hn' => h n' (mem_cons_of_mem _ hn')
    refine ⟨ord :: ords, ?_, List.Forall₂.cons hord hres⟩
    rw [map_cons, mapM_cons, hord, hords]
    rfl

theorem Resolves.map_columnOrdinal (h : Resolves tbl columns ords) :
    columns.map (columnOrdinal tbl) = ords.map some := by
  induction h with
  | nil => rfl
  | cons hord _ ih => rw [map_cons, map_cons, hord, ih]

theorem Resolves.columnAffinities_eq (h : Resolves tbl columns ords) :
    columns.map (columnAffinity tbl) = ords.map tbl.affinityAt := by
  induction h with
  | nil => rfl
  | cons hord _ ih => rw [map_cons, map_cons, columnAffinity_eq hord, ih]

theorem length_oldTupleFrom (tbl : TableSchema) (snap : Fields) (comps : List (ℕ × Affinity)) :
    (oldTupleFrom tbl snap comps).1.length = comps.length := by
  induction comps with
  | nil => rfl
  | cons comp comps ih =>
    obtain ⟨ord, aff⟩ := comp
    unfold oldTupleFrom
    cases snap[utf8 (tbl.nameAt ord)]? with
    | none => simp
    | some p =>
      dsimp only
      split
      · simp
      · simp [ih]

theorem length_oldTuple {oldSnap : Option Fields} {comps : List (ℕ × Affinity)} :
    (oldTuple tbl oldSnap comps).1.length = comps.length := by
  cases oldSnap with
  | none => simp [oldTuple]
  | some snap => exact length_oldTupleFrom tbl snap comps

theorem oldTupleFrom_eq (h : Resolves tbl columns ords) (snap : Fields) :
    (let old := oldTupleFrom tbl snap (ords.zip (columns.map (columnAffinity tbl)))
     if old.2 then some old.1 else none) =
      storedComponents columns (columns.map (columnAffinity tbl))
        (fun f => snap[f]?) := by
  induction h with
  | nil => rfl
  | @cons n ord columns ords hord _ ih =>
    obtain ⟨col, hcol, rfl⟩ := columnOrdinal_eq_some hord
    simp only [storedComponents, map_cons, zip_cons_cons, mapM_cons, presentField] at ih ⊢
    rw [oldTupleFrom, nameAt_of_getElem? hcol, ← ih]
    cases snap[utf8 col.name]? with
    | none => rfl
    | some p =>
      by_cases hnull : (decodeValue p (columnAffinity tbl col.name)).isNull = true
      · simp [hnull]
      · simp only [hnull, Option.bind_some]
        cases (oldTupleFrom tbl snap
          (ords.zip (columns.map (columnAffinity tbl)))).2 <;> rfl

/-- With every column supplied the new tuple does not look at the old one. -/
theorem newTuple_eq {cols : List Value} (hsup : ∀ i, (TableSchema.valueAt cols i).noChange = false)
    {old : List Value} (hlen : old.length = ords.length) :
    newTuple ords old cols = (ords.map some).mapM (presentAt cols) := by
  unfold newTuple
  induction ords generalizing old with
  | nil => rfl
  | cons ord ords ih =>
    cases old with
    | nil => simp at hlen
    | cons u old =>
      rw [zip_cons_cons, mapM_cons, ih (by simpa using hlen)]
      simp [presentAt, hsup ord]

section Deltas

variable {idx : IndexSchema} {cols : List Value} (hwf : tbl.WellFormed) (hidx : idx ∈ tbl.indexes)
    (hsup : ∀ i, (TableSchema.valueAt cols i).noChange = false)

include hwf hidx hsup

theorem exists_deltaOrds :
    ∃ ords, deltaOrds tbl cols idx = some ords ∧ Resolves tbl idx.columns ords := by
  obtain ⟨ords, hords, hres⟩ := exists_resolves (hwf.index_columns idx hidx)
  refine ⟨ords, ?_, hres⟩
  have hne : ords ≠ [] := by
    rintro rfl
    have hnil : idx.columns = [] := by
      cases hcs : idx.columns with
      | nil => rfl
      | cons n columns =>
        rw [hcs] at hres
        exact absurd hres (by intro h; cases h)
    exact hwf.index_columns_ne_nil idx hidx hnil
  unfold deltaOrds columnIndexes
  rw [hords]
  cases ords with
  | nil => exact absurd rfl hne
  | cons ord ords => simp [hsup ord]

variable [Host]

theorem deltaOld_eq (snap : Fields) :
    deltaOld tbl (some snap) cols idx = storedTuple tbl idx fun f => snap[f]? := by
  obtain ⟨ords, hords, hres⟩ := exists_deltaOrds hwf hidx hsup
  have hold := oldTupleFrom_eq hres snap
  unfold deltaOld storedTuple IndexSchema.columnAffinities
  rw [hords, ← hold]
  simp only [oldTuple]
  split <;> rename_i hpr <;> simp [hpr]

theorem deltaNew_eq (oldSnap : Option Fields) :
    deltaNew tbl oldSnap cols idx = indexTupleForRow idx tbl cols := by
  obtain ⟨ords, hords, hres⟩ := exists_deltaOrds hwf hidx hsup
  have hlen : ords.length = idx.columns.length := (List.Forall₂.length_eq hres).symm
  unfold deltaNew indexTupleForRow indexComponents columnIndexes
  rw [hords, Option.bind_some, hres.map_columnOrdinal, newTuple_eq hsup]
  rw [length_oldTuple]
  simp [hlen]

end Deltas

end Swytch.Sql
