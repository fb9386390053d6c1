import Swytch.Sql.Comparison
import Swytch.Sql.Plans

/-!
# Equality plans

A key lookup and an index lookup find the rows whose columns *cast alike* with the
arguments: the columns are stored, and coerced to their affinities they are what the
arguments are.  SQL asks for the rows whose columns *compare equal* with the arguments.
SQLite does not check the rows of these plans again, so a plan agrees with the full scan
exactly when no row of the table tells the two apart.

They are told apart by a `NULL` argument, which casts to zero or to nothing, by an argument
that does not survive the cast, and by a column that is absent and reads as its `DEFAULT`.
-/

namespace Swytch.Sql

open IndexSchema
open List
open KeyedStore SecondaryIndex
open TableSchema (valueAt)

/-! ## The columns a plan constrains -/

/-- The ordinals of the columns an equality plan constrains, one for each argument. -/
def Plan.constrained (tbl : TableSchema) : Plan → Option (List ℕ)
  | .pkEquality => if tbl.pkColumns = [] then none else some tbl.pkColumns
  | .indexEquality index =>
    (tbl.indexes.find? (·.name == index)).bind fun idx => (idx.columnIndexes tbl).mapM id
  | .fullScan | .indexRange _ _ _ => none

section Match

variable [Host]

/-- Each constrained column of the row compares equal with its argument. -/
def ComparesEqual (tbl : TableSchema) (ords : List ℕ) (argv : List Value) (cols : List Value) :
    Bool :=
  (ords.zip argv).all fun (ord, arg) =>
    sqlEq (tbl.affinityAt ord) (TableSchema.valueAt cols ord) arg

/-- Each constrained column of the row is stored and casts to what its argument casts to. -/
def CastsAlike (tbl : TableSchema) (ords : List ℕ) (argv : List Value)
    (row : Bytes → Option Payload) (cols : List Value) : Prop :=
  ∀ p ∈ ords.zip argv, (row (utf8 (tbl.nameAt p.1))).isSome = true ∧
    coerce (tbl.affinityAt p.1) (TableSchema.valueAt cols p.1) = coerce (tbl.affinityAt p.1) p.2

/-- The plan returns the rows of the full scan that compare equal with the arguments. -/
def AgreesWithScan [Keytrie] (c : Conn) (tbl : TableSchema) (plan : Plan) (ords : List ℕ)
    (argv : List Value) : Prop :=
  ∃ rows all, runPlan c plan argv = .ok rows ∧ filterFullScan c = .ok all ∧
    rows.Perm (all.filter fun r => ComparesEqual tbl ords argv r.cols)

end Match

/-! ## Rows of a key -/

theorem map_eq_zipWith_iff {α β γ : Type} {l : List α} {m : List β} (hlen : m.length = l.length)
    (f : α → γ) (g : α → β → γ) :
    l.map f = zipWith g l m ↔ ∀ p ∈ l.zip m, f p.1 = g p.1 p.2 := by
  induction l generalizing m with
  | nil => simp
  | cons a l ih =>
    cases m with
    | nil => simp at hlen
    | cons b m => simp [ih (by simpa using hlen)]

variable {row : Bytes → Option Payload} {col : ColumnSchema} {pk : Bytes} {ords : List ℕ}

theorem valueAt_readRow {tbl : TableSchema} {i : ℕ} (hcol : tbl.columns[i]? = some col) :
    valueAt (readRow tbl pk row) i = readColumn tbl pk row col i := by
  have henum : tbl.enumColumns[i]? = some (col, i) := by
    simp [TableSchema.enumColumns, hcol]
  simp [valueAt, readRow, henum]

section Casts

variable [Host] {s : Store} {tbl : TableSchema} {argv : List Value} (hrows : RowsWellFormed s tbl)
    (hwf : tbl.WellFormed) (hlive : Live s tbl.tableID pk)

include hrows hwf hlive

/-- The row at a key, when the arguments spell it. -/
theorem RowsWellFormed.encodePK_iff (hpk : tbl.pkColumns ≠ [])
    (hlen : argv.length = tbl.pkColumns.length) :
    encodePK argv tbl.pkAffinities = some pk ↔ CastsAlike tbl tbl.pkColumns argv
      (rowOf s tbl.tableID pk) (readRow tbl pk (rowOf s tbl.tableID pk)) := by
  have hsyn := hwf.syntheticPK_eq_false hpk
  obtain ⟨cols, henc, hfs⟩ := (hrows pk).spelled hsyn hlive
  have haff : tbl.pkAffinities = tbl.pkColumns.map tbl.affinityAt :=
    TableSchema.pkAffinities_of_not_syntheticPK hsyn
  have hlenA : argv.length = tbl.pkAffinities.length := by rw [haff, length_map, hlen]
  have hlenC : (tbl.pkValues cols).length = tbl.pkAffinities.length := by
    rw [haff, length_map, TableSchema.length_pkValues]
  -- the key column of a row reads as the coerced value the row key spells
  have hshown (ord : ℕ) (hord : ord ∈ tbl.pkColumns) :
      valueAt (readRow tbl pk (rowOf s tbl.tableID pk)) ord =
        coerce (tbl.affinityAt ord) (valueAt cols ord) := by
    have hcol := getElem?_eq_getElem (hwf.pk_lt ord hord)
    rw [valueAt_readRow hcol, readColumn_key hwf (fun _ => henc) hcol hord,
      affinityAt_of_getElem? hcol]
  rw [encodePK_eq_some hlenC] at henc
  rw [encodePK_eq_some hlenA, ← henc, Option.some.injEq, eq_comm,
    encodeIndexKeyTuple_eq_iff hlenC hlenA, haff, coerceAll, coerceAll, TableSchema.pkValues,
    zipWith_map, zipWith_self, zipWith_map_left, map_eq_zipWith_iff hlen]
  refine forall₂_congr fun p hp => ?_
  have hord : p.1 ∈ tbl.pkColumns := (of_mem_zip hp).1
  obtain ⟨hnull, hrow⟩ := hfs p.1 hord
  obtain ⟨q, hq⟩ := exists_setEncodedValue hnull
  rw [hshown p.1 hord, coerce_coerce, hrow, hq]
  simp

/-! ## Rows of an index entry -/

/-- An indexed column of a row, present exactly when its field is, and spelled like what the
column reads as. -/
theorem RowsWellFormed.presentField_coerce {ord : ℕ} (hcol : tbl.columns[ord]? = some col) :
    (presentField (rowOf s tbl.tableID pk) (col.name, col.affinity)).map (coerce col.affinity) =
      (rowOf s tbl.tableID pk (utf8 col.name)).map fun _ => coerce col.affinity
        (valueAt (readRow tbl pk (rowOf s tbl.tableID pk)) ord) := by
  obtain ⟨snap, hs⟩ := hlive.exists_snap
  have hm := hrows.fieldMatches hwf hlive hs hcol
  cases hp : rowOf s tbl.tableID pk (utf8 col.name) with
  | none => simp [presentField, hp]
  | some p =>
    rw [hp] at hm
    obtain ⟨-, hnull, hcoerce⟩ := hm
    -- the field is there, so no default stands in for it
    have hrd : valueAt (valuesFromSnapshot tbl pk snap) ord =
        readColumn tbl pk (rowOf s tbl.tableID pk) col ord := by
      rw [valuesFromSnapshot, valueAt_rowFromFields hcol, columnFromFields, readColumn,
        ← rowOf_eq_getElem? hs, hp]
      cases tbl.pkPosition ord <;> rfl
    simp [presentField, hp, hnull, hcoerce, hrd, valueAt_readRow hcol]

/-- The coerced components of a row, when they are the coerced arguments. -/
theorem RowsWellFormed.storedComponents_iff {columns : List String}
    (hres : Resolves tbl columns ords) (hlen : argv.length = columns.length) :
    (storedComponents columns (columns.map (columnAffinity tbl))
        (rowOf s tbl.tableID pk)).map (coerceAll (columns.map (columnAffinity tbl))) =
      some (coerceAll (columns.map (columnAffinity tbl)) argv) ↔
    CastsAlike tbl ords argv (rowOf s tbl.tableID pk)
      (readRow tbl pk (rowOf s tbl.tableID pk)) := by
  induction hres generalizing argv with
  | nil =>
    simp [storedComponents, CastsAlike, coerceAll]
  | @cons n ord columns ords hord hres ih =>
    cases argv with
    | nil => simp at hlen
    | cons arg argv =>
      have hlen' : argv.length = columns.length := by simpa using hlen
      have ih' := ih hlen'
      obtain ⟨col, hcol, rfl⟩ := columnOrdinal_eq_some hord
      have haff : columnAffinity tbl col.name = col.affinity := by
        rw [columnAffinity_eq hord, affinityAt_of_getElem? hcol]
      have hone := hrows.presentField_coerce hwf hlive hcol
      have hsp : CastsAlike tbl (ord :: ords) (arg :: argv) (rowOf s tbl.tableID pk)
          (readRow tbl pk (rowOf s tbl.tableID pk)) ↔
          ((rowOf s tbl.tableID pk (utf8 col.name)).isSome = true ∧
            coerce col.affinity (valueAt
              (readRow tbl pk (rowOf s tbl.tableID pk)) ord) = coerce col.affinity arg) ∧
          CastsAlike tbl ords argv (rowOf s tbl.tableID pk)
            (readRow tbl pk (rowOf s tbl.tableID pk)) := by
        simp [CastsAlike, nameAt_of_getElem? hcol, affinityAt_of_getElem? hcol]
      rw [hsp, ← ih']
      simp only [storedComponents, map_cons, zip_cons_cons, mapM_cons, haff]
      generalize mapM (presentField (rowOf s tbl.tableID pk)) _ = xs
      generalize presentField (rowOf s tbl.tableID pk) _ = x at hone ⊢
      cases hp : rowOf s tbl.tableID pk (utf8 col.name) with
      | none =>
        rw [hp] at hone
        obtain rfl : x = none := by simpa using hone
        simp
      | some p =>
        rw [hp] at hone
        obtain ⟨v, rfl, hv⟩ : ∃ v, x = some v ∧ _ := by simpa using hone
        cases xs <;> simp [coerceAll, hv]

/-- The rows an index files under the arguments. -/
theorem RowsWellFormed.storedTuple_iff {idx : IndexSchema} (hres : Resolves tbl idx.columns ords)
    (hlen : argv.length = idx.columns.length) :
    storedTuple tbl idx (rowOf s tbl.tableID pk) =
        some (encodeIndexKeyTuple argv (idx.columnAffinities tbl)) ↔
      CastsAlike tbl ords argv (rowOf s tbl.tableID pk)
        (readRow tbl pk (rowOf s tbl.tableID pk)) := by
  have hlenA : argv.length = (idx.columnAffinities tbl).length := by
    rw [length_columnAffinities, hlen]
  rw [← hrows.storedComponents_iff hwf hlive hres hlen, storedTuple]
  unfold columnAffinities at hlenA ⊢
  cases hcomps : storedComponents idx.columns
      (idx.columns.map (columnAffinity tbl)) (rowOf s tbl.tableID pk) with
  | none => simp
  | some comps =>
    have hlenC : comps.length = (idx.columns.map (columnAffinity tbl)).length := by
      simpa using length_of_mapM_eq_some hcomps
    simp [encodeIndexKeyTuple_eq_iff hlenC hlenA]

end Casts

/-! ## Agreement with the full scan -/

section Agreement

variable [Host] {c : Conn} {tbl : TableSchema} {plan : Plan} {ords : List ℕ} {argv : List Value}

/-- **An equality plan selects the rows that cast like its arguments.** -/
theorem Readable.runPlan_ok [Keytrie] (h : Readable c tbl)
    (hp : plan.constrained tbl = some ords) (hlen : argv.length = ords.length) :
    ∃ rows, runPlan c plan argv = .ok rows ∧
      Selects tbl c.view (fun pk => CastsAlike tbl ords argv (rowOf c.view tbl.tableID pk)
        (readRow tbl pk (rowOf c.view tbl.tableID pk))) rows := by
  cases plan with
  | pkEquality =>
    obtain ⟨hpk, rfl⟩ : tbl.pkColumns ≠ [] ∧ tbl.pkColumns = ords := by
      simpa [Plan.constrained] using hp
    obtain ⟨rows, hrows, hsel⟩ := h.filterPKEquality_ok hpk hlen
    refine ⟨rows, hrows, hsel.congr fun pk r hr => ?_⟩
    exact h.inv.rows.encodePK_iff h.inv.wf (rowAt_eq_some_iff.mp hr).1 hpk hlen
  | indexEquality index =>
    obtain ⟨idx, hf, hords⟩ := Option.bind_eq_some_iff.mp hp
    have hidx : idx ∈ tbl.indexes := mem_of_find?_eq_some hf
    obtain ⟨ords', hords', hres⟩ := exists_resolves (h.inv.wf.index_columns idx hidx)
    obtain rfl : ords' = ords := Option.some.inj (hords'.symm.trans hords)
    have hlen' : argv.length = idx.columns.length := hlen.trans hres.length_eq.symm
    obtain ⟨rows, hrows, hsel⟩ := h.filterIndexEquality_ok hf hlen'
    refine ⟨rows, hrows, hsel.congr fun pk r hr => ?_⟩
    exact h.inv.rows.storedTuple_iff h.inv.wf (rowAt_eq_some_iff.mp hr).1 hres hlen'
  | fullScan | indexRange => simp [Plan.constrained] at hp

/-- **Equality plans against the full scan.**  The plan returns the rows of the scan that
compare equal with the arguments exactly when, in every row of the table, the constrained
columns compare equal with the arguments if and only if they are stored and cast alike. -/
theorem agreesWithScan_iff [Keytrie] (h : Readable c tbl)
    (hplan : plan.constrained tbl = some ords) (hlen : argv.length = ords.length) :
    AgreesWithScan c tbl plan ords argv ↔
      ∀ pk, Live c.view tbl.tableID pk →
        (CastsAlike tbl ords argv (rowOf c.view tbl.tableID pk)
            (readRow tbl pk (rowOf c.view tbl.tableID pk)) ↔
          ComparesEqual tbl ords argv (readRow tbl pk (rowOf c.view tbl.tableID pk)) = true) := by
  obtain ⟨rows, hrows, hsel⟩ := h.runPlan_ok hplan hlen
  obtain ⟨all, hall, hselAll⟩ := h.filterFullScan_ok
  have hpm := hsel.perm_filter_iff hselAll fun r => ComparesEqual tbl ords argv r.cols
  constructor
  · rintro ⟨rows', all', hrows', hall', hp⟩ pk hlive
    obtain rfl := Except.ok.inj (hrows.symm.trans hrows')
    obtain rfl := Except.ok.inj (hall.symm.trans hall')
    exact hpm.mp hp pk _ (rowAt_eq_some_iff.mpr ⟨hlive, rfl⟩)
  · intro hag
    refine ⟨rows, all, hrows, hall, hpm.mpr fun pk r hr => ?_⟩
    obtain ⟨hlive, rfl⟩ := rowAt_eq_some_iff.mp hr
    exact hag pk hlive

/-! ## Arguments of the class of their column -/

/-- The values an affinity keeps apart exactly as SQL does: those of its own storage class,
and of the doubles all but the two zeros and `NaN`. -/
def Value.Exact (affinity : Affinity) : Value → Prop
  | .integer _ => affinity = .integer
  | .float f => affinity = .real ∧ ∃ z, f.order = some z ∧ z ≠ 0
  | .text _ => affinity = .text
  | .blob _ => affinity = .blob
  | .null | .unchanged => False

theorem coerce_eq_iff_sqlEq {affinity : Affinity} {x y : Value} (hx : x.Exact affinity)
    (hy : y.Exact affinity) :
    coerce affinity x = coerce affinity y ↔ sqlEq affinity x y = true := by
  rw [sqlEq_iff]
  cases x with
  | integer i =>
    obtain rfl : affinity = .integer := hx
    cases y <;> simp only [Value.Exact, reduceCtorEq, false_and] at hy
    rw [sqlCompare_integer, Option.some.injEq, compare_eq_iff_eq, Int64.toInt_inj]
    simp [coerce, Value.toInt64]
  | float f =>
    obtain ⟨rfl, u, hf, hu⟩ := hx
    cases y <;> simp only [Value.Exact, reduceCtorEq, true_and] at hy
    obtain ⟨w, hg, hw⟩ := hy
    rw [sqlCompare_real hf hg, Option.some.injEq, compare_eq_iff_eq]
    simp only [coerce, Value.float.injEq]
    constructor
    · rintro rfl
      exact Option.some.inj (hf.symm.trans hg)
    · rintro rfl
      exact F64.eq_of_order hf hg hu
  | text b =>
    obtain rfl : affinity = .text := hx
    cases y <;> simp only [Value.Exact, reduceCtorEq, false_and] at hy
    rw [sqlCompare_text]
    simp [coerce, Value.toBytes]
  | blob b =>
    obtain rfl : affinity = .blob := hx
    cases y <;> simp only [Value.Exact, reduceCtorEq, false_and] at hy
    rw [sqlCompare_blob]
    simp [coerce, Value.toBytes]
  | null | unchanged => exact hx.elim

/-- Stored columns and arguments of the class of the column cast alike exactly when they
compare equal. -/
theorem castsAlike_iff_of_exact {cols : List Value}
    (h : ∀ p ∈ ords.zip argv, (row (utf8 (tbl.nameAt p.1))).isSome = true ∧
      (valueAt cols p.1).Exact (tbl.affinityAt p.1) ∧
        p.2.Exact (tbl.affinityAt p.1)) :
    CastsAlike tbl ords argv row cols ↔ ComparesEqual tbl ords argv cols = true := by
  rw [ComparesEqual, all_eq_true]
  refine forall₂_congr fun p hp => ?_
  obtain ⟨hst, hcol, harg⟩ := h p hp
  rw [coerce_eq_iff_sqlEq hcol harg]
  simp [hst]

end Agreement

/-! ## A lookup of `NULL` -/

section Sample

local instance equalityHost : Host := Host.inert

local instance equalityKeytrie : Keytrie := Keytrie.ofPrefix

theorem readable_rowZero : Readable rowZero keyTable := by
  obtain ⟨hi, tbl, h⟩ : rowZero.Inv := by
    refine freshTable_keyTable.inv.step admissible_rowZero fun tbl hs hsyn => ?_
    obtain rfl := Except.ok.inj (hs.symm.trans freshTable_keyTable.stored)
    cases hsyn
  have hkey : storedSchema rowZero.store rowZero.vtab.name = .ok keyTable := by rfl
  obtain rfl := Except.ok.inj (h.stored.symm.trans hkey)
  exact readable_of_idle hi h (by rfl)

/-- `SELECT * FROM t WHERE id = NULL` returns the row `0`. -/
theorem null_finds_rowZero :
    Readable rowZero keyTable ∧ Plan.pkEquality.constrained keyTable = some [0] ∧
      runPlan rowZero .pkEquality [.null] = .ok [⟨pkOfRowID 0, [.integer 0]⟩] ∧
      ¬ AgreesWithScan rowZero keyTable .pkEquality [0] [.null] := by
  have hp : runPlan rowZero .pkEquality [.null] = .ok [⟨pkOfRowID 0, [.integer 0]⟩] := by rfl
  have hsc : filterFullScan rowZero = .ok [⟨pkOfRowID 0, [.integer 0]⟩] := by rfl
  refine ⟨readable_rowZero, rfl, hp, ?_⟩
  rintro ⟨rows, all, hrows, hall, hpm⟩
  obtain rfl := Except.ok.inj (hp.symm.trans hrows)
  obtain rfl := Except.ok.inj (hsc.symm.trans hall)
  exact absurd hpm.length_eq (by decide)

/-- The key of every row is stored as an integer. -/
theorem exact_rowZero (hlive : Live rowZero.view keyTable.tableID pk) :
    (rowOf rowZero.view keyTable.tableID pk (utf8 "id")).isSome = true ∧
      (valueAt (readRow keyTable pk (rowOf rowZero.view keyTable.tableID pk)) 0).Exact
        .integer := by
  obtain ⟨cols, henc, hfs⟩ := (readable_rowZero.inv.rows pk).spelled rfl hlive
  obtain ⟨hnull, hrow⟩ := hfs 0 (mem_singleton.mpr rfl)
  constructor
  · obtain ⟨q, hq⟩ := exists_setEncodedValue hnull
    rw [← Option.isSome_some (a := q), ← hq, ← hrow]
    rfl
  · have hcol : keyTable.columns[0]? = some ⟨"id", .integer, "INTEGER", true, true, none⟩ := rfl
    rw [valueAt_readRow hcol, readColumn_key keyTable_wellFormed (fun _ => henc) hcol
      (mem_singleton.mpr rfl)]
    rfl

/-- A lookup of an integer agrees with the scan. -/
theorem agreesWithScan_rowZero : AgreesWithScan rowZero keyTable .pkEquality [0] [.integer 0] := by
  refine (agreesWithScan_iff readable_rowZero rfl rfl).mpr fun pk hlive => ?_
  refine castsAlike_iff_of_exact fun p hp => ?_
  obtain rfl : p = (0, .integer 0) := List.mem_singleton.mp hp
  obtain ⟨hst, hexact⟩ := exact_rowZero hlive
  exact ⟨hst, hexact, rfl⟩

end Sample

end Swytch.Sql
