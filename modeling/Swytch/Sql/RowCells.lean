import Swytch.Sql.Rows

/-!
# The fields of a row under each statement

Which fields `INSERT`, same-key `UPDATE` and `DELETE` leave on the row they write.  In a
row that was written through the layer every field belongs to a column, or is the rowid
marker of a table without a declared key, and the fields of the key columns spell the row
key (`RowsWellFormed`).  The tuple read back from such a row matches its fields.
-/

namespace Swytch.Sql

open TableSchema
open List
open KeyedStore

variable {f : Bytes} {tbl : TableSchema} {i ord : ℕ} {oldSnap : Option Fields}

/-- The virtual table was declared for this table; its list of indexes may be out of
date. -/
structure VTable.Declares (v : VTable) (tbl : TableSchema) : Prop where
  name_eq : tbl.name = v.name
  tableID_eq : v.schema.tableID = tbl.tableID
  columns_eq : v.schema.columns = tbl.columns
  pkColumns_eq : v.schema.pkColumns = tbl.pkColumns
  syntheticPK_eq : v.schema.syntheticPK = tbl.syntheticPK

namespace VTable.Declares

variable {v : VTable} (h : v.Declares tbl)

include h

theorem nameAt_eq (ord : ℕ) : v.schema.nameAt ord = tbl.nameAt ord := by
  simp [nameAt, h.columns_eq]

theorem affinityAt_eq (ord : ℕ) : v.schema.affinityAt ord = tbl.affinityAt ord := by
  simp [affinityAt, h.columns_eq]

theorem pkAffinities_eq : v.schema.pkAffinities = tbl.pkAffinities := by
  have haff : v.schema.affinityAt = tbl.affinityAt := funext h.affinityAt_eq
  simp [pkAffinities, h.syntheticPK_eq, h.pkColumns_eq, haff]

theorem pkValues_eq (cols : List Value) : v.schema.pkValues cols = tbl.pkValues cols := by
  simp [pkValues, h.pkColumns_eq]

theorem isPKColumn_eq (ord : ℕ) : v.schema.isPKColumn ord = tbl.isPKColumn ord := by
  simp [isPKColumn, h.pkColumns_eq]

theorem enumColumns_eq : v.schema.enumColumns = tbl.enumColumns := by
  simp [enumColumns, h.columns_eq]

theorem isNull_of_pkPresent (hpr : pkPresent v cols = true) (hord : ord ∈ tbl.pkColumns) :
    (valueAt cols ord).isNull = false := by
  rw [pkPresent, h.pkColumns_eq, all_eq_true] at hpr
  simpa using hpr ord hord

end VTable.Declares

variable {key pk : Bytes} {w : Write} {col : ColumnSchema} {cols vals : List Value} {s : Store}
  {v : VTable}

/-- Fields are equal only for one column. -/
theorem TableSchema.WellFormed.field_inj (hwf : tbl.WellFormed) {j : ℕ} {col' : ColumnSchema}
    (hcol' : tbl.columns[j]? = some col') (hcol : tbl.columns[i]? = some col)
    (hn : utf8 col'.name = utf8 col.name) : j = i :=
  hwf.ord_inj hcol' hcol (utf8_inj.mp hn)

theorem enumColumns_getElem? (hcol : tbl.columns[i]? = some col) :
    tbl.enumColumns[i]? = some (col, i) := by
  simp [enumColumns, hcol]

/-! ## Inserted rows -/

theorem key_presenceWrites (hw : w ∈ presenceWrites v key cols) : w.key = key := by
  obtain ⟨ord, -, hw⟩ := mem_filterMap.mp hw
  obtain ⟨p, -, rfl⟩ := Option.map_eq_some_iff.mp hw
  rfl

theorem key_columnWrites (hw : w ∈ columnWrites tbl key cols) : w.key = key := by
  obtain ⟨⟨col, i⟩, -, hw⟩ := mem_filterMap.mp hw
  dsimp only at hw
  split at hw
  · cases hw
  · obtain ⟨p, -, rfl⟩ := Option.map_eq_some_iff.mp hw
    rfl

theorem key_newRow {rowid : Int64}
    (hw : w ∈ rowPresence v rowid key cols ++ columnWrites tbl key cols) : w.key = key := by
  rcases mem_append.mp hw with hw | hw
  · unfold rowPresence at hw
    split at hw
    · rw [mem_singleton.mp hw]
      rfl
    · exact key_presenceWrites hw
  · exact key_columnWrites hw

section Insert

variable (hwf : tbl.WellFormed) (hv : v.Declares tbl)

include hwf hv

/-- The fields of a written tuple: one for every column that is not `NULL`. -/
theorem mem_rowWrites :
    w ∈ presenceWrites v key vals ++ columnWrites tbl key vals ↔
      ∃ i col p, tbl.columns[i]? = some col ∧
        setEncodedValue (valueAt vals i) = some p ∧
        w = .put key (utf8 col.name) p := by
  simp only [mem_append, presenceWrites, columnWrites, mem_filterMap,
    Option.map_eq_some_iff, hv.pkColumns_eq, hv.nameAt_eq]
  constructor
  · rintro (⟨ord, hord, p, hp, rfl⟩ | ⟨⟨col, i⟩, hcol, hw⟩)
    · have hget := getElem?_eq_getElem (hwf.pk_lt ord hord)
      exact ⟨ord, _, p, hget, hp, by rw [nameAt_of_getElem? hget]⟩
    · split at hw
      · cases hw
      · obtain ⟨p, hp, rfl⟩ := Option.map_eq_some_iff.mp hw
        exact ⟨i, col, p, mem_enumColumns.mp hcol, hp, rfl⟩
  · rintro ⟨i, col, p, hcol, hp, rfl⟩
    by_cases hpk : i ∈ tbl.pkColumns
    · exact .inl ⟨i, hpk, p, hp, by rw [nameAt_of_getElem? hcol]⟩
    · refine .inr ⟨(col, i), mem_enumColumns.mpr hcol, ?_⟩
      have hnot : tbl.isPKColumn i = false := by
        rw [← Bool.not_eq_true, isPKColumn_iff]
        exact hpk
      simp [hnot, hp]

/-- A column's field after its tuple is written. -/
theorem assigned_rowWrites (key : Bytes) (vals : List Value) (hcol : tbl.columns[i]? = some col) :
    assigned (presenceWrites v key vals ++ columnWrites tbl key vals) key (utf8 col.name) =
      (setEncodedValue (valueAt vals i)).map some := by
  cases hval : setEncodedValue (valueAt vals i) with
  | none =>
    refine assigned_eq_none fun w hw _ hf => ?_
    obtain ⟨j, col', p, hcol', hp, rfl⟩ := (mem_rowWrites hwf hv).mp hw
    obtain rfl := hwf.field_inj hcol' hcol hf
    rw [hval] at hp
    cases hp
  | some p =>
    refine assigned_eq_some
      ⟨_, (mem_rowWrites hwf hv).mpr ⟨i, col, p, hcol, hval, rfl⟩, rfl, rfl⟩ fun w hw _ hf => ?_
    obtain ⟨j, col', p', hcol', hp', rfl⟩ := (mem_rowWrites hwf hv).mp hw
    obtain rfl := hwf.field_inj hcol' hcol hf
    rw [hval] at hp'
    cases hp'
    rfl

/-- A written tuple sets no field but those of its columns. -/
theorem assigned_rowWrites_eq_none (key : Bytes) (vals : List Value)
    (hf : ∀ col ∈ tbl.columns, utf8 col.name ≠ f) :
    assigned (presenceWrites v key vals ++ columnWrites tbl key vals) key f = none := by
  refine assigned_eq_none fun w hw _ hfw => ?_
  obtain ⟨i, col, p, hcol, -, rfl⟩ := (mem_rowWrites hwf hv).mp hw
  exact hf col (mem_of_getElem? hcol) hfw

/-- The fields a new row gets: those of its tuple, and the rowid marker below them. -/
theorem assigned_newRow (rowid : Int64) (key : Bytes) (cols : List Value) (f : Bytes) :
    assigned (rowPresence v rowid key cols ++ columnWrites tbl key cols) key f =
      (assigned (presenceWrites v key cols ++ columnWrites tbl key cols) key f).or
        (if tbl.syntheticPK = true ∧ f = utf8 rowFieldSyntheticRowID
          then some (some (.intVal rowid)) else none) := by
  unfold rowPresence
  rw [hv.syntheticPK_eq]
  cases hsyn : tbl.syntheticPK with
  | false => simp
  | true =>
    have hnil : presenceWrites v key cols = [] := by
      simp [presenceWrites, hv.pkColumns_eq, hwf.synthetic_iff.mp hsyn]
    rw [hnil, assigned_append]
    congr 1
    simp [assigned_cons, Write.key, Write.field, Write.result, eq_comm]

/-- A column's field in a written row: its value, or under a `NULL` the marker of its name
or what was there before. -/
theorem rowOf_written (pk : Bytes) (rowid : Int64) (cols : List Value)
    (hcol : tbl.columns[i]? = some col) :
    rowOf (applyAll (rowPresence v rowid (rowKey tbl.tableID pk) cols ++
        columnWrites tbl (rowKey tbl.tableID pk) cols) s) tbl.tableID pk (utf8 col.name) =
      (setEncodedValue (valueAt cols i)).or
        (if tbl.syntheticPK = true ∧ col.name = rowFieldSyntheticRowID then some (.intVal rowid)
          else rowOf s tbl.tableID pk (utf8 col.name)) := by
  rw [rowOf_applyAll, assigned_newRow hwf hv, assigned_rowWrites hwf hv _ _ hcol]
  cases setEncodedValue (valueAt cols i) with
  | some p => rfl
  | none =>
    by_cases hm : tbl.syntheticPK = true ∧ col.name = rowFieldSyntheticRowID
    all_goals simp [hm]

/-- A column's field in a new row: its value, or the marker under a `NULL` of its name. -/
theorem rowOf_newRow (hl : ¬ Live s tbl.tableID pk) (rowid : Int64) (cols : List Value)
    (hcol : tbl.columns[i]? = some col) :
    rowOf (applyAll (rowPresence v rowid (rowKey tbl.tableID pk) cols ++
        columnWrites tbl (rowKey tbl.tableID pk) cols) s) tbl.tableID pk (utf8 col.name) =
      (setEncodedValue (valueAt cols i)).or
        (if tbl.syntheticPK = true ∧ col.name = rowFieldSyntheticRowID
          then some (.intVal rowid) else none) := by
  rw [rowOf_written hwf hv pk rowid cols hcol, rowOf_eq_none_of_not_live hl]

end Insert

/-! ## Updated and deleted rows -/

def fieldWrite (key f : Bytes) : Option Payload → Write
  | none => .drop key f
  | some p => .put key f p

variable {p : Option Payload}

theorem key_fieldWrite (key : Bytes) : (fieldWrite key f p).key = key := by
  cases p <;> rfl

theorem field_fieldWrite (key : Bytes) : (fieldWrite key f p).field = f := by
  cases p <;> rfl

theorem result_fieldWrite (key : Bytes) : (fieldWrite key f p).result = p := by
  cases p <;> rfl

section Update

variable (hwf : tbl.WellFormed) (hv : v.Declares tbl)

include hv

theorem mem_updateWrites :
    w ∈ updateWrites v pk cols ↔
      ∃ i col, tbl.columns[i]? = some col ∧ tbl.isPKColumn i = false ∧
        (valueAt cols i).noChange = false ∧
        w = fieldWrite (rowKey tbl.tableID pk) (utf8 col.name)
          (setEncodedValue (valueAt cols i)) := by
  simp only [updateWrites, mem_filterMap, hv.enumColumns_eq, hv.isPKColumn_eq,
    hv.tableID_eq]
  constructor
  · rintro ⟨⟨col, i⟩, hcol, hw⟩
    split at hw
    · cases hw
    · rename_i hskip
      obtain ⟨hpk, hnc⟩ : tbl.isPKColumn i = false ∧
          (valueAt cols i).noChange = false := by
        simpa using hskip
      refine ⟨i, col, mem_enumColumns.mp hcol, hpk, hnc, ?_⟩
      cases hval : setEncodedValue (valueAt cols i) <;> simp_all [fieldWrite]
  · rintro ⟨i, col, hcol, hpk, hnc, rfl⟩
    refine ⟨(col, i), mem_enumColumns.mpr hcol, ?_⟩
    cases hval : setEncodedValue (valueAt cols i) <;> simp [hpk, hnc, fieldWrite]

include hwf in
/-- A column's field under a same-key update: key columns and columns that are not supplied
are left alone. -/
theorem assigned_updateWrites (pk : Bytes) (cols : List Value) (hcol : tbl.columns[i]? = some col) :
    assigned (updateWrites v pk cols) (rowKey tbl.tableID pk) (utf8 col.name) =
      if tbl.isPKColumn i || (valueAt cols i).noChange then none
      else some (setEncodedValue (valueAt cols i)) := by
  split
  · rename_i hskip
    refine assigned_eq_none fun w hw _ hf => ?_
    obtain ⟨j, col', hcol', hpk, hnc, rfl⟩ := (mem_updateWrites hv).mp hw
    rw [field_fieldWrite] at hf
    obtain rfl := hwf.field_inj hcol' hcol hf
    simp [hpk, hnc] at hskip
  · rename_i hkeep
    obtain ⟨hpk, hnc⟩ : tbl.isPKColumn i = false ∧
        (valueAt cols i).noChange = false := by
      simpa using hkeep
    refine assigned_eq_some
      ⟨_, (mem_updateWrites hv).mpr ⟨i, col, hcol, hpk, hnc, rfl⟩,
        key_fieldWrite .., field_fieldWrite ..⟩ fun w hw _ hf => ?_
    obtain ⟨j, col', hcol', -, -, rfl⟩ := (mem_updateWrites hv).mp hw
    rw [field_fieldWrite] at hf
    obtain rfl := hwf.field_inj hcol' hcol hf
    exact result_fieldWrite ..

/-- A same-key update touches no field but those of its columns. -/
theorem assigned_updateWrites_eq_none (pk : Bytes) (cols : List Value)
    (hf : ∀ col ∈ tbl.columns, utf8 col.name ≠ f) :
    assigned (updateWrites v pk cols) (rowKey tbl.tableID pk) f = none := by
  refine assigned_eq_none fun w hw _ hfw => ?_
  obtain ⟨i, col, hcol, -, -, rfl⟩ := (mem_updateWrites hv).mp hw
  rw [field_fieldWrite] at hfw
  exact hf col (mem_of_getElem? hcol) hfw

theorem key_updateWrites (hw : w ∈ updateWrites v pk cols) : w.key = rowKey tbl.tableID pk := by
  obtain ⟨i, col, -, -, -, rfl⟩ := (mem_updateWrites hv).mp hw
  exact key_fieldWrite ..

include hwf in
/-- A column's field after a same-key update that supplies every column. -/
theorem rowOf_updateWrites (pk : Bytes)
    (hsup : ∀ i, (valueAt cols i).noChange = false) (hcol : tbl.columns[i]? = some col) :
    rowOf (applyAll (updateWrites v pk cols) s) tbl.tableID pk (utf8 col.name) =
      if tbl.isPKColumn i then rowOf s tbl.tableID pk (utf8 col.name)
      else setEncodedValue (valueAt cols i) := by
  rw [rowOf_applyAll, assigned_updateWrites hwf hv pk cols hcol, hsup i, Bool.or_false]
  split <;> rfl

theorem mem_deleteWrites :
    w ∈ deleteWrites v pk ↔
      (∃ col ∈ tbl.columns, w = .drop (rowKey tbl.tableID pk) (utf8 col.name)) ∨
        (tbl.syntheticPK = true ∧
          w = .drop (rowKey tbl.tableID pk) (utf8 rowFieldSyntheticRowID)) := by
  simp only [deleteWrites, hv.columns_eq, hv.tableID_eq, hv.syntheticPK_eq]
  cases tbl.syntheticPK <;> simp [eq_comm]

/-- A field that a row of the table can have. -/
def TableSchema.HasField (tbl : TableSchema) (f : Bytes) : Prop :=
  (∃ col ∈ tbl.columns, f = utf8 col.name) ∨
    (tbl.syntheticPK = true ∧ f = utf8 rowFieldSyntheticRowID)

theorem assigned_deleteWrites (pk : Bytes) (hf : tbl.HasField f) :
    assigned (deleteWrites v pk) (rowKey tbl.tableID pk) f = some none := by
  refine assigned_eq_some ?_ fun w hw _ _ => ?_
  · rcases hf with ⟨col, hcol, rfl⟩ | ⟨hsyn, rfl⟩
    · exact ⟨_, (mem_deleteWrites hv).mpr (.inl ⟨col, hcol, rfl⟩), rfl, rfl⟩
    · exact ⟨_, (mem_deleteWrites hv).mpr (.inr ⟨hsyn, rfl⟩), rfl, rfl⟩
  · rcases (mem_deleteWrites hv).mp hw with ⟨col, -, rfl⟩ | ⟨-, rfl⟩ <;> rfl

theorem key_deleteWrites (hw : w ∈ deleteWrites v pk) : w.key = rowKey tbl.tableID pk := by
  rcases (mem_deleteWrites hv).mp hw with ⟨col, -, rfl⟩ | ⟨-, rfl⟩ <;> rfl

end Update

/-- The values of the row a key change writes, by column. -/
theorem valueAt_pkChangeVals_eq (hcol : tbl.columns[i]? = some col) :
    valueAt (pkChangeVals tbl oldSnap cols) i =
      if (valueAt cols i).noChange && oldSnap.isSome then carriedValue col oldSnap
      else valueAt cols i := by
  rw [valueAt, pkChangeVals, getElem?_map, enumColumns_getElem? hcol]
  rfl

/-- With every column supplied, a key change writes the supplied tuple. -/
theorem valueAt_pkChangeVals (hsup : ∀ i, (valueAt cols i).noChange = false)
    (hcol : tbl.columns[i]? = some col) :
    valueAt (pkChangeVals tbl oldSnap cols) i = valueAt cols i := by
  rw [valueAt_pkChangeVals_eq hcol, hsup i]
  rfl

/-! ## Inputs an index cannot see through -/

/-- The value a tuple gives a column name. -/
def TableSchema.valueOf (tbl : TableSchema) (cols : List Value) (n : String) : Value :=
  (IndexSchema.columnOrdinal tbl n).elim .null (TableSchema.valueAt cols)

/-- The name of a key column. -/
def TableSchema.IsKeyName (tbl : TableSchema) (n : String) : Prop :=
  ∃ ord ∈ tbl.pkColumns, tbl.nameAt ord = n

/-- In a table without a declared key, a `NULL` for an indexed column called like the rowid
marker comes with another `NULL` in the same index. -/
def MarkerVisible (tbl : TableSchema) (cols : List Value) : Prop :=
  tbl.syntheticPK = true → ∀ idx ∈ tbl.indexes, rowFieldSyntheticRowID ∈ idx.columns →
    (tbl.valueOf cols rowFieldSyntheticRowID).isNull = true →
    ∃ n ∈ idx.columns, n ≠ rowFieldSyntheticRowID ∧ (tbl.valueOf cols n).isNull = true

/-- A `NULL` for an indexed key column comes with a `NULL` for a column of the same index
outside the key. -/
def KeyNullVisible (tbl : TableSchema) (cols : List Value) : Prop :=
  ∀ idx ∈ tbl.indexes, ∀ n ∈ idx.columns, tbl.IsKeyName n → (tbl.valueOf cols n).isNull = true →
    ∃ n' ∈ idx.columns, ¬ tbl.IsKeyName n' ∧ (tbl.valueOf cols n').isNull = true

theorem valueOf_eq {n : String} (h : IndexSchema.columnOrdinal tbl n = some ord) :
    tbl.valueOf cols n = valueAt cols ord := by
  simp [valueOf, h]

/-- Names of key columns, by ordinal. -/
theorem isKeyName_iff (hwf : tbl.WellFormed) (hcol : tbl.columns[ord]? = some col) :
    tbl.IsKeyName col.name ↔ ord ∈ tbl.pkColumns := by
  constructor
  · rintro ⟨ord', hord', hn⟩
    have hget := getElem?_eq_getElem (hwf.pk_lt ord' hord')
    rw [nameAt_of_getElem? hget] at hn
    rwa [hwf.ord_inj hcol hget hn.symm]
  · intro h
    exact ⟨ord, h, nameAt_of_getElem? hcol⟩

theorem pkPosition_eq_some {pos : ℕ} (h : tbl.pkPosition i = some pos) :
    tbl.pkColumns[pos]? = some i := by
  obtain ⟨hlt, heq, -⟩ := findIdx?_eq_some_iff_getElem.mp h
  rw [getElem?_eq_getElem hlt]
  simpa using heq

theorem pkPosition_eq_none :
    tbl.pkPosition i = none ↔ i ∉ tbl.pkColumns := by
  simp only [pkPosition, findIdx?_eq_none_iff, beq_eq_false_iff_ne]
  constructor
  · intro h hi
    exact h i hi rfl
  · rintro h x hx rfl
    exact h hx

/-- A column of a row read back from its fields. -/
theorem valueAt_rowFromFields {snap : Fields} {absent : ColumnSchema → Value}
    (hcol : tbl.columns[i]? = some col) :
    valueAt (rowFromFields tbl pk snap absent) i =
      columnFromFields tbl pk snap absent col i := by
  simp [valueAt, rowFromFields, enumColumns_getElem? hcol]

end Swytch.Sql
