import Swytch.Sql.ReadPath
import Swytch.Sql.Runs

/-!
# Reading a row back

A written column reads back as it was written when nothing between the two codecs touches
it.  A key column goes through the row key, which keeps its value up to coercion; any other
column goes through its field, which keeps a value but not whether it was a text or a blob.
`NULL` is an absent field, and an absent field reads as the `DEFAULT` of its column: a
`NULL` is kept where the column has no default and nothing else puts a value there.

For each of the three ways a statement writes a row, the columns it keeps are exactly those
that meet such a condition on the tuple and on the rows before the statement.
-/

namespace Swytch.Sql

variable {affinity : Affinity} {row : Bytes → Option Payload}

open Conn
open TableSchema
open KeyedStore TxM

variable {s : Store} {pk : Bytes} {v : VTable} {tbl : TableSchema} {cols : List Value}
    {col : ColumnSchema} {i : ℕ}

/-! ## What a column reads as -/

/-- A column outside the key, read from its field. -/
def readField (col : ColumnSchema) (p? : Option Payload) : Value :=
  p?.elim (defaultValueToSqlite col.default) fun p => decodeValue p col.affinity

@[simp] theorem readField_some (col : ColumnSchema) (p : Payload) :
    readField col (some p) = decodeValue p col.affinity := rfl

@[simp] theorem readField_none (col : ColumnSchema) :
    readField col none = defaultValueToSqlite col.default := rfl

theorem live_iff {tid : Bytes} :
    Live s tid pk ↔ ∃ snap : Fields, s[rowKey tid pk]? = some snap ∧ snap.isEmpty = false := by
  constructor
  · intro hl
    obtain ⟨snap, hs⟩ := hl.exists_snap
    obtain ⟨f, hf⟩ := hl
    refine ⟨snap, hs, ?_⟩
    rw [← Bool.not_eq_true, Std.ExtTreeMap.isEmpty_iff]
    rintro rfl
    rw [rowOf_eq_getElem? hs] at hf
    simp at hf
  · rintro ⟨snap, hs, hne⟩
    obtain ⟨f, hf⟩ : ∃ f, f ∈ snap := by
      by_contra hn
      rw [← Bool.not_eq_true, Std.ExtTreeMap.isEmpty_iff] at hne
      refine hne (Std.ExtTreeMap.ext_getElem? fun f => ?_)
      have hf : f ∉ snap := fun hf => hn ⟨f, hf⟩
      rw [Std.ExtTreeMap.getElem?_eq_none hf]
      simp
    refine ⟨f, ?_⟩
    rw [rowOf_eq_getElem? hs]
    exact Std.ExtTreeMap.isSome_getElem?_iff_mem.mpr hf

/-- A column of a row, read from the row key or from its field. -/
def readColumn (tbl : TableSchema) (pk : Bytes) (row : Bytes → Option Payload)
    (col : ColumnSchema) (i : ℕ) : Value :=
  match tbl.pkPosition i with
  | some pos => (decodePK pk tbl.pkAffinities)[pos]?.getD .null
  | none => readField col (row (utf8 col.name))

/-- The row a key and its fields spell. -/
def readRow (tbl : TableSchema) (pk : Bytes) (row : Bytes → Option Payload) : List Value :=
  tbl.enumColumns.map fun (col, i) => readColumn tbl pk row col i

theorem loadRow_congr {v' : VTable} (hn : v'.name = v.name)
    (hsch : v'.schema = v.schema) : loadRow v' s pk = loadRow v s pk := by
  rw [loadRow, loadRow, hn, hsch]

theorem rowFromFields_eq_readRow {snap : Fields} (hs : s[rowKey tbl.tableID pk]? = some snap) :
    rowFromFields tbl pk snap (fun col => defaultValueToSqlite col.default) =
      readRow tbl pk (rowOf s tbl.tableID pk) := by
  refine List.map_congr_left fun ⟨col, i⟩ _ => ?_
  simp only [columnFromFields, readColumn, rowOf_eq_getElem? hs]
  all_goals cases tbl.pkPosition i <;> rfl

theorem loadRow_of_live (hpk : v.schema.hasPK = true) (hl : Live s v.schema.tableID pk) :
    loadRow v s pk = .ok (some ⟨pk, readRow v.schema pk (rowOf s v.schema.tableID pk)⟩) := by
  obtain ⟨snap, hs, hne⟩ := live_iff.mp hl
  simp [loadRow, hpk, hs, hne, rowFromFields_eq_readRow hs]

theorem loadRow_of_not_live (hpk : v.schema.hasPK = true)
    (hl : ¬ Live s v.schema.tableID pk) : loadRow v s pk = .ok none := by
  unfold loadRow
  rw [hpk]
  cases hs : s[rowKey v.schema.tableID pk]? with
  | none => rfl
  | some snap =>
    have hnil : snap.isEmpty = true := by
      by_contra hne
      exact hl (live_iff.mpr ⟨snap, hs, by simpa using hne⟩)
    simp [hnil]

theorem loadRow_eq_iff (hpk : v.schema.hasPK = true) :
    loadRow v s pk = .ok (some ⟨pk, cols⟩) ↔ Live s v.schema.tableID pk ∧
      readRow v.schema pk (rowOf s v.schema.tableID pk) = cols := by
  by_cases hl : Live s v.schema.tableID pk
  · simp [loadRow_of_live hpk hl, hl]
  · simp [loadRow_of_not_live hpk hl, hl]

/-! ## What survives the codecs -/

/-- The storage class the row key keeps for an affinity. -/
def Value.KeyClass (affinity : Affinity) : Value → Prop
  | .integer _ => affinity = .integer
  | .float _ => affinity = .real
  | .blob _ => affinity = .blob
  | .text _ => affinity = .text ∨ affinity = .numeric ∨ affinity = .unresolved
  | .null | .unchanged => False

/-- The values the field of a column keeps: of texts and blobs, the kind its affinity
names. -/
def Value.FieldClass (affinity : Affinity) : Value → Prop
  | .text _ => affinity ≠ .blob
  | .blob _ => affinity = .blob
  | _ => True

theorem coerce_eq_self_iff [Host] {v : Value} :
    coerce affinity v = v ↔ v.KeyClass affinity := by
  cases affinity <;> cases v <;> simp [coerce, Value.KeyClass, Value.toInt64, Value.toFloat,
    Value.toBytes]

variable {p : Payload} {previous : ColumnSchema → ℕ → Value} {oldPK : Bytes}

theorem decodeValue_eq_self_iff {v : Value} (h : setEncodedValue v = some p) :
    decodeValue p affinity = v ↔ v.FieldClass affinity := by
  cases v <;> cases h <;> cases affinity <;> simp [decodeValue, Value.FieldClass]

theorem decodeValue_decodeValue {q : Payload}
    (h : setEncodedValue (decodeValue p affinity) = some q) :
    decodeValue q affinity = decodeValue p affinity := by
  rw [decodeValue_eq_self_iff h]
  cases p <;> cases affinity <;> simp [decodeValue, Value.FieldClass]

/-- The row a statement is to leave: the supplied values, and the previous value of a
column that is not supplied. -/
def writtenRow (tbl : TableSchema) (previous : ColumnSchema → ℕ → Value) (cols : List Value) :
    List Value :=
  tbl.enumColumns.map fun (col, i) =>
    if (TableSchema.valueAt cols i).noChange then previous col i else TableSchema.valueAt cols i

theorem readRow_eq_writtenRow_iff :
    readRow tbl pk row = writtenRow tbl previous cols ↔
      ∀ i col, tbl.columns[i]? = some col → readColumn tbl pk row col i =
        if (valueAt cols i).noChange then previous col i
        else valueAt cols i := by
  rw [readRow, writtenRow, List.map_inj_left]
  constructor
  · intro h i col hcol
    exact h (col, i) (mem_enumColumns.mpr hcol)
  · rintro h ⟨col, i⟩ hmem
    exact h i col (mem_enumColumns.mp hmem)

theorem VTable.Declares.readRow_eq (hv : v.Declares tbl)
    (pk : Bytes) (row : Bytes → Option Payload) :
    readRow v.schema pk row = readRow tbl pk row := by
  have hpos (i : ℕ) : v.schema.pkPosition i = tbl.pkPosition i := by
    rw [pkPosition, pkPosition, hv.pkColumns_eq]
  have hcol (col : ColumnSchema) (i : ℕ) :
      readColumn v.schema pk row col i = readColumn tbl pk row col i := by
    rw [readColumn, readColumn, hpos, hv.pkAffinities_eq]
  simp only [readRow, hv.enumColumns_eq, hcol]

theorem VTable.Declares.hasPK_eq (hv : v.Declares tbl) :
    v.schema.hasPK = tbl.hasPK := by
  rw [hasPK, hasPK, hv.syntheticPK_eq, hv.pkColumns_eq]

theorem TableSchema.WellFormed.hasPK_eq_true (hwf : tbl.WellFormed) :
    tbl.hasPK = true := by
  rw [hasPK, Bool.or_eq_true, hwf.synthetic_iff]
  cases tbl.pkColumns <;> simp

/-- Reading a row back is reading its columns back. -/
theorem loadRow_written_iff (hwf : tbl.WellFormed) (hv : v.Declares tbl) :
    loadRow v s pk = .ok (some ⟨pk, writtenRow tbl previous cols⟩) ↔
      Live s tbl.tableID pk ∧ ∀ i col, tbl.columns[i]? = some col →
        readColumn tbl pk (rowOf s tbl.tableID pk) col i =
          if (valueAt cols i).noChange then previous col i
          else valueAt cols i := by
  rw [loadRow_eq_iff (hv.hasPK_eq.trans hwf.hasPK_eq_true), hv.readRow_eq, hv.tableID_eq,
    readRow_eq_writtenRow_iff]

theorem readColumn_field (hkey : i ∉ tbl.pkColumns) :
    readColumn tbl pk row col i = readField col (row (utf8 col.name)) := by
  rw [readColumn, pkPosition_eq_none.mpr hkey]

theorem readColumn_key_congr {row' : Bytes → Option Payload} (hkey : i ∈ tbl.pkColumns) :
    readColumn tbl pk row col i = readColumn tbl pk row' col i := by
  rw [readColumn, readColumn]
  cases hpos : tbl.pkPosition i with
  | none => exact absurd hkey (pkPosition_eq_none.mp hpos)
  | some pos => rfl

theorem carriedValue_eq (col : ColumnSchema) :
    carriedValue col s[rowKey tbl.tableID oldPK]? =
      (rowOf s tbl.tableID oldPK (utf8 col.name)).elim .null
        fun p => decodeValue p col.affinity := by
  cases hs : s[rowKey tbl.tableID oldPK]? with
  | none => rw [rowOf, cell_of_getElem?_eq_none hs]; rfl
  | some snap =>
    rw [rowOf_eq_getElem? hs, carriedValue]
    cases snap[utf8 col.name]? <;> rfl

/-- What a key change writes to the field of a column that is not supplied: a copy of the
old field. -/
theorem setEncodedValue_pkChangeVals (hcol : tbl.columns[i]? = some col)
    (hnc : (valueAt cols i).noChange = true) :
    setEncodedValue (valueAt (pkChangeVals tbl s[rowKey tbl.tableID oldPK]? cols) i) =
      (rowOf s tbl.tableID oldPK (utf8 col.name)).bind
        fun p => setEncodedValue (decodeValue p col.affinity) := by
  rw [valueAt_pkChangeVals_eq hcol, hnc]
  split
  · rw [carriedValue_eq]
    cases rowOf s tbl.tableID oldPK (utf8 col.name) <;> rfl
  · rename_i hn
    have hs : s[rowKey tbl.tableID oldPK]? = none := by simpa using hn
    rw [rowOf, cell_of_getElem?_eq_none hs,
      setEncodedValue_eq_none_iff.mpr (Value.isNull_of_noChange hnc)]
    rfl

/-- A table with a declared key has a key column. -/
theorem TableSchema.WellFormed.exists_pkColumn (hwf : tbl.WellFormed)
    (hsyn : tbl.syntheticPK = false) :
    ∃ ord col, ord ∈ tbl.pkColumns ∧ tbl.columns[ord]? = some col := by
  obtain ⟨ord, hord⟩ : ∃ ord, ord ∈ tbl.pkColumns := by
    refine List.exists_mem_of_ne_nil _ fun hnil => ?_
    rw [hwf.synthetic_iff.mpr hnil] at hsyn
    cases hsyn
  exact ⟨ord, _, hord, List.getElem?_eq_getElem (hwf.pk_lt ord hord)⟩

theorem Value.eq_null {val : Value} (hnull : val.isNull = true) (hnc : val.noChange = false) :
    val = .null := by
  cases val <;> simp_all [Value.noChange]

section Statements

variable [Host] {newPK : Bytes}

section Writes

variable (hwf : tbl.WellFormed) (hv : v.Declares tbl)

include hwf

/-- A key column reads back as the coercion of what was written. -/
theorem readColumn_key
    (hpk : tbl.syntheticPK = false → encodePK (tbl.pkValues cols) tbl.pkAffinities = some pk)
    (hcol : tbl.columns[i]? = some col) (hkey : i ∈ tbl.pkColumns) (row : Bytes → Option Payload) :
    readColumn tbl pk row col i = coerce col.affinity (valueAt cols i) := by
  have hsyn := hwf.syntheticPK_eq_false (List.ne_nil_of_mem hkey)
  rw [readColumn]
  cases hpos : tbl.pkPosition i with
  | none => exact absurd hkey (pkPosition_eq_none.mp hpos)
  | some pos =>
    simp [decodePK_getElem? hsyn (hpk hsyn) hpos, affinityAt_of_getElem? hcol]

include hv

/-! ## `INSERT` -/

/-- The columns an `INSERT` keeps: a key column of the class its affinity names; a value its
field keeps; and a `NULL` that neither the rowid marker, nor a field the row already has,
nor a default covers. -/
def KeptByInsert (tbl : TableSchema) (row : Bytes → Option Payload) (col : ColumnSchema) (i : ℕ)
    (val : Value) : Prop :=
  if i ∈ tbl.pkColumns then val.KeyClass col.affinity
  else if val.isNull then
    ¬ (tbl.syntheticPK = true ∧ col.name = rowFieldSyntheticRowID) ∧
      readField col (row (utf8 col.name)) = .null
  else val.FieldClass col.affinity

theorem readColumn_written_iff (rowid : Int64)
    (hpk : tbl.syntheticPK = false → encodePK (tbl.pkValues cols) tbl.pkAffinities = some pk)
    (hcol : tbl.columns[i]? = some col) :
    readColumn tbl pk (rowOf (applyAll (insertWrites v tbl rowid pk cols) s) tbl.tableID pk)
        col i = (if (valueAt cols i).noChange then .null
          else valueAt cols i) ↔
      KeptByInsert tbl (rowOf s tbl.tableID pk) col i (valueAt cols i) := by
  have hnull {val : Value} (h : val.isNull = true) :
      (if val.noChange then .null else val) = Value.null := by
    cases val <;> simp_all [Value.noChange]
  have hval {val : Value} (h : val.isNull = false) :
      (if val.noChange then .null else val) = val := by
    cases val <;> simp_all [Value.noChange]
  unfold KeptByInsert
  by_cases hkey : i ∈ tbl.pkColumns
  · rw [readColumn_key hwf hpk hcol hkey, if_pos hkey]
    cases hn : (valueAt cols i).isNull with
    | false => rw [hval hn, coerce_eq_self_iff]
    | true =>
      rw [hnull hn]
      refine iff_of_false (fun h => ?_) (fun h => ?_)
      · simpa using congrArg Value.isNull h
      · cases hv : valueAt cols i <;> simp_all [Value.KeyClass]
  · have hrow := rowOf_written (s := applyAll ((insertOps tbl cols).map (EntryOp.write pk)) s)
      hwf hv pk rowid cols hcol
    rw [readColumn_field hkey, if_neg hkey, insertWrites, applyAll_append, hrow,
      rowOf_applyAll_entryOps]
    cases hn : (valueAt cols i).isNull with
    | false =>
      obtain ⟨p, hp⟩ := exists_setEncodedValue hn
      simp [hp, hval hn, decodeValue_eq_self_iff hp]
    | true =>
      rw [hnull hn, setEncodedValue_eq_none_iff.mpr hn]
      by_cases hm : tbl.syntheticPK = true ∧ col.name = rowFieldSyntheticRowID
      · rw [if_pos hm]
        exact iff_of_false (by simp [decodeValue]) (fun h => h.1 hm)
      · rw [if_neg hm]
        exact ⟨fun h => ⟨hm, h⟩, fun h => h.2⟩

/-- An `INSERT` leaves a live row. -/
theorem live_insertWrites (rowid : Int64) (hacc : InsertAccepts s v tbl pk cols) :
    Live (applyAll (insertWrites v tbl rowid pk cols) s) tbl.tableID pk := by
  rw [insertWrites, applyAll_append]
  cases hsyn : tbl.syntheticPK with
  | false =>
    -- the field of any key column
    obtain ⟨ord, col, hord, hcol⟩ := hwf.exists_pkColumn hsyn
    have hpr := hacc.2.resolve_left (by simp [hv.syntheticPK_eq, hsyn])
    obtain ⟨p, hp⟩ := exists_setEncodedValue (hv.isNull_of_pkPresent hpr hord)
    refine ⟨utf8 col.name, ?_⟩
    rw [rowOf_written hwf hv pk rowid cols hcol, hp]
    rfl
  | true =>
    -- the marker, or the column that has its name
    refine ⟨utf8 rowFieldSyntheticRowID, ?_⟩
    obtain ⟨i, col, hi, hn⟩ | hcol := tbl.field_cases (utf8 rowFieldSyntheticRowID)
    · rw [← hn, rowOf_written hwf hv pk rowid cols hi, if_pos ⟨hsyn, utf8_inj.mp hn⟩]
      cases setEncodedValue (valueAt cols i) <;> rfl
    · rw [rowOf_applyAll, assigned_newRow hwf hv, assigned_rowWrites_eq_none hwf hv _ _ hcol]
      simp [hsyn]

/-- **What an `INSERT` reads back as.** -/
theorem loadRow_insertWrites_iff (rowid : Int64)
    (hpk : tbl.syntheticPK = false → encodePK (tbl.pkValues cols) tbl.pkAffinities = some pk)
    (hacc : InsertAccepts s v tbl pk cols) :
    loadRow v (applyAll (insertWrites v tbl rowid pk cols) s) pk =
        .ok (some ⟨pk, writtenRow tbl (fun _ _ => .null) cols⟩) ↔
      ∀ i col, tbl.columns[i]? = some col →
        KeptByInsert tbl (rowOf s tbl.tableID pk) col i (valueAt cols i) := by
  rw [loadRow_written_iff hwf hv, and_iff_right (live_insertWrites hwf hv rowid hacc)]
  exact forall_congr' fun i => forall_congr' fun col => imp_congr_right fun hcol =>
    readColumn_written_iff hwf hv rowid hpk hcol

/-! ## `UPDATE` in place -/

/-- The columns an `UPDATE` that stays in place keeps. -/
def KeptByUpdate (tbl : TableSchema) (col : ColumnSchema) (i : ℕ) (val : Value) : Prop :=
  val.noChange = true ∨
    if i ∈ tbl.pkColumns then val.KeyClass col.affinity
    else if val.isNull then defaultValueToSqlite col.default = .null
    else val.FieldClass col.affinity

/-- A field is left to the row: one the `UPDATE` does not write, or one it writes a value
to. -/
def RowKept (tbl : TableSchema) (row : Bytes → Option Payload) (cols : List Value) : Prop :=
  (∃ f, (row f).isSome = true ∧ ∀ i col, tbl.columns[i]? = some col → i ∉ tbl.pkColumns →
      (TableSchema.valueAt cols i).noChange = false → f ≠ utf8 col.name) ∨
    ∃ i col, tbl.columns[i]? = some col ∧ i ∉ tbl.pkColumns ∧
      (TableSchema.valueAt cols i).isNull = false

section

variable (pk : Bytes) (oldSnap : Option Fields) (cols : List Value)

/-- A column's field after an `UPDATE` in place. -/
theorem rowOf_samePKWrites (hcol : tbl.columns[i]? = some col) :
    rowOf (applyAll (samePKWrites v tbl pk oldSnap cols) s) tbl.tableID pk (utf8 col.name) =
      if i ∈ tbl.pkColumns ∨ (valueAt cols i).noChange = true
        then rowOf s tbl.tableID pk (utf8 col.name)
        else setEncodedValue (valueAt cols i) := by
  rw [samePKWrites, applyAll_append, rowOf_applyAll, assigned_updateWrites hwf hv pk cols hcol,
    rowOf_applyAll_entryOps]
  simp only [Bool.or_eq_true, isPKColumn_iff]
  split <;> rfl

omit hwf in
/-- A field of no column after an `UPDATE` in place. -/
theorem rowOf_samePKWrites_of_ne {f : Bytes} (hf : ∀ col ∈ tbl.columns, utf8 col.name ≠ f) :
    rowOf (applyAll (samePKWrites v tbl pk oldSnap cols) s) tbl.tableID pk f =
      rowOf s tbl.tableID pk f := by
  rw [samePKWrites, applyAll_append, rowOf_applyAll, assigned_updateWrites_eq_none hv pk cols hf,
    deltaOps, rowOf_applyAll_entryOps]
  rfl

theorem live_samePKWrites_iff :
    Live (applyAll (samePKWrites v tbl pk oldSnap cols) s) tbl.tableID pk ↔
      RowKept tbl (rowOf s tbl.tableID pk) cols := by
  constructor
  · rintro ⟨f, hf⟩
    obtain ⟨i, col, hi, rfl⟩ | hcol := tbl.field_cases f
    · rw [rowOf_samePKWrites hwf hv pk oldSnap cols hi] at hf
      split at hf
      · rename_i hskip
        refine .inl ⟨_, hf, fun j col' hj hjkey hjsup hn => ?_⟩
        obtain rfl := hwf.ord_inj hj hi (utf8_inj.mp hn.symm)
        rcases hskip with hkey | hnc
        · exact hjkey hkey
        · exact absurd (hnc.symm.trans hjsup) (by simp)
      · rename_i hskip
        refine .inr ⟨i, col, hi, fun hkey => hskip (.inl hkey), ?_⟩
        by_contra hnull
        rw [setEncodedValue_eq_none_iff.mpr (by simpa using hnull)] at hf
        cases hf
    · rw [rowOf_samePKWrites_of_ne hv pk oldSnap cols hcol] at hf
      exact .inl ⟨f, hf, fun i col hi _ _ hn => hcol col (List.mem_of_getElem? hi) hn.symm⟩
  · rintro (⟨f, hf, hkeep⟩ | ⟨i, col, hi, hkey, hnull⟩)
    · refine ⟨f, ?_⟩
      obtain ⟨i, col, hi, rfl⟩ | hcol := tbl.field_cases f
      · rw [rowOf_samePKWrites hwf hv pk oldSnap cols hi, if_pos, hf]
        by_contra hskip
        rw [not_or, Bool.not_eq_true] at hskip
        exact hkeep i col hi hskip.1 hskip.2 rfl
      · rw [rowOf_samePKWrites_of_ne hv pk oldSnap cols hcol, hf]
    · obtain ⟨p, hp⟩ := exists_setEncodedValue hnull
      refine ⟨utf8 col.name, ?_⟩
      rw [rowOf_samePKWrites hwf hv pk oldSnap cols hi, if_neg, hp]
      · rfl
      · rintro (hkey' | hnc)
        · exact hkey hkey'
        · rw [Value.isNull_of_noChange hnc] at hnull
          cases hnull

end

/-- **What an `UPDATE` in place reads back as.** -/
theorem loadRow_samePKWrites_iff (oldSnap : Option Fields)
    (hpk : tbl.syntheticPK = false → encodePK (tbl.pkValues cols) tbl.pkAffinities = some pk) :
    loadRow v (applyAll (samePKWrites v tbl pk oldSnap cols) s) pk =
        .ok (some ⟨pk, writtenRow tbl (readColumn tbl pk (rowOf s tbl.tableID pk)) cols⟩) ↔
      RowKept tbl (rowOf s tbl.tableID pk) cols ∧
        ∀ i col, tbl.columns[i]? = some col →
          KeptByUpdate tbl col i (valueAt cols i) := by
  rw [loadRow_written_iff hwf hv, live_samePKWrites_iff hwf hv]
  refine and_congr_right fun _ => forall_congr' fun i => forall_congr' fun col =>
    imp_congr_right fun hcol => ?_
  unfold KeptByUpdate
  cases hnc : (valueAt cols i).noChange with
  | true =>
    refine iff_of_true ?_ (.inl rfl)
    rw [if_pos rfl]
    by_cases hkey : i ∈ tbl.pkColumns
    · exact readColumn_key_congr hkey
    · rw [readColumn_field hkey, readColumn_field hkey,
        rowOf_samePKWrites hwf hv pk oldSnap cols hcol, if_pos (.inr hnc)]
  | false =>
    have hsup : ¬ (valueAt cols i).noChange = true := by simp [hnc]
    rw [if_neg (by simp), or_iff_right (by simp)]
    by_cases hkey : i ∈ tbl.pkColumns
    · rw [readColumn_key hwf hpk hcol hkey, if_pos hkey, coerce_eq_self_iff]
    · rw [readColumn_field hkey, rowOf_samePKWrites hwf hv pk oldSnap cols hcol, if_neg hkey,
        if_neg (not_or.mpr ⟨hkey, hsup⟩)]
      cases hn : (valueAt cols i).isNull with
      | false =>
        obtain ⟨p, hp⟩ := exists_setEncodedValue hn
        simp [hp, decodeValue_eq_self_iff hp]
      | true =>
        rw [Value.eq_null hn hnc]
        rfl

/-! ## `UPDATE` to another key -/

/-- The columns an `UPDATE` that moves its row keeps.  A key column that is not supplied is
encoded as `NULL`; a column outside the key that is not supplied is copied when it has a
value, and otherwise left to what the target already holds. -/
def KeptByMove (tbl : TableSchema) (oldPK : Bytes) (oldRow newRow : Bytes → Option Payload)
    (col : ColumnSchema) (i : ℕ) (val : Value) : Prop :=
  if i ∈ tbl.pkColumns then
    if val.noChange then readColumn tbl oldPK oldRow col i = coerce col.affinity .null
    else val.KeyClass col.affinity
  else if val.noChange then
    (∃ p, oldRow (utf8 col.name) = some p ∧ (decodeValue p col.affinity).isNull = false) ∨
      readField col (newRow (utf8 col.name)) = readField col (oldRow (utf8 col.name))
  else if val.isNull then readField col (newRow (utf8 col.name)) = .null
  else val.FieldClass col.affinity

section

variable (hsyn : tbl.syntheticPK = false) (hne : newPK ≠ oldPK)

include hsyn hne

/-- The target's fields after a key change, by column. -/
theorem rowOf_pkChangeWrites (oldSnap : Option Fields) (cols : List Value)
    (hcol : tbl.columns[i]? = some col) :
    rowOf (applyAll (pkChangeWrites v tbl oldPK newPK oldSnap cols) s) tbl.tableID newPK
        (utf8 col.name) =
      (setEncodedValue (valueAt (pkChangeVals tbl oldSnap cols) i)).or
        (rowOf s tbl.tableID newPK (utf8 col.name)) := by
  rw [pkChangeWrites_eq hv hsyn, applyAll_append, insertWrites, applyAll_append,
    rowOf_written hwf hv newPK 0 _ hcol, rowOf_applyAll_entryOps,
    rowOf_pkChangeRemoves_of_ne hv hne, hsyn]
  simp

/-- A key change leaves a live row. -/
theorem live_pkChangeWrites (hacc : PKChangeAccepts s v tbl oldPK newPK cols) :
    Live (applyAll (pkChangeWrites v tbl oldPK newPK s[rowKey tbl.tableID oldPK]? cols) s)
      tbl.tableID newPK := by
  obtain ⟨ord, col, hord, hcol⟩ := hwf.exists_pkColumn hsyn
  have hpr := hacc.2
  rw [hv.tableID_eq] at hpr
  obtain ⟨p, hp⟩ := exists_setEncodedValue (hv.isNull_of_pkPresent hpr hord)
  refine ⟨utf8 col.name, ?_⟩
  rw [rowOf_pkChangeWrites hwf hv hsyn hne _ _ hcol, hp]
  rfl

/-- **What an `UPDATE` to another key reads back as.** -/
theorem loadRow_pkChangeWrites_iff
    (hpk : encodePK (tbl.pkValues cols) tbl.pkAffinities = some newPK)
    (hacc : PKChangeAccepts s v tbl oldPK newPK cols) :
    loadRow v (applyAll (pkChangeWrites v tbl oldPK newPK s[rowKey tbl.tableID oldPK]? cols) s)
        newPK =
        .ok (some ⟨newPK,
          writtenRow tbl (readColumn tbl oldPK (rowOf s tbl.tableID oldPK)) cols⟩) ↔
      ∀ i col, tbl.columns[i]? = some col →
        KeptByMove tbl oldPK (rowOf s tbl.tableID oldPK) (rowOf s tbl.tableID newPK) col i
          (valueAt cols i) := by
  rw [loadRow_written_iff hwf hv, and_iff_right (live_pkChangeWrites hwf hv hsyn hne hacc)]
  refine forall_congr' fun i => forall_congr' fun col => imp_congr_right fun hcol => ?_
  unfold KeptByMove
  by_cases hkey : i ∈ tbl.pkColumns
  · rw [readColumn_key hwf (fun _ => hpk) hcol hkey, if_pos hkey]
    cases hnc : (valueAt cols i).noChange with
    | true =>
      have hval : valueAt cols i = .unchanged := by
        cases hval : valueAt cols i <;> simp_all [Value.noChange]
      rw [if_pos rfl, if_pos rfl, hval]
      have hcoerce : coerce col.affinity .unchanged = coerce col.affinity .null := by
        cases col.affinity <;> rfl
      rw [hcoerce, eq_comm]
    | false => rw [if_neg (by simp), if_neg (by simp), coerce_eq_self_iff]
  · rw [readColumn_field hkey, if_neg hkey, rowOf_pkChangeWrites hwf hv hsyn hne _ _ hcol]
    cases hnc : (valueAt cols i).noChange with
    | true =>
      rw [readColumn_field hkey, setEncodedValue_pkChangeVals hcol hnc]
      cases hold : rowOf s tbl.tableID oldPK (utf8 col.name) with
      | none => simp
      | some p =>
        cases hn : (decodeValue p col.affinity).isNull with
        | false =>
          obtain ⟨q, hq⟩ := exists_setEncodedValue hn
          simp [hq, decodeValue_decodeValue hq, hn]
        | true => simp [setEncodedValue_eq_none_iff.mpr hn, hn]
    | false =>
      rw [valueAt_pkChangeVals_eq hcol, hnc]
      cases hn : (valueAt cols i).isNull with
      | false =>
        obtain ⟨p, hp⟩ := exists_setEncodedValue hn
        simp [hp, decodeValue_eq_self_iff hp]
      | true =>
        rw [Value.eq_null hn hnc]
        rfl

end

end Writes

/-! ## The statements -/

/-- The columns an `UPDATE` keeps, and the row itself. -/
def KeptByDoUpdate (s : Store) (tbl : TableSchema) (oldPK newPK : Bytes) (cols : List Value) :
    Prop :=
  if newPK = oldPK then
    RowKept tbl (rowOf s tbl.tableID oldPK) cols ∧ ∀ i col, tbl.columns[i]? = some col →
      KeptByUpdate tbl col i (TableSchema.valueAt cols i)
  else
    ∀ i col, tbl.columns[i]? = some col →
      KeptByMove tbl oldPK (rowOf s tbl.tableID oldPK) (rowOf s tbl.tableID newPK) col i
        (TableSchema.valueAt cols i)

end Statements

section Sample

local instance readHost : Host := Host.inert

/-- `CREATE TABLE t (id INTEGER PRIMARY KEY, v INTEGER DEFAULT 5)`. -/
def defaultTable : TableSchema where
  name := "t"
  tableID := [1]
  columns := [⟨"id", .integer, "INTEGER", true, true, none⟩,
    ⟨"v", .integer, "INTEGER", false, false, some (.int 5)⟩]
  pkColumns := [0]
  indexes := []
  syntheticPK := false

theorem freshTable_defaultTable : FreshTable (create defaultTable) defaultTable :=
  freshTable_create ⟨by decide, by decide, by decide, by decide, by decide, by decide, by decide⟩
    (by decide)

/-- After `INSERT INTO t VALUES (1, NULL)`. -/
def nullInserted : Conn := (doInsert 0 [.integer 1, .null] (Conn.create defaultTable)).2

end Sample

end Swytch.Sql
