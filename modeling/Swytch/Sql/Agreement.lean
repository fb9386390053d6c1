import Swytch.Sql.Deltas

/-!
# Index agreement

The invariant of a table with secondary indexes: its schema is stored, the fields of its
rows are well-formed, every index agrees with the rows and a unique index files one row
under a tuple.  Each statement rewrites one row and moves its entries with it.

Two inputs break the correspondence between the tuple a statement files and the tuple the
fields spell, and are excluded by `MarkerVisible` and `KeyNullVisible`: a `NULL` in an
indexed column that shares its field with the rowid marker, and a `NULL` for an indexed
key column in an update that keeps the row's key.
-/

namespace Swytch.Sql

open List
open KeyedStore SecondaryIndex
open TableSchema (valueAt isPKColumn_iff)

variable [Host] {tbl : TableSchema} {pk : Bytes} {idx : IndexSchema}

/-! ## Well-formed rows -/

/-- A payload a column can hold. -/
def Payload.IsValue (p : Payload) : Prop := ∃ v, setEncodedValue v = some p

/-- A row, as the layer writes it: its fields belong to the table, hold values, and those
of the key columns spell the row key. -/
structure RowWellFormed (tbl : TableSchema) (pk : Bytes) (row : Bytes → Option Payload) :
    Prop where
  fields : ∀ f p, row f = some p → tbl.HasField f
  values : ∀ f p, row f = some p → p.IsValue
  spelled : tbl.syntheticPK = false → (∃ f, (row f).isSome = true) →
    ∃ cols, encodePK (tbl.pkValues cols) tbl.pkAffinities = some pk ∧
      ∀ ord ∈ tbl.pkColumns, (TableSchema.valueAt cols ord).isNull = false ∧
        row (utf8 (tbl.nameAt ord)) = setEncodedValue (TableSchema.valueAt cols ord)

/-- The rows of a table, as the layer writes them. -/
def RowsWellFormed (s : Store) (tbl : TableSchema) : Prop :=
  ∀ pk, RowWellFormed tbl pk (rowOf s tbl.tableID pk)

theorem coerce_coerce (affinity : Affinity) (v : Value) :
    coerce affinity (coerce affinity v) = coerce affinity v := by
  cases affinity <;> rfl

/-- The key column of a tuple, read back from the row key. -/
theorem decodePK_getElem? (hsyn : tbl.syntheticPK = false) {cols : List Value}
    (hpk : encodePK (tbl.pkValues cols) tbl.pkAffinities = some pk) {i pos : ℕ}
    (hpos : tbl.pkPosition i = some pos) :
    (decodePK pk tbl.pkAffinities)[pos]? =
      some (coerce (tbl.affinityAt i) (valueAt cols i)) := by
  rw [decodePK_encodePK hpk, coerceAll, TableSchema.pkAffinities_of_not_syntheticPK hsyn,
    TableSchema.pkValues]
  simp [pkPosition_eq_some hpos]

section RowsWellFormed

variable {s : Store} {snap : Fields}

section

variable (hrows : RowsWellFormed s tbl) (hwf : tbl.WellFormed) (hlive : Live s tbl.tableID pk)
    (hsnap : s[rowKey tbl.tableID pk]? = some snap)

include hrows hwf hlive hsnap

/-- **The row read back from its fields matches them**, column by column. -/
theorem RowsWellFormed.fieldMatches {i : ℕ} {col : ColumnSchema}
    (hcol : tbl.columns[i]? = some col) :
    FieldMatches col.affinity (rowOf s tbl.tableID pk (utf8 col.name))
      (valueAt (valuesFromSnapshot tbl pk snap) i) := by
  rw [valuesFromSnapshot, valueAt_rowFromFields hcol, columnFromFields]
  cases hpos : tbl.pkPosition i with
  | none =>
    rw [rowOf_eq_getElem? hsnap]
    cases hp : snap[utf8 col.name]? with
    | none => rfl
    | some p =>
      obtain ⟨v, hv⟩ := (hrows pk).values _ p ((rowOf_eq_getElem? hsnap _).trans hp)
      have hnull := isNull_decodeValue hv col.affinity
      exact ⟨hnull, hnull, rfl⟩
  | some pos =>
    have hmem : i ∈ tbl.pkColumns := mem_of_getElem? (pkPosition_eq_some hpos)
    have hsyn := hwf.syntheticPK_eq_false (ne_nil_of_mem hmem)
    obtain ⟨cols, hpk, hfs⟩ := (hrows pk).spelled hsyn hlive
    obtain ⟨hnull, hrow⟩ := hfs i hmem
    rw [nameAt_of_getElem? hcol] at hrow
    simp only [decodePK_getElem? hsyn hpk hpos, Option.getD_some, hrow]
    rw [affinityAt_of_getElem? hcol]
    obtain ⟨p, hp⟩ := exists_setEncodedValue hnull
    rw [hp]
    refine ⟨isNull_coerce _ _, isNull_decodeValue hp _, ?_⟩
    rw [coerce_coerce, coerce_decodeValue hp]

theorem RowsWellFormed.matchesOn (hidx : idx ∈ tbl.indexes) :
    MatchesOn tbl idx.columns (rowOf s tbl.tableID pk) (valuesFromSnapshot tbl pk snap) := by
  intro n hn
  obtain ⟨ord, col, hord, hcol, rfl⟩ := hwf.exists_column hidx hn
  refine ⟨ord, hord, ?_⟩
  rw [affinityAt_of_getElem? hcol]
  exact hrows.fieldMatches hwf hlive hsnap hcol

end

end RowsWellFormed

omit [Host] in
theorem mapM_eq_none {α β : Type} {f : α → Option β} {l : List α} {a : α} (ha : a ∈ l)
    (h : f a = none) : l.mapM f = none := by
  induction l with
  | nil => simp at ha
  | cons b l ih =>
    rw [mapM_cons]
    rcases mem_cons.mp ha with rfl | ha
    · rw [h]
      rfl
    · rw [ih ha]
      cases f b <;> rfl

variable {n : String} {ord : ℕ}

theorem storedTuple_eq_none {row : Bytes → Option Payload} (hn : n ∈ idx.columns)
    (hrow : row (utf8 n) = none) : storedTuple tbl idx row = none := by
  have hco : (n, IndexSchema.columnAffinity tbl n) ∈
      idx.columns.zip (idx.columnAffinities tbl) := by
    rw [IndexSchema.columnAffinities, ← map_prod_left_eq_zip]
    exact mem_map_of_mem hn
  rw [storedTuple, storedComponents, mapM_eq_none hco (by simp [presentField, hrow]),
    Option.map_none]

theorem indexTupleForRow_eq_none {vals : List Value} (hn : n ∈ idx.columns)
    (hord : IndexSchema.columnOrdinal tbl n = some ord) (hnull : (valueAt vals ord).isNull = true) :
    indexTupleForRow idx tbl vals = none := by
  rw [indexTupleForRow, indexComponents, IndexSchema.columnIndexes,
    mapM_eq_none (mem_map_of_mem hn) (by simp [hord, presentAt, hnull]), Option.map_none]

/-! ## The invariant -/

/-- The invariant of a table and its indexes. -/
structure TableInv (s : Store) (v : VTable) (tbl : TableSchema) : Prop where
  stored : storedSchema s v.name = .ok tbl
  wf : tbl.WellFormed
  declares : v.Declares tbl
  rows : RowsWellFormed s tbl
  agrees : ∀ idx ∈ tbl.indexes,
    Agrees (storedTuple tbl idx) (rowOf s tbl.tableID) (entriesOf s idx.indexID)
  single : ∀ idx ∈ tbl.indexes, idx.unique = true → SingleValued (entriesOf s idx.indexID)

section Step

variable {s : Store} {v : VTable}

/-- **One row changes, and its entries with it.**  The statement moves the row `pk` from the
tuples `old` to the tuples `new` in the indexes and then rewrites its fields; the invariant
survives when `old` covers what the row was filed under, `new` is what its new fields
spell, and no other row holds a new tuple of a unique index. -/
theorem TableInv.rewriteRow (h : TableInv s v tbl)
    {old new : IndexSchema → Option Bytes} {ws : List Write}
    (hws : ∀ w ∈ ws, w.key = rowKey tbl.tableID pk) (hold : ∀ idx ∈ tbl.indexes, ∀ e,
      storedTuple tbl idx (rowOf s tbl.tableID pk) = some e → old idx = some e)
    (hnew : ∀ idx ∈ tbl.indexes,
      storedTuple tbl idx (rowOf (applyAll ws s) tbl.tableID pk) = new idx)
    (hf : ∀ idx ∈ tbl.indexes, idx.unique = true → ∀ e, new idx = some e →
      holdsOther s (indexKey idx.indexID e) pk = false)
    (hrow : RowWellFormed tbl pk (rowOf (applyAll ws s) tbl.tableID pk)) :
    TableInv (applyAll ((entryOps tbl.indexes old new).map (EntryOp.write pk) ++ ws) s)
      v tbl := by
  set ops := (entryOps tbl.indexes old new).map (EntryOp.write pk) with hops
  have hrowOf (pk' : Bytes) : rowOf (applyAll (ops ++ ws) s) tbl.tableID pk' =
      rowOf (applyAll ws s) tbl.tableID pk' := by
    funext f
    rw [applyAll_append, rowOf_applyAll (applyAll ops s) ws, rowOf_applyAll s ws,
      rowOf_applyAll_entryOps]
  have ho (pk' : Bytes) (hne : pk' ≠ pk) : rowOf (applyAll (ops ++ ws) s) tbl.tableID pk' =
      rowOf s tbl.tableID pk' := by
    rw [hrowOf, rowOf_applyAll_of_ne]
    intro w hw
    rw [hws w hw, Ne, rowKey_inj]
    exact Ne.symm hne
  have hes (idx : IndexSchema) (hidx : idx ∈ tbl.indexes) :
      entriesOf (applyAll (ops ++ ws) s) idx.indexID =
        replace (entriesOf s idx.indexID) pk (old idx) (new idx) := by
    rw [applyAll_append, entriesOf_applyAll_rowWrites fun w hw => ⟨_, _, hws w hw⟩,
      entriesOf_applyAll_entryOps h.wf.distinctIDs hidx]
  refine ⟨?_, h.wf, h.declares, fun pk' => ?_, fun idx hidx => ?_, fun idx hidx hu => ?_⟩
  · rw [storedSchema_applyAll, h.stored]
    intro w hw
    rcases mem_append.mp hw with hw | hw
    · obtain ⟨op, -, rfl⟩ := mem_map.mp hw
      obtain ⟨iid, e, hkey⟩ := key_write_entryOp pk op
      rw [hkey]
      exact not_isMetaKey_indexKey iid e
    · rw [hws w hw]
      exact not_isMetaKey_rowKey _ _
  · by_cases hne : pk' = pk
    · subst hne
      rw [hrowOf]
      exact hrow
    · rw [ho pk' hne]
      exact h.rows pk'
  · rw [hes idx hidx]
    refine (h.agrees idx hidx).replace ho (hold idx hidx) ?_
    rw [hrowOf]
    exact hnew idx hidx
  · rw [hes idx hidx]
    refine (h.single idx hidx hu).replace fun e he pk' hpk' => ?_
    by_contra hne
    have hother' : holdsOther s (indexKey idx.indexID e) pk = true :=
      holdsOther_iff.mpr ⟨pk', hne, hpk'⟩
    rw [hf idx hidx hu e he] at hother'
    cases hother'

/-- The tuple an index files a row under that is not live: none. -/
theorem TableInv.storedTuple_of_not_live (h : TableInv s v tbl)
    (hlive : ¬ Live s tbl.tableID pk) (hidx : idx ∈ tbl.indexes) :
    storedTuple tbl idx (rowOf s tbl.tableID pk) = none := by
  obtain ⟨n, hn⟩ := exists_mem_of_ne_nil _ (h.wf.index_columns_ne_nil idx hidx)
  refine storedTuple_eq_none hn ?_
  by_contra hs
  exact hlive ⟨utf8 n, Option.isSome_iff_ne_none.mpr hs⟩

end Step

/-! ## The statements -/

section Statements

variable {cols : List Value} {s : Store} {v : VTable}

/-- The data effects of `insertBody`. -/
def insertWrites (v : VTable) (tbl : TableSchema) (rowid : Int64) (pk : Bytes)
    (cols : List Value) : List Write :=
  (insertOps tbl cols).map (EntryOp.write pk) ++
    (rowPresence v rowid (rowKey tbl.tableID pk) cols ++
      columnWrites tbl (rowKey tbl.tableID pk) cols)

theorem rowWellFormed_newRow (hwf : tbl.WellFormed) (hv : v.Declares tbl)
    (hlive : ¬ Live s tbl.tableID pk) (rowid : Int64) (hpk : tbl.syntheticPK = false →
      encodePK (tbl.pkValues cols) tbl.pkAffinities = some pk ∧ pkPresent v cols = true) :
    RowWellFormed tbl pk (rowOf (applyAll (rowPresence v rowid (rowKey tbl.tableID pk) cols ++
      columnWrites tbl (rowKey tbl.tableID pk) cols) s) tbl.tableID pk) := by
  have hf {f : Bytes} {p : Payload} (hp : rowOf (applyAll (rowPresence v rowid
      (rowKey tbl.tableID pk) cols ++ columnWrites tbl (rowKey tbl.tableID pk) cols) s)
      tbl.tableID pk f = some p) : tbl.HasField f ∧ p.IsValue := by
    obtain ⟨i, col, hi, rfl⟩ | hcol := tbl.field_cases f
    · refine ⟨.inl ⟨col, mem_of_getElem? hi, rfl⟩, ?_⟩
      rw [rowOf_newRow hwf hv hlive rowid cols hi] at hp
      cases hval : setEncodedValue (valueAt cols i) with
      | some q =>
        obtain rfl : q = p := by simpa [hval] using hp
        exact ⟨_, hval⟩
      | none =>
        obtain ⟨-, rfl⟩ : _ ∧ Payload.intVal rowid = p := by simpa [hval] using hp
        exact ⟨.integer rowid, rfl⟩
    · rw [rowOf_applyAll, assigned_newRow hwf hv, assigned_rowWrites_eq_none hwf hv _ _ hcol,
        rowOf_eq_none_of_not_live hlive] at hp
      obtain ⟨⟨hsyn, rfl⟩, rfl⟩ : (tbl.syntheticPK = true ∧ f = utf8 rowFieldSyntheticRowID) ∧
          Payload.intVal rowid = p := by
        by_cases hm : tbl.syntheticPK = true ∧ f = utf8 rowFieldSyntheticRowID
        · exact ⟨hm, by simpa [hm] using hp⟩
        · simp [hm] at hp
      exact ⟨.inr ⟨hsyn, rfl⟩, .integer rowid, rfl⟩
  refine ⟨fun f p hp => (hf hp).1, fun f p hp => (hf hp).2, fun hsyn _ => ?_⟩
  obtain ⟨henc, hpr⟩ := hpk hsyn
  refine ⟨cols, henc, fun ord hord => ?_⟩
  have hget := getElem?_eq_getElem (hwf.pk_lt ord hord)
  refine ⟨hv.isNull_of_pkPresent hpr hord, ?_⟩
  rw [nameAt_of_getElem? hget, rowOf_newRow hwf hv hlive rowid cols hget]
  simp [hsyn]

section

variable (h : TableInv s v tbl)

include h

/-- **`INSERT` keeps the invariant**, at a key that is not live. -/
theorem TableInv.insert (hlive : ¬ Live s tbl.tableID pk)
    (hpk : tbl.syntheticPK = false → encodePK (tbl.pkValues cols) tbl.pkAffinities = some pk)
    (hacc : InsertAccepts s v tbl pk cols) (hmarker : MarkerVisible tbl cols) (rowid : Int64) :
    TableInv (applyAll (insertWrites v tbl rowid pk cols) s) v tbl := by
  have hwf := h.wf
  have hv := h.declares
  refine h.rewriteRow (fun w hw => key_newRow hw) ?_ ?_ ?_ ?_
  · intro idx hidx e he
    rw [h.storedTuple_of_not_live hlive hidx] at he
    cases he
  · intro idx hidx
    by_cases hhidden : tbl.syntheticPK = true ∧ rowFieldSyntheticRowID ∈ idx.columns ∧
        (tbl.valueOf cols rowFieldSyntheticRowID).isNull = true
    · -- the marker hides a `NULL`; another column keeps the row out of the index
      obtain ⟨hsyn, hmem, hnull⟩ := hhidden
      obtain ⟨n, hn, hne, hnnull⟩ := hmarker hsyn idx hidx hmem hnull
      obtain ⟨ord, col, hord, hcol, rfl⟩ := hwf.exists_column hidx hn
      rw [valueOf_eq hord] at hnnull
      rw [indexTupleForRow_eq_none hn hord hnnull, storedTuple_eq_none hn]
      rw [rowOf_newRow hwf hv hlive rowid cols hcol, setEncodedValue_eq_none_iff.mpr hnnull]
      simp [hne]
    · refine storedTuple_eq_indexTupleForRow fun n hn => ?_
      obtain ⟨ord, col, hord, hcol, rfl⟩ := hwf.exists_column hidx hn
      refine ⟨ord, hord, ?_⟩
      have hf := rowOf_newRow hwf hv hlive rowid cols hcol
      rw [hf]
      cases hval : setEncodedValue (valueAt cols ord) with
      | some p =>
        have hm := fieldMatches_setEncodedValue (tbl.affinityAt ord)
          (valueAt cols ord)
        rw [hval] at hm
        exact hm
      | none =>
        have hnull := setEncodedValue_eq_none_iff.mp hval
        have hnot : ¬ (tbl.syntheticPK = true ∧ col.name = rowFieldSyntheticRowID) := by
          rintro ⟨hsyn, hnm⟩
          exact hhidden ⟨hsyn, hnm ▸ hn, by rw [← hnm, valueOf_eq hord]; exact hnull⟩
        rw [if_neg hnot]
        exact hnull
  · exact conflicts_entryOps_iff.mp hacc.1
  · refine rowWellFormed_newRow hwf hv hlive rowid fun hsyn => ⟨hpk hsyn, ?_⟩
    exact hacc.2.resolve_left (by simp [hv.syntheticPK_eq, hsyn])

/-- The data effects of `samePKBody`. -/
def samePKWrites (v : VTable) (tbl : TableSchema) (pk : Bytes) (oldSnap : Option Fields)
    (cols : List Value) : List Write :=
  (deltaOps tbl oldSnap cols).map (EntryOp.write pk) ++ updateWrites v pk cols

theorem rowWellFormed_update (hlive : Live s tbl.tableID pk)
    (hsup : ∀ i, (valueAt cols i).noChange = false) :
    RowWellFormed tbl pk (rowOf (applyAll (updateWrites v pk cols) s) tbl.tableID pk) := by
  have hrow := h.rows pk
  have hf {f : Bytes} {p : Payload}
      (hp : rowOf (applyAll (updateWrites v pk cols) s) tbl.tableID pk f = some p) :
      tbl.HasField f ∧ p.IsValue := by
    obtain ⟨i, col, hi, rfl⟩ | hcol := tbl.field_cases f
    · refine ⟨.inl ⟨col, mem_of_getElem? hi, rfl⟩, ?_⟩
      rw [rowOf_updateWrites h.wf h.declares pk hsup hi] at hp
      split at hp
      · exact hrow.values _ p hp
      · exact ⟨_, hp⟩
    · rw [rowOf_applyAll, assigned_updateWrites_eq_none h.declares pk cols hcol] at hp
      exact ⟨hrow.fields f p hp, hrow.values f p hp⟩
  refine ⟨fun f p hp => (hf hp).1, fun f p hp => (hf hp).2, fun hsyn _ => ?_⟩
  obtain ⟨cols', henc, hfs⟩ := hrow.spelled hsyn hlive
  refine ⟨cols', henc, fun ord hord => ⟨(hfs ord hord).1, ?_⟩⟩
  have hget := getElem?_eq_getElem (h.wf.pk_lt ord hord)
  have hfield' := (hfs ord hord).2
  rw [nameAt_of_getElem? hget] at hfield' ⊢
  rw [rowOf_updateWrites h.wf h.declares pk hsup hget,
    if_pos (isPKColumn_iff.mpr hord), hfield']

omit h in
/-- The key columns of the supplied tuple and of the row coerce alike. -/
theorem coerce_key_eq {cols' : List Value} (hsyn : tbl.syntheticPK = false)
    (hpk : encodePK (tbl.pkValues cols) tbl.pkAffinities = some pk)
    (hpk' : encodePK (tbl.pkValues cols') tbl.pkAffinities = some pk) (hord : ord ∈ tbl.pkColumns) :
    coerce (tbl.affinityAt ord) (valueAt cols ord) =
      coerce (tbl.affinityAt ord) (valueAt cols' ord) := by
  cases hpos : tbl.pkPosition ord with
  | none => exact absurd hord (pkPosition_eq_none.mp hpos)
  | some pos =>
    have h1 := decodePK_getElem? hsyn hpk hpos
    rw [decodePK_getElem? hsyn hpk' hpos] at h1
    exact (Option.some.inj h1).symm

/-- **A same-key `UPDATE` keeps the invariant**, on a live row, when every column is
supplied and no `NULL` for a key column is hidden. -/
theorem TableInv.samePK (hlive : Live s tbl.tableID pk)
    (hpk : tbl.syntheticPK = false → encodePK (tbl.pkValues cols) tbl.pkAffinities = some pk)
    (hsup : ∀ i, (valueAt cols i).noChange = false)
    (hacc : SamePKAccepts s v tbl pk cols) (hkey : KeyNullVisible tbl cols) :
    TableInv (applyAll (samePKWrites v tbl pk s[rowKey tbl.tableID pk]? cols) s) v tbl := by
  have hwf := h.wf
  have hv := h.declares
  obtain ⟨snap, hsnap⟩ := hlive.exists_snap
  have hrowOf : (fun f => snap[f]?) = rowOf s tbl.tableID pk :=
    funext fun f => (rowOf_eq_getElem? hsnap f).symm
  refine h.rewriteRow (fun w hw => key_updateWrites hv hw) ?_ ?_ ?_
    (rowWellFormed_update h hlive hsup)
  · intro idx hidx e he
    rw [hsnap, deltaOld_eq hwf hidx hsup, hrowOf, he]
  · intro idx hidx
    rw [deltaNew_eq hwf hidx hsup]
    by_cases hhidden : ∃ n ∈ idx.columns, tbl.IsKeyName n ∧ (tbl.valueOf cols n).isNull = true
    · -- a `NULL` key column; a column outside the key keeps the row out of the index
      obtain ⟨n, hn, hkn, hnull⟩ := hhidden
      obtain ⟨n', hn', hnk', hnull'⟩ := hkey idx hidx n hn hkn hnull
      obtain ⟨ord, col, hord, hcol, rfl⟩ := hwf.exists_column hidx hn'
      rw [valueOf_eq hord] at hnull'
      rw [indexTupleForRow_eq_none hn' hord hnull', storedTuple_eq_none hn']
      rw [rowOf_updateWrites hwf hv pk hsup hcol, if_neg, setEncodedValue_eq_none_iff.mpr hnull']
      rw [isPKColumn_iff, ← isKeyName_iff hwf hcol]
      exact hnk'
    · refine storedTuple_eq_indexTupleForRow fun n hn => ?_
      obtain ⟨ord, col, hord, hcol, rfl⟩ := hwf.exists_column hidx hn
      refine ⟨ord, hord, ?_⟩
      rw [rowOf_updateWrites hwf hv pk hsup hcol]
      by_cases hpkc : ord ∈ tbl.pkColumns
      · have hsyn := hwf.syntheticPK_eq_false (ne_nil_of_mem hpkc)
        have hnull : (valueAt cols ord).isNull = false := by
          by_contra hnull
          refine hhidden ⟨_, hn, (isKeyName_iff hwf hcol).mpr hpkc, ?_⟩
          rw [valueOf_eq hord]
          simpa using hnull
        obtain ⟨cols', henc, hfs⟩ := (h.rows pk).spelled hsyn hlive
        obtain ⟨hnull', hrow'⟩ := hfs ord hpkc
        rw [nameAt_of_getElem? hcol] at hrow'
        obtain ⟨p, hp⟩ := exists_setEncodedValue hnull'
        rw [if_pos (isPKColumn_iff.mpr hpkc), hrow', hp]
        refine ⟨hnull, isNull_decodeValue hp _, ?_⟩
        rw [coerce_decodeValue hp]
        exact coerce_key_eq hsyn henc (hpk hsyn) hpkc
      · rw [if_neg (mt isPKColumn_iff.mp hpkc)]
        exact fieldMatches_setEncodedValue _ _
  · have hacc' := conflicts_entryOps_iff.mp hacc
    rw [hv.tableID_eq] at hacc'
    exact hacc'

/-- A deleted row has no fields left. -/
theorem rowOf_deleteWrites (pk f : Bytes) :
    rowOf (applyAll (deleteWrites v pk) s) tbl.tableID pk f = none := by
  rw [rowOf_applyAll]
  by_cases hf : tbl.HasField f
  · rw [assigned_deleteWrites h.declares pk hf]
    rfl
  · have hb : rowOf s tbl.tableID pk f = none := by
      by_contra hs
      obtain ⟨p, hp⟩ := Option.ne_none_iff_exists'.mp hs
      exact hf ((h.rows pk).fields f p hp)
    have hn : assigned (deleteWrites v pk) (rowKey tbl.tableID pk) f = none := by
      refine assigned_eq_none fun w hw _ hfw => hf ?_
      rcases (mem_deleteWrites h.declares).mp hw with ⟨col, hcol, rfl⟩ | ⟨hsyn, rfl⟩
      · exact .inl ⟨col, hcol, hfw.symm⟩
      · exact .inr ⟨hsyn, hfw.symm⟩
    rw [hn, hb]
    rfl

theorem not_live_deleteWrites (pk : Bytes) :
    ¬ Live (applyAll (deleteWrites v pk) s) tbl.tableID pk := by
  rintro ⟨f, hf⟩
  rw [rowOf_deleteWrites h] at hf
  cases hf

omit h in
/-- The tuples `oldRowOps` takes away cover those of the row. -/
theorem oldRowOps_eq (tbl : TableSchema) (pk : Bytes) (oldSnap : Option Fields) :
    ∃ old : IndexSchema → Option Bytes, oldRowOps tbl pk oldSnap =
        entryOps tbl.indexes old (fun _ => none) ∧
      ∀ snap, oldSnap = some snap → ∀ idx,
        old idx = indexTupleForRow idx tbl (valuesFromSnapshot tbl pk snap) := by
  cases oldSnap with
  | none => exact ⟨fun _ => none, by simp [oldRowOps, entryOps], fun _ hsnap => by simp at hsnap⟩
  | some snap =>
    refine ⟨fun idx => indexTupleForRow idx tbl (valuesFromSnapshot tbl pk snap), rfl, ?_⟩
    rintro _ ⟨rfl⟩ idx
    rfl

/-- **A row is taken out of the table and its indexes.** -/
theorem TableInv.removeRow (pk : Bytes) :
    TableInv (applyAll (pkChangeRemoves v tbl pk s[rowKey tbl.tableID pk]?) s) v tbl := by
  obtain ⟨old, hops, hold⟩ := oldRowOps_eq tbl pk s[rowKey tbl.tableID pk]?
  unfold pkChangeRemoves
  rw [hops]
  refine h.rewriteRow (fun w hw => key_deleteWrites h.declares hw) ?_ ?_ ?_ ?_
  · intro idx hidx e he
    have hlive : Live s tbl.tableID pk := by
      by_contra hlive
      rw [h.storedTuple_of_not_live hlive hidx] at he
      cases he
    obtain ⟨snap, hsnap⟩ := hlive.exists_snap
    rw [hold snap hsnap, ← storedTuple_eq_indexTupleForRow
      (h.rows.matchesOn h.wf hlive hsnap hidx), he]
  · intro idx hidx
    obtain ⟨n, hn⟩ := exists_mem_of_ne_nil _ (h.wf.index_columns_ne_nil idx hidx)
    exact storedTuple_eq_none hn (rowOf_deleteWrites h pk _)
  · intro idx _ _ e he
    cases he
  · refine ⟨fun f p hp => ?_, fun f p hp => ?_, fun _ hlive => ?_⟩
    · rw [rowOf_deleteWrites h] at hp
      cases hp
    · rw [rowOf_deleteWrites h] at hp
      cases hp
    · exact absurd hlive (not_live_deleteWrites h pk)

/-- The data effects of `pkChangeBody`. -/
def pkChangeWrites (v : VTable) (tbl : TableSchema) (oldPK newPK : Bytes)
    (oldSnap : Option Fields) (cols : List Value) : List Write :=
  let newVals := pkChangeVals tbl oldSnap cols
  pkChangeRemoves v tbl oldPK oldSnap ++
    ((insertOps tbl newVals).map (EntryOp.write newPK) ++
      (presenceWrites v (rowKey tbl.tableID newPK) newVals ++
        columnWrites tbl (rowKey tbl.tableID newPK) newVals))

omit h

/-- A key change takes one row out and inserts the other. -/
theorem pkChangeWrites_eq (hv : v.Declares tbl) (hsyn : tbl.syntheticPK = false)
    (oldPK newPK : Bytes) (oldSnap : Option Fields) (cols : List Value) :
    pkChangeWrites v tbl oldPK newPK oldSnap cols = pkChangeRemoves v tbl oldPK oldSnap ++
      insertWrites v tbl 0 newPK (pkChangeVals tbl oldSnap cols) := by
  rw [pkChangeWrites, insertWrites, rowPresence, if_neg (by simp [hv.syntheticPK_eq, hsyn])]

theorem rowOf_pkChangeRemoves_of_ne (hv : v.Declares tbl) {oldPK newPK : Bytes}
    (hne : newPK ≠ oldPK) (oldSnap : Option Fields) :
    rowOf (applyAll (pkChangeRemoves v tbl oldPK oldSnap) s) tbl.tableID newPK =
      rowOf s tbl.tableID newPK := by
  rw [pkChangeRemoves, applyAll_append, rowOf_applyAll_of_ne, rowOf_applyAll_entryOps]
  intro w hw
  rw [key_deleteWrites hv hw, Ne, rowKey_inj]
  exact Ne.symm hne

include h in
/-- **A key-changing `UPDATE` keeps the invariant**, onto a key that is not live, when every
column is supplied. -/
theorem TableInv.pkChange {oldPK newPK : Bytes}
    (hsyn : tbl.syntheticPK = false) (hne : newPK ≠ oldPK) (hlive : ¬ Live s tbl.tableID newPK)
    (hpk : encodePK (tbl.pkValues cols) tbl.pkAffinities = some newPK)
    (hsup : ∀ i, (valueAt cols i).noChange = false)
    (hacc : PKChangeAccepts s v tbl oldPK newPK cols) :
    TableInv (applyAll (pkChangeWrites v tbl oldPK newPK s[rowKey tbl.tableID oldPK]? cols) s)
      v tbl := by
  have hv := h.declares
  have hrem := h.removeRow oldPK
  have hvals : tbl.pkValues (pkChangeVals tbl s[rowKey tbl.tableID oldPK]? cols) =
      tbl.pkValues cols := by
    refine map_congr_left fun ord hord => ?_
    exact valueAt_pkChangeVals hsup (getElem?_eq_getElem (h.wf.pk_lt ord hord))
  have hlive' : ¬ Live (applyAll (pkChangeRemoves v tbl oldPK s[rowKey tbl.tableID oldPK]?) s)
      tbl.tableID newPK := by
    rwa [Live, rowOf_pkChangeRemoves_of_ne hv hne]
  rw [PKChangeAccepts, hv.tableID_eq] at hacc
  rw [pkChangeWrites_eq hv hsyn, applyAll_append]
  exact hrem.insert hlive' (fun _ => hvals ▸ hpk) ⟨hacc.1, .inr hacc.2⟩
    (fun hsyn' => absurd (hsyn.symm.trans hsyn') (by simp)) 0

end

end Statements

end Swytch.Sql
