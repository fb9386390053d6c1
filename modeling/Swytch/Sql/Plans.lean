import Swytch.Sql.ReadBack

/-!
# What a plan selects

Each plan gathers primary keys and materialises the rows at them.  `Selects` says which: the
rows of the view whose key satisfies a predicate, each once.  A full scan selects every row,
a key lookup the row at one key, an index lookup the rows an index files under one tuple.

The plans are read in a state the connection can see in full (`Readable`): the invariant of
the table holds of the view, the schema is the stored one, and every row of the view has a
committed key or is marked dirty.
-/

namespace Swytch.Sql

open List
open KeyedStore SecondaryIndex

variable {view : Store} {pk : Bytes} {rows : List MaterialisedRow}

/-! ## Materialised rows -/

/-- The row at a key, as `loadRow` materialises it. -/
def rowAt (tbl : TableSchema) (view : Store) (pk : Bytes) : Option MaterialisedRow :=
  (view[rowKey tbl.tableID pk]?).bind fun reduced =>
    if reduced.isEmpty then none
    else some ⟨pk, rowFromFields tbl pk reduced fun col => defaultValueToSqlite col.default⟩

variable {v : VTable} {r : MaterialisedRow} {tbl : TableSchema} {pks : List Bytes}
    {P' : Bytes → Prop} {argv : List Value}

theorem loadRow_eq_rowAt (hpk : v.schema.hasPK = true) (view : Store) (pk : Bytes) :
    loadRow v view pk = .ok (rowAt v.schema view pk) := by
  unfold loadRow rowAt
  rw [hpk]
  cases view[rowKey v.schema.tableID pk]? with
  | none => rfl
  | some reduced => cases h : reduced.isEmpty <;> simp only [Option.bind_some, h] <;> rfl

theorem rowAt_eq_some_iff :
    rowAt tbl view pk = some r ↔ Live view tbl.tableID pk ∧
      r = ⟨pk, readRow tbl pk (rowOf view tbl.tableID pk)⟩ := by
  rw [rowAt, live_iff]
  cases hs : view[rowKey tbl.tableID pk]? with
  | none => simp
  | some snap =>
    have hne : (∃ m : Fields, some snap = some m ∧ m.isEmpty = false) ↔ snap.isEmpty = false := by
      simp
    rw [Option.bind_some, rowFromFields_eq_readRow hs, hne]
    cases snap.isEmpty <;> simp [eq_comm]

theorem pk_of_rowAt (h : rowAt tbl view pk = some r) : r.pk = pk := by
  simp only [rowAt, Option.bind_eq_some_iff, Option.ite_none_left_eq_some, Option.some.injEq] at h
  obtain ⟨-, -, -, rfl⟩ := h
  rfl

theorem loadRowsForPKs_eq (hpk : v.schema.hasPK = true) (pks : List Bytes) :
    loadRowsForPKs v view pks = .ok (pks.filterMap (rowAt v.schema view)) := by
  have hmap : pks.mapM (loadRow v view) = .ok (pks.map (rowAt v.schema view)) := by
    induction pks with
    | nil => rfl
    | cons pk pks ih =>
      rw [mapM_cons, loadRow_eq_rowAt hpk, ih]
      rfl
  simp only [loadRowsForPKs, hmap, bind, Except.bind, pure, Except.pure, reduceOption]
  rw [filterMap_map, Function.id_comp]

/-! ## Distinct keys -/

theorem foldl_distinct (pks seen : List Bytes) (hseen : seen.Nodup) :
    let out := pks.foldl (fun seen pk => if pk ∈ seen then seen else seen ++ [pk]) seen
    out.Nodup ∧ ∀ pk, pk ∈ out ↔ pk ∈ seen ∨ pk ∈ pks := by
  induction pks generalizing seen with
  | nil => simp [hseen]
  | cons pk pks ih =>
    simp only [foldl_cons]
    by_cases hmem : pk ∈ seen
    · obtain ⟨hnd, hiff⟩ := ih seen hseen
      rw [if_pos hmem]
      refine ⟨hnd, fun pk' => ?_⟩
      rw [hiff, mem_cons]
      constructor
      · rintro (h | h)
        · exact .inl h
        · exact .inr (.inr h)
      · rintro (h | rfl | h)
        · exact .inl h
        · exact .inl hmem
        · exact .inr h
    · have hnd' : (seen ++ [pk]).Nodup := by
        rw [nodup_append]
        refine ⟨hseen, nodup_singleton pk, ?_⟩
        rintro a ha b hb rfl
        exact hmem (mem_singleton.mp hb ▸ ha)
      obtain ⟨hnd, hiff⟩ := ih (seen ++ [pk]) hnd'
      rw [if_neg hmem]
      refine ⟨hnd, fun pk' => ?_⟩
      rw [hiff, mem_append, mem_singleton, mem_cons, or_assoc]

theorem nodup_distinct (pks : List Bytes) : (distinct pks).Nodup :=
  (foldl_distinct pks [] nodup_nil).1

@[simp] theorem mem_distinct : pk ∈ distinct pks ↔ pk ∈ pks := by
  have h : pk ∈ distinct pks ↔ pk ∈ [] ∨ pk ∈ pks := (foldl_distinct pks [] nodup_nil).2 pk
  simpa using h

/-! ## Selections -/

/-- The rows of a view whose key satisfies a predicate, each once. -/
def Selects (tbl : TableSchema) (view : Store) (P : Bytes → Prop) (rows : List MaterialisedRow) :
    Prop :=
  rows.Nodup ∧ ∀ r, r ∈ rows ↔ rowAt tbl view r.pk = some r ∧ P r.pk

section Selections

variable {P : Bytes → Prop}

/-- Loading the rows at distinct keys. -/
theorem selects_filterMap (hnd : pks.Nodup)
    (hmem : ∀ pk r, rowAt tbl view pk = some r → (pk ∈ pks ↔ P pk)) :
    Selects tbl view P (pks.filterMap (rowAt tbl view)) := by
  constructor
  · refine hnd.filterMap fun pk pk' r hr hr' => ?_
    rw [← pk_of_rowAt hr, ← pk_of_rowAt hr']
  · intro r
    rw [mem_filterMap]
    constructor
    · rintro ⟨pk, hpk, hr⟩
      obtain rfl := pk_of_rowAt hr
      exact ⟨hr, (hmem _ r hr).mp hpk⟩
    · rintro ⟨hr, hP⟩
      exact ⟨r.pk, (hmem _ r hr).mpr hP, hr⟩

theorem Selects.congr (h : Selects tbl view P rows)
    (hP : ∀ pk r, rowAt tbl view pk = some r → (P pk ↔ P' pk)) : Selects tbl view P' rows :=
  ⟨h.1, fun r => (h.2 r).trans (and_congr_right fun hr => hP r.pk r hr)⟩

/-- **When two selections agree.** -/
theorem Selects.perm_iff {rows' : List MaterialisedRow} (h : Selects tbl view P rows)
    (h' : Selects tbl view P' rows') :
    rows.Perm rows' ↔ ∀ pk r, rowAt tbl view pk = some r → (P pk ↔ P' pk) := by
  rw [perm_ext_iff_of_nodup h.1 h'.1]
  simp only [h.2, h'.2]
  constructor
  · intro hiff pk r hr
    obtain rfl := pk_of_rowAt hr
    simpa [hr] using hiff r
  · intro hiff r
    exact and_congr_right fun hr => hiff r.pk r hr

/-- **When two selections agree up to a filter.** -/
theorem Selects.perm_filter_iff {all : List MaterialisedRow} (hrw : Selects tbl view P rows)
    (hall : Selects tbl view (fun _ => True) all) (Q : MaterialisedRow → Bool) :
    rows.Perm (all.filter Q) ↔
      ∀ pk r, rowAt tbl view pk = some r → (P pk ↔ Q r = true) := by
  have hfilter : Selects tbl view (fun pk => ∃ r, rowAt tbl view pk = some r ∧ Q r = true)
      (all.filter Q) := by
    refine ⟨hall.1.filter Q, fun r => ?_⟩
    rw [mem_filter, hall.2, and_true]
    exact and_congr_right fun hr => by simp [hr]
  rw [hrw.perm_iff hfilter]
  refine forall₃_congr fun pk r hr => ?_
  simp [hr]

end Selections

/-- The rows a full scan can find: those with a committed key or marked dirty. -/
def Conn.Finds (c : Conn) (pk : Bytes) : Prop :=
  rowKey c.vtab.schema.tableID pk ∈ c.store ∨ pk ∈ c.session.dirtyRowPKs c.vtab.name

theorem filterFullScan_ok [Keytrie] {c : Conn} (hpk : c.vtab.schema.hasPK = true) :
    ∃ all, filterFullScan c = .ok all ∧ Selects c.vtab.schema c.view c.Finds all := by
  refine ⟨_, loadRowsForPKs_eq hpk _, selects_filterMap (nodup_distinct _) fun pk r _ => ?_⟩
  rw [mem_distinct, mem_append, mem_filterMap]
  refine or_congr_left ⟨?_, fun hmem => ?_⟩
  · rintro ⟨key, hkey, hp⟩
    rw [rowKey_of_parseRowKey hp] at hkey
    exact (mem_scanKeys_rowKeyPattern.mp hkey).1
  · exact ⟨_, mem_scanKeys_rowKeyPattern.mpr ⟨hmem, pk, rfl⟩, parseRowKey_rowKey _ _⟩

/-! ## The plans of a readable state -/

section Plans

variable [Host]

/-- A state whose rows the connection can find and whose invariant holds in its view. -/
structure Readable (c : Conn) (tbl : TableSchema) : Prop where
  inv : TableInv c.view c.vtab tbl
  schema_eq : c.vtab.schema = tbl
  found : ∀ pk, Live c.view tbl.tableID pk → c.Finds pk

variable {c : Conn}

theorem readable_of_idle (hi : c.session.txContext = none) (h : TableInv c.store c.vtab tbl)
    (hsch : c.vtab.schema = tbl) : Readable c tbl := by
  have hv := Conn.view_of_idle hi
  refine ⟨hv ▸ h, hsch, fun pk hl => Or.inl ?_⟩
  rw [hv] at hl
  obtain ⟨snap, hs⟩ := hl.exists_snap
  rw [hsch]
  exact Std.ExtTreeMap.mem_iff_isSome_getElem?.mpr (by simp [hs])

theorem Readable.hasPK (h : Readable c tbl) : c.vtab.schema.hasPK = true := by
  rw [h.schema_eq]
  exact h.inv.wf.hasPK_eq_true

theorem Readable.loadRowsForPKs_eq (h : Readable c tbl) (pks : List Bytes) :
    loadRowsForPKs c.vtab c.view pks = .ok (pks.filterMap (rowAt tbl c.view)) := by
  rw [Sql.loadRowsForPKs_eq h.hasPK, h.schema_eq]

/-- **A full scan selects every row.** -/
theorem Readable.filterFullScan_ok [Keytrie] (h : Readable c tbl) :
    ∃ all, filterFullScan c = .ok all ∧ Selects tbl c.view (fun _ => True) all := by
  obtain ⟨all, hall, hsel⟩ := Sql.filterFullScan_ok h.hasPK
  rw [h.schema_eq] at hsel
  refine ⟨all, hall, hsel.congr fun pk r hr => ?_⟩
  rw [iff_true]
  exact h.found pk (rowAt_eq_some_iff.mp hr).1

/-- **A key lookup selects the row at the encoded arguments.** -/
theorem Readable.filterPKEquality_ok (h : Readable c tbl) (hpk : tbl.pkColumns ≠ [])
    (hlen : argv.length = tbl.pkColumns.length) :
    ∃ rows, filterPKEquality c argv = .ok rows ∧
      Selects tbl c.view (fun pk => encodePK argv tbl.pkAffinities = some pk) rows := by
  have hsyn := h.inv.wf.syntheticPK_eq_false hpk
  have haff : tbl.pkAffinities.length = argv.length := by
    rw [TableSchema.pkAffinities_of_not_syntheticPK hsyn, length_map, hlen]
  obtain ⟨pk, henc⟩ : ∃ pk, encodePK argv tbl.pkAffinities = some pk := by
    unfold encodePK
    rw [if_neg (not_not_intro haff.symm)]
    split <;> exact ⟨_, rfl⟩
  refine ⟨_, ?_, selects_filterMap (nodup_singleton pk) fun pk' r _ => ?_⟩
  · rw [← h.loadRowsForPKs_eq]
    simp [filterPKEquality, h.schema_eq, hpk, hlen, henc]
  · rw [henc, mem_singleton, Option.some.injEq, eq_comm]

/-- **An index lookup selects the rows filed under the encoded arguments.** -/
theorem Readable.filterIndexEquality_ok (h : Readable c tbl) {name : String} {idx : IndexSchema}
    (hf : tbl.indexes.find? (·.name == name) = some idx) (hlen : argv.length = idx.columns.length) :
    ∃ rows, filterIndexEquality c name argv = .ok rows ∧
      Selects tbl c.view (fun pk => storedTuple tbl idx (rowOf c.view tbl.tableID pk) =
        some (encodeIndexKeyTuple argv (idx.columnAffinities tbl))) rows := by
  have hidx : idx ∈ tbl.indexes := mem_of_find?_eq_some hf
  set encoded := encodeIndexKeyTuple argv (idx.columnAffinities tbl) with hencoded
  have hfind' : c.vtab.findIndex name = some idx := by
    rw [VTable.findIndex, h.schema_eq]
    exact hf
  have hfi (pk : Bytes) : storedTuple tbl idx (rowOf c.view tbl.tableID pk) = some encoded ↔
      (cell c.view (indexKey idx.indexID encoded) pk).isSome = true :=
    (h.inv.agrees idx hidx encoded pk).symm
  cases hs : c.view[indexKey idx.indexID encoded]? with
  | none =>
    refine ⟨[], ?_, nodup_nil, fun r => ?_⟩
    · simp [filterIndexEquality, hfind', hlen, h.schema_eq, ← hencoded, hs]
    · simp [hfi, cell_of_getElem?_eq_none hs]
  | some snap =>
    refine ⟨_, ?_, selects_filterMap snap.nodup_keys fun pk r _ => ?_⟩
    · rw [← h.loadRowsForPKs_eq]
      simp [filterIndexEquality, hfind', hlen, h.schema_eq, ← hencoded, hs]
    · rw [hfi, cell_of_getElem? hs, Std.ExtTreeMap.mem_keys,
        Std.ExtTreeMap.mem_iff_isSome_getElem?]

end Plans

end Swytch.Sql
