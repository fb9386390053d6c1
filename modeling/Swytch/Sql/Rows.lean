import Swytch.Lib.SecondaryIndex
import Swytch.Sql.CreateIndex
import Swytch.Sql.EncodingLaws
import Swytch.Sql.WriteSets

/-!
# Rows and index entries of a store

The state of a table, read off the cells of the store: `rowOf` is the fields of a row,
`entriesOf` relates the encoded tuples of an index to the rows filed under them, and
`storedTuple` is the encoded tuple of a row as its fields spell it.

A row tuple *matches* the fields of a row when they agree column by column up to
coercion; the tuple the write path computes is then the tuple the fields spell.
-/

namespace Swytch.Sql

variable {idx : IndexSchema} {indexes : List IndexSchema}

open TableSchema
open Option
open List
open KeyedStore SecondaryIndex
open IndexSchema (columnOrdinal columnAffinity)
open EntryOp (write remove insert)

/-! ## Well-formed schemas -/

/-- What `CREATE TABLE` and `CREATE INDEX` guarantee of a schema: distinct column names,
key ordinals in range, a key of exactly one kind, and indexes over existing columns with
distinct identifiers of one length. -/
structure TableSchema.WellFormed (t : TableSchema) : Prop where
  names_nodup : (t.columns.map (·.name)).Nodup
  pk_lt : ∀ ord ∈ t.pkColumns, ord < t.columns.length
  synthetic_iff : t.syntheticPK = true ↔ t.pkColumns = []
  index_ids_nodup : (t.indexes.map (·.indexID)).Nodup
  index_id_length : ∀ idx ∈ t.indexes, idx.indexID.length = 16
  index_columns : ∀ idx ∈ t.indexes, ∀ n ∈ idx.columns, ∃ col ∈ t.columns, col.name = n
  index_columns_ne_nil : ∀ idx ∈ t.indexes, idx.columns ≠ []

variable {ord : ℕ} {s : Store} {pk : Bytes}

section Columns

variable {col : ColumnSchema} {i : ℕ} {n : String} {t : TableSchema}

theorem mem_enumColumns :
    (col, i) ∈ t.enumColumns ↔ t.columns[i]? = some col := by
  rw [enumColumns, mk_mem_zipIdx_iff_getElem?]

theorem nameAt_of_getElem? (h : t.columns[i]? = some col) :
    t.nameAt i = col.name := by
  simp [nameAt, h]

theorem affinityAt_of_getElem? (h : t.columns[i]? = some col) :
    t.affinityAt i = col.affinity := by
  simp [affinityAt, h]

/-- Column names tell ordinals apart. -/
theorem TableSchema.WellFormed.ord_inj (hwf : t.WellFormed) {j : ℕ} {col' : ColumnSchema}
    (hi : t.columns[i]? = some col) (hj : t.columns[j]? = some col')
    (hn : col.name = col'.name) : i = j := by
  have hlt : i < (t.columns.map (·.name)).length := by
    obtain ⟨hlt, -⟩ := List.getElem?_eq_some_iff.mp hi
    simpa using hlt
  refine (List.getElem?_inj hlt hwf.names_nodup).mp ?_
  simp [hi, hj, hn]

theorem columnOrdinal_eq_some (h : columnOrdinal t n = some ord) :
    ∃ col, t.columns[ord]? = some col ∧ col.name = n := by
  obtain ⟨hlt, hn, -⟩ := findIdx?_eq_some_iff_getElem.mp h
  exact ⟨t.columns[ord], getElem?_eq_getElem hlt, by simpa using hn⟩

theorem exists_columnOrdinal (h : ∃ col ∈ t.columns, col.name = n) :
    ∃ ord, columnOrdinal t n = some ord := by
  obtain ⟨col, hcol, rfl⟩ := h
  cases hord : columnOrdinal t col.name with
  | none =>
    have hne := findIdx?_eq_none_iff.mp hord col hcol
    simp at hne
  | some ord => exact ⟨ord, rfl⟩

theorem TableSchema.WellFormed.exists_column (hwf : t.WellFormed) (hidx : idx ∈ t.indexes)
    (hn : n ∈ idx.columns) :
    ∃ ord col, columnOrdinal t n = some ord ∧ t.columns[ord]? = some col ∧ col.name = n := by
  obtain ⟨ord, hord⟩ := exists_columnOrdinal (hwf.index_columns idx hidx n hn)
  exact ⟨ord, (columnOrdinal_eq_some hord).imp fun _ hcol => ⟨hord, hcol⟩⟩

theorem TableSchema.WellFormed.syntheticPK_eq_false (hwf : t.WellFormed) (h : t.pkColumns ≠ []) :
    t.syntheticPK = false := by
  rwa [← Bool.not_eq_true, hwf.synthetic_iff]

theorem TableSchema.WellFormed.pkColumns_or_syntheticPK (hwf : t.WellFormed) :
    t.pkColumns ≠ [] ∨ t.syntheticPK = true := by
  rw [hwf.synthetic_iff]
  exact (em _).symm

/-- A field is that of a column, or of none. -/
theorem TableSchema.field_cases (t : TableSchema) (f : Bytes) :
    (∃ (i : ℕ) (col : ColumnSchema), t.columns[i]? = some col ∧ utf8 col.name = f) ∨
      ∀ col ∈ t.columns, utf8 col.name ≠ f := by
  by_cases h : ∃ col ∈ t.columns, utf8 col.name = f
  · obtain ⟨col, hmem, hn⟩ := h
    obtain ⟨i, hi⟩ := getElem?_of_mem hmem
    exact .inl ⟨i, col, hi, hn⟩
  · exact .inr fun col hmem hn => h ⟨col, hmem, hn⟩

theorem columnAffinity_eq (h : columnOrdinal t n = some ord) :
    columnAffinity t n = t.affinityAt ord := by
  rw [columnAffinity]
  congr 1
  unfold columnOrdinal at h
  rw [find?_eq_bind_findIdx?_getElem?, h, bind_some]

end Columns

/-! ## Rows and entries -/

def rowOf (s : Store) (tableID pk : Bytes) : Bytes → Option Payload :=
  fun f => cell s (rowKey tableID pk) f

theorem rowOf_eq_getElem? {tableID : Bytes} {snap : Fields}
    (hs : s[rowKey tableID pk]? = some snap) (f : Bytes) : rowOf s tableID pk f = snap[f]? :=
  cell_of_getElem? hs f

/-- A row with a field is live; this is what `loadRow` tests. -/
def Live (s : Store) (tableID pk : Bytes) : Prop := ∃ f, (rowOf s tableID pk f).isSome = true

variable {tid : Bytes}

theorem Live.exists_snap (h : Live s tid pk) : ∃ snap, s[rowKey tid pk]? = some snap := by
  obtain ⟨f, hf⟩ := h
  cases hs : s[rowKey tid pk]? with
  | none =>
    rw [rowOf, cell_of_getElem?_eq_none hs] at hf
    cases hf
  | some snap => exact ⟨snap, rfl⟩

theorem rowOf_eq_none_of_not_live (h : ¬ Live s tid pk) (f : Bytes) : rowOf s tid pk f = none := by
  by_contra hs
  exact h ⟨f, isSome_iff_ne_none.mpr hs⟩

/-- The rows filed under each encoded tuple of an index. -/
def entriesOf (s : Store) (indexID : Bytes) : Bytes → Bytes → Prop :=
  fun e pk => (cell s (indexKey indexID e) pk).isSome = true

theorem length_of_mapM_eq_some {α β : Type} {f : α → Option β} {l : List α} {out : List β}
    (h : l.mapM f = some out) : out.length = l.length := by
  induction l generalizing out with
  | nil =>
    obtain rfl : [] = out := by simpa using h
    rfl
  | cons a l ih =>
    simp only [mapM_cons, bind_eq_bind, bind_eq_some_iff] at h
    obtain ⟨b, -, bs, hbs, hout⟩ := h
    obtain rfl : b :: bs = out := by simpa using hout
    simp [ih hbs]

section Stored

variable {tbl : TableSchema} {row : Bytes → Option Payload} {vals : List Value} [Host]

/-- The encoded tuple of a row, as its fields spell it. -/
def storedTuple (tbl : TableSchema) (idx : IndexSchema) (row : Bytes → Option Payload) :
    Option Bytes :=
  (storedComponents idx.columns (idx.columnAffinities tbl) row).map fun comps =>
    encodeIndexKeyTuple comps (idx.columnAffinities tbl)

/-- A stored field and a value of a tuple that an index cannot tell apart. -/
def FieldMatches (affinity : Affinity) (p? : Option Payload) (v : Value) : Prop :=
  match p? with
  | none => v.isNull = true
  | some p => v.isNull = false ∧ (decodeValue p affinity).isNull = false ∧
      coerce affinity (decodeValue p affinity) = coerce affinity v

theorem fieldMatches_none {affinity : Affinity} {v : Value} :
    FieldMatches affinity none v ↔ v.isNull = true := Iff.rfl

theorem fieldMatches_setEncodedValue (affinity : Affinity) (v : Value) :
    FieldMatches affinity (setEncodedValue v) v := by
  cases h : setEncodedValue v with
  | none => exact setEncodedValue_eq_none_iff.mp h
  | some p =>
    refine ⟨?_, isNull_decodeValue h affinity, coerce_decodeValue h affinity⟩
    by_contra hnull
    rw [setEncodedValue_eq_none_iff.mpr (by simpa using hnull)] at h
    cases h

/-- Column by column, fields and tuple match on the columns of an index. -/
def MatchesOn (tbl : TableSchema) (columns : List String) (row : Bytes → Option Payload)
    (vals : List Value) : Prop :=
  ∀ n ∈ columns, ∃ ord, IndexSchema.columnOrdinal tbl n = some ord ∧
    FieldMatches (tbl.affinityAt ord) (row (utf8 n)) (TableSchema.valueAt vals ord)

/-- The two readings of one component coerce alike. -/
theorem present_coerce_eq {n : String} (hord : columnOrdinal tbl n = some ord)
    (h : FieldMatches (tbl.affinityAt ord) (row (utf8 n)) (valueAt vals ord)) :
    (presentField row (n, columnAffinity tbl n)).map
        (coerce (columnAffinity tbl n)) =
      (presentAt vals (columnOrdinal tbl n)).map
        (coerce (columnAffinity tbl n)) := by
  rw [columnAffinity_eq hord, hord]
  simp only [presentField, presentAt]
  cases hp : row (utf8 n) with
  | none =>
    rw [hp] at h
    simp [fieldMatches_none.mp h]
  | some p =>
    rw [hp] at h
    obtain ⟨hv, hd, hc⟩ := h
    simp [hv, hd, hc]

/-- The two readings of all components coerce alike. -/
theorem components_coerce_eq {columns : List String} (h : MatchesOn tbl columns row vals) :
    (storedComponents columns (columns.map (columnAffinity tbl)) row).map
        (coerceAll (columns.map (columnAffinity tbl))) =
      ((columns.map (columnOrdinal tbl)).mapM (presentAt vals)).map
        (coerceAll (columns.map (columnAffinity tbl))) := by
  induction columns with
  | nil => rfl
  | cons n columns ih =>
    obtain ⟨ord, hord, hm⟩ := h n (mem_cons_self ..)
    have ih' := ih fun n' hn' => h n' (mem_cons_of_mem _ hn')
    have hone := present_coerce_eq hord hm
    simp only [storedComponents, map_cons, zip_cons_cons, mapM_cons] at ih' ⊢
    generalize presentField row (n, columnAffinity tbl n) = x at hone ⊢
    generalize presentAt vals (columnOrdinal tbl n) = y at hone ⊢
    generalize mapM (presentField row) _ = xs at ih' ⊢
    generalize mapM (presentAt vals) _ = ys at ih' ⊢
    cases x <;> cases y <;> cases xs <;> cases ys <;> simp_all [coerceAll]

/-- **Matching tuples are filed alike.**  The tuple `indexTupleForRow` computes from values
is the tuple the matching fields spell. -/
theorem storedTuple_eq_indexTupleForRow (h : MatchesOn tbl idx.columns row vals) :
    storedTuple tbl idx row = indexTupleForRow idx tbl vals := by
  have hcomp := components_coerce_eq h
  unfold storedTuple indexTupleForRow indexComponents IndexSchema.columnIndexes
    IndexSchema.columnAffinities
  cases hx : storedComponents idx.columns (idx.columns.map (columnAffinity tbl))
      row with
  | none =>
    cases hy : (idx.columns.map (columnOrdinal tbl)).mapM (presentAt vals) with
    | none => rfl
    | some ys => simp [hx, hy] at hcomp
  | some xs =>
    cases hy : (idx.columns.map (columnOrdinal tbl)).mapM (presentAt vals) with
    | none => simp [hx, hy] at hcomp
    | some ys =>
      have hlx : xs.length = (idx.columns.map (columnAffinity tbl)).length := by
        simpa using length_of_mapM_eq_some hx
      have hly : ys.length = (idx.columns.map (columnAffinity tbl)).length := by
        simpa using length_of_mapM_eq_some hy
      simp only [map_some, some.injEq]
      exact encodeIndexKeyTuple_congr hlx hly (by simpa [hx, hy] using hcomp)

end Stored

/-! ## What writes do to rows and entries -/

section Cells

variable {ws : List Write} {tid iid : Bytes}

theorem rowOf_applyAll_of_ne (h : ∀ w ∈ ws, w.key ≠ rowKey tid pk) :
    rowOf (applyAll ws s) tid pk = rowOf s tid pk := by
  funext f
  have hn : assigned ws (rowKey tid pk) f = none :=
    assigned_eq_none fun w hw hk => absurd hk (h w hw)
  rw [rowOf, cell_applyAll, hn]
  rfl

theorem entriesOf_applyAll_of_ne (h : ∀ w ∈ ws, ∀ e, w.key ≠ indexKey iid e) :
    entriesOf (applyAll ws s) iid = entriesOf s iid := by
  funext e pk
  have hn : assigned ws (indexKey iid e) pk = none :=
    assigned_eq_none fun w hw hk => absurd hk (h w hw e)
  rw [entriesOf, cell_applyAll, hn]
  rfl

theorem rowOf_applyAll (s : Store) (ws : List Write) (tid pk f : Bytes) :
    rowOf (applyAll ws s) tid pk f =
      (assigned ws (rowKey tid pk) f).getD (rowOf s tid pk f) :=
  cell_applyAll ws s (rowKey tid pk) f

theorem key_write_entryOp (pk : Bytes) (op : EntryOp) :
    ∃ iid e, (op.write pk).key = indexKey iid e := by
  cases op with
  | remove iid e => exact ⟨iid, e, rfl⟩
  | insert idx e => exact ⟨idx.indexID, e, rfl⟩

/-- Entry operations leave rows alone. -/
theorem rowOf_applyAll_entryOps (s : Store) (ops : List EntryOp) (pk tid pk' : Bytes) :
    rowOf (applyAll (ops.map (write pk)) s) tid pk' = rowOf s tid pk' := by
  refine rowOf_applyAll_of_ne fun w hw => ?_
  obtain ⟨op, -, rfl⟩ := mem_map.mp hw
  obtain ⟨iid, e, hkey⟩ := key_write_entryOp pk op
  rw [hkey]
  exact indexKey_ne_rowKey tid pk' iid e

/-- Row writes leave entries alone. -/
theorem entriesOf_applyAll_rowWrites (h : ∀ w ∈ ws, ∃ tid pk, w.key = rowKey tid pk) :
    entriesOf (applyAll ws s) iid = entriesOf s iid := by
  refine entriesOf_applyAll_of_ne fun w hw e => ?_
  obtain ⟨tid, pk, hkey⟩ := h w hw
  rw [hkey]
  exact rowKey_ne_indexKey tid pk iid e

end Cells

/-- Writes to rows and entries leave the stored schema alone. -/
theorem storedSchema_applyAll {ws : List Write} {name : String} (h : ∀ w ∈ ws, ¬ IsMetaKey w.key) :
    storedSchema (applyAll ws s) name = storedSchema s name := by
  unfold storedSchema
  rw [getElem?_applyAll_of_forall_ne]
  intro w hw hkey
  exact h w hw (hkey ▸ isMetaKey_schemaKey name)

theorem not_isMetaKey_rowKey (tid pk : Bytes) : ¬ IsMetaKey (rowKey tid pk) :=
  fun h => h.ne_rowKey tid pk rfl

theorem not_isMetaKey_indexKey (iid e : Bytes) : ¬ IsMetaKey (indexKey iid e) :=
  fun h => h.ne_indexKey iid e rfl

/-- Indexes with distinct identifiers of one length. -/
def DistinctIDs (indexes : List IndexSchema) : Prop :=
  (indexes.map (·.indexID)).Nodup ∧ ∀ idx ∈ indexes, idx.indexID.length = 16

theorem TableSchema.WellFormed.distinctIDs {t : TableSchema} (h : t.WellFormed) :
    DistinctIDs t.indexes := ⟨h.index_ids_nodup, h.index_id_length⟩

theorem DistinctIDs.ne_of_cons {idx' : IndexSchema}
    (h : DistinctIDs (idx :: indexes)) (hmem : idx' ∈ indexes) (e e' : Bytes) :
    indexKey idx.indexID e ≠ indexKey idx'.indexID e' := by
  obtain ⟨hnd, hlen⟩ := h
  have hne : idx.indexID ≠ idx'.indexID := by
    intro heq
    rw [map_cons, nodup_cons] at hnd
    exact hnd.1 (heq ▸ mem_map_of_mem hmem)
  have h16 := hlen idx (mem_cons_self ..)
  have h16' := hlen idx' (mem_cons_of_mem _ hmem)
  exact indexKey_ne_of_ne (h16.trans h16'.symm) hne e e'

/-- The writes that move one row in one index. -/
theorem assigned_entryOps_head {old new : Option Bytes} {e : Bytes} :
    assigned (((old.map (remove idx.indexID)).toList ++
        (new.map (insert idx)).toList).map (write pk))
      (indexKey idx.indexID e) pk =
      if new = some e then some (some (.raw [1]))
      else if old = some e then some none else none := by
  cases old <;> cases new <;>
    simp [assigned_cons, write, Write.key, Write.field, Write.result]
  rename_i o n
  by_cases hn : n = e <;> by_cases ho : o = e <;> simp [hn]

section

variable (hids : DistinctIDs indexes) (hmem : idx ∈ indexes) (old new : IndexSchema → Option Bytes)
    (pk : Bytes)

include hids hmem

/-- What the operations on all indexes do to the entries of one of them. -/
theorem assigned_entryOps (e : Bytes) :
    assigned ((entryOps indexes old new).map (write pk)) (indexKey idx.indexID e) pk =
      if new idx = some e then some (some (.raw [1]))
      else if old idx = some e then some none else none := by
  induction indexes with
  | nil => simp at hmem
  | cons idx₀ indexes ih =>
    have ht : DistinctIDs indexes :=
      ⟨(nodup_cons.mp (map_cons ▸ hids.1)).2,
        fun i hi => hids.2 i (mem_cons_of_mem _ hi)⟩
    have hsp : (entryOps (idx₀ :: indexes) old new).map (write pk) =
        (((old idx₀).map (remove idx₀.indexID)).toList ++
          ((new idx₀).map (insert idx₀)).toList).map (write pk) ++
        (entryOps indexes old new).map (write pk) := by
      rw [← map_append]
      rfl
    rw [hsp, assigned_append]
    -- the keys of `idx₀` and of a later index never meet
    rcases mem_cons.mp hmem with rfl | hmem
    · have hn : assigned ((entryOps indexes old new).map (write pk))
          (indexKey idx.indexID e) pk = none := by
        refine assigned_eq_none fun w hw hk => ?_
        obtain ⟨op, hop, rfl⟩ := mem_map.mp hw
        obtain ⟨idx', hidx', ⟨e', -, rfl⟩ | ⟨e', -, rfl⟩⟩ := mem_entryOps.mp hop
        all_goals exact absurd hk.symm (hids.ne_of_cons hidx' e e')
      rw [hn, none_or, assigned_entryOps_head]
    · have hn : assigned ((((old idx₀).map (remove idx₀.indexID)).toList ++
          ((new idx₀).map (insert idx₀)).toList).map (write pk))
          (indexKey idx.indexID e) pk = none := by
        refine assigned_eq_none fun w hw hk => ?_
        obtain ⟨op, hop, rfl⟩ := mem_map.mp hw
        simp only [mem_append, mem_toList, map_eq_some_iff] at hop
        obtain ⟨e', -, rfl⟩ | ⟨e', -, rfl⟩ := hop
        all_goals exact absurd hk (hids.ne_of_cons hmem e' e)
      rw [hn, or_none, ih ht hmem]

/-- **Entry operations move one row.**  In every index they replace the row's old tuple by
its new one. -/
theorem entriesOf_applyAll_entryOps (s : Store) :
    entriesOf (applyAll ((entryOps indexes old new).map (write pk)) s) idx.indexID =
      replace (entriesOf s idx.indexID) pk (old idx) (new idx) := by
  funext e pk'
  rw [entriesOf, cell_applyAll, SecondaryIndex.replace]
  by_cases hpk : pk' = pk
  · subst hpk
    rw [assigned_entryOps hids hmem]
    by_cases hnew : new idx = some e
    · simp [hnew]
    · by_cases hold : old idx = some e <;> simp [hnew, hold, entriesOf]
  · have hn : assigned ((entryOps indexes old new).map (write pk))
        (indexKey idx.indexID e) pk' = none := by
      refine assigned_eq_none fun w hw _ hf => ?_
      obtain ⟨op, -, rfl⟩ := mem_map.mp hw
      exact hpk ((EntryOp.field_write pk op).symm.trans hf).symm
    simp [hn, hpk, entriesOf]

end

end Swytch.Sql
