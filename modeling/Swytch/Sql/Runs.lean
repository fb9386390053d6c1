import Swytch.Sql.Backfill
import Swytch.Sql.Outcomes

/-!
# Runs of statements on one table

Statements outside a transaction, one after the other, on one table: `INSERT`, `UPDATE`,
`DELETE` and `CREATE INDEX`.  Along a run the entries of every index are those its rows
justify, as long as no statement *hides* a `NULL`: an `UPDATE` that keeps the row key
while it supplies `NULL` for a key column leaves the stored field of the column in place,
and an `INSERT` with `NULL` for a column named like the rowid marker leaves the marker in
its place.  In both cases the index is maintained from the tuple and the row is not.
-/

namespace Swytch.Sql

open Conn
open KeyedStore SecondaryIndex TxM

/-! ## Entries and the rows that justify them -/

/-- The pairs of an entry key and a primary key that an index holds. -/
def entryPairs (s : Store) (idx : IndexSchema) : Set (Bytes × Bytes) :=
  {p | (∃ e, p.1 = indexKey idx.indexID e) ∧ (cell s p.1 p.2).isSome = true}

variable {idx : IndexSchema} {s : Store} {tbl : TableSchema} {cols : List Value}

theorem mem_entryPairs {e pk : Bytes} :
    (indexKey idx.indexID e, pk) ∈ entryPairs s idx ↔ entriesOf s idx.indexID e pk :=
  ⟨fun h => h.2, fun h => ⟨⟨e, rfl⟩, h⟩⟩

section Justified

variable [Host]

/-- The pairs the rows of a table justify: a live row whose indexed values are all present,
under the key they encode to. -/
def justifiedPairs (s : Store) (tbl : TableSchema) (idx : IndexSchema) : Set (Bytes × Bytes) :=
  {p | Live s tbl.tableID p.2 ∧ ∃ vals,
    storedComponents idx.columns (idx.columnAffinities tbl) (rowOf s tbl.tableID p.2) = some vals ∧
      p.1 = indexKey idx.indexID (encodeIndexKeyTuple vals (idx.columnAffinities tbl))}

/-- The stored table has exactly the entries its rows justify, and the entries of a unique
index have one row each. -/
def IndexesAgree (s : Store) (name : String) : Prop :=
  ∃ tbl, storedSchema s name = .ok tbl ∧ ∀ idx ∈ tbl.indexes,
    entryPairs s idx = justifiedPairs s tbl idx ∧
      (idx.unique = true → ∀ key pk pk', (key, pk) ∈ entryPairs s idx →
        (key, pk') ∈ entryPairs s idx → pk = pk')

theorem storedTuple_eq_some {row : Bytes → Option Payload} {e : Bytes} :
    storedTuple tbl idx row = some e ↔ ∃ vals,
      storedComponents idx.columns (idx.columnAffinities tbl) row = some vals ∧
        encodeIndexKeyTuple vals (idx.columnAffinities tbl) = e :=
  Option.map_eq_some_iff

theorem TableInv.indexesAgree {v : VTable} (h : TableInv s v tbl) : IndexesAgree s v.name := by
  refine ⟨tbl, h.stored, fun idx hidx => ⟨?_, ?_⟩⟩
  · ext ⟨key, pk⟩
    constructor
    · rintro ⟨⟨e, rfl⟩, hmem⟩
      have he := (h.agrees idx hidx e pk).mp hmem
      obtain ⟨vals, hvals, rfl⟩ := storedTuple_eq_some.mp he
      refine ⟨?_, vals, hvals, rfl⟩
      by_contra hl
      rw [h.storedTuple_of_not_live hl hidx] at he
      cases he
    · rintro ⟨-, vals, hvals, hkey⟩
      obtain rfl : key = _ := hkey
      exact mem_entryPairs.mpr
        ((h.agrees idx hidx _ pk).mpr (storedTuple_eq_some.mpr ⟨vals, hvals, rfl⟩))
  · rintro hu key pk pk' ⟨⟨e, rfl⟩, hpk⟩ ⟨-, hpk'⟩
    exact h.single idx hidx hu e pk pk' hpk hpk'

/-- The invariant reads the name and the schema of the virtual table only. -/
theorem TableInv.of_vtable {v v' : VTable} (h : TableInv s v tbl) (hn : v'.name = v.name)
    (hsch : v'.schema = v.schema) : TableInv s v' tbl := by
  obtain ⟨hst, hwf, hv, hr, hagrees, hsingle⟩ := h
  refine ⟨by rw [hn]; exact hst, hwf, ?_, hr, hagrees, hsingle⟩
  refine ⟨?_, ?_, ?_, ?_, ?_⟩
  · rw [hn]; exact hv.name_eq
  · rw [hsch]; exact hv.tableID_eq
  · rw [hsch]; exact hv.columns_eq
  · rw [hsch]; exact hv.pkColumns_eq
  · rw [hsch]; exact hv.syntheticPK_eq

end Justified

/-! ## The statements of a run -/

inductive TableOp where
  | insert (syntheticRowID : Int64) (cols : List Value)
  | update (oldRowID : Int64) (cols : List Value)
  | delete (rowid : Int64)
  | createIndex (stmt : CreateIndexStmt) (indexID : Bytes)

/-- Every column of a tuple is supplied. -/
def Supplied (cols : List Value) : Prop := ∀ i, (TableSchema.valueAt cols i).noChange = false

/-- A table that was just created: no row and no entry, outside a transaction. -/
structure FreshTable (c : Conn) (tbl : TableSchema) : Prop where
  idle : c.session.txContext = none
  stored : storedSchema c.store c.vtab.name = .ok tbl
  wf : tbl.WellFormed
  declares : c.vtab.Declares tbl
  no_rows : ∀ pk, ¬ Live c.store tbl.tableID pk
  no_entries : ∀ idx ∈ tbl.indexes, ∀ e pk, ¬ entriesOf c.store idx.indexID e pk

/-- A connection to a table that was created in an empty store. -/
def Conn.create (tbl : TableSchema) : Conn :=
  ⟨applyAll (schemaWrites tbl) ∅, .idle, ⟨tbl.name, tbl, fun _ => none⟩⟩

@[simp] theorem Conn.store_create : (create tbl).store = applyAll (schemaWrites tbl) ∅ := rfl

@[simp] theorem Conn.session_create : (create tbl).session = .idle := rfl

@[simp] theorem Conn.vtab_create : (create tbl).vtab = ⟨tbl.name, tbl, fun _ => none⟩ := rfl

theorem freshTable_create (hwf : tbl.WellFormed) (hid : tbl.tableID ≠ []) :
    FreshTable (create tbl) tbl := by
  have hm (w : Write) (hw : w ∈ schemaWrites tbl) : IsMetaKey w.key :=
    isMetaKey_of_mem_schemaWrites hw
  constructor
  case idle => rw [session_create, Session.idle]
  case stored =>
    have hmark : spkMark ∅ tbl.name = false := by simp [spkMark, schemaSyntheticPK]
    rw [store_create, vtab_create, storedSchema_schemaWrites ∅ hid hwf.pkColumns_or_syntheticPK,
      hmark, Bool.or_false]
  case wf => exact hwf
  case declares =>
    exact ⟨rfl, rfl, rfl, rfl, rfl⟩
  case no_rows =>
    rintro pk ⟨f, hf⟩
    rw [store_create, rowOf_applyAll_of_ne fun w hw => (hm w hw).ne_rowKey _ _] at hf
    simp [rowOf, cell] at hf
  case no_entries =>
    intro idx _ e pk
    rw [store_create, entriesOf_applyAll_of_ne fun w hw e => (hm w hw).ne_indexKey _ _]
    simp [entriesOf, cell]

section Conditions

variable [Host]

/-- The statements of a run: a row is only written at a key that is not live or that it has
already, with every column supplied, and `CREATE INDEX` works under a fresh identifier, as
`deriveIndexID` promises. -/
def TableOp.Admissible (c : Conn) : TableOp → Prop
  | .insert syntheticRowID cols =>
    Supplied cols ∧ ∀ pk, insertTarget c.vtab syntheticRowID cols = .ok pk →
      ¬ Live c.store c.vtab.schema.tableID pk
  | .update oldRowID cols =>
    Supplied cols ∧ ∀ oldPK newPK, updatePKs c.vtab oldRowID cols = .ok (oldPK, newPK) →
      newPK ≠ oldPK → ¬ Live c.store c.vtab.schema.tableID newPK
  | .delete _ => True
  | .createIndex stmt indexID =>
    stmt.table = c.vtab.name ∧ indexID.length = 16 ∧
      (∀ tbl, storedSchema c.store c.vtab.name = .ok tbl →
        indexID ∉ tbl.indexes.map (·.indexID)) ∧
      ∀ e pk, ¬ entriesOf c.store indexID e pk

/-- No `NULL` of the statement is hidden: neither behind the rowid marker, nor behind the
stored key field of the live row that an `UPDATE` rewrites in place. -/
def TableOp.NullsVisible (c : Conn) : TableOp → Prop
  | .insert _ cols =>
    ∀ tbl, storedSchema c.store c.vtab.name = .ok tbl → MarkerVisible tbl cols
  | .update oldRowID cols =>
    ∀ pk, updatePKs c.vtab oldRowID cols = .ok (pk, pk) →
      Live c.store c.vtab.schema.tableID pk ∧
        ∀ tbl, storedSchema c.store c.vtab.name = .ok tbl → KeyNullVisible tbl cols
  | .delete _ => True
  | .createIndex _ _ => True

/-- The state of a run: outside a transaction, with the invariant of some schema. -/
def Conn.Inv (c : Conn) : Prop := c.session.txContext = none ∧ ∃ tbl, TableInv c.store c.vtab tbl

theorem FreshTable.inv {c : Conn} (h : FreshTable c tbl) : c.Inv := by
  have hrow (pk f : Bytes) : rowOf c.store tbl.tableID pk f = none :=
    rowOf_eq_none_of_not_live (h.no_rows pk) f
  refine ⟨h.idle, tbl, h.stored, h.wf, h.declares, fun pk => ⟨?_, ?_, ?_⟩, ?_, ?_⟩
  · intro f p hp
    exact absurd hp (by simp [hrow])
  · intro f p hp
    exact absurd hp (by simp [hrow])
  · intro _ hl
    exact absurd hl (h.no_rows pk)
  · intro idx hidx e pk
    obtain ⟨n, hn⟩ := List.exists_mem_of_ne_nil _ (h.wf.index_columns_ne_nil idx hidx)
    rw [storedTuple_eq_none hn (hrow pk _)]
    exact ⟨fun he => absurd he (h.no_entries idx hidx e pk), fun he => absurd he (by simp)⟩
  · intro idx hidx _ e pk pk' hpk
    exact absurd hpk (h.no_entries idx hidx e pk)

/-! ## One step -/

variable {c : Conn}

/-- What an accepted statement leaves behind. -/
theorem Conn.inv_of_accept {c' : Conn} (tbl : TableSchema) (hidle : c.session.txContext = none)
    {es : List Effect} (hs : c'.store = (c.accept es).store)
    (htx : c'.session.txContext = (c.accept es).session.txContext)
    (hn : c'.vtab.name = c.vtab.name) (hsch : c'.vtab.schema = c.vtab.schema)
    (h : TableInv (applyAll (dataWrites es) c.store) c.vtab tbl) : c'.Inv := by
  refine ⟨?_, tbl, TableInv.of_vtable (v := c.vtab) ?_ hn hsch⟩
  · rw [htx, txContext_accept_of_idle hidle]
  · rw [hs, store_accept_of_idle hidle]
    exact h

section

variable (hidle : c.session.txContext = none) (h : TableInv c.store c.vtab tbl)

include hidle h

theorem inv_doInsert {rowid : Int64} (hadm : (TableOp.insert rowid cols).Admissible c)
    (hvis : (TableOp.insert rowid cols).NullsVisible c) : (doInsert rowid cols c).2.Inv := by
  have hv := view_of_idle hidle
  have hs : storedSchema c.view c.vtab.name = .ok tbl := hv ▸ h.stored
  obtain ⟨e, es, hrun⟩ | ⟨pk, hpk, hacc, hrun⟩ := doInsert_cases hs rowid cols
  · rw [hrun, abandon_of_idle hidle]
    exact ⟨hidle, tbl, h⟩
  · rw [hrun]
    refine inv_of_accept tbl hidle rfl (txContext_markRowDirty _ _)
      (c.vtab.name_remembered pk) (c.vtab.schema_remembered pk) ?_
    rw [dataWrites_insertEffects h.declares]
    have hl := hadm.2 pk hpk
    rw [h.declares.tableID_eq] at hl
    refine h.insert hl (fun hsyn => ?_) (hv ▸ hacc) (hvis tbl h.stored) rowid
    have henc := insertTarget_ok hpk (h.declares.syntheticPK_eq.trans hsyn)
    rwa [h.declares.pkValues_eq, h.declares.pkAffinities_eq] at henc

theorem inv_doUpdate {oldRowID : Int64} (hadm : (TableOp.update oldRowID cols).Admissible c)
    (hvis : (TableOp.update oldRowID cols).NullsVisible c) : (doUpdate oldRowID cols c).2.Inv := by
  have hvw := view_of_idle hidle
  have hv := h.declares
  have hs : storedSchema c.view c.vtab.name = .ok tbl := hvw ▸ h.stored
  obtain ⟨e, es, hrun⟩ | ⟨oldPK, newPK, hpk, hc⟩ := doUpdate_cases hs oldRowID cols
  · rw [hrun, abandon_of_idle hidle]
    exact ⟨hidle, tbl, h⟩
  · obtain ⟨-, hsynthetic, hdec⟩ := updatePKs_ok hpk
    have henc (hsyn : tbl.syntheticPK = false) :
        encodePK (tbl.pkValues cols) tbl.pkAffinities = some newPK := by
      have := hdec (hv.syntheticPK_eq.trans hsyn)
      rwa [hv.pkValues_eq, hv.pkAffinities_eq] at this
    obtain ⟨rfl, hacc, hrun⟩ | ⟨hne, hacc, hrun⟩ := hc
    · obtain ⟨hl, hkey⟩ := hvis newPK hpk
      rw [hrun]
      refine inv_of_accept tbl hidle rfl (txContext_markRowDirty _ _)
        (by simp [updated]) (by simp [updated]) ?_
      rw [dataWrites_samePKEffects, hvw, hv.tableID_eq]
      exact h.samePK (hv.tableID_eq ▸ hl) henc hadm.1 (hvw ▸ hacc) (hkey tbl h.stored)
    · have hsyn : tbl.syntheticPK = false := by
        by_contra hsyn
        exact hne (hsynthetic (hv.syntheticPK_eq.trans (by simpa using hsyn)))
      have hl := hadm.2 oldPK newPK hpk hne
      rw [hv.tableID_eq] at hl
      rw [hrun]
      refine inv_of_accept tbl hidle rfl
        ((txContext_markRowDirty _ _).trans (txContext_markRowDirty _ _))
        (by simp [moved]) (by simp [moved]) ?_
      rw [dataWrites_pkChangeEffects hv, hvw, hv.tableID_eq]
      exact h.pkChange hsyn hne hl (henc hsyn) hadm.1 (hvw ▸ hacc)

theorem inv_deleteRow (rowid : Int64) : (deleteRow rowid c).2.Inv := by
  have hv := view_of_idle hidle
  cases hpk : c.vtab.pkForRowID rowid with
  | none =>
    rw [deleteRow_of_refused hpk]
    exact ⟨hidle, tbl, h⟩
  | some pk =>
    rw [deleteRow_ok (hv ▸ h.stored) hpk]
    refine inv_of_accept tbl hidle rfl (txContext_markRowDirty _ _)
      (c.vtab.name_forgetRowID rowid) (c.vtab.schema_forgetRowID rowid) ?_
    rw [dataWrites_deleteEffects, hv, h.declares.tableID_eq]
    exact h.removeRow pk

end

end Conditions

section Runs

variable [Host] [Keytrie] {c : Conn}

theorem inv_handleCreateIndex (hidle : c.session.txContext = none) (h : TableInv c.store c.vtab tbl)
    {stmt : CreateIndexStmt} {indexID : Bytes}
    (hadm : (TableOp.createIndex stmt indexID).Admissible c) :
    Conn.Inv { c with store := (handleCreateIndex stmt indexID c.store).2 } := by
  obtain ⟨ht, hlen, hids, hfr⟩ := hadm
  unfold handleCreateIndex
  rw [ht, h.stored]
  simp only
  cases hch : checkCreateIndex tbl stmt with
  | error e => exact ⟨hidle, tbl, h⟩
  | ok u =>
    cases hrun : createIndexBody tbl (stmt.index tbl indexID) ⟨c.store, []⟩ with
    | error e ctx =>
      rw [runRMW_of_error hrun]
      exact ⟨hidle, tbl, h⟩
    | ok u ctx =>
      rw [runRMW_of_ok hrun]
      exact ⟨hidle, _, h.createIndex hch hlen (hids tbl h.stored) hfr hrun⟩

/-- What a statement makes of a connection, whether it succeeds or fails. -/
def TableOp.step (c : Conn) : TableOp → Conn
  | .insert syntheticRowID cols => (doInsert syntheticRowID cols c).2
  | .update oldRowID cols => (doUpdate oldRowID cols c).2
  | .delete rowid => (deleteRow rowid c).2
  | .createIndex stmt indexID => { c with store := (handleCreateIndex stmt indexID c.store).2 }

/-- **One statement keeps the invariant.** -/
theorem Conn.Inv.step (h : c.Inv) {op : TableOp} (hadm : op.Admissible c)
    (hvis : op.NullsVisible c) : (op.step c).Inv := by
  obtain ⟨hidle, tbl, hinv⟩ := h
  cases op with
  | insert rowid cols => exact inv_doInsert hidle hinv hadm hvis
  | update oldRowID cols => exact inv_doUpdate hidle hinv hadm hvis
  | delete rowid => exact inv_deleteRow hidle hinv rowid
  | createIndex stmt indexID => exact inv_handleCreateIndex hidle hinv hadm

/-! ## Runs -/

/-- The runs whose statements all meet a condition. -/
def Run (P : Conn → TableOp → Prop) : Conn → Conn → Prop :=
  Relation.ReflTransGen fun c c' => ∃ op : TableOp, P c op ∧ c' = op.step c

/-- **Index agreement over whole runs.** -/
theorem run_indexesAgree {c₀ : Conn} {tbl : TableSchema} (hfresh : FreshTable c₀ tbl)
    (hrun : Run (fun c op => op.Admissible c ∧ op.NullsVisible c) c₀ c) :
    IndexesAgree c.store c.vtab.name := by
  have hinv : c.Inv := by
    induction hrun with
    | refl => exact hfresh.inv
    | tail _ hstep ih =>
      obtain ⟨op, ⟨hadm, hvis⟩, rfl⟩ := hstep
      exact ih.step hadm hvis
  obtain ⟨-, tbl', h⟩ := hinv
  exact h.indexesAgree

end Runs

/-! ## Two runs -/

section Sample

local instance sampleHost : Host := Host.inert

local instance sampleKeytrie : Keytrie := Keytrie.ofPrefix

/-- An index on the key of `keyTable`. -/
def keyIndex : IndexSchema := ⟨"t_id", List.replicate 16 1, "t", [1], ["id"], false⟩

/-- `CREATE TABLE t (id INTEGER PRIMARY KEY)` with an index on the key. -/
def keyTable : TableSchema where
  name := "t"
  tableID := [1]
  columns := [⟨"id", .integer, "INTEGER", true, true, none⟩]
  pkColumns := [0]
  indexes := [keyIndex]
  syntheticPK := false

theorem keyTable_wellFormed : keyTable.WellFormed where
  names_nodup := by decide
  pk_lt := by decide
  synthetic_iff := by decide
  index_ids_nodup := by decide
  index_id_length := by decide
  index_columns := by decide
  index_columns_ne_nil := by decide

theorem freshTable_keyTable : FreshTable (create keyTable) keyTable :=
  freshTable_create keyTable_wellFormed (by decide)

theorem supplied_singleton {v : Value} (h : v.noChange = false) : Supplied [v] := by
  intro i
  cases i with
  | zero => exact h
  | succ i => rfl

/-- The statements of a run whose values have the storage class of their column. -/
def TableOp.Conforming (c : Conn) : TableOp → Prop
  | .insert _ cols | .update _ cols =>
    ∀ i, (TableSchema.valueAt cols i).Conforms (c.vtab.schema.affinityAt i)
  | .delete _ => True
  | .createIndex _ _ => True

/-- After `INSERT INTO t VALUES (0)`. -/
def rowZero : Conn := (TableOp.insert 0 [.integer 0]).step (Conn.create keyTable)

/-- After `UPDATE t SET id = NULL` on that row. -/
def rowHidden : Conn := (TableOp.update 0 [.null]).step rowZero

theorem admissible_rowZero : (TableOp.insert 0 [.integer 0]).Admissible (create keyTable) :=
  ⟨supplied_singleton rfl, fun pk _ => freshTable_keyTable.no_rows pk⟩

theorem admissible_rowHidden : (TableOp.update 0 [.null]).Admissible rowZero := by
  refine ⟨supplied_singleton rfl, fun oldPK newPK hpks hne => ?_⟩
  have hsame : updatePKs rowZero.vtab 0 [.null] = .ok (pkOfRowID 0, pkOfRowID 0) := by rfl
  obtain ⟨rfl, rfl⟩ : pkOfRowID 0 = oldPK ∧ pkOfRowID 0 = newPK := by
    simpa using hsame.symm.trans hpks
  exact absurd rfl hne

/-- An index on the key loses the row when an `UPDATE` hides a `NULL` behind the key field:
the row is live and holds `0`, and its entry is gone. -/
theorem not_indexesAgree_rowHidden :
    FreshTable (Conn.create keyTable) keyTable ∧
      Run (fun c op => op.Admissible c ∧ op.Conforming c) (Conn.create keyTable) rowHidden ∧
      ¬ IndexesAgree rowHidden.store rowHidden.vtab.name := by
  refine ⟨freshTable_keyTable, ?_, ?_⟩
  · refine (Relation.ReflTransGen.single ⟨_, ⟨admissible_rowZero, ?_⟩, rfl⟩).tail
      ⟨_, ⟨admissible_rowHidden, ?_⟩, rfl⟩
    · intro i
      cases i <;> exact .inl rfl
    · intro i
      cases i with
      | zero => exact .inr trivial
      | succ i => exact .inl rfl
  · rintro ⟨tbl, hs, hidx⟩
    obtain rfl : tbl = keyTable := by
      have hkey : storedSchema rowHidden.store "t" = .ok keyTable := by rfl
      exact Except.ok.inj (hs.symm.trans hkey)
    obtain ⟨hps, -⟩ := hidx keyIndex (List.mem_singleton.mpr rfl)
    set entry := (indexKey keyIndex.indexID (encodeIndexKeyTuple [.integer 0] [.integer]),
      pkOfRowID 0) with he
    have hjust : entry ∈ justifiedPairs rowHidden.store keyTable keyIndex :=
      ⟨⟨utf8 "id", by decide⟩, [.integer 0], by decide, rfl⟩
    have hg : cell rowHidden.store entry.1 entry.2 = none := by decide
    rw [← hps] at hjust
    exact absurd hjust.2 (by simp [hg])

/-- A run that meets the conditions: the row is written and deleted again. -/
theorem indexesAgree_deleted :
    IndexesAgree ((TableOp.delete 0).step rowZero).store ((TableOp.delete 0).step rowZero).vtab.name :=
  run_indexesAgree freshTable_keyTable <|
    (Relation.ReflTransGen.single ⟨_, ⟨admissible_rowZero, fun _ hs hsyn => by
      obtain rfl := Except.ok.inj (hs.symm.trans freshTable_keyTable.stored)
      exact absurd hsyn (by decide)⟩, rfl⟩).tail ⟨.delete 0, ⟨trivial, trivial⟩, rfl⟩

end Sample

end Swytch.Sql
