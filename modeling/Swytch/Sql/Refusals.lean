import Swytch.Sql.Runs
import Swytch.Sql.Transaction

/-!
# Statements that are refused

No statement asks whether the key it writes at is live.  An `INSERT` at a live key and an
`UPDATE` that moves a row onto one are refused only for a reason that has nothing to do
with the other row: a `NULL` in the key, or a tuple of a unique index that a third row
holds.

Inside a transaction a body that fails has already pinned the schema it loaded, and what it
has emitted stays pending.
-/

namespace Swytch.Sql

open Conn
open KeyedStore TxM

/-! ## A schema that does not load -/

variable {α : Type} {cols vals : List Value} {rowid oldRowID : Int64} {v : VTable}
    {tbl : TableSchema} {s : Store}

variable {pk oldPK newPK : Bytes} {ctx : Ctx}

section NoSchema

variable [Host] {c : Conn} {e : SqlError}

theorem doInsert_of_noSchema (hs : storedSchema c.view c.vtab.name = .error e)
    (hpk : insertTarget c.vtab rowid cols = .ok pk) : doInsert rowid cols c = (.error e, c) := by
  have hb : insertBody c.vtab rowid pk cols c.ctx = .error e (c.ctx.emitAll []) := by
    rw [insertBody, run_pinLiveSchema_bind_error hs, Ctx.emitAll_nil]
  simp [doInsert, hpk, runWrite_error hb]

theorem doUpdate_of_noSchema (hs : storedSchema c.view c.vtab.name = .error e)
    (hpk : updatePKs c.vtab oldRowID cols = .ok (oldPK, newPK)) :
    doUpdate oldRowID cols c = (.error e, c) := by
  have hsame : samePKBody c.vtab oldPK cols c.ctx = .error e (c.ctx.emitAll []) := by
    rw [samePKBody, run_pinLiveSchema_bind_error hs, Ctx.emitAll_nil]
  have hchange : pkChangeBody c.vtab oldPK newPK cols c.ctx = .error e (c.ctx.emitAll []) := by
    rw [pkChangeBody, emitPKChange, run_bind_error (run_pinLiveSchema_bind_error hs _),
      Ctx.emitAll_nil]
  by_cases hne : newPK = oldPK
  · simp [doUpdate, hpk, hne, runWrite_error hsame]
  · simp [doUpdate, hpk, hne, runWrite_error hchange]

end NoSchema

/-! ## Writing at a live key -/

/-- A statement that is refused and leaves every row field and every entry as it was. -/
def Refused {α : Type} (c : Conn) (outcome : Except SqlError α × Conn) : Prop :=
  (∃ e, outcome.1 = .error e) ∧
    (∀ tableID pk, rowOf outcome.2.store tableID pk = rowOf c.store tableID pk) ∧
    ∀ indexID, entriesOf outcome.2.store indexID = entriesOf c.store indexID

/-- A key column of the table is `NULL` in a tuple. -/
def KeyNull (v : VTable) (vals : List Value) : Prop :=
  ∃ ord ∈ v.schema.pkColumns, (TableSchema.valueAt vals ord).isNull = true

theorem pkPresent_iff : pkPresent v vals = true ↔ ¬ KeyNull v vals := by
  simp [pkPresent, KeyNull]

theorem refused_self (c : Conn) (e : SqlError) :
    Refused c ((.error e, c) : Except SqlError α × Conn) :=
  ⟨⟨e, rfl⟩, fun _ _ => rfl, fun _ => rfl⟩

theorem not_refused_ok (c c' : Conn) (a : α) :
    ¬ Refused c ((.ok a, c') : Except SqlError α × Conn) := by
  rintro ⟨⟨e, he⟩, -⟩
  cases he

section LiveKey

variable {pk : Bytes} [Host] {c : Conn}

/-- A unique index files another row than `pk` under the tuple of the values. -/
def UniqueTaken (s : Store) (tbl : TableSchema) (vals : List Value) (pk : Bytes) : Prop :=
  ∃ idx ∈ tbl.indexes, idx.unique = true ∧ ∃ e, indexTupleForRow idx tbl vals = some e ∧
    ∃ pk', pk' ≠ pk ∧ entriesOf s idx.indexID e pk'

theorem insertOps_conflict_iff :
    (∀ op ∈ insertOps tbl vals, op.conflicts s pk = false) ↔ ¬ UniqueTaken s tbl vals pk := by
  rw [insertOps, conflicts_entryOps_iff]
  constructor
  · rintro hf ⟨idx, hidx, hu, e, he, ho⟩
    have hheld := holdsOther_iff.mpr ho
    rw [hf idx hidx hu e he] at hheld
    cases hheld
  · intro hf idx hidx hu e he
    by_contra hheld
    exact hf ⟨idx, hidx, hu, e, he, holdsOther_iff.mp (by simpa using hheld)⟩

/-- Why an `INSERT` is refused. -/
def InsertBlocked (c : Conn) (pk : Bytes) (cols : List Value) : Prop :=
  ∀ tbl, storedSchema c.store c.vtab.name = .ok tbl →
    (c.vtab.schema.syntheticPK = false ∧ KeyNull c.vtab cols) ∨ UniqueTaken c.store tbl cols pk

/-- The store once an `UPDATE` has taken the row away that it moves. -/
def withoutRow (c : Conn) (tbl : TableSchema) (pk : Bytes) : Store :=
  applyAll (pkChangeRemoves c.vtab tbl pk c.store[rowKey c.vtab.schema.tableID pk]?) c.store

/-- Why an `UPDATE` that moves a row is refused. -/
def MoveBlocked (c : Conn) (oldPK newPK : Bytes) (cols : List Value) : Prop :=
  ∀ tbl, storedSchema c.store c.vtab.name = .ok tbl →
    let newVals := pkChangeVals tbl c.store[rowKey c.vtab.schema.tableID oldPK]? cols
    KeyNull c.vtab newVals ∨ UniqueTaken (withoutRow c tbl oldPK) tbl newVals newPK

theorem insertAccepts_iff :
    InsertAccepts s v tbl pk cols ↔
      ¬ ((v.schema.syntheticPK = false ∧ KeyNull v cols) ∨ UniqueTaken s tbl cols pk) := by
  rw [InsertAccepts, insertOps_conflict_iff, pkPresent_iff, and_comm]
  cases v.schema.syntheticPK <;> simp

omit [Host] in
/-- A write of an idle connection is refused just if no stored schema accepts it. -/
theorem refused_iff (hi : c.session.txContext = none) {write : Except SqlError α × Conn}
    {Accepts : TableSchema → Prop}
    (hn : ∀ e, storedSchema c.view c.vtab.name = .error e → write = (.error e, c))
    (hok : ∀ tbl, storedSchema c.view c.vtab.name = .ok tbl → Accepts tbl →
      ∃ a c', write = (.ok a, c'))
    (herror : ∀ tbl, storedSchema c.view c.vtab.name = .ok tbl → ¬ Accepts tbl →
      ∃ e es, write = (.error e, c.abandon es)) :
    Refused c write ↔ ∀ tbl, storedSchema c.store c.vtab.name = .ok tbl → ¬ Accepts tbl := by
  rw [view_of_idle hi] at hn hok herror
  cases hs : storedSchema c.store c.vtab.name with
  | error e =>
    rw [hn e hs]
    exact iff_of_true (refused_self c e) fun _ h => absurd h (by simp)
  | ok tbl =>
    by_cases hacc : Accepts tbl
    · obtain ⟨a, c', h⟩ := hok tbl hs hacc
      rw [h]
      exact iff_of_false (not_refused_ok c c' a) fun hnot => hnot tbl rfl hacc
    · obtain ⟨e, es, h⟩ := herror tbl hs hacc
      rw [h, abandon_of_idle hi]
      exact iff_of_true (refused_self c e) fun _ htbl => Except.ok.inj htbl ▸ hacc

theorem refused_doInsert_iff (hi : c.session.txContext = none)
    (hpk : insertTarget c.vtab rowid cols = .ok pk) :
    Refused c (doInsert rowid cols c) ↔ InsertBlocked c pk cols := by
  rw [refused_iff hi (fun _ hs => doInsert_of_noSchema hs hpk)
    (fun _ hs hacc => ⟨_, _, doInsert_of_accepts hs hpk hacc⟩)
    fun _ hs hacc => (doInsert_of_not_accepts hs hpk hacc).imp fun _ h => ⟨_, h.choose_spec⟩]
  refine forall₂_congr fun tbl _ => ?_
  rw [view_of_idle hi, insertAccepts_iff, not_not]

theorem refused_doUpdate_iff (hi : c.session.txContext = none)
    (hpk : updatePKs c.vtab oldRowID cols = .ok (oldPK, newPK)) (hne : newPK ≠ oldPK) :
    Refused c (doUpdate oldRowID cols c) ↔ MoveBlocked c oldPK newPK cols := by
  rw [refused_iff hi (fun _ hs => doUpdate_of_noSchema hs hpk)
    (fun _ hs hacc => ⟨_, _, doUpdate_pkChange_of_accepts hs hpk hne hacc⟩)
    fun _ hs hacc =>
      (doUpdate_pkChange_of_not_accepts hs hpk hne hacc).imp fun _ h => ⟨_, h.choose_spec⟩]
  refine forall₂_congr fun tbl _ => ?_
  rw [view_of_idle hi, PKChangeAccepts, insertOps_conflict_iff, pkPresent_iff, ← not_or,
    not_not, or_comm]
  exact Iff.rfl

/-- **Writing at a live key.**  It is refused exactly when the statement would be refused at
any key. -/
theorem liveKey_refused_iff (hidle : c.session.txContext = none) :
    (∀ rowid cols pk, insertTarget c.vtab rowid cols = .ok pk →
      Live c.store c.vtab.schema.tableID pk →
        (Refused c (doInsert rowid cols c) ↔ InsertBlocked c pk cols)) ∧
    ∀ oldRowID cols oldPK newPK, updatePKs c.vtab oldRowID cols = .ok (oldPK, newPK) →
      newPK ≠ oldPK → Live c.store c.vtab.schema.tableID newPK →
        (Refused c (doUpdate oldRowID cols c) ↔ MoveBlocked c oldPK newPK cols) :=
  ⟨fun _ _ _ hpk _ => refused_doInsert_iff hidle hpk,
    fun _ _ _ _ hpk hne _ => refused_doUpdate_iff hidle hpk hne⟩

end LiveKey

/-! ## An overwritten row -/

section Sample

local instance pairHost : Host := Host.inert

local instance pairKeytrie : Keytrie := Keytrie.ofPrefix

/-- An index on the second column of `pairTable`. -/
def pairIndex : IndexSchema := ⟨"t_v", List.replicate 16 1, "t", [1], ["v"], false⟩

/-- `CREATE TABLE t (id INTEGER PRIMARY KEY, v TEXT)` with an index on `v`. -/
def pairTable : TableSchema where
  name := "t"
  tableID := [1]
  columns := [⟨"id", .integer, "INTEGER", true, true, none⟩, ⟨"v", .text, "TEXT", false, false, none⟩]
  pkColumns := [0]
  indexes := [pairIndex]
  syntheticPK := false

theorem freshTable_pairTable : FreshTable (create pairTable) pairTable :=
  freshTable_create ⟨by decide, by decide, by decide, by decide, by decide, by decide, by decide⟩
    (by decide)

theorem supplied_pair {v w : Value} (hv : v.noChange = false) (hw : w.noChange = false) :
    Supplied [v, w] := by
  intro i
  match i with
  | 0 => exact hv
  | 1 => exact hw
  | i + 2 => rfl

/-- `(1, 'a')`. -/
def tupleA : List Value := [.integer 1, .text (utf8 "a")]

/-- `(1, 'b')`. -/
def tupleB : List Value := [.integer 1, .text (utf8 "b")]

/-- After `INSERT INTO t VALUES (1, 'a')`. -/
def rowA : Conn := (TableOp.insert 0 tupleA).step (Conn.create pairTable)

/-- After `INSERT INTO t VALUES (1, 'b')` on top of it. -/
def rowB : Conn := (doInsert 0 tupleB rowA).2

theorem run_rowA : Run (fun c op => op.Admissible c ∧ op.Conforming c) (create pairTable) rowA := by
  refine .single ⟨.insert 0 tupleA,
    ⟨⟨supplied_pair rfl rfl, fun pk _ => freshTable_pairTable.no_rows pk⟩, ?_⟩, rfl⟩
  intro i
  match i with
  | 0 => exact .inr trivial
  | 1 => exact .inr trivial
  | i + 2 => exact .inl rfl

theorem live_rowA : Live rowA.store rowA.vtab.schema.tableID (pkOfRowID 1) :=
  ⟨utf8 "id", by decide⟩

/-- An `INSERT` at a live key succeeds, and the entry of the row it overwrites stays. -/
theorem insert_overwrites_rowA :
    FreshTable (Conn.create pairTable) pairTable ∧
      Run (fun c op => op.Admissible c ∧ op.Conforming c) (Conn.create pairTable) rowA ∧
      insertTarget rowA.vtab 0 tupleB = .ok (pkOfRowID 1) ∧
      Live rowA.store rowA.vtab.schema.tableID (pkOfRowID 1) ∧
      ¬ Refused rowA (doInsert 0 tupleB rowA) ∧
      let entry := (indexKey pairIndex.indexID (utf8 "a"), pkOfRowID 1)
      entry ∈ entryPairs rowB.store pairIndex ∧ entry ∉ justifiedPairs rowB.store pairTable pairIndex := by
  refine ⟨freshTable_pairTable, run_rowA, rfl, live_rowA, ?_, ⟨⟨_, rfl⟩, by decide⟩, ?_⟩
  · rintro ⟨⟨e, he⟩, -⟩
    have hok : (doInsert 0 tupleB rowA).1.isOk = true := by decide
    rw [he] at hok
    exact absurd hok (by simp [Except.toBool])
  · rintro ⟨-, vals, hvals, hkey⟩
    have hst : storedComponents pairIndex.columns (pairIndex.columnAffinities pairTable)
        (rowOf rowB.store pairTable.tableID (pkOfRowID 1)) = some [.text (utf8 "b")] := by decide
    obtain rfl := Option.some.inj (hst.symm.trans hvals)
    exact absurd (indexKey_inj.mp hkey) (by decide)

theorem refused_rowA_iff :
    Refused rowA (doInsert 0 tupleB rowA) ↔ InsertBlocked rowA (pkOfRowID 1) tupleB :=
  (liveKey_refused_iff (c := rowA) rfl).1 0 tupleB (pkOfRowID 1) rfl live_rowA

end Sample

/-! ## Failing inside a transaction -/

section InTransaction

variable [Host]

/-- The write body of a statement that gets as far as running one. -/
def TableOp.writeBody (c : Conn) : TableOp → Option (TxM Unit)
  | .insert syntheticRowID cols =>
    match insertTarget c.vtab syntheticRowID cols with
    | .error _ => none
    | .ok pk => some (insertBody c.vtab syntheticRowID pk cols)
  | .update oldRowID cols =>
    match updatePKs c.vtab oldRowID cols with
    | .error _ => none
    | .ok (oldPK, newPK) =>
      if newPK ≠ oldPK then some (pkChangeBody c.vtab oldPK newPK cols)
      else some (samePKBody c.vtab oldPK cols)
  | .delete rowid => (c.vtab.pkForRowID rowid).map (deleteBody c.vtab)
  | .createIndex _ _ => none

open TableOp (writeBody step)

/-- What a write body can do: fail without an effect when its schema does not load, and
otherwise succeed or fail after its pin on the schema. -/
def PinsFirst (v : VTable) (ctx : Ctx) (body : TxM Unit) : Prop :=
  match storedSchema ctx.view v.name with
  | .error e => body ctx = .error e ctx
  | .ok _ => (∃ es, body ctx = .ok () (ctx.emitAll es)) ∨
      ∃ e es, body ctx = .error e (ctx.emitAll (.noop (schemaKey v.name) :: es))

theorem pinsFirst_insertBody (v : VTable) : PinsFirst v ctx (insertBody v rowid pk cols) := by
  unfold PinsFirst
  split
  case h_1 e hs => rw [insertBody, run_pinLiveSchema_bind_error hs]
  case h_2 tbl hs =>
    by_cases hacc : InsertAccepts ctx.view v tbl pk cols
    · exact .inl ⟨_, run_insertBody_ok hs hacc rowid⟩
    · exact .inr (run_insertBody_error hs hacc rowid)

theorem pinsFirst_samePKBody (v : VTable) : PinsFirst v ctx (samePKBody v pk cols) := by
  unfold PinsFirst
  split
  case h_1 e hs => rw [samePKBody, run_pinLiveSchema_bind_error hs]
  case h_2 tbl hs =>
    by_cases hacc : SamePKAccepts ctx.view v tbl pk cols
    · exact .inl ⟨_, run_samePKBody_ok hs hacc⟩
    · exact .inr (run_samePKBody_error hs hacc)

theorem pinsFirst_pkChangeBody (v : VTable) :
    PinsFirst v ctx (pkChangeBody v oldPK newPK cols) := by
  unfold PinsFirst
  split
  case h_1 e hs =>
    rw [pkChangeBody, emitPKChange, run_bind_error (run_pinLiveSchema_bind_error hs _)]
  case h_2 tbl hs =>
    by_cases hacc : PKChangeAccepts ctx.view v tbl oldPK newPK cols
    · exact .inl ⟨_, run_pkChangeBody_ok hs hacc⟩
    · exact .inr (run_pkChangeBody_error hs hacc)

theorem pinsFirst_deleteBody (v : VTable) : PinsFirst v ctx (deleteBody v pk) := by
  unfold PinsFirst
  split
  case h_1 e hs => rw [deleteBody, run_pinLiveSchema_bind_error hs]
  case h_2 tbl hs => exact .inl ⟨_, run_deleteBody hs⟩

/-- Every write body pins the schema first. -/
theorem pinsFirst_writeBody {c : Conn} {op : TableOp} {body : TxM Unit}
    (hb : op.writeBody c = some body) : PinsFirst c.vtab c.ctx body := by
  cases op with
  | insert rowid cols =>
    rw [writeBody] at hb
    split at hb
    · cases hb
    · exact Option.some.inj hb ▸ pinsFirst_insertBody ..
  | update oldRowID cols =>
    rw [writeBody] at hb
    split at hb
    · cases hb
    · split at hb
      · exact Option.some.inj hb ▸ pinsFirst_pkChangeBody ..
      · exact Option.some.inj hb ▸ pinsFirst_samePKBody ..
  | delete rowid =>
    obtain ⟨pk, -, rfl⟩ := Option.map_eq_some_iff.mp hb
    exact pinsFirst_deleteBody ..
  | createIndex stmt indexID => simp [writeBody] at hb

variable [Keytrie] {c : Conn} {op : TableOp} {body : TxM Unit}

/-- A statement whose body fails is that failure and nothing more. -/
theorem step_of_writeBody_error (hb : op.writeBody c = some body) {e : SqlError}
    {es : List Effect} (herr : body c.ctx = .error e (c.ctx.emitAll es)) :
    op.step c = c.abandon es := by
  have hrun := runWrite_error herr
  cases op with
  | insert rowid cols =>
    rw [writeBody] at hb
    rw [step, doInsert]
    cases hpk : insertTarget c.vtab rowid cols with
    | error e' => simp [hpk] at hb
    | ok pk =>
      obtain rfl : insertBody c.vtab rowid pk cols = body := by simpa [hpk] using hb
      simp [hrun]
  | update oldRowID cols =>
    rw [writeBody] at hb
    rw [step, doUpdate]
    cases hpk : updatePKs c.vtab oldRowID cols with
    | error e' => simp [hpk] at hb
    | ok pks =>
      obtain ⟨oldPK, newPK⟩ := pks
      by_cases hne : newPK = oldPK
      · obtain rfl : samePKBody c.vtab oldPK cols = body := by simpa [hpk, hne] using hb
        simp [hne, hrun]
      · obtain rfl : pkChangeBody c.vtab oldPK newPK cols = body := by
          simpa [hpk, hne] using hb
        simp [hne, hrun]
  | delete rowid =>
    rw [writeBody, Option.map_eq_some_iff] at hb
    obtain ⟨pk, hpk, rfl⟩ := hb
    rw [step, deleteRow]
    simp [hpk, hrun]
  | createIndex stmt indexID => simp [writeBody] at hb

/-- **A failed statement of a transaction** leaves the transaction as it was exactly when
the schema of its table does not load. -/
theorem failed_statement_leaves_tx_iff {pending : List Effect}
    (htx : c.session.txContext = some pending) (hbody : op.writeBody c = some body)
    {e : SqlError} {ctx : Ctx} (herr : body c.ctx = .error e ctx) :
    ((op.step c).session.txContext = some pending ∧
        (op.step c).session.txDirtyRows = c.session.txDirtyRows) ↔
      ∃ e', storedSchema c.view c.vtab.name = .error e' := by
  have hpins := pinsFirst_writeBody hbody
  have habandon (es : List Effect) : (c.abandon es).session.txContext = some (pending ++ es) ∧
      (c.abandon es).session.txDirtyRows = c.session.txDirtyRows := by
    simp [abandon, htx]
  change match storedSchema c.view c.vtab.name with
    | .error e => _
    | .ok _ => _ at hpins
  cases hs : storedSchema c.view c.vtab.name with
  | error e' =>
    have hfl : body c.ctx = .error e' (c.ctx.emitAll []) := by
      rw [hs] at hpins
      rw [Ctx.emitAll_nil]
      exact hpins
    obtain ⟨htx', hdi⟩ := habandon []
    rw [step_of_writeBody_error hbody hfl, htx', hdi, List.append_nil]
    exact iff_of_true ⟨rfl, rfl⟩ ⟨e', rfl⟩
  | ok tbl =>
    rw [hs] at hpins
    rcases hpins with ⟨es, hok⟩ | ⟨e', es, hfl⟩
    · exact absurd (hok.symm.trans herr) (by simp)
    · rw [step_of_writeBody_error hbody hfl, (habandon _).1]
      refine iff_of_false (fun h => ?_) (by simp)
      simpa using h.1

end InTransaction

section TransactionSample

local instance txHost : Host := Host.inert

local instance txKeytrie : Keytrie := Keytrie.ofPrefix

/-- The table `pairTable`, in a transaction that was just opened. -/
def openedPair : Conn := { Conn.create pairTable with session := ⟨some [], [], []⟩ }

/-- `INSERT INTO t VALUES (NULL, 'a')`. -/
def nullKeyInsert : TableOp := .insert 0 [.null, .text (utf8 "a")]

/-- An `INSERT` that fails on its `NULL` key has already filed the row in the index; the
entry is committed with the transaction, and no row justifies it. -/
theorem nullKeyInsert_leaves_entry :
    (Conn.create pairTable).handleBegin = some openedPair ∧
      ((nullKeyInsert.writeBody openedPair).map fun body =>
        match body openedPair.ctx with
        | .ok _ _ => true
        | .error _ _ => false) = some false ∧
      (nullKeyInsert.step openedPair).session.txContext ≠ openedPair.session.txContext ∧
      let committed := (nullKeyInsert.step openedPair).handleCommit.store
      let entry := (indexKey pairIndex.indexID (utf8 "a"), pkOfRowID 0)
      entry ∈ entryPairs committed pairIndex ∧ entry ∉ justifiedPairs committed pairTable pairIndex := by
  refine ⟨rfl, by decide, fun htx => ?_, ⟨⟨_, rfl⟩, by decide⟩, ?_⟩
  · have hpend : (nullKeyInsert.step openedPair).session.txContext.map List.isEmpty =
        some false := by decide
    rw [htx] at hpend
    cases hpend
  rintro ⟨-, vals, hvals, -⟩
  have hst : storedComponents pairIndex.columns (pairIndex.columnAffinities pairTable)
      (rowOf (nullKeyInsert.step openedPair).handleCommit.store pairTable.tableID (pkOfRowID 0)) =
        none := by decide
  exact absurd (hst.symm.trans hvals) (by simp)

theorem nullKeyInsert_leaves_tx_iff :
    ((nullKeyInsert.step openedPair).session.txContext = some [] ∧
        (nullKeyInsert.step openedPair).session.txDirtyRows = openedPair.session.txDirtyRows) ↔
      ∃ e, storedSchema openedPair.view openedPair.vtab.name = .error e := by
  cases hrun : insertBody openedPair.vtab 0 (pkOfRowID 0) [.null, .text (utf8 "a")]
      openedPair.ctx with
  | ok u ctx =>
    have herr : (match insertBody openedPair.vtab 0 (pkOfRowID 0) [.null, .text (utf8 "a")]
        openedPair.ctx with
      | .ok _ _ => true
      | .error _ _ => false) = false := by decide
    rw [hrun] at herr
    cases herr
  | error e ctx => exact failed_statement_leaves_tx_iff rfl rfl hrun

end TransactionSample

end Swytch.Sql
