import Swytch.Sql.Agreement
import Swytch.Sql.CatalogLaws

/-!
# The backfill of `CREATE INDEX`

The body of `handleCreateIndex` walks the row keys of the table and files every row whose
indexed fields are all present under the tuple they spell.  A successful run has filed
exactly the rows that spell a tuple; in a unique index no two of them spell the same one.
-/

namespace Swytch.Sql

open List
open KeyedStore SecondaryIndex TxM

variable {rk : Bytes} {idx : IndexSchema} {w : Write} {tbl : TableSchema} {n : String}
    {stmt : CreateIndexStmt} {c : Ctx} {s : Store}

section Scan

variable [Keytrie]

/-- The keys a scan by prefix visits. -/
theorem mem_scanKeys_starting {p key : Bytes} (hp : p ≠ []) :
    key ∈ scanKeys s [] (glob p) ↔ key ∈ s ∧ ∃ rest, key = p ++ rest := by
  simp only [scanKeys, Keytrie.matchGlob_glob, mem_filter, Std.ExtTreeMap.mem_keys,
    Bool.and_eq_true, isPrefixOf_iff_prefix]
  constructor
  · rintro ⟨hmem, -, rest, rfl⟩
    exact ⟨hmem, rest, rfl⟩
  · rintro ⟨hmem, rest, rfl⟩
    obtain ⟨b, p, rfl⟩ := exists_cons_of_ne_nil hp
    exact ⟨hmem, rfl, rest, rfl⟩

theorem mem_scanKeys_rowKeyPattern {tid : Bytes} :
    rk ∈ scanKeys s [] (rowKeyPattern tid) ↔ rk ∈ s ∧ ∃ pk, rk = rowKey tid pk :=
  mem_scanKeys_starting (cons_ne_nil _ _)

theorem mem_scanKeys_indexKeyPattern {iid ek : Bytes} :
    ek ∈ scanKeys s [] (indexKeyPattern iid) ↔ ek ∈ s ∧ ∃ e, ek = indexKey iid e :=
  mem_scanKeys_starting (cons_ne_nil _ _)

end Scan

theorem key_indexMetaWrites (hw : w ∈ indexMetaWrites idx) :
    w.key = indexMetaKey idx.name ∨ w.key = indexListKey := by
  simp only [indexMetaWrites, mem_cons, not_mem_nil, or_false] at hw
  rcases hw with rfl | rfl | rfl | rfl | rfl | rfl <;> simp [Write.key]

/-- The checks of `handleCreateIndex` find every column in the table. -/
theorem checkIndexColumns_ok {name : String} {columns : List String} {ords : List ℕ}
    (h : checkIndexColumns tbl name columns ords = .ok ()) (hn : n ∈ columns) :
    ∃ col ∈ tbl.columns, col.name = n := by
  induction columns generalizing ords with
  | nil => simp at hn
  | cons colName columns ih =>
    rw [checkIndexColumns] at h
    cases hord : IndexSchema.columnOrdinal tbl colName with
    | none => simp [hord] at h
    | some ord =>
      simp only [hord] at h
      split at h
      · cases h
      rcases mem_cons.mp hn with rfl | hn
      · obtain ⟨col, hcol, hnm⟩ := columnOrdinal_eq_some hord
        exact ⟨col, mem_of_getElem? hcol, hnm⟩
      · exact ih h hn

theorem checkCreateIndex_ok (h : checkCreateIndex tbl stmt = .ok ()) (hn : n ∈ stmt.columns) :
    ∃ col ∈ tbl.columns, col.name = n := by
  unfold checkCreateIndex at h
  cases hch : checkIndexColumns tbl stmt.name stmt.columns [] with
  | error e =>
    rw [hch] at h
    exact absurd h (by simp [bind, Except.bind])
  | ok u => exact checkIndexColumns_ok hch hn

variable [Host]

/-- The tuple a row key is filed under, with its primary key. -/
def backfillTarget (s : Store) (tbl : TableSchema) (idx : IndexSchema) (rk : Bytes) :
    Option (Bytes × Bytes) :=
  (parseRowKey rk tbl.tableID).bind fun pk => s[rk]?.bind fun snap =>
    (storedTuple tbl idx fun f => snap[f]?).map fun e => (e, pk)

/-- The entry of one target. -/
def backfillWrite (idx : IndexSchema) (target : Bytes × Bytes) : Write :=
  .put (indexKey idx.indexID target.1) target.2 (.raw [1])

/-- One turn of the backfill. -/
theorem run_backfillRow (hv : c.view[rk]? = s[rk]?) (seen : List (Bytes × Bytes)) :
    backfillRow tbl idx seen rk c =
      match backfillTarget s tbl idx rk with
      | none => .ok seen c
      | some (e, pk) =>
        if idx.unique then
          match seen.lookup e with
          | some otherPK => .error (.uniqueCollision idx.name otherPK pk) c
          | none => .ok ((e, pk) :: seen) (c.emitAll [.data (backfillWrite idx (e, pk))])
        else .ok seen (c.emitAll [.data (backfillWrite idx (e, pk))]) := by
  unfold backfillRow backfillTarget
  cases hp : parseRowKey rk tbl.tableID with
  | none => rfl
  | some pk =>
    simp only [run_getSnapshot_bind, hv]
    cases s[rk]? with
    | none => rfl
    | some snap =>
      simp only [Option.bind_some, storedTuple]
      cases storedComponents idx.columns (idx.columnAffinities tbl) fun f => snap[f]? with
      | none => rfl
      | some vals =>
        simp only [Option.map_some]
        cases idx.unique with
        | false => rfl
        | true =>
          cases seen.lookup (encodeIndexKeyTuple vals (idx.columnAffinities tbl)) <;> rfl

/-- **A backfill that succeeds has filed every target**, and the tuples of a unique index
are distinct. -/
theorem run_backfill_ok {rks : List Bytes} (hrks : ∀ rk ∈ rks, ∃ pk, rk = rowKey tbl.tableID pk)
    {seen seen' : List (Bytes × Bytes)} {c' : Ctx} (hv : ∀ rk ∈ rks, c.view[rk]? = s[rk]?)
    (h : rks.foldlM (backfillRow tbl idx) seen c = .ok seen' c') :
    c' = c.emitAll ((rks.filterMap (backfillTarget s tbl idx)).map
        fun t => .data (backfillWrite idx t)) ∧
      (idx.unique = true → ((rks.filterMap (backfillTarget s tbl idx)).map Prod.fst).Nodup ∧
        ∀ t ∈ rks.filterMap (backfillTarget s tbl idx), t.1 ∉ seen.map Prod.fst) := by
  induction rks generalizing seen c with
  | nil =>
    obtain ⟨rfl, rfl⟩ : seen = seen' ∧ c = c' := by simpa using h
    simp
  | cons rk rks ih =>
    have hrow := @run_backfillRow rk idx tbl c s _ (hv rk (mem_cons_self ..)) seen
    have hrks' := fun rk' hmem => hrks rk' (mem_cons_of_mem rk hmem)
    have hview' (t : Bytes × Bytes) : ∀ rk' ∈ rks,
        (c.emitAll [.data (backfillWrite idx t)]).view[rk']? = s[rk']? := by
      intro rk' hmem
      obtain ⟨pk', rfl⟩ := hrks' rk' hmem
      rw [Ctx.view_emitAll, getElem?_applyAll_of_forall_ne, hv _ (mem_cons_of_mem _ hmem)]
      intro w hw
      rw [mem_singleton.mp hw]
      exact indexKey_ne_rowKey tbl.tableID pk' idx.indexID t.1
    rw [foldlM_cons, run_bind, hrow] at h
    cases htgt : backfillTarget s tbl idx rk with
    | none =>
      rw [htgt] at h
      rw [filterMap_cons_none htgt]
      exact ih hrks' (fun rk' hmem => hv rk' (mem_cons_of_mem _ hmem)) h
    | some t =>
      obtain ⟨e, pk⟩ := t
      rw [filterMap_cons_some htgt]
      cases hu : idx.unique with
      | false =>
        simp only [htgt, hu] at h
        obtain ⟨hc', -⟩ := ih hrks' (hview' (e, pk)) h
        refine ⟨?_, fun h => by simp at h⟩
        rw [hc', Ctx.emitAll_emitAll]
        rfl
      | true =>
        simp only [htgt, hu] at h
        cases hlook : seen.lookup e with
        | some otherPK => simp [hlook] at h
        | none =>
          simp only [hlook] at h
          obtain ⟨hc', huniq⟩ := ih hrks' (hview' (e, pk)) h
          obtain ⟨hnd, hnew⟩ := huniq hu
          refine ⟨by rw [hc', Ctx.emitAll_emitAll]; rfl, fun _ => ⟨?_, ?_⟩⟩
          · rw [map_cons, nodup_cons]
            refine ⟨fun hmem => ?_, hnd⟩
            obtain ⟨t, ht, hte⟩ := mem_map.mp hmem
            exact hnew t ht (by simp [hte])
          · intro t ht
            rcases mem_cons.mp ht with rfl | ht
            · intro hmem
              obtain ⟨t, ht, hte⟩ := mem_map.mp hmem
              have hne := lookup_eq_none_iff.mp hlook t ht
              simp [hte] at hne
            · intro hmem
              exact hnew t ht (by simp [hmem])

section CreateIndex

variable [Keytrie] {v : VTable}

/-- The rows the backfill files. -/
def backfillTargets (s : Store) (tbl : TableSchema) (idx : IndexSchema) : List (Bytes × Bytes) :=
  (scanKeys s [] (rowKeyPattern tbl.tableID)).filterMap (backfillTarget s tbl idx)

/-- The backfill files a row under a tuple exactly when its fields spell it. -/
theorem mem_backfillTargets (hne : idx.columns ≠ []) {e pk : Bytes} :
    (e, pk) ∈ backfillTargets s tbl idx ↔
      storedTuple tbl idx (rowOf s tbl.tableID pk) = some e := by
  simp only [backfillTargets, mem_filterMap, mem_scanKeys_rowKeyPattern, backfillTarget,
    Option.bind_eq_some_iff, Option.map_eq_some_iff]
  constructor
  · rintro ⟨rk, -, pk', hp, snap, hs, e', he', heq⟩
    obtain ⟨rfl, rfl⟩ : e' = e ∧ pk' = pk := by simpa using heq
    obtain rfl := rowKey_of_parseRowKey hp
    rw [← he', funext (rowOf_eq_getElem? hs)]
  · intro he
    have hl : Live s tbl.tableID pk := by
      obtain ⟨n, hn⟩ := exists_mem_of_ne_nil _ hne
      by_contra hl
      rw [storedTuple_eq_none hn (rowOf_eq_none_of_not_live hl _)] at he
      cases he
    obtain ⟨snap, hs⟩ := hl.exists_snap
    refine ⟨rowKey tbl.tableID pk, ⟨?_, pk, rfl⟩, pk, parseRowKey_rowKey _ _, snap, hs, e,
      ?_, rfl⟩
    · exact Std.ExtTreeMap.isSome_getElem?_iff_mem.mp (by rw [hs]; rfl)
    · rw [← he, funext (rowOf_eq_getElem? hs)]

/-- The data effects of `createIndexBody`. -/
def createIndexWrites (s : Store) (tbl : TableSchema) (idx : IndexSchema) : List Write :=
  indexMetaWrites idx ++ (backfillTargets s tbl idx).map (backfillWrite idx) ++
    schemaWrites { tbl with indexes := tbl.indexes ++ [idx] }

/-- What a `CREATE INDEX` that succeeds has written. -/
theorem run_createIndexBody_ok (h : createIndexBody tbl idx ⟨s, []⟩ = .ok () c) :
    c.view = applyAll (createIndexWrites s tbl idx) s ∧ idx.indexID ≠ [] ∧ tbl.tableID ≠ [] ∧
      (idx.unique = true → ((backfillTargets s tbl idx).map Prod.fst).Nodup) := by
  unfold createIndexBody at h
  rw [run_getSnapshot_bind, run_emit_bind] at h
  obtain ⟨_, c₁, hm, h⟩ := run_bind_eq_ok.mp h
  rw [run_emitIndexMetadata] at hm
  split at hm
  · cases hm
  rename_i hids
  cases hm
  rw [run_scanCommitted_bind] at h
  obtain ⟨seen, c₂, hfold, h⟩ := run_bind_eq_ok.mp h
  rw [run_emitSchema] at h
  split at h
  · cases h
  rename_i hid
  cases h
  obtain ⟨rfl, huniq⟩ := run_backfill_ok
    (fun rk hrk => (mem_scanKeys_rowKeyPattern.mp hrk).2) (s := s) (fun rk hrk => by
      obtain ⟨-, pk, rfl⟩ := mem_scanKeys_rowKeyPattern.mp hrk
      rw [Ctx.view_emitAll, getElem?_applyAll_of_forall_ne]
      · rfl
      · intro w hw
        rcases key_indexMetaWrites hw with hkey | hkey
        · rw [hkey]
          exact (isMetaKey_indexMetaKey _).ne_rowKey _ _
        · rw [hkey]
          exact isMetaKey_indexListKey.ne_rowKey _ _) hfold
  refine ⟨?_, fun h => hids (.inl h), hid, fun hu => (huniq hu).1⟩
  have hmap (l : List (Bytes × Bytes)) : (l.map fun t => Effect.data (backfillWrite idx t)) =
      (l.map (backfillWrite idx)).map Effect.data := by
    rw [map_map]
    rfl
  rw [Ctx.view_emitAll, Ctx.view_emitAll, hmap]
  simp only [dataWrites_map_data]
  rw [createIndexWrites, applyAll_append, applyAll_append]
  rfl

/-- The keys `CREATE INDEX` writes: catalog keys and entry keys of its own index. -/
theorem key_createIndexWrites (hw : w ∈ createIndexWrites s tbl idx) :
    IsMetaKey w.key ∨ ∃ e, w.key = indexKey idx.indexID e := by
  rcases mem_append.mp hw with hw | hw
  · rcases mem_append.mp hw with hw | hw
    · rcases key_indexMetaWrites hw with hkey | hkey
      · exact .inl (hkey ▸ isMetaKey_indexMetaKey _)
      · exact .inl (hkey ▸ isMetaKey_indexListKey)
    · obtain ⟨t, -, rfl⟩ := mem_map.mp hw
      exact .inr ⟨t.1, rfl⟩
  · exact .inl (isMetaKey_of_mem_schemaWrites hw)

theorem rowOf_createIndexWrites (pk : Bytes) :
    rowOf (applyAll (createIndexWrites s tbl idx) s) tbl.tableID pk = rowOf s tbl.tableID pk := by
  refine rowOf_applyAll_of_ne fun w hw => ?_
  rcases key_createIndexWrites hw with hm | ⟨e, hkey⟩
  · exact hm.ne_rowKey _ _
  · exact hkey ▸ indexKey_ne_rowKey _ _ _ _

/-- The new index holds what the backfill filed. -/
theorem entriesOf_createIndexWrites (hfr : ∀ e pk, ¬ entriesOf s idx.indexID e pk) (e pk : Bytes) :
    entriesOf (applyAll (createIndexWrites s tbl idx) s) idx.indexID e pk ↔
      (e, pk) ∈ backfillTargets s tbl idx := by
  have hm (s' : Store) (ws : List Write) (h : ∀ w ∈ ws, IsMetaKey w.key) :
      entriesOf (applyAll ws s') idx.indexID = entriesOf s' idx.indexID :=
    entriesOf_applyAll_of_ne fun w hw e => (h w hw).ne_indexKey _ _
  rw [createIndexWrites, applyAll_append, applyAll_append,
    hm _ _ fun w hw => isMetaKey_of_mem_schemaWrites hw, entriesOf, cell_applyAll]
  have hb : cell (applyAll (indexMetaWrites idx) s) (indexKey idx.indexID e) pk = none := by
    have := hfr e pk
    rw [← hm s (indexMetaWrites idx) fun w hw => by
      rcases key_indexMetaWrites hw with hkey | hkey
      · exact hkey ▸ isMetaKey_indexMetaKey _
      · exact hkey ▸ isMetaKey_indexListKey, entriesOf] at this
    simpa using this
  rw [hb]
  by_cases hmem : (e, pk) ∈ backfillTargets s tbl idx
  · have hput : assigned ((backfillTargets s tbl idx).map (backfillWrite idx))
        (indexKey idx.indexID e) pk = some (some (.raw [1])) := by
      refine assigned_eq_some ⟨_, mem_map.mpr ⟨_, hmem, rfl⟩, rfl, rfl⟩ ?_
      rintro w hw - -
      obtain ⟨t, -, rfl⟩ := mem_map.mp hw
      rfl
    simp [hput, hmem]
  · have hn : assigned ((backfillTargets s tbl idx).map (backfillWrite idx))
        (indexKey idx.indexID e) pk = none := by
      refine assigned_eq_none fun w hw hk hf => hmem ?_
      obtain ⟨t, ht, rfl⟩ := mem_map.mp hw
      have he : t.1 = e := indexKey_inj.mp hk
      have hpk : t.2 = pk := hf
      rw [← he, ← hpk]
      exact ht
    simp [hn, hmem]

/-- **`CREATE INDEX` keeps the invariant** and adds the new index to it, when the derived
identifier is fresh. -/
theorem TableInv.createIndex (h : TableInv s v tbl) {indexID : Bytes}
    (hch : checkCreateIndex tbl stmt = .ok ()) (hlen : indexID.length = 16)
    (hnew : indexID ∉ tbl.indexes.map (·.indexID)) (hfr : ∀ e pk, ¬ entriesOf s indexID e pk)
    (hrun : createIndexBody tbl (stmt.index tbl indexID) ⟨s, []⟩ = .ok () c) :
    TableInv c.view v { tbl with indexes := tbl.indexes ++ [stmt.index tbl indexID] } := by
  set idx := stmt.index tbl indexID with hidx
  obtain ⟨hv, -, hid, hnd⟩ := run_createIndexBody_ok hrun
  have hfresh' : ∀ e pk, ¬ entriesOf s idx.indexID e pk := hfr
  have hcs : ∀ n ∈ idx.columns, ∃ col ∈ tbl.columns, col.name = n :=
    fun n hn => checkCreateIndex_ok hch hn
  have hboth {P : IndexSchema → Prop} (hold : ∀ idx' ∈ tbl.indexes, P idx') (hnew : P idx) :
      ∀ idx' ∈ tbl.indexes ++ [idx], P idx' :=
    forall_mem_append.mpr ⟨hold, forall_mem_singleton.mpr hnew⟩
  have hrow : rowOf c.view tbl.tableID = rowOf s tbl.tableID := by
    funext pk
    rw [hv, rowOf_createIndexWrites]
  have hes {idx' : IndexSchema} (hidx' : idx' ∈ tbl.indexes) :
      entriesOf c.view idx'.indexID = entriesOf s idx'.indexID := by
    rw [hv]
    refine entriesOf_applyAll_of_ne fun w hw e => ?_
    rcases key_createIndexWrites hw with hm | ⟨e', hkey⟩
    · exact hm.ne_indexKey _ _
    · rw [hkey]
      refine indexKey_ne_of_ne (hlen.trans (h.wf.index_id_length _ hidx').symm) ?_ _ _
      rintro rfl
      exact hnew (mem_map.mpr ⟨_, hidx', rfl⟩)
  have hnewEntries (e pk : Bytes) : entriesOf c.view idx.indexID e pk ↔
      (e, pk) ∈ backfillTargets s tbl idx := by
    rw [hv]
    exact entriesOf_createIndexWrites hfresh' e pk
  refine ⟨?_, ⟨h.wf.names_nodup, h.wf.pk_lt, h.wf.synthetic_iff, ?_,
      hboth h.wf.index_id_length hlen, hboth h.wf.index_columns hcs,
      hboth h.wf.index_columns_ne_nil stmt.columns_ne_nil⟩,
    ⟨h.declares.name_eq, h.declares.tableID_eq, h.declares.columns_eq, h.declares.pkColumns_eq,
      h.declares.syntheticPK_eq⟩, ?_, hboth (fun idx' hidx' => ?_) ?_,
    hboth (fun idx' hidx' hu => ?_) fun hu => ?_⟩
  · rw [hv, createIndexWrites, applyAll_append]
    refine storedSchema_reemit (t := tbl) ?_ h.declares.name_eq hid h.wf.pkColumns_or_syntheticPK
      fun hsyn => hsyn
    rw [← h.stored, storedSchema, storedSchema, getElem?_applyAll_of_forall_ne]
    intro w hw
    rcases mem_append.mp hw with hw | hw
    · rcases key_indexMetaWrites hw with hkey | hkey
      · exact hkey ▸ indexMetaKey_ne_schemaKey _ _
      · exact hkey ▸ indexListKey_ne_schemaKey _
    · obtain ⟨t, -, rfl⟩ := mem_map.mp hw
      exact ((isMetaKey_schemaKey _).ne_indexKey _ _).symm
  · rw [map_append, nodup_append]
    refine ⟨h.wf.index_ids_nodup, by simp, fun a ha b hb hab => hnew ?_⟩
    rw [map_singleton, mem_singleton] at hb
    rw [hab, hb] at ha
    exact ha
  · intro pk
    have hwf := h.rows pk
    rw [← hrow] at hwf
    exact ⟨hwf.fields, hwf.values, hwf.spelled⟩
  · rw [hes hidx', hrow]
    exact h.agrees idx' hidx'
  · intro e pk
    rw [hrow, hnewEntries, mem_backfillTargets stmt.columns_ne_nil]
    rfl
  · rw [hes hidx']
    exact h.single idx' hidx' hu
  · intro e pk pk' hpk hpk'
    have heq := inj_on_of_nodup_map (hnd hu) ((hnewEntries e pk).mp hpk)
      ((hnewEntries e pk').mp hpk') rfl
    exact congrArg Prod.snd heq

end CreateIndex

end Swytch.Sql
