import Swytch.Sql.CatalogSteps

/-!
# Runs of data definition

Statements executed one after another from an empty catalog, with any writes to rows and
entries between them.

## 1.  Names

The registries and the definitions agree after every statement.  That no name is both a
table and a view is another matter: `CREATE VIEW` looks in both registries, `CREATE TABLE`
and `RENAME TO` look in `L` only.

## 2.  Indexes

The list of a table, the metadata and the registry `I` say the same as long as no
`CREATE INDEX` takes a name that is in use: the handler looks for it in one table.
-/

namespace Swytch.Sql

open Registry
open Option
open List
open KeyedStore TxM

/-! ## 1.  Names -/

section SpelledIn

variable {r : Registry String (List IndexSchema)}

theorem SpelledIn.put (h : SpelledIn r) (n : String) {idxs : List IndexSchema}
    (hidxs : ∀ idx ∈ idxs, idx.Spelled) : SpelledIn (r.put n idxs) := by
  intro m idxs' hm idx hidx
  rw [entry_put] at hm
  split at hm
  · exact hidxs idx (some.inj hm ▸ hidx)
  · exact h m idxs' hm idx hidx

theorem SpelledIn.remove (h : SpelledIn r) (n : String) : SpelledIn (r.remove n) := by
  intro m idxs hm
  rw [entry_remove] at hm
  split at hm
  · cases hm
  · exact h m idxs hm

end SpelledIn

namespace Catalog

variable {n : String} {idxs idxs' : List IndexSchema} {r : Registry String IndexSchema}
    {c c' : Catalog} {stmt : DdlStmt}

/-- What holds of the catalog after any statements. -/
structure Kept (c : Catalog) : Prop where
  tables : c.tables.Sound
  views : c.views.Sound
  spelled : SpelledIn c.tables

/-- **The registries of tables and views agree with the definitions**, whatever is
executed. -/
theorem Kept.step (h : c.Kept) (hstep : CatalogStep c stmt c') : c'.Kept := by
  cases hstep with
  | unchanged => exact h
  | createTable decl hfr =>
    exact ⟨h.tables.put _ _, h.views, h.spelled.put _ (by simp)⟩
  | dropTable name ifExists he =>
    exact ⟨h.tables.remove _, h.views, h.spelled.remove _⟩
  | renameTable hne he hfr =>
    refine ⟨(h.tables.remove _).put _ _, h.views, (h.spelled.remove _).put _ fun idx hidx => ?_⟩
    obtain ⟨old, hold, rfl⟩ := mem_map.mp hidx
    obtain ⟨hid, hne, hcs⟩ := h.spelled _ _ he old hold
    exact ⟨hid, hne, hcs⟩
  | addColumn table newCol he =>
    exact ⟨h.tables.put _ _, h.views, h.spelled.put _ (h.spelled _ _ he)⟩
  | dropColumn table column p he =>
    refine ⟨h.tables.put _ _, h.views, h.spelled.put _ fun idx hidx => ?_⟩
    exact h.spelled _ _ he idx (mem_filter.mp hidx).1
  | renameColumn table oldCol newCol ident g hg he =>
    refine ⟨h.tables.put _ _, h.views, h.spelled.put _ fun idx hidx => ?_⟩
    obtain ⟨old, hold, rfl⟩ := mem_map.mp hidx
    obtain ⟨hid, hne, hcs⟩ := h.spelled _ _ he old hold
    refine ⟨hid, by simpa using hne, fun col hcol => ?_⟩
    obtain ⟨oldCol', holdCol, rfl⟩ := mem_map.mp hcol
    rcases hg oldCol' with hg | hg
    · rw [hg]
      exact ident
    · rw [hg]
      exact hcs oldCol' holdCol
  | createIndex stmt indexID ident hn ht hsp he hnew =>
    refine ⟨h.tables.put _ _, h.views, h.spelled.put _ fun idx hidx => ?_⟩
    rcases mem_append.mp hidx with hidx | hidx
    · exact h.spelled _ _ he idx hidx
    · rw [mem_singleton.mp hidx]
      exact hsp
  | dropIndex name ifExists hm he =>
    refine ⟨h.tables.put _ _, h.views, h.spelled.put _ fun idx hidx => ?_⟩
    exact h.spelled _ _ he idx (mem_filter.mp hidx).1
  | createView v ifNotExists hv ht => exact ⟨h.tables, h.views.put _ _, h.spelled⟩
  | dropView name ifExists => exact ⟨h.tables, h.views.remove _, h.spelled⟩

/-- No name is both a table and a view. -/
def Apart (c : Catalog) : Prop := ∀ n, ¬ (c.tables.listed n = true ∧ c.views.listed n = true)

/-- The name a statement gives to a table is not the name of a view. -/
def AvoidsViews (c : Catalog) : DdlStmt → Prop
  | .createTable decl => c.views.listed decl.schema.name = false
  | .renameTable _ newName => c.views.listed newName = false
  | _ => True

/-- A table that keeps its name. -/
theorem Apart.put (h : c.Apart) (hk : c.Kept) (he : c.tables.entry n = some idxs) :
    Apart ⟨c.tables.put n idxs', r, c.views⟩ := by
  rintro m ⟨ht, hv⟩
  refine h m ⟨?_, hv⟩
  rw [listed_put] at ht
  split at ht
  · rename_i hm
    rw [hk.tables m, hm, he]
    rfl
  · exact ht

theorem Apart.remove (h : c.Apart) (n : String) :
    Apart ⟨c.tables.remove n, r, c.views⟩ := by
  rintro m ⟨ht, hv⟩
  rw [listed_remove] at ht
  split at ht
  · cases ht
  · exact h m ⟨ht, hv⟩

theorem Apart.put_new (h : c.Apart) (hv : c.views.listed n = false) :
    Apart ⟨c.tables.put n idxs, r, c.views⟩ := by
  rintro m ⟨ht, hview'⟩
  rw [listed_put] at ht
  split at ht
  · rename_i hm
    subst hm
    exact absurd (hv.symm.trans hview') (by simp)
  · exact h m ⟨ht, hview'⟩

theorem Apart.step (h : c.Apart) (hk : c.Kept) (hstep : CatalogStep c stmt c')
    (havoid : c.AvoidsViews stmt) : c'.Apart := by
  cases hstep with
  | unchanged => exact h
  | createTable decl hfr => exact h.put_new havoid
  | dropTable name ifExists he => exact h.remove _
  | renameTable hne he hfr =>
    exact Apart.put_new (h.remove _ (r := c.indexes)) havoid
  | addColumn table newCol he | dropColumn table column p he
  | renameColumn table oldCol newCol ident g hg he
  | createIndex stmt indexID ident hn ht hsp he hnew
  | dropIndex name ifExists hme he => exact h.put hk he
  | createView v ifNotExists hv ht =>
    rintro m ⟨htable', hview'⟩
    rw [listed_put] at hview'
    split at hview'
    · rename_i hm
      subst hm
      exact absurd (ht.symm.trans htable') (by simp)
    · exact h m ⟨htable', hview'⟩
  | dropView name ifExists =>
    rintro m ⟨ht, hv⟩
    rw [listed_remove] at hv
    split at hv
    · cases hv
    · exact h m ⟨ht, hv⟩

/-! ## 2.  Indexes -/

/-- The indexes of the table under a name, none for a name without a table. -/
def indexesAt (c : Catalog) (n : String) : List IndexSchema := (c.tables.entry n).getD []

/-- The lists of the tables and the metadata say the same. -/
structure Filed (c : Catalog) : Prop where
  listed : c.indexes.Sound
  home : ∀ n, ∀ idx ∈ c.indexesAt n, idx.table = n
  nodup : ∀ n, (names (c.indexesAt n)).Nodup
  filed : ∀ n, ∀ idx ∈ c.indexesAt n, c.indexes.entry idx.name = some idx
  back : ∀ i m, c.indexes.entry i = some m → m ∈ c.indexesAt m.table ∧ m.name = i

/-- The table an index name belongs to. -/
theorem Filed.eq_of_name (h : c.Filed) {n' : String} {idx idx' : IndexSchema}
    (hidx : idx ∈ c.indexesAt n) (hidx' : idx' ∈ c.indexesAt n') (hn : idx.name = idx'.name) :
    n = n' := by
  have he := h.filed n idx hidx
  rw [hn, h.filed n' idx' hidx'] at he
  rw [← h.home n idx hidx, ← h.home n' idx' hidx', some.inj he]

/-- **One table changes its list**, from `idxs` to `idxs'`.  The metadata must follow: the
indexes of the new list are filed, those that left it are gone, the names that entered it
were free and no other metadata changes. -/
theorem Filed.retable (h : c.Filed) (hat : c.indexesAt n = idxs) (hat' : c'.indexesAt n = idxs')
    (ho : ∀ m, m ≠ n → c'.indexesAt m = c.indexesAt m)
    (hhome : ∀ idx ∈ idxs', idx.table = n) (hnd : (names idxs').Nodup)
    (hfi : ∀ idx ∈ idxs', c'.indexes.entry idx.name = some idx)
    (hr : ∀ i, i ∉ names idxs' → c'.indexes.entry i =
      if i ∈ names idxs then none else c.indexes.entry i)
    (hfr : ∀ idx ∈ idxs', idx.name ∉ names idxs → c.indexes.entry idx.name = none)
    (hli : c'.indexes.Sound) : c'.Filed := by
  subst hat hat'
  -- an index of another table shares its name with neither list
  have hold {m : String} (hm : m ≠ n) {idx : IndexSchema} (hidx : idx ∈ c.indexesAt m) :
      idx.name ∉ names (c.indexesAt n) := by
    intro hmem
    obtain ⟨idx', hidx', hnm⟩ := mem_map.mp hmem
    exact hm (h.eq_of_name hidx hidx' hnm.symm)
  have hnew {m : String} (hm : m ≠ n) {idx : IndexSchema} (hidx : idx ∈ c.indexesAt m) :
      idx.name ∉ names (c'.indexesAt n) := by
    intro hmem
    obtain ⟨idx', hidx', hnm⟩ := mem_map.mp hmem
    have hn := hfr idx' hidx' (by rw [hnm]; exact hold hm hidx)
    rw [hnm, h.filed m idx hidx] at hn
    cases hn
  refine ⟨hli, fun m => ?_, fun m => ?_, fun m idx hidx => ?_, fun i m he => ?_⟩
  · by_cases hm : m = n
    · rw [hm]
      exact hhome
    · rw [ho m hm]
      exact h.home m
  · by_cases hm : m = n
    · rw [hm]
      exact hnd
    · rw [ho m hm]
      exact h.nodup m
  · by_cases hm : m = n
    · rw [hm] at hidx
      exact hfi idx hidx
    · rw [ho m hm] at hidx
      rw [hr _ (hnew hm hidx), if_neg (hold hm hidx)]
      exact h.filed m idx hidx
  · by_cases hi : i ∈ names (c'.indexesAt n)
    · obtain ⟨idx, hidx, rfl⟩ := mem_map.mp hi
      obtain rfl := some.inj ((hfi idx hidx).symm.trans he)
      rw [hhome idx hidx]
      exact ⟨hidx, rfl⟩
    · rw [hr i hi] at he
      split at he
      · cases he
      rename_i hi'
      obtain ⟨hmem, rfl⟩ := h.back i m he
      have hm : m.table ≠ n := by
        intro hm
        rw [hm] at hmem
        exact hi' (mem_map_of_mem hmem)
      rw [ho _ hm]
      exact ⟨hmem, rfl⟩

theorem indexesAt_of_entry (h : c.tables.entry n = some idxs) : c.indexesAt n = idxs := by
  rw [indexesAt, h]
  rfl

theorem indexesAt_of_listed (h : c.tables.Sound) (hn : c.tables.listed n = false) :
    c.indexesAt n = [] := by
  rw [h n, isSome_eq_false_iff, isNone_iff_eq_none] at hn
  rw [indexesAt, hn]
  rfl

/-- The same for a table that is put. -/
theorem Filed.put (h : c.Filed) (hat : c.indexesAt n = idxs)
    (hhome : ∀ idx ∈ idxs', idx.table = n) (hnd : (names idxs').Nodup)
    (hfi : ∀ idx ∈ idxs', r.entry idx.name = some idx) (hr : ∀ i, i ∉ names idxs' → r.entry i =
      if i ∈ names idxs then none else c.indexes.entry i)
    (hfr : ∀ idx ∈ idxs', idx.name ∉ names idxs → c.indexes.entry idx.name = none)
    (hli : r.Sound) : Filed ⟨c.tables.put n idxs', r, c.views⟩ := by
  refine h.retable hat (indexesAt_of_entry ?_) (fun m hm => ?_) hhome hnd hfi hr hfr
    hli
  · rw [entry_put, if_pos rfl]
  · rw [indexesAt, entry_put, if_neg hm]
    rfl

/-- The table under a name, gone with its indexes. -/
theorem Filed.remove (h : c.Filed) {name : String} (hat : c.indexesAt name = idxs) :
    Filed ⟨c.tables.remove name, c.indexes.removeAll (names idxs), c.views⟩ := by
  have hg : indexesAt ⟨c.tables.remove name, c.indexes.removeAll (names idxs), c.views⟩ name =
      [] := by
    rw [indexesAt, entry_remove, if_pos rfl]
    rfl
  refine h.retable hat hg (fun m hm => ?_) (by simp) (by simp) (by simp)
    (fun i _ => entry_removeAll ..) (by simp) (h.listed.removeAll _)
  · rw [indexesAt, entry_remove, if_neg hm]
    rfl

/-- Some indexes of a table, gone. -/
theorem Filed.thin (h : c.Filed)
    (hat : c.indexesAt n = idxs) (p : IndexSchema → Bool) (hr : ∀ i, r.entry i =
      if i ∈ names (idxs.filter p) then none else c.indexes.entry i) (hli : r.Sound) :
    Filed ⟨c.tables.put n (idxs.filter fun idx => !p idx), r, c.views⟩ := by
  have hnd := h.nodup n
  rw [hat] at hnd
  have hk {idx : IndexSchema} (hidx : idx ∈ idxs.filter fun idx => !p idx) : idx ∈ idxs :=
    (mem_filter.mp hidx).1
  refine h.put hat (fun idx hidx => h.home n idx (hat ▸ hk hidx))
    (hnd.sublist (filter_sublist.map _)) (fun idx hidx => ?_) (fun i hi => ?_)
    (fun idx hidx hnot => absurd (mem_map_of_mem (hk hidx)) hnot) hli
  · rw [hr, if_neg, h.filed n idx (hat ▸ hk hidx)]
    intro hmem
    obtain ⟨idx', hidx', hn⟩ := mem_map.mp hmem
    obtain ⟨hidx', hp'⟩ := mem_filter.mp hidx'
    obtain rfl : idx' = idx := inj_on_of_nodup_map hnd hidx' (hk hidx) hn
    simpa [hp'] using (mem_filter.mp hidx).2
  · rw [hr]
    by_cases hmem : i ∈ names idxs
    · obtain ⟨idx, hidx, rfl⟩ := mem_map.mp hmem
      have hp : p idx = true := by
        by_contra hp
        exact hi (mem_map_of_mem (mem_filter.mpr ⟨hidx, by simpa using hp⟩))
      rw [if_pos hmem, if_pos (mem_map_of_mem (mem_filter.mpr ⟨hidx, hp⟩))]
    · rw [if_neg hmem, if_neg]
      intro hmem'
      obtain ⟨idx, hidx, rfl⟩ := mem_map.mp hmem'
      exact hmem (mem_map_of_mem (mem_filter.mp hidx).1)

/-- The name of a new index is not listed. -/
def FreshIndex (c : Catalog) : DdlStmt → Prop
  | .createIndex stmt _ _ => c.indexes.listed stmt.name = false
  | _ => True

theorem Filed.step (h : c.Filed) (hk : c.Kept) (hstep : CatalogStep c stmt c')
    (hfreshName : c.FreshIndex stmt) : c'.Filed := by
  cases hstep with
  | unchanged => exact h
  | createTable decl hfr =>
    have hat := indexesAt_of_listed hk.tables hfr
    exact h.put hat (by simp) (by simp) (by simp) (by simp) (by simp) h.listed
  | dropTable name ifExists he => exact h.remove (indexesAt_of_entry he)
  | @renameTable oldName newName hne idxs he hfr =>
    have hat := indexesAt_of_entry he
    have hnd := h.nodup oldName
    rw [hat] at hnd
    have hns : names (idxs.map fun idx => { idx with table := newName }) = names idxs := by
      simp
    -- as if the table were dropped and its indexes declared anew under the new name
    have hnil : indexesAt ⟨c.tables.remove oldName, c.indexes.removeAll (names idxs), c.views⟩
        newName = [] := by
      rw [indexesAt, entry_remove, if_neg hne.symm]
      exact indexesAt_of_listed hk.tables hfr
    refine (h.remove hat).put hnil (fun idx hidx => ?_) (hns ▸ hnd) (fun idx hidx => ?_)
      (fun i hi => ?_) (fun idx hidx _ => ?_) (h.listed.modifyEach _ _ _)
    · obtain ⟨old, -, rfl⟩ := mem_map.mp hidx
      rfl
    · obtain ⟨old, hold, rfl⟩ := mem_map.mp hidx
      rw [entry_modifyEach _ _ hnd hold, h.filed oldName old (hat ▸ hold)]
      rfl
    · rw [hns] at hi
      rw [entry_modifyEach_of_notMem _ _ hi, if_neg (by simp),
        entry_removeAll, if_neg hi]
    · obtain ⟨old, hold, rfl⟩ := mem_map.mp hidx
      rw [entry_removeAll, if_pos (mem_map_of_mem hold)]
  | addColumn table newCol he =>
    have hthin := h.thin (indexesAt_of_entry he) (fun _ => false) (r := c.indexes) (by simp)
      h.listed
    simpa using hthin
  | dropColumn table column p he =>
    exact h.thin (indexesAt_of_entry he) p (fun i => entry_removeAll ..)
      (h.listed.removeAll _)
  | @renameColumn table oldCol newCol ident idxs g hg he =>
    have hat := indexesAt_of_entry he
    have hnd := h.nodup table
    rw [hat] at hnd
    have hns : names (idxs.map fun idx => { idx with columns := idx.columns.map g }) =
        names idxs := by
      simp
    have hfilter : names ((idxs.map fun idx => { idx with columns := idx.columns.map g }).filter
        fun idx => idx.columns.contains newCol) ⊆ names idxs := by
      rw [← hns]
      exact (filter_sublist.map _).subset
    refine h.put hat (fun idx hidx => ?_) (hns ▸ hnd) (fun idx hidx => ?_) (fun i hi => ?_)
      (fun idx hidx hnot => ?_) (h.listed.modifyEach _ _ _)
    · obtain ⟨old, hold, rfl⟩ := mem_map.mp hidx
      exact h.home table old (hat ▸ hold)
    · have hnodup' := hns ▸ hnd
      by_cases hnew : idx.columns.contains newCol = true
      · have hmem : idx ∈ (idxs.map fun idx => { idx with columns := idx.columns.map g }).filter
            fun idx => idx.columns.contains newCol := mem_filter.mpr ⟨hidx, hnew⟩
        obtain ⟨old, hold, rfl⟩ := mem_map.mp hidx
        rw [entry_modifyEach _ _ (hnodup'.sublist (filter_sublist.map _)) hmem,
          h.filed table old (hat ▸ hold)]
        rfl
      · -- none of its columns is renamed, and no index under its name is rewritten
        have hnot : idx.name ∉ names ((idxs.map fun idx =>
            { idx with columns := idx.columns.map g }).filter
              fun idx => idx.columns.contains newCol) := by
          intro hmem
          obtain ⟨idx', hidx', hn⟩ := mem_map.mp hmem
          obtain ⟨hidx', hnew'⟩ := mem_filter.mp hidx'
          obtain rfl : idx' = idx := inj_on_of_nodup_map hnodup' hidx' hidx hn
          exact hnew hnew'
        rw [entry_modifyEach_of_notMem _ _ hnot]
        obtain ⟨old, hold, rfl⟩ := mem_map.mp hidx
        have hsame : old.columns.map g = old.columns := by
          refine (map_congr_left fun col hcol => ?_).trans (map_id _)
          rcases hg col with hcol' | hcol'
          · refine absurd (contains_iff_mem.mpr ?_) hnew
            exact hcol' ▸ mem_map_of_mem hcol
          · exact hcol'
        simp only [hsame]
        exact h.filed table old (hat ▸ hold)
    · rw [hns] at hi
      rw [entry_modifyEach_of_notMem _ _ fun hmem => hi (hfilter hmem), if_neg hi]
    · exact absurd (hns ▸ mem_map_of_mem hidx) hnot
  | @createIndex stmt indexID ident idxs idx hn ht hsp he hnew =>
    have hat := indexesAt_of_entry he
    have hnd := h.nodup stmt.table
    rw [hat] at hnd
    have hf : c.indexes.entry stmt.name = none := by
      have hli : c.indexes.listed stmt.name = false := hfreshName
      rwa [h.listed, isSome_eq_false_iff, isNone_iff_eq_none] at hli
    refine h.put hat (fun i hi => ?_) ?_ (fun i hi => ?_) (fun i hi => ?_) (fun i hi hnot => ?_)
      (h.listed.put _ _)
    · rcases mem_append.mp hi with hi | hi
      · exact h.home stmt.table i (hat ▸ hi)
      · rw [mem_singleton.mp hi, ht]
    · rw [names, map_append, map_singleton, nodup_append]
      refine ⟨hnd, by simp, fun a ha b hb => ?_⟩
      rw [mem_singleton.mp hb, hn]
      rintro rfl
      exact hnew ha
    · rcases mem_append.mp hi with hi | hi
      · have hne : i.name ≠ stmt.name := fun heq => hnew (heq ▸ mem_map_of_mem hi)
        rw [entry_put, if_neg hne]
        exact h.filed stmt.table i (hat ▸ hi)
      · rw [mem_singleton.mp hi, entry_put, if_pos hn]
    · rw [names, map_append, map_singleton, mem_append, mem_singleton,
        not_or, hn] at hi
      rw [entry_put, if_neg hi.2, if_neg hi.1]
    · rcases mem_append.mp hi with hi | hi
      · exact absurd (mem_map_of_mem hi) hnot
      · rw [mem_singleton.mp hi, hn, hf]
  | @dropIndex name ifExists m idxs hm he =>
    have hat := indexesAt_of_entry he
    obtain ⟨hmem, rfl⟩ := h.back name m hm
    rw [hat] at hmem
    have hthin := h.thin hat (fun idx => idx.name = m.name) (r := c.indexes.remove m.name)
      (fun i => ?_) (h.listed.remove _)
    · simpa using hthin
    · rw [entry_remove]
      by_cases hi : i = m.name
      · rw [if_pos hi, if_pos]
        exact mem_map.mpr ⟨m, mem_filter.mpr ⟨hmem, by simp⟩, hi.symm⟩
      · rw [if_neg hi, if_neg]
        intro hmem'
        obtain ⟨idx, hidx, rfl⟩ := mem_map.mp hmem'
        exact hi (by simpa using (mem_filter.mp hidx).2)
  | createView v ifNotExists hv ht
  | dropView name ifExists => exact ⟨h.listed, h.home, h.nodup, h.filed, h.back⟩

end Catalog

/-! ## 3.  Runs -/

/-- A store without a catalog key. -/
def EmptyCatalog (s : Store) : Prop := ∀ key, IsMetaKey key → key ∉ s

variable {s : Store} {m : IndexSchema} {i : String}

theorem EmptyCatalog.getElem? (h : EmptyCatalog s) {key : Bytes} (hkey : IsMetaKey key) :
    s[key]? = none :=
  Std.ExtTreeMap.getElem?_eq_none (h key hkey)

theorem isMetaKey_viewMetaKey (view : String) : IsMetaKey (viewMetaKey view) := by
  have h : (viewMetaKey view).head? = some 0x76 := rfl
  rw [IsMetaKey, h]
  decide

theorem isMetaKey_viewListKey : IsMetaKey viewListKey := by
  unfold IsMetaKey
  decide

theorem catalog_of_empty (h : EmptyCatalog s) :
    catalog s = ⟨⟨fun _ => none, fun _ => false⟩, ⟨fun _ => none, fun _ => false⟩,
      ⟨fun _ => none, fun _ => false⟩⟩ := by
  simp only [catalog, tablesOf, indexesOf, viewsOf, storedSchema, storedIndex, storedView,
    h.getElem? (isMetaKey_schemaKey _), h.getElem? (isMetaKey_indexMetaKey _),
    h.getElem? (isMetaKey_viewMetaKey _), h.getElem? isMetaKey_tableListKey,
    h.getElem? isMetaKey_indexListKey, h.getElem? isMetaKey_viewListKey]
  rfl

theorem isSome_toOption_iff {ε α : Type} (x : Except ε α) :
    x.toOption.isSome = true ↔ ∃ a, x = .ok a := by
  cases x <;> simp [Except.toOption]

theorem storedIndex_of_entry (h : (catalog s).indexes.entry i = some m) :
    storedIndex s i = .ok m := by
  replace h : (storedIndex s i).toOption = some m := h
  cases hs : storedIndex s i with
  | error e =>
    rw [hs] at h
    exact absurd h (by simp [Except.toOption])
  | ok m' =>
    rw [hs] at h
    rw [show m' = m from some.inj h]

/-- Metadata that loads has a field. -/
theorem exists_cell_of_storedIndex (h : storedIndex s i = .ok m) :
    ∃ f, (cell s (indexMetaKey i) f).isSome = true := by
  refine ⟨indexFieldIndexID, ?_⟩
  have hcells := storedIndex_toOption s i
  rw [h] at hcells
  cases hiid : cell s (indexMetaKey i) indexFieldIndexID with
  | some p => rfl
  | none => exact absurd hcells (by simp [indexOfCells, hiid, Except.toOption])

section Runs

variable [Host] [Keytrie]

/-- Statements that meet a condition where they are executed, with writes to rows and
entries between them. -/
inductive DdlRun (P : Catalog → DdlStmt → Prop) : Store → Store → Prop
  | refl (s : Store) : DdlRun P s s
  | ddl {s s' : Store} (hrun : DdlRun P s s') (stmt : DdlStmt) (h : P (catalog s') stmt) :
      DdlRun P s (stmt.exec s').2
  | data {s s' : Store} (hrun : DdlRun P s s') (ws : List Write)
      (h : ∀ w ∈ ws, ¬ IsMetaKey w.key) : DdlRun P s (applyAll ws s')

variable {P : Catalog → DdlStmt → Prop} {s s' : Store}

/-- An invariant of the catalog that every step keeps holds after every run. -/
theorem DdlRun.invariant {Q : Catalog → Prop} (hrun : DdlRun P s s') (hnil : EmptyCatalog s)
    (hinit : Q (catalog s))
    (hstep : ∀ c c' stmt, c.Kept → Q c → P c stmt → CatalogStep c stmt c' → Q c') :
    (catalog s').Kept ∧ Q (catalog s') := by
  induction hrun with
  | refl =>
    refine ⟨?_, hinit⟩
    rw [catalog_of_empty hnil]
    exact ⟨fun _ => rfl, fun _ => rfl, fun n idxs h => absurd h (by simp)⟩
  | ddl hrun stmt hP ih =>
    obtain ⟨hk, hQ⟩ := ih
    have hcatalog := exec_catalogStep hk.spelled stmt
    exact ⟨hk.step hcatalog, hstep _ _ stmt hk hQ hP hcatalog⟩
  | data hrun ws h ih =>
    rw [catalog_applyAll_of_not_isMetaKey h]
    exact ih

/-- The names of a catalog: no name is both a table and a view, and the registries list what
loads. -/
structure NamesConsistent (s : Store) : Prop where
  apart : ∀ n, ¬ (listed s[tableListKey]? n = true ∧ listed s[viewListKey]? n = true)
  table_listed : ∀ n, listed s[tableListKey]? n = true ↔ ∃ t, storedSchema s n = .ok t
  view_listed : ∀ n, listed s[viewListKey]? n = true ↔ ∃ v, storedView s n = .ok v

/-- **No clash of names** in a run whose statements give no table the name of a view. -/
theorem namesConsistent_of_run (hempty : EmptyCatalog s)
    (hrun : DdlRun Catalog.AvoidsViews s s') : NamesConsistent s' := by
  have hinit : (catalog s).Apart := by
    rw [catalog_of_empty hempty]
    rintro n ⟨h, -⟩
    cases h
  obtain ⟨hkp, hapart⟩ := hrun.invariant hempty hinit
    fun _ _ _ hk hQ hP hstep => hQ.step hk hstep hP
  refine ⟨hapart, fun n => ?_, fun n => ?_⟩
  · rw [← isSome_toOption_iff, ← listed_tablesOf, show (tablesOf s').listed n = _ from
      hkp.tables n]
    show ((storedSchema s' n).toOption.map _).isSome = true ↔ _
    rw [isSome_map]
  · rw [← isSome_toOption_iff, ← listed_viewsOf, show (viewsOf s').listed n = _ from hkp.views n]
    rfl

/-- The index lists of the tables, the metadata and the registry `I` say the same. -/
structure IndexesConsistent (s : Store) : Prop where
  once : ∀ n t, storedSchema s n = .ok t → (names t.indexes).Nodup
  one_table : ∀ n n' t t', storedSchema s n = .ok t → storedSchema s n' = .ok t' →
    ∀ idx ∈ t.indexes, ∀ idx' ∈ t'.indexes, idx.name = idx'.name → n = n'
  appears_iff : ∀ i, (∃ n t, storedSchema s n = .ok t ∧ i ∈ names t.indexes) ↔
    (∃ f, (cell s (indexMetaKey i) f).isSome = true) ∧ listed s[indexListKey]? i = true
  equal : ∀ n t, storedSchema s n = .ok t → ∀ idx ∈ t.indexes, storedIndex s idx.name = .ok idx

/-- **One home for every index name** in a run that gives no new index a name that is
listed. -/
theorem indexesConsistent_of_run (hempty : EmptyCatalog s)
    (hrun : DdlRun Catalog.FreshIndex s s') : IndexesConsistent s' := by
  have hinit : (catalog s).Filed := by
    rw [catalog_of_empty hempty]
    exact ⟨fun _ => rfl, fun _ _ h => absurd h (by simp [Catalog.indexesAt]),
      fun _ => by simp [Catalog.indexesAt], fun _ _ h => absurd h (by simp [Catalog.indexesAt]),
      fun _ _ h => absurd h (by simp)⟩
  obtain ⟨hkp, hfi⟩ := hrun.invariant hempty hinit
    fun _ _ _ hk hQ hP hstep => hQ.step hk hstep hP
  have hat {n : String} {t : TableSchema} (ht : storedSchema s' n = .ok t) :
      (catalog s').indexesAt n = t.indexes :=
    Catalog.indexesAt_of_entry (entry_catalog_of_storedSchema ht)
  refine ⟨fun n t ht => hat ht ▸ hfi.nodup n, fun n n' t t' ht ht' idx hidx idx' hidx' hnm =>
    hfi.eq_of_name (hat ht ▸ hidx) (hat ht' ▸ hidx') hnm, fun i => ⟨?_, ?_⟩,
    fun n t ht idx hidx => storedIndex_of_entry (hfi.filed n idx (hat ht ▸ hidx))⟩
  · rintro ⟨n, t, ht, hi⟩
    obtain ⟨idx, hidx, rfl⟩ := mem_map.mp hi
    have he := hfi.filed n idx (hat ht ▸ hidx)
    refine ⟨exists_cell_of_storedIndex (storedIndex_of_entry he), ?_⟩
    exact (hfi.listed idx.name).trans (by rw [he]; rfl)
  · rintro ⟨-, hli⟩
    obtain ⟨m, hm⟩ := isSome_iff_exists.mp ((hfi.listed i).symm.trans hli)
    obtain ⟨hmem, rfl⟩ := hfi.back i m hm
    cases ht : storedSchema s' m.table with
    | ok t => exact ⟨m.table, t, ht, mem_map_of_mem (hat ht ▸ hmem)⟩
    | error e =>
      have hn : (catalog s').tables.entry m.table = none := by
        show (storedSchema s' m.table).toOption.map _ = none
        rw [ht]
        rfl
      rw [Catalog.indexesAt, hn] at hmem
      cases hmem

end Runs

section Sample

local instance catalogHost : Host := Host.inert

local instance catalogKeytrie : Keytrie := Keytrie.ofPrefix

/-- The table `<name> (a INTEGER PRIMARY KEY)` with some indexes. -/
def aSchema (name : String) (indexes : List IndexSchema) : TableSchema :=
  { name, tableID := utf8 name, columns := [⟨"a", .integer, "INTEGER", false, true, none⟩]
    pkColumns := [0], indexes, syntheticPK := false }

/-- `CREATE TABLE <name> (a INTEGER PRIMARY KEY)`. -/
def aTable (name : String) : DdlStmt :=
  .createTable ⟨aSchema name [], .inl (by simp [aSchema]), rfl⟩

/-- `CREATE VIEW v AS SELECT 1`. -/
def vView : DdlStmt := .createView ⟨"v", "AS SELECT 1"⟩ false

/-- `CREATE INDEX i ON <table> (a)`. -/
def iIndex (table : String) : DdlStmt :=
  .createIndex ⟨"i", table, ["a"], false, by simp⟩ (utf8 table)
    (by simp only [List.mem_singleton, forall_eq]; exact ⟨by decide, by decide⟩)

/-- The index it declares. -/
def iSchema (table : String) : IndexSchema :=
  { name := "i", indexID := utf8 table, table, tableID := utf8 table, columns := ["a"]
    unique := false }

/-- The statements of a script, executed in order on the empty store. -/
def script (stmts : List DdlStmt) : Store := stmts.foldl (fun s stmt => (stmt.exec s).2) ∅

theorem emptyCatalog_empty : EmptyCatalog ∅ := fun _ _ h => absurd h (by simp)

/-- `CREATE VIEW v`, `CREATE TABLE v`: the name is in both registries. -/
theorem table_takes_view_name :
    (vView.exec ∅).1 = .ok () ∧ ((aTable "v").exec (script [vView])).1 = .ok () ∧
      ¬ NamesConsistent (script [vView, aTable "v"]) := by
  refine ⟨by rfl, by rfl, fun h => h.apart "v" ⟨by rfl, by rfl⟩⟩

/-- `CREATE VIEW v`, `CREATE TABLE t`. -/
theorem namesConsistent_view_table : NamesConsistent (script [vView, aTable "t"]) :=
  namesConsistent_of_run emptyCatalog_empty
    (((DdlRun.refl ∅).ddl vView trivial).ddl (aTable "t") (by rfl))

/-- `CREATE INDEX i` on a second table: the name is in the lists of both, and the metadata of
the first index is overwritten. -/
theorem index_name_in_two_tables :
    ((iIndex "t").exec (script [aTable "t", aTable "u"])).1 = .ok () ∧
      ((iIndex "u").exec (script [aTable "t", aTable "u", iIndex "t"])).1 = .ok () ∧
      storedSchema (script [aTable "t", aTable "u", iIndex "t", iIndex "u"]) "t" =
        .ok (aSchema "t" [iSchema "t"]) ∧
      storedSchema (script [aTable "t", aTable "u", iIndex "t", iIndex "u"]) "u" =
        .ok (aSchema "u" [iSchema "u"]) ∧
      storedIndex (script [aTable "t", aTable "u", iIndex "t", iIndex "u"]) "i" =
        .ok (iSchema "u") ∧
      ¬ IndexesConsistent (script [aTable "t", aTable "u", iIndex "t", iIndex "u"]) := by
  have ht : storedSchema (script [aTable "t", aTable "u", iIndex "t", iIndex "u"]) "t" =
      .ok (aSchema "t" [iSchema "t"]) := by rfl
  have hu : storedSchema (script [aTable "t", aTable "u", iIndex "t", iIndex "u"]) "u" =
      .ok (aSchema "u" [iSchema "u"]) := by rfl
  refine ⟨by rfl, by rfl, ht, hu, by rfl, fun h => ?_⟩
  have htables := h.one_table "t" "u" _ _ ht hu (iSchema "t") (mem_cons_self ..)
    (iSchema "u") (mem_cons_self ..) rfl
  exact absurd htables (by decide)

/-- `CREATE INDEX i` on one table. -/
theorem indexesConsistent_one_index : IndexesConsistent (script [aTable "t", iIndex "t"]) :=
  indexesConsistent_of_run emptyCatalog_empty
    (((DdlRun.refl ∅).ddl (aTable "t") trivial).ddl (iIndex "t") (by rfl))

end Sample

end Swytch.Sql
