import Swytch.Sql.CatalogModel

/-!
# Statements of data definition

## 1.  Statements

`DdlStmt` is what the parsers hand to the handlers: a table declared by `CREATE TABLE` has no
indexes yet and either a key or the mark of a synthetic one, and the column names an index
can mention are neither empty nor contain a `NUL`.

## 2.  The catalog step

`exec_catalogStep` reads every handler as an operation on the catalog, or as no change.
-/

namespace Swytch.Sql

open List
open KeyedStore TxM

variable {ws : List Write} {t : TableSchema} {s : Store}

/-! ## 1.  Statements -/

/-- What `parseCreateTable` returns. -/
structure TableDecl where
  schema : TableSchema
  keyed : schema.pkColumns ≠ [] ∨ schema.syntheticPK = true
  no_indexes : schema.indexes = []

/-- The statements of data definition, parsed. -/
inductive DdlStmt where
  | createTable (decl : TableDecl)
  | dropTable (name : String) (ifExists : Bool)
  | renameTable (oldName newName : String)
  | addColumn (table : String) (newCol : ColumnSchema)
  | dropColumn (table column : String)
  | renameColumn (table oldCol newCol : String) (ident : IsIdent newCol)
  | createIndex (stmt : CreateIndexStmt) (indexID : Bytes) (ident : ∀ c ∈ stmt.columns, IsIdent c)
  | dropIndex (name : String) (ifExists : Bool)
  | createView (v : ViewSchema) (ifNotExists : Bool)
  | dropView (name : String) (ifExists : Bool)

section Exec

variable [Host] [Keytrie]

/-- One statement, executed by its handler. -/
def DdlStmt.exec : DdlStmt → Store → Except SqlError Unit × Store
  | .createTable decl => handleCreateTable decl.schema
  | .dropTable name ifExists => handleDropTable name ifExists
  | .renameTable oldName newName => handleAlterRenameTable oldName newName
  | .addColumn table newCol => handleAlterAddColumn table newCol
  | .dropColumn table column => handleAlterDropColumn table column
  | .renameColumn table oldCol newCol _ => handleAlterRenameColumn table oldCol newCol
  | .createIndex stmt indexID _ => handleCreateIndex stmt indexID
  | .dropIndex name ifExists => handleDropIndex name ifExists
  | .createView v ifNotExists => handleCreateView v ifNotExists
  | .dropView name ifExists => handleDropView name ifExists

end Exec

/-! ## 2.  The catalog step -/

/-- The three parts of the catalog. -/
@[ext] structure Catalog where
  tables : Registry String (List IndexSchema)
  indexes : Registry String IndexSchema
  views : Registry String ViewSchema

def catalog (s : Store) : Catalog := ⟨tablesOf s, indexesOf s, viewsOf s⟩

abbrev names (idxs : List IndexSchema) : List String := idxs.map (·.name)

/-- What a statement may do to the catalog. -/
inductive CatalogStep (c : Catalog) : DdlStmt → Catalog → Prop
  | unchanged (stmt : DdlStmt) : CatalogStep c stmt c
  | createTable (decl : TableDecl) (hfresh : c.tables.listed decl.schema.name = false) :
      CatalogStep c (.createTable decl) { c with tables := c.tables.put decl.schema.name [] }
  | dropTable (name : String) (ifExists : Bool) {idxs : List IndexSchema}
      (hentry : c.tables.entry name = some idxs) :
      CatalogStep c (.dropTable name ifExists)
        { c with tables := c.tables.remove name, indexes := c.indexes.removeAll (names idxs) }
  | renameTable {oldName newName : String} (hne : oldName ≠ newName) {idxs : List IndexSchema}
      (hentry : c.tables.entry oldName = some idxs) (hfresh : c.tables.listed newName = false) :
      CatalogStep c (.renameTable oldName newName)
        { c with
          tables := (c.tables.remove oldName).put newName
            (idxs.map fun idx => { idx with table := newName })
          indexes := c.indexes.modifyEach (·.name) (fun _ m => { m with table := newName }) idxs }
  | addColumn (table : String) (newCol : ColumnSchema) {idxs : List IndexSchema}
      (hentry : c.tables.entry table = some idxs) :
      CatalogStep c (.addColumn table newCol) { c with tables := c.tables.put table idxs }
  | dropColumn (table column : String) {idxs : List IndexSchema} (p : IndexSchema → Bool)
      (hentry : c.tables.entry table = some idxs) :
      CatalogStep c (.dropColumn table column)
        { c with
          tables := c.tables.put table (idxs.filter fun idx => !p idx)
          indexes := c.indexes.removeAll (names (idxs.filter p)) }
  | renameColumn (table oldCol newCol : String) (ident : IsIdent newCol) {idxs : List IndexSchema}
      (g : String → String) (hg : ∀ c, g c = newCol ∨ g c = c)
      (hentry : c.tables.entry table = some idxs) :
      CatalogStep c (.renameColumn table oldCol newCol ident)
        { c with
          tables := c.tables.put table
            (idxs.map fun idx => { idx with columns := idx.columns.map g })
          indexes := c.indexes.modifyEach (·.name) (fun idx m => { m with columns := idx.columns })
            ((idxs.map fun idx => { idx with columns := idx.columns.map g }).filter
              fun idx => idx.columns.contains newCol) }
  | createIndex (stmt : CreateIndexStmt) (indexID : Bytes)
      (ident : ∀ c ∈ stmt.columns, IsIdent c) {idxs : List IndexSchema} {idx : IndexSchema}
      (hname : idx.name = stmt.name) (htable : idx.table = stmt.table) (hspelled : idx.Spelled)
      (hentry : c.tables.entry stmt.table = some idxs) (hnew : stmt.name ∉ names idxs) :
      CatalogStep c (.createIndex stmt indexID ident)
        { c with
          tables := c.tables.put stmt.table (idxs ++ [idx])
          indexes := c.indexes.put stmt.name idx }
  | dropIndex (name : String) (ifExists : Bool) {m : IndexSchema} {idxs : List IndexSchema}
      (hmeta : c.indexes.entry name = some m) (hentry : c.tables.entry m.table = some idxs) :
      CatalogStep c (.dropIndex name ifExists)
        { c with
          tables := c.tables.put m.table (idxs.filter (·.name ≠ name))
          indexes := c.indexes.remove name }
  | createView (v : ViewSchema) (ifNotExists : Bool) (hview : c.views.listed v.name = false)
      (htable : c.tables.listed v.name = false) :
      CatalogStep c (.createView v ifNotExists) { c with views := c.views.put v.name v }
  | dropView (name : String) (ifExists : Bool) :
      CatalogStep c (.dropView name ifExists) { c with views := c.views.remove name }

/-- Every index of every table can be read back from its metadata. -/
def SpelledIn (tables : Registry String (List IndexSchema)) : Prop :=
  ∀ n idxs, tables.entry n = some idxs → ∀ idx ∈ idxs, idx.Spelled

/-- Writes outside the catalog. -/
theorem catalog_applyAll_of_not_isMetaKey (h : ∀ w ∈ ws, ¬ IsMetaKey w.key)
    (s : Store) : catalog (applyAll ws s) = catalog s := by
  have htag := tagged_of_not_isMetaKey h
  rw [catalog, catalog, tablesOf_of_tagged htag s (by decide) (by decide),
    indexesOf_of_tagged htag s (by decide) (by decide),
    viewsOf_of_tagged htag s (by decide) (by decide)]

theorem catalog_schemaWrites (s : Store) (hid : t.tableID ≠ [])
    (hkey : t.pkColumns ≠ [] ∨ t.syntheticPK = true) :
    catalog (applyAll (schemaWrites t) s) =
      { catalog s with tables := (catalog s).tables.put t.name t.indexes } := by
  have htag := tagged_schemaWrites t
  rw [catalog, tablesOf_schemaWrites s hid hkey,
    indexesOf_of_tagged htag s (by decide) (by decide),
    viewsOf_of_tagged htag s (by decide) (by decide)]
  rfl

variable {idxs : List IndexSchema} {base view : Store}

theorem catalog_schemaDrops :
    catalog (applyAll (schemaDrops name) s) =
      { catalog s with tables := (catalog s).tables.remove name } := by
  have htag := tagged_schemaDrops name
  rw [catalog, tablesOf_schemaDrops, indexesOf_of_tagged htag s (by decide) (by decide),
    viewsOf_of_tagged htag s (by decide) (by decide)]
  rfl

/-- Writes to the metadata of indexes, given what they do to it. -/
theorem catalog_of_tagged_index (h : Tagged [0x78, 0x49] ws)
    {r : Registry String IndexSchema} (hr : indexesOf (applyAll ws s) = r) :
    catalog (applyAll ws s) = { catalog s with indexes := r } := by
  rw [catalog, hr, tablesOf_of_tagged h s (by decide) (by decide),
    viewsOf_of_tagged h s (by decide) (by decide)]
  rfl

/-- Writes to views, given what they do to them. -/
theorem catalog_of_tagged_view (h : Tagged [0x76, 0x56] ws)
    {r : Registry String ViewSchema} (hr : viewsOf (applyAll ws s) = r) :
    catalog (applyAll ws s) = { catalog s with views := r } := by
  rw [catalog, hr, tablesOf_of_tagged h s (by decide) (by decide),
    indexesOf_of_tagged h s (by decide) (by decide)]
  rfl

variable {idx : IndexSchema} {name : String} {colIdx : ℕ}

theorem catalog_indexMetaWrites (s : Store) (h : idx.Spelled) :
    catalog (applyAll (indexMetaWrites idx) s) =
      { catalog s with indexes := (catalog s).indexes.put idx.name idx } :=
  catalog_of_tagged_index (tagged_indexMetaWrites idx) (indexesOf_indexMetaWrites s h)

theorem catalog_indexMetaDrops :
    catalog (applyAll (indexMetaDrops name) s) =
      { catalog s with indexes := (catalog s).indexes.remove name } :=
  catalog_of_tagged_index (tagged_indexMetaDrops name) (indexesOf_indexMetaDrops s name)

/-- A rewrite of one metadata field for every index of a list. -/
theorem catalog_putEach {f : Bytes} {p : IndexSchema → Payload}
    {g : IndexSchema → IndexSchema → IndexSchema} (hg : ∀ idx ∈ idxs, ∀ s : Store,
      indexesOf (applyAll [.put (indexMetaKey idx.name) f (p idx)] s) =
        (indexesOf s).modify idx.name (g idx)) :
    catalog (applyAll (idxs.map fun idx => .put (indexMetaKey idx.name) f (p idx)) s) =
      { catalog s with indexes := (catalog s).indexes.modifyEach (·.name) g idxs } := by
  induction idxs generalizing s with
  | nil => rfl
  | cons idx idxs ih =>
    have htag : Tagged [0x78, 0x49]
        [KeyedStore.Write.put (indexMetaKey idx.name) f (p idx)] := by
      intro w hw
      rw [mem_singleton.mp hw]
      exact ⟨0x78, by simp, rfl⟩
    rw [map_cons, ← singleton_append, applyAll_append,
      ih (fun i hi => hg i (mem_cons_of_mem _ hi)),
      catalog_of_tagged_index htag (hg idx (mem_cons_self ..) s)]
    rfl

theorem storedSchema_loadable (h : storedSchema s name = .ok t) :
    t.tableID ≠ [] ∧ (t.pkColumns ≠ [] ∨ t.syntheticPK = true) := by
  obtain ⟨r, -, hload⟩ := storedSchema_eq_ok_iff.mp h
  obtain ⟨-, -, -, -, hkey, -, hid, -⟩ := schemaFromSnapshot_eq_ok_iff.mp hload
  exact ⟨hid, hkey⟩

theorem entry_catalog_of_storedSchema (h : storedSchema s name = .ok t) :
    (catalog s).tables.entry name = some t.indexes := by
  show (storedSchema s name).toOption.map _ = _
  rw [h]
  rfl

theorem checkCreateIndex_ok_name {tbl : TableSchema} {stmt : CreateIndexStmt}
    (h : checkCreateIndex tbl stmt = .ok ()) : stmt.name ∉ names tbl.indexes := by
  unfold checkCreateIndex at h
  cases hch : checkIndexColumns tbl stmt.name stmt.columns [] with
  | error e =>
    rw [hch] at h
    exact absurd h (by simp [bind, Except.bind])
  | ok u =>
    intro hmem
    obtain ⟨idx, hidx, hn⟩ := mem_map.mp hmem
    have hany : (tbl.indexes.any fun i => i.name == stmt.name) = true :=
      any_eq_true.mpr ⟨idx, hidx, by simpa using hn⟩
    rw [hch, hany] at h
    exact absurd h (by simp [bind, Except.bind, throw])

theorem catalog_renameTableWrites {oldName newName : String}
    (ht : storedSchema s oldName = .ok t) (hne : oldName ≠ newName) :
    catalog (applyAll (renameTableWrites oldName (t.renamed newName)) s) =
      { catalog s with
        tables := ((catalog s).tables.remove oldName).put newName
          (t.indexes.map fun idx => { idx with table := newName })
        indexes := (catalog s).indexes.modifyEach (·.name)
          (fun _ m => { m with table := newName }) t.indexes } := by
  obtain ⟨hid, hkey⟩ := storedSchema_loadable ht
  have hindexes : indexTableWrites (t.renamed newName) = t.indexes.map fun idx =>
      .put (indexMetaKey idx.name) indexFieldTable (.raw (utf8 newName)) := by
    simp [indexTableWrites, TableSchema.renamed]
  rw [renameTableWrites, applyAll_append, applyAll_append, hindexes,
    catalog_putEach fun idx _ s => indexesOf_putTable s idx.name newName,
    catalog_schemaDrops, catalog_schemaWrites s (t := t.renamed newName) hid hkey,
    ← Registry.remove_put_of_ne _ hne]
  rfl

section Steps

variable {table : String} [Keytrie]

theorem not_isMetaKey_indexEntryDrops {indexID : Bytes} :
    ∀ w ∈ indexEntryDrops base view indexID, ¬ IsMetaKey w.key := by
  intro w hw hm
  obtain ⟨e, hkey⟩ := key_indexEntryDrops hw
  exact hm.ne_indexKey _ _ hkey

theorem catalog_dropIndexWrites :
    catalog (applyAll (dropIndexWrites base view idx) s) =
      { catalog s with indexes := (catalog s).indexes.remove idx.name } := by
  rw [dropIndexWrites, applyAll_append, catalog_indexMetaDrops,
    catalog_applyAll_of_not_isMetaKey not_isMetaKey_indexEntryDrops]

theorem catalog_dropIndexesWrites :
    catalog (applyAll (dropIndexesWrites base view idxs) s) =
      { catalog s with indexes := (catalog s).indexes.removeAll (names idxs) } := by
  induction idxs generalizing view s with
  | nil => rfl
  | cons idx idxs ih =>
    rw [dropIndexesWrites]
    rw [applyAll_append, ih, catalog_dropIndexWrites]
    rfl

theorem catalog_dropTableWrites :
    catalog (applyAll (dropTableWrites s name t) s) =
      { catalog s with
        tables := (catalog s).tables.remove name
        indexes := (catalog s).indexes.removeAll (names t.indexes) } := by
  have hr : ∀ w ∈ rowFieldDrops s t, ¬ IsMetaKey w.key := by
    intro w hw hm
    obtain ⟨rk, hrk, hw⟩ := mem_flatMap.mp hw
    obtain ⟨-, pk, rfl⟩ := mem_scanKeys_rowKeyPattern.mp hrk
    obtain ⟨f, -, rfl⟩ := mem_dropAll.mp hw
    exact hm.ne_rowKey _ _ rfl
  rw [dropTableWrites, applyAll_append, applyAll_append, catalog_schemaDrops,
    catalog_dropIndexesWrites, catalog_applyAll_of_not_isMetaKey hr]

variable [Host]

theorem catalog_dropColumnWrites (ht : storedSchema s table = .ok t) :
    catalog (applyAll (dropColumnWrites s t colIdx) s) =
      { catalog s with
        tables := (catalog s).tables.put table (t.withoutColumn colIdx).indexes
        indexes := (catalog s).indexes.removeAll (names (t.mentioning colIdx)) } := by
  obtain ⟨hid, hkey⟩ := storedSchema_loadable ht
  have hr : ∀ w ∈ columnDrops s t colIdx, ¬ IsMetaKey w.key := by
    intro w hw hm
    obtain ⟨rk, hrk, rfl⟩ := mem_map.mp hw
    obtain ⟨-, pk, rfl⟩ := mem_scanKeys_rowKeyPattern.mp hrk
    exact hm.ne_rowKey _ _ rfl
  have hkey' : (t.withoutColumn colIdx).pkColumns ≠ [] ∨
      (t.withoutColumn colIdx).syntheticPK = true := by
    rcases hkey with hkey | hkey
    · exact .inl (by simpa [TableSchema.withoutColumn] using hkey)
    · exact .inr hkey
  rw [dropColumnWrites, applyAll_append, applyAll_append,
    catalog_schemaWrites _ (t := t.withoutColumn colIdx) hid hkey', catalog_dropIndexesWrites,
    catalog_applyAll_of_not_isMetaKey hr]
  rw [show (t.withoutColumn colIdx).name = table from storedSchema_name (t := t) ht]

theorem catalog_renameColumnWrites {newCol : String} (ht : storedSchema s table = .ok t)
    (hident : IsIdent newCol) (hsp : ∀ idx ∈ t.indexes, idx.Spelled) :
    catalog (applyAll (renameColumnWrites s t colIdx newCol) s) =
      { catalog s with
        tables := (catalog s).tables.put table (t.withRenamed colIdx newCol).indexes
        indexes := (catalog s).indexes.modifyEach (·.name)
          (fun idx m => { m with columns := idx.columns })
          ((t.withRenamed colIdx newCol).indexes.filter fun idx => idx.columns.contains newCol) } := by
  obtain ⟨hid, hkey⟩ := storedSchema_loadable ht
  have hr : ∀ w ∈ columnMoves s t colIdx newCol, ¬ IsMetaKey w.key := by
    intro w hw hm
    obtain ⟨rk, hrk, hw⟩ := mem_flatMap.mp hw
    obtain ⟨-, pk, rfl⟩ := mem_scanKeys_rowKeyPattern.mp hrk
    exact hm.ne_rowKey _ _ (key_renameFieldWrites hw)
  have hcolumns : ∀ idx ∈ (t.withRenamed colIdx newCol).indexes,
      idx.columns ≠ [] ∧ ∀ c ∈ idx.columns, IsIdent c := by
    intro idx hidx
    obtain ⟨old, hold, rfl⟩ := mem_map.mp hidx
    refine ⟨by simpa using (hsp old hold).columns_ne_nil, fun c hc => ?_⟩
    obtain ⟨oldCol, holdCol, rfl⟩ := mem_map.mp hc
    split
    · exact hident
    · exact (hsp old hold).columns oldCol holdCol
  have hn : (t.withRenamed colIdx newCol).name = table := storedSchema_name (t := t) ht
  rw [renameColumnWrites, applyAll_append, applyAll_append, indexColumnWrites,
    catalog_putEach fun idx hidx s => by
      obtain ⟨hne, hall⟩ := hcolumns idx (mem_filter.mp hidx).1
      exact indexesOf_putColumns s idx.name hne hall,
    catalog_schemaWrites _ (t := t.withRenamed colIdx newCol) hid hkey, hn,
    catalog_applyAll_of_not_isMetaKey hr]

theorem catalog_createIndexWrites (ht : storedSchema s table = .ok t) (hidx : idx.Spelled) :
    catalog (applyAll (createIndexWrites s t idx) s) =
      { catalog s with
        tables := (catalog s).tables.put table (t.indexes ++ [idx])
        indexes := (catalog s).indexes.put idx.name idx } := by
  obtain ⟨hid, hkey⟩ := storedSchema_loadable ht
  have hes : ∀ w ∈ (backfillTargets s t idx).map (backfillWrite idx), ¬ IsMetaKey w.key := by
    intro w hw hm
    obtain ⟨target, -, rfl⟩ := mem_map.mp hw
    exact hm.ne_indexKey _ _ rfl
  rw [createIndexWrites, applyAll_append, applyAll_append,
    catalog_schemaWrites _ (t := { t with indexes := t.indexes ++ [idx] }) hid hkey,
    catalog_applyAll_of_not_isMetaKey hes, catalog_indexMetaWrites s hidx]
  have hn : t.name = table := storedSchema_name ht
  simp only [hn]

/-- **Every handler is a catalog step.** -/
theorem exec_catalogStep (hsp : SpelledIn (catalog s).tables) (stmt : DdlStmt) :
    CatalogStep (catalog s) stmt (catalog (stmt.exec s).2) := by
  have href {r : Except SqlError Unit × Store} (h : RefusedBy s r) : r.2 = s := by
    obtain ⟨e, rfl⟩ := h
    rfl
  have hun (h : (stmt.exec s).2 = s) :
      CatalogStep (catalog s) stmt (catalog (stmt.exec s).2) := by
    rw [h]
    exact .unchanged stmt
  cases stmt with
  | createTable decl =>
    rcases handleCreateTable_outcome decl.schema s with h | ⟨hfr, hid, h⟩
    · exact hun (href h)
    · rw [DdlStmt.exec, h]
      rw [catalog_schemaWrites s hid decl.keyed, decl.no_indexes]
      exact .createTable decl hfr
  | dropTable name ifExists =>
    rcases handleDropTable_outcome name ifExists s with h | h | ⟨t, ht, h⟩
    · exact hun (href h)
    · exact hun (congrArg Prod.snd h)
    · rw [DdlStmt.exec, h]
      rw [catalog_dropTableWrites]
      exact .dropTable name ifExists (entry_catalog_of_storedSchema ht)
  | renameTable oldName newName =>
    rcases handleAlterRenameTable_outcome oldName newName s with
      h | ⟨-, h⟩ | ⟨hfold, hfr, t, ht, h⟩
    · exact hun (href h)
    · exact hun (congrArg Prod.snd h)
    · have hne : oldName ≠ newName := by
        rintro rfl
        rw [equalFold_self] at hfold
        cases hfold
      rw [DdlStmt.exec, h]
      rw [catalog_renameTableWrites ht hne]
      exact .renameTable hne (entry_catalog_of_storedSchema ht) hfr
  | addColumn table newCol =>
    rcases handleAlterAddColumn_outcome table newCol s with h | ⟨t, ht, -, h⟩
    · exact hun (href h)
    · obtain ⟨hid, hkey⟩ := storedSchema_loadable ht
      rw [DdlStmt.exec, h]
      rw [catalog_schemaWrites s (t := t.withColumn newCol) hid hkey,
        show (t.withColumn newCol).name = table from storedSchema_name (t := t) ht]
      exact .addColumn table newCol (entry_catalog_of_storedSchema (t := t) ht)
  | dropColumn table column =>
    rcases handleAlterDropColumn_outcome table column s with h | ⟨t, colIdx, ht, -, -, h⟩
    · exact hun (href h)
    · rw [DdlStmt.exec, h]
      rw [catalog_dropColumnWrites ht]
      exact .dropColumn table column _ (entry_catalog_of_storedSchema ht)
  | renameColumn table oldCol newCol ident =>
    rcases handleAlterRenameColumn_outcome table oldCol newCol s with
      h | ⟨-, h⟩ | ⟨-, t, colIdx, ht, -, h⟩
    · exact hun (href h)
    · exact hun (congrArg Prod.snd h)
    · have he := entry_catalog_of_storedSchema ht
      rw [DdlStmt.exec, h]
      rw [catalog_renameColumnWrites ht ident (hsp table _ he)]
      refine .renameColumn table oldCol newCol ident _ (fun c => ?_) he
      split
      · exact .inl rfl
      · exact .inr rfl
  | createIndex stmt indexID ident =>
    rcases handleCreateIndex_outcome stmt indexID s with h | ⟨t, ht, hch, hiid, h⟩
    · exact hun (href h)
    · have hidx : (stmt.index t indexID).Spelled := ⟨hiid, stmt.columns_ne_nil, ident⟩
      rw [DdlStmt.exec, h]
      rw [catalog_createIndexWrites ht hidx]
      exact .createIndex stmt indexID ident rfl rfl hidx (entry_catalog_of_storedSchema ht)
        (checkCreateIndex_ok_name hch)
  | dropIndex name ifExists =>
    rcases handleDropIndex_outcome name ifExists s with h | h | ⟨m, t, hm, ht, h⟩
    · exact hun (href h)
    · exact hun (congrArg Prod.snd h)
    · obtain ⟨hid, hkey⟩ := storedSchema_loadable ht
      have hme : (catalog s).indexes.entry name = some m := by
        show (storedIndex s name).toOption = some m
        rw [hm]
        rfl
      rw [DdlStmt.exec, h]
      rw [applyAll_append, catalog_schemaWrites _ (t := t.withoutIndex name) hid hkey,
        catalog_dropIndexWrites, storedIndex_name hm,
        show (t.withoutIndex name).name = m.table from storedSchema_name (t := t) ht]
      exact .dropIndex name ifExists hme (entry_catalog_of_storedSchema ht)
  | createView v ifNotExists =>
    rcases handleCreateView_outcome v ifNotExists s with h | h | ⟨hv, htab, hb, h⟩
    · exact hun (href h)
    · exact hun (congrArg Prod.snd h)
    · rw [DdlStmt.exec, h]
      rw [catalog_of_tagged_view (tagged_viewWrites v) (viewsOf_viewWrites s hb)]
      exact .createView v ifNotExists hv htab
  | dropView name ifExists =>
    rcases handleDropView_outcome name ifExists s with h | h | h
    · exact hun (href h)
    · exact hun (congrArg Prod.snd h)
    · rw [DdlStmt.exec, h]
      rw [catalog_of_tagged_view (tagged_viewDrops name) (viewsOf_viewDrops s name)]
      exact .dropView name ifExists

end Steps

end Swytch.Sql
