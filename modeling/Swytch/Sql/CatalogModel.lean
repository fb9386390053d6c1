import Swytch.Lib.Registry
import Swytch.Sql.DdlOutcomes

/-!
# The catalog

What a store says about names: the tables with their index lists, the index metadata and
the views, each next to the registry that lists its names.  Every batch of writes a handler
emits belongs to one of the three parts and acts on it as one operation of a registry, so a
handler is read as an operation on the catalog.

## 1.  Parts and tags

A catalog key is known by its first byte: `s` and `L` hold the tables, `x` and `I` the
indexes, `v` and `V` the views, and rows and entries are under `r` and `i`.  A batch whose
keys carry other tags leaves a part alone (`tablesOf_of_tagged` and its siblings).

## 2.  Batches

`tablesOf_schemaWrites`, `tablesOf_schemaDrops`, `indexesOf_indexMetaWrites` and so on: what
a batch does to its own part.
-/

namespace Swytch.Sql

open List
open KeyedStore TxM
open Registry (entry_put listed_put)
open Registry (entry_remove listed_remove)
open Function (update_of_ne update update_self)

/-! ## 1.  Parts and tags -/

/-- The tables that load, with their indexes, and the registry `L`. -/
def tablesOf (s : Store) : Registry String (List IndexSchema) where
  entry n := (storedSchema s n).toOption.map (·.indexes)
  listed n := listed s[tableListKey]? n

/-- The index metadata that loads, and the registry `I`. -/
def indexesOf (s : Store) : Registry String IndexSchema where
  entry i := (storedIndex s i).toOption
  listed i := listed s[indexListKey]? i

/-- The views that load, and the registry `V`. -/
def viewsOf (s : Store) : Registry String ViewSchema where
  entry n := (storedView s n).toOption
  listed n := listed s[viewListKey]? n

variable (s : Store)

variable {n i : String}

@[simp] theorem entry_tablesOf :
    (tablesOf s).entry n = (storedSchema s n).toOption.map (·.indexes) := rfl

@[simp] theorem listed_tablesOf (n : String) :
    (tablesOf s).listed n = listed s[tableListKey]? n := rfl

@[simp] theorem entry_indexesOf : (indexesOf s).entry i = (storedIndex s i).toOption := rfl

@[simp] theorem listed_indexesOf : (indexesOf s).listed i = listed s[indexListKey]? i := rfl

@[simp] theorem entry_viewsOf : (viewsOf s).entry n = (storedView s n).toOption := rfl

@[simp] theorem listed_viewsOf (n : String) : (viewsOf s).listed n = listed s[viewListKey]? n := rfl

/-- Every write is to a key that starts with one of the tags. -/
def Tagged (tags : List UInt8) (ws : List Write) : Prop :=
  ∀ w ∈ ws, ∃ t ∈ tags, w.key.head? = some t

variable {key : Bytes} {ws : List Write} {name : String} {w : Write} {t : TableSchema}
    {columns : List String} {idx : IndexSchema}

section

variable {tags : List UInt8} (h : Tagged tags ws)

include h

theorem getElem?_of_tagged (s : Store) {t : UInt8} (hkey : key.head? = some t) (ht : t ∉ tags) :
    (applyAll ws s)[key]? = s[key]? := by
  refine getElem?_applyAll_of_forall_ne (fun w hw => ?_) s
  rintro rfl
  obtain ⟨t', ht', hw'⟩ := h w hw
  obtain rfl := Option.some.inj (hkey.symm.trans hw')
  exact ht ht'

theorem tablesOf_of_tagged (s : Store)
    (hs : 0x73 ∉ tags) (hL : 0x4c ∉ tags) : tablesOf (applyAll ws s) = tablesOf s := by
  unfold tablesOf storedSchema
  congr 1
  · funext n
    rw [getElem?_of_tagged h s (head?_schemaKey n) hs]
  · rw [getElem?_of_tagged h s (show tableListKey.head? = some 0x4c from rfl) hL]

theorem indexesOf_of_tagged (s : Store)
    (hx : 0x78 ∉ tags) (hI : 0x49 ∉ tags) : indexesOf (applyAll ws s) = indexesOf s := by
  unfold indexesOf storedIndex
  congr 1
  · funext i
    rw [getElem?_of_tagged h s (show (indexMetaKey i).head? = some 0x78 from rfl) hx]
  · rw [getElem?_of_tagged h s (show indexListKey.head? = some 0x49 from rfl) hI]

theorem viewsOf_of_tagged (s : Store)
    (hv : 0x76 ∉ tags) (hV : 0x56 ∉ tags) : viewsOf (applyAll ws s) = viewsOf s := by
  unfold viewsOf storedView
  congr 1
  · funext n
    rw [getElem?_of_tagged h s (show (viewMetaKey n).head? = some 0x76 from rfl) hv]
  · rw [getElem?_of_tagged h s (show viewListKey.head? = some 0x56 from rfl) hV]

end

/-- Writes to row keys and entry keys. -/
theorem tagged_of_not_isMetaKey (h : ∀ w ∈ ws, ¬ IsMetaKey w.key) : Tagged [0x72, 0x69] ws := by
  intro w hw
  by_cases hrow : w.key.head? = some prefixRow
  · exact ⟨_, mem_cons_self .., hrow⟩
  · have hix : w.key.head? = some prefixIndex := by
      by_contra hix
      exact h w hw ⟨hrow, hix⟩
    exact ⟨_, mem_cons_of_mem _ (mem_cons_self ..), hix⟩

/-! ## 2.  Batches -/

theorem listed_eq : listed s[key]? n = (cell s key (utf8 n)).isSome := by
  rw [cell]
  cases s[key]? with
  | none => rfl
  | some m => simp [listed]

/-- A batch that ends by listing a name or by taking it off the list. -/
theorem listed_write (h : ∀ w' ∈ ws, w'.key ≠ w.key) (s : Store) (hf : w.field = utf8 name)
    (n : String) :
    listed (applyAll (ws ++ [w]) s)[w.key]? n =
      if n = name then w.result.isSome else listed s[w.key]? n := by
  rw [listed_eq, listed_eq, applyAll_append, applyAll_cons, applyAll_nil, cell_apply,
    cell_applyAll, assigned_eq_none fun w' hw' hkey => absurd hkey (h w' hw'), hf]
  by_cases hn : n = name
  · simp [hn]
  · simp [hn, Ne.symm hn]

/-! ### Tables -/

theorem key_schemaWrites (hw : w ∈ schemaWrites t) :
    w.key = schemaKey t.name ∨ w.key = tableListKey := by
  rcases mem_append.mp hw with hw | hw
  · obtain ⟨_, -, rfl⟩ := mem_putAll.mp hw
    exact .inl rfl
  · rw [mem_singleton.mp hw]
    exact .inr rfl

theorem key_schemaDrops (hw : w ∈ schemaDrops name) :
    w.key = schemaKey name ∨ w.key = tableListKey := by
  rcases mem_append.mp hw with hw | hw
  · obtain ⟨_, -, rfl⟩ := mem_dropAll.mp hw
    exact .inl rfl
  · rw [mem_singleton.mp hw]
    exact .inr rfl

theorem tagged_of_key {registry : Bytes} {t t' : UInt8} (hkey : key.head? = some t)
    (hreg : registry.head? = some t') (h : ∀ w ∈ ws, w.key = key ∨ w.key = registry) :
    Tagged [t, t'] ws := by
  intro w hw
  rcases h w hw with hw | hw
  · exact ⟨t, by simp, hw ▸ hkey⟩
  · exact ⟨t', by simp, hw ▸ hreg⟩

theorem tagged_schemaWrites (t : TableSchema) : Tagged [0x73, 0x4c] (schemaWrites t) :=
  tagged_of_key (head?_schemaKey t.name) rfl fun _ hw => key_schemaWrites hw

theorem tagged_schemaDrops (name : String) : Tagged [0x73, 0x4c] (schemaDrops name) :=
  tagged_of_key (head?_schemaKey name) rfl fun _ hw => key_schemaDrops hw

/-- What the removal of a schema does to the fields of its key. -/
theorem assigned_schemaDrops (name : String) (f : Bytes) :
    assigned (schemaDrops name) (schemaKey name) f =
      if f ∈ droppedSchemaFields then some none else none := by
  have hl : assigned [KeyedStore.Write.drop tableListKey (utf8 name)] (schemaKey name) f =
      (none : Option (Option Payload)) :=
    assigned_eq_none fun w hw hk => by
      rw [mem_singleton.mp hw] at hk
      exact absurd hk (tableListKey_ne_schemaKey name)
  rw [schemaDrops, assigned_append, hl, Option.none_or, assigned_dropAll]
  congr

theorem storedSchema_toOption_eq_none {s : Store}
    (h : cell s (schemaKey name) schemaFieldColumns = none) :
    (storedSchema s name).toOption = none := by
  cases hs : storedSchema s name with
  | error e => rfl
  | ok t =>
    obtain ⟨r, hr, hload⟩ := storedSchema_eq_ok_iff.mp hs
    have hcs := (schemaFromSnapshot_eq_ok_iff.mp hload).2.1
    rw [schemaColumns, ← cell_of_getElem? hr, h] at hcs
    cases hcs

/-- What is written of one table leaves the schemas of the others. -/
theorem storedSchema_of_ne {s : Store} (h : ∀ w ∈ ws, w.key = schemaKey name ∨ w.key = tableListKey)
    (hn : n ≠ name) : storedSchema (applyAll ws s) n = storedSchema s n := by
  rw [storedSchema, storedSchema, getElem?_applyAll_of_forall_ne]
  intro w hw
  rcases h w hw with hwkey | hwkey
  · rw [hwkey]
    exact fun h => hn (schemaKey_inj.mp h).symm
  · rw [hwkey]
    exact tableListKey_ne_schemaKey n

theorem tablesOf_schemaWrites (hid : t.tableID ≠ [])
    (hkey : t.pkColumns ≠ [] ∨ t.syntheticPK = true) :
    tablesOf (applyAll (schemaWrites t) s) = (tablesOf s).put t.name t.indexes := by
  ext n : 2
  · rw [entry_put, entry_tablesOf, entry_tablesOf]
    by_cases hn : n = t.name
    · subst hn
      rw [if_pos rfl, storedSchema_schemaWrites s hid hkey]
      rfl
    · rw [if_neg hn, storedSchema_of_ne (fun w hw => key_schemaWrites hw) hn]
  · rw [listed_put]
    refine listed_write (fun w hw => ?_) s rfl n
    obtain ⟨_, -, rfl⟩ := mem_putAll.mp hw
    exact (tableListKey_ne_schemaKey _).symm

theorem tablesOf_schemaDrops (name : String) :
    tablesOf (applyAll (schemaDrops name) s) = (tablesOf s).remove name := by
  ext n : 2
  · rw [entry_remove, entry_tablesOf, entry_tablesOf]
    by_cases hn : n = name
    · subst hn
      rw [if_pos rfl, storedSchema_toOption_eq_none]
      · rfl
      · rw [cell_applyAll, assigned_schemaDrops]
        rfl
    · rw [if_neg hn, storedSchema_of_ne (fun w hw => key_schemaDrops hw) hn]
  · rw [listed_remove]
    refine listed_write (fun w hw => ?_) s rfl n
    obtain ⟨_, -, rfl⟩ := mem_dropAll.mp hw
    exact (tableListKey_ne_schemaKey _).symm

/-! ### Indexes -/

/-- The names a statement can spell: no empty name and no `NUL`. -/
def IsIdent (name : String) : Prop := name ≠ "" ∧ 0 ∉ utf8 name

/-- An index whose metadata can be read back. -/
structure IndexSchema.Spelled (idx : IndexSchema) : Prop where
  indexID : idx.indexID ≠ []
  columns_ne_nil : idx.columns ≠ []
  columns : ∀ c ∈ idx.columns, IsIdent c

theorem joinNUL_eq : joinNUL columns = [0].intercalate (columns.map utf8) := by
  induction columns with
  | nil => rfl
  | cons c cs ih =>
    cases cs with
    | nil => simp [joinNUL]
    | cons d ds =>
      rw [joinNUL, ih]
      · simp
      · exact cons_ne_nil d ds

/-- The stored column list reads back. -/
theorem splitNUL_joinNUL (hne : columns ≠ []) (h : ∀ c ∈ columns, IsIdent c) :
    (splitNUL (joinNUL columns)).map ofUtf8 = columns := by
  rw [splitNUL, joinNUL_eq, splitOn_intercalate]
  · simp [Function.comp_def]
  · intro b hb
    obtain ⟨c, hc, rfl⟩ := mem_map.mp hb
    exact (h c hc).2
  · simpa using hne

theorem joinNUL_ne_nil (hne : columns ≠ []) (h : ∀ c ∈ columns, IsIdent c) :
    joinNUL columns ≠ [] := by
  cases columns with
  | nil => exact absurd rfl hne
  | cons c cs =>
    have hc : utf8 c ≠ [] := fun hnil =>
      (h c (mem_cons_self ..)).1 (by rw [← ofUtf8_utf8 c, hnil]; rfl)
    cases cs with
    | nil => exact hc
    | cons d ds => simp [joinNUL]

/-- The fields of the metadata of an index, as the key holds them. -/
def indexOfCells (name : String) (field : Bytes → Option Payload) : Option IndexSchema :=
  let raw f := (field f).elim [] Payload.bytes
  if raw indexFieldIndexID = [] then none
  else some
    { name, indexID := raw indexFieldIndexID
      table := ofUtf8 (raw indexFieldTable)
      tableID := raw indexFieldTableID
      columns := if (raw indexFieldColumns).isEmpty then []
        else (splitNUL (raw indexFieldColumns)).map ofUtf8
      unique := match field indexFieldUnique with
        | some (.intVal i) => i ≠ 0
        | _ => false }

theorem storedIndex_toOption (name : String) :
    (storedIndex s name).toOption = indexOfCells name (cell s (indexMetaKey name)) := by
  unfold storedIndex indexOfSnapshot
  cases hs : s[indexMetaKey name]? with
  | none =>
    have hc := cell_of_getElem?_eq_none hs
    simp [indexOfCells, hc, Except.toOption]
  | some r =>
    have hc : cell s (indexMetaKey name) = fun f => r[f]? := funext (cell_of_getElem? hs)
    rw [hc]
    by_cases hnil : r.isEmpty = true
    · have hn : indexOfCells name (fun f => r[f]?) = none := by
        rw [Std.ExtTreeMap.isEmpty_iff.mp hnil]
        simp [indexOfCells]
      rw [hn]
      simp only [if_pos hnil]
      rfl
    · simp only [if_neg hnil]
      by_cases hid : rawField r indexFieldIndexID = []
      · rw [if_pos hid]
        exact (if_pos hid).symm
      · rw [if_neg hid]
        exact (if_neg hid).symm

/-- The metadata of an index, read back. -/
theorem indexOfCells_of_fields (h : idx.Spelled) {field : Bytes → Option Payload}
    (hiid : field indexFieldIndexID = some (.raw idx.indexID))
    (ht : field indexFieldTable = some (.raw (utf8 idx.table)))
    (htid : field indexFieldTableID = some (.raw idx.tableID))
    (hcs : field indexFieldColumns = some (.raw (joinNUL idx.columns)))
    (hunique : field indexFieldUnique = some (.intVal (if idx.unique then 1 else 0))) :
    indexOfCells idx.name field = some idx := by
  have hne : (joinNUL idx.columns).isEmpty = false := by
    simpa using joinNUL_ne_nil h.columns_ne_nil h.columns
  have hcolumns := splitNUL_joinNUL h.columns_ne_nil h.columns
  obtain ⟨name, iid, table, tid, columns, unique⟩ := idx
  have hiid' : iid ≠ [] := h.indexID
  cases unique <;>
    simp_all [indexOfCells, Payload.bytes]

/-- The fields `emitIndexMetadata` writes under the metadata key. -/
def indexFieldsOf (idx : IndexSchema) : List (Bytes × Payload) :=
  [(indexFieldIndexID, .raw idx.indexID), (indexFieldTable, .raw (utf8 idx.table)),
   (indexFieldTableID, .raw idx.tableID), (indexFieldColumns, .raw (joinNUL idx.columns)),
   (indexFieldUnique, .intVal (if idx.unique then 1 else 0))]

theorem indexMetaWrites_eq :
    indexMetaWrites idx = putAll (indexMetaKey idx.name) (indexFieldsOf idx) ++
      [.put indexListKey (utf8 idx.name) (.raw [1])] := rfl

theorem indexListKey_ne_indexMetaKey (i : String) : indexListKey ≠ indexMetaKey i := by
  intro h
  have hh := congrArg head? h
  cases hh

theorem tagged_indexMetaWrites (idx : IndexSchema) : Tagged [0x78, 0x49] (indexMetaWrites idx) :=
  tagged_of_key (show (indexMetaKey idx.name).head? = some 0x78 from rfl) rfl
    fun _ hw => key_indexMetaWrites hw

theorem tagged_indexMetaDrops (name : String) : Tagged [0x78, 0x49] (indexMetaDrops name) :=
  tagged_of_key (show (indexMetaKey name).head? = some 0x78 from rfl) rfl
    fun _ hw => key_indexMetaDrops hw

/-- Another index keeps its metadata. -/
theorem storedIndex_of_ne (h : ∀ w ∈ ws, w.key = indexMetaKey name ∨ w.key = indexListKey)
    (hi : i ≠ name) {s : Store} : storedIndex (applyAll ws s) i = storedIndex s i := by
  rw [storedIndex, storedIndex, getElem?_applyAll_of_forall_ne]
  intro w hw
  rcases h w hw with hkey | hkey
  · rw [hkey]
    exact fun h => hi (indexMetaKey_inj.mp h).symm
  · rw [hkey]
    exact indexListKey_ne_indexMetaKey i

theorem indexesOf_indexMetaWrites (h : idx.Spelled) :
    indexesOf (applyAll (indexMetaWrites idx) s) = (indexesOf s).put idx.name idx := by
  have hc (f : Bytes) {p : Payload} (hf : (indexFieldsOf idx).lookup f = some p) :
      cell (applyAll (indexMetaWrites idx) s) (indexMetaKey idx.name) f = some p := by
    have hnd : ((indexFieldsOf idx).map Prod.fst).Nodup := by
      show [indexFieldIndexID, indexFieldTable, indexFieldTableID, indexFieldColumns,
        indexFieldUnique].Nodup
      decide
    rw [indexMetaWrites_eq, cell_applyAll, assigned_append, assigned_putAll _ hnd, hf]
    rfl
  ext i : 2
  · rw [entry_put, entry_indexesOf, entry_indexesOf]
    by_cases hi : i = idx.name
    · subst hi
      rw [if_pos rfl, storedIndex_toOption]
      exact indexOfCells_of_fields h (hc _ rfl) (hc _ rfl) (hc _ rfl) (hc _ rfl)
        (hc _ rfl)
    · rw [if_neg hi, storedIndex_of_ne (fun w hw => key_indexMetaWrites hw) hi]
  · rw [listed_put, indexMetaWrites_eq]
    refine listed_write (fun w hw => ?_) s rfl i
    obtain ⟨_, -, rfl⟩ := mem_putAll.mp hw
    exact (indexListKey_ne_indexMetaKey _).symm

theorem indexesOf_indexMetaDrops (name : String) :
    indexesOf (applyAll (indexMetaDrops name) s) = (indexesOf s).remove name := by
  ext i : 2
  · rw [entry_remove, entry_indexesOf, entry_indexesOf]
    by_cases hi : i = name
    · subst hi
      have hiid : cell (applyAll (indexMetaDrops i) s) (indexMetaKey i) indexFieldIndexID =
          none := by
        rw [cell_applyAll, assigned_eq_some (r := none)]
        · rfl
        · exact ⟨_, mem_append_left _ (mem_cons_self ..), rfl, rfl⟩
        · intro w hw _ _
          rcases mem_append.mp hw with hw | hw
          · obtain ⟨_, -, rfl⟩ := mem_dropAll.mp hw
            rfl
          · rw [mem_singleton.mp hw]
            rfl
      rw [storedIndex_toOption]
      simp [indexOfCells, hiid]
    · rw [if_neg hi, storedIndex_of_ne (fun w hw => key_indexMetaDrops hw) hi]
  · rw [listed_remove]
    refine listed_write (fun w hw => ?_) s rfl i
    obtain ⟨_, -, rfl⟩ := mem_dropAll.mp hw
    exact (indexListKey_ne_indexMetaKey _).symm

/-- One field of the metadata, rewritten. -/
theorem indexesOf_putField {f : Bytes} {p : Payload} {g : IndexSchema → IndexSchema}
    (hg : ∀ field, indexOfCells i (update field f (some p)) = (indexOfCells i field).map g) :
    indexesOf (applyAll [.put (indexMetaKey i) f p] s) = (indexesOf s).modify i g := by
  have hc : cell (applyAll [.put (indexMetaKey i) f p] s) (indexMetaKey i) =
      update (cell s (indexMetaKey i)) f (some p) := by
    funext f'
    rw [applyAll_cons, applyAll_nil, cell_apply]
    by_cases hf : f' = f
    · simp [Write.key, Write.field, Write.result, hf]
    · simp [Write.field, hf, Ne.symm hf]
  have hks : ∀ w ∈ [KeyedStore.Write.put (indexMetaKey i) f p],
      w.key = indexMetaKey i ∨ w.key = indexListKey := by
    intro w hw
    rw [mem_singleton.mp hw]
    exact .inl rfl
  ext j : 2
  · rw [Registry.entry_modify, entry_indexesOf, entry_indexesOf]
    by_cases hj : j = i
    · subst hj
      rw [if_pos rfl, storedIndex_toOption, storedIndex_toOption, hc, hg]
    · rw [if_neg hj, storedIndex_of_ne hks hj]
  · rw [Registry.listed_modify, listed_indexesOf, listed_indexesOf,
      getElem?_applyAll_of_forall_ne]
    intro w hw
    rw [mem_singleton.mp hw]
    exact (indexListKey_ne_indexMetaKey i).symm

theorem indexesOf_putTable (i table : String) :
    indexesOf (applyAll [.put (indexMetaKey i) indexFieldTable (.raw (utf8 table))] s) =
      (indexesOf s).modify i fun m => { m with table := table } := by
  refine indexesOf_putField s fun field => ?_
  have hne : ∀ f ∈ [indexFieldIndexID, indexFieldTableID, indexFieldColumns, indexFieldUnique],
      f ≠ indexFieldTable := by decide
  simp only [mem_cons, not_mem_nil, or_false, forall_eq_or_imp] at hne
  obtain ⟨hiid, htid, hcs, hunique⟩ := hne
  simp only [indexOfCells, update_of_ne hiid, update_self, Option.elim_some, Payload.bytes,
    ofUtf8_utf8]
  split <;> rfl

theorem indexesOf_putColumns (i : String) (hne : columns ≠ []) (h : ∀ c ∈ columns, IsIdent c) :
    indexesOf (applyAll [.put (indexMetaKey i) indexFieldColumns (.raw (joinNUL columns))] s) =
      (indexesOf s).modify i fun m => { m with columns := columns } := by
  refine indexesOf_putField s fun field => ?_
  have hfs : ∀ f ∈ [indexFieldIndexID, indexFieldTable, indexFieldTableID, indexFieldUnique],
      f ≠ indexFieldColumns := by decide
  simp only [mem_cons, not_mem_nil, or_false, forall_eq_or_imp] at hfs
  obtain ⟨hiid, ht, htid, hunique⟩ := hfs
  have hnil : (joinNUL columns).isEmpty = false := by simpa using joinNUL_ne_nil hne h
  simp only [indexOfCells, update_of_ne hiid, update_self, Option.elim_some, Payload.bytes, hnil,
    splitNUL_joinNUL hne h]
  split <;> rfl

/-! ### Views -/

theorem tagged_view (name : String) (h : ∀ w ∈ ws, w.key = viewMetaKey name ∨ w.key = viewListKey) :
    Tagged [0x76, 0x56] ws :=
  tagged_of_key (show (viewMetaKey name).head? = some 0x76 from rfl)
    (show viewListKey.head? = some 0x56 from rfl) h

theorem tagged_viewWrites (v : ViewSchema) : Tagged [0x76, 0x56] (viewWrites v) :=
  tagged_view v.name (by simp [viewWrites, Write.key])

theorem tagged_viewDrops (name : String) : Tagged [0x76, 0x56] (viewDrops name) :=
  tagged_view name (by simp [viewDrops, Write.key])

theorem viewListKey_ne_viewMetaKey : viewListKey ≠ viewMetaKey n := by
  intro h
  have hh := congrArg head? h
  cases hh

@[simp] theorem viewMetaKey_inj {n' : String} : viewMetaKey n = viewMetaKey n' ↔ n = n' := by
  simp [viewMetaKey]

/-- A view loads when its body is there and not empty. -/
theorem storedView_toOption : (storedView s n).toOption =
      (cell s (viewMetaKey n) viewFieldSQL).bind fun p =>
        if p.bytes = [] then none else some ⟨n, ofUtf8 p.bytes⟩ := by
  unfold storedView viewOfSnapshot
  cases hs : s[viewMetaKey n]? with
  | none =>
    rw [cell_of_getElem?_eq_none hs]
    rfl
  | some r =>
    rw [cell_of_getElem? hs]
    by_cases hnil : r.isEmpty = true
    · have hf : r[viewFieldSQL]? = none := by
        rw [Std.ExtTreeMap.isEmpty_iff.mp hnil]
        simp
      simp only [if_pos hnil, hf]
      rfl
    · simp only [if_neg hnil]
      cases hf : r[viewFieldSQL]? with
      | none =>
        have hraw : rawField r viewFieldSQL = [] := by simp [rawField, hf]
        rw [if_pos hraw]
        rfl
      | some p =>
        have hraw : rawField r viewFieldSQL = p.bytes := by simp [rawField, hf]
        rw [hraw, Option.bind_some]
        split <;> rfl

theorem viewsOf_viewWrites {v : ViewSchema} (hb : v.body ≠ "") :
    viewsOf (applyAll (viewWrites v) s) = (viewsOf s).put v.name v := by
  have hutf8 : utf8 v.body ≠ [] := fun h => hb (by rw [← ofUtf8_utf8 v.body, h]; rfl)
  have hc (n : String) : cell (applyAll (viewWrites v) s) (viewMetaKey n) viewFieldSQL =
      if n = v.name then some (.raw (utf8 v.body)) else cell s (viewMetaKey n) viewFieldSQL := by
    simp [viewWrites, cell_apply, Write.key, Write.field, Write.result, viewListKey_ne_viewMetaKey,
      eq_comm]
  ext n : 2
  · rw [entry_put, entry_viewsOf, entry_viewsOf, storedView_toOption,
      storedView_toOption, hc]
    by_cases hn : n = v.name
    · subst hn
      simp [Payload.bytes, hutf8]
    · rw [if_neg hn, if_neg hn]
  · rw [listed_put]
    refine @listed_write [.put (viewMetaKey v.name) viewFieldSQL (.raw (utf8 v.body))] _ _
      (fun w hw => ?_) s rfl n
    rw [mem_singleton.mp hw]
    exact (viewListKey_ne_viewMetaKey).symm

theorem viewsOf_viewDrops (name : String) :
    viewsOf (applyAll (viewDrops name) s) = (viewsOf s).remove name := by
  have hc (n : String) : cell (applyAll (viewDrops name) s) (viewMetaKey n) viewFieldSQL =
      if n = name then none else cell s (viewMetaKey n) viewFieldSQL := by
    simp [viewDrops, cell_apply, Write.key, Write.field, Write.result, viewListKey_ne_viewMetaKey,
      eq_comm]
  ext n : 2
  · rw [entry_remove, entry_viewsOf, entry_viewsOf, storedView_toOption,
      storedView_toOption, hc]
    by_cases hn : n = name
    · rw [if_pos hn, if_pos hn]
      rfl
    · rw [if_neg hn, if_neg hn]
  · rw [listed_remove]
    refine @listed_write [.drop (viewMetaKey name) viewFieldSQL] _ _ (fun w hw => ?_) s rfl n
    rw [mem_singleton.mp hw]
    exact (viewListKey_ne_viewMetaKey).symm

end Swytch.Sql
