import Swytch.Sql.CatalogSteps

/-!
# What a dropped table leaves behind

`emitSchema` writes five fields under a schema key, the last of them, `spk`, for a table with
a synthetic key only.  `DROP TABLE` and `RENAME TO` remove four by name.  So a table with a
synthetic key leaves its mark behind, and the next table of the name that declares a key of
its own is read back as one without.
-/

namespace Swytch.Sql

open KeyedStore TxM

variable {s : Store} {name : String}

/-- The key of a schema holds what `emitSchema` writes, and nothing else. -/
structure HoldsSchema (s : Store) (t : TableSchema) : Prop where
  stored : storedSchema s t.name = .ok t
  fields : ∀ f, cell s (schemaKey t.name) f = (schemaFieldsOf t).lookup f

/-- No field is left under the schema key of a name, and a table created under it later, with
nothing written to the key in between, is read back as it was declared. -/
structure NoResidue (s : Store) (name : String) : Prop where
  no_fields : ∀ f, cell s (schemaKey name) f = none
  no_table : storedSchema s name = .error (.noSuchTable name)
  reads_back : ∀ (later : Store) (decl : TableDecl), later[schemaKey name]? = s[schemaKey name]? →
    decl.schema.name = name → (handleCreateTable decl.schema later).1 = .ok () →
    storedSchema (handleCreateTable decl.schema later).2 name = .ok decl.schema

/-- A key without fields is no table. -/
theorem storedSchema_of_no_fields (h : ∀ f, cell s (schemaKey name) f = none) :
    storedSchema s name = .error (.noSuchTable name) := by
  rw [storedSchema]
  cases hs : s[schemaKey name]? with
  | none => rfl
  | some r =>
    have hnil : r.isEmpty = true := by
      rw [Std.ExtTreeMap.isEmpty_iff]
      refine Std.ExtTreeMap.ext_getElem? fun f => ?_
      rw [← cell_of_getElem? hs, h f]
      simp
    rw [schemaOfSnapshot, schemaFromSnapshot, if_pos hnil]

theorem spkMark_of_no_fields
    (h : ∀ f, cell s (schemaKey name) f = none) : spkMark s name = false := by
  have hmark : (s[schemaKey name]?.getD ∅)[schemaFieldSyntheticPK]? = none := by
    rw [← h schemaFieldSyntheticPK, cell]
    cases s[schemaKey name]? <;> simp
  rw [spkMark, schemaSyntheticPK, hmark]

/-- **Nothing is left when no field is.** -/
theorem noResidue_iff_no_fields :
    NoResidue s name ↔ ∀ f, cell s (schemaKey name) f = none := by
  refine ⟨NoResidue.no_fields, fun h => ⟨h, storedSchema_of_no_fields h, ?_⟩⟩
  rintro later decl hlater rfl hok
  have hfs (f : Bytes) : cell later (schemaKey decl.schema.name) f = none := by
    rw [cell, hlater]
    exact h f
  rcases handleCreateTable_outcome decl.schema later with ⟨e, href⟩ | ⟨-, hid, hcreate⟩
  · rw [href] at hok
    cases hok
  · rw [hcreate]
    rw [storedSchema_schemaWrites later hid decl.keyed, spkMark_of_no_fields hfs,
      Bool.or_false]

section Removal

variable [Host] [Keytrie]

/-- The statements that take a table's name away. -/
inductive Removal where
  | drop (ifExists : Bool)
  | rename (newName : String)

/-- One of them, executed. -/
def Removal.exec (name : String) : Removal → Store → Except SqlError Unit × Store
  | .drop ifExists => handleDropTable name ifExists
  | .rename newName => handleAlterRenameTable name newName

/-- A rename is to another name. -/
def Removal.Departs (name : String) : Removal → Prop
  | .drop _ => True
  | .rename newName => equalFold name newName = false

/-- What a removal does to the schema key of its table. -/
theorem cell_removal {t : TableSchema} (ht : storedSchema s t.name = .ok t)
    {r : Removal} (hdeparts : r.Departs t.name) (hok : (r.exec t.name s).1 = .ok ()) (f : Bytes) :
    cell (r.exec t.name s).2 (schemaKey t.name) f =
      if f ∈ droppedSchemaFields then none else cell s (schemaKey t.name) f := by
  -- around the removed fields only other keys are written
  have hdrops {before after : List Write} (hb : ∀ w ∈ before, w.key ≠ schemaKey t.name)
      (ha : ∀ w ∈ after, w.key ≠ schemaKey t.name) :
      cell (applyAll (before ++ schemaDrops t.name ++ after) s) (schemaKey t.name) f =
        if f ∈ droppedSchemaFields then none else cell s (schemaKey t.name) f := by
    rw [cell_applyAll, assigned_append, assigned_append,
      assigned_eq_none fun w hw hkey => absurd hkey (ha w hw),
      assigned_eq_none fun w hw hkey => absurd hkey (hb w hw), assigned_schemaDrops]
    split <;> rfl
  cases r with
  | drop ifExists =>
    have hexec : handleDropTable t.name ifExists s =
        (.ok (), applyAll (dropTableWrites s t.name t) s) := by
      rw [handleDropTable, ht]
      exact runRMW_writes (run_dropTableBody t.name t s) (by simp)
    rw [Removal.exec, hexec]
    rw [dropTableWrites, ← List.append_nil (rowFieldDrops s t ++ _ ++ _)]
    refine hdrops (fun w hw => ?_) (by simp)
    rcases List.mem_append.mp hw with hw | hw
    · obtain ⟨rk, hrk, hw⟩ := List.mem_flatMap.mp hw
      obtain ⟨-, pk, rfl⟩ := mem_scanKeys_rowKeyPattern.mp hrk
      obtain ⟨_, -, rfl⟩ := mem_dropAll.mp hw
      exact ((isMetaKey_schemaKey _).ne_rowKey _ _).symm
    · exact schemaKey_ne_of_mem_dropIndexesWrites hw _
  | rename newName =>
    have hne : t.name ≠ newName := by
      intro hn
      rw [Removal.Departs, ← hn, equalFold_self] at hdeparts
      cases hdeparts
    rcases handleAlterRenameTable_outcome t.name newName s with
      ⟨e, href⟩ | ⟨hfold, -⟩ | ⟨-, -, t', ht', hexec⟩
    · rw [Removal.exec, href] at hok
      cases hok
    · exact absurd (hfold.symm.trans hdeparts) (by simp)
    · rw [Removal.exec, hexec]
      refine hdrops (fun w hw => ?_) fun w hw => ?_
      · rcases key_schemaWrites hw with hkey | hkey
        · rw [hkey]
          exact fun h => hne (schemaKey_inj.mp h).symm
        · rw [hkey]
          exact tableListKey_ne_schemaKey _
      · obtain ⟨idx, -, rfl⟩ := List.mem_map.mp hw
        exact indexMetaKey_ne_schemaKey _ _

/-- **A dropped or renamed table leaves no residue** exactly when its key was declared. -/
theorem noResidue_removal_iff {s : Store} {t : TableSchema} (ht : HoldsSchema s t) {r : Removal}
    (hdeparts : r.Departs t.name) (hok : (r.exec t.name s).1 = .ok ()) :
    NoResidue (r.exec t.name s).2 t.name ↔ t.syntheticPK = false := by
  rw [noResidue_iff_no_fields]
  simp only [cell_removal ht.stored hdeparts hok, ht.fields]
  constructor
  · intro h
    have hmark := h schemaFieldSyntheticPK
    rw [lookup_schemaFieldSyntheticPK] at hmark
    cases hsyn : t.syntheticPK with
    | false => rfl
    | true =>
      rw [hsyn] at hmark
      cases hmark
  · intro hsyn f
    by_cases hf : f ∈ droppedSchemaFields
    · rw [if_pos hf]
    · rw [if_neg hf, List.lookup_eq_none_iff]
      intro p hp
      rw [schemaFieldsOf, hsyn] at hp
      rw [bne_iff_ne]
      rintro rfl
      refine hf ?_
      have hfs := List.mem_map_of_mem (f := Prod.fst) hp
      exact hfs

end Removal

section Sample

local instance residueHost : Host := Host.inert

local instance residueKeytrie : Keytrie := Keytrie.ofPrefix

/-- `CREATE TABLE t (a INTEGER)`: no declared key. -/
def keylessDecl : TableDecl :=
  { schema :=
      { name := "t", tableID := [1], columns := [⟨"a", .integer, "INTEGER", false, false, none⟩]
        pkColumns := [], indexes := [], syntheticPK := true }
    keyed := Or.inr rfl
    no_indexes := rfl }

/-- `CREATE TABLE t (a INTEGER PRIMARY KEY)`. -/
def keyedDecl : TableDecl :=
  { schema :=
      { name := "t", tableID := [2], columns := [⟨"a", .integer, "INTEGER", false, true, none⟩]
        pkColumns := [0], indexes := [], syntheticPK := false }
    keyed := Or.inl (by simp)
    no_indexes := rfl }

/-- A table created on the empty store. -/
theorem holdsSchema_created (decl : TableDecl) (hid : decl.schema.tableID ≠ []) :
    HoldsSchema (applyAll (schemaWrites decl.schema) ∅) decl.schema := by
  have hnil (f : Bytes) : cell (∅ : Store) (schemaKey decl.schema.name) f = none :=
    cell_of_getElem?_eq_none (by simp) f
  constructor
  · rw [storedSchema_schemaWrites ∅ hid decl.keyed, spkMark_of_no_fields hnil, Bool.or_false]
  · intro f
    rw [cell_applyAll, assigned_schemaWrites]
    cases (schemaFieldsOf decl.schema).lookup f <;> rfl

/-- `CREATE TABLE t (a INTEGER)`, `DROP TABLE t`, `CREATE TABLE t (a INTEGER PRIMARY KEY)`: the
new table is read back without its key. -/
theorem dropped_mark_survives :
    HoldsSchema (applyAll (schemaWrites keylessDecl.schema) ∅) keylessDecl.schema ∧
      ((Removal.drop false).exec "t" (applyAll (schemaWrites keylessDecl.schema) ∅)).1 = .ok () ∧
      storedSchema (handleCreateTable keyedDecl.schema
        ((Removal.drop false).exec "t" (applyAll (schemaWrites keylessDecl.schema) ∅)).2).2 "t" =
          .ok { keyedDecl.schema with syntheticPK := true } ∧
      ¬ NoResidue
        ((Removal.drop false).exec "t" (applyAll (schemaWrites keylessDecl.schema) ∅)).2 "t" := by
  refine ⟨holdsSchema_created keylessDecl (by decide), by rfl, by rfl, fun h => ?_⟩
  exact absurd (h.no_fields schemaFieldSyntheticPK) (by decide)

/-- A table with a declared key goes without residue. -/
theorem noResidue_keyed : NoResidue
    ((Removal.drop false).exec "t" (applyAll (schemaWrites keyedDecl.schema) ∅)).2 "t" :=
  (noResidue_removal_iff (r := .drop false) (holdsSchema_created keyedDecl (by decide)) trivial
    (by rfl)).mpr rfl

end Sample

end Swytch.Sql
