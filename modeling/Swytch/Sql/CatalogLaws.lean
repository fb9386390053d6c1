import Swytch.Sql.Catalog

/-!
# Reading back a stored schema

`emitSchema` writes the fields of a schema over whatever its key holds.  What `loadSchema`
then returns is the schema that was written, except that the mark of a synthetic key is
only ever set: a table without the mark inherits the one it finds.
-/

namespace Swytch.Sql

variable {name : String} {t : TableSchema} {s : Store}

open KeyedStore

/-- What `schemaFromSnapshot` accepts, and what it returns. -/
theorem schemaFromSnapshot_eq_ok_iff {r : Fields} :
    schemaFromSnapshot name r = .ok t ↔
      r.isEmpty = false ∧ schemaColumns name r = .ok t.columns ∧
        schemaPKColumns name r = .ok t.pkColumns ∧ schemaSyntheticPK r = t.syntheticPK ∧
        (t.pkColumns ≠ [] ∨ t.syntheticPK = true) ∧ schemaTableID r = t.tableID ∧
        t.tableID ≠ [] ∧ schemaIndexes name r = .ok t.indexes ∧ t.name = name := by
  unfold schemaFromSnapshot
  constructor
  · intro h
    split at h
    · cases h
    rename_i hnil
    split at h
    · cases h
    rename_i columns hcs
    split at h
    · cases h
    rename_i pkColumns hpk
    dsimp only at h
    split at h
    · cases h
    rename_i hkey
    split at h
    · cases h
    rename_i hid
    split at h
    · cases h
    rename_i indexes hidx
    cases h
    refine ⟨by simpa using hnil, hcs, hpk, rfl, ?_, rfl, hid, hidx, rfl⟩
    cases hsyn : schemaSyntheticPK r with
    | true => exact .inr rfl
    | false => exact .inl (by simpa [hsyn] using hkey)
  · rintro ⟨hnil, hcs, hpk, hsyn, hkey, hid, hne, hidx, rfl⟩
    have hkey' : ¬ (t.pkColumns.isEmpty && !t.syntheticPK) = true := by
      rcases hkey with hkey | hkey
      all_goals simp [hkey]
    simp only [hnil, hcs, hpk, hsyn, hid, hidx, if_neg hkey', if_neg hne, if_false,
      Bool.false_eq_true]

theorem storedSchema_eq_ok_iff :
    storedSchema s name = .ok t ↔
      ∃ r, s[schemaKey name]? = some r ∧ schemaFromSnapshot name r = .ok t := by
  unfold storedSchema schemaOfSnapshot
  cases s[schemaKey name]? with
  | none | some r => simp

theorem storedSchema_name (h : storedSchema s name = .ok t) : t.name = name := by
  obtain ⟨r, -, hr⟩ := storedSchema_eq_ok_iff.mp h
  exact (schemaFromSnapshot_eq_ok_iff.mp hr).2.2.2.2.2.2.2.2

/-! ## Schema fields -/

theorem schemaFieldsOf_nodup (t : TableSchema) :
    ((schemaFieldsOf t).map Prod.fst).Nodup := by
  unfold schemaFieldsOf
  cases t.syntheticPK <;> simp <;> decide

theorem tableListKey_ne_schemaKey (name : String) : tableListKey ≠ schemaKey name := by
  intro h
  have hh := congrArg List.head? h
  cases hh

theorem indexMetaKey_ne_schemaKey (index table : String) :
    indexMetaKey index ≠ schemaKey table := by
  intro h
  have hh := congrArg List.head? h
  cases hh

theorem indexListKey_ne_schemaKey (table : String) : indexListKey ≠ schemaKey table := by
  intro h
  have hh := congrArg List.head? h
  cases hh

/-- `emitSchema` writes catalog keys. -/
theorem isMetaKey_of_mem_schemaWrites {w : Write} (hw : w ∈ schemaWrites t) :
    IsMetaKey w.key := by
  rcases List.mem_append.mp hw with hw | hw
  · obtain ⟨_, -, rfl⟩ := mem_putAll.mp hw
    exact isMetaKey_schemaKey t.name
  · rw [List.mem_singleton.mp hw]
    exact isMetaKey_tableListKey

/-- What `emitSchema` does to the fields of its key. -/
theorem assigned_schemaWrites (t : TableSchema) (f : Bytes) :
    assigned (schemaWrites t) (schemaKey t.name) f = ((schemaFieldsOf t).lookup f).map some := by
  have hl : assigned [KeyedStore.Write.put tableListKey (utf8 t.name) (Payload.raw [1])]
      (schemaKey t.name) f = none :=
    assigned_eq_none fun w hw hk => by
      rw [List.mem_singleton.mp hw] at hk
      exact absurd hk (tableListKey_ne_schemaKey t.name)
  rw [schemaWrites, assigned_append, hl, Option.none_or,
    assigned_putAll _ (schemaFieldsOf_nodup t)]

@[simp] theorem lookup_schemaFieldTableID (t : TableSchema) :
    (schemaFieldsOf t).lookup schemaFieldTableID = some (.raw t.tableID) := rfl

@[simp] theorem lookup_schemaFieldColumns (t : TableSchema) :
    (schemaFieldsOf t).lookup schemaFieldColumns = some (.columnsDoc t.columns) := rfl

@[simp] theorem lookup_schemaFieldPK (t : TableSchema) :
    (schemaFieldsOf t).lookup schemaFieldPK = some (.ordinalsDoc t.pkColumns) := rfl

@[simp] theorem lookup_schemaFieldIndexes (t : TableSchema) :
    (schemaFieldsOf t).lookup schemaFieldIndexes = some (.indexesDoc t.indexes) := rfl

@[simp] theorem lookup_schemaFieldSyntheticPK (t : TableSchema) :
    (schemaFieldsOf t).lookup schemaFieldSyntheticPK =
      if t.syntheticPK then some (.raw [1]) else none := by
  obtain ⟨name, tid, cols, pk, idx, spk⟩ := t
  cases spk <;> rfl

/-- The mark of a synthetic key under a schema key, whatever else the key holds. -/
def spkMark (s : Store) (name : String) : Bool :=
  schemaSyntheticPK (s[schemaKey name]?.getD ∅)

theorem spkMark_eq (h : storedSchema s name = .ok t) : spkMark s name = t.syntheticPK := by
  obtain ⟨r, hr, hload⟩ := storedSchema_eq_ok_iff.mp h
  rw [spkMark, hr]
  exact (schemaFromSnapshot_eq_ok_iff.mp hload).2.2.2.1

/-- The snapshot of the schema key after `emitSchema`. -/
theorem exists_snapshot_schemaWrites (s : Store) (t : TableSchema) :
    ∃ r : Fields, (applyAll (schemaWrites t) s)[schemaKey t.name]? = some r ∧
      ∀ f, r[f]? = (((schemaFieldsOf t).lookup f).map some).getD
        ((s[schemaKey t.name]?.getD ∅)[f]?) := by
  have hmem : schemaKey t.name ∈ applyAll (schemaWrites t) s := by
    refine (mem_applyAll_iff ..).mpr (.inr ⟨.put (schemaKey t.name) schemaFieldTableID
      (.raw t.tableID), ?_, rfl⟩)
    exact List.mem_append_left _ (mem_putAll.mpr ⟨_, List.mem_cons_self .., rfl⟩)
  obtain ⟨r, hr⟩ := Option.isSome_iff_exists.mp (Std.ExtTreeMap.isSome_getElem?_iff_mem.mpr hmem)
  refine ⟨r, hr, fun f => ?_⟩
  have hb : cell s (schemaKey t.name) f = (s[schemaKey t.name]?.getD ∅)[f]? := by
    rw [cell]
    cases s[schemaKey t.name]? <;> simp
  rw [← cell_of_getElem? hr f, cell_applyAll, assigned_schemaWrites, hb]

/-- **A stored schema reads back**, up to a mark that was there before. -/
theorem storedSchema_schemaWrites (s : Store) (hid : t.tableID ≠ [])
    (hkey : t.pkColumns ≠ [] ∨ t.syntheticPK = true) :
    storedSchema (applyAll (schemaWrites t) s) t.name =
      .ok { t with syntheticPK := t.syntheticPK || spkMark s t.name } := by
  obtain ⟨r, hr, hfs⟩ := exists_snapshot_schemaWrites s t
  refine storedSchema_eq_ok_iff.mpr ⟨r, hr, schemaFromSnapshot_eq_ok_iff.mpr ?_⟩
  refine ⟨?_, ?_, ?_, ?_, ?_, ?_, hid, ?_, rfl⟩
  · have hs : r[schemaFieldTableID]? = some (.raw t.tableID) := by simp [hfs]
    rw [← Bool.not_eq_true, Std.ExtTreeMap.isEmpty_iff]
    rintro rfl
    simp at hs
  · simp [schemaColumns, hfs]
  · simp [schemaPKColumns, hfs]
  · rw [schemaSyntheticPK, hfs, lookup_schemaFieldSyntheticPK, spkMark, schemaSyntheticPK]
    cases t.syntheticPK <;> simp
  · rcases hkey with hkey | hkey
    · exact .inl hkey
    · exact .inr (by simp [hkey])
  · simp [schemaTableID, hfs]
  · simp [schemaIndexes, hfs]

/-- Re-emitting a schema with the mark of the stored one. -/
theorem storedSchema_reemit {t' : TableSchema}
    (h : storedSchema s name = .ok t) (hn : t'.name = name) (hid : t'.tableID ≠ [])
    (hkey : t'.pkColumns ≠ [] ∨ t'.syntheticPK = true)
    (hspk : t.syntheticPK = true → t'.syntheticPK = true) :
    storedSchema (applyAll (schemaWrites t') s) name = .ok t' := by
  subst hn
  rw [storedSchema_schemaWrites s hid hkey, spkMark_eq h]
  cases hsyn : t.syntheticPK with
  | false => simp
  | true =>
    obtain ⟨name, tid, cols, pk, idx, spk⟩ := t'
    simp_all

end Swytch.Sql
