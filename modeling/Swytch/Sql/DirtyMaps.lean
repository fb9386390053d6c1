import Swytch.Lib.Heap
import Swytch.Sql.Value

/-!
# The dirty-row maps in memory

`txDirtyRows` is a map of maps, so a session and its savepoint frames hold pointers: a frame
that shared an inner map with the session would change with the next write, and the damage
would only show when the frame is restored.  Here the pointers are kept.  Outer maps (table
to the set of its dirty keys) and inner maps (the keys) live in two heaps, `make` allocates,
and an assignment through a map writes a cell.

What the savepoints need is separation: no frame reaches a cell that the session writes.
Marking a row keeps it, and a copy made by `cloneDirtyRows` is out of reach of everything
there was.
-/

namespace Swytch.Sql

/-! ## 1.  The maps and what is reached from a pointer -/

variable {row : String × Bytes} {table : String} {set a : ℕ}

/-- The memory of `map[string]map[string]struct{}` values. -/
structure DirtyMaps where
  outer : Heap (List (String × ℕ))
  inner : Heap (List Bytes)

namespace DirtyMaps

variable {m m' : DirtyMaps} {ref ref' cur : Option ℕ} {refs : List (Option ℕ)}

/-- The entries of an outer map; a nil map has none. -/
def entries (m : DirtyMaps) : Option ℕ → List (String × ℕ)
  | none => []
  | some a => m.outer.read a

/-- The rows a map of maps holds. -/
def rows (m : DirtyMaps) (ref : Option ℕ) : Set (String × Bytes) :=
  {row | ∃ set, (row.1, set) ∈ m.entries ref ∧ row.2 ∈ m.inner.read set}

theorem mem_rows :
    row ∈ m.rows ref ↔ ∃ set, (row.1, set) ∈ m.entries ref ∧ row.2 ∈ m.inner.read set :=
  Iff.rfl

@[simp] theorem entries_none : m.entries none = [] := rfl

@[simp] theorem rows_none : m.rows none = ∅ := by
  simp [rows]

/-- A pointer to allocated maps, with one entry for a table. -/
structure Valid (m : DirtyMaps) (ref : Option ℕ) : Prop where
  outer_lt : ∀ a ∈ ref, a < m.outer.size
  inner_lt : ∀ e ∈ m.entries ref, e.2 < m.inner.size
  keys : ((m.entries ref).map Prod.fst).Nodup

/-- Two pointers that reach no common cell. -/
structure Apart (m : DirtyMaps) (ref ref' : Option ℕ) : Prop where
  outer : ∀ a ∈ ref, a ∉ ref'
  inner : ∀ e ∈ m.entries ref, ∀ e' ∈ m.entries ref', e.2 ≠ e'.2

theorem Valid.lookup_eq_some_iff (h : m.Valid ref) :
    (m.entries ref).lookup table = some set ↔ (table, set) ∈ m.entries ref := by
  constructor
  · intro hl
    obtain ⟨before, after, hsp, -⟩ := List.lookup_eq_some_iff.mp hl
    simp [hsp]
  · intro hmem
    obtain ⟨before, after, hsp⟩ := List.append_of_mem hmem
    refine List.lookup_eq_some_iff.mpr ⟨before, after, hsp, fun e he => ?_⟩
    have hks := h.keys
    rw [hsp, List.map_append, List.nodup_append'] at hks
    have hne : e.1 ≠ table := fun heq =>
      hks.2.2 (List.mem_map_of_mem he) (by simp [heq])
    simpa using hne.symm

theorem Apart.symm (h : m.Apart ref ref') : m.Apart ref' ref where
  outer a ha' ha := h.outer a ha ha'
  inner e' he' e he := (h.inner e he e' he').symm

/-- The session's pointer beside those of its frames: every table has an inner map of its
own, and no frame reaches what the session writes. -/
structure Separate (m : DirtyMaps) (cur : Option ℕ) (refs : List (Option ℕ)) : Prop where
  valid : m.Valid cur
  sets : ((m.entries cur).map Prod.snd).Nodup
  frames : ∀ ref ∈ refs, m.Valid ref ∧ m.Apart cur ref

theorem valid_none : m.Valid none where
  outer_lt a ha := by simp at ha
  inner_lt e he := by simp at he
  keys := List.nodup_nil

theorem apart_none : m.Apart none ref where
  outer a ha := by simp at ha
  inner e he := by simp at he

theorem separate_none_nil : m.Separate none [] where
  valid := valid_none
  sets := List.nodup_nil
  frames := by simp

theorem Separate.mono {refs' : List (Option ℕ)} (h : m.Separate cur refs)
    (hsub : refs' ⊆ refs) : m.Separate cur refs' :=
  { h with frames := fun ref href => h.frames ref (hsub href) }

/-! ## 2.  Writing through one pointer, seen from another -/

/-- What is reached from a pointer stays as it was. -/
structure Keeps (m m' : DirtyMaps) (ref : Option ℕ) : Prop where
  outer_le : m.outer.size ≤ m'.outer.size
  inner_le : m.inner.size ≤ m'.inner.size
  entries : m'.entries ref = m.entries ref
  sets : ∀ e ∈ m.entries ref, m'.inner.read e.2 = m.inner.read e.2

theorem Keeps.rows_eq (h : m.Keeps m' ref) : m'.rows ref = m.rows ref := by
  ext ⟨table, pk⟩
  simp only [mem_rows, h.entries]
  constructor
  · rintro ⟨set, hset, hpk⟩
    exact ⟨set, hset, h.sets _ hset ▸ hpk⟩
  · rintro ⟨set, hset, hpk⟩
    exact ⟨set, hset, (h.sets _ hset).symm ▸ hpk⟩

theorem Keeps.valid (h : m.Keeps m' ref) (hv : m.Valid ref) : m'.Valid ref where
  outer_lt a ha := (hv.outer_lt a ha).trans_le h.outer_le
  inner_lt e he := (hv.inner_lt e (h.entries ▸ he)).trans_le h.inner_le
  keys := h.entries.symm ▸ hv.keys

theorem Keeps.apart (h : m.Keeps m' ref) (h' : m.Keeps m' ref') (ha : m.Apart ref ref') :
    m'.Apart ref ref' where
  outer := ha.outer
  inner := by
    rw [h.entries, h'.entries]
    exact ha.inner

theorem keeps_of_extends (houter : m.outer.Extends m'.outer) (hinner : m.inner.Extends m'.inner)
    (hv : m.Valid ref) : m.Keeps m' ref where
  outer_le := houter.size_le
  inner_le := hinner.size_le
  entries := by
    cases ref with
    | none => rfl
    | some a => exact houter.read_eq (hv.outer_lt a rfl)
  sets e he := hinner.read_eq (hv.inner_lt e he)

theorem Separate.keeps (h : m.Separate cur refs)
    (hcur : m.Keeps m' cur) (hrf : ∀ ref ∈ refs, m.Keeps m' ref) : m'.Separate cur refs where
  valid := hcur.valid h.valid
  sets := hcur.entries.symm ▸ h.sets
  frames ref href :=
    ⟨(hrf ref href).valid (h.frames ref href).1,
      hcur.apart (hrf ref href) (h.frames ref href).2⟩

/-! ## 3.  `markRowDirty` and `cloneDirtyRows` on the maps -/

/-- The inner map of a table, made and entered when the table has none. -/
def tableSet (m : DirtyMaps) (a : ℕ) (table : String) : DirtyMaps × ℕ :=
  match (m.outer.read a).lookup table with
  | some set => (m, set)
  | none =>
    let (inner, set) := m.inner.alloc []
    (⟨m.outer.write a ((table, set) :: m.outer.read a), inner⟩, set)

/-- `set[pk] = struct{}{}`. -/
def addKey (m : DirtyMaps) (set : ℕ) (pk : Bytes) : DirtyMaps :=
  { m with inner := m.inner.write set ((m.inner.read set).insert pk) }

/-- Enters a row in the map at an address. -/
def mark (m : DirtyMaps) (a : ℕ) (table : String) (pk : Bytes) : DirtyMaps :=
  let (m, set) := m.tableSet a table
  m.addKey set pk

/-- The entries of a copy: every inner map is copied into a new one. -/
def cloneSets (inner : Heap (List Bytes)) :
    List (String × ℕ) → Heap (List Bytes) × List (String × ℕ)
  | [] => (inner, [])
  | (table, pks) :: src =>
    let (inner₁, cloned) := inner.alloc (inner.read pks)
    let (inner₂, out) := cloneSets inner₁ src
    (inner₂, (table, cloned) :: out)

/-- `cloneDirtyRows`: nil for an empty map, else a map of new maps. -/
def cloneDirtyRows (m : DirtyMaps) (src : Option ℕ) : DirtyMaps × Option ℕ :=
  match m.entries src with
  | [] => (m, none)
  | e :: es =>
    let (inner, out) := cloneSets m.inner (e :: es)
    let (outer, a) := m.outer.alloc out
    (⟨outer, inner⟩, some a)

/-- The map behind a pointer, made when the pointer is nil. -/
def make (m : DirtyMaps) : Option ℕ → DirtyMaps × ℕ
  | some a => (m, a)
  | none =>
    let (outer, a) := m.outer.alloc []
    (⟨outer, m.inner⟩, a)

/-- A new outer map whose inner maps are new is out of reach of every pointer there was. -/
theorem separate_fresh {out : List (String × ℕ)} {inner : Heap (List Bytes)}
    (hinner : m.inner.Extends inner) (hks : (out.map Prod.fst).Nodup)
    (hst : (out.map Prod.snd).Nodup) (hfr : ∀ e ∈ out, m.inner.size ≤ e.2 ∧ e.2 < inner.size)
    (hrf : ∀ ref ∈ refs, m.Valid ref) :
    (⟨(m.outer.alloc out).1, inner⟩ : DirtyMaps).Separate (some m.outer.size) refs := by
  let m₁ : DirtyMaps := ⟨(m.outer.alloc out).1, inner⟩
  have hes : m₁.entries (some m.outer.size) = out := m.outer.read_alloc_size _
  refine ⟨⟨?_, ?_, ?_⟩, ?_, ?_⟩
  · intro a ha
    obtain rfl : m.outer.size = a := Option.some.inj ha
    rw [Heap.size_alloc]
    exact Nat.lt_succ_self _
  · rw [hes]
    exact fun e he => (hfr e he).2
  · rw [hes]
    exact hks
  · rw [hes]
    exact hst
  · intro ref href
    have hv := hrf ref href
    have hkps : m.Keeps m₁ ref := keeps_of_extends (m.outer.extends_alloc _) hinner hv
    refine ⟨hkps.valid hv, ?_, ?_⟩
    · intro a ha ha'
      obtain rfl : m.outer.size = a := Option.some.inj ha
      exact lt_irrefl _ (hv.outer_lt _ ha')
    · rw [hes, hkps.entries]
      intro e he e' he'
      exact ((hv.inner_lt e' he').trans_le (hfr e he).1).ne'

theorem separate_make (h : m.Separate cur refs) :
    (m.make cur).1.Separate (some (m.make cur).2) refs ∧
      (m.make cur).1.rows (some (m.make cur).2) = m.rows cur ∧
      ∀ ref ∈ refs, m.Keeps (m.make cur).1 ref := by
  cases cur with
  | some a =>
    exact ⟨h, rfl, fun ref _ => ⟨le_rfl, le_rfl, rfl, fun _ _ => rfl⟩⟩
  | none =>
    have hmake : m.make none = (⟨(m.outer.alloc []).1, m.inner⟩, m.outer.size) := rfl
    rw [hmake]
    refine ⟨?_, ?_, fun ref href => ?_⟩
    · exact separate_fresh (Heap.Extends.refl _) List.nodup_nil List.nodup_nil (by simp)
        fun ref href => (h.frames ref href).1
    · simp [rows, entries]
    · exact keeps_of_extends (m.outer.extends_alloc []) (Heap.Extends.refl _)
        (h.frames ref href).1

theorem separate_tableSet (h : m.Separate (some a) refs) (table : String) :
    (m.tableSet a table).1.Separate (some a) refs ∧
      (m.tableSet a table).1.rows (some a) = m.rows (some a) ∧
      (table, (m.tableSet a table).2) ∈ (m.tableSet a table).1.entries (some a) ∧
      ∀ ref ∈ refs, m.Keeps (m.tableSet a table).1 ref := by
  cases hset : (m.outer.read a).lookup table with
  | some set =>
    have hm : m.tableSet a table = (m, set) := by simp [tableSet, hset]
    have hmem : (table, set) ∈ m.entries (some a) := h.valid.lookup_eq_some_iff.mp hset
    rw [hm]
    exact ⟨h, rfl, hmem, fun ref _ => ⟨le_rfl, le_rfl, rfl, fun _ _ => rfl⟩⟩
  | none =>
    let m₁ : DirtyMaps :=
      ⟨m.outer.write a ((table, m.inner.size) :: m.outer.read a), (m.inner.alloc []).1⟩
    have hm : m.tableSet a table = (m₁, m.inner.size) := by
      simp only [tableSet, hset]
      rfl
    have ha : a < m.outer.size := h.valid.outer_lt a rfl
    have hes : m₁.entries (some a) = (table, m.inner.size) :: m.entries (some a) :=
      Heap.read_write_self ha _
    have hrd : ∀ set < m.inner.size, m₁.inner.read set = m.inner.read set := fun set hset =>
      (m.inner.extends_alloc []).read_eq hset
    have hfr : ∀ e ∈ m.entries (some a), e.2 ≠ m.inner.size := fun e he =>
      (h.valid.inner_lt e he).ne
    -- The frames reach neither the outer map that is written nor the new inner one.
    have hkps : ∀ ref ∈ refs, m.Keeps m₁ ref := by
      intro ref href
      obtain ⟨hv, hapart⟩ := h.frames ref href
      refine ⟨by simp [m₁], by simp [m₁], ?_, fun e he => hrd _ (hv.inner_lt e he)⟩
      cases ref with
      | none => rfl
      | some b =>
        have hab : a ≠ b := by
          rintro rfl
          exact hapart.outer a rfl rfl
        exact Heap.read_write_of_ne hab _
    rw [hm]
    refine ⟨⟨⟨?_, ?_, ?_⟩, ?_, ?_⟩, ?_, ?_, hkps⟩
    · intro b hb
      exact (h.valid.outer_lt b hb).trans_le (by simp [m₁])
    · intro e he
      rw [hes, List.mem_cons] at he
      rw [Heap.size_alloc]
      rcases he with rfl | he
      · exact Nat.lt_succ_self _
      · exact (h.valid.inner_lt e he).trans (Nat.lt_succ_self _)
    · rw [hes, List.map_cons, List.nodup_cons]
      refine ⟨?_, h.valid.keys⟩
      intro hmem
      obtain ⟨⟨table', set⟩, he, rfl⟩ := List.mem_map.mp hmem
      simpa using List.lookup_eq_none_iff.mp hset _ he
    · rw [hes, List.map_cons, List.nodup_cons]
      refine ⟨?_, h.sets⟩
      intro hmem
      obtain ⟨e, he, heq⟩ := List.mem_map.mp hmem
      exact hfr e he heq
    · intro ref href
      obtain ⟨hv, hapart⟩ := h.frames ref href
      refine ⟨(hkps ref href).valid hv, hapart.outer, ?_⟩
      intro e he e' he'
      rw [(hkps ref href).entries] at he'
      rw [hes, List.mem_cons] at he
      rcases he with rfl | he
      · exact (hv.inner_lt e' he').ne'
      · exact hapart.inner e he e' he'
    · -- The new inner map is empty, so it adds no row.
      ext ⟨t, pk⟩
      simp only [mem_rows, hes, List.mem_cons]
      constructor
      · rintro ⟨set, ⟨-, rfl⟩ | hmem, hpk⟩
        · rw [show m₁.inner.read m.inner.size = [] from m.inner.read_alloc_size []] at hpk
          simp at hpk
        · exact ⟨set, hmem, hrd set (h.valid.inner_lt _ hmem) ▸ hpk⟩
      · rintro ⟨set, hmem, hpk⟩
        exact ⟨set, .inr hmem, (hrd set (h.valid.inner_lt _ hmem)).symm ▸ hpk⟩
    · rw [hes]
      exact List.mem_cons_self

theorem separate_addKey (h : m.Separate cur refs) (hmem : (table, set) ∈ m.entries cur)
    (pk : Bytes) :
    (m.addKey set pk).Separate cur refs ∧
      (m.addKey set pk).rows cur = insert (table, pk) (m.rows cur) ∧
      ∀ ref ∈ refs, m.Keeps (m.addKey set pk) ref := by
  have hset : set < m.inner.size := h.valid.inner_lt _ hmem
  have hes : ∀ ref, (m.addKey set pk).entries ref = m.entries ref := by
    intro ref
    cases ref <;> rfl
  have hse : (m.addKey set pk).inner.read set = (m.inner.read set).insert pk :=
    Heap.read_write_self hset _
  have ho : ∀ set' ≠ set, (m.addKey set pk).inner.read set' = m.inner.read set' :=
    fun set' hne => Heap.read_write_of_ne hne.symm _
  have hkps : ∀ ref ∈ refs, m.Keeps (m.addKey set pk) ref := by
    intro ref href
    refine ⟨le_rfl, by simp [addKey], hes ref, fun e he => ho _ ?_⟩
    exact ((h.frames ref href).2.inner _ hmem e he).symm
  refine ⟨⟨⟨h.valid.outer_lt, ?_, ?_⟩, ?_, ?_⟩, ?_, hkps⟩
  · intro e he
    simpa [addKey] using h.valid.inner_lt e he
  · exact h.valid.keys
  · exact h.sets
  · intro ref href
    obtain ⟨hv, hapart⟩ := h.frames ref href
    refine ⟨(hkps ref href).valid hv, hapart.outer, ?_⟩
    exact hapart.inner
  · -- The inner map written is the one of `table` and of no other table.
    ext ⟨t, pk'⟩
    simp only [Set.mem_insert_iff, Prod.mk.injEq]
    constructor
    · rintro ⟨set', hmem', hpk⟩
      by_cases heq : set' = set
      · subst heq
        have ht : (t, set') = (table, set') :=
          List.inj_on_of_nodup_map h.sets hmem' hmem rfl
        rw [hse, List.mem_insert_iff] at hpk
        rcases hpk with rfl | hpk
        · exact .inl ⟨congrArg Prod.fst ht, rfl⟩
        · exact .inr ⟨set', hmem', hpk⟩
      · exact .inr ⟨set', hmem', ho set' heq ▸ hpk⟩
    · rintro (⟨rfl, rfl⟩ | ⟨set', hmem', hpk⟩)
      · exact ⟨set, hmem, by rw [hse]; exact List.mem_insert_self⟩
      · refine ⟨set', hmem', ?_⟩
        by_cases heq : set' = set
        · subst heq
          rw [hse]
          exact List.mem_insert_of_mem hpk
        · exact (ho set' heq).symm ▸ hpk

theorem separate_mark (h : m.Separate (some a) refs) (table : String) (pk : Bytes) :
    (m.mark a table pk).Separate (some a) refs ∧
      (m.mark a table pk).rows (some a) = insert (table, pk) (m.rows (some a)) ∧
      ∀ ref ∈ refs, (m.mark a table pk).rows ref = m.rows ref := by
  obtain ⟨hsep, hr, hmem, hkps⟩ := separate_tableSet h table
  obtain ⟨hsep', hrows', hkeeps'⟩ := separate_addKey hsep hmem pk
  refine ⟨hsep', hrows'.trans (by rw [hr]), fun ref href => ?_⟩
  exact (hkeeps' ref href).rows_eq.trans (hkps ref href).rows_eq

/-- The inner maps of a copy are new, one for each table, and hold what the originals
hold. -/
theorem cloneSets_spec (inner : Heap (List Bytes)) (src : List (String × ℕ))
    (hsrc : ∀ e ∈ src, e.2 < inner.size) :
    inner.Extends (cloneSets inner src).1 ∧
      (cloneSets inner src).2.map Prod.fst = src.map Prod.fst ∧
      (∀ e ∈ (cloneSets inner src).2,
        inner.size ≤ e.2 ∧ e.2 < (cloneSets inner src).1.size) ∧
      ((cloneSets inner src).2.map Prod.snd).Nodup ∧
      (cloneSets inner src).2.map
          (fun e => (e.1, (cloneSets inner src).1.read e.2)) =
        src.map (fun e => (e.1, inner.read e.2)) := by
  induction src generalizing inner with
  | nil => exact ⟨Heap.Extends.refl _, rfl, by simp [cloneSets], List.nodup_nil, rfl⟩
  | cons e src ih =>
    obtain ⟨table, pks⟩ := e
    let inner₁ := (inner.alloc (inner.read pks)).1
    have hstep : inner.Extends inner₁ := inner.extends_alloc _
    have hlt : ∀ e ∈ src, e.2 < inner.size := fun e he => hsrc e (List.mem_cons_of_mem _ he)
    have hsz : inner₁.size = inner.size + 1 := inner.size_alloc _
    obtain ⟨hext, hks, hfr, hnd, hrd⟩ :=
      ih inner₁ fun e he => (hlt e he).trans_le hstep.size_le
    have hclone : cloneSets inner ((table, pks) :: src) =
        ((cloneSets inner₁ src).1, (table, inner.size) :: (cloneSets inner₁ src).2) := rfl
    have hnew : inner.size < inner₁.size := by omega
    rw [hclone]
    refine ⟨hstep.trans hext, by simp [hks], ?_, ?_, ?_⟩
    · intro e he
      rcases List.mem_cons.mp he with rfl | he
      · exact ⟨le_rfl, hnew.trans_le hext.size_le⟩
      · exact ⟨hnew.le.trans (hfr e he).1, (hfr e he).2⟩
    · rw [List.map_cons, List.nodup_cons]
      refine ⟨?_, hnd⟩
      intro hmem
      obtain ⟨e, he, heq⟩ := List.mem_map.mp hmem
      have := (hfr e he).1
      omega
    · have hh : (cloneSets inner₁ src).1.read inner.size = inner.read pks :=
        (hext.read_eq hnew).trans (inner.read_alloc_size _)
      have ht : src.map (fun e => (e.1, inner₁.read e.2)) =
          src.map (fun e => (e.1, inner.read e.2)) :=
        List.map_congr_left fun e he => by rw [hstep.read_eq (hlt e he)]
      rw [List.map_cons, List.map_cons, hh, hrd, ht]

theorem mem_rows_iff :
    row ∈ m.rows ref ↔
      ∃ e ∈ (m.entries ref).map (fun e => (e.1, m.inner.read e.2)), row.1 = e.1 ∧ row.2 ∈ e.2 := by
  simp only [List.mem_map]
  constructor
  · rintro ⟨set, hmem, hpk⟩
    exact ⟨_, ⟨_, hmem, rfl⟩, rfl, hpk⟩
  · rintro ⟨-, ⟨⟨table, set⟩, hmem, rfl⟩, hrow, hpk⟩
    exact ⟨set, hrow ▸ hmem, hpk⟩

/-- A copy holds the same rows in maps that nothing else reaches. -/
theorem cloneDirtyRows_spec {src : Option ℕ} (hsrc : m.Valid src) :
    m.outer.Extends (m.cloneDirtyRows src).1.outer ∧
      m.inner.Extends (m.cloneDirtyRows src).1.inner ∧
      (m.cloneDirtyRows src).1.rows (m.cloneDirtyRows src).2 = m.rows src ∧
      ∀ refs, (∀ ref ∈ refs, m.Valid ref) →
        (m.cloneDirtyRows src).1.Separate (m.cloneDirtyRows src).2 refs := by
  cases hes : m.entries src with
  | nil =>
    have hclone : m.cloneDirtyRows src = (m, none) := by simp [cloneDirtyRows, hes]
    rw [hclone]
    refine ⟨Heap.Extends.refl _, Heap.Extends.refl _, ?_, fun refs hrf => ?_⟩
    · simp [rows, hes]
    · exact ⟨valid_none, List.nodup_nil, fun ref href => ⟨hrf ref href, apart_none⟩⟩
  | cons e es =>
    have hlt : ∀ e' ∈ e :: es, e'.2 < m.inner.size := hes ▸ hsrc.inner_lt
    obtain ⟨hext, hks, hfr, hnd, hrd⟩ := cloneSets_spec m.inner (e :: es) hlt
    generalize hout : (cloneSets m.inner (e :: es)).2 = out at *
    generalize hinner : (cloneSets m.inner (e :: es)).1 = inner at *
    have hclone : m.cloneDirtyRows src =
        (⟨(m.outer.alloc out).1, inner⟩, some m.outer.size) := by
      simp only [cloneDirtyRows, hes]
      rw [show cloneSets m.inner (e :: es) = (inner, out) from Prod.ext hinner hout]
      rfl
    have hnew : (m.outer.alloc out).1.read m.outer.size = out := m.outer.read_alloc_size _
    rw [hclone]
    refine ⟨m.outer.extends_alloc _, hext, ?_, fun refs hrf => ?_⟩
    · ext row
      rw [mem_rows_iff, mem_rows_iff, hes, ← hrd]
      simp only [entries, hnew]
    · refine separate_fresh hext ?_ hnd hfr hrf
      rw [hks, ← hes]
      exact hsrc.keys

end DirtyMaps

end Swytch.Sql
