import Swytch.Redis.KeyCommands

/-!
# Writing a snapshot again

`emitSnapshotAtKey` writes what a snapshot holds at another key, effect by effect: the value of a
scalar, the elements of a keyed collection with their times, or the ordered elements, and then the
type and the time of the key.  This module says what the other key holds afterwards.

The snapshots that can be there at all are those that effects build (`Reachable`).  The data of such
a snapshot are of its own kind, except that a keyed collection may have a scalar under it, and the
keys around a stream hold keyed collections without type and time.
-/

namespace Swytch.Redis

open Effect
open Option
open List
open Sql (Bytes utf8)

/-! ## 1.  The snapshots that effects build -/

/-- The data of a snapshot are of its kind, and a deleted key has none. -/
structure Snapshot.WellKinded (snap : Snapshot Bytes) : Prop where
  netAdds : snap.collection ≠ .keyed → snap.netAdds = ∅
  orderedElements : snap.collection ≠ .ordered → snap.orderedElements = []
  scalar : snap.collection = .ordered → snap.scalar = none
  removed : snap.op = .remove → snap.collection = .scalar

/-- A snapshot with keyed elements and nothing else. -/
structure Snapshot.OnlyKeyed (snap : Snapshot Bytes) : Prop where
  scalar : snap.scalar = none
  orderedElements : snap.orderedElements = []
  typeTag : snap.typeTag = .unspecified
  expiresAt : snap.expiresAt = none

open Snapshot (forInsert fresh setMeta forInsert_of_same forInsert_op)

/-- The effects that the keys around a stream get. -/
def Effect.OnlyKeyed : Effect Bytes → Prop
  | .noop => True
  | .metadata effect => effect.elementId.isSome
  | .data effect => effect.collection = .keyed ∨ effect.op = .remove ∧ effect.collection = .scalar

/-- The contexts that effects lead to. -/
inductive Reachable : Context Bytes → Prop where
  | empty : Reachable ⟨fun _ => none, []⟩
  | emit {ctx : Context Bytes} (hctx : Reachable ctx) {key : Bytes} {effect : Effect Bytes}
      (haround : ∀ stream : UserKey, Around stream key → effect.OnlyKeyed) :
      Reachable (ctx.emit key effect)

variable {ctx : Context Bytes} {key srcKey : Bytes} {snap : Snapshot Bytes}

section Built

variable {snap : Option (Snapshot Bytes)} {old new : Snapshot Bytes} {effect : Effect Bytes}

theorem Snapshot.wellKinded_fresh (collection : CollectionKind) :
    (fresh collection : Snapshot Bytes).WellKinded :=
  ⟨fun _ => rfl, fun _ => rfl, fun _ => rfl, fun h => nomatch h⟩

theorem Snapshot.wellKinded_removed : (Snapshot.removed : Snapshot Bytes).WellKinded :=
  ⟨fun _ => rfl, fun _ => rfl, fun _ => rfl, fun _ => rfl⟩

theorem Snapshot.WellKinded.forInsert (h : ∀ s, snap = some s → s.WellKinded)
    (collection : CollectionKind) : (forInsert snap collection).WellKinded := by
  unfold Snapshot.forInsert
  split
  · exact wellKinded_fresh collection
  · rename_i s
    split
    · exact wellKinded_fresh collection
    · split
      · exact h s rfl
      · refine ⟨fun _ => rfl, fun _ => rfl, fun hord => ?_, fun hop => nomatch hop⟩
        have hord : collection = .ordered := hord
        simp [hord]

theorem Snapshot.WellKinded.insert (h : old.WellKinded) (hop : old.op = .insert)
    (effect : DataEffect Bytes) (hk : old.collection = effect.collection) :
    (old.insert effect).WellKinded := by
  have hl : ∀ {p : Prop}, old.op = .remove → p := fun hrem => by
    rw [hop] at hrem
    cases hrem
  unfold Snapshot.insert
  split
  · rename_i hsc
    rw [hsc] at hk
    exact ⟨h.netAdds, h.orderedElements, fun hord => (nomatch hk.symm.trans hord), hl⟩
  · rename_i hkd
    rw [hkd] at hk
    exact ⟨fun hnot => absurd hk hnot, h.orderedElements, h.scalar, hl⟩
  · rename_i hord
    rw [hord] at hk
    exact ⟨h.netAdds, fun hnot => absurd hk hnot, h.scalar, hl⟩

theorem Snapshot.WellKinded.remove (h : old.WellKinded) (collection : CollectionKind)
    (id : Bytes) : (old.remove collection id).WellKinded := by
  unfold Snapshot.remove
  split
  · exact wellKinded_removed
  · refine ⟨fun hk => ?_, h.orderedElements, h.scalar, h.removed⟩
    rw [h.netAdds hk]
    rfl
  · split
    · refine ⟨h.netAdds, fun hk => ?_, h.scalar, h.removed⟩
      rw [h.orderedElements hk]
      rfl
    · exact ⟨h.netAdds, h.orderedElements, h.scalar, h.removed⟩

theorem Snapshot.WellKinded.setMeta (h : old.WellKinded) (effect : MetaEffect) :
    (old.setMeta effect).WellKinded := by
  unfold Snapshot.setMeta
  split
  · split
    · exact h
    · rename_i element hl
      -- only a keyed collection has the element
      refine ⟨fun hk => ?_, h.orderedElements, h.scalar, h.removed⟩
      rw [h.netAdds hk] at hl
      cases hl
  · exact ⟨h.netAdds, h.orderedElements, h.scalar, h.removed⟩

theorem Snapshot.WellKinded.apply (h : ∀ s, snap = some s → s.WellKinded)
    (ha : effect.apply snap = some new) : new.WellKinded := by
  unfold Effect.apply at ha
  split at ha
  · exact h new ha
  · split at ha
    · cases ha
      exact (wellKinded_fresh .scalar).setMeta _
    · rename_i old
      cases ha
      split
      · exact h old rfl
      · exact (h old rfl).setMeta _
  · rename_i effect
    split at ha
    · cases ha
      exact (WellKinded.forInsert h effect.collection).insert (forInsert_op _ _) effect
        (forInsert_collection _ _)
    · split at ha
      · cases ha
        exact wellKinded_removed
      · obtain ⟨old, hold, rfl⟩ := map_eq_some_iff.mp ha
        exact (h old hold).remove _ _

theorem Snapshot.onlyKeyed_fresh (collection : CollectionKind) :
    (fresh collection : Snapshot Bytes).OnlyKeyed :=
  ⟨rfl, rfl, rfl, rfl⟩

theorem Snapshot.OnlyKeyed.forInsert (h : ∀ s, snap = some s → s.OnlyKeyed) :
    (forInsert snap .keyed).OnlyKeyed := by
  unfold Snapshot.forInsert
  split
  · exact onlyKeyed_fresh .keyed
  · rename_i s
    split
    · exact onlyKeyed_fresh .keyed
    · split
      · exact h s rfl
      · exact ⟨(h s rfl).scalar, rfl, (h s rfl).typeTag, (h s rfl).expiresAt⟩

theorem Snapshot.OnlyKeyed.apply (h : ∀ s, snap = some s → s.OnlyKeyed)
    (heffect : effect.OnlyKeyed) (ha : effect.apply snap = some new) : new.OnlyKeyed := by
  have hsame : ∀ {s : Snapshot Bytes} {adds}, s.OnlyKeyed →
      ({ s with netAdds := adds } : Snapshot Bytes).OnlyKeyed := fun hs =>
    ⟨hs.scalar, hs.orderedElements, hs.typeTag, hs.expiresAt⟩
  have hm : ∀ {s : Snapshot Bytes} {effect : MetaEffect}, effect.elementId.isSome →
      s.OnlyKeyed → (s.setMeta effect).OnlyKeyed := by
    intro s effect hid hs
    obtain ⟨id, hid⟩ := isSome_iff_exists.mp hid
    simp only [setMeta, hid]
    split
    · exact hs
    · exact hsame hs
  unfold Effect.apply at ha
  split at ha
  · exact h new ha
  · split at ha
    · cases ha
      exact hm heffect (onlyKeyed_fresh .scalar)
    · rename_i old
      cases ha
      split
      · exact h old rfl
      · exact hm heffect (h old rfl)
  · rename_i effect
    split at ha
    · rename_i hop
      have hkd : effect.collection = .keyed := heffect.resolve_right fun hrem => by
        rw [hop] at hrem
        exact nomatch hrem.1
      cases ha
      have hb := OnlyKeyed.forInsert h
      simp only [Snapshot.insert, hkd]
      exact ⟨hb.scalar, hb.orderedElements, hb.typeTag, hb.expiresAt⟩
    · split at ha
      · cases ha
        exact ⟨rfl, rfl, rfl, rfl⟩
      · rename_i hnot
        have hkd : effect.collection = .keyed := heffect.resolve_right fun hrem =>
          hnot hrem.2
        obtain ⟨old, hold, rfl⟩ := map_eq_some_iff.mp ha
        rw [hkd]
        exact hsame (h old hold)

theorem Reachable.wellKinded (h : Reachable ctx) {snap : Snapshot Bytes}
    (hsn : ctx.snapshots key = some snap) : snap.WellKinded := by
  induction h generalizing key snap with
  | empty => cases hsn
  | @emit ctx hctx at_ effect har ih =>
    by_cases hkey : key = at_
    · subst hkey
      rw [Context.emit_snapshots_self] at hsn
      exact Snapshot.WellKinded.apply (fun s hs => ih hs) hsn
    · rw [Context.emit_snapshots_of_ne _ hkey] at hsn
      exact ih hsn

theorem Reachable.onlyKeyed (h : Reachable ctx) {stream : UserKey} (hkey : Around stream key)
    {snap : Snapshot Bytes} (hsn : ctx.snapshots key = some snap) : snap.OnlyKeyed := by
  induction h generalizing snap with
  | empty => cases hsn
  | @emit ctx hctx at_ effect har ih =>
    by_cases hsame : key = at_
    · subst hsame
      rw [Context.emit_snapshots_self] at hsn
      exact Snapshot.OnlyKeyed.apply (fun s hs => ih hs) (har stream hkey) hsn
    · rw [Context.emit_snapshots_of_ne _ hsame] at hsn
      exact ih hsn

end Built

/-! ## 2.  The elements of a collection, one after the other -/

/-- What a key holds after effects on it. -/
def replay (effects : List (Effect Bytes)) (snap : Option (Snapshot Bytes)) :
    Option (Snapshot Bytes) :=
  effects.foldl (fun snap effect => effect.apply snap) snap

@[simp] theorem replay_nil (snap : Option (Snapshot Bytes)) : replay [] snap = snap := rfl

variable {effects : List (Effect Bytes)} {effect : Effect Bytes}
    {entries : List (Σ _ : Bytes, Element Bytes)}

@[simp] theorem replay_cons {snap : Option (Snapshot Bytes)} :
    replay (effect :: effects) snap = replay effects (effect.apply snap) := rfl

theorem replay_append {rest : List (Effect Bytes)} {snap : Option (Snapshot Bytes)} :
    replay (effects ++ rest) snap = replay rest (replay effects snap) :=
  foldl_append

/-- Whatever the rule, raw bytes replace each other. -/
@[simp] theorem mergeValue_bytes (rule : MergeRule) (old new : Option Bytes) :
    mergeValue rule old new = new := by
  cases rule <;> cases old <;> cases new <;> rfl

section Elements

variable {old : Snapshot Bytes} {merge : MergeRule}

def insertAll (entries : List (Σ _ : Bytes, Element Bytes))
    (adds : AList (fun _ : Bytes => Element Bytes)) : AList (fun _ : Bytes => Element Bytes) :=
  entries.foldl (fun adds entry => adds.insert entry.1 entry.2) adds

theorem lookup_insertAll (h : entries.NodupKeys) (adds : AList (fun _ : Bytes => Element Bytes))
    (id : Bytes) :
    (insertAll entries adds).lookup id = (entries.dlookup id).or (adds.lookup id) := by
  induction entries generalizing adds with
  | nil => rfl
  | cons first entries ih =>
    obtain ⟨hf, hes⟩ := nodupKeys_cons.mp h
    show (insertAll entries (adds.insert first.1 first.2)).lookup id = _
    rw [ih hes]
    by_cases hid : id = first.1
    · subst hid
      rw [dlookup_cons_eq, AList.lookup_insert, dlookup_eq_none.mpr hf]
      rfl
    · rw [AList.lookup_insert_ne hid, dlookup_cons_ne _ _ hid]

/-- An element with its time is one more element. -/
theorem replay_elementEffects (hop : old.op = .insert) (hk : old.collection = .keyed)
    {entry : Σ _ : Bytes, Element Bytes} :
    replay (elementEffects merge entry) (some old) =
      some { old with merge := merge, netAdds := old.netAdds.insert entry.1 entry.2 } := by
  obtain ⟨id, value, expiresAt⟩ := entry
  have hb : forInsert (some old) .keyed = old := forInsert_of_same hop hk
  cases expiresAt with
  | none => simp [elementEffects, apply, Snapshot.insert, hb]
  | some time =>
    simp [elementEffects, apply, Snapshot.insert, hb, hop, setMeta]

theorem replay_elements (hop : old.op = .insert) (hk : old.collection = .keyed) :
    replay (entries.flatMap (elementEffects merge)) (some old) =
      some {
        old with
        merge := if entries = [] then old.merge else merge
        netAdds := insertAll entries old.netAdds } := by
  induction entries generalizing old with
  | nil => rfl
  | cons first entries ih =>
    rw [flatMap_cons, replay_append, replay_elementEffects hop hk, ih]
    · simp [insertAll]
    · exact hop
    · exact hk

theorem replay_ordered (hop : old.op = .insert) (hk : old.collection = .ordered)
    {elements : List (Bytes × Option Bytes)} :
    replay (elements.map fun element => .data {
        op := .insert, collection := .ordered, merge := merge, id := element.1,
        value := element.2 }) (some old) =
      some {
        old with
        merge := if elements = [] then old.merge else merge
        orderedElements := old.orderedElements ++ elements } := by
  induction elements generalizing old with
  | nil => simp
  | cons first elements ih =>
    have hb : forInsert (some old) .ordered = old :=
      forInsert_of_same hop hk
    rw [map_cons, replay_cons]
    simp only [apply, Snapshot.insert, hb]
    rw [ih]
    · simp
    · exact hop
    · exact hk

/-- An `INSERT` makes of a key first what it builds on. -/
theorem apply_insert_forInsert (snap : Option (Snapshot Bytes)) {effect : DataEffect Bytes}
    (hop : effect.op = .insert) : (data effect).apply snap =
      (data effect).apply (some (forInsert snap effect.collection)) := by
  have hsame := forInsert_of_same (forInsert_op snap effect.collection)
    (Snapshot.forInsert_collection snap effect.collection)
  simp only [apply, hop, hsame]

end Elements

/-! ## 3.  A whole snapshot -/

/-- The effects by which `emitSnapshotAtKey` writes the type and the time. -/
def metaEffects (snap : Snapshot Bytes) : List (Effect Bytes) :=
  (if snap.typeTag = .unspecified then [] else [.metadata { typeTag := snap.typeTag }]) ++
    match snap.expiresAt with
    | none => []
    | some time => [.metadata { expiresAt := some time }]

def Snapshot.HasData (snap : Snapshot Bytes) : Prop :=
  match snap.collection with
  | .scalar => snap.scalar ≠ none
  | .keyed => snap.netAdds ≠ ∅
  | .ordered => snap.orderedElements ≠ []

/-- The key was never written, or it is deleted. -/
def Blank (snap : Option (Snapshot Bytes)) : Prop :=
  ∀ s, snap = some s → s.op = .remove

section Whole

variable {old : Snapshot Bytes} {base : Option (Snapshot Bytes)}

theorem snapshotEffects_eq : snapshotEffects snap = dataEffects snap ++ metaEffects snap := by
  rw [snapshotEffects, append_assoc]
  all_goals rfl

theorem Blank.forInsert (h : Blank base) (collection : CollectionKind) :
    forInsert base collection = .fresh collection := by
  unfold Snapshot.forInsert
  split
  · rfl
  · rename_i s
    rw [if_pos (h s rfl)]

theorem tag_of_fresh {tag : ValueType} :
    (if tag = .unspecified then ValueType.unspecified else tag) = tag := by
  split
  · exact Eq.symm ‹_›
  · rfl

theorem replay_metaEffects (hop : old.op = .insert) :
    replay (metaEffects snap) (some old) =
      some {
        old with
        typeTag := if snap.typeTag = .unspecified then old.typeTag else snap.typeTag
        expiresAt := snap.expiresAt.or old.expiresAt } := by
  unfold metaEffects
  by_cases htag : snap.typeTag = .unspecified
  · cases hexpires : snap.expiresAt with
    | none => simp [htag]
    | some time => simp [htag, apply, hop, setMeta]
  · cases hexpires : snap.expiresAt with
    | none | some time => simp [htag, apply, hop, setMeta]

theorem replay_metaEffects_removed (hop : old.op = .remove) :
    replay (metaEffects snap) (some old) = some old := by
  unfold metaEffects
  by_cases htag : snap.typeTag = .unspecified
  · cases hexpires : snap.expiresAt with
    | none => simp [htag]
    | some time => simp [htag, apply, hop]
  · cases hexpires : snap.expiresAt with
    | none | some time => simp [htag, apply, hop]

/-- They make a key that was never written. -/
theorem replay_metaEffects_none (snap : Snapshot Bytes) :
    replay (metaEffects snap) none =
      if snap.typeTag = .unspecified ∧ snap.expiresAt = none then none
      else some {
        fresh .scalar with typeTag := snap.typeTag, expiresAt := snap.expiresAt } := by
  unfold metaEffects
  by_cases htag : snap.typeTag = .unspecified
  · cases hexpires : snap.expiresAt with
    | none => simp [htag]
    | some time => simp [htag, apply, setMeta, fresh]
  · cases hexpires : snap.expiresAt with
    | none | some time => simp [htag, apply, setMeta, fresh]

theorem replay_scalar (hbl : Blank base) (hk : snap.collection = .scalar) {value : Bytes}
    (hv : snap.scalar = some value) :
    replay (snapshotEffects snap) base =
      some {
        fresh .scalar with
        merge := snap.merge
        scalar := some value
        typeTag := snap.typeTag
        expiresAt := snap.expiresAt } := by
  have hd : replay (dataEffects snap) base =
      some { fresh .scalar with merge := snap.merge, scalar := some value } := by
    simp [dataEffects, hk, hv, apply, hbl.forInsert, Snapshot.insert]
  rw [snapshotEffects_eq, replay_append, hd, replay_metaEffects (by rfl)]
  simp [fresh, tag_of_fresh]

/-- The elements of a keyed collection, put into what is there. -/
theorem replay_keyed_data (base : Option (Snapshot Bytes)) (hk : snap.collection = .keyed)
    (hel : snap.netAdds ≠ ∅) :
    replay (dataEffects snap) base =
      some {
        forInsert base .keyed with
        merge := snap.merge
        netAdds := insertAll snap.netAdds.entries (forInsert base .keyed).netAdds } := by
  have hes : snap.netAdds.entries ≠ [] := fun h => hel (AList.ext h)
  have hf : replay (dataEffects snap) base =
      replay (dataEffects snap) (some (forInsert base .keyed)) := by
    simp only [dataEffects, hk]
    obtain ⟨first, rest, hcons⟩ := exists_cons_of_ne_nil hes
    rw [hcons, flatMap_cons, elementEffects, cons_append, replay_cons, replay_cons,
      apply_insert_forInsert base (by rfl)]
  rw [hf]
  simp only [dataEffects, hk]
  rw [replay_elements (forInsert_op _ _) (Snapshot.forInsert_collection _ _),
    if_neg hes]

theorem replay_keyed (hbl : Blank base) (hk : snap.collection = .keyed) (hel : snap.netAdds ≠ ∅) :
    replay (snapshotEffects snap) base =
      some {
        fresh .keyed with
        merge := snap.merge
        netAdds := insertAll snap.netAdds.entries ∅
        typeTag := snap.typeTag
        expiresAt := snap.expiresAt } := by
  rw [snapshotEffects_eq, replay_append, replay_keyed_data base hk hel, hbl.forInsert,
    replay_metaEffects (by rfl)]
  simp [fresh, tag_of_fresh]

theorem replay_ordered_snapshot (hbl : Blank base) (hk : snap.collection = .ordered)
    (hel : snap.orderedElements ≠ []) :
    replay (snapshotEffects snap) base =
      some {
        fresh .ordered with
        merge := snap.merge
        orderedElements := snap.orderedElements
        typeTag := snap.typeTag
        expiresAt := snap.expiresAt } := by
  have hf : replay (dataEffects snap) base =
      replay (dataEffects snap) (some (.fresh .ordered)) := by
    simp only [dataEffects, hk]
    obtain ⟨first, rest, hcons⟩ := exists_cons_of_ne_nil hel
    rw [hcons, map_cons, replay_cons, replay_cons, apply_insert_forInsert base (by rfl),
      hbl.forInsert]
  have hd : replay (dataEffects snap) base =
      some { fresh .ordered with
        merge := snap.merge, orderedElements := snap.orderedElements } := by
    rw [hf]
    simp only [dataEffects, hk]
    rw [replay_ordered rfl rfl, if_neg hel]
    rfl
  rw [snapshotEffects_eq, replay_append, hd, replay_metaEffects (by rfl)]
  simp [fresh, tag_of_fresh]

theorem dataEffects_eq_nil (h : ¬ snap.HasData) : dataEffects snap = [] := by
  unfold Snapshot.HasData at h
  unfold dataEffects
  split
  · rename_i hk
    simp only [hk, not_not] at h
    rw [h]
  all_goals
    rename_i hk
    simp only [hk, not_not] at h
    rw [h]
    rfl

theorem replay_without_data (h : ¬ snap.HasData) :
    replay (snapshotEffects snap) base = replay (metaEffects snap) base := by
  rw [snapshotEffects_eq, dataEffects_eq_nil h, nil_append]

end Whole

/-! ## 4.  The keys around a stream -/

/-- The key is around a stream. -/
def Internal (key : Bytes) : Prop := ∃ stream : UserKey, Around stream key

section Contexts

theorem UserKey.not_internal (user : UserKey) : ¬ Internal user :=
  fun ⟨stream, h⟩ => user.not_around stream h

section

variable (h : Reachable ctx)

include h

theorem Reachable.emitUser (key : UserKey) (effect : Effect Bytes) :
    Reachable (ctx.emit key effect) :=
  h.emit fun stream har => absurd har (key.not_around stream)

theorem Reachable.emitAll (heffects : ∀ effect ∈ effects, Internal key → effect.OnlyKeyed) :
    Reachable (emitAll key effects ctx) := by
  induction effects generalizing ctx with
  | nil => exact h
  | cons first effects ih =>
    have hf := h.emit fun stream har =>
      heffects first mem_cons_self ⟨stream, har⟩
    exact ih hf fun effect hmem => heffects effect (mem_cons_of_mem _ hmem)

theorem Reachable.emitDeleteKey (key : Bytes) : Reachable (ctx.emitDeleteKey key) :=
  h.emit fun _ _ => .inr ⟨rfl, rfl⟩

theorem Reachable.deleteAll (keys : List Bytes) : Reachable (deleteAll keys ctx) := by
  induction keys generalizing ctx with
  | nil => exact h
  | cons first keys ih => exact ih (h.emitDeleteKey first)

theorem Reachable.emitKeyedRemoves {fields : List Bytes} :
    Reachable (fields.foldl (fun ctx field => emitKeyedRemove key field ctx) ctx) := by
  induction fields generalizing ctx with
  | nil => exact h
  | cons first fields ih => exact ih (h.emit fun _ _ => .inl rfl)

theorem Reachable.cleanupStreamGroups (stream : Bytes) :
    Reachable (cleanupStreamGroups stream ctx) :=
  ((h.deleteAll _).deleteAll _).emitKeyedRemoves

theorem Reachable.pin (key : Bytes) : Reachable (ctx.pin key) := by
  unfold Context.pin
  split
  · exact h.emit fun _ _ => trivial
  · exact h

theorem Reachable.emitSnapshotAtKey (key : UserKey) (snap : Snapshot Bytes) :
    Reachable (emitSnapshotAtKey key snap ctx) :=
  h.emitAll fun _ _ hint => absurd hint key.not_internal

end

theorem metaEffects_of_onlyKeyed (h : snap.OnlyKeyed) : metaEffects snap = [] := by
  simp [metaEffects, h.typeTag, h.expiresAt]

theorem onlyKeyed_snapshotEffects (h : snap.OnlyKeyed) (hmem : effect ∈ snapshotEffects snap) :
    effect.OnlyKeyed := by
  rw [snapshotEffects_eq, metaEffects_of_onlyKeyed h, append_nil] at hmem
  unfold dataEffects at hmem
  split at hmem
  · simp [h.scalar] at hmem
  · obtain ⟨entry, -, he⟩ := mem_flatMap.mp hmem
    rcases mem_cons.mp he with rfl | hm
    · exact .inl rfl
    · split at hm
      · exact absurd hm not_mem_nil
      · rw [mem_singleton.mp hm]
        rfl
  · simp [h.orderedElements] at hmem

theorem Reachable.copyKey (h : Reachable ctx) (hsrc : Internal srcKey) (destKey : Bytes) :
    Reachable (copyKey srcKey destKey ctx) := by
  unfold Redis.copyKey
  split
  · exact h
  · rename_i snap hs
    obtain ⟨stream, har⟩ := hsrc
    exact h.emitAll fun effect hmem _ =>
      onlyKeyed_snapshotEffects (h.onlyKeyed har hs) hmem

/-- Copying an internal key lays its elements over those that are there. -/
theorem lookup_copyKey (h : Reachable ctx) {destKey : Bytes} (hsrc : Internal srcKey) (id : Bytes) :
    (netAddsOf (copyKey srcKey destKey ctx) destKey).lookup id =
      ((netAddsOf ctx srcKey).lookup id).or ((netAddsOf ctx destKey).lookup id) := by
  unfold Redis.copyKey
  split
  · rename_i hn
    simp [netAddsOf, hn]
  · rename_i snap hs
    obtain ⟨stream, har⟩ := hsrc
    have honly := h.onlyKeyed har hs
    have ha : (emitSnapshotAtKey destKey snap ctx).snapshots destKey =
        replay (dataEffects snap) (ctx.snapshots destKey) := by
      rw [emitSnapshotAtKey, emitAll_self, snapshotEffects_eq, metaEffects_of_onlyKeyed honly,
        append_nil]
      rfl
    have hsource : netAddsOf ctx srcKey = snap.netAdds := by simp only [netAddsOf, hs]
    rw [hsource]
    by_cases hd : snap.HasData
    · have hkd : snap.collection = .keyed ∧ snap.netAdds ≠ ∅ := by
        unfold Snapshot.HasData at hd
        cases hk : snap.collection with
        | scalar => simp [hk, honly.scalar] at hd
        | keyed => simpa [hk] using hd
        | ordered => simp [hk, honly.orderedElements] at hd
      have hb : (forInsert (ctx.snapshots destKey) .keyed).netAdds =
          netAddsOf ctx destKey := by
        unfold netAddsOf
        cases hdest : ctx.snapshots destKey with
        | none => rfl
        | some old =>
          have hold := h.wellKinded hdest
          by_cases hk : old.collection = .keyed
          · have hop : old.op = .insert := by
              cases hop : old.op with
              | insert => rfl
              | remove => exact nomatch hk.symm.trans (hold.removed hop)
            rw [forInsert_of_same hop hk]
          · show _ = old.netAdds
            rw [hold.netAdds hk]
            simp only [forInsert]
            split <;> rfl
      rw [replay_keyed_data _ hkd.1 hkd.2, hb] at ha
      rw [netAddsOf, ha]
      exact lookup_insertAll snap.netAdds.nodupKeys _ id
    · have hnil : snap.netAdds = ∅ := by
        by_cases hk : snap.collection = .keyed
        · simpa [Snapshot.HasData, hk] using hd
        · exact (h.wellKinded hs).netAdds hk
      rw [dataEffects_eq_nil hd] at ha
      rw [netAddsOf_congr ha, hnil, AList.lookup_empty, none_or]

end Contexts

end Swytch.Redis
