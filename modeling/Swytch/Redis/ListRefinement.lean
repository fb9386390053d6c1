import Swytch.Redis.ListCommands

/-!
# The list commands are operations on sequences

A store shows every command the same contents: a key is missing, or it has a list, or it has
something else.  If the ids of each list are distinct and come from earlier readings of the clock,
then a command answers as its counterpart on sequences does, and what it emits leaves a store that
shows what the counterpart leaves.
-/

namespace Swytch.Redis.Lists

open Int64
open List
open Sql (Bytes)
open OrderedCollection
open Function (update_self update update_of_ne)
open ListStore (getSnapshot)
open Reference (writes place? places reads refusesCount posReply popReply)

variable {clock : ℕ} {snap : ListSnapshot} {s : ListStore} {key : Bytes} {l : List Bytes}

/-! ## 1.  Lists in a store -/

/-- The snapshot of a list.  An id that occurs in it does not occur twice, and was read off the
clock before. -/
structure IsList (clock : ℕ) (snap : ListSnapshot) : Prop where
  op : snap.op = .insert
  collection : snap.collection = .ordered
  tag : snap.typeTag = .list ∨ snap.typeTag = .unspecified
  nodup : (ids snap.orderedElements).Nodup
  lt : ∀ id ∈ ids snap.orderedElements, id < clock

/-- The snapshot of another value. -/
structure IsOther (snap : ListSnapshot) : Prop where
  op : snap.op = .insert
  ordered : snap.collection = .ordered →
    snap.orderedElements ≠ [] ∧ snap.typeTag ≠ .list ∧ snap.typeTag ≠ .unspecified
  scalar : snap.collection = .scalar → snap.typeTag ≠ .list

/-- Every key was removed, or holds a list or another value. -/
def WellFormed (s : ListStore) : Prop :=
  ∀ key snap, s.keys key = some snap → snap.op = .remove ∨ IsList s.clock snap ∨ IsOther snap

def contents (s : ListStore) (key : Bytes) : Content :=
  match getListSnapshot s key with
  | .absent => .sequence []
  | .wrongType => .other
  | .found snap => .sequence (values snap.orderedElements)

theorem IsList.mono {clock' : ℕ} (h : IsList clock snap)
    (hle : clock ≤ clock') : IsList clock' snap :=
  ⟨h.op, h.collection, h.tag, h.nodup, fun id hid => (h.lt id hid).trans_le hle⟩

/-- An `INSERT` into a list builds on it. -/
theorem IsList.forInsert_eq (h : IsList clock snap) :
    forInsert (some snap) = snap := by
  have hop : snap.op ≠ .remove := by
    rw [h.op]
    exact nofun
  rw [forInsert, if_neg hop, if_pos h.collection]

variable {expected : List Bytes → ListReply} {elements : List (ℕ × Bytes)} {maxlen : ℕ}
    {scanned : List ((ℕ × Bytes) × ℕ)} {element : Bytes}

/-- An `INSERT` may start a list. -/
theorem isList_fresh : IsList clock ⟨.insert, .ordered, .unspecified, []⟩ :=
  ⟨rfl, rfl, .inr rfl, nodup_nil, nofun⟩

theorem getListSnapshot_of_none (h : s.keys key = none) :
    getListSnapshot s key = .absent := by
  simp [getListSnapshot, getSnapshot, h]

theorem getListSnapshot_of_removed
    (h : s.keys key = some snap) (hop : snap.op = .remove) : getListSnapshot s key = .absent := by
  by_cases hnil : snap.collection = .ordered ∧ snap.orderedElements = []
  · simp [getListSnapshot, getSnapshot, h, hnil]
  · simp [getListSnapshot, getSnapshot, h, hnil, hop]

theorem getListSnapshot_of_list (h : s.keys key = some snap) (hl : IsList clock snap) :
    getListSnapshot s key = if snap.orderedElements = [] then .absent else .found snap := by
  have htag : ¬(snap.typeTag ≠ .list ∧ snap.typeTag ≠ .unspecified) := by
    rintro ⟨hlist', hunspecified⟩
    exact hl.tag.elim hlist' hunspecified
  split
  · rename_i hnil
    simp [getListSnapshot, getSnapshot, h, hl.collection, hnil]
  · rename_i hnil
    simp [getListSnapshot, getSnapshot, h, hl.collection, hnil, hl.op, htag]

theorem getListSnapshot_of_other (h : s.keys key = some snap) (ho : IsOther snap) :
    getListSnapshot s key = .wrongType := by
  have hk : ¬(snap.collection = .ordered ∧ snap.orderedElements = []) :=
    fun hnil => (ho.ordered hnil.1).1 hnil.2
  have hs : s.getSnapshot key = some snap := by
    simp [getSnapshot, h, hk]
  rw [getListSnapshot, hs]
  simp only [ho.op, reduceCtorEq, if_false]
  split
  · rename_i hord
    rw [if_pos (ho.ordered hord).2]
  · rw [if_neg fun hsc => ho.scalar hsc.1 hsc.2]

inductive Finds (s : ListStore) (key : Bytes) : Prop where
  | absent (hlookup : getListSnapshot s key = .absent)
      (hbase : IsList s.clock (forInsert (s.keys key)))
      (hempty : (forInsert (s.keys key)).orderedElements = [])
  | wrongType (hlookup : getListSnapshot s key = .wrongType)
  | found (snap : ListSnapshot) (hlookup : getListSnapshot s key = .found snap)
      (hkey : s.keys key = some snap) (hlist : IsList s.clock snap)
      (hne : snap.orderedElements ≠ [])

theorem WellFormed.finds (h : WellFormed s) (key : Bytes) : Finds s key := by
  cases hkey : s.keys key with
  | none =>
    refine .absent (getListSnapshot_of_none hkey) ?_ ?_
    · rw [hkey]
      exact isList_fresh
    · rw [hkey]
      rfl
  | some snap =>
    rcases h key snap hkey with hrem | hls | ho
    · have hb : forInsert (s.keys key) = ⟨.insert, .ordered, .unspecified, []⟩ := by
        rw [hkey, forInsert, if_pos hrem]
      refine .absent (getListSnapshot_of_removed hkey hrem) ?_ ?_
      · rw [hb]
        exact isList_fresh
      · rw [hb]
    · have hl := getListSnapshot_of_list hkey hls
      by_cases hnil : snap.orderedElements = []
      · -- the list was emptied: its snapshot is there, but the context drops it
        rw [if_pos hnil] at hl
        refine .absent hl ?_ ?_
        · rw [hkey, hls.forInsert_eq]
          exact hls
        · rw [hkey, hls.forInsert_eq]
          exact hnil
      · rw [if_neg hnil] at hl
        exact .found snap hl hkey hls hnil
    · exact .wrongType (getListSnapshot_of_other hkey ho)

theorem WellFormed.absent_of_contents (h : WellFormed s)
    (hnil : contents s key = .sequence []) : getListSnapshot s key = .absent := by
  rcases h.finds key with hl | hl | ⟨snap, hl, -, -, hne⟩
  · exact hl
  · rw [contents, hl] at hnil
    cases hnil
  · rw [contents, hl, Content.sequence.injEq] at hnil
    exact absurd (map_eq_nil_iff.mp hnil) hne

/-! ## 2.  One list is written -/

/-- From the first store to the second, the list under the key became this sequence. -/
structure Stores (s s' : ListStore) (key : Bytes) (l : List Bytes) : Prop where
  wellFormed : WellFormed s'
  contents_eq : contents s' = Function.update (contents s) key (.sequence l)

section Written

variable {s' s'' : ListStore} {m : List Bytes}

theorem Stores.refl (h : WellFormed s) (hl : contents s key = .sequence l) : Stores s s key l := by
  refine ⟨h, ?_⟩
  rw [← hl, Function.update_eq_self]

theorem Stores.trans (h : Stores s s' key l) (h' : Stores s' s'' key m) : Stores s s'' key m := by
  refine ⟨h'.wellFormed, ?_⟩
  rw [h'.contents_eq, h.contents_eq, Function.update_idem]

theorem Stores.contents_self (h : Stores s s' key l) : contents s' key = .sequence l := by
  rw [h.contents_eq, update_self]

section

variable (h : WellFormed s)

include h

/-- The effects leave a list under the key. -/
theorem stores_of_isList (hl : IsList clock snap) (hclock : s.clock ≤ clock) :
    Stores s ⟨update s.keys key (some snap), clock⟩ key (values snap.orderedElements) := by
  constructor
  · intro other found hf
    change update s.keys key (some snap) other = some found at hf
    by_cases ho : other = key
    · subst ho
      rw [update_self] at hf
      cases hf
      exact .inr (.inl hl)
    · rw [update_of_ne ho] at hf
      rcases h other found hf with hrem | hothers | hv
      · exact .inl hrem
      · exact .inr (.inl (hothers.mono hclock))
      · exact .inr (.inr hv)
  · funext other
    by_cases ho : other = key
    · subst ho
      have hkey : (update s.keys other (some snap)) other = some snap :=
        update_self ..
      rw [contents, getListSnapshot_of_list hkey hl]
      by_cases hnil : snap.orderedElements = []
      all_goals simp [hnil]
    · have hsame : getListSnapshot ⟨update s.keys key (some snap), clock⟩ other =
          getListSnapshot s other := by
        simp [getListSnapshot, getSnapshot, update_of_ne ho]
      rw [update_of_ne ho, contents, hsame, contents]

/-- What an `INSERT` builds on is what the key shows. -/
theorem WellFormed.forInsert_of_contents (hl : contents s key = .sequence l) :
    IsList s.clock (forInsert (s.keys key)) ∧
      values (forInsert (s.keys key)).orderedElements = l := by
  rcases h.finds key with ⟨hlook, hb, hnil⟩ | hlook | ⟨snap, hlook, hkey, hls, -⟩
  · rw [contents, hlook, Content.sequence.injEq] at hl
    exact ⟨hb, by rw [hnil, ← hl, values_nil]⟩
  · rw [contents, hlook] at hl
    cases hl
  · rw [contents, hlook, Content.sequence.injEq] at hl
    rw [hkey, hls.forInsert_eq]
    exact ⟨hls, hl⟩

/-- A new element somewhere in the list. -/
theorem stores_insert (placement : ListPlacement) (value : Bytes)
    (hb : IsList s.clock (forInsert (s.keys key)))
    (hpm : (place placement (s.clock, value) (forInsert (s.keys key)).orderedElements).Perm
      ((s.clock, value) :: (forInsert (s.keys key)).orderedElements)) :
    Stores s (emitListInsert key placement value s) key
      (values (place placement (s.clock, value) (forInsert (s.keys key)).orderedElements)) := by
  have hids : (ids (place placement (s.clock, value) (forInsert (s.keys key)).orderedElements)).Perm
      (s.clock :: ids (forInsert (s.keys key)).orderedElements) := hpm.map Prod.fst
  -- the id is the reading of the clock, which no element has
  have hfr : s.clock ∉ ids (forInsert (s.keys key)).orderedElements :=
    fun hmem => lt_irrefl _ (hb.lt _ hmem)
  refine stores_of_isList h ⟨hb.op, hb.collection, hb.tag, ?_, ?_⟩ (Nat.le_succ _)
  · exact hids.nodup_iff.mpr (nodup_cons.mpr ⟨hfr, hb.nodup⟩)
  · intro id hid
    rcases mem_cons.mp (hids.mem_iff.mp hid) with rfl | hold
    · exact Nat.lt_succ_self _
    · exact (hb.lt id hold).trans (Nat.lt_succ_self _)

/-- A new element at an end of the list. -/
theorem stores_end (hl : contents s key = .sequence l) (left : Bool) (value : Bytes) :
    Stores s (emitListInsert key (if left then .head else .tail) value s) key
      (Reference.pushEnd left value l) := by
  obtain ⟨hb, rfl⟩ := h.forInsert_of_contents hl
  cases left with
  | true => exact stores_insert h .head value hb (.refl _)
  | false =>
    have hst := stores_insert h .tail value hb (perm_append_singleton _ _)
    rwa [place, values_append] at hst

theorem stores_typeTag (hkey : s.keys key = some snap) (hl : IsList s.clock snap) :
    Stores s (emitListTypeTag key s) key (values snap.orderedElements) := by
  have hop : snap.op ≠ .remove := by
    rw [hl.op]
    exact nofun
  have hemit : emitListTypeTag key s =
      ⟨update s.keys key (some { snap with typeTag := .list }), s.clock⟩ := by
    rw [emitListTypeTag, ListStore.emit, hkey, ListEffect.apply]
    simp only [if_neg hop]
  have htag : IsList s.clock { snap with typeTag := .list } :=
    ⟨hl.op, hl.collection, .inl rfl, hl.nodup, hl.lt⟩
  rw [hemit]
  exact stores_of_isList h htag le_rfl

omit h in
theorem emit_noop : s.emit key .noop = s := by
  rw [ListStore.emit, ListEffect.apply, Function.update_eq_self]

theorem stores_remove (hkey : s.keys key = some snap)
    (hls : IsList s.clock snap) (elements : List (ℕ × Bytes)) :
    Stores s (removeElements key elements s) key
      (values (removeAll (ids elements) snap.orderedElements)) := by
  -- the loop removes one id after the other from the collection
  have hloop : ∀ (elements : List (ℕ × Bytes)) (s : ListStore) (snap : ListSnapshot),
      s.keys key = some snap →
      elements.foldl (fun s element => emitListRemove key element.1 s) s =
        ⟨update s.keys key (some { snap with
          orderedElements := removeAll (ids elements) snap.orderedElements }), s.clock⟩ := by
    intro elements
    induction elements with
    | nil =>
      intro s snap hkey
      show s = ⟨update s.keys key (some snap), s.clock⟩
      rw [← hkey, Function.update_eq_self]
    | cons element elements ih =>
      intro s snap hkey
      have hnext : (emitListRemove key element.1 s).keys key = some { snap with
          orderedElements := OrderedCollection.remove element.1 snap.orderedElements } := by
        simp [emitListRemove, ListStore.emit, ListEffect.apply, hkey]
      rw [foldl_cons, ih _ _ hnext, emitListRemove, ListStore.emit, Function.update_idem]
      rfl
  have hsub := ids_removeAll_sublist (ids elements) snap.orderedElements
  have hl : IsList s.clock { snap with
      orderedElements := removeAll (ids elements) snap.orderedElements } :=
    ⟨hls.op, hls.collection, hls.tag, hls.nodup.sublist hsub,
      fun id hid => hls.lt id (hsub.subset hid)⟩
  rw [removeElements, emit_noop, hloop elements s snap hkey]
  exact stores_of_isList h hl le_rfl

theorem stores_update (hkey : s.keys key = some snap)
    (hl : IsList s.clock snap) (id : ℕ) {value : Bytes} :
    Stores s (emitListUpdate key id value s) key
      (values (OrderedCollection.update id value snap.orderedElements)) := by
  have hemit : emitListUpdate key id value s = ⟨update s.keys key (some { snap with
      orderedElements := OrderedCollection.update id value snap.orderedElements }), s.clock⟩ := by
    rw [emitListUpdate, ListStore.emit, hkey, ListEffect.apply, hl.forInsert_eq]
    rfl
  have hids := ids_update id value snap.orderedElements
  have hupdated : IsList s.clock { snap with
      orderedElements := OrderedCollection.update id value snap.orderedElements } := by
    refine ⟨hl.op, hl.collection, hl.tag, ?_, ?_⟩
    · rw [hids]
      exact hl.nodup
    · rw [hids]
      exact hl.lt
  rw [hemit]
  exact stores_of_isList h hupdated le_rfl

theorem stores_push (hl : contents s key = .sequence l) (left : Bool) (elements : List Bytes) :
    Stores s (pushElements key (if left then .head else .tail) elements s) key
      (if left then elements.reverse ++ l else l ++ elements) := by
  induction elements generalizing s l with
  | nil =>
    rw [reverse_nil, nil_append, append_nil, ite_self]
    exact .refl h hl
  | cons element elements ih =>
    have hf := stores_end h hl left element
    have hr := ih hf.wellFormed hf.contents_self
    cases left with
    | true =>
      rw [if_pos rfl, reverse_cons, append_assoc]
      exact hf.trans hr
    | false => exact append_assoc l [element] elements ▸ hf.trans hr

end

theorem Stores.typeTag (h : Stores s s' key l) (hl : l ≠ []) :
    Stores s (emitListTypeTag key s') key l := by
  have hse := h.contents_self
  rcases h.wellFormed.finds key with hlook | hlook | ⟨snap, hlook, hkey, hls, -⟩
  · rw [contents, hlook, Content.sequence.injEq] at hse
    exact absurd hse.symm hl
  · rw [contents, hlook] at hse
    cases hse
  · rw [contents, hlook, Content.sequence.injEq] at hse
    have htag := stores_typeTag h.wellFormed hkey hls
    rw [hse] at htag
    exact h.trans htag

end Written

/-! ## 3.  Commands that read one list -/

/-- The command answers as its counterpart does, and leaves a store that shows the same. -/
structure Simulates (result : ListReply × ListStore) (expected : ListReply × (Bytes → Content)) :
    Prop where
  reply : result.1 = expected.1
  contents_eq : contents result.2 = expected.2
  wellFormed : WellFormed result.2

variable {options : List PosOption} {pushed order' : List Bytes → List Bytes}
    {placement : ListPlacement} {rest : List Bytes} {first : Bytes}
    {order : List (ℕ × Bytes) → List (ℕ × Bytes)}

section Reading

variable {parsed : PosOptions}

/-- A command that writes one list is one on sequences if it does what that one does on a list and,
without a list, what that one does on the empty sequence. -/
theorem simulates_writes (h : WellFormed s) (absent : ListReply × ListStore)
    (found : ListSnapshot → ListReply × ListStore) (expected : List Bytes → ListReply × List Bytes)
    (hab : contents s key = .sequence [] →
      absent.1 = (expected []).1 ∧ Stores s absent.2 key (expected []).2)
    (hf : ∀ snap, s.keys key = some snap → IsList s.clock snap → snap.orderedElements ≠ [] →
      contents s key = .sequence (values snap.orderedElements) →
      (found snap).1 = (expected (values snap.orderedElements)).1 ∧
        Stores s (found snap).2 key (expected (values snap.orderedElements)).2) :
    Simulates (match getListSnapshot s key with
      | .absent => absent
      | .wrongType => (wrongType, s)
      | .found snap => found snap) (writes key expected (contents s)) := by
  rcases h.finds key with hl | hl | ⟨snap, hl, hkey, hls, hne⟩
  · have hc : contents s key = .sequence [] := by rw [contents, hl]
    obtain ⟨hr, hst⟩ := hab hc
    rw [writes, hc, hl]
    exact ⟨hr, hst.contents_eq, hst.wellFormed⟩
  · have hc : contents s key = .other := by rw [contents, hl]
    rw [writes, hc, hl]
    exact ⟨rfl, rfl, h⟩
  · have hc : contents s key = .sequence (values snap.orderedElements) := by
      rw [contents, hl]
    obtain ⟨hr, hst⟩ := hf snap hkey hls hne hc
    rw [writes, hc, hl]
    exact ⟨hr, hst.contents_eq, hst.wellFormed⟩

theorem reads_eq_writes {st : Bytes → Content} :
    reads key expected st = writes key (fun l => (expected l, l)) st := by
  unfold reads writes
  cases hcontent : st key with
  | other => rfl
  | sequence l =>
    have hsame : update st key (.sequence l) = st := hcontent ▸ Function.update_eq_self key st
    dsimp only
    rw [hsame]

theorem simulates_reads (h : WellFormed s) {absent : ListReply} {found : ListSnapshot → ListReply}
    (hab : absent = expected []) (hf : ∀ snap, snap.orderedElements ≠ [] →
      found snap = expected (values snap.orderedElements)) :
    Simulates (match getListSnapshot s key with
      | .absent => absent
      | .wrongType => wrongType
      | .found snap => found snap, s) (reads key expected (contents s)) := by
  have hwrites := simulates_writes h (absent, s) (fun snap => (found snap, s))
    (fun l => (expected l, l)) (fun hc : contents s key = _ => ⟨hab, .refl h hc⟩)
    fun snap _ _ hne hc => ⟨hf snap hne, .refl h hc⟩
  rw [← reads_eq_writes] at hwrites
  cases hl : getListSnapshot s key with
  | absent | wrongType | found snap => rwa [hl] at hwrites

theorem handleLLen_simulates (h : WellFormed s) :
    Simulates (handleLLen key s, s)
      (reads key (fun l => .integer l.length) (contents s)) := by
  refine simulates_reads h rfl fun snap _ => ?_
  rw [length_values]

/-- The ends that the handlers compute enclose the places of the slice. -/
theorem slice_eq_clamped {start stop : Int64} :
    Reference.slice l start stop =
      atPlaces (fun i => decide ((clampEnds l.length start stop).1 ≤ i ∧
        (i : ℤ) ≤ (clampEnds l.length start stop).2)) l := by
  apply atPlaces_congr
  intro i hi
  have hsame : ∀ index, fromEnd l.length index = Reference.position l.length index := fun _ => rfl
  simp only [clampEnds, hsame]
  apply decide_eq_decide.mpr
  all_goals omega

theorem slice_eq {start stop : Int64} :
    Reference.slice l start stop =
      if (clampEnds l.length start stop).1 > (clampEnds l.length start stop).2 then []
      else (l.drop (clampEnds l.length start stop).1.toNat).take
        ((clampEnds l.length start stop).2 + 1 - (clampEnds l.length start stop).1).toNat := by
  have hnn : 0 ≤ (clampEnds l.length start stop).1 := by
    simp only [clampEnds]
    split
    · exact le_rfl
    · omega
  rw [slice_eq_clamped]
  generalize clampEnds l.length start stop = ends at hnn
  obtain ⟨lo, hi⟩ := ends
  split
  · rename_i hcr
    have hn : (fun i : ℕ => decide (lo ≤ i ∧ (i : ℤ) ≤ hi)) = fun _ => false := by
      funext i
      apply decide_eq_false
      rintro ⟨hlo, hhi⟩
      exact absurd (hlo.trans hhi) (not_le.mpr hcr)
    rw [hn, atPlaces, filter_false, map_nil]
  · have hplaces : (fun i : ℕ => decide (lo ≤ i ∧ (i : ℤ) ≤ hi)) =
        fun i => decide (lo.toNat ≤ i ∧ i ≤ hi.toNat) := by
      funext i
      apply decide_eq_decide.mpr
      omega
    have hwidth : (hi + 1 - lo).toNat = hi.toNat + 1 - lo.toNat := by omega
    rw [hplaces, atPlaces_between, hwidth]

theorem handleLRange_simulates (h : WellFormed s) (start stop : Int64) :
    Simulates (handleLRange key start stop s, s)
      (reads key (fun l => .array (Reference.slice l start stop)) (contents s)) := by
  refine simulates_reads h rfl fun snap hne => ?_
  have hlen : snap.orderedElements.length ≠ 0 := mt eq_nil_of_length_eq_zero hne
  rw [slice_eq, length_values]
  simp only [if_neg hlen]
  split
  · rfl
  · rw [values_take, values_drop]

theorem elementAt_eq {index : Int64} :
    elementAt elements index =
      (place? (values elements) index).bind fun i => elements[i]? := by
  have hsame : fromEnd elements.length index = Reference.position elements.length index := rfl
  rw [elementAt, place?, length_values, hsame]
  generalize Reference.position elements.length index = i
  by_cases hin : 0 ≤ i ∧ i < elements.length
  · rw [if_neg (by omega), if_pos hin, Option.bind_some]
  · rw [if_pos (by omega), if_neg hin, Option.bind_none]

theorem handleLIndex_simulates (h : WellFormed s) (index : Int64) :
    Simulates (handleLIndex key index s, s)
      (Reference.run (contents s) (.lindex key index)) := by
  apply simulates_reads h
  · have hn : (place? [] index).bind (fun i => ([] : List Bytes)[i]?) = none := by
      cases place? [] index with
      | none | some i => rfl
    rw [hn]
  · intro snap _
    have hv : ((place? (values snap.orderedElements) index).bind fun i =>
        (values snap.orderedElements)[i]?) =
          (elementAt snap.orderedElements index).map Prod.snd := by
      rw [elementAt_eq, Option.map_bind]
      apply congrArg (Option.bind _)
      funext i
      exact getElem?_map
    rw [hv]
    cases elementAt snap.orderedElements index with
    | none | some element => rfl

/-- The first candidates that the loop of `handleLPos` looks at. -/
def window {β : Type*} (maxlen comparisons : ℕ) (scanned : List β) : List β :=
  if maxlen = 0 then scanned else scanned.take (maxlen - comparisons)

theorem window_cons {β : Type*} {comparisons : ℕ} {x : β} {l : List β}
    (h : ¬(maxlen > 0 ∧ comparisons ≥ maxlen)) :
    window maxlen comparisons (x :: l) = x :: window maxlen (comparisons + 1) l := by
  rw [window, window]
  by_cases h0 : maxlen = 0
  · rw [if_pos h0, if_pos h0]
  · have hl : maxlen - comparisons = (maxlen - (comparisons + 1)) + 1 := by omega
    rw [if_neg h0, if_neg h0, hl, take_succ_cons]

/-- The loop adds the matches after the first ones, up to the number that is needed. -/
theorem searchMatches_eq {needed : ℕ} :
    ∀ (skip comparisons : ℕ) (found : List ℕ), found.length < needed →
      searchMatches element maxlen needed scanned skip comparisons found =
        found ++ ((((window maxlen comparisons scanned).filter fun x => x.1.2 = element).map
          Prod.snd).drop skip).take (needed - found.length) := by
  induction scanned with
  | nil =>
    simp [searchMatches, window]
  | cons x scanned ih =>
    obtain ⟨candidate, idx⟩ := x
    intro skip comparisons found hneeded
    rw [searchMatches]
    by_cases hsp : maxlen > 0 ∧ comparisons ≥ maxlen
    · have hn : window maxlen comparisons ((candidate, idx) :: scanned) = [] := by
        rw [window, if_neg (by omega), Nat.sub_eq_zero_of_le hsp.2, take_zero]
      rw [if_pos hsp, hn]
      simp
    · rw [if_neg hsp, window_cons hsp]
      by_cases hm : candidate.2 = element
      · rw [if_pos hm, filter_cons_of_pos (by simpa using hm), map_cons]
        cases skip with
        | succ skip =>
          rw [if_pos (Nat.succ_pos _), Nat.add_sub_cancel, ih _ _ _ hneeded, drop_succ_cons]
        | zero =>
          have hlen : (found ++ [idx]).length = found.length + 1 := length_append
          have hone : needed - found.length = (needed - (found ++ [idx]).length) + 1 := by omega
          rw [if_neg (lt_irrefl _), drop_zero, hone, take_succ_cons]
          by_cases hf : (found ++ [idx]).length ≥ needed
          · rw [if_pos hf, Nat.sub_eq_zero_of_le hf, take_zero]
          · rw [if_neg hf, ih _ _ _ (not_le.mp hf), append_assoc]
            rfl
      · rw [if_neg hm, filter_cons_of_neg (by simpa using hm), ih _ _ _ hneeded]

/-- The matches among the elements are those among the values. -/
theorem filter_window_values :
    ((window maxlen 0 scanned).filter fun x => x.1.2 = element).map Prod.snd =
      ((window maxlen 0 (scanned.map fun x => (x.1.2, x.2))).filter fun x => x.1 = element).map
        Prod.snd := by
  have hwindow : window maxlen 0 (scanned.map fun x => (x.1.2, x.2)) =
      (window maxlen 0 scanned).map fun x => (x.1.2, x.2) := by
    rw [window, window]
    split
    · rfl
    · rw [map_take]
  rw [hwindow, filter_map, map_map]
  rfl

/-- The negation of a rank does not overflow, since the only one for which it does is refused. -/
theorem toNat_skipCount {rank : Int64} (hmin : rank ≠ minValue) :
    (if rank > 0 then rank - 1 else -rank - 1).toInt.toNat = rank.toInt.natAbs - 1 := by
  have hlow := le_toInt rank
  have hhi := toInt_lt rank
  have hne : rank.toInt ≠ -2 ^ 63 := fun heq => hmin (toInt_inj.mp heq)
  have hpos : rank > 0 ↔ 0 < rank.toInt := lt_iff_toInt_lt
  have hone : (1 : Int64).toInt = 1 := rfl
  split
  · rename_i h
    have hsub : (rank - 1).toInt = rank.toInt - 1 := by
      rw [toInt_sub]
      exact Int.bmod_eq_of_le (by omega) (by omega)
    have := hpos.mp h
    omega
  · rename_i h
    have hneg : (-rank).toInt = -rank.toInt := by
      rw [toInt_neg]
      exact Int.bmod_eq_of_le (by omega) (by omega)
    have hsub : (-rank - 1).toInt = -rank.toInt - 1 := by
      rw [toInt_sub, hneg]
      exact Int.bmod_eq_of_le (by omega) (by omega)
    have := mt hpos.mpr h
    omega

/-- What `handleLPos` finds. -/
theorem searchMatches_places (element : Bytes) (elements : List (ℕ × Bytes)) (maxlen needed : ℕ)
    (rank : Int64) (hneeded : 0 < needed) (hmin : rank ≠ minValue) :
    searchMatches element maxlen needed
        (if rank > 0 then elements.zipIdx else elements.zipIdx.reverse)
        (if rank > 0 then rank - 1 else -rank - 1).toInt.toNat 0 [] =
      (places (values elements) element rank.toInt maxlen).take needed := by
  have hsc : (if rank > 0 then elements.zipIdx else elements.zipIdx.reverse).map
      (fun x => (x.1.2, x.2)) =
        if 0 < rank.toInt then (values elements).zipIdx else (values elements).zipIdx.reverse := by
    have hzip : elements.zipIdx.map (fun x => (x.1.2, x.2)) = (values elements).zipIdx := by
      rw [values, zipIdx_map]
      rfl
    have hpos : rank > 0 ↔ 0 < rank.toInt := lt_iff_toInt_lt
    by_cases h : rank > 0
    · rw [if_pos h, if_pos (hpos.mp h), hzip]
    · rw [if_neg h, if_neg (mt hpos.mpr h), map_reverse, hzip]
  rw [searchMatches_eq _ _ _ hneeded, filter_window_values, hsc,
    toNat_skipCount hmin]
  rfl

/-- The options of `LPOS` are those of the reference: the last of each kind counts. -/
structure Parsed (options : List PosOption) (parsed : PosOptions) : Prop where
  rank : parsed.rank.toInt = Reference.rank options
  rank_ne_zero : parsed.rank ≠ 0
  rank_ne_min : parsed.rank ≠ Int64.minValue
  count : (Reference.count? options = none ∧ parsed.count < 0) ∨
    (Reference.count? options = some parsed.count.toInt.toNat ∧ 0 ≤ parsed.count)
  maxlen : parsed.maxlen.toInt.toNat = Reference.maxlen options

theorem Parsed.set {option : PosOption} (h : Parsed options parsed)
    (hok : option.refusal = none) : Parsed (options ++ [option]) (parsed.set option) := by
  cases option with
  | rank r =>
    have h0 : r ≠ 0 := by
      rintro rfl
      cases hok
    have hmin : r ≠ Int64.minValue := by
      rintro rfl
      cases hok
    refine ⟨?_, h0, hmin, ?_, ?_⟩
    · simp [PosOptions.set, Reference.rank]
    · simpa [PosOptions.set, Reference.count?] using h.count
    · simpa [PosOptions.set, Reference.maxlen] using h.maxlen
  | count c =>
    have hnn : 0 ≤ c := by
      by_contra hneg
      rw [PosOption.refusal, if_pos (Int64.not_le.mp hneg)] at hok
      cases hok
    refine ⟨?_, h.rank_ne_zero, h.rank_ne_min, .inr ⟨?_, hnn⟩, ?_⟩
    · simpa [PosOptions.set, Reference.rank] using h.rank
    · simp [PosOptions.set, Reference.count?]
    · simpa [PosOptions.set, Reference.maxlen] using h.maxlen
  | maxlen m =>
    refine ⟨?_, h.rank_ne_zero, h.rank_ne_min, ?_, ?_⟩
    · simpa [PosOptions.set, Reference.rank] using h.rank
    · simpa [PosOptions.set, Reference.count?] using h.count
    · simp [PosOptions.set, Reference.maxlen]

/-- The loop over the options stops at the first one that is refused. -/
theorem parsePosOptions_cases {before : List PosOption}
    (h : Parsed before parsed) (options : List PosOption) :
    (∃ reply, options.findSome? PosOption.refusal = some reply ∧
      parsePosOptions options parsed = .error reply) ∨
    (options.findSome? PosOption.refusal = none ∧
      ∃ parsed', parsePosOptions options parsed = .ok parsed' ∧
        Parsed (before ++ options) parsed') := by
  induction options generalizing before parsed with
  | nil => exact .inr ⟨rfl, parsed, rfl, by rwa [append_nil]⟩
  | cons option options ih =>
    cases hrefusal : option.refusal with
    | some reply =>
      refine .inl ⟨reply, ?_, ?_⟩
      · rw [findSome?_cons, hrefusal]
      · rw [parsePosOptions, hrefusal]
    | none =>
      rw [findSome?_cons, parsePosOptions, hrefusal]
      simpa only [append_assoc, singleton_append] using ih (h.set hrefusal)

theorem length_places_le (l : List Bytes) (element : Bytes) (rank : ℤ) (maxlen : ℕ) :
    (places l element rank maxlen).length ≤ l.length := by
  have hsc : (if 0 < rank then l.zipIdx else l.zipIdx.reverse).length = l.length := by
    split
    · exact length_zipIdx
    · rw [length_reverse, length_zipIdx]
  rw [places, length_drop, length_map]
  refine (Nat.sub_le _ _).trans ((length_filter_le _ _).trans ?_)
  split
  · exact hsc.le
  · exact (length_take_le' _ _).trans hsc.le

theorem searchList_simulates (h : WellFormed s) (hp : Parsed options parsed) (element : Bytes) :
    Simulates (searchList key element parsed s, s)
      (reads key (fun l => posReply l element options) (contents s)) := by
  apply simulates_reads h
  · have hplaces : places [] element (Reference.rank options) (Reference.maxlen options) = [] :=
      eq_nil_of_length_eq_zero (Nat.le_zero.mp (length_places_le ..))
    rw [posReply, hplaces]
    rcases hp.count with ⟨hno, hneg⟩ | ⟨hs, hnn⟩
    · rw [hno]
      exact if_neg (Int64.not_le.mpr hneg)
    · rw [hs]
      rw [if_pos hnn]
      cases parsed.count.toInt.toNat with
      | zero | succ n => rfl
  · intro snap hne
    have hlen : snap.orderedElements.length ≠ 0 := mt eq_nil_of_length_eq_zero hne
    have hf := searchMatches_places element snap.orderedElements parsed.maxlen.toInt.toNat
    rw [posReply]
    simp only [if_neg hlen]
    rcases hp.count with ⟨hno, hneg⟩ | ⟨hs, hnn⟩
    · rw [hno, if_pos hneg, if_neg (Int64.not_le.mpr hneg),
        hf 1 parsed.rank Nat.one_pos hp.rank_ne_min, hp.rank, hp.maxlen]
      cases places (values snap.orderedElements) element (Reference.rank options)
        (Reference.maxlen options) with
      | nil => rfl
      | cons i rest => rfl
    · have hnotneg : ¬parsed.count < 0 := Int64.not_lt.mpr hnn
      rw [hs, if_neg hnotneg, if_pos hnn]
      by_cases h0 : parsed.count = 0
      · have hall := length_places_le (values snap.orderedElements) element (Reference.rank options)
          (Reference.maxlen options)
        rw [length_values] at hall
        rw [if_pos h0, hf _ parsed.rank (Nat.pos_of_ne_zero hlen)
          hp.rank_ne_min, hp.rank, hp.maxlen, take_of_length_le hall, h0]
        rfl
      · have hpos : 0 < parsed.count.toInt.toNat := by
          have hle : 0 ≤ parsed.count.toInt := Int64.le_iff_toInt_le.mp hnn
          have hne' : parsed.count.toInt ≠ 0 := fun heq => h0 (Int64.toInt_inj.mp heq)
          omega
        obtain ⟨n, hn⟩ := Nat.exists_eq_add_one_of_ne_zero hpos.ne'
        rw [if_neg h0, hf _ parsed.rank hpos hp.rank_ne_min, hp.rank, hp.maxlen,
          hn]
        rfl

theorem handleLPos_simulates (h : WellFormed s) (element : Bytes) (options : List PosOption) :
    Simulates (handleLPos key element options s, s)
      (Reference.run (contents s) (.lpos key element options)) := by
  have h0 : Parsed [] {} := ⟨rfl, by decide, by decide, .inl ⟨rfl, by decide⟩, rfl⟩
  rw [Reference.run, handleLPos]
  rcases parsePosOptions_cases h0 options with ⟨reply, href, hpar⟩ |
    ⟨hok, parsed, hpar, hp⟩
  · rw [href, hpar]
    exact ⟨rfl, rfl, h⟩
  · rw [nil_append] at hp
    rw [hok, hpar]
    exact searchList_simulates h hp element

end Reading

/-! ## 4.  Commands that write one list -/

section Writing

/-- The handlers that test for the wrong type first. -/
theorem wrongType_first {α : Type*} (lookup : ListLookup) (absent wrong : α)
    (found : ListSnapshot → α) :
    (match lookup with
      | .wrongType => wrong
      | .absent => absent
      | .found snap => found snap) = match lookup with
      | .absent => absent
      | .wrongType => wrong
      | .found snap => found snap := by
  cases lookup with
  | absent | wrongType | found snap => rfl

section

variable (h : WellFormed s)
  (hpushed : ∀ l, contents s key = .sequence l →
    Stores s (pushElements key placement (first :: rest) s) key (pushed l))

include h hpushed

/-- The push commands, for a place at which the loop of insertions does what `pushed` says. -/
theorem push_simulates (hne : ∀ l, pushed l ≠ []) :
    Simulates (push placement key (first :: rest) s)
      (writes key (fun l => (.integer (l.length + (rest.length + 1)), pushed l))
        (contents s)) := by
  have hpush : push placement key (first :: rest) s = _ := wrongType_first _ _ _ _
  rw [hpush]
  apply simulates_writes h
  · exact fun hc => ⟨rfl, (hpushed [] hc).typeTag (hne [])⟩
  · intro snap _ _ _ hc
    refine ⟨?_, hpushed _ hc⟩
    rw [length_values]
    rfl

theorem pushX_simulates :
    Simulates (pushX placement key (first :: rest) s)
      (writes key (fun l =>
        if l = [] then (.integer 0, [])
        else (.integer (l.length + (rest.length + 1)), pushed l)) (contents s)) := by
  apply simulates_writes h
  · exact fun hc => ⟨rfl, .refl h hc⟩
  · intro snap _ _ hne hc
    have hvs : values snap.orderedElements ≠ [] := mt map_eq_nil_iff.mp hne
    rw [if_neg hvs]
    refine ⟨?_, hpushed _ hc⟩
    rw [length_values]
    rfl

end

/-- The orders in which elements are popped: from the front, or from the back. -/
structure PopsInOrder (order : List (ℕ × Bytes) → List (ℕ × Bytes))
    (order' : List Bytes → List Bytes) : Prop where
  values_eq : ∀ elements, values (order elements) = order' (values elements)
  length_eq : ∀ l, (order' l).length = l.length
  removeAll_eq : ∀ (elements : List (ℕ × Bytes)) (n : ℕ), (ids elements).Nodup →
    removeAll (ids ((order elements).take n)) elements = order ((order elements).drop n)

theorem popsInOrder_front : PopsInOrder id id where
  values_eq _ := rfl
  length_eq _ := rfl
  removeAll_eq := by
    intro elements n hnd
    rw [← take_append_drop n elements] at hnd
    have hfr := removeAll_front hnd
    rwa [take_append_drop] at hfr

theorem popsInOrder_back : PopsInOrder reverse reverse where
  values_eq elements := map_reverse
  length_eq _ := length_reverse
  removeAll_eq := by
    intro elements n hnd
    rw [take_reverse, drop_reverse, reverse_reverse]
    generalize elements.length - n = k
    have hids : ∀ id, id ∈ ids (elements.drop k).reverse ↔ id ∈ ids (elements.drop k) := by
      intro id
      rw [ids, map_reverse, mem_reverse]
      rfl
    rw [← take_append_drop k elements] at hnd
    have hb := removeAll_back hnd
    rw [take_append_drop] at hb
    rw [removeAll_congr hids, hb]

/-- The reply of a pop lists the elements that it takes. -/
theorem writePopped_eq (count : Option Int64) {popped : List (ℕ × Bytes)}
    (hl : l ≠ []) (hpop : values popped = l.take (Reference.popped count)) :
    writePopped (count.map fun count => count.toInt.toNat) popped =
      popReply count l := by
  obtain ⟨x, rest, rfl⟩ := exists_cons_of_ne_nil hl
  cases count with
  | none =>
    cases popped with
    | nil => cases hpop
    | cons element popped =>
      have hh : element.2 = x := (cons.inj hpop).1
      exact congrArg ListReply.bulk hh
  | some count => exact congrArg ListReply.array hpop

theorem pop_simulates (h : WellFormed s) (hord : PopsInOrder order order') (count : Option Int64) :
    Simulates (pop order key (count.map fun count => count.toInt.toNat) s)
      (writes key (fun l => (popReply count (order' l),
        order' ((order' l).drop (Reference.popped count)))) (contents s)) := by
  have hgetD : (count.map fun count => count.toInt.toNat).getD 1 = Reference.popped count := by
    cases count with
    | none | some count => rfl
  have hpop : pop order key (count.map fun count => count.toInt.toNat) s = _ :=
    wrongType_first _ _ _ _
  rw [hpop]
  apply simulates_writes h
  · intro hc
    have hnil : order' [] = [] := eq_nil_of_length_eq_zero (hord.length_eq [])
    rw [hnil, drop_nil, hnil]
    refine ⟨?_, .refl h hc⟩
    cases count with
    | none | some count => rfl
  · intro snap hkey hl hne hc
    have hlen : snap.orderedElements.length ≠ 0 := mt eq_nil_of_length_eq_zero hne
    have hvs : order' (values snap.orderedElements) ≠ [] := by
      rw [← length_pos_iff, hord.length_eq, length_values]
      exact Nat.pos_of_ne_zero hlen
    have hmin : min (Reference.popped count) snap.orderedElements.length =
        min (Reference.popped count) (order' (values snap.orderedElements)).length := by
      rw [hord.length_eq, length_values]
    simp only [if_neg hlen, hgetD]
    constructor
    · apply writePopped_eq count hvs
      rw [values_take, hord.values_eq, hmin, ← take_eq_take_min]
    · rw [drop_eq_drop_min, ← hmin, ← hord.values_eq, ← values_drop, ← hord.values_eq,
        ← hord.removeAll_eq _ _ hl.nodup]
      exact stores_remove h hkey hl _

theorem popChecked_simulates (h : WellFormed s) (hord : PopsInOrder order order')
    (count : Option Int64) :
    Simulates (popChecked order key count s)
      (if refusesCount count then (notInteger, contents s)
        else writes key (fun l => (popReply count (order' l),
          order' ((order' l).drop (Reference.popped count)))) (contents s)) := by
  cases count with
  | none => exact pop_simulates h hord none
  | some count =>
    by_cases hneg : count.toInt < 0
    · have href : refusesCount (some count) = true := decide_eq_true hneg
      rw [if_pos href, popChecked, if_pos hneg]
      exact ⟨rfl, rfl, h⟩
    · have hok : ¬refusesCount (some count) = true := by
        simpa [refusesCount] using hneg
      rw [if_neg hok, popChecked, if_neg hneg]
      exact pop_simulates h hord (some count)

theorem handleLSet_simulates (h : WellFormed s) (index : Int64) (value : Bytes) :
    Simulates (handleLSet key index value s)
      (Reference.run (contents s) (.lset key index value)) := by
  apply simulates_writes h
  · exact fun hc => ⟨rfl, .refl h hc⟩
  · intro snap hkey hl hne hc
    have hvs : values snap.orderedElements ≠ [] := mt map_eq_nil_iff.mp hne
    rw [if_neg hvs, elementAt_eq]
    cases hpl : place? (values snap.orderedElements) index with
    | none => exact ⟨rfl, .refl h hc⟩
    | some i =>
      have hlt : i < snap.orderedElements.length := by
        simp only [place?, length_values] at hpl
        split at hpl
        · have := Option.some.inj hpl
          omega
        · cases hpl
      have hget : snap.orderedElements[i]? = some snap.orderedElements[i] :=
        getElem?_eq_getElem hlt
      rw [Option.bind_some, hget]
      dsimp only
      rw [emit_noop, ← values_update hl.nodup hget]
      exact ⟨rfl, stores_update h hkey hl _⟩

theorem handleLTrim_simulates (h : WellFormed s) (start stop : Int64) :
    Simulates (handleLTrim key start stop s)
      (Reference.run (contents s) (.ltrim key start stop)) := by
  apply simulates_writes h
  · exact fun hc => ⟨rfl, .refl h hc⟩
  · intro snap hkey hl hne hc
    dsimp only
    have hslice : Reference.slice (values snap.orderedElements) start stop =
        values (removeAll (ids (atPlaces (fun i =>
          decide ((i : ℤ) < (clampEnds snap.orderedElements.length start stop).1 ∨
            (i : ℤ) > (clampEnds snap.orderedElements.length start stop).2))
          snap.orderedElements)) snap.orderedElements) := by
      rw [removeAll_atPlaces hl.nodup, values_atPlaces, slice_eq_clamped, length_values]
      apply atPlaces_congr
      intro i _
      rw [← decide_not]
      apply decide_eq_decide.mpr
      omega
    rw [hslice]
    split
    · rename_i hn
      rw [eq_nil_of_length_eq_zero hn]
      exact ⟨rfl, .refl h hc⟩
    · exact ⟨rfl, stores_remove h hkey hl _⟩

theorem insertAt_of_split (before : Bool) {pivot : Bytes} {front back : List Bytes}
    (h : pivot ∉ front) :
    Reference.insertAt before pivot element (front ++ pivot :: back) =
      front ++ if before then element :: pivot :: back else pivot :: element :: back := by
  induction front with
  | nil => exact if_pos rfl
  | cons x front ih =>
    obtain ⟨hx, hfr⟩ := not_or.mp (mt mem_cons.mpr h)
    rw [cons_append, Reference.insertAt, if_neg (Ne.symm hx), ih hfr, cons_append]

theorem handleLInsert_simulates (h : WellFormed s) (before : Bool) (pivot element : Bytes) :
    Simulates (handleLInsert key before pivot element s)
      (Reference.run (contents s) (.linsert key before pivot element)) := by
  apply simulates_writes h
  · exact fun hc => ⟨rfl, .refl h hc⟩
  · intro snap hkey hl hne hc
    have hvs : values snap.orderedElements ≠ [] := mt map_eq_nil_iff.mp hne
    rw [if_neg hvs]
    dsimp only
    cases hfi : snap.orderedElements.find? fun element => element.2 = pivot with
    | none =>
      have hnot : pivot ∉ values snap.orderedElements := by
        intro hmem
        obtain ⟨x, hx, hpivot⟩ := mem_map.mp hmem
        exact absurd hpivot (by simpa using find?_eq_none.mp hfi x hx)
      rw [if_neg hnot]
      exact ⟨rfl, .refl h hc⟩
    | some found =>
      obtain ⟨hpivot, front, back, hsp, hfr⟩ := find?_eq_some_iff_append.mp hfi
      obtain ⟨id, value⟩ := found
      obtain rfl : value = pivot := by simpa using hpivot
      have hmem : value ∈ values snap.orderedElements := by
        rw [hsp]
        simp
      have hf : value ∉ values front := by
        intro hmem
        obtain ⟨x, hx, hv⟩ := mem_map.mp hmem
        have := hfr x hx
        simp [hv] at this
      have hnd := hl.nodup
      rw [hsp] at hnd
      obtain ⟨hid, -⟩ := not_mem_of_nodup hnd
      have hb : forInsert (s.keys key) = snap := by rw [hkey, hl.forInsert_eq]
      rw [if_pos hmem, emit_noop]
      refine ⟨by rw [length_values], ?_⟩
      -- the new element stands next to the pivot, which is the first of its value
      have hpl : ∃ beside, place (if before then .before id else .after id) (s.clock, element)
          snap.orderedElements = front ++ beside ∧
          beside.Perm ((s.clock, element) :: (id, value) :: back) ∧
          values beside = if before then element :: value :: values back
            else value :: element :: values back := by
        rw [hsp]
        cases before with
        | true => exact ⟨_, (insert_of_split hid).1, .refl _, rfl⟩
        | false => exact ⟨_, (insert_of_split hid).2, .swap _ _ _, rfl⟩
      obtain ⟨beside, hpl, hpm, hbeside⟩ := hpl
      have hst := stores_insert h (if before then .before id else .after id) element
        (hb ▸ hl) (by
          rw [hb, hpl, hsp]
          exact (hpm.append_left front).trans perm_middle)
      rw [hb, hpl, values_append, hbeside] at hst
      rwa [hsp, values_append, values_cons, insertAt_of_split before hf]

end Writing

/-! ## 5.  Moves -/

section Moving

/-- The element at an end, and the list without it. -/
theorem popEnd_eq (popLeft : Bool) (hnd : (ids elements).Nodup) (hne : elements ≠ []) :
    ∃ element, (if popLeft then elements.head? else elements.getLast?) = some element ∧
      Reference.popEnd popLeft (values elements) =
        some (element.2, values (removeAll [element.1] elements)) := by
  cases popLeft with
  | true =>
    obtain ⟨element, rest, rfl⟩ := exists_cons_of_ne_nil hne
    have hsp : (ids ([element] ++ rest)).Nodup := hnd
    have hrem : removeAll [element.1] (element :: rest) = rest := removeAll_front hsp
    refine ⟨element, rfl, ?_⟩
    rw [hrem]
    rfl
  | false =>
    obtain ⟨rest, element, rfl⟩ := (eq_nil_or_concat' elements).resolve_left hne
    have hrem : removeAll [element.1] (rest ++ [element]) = rest := removeAll_back hnd
    refine ⟨element, getLast?_concat, ?_⟩
    rw [hrem]
    simp [Reference.popEnd]

theorem lookup_of_other (ho : contents s key = .other) :
    getListSnapshot s key = .wrongType := by
  rw [contents] at ho
  split at ho
  · cases ho
  · assumption
  · cases ho

theorem lookup_of_sequence (hl : contents s key = .sequence l) :
    getListSnapshot s key ≠ .wrongType := by
  intro hlook
  rw [contents, hlook] at hl
  cases hl

theorem doLMove_simulates (h : WellFormed s) (source destination : Bytes)
    (popLeft pushLeft : Bool) :
    Simulates (doLMove source destination popLeft pushLeft s)
      (Reference.run.move source destination popLeft pushLeft (contents s)) := by
  rcases h.finds source with hl | hl | ⟨snap, hl, hkey, hls, hne⟩
  · have hc : contents s source = .sequence [] := by rw [contents, hl]
    rw [doLMove, hl, Reference.run.move, hc]
    cases popLeft with
    | true | false => exact ⟨rfl, rfl, h⟩
  · have hc : contents s source = .other := by rw [contents, hl]
    rw [doLMove, hl, Reference.run.move, hc]
    exact ⟨rfl, rfl, h⟩
  · have hc : contents s source = .sequence (values snap.orderedElements) := by
      rw [contents, hl]
    obtain ⟨element, helement, hpop⟩ := popEnd_eq popLeft hls.nodup hne
    have hpopped : Stores s (emitListRemove source element.1 s) source
        (values (removeAll [element.1] snap.orderedElements)) := by
      have hst := stores_remove h hkey hls [element]
      rwa [removeElements, emit_noop] at hst
    rw [doLMove, hl, Reference.run.move, hc]
    simp only [helement, hpop, emit_noop, ite_self, ← hpopped.contents_eq]
    -- the destination is looked up in the store from which the element is gone
    cases hdst : contents (emitListRemove source element.1 s) destination with
    | other =>
      have hdistinct : source ≠ destination := by
        rintro rfl
        rw [hpopped.contents_self] at hdst
        cases hdst
      rw [hpopped.contents_eq, update_of_ne hdistinct.symm] at hdst
      rw [if_neg hdistinct, lookup_of_other hdst]
      exact ⟨rfl, rfl, h⟩
    | sequence m =>
      have hpushed := stores_end hpopped.wellFormed hdst pushLeft element.2
      have hch : (if source = destination then ListLookup.absent
          else getListSnapshot s destination) ≠ .wrongType := by
        split
        · exact nofun
        · rename_i hdistinct
          rw [hpopped.contents_eq, update_of_ne (Ne.symm hdistinct)] at hdst
          exact lookup_of_sequence hdst
      split
      · contradiction
      · exact ⟨rfl, hpushed.contents_eq, hpushed.wellFormed⟩

end Moving

/-! ## 6.  Runs -/

theorem run_simulates (h : WellFormed s) (cmd : ListCommand) :
    Simulates (run s cmd) (Reference.run (contents s) cmd) := by
  cases cmd with
  | lpush key first rest =>
    exact push_simulates h (fun l hl => stores_push h hl true (first :: rest)) (by simp)
  | rpush key first rest =>
    exact push_simulates h (fun l hl => stores_push h hl false (first :: rest)) (by simp)
  | lpushx key first rest =>
    exact pushX_simulates h fun l hl => stores_push h hl true (first :: rest)
  | rpushx key first rest =>
    exact pushX_simulates h fun l hl => stores_push h hl false (first :: rest)
  | lpop key count => exact popChecked_simulates h popsInOrder_front count
  | rpop key count => exact popChecked_simulates h popsInOrder_back count
  | llen key => exact handleLLen_simulates h
  | lrange key start stop => exact handleLRange_simulates h start stop
  | lindex key index => exact handleLIndex_simulates h index
  | lset key index value => exact handleLSet_simulates h index value
  | ltrim key start stop => exact handleLTrim_simulates h start stop
  | linsert key before pivot element => exact handleLInsert_simulates h before pivot element
  | lpos key element options => exact handleLPos_simulates h element options
  | lmove source destination popLeft pushLeft =>
    exact doLMove_simulates h source destination popLeft pushLeft
  | rpoplpush source destination => exact doLMove_simulates h source destination false true

/-- The replies to a sequence of commands, and the state after it. -/
def runAll {σ : Type*} (step : σ → ListCommand → ListReply × σ) :
    σ → List ListCommand → List ListReply × σ
  | s, [] => ([], s)
  | s, cmd :: cmds =>
    let first := step s cmd
    let rest := runAll step first.2 cmds
    (first.1 :: rest.1, rest.2)

/-- Whatever commands are run, each is answered as the counterpart on sequences is, every key shows
the sequence that they leave, and a key whose sequence is empty is missing. -/
theorem runAll_eq_reference {s : ListStore} (h : WellFormed s) (cmds : List ListCommand) :
    (runAll run s cmds).1 = (runAll Reference.run (contents s) cmds).1 ∧
      contents (runAll run s cmds).2 = (runAll Reference.run (contents s) cmds).2 ∧
      ∀ key, contents (runAll run s cmds).2 key = .sequence [] →
        getListSnapshot (runAll run s cmds).2 key = .absent := by
  induction cmds generalizing s with
  | nil => exact ⟨rfl, rfl, fun key => h.absent_of_contents⟩
  | cons cmd cmds ih =>
    have hstep := run_simulates h cmd
    obtain ⟨hrs, hc, hmissing⟩ := ih hstep.wellFormed
    rw [hstep.contents_eq] at hrs hc
    refine ⟨?_, hc, hmissing⟩
    rw [runAll, runAll, hstep.reply, hrs]

/-- A store without keys. -/
def emptyStore : ListStore := ⟨fun _ => none, 0⟩

/-- Three elements are pushed, the list is rotated, and everything is taken out again. -/
theorem runAll_rotation :
    WellFormed emptyStore ∧
      (runAll run emptyStore [.rpush [107] [97] [[98], [99]], .rpoplpush [107] [107],
        .lrange [107] Int64.minValue Int64.maxValue, .lpop [107] (some 9), .llen [107]]).1 =
      (runAll Reference.run (contents emptyStore) [.rpush [107] [97] [[98], [99]],
        .rpoplpush [107] [107], .lrange [107] Int64.minValue Int64.maxValue,
        .lpop [107] (some 9), .llen [107]]).1 :=
  have hnil : WellFormed emptyStore := nofun
  ⟨hnil, (runAll_eq_reference hnil _).1⟩

/-- **Whatever commands are run, the ids of every list stay distinct and older than the clock.** -/
theorem wellFormed_runAll (h : WellFormed s) (cmds : List ListCommand) :
    WellFormed (runAll run s cmds).2 := by
  induction cmds generalizing s with
  | nil => exact h
  | cons cmd cmds ih => exact ih (run_simulates h cmd).wellFormed

theorem wellFormed_rotation :
    WellFormed (runAll run emptyStore [.rpush [107] [97] [[98]], .rpoplpush [107] [107]]).2 :=
  wellFormed_runAll (s := emptyStore) (fun _ _ h => by cases h) _

end Swytch.Redis.Lists
