import Swytch.Sql.EqualityPlans
import Swytch.Sql.KeyOrder

/-!
# Range plans

A range plan fixes the leading columns of an index and bounds the last one.  Its scan walks
the committed entry keys that start with the encoded leading arguments, from just after its
start key until the first key past the upper bound.  The keys come in ascending order, so
stopping there loses no later key, and the plan gathers the rows that it *reaches*: those
whose leading columns cast like the arguments and whose last column, cast to its affinity,
lies between the cast bounds.

SQL asks for the rows whose leading columns compare equal with the arguments and whose last
column lies in the range.  The two part where an argument does not survive the cast, where
the column is absent and reads as its `DEFAULT`, at the empty text or blob of an index of one
column, whose entry key is the start key itself, and in a `NUMERIC` column, whose entries are
ordered as texts.
-/

namespace Swytch.Sql

open List
open KeyedStore SecondaryIndex
open TableSchema (valueAt)

/-! ## The scan -/

/-- The entry bytes a scan gathers, among those after its start. -/
def RangeScan.Admits (scan : RangeScan) (valueBytes : Bytes) : Prop :=
  (∀ l, scan.lower = some l → compare valueBytes l ≠ .lt) ∧
    ∀ u, scan.upper = some u →
      compare valueBytes u = .lt ∨ (compare valueBytes u = .eq ∧ scan.upperInc = true)

/-- The test that ends the scan. -/
theorem RangeScan.upper_any_iff (scan : RangeScan) (valueBytes : Bytes) :
    (scan.upper.any fun u => compare valueBytes u == .gt ||
        (compare valueBytes u == .eq && !scan.upperInc)) = true ↔
      ¬ ∀ u, scan.upper = some u →
        compare valueBytes u = .lt ∨ (compare valueBytes u = .eq ∧ scan.upperInc = true) := by
  cases scan.upper with
  | none => simp
  | some u =>
    simp only [Option.any_some, Option.some.injEq, forall_eq']
    cases compare valueBytes u <;> cases scan.upperInc <;> simp

variable {b pk : Bytes} {s : Store} {alone : Bool} {ords : List ℕ}

/-- Past the upper bound there is no way back. -/
theorem RangeScan.upper_antitone (scan : RangeScan) {a : Bytes} (hab : compare a b = .lt)
    (hb : ∀ u, scan.upper = some u →
      compare b u = .lt ∨ (compare b u = .eq ∧ scan.upperInc = true)) :
    ∀ u, scan.upper = some u →
      compare a u = .lt ∨ (compare a u = .eq ∧ scan.upperInc = true) := by
  intro u hu
  left
  rcases hb u hu with h | ⟨h, -⟩
  · exact Std.TransCmp.lt_trans hab h
  · exact Std.TransCmp.lt_of_lt_of_eq hab h

/-- **The scan over ascending keys gathers every admitted entry.** -/
theorem mem_rangeScan {scan : RangeScan} {view : Store} {keys : List Bytes}
    (hso : keys.Pairwise fun a b => compare a b = .lt)
    (hpre : ∀ key ∈ keys, ∃ b, key = scan.keyPrefix ++ b) :
    pk ∈ rangeScan scan view keys ↔ ∃ b, scan.keyPrefix ++ b ∈ keys ∧ scan.Admits b ∧
      (cell view (scan.keyPrefix ++ b) pk).isSome = true := by
  induction keys with
  | nil => simp [rangeScan]
  | cons key keys ih =>
    obtain ⟨hh, ht⟩ := pairwise_cons.mp hso
    have ih' := ih ht fun key' hkey' => hpre key' (mem_cons_of_mem _ hkey')
    obtain ⟨b, rfl⟩ := hpre key (mem_cons_self ..)
    have hisPre : scan.keyPrefix.isPrefixOf (scan.keyPrefix ++ b) = true := by simp
    have hlt (b' : Bytes) (hmem : scan.keyPrefix ++ b' ∈ keys) : compare b b' = .lt := by
      rw [← compare_append_left scan.keyPrefix]
      exact hh _ hmem
    have hcons (P : Bytes → Prop) :
        (∃ b', scan.keyPrefix ++ b' ∈ (scan.keyPrefix ++ b) :: keys ∧ P b') ↔
          P b ∨ ∃ b', scan.keyPrefix ++ b' ∈ keys ∧ P b' := by
      simp [or_and_right, exists_or]
    rw [hcons]
    simp only [rangeScan, hisPre, drop_left', Bool.not_true, Bool.false_eq_true, if_false]
    by_cases hlo : (scan.lower.any fun l => compare b l == .lt) = true
    · -- below the lower bound: skipped
      rw [if_pos hlo, ih']
      refine (or_iff_right fun h => ?_).symm
      cases hl : scan.lower with
      | none => simp [hl] at hlo
      | some l => exact h.1.1 l hl (by simpa [hl] using hlo)
    rw [if_neg hlo]
    have hlower' (l : Bytes) (hl : scan.lower = some l) : compare b l ≠ .lt := by
      simpa [hl] using hlo
    by_cases hup : (scan.upper.any fun u => compare b u == .gt ||
        (compare b u == .eq && !scan.upperInc)) = true
    · -- past the upper bound: neither this key nor a later one is admitted
      rw [if_pos hup]
      have hpast := (scan.upper_any_iff b).mp hup
      simp only [not_mem_nil, false_iff, not_or, not_exists, not_and]
      refine ⟨fun h => absurd h.2 hpast, fun b' hmem h => ?_⟩
      exact absurd (scan.upper_antitone (hlt b' hmem) h.2) hpast
    · rw [if_neg hup]
      have hadm : scan.Admits b :=
        ⟨hlower', not_not.mp fun h => hup ((scan.upper_any_iff b).mpr h)⟩
      cases hs : view[scan.keyPrefix ++ b]? with
      | none => simp [ih', cell_of_getElem?_eq_none hs]
      | some snap =>
        rw [mem_append, ih', Std.ExtTreeMap.mem_keys,
          Std.ExtTreeMap.mem_iff_isSome_getElem?, ← cell_of_getElem? hs]
        simp [hadm]

/-- The committed keys a scan visits. -/
theorem mem_scanKeys_glob [Keytrie] {start p : Bytes} :
    p ++ b ∈ scanKeys s start (glob p) ↔ p ++ b ∈ s ∧ compare start (p ++ b) = .lt := by
  simp [scanKeys, Keytrie.matchGlob_glob]

theorem pairwise_scanKeys [Keytrie] (s : Store) (start pattern : Bytes) :
    (scanKeys s start pattern).Pairwise fun a b => compare a b = .lt :=
  Std.ExtTreeMap.ordered_keys.filter _

theorem exists_of_mem_scanKeys_glob [Keytrie] {start p key : Bytes}
    (h : key ∈ scanKeys s start (glob p)) : ∃ b, key = p ++ b := by
  simp only [scanKeys, Keytrie.matchGlob_glob, mem_filter, Bool.and_eq_true,
    isPrefixOf_iff_prefix] at h
  obtain ⟨b, rfl⟩ := h.2.2
  exact ⟨b, rfl⟩

/-! ## Entries and bounds -/

theorem putUint64_ne_nil {u : UInt64} : putUint64 u ≠ [] :=
  ne_nil_of_length_pos (by simp)

variable {affinity : Affinity} {x l : Value} {affs : List Affinity}

theorem encodeTupleBytes_ne_nil : encodeTupleBytes b ≠ [] := by
  cases b with
  | nil => simp [encodeTupleBytes]
  | cons c b =>
    unfold encodeTupleBytes
    split <;> simp

theorem compare_ne_lt_nil : compare b [] ≠ .lt := by
  cases b <;> simp

theorem compare_nil_eq_lt_iff : compare [] b = .lt ↔ b ≠ [] := by
  cases b <;> simp

section Bounds

variable [Host]

/-- What an entry key spells for the last column of its index. -/
def entryBytes (alone : Bool) (affinity : Affinity) (x : Value) : Bytes :=
  if alone then encodeIndexValue x affinity else encodeTupleComponent x affinity

/-- How the entry of a value stands to a bound: both are cast to the affinity.  Alone in its
index, a `NUMERIC` value is spelled raw and its bound is framed. -/
def entryCompare (alone : Bool) (affinity : Affinity) (x bound : Value) : Ordering :=
  match affinity with
  | .integer => compare x.toInt64.toInt bound.toInt64.toInt
  | .real => compare (floatBits x.toFloat).toNat (floatBits bound.toFloat).toNat
  | .text | .blob => compare x.toBytes bound.toBytes
  | .numeric | .unresolved =>
    if alone then compare x.toBytes (encodeTupleBytes bound.toBytes)
    else compare x.toBytes bound.toBytes

/-- The scan begins after the bare key prefix: an empty text or blob that is alone in its
index has no key after it. -/
def HasPlace (alone : Bool) (affinity : Affinity) (x : Value) : Prop :=
  alone = true → affinity ≠ .integer → affinity ≠ .real → x.toBytes ≠ []

/-- The entry is not below the lower bound. -/
def AboveLower (alone : Bool) (affinity : Affinity) (x : Value) : Option (Bound × Value) → Prop
  | none => True
  | some (.inclusive, l) => entryCompare alone affinity x l ≠ .lt
  | some (.exclusive, l) => entryCompare alone affinity x l = .gt

/-- The entry is not past the upper bound; an empty blob bounds nothing. -/
def BelowUpper (alone : Bool) (affinity : Affinity) (x : Value) : Option (Bound × Value) → Prop
  | none => True
  | some (kind, u) => (alone = true ∧ affinity = .blob ∧ u.toBytes = []) ∨
      entryCompare alone affinity x u = .lt ∨
      (entryCompare alone affinity x u = .eq ∧ kind = .inclusive)

/-- The last column lies between the cast bounds. -/
def WithinBounds (alone : Bool) (affinity : Affinity) (lower upper : Option (Bound × Value))
    (x : Value) : Prop :=
  HasPlace alone affinity x ∧ AboveLower alone affinity x lower ∧
    BelowUpper alone affinity x upper

theorem entryBytes_ne_nil_iff : entryBytes alone affinity x ≠ [] ↔ HasPlace alone affinity x := by
  cases alone <;> cases affinity <;>
    simp [entryBytes, HasPlace, encodeIndexValue, encodeTupleComponent, putUint64_ne_nil,
      encodeTupleBytes_ne_nil]

/-- What a bound spells, where it bounds anything. -/
def boundBytes (alone : Bool) (affinity : Affinity) (l : Value) : Bytes :=
  if alone = true ∧ (affinity = .text ∨ affinity = .blob) then encodeIndexValue l affinity
  else encodeTupleComponent l affinity

theorem encodeBound_eq :
    encodeBound (affs ++ [affinity]) affinity l =
      if affs.isEmpty = true ∧ affinity = .blob ∧ l.toBytes = [] then none
      else some (boundBytes affs.isEmpty affinity l) := by
  cases affs with
  | nil =>
    cases affinity <;> simp only [encodeBound, boundBytes] <;> try rfl
    by_cases hl : l.toBytes = [] <;> simp
  | cons a affs => simp [encodeBound, boundBytes]

/-- **Byte order of entries and bounds is the order of the cast values.** -/
theorem compare_entryBytes :
    compare (entryBytes alone affinity x) (boundBytes alone affinity l) =
      entryCompare alone affinity x l := by
  cases affinity with
  | integer =>
    cases alone <;> simp [entryBytes, boundBytes, entryCompare, encodeTupleComponent,
      encodeIndexValue, compare_putUint64, compare_intBits]
  | real =>
    cases alone <;> simp [entryBytes, boundBytes, entryCompare, encodeTupleComponent,
      encodeIndexValue, compare_putUint64]
  | _ =>
    cases alone <;> simp [entryBytes, boundBytes, entryCompare, encodeTupleComponent,
      encodeIndexValue, compare_encodeTupleBytes]

theorem entryCompare_blob_nil (hl : l.toBytes = []) :
    entryCompare true .blob x l = compare x.toBytes [] := by
  rw [entryCompare, hl]

section Scan

variable (idx : IndexSchema) (affs : List Affinity) (affinity : Affinity) (eqArgs : List Value)
  (lower upper : Option (Bound × Value))

/-- The scan of a range plan with its bounds. -/
def scanOf : RangeScan :=
  rangeScanOf idx (affs ++ [affinity]) eqArgs (lower.map Prod.fst) (upper.map Prod.fst)
    (lower.map Prod.snd) (upper.map Prod.snd)

theorem keyPrefix_scanOf : (scanOf idx affs affinity eqArgs lower upper).keyPrefix =
    indexKeyPrefix idx.indexID ++ encodeIndexKeyPrefix eqArgs (affs ++ [affinity]) affs.length := by
  simp [scanOf, rangeScanOf]

/-- The lower bound: where the scan starts and what it skips. -/
theorem scanOf_lower_iff :
    (compare (scanOf idx affs affinity eqArgs lower upper).start
        ((scanOf idx affs affinity eqArgs lower upper).keyPrefix ++
          entryBytes affs.isEmpty affinity x) = .lt ∧
      ∀ l, (scanOf idx affs affinity eqArgs lower upper).lower = some l →
        compare (entryBytes affs.isEmpty affinity x) l ≠ .lt) ↔
    HasPlace affs.isEmpty affinity x ∧ AboveLower affs.isEmpty affinity x lower := by
  set scan := scanOf idx affs affinity eqArgs lower upper with hsc
  have hbare (p : Bytes) : compare p (p ++ entryBytes affs.isEmpty affinity x) = .lt ↔
      HasPlace affs.isEmpty affinity x := by
    rw [← entryBytes_ne_nil_iff, ← compare_nil_eq_lt_iff, ← compare_append_left p [],
      append_nil]
  match lower with
  | none =>
    have h0 : scan.start = scan.keyPrefix := by simp [hsc, scanOf, rangeScanOf]
    have hlo : scan.lower = none := by simp [hsc, scanOf, rangeScanOf]
    simp [h0, hlo, hbare, AboveLower]
  | some (.inclusive, l) =>
    have h0 : scan.start = scan.keyPrefix := by simp [hsc, scanOf, rangeScanOf]
    have hlo : scan.lower = encodeBound (affs ++ [affinity]) affinity l := by
      simp [hsc, scanOf, rangeScanOf]
    rw [h0, hlo, hbare, AboveLower, encodeBound_eq]
    split
    · rename_i hnil
      obtain ⟨hal, rfl, hl⟩ := hnil
      simp [hal, entryCompare_blob_nil hl, compare_ne_lt_nil]
    · simp [compare_entryBytes]
  | some (.exclusive, l) =>
    have h0 : scan.start =
        scan.keyPrefix ++ (encodeBound (affs ++ [affinity]) affinity l).getD [] := by
      simp [hsc, scanOf, rangeScanOf]
    have hlo : scan.lower = none := by simp [hsc, scanOf, rangeScanOf]
    have hpl : AboveLower affs.isEmpty affinity x (some (.exclusive, l)) →
        HasPlace affs.isEmpty affinity x := by
      intro h
      rw [AboveLower, ← compare_entryBytes] at h
      rw [← entryBytes_ne_nil_iff]
      intro hnil
      rw [hnil] at h
      exact absurd (Std.OrientedCmp.gt_iff_lt.mp h) (compare_ne_lt_nil)
    rw [and_iff_right_of_imp hpl, h0, hlo, compare_append_left, encodeBound_eq,
      AboveLower]
    split
    · rename_i hnil
      obtain ⟨hal, rfl, hl⟩ := hnil
      rw [hal, entryCompare_blob_nil hl, Std.OrientedCmp.gt_iff_lt]
      simp [entryBytes, encodeIndexValue]
    · rw [← compare_entryBytes, Std.OrientedCmp.gt_iff_lt]
      simp

/-- The upper bound: where the scan ends. -/
theorem scanOf_upper_iff :
    (∀ u, (scanOf idx affs affinity eqArgs lower upper).upper = some u →
      compare (entryBytes affs.isEmpty affinity x) u = .lt ∨
        (compare (entryBytes affs.isEmpty affinity x) u = .eq ∧
          (scanOf idx affs affinity eqArgs lower upper).upperInc = true)) ↔
    BelowUpper affs.isEmpty affinity x upper := by
  match upper with
  | none => simp [scanOf, rangeScanOf, BelowUpper]
  | some (kind, u) =>
    have hup : (scanOf idx affs affinity eqArgs lower (some (kind, u))).upper =
        encodeBound (affs ++ [affinity]) affinity u := by
      simp [scanOf, rangeScanOf]
    have hinc : (scanOf idx affs affinity eqArgs lower (some (kind, u))).upperInc = true ↔
        kind = .inclusive := by
      simp [scanOf, rangeScanOf]
    rw [hup, hinc, encodeBound_eq, BelowUpper]
    split
    · rename_i hnil
      simp [hnil]
    · rename_i hs
      simp only [Option.some.injEq, forall_eq', compare_entryBytes, or_iff_right hs]

/-- **The scan visits and gathers exactly the entries between the cast bounds.** -/
theorem scanOf_iff (x : Value) :
    (compare (scanOf idx affs affinity eqArgs lower upper).start
        ((scanOf idx affs affinity eqArgs lower upper).keyPrefix ++
          entryBytes affs.isEmpty affinity x) = .lt ∧
      (scanOf idx affs affinity eqArgs lower upper).Admits
        (entryBytes affs.isEmpty affinity x)) ↔
    WithinBounds affs.isEmpty affinity lower upper x := by
  rw [RangeScan.Admits, ← and_assoc, scanOf_lower_iff, scanOf_upper_iff, WithinBounds, and_assoc]

end Scan

end Bounds

/-! ## The rows a scan reaches -/

/-- The arguments of a range plan, as `BestIndex` lays them out. -/
def rangeArgv (eqArgs : List Value) (lower upper : Option (Bound × Value)) : List Value :=
  eqArgs ++ ((lower.map Prod.snd).toList ++ (upper.map Prod.snd).toList)

theorem rangeArgs_rangeArgv (eqArgs : List Value) (lower upper : Option (Bound × Value)) :
    rangeArgs eqArgs.length (lower.map Prod.fst) (upper.map Prod.fst)
        (rangeArgv eqArgs lower upper) =
      .ok (eqArgs, lower.map Prod.snd, upper.map Prod.snd) := by
  cases lower <;> cases upper <;> simp [rangeArgs, rangeArgv] <;> rfl

section Reach

variable {args cols : List Value} {x : Value} {affinity : Affinity} {row : Bytes → Option Payload}
    {index : String} {lower upper : Option (Bound × Value)} [Host]

/-- The entry key of a tuple, split after the leading columns. -/
theorem encodeIndexKeyTuple_split {vals : List Value} (hlen : vals.length = affs.length)
    (ha : args.length = affs.length) :
    encodeIndexKeyTuple (vals ++ [x]) (affs ++ [affinity]) =
        encodeIndexKeyPrefix args (affs ++ [affinity]) affs.length ++ b ↔
      coerceAll affs vals = coerceAll affs args ∧ entryBytes affs.isEmpty affinity x = b := by
  match affs, vals, args, hlen, ha with
  | [], [], [], _, _ => simp [encodeIndexKeyTuple, encodeIndexKeyPrefix, entryBytes]
  | a :: affs, v :: vals, w :: args, hlen, ha =>
    have htu : encodeIndexKeyTuple (v :: vals ++ [x]) (a :: affs ++ [affinity]) =
        encodeTuple (v :: vals) (a :: affs) ++ encodeTupleComponent x affinity := by
      rw [← encodeTuple_concat hlen]
      cases vals <;> rfl
    have hprefix : encodeIndexKeyPrefix (w :: args) (a :: affs ++ [affinity])
        (a :: affs).length = encodeTuple (w :: args) (a :: affs) := by
      have ht : (w :: args).take (min (a :: affs).length (w :: args).length) = w :: args :=
        take_of_length_le (by omega)
      rw [← encodeTuple_append_affinities ha [affinity], encodeIndexKeyPrefix,
        if_neg (by simp)]
      cases affs <;> simp only [cons_append, nil_append, ht]
    rw [htu, hprefix, encodeTuple_append_eq_iff hlen ha]
    rfl

variable {tbl : TableSchema}

theorem castsAlike_concat (hlen : args.length = ords.length) {ord : ℕ} {arg : Value} :
    CastsAlike tbl (ords ++ [ord]) (args ++ [arg]) row cols ↔ CastsAlike tbl ords args row cols ∧
      (row (utf8 (tbl.nameAt ord))).isSome = true ∧
        coerce (tbl.affinityAt ord) (valueAt cols ord) =
          coerce (tbl.affinityAt ord) arg := by
  rw [CastsAlike, zip_append hlen.symm, forall_mem_append, CastsAlike]
  simp

/-- Arguments that coerce alike are alike. -/
theorem CastsAlike.congr {args' : List Value} (hlen : args.length = ords.length)
    (hlen' : args'.length = ords.length)
    (ha : coerceAll (ords.map tbl.affinityAt) args = coerceAll (ords.map tbl.affinityAt) args')
    (h : CastsAlike tbl ords args row cols) : CastsAlike tbl ords args' row cols := by
  induction ords generalizing args args' with
  | nil => simp [CastsAlike]
  | cons ord ords ih =>
    cases args with
    | nil => simp at hlen
    | cons arg args =>
      cases args' with
      | nil => simp at hlen'
      | cons arg' args' =>
        simp only [coerceAll, map_cons, zipWith_cons_cons, cons.injEq] at ha
        simp only [CastsAlike, zip_cons_cons, forall_mem_cons] at h ⊢
        obtain ⟨⟨hst, hcast⟩, hr⟩ := h
        exact ⟨⟨hst, hcast.trans ha.1⟩,
          ih (by simpa using hlen) (by simpa using hlen') ha.2 hr⟩

/-- **The rows filed under a key with the given leading arguments.** -/
theorem RowsWellFormed.storedTuple_split_iff (hr : RowsWellFormed s tbl) (hwf : tbl.WellFormed)
    (hl : Live s tbl.tableID pk) {idx : IndexSchema} {eqOrds : List ℕ} {last : ℕ}
    (hres : Resolves tbl idx.columns (eqOrds ++ [last])) {eqArgs : List Value}
    (hlen : eqArgs.length = eqOrds.length) :
    storedTuple tbl idx (rowOf s tbl.tableID pk) =
        some (encodeIndexKeyPrefix eqArgs (eqOrds.map tbl.affinityAt ++ [tbl.affinityAt last])
          eqOrds.length ++ b) ↔
      CastsAlike tbl eqOrds eqArgs (rowOf s tbl.tableID pk)
          (readRow tbl pk (rowOf s tbl.tableID pk)) ∧
        (rowOf s tbl.tableID pk (utf8 (tbl.nameAt last))).isSome = true ∧
        entryBytes eqOrds.isEmpty (tbl.affinityAt last)
          (valueAt (readRow tbl pk (rowOf s tbl.tableID pk)) last) = b := by
  set row := rowOf s tbl.tableID pk with hrow
  set cols := readRow tbl pk row with hcs
  set affs := eqOrds.map tbl.affinityAt with haffs
  have haff : idx.columnAffinities tbl = affs ++ [tbl.affinityAt last] := by
    rw [IndexSchema.columnAffinities, hres.columnAffinities_eq, map_append]
    rfl
  have hlenA : eqArgs.length = affs.length := by rw [length_map, hlen]
  have hc : eqOrds.length = affs.length := by rw [length_map]
  have hal : eqOrds.isEmpty = affs.isEmpty := by rw [isEmpty_map]
  rw [hc, hal]
  constructor
  · intro h
    -- the stored components are arguments that the row casts alike with
    obtain ⟨comps, hcomps, henc⟩ := storedTuple_eq_some.mp h
    have hlenC : comps.length = (eqOrds ++ [last]).length := by
      rw [← hres.length_eq]
      simpa using length_of_mapM_eq_some hcomps
    obtain ⟨vals, x, rfl⟩ : ∃ vals x, comps = vals ++ [x] := by
      rcases eq_nil_or_concat' comps with rfl | ⟨vals, x, rfl⟩
      · simp at hlenC
      · exact ⟨vals, x, rfl⟩
    have hlenV : vals.length = eqOrds.length := by simpa using hlenC
    have hse := (hr.storedTuple_iff hwf hl hres (hlenC.trans hres.length_eq.symm)).mp
      (storedTuple_eq_some.mpr ⟨_, hcomps, rfl⟩)
    obtain ⟨hcast, hst, hla⟩ := (castsAlike_concat hlenV).mp hse
    rw [haff, encodeIndexKeyTuple_split (hlenV.trans hc) hlenA] at henc
    refine ⟨hcast.congr hlenV hlen henc.1, hst, ?_⟩
    rw [← henc.2, entryBytes, entryBytes, ← encodeIndexValue_coerce _ x,
      ← encodeTupleComponent_coerce _ x, ← hla, encodeIndexValue_coerce,
      encodeTupleComponent_coerce]
  · rintro ⟨hcast, hst, rfl⟩
    have hsp := (encodeIndexKeyTuple_split (x := valueAt cols last)
      (b := entryBytes affs.isEmpty (tbl.affinityAt last) (valueAt cols last))
      hlenA hlenA).mpr ⟨rfl, rfl⟩
    rw [← hsp, ← haff, hr.storedTuple_iff hwf hl hres (by rw [hres.length_eq]; simp [hlen]),
      castsAlike_concat hlen]
    exact ⟨hcast, hst, rfl⟩

/-! ## The plan -/

/-- The row is filed under a key that the scan gathers: its leading columns cast like the
arguments, and its last column is stored and lies between the cast bounds. -/
def Reached (tbl : TableSchema) (eqOrds : List ℕ) (last : ℕ) (eqArgs : List Value)
    (lower upper : Option (Bound × Value)) (row : Bytes → Option Payload) (cols : List Value) :
    Prop :=
  CastsAlike tbl eqOrds eqArgs row cols ∧ (row (utf8 (tbl.nameAt last))).isSome = true ∧
    WithinBounds eqOrds.isEmpty (tbl.affinityAt last) lower upper (TableSchema.valueAt cols last)

variable {c : Conn} {idx : IndexSchema} {eqOrds : List ℕ} {last : ℕ} {eqArgs : List Value}

/-- **A range plan selects the rows it reaches whose entry key is committed.** -/
theorem Readable.filterIndexRange_ok [Keytrie] (h : Readable c tbl) {name : String}
    (hf : tbl.indexes.find? (·.name == name) = some idx)
    (hres : Resolves tbl idx.columns (eqOrds ++ [last])) (hlen : eqArgs.length = eqOrds.length)
    (lower upper : Option (Bound × Value)) :
    ∃ rows, filterIndexRange c name (lower.map Prod.fst) (upper.map Prod.fst)
        (rangeArgv eqArgs lower upper) = .ok rows ∧
      Selects tbl c.view (fun pk =>
        Reached tbl eqOrds last eqArgs lower upper (rowOf c.view tbl.tableID pk)
            (readRow tbl pk (rowOf c.view tbl.tableID pk)) ∧
          ∀ e, storedTuple tbl idx (rowOf c.view tbl.tableID pk) = some e →
            indexKey idx.indexID e ∈ c.store) rows := by
  have hidx : idx ∈ tbl.indexes := mem_of_find?_eq_some hf
  have hfind' : c.vtab.findIndex name = some idx := by
    rw [VTable.findIndex, h.schema_eq]
    exact hf
  set affs := eqOrds.map tbl.affinityAt with haffs
  set affinity := tbl.affinityAt last with haffinity
  have haff : idx.columnAffinities tbl = affs ++ [affinity] := by
    rw [IndexSchema.columnAffinities, hres.columnAffinities_eq, map_append]
    rfl
  have hc : eqOrds.length = affs.length := by rw [length_map]
  have hal : eqOrds.isEmpty = affs.isEmpty := by rw [isEmpty_map]
  have ha := rangeArgs_rangeArgv eqArgs lower upper
  rw [hlen, hc] at ha
  set scan := scanOf idx affs affinity eqArgs lower upper with hsc
  refine ⟨_, ?_, selects_filterMap (nodup_distinct
    (rangeScan scan c.view (scanKeys c.store scan.start (glob scan.keyPrefix))))
    fun pk r hr => ?_⟩
  · rw [← h.loadRowsForPKs_eq]
    simp only [filterIndexRange, hfind', h.schema_eq, haff, length_append,
      length_singleton, Nat.add_sub_cancel, ha, bind, Except.bind]
    simp [hsc, scanOf]
  · have hl := (rowAt_eq_some_iff.mp hr).1
    set encoded := encodeIndexKeyPrefix eqArgs (affs ++ [affinity]) affs.length with hencoded
    have hsp (b : Bytes) := h.inv.rows.storedTuple_split_iff h.inv.wf hl hres hlen (b := b)
    rw [hc, hal] at hsp
    have hkey (b : Bytes) : scan.keyPrefix ++ b = indexKey idx.indexID (encoded ++ b) := by
      rw [keyPrefix_scanOf, append_assoc]
      rfl
    have hfi (b : Bytes) : (cell c.view (scan.keyPrefix ++ b) pk).isSome = true ↔
        storedTuple tbl idx (rowOf c.view tbl.tableID pk) = some (encoded ++ b) := by
      rw [hkey]
      exact h.inv.agrees idx hidx (encoded ++ b) pk
    rw [mem_distinct, mem_rangeScan (pairwise_scanKeys _ _ _)
      fun key hkey => exists_of_mem_scanKeys_glob hkey, Reached, hal]
    constructor
    · rintro ⟨b, hmem, hadm, hce⟩
      obtain ⟨hs, h0⟩ := mem_scanKeys_glob.mp hmem
      have htu := (hfi b).mp hce
      obtain ⟨hcast, hst, rfl⟩ := (hsp b).mp htu
      refine ⟨⟨hcast, hst, (scanOf_iff idx affs affinity eqArgs lower upper _).mp
        ⟨h0, hadm⟩⟩, fun e he => ?_⟩
      obtain rfl := Option.some.inj (htu.symm.trans he)
      rw [← hkey]
      exact hs
    · rintro ⟨⟨hcast, hst, hwithin⟩, hs⟩
      obtain ⟨h0, hadm⟩ := (scanOf_iff idx affs affinity eqArgs lower upper _).mpr hwithin
      have htu := (hsp _).mpr ⟨hcast, hst, rfl⟩
      refine ⟨_, mem_scanKeys_glob.mpr ⟨?_, h0⟩, hadm, (hfi _).mpr htu⟩
      rw [hkey]
      exact hs _ htu

/-! ## Ranges -/

/-- The columns of a range plan: the ordinals it fixes and the ordinal it bounds. -/
def rangeColumns (tbl : TableSchema) (index : String) : Option (List ℕ × ℕ) :=
  (tbl.indexes.find? (·.name == index)).bind fun idx =>
    ((idx.columnIndexes tbl).mapM id).bind fun ords =>
      ords.getLast?.map fun last => (ords.dropLast, last)

/-- The value lies in the range, in SQL order. -/
def InRange (affinity : Affinity) (lower upper : Option (Bound × Value)) (x : Value) : Prop :=
  x.isNull = false ∧
    (∀ kind l, lower = some (kind, l) → sqlCompare affinity x l = some .gt ∨
      (sqlCompare affinity x l = some .eq ∧ kind = .inclusive)) ∧
    ∀ kind u, upper = some (kind, u) → sqlCompare affinity x u = some .lt ∨
      (sqlCompare affinity x u = some .eq ∧ kind = .inclusive)

/-- The range plan loses no row of its range, and returns no row that violates its equality
prefix. -/
def RangeComplete [Keytrie] (c : Conn) (tbl : TableSchema) (index : String) (eqOrds : List ℕ)
    (last : ℕ) (eqArgs : List Value) (lower upper : Option (Bound × Value)) : Prop :=
  ∃ rows, runPlan c (.indexRange index (lower.map Prod.fst) (upper.map Prod.fst))
      (rangeArgv eqArgs lower upper) = .ok rows ∧
    (∀ pk r, rowAt tbl c.view pk = some r → ComparesEqual tbl eqOrds eqArgs r.cols = true →
      InRange (tbl.affinityAt last) lower upper (TableSchema.valueAt r.cols last) → r ∈ rows) ∧
    ∀ r ∈ rows, ComparesEqual tbl eqOrds eqArgs r.cols = true

theorem TableInv.exists_rangeColumns {v : VTable} (h : TableInv s v tbl)
    (hcs : rangeColumns tbl index = some (eqOrds, last)) :
    ∃ idx, tbl.indexes.find? (·.name == index) = some idx ∧
      Resolves tbl idx.columns (eqOrds ++ [last]) := by
  simp only [rangeColumns, Option.bind_eq_some_iff, Option.map_eq_some_iff] at hcs
  obtain ⟨idx, hf, ords, hords, last', hl, rfl, rfl⟩ := hcs
  have hidx : idx ∈ tbl.indexes := mem_of_find?_eq_some hf
  obtain ⟨ords', hords', hres⟩ := exists_resolves (h.wf.index_columns idx hidx)
  obtain rfl : ords' = ords := Option.some.inj (hords'.symm.trans hords)
  refine ⟨idx, hf, ?_⟩
  rwa [dropLast_append_getLast? _ hl]

/-- Outside a transaction the key of every entry is committed. -/
theorem TableInv.filterIndexRange_ok [Keytrie] (hi : c.session.txContext = none)
    (hinv : TableInv c.store c.vtab tbl) (hsch : c.vtab.schema = tbl)
    (hcs : rangeColumns tbl index = some (eqOrds, last))
    (hlen : eqArgs.length = eqOrds.length) (lower upper : Option (Bound × Value)) :
    ∃ rows, filterIndexRange c index (lower.map Prod.fst) (upper.map Prod.fst)
        (rangeArgv eqArgs lower upper) = .ok rows ∧
      Selects tbl c.store (fun pk =>
        Reached tbl eqOrds last eqArgs lower upper (rowOf c.store tbl.tableID pk)
          (readRow tbl pk (rowOf c.store tbl.tableID pk))) rows := by
  obtain ⟨idx, hf, hres⟩ := hinv.exists_rangeColumns hcs
  have hidx : idx ∈ tbl.indexes := mem_of_find?_eq_some hf
  have hs (pk e : Bytes) (he : storedTuple tbl idx (rowOf c.store tbl.tableID pk) = some e) :
      indexKey idx.indexID e ∈ c.store := by
    have hent := (hinv.agrees idx hidx e pk).mpr he
    by_contra hmem
    rw [entriesOf, cell_of_getElem?_eq_none (Std.ExtTreeMap.getElem?_eq_none hmem)] at hent
    cases hent
  obtain ⟨rows, hr, hsel⟩ :=
    (readable_of_idle hi hinv hsch).filterIndexRange_ok hf hres hlen lower upper
  rw [Conn.view_of_idle hi] at hsel
  exact ⟨rows, hr, hsel.congr fun pk _ _ => and_iff_left (hs pk)⟩

/-- What is asked of one row: it is reached if it compares equal with the prefix and lies in
the range, and compares equal with the prefix if it is reached. -/
def RangeFaithful (tbl : TableSchema) (eqOrds : List ℕ) (last : ℕ) (eqArgs : List Value)
    (lower upper : Option (Bound × Value)) (row : Bytes → Option Payload) (cols : List Value) :
    Prop :=
  (ComparesEqual tbl eqOrds eqArgs cols = true →
    InRange (tbl.affinityAt last) lower upper (TableSchema.valueAt cols last) →
    Reached tbl eqOrds last eqArgs lower upper row cols) ∧
  (Reached tbl eqOrds last eqArgs lower upper row cols →
    ComparesEqual tbl eqOrds eqArgs cols = true)

/-- **Range plans against SQL order.**  In a committed state a range plan loses no row of its
range and returns no row that violates its equality prefix exactly when every row of the
table that compares equal with the prefix and lies in the range is reached, and every row
that is reached compares equal with the prefix. -/
theorem rangeComplete_iff [Keytrie] (hidle : c.session.txContext = none)
    (hinv : TableInv c.store c.vtab tbl) (hschema : c.vtab.schema = tbl) {index : String}
    (hcols : rangeColumns tbl index = some (eqOrds, last))
    (hlen : eqArgs.length = eqOrds.length) (lower upper : Option (Bound × Value)) :
    RangeComplete c tbl index eqOrds last eqArgs lower upper ↔
      ∀ pk, Live c.store tbl.tableID pk → RangeFaithful tbl eqOrds last eqArgs lower upper
        (rowOf c.store tbl.tableID pk) (readRow tbl pk (rowOf c.store tbl.tableID pk)) := by
  obtain ⟨rows, hrw, -, hsel⟩ := hinv.filterIndexRange_ok hidle hschema hcols hlen lower upper
  rw [RangeComplete, Conn.view_of_idle hidle]
  constructor
  · rintro ⟨rows', hrows', hall, hsound⟩ pk hl
    rw [runPlan, hrw, Except.ok.injEq] at hrows'
    subst hrows'
    have hr : rowAt tbl c.store pk =
        some ⟨pk, readRow tbl pk (rowOf c.store tbl.tableID pk)⟩ :=
      rowAt_eq_some_iff.mpr ⟨hl, rfl⟩
    have hmem := hsel ⟨pk, readRow tbl pk (rowOf c.store tbl.tableID pk)⟩
    refine ⟨fun heq hrange => ?_, fun hre => ?_⟩
    · exact (hmem.mp (hall pk _ hr heq hrange)).2
    · exact hsound _ (hmem.mpr ⟨hr, hre⟩)
  · intro h
    refine ⟨rows, hrw, fun pk r hr heq hrange => ?_, fun r hr => ?_⟩
    · obtain ⟨hl, rfl⟩ := rowAt_eq_some_iff.mp hr
      exact (hsel _).mpr ⟨hr, (h pk hl).1 heq hrange⟩
    · obtain ⟨hr, hre⟩ := (hsel r).mp hr
      obtain ⟨hl, hcols⟩ := rowAt_eq_some_iff.mp hr
      rw [hcols]
      exact (h r.pk hl).2 hre

/-! ## Ranges over the class of their column -/

/-- Values of the class of the column stand to each other as their entries do. -/
theorem sqlCompare_of_exact (alone : Bool) (hx : x.Exact affinity) (hl : l.Exact affinity) :
    sqlCompare affinity x l = some (entryCompare alone affinity x l) := by
  cases x with
  | integer i =>
    obtain rfl : affinity = .integer := hx
    cases l <;> simp only [Value.Exact, reduceCtorEq, false_and] at hl
    rw [sqlCompare_integer]
    rfl
  | float f =>
    obtain ⟨rfl, y, hf, hy⟩ := hx
    cases l <;> simp only [Value.Exact, reduceCtorEq, true_and] at hl
    obtain ⟨z, hg, -⟩ := hl
    rw [sqlCompare_real hf hg, entryCompare]
    simp only [Value.toFloat, compare_floatBits hf hg (.inl hy)]
  | text b =>
    obtain rfl : affinity = .text := hx
    cases l <;> simp only [Value.Exact, reduceCtorEq, false_and] at hl
    rfl
  | blob b =>
    obtain rfl : affinity = .blob := hx
    cases l <;> simp only [Value.Exact, reduceCtorEq, false_and] at hl
    rfl
  | null | unchanged => exact hx.elim

theorem withinBounds_of_inRange (hpl : HasPlace alone affinity x) (hx : x.Exact affinity)
    (hlo : ∀ kind l, lower = some (kind, l) → l.Exact affinity)
    (hup : ∀ kind u, upper = some (kind, u) → u.Exact affinity)
    (h : InRange affinity lower upper x) : WithinBounds alone affinity lower upper x := by
  obtain ⟨-, hl, hu⟩ := h
  refine ⟨hpl, ?_, ?_⟩
  · match lower with
    | none => trivial
    | some (kind, l) =>
      have hcmp := hl kind l rfl
      rw [sqlCompare_of_exact alone hx (hlo kind l rfl)] at hcmp
      cases kind <;> rcases hcmp with hcmp | ⟨hcmp, hk⟩ <;>
        simp_all [AboveLower]
  · match upper with
    | none => trivial
    | some (kind, u) =>
      have hcmp := hu kind u rfl
      rw [sqlCompare_of_exact alone hx (hup kind u rfl)] at hcmp
      right
      simpa using hcmp

/-- A row that stores the columns of the index in the class of their affinity, against
arguments of that class: it is found unless it has an empty text or blob alone in its
index. -/
theorem rangeFaithful_of_exact (ha : ∀ p ∈ eqOrds.zip eqArgs, p.2.Exact (tbl.affinityAt p.1))
    (hlo : ∀ kind l, lower = some (kind, l) → l.Exact (tbl.affinityAt last))
    (hup : ∀ kind u, upper = some (kind, u) → u.Exact (tbl.affinityAt last))
    (hrow : ∀ ord ∈ eqOrds ++ [last], (row (utf8 (tbl.nameAt ord))).isSome = true ∧
      (valueAt cols ord).Exact (tbl.affinityAt ord))
    (hpl : HasPlace eqOrds.isEmpty (tbl.affinityAt last) (valueAt cols last)) :
    RangeFaithful tbl eqOrds last eqArgs lower upper row cols := by
  have hcast : CastsAlike tbl eqOrds eqArgs row cols ↔ _ :=
    castsAlike_iff_of_exact fun p hp => by
      obtain ⟨hst, hexact⟩ := hrow p.1 (mem_append_left _ (of_mem_zip hp).1)
      exact ⟨hst, hexact, ha p hp⟩
  obtain ⟨hl, hexact⟩ := hrow last (mem_append_right _ (mem_singleton.mpr rfl))
  refine ⟨fun heq hrange => ⟨hcast.mpr heq, hl, ?_⟩, fun hre => hcast.mp hre.1⟩
  exact withinBounds_of_inRange hpl hexact hlo hup hrange

end Reach

/-! ## The empty text -/

section Sample

local instance rangeHost : Host := Host.inert

local instance rangeKeytrie : Keytrie := Keytrie.ofPrefix

/-- An index on the name of `nameTable`. -/
def nameIndex : IndexSchema := ⟨"t_name", List.replicate 16 1, "t", [1], ["name"], false⟩

/-- `CREATE TABLE t (id INTEGER PRIMARY KEY, name TEXT)` with an index on the name. -/
def nameTable : TableSchema where
  name := "t"
  tableID := [1]
  columns := [⟨"id", .integer, "INTEGER", true, true, none⟩,
    ⟨"name", .text, "TEXT", false, false, none⟩]
  pkColumns := [0]
  indexes := [nameIndex]
  syntheticPK := false

theorem nameTable_wellFormed : nameTable.WellFormed where
  names_nodup := by decide
  pk_lt := by decide
  synthetic_iff := by decide
  index_ids_nodup := by decide
  index_id_length := by decide
  index_columns := by decide
  index_columns_ne_nil := by decide

/-- After `INSERT INTO t VALUES (0, '')`. -/
def rowUnnamed : Conn := (TableOp.insert 0 [.integer 0, .text []]).step (Conn.create nameTable)

theorem inv_rowUnnamed :
    rowUnnamed.session.txContext = none ∧ TableInv rowUnnamed.store rowUnnamed.vtab nameTable := by
  have hfr := freshTable_create nameTable_wellFormed (by decide)
  obtain ⟨hi, tbl, h⟩ : rowUnnamed.Inv := by
    refine hfr.inv.step ⟨fun i => ?_, fun pk _ => hfr.no_rows pk⟩ fun tbl hs hsyn => ?_
    · match i with
      | 0 => rfl
      | 1 => rfl
      | i + 2 => rfl
    · obtain rfl := Except.ok.inj (hs.symm.trans hfr.stored)
      cases hsyn
  have hn : storedSchema rowUnnamed.store rowUnnamed.vtab.name = .ok nameTable := by rfl
  obtain rfl := Except.ok.inj (h.stored.symm.trans hn)
  exact ⟨hi, h⟩

/-- `SELECT * FROM t WHERE name <= 'a'` loses the row with the empty name. -/
theorem range_loses_rowUnnamed :
    rowUnnamed.session.txContext = none ∧ TableInv rowUnnamed.store rowUnnamed.vtab nameTable ∧
      rowUnnamed.vtab.schema = nameTable ∧ rangeColumns nameTable "t_name" = some ([], 1) ∧
      runPlan rowUnnamed (.indexRange "t_name" none (some .inclusive)) [.text [0x61]] = .ok [] ∧
      ¬ RangeComplete rowUnnamed nameTable "t_name" [] 1 [] none
        (some (.inclusive, .text [0x61])) := by
  have hp : runPlan rowUnnamed (.indexRange "t_name" none (some .inclusive)) [.text [0x61]] =
      .ok [] := by rfl
  refine ⟨inv_rowUnnamed.1, inv_rowUnnamed.2, by rfl, by decide, hp, ?_⟩
  rintro ⟨rows, hr, hall, -⟩
  obtain rfl := Except.ok.inj (hp.symm.trans hr)
  have hrow : rowAt nameTable rowUnnamed.view (pkOfRowID 0) =
      some ⟨pkOfRowID 0, [.integer 0, .text []]⟩ := by rfl
  refine absurd (hall _ _ hrow rfl ⟨rfl, fun _ _ h => by simp at h, fun kind u h => ?_⟩) (by simp)
  obtain ⟨rfl, rfl⟩ : Bound.inclusive = kind ∧ Value.text [0x61] = u := by simpa using h
  exact .inl rfl

/-- `SELECT * FROM t WHERE id >= 0` over an index on the integer key. -/
theorem rangeComplete_rowZero :
    RangeComplete rowZero keyTable "t_id" [] 0 [] (some (.inclusive, .integer 0)) none := by
  have hi : rowZero.session.txContext = none := by rfl
  have hv : rowZero.view = rowZero.store := Conn.view_of_idle hi
  refine (rangeComplete_iff hi (hv ▸ readable_rowZero.inv) (by rfl) (by decide) rfl _
    _).mpr fun pk hl => ?_
  obtain ⟨hst, hexact⟩ := exact_rowZero (hv ▸ hl)
  refine rangeFaithful_of_exact (by simp) (fun kind l h => ?_) (by simp) (fun ord hord => ?_) ?_
  · obtain ⟨rfl, rfl⟩ : Bound.inclusive = kind ∧ Value.integer 0 = l := by simpa using h
    rfl
  · obtain rfl : ord = 0 := mem_singleton.mp hord
    exact ⟨hst, hexact⟩
  · intro _ hne
    exact absurd rfl hne

end Sample

end Swytch.Sql
