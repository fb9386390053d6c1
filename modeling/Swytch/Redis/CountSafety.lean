import Swytch.Redis.ArgumentCounts

/-!
# When counts among the arguments are safe

For each family of commands there is one argument.  Where the count fits, the sum with which it is
compared is exact, so that the arguments are enough for what is read and allocated after the
comparison; where it does not fit, the sum is negative, the comparison passes and the allocation is
the fault.  The fields of a hash can be given more than once, so that the argument is by induction
on the rounds of the parser.
-/

namespace Swytch.Redis.ArgumentCounts

open Except
open Option
open List
open Sql (Bytes utf8)
open Checked

variable {rest : List Bytes} {count : ℤ} {runner : Bool → ℤ → List Bytes → Comp CountReply}
    {op : SetOp}

/-! ## 1.  The pops -/

variable {β : Type} {i dirIdx position : ℕ} {short fits : Prop} {n : ℤ} {keys values : List Bytes}
    {s : Section} {reply : List Bytes → Comp CountReply}

variable {extra : ℕ}

section Pops

variable {args : List Bytes} {form : PopForm}

theorem get_bind (h : i < args.length) {f : Bytes → Comp β} :
    get args (i : ℤ) >>= f = f (args.getD i []) := by
  obtain ⟨arg, harg, rfl⟩ := returns_get h
  rw [harg, getD_eq_getElem _ _ h]
  rfl

/-- Safe where the count fits, and otherwise a burst. -/
def SafeIff (fits short : Prop) (m : Comp CountReply) : Prop :=
  (fits → Safe short m) ∧ (¬ fits → Bursts m)

theorem safeIff_error (hf : fits) (text : Bytes) : SafeIff fits short (.ok (.error text)) :=
  ⟨fun _ => safe_error text, fun h => absurd hf h⟩

/-- A command that first asks for so many arguments. -/
theorem safeIff_guard {least : ℕ} {refusal : Bytes} {m : Comp CountReply}
    (h : least ≤ args.length → SafeIff fits short m) :
    SafeIff (least ≤ args.length → fits) short
      (if args.length < least then return .error refusal else m) := by
  split
  · exact safeIff_error (fun hle => absurd hle (by omega)) _
  · rename_i hlen
    rw [SafeIff, forall_prop_of_true (not_lt.mp hlen)]
    exact h (not_lt.mp hlen)

/-- The options come to a result, with a count that is positive. -/
def PopForm.Reads (form : PopForm) (args : List Bytes) : Prop :=
  ∀ dirIdx < args.length, Returns (form.options args dirIdx) fun result =>
    ∀ options, result = .ok options → 1 ≤ options.2

theorem listOptions_returns (h : dirIdx < args.length) :
    Returns (listOptions args dirIdx) fun result =>
      ∀ options, result = .ok options → 1 ≤ options.2 := by
  unfold listOptions
  rw [get_bind h]
  split
  · exact returns_pure fun _ hopt => nomatch hopt
  · split
    · split
      · exact returns_pure fun _ hopt => nomatch hopt
      · rw [get_bind (by omega)]
        split
        · exact returns_pure fun _ hopt => nomatch hopt
        · rw [get_bind (by omega)]
          split
          · exact returns_pure fun _ hopt => nomatch hopt
          · split
            · exact returns_pure fun _ hopt => nomatch hopt
            · rename_i count _ hc
              refine returns_pure fun options hopt => ?_
              cases hopt
              exact not_lt.mp hc
    · refine returns_pure fun options hopt => ?_
      cases hopt
      exact le_refl _

theorem zsetCount_pos {given : Option ℤ}
    (hgiven : ∀ n ∈ given, 1 ≤ n) (h : zsetCount rest given = .ok count) : 1 ≤ count := by
  fun_induction zsetCount rest given with
  | case1 given =>
    cases h
    cases given with
    | none => exact le_refl _
    | some n => exact hgiven n rfl
  | case2 => cases h
  | case3 => cases h
  | case4 => cases h
  | case5 => cases h
  | case6 word given hw arg rest n _ hn ih =>
    refine ih ?_ h
    rintro m hm
    cases hm
    omega

theorem zsetOptions_returns (h : dirIdx < args.length) :
    Returns (zsetOptions args dirIdx) fun result =>
      ∀ options, result = .ok options → 1 ≤ options.2 := by
  have hc : ∀ front options, (zsetCount (args.drop (dirIdx + 1)) none).map
      (fun count => ((front : Bool), count)) = .ok options → 1 ≤ options.2 := by
    intro front options hopt
    cases hrd : zsetCount (args.drop (dirIdx + 1)) none with
    | error reply =>
      rw [hrd] at hopt
      cases hopt
    | ok count =>
      rw [hrd] at hopt
      cases hopt
      exact zsetCount_pos (by simp) hrd
  unfold zsetOptions
  rw [get_bind h]
  split
  · exact returns_pure (hc true)
  · split
    · exact returns_pure (hc false)
    · exact returns_pure fun _ hopt => nomatch hopt

/-- A number of keys that fits and passes the check: the arguments are enough. -/
theorem NumkeysFits.exact (hf : NumkeysFits args position extra)
    (hn : parseInt64 (args.getD position []) = some n) (hpos : ¬ n < 1)
    (hch : ¬ (args.length : ℤ) < wrap64 (n + extra)) :
    n + extra ≤ args.length ∧ ¬ NumkeysShort args position extra := by
  have hbd := hf n hn
  rw [wrap64_of_fits (by omega) hbd, not_lt] at hch
  refine ⟨hch, ?_⟩
  rintro ⟨m, hm, -, hsh⟩
  obtain rfl := some.inj (hn.symm.trans hm)
  omega

/-- A number that does not fit passes the check and cannot be allocated. -/
theorem exists_of_not_numkeysFits (hsz : args.length < 2 ^ 62) (hextra : extra < 2 ^ 61)
    (hf : ¬ NumkeysFits args position extra) :
    ∃ n, parseInt64 (args.getD position []) = some n ∧ ¬ n < 1 ∧
      ¬ (args.length : ℤ) < wrap64 (n + extra) ∧ 2 ^ 62 ≤ n ∧
      alloc args.length n = .error (.alloc n args.length) := by
  unfold NumkeysFits at hf
  push Not at hf
  obtain ⟨n, hn, hbig⟩ := hf
  obtain ⟨-, hhi⟩ := parseInt64_bounds hn
  refine ⟨n, hn, by omega, ?_, by omega, alloc_eq_error (by omega)⟩
  rw [wrap64_of_overflow hbig (by omega)]
  omega

/-- A pop of either kind is safe where its number of keys fits, and otherwise bursts: the
allocation of the keys stops everything. -/
theorem PopForm.handle_iff (form : PopForm) (hoff : form.offset ≤ 1)
    (hsz : args.length < 2 ^ 62) (hrds : form.Reads args)
    (hrn : ∀ first count keys, 1 ≤ count → keys.length ≤ args.length →
      Finishes (runner first count keys)) :
    SafeIff (form.offset + 3 ≤ args.length → NumkeysFits args form.offset (form.offset + 2))
      (NumkeysShort args form.offset (form.offset + 2)) (form.handle args runner) := by
  refine safeIff_guard fun hlen => ⟨fun hf => ?_, fun hf => ?_⟩
  · rw [get_bind (by omega)]
    split
    · exact safe_error _
    · rename_i numKeys hnumKeys
      split
      · exact safe_error _
      · rename_i hpos
        split
        · exact safe_error _
        · rename_i hch
          obtain ⟨henough, hnotShort⟩ := hf.exact hnumKeys hpos (by exact_mod_cast hch)
          obtain ⟨n, rfl⟩ := Int.eq_ofNat_of_zero_le (show 0 ≤ numKeys by omega)
          -- The arguments are enough, so that nothing is to be shown of the reply.
          suffices h : Finishes _ from h.imp fun _ _ hsh => absurd hsh hnotShort
          have halloc : Finishes (form.allocKeys args n) := by
            have honce : Finishes (alloc args.length n) := returns_alloc (by omega) (by omega)
            unfold PopForm.allocKeys
            split
            · exact honce.bind fun _ _ => honce
            · exact honce
          refine halloc.bind fun _ _ => ?_
          have hks : Returns (getEach args (fun i => (form.offset + 1 + i : ℕ)) (n : ℤ).toNat)
              fun keys => keys.length = n := by
            refine returns_getEach fun i hi => ⟨_, ?_, rfl⟩
            omega
          refine hks.bind fun keys hlengthKeys => ?_
          refine (hrds _ (by rw [Int.toNat_natCast]; omega)).bind fun result hres => ?_
          cases result with
          | error reply => exact finishes_pure
          | ok options => exact hrn _ _ _ (hres _ rfl) (by omega)
  · obtain ⟨n, hn, hpos, hch, hbig, hallocate⟩ :=
      exists_of_not_numkeysFits hsz (by omega) hf
    have halloc : form.allocKeys args n = .error (.alloc n args.length) := by
      unfold PopForm.allocKeys
      rw [hallocate]
      split
      · rfl
      · rfl
    refine ⟨n, args.length, ?_, .inr hbig⟩
    rw [get_bind (by omega), hn]
    simp only
    rw [if_neg hpos, if_neg (by exact_mod_cast hch), halloc]
    rfl

theorem popElements_returns (front : Bool) (elements : List (Bytes × Bytes))
    (hc : 1 ≤ count) : Finishes (popElements args front count elements) := by
  refine (returns_alloc (by omega) (by push_cast; omega)).bind fun _ _ => ?_
  refine (returns_getEach fun i hi => ?_).finishes
  cases front with
  | true => exact ⟨i, by omega, rfl⟩
  | false =>
    refine ⟨elements.length - 1 - i, by omega, ?_⟩
    simp only [Bool.false_eq_true, if_false]
    omega

theorem popSorted_returns (front : Bool) (sorted : List (Bytes × Bytes))
    (hc : 1 ≤ count) : Finishes (popSorted args front count sorted) := by
  refine (returns_alloc (by omega) (by push_cast; omega)).bind fun _ _ => ?_
  split
  · obtain ⟨n, hn⟩ := Int.eq_ofNat_of_zero_le (show 0 ≤ min count sorted.length by omega)
    rw [hn]
    exact (returns_sliceTo (by omega)).finishes
  · exact popElements_returns front sorted hc

variable {pop : Pop} {first : Bool}

section

variable (hpop : ∀ elements, Finishes (pop first count elements))

include hpop

theorem popFound_returns (view : Bytes → Seen) : Finishes (popFound pop view first count keys) := by
  induction keys with
  | nil => exact finishes_pure
  | cons key keys ih =>
    unfold popFound
    split
    · split
      · exact ih
      · exact (hpop _).bind fun _ _ => finishes_pure
    · exact ih

theorem popChecked_returns (view : Bytes → Seen) :
    Finishes (popChecked pop view first count keys) := by
  induction keys with
  | nil => exact finishes_pure
  | cons key keys ih =>
    unfold popChecked
    split
    · exact ih
    · exact finishes_pure
    · split
      · exact ih
      · exact (hpop _).bind fun _ _ => finishes_pure

theorem tryKeys_returns (look : Look) (keys : List Bytes) :
    Finishes (tryKeys pop look first count keys) := by
  induction keys with
  | nil => exact finishes_pure
  | cons key keys ih =>
    unfold tryKeys
    split
    · exact ih
    · split
      · split
        · exact ih
        · exact (hpop _).bind fun _ _ => finishes_pure
      · exact ih

theorem waitLoop_returns (unblocked : Bool) {looks : List Look} :
    Finishes (waitLoop pop unblocked first count keys looks) := by
  induction looks with
  | nil => exact finishes_pure
  | cons look looks ih =>
    refine (tryKeys_returns hpop look keys).bind fun result _ => ?_
    cases result with
    | some reply => exact finishes_pure
    | none => exact ih

theorem blockOn_returns (world : World) (hks : keys.length ≤ args.length) :
    Finishes (blockOn args pop world first count keys) := by
  unfold blockOn
  split
  · exact finishes_pure
  · refine (returns_alloc (by omega) (by omega)).bind fun _ _ => ?_
    split
    · exact finishes_pure
    · exact waitLoop_returns hpop _

end

theorem popLists_returns (world : World) (hc : 1 ≤ count) (keys : List Bytes) :
    Finishes (popLists args world first count keys) := by
  unfold popLists
  split
  · exact finishes_pure
  · exact popFound_returns (fun elements => popElements_returns _ elements hc) _

/-- The check of the timeout comes first. -/
theorem checkTimeout_iff {world : World} {handler : Comp CountReply}
    (h : SafeIff (form.offset + 3 ≤ args.length → fits) short handler) :
    SafeIff (form.offset + 3 ≤ args.length → world.timeoutError (args.getD 0 []) = none → fits)
      short (checkTimeout form world args handler) := by
  refine safeIff_guard fun hlen => ?_
  rw [SafeIff, forall_prop_of_true hlen] at h
  rw [get_bind (by omega)]
  cases htimeout : world.timeoutError (args.getD 0 []) with
  | some text => exact safeIff_error (fun hn => nomatch hn) text
  | none => rwa [SafeIff, forall_prop_of_true rfl]

end Pops

/-! ## 2.  The set operations -/

section SetOps

variable {weights : List Bytes} {args : List Bytes} {view : Bytes → Seen} {isWeight : Bytes → Bool}
    {withScores : Bool}

theorem takeWeights_length {n : ℕ} {taken : List Bytes × List Bytes}
    (h : takeWeights isWeight n rest = .ok taken) : taken.1.length = n := by
  induction n generalizing rest taken with
  | zero =>
    cases h
    rfl
  | succ n ih =>
    cases rest with
    | nil => cases h
    | cons arg rest =>
      unfold takeWeights at h
      split at h
      · cases h
      · cases ht : takeWeights isWeight n rest with
        | error text =>
          rw [ht] at h
          cases h
        | ok more =>
          rw [ht] at h
          cases h
          rw [length_cons, ih ht]

/-- The options leave the keys, and there are as many weights. -/
theorem setOpOptions_lengths {rounds : ℕ} {result : SetOp}
    (hws : op.weights.length = op.keys.length)
    (h : setOpOptions isWeight withScores rounds op rest = .ok result) :
    result.keys = op.keys ∧ result.weights.length = op.keys.length := by
  fun_induction setOpOptions isWeight withScores rounds op rest with
  | case1 op rest =>
    cases h
    exact ⟨rfl, hws⟩
  | case2 rounds op =>
    cases h
    exact ⟨rfl, hws⟩
  | case3 => cases h
  | case4 rounds op opt rest _ weights rest' ht ih =>
    exact ih (takeWeights_length ht) h
  | case5 => cases h
  | case6 rounds op opt _ _ arg rest _ ih => exact ih hws h
  | case7 => cases h
  | case8 rounds op opt rest _ _ _ ih => exact ih hws h
  | case9 => cases h

/-- The keys and the weights that a runner gets. -/
structure SetOp.Valid (op : SetOp) : Prop where
  keys : op.keys ≠ []
  weights : op.weights.length = op.keys.length

theorem parseSetOp_returns (name : String) (hlen : 2 ≤ args.length) (hf : NumkeysFits args 0 1) :
    Returns (parseSetOp name isWeight withScores args) fun result =>
      (NumkeysShort args 0 1 → ∃ text, result = .error text) ∧
        ∀ op, result = .ok op → op.Valid := by
  have href : ∀ text : String, Returns (.ok (.error text) : Comp (Except String SetOp))
      fun result => (NumkeysShort args 0 1 → ∃ text, result = .error text) ∧
        ∀ op, result = .ok op → op.Valid :=
    fun text => returns_pure ⟨fun _ => ⟨text, rfl⟩, fun _ hop => nomatch hop⟩
  unfold parseSetOp
  rw [if_neg (by omega), get_bind (by omega)]
  split
  · exact href _
  · rename_i numKeys hnumKeys
    split
    · exact href _
    · rename_i hpos
      split
      · exact href _
      · rename_i hch
        rw [Int.add_comm] at hch
        obtain ⟨henough, hnotShort⟩ := hf.exact hnumKeys hpos hch
        obtain ⟨n, rfl⟩ := Int.eq_ofNat_of_zero_le (show 0 ≤ numKeys by omega)
        refine (returns_alloc (by omega) (by omega)).bind fun _ _ => ?_
        have hks : Returns (getEach args (fun i => (1 + i : ℕ)) (n : ℤ).toNat)
            fun keys => keys.length = n := by
          refine returns_getEach fun i hi => ⟨_, ?_, rfl⟩
          omega
        refine hks.bind fun keys hlengthKeys => ?_
        refine (returns_alloc (by omega) (by omega)).bind fun _ _ => ?_
        refine returns_pure ⟨fun hsh => absurd hsh hnotShort, fun op hop => ?_⟩
        obtain ⟨hsame, hws⟩ := setOpOptions_lengths (by simp) hop
        refine ⟨?_, by rw [hsame, hws]⟩
        rw [hsame, ← length_pos_iff, hlengthKeys]
        omega

theorem setOperation_iff {name : String} (world : World) {run : SetOp → Comp CountReply}
    (hsz : args.length < 2 ^ 62) (hlen : 2 ≤ args.length)
    (hrun : ∀ op, op.Valid → Finishes (run op)) :
    SafeIff (NumkeysFits args 0 1) (NumkeysShort args 0 1)
      (setOperation name world withScores args run) := by
  unfold setOperation
  constructor
  · intro hf
    refine (parseSetOp_returns name hlen hf).bind fun result ⟨hsh, hva⟩ => ?_
    cases result with
    | error text => exact safe_error _
    | ok op =>
      refine (hrun op (hva op rfl)).imp fun reply _ ha => ?_
      obtain ⟨text, htext⟩ := hsh ha
      cases htext
  · intro hf
    obtain ⟨n, hn, hpos, hch, hbig, hallocate⟩ :=
      exists_of_not_numkeysFits hsz (by decide) hf
    rw [Int.add_comm] at hch
    refine ⟨n, args.length, ?_, .inr hbig⟩
    unfold parseSetOp
    rw [if_neg (by omega), get_bind (by omega), hn]
    simp only
    rw [if_neg hpos, if_neg (by exact_mod_cast hch), hallocate]
    rfl

theorem mapM_get_returns (hi : i < weights.length) (xs : List β) :
    Finishes (xs.mapM fun _ => get weights (i : ℤ)) :=
  (returns_mapM xs fun _ _ => (returns_get hi).finishes).finishes

theorem length_addMembers_le (result : List Bytes) (members : List (Bytes × Bytes)) :
    (addMembers result members).length ≤ result.length + members.length := by
  unfold addMembers
  rw [length_append]
  have := length_filter_le (fun member => decide (member ∉ result)) (members.map Prod.fst)
  rw [length_map] at this
  omega

theorem unionLoop_returns (keys result : List Bytes) (i : ℕ)
    (hws : i + keys.length ≤ weights.length) :
    Returns (unionLoop args view weights i keys result) fun out =>
      ∀ union, out = .ok union → union.length ≤ result.length + totalSize view keys := by
  induction keys generalizing i result with
  | nil =>
    refine returns_pure fun union hunion => ?_
    cases hunion
    exact Nat.le_add_right _ _
  | cons key keys ih =>
    rw [length_cons] at hws
    have htotal : totalSize view (key :: keys) = (view key).size + totalSize view keys := by
      simp [totalSize]
    unfold unionLoop
    split
    · exact returns_pure fun _ hunion => nomatch hunion
    · refine (ih result (i + 1) (by omega)).imp fun out hout union hunion => ?_
      have := hout union hunion
      omega
    · rename_i members hv
      refine (returns_alloc (by omega) (by push_cast; omega)).bind fun _ _ => ?_
      refine (mapM_get_returns (by omega) members).bind fun _ _ => ?_
      refine (ih (addMembers result members) (i + 1) (by omega)).imp
        fun out hout union hunion => ?_
      have hsum := hout union hunion
      have hadd := length_addMembers_le result members
      have hsz : (view key).size = members.length := by
        rw [hv]
        rfl
      omega

theorem interLoop_returns (keys result : List Bytes) (i : ℕ)
    (hws : i + keys.length ≤ weights.length) :
    Returns (interLoop args view weights i keys result) fun out =>
      ∀ inter, out = .ok (some inter) → inter.length ≤ result.length := by
  induction keys generalizing i result with
  | nil =>
    refine returns_pure fun inter hit => ?_
    obtain rfl := some.inj (ok.inj hit)
    exact le_refl _
  | cons key keys ih =>
    rw [length_cons] at hws
    unfold interLoop
    split
    · exact returns_pure fun _ hit => nomatch hit
    · exact returns_pure fun _ hit => nomatch (ok.inj hit)
    · refine (returns_alloc (by omega) (by push_cast; omega)).bind fun _ _ => ?_
      refine (mapM_get_returns (by omega) _).bind fun _ _ => ?_
      split
      · refine returns_pure fun inter hit => ?_
        obtain rfl := some.inj (ok.inj hit)
        exact Nat.zero_le _
      · refine (ih _ (i + 1) (by omega)).imp fun out hout inter hit => ?_
        exact (hout inter hit).trans (length_filter_le ..)

theorem intersect_returns (hop : op.Valid) :
    Returns (intersect args view op) fun out =>
      ∀ inter, out = .ok (some inter) → inter.length ≤ totalSize view op.keys := by
  obtain ⟨keys, weights, aggregate⟩ := op
  obtain ⟨first, keys, rfl⟩ := exists_cons_of_ne_nil hop.keys
  have hws : weights.length = keys.length + 1 := hop.weights
  have htotal : totalSize view (first :: keys) = (view first).size + totalSize view keys := by
    simp [totalSize]
  unfold intersect
  rw [get_bind (Nat.succ_pos _)]
  split
  · exact returns_pure fun _ hit => nomatch hit
  · exact returns_pure fun _ hit => nomatch (ok.inj hit)
  · rename_i members hv
    refine (returns_alloc (by omega) (by push_cast; omega)).bind fun _ _ => ?_
    have hf : 0 < weights.length := by omega
    have hfurther : 1 + keys.length ≤ weights.length := by omega
    refine (mapM_get_returns hf members).bind fun _ _ => ?_
    refine (interLoop_returns keys _ 1 hfurther).imp fun out hout inter hit => ?_
    have hle := hout inter hit
    have hsz : (view first).size = members.length := congrArg Seen.size hv
    rw [length_map] at hle
    simp only at htotal ⊢
    omega

theorem replyEntries_returns {result : List Bytes} (h : result.length ≤ totalSize view keys) :
    Finishes (replyEntries args view keys result) := by
  exact (returns_alloc (by omega) (by push_cast; omega)).bind fun _ _ => finishes_pure

end SetOps

/-! ## 3.  The fields -/

section FieldLoops

variable {args : List Bytes} {form : FieldForm}

/-- A field has one argument or two. -/
def FieldForm.Strides (form : FieldForm) : Prop := form.stride = 1 ∨ form.stride = 2

/-- As many arguments as the fields have. -/
def FieldForm.Whole (form : FieldForm) (fields : Fields) : Prop :=
  fields.2.length = fields.1.toNat * form.stride

/-- A section that fits and has its arguments is copied. -/
theorem section_returns (hpos : 0 < n) (hle : values.length ≤ args.length)
    (hr : n * form.stride ≤ values.length) :
    Returns (getEach args (fun j => (args.length - values.length + j : ℕ))
      (n.toNat * form.stride)) fun copied => form.Whole (n, copied) := by
  refine returns_getEach fun j hj => ⟨_, ?_, rfl⟩
  obtain ⟨m, rfl⟩ := Int.eq_ofNat_of_zero_le hpos.le
  rw [Int.toNat_natCast] at hj
  omega

/-- What is left after a section. -/
theorem drop_section (hsuffix : values <:+ args) (hpos : 0 < n) :
    args.drop ((args.length - values.length : ℕ) + n * form.stride : ℤ).toNat =
      values.drop (n.toNat * form.stride) := by
  obtain ⟨m, rfl⟩ := Int.eq_ofNat_of_zero_le hpos.le
  obtain ⟨before, rfl⟩ := hsuffix
  have hb : (before ++ values).length - values.length = before.length := by
    rw [length_append]
    omega
  have hix : ((before.length : ℤ) + (m : ℤ) * form.stride).toNat =
      before.length + m * form.stride := by
    exact_mod_cast Int.toNat_natCast (before.length + m * form.stride)
  rw [hb, hix]
  simp

/-- What the loop comes to: an error if the arguments of a section are too few, and whole fields
if it is none. -/
def FieldForm.Result (form : FieldForm) (sections : List Section)
    (result : Except Bytes (FieldOptions × Option Fields)) : Prop :=
  ((∃ s ∈ sections, s.Short form) → ∃ text, result = .error text) ∧
    ∀ pair, result = .ok pair → ∀ f ∈ pair.2, form.Whole f

theorem FieldForm.result_error (sections : List Section) (text : Bytes) :
    form.Result sections (.error text) :=
  ⟨fun _ => ⟨text, rfl⟩, fun _ hp => nomatch hp⟩

theorem FieldForm.result_done {opts : FieldOptions} {fields : Option Fields}
    (hfs : ∀ f ∈ fields, form.Whole f) : form.Result [] (.ok (opts, fields)) := by
  refine ⟨fun ⟨s, hs, _⟩ => (nomatch hs), fun pair hp => ?_⟩
  cases hp
  exact hfs

/-- The numbers of a section that fits. -/
theorem Section.Fits.wrap (h : s.Fits form args) (hpos : 0 < s.numFields) :
    wrap64 (s.numFields * form.stride) = s.numFields * form.stride ∧
      wrap64 ((args.length - s.remaining : ℕ) + s.numFields * form.stride) =
        (args.length - s.remaining : ℕ) + s.numFields * form.stride := by
  have hnn : 0 ≤ s.numFields * form.stride := by positivity
  unfold Section.Fits at h
  exact ⟨wrap64_of_fits (by omega) (by omega), wrap64_of_fits (by omega) (by omega)⟩

/-- Where every section fits, the loop comes to such a result. -/
theorem FieldForm.loop_returns (rounds : ℕ) (opts : FieldOptions)
    (fields : Option Fields) (rest : List Bytes) (hsuffix : rest <:+ args)
    (hfs : ∀ f ∈ fields, form.Whole f)
    (hft : ∀ s ∈ form.sections rounds opts rest, s.Fits form args) :
    Returns (form.loop args rounds opts fields rest)
      (form.Result (form.sections rounds opts rest)) := by
  fun_induction FieldForm.sections form rounds opts rest generalizing fields with
  | case1 opts rest => exact returns_pure (form.result_done hfs)
  | case2 rounds opts => exact returns_pure (form.result_done hfs)
  | case3 rounds opts word rest text hstep =>
    simp only [FieldForm.loop, hstep]
    exact returns_pure (form.result_error _ text)
  | case4 rounds opts word rest hstep =>
    simp only [FieldForm.loop, hstep]
    exact returns_pure (form.result_error _ _)
  | case5 rounds opts word rest more taken hstep ih =>
    simp only [FieldForm.loop, hstep]
    exact ih fields ((drop_suffix _ _).trans ((suffix_cons _ _).trans hsuffix)) hfs
      hft
  | case6 rounds opts word hstep =>
    simp only [FieldForm.loop, hstep]
    exact returns_pure (form.result_error _ _)
  | case7 rounds opts word arg values hp hstep =>
    simp only [FieldForm.loop, hstep, hp]
    exact returns_pure (form.result_error _ _)
  | case8 rounds opts word arg values n hp hpos hstep =>
    simp only [FieldForm.loop, hstep, hp, if_pos hpos]
    exact returns_pure (form.result_error _ _)
  | case9 rounds opts word arg values n hp hpos hstep ih =>
    have hvs : values <:+ args := (suffix_append [word, arg] values).trans hsuffix
    have hle : values.length ≤ args.length := hvs.length_le
    obtain ⟨hfst, hmore⟩ := forall_mem_cons.mp hft
    obtain ⟨hlen, hsp⟩ := hfst.wrap (not_le.mp hpos)
    simp only [FieldForm.loop, hstep, hp, if_neg hpos, hlen, hsp]
    split
    · exact returns_pure (form.result_error _ _)
    · have hr : n * form.stride ≤ values.length := by omega
      have hnn : 0 ≤ n * form.stride := by
        have := not_le.mp hpos
        positivity
      rw [if_pos hr] at hmore
      refine (returns_alloc hnn (by omega)).bind fun _ _ => ?_
      refine (section_returns (not_le.mp hpos) hle hr).bind fun copied hcopied => ?_
      rw [drop_section hvs (not_le.mp hpos), if_pos hr]
      have hwhole : ∀ f ∈ some (n, copied), form.Whole f := by
        rintro f hf
        cases hf
        exact hcopied
      refine (ih _ ((drop_suffix _ _).trans hvs) hwhole hmore).imp ?_
      rintro result ⟨hsh, hd⟩
      refine ⟨?_, hd⟩
      rintro ⟨s, hs, hsShort⟩
      rcases mem_cons.mp hs with rfl | hs
      · exact absurd hr (not_le.mpr hsShort)
      · exact hsh ⟨s, hs, hsShort⟩

/-- The numbers of a section that does not fit: the end does not exceed the arguments, and what is
allocated is negative or enormous. -/
theorem Section.wrap_of_not_fits (hstride : form.Strides) (hsz : args.length < 2 ^ 62)
    (hpos : 0 < s.numFields) (hbd : s.numFields < 2 ^ 63) (h : ¬ s.Fits form args) :
    wrap64 ((args.length - s.remaining : ℕ) + wrap64 (s.numFields * form.stride)) ≤ args.length ∧
      (wrap64 (s.numFields * form.stride) < 0 ∨
        2 ^ 62 ≤ wrap64 (s.numFields * form.stride)) := by
  unfold Section.Fits at h
  have hdouble : s.numFields * form.stride < 2 ^ 64 := by
    rcases hstride with h1 | h2
    · rw [h1]
      omega
    · rw [h2]
      omega
  by_cases hf : s.numFields * form.stride < 2 ^ 63
  · rw [wrap64_of_fits (by omega) hf, wrap64_of_overflow (by omega) (by omega)]
    omega
  · rw [wrap64_of_overflow (by omega) hdouble, wrap64_of_fits (by omega) (by omega)]
    omega

/-- Where a section does not fit, its allocation stops everything. -/
theorem FieldForm.loop_bursts (hstride : form.Strides) (hsz : args.length < 2 ^ 62)
    (rounds : ℕ) (opts : FieldOptions) (fields : Option Fields) (rest : List Bytes)
    (hsuffix : rest <:+ args) (hft : ∃ s ∈ form.sections rounds opts rest, ¬ s.Fits form args) :
    ∃ n limit, form.loop args rounds opts fields rest = .error (.alloc n limit) ∧
      (n < 0 ∨ 2 ^ 62 ≤ n) := by
  fun_induction FieldForm.sections form rounds opts rest generalizing fields with
  | case5 rounds opts word rest more taken hstep ih =>
    simp only [FieldForm.loop, hstep]
    exact ih fields ((drop_suffix _ _).trans ((suffix_cons _ _).trans hsuffix)) hft
  | case9 rounds opts word arg values n hp hpos hstep ih =>
    have hvs : values <:+ args := (suffix_append [word, arg] values).trans hsuffix
    have hle : values.length ≤ args.length := hvs.length_le
    have hbd := (parseInt64_bounds hp).2
    simp only [FieldForm.loop, hstep, hp, if_neg hpos]
    by_cases hf : (⟨n, values.length⟩ : Section).Fits form args
    · -- This section fits, so that it is one after it.
      simp only [exists_mem_cons_iff, not_true_eq_false, hf, false_or] at hft
      obtain ⟨hlen, hsp⟩ := hf.wrap (not_le.mp hpos)
      simp only at hlen hsp
      split at hft
      · rename_i hr
        have hnn : 0 ≤ n * form.stride := by
          have := not_le.mp hpos
          positivity
        obtain ⟨allocated, halloc, -⟩ :=
          returns_alloc hnn (show n * form.stride ≤ args.length by omega)
        obtain ⟨copied, hcopied, -⟩ := section_returns (not_le.mp hpos) hle hr
        rw [hlen, hsp, if_neg (by omega), halloc, hcopied,
          drop_section hvs (not_le.mp hpos)]
        exact ih _ ((drop_suffix _ _).trans hvs) hft
      · simp at hft
    · obtain ⟨hsp, hburst⟩ :=
        Section.wrap_of_not_fits hstride hsz (not_le.mp hpos) hbd hf
      simp only at hsp hburst
      refine ⟨wrap64 (n * form.stride), args.length, ?_, hburst⟩
      rw [if_neg (not_lt.mpr hsp), alloc_eq_error (by omega)]
      rfl
  -- The other rounds come to no section.
  | _ => simp at hft

/-- The handler is safe where the sections fit, and otherwise bursts. -/
theorem FieldForm.handle_iff {runner : Bytes → FieldOptions → Fields → Comp CountReply}
    (hstride : form.Strides) (hsz : args.length < 2 ^ 62)
    (hrn : ∀ key opts fields, form.Whole fields → Finishes (runner key opts fields)) :
    SafeIff (4 ≤ args.length → ∀ s ∈ form.all args, s.Fits form args)
      (∃ s ∈ form.all args, s.Short form) (form.handle args runner) := by
  have hsuffix : args.tail <:+ args := tail_suffix args
  refine safeIff_guard fun hlen => ?_
  rw [get_bind (by omega)]
  constructor
  · intro hft
    refine (form.loop_returns _ {} none _ hsuffix (fun _ hf => nomatch hf)
      hft).bind fun result ⟨hsh, hd⟩ => ?_
    match result with
    | .error text => exact safe_error _
    | .ok (_, none) => exact safe_error _
    | .ok (opts, some fields) =>
      refine (hrn _ opts fields (hd _ rfl _ rfl)).imp fun reply _ ha => ?_
      obtain ⟨text, htext⟩ := hsh ha
      cases htext
  · intro hft
    push Not at hft
    obtain ⟨n, limit, heq, hn⟩ := form.loop_bursts hstride hsz _ {} none _ hsuffix hft
    exact ⟨n, limit, by rw [heq]; rfl, hn⟩

theorem runHSetEx_returns (view : Bytes → Seen) (key : Bytes) (opts : FieldOptions)
    (fields : Fields) (hwhole : hsetexForm.Whole fields) :
    Finishes (runHSetEx view key opts fields) := by
  have hlen : fields.2.length = fields.1.toNat * 2 := hwhole
  have hns : Finishes (getEach fields.2 (fun j => (j * 2 : ℕ)) fields.1.toNat) :=
    (returns_getEach fun j hj => ⟨_, by omega, rfl⟩).finishes
  have hvs : Finishes (getEach fields.2 (fun j => (j * 2 + 1 : ℕ)) fields.1.toNat) :=
    (returns_getEach fun j hj => ⟨_, by omega, rfl⟩).finishes
  have hw : Finishes (do
      let _ ← getEach fields.2 (fun j => (j * 2 : ℕ)) fields.1.toNat
      let _ ← getEach fields.2 (fun j => (j * 2 + 1 : ℕ)) fields.1.toNat
      return CountReply.integer 1) :=
    hns.bind fun _ _ => hvs.bind fun _ _ => finishes_pure
  unfold runHSetEx
  split
  · exact finishes_pure
  · split
    · exact finishes_pure
    · exact hw
  · split
    · refine hns.bind fun names _ => ?_
      simp only
      split
      · exact finishes_pure
      · split
        · exact finishes_pure
        · exact hw
    · exact hw

theorem runHGetEx_returns (view : Bytes → Seen) (key : Bytes) (opts : FieldOptions)
    (fields : Fields) : Finishes (runHGetEx view key opts fields) := by
  unfold runHGetEx
  split
  all_goals exact finishes_pure

end FieldLoops

/-! ## 4.  When the counts are safe -/

section Counts

variable {args : List Bytes} {world : World}

theorem popLists_runner (first : Bool) (count : ℤ) (keys : List Bytes) (hc : 1 ≤ count) :
    Finishes (popLists args world first count keys) :=
  popLists_returns world hc keys

theorem popSorted_runner (first : Bool) (count : ℤ) (keys : List Bytes) (hc : 1 ≤ count) :
    Finishes (popChecked (popSorted args) world.view first count keys) :=
  popChecked_returns (fun elements => popSorted_returns _ elements hc) _

/-- `SPOP` comes to a reply exactly if it is not asked for too many members. -/
theorem runSPop_returns_iff (view : Bytes → Seen) {key : Bytes} (hc : 0 ≤ count)
    (returnArray : Bool) :
    Finishes (runSPop args view key count returnArray) ↔
      ∀ members, view key = .found members → count ≤ args.length + members.length := by
  unfold runSPop
  cases hv : view key with
  | absent | wrongType => exact ⟨fun _ _ h => (nomatch h), fun _ => finishes_pure⟩
  | found found =>
    obtain ⟨allocated, halloc, -⟩ : Finishes (alloc (args.length + found.length) found.length) := returns_alloc (by omega) (by push_cast; omega)
    simp only [halloc]
    constructor
    · intro hreturns members hms
      cases hms
      by_contra hbig
      have hburst : alloc (args.length + found.length) count =
          .error (.alloc count (args.length + found.length)) :=
        alloc_eq_error (by push_cast; omega)
      rw [hburst] at hreturns
      exact not_returns_error hreturns
    · intro hf
      have hle := hf found rfl
      refine (returns_alloc hc (by push_cast; omega)).bind fun _ _ => ?_
      split
      · exact finishes_pure
      · split
        · exact finishes_pure
        · rename_i hpopped
          have hpos := length_pos_iff.mpr hpopped
          exact (returns_get hpos).bind fun _ _ => finishes_pure

theorem handleSPop_iff :
    Safe False (handleSPop world args) ↔ Counted.spop.Fits world args := by
  have hany : Safe False (handleSPop world args) ↔
      Finishes (handleSPop world args) :=
    ⟨fun h => h.finishes, fun h => h.imp fun _ _ hfalse => hfalse.elim⟩
  rw [hany]
  unfold handleSPop Counted.Fits
  by_cases hlen : args.length = 2
  · rw [if_neg (by rw [hlen]; decide), get_bind (by omega), if_pos hlen,
      get_bind (by omega)]
    cases hp : parseInt64 (args.getD 1 []) with
    | none => exact ⟨fun _ _ _ _ h => (nomatch h), fun _ => finishes_pure⟩
    | some c =>
      simp only
      split
      · refine ⟨fun _ _ d members hd _ => ?_, fun _ => finishes_pure⟩
        cases hd
        omega
      · rename_i hnn
        rw [runSPop_returns_iff world.view (not_lt.mp hnn)]
        constructor
        · intro hf _ d members hd hms
          cases hd
          exact hf members hms
        · intro hf members hms
          exact hf hlen c members rfl hms
  · refine iff_of_true ?_ fun htwo => absurd htwo hlen
    split
    · exact finishes_pure
    · rename_i hbetween
      have hone : args.length = 1 := by
        simp only [Bool.or_eq_true, decide_eq_true_eq] at hbetween
        omega
      rw [get_bind (by omega)]
      refine (runSPop_returns_iff world.view zero_le_one false).mpr fun members _ => ?_
      omega

section

variable (hop : op.Valid)
    (hreply : ∀ result, result.length ≤ totalSize world.view op.keys → Finishes (reply result))

include hop hreply

/-- The union of a valid operation. -/
theorem union_returns :
    Finishes (do
      match ← unionLoop args world.view op.weights 0 op.keys [] with
      | .error refusal => return refusal
      | .ok result => reply result) := by
  refine (unionLoop_returns op.keys [] 0 (by rw [hop.weights]; omega)).bind fun out hout => ?_
  cases out with
  | error refusal => exact finishes_pure
  | ok result =>
    refine hreply result ?_
    have hle := hout result rfl
    rwa [length_nil, Nat.zero_add] at hle

/-- The intersection of a valid operation. -/
theorem inter_returns {empty : CountReply} :
    Finishes (do
      match ← intersect args world.view op with
      | .error refusal => return refusal
      | .ok none => return empty
      | .ok (some result) => reply result) := by
  refine (intersect_returns hop).bind fun out hout => ?_
  match out with
  | .error refusal => exact finishes_pure
  | .ok none => exact finishes_pure
  | .ok (some result) => exact hreply result (hout result rfl)

end

/-- What is shown of every command but `SPOP`. -/
theorem counts_iff (world : World) (cmd : Counted) (hcmd : cmd ≠ .spop)
    (hsz : args.length < 2 ^ 62) :
    SafeIff (cmd.Fits world args) (cmd.Short args) (cmd.run world args) := by
  cases cmd with
  | lmpop =>
    exact lmpopForm.handle_iff (by decide) hsz (fun _ hdir => listOptions_returns hdir)
      fun first count keys hc _ => popLists_runner first count keys hc
  | blmpopNonBlocking =>
    exact blmpopForm.handle_iff (by decide) hsz (fun _ hdir => listOptions_returns hdir)
      fun first count keys hc _ => popLists_runner first count keys hc
  | zmpop =>
    exact zmpopForm.handle_iff (by decide) hsz (fun _ hdir => zsetOptions_returns hdir)
      fun first count keys hc _ => popSorted_runner first count keys hc
  | bzmpopNonBlocking =>
    exact bzmpopForm.handle_iff (by decide) hsz (fun _ hdir => zsetOptions_returns hdir)
      fun first count keys hc _ => popSorted_runner first count keys hc
  | blmpop =>
    refine checkTimeout_iff (blmpopForm.handle_iff (by decide) hsz
      (fun _ hdir => listOptions_returns hdir) fun first count keys hc hks => ?_)
    exact blockOn_returns (fun elements => popElements_returns first elements hc) world hks
  | bzmpop =>
    refine checkTimeout_iff (bzmpopBlockingForm.handle_iff (by decide) hsz
      (fun _ hdir => zsetOptions_returns hdir) fun first count keys hc hks => ?_)
    exact blockOn_returns (fun elements => popSorted_returns first elements hc) world hks
  | zunion =>
    refine safeIff_guard fun hlen => setOperation_iff world hsz hlen fun op hop => ?_
    exact union_returns hop fun result hres => replyEntries_returns hres
  | zinter =>
    refine safeIff_guard fun hlen => setOperation_iff world hsz hlen fun op hop => ?_
    rw [if_neg hop.keys]
    exact inter_returns hop fun result hres => replyEntries_returns hres
  | zunionstore =>
    have ht : args.tail.length = args.length - 1 := length_tail
    refine safeIff_guard fun hlen =>
      setOperation_iff world (by omega) (by omega) fun op hop => ?_
    exact union_returns hop fun result _ => finishes_pure
  | zinterstore =>
    have ht : args.tail.length = args.length - 1 := length_tail
    refine safeIff_guard fun hlen =>
      setOperation_iff world (by omega) (by omega) fun op hop => ?_
    exact inter_returns hop fun result _ => finishes_pure
  | hsetex =>
    exact FieldForm.handle_iff (.inr rfl) hsz fun key opts fields hwhole =>
      runHSetEx_returns world.view key opts fields hwhole
  | hgetex =>
    exact FieldForm.handle_iff (.inl rfl) hsz fun key opts fields _ =>
      runHGetEx_returns world.view key opts fields
  | spop => exact absurd rfl hcmd

/-- **Counts among the arguments.**  A command comes to a reply without a fault, an error if the
arguments are fewer than its count says, exactly where the count fits.  Where it does not, all but
`SPOP` stop at an allocation of a length that is negative or enormous. -/
theorem counts_safe_iff (world : World) (cmd : Counted) (args : List Bytes)
    (hsize : args.length < 2 ^ 62) :
    (Safe (cmd.Short args) (cmd.run world args) ↔ cmd.Fits world args) ∧
      (cmd ≠ .spop → ¬ cmd.Fits world args → Bursts (cmd.run world args)) := by
  refine ⟨?_, fun hcmd => (counts_iff world cmd hcmd hsize).2⟩
  by_cases hcmd : cmd = .spop
  · subst hcmd
    exact handleSPop_iff
  · obtain ⟨hsafe, hbursts⟩ := counts_iff world cmd hcmd hsize
    refine ⟨fun h => ?_, hsafe⟩
    by_contra hf
    exact not_safe_of_bursts (hbursts hf) h

/-- A store without keys. -/
def emptyWorld : World where
  view _ := .absent
  timeoutError _ := none
  isWeight _ := true
  wait := ⟨none, [], false⟩

theorem lmpop_one_safe :
    Safe (Counted.lmpop.Short [utf8 "1", utf8 "k", utf8 "LEFT"])
      (Counted.lmpop.run emptyWorld [utf8 "1", utf8 "k", utf8 "LEFT"]) := by
  refine (counts_safe_iff emptyWorld .lmpop _ (by decide)).1.mpr fun _ n hn => ?_
  have hone : parseInt64 (utf8 "1") = some 1 := by decide
  obtain rfl := some.inj (hone.symm.trans hn)
  decide

/-- `LMPOP 9223372036854775807 k LEFT` passes the check and allocates that many keys. -/
theorem lmpop_bursts :
    Counted.lmpop.run emptyWorld [utf8 "9223372036854775807", utf8 "k", utf8 "LEFT"] =
      .error (.alloc 9223372036854775807 3) := by
  decide

end Counts

end Swytch.Redis.ArgumentCounts
