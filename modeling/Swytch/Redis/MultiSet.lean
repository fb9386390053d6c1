import Swytch.Redis.Lookups
import Swytch.Redis.Registry

/-!
# Conditional writes of several keys

`MSETNX`, and `MSETEX` with `NX`, set their keys if none of them is there; `MSETEX` with `XX` sets
them if all are.  Whether a key is there is asked of `getStringSnapshot`, and only its snapshot is
looked at.  For a key of another type there is none, so that such a key counts as one that is not
there: `NX` overwrites it and `XX` does not set it.

A key given twice is written twice, and the later value stays.
-/

namespace Swytch.Redis.MultiSet

open Context
open Sql (Bytes utf8)

/-! ## 1.  The arguments -/

/-- The keys and their values. -/
def pairsOf : List Bytes → List (Bytes × Bytes)
  | key :: value :: rest => (key, value) :: pairsOf rest
  | _ => []

/-- The options of `MSETEX` that take a time. -/
inductive TimeOption where
  | ex
  | px
  | exat
  | pxat
  deriving DecidableEq

inductive SetOption where
  | time (option : TimeOption)
  | nx
  | xx
  | keepTTL
  deriving DecidableEq

/-- The option that an argument names. -/
def setOption (arg : Bytes) : Option SetOption :=
  let word := upper arg
  if word = utf8 "EX" then some (.time .ex)
  else if word = utf8 "PX" then some (.time .px)
  else if word = utf8 "EXAT" then some (.time .exat)
  else if word = utf8 "PXAT" then some (.time .pxat)
  else if word = utf8 "NX" then some .nx
  else if word = utf8 "XX" then some .xx
  else if word = utf8 "KEEPTTL" then some .keepTTL
  else none

structure SetOptions where
  expireSeconds : ℤ := 0
  expireMillis : ℤ := 0
  expireAt : ℤ := 0
  expireAtMillis : ℤ := 0
  nx : Bool := false
  xx : Bool := false
  keepTTL : Bool := false
  expireCount : ℕ := 0
  deriving DecidableEq

def SetOptions.setTime (opts : SetOptions) (option : TimeOption) (n : ℤ) : SetOptions :=
  let opts := { opts with expireCount := opts.expireCount + 1 }
  match option with
  | .ex => { opts with expireSeconds := n }
  | .px => { opts with expireMillis := n }
  | .exat => { opts with expireAt := n }
  | .pxat => { opts with expireAtMillis := n }

/-- An option without a time. -/
def SetOptions.set (opts : SetOptions) : SetOption → SetOptions
  | .time _ => opts
  | .nx => { opts with nx := true }
  | .xx => { opts with xx := true }
  | .keepTTL => { opts with keepTTL := true, expireCount := opts.expireCount + 1 }

def syntaxError : String := "ERR syntax error"

def notInteger : String := "ERR value is not an integer or out of range"

def invalidNumkeys : String := "ERR invalid numkeys value"

/-- The loop over the options. -/
def parseOptions (opts : SetOptions) : List Bytes → Except (List String) SetOptions
  | [] => .ok opts
  | [arg] =>
    match setOption arg with
    | none => .error [syntaxError]
    | some (.time _) => .error [syntaxError]
    | some option => .ok (opts.set option)
  | arg :: value :: rest =>
    match setOption arg with
    | none => .error [syntaxError]
    | some (.time option) =>
      match parseInt64 value with
      | none => .error [notInteger]
      | some n => if n ≤ 0 then .error [notInteger] else parseOptions (opts.setTime option n) rest
    | some option => parseOptions (opts.set option) (value :: rest)

/-- A call whose arguments are accepted. -/
inductive Call where
  | mSetNX (pairs : List (Bytes × Bytes))
  | mSetEX (pairs : List (Bytes × Bytes)) (opts : SetOptions)
  deriving DecidableEq

/-- The arguments of `handleMSetNX`. -/
def parseMSetNX (args : List Bytes) : Except (List String) Call :=
  if args.length < 2 || args.length % 2 ≠ 0 then
    .error ["ERR wrong number of arguments for 'msetnx' command"]
  else .ok (.mSetNX (pairsOf args))

/-- The arguments of `handleMSetEX`.  A number of keys that is not positive gets its error
twice. -/
def parseMSetEX (args : List Bytes) : Except (List String) Call :=
  match args with
  | numkeys :: rest =>
    if rest.length < 2 then .error ["ERR wrong number of arguments for 'msetex' command"]
    else
      match parseInt64 numkeys with
      | none => .error [invalidNumkeys, invalidNumkeys]
      | some n =>
        if n ≤ 0 then .error [invalidNumkeys, invalidNumkeys]
        else if 2147483647 < n then .error [invalidNumkeys]
        else if rest.length < n.toNat * 2 then .error ["ERR wrong number of key-value pairs"]
        else
          match parseOptions {} (rest.drop (n.toNat * 2)) with
          | .error texts => .error texts
          | .ok opts =>
            if opts.nx && opts.xx then .error [syntaxError]
            else if 1 < opts.expireCount then .error [syntaxError]
            else .ok (.mSetEX (pairsOf (rest.take (n.toNat * 2))) opts)
  | [] => .error ["ERR wrong number of arguments for 'msetex' command"]

inductive Name where
  | mSetNX
  | mSetEX
  deriving DecidableEq

def parse : Name → List Bytes → Except (List String) Call
  | .mSetNX => parseMSetNX
  | .mSetEX => parseMSetEX

/-! ## 2.  The runners -/

inductive MultiReply where
  | errors (texts : List String)
  | ok
  | zero
  | one
  deriving DecidableEq

/-- The snapshot that `getStringSnapshot` returns: none for a key of another type. -/
def stringSnap (ctx : Context Bytes) (key : Bytes) : Option (Snapshot Bytes) :=
  match getStringSnapshot ctx key with
  | .found snap => some snap
  | .wrongType => none
  | .absent => none

/-- `emitStringSet` and `emitStringTypeTag`. -/
def emitString (pair : Bytes × Bytes) (ctx : Context Bytes) : Context Bytes :=
  (ctx.emit pair.1 (.data { op := .insert, collection := .scalar, value := some pair.2 })).emit
    pair.1 (.metadata { typeTag := .string })

/-- The reads of the keys are recorded. -/
def emitNoops (keys : List Bytes) (ctx : Context Bytes) : Context Bytes :=
  keys.foldl (fun ctx key => ctx.emit key .noop) ctx

/-- A `time.Duration` of so many nanoseconds. -/
def duration (n : ℤ) : ℤ := n.bmod (2 ^ 64)

/-- `computeExpiresAtMs`, in nanoseconds. -/
def computeExpiresAt (now : ℤ) (opts : SetOptions) : Option ℤ :=
  if 0 < opts.expireSeconds then some (now + duration (opts.expireSeconds * 1000000000))
  else if 0 < opts.expireMillis then some (now + duration (opts.expireMillis * 1000000))
  else if 0 < opts.expireAt then some (opts.expireAt * 1000000000)
  else if 0 < opts.expireAtMillis then some (opts.expireAtMillis * 1000000)
  else none

/-- `emitStringTTL`, if there is a time. -/
def emitTTL (key : Bytes) (ttl : Option ℤ) (ctx : Context Bytes) : Context Bytes :=
  match ttl with
  | none => ctx
  | some time => ctx.emit key (.metadata { expiresAt := some time })

/-- The time of a key: with `KEEPTTL` that of the string that was there. -/
def keyTTL (now : ℤ) (opts : SetOptions) (snap : Option (Snapshot Bytes)) : Option ℤ :=
  match opts.keepTTL, snap with
  | true, some snap => snap.expiresAt
  | _, _ => computeExpiresAt now opts

/-- The runner of `handleMSetNX`. -/
def runMSetNX (pairs : List (Bytes × Bytes)) (ctx : Context Bytes) : MultiReply × Context Bytes :=
  let keys := pairs.map Prod.fst
  if keys.any fun key => (stringSnap ctx key).isSome then (.zero, ctx)
  else (.one, pairs.foldl (fun ctx pair => emitString pair ctx) (emitNoops keys ctx))

/-- The runner of `handleMSetEX`.  The snapshots are those from before the writes. -/
def runMSetEX (now : ℤ) (pairs : List (Bytes × Bytes)) (opts : SetOptions) (ctx : Context Bytes) :
    MultiReply × Context Bytes :=
  let keys := pairs.map Prod.fst
  if opts.nx && keys.any fun key => (stringSnap ctx key).isSome then (.zero, ctx)
  else if opts.xx && keys.any fun key => (stringSnap ctx key).isNone then (.zero, ctx)
  else
    let pinned := if opts.nx || opts.xx then emitNoops keys ctx else ctx
    (if opts.nx || opts.xx then .one else .ok,
      pairs.foldl (fun next pair =>
        emitTTL pair.1 (keyTTL now opts (stringSnap ctx pair.1)) (emitString pair next)) pinned)

def Call.pairs : Call → List (Bytes × Bytes)
  | .mSetNX pairs => pairs
  | .mSetEX pairs _ => pairs

def Call.keys (call : Call) : List Bytes := call.pairs.map Prod.fst

def Call.run (now : ℤ) : Call → Context Bytes → MultiReply × Context Bytes
  | .mSetNX pairs => runMSetNX pairs
  | .mSetEX pairs opts => runMSetEX now pairs opts

def handle (now : ℤ) (name : Name) (args : List Bytes) (ctx : Context Bytes) :
    MultiReply × Context Bytes :=
  match parse name args with
  | .error texts => (.errors texts, ctx)
  | .ok call => call.run now ctx

/-! ## 3.  What the commands are for -/

inductive Condition where
  | nx
  | xx
  deriving DecidableEq

def Call.condition : Call → Option Condition
  | .mSetNX _ => some .nx
  | .mSetEX _ opts => if opts.nx then some .nx else if opts.xx then some .xx else none

/-- The key is there, whatever its type. -/
def Exists (ctx : Context Bytes) (key : Bytes) : Prop := ∃ snap, ctx.getAnySnapshot key = some snap

/-- No key is there, or all are. -/
def Condition.Met : Condition → List Bytes → Context Bytes → Prop
  | .nx, keys, ctx => ∀ key ∈ keys, ¬ Exists ctx key
  | .xx, keys, ctx => ∀ key ∈ keys, Exists ctx key

/-- The key is a string with this value. -/
def HasValue (ctx : Context Bytes) (key value : Bytes) : Prop :=
  ∃ snap, ctx.getAnySnapshot key = some snap ∧ snap.collection = .scalar ∧
    snap.typeTag = .string ∧ snap.scalar = some value

/-- All pairs are written, the last one of a key counts, and nothing else is. -/
structure SetsAll (pairs : List (Bytes × Bytes)) (before after : Context Bytes) : Prop where
  last : ∀ front key value back, pairs = front ++ (key, value) :: back →
    key ∉ back.map Prod.fst → HasValue after key value
  frame : ∀ key ∉ pairs.map Prod.fst, after.snapshots key = before.snapshots key

/-- The reply is `1` and all is set if the condition is met; otherwise it is `0` and nothing is
changed. -/
def Condition.Respects (condition : Condition) (pairs : List (Bytes × Bytes))
    (before : Context Bytes) (result : MultiReply × Context Bytes) : Prop :=
  (condition.Met (pairs.map Prod.fst) before → result.1 = .one ∧ SetsAll pairs before result.2) ∧
    (¬ condition.Met (pairs.map Prod.fst) before → result.1 = .zero ∧ result.2 = before)

/-- The key is a string or a bitmap. -/
def IsString (ctx : Context Bytes) (key : Bytes) : Prop :=
  ∃ snap, ctx.getAnySnapshot key = some snap ∧
    ((snap.collection = .scalar ∧ (snap.typeTag = .string ∨ snap.typeTag = .unspecified)) ∨
      snap.typeTag = .bitmap)

/-- The condition under which the types do not matter: with `NX`, if some key is there, one of them
is a string; with `XX`, if all keys are there, all are strings. -/
def Condition.Typed : Condition → List Bytes → Context Bytes → Prop
  | .nx, keys, ctx => (∃ key ∈ keys, Exists ctx key) → ∃ key ∈ keys, IsString ctx key
  | .xx, keys, ctx => (∀ key ∈ keys, Exists ctx key) → ∀ key ∈ keys, IsString ctx key

/-! ## 4.  What is written -/

section Writes

variable {ctx : Context Bytes} {key value : Bytes} {pair : Bytes × Bytes}

theorem stringSnap_isSome_iff : (stringSnap ctx key).isSome = true ↔ IsString ctx key := by
  unfold stringSnap getStringSnapshot lookupWith IsString
  cases ctx.getAnySnapshot key with
  | none => simp
  | some snap =>
    simp only [Option.some.injEq]
    split
    · rename_i found hf
      split at hf
      · rename_i hacc
        simpa [isBare] using hacc
      · cases hf
    · rename_i hwr
      split at hwr
      · cases hwr
      · rename_i hacc
        simpa [isBare] using hacc
    · rename_i hab
      split at hab
      all_goals cases hab

theorem IsString.exists (h : IsString ctx key) : Exists ctx key := by
  obtain ⟨snap, hs, -⟩ := h
  exact ⟨snap, hs⟩

@[simp] theorem emitNoops_snapshots (keys : List Bytes) (ctx : Context Bytes) :
    (emitNoops keys ctx).snapshots = ctx.snapshots := by
  induction keys generalizing ctx with
  | nil => rfl
  | cons key keys ih =>
    show (emitNoops keys (ctx.emit key .noop)).snapshots = _
    rw [ih, emit_noop_snapshots]

theorem emitString_of_ne (h : key ≠ pair.1) :
    (emitString pair ctx).snapshots key = ctx.snapshots key := by
  unfold emitString
  rw [emit_snapshots_of_ne _ h, emit_snapshots_of_ne _ h]

theorem emitTTL_of_ne {other : Bytes} (ttl : Option ℤ) (h : other ≠ key) :
    (emitTTL key ttl ctx).snapshots other = ctx.snapshots other := by
  cases ttl with
  | none => rfl
  | some time => exact emit_snapshots_of_ne _ h

theorem hasValue_congr {next : Context Bytes} (h : next.snapshots key = ctx.snapshots key) :
    HasValue next key value ↔ HasValue ctx key value := by
  unfold HasValue getAnySnapshot
  rw [h]

theorem getAnySnapshot_eq_some_iff {snap : Snapshot Bytes} :
    ctx.getAnySnapshot key = some snap ↔ ctx.snapshots key = some snap ∧ snap.op ≠ .remove := by
  unfold getAnySnapshot
  cases ctx.snapshots key with
  | none => simp
  | some found =>
    simp only [Option.ite_none_left_eq_some, Option.some.injEq]
    constructor
    · rintro ⟨hop, rfl⟩
      exact ⟨rfl, hop⟩
    · rintro ⟨rfl, hop⟩
      exact ⟨hop, rfl⟩

theorem hasValue_emitString : HasValue (emitString (key, value) ctx) key value := by
  -- The scalar is inserted into what is there, and the tag is set on the result.
  let base := Snapshot.forInsert (ctx.snapshots key) .scalar
  have hop : base.op ≠ .remove := by
    rw [Snapshot.forInsert_op]
    exact nofun
  refine ⟨{ base with merge := .lastWriteWins, scalar := some value, typeTag := .string },
    getAnySnapshot_eq_some_iff.mpr ⟨?_, hop⟩, Snapshot.forInsert_collection _ _, rfl, rfl⟩
  simp only [emitString, emit_snapshots_self]
  show some (if base.op = .remove then _ else _) = _
  rw [if_neg hop]
  rfl

theorem hasValue_emitTTL (ttl : Option ℤ) (h : HasValue ctx key value) :
    HasValue (emitTTL key ttl ctx) key value := by
  cases ttl with
  | none => exact h
  | some time =>
    obtain ⟨snap, hs, hk, htag, hv⟩ := h
    obtain ⟨hf, hop⟩ := getAnySnapshot_eq_some_iff.mp hs
    refine ⟨{ snap with expiresAt := some time },
      getAnySnapshot_eq_some_iff.mpr ⟨?_, hop⟩, hk, htag, hv⟩
    simp only [emitTTL, emit_snapshots_self, hf]
    show some (if snap.op = .remove then _ else _) = _
    rw [if_neg hop]
    rfl

/-- One write of the loop: it sets its key and leaves the others. -/
structure Writes (write : Bytes × Bytes → Context Bytes → Context Bytes) : Prop where
  self : ∀ key value ctx, HasValue (write (key, value) ctx) key value
  other : ∀ pair ctx key, key ≠ pair.1 → (write pair ctx).snapshots key = ctx.snapshots key

theorem writes_emitString : Writes emitString where
  self _ _ _ := hasValue_emitString
  other _ _ _ h := emitString_of_ne h

theorem writes_emitTTL (ttl : Bytes → Option ℤ) :
    Writes fun pair ctx => emitTTL pair.1 (ttl pair.1) (emitString pair ctx) where
  self _ _ _ := hasValue_emitTTL _ hasValue_emitString
  other _ _ _ h := (emitTTL_of_ne _ h).trans (emitString_of_ne h)

variable {write : Bytes × Bytes → Context Bytes → Context Bytes}

theorem Writes.foldl_frame (hw : Writes write) (pairs : List (Bytes × Bytes))
    (h : key ∉ pairs.map Prod.fst) (ctx : Context Bytes) :
    (pairs.foldl (fun ctx pair => write pair ctx) ctx).snapshots key = ctx.snapshots key := by
  induction pairs generalizing ctx with
  | nil => rfl
  | cons pair pairs ih =>
    rw [List.map_cons, List.mem_cons, not_or] at h
    rw [List.foldl_cons, ih h.2, hw.other pair ctx key h.1]

/-- What the loop writes. -/
theorem Writes.setsAll (hw : Writes write) (pairs : List (Bytes × Bytes))
    (before ctx : Context Bytes) (hctx : ctx.snapshots = before.snapshots) :
    SetsAll pairs before (pairs.foldl (fun ctx pair => write pair ctx) ctx) where
  last := by
    rintro front key value back rfl hb
    rw [List.foldl_append]
    exact (hasValue_congr (hw.foldl_frame back hb _)).mpr (hw.self key value _)
  frame key hkey := by
    rw [hw.foldl_frame pairs hkey, hctx]

end Writes

/-! ## 5.  When a conditional write respects the keys -/

section Respects

variable {opts : SetOptions} {pairs : List (Bytes × Bytes)} {ctx after : Context Bytes}
    {condition : Condition}

/-- What the runners ask before they write. -/
def Condition.Passed : Condition → List Bytes → Context Bytes → Prop
  | .nx, keys, ctx => ∀ key ∈ keys, ¬ IsString ctx key
  | .xx, keys, ctx => ∀ key ∈ keys, IsString ctx key

/-- It is asked the right question exactly if the types do not matter. -/
theorem Condition.passed_iff_met_iff (keys : List Bytes) :
    (condition.Passed keys ctx ↔ condition.Met keys ctx) ↔ condition.Typed keys ctx := by
  cases condition with
  | nx =>
    have hmet : Condition.nx.Met keys ctx → Condition.nx.Passed keys ctx :=
      fun h key hkey hstr => h key hkey hstr.exists
    constructor
    · rintro h ⟨key, hkey, hex⟩
      by_contra hn
      push Not at hn
      exact h.mp hn key hkey hex
    · intro h
      refine ⟨fun hps key hkey hex => ?_, hmet⟩
      obtain ⟨other, ho, hstr⟩ := h ⟨key, hkey, hex⟩
      exact hps other ho hstr
  | xx =>
    have hps : Condition.xx.Passed keys ctx → Condition.xx.Met keys ctx :=
      fun h key hkey => (h key hkey).exists
    exact ⟨fun h => h.mpr, fun h => ⟨hps, h⟩⟩

/-- A runner that writes everything if it passes and nothing otherwise. -/
theorem Condition.respects_iff_typed {result : MultiReply × Context Bytes}
    (hall : SetsAll pairs ctx after)
    (hps : condition.Passed (pairs.map Prod.fst) ctx → result = (.one, after))
    (hfl : ¬ condition.Passed (pairs.map Prod.fst) ctx → result = (.zero, ctx)) :
    condition.Respects pairs ctx result ↔ condition.Typed (pairs.map Prod.fst) ctx := by
  rw [← condition.passed_iff_met_iff, Respects]
  by_cases hm : condition.Met (pairs.map Prod.fst) ctx
  · by_cases hp : condition.Passed (pairs.map Prod.fst) ctx
    · simp [hm, hp, hps hp, hall]
    · simp [hm, hp, hfl hp]
  · by_cases hp : condition.Passed (pairs.map Prod.fst) ctx
    · simp [hm, hp, hps hp]
    · simp [hm, hp, hfl hp]

theorem any_isSome_iff (keys : List Bytes) :
    (keys.any fun key => (stringSnap ctx key).isSome) = true ↔ ¬ Condition.nx.Passed keys ctx := by
  simp [Condition.Passed, stringSnap_isSome_iff]

theorem any_isNone_iff (keys : List Bytes) :
    (keys.any fun key => (stringSnap ctx key).isNone) = true ↔ ¬ Condition.xx.Passed keys ctx := by
  simp [Condition.Passed, ← stringSnap_isSome_iff]

/-- With one of the options `MSETEX` records its reads and writes. -/
theorem runMSetEX_setsAll (now : ℤ) (opts : SetOptions) :
    SetsAll pairs ctx (pairs.foldl (fun next pair =>
      emitTTL pair.1 (keyTTL now opts (stringSnap ctx pair.1)) (emitString pair next))
      (emitNoops (pairs.map Prod.fst) ctx)) :=
  (writes_emitTTL fun key => keyTTL now opts (stringSnap ctx key)).setsAll pairs ctx _
    (emitNoops_snapshots _ ctx)

/-- `NX` and `XX` exclude each other. -/
theorem parse_not_both {name : Name} {args : List Bytes}
    (h : parse name args = .ok (.mSetEX pairs opts)) : (opts.nx && opts.xx) = false := by
  cases name with
  | mSetNX =>
    simp only [parse, parseMSetNX] at h
    split at h
    · cases h
    · exact nomatch Except.ok.inj h
  | mSetEX =>
    -- All the branches but the last one are refusals.
    simp only [parse, parseMSetEX] at h
    repeat' split at h
    all_goals simp only [reduceCtorEq, Except.ok.injEq, Call.mSetEX.injEq] at h
    rename_i hboth _
    rw [← h.2]
    exact Bool.eq_false_iff.mpr hboth

end Respects

/-- A conditional write whose arguments are accepted respects its keys exactly if their types do not
matter. -/
theorem conditional_write_respects_iff (now : ℤ) {name : Name} {args : List Bytes} {call : Call}
    {condition : Condition} (ctx : Context Bytes) (hparse : parse name args = .ok call)
    (hcondition : call.condition = some condition) :
    condition.Respects call.pairs ctx (handle now name args ctx) ↔
      condition.Typed call.keys ctx := by
  have hrun : handle now name args ctx = call.run now ctx := by
    unfold handle
    rw [hparse]
  rw [hrun]
  cases call with
  | mSetNX pairs =>
    cases hcondition
    refine @Condition.respects_iff_typed pairs ctx _ _ _
      (writes_emitString.setsAll pairs ctx _ (emitNoops_snapshots (pairs.map Prod.fst) ctx)) ?_ ?_
    · exact fun hps => if_neg fun h => (any_isSome_iff _).mp h hps
    · exact fun hfl => if_pos ((any_isSome_iff _).mpr hfl)
  | mSetEX pairs opts =>
    have hflags : condition = .nx ∧ opts.nx = true ∧ opts.xx = false ∨
        condition = .xx ∧ opts.nx = false ∧ opts.xx = true := by
      have hboth := parse_not_both hparse
      unfold Call.condition at hcondition
      grind
    refine @Condition.respects_iff_typed pairs ctx _ _ _ (runMSetEX_setsAll now opts) ?_ ?_
    all_goals
      intro hps
      obtain ⟨rfl, hnx, hxx⟩ | ⟨rfl, hnx, hxx⟩ := hflags
      all_goals simp only [Call.run, runMSetEX, hnx, hxx, any_isSome_iff, any_isNone_iff, hps,
        Bool.and_eq_true, Bool.or_true, Bool.true_or, Bool.false_eq_true, true_and, false_and,
        not_true, not_false_eq_true, if_true, if_false]

section Samples

/-- The key `k` holds a string. -/
def stringContext : Context Bytes := emitString (utf8 "k", utf8 "old") ⟨fun _ => none, []⟩

/-- The key `k` holds a hash with the field `f`. -/
def hashContext : Context Bytes :=
  ((⟨fun _ => none, []⟩ : Context Bytes).emit (utf8 "k")
    (.data { op := .insert, collection := .keyed, id := utf8 "f", value := some (utf8 "v") })).emit
    (utf8 "k") (.metadata { typeTag := .hash })

theorem mSetNX_respects_string :
    Condition.nx.Respects [(utf8 "k", utf8 "v")] stringContext
      (handle 0 .mSetNX [utf8 "k", utf8 "v"] stringContext) := by
  have hp : parse .mSetNX [utf8 "k", utf8 "v"] = .ok (.mSetNX [(utf8 "k", utf8 "v")]) := by
    decide
  refine (conditional_write_respects_iff 0 stringContext hp rfl).mpr fun _ => ?_
  exact ⟨utf8 "k", by simp [Call.keys, Call.pairs], _, rfl, .inl ⟨rfl, .inl rfl⟩⟩

/-- `MSETNX k v` overwrites a hash, and `MSETEX 1 k v XX` does not set it. -/
theorem conditional_write_ignores_hash :
    Exists hashContext (utf8 "k") ∧
      (handle 0 .mSetNX [utf8 "k", utf8 "v"] hashContext).1 = .one ∧
      HasValue (handle 0 .mSetNX [utf8 "k", utf8 "v"] hashContext).2 (utf8 "k") (utf8 "v") ∧
      (handle 0 .mSetEX [utf8 "1", utf8 "k", utf8 "v", utf8 "XX"] hashContext).1 = .zero :=
  ⟨⟨_, rfl⟩, by decide, ⟨_, rfl, rfl, rfl, rfl⟩, by decide⟩

end Samples

end Swytch.Redis.MultiSet
