import Swytch.Redis.Streams

/-!
# Commands on keys of any type

`DEL`, `UNLINK`, `DELEX`, the `EXPIRE` family, `RENAME`, `RENAMENX` and `COPY` work on a key
whatever it holds.  A stream has keys of its own besides (its groups, pending entries, producers
and counters): `cleanupStreamGroups` deletes them and `copyStreamGroups` copies the groups.  Which
command calls them, and when, differs from command to command.

The keys that users name do not contain the byte 1: what does is internal (`BlockingKeyCounts`
skips such keys for this reason).  So the keys around different streams never meet
(`Around.ne_of_ne`).

The runners are modelled, after the arguments are parsed.
-/

namespace Swytch.Redis

open Sql (Bytes utf8)

/-! ## 1.  Keys around a stream -/

/-- A key that users can name. -/
def UserKey : Type := { key : Bytes // (1 : UInt8) ∉ key }

instance : DecidableEq UserKey := inferInstanceAs (DecidableEq { key : Bytes // (1 : UInt8) ∉ key })

instance : Coe UserKey Bytes := ⟨Subtype.val⟩

inductive Around (stream : Bytes) : Bytes → Prop where
  | group (name : Bytes) : Around stream (groupKey stream name)
  | pel (name : Bytes) : Around stream (pelKey stream name)
  | producer (name : Bytes) : Around stream (producerKey stream name)
  | cfg : Around stream (cfgKey stream)

theorem groupMark : utf8 "\x01g\x01" = [1, 103, 1] := by decide

theorem pelMark : utf8 "\x01pel\x01" = [1, 112, 101, 108, 1] := by decide

theorem producerMark : utf8 "\x01p\x01" = [1, 112, 1] := by decide

theorem cfgMark : utf8 "\x01cfg" = [1, 99, 102, 103] := by decide

theorem Around.exists_suffix {stream key : Bytes} (h : Around stream key) :
    ∃ suffix, key = stream ++ 1 :: suffix := by
  cases h with
  | group name => exact ⟨103 :: 1 :: name, by simp [groupKey, groupMark]⟩
  | pel name => exact ⟨112 :: 101 :: 108 :: 1 :: name, by simp [pelKey, pelMark]⟩
  | producer name => exact ⟨112 :: 1 :: name, by simp [producerKey, producerMark]⟩
  | cfg => exact ⟨[99, 102, 103], by simp [cfgKey, cfgMark]⟩

theorem takeWhile_user {key suffix : Bytes} (h : (1 : UInt8) ∉ key) :
    (key ++ 1 :: suffix).takeWhile (· ≠ 1) = key := by
  have hall : ∀ b ∈ key, decide (b ≠ (1 : UInt8)) = true := by
    intro b hb
    exact decide_eq_true fun heq => h (heq ▸ hb)
  rw [List.takeWhile_append_of_pos hall]
  simp

theorem Around.ne_user {stream key : Bytes} (h : Around stream key) (user : UserKey) :
    key ≠ user := by
  obtain ⟨suffix, rfl⟩ := h.exists_suffix
  intro heq
  exact user.2 (heq ▸ by simp)

theorem UserKey.not_around (user other : UserKey) : ¬ Around other (user : Bytes) :=
  fun h => h.ne_user user rfl

theorem Around.ne_of_ne {stream other : UserKey} {key key' : Bytes} (h : Around stream key)
    (h' : Around other key') (hne : stream ≠ other) : key ≠ key' := by
  obtain ⟨suffix, rfl⟩ := h.exists_suffix
  obtain ⟨suffix', rfl⟩ := h'.exists_suffix
  intro heq
  have hks := congrArg (fun l : Bytes => l.takeWhile (· ≠ 1)) heq
  simp only [takeWhile_user stream.2, takeWhile_user other.2] at hks
  exact hne (Subtype.ext hks)

section Distinct

variable {stream : Bytes}

theorem groupKey_injective (stream : Bytes) : Function.Injective (groupKey stream) := by
  intro name other h
  simpa [groupKey] using h

theorem pelKey_injective (stream : Bytes) : Function.Injective (pelKey stream) := by
  intro name other h
  simpa [pelKey] using h

theorem producerKey_injective (stream : Bytes) : Function.Injective (producerKey stream) := by
  intro name other h
  simpa [producerKey] using h

theorem pelKey_ne_groupKey (name other : Bytes) : pelKey stream name ≠ groupKey stream other := by
  simp [pelKey, groupKey, pelMark, groupMark]

theorem producerKey_ne_groupKey (name other : Bytes) :
    producerKey stream name ≠ groupKey stream other := by
  simp [producerKey, groupKey, producerMark, groupMark]

theorem producerKey_ne_pelKey (name other : Bytes) :
    producerKey stream name ≠ pelKey stream other := by
  simp [producerKey, pelKey, producerMark, pelMark]

theorem cfgKey_ne_groupKey (name : Bytes) : cfgKey stream ≠ groupKey stream name := by
  simp [cfgKey, groupKey, cfgMark, groupMark]

theorem cfgKey_ne_pelKey (name : Bytes) : cfgKey stream ≠ pelKey stream name := by
  simp [cfgKey, pelKey, cfgMark, pelMark]

theorem cfgKey_ne_producerKey (name : Bytes) : cfgKey stream ≠ producerKey stream name := by
  simp [cfgKey, producerKey, cfgMark, producerMark]

end Distinct

/-! ## 2.  Cleaning up and copying -/

def emitAll (key : Bytes) (effects : List (Effect Bytes)) (ctx : Context Bytes) : Context Bytes :=
  effects.foldl (fun ctx effect => ctx.emit key effect) ctx

def deleteAll (keys : List Bytes) (ctx : Context Bytes) : Context Bytes :=
  keys.foldl (fun ctx key => ctx.emitDeleteKey key) ctx

/-- The groups' part of `cleanupStreamGroups`. -/
def cleanupGroups (stream : Bytes) (ctx : Context Bytes) : Context Bytes :=
  deleteAll (((netAddsOf ctx (groupKey stream registryName)).keys.flatMap fun name =>
    [groupKey stream name, pelKey stream name]) ++ [groupKey stream registryName]) ctx

/-- The producers' part of `cleanupStreamGroups`. -/
def cleanupProducers (stream : Bytes) (ctx : Context Bytes) : Context Bytes :=
  deleteAll (((netAddsOf ctx (producerKey stream registryName)).keys.map (producerKey stream)) ++
    [producerKey stream registryName]) ctx

/-- The counters' part of `cleanupStreamGroups`: they are removed one by one. -/
def cleanupConfig (stream : Bytes) (ctx : Context Bytes) : Context Bytes :=
  (netAddsOf ctx (cfgKey stream)).keys.foldl
    (fun ctx field => emitKeyedRemove (cfgKey stream) field ctx) ctx

def cleanupStreamGroups (stream : Bytes) (ctx : Context Bytes) : Context Bytes :=
  cleanupConfig stream (cleanupProducers stream (cleanupGroups stream ctx))

/-- The effects by which `emitSnapshotAtKey` writes an element of a keyed collection. -/
def elementEffects (merge : MergeRule) (entry : Σ _ : Bytes, Element Bytes) :
    List (Effect Bytes) :=
  .data {
      op := .insert, collection := .keyed, merge := merge, id := entry.1, value := entry.2.value } ::
    match entry.2.expiresAt with
    | none => []
    | some time => [.metadata { elementId := some entry.1, expiresAt := some time }]

/-- The effects by which `emitSnapshotAtKey` writes the data of a snapshot. -/
def dataEffects (snap : Snapshot Bytes) : List (Effect Bytes) :=
  match snap.collection with
  | .scalar =>
    match snap.scalar with
    | none => []
    | some value =>
      [.data { op := .insert, collection := .scalar, merge := snap.merge, value := some value }]
  | .keyed => snap.netAdds.entries.flatMap (elementEffects snap.merge)
  | .ordered =>
    snap.orderedElements.map fun element =>
      .data {
        op := .insert, collection := .ordered, merge := snap.merge, id := element.1,
        value := element.2 }

/-- The effects of `emitSnapshotAtKey`. -/
def snapshotEffects (snap : Snapshot Bytes) : List (Effect Bytes) :=
  dataEffects snap ++
    (if snap.typeTag = .unspecified then [] else [.metadata { typeTag := snap.typeTag }]) ++
    match snap.expiresAt with
    | none => []
    | some time => [.metadata { expiresAt := some time }]

def emitSnapshotAtKey (destKey : Bytes) (snap : Snapshot Bytes) : Context Bytes → Context Bytes :=
  emitAll destKey (snapshotEffects snap)

/-- `emitSnapshotAtKey` of what another key holds, if it was ever written. -/
def copyKey (srcKey destKey : Bytes) (ctx : Context Bytes) : Context Bytes :=
  match ctx.snapshots srcKey with
  | none => ctx
  | some snap => emitSnapshotAtKey destKey snap ctx

def copyStreamGroups (srcKey dstKey : Bytes) (ctx : Context Bytes) : Context Bytes :=
  (netAddsOf ctx (groupKey srcKey registryName)).keys.foldl
    (fun ctx name =>
      copyKey (pelKey srcKey name) (pelKey dstKey name)
        (copyKey (groupKey srcKey name) (groupKey dstKey name) ctx))
    (copyKey (groupKey srcKey registryName) (groupKey dstKey registryName) ctx)

/-! ## 3.  The commands -/

inductive KeyReply where
  | error (text : String)
  | ok
  | integer (n : ℕ)
  deriving DecidableEq

/-- The type tag of what is there. -/
def isStream (snap : Option (Snapshot Bytes)) : Bool :=
  match snap with
  | none => false
  | some snap => snap.typeTag = .stream

/-- The loop of `handleDel`, with the number of keys deleted so far. -/
def delLoop : List UserKey → ℕ → Context Bytes → ℕ × Context Bytes
  | [], deleted, ctx => (deleted, ctx)
  | key :: keys, deleted, ctx =>
    match ctx.getAnySnapshot key with
    | none => delLoop keys deleted ctx
    | some _ =>
      delLoop keys (deleted + 1) ((cleanupStreamGroups key ctx).emitDeleteKey key)

/-- The runner of `handleDel`, for `DEL` and `UNLINK`. -/
def handleDel (keys : List UserKey) (ctx : Context Bytes) : KeyReply × Context Bytes :=
  let result := delLoop keys 0 ctx
  (.integer result.1, result.2)

/-- What `getStringSnapshot` and `snapshotToRaw` make of a key that is there: its bytes, or
nothing for another type. -/
def StringValue : Type := Snapshot Bytes → Option Bytes

/-- A condition of `DELEX` on the value, and whether it needs a digest. -/
structure DelExCondition where
  holds : Bytes → Bool
  needsDigest : Bool
  isValidDigest : Bool

def handleDelEx (value : StringValue) (key : UserKey) (condition : Option DelExCondition)
    (ctx : Context Bytes) : KeyReply × Context Bytes :=
  match ctx.getAnySnapshot key with
  | none => (.integer 0, ctx)
  | some snap =>
    match condition with
    | none => (.integer 1, ctx.emitDeleteKey key)
    | some condition =>
      match value snap with
      | none => (.error "ERR DELEX with conditions only supports string values", ctx)
      | some raw =>
        if condition.needsDigest && !condition.isValidDigest then
          (.error "ERR digest must be exactly 16 hexadecimal characters", ctx)
        else if !condition.holds raw then (.integer 0, ctx)
        else (.integer 1, (ctx.emit key .noop).emitDeleteKey key)

structure ExpireOptions where
  nx : Bool := false
  xx : Bool := false
  gt : Bool := false
  lt : Bool := false
  deriving DecidableEq

def shouldSetExpire (new : ℤ) (current : Option ℤ) (opts : ExpireOptions) : Bool :=
  match current with
  | none => !opts.xx && !opts.gt
  | some current => !opts.nx && !(opts.gt && new < current) && !(opts.lt && current < new)

/-- The runners of the `EXPIRE` family: the key is deleted, or gets its time. -/
def expireWith (key : UserKey) (delete : Bool) (newExp : ℤ) (opts : ExpireOptions)
    (ctx : Context Bytes) : KeyReply × Context Bytes :=
  match ctx.getAnySnapshot key with
  | none => (.integer 0, ctx)
  | some snap =>
    if delete then (.integer 1, ctx.emitDeleteKey key)
    else if shouldSetExpire newExp snap.expiresAt opts then
      (.integer 1, (ctx.emit key .noop).emit key (.metadata { expiresAt := some newExp }))
    else (.integer 0, ctx)

/-- The runner of `handleExpire`, the times in milliseconds. -/
def handleExpire (key : UserKey) (seconds now : ℤ) :
    ExpireOptions → Context Bytes → KeyReply × Context Bytes :=
  expireWith key (seconds < 0) (now + seconds * 1000)

def handlePExpire (key : UserKey) (millis now : ℤ) :
    ExpireOptions → Context Bytes → KeyReply × Context Bytes :=
  expireWith key (millis < 0) (now + millis)

def handleExpireAt (key : UserKey) (timestamp now : ℤ) :
    ExpireOptions → Context Bytes → KeyReply × Context Bytes :=
  expireWith key (timestamp * 1000 ≤ now) (timestamp * 1000)

def handlePExpireAt (key : UserKey) (timestamp now : ℤ) :
    ExpireOptions → Context Bytes → KeyReply × Context Bytes :=
  expireWith key (timestamp ≤ now) timestamp

/-- What `RENAME` emits on the two keys themselves. -/
def moveValue (key newKey : UserKey) (snap : Snapshot Bytes) (ctx : Context Bytes) :
    Context Bytes :=
  let pinned := (ctx.emit key .noop).pin newKey
  emitSnapshotAtKey newKey snap ((pinned.emitDeleteKey key).emitDeleteKey newKey)

def handleRename (key newKey : UserKey) (ctx : Context Bytes) : KeyReply × Context Bytes :=
  match ctx.getAnySnapshot key with
  | none => (.error "ERR no such key", ctx)
  | some snap =>
    if key = newKey then (.ok, ctx)
    else
      let destSnap := ctx.getAnySnapshot newKey
      let moved := moveValue key newKey snap ctx
      let cleaned := if isStream destSnap then cleanupStreamGroups newKey moved else moved
      (.ok,
        if isStream (some snap) then cleanupStreamGroups key (copyStreamGroups key newKey cleaned)
        else cleaned)

def handleRenameNX (key newKey : UserKey) (ctx : Context Bytes) : KeyReply × Context Bytes :=
  match ctx.getAnySnapshot key with
  | none => (.error "ERR no such key", ctx)
  | some snap =>
    if key = newKey then (.integer 0, ctx)
    else
      match ctx.getAnySnapshot newKey with
      | some _ => (.integer 0, ctx)
      | none =>
        let pinned := (ctx.emit key .noop).pin newKey
        let moved := emitSnapshotAtKey newKey snap (pinned.emitDeleteKey key)
        (.integer 1,
          if isStream (some snap) then
            cleanupStreamGroups key (copyStreamGroups key newKey moved)
          else moved)

def handleCopy (srcKey dstKey : UserKey) (replace : Bool) (ctx : Context Bytes) :
    KeyReply × Context Bytes :=
  match ctx.getAnySnapshot srcKey with
  | none => (.integer 0, ctx)
  | some snap =>
    let destSnap := ctx.getAnySnapshot dstKey
    if !replace && destSnap.isSome then (.integer 0, ctx)
    else
      let replaced := if replace then ctx.emitDeleteKey dstKey else ctx
      let cleaned :=
        if replace && isStream destSnap then cleanupStreamGroups dstKey replaced else replaced
      let copied := emitSnapshotAtKey dstKey snap cleaned
      (.integer 1, if isStream (some snap) then copyStreamGroups srcKey dstKey copied else copied)

/-! ## 4.  What the helpers write -/

section Writes

variable {ctx : Context Bytes} {key other : Bytes}

theorem foldl_frame {α : Type} {f : Context Bytes → α → Context Bytes}
    (h : ∀ ctx a, (f ctx a).snapshots other = ctx.snapshots other) (l : List α)
    (ctx : Context Bytes) : (l.foldl f ctx).snapshots other = ctx.snapshots other := by
  induction l generalizing ctx with
  | nil => rfl
  | cons first l ih => rw [List.foldl_cons, ih, h]

theorem emitAll_frame (effects : List (Effect Bytes)) (h : other ≠ key) :
    (emitAll key effects ctx).snapshots other = ctx.snapshots other :=
  foldl_frame (fun _ effect => Context.emit_snapshots_of_ne effect h) effects ctx

theorem emitAll_self (effects : List (Effect Bytes)) (ctx : Context Bytes) :
    (emitAll key effects ctx).snapshots key =
      effects.foldl (fun snap effect => effect.apply snap) (ctx.snapshots key) := by
  induction effects generalizing ctx with
  | nil => rfl
  | cons first effects ih =>
    show (emitAll key effects (ctx.emit key first)).snapshots key = _
    rw [ih, Context.emit_snapshots_self, List.foldl_cons]

theorem deleteAll_snapshots (keys : List Bytes) (ctx : Context Bytes) :
    (deleteAll keys ctx).snapshots other =
      if other ∈ keys then some .removed else ctx.snapshots other := by
  induction keys generalizing ctx with
  | nil => simp [deleteAll]
  | cons first keys ih =>
    show (deleteAll keys (ctx.emitDeleteKey first)).snapshots other = _
    rw [ih]
    by_cases hsame : other = first
    · subst hsame
      simp
    · simp [hsame, Context.emitDeleteKey_of_ne hsame]

theorem netAddsOf_congr {ctx' : Context Bytes} (h : ctx'.snapshots key = ctx.snapshots key) :
    netAddsOf ctx' key = netAddsOf ctx key := by
  simp only [netAddsOf, h]

/-- The counters go one by one, until none is left. -/
theorem foldl_emitKeyedRemove_lookup (fields : List Bytes) (ctx : Context Bytes) (id : Bytes) :
    (netAddsOf (fields.foldl (fun ctx field => emitKeyedRemove key field ctx) ctx) key).lookup id =
      if id ∈ fields then none else (netAddsOf ctx key).lookup id := by
  induction fields generalizing ctx with
  | nil => simp
  | cons first fields ih =>
    rw [List.foldl_cons, ih]
    have hf : (netAddsOf (emitKeyedRemove key first ctx) key).lookup id =
        if id = first then none else (netAddsOf ctx key).lookup id := by
      have had : netAddsOf (emitKeyedRemove key first ctx) key =
          (netAddsOf ctx key).erase first := by
        unfold netAddsOf emitKeyedRemove
        rw [Context.emit_snapshots_self]
        cases ctx.snapshots key with
        | none | some snap => rfl
      rw [had]
      split
      · rename_i hsame
        rw [hsame, AList.lookup_erase]
      · rename_i hne
        rw [AList.lookup_erase_ne hne]
    rw [hf]
    by_cases hin : id ∈ fields
    · simp [hin]
    · by_cases hsame : id = first <;> simp [hsame]

end Writes

end Swytch.Redis
