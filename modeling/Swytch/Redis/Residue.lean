import Swytch.Redis.StreamCommands

/-!
# What a deleted stream leaves behind

The groups of a stream, their pending entries, its producers and its counters are kept under keys
of their own.  A key that is removed and created again as a stream finds them again, unless the
command that removed it has cleaned them up.  `DEL` and `UNLINK` always do (their comment says why:
the key may have been overwritten since), `RENAME` and `COPY` do if the key is still a stream, and
`DELEX` and the `EXPIRE` family do not.

Cleaning up goes through the registries of the groups and producers, so it reaches everything if
everything is registered (`Registered`).
-/

namespace Swytch.Redis.Residue

open Sql (Bytes utf8)
open StreamCommands
open Context (emitDeleteKey_of_ne emit_noop_snapshots getAnySnapshot)

/-! ## 1.  Residue -/

def NoElements (ctx : Context Bytes) (key : Bytes) : Prop :=
  ∀ id, (netAddsOf ctx key).lookup id = none

/-- None of the keys around the stream has any, so a stream created there has no groups, pending
entries, producers or counters but those created since. -/
def NoResidue (ctx : Context Bytes) (stream : Bytes) : Prop :=
  ∀ key, Around stream key → NoElements ctx key

/-- Every group and producer that has a key with elements is in its registry. -/
structure Registered (ctx : Context Bytes) (stream : Bytes) : Prop where
  groups : ∀ name, ¬ NoElements ctx (groupKey stream name) →
    name = registryName ∨ name ∈ (netAddsOf ctx (groupKey stream registryName)).keys
  pending : ∀ name, ¬ NoElements ctx (pelKey stream name) →
    name ∈ (netAddsOf ctx (groupKey stream registryName)).keys
  producers : ∀ name, ¬ NoElements ctx (producerKey stream name) →
    name = registryName ∨ name ∈ (netAddsOf ctx (producerKey stream registryName)).keys

/-- The commands that remove a key. -/
inductive RemovalCommand where
  | del (keys : List UserKey)
  | delex (value : StringValue) (key : UserKey) (condition : Option DelExCondition)
  | expire (key : UserKey) (seconds now : ℤ) (opts : ExpireOptions)
  | pexpire (key : UserKey) (millis now : ℤ) (opts : ExpireOptions)
  | expireAt (key : UserKey) (timestamp now : ℤ) (opts : ExpireOptions)
  | pexpireAt (key : UserKey) (timestamp now : ℤ) (opts : ExpireOptions)
  | rename (key newKey : UserKey)
  | copyReplace (srcKey dstKey : UserKey)

def run (cmd : RemovalCommand) (ctx : Context Bytes) : Context Bytes :=
  match cmd with
  | .del keys => (handleDel keys ctx).2
  | .delex value key condition => (handleDelEx value key condition ctx).2
  | .expire key seconds now opts => (handleExpire key seconds now opts ctx).2
  | .pexpire key millis now opts => (handlePExpire key millis now opts ctx).2
  | .expireAt key timestamp now opts => (handleExpireAt key timestamp now opts ctx).2
  | .pexpireAt key timestamp now opts => (handlePExpireAt key timestamp now opts ctx).2
  | .rename key newKey => (handleRename key newKey ctx).2
  | .copyReplace srcKey dstKey => (handleCopy srcKey dstKey true ctx).2

/-- The command removes what the key holds: it deletes it, sets it a time that is not in the
future, renames it, or puts another value that is not a stream in its place. -/
def Removes (cmd : RemovalCommand) (ctx : Context Bytes) (key : UserKey) : Prop :=
  match cmd with
  | .del keys => key ∈ keys ∧ (ctx.getAnySnapshot key).isSome
  | .delex value k condition => k = key ∧ (handleDelEx value k condition ctx).1 = .integer 1
  | .expire k seconds _ _ => k = key ∧ (ctx.getAnySnapshot key).isSome ∧ seconds ≤ 0
  | .pexpire k millis _ _ => k = key ∧ (ctx.getAnySnapshot key).isSome ∧ millis ≤ 0
  | .expireAt k timestamp now _ =>
    k = key ∧ (ctx.getAnySnapshot key).isSome ∧ timestamp * 1000 ≤ now
  | .pexpireAt k timestamp now _ => k = key ∧ (ctx.getAnySnapshot key).isSome ∧ timestamp ≤ now
  | .rename k newKey =>
    k ≠ newKey ∧ (ctx.getAnySnapshot k).isSome ∧
      (k = key ∨ newKey = key ∧ isStream (ctx.getAnySnapshot k) = false)
  | .copyReplace srcKey dstKey =>
    dstKey = key ∧ (ctx.getAnySnapshot srcKey).isSome ∧
      isStream (ctx.getAnySnapshot srcKey) = false

/-- The command cleans up behind the key. -/
def Cleans (cmd : RemovalCommand) (ctx : Context Bytes) (key : UserKey) : Prop :=
  match cmd with
  | .del _ => True
  | .rename _ _ => isStream (ctx.getAnySnapshot key) = true
  | .copyReplace _ _ => isStream (ctx.getAnySnapshot key) = true
  | _ => False

/-! ## 2.  Cleaning up -/

section CleaningUp

variable {ctx ctx' : Context Bytes} {stream key : Bytes}

theorem noElements_congr (h : ctx'.snapshots key = ctx.snapshots key) :
    NoElements ctx' key ↔ NoElements ctx key := by
  simp only [NoElements, netAddsOf_congr h]

theorem noElements_of_removed (h : ctx.snapshots key = some .removed) : NoElements ctx key := by
  intro id
  simp only [netAddsOf, h]
  exact AList.lookup_empty id

section

variable (h : ∀ key, Around stream key → ctx'.snapshots key = ctx.snapshots key)

include h

theorem noResidue_congr : NoResidue ctx' stream ↔ NoResidue ctx stream :=
  forall_congr' fun key => imp_congr_right fun har => noElements_congr (h key har)

theorem registered_of_same (hreg : Registered ctx stream) : Registered ctx' stream := by
  refine ⟨fun name hn => ?_, fun name hn => ?_, fun name hn => ?_⟩
  · rw [noElements_congr (h _ (.group name))] at hn
    rw [netAddsOf_congr (h _ (.group registryName))]
    exact hreg.groups name hn
  · rw [noElements_congr (h _ (.pel name))] at hn
    rw [netAddsOf_congr (h _ (.group registryName))]
    exact hreg.pending name hn
  · rw [noElements_congr (h _ (.producer name))] at hn
    rw [netAddsOf_congr (h _ (.producer registryName))]
    exact hreg.producers name hn

theorem registered_congr : Registered ctx' stream ↔ Registered ctx stream :=
  ⟨registered_of_same fun key har => (h key har).symm, registered_of_same h⟩

end

theorem NoResidue.registered (h : NoResidue ctx stream) : Registered ctx stream :=
  ⟨fun name hn => absurd (h _ (.group name)) hn,
    fun name hn => absurd (h _ (.pel name)) hn,
    fun name hn => absurd (h _ (.producer name)) hn⟩

variable (name : Bytes)

def cleanedKeys (stream : Bytes) (ctx : Context Bytes) : List Bytes :=
  ((netAddsOf ctx (groupKey stream registryName)).keys.flatMap fun name =>
      [groupKey stream name, pelKey stream name]) ++ [groupKey stream registryName] ++
    ((netAddsOf ctx (producerKey stream registryName)).keys.map (producerKey stream) ++
      [producerKey stream registryName])

theorem cleanupStreamGroups_eq : cleanupStreamGroups stream ctx =
    cleanupConfig stream (deleteAll (cleanedKeys stream ctx) ctx) := by
  have hreg : (cleanupGroups stream ctx).snapshots (producerKey stream registryName) =
      ctx.snapshots (producerKey stream registryName) := by
    rw [cleanupGroups, deleteAll_snapshots]
    simp [producerKey_ne_groupKey, producerKey_ne_pelKey]
  rw [cleanupStreamGroups, cleanupProducers, netAddsOf_congr hreg]
  exact congrArg _ List.foldl_append.symm

theorem cleanupConfig_frame (h : key ≠ cfgKey stream) :
    (cleanupConfig stream ctx).snapshots key = ctx.snapshots key :=
  foldl_frame (fun _ _ => Context.emit_snapshots_of_ne _ h) _ _

theorem cleanupConfig_noElements : NoElements (cleanupConfig stream ctx) (cfgKey stream) := by
  intro id
  rw [cleanupConfig, foldl_emitKeyedRemove_lookup]
  split
  · rfl
  · rename_i hnot
    exact AList.lookup_eq_none.mpr fun hmem => hnot (AList.mem_keys.mp hmem)

theorem cleanupStreamGroups_snapshots (h : key ≠ cfgKey stream) :
    (cleanupStreamGroups stream ctx).snapshots key =
      if key ∈ cleanedKeys stream ctx then some .removed else ctx.snapshots key := by
  rw [cleanupStreamGroups_eq, cleanupConfig_frame h, deleteAll_snapshots]

theorem cleanupStreamGroups_frame (h : ¬ Around stream key) :
    (cleanupStreamGroups stream ctx).snapshots key = ctx.snapshots key := by
  have hg : ∀ name, key ≠ groupKey stream name := fun name heq => h (heq ▸ .group name)
  have hpel : ∀ name, key ≠ pelKey stream name := fun name heq => h (heq ▸ .pel name)
  have hprod : ∀ name, producerKey stream name ≠ key := fun name heq => h (heq ▸ .producer name)
  have hcfg : key ≠ cfgKey stream := fun heq => h (heq ▸ .cfg)
  rw [cleanupStreamGroups_snapshots hcfg, if_neg]
  simp [cleanedKeys, hg, hpel, hprod, (hprod _).symm]

/-- A key that is deleted if a condition holds has no elements afterwards exactly when it had none
or the condition holds. -/
theorem noElements_ite {p : Prop} [Decidable p] (h : ctx'.snapshots key =
    if p then some .removed else ctx.snapshots key) :
    NoElements ctx' key ↔ (¬ NoElements ctx key → p) := by
  by_cases hp : p
  · rw [if_pos hp] at h
    exact ⟨fun _ _ => hp, fun _ => noElements_of_removed h⟩
  · rw [if_neg hp] at h
    rw [noElements_congr h]
    exact ⟨fun hn hs => absurd hn hs, fun hs => not_imp_comm.mp hs hp⟩

theorem cleanupStreamGroups_group :
    (cleanupStreamGroups stream ctx).snapshots (groupKey stream name) =
      if name = registryName ∨ name ∈ (netAddsOf ctx (groupKey stream registryName)).keys then
        some .removed
      else ctx.snapshots (groupKey stream name) := by
  rw [cleanupStreamGroups_snapshots (cfgKey_ne_groupKey name).symm]
  refine if_congr ?_ rfl rfl
  simp [cleanedKeys, (groupKey_injective stream).eq_iff, (pelKey_ne_groupKey _ _).symm,
    producerKey_ne_groupKey, (producerKey_ne_groupKey _ _).symm, or_comm]

theorem cleanupStreamGroups_pel : (cleanupStreamGroups stream ctx).snapshots (pelKey stream name) =
      if name ∈ (netAddsOf ctx (groupKey stream registryName)).keys then some .removed
      else ctx.snapshots (pelKey stream name) := by
  rw [cleanupStreamGroups_snapshots (cfgKey_ne_pelKey name).symm]
  refine if_congr ?_ rfl rfl
  simp [cleanedKeys, (pelKey_injective stream).eq_iff, pelKey_ne_groupKey,
    producerKey_ne_pelKey, (producerKey_ne_pelKey _ _).symm]

theorem cleanupStreamGroups_producer :
    (cleanupStreamGroups stream ctx).snapshots (producerKey stream name) =
      if name = registryName ∨ name ∈ (netAddsOf ctx (producerKey stream registryName)).keys then
        some .removed
      else ctx.snapshots (producerKey stream name) := by
  rw [cleanupStreamGroups_snapshots (cfgKey_ne_producerKey name).symm]
  refine if_congr ?_ rfl rfl
  simp [cleanedKeys, (producerKey_injective stream).eq_iff, producerKey_ne_groupKey,
    producerKey_ne_pelKey, or_comm]

theorem noResidue_cleanup : NoResidue (cleanupStreamGroups stream ctx) stream ↔
    Registered ctx stream := by
  constructor
  · intro h
    exact ⟨fun name => (noElements_ite (cleanupStreamGroups_group name)).mp (h _ (.group name)),
      fun name => (noElements_ite (cleanupStreamGroups_pel name)).mp (h _ (.pel name)),
      fun name => (noElements_ite (cleanupStreamGroups_producer name)).mp (h _ (.producer name))⟩
  · intro h key har
    cases har with
    | group name => exact (noElements_ite (cleanupStreamGroups_group name)).mpr (h.groups name)
    | pel name => exact (noElements_ite (cleanupStreamGroups_pel name)).mpr (h.pending name)
    | producer name =>
      exact (noElements_ite (cleanupStreamGroups_producer name)).mpr (h.producers name)
    | cfg => exact cleanupConfig_noElements

end CleaningUp

/-! ## 3.  The commands -/

section Commands

variable {at_ : Bytes} {ctx : Context Bytes} {stream other : UserKey} {key : Bytes}

theorem getAnySnapshot_congr {ctx ctx' : Context Bytes} {key : Bytes}
    (h : ctx'.snapshots key = ctx.snapshots key) :
    ctx'.getAnySnapshot key = ctx.getAnySnapshot key := by
  simp only [getAnySnapshot, h]

theorem getAnySnapshot_emitDeleteKey (ctx : Context Bytes) (key : Bytes) :
    (ctx.emitDeleteKey key).getAnySnapshot key = none := by
  simp [getAnySnapshot, Snapshot.removed]

/-- Deleting another key does not touch the keys around this one. -/
theorem delete_other (hne : stream ≠ other) (har : Around stream key) :
    ((cleanupStreamGroups other ctx).emitDeleteKey other).snapshots key = ctx.snapshots key := by
  rw [emitDeleteKey_of_ne (har.ne_user other)]
  exact cleanupStreamGroups_frame fun h => har.ne_of_ne h hne rfl

theorem delete_other_self (hne : stream ≠ other) :
    ((cleanupStreamGroups other ctx).emitDeleteKey other).snapshots stream =
      ctx.snapshots stream := by
  rw [emitDeleteKey_of_ne fun h => hne (Subtype.ext h)]
  exact cleanupStreamGroups_frame (stream.not_around other)

/-- The keys around one that is not there stay as they are. -/
theorem delLoop_absent (hab : ctx.getAnySnapshot stream = none) (keys : List UserKey) (n : ℕ)
    (har : Around stream key) : (delLoop keys n ctx).2.snapshots key = ctx.snapshots key := by
  induction keys generalizing n ctx with
  | nil => rfl
  | cons first keys ih =>
    simp only [delLoop]
    split
    · exact ih hab n
    · rename_i snap hf
      have hne : stream ≠ first := by
        rintro rfl
        simp [hab] at hf
      rw [ih ((getAnySnapshot_congr (delete_other_self hne)).trans hab)]
      exact delete_other hne har

/-- `DEL` leaves nothing of a key that is there exactly when everything is registered. -/
theorem noResidue_delLoop (hex : (ctx.getAnySnapshot stream).isSome) {keys : List UserKey}
    (hmem : stream ∈ keys) (n : ℕ) :
    NoResidue (delLoop keys n ctx).2 stream ↔ Registered ctx stream := by
  induction keys generalizing n ctx with
  | nil => simp at hmem
  | cons first keys ih =>
    simp only [delLoop]
    by_cases hf : stream = first
    · subst hf
      obtain ⟨snap, hs⟩ := Option.isSome_iff_exists.mp hex
      simp only [hs]
      have hab := getAnySnapshot_emitDeleteKey (cleanupStreamGroups stream ctx) stream
      calc NoResidue (delLoop keys (n + 1) ((cleanupStreamGroups stream ctx).emitDeleteKey stream)).2
            stream
          ↔ NoResidue ((cleanupStreamGroups stream ctx).emitDeleteKey stream) stream :=
            noResidue_congr fun key har => delLoop_absent hab keys (n + 1) har
        _ ↔ NoResidue (cleanupStreamGroups stream ctx) stream :=
            noResidue_congr fun key har =>
              emitDeleteKey_of_ne (har.ne_user stream)
        _ ↔ Registered ctx stream := noResidue_cleanup
    · have hr : stream ∈ keys := (List.mem_cons.mp hmem).resolve_left hf
      split
      · exact ih hex hr n
      · rw [ih ?_ hr]
        · exact registered_congr fun key har => delete_other hf har
        · rwa [getAnySnapshot_congr (delete_other_self hf)]

/-- The `EXPIRE` family writes the key itself only. -/
theorem expireWith_frame (key : UserKey) (delete : Bool) (newExp : ℤ) (opts : ExpireOptions)
    (hne : at_ ≠ key) :
    (expireWith key delete newExp opts ctx).2.snapshots at_ = ctx.snapshots at_ := by
  unfold expireWith
  split
  · rfl
  · split
    · exact emitDeleteKey_of_ne hne
    · split
      · rw [Context.emit_snapshots_of_ne _ hne, emit_noop_snapshots]
      · rfl

theorem handleDelEx_frame (value : StringValue) (key : UserKey)
    (condition : Option DelExCondition) (hne : at_ ≠ key) :
    (handleDelEx value key condition ctx).2.snapshots at_ = ctx.snapshots at_ := by
  unfold handleDelEx
  split
  · rfl
  split
  · exact emitDeleteKey_of_ne hne
  split
  · rfl
  split
  · rfl
  split
  · rfl
  · rw [emitDeleteKey_of_ne hne, emit_noop_snapshots]

theorem copyKey_frame (srcKey : Bytes) {destKey : Bytes} (hne : at_ ≠ destKey)
    (ctx : Context Bytes) : (copyKey srcKey destKey ctx).snapshots at_ = ctx.snapshots at_ := by
  unfold copyKey
  split
  · rfl
  · exact emitAll_frame _ hne

/-- The groups are copied to the keys around the destination only. -/
theorem copyStreamGroups_frame (srcKey : Bytes) {dstKey : Bytes} (h : ¬ Around dstKey at_) :
    (copyStreamGroups srcKey dstKey ctx).snapshots at_ = ctx.snapshots at_ := by
  have hg : ∀ name, at_ ≠ groupKey dstKey name := fun name heq => h (heq ▸ .group name)
  have hpel : ∀ name, at_ ≠ pelKey dstKey name := fun name heq => h (heq ▸ .pel name)
  unfold copyStreamGroups
  rw [foldl_frame fun ctx name => ?_]
  · exact copyKey_frame _ (hg registryName) ctx
  · rw [copyKey_frame _ (hpel name), copyKey_frame _ (hg name)]

theorem moveValue_frame (key newKey : UserKey) (snap : Snapshot Bytes)
    (hkey : at_ ≠ key) (hnew : at_ ≠ newKey) :
    (moveValue key newKey snap ctx).snapshots at_ = ctx.snapshots at_ := by
  unfold moveValue emitSnapshotAtKey
  rw [emitAll_frame _ hnew, emitDeleteKey_of_ne hnew, emitDeleteKey_of_ne hkey,
    Context.pin_snapshots, emit_noop_snapshots]

/-- A command that cleans up behind a stream, with nothing changed around it until then. -/
theorem noResidue_cleaned {cleans : Bool} {start start' : Context Bytes}
    (h : ∀ key, Around stream key → start.snapshots key = ctx.snapshots key)
    (h' : ∀ key, Around stream key → start'.snapshots key = ctx.snapshots key) :
    NoResidue (if cleans then cleanupStreamGroups stream start else start') stream ↔
      if cleans then Registered ctx stream else NoResidue ctx stream := by
  split
  · rw [noResidue_cleanup]
    exact registered_congr h
  · exact noResidue_congr h'

/-- `RENAME` away from a key. -/
theorem noResidue_rename_away {newKey : UserKey} (hne : stream ≠ newKey)
    (hex : (ctx.getAnySnapshot stream).isSome) :
    NoResidue (handleRename stream newKey ctx).2 stream ↔
      if isStream (ctx.getAnySnapshot stream) then Registered ctx stream
      else NoResidue ctx stream := by
  obtain ⟨snap, hs⟩ := Option.isSome_iff_exists.mp hex
  set moved := moveValue stream newKey snap ctx with hmv
  set cleaned := if isStream (ctx.getAnySnapshot newKey) then cleanupStreamGroups newKey moved
    else moved with hcleaned
  have hfr : ∀ key, Around stream key → cleaned.snapshots key = ctx.snapshots key := by
    intro key har
    have hmovedframe : moved.snapshots key = ctx.snapshots key :=
      moveValue_frame _ _ _ (har.ne_user stream) (har.ne_user newKey)
    rw [hcleaned]
    split
    · rw [cleanupStreamGroups_frame fun h => har.ne_of_ne h hne rfl, hmovedframe]
    · exact hmovedframe
  have hres : (handleRename stream newKey ctx).2 =
      if isStream (some snap) then cleanupStreamGroups stream (copyStreamGroups stream newKey cleaned)
      else cleaned := by
    simp [handleRename, hs, hne, hcleaned, hmv]
  rw [hres, hs]
  refine noResidue_cleaned (fun key har => ?_) hfr
  rw [copyStreamGroups_frame _ fun h => har.ne_of_ne h hne rfl, hfr key har]

/-- `RENAME` of a value that is not a stream onto a key. -/
theorem noResidue_rename_onto (hne : other ≠ stream) (hex : (ctx.getAnySnapshot other).isSome)
    (hpl : isStream (ctx.getAnySnapshot other) = false) :
    NoResidue (handleRename other stream ctx).2 stream ↔
      if isStream (ctx.getAnySnapshot stream) then Registered ctx stream
      else NoResidue ctx stream := by
  obtain ⟨snap, hs⟩ := Option.isSome_iff_exists.mp hex
  rw [hs] at hpl
  have hfr : ∀ key, Around stream key →
      (moveValue other stream snap ctx).snapshots key = ctx.snapshots key := fun key har =>
    moveValue_frame _ _ _ (har.ne_user other) (har.ne_user stream)
  have hres : (handleRename other stream ctx).2 =
      if isStream (ctx.getAnySnapshot stream) then
        cleanupStreamGroups stream (moveValue other stream snap ctx)
      else moveValue other stream snap ctx := by
    simp [handleRename, hs, hne, hpl]
  rw [hres]
  exact noResidue_cleaned hfr hfr

/-- `COPY` with `REPLACE` of a value that is not a stream onto a key. -/
theorem noResidue_copy (hex : (ctx.getAnySnapshot other).isSome)
    (hpl : isStream (ctx.getAnySnapshot other) = false) :
    NoResidue (handleCopy other stream true ctx).2 stream ↔
      if isStream (ctx.getAnySnapshot stream) then Registered ctx stream
      else NoResidue ctx stream := by
  obtain ⟨snap, hs⟩ := Option.isSome_iff_exists.mp hex
  rw [hs] at hpl
  have hdel : ∀ key, Around stream key →
      (ctx.emitDeleteKey stream).snapshots key = ctx.snapshots key := fun key har =>
    emitDeleteKey_of_ne (har.ne_user stream)
  have hres : (handleCopy other stream true ctx).2 =
      emitSnapshotAtKey stream snap (if isStream (ctx.getAnySnapshot stream) then
        cleanupStreamGroups stream (ctx.emitDeleteKey stream) else ctx.emitDeleteKey stream) := by
    simp [handleCopy, hs, hpl]
  have hwr : ∀ ctx : Context Bytes, NoResidue (emitSnapshotAtKey stream snap ctx) stream ↔
      NoResidue ctx stream := fun ctx =>
    noResidue_congr fun key har => emitAll_frame _ (har.ne_user stream)
  rw [hres, hwr]
  exact noResidue_cleaned hdel hdel

end Commands

/-! ## 4.  Which commands leave nothing -/

/-- A command that removes a key leaves nothing of it exactly when it cleans up and everything is
registered, or there was nothing. -/
theorem removal_leaves_nothing_iff (cmd : RemovalCommand) (ctx : Context Bytes) (key : UserKey)
    (hremoves : Removes cmd ctx key) :
    NoResidue (run cmd ctx) key ↔ Cleans cmd ctx key ∧ Registered ctx key ∨ NoResidue ctx key := by
  have hsame : ∀ ctx' : Context Bytes,
      (∀ at_, at_ ≠ (key : Bytes) → ctx'.snapshots at_ = ctx.snapshots at_) →
      (NoResidue ctx' key ↔ False ∧ Registered ctx key ∨ NoResidue ctx key) := by
    intro ctx' hfr
    rw [false_and, false_or]
    exact noResidue_congr fun at_ har => hfr at_ (har.ne_user key)
  have hcleaned : ∀ ctx' : Context Bytes, (NoResidue ctx' key ↔
      if isStream (ctx.getAnySnapshot key) then Registered ctx key else NoResidue ctx key) →
      (NoResidue ctx' key ↔ isStream (ctx.getAnySnapshot key) = true ∧ Registered ctx key ∨
        NoResidue ctx key) := by
    intro ctx' hiff
    rw [hiff]
    split
    · rename_i hstream
      exact ⟨fun h => .inl ⟨hstream, h⟩, fun h => h.elim And.right NoResidue.registered⟩
    · rename_i hpl
      exact ⟨.inr, fun h => h.resolve_left fun hand => hpl hand.1⟩
  cases cmd with
  | del keys =>
    obtain ⟨hmem, hex⟩ := hremoves
    rw [show Cleans (.del keys) ctx key ↔ True from Iff.rfl, true_and]
    refine (noResidue_delLoop hex hmem 0).trans ⟨.inl, fun h => h.elim id ?_⟩
    exact NoResidue.registered
  | delex value k condition =>
    obtain ⟨rfl, -⟩ := hremoves
    exact hsame _ fun at_ hne => handleDelEx_frame value k condition hne
  | expire k seconds now opts | pexpire k millis now opts | expireAt k timestamp now opts
  | pexpireAt k timestamp now opts =>
    obtain ⟨rfl, -⟩ := hremoves
    exact hsame _ fun at_ hne => expireWith_frame k _ _ opts hne
  | rename k newKey =>
    obtain ⟨hne, hex, rfl | ⟨rfl, hpl⟩⟩ := hremoves
    · exact hcleaned _ (noResidue_rename_away hne hex)
    · exact hcleaned _ (noResidue_rename_onto hne hex hpl)
  | copyReplace srcKey dstKey =>
    obtain ⟨rfl, hex, hpl⟩ := hremoves
    exact hcleaned _ (noResidue_copy hex hpl)

theorem sampleKey_plain : (1 : UInt8) ∉ utf8 "k" := by decide

/-- The key `k`. -/
def sampleKey : UserKey := ⟨utf8 "k", sampleKey_plain⟩

/-- `XADD k 5-0 f v` and `XGROUP CREATE k g 0`. -/
def withGroup : Context Bytes :=
  let added := (handleXAdd sampleKey { idStr := utf8 "5-0", fields := [utf8 "f", utf8 "v"] } 0
    ⟨fun _ => none, []⟩).ctx
  (handleXGroupCreate sampleKey (utf8 "g") (utf8 "0") false (-1) 0 added).ctx

/-- `DEL` removes the stream, and the theorem says what is left. -/
theorem del_leaves_nothing_iff :
    Removes (.del [sampleKey]) withGroup sampleKey ∧
      (NoResidue (run (.del [sampleKey]) withGroup) sampleKey ↔
        Cleans (.del [sampleKey]) withGroup sampleKey ∧ Registered withGroup sampleKey ∨
          NoResidue withGroup sampleKey) := by
  have hrem : Removes (.del [sampleKey]) withGroup sampleKey :=
    ⟨List.mem_cons_self, by decide⟩
  exact ⟨hrem, removal_leaves_nothing_iff _ _ _ hrem⟩

/-- After `DELEX k` and another `XADD` the new stream has the group of the old one. -/
theorem delex_leaves_group :
    Removes (.delex (fun _ => none) sampleKey none) withGroup sampleKey ∧
      ¬ NoResidue (run (.delex (fun _ => none) sampleKey none) withGroup) sampleKey ∧
      listGroupNames (handleXAdd sampleKey
          { idStr := utf8 "1-0", fields := [utf8 "f", utf8 "v"] } 0
          (run (.delex (fun _ => none) sampleKey none) withGroup)).ctx sampleKey = [utf8 "g"] := by
  refine ⟨⟨rfl, by decide⟩, fun h => ?_, by decide⟩
  have hreg := h _ (.group registryName) (utf8 "g")
  exact absurd hreg (by decide)

end Swytch.Redis.Residue
