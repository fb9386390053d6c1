import Swytch.Lib.BinaryFloat
import Swytch.Redis.KeyCommands
import Swytch.Redis.MultiSet

/-!
# Setting and asking for times

Times and readings of the clock are in nanoseconds since 1970, so that it can be seen where the
source goes to another unit and where it wraps: `time.Duration` is an `int64` of nanoseconds, the
checks of the arguments count in milliseconds, and `Seconds` is a `float64`.
-/

namespace Swytch.Redis.Expiry

open Sql (Bytes utf8)
open MultiSet (duration)
open BinaryFloat (nearest nearest_le le_nearest)

/-! ## 1.  The `EXPIRE` family -/

inductive ExpireCommand where
  | expire (seconds : ℤ)
  | pexpire (millis : ℤ)
  | expireAt (timestamp : ℤ)
  | pexpireAt (timestamp : ℤ)

def maxExpireSeconds : ℤ := 9223372036854775

def validateExpireAtSecondsRelative (timestamp : ℤ) : Bool :=
  !(timestamp > maxExpireSeconds || timestamp < -maxExpireSeconds)

def validateExpireMillisRelative (nowMs millis : ℤ) : Bool :=
  !(millis > 0 && millis > 2 ^ 63 - 1 - nowMs) && !(millis < 0 && nowMs < -2 ^ 63 - millis)

/-- The bounds of `validateExpireAtSecondsRelative` and, for the milliseconds, the checks of
`validateExpireMillisRelative`. -/
def validateExpireSecondsRelative (nowMs seconds : ℤ) : Bool :=
  validateExpireAtSecondsRelative seconds && validateExpireMillisRelative nowMs (seconds * 1000)

/-- The numbers that the handlers accept. -/
def ExpireCommand.valid (nowMs : ℤ) : ExpireCommand → Bool
  | .expire seconds => validateExpireSecondsRelative nowMs seconds
  | .pexpire millis => validateExpireMillisRelative nowMs millis
  | .expireAt timestamp => validateExpireAtSecondsRelative timestamp
  | .pexpireAt _ => true

/-- The loop of `parseExpireOptions`. -/
def expireFlags (opts : ExpireOptions) : List Bytes → Except Bytes ExpireOptions
  | [] => .ok opts
  | arg :: rest =>
    let opt := upper arg
    if opt = utf8 "NX" then expireFlags { opts with nx := true } rest
    else if opt = utf8 "XX" then expireFlags { opts with xx := true } rest
    else if opt = utf8 "GT" then expireFlags { opts with gt := true } rest
    else if opt = utf8 "LT" then expireFlags { opts with lt := true } rest
    else .error (utf8 "ERR Unsupported option " ++ arg)

def parseExpireOptions (args : List Bytes) : Except Bytes ExpireOptions :=
  match expireFlags {} args with
  | .error text => .error text
  | .ok opts =>
    if opts.gt && opts.lt then
      .error (utf8 "ERR GT and LT options at the same time are not compatible")
    else if opts.nx && (opts.xx || opts.gt || opts.lt) then
      .error (utf8 "ERR NX and XX, GT or LT options at the same time are not compatible")
    else .ok opts

/-- The checks by which the runners delete the key. -/
def ExpireCommand.deletes (now : ℕ) : ExpireCommand → Bool
  | .expire seconds => seconds < 0
  | .pexpire millis => millis < 0
  | .expireAt timestamp => (timestamp * 1000).bmod (2 ^ 64) ≤ now / 1000000
  | .pexpireAt timestamp => timestamp ≤ now / 1000000

/-- The time that they give to `finalExpire`. -/
def ExpireCommand.newExp (now : ℕ) : ExpireCommand → ℤ
  | .expire seconds => now + duration (seconds * 1000000000)
  | .pexpire millis => (now / 1000000 + millis).bmod (2 ^ 64) * 1000000
  | .expireAt timestamp => (timestamp * 1000).bmod (2 ^ 64) * 1000000
  | .pexpireAt timestamp => timestamp * 1000000

/-- The runners of `handleExpire`, `handlePExpire`, `handleExpireAt` and `handlePExpireAt`. -/
def ExpireCommand.run (cmd : ExpireCommand) (key : UserKey) (now : ℕ) :
    ExpireOptions → Context Bytes → KeyReply × Context Bytes :=
  expireWith key (cmd.deletes now) (cmd.newExp now)

/-! ## 2.  Conditions -/

/-- The instant that is asked for.  `PEXPIRE` counts from the millisecond of the clock. -/
def ExpireCommand.requested (now : ℕ) : ExpireCommand → ℤ
  | .expire seconds => now + seconds * 1000000000
  | .pexpire millis => (now / 1000000 + millis) * 1000000
  | .expireAt timestamp => timestamp * 1000000000
  | .pexpireAt timestamp => timestamp * 1000000

open ExpireCommand (requested deletes newExp)

/-- What the flags ask of the old and the new time. -/
def Met (opts : ExpireOptions) (old : Option ℤ) (new : ℤ) : Prop :=
  (opts.nx → old = none) ∧ (opts.xx → old ≠ none) ∧ (opts.gt → ∃ time ∈ old, time < new) ∧
    (opts.lt → ∀ time ∈ old, new < time)

def expiryOf (ctx : Context Bytes) (key : Bytes) : Option ℤ :=
  (ctx.getAnySnapshot key).bind Snapshot.expiresAt

/-- The key was deleted, or its time is over. -/
def Gone (ctx : Context Bytes) (key : Bytes) (now : ℤ) : Prop :=
  ∀ snap, ctx.getAnySnapshot key = some snap → ∃ time ∈ snap.expiresAt, time ≤ now

/-- The reply is `1` and the key goes or gets its time if the conditions are met; otherwise it is
`0` and nothing is changed. -/
def ConditionsApply (cmd : ExpireCommand) (key : UserKey) (now : ℕ) (opts : ExpireOptions)
    (ctx : Context Bytes) : Prop :=
  let result := cmd.run key now opts ctx
  let time := cmd.requested now
  (Met opts (expiryOf ctx key) time → result.1 = .integer 1 ∧
    if time ≤ now then Gone result.2 key now else expiryOf result.2 key = some time) ∧
  (¬ Met opts (expiryOf ctx key) time → result.1 = .integer 0 ∧ result.2 = ctx)

/-- The sum does not wrap. -/
def ExpireCommand.Fits (now : ℕ) : ExpireCommand → Prop
  | .expire seconds => seconds * 1000000000 < 2 ^ 63
  | .pexpire millis => now / 1000000 + millis < 2 ^ 63
  | _ => True

/-- A time at which the key is deleted at once meets the conditions; another one does not wrap and,
with `GT` or `LT`, is not the old one, or is refused although it wraps. -/
def Respected (cmd : ExpireCommand) (now : ℕ) (opts : ExpireOptions) (old : Option ℤ) : Prop :=
  (cmd.deletes now → Met opts old (cmd.requested now)) ∧
  (cmd.deletes now = false → cmd.Fits now →
    (opts.gt ∨ opts.lt) → old ≠ some (cmd.requested now)) ∧
  (cmd.deletes now = false → ¬ cmd.Fits now → ¬ Met opts old (cmd.requested now) ∧
    shouldSetExpire (cmd.newExp now) old opts = false)

section Conditions

variable {cmd : ExpireCommand} {now : ℕ} {nowMs : ℤ} {opts : ExpireOptions} {old : Option ℤ}
  {key : UserKey} {ctx : Context Bytes} {snap : Snapshot Bytes}

theorem millis_exact {timestamp : ℤ} (h : validateExpireAtSecondsRelative timestamp = true) :
    (timestamp * 1000).bmod (2 ^ 64) = timestamp * 1000 := by
  unfold validateExpireAtSecondsRelative maxExpireSeconds at h
  simp only [Bool.not_eq_true', Bool.or_eq_false_iff, decide_eq_false_iff_not] at h
  exact Int.bmod_eq_of_le (by omega) (by omega)

theorem requested_le_of_deletes (hva : cmd.valid nowMs = true) (h : cmd.deletes now = true) :
    cmd.requested now ≤ now := by
  cases cmd with
  | expireAt timestamp =>
    rw [deletes, millis_exact hva, decide_eq_true_eq] at h
    rw [requested]
    omega
  | _ =>
    simp only [deletes, decide_eq_true_eq] at h
    rw [requested]
    omega

/-- The time that is set is the one that is asked for, or that is in the future and the sum
wraps. -/
theorem newExp_cases (hva : cmd.valid nowMs = true) (hnow : now < 2 ^ 63 * 1000000)
    (h : cmd.deletes now = false) :
    cmd.Fits now ∧ cmd.newExp now = cmd.requested now ∨
      ¬ cmd.Fits now ∧ now < cmd.requested now ∧ cmd.newExp now ≠ cmd.requested now := by
  cases cmd with
  | expire seconds =>
    simp only [deletes, decide_eq_false_iff_not] at h
    simp only [newExp, requested, duration]
    have hlt := Int.bmod_lt (x := seconds * 1000000000) (m := 2 ^ 64) (by decide)
    by_cases hf : seconds * 1000000000 < 2 ^ 63
    · exact .inl ⟨hf, by rw [Int.bmod_eq_of_le (by omega) (by omega)]⟩
    · exact .inr ⟨hf, by omega, by omega⟩
  | pexpire millis =>
    simp only [deletes, decide_eq_false_iff_not] at h
    simp only [newExp, requested]
    have hlt := Int.bmod_lt (x := (now : ℤ) / 1000000 + millis) (m := 2 ^ 64) (by decide)
    by_cases hf : (now : ℤ) / 1000000 + millis < 2 ^ 63
    · exact .inl ⟨hf, by rw [Int.bmod_eq_of_le (by omega) (by omega)]⟩
    · exact .inr ⟨hf, by omega, by omega⟩
  | expireAt timestamp =>
    refine .inl ⟨trivial, ?_⟩
    rw [newExp, millis_exact hva, requested]
    omega
  | pexpireAt timestamp => exact .inl ⟨trivial, rfl⟩

theorem parseExpireOptions_ok {args : List Bytes} (h : parseExpireOptions args = .ok opts) :
    opts.nx = true → opts.gt = false ∧ opts.lt = false := by
  unfold parseExpireOptions at h
  split at h
  · cases h
  · split_ifs at h with hboth hnx
    cases h
    intro hset
    simp only [hset, Bool.true_and, Bool.or_eq_true, not_or, Bool.not_eq_true] at hnx
    exact ⟨hnx.1.2, hnx.2⟩

/-- `finalExpire` takes a time that equals the old one for a later one and for an earlier one. -/
theorem shouldSetExpire_iff (ho : opts.nx = true → opts.gt = false ∧ opts.lt = false) (new : ℤ) :
    ((shouldSetExpire new old opts = true) ↔ Met opts old new) ↔
      ((opts.gt ∨ opts.lt) → old ≠ some new) := by
  obtain ⟨nx, xx, gt, lt⟩ := opts
  cases old with
  | none => cases xx <;> cases gt <;> simp [shouldSetExpire, Met]
  | some time =>
    rcases lt_trichotomy time new with hlt | rfl | hgt
    · cases nx <;> cases gt <;> cases lt <;>
        simp_all [shouldSetExpire, Met, hlt.ne, hlt.not_gt]
    · cases nx <;> cases gt <;> cases lt <;> simp_all [shouldSetExpire, Met]
    · cases nx <;> cases gt <;> cases lt <;>
        simp_all [shouldSetExpire, Met, hgt.ne', hgt.not_gt]

/-- A command that does not delete the key sets its time or leaves it alone. -/
theorem run_of_keeps (hs : ctx.getAnySnapshot key = some snap) (h : cmd.deletes now = false)
    (opts : ExpireOptions) :
    ∃ after, after.getAnySnapshot key = some { snap with expiresAt := some (cmd.newExp now) } ∧
      cmd.run key now opts ctx =
        if shouldSetExpire (cmd.newExp now) (expiryOf ctx key) opts then (.integer 1, after)
        else (.integer 0, ctx) := by
  refine ⟨(ctx.emit key .noop).emit key (.metadata { expiresAt := some (cmd.newExp now) }), ?_,
    by simp [ExpireCommand.run, expireWith, expiryOf, hs, h]⟩
  unfold Context.getAnySnapshot at hs ⊢
  split at hs
  · cases hs
  · rename_i found hf
    split at hs
    · cases hs
    · rename_i hop
      cases hs
      simp [hf, Effect.apply, Snapshot.setMeta, hop]

/-- A command of the `EXPIRE` family respects its conditions exactly in these cases. -/
theorem conditionsApply_iff {flags : List Bytes} (hflags : parseExpireOptions flags = .ok opts)
    (hvalid : cmd.valid nowMs = true) (hnow : now < 2 ^ 63 * 1000000)
    (hsnap : ctx.getAnySnapshot key = some snap) :
    ConditionsApply cmd key now opts ctx ↔ Respected cmd now opts (expiryOf ctx key) := by
  have ho := parseExpireOptions_ok hflags
  cases hdel : cmd.deletes now with
  | true =>
    have hrun : cmd.run key now opts ctx = (.integer 1, ctx.emitDeleteKey key) := by
      simp [ExpireCommand.run, expireWith, hsnap, hdel]
    have hg : Gone (ctx.emitDeleteKey key) key now := by
      simp [Gone, Context.getAnySnapshot, Snapshot.removed]
    have hpast := requested_le_of_deletes hvalid hdel
    simp [ConditionsApply, Respected, hrun, hdel, hpast, hg]
  | false =>
    obtain ⟨after, ha, hrun⟩ := run_of_keeps hsnap hdel opts
    have hexpiry : expiryOf after key = some (cmd.newExp now) := by
      rw [expiryOf, ha, Option.bind_some]
    rw [ConditionsApply, hrun]
    rcases newExp_cases hvalid hnow hdel with ⟨hft, hexact⟩ | ⟨hwraps, hfu, hne⟩
    · -- if a time is set, it is the right one
      have hset : if cmd.requested now ≤ now then Gone after key now
          else expiryOf after key = some (cmd.requested now) := by
        split
        · rename_i hpast
          intro found hf
          obtain rfl := Option.some.inj (ha.symm.trans hf)
          exact ⟨_, rfl, hexact.trans_le hpast⟩
        · rw [hexpiry, hexact]
      have hrespected : Respected cmd now opts (expiryOf ctx key) ↔
          (shouldSetExpire (cmd.newExp now) (expiryOf ctx key) opts = true ↔
            Met opts (expiryOf ctx key) (cmd.requested now)) := by
        rw [hexact, shouldSetExpire_iff ho]
        simp [Respected, hdel, hft]
      rw [hrespected]
      split
      · rename_i hst
        simp [hst, hset]
      · rename_i hkps
        simp [hkps]
    · simp only [Respected, hdel, hwraps, if_neg hfu.not_ge]
      split
      · rename_i hst
        simp [hst, hexpiry, hne]
      · rename_i hkps
        simp [hkps]

end Conditions

/-- The key `k`. -/
def timedKey : UserKey := ⟨utf8 "k", by decide +kernel⟩

/-- A string with a time at `k`. -/
def timed (time : ℤ) : Context Bytes :=
  (Context.emit timedKey (.data { op := .insert, collection := .scalar, value := some (utf8 "v") })
    ⟨fun _ => none, []⟩).emit timedKey (.metadata { expiresAt := some time })

/-- `EXPIRE k 10 GT`, of a key that has a second left. -/
theorem conditionsApply_gt :
    ConditionsApply (.expire 10) timedKey 1000000000 { gt := true } (timed 2000000000) := by
  refine (@conditionsApply_iff _ _ 1000 _ _ _ _ [utf8 "gt"] (by decide)
    (by decide) (by decide) rfl).mpr ⟨fun h => absurd h (by decide), fun _ _ _ => by decide, ?_⟩
  exact fun _ hwraps => absurd (show (10 : ℤ) * 1000000000 < 2 ^ 63 by decide) hwraps

/-- `EXPIRE k -1 NX` deletes a key that has a time and replies `1`. -/
theorem expire_negative_ignores_nx :
    parseExpireOptions [utf8 "NX"] = .ok { nx := true } ∧
      expiryOf (timed 2000000000) timedKey = some 2000000000 ∧
      ¬ ConditionsApply (.expire (-1)) timedKey 1000000000 { nx := true } (timed 2000000000) := by
  refine ⟨by decide, rfl, fun ha => ?_⟩
  have hr := (ha.2 fun hmet => absurd (hmet.1 rfl) (by decide)).1
  exact absurd hr (by decide)

/-! ## 3.  Queries -/

/-- `time.Until`, which does not leave the range of a duration. -/
def untilTime (time now : ℤ) : ℤ := max (-2 ^ 63) (min (2 ^ 63 - 1) (time - now))

/-- `int64(d.Seconds())`: the whole seconds and the fraction are added as floats. -/
def toSeconds (d : ℤ) : ℤ :=
  ⌊nearest 52 ((d / 1000000000 : ℤ) + nearest 52 ((d % 1000000000 : ℤ) / 1000000000))⌋

/-- The runner of a query, after the checks that all four make. -/
def query (reply : ℤ → ℤ) (ctx : Context Bytes) (key : UserKey) : ℤ :=
  match ctx.getAnySnapshot key with
  | none => -2
  | some snap =>
    match snap.expiresAt with
    | none => -1
    | some time => reply time

def handleTTL (now : ℕ) : Context Bytes → UserKey → ℤ :=
  query fun time => if untilTime time now ≤ 0 then -2 else toSeconds (untilTime time now)

def handlePTTL (now : ℕ) : Context Bytes → UserKey → ℤ :=
  query fun time => if untilTime time now ≤ 0 then -2 else untilTime time now / 1000000

/-- It replies `UnixMilli`. -/
def handleExpireTime (now : ℕ) : Context Bytes → UserKey → ℤ :=
  query fun time => if time < now then -2 else time / 1000000

/-- It replies `Unix`. -/
def handlePExpireTime (now : ℕ) : Context Bytes → UserKey → ℤ :=
  query fun time => if time < now then -2 else time / 1000000000

inductive ExpiryQuery where
  | ttl
  | pttl
  | expireTime
  | pexpireTime

def ExpiryQuery.run : ExpiryQuery → ℕ → Context Bytes → UserKey → ℤ
  | .ttl => handleTTL
  | .pttl => handlePTTL
  | .expireTime => handleExpireTime
  | .pexpireTime => handlePExpireTime

/-- What they are to reply for an instant. -/
def ExpiryQuery.expected (time now : ℤ) : ExpiryQuery → ℤ
  | .ttl => (time - now) / 1000000000
  | .pttl => (time - now) / 1000000
  | .expireTime => time / 1000000000
  | .pexpireTime => time / 1000000

open ExpiryQuery (expected)

/-- The commands that are given an instant. -/
def ExpireCommand.IsAbsolute : ExpireCommand → Prop
  | .expireAt _ | .pexpireAt _ => True
  | _ => False

/-- From the command on until the instant, the query replies what it is to reply. -/
def Inverts (q : ExpiryQuery) (cmd : ExpireCommand) (key : UserKey) (now : ℕ)
    (ctx : Context Bytes) : Prop :=
  ∀ later : ℕ, now ≤ later → later < cmd.requested now →
    q.run later (cmd.run key now {} ctx).2 key = q.expected (cmd.requested now) later

/-- How far away an instant may be. -/
def ExpiryQuery.Reaches (distance : ℤ) : ExpiryQuery → Prop
  | .ttl => distance < 2 ^ 24 * 1000000000 + 999999999
  | .pttl => distance < 9223372036855 * 1000000
  | .expireTime | .pexpireTime => False

section Queries

variable {cmd : ExpireCommand} {now : ℕ} {nowMs : ℤ} {key : UserKey} {ctx : Context Bytes}
  {snap : Snapshot Bytes}

/-- Up to the last nanosecond before `2 ^ 24 + 1` seconds the floats are exact enough. -/
theorem toSeconds_eq {sec nsec : ℕ} (hnsec : nsec < 1000000000)
    (h : sec < 2 ^ 24 ∨ sec = 2 ^ 24 ∧ nsec < 999999999) :
    toSeconds (1000000000 * sec + nsec) = sec := by
  have hdiv : (1000000000 * sec + nsec : ℤ) / 1000000000 = sec := by omega
  have hmod : (1000000000 * sec + nsec : ℤ) % 1000000000 = nsec := by omega
  rw [toSeconds, hdiv, hmod, Int.floor_eq_iff, Int.cast_natCast, Int.cast_natCast]
  have hp : (nsec : ℚ) / 1000000000 < 2 ^ (0 + 1) := by
    rw [div_lt_iff₀ (by norm_num)]
    exact_mod_cast (by omega : nsec < 2 ^ (0 + 1) * 1000000000)
  have hlow : ((0 : ℕ) : ℚ) ≤ nearest 52 (nsec / 1000000000) :=
    le_nearest (by positivity) (hp.trans (by norm_num))
  have hhi := nearest_le (p := 52) hp
  have hsum : (sec : ℚ) + nearest 52 (nsec / 1000000000) < 2 ^ (24 + 1) := by
    have : (sec : ℚ) ≤ 2 ^ 24 := by exact_mod_cast (by omega : sec ≤ 2 ^ 24)
    linarith
  refine ⟨le_nearest (by linarith) (hsum.trans (by norm_num)), ?_⟩
  rcases h with hsec | ⟨hsec, hl⟩
  · have hl : (nsec : ℚ) ≤ 999999999 := by exact_mod_cast (by omega : nsec ≤ 999999999)
    have hsec : (sec : ℚ) + 1 ≤ 2 ^ (23 + 1) := by exact_mod_cast hsec
    have := nearest_le (p := 52) (k := 23) (x := sec + nearest 52 (nsec / 1000000000))
      (by norm_num at hhi hsec ⊢; linarith)
    linarith
  · have : (nsec : ℚ) ≤ 999999998 := by exact_mod_cast (by omega : nsec ≤ 999999998)
    have := nearest_le (p := 52) hsum
    linarith

theorem toSeconds_rounds : toSeconds (2 ^ 24 * 1000000000 + 999999999) = 2 ^ 24 + 1 := by
  decide +kernel

theorem untilTime_eq {time now : ℤ} (h : now < time) :
    untilTime time now = min (2 ^ 63 - 1) (time - now) ∧ 0 < untilTime time now := by
  unfold untilTime
  omega

/-- Both commands take the instant in milliseconds. -/
theorem absolute_cases (habsolute : cmd.IsAbsolute) (hva : cmd.valid nowMs = true) (now : ℕ) :
    ∃ millis, cmd.requested now = millis * 1000000 ∧ cmd.newExp now = millis * 1000000 ∧
      cmd.deletes now = decide (millis ≤ now / 1000000) := by
  cases cmd with
  | expire seconds | pexpire millis => cases habsolute
  | expireAt timestamp =>
    refine ⟨timestamp * 1000, by rw [requested]; omega, ?_, ?_⟩
    · rw [newExp, millis_exact hva]
    · rw [deletes, millis_exact hva]
  | pexpireAt timestamp => exact ⟨timestamp, rfl, rfl, rfl⟩

/-- A query gives back the instant that was set exactly up to these distances. -/
theorem inverts_iff (habsolute : cmd.IsAbsolute) (hvalid : cmd.valid nowMs = true)
    (hfuture : now < cmd.requested now) (hsnap : ctx.getAnySnapshot key = some snap)
    (q : ExpiryQuery) : Inverts q cmd key now ctx ↔ q.Reaches (cmd.requested now - now) := by
  obtain ⟨millis, hmillis, hexact, hdel⟩ := absolute_cases habsolute hvalid now
  -- the key gets its time
  have hq (reply : ℤ → ℤ) :
      query reply (cmd.run key now {} ctx).2 key = reply (cmd.requested now) := by
    have hkps : cmd.deletes now = false := by
      rw [hdel, decide_eq_false_iff_not]
      omega
    obtain ⟨after, ha, hrun⟩ := run_of_keeps hsnap hkps {}
    have hst : shouldSetExpire (cmd.newExp now) (expiryOf ctx key) {} = true := by
      cases expiryOf ctx key <;> rfl
    rw [hrun, if_pos hst, query, ha, hmillis, hexact]
  unfold Inverts
  generalize cmd.requested now = time at hfuture hq hmillis
  cases q with
  | ttl =>
    simp only [ExpiryQuery.run, handleTTL, hq, expected, ExpiryQuery.Reaches]
    constructor
    · intro h
      by_contra hfar
      have hl := h (time - (2 ^ 24 * 1000000000 + 999999999)).toNat (by omega) (by omega)
      have hlater : ((time - (2 ^ 24 * 1000000000 + 999999999)).toNat : ℤ) =
          time - (2 ^ 24 * 1000000000 + 999999999) := Int.toNat_of_nonneg (by omega)
      obtain ⟨huntil, hpos⟩ := untilTime_eq (sub_lt_self time
        (by decide : (0 : ℤ) < 2 ^ 24 * 1000000000 + 999999999))
      rw [hlater, huntil, sub_sub_cancel, min_eq_right (by norm_num), toSeconds_rounds] at hl
      omega
    · intro hnear later hle hlt
      obtain ⟨huntil, hpos⟩ := untilTime_eq hlt
      rw [if_neg hpos.not_ge, huntil, min_eq_right (by omega)]
      obtain ⟨sec, hsec⟩ := Int.eq_ofNat_of_zero_le (a := (time - later) / 1000000000) (by omega)
      obtain ⟨nsec, hnsec⟩ := Int.eq_ofNat_of_zero_le (a := (time - later) % 1000000000) (by omega)
      have hsp : time - later = 1000000000 * sec + nsec := by omega
      rw [hsec, hsp]
      exact toSeconds_eq (by omega) (by omega)
  | pttl =>
    simp only [ExpiryQuery.run, handlePTTL, hq, expected, ExpiryQuery.Reaches]
    constructor
    · intro h
      have hnow := h now le_rfl hfuture
      obtain ⟨huntil, hpos⟩ := untilTime_eq hfuture
      omega
    · intro hnear later hle hlt
      obtain ⟨huntil, hpos⟩ := untilTime_eq hlt
      omega
  | expireTime =>
    simp only [ExpiryQuery.run, handleExpireTime, hq, expected,
      ExpiryQuery.Reaches, iff_false]
    intro h
    have hnow := h now le_rfl hfuture
    omega
  | pexpireTime =>
    simp only [ExpiryQuery.run, handlePExpireTime, hq, expected,
      ExpiryQuery.Reaches, iff_false]
    intro h
    have hnow := h now le_rfl hfuture
    omega

end Queries

/-- `EXPIREAT k 2` at the first second: `TTL k` replies the seconds that are left. -/
theorem inverts_ttl :
    Inverts .ttl (.expireAt 2) timedKey 1000000000 (timed 3000000000) :=
  (@inverts_iff (.expireAt 2) 1000000000 1000 _ _ _ trivial (by decide) (by decide) rfl .ttl).mpr
    (by norm_num [ExpiryQuery.Reaches, requested])

/-- `EXPIREAT k 2` and `EXPIRETIME k`: the reply is `2000`, and `PEXPIRETIME k` replies `2`. -/
theorem expireTime_swapped :
    let after := (ExpireCommand.run (.expireAt 2) timedKey 1000000000 {} (timed 3000000000)).2
    handleExpireTime 1000000000 after timedKey = 2000 ∧
      handlePExpireTime 1000000000 after timedKey = 2 ∧
      ¬ Inverts .expireTime (.expireAt 2) timedKey 1000000000 (timed 3000000000) ∧
      ¬ Inverts .pexpireTime (.expireAt 2) timedKey 1000000000 (timed 3000000000) := by
  refine ⟨rfl, rfl, fun h => ?_, fun h => ?_⟩
  all_goals exact absurd (h 1000000000 le_rfl (by decide)) (by decide)

end Swytch.Redis.Expiry
