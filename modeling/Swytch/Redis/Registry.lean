import Swytch.Lib.Decimal
import Swytch.Redis.Dispatch

/-!
# The command registry

The entries that `initRegistry` and the modules register: for every command whether it has a
`Handler` or a `ConnHandler`, and how the registry finds its keys in the arguments.  Also the few
ways in which handlers read their arguments: numbers, and words whatever their case.
-/

namespace Swytch.Redis

open Decimal
open Sql (Bytes utf8)

/-! ## 1.  Numbers and words -/

/-- `shared.ToUpper`: ASCII letters only. -/
def upper (arg : Bytes) : Bytes := arg.map ByteText.upperByte

/-- The byte is one of `0` to `9`. -/
def isDigit (b : UInt8) : Bool := 0x30 ≤ b && b ≤ 0x39

/-- The loop of `ParseInt64` over the digits. -/
def parseDigits (neg : Bool) : ℕ → Bytes → Option ℕ
  | n, [] => some n
  | n, c :: cs =>
    if !isDigit c then none
    else if n > 2 ^ 63 / 10 then none
    else
      let n := n * 10 + (c.toNat - 0x30)
      if !neg && n > 2 ^ 63 - 1 then none
      else if neg && n > 2 ^ 63 then none
      else parseDigits neg n cs

/-- `shared.ParseInt64`; `strconv.Atoi` and `strconv.ParseInt` in base ten read the same
numbers. -/
def parseInt64 (arg : Bytes) : Option ℤ :=
  match arg with
  | [] => none
  | c :: rest =>
    let digits := if c = 0x2d || c = 0x2b then rest else arg
    if digits = [] then none
    else
      (parseDigits (c = 0x2d) 0 digits).map fun n => if c = 0x2d then -(n : ℤ) else (n : ℤ)

variable {digits : Bytes} {neg : Bool} {n : ℕ}

theorem parseDigits_le {m : ℕ} (hn : n ≤ 2 ^ 63) (hpos : neg = false → n < 2 ^ 63)
    (h : parseDigits neg n digits = some m) : m ≤ 2 ^ 63 ∧ (neg = false → m < 2 ^ 63) := by
  induction digits generalizing n with
  | nil =>
    cases h
    exact ⟨hn, hpos⟩
  | cons c digits ih =>
    unfold parseDigits at h
    split at h
    · cases h
    · split at h
      · cases h
      · simp only at h
        split at h
        · cases h
        · rename_i hup
          split at h
          · cases h
          · rename_i hlo
            cases neg with
            | true =>
              simp only [Bool.true_and, decide_eq_true_eq, not_lt] at hlo
              exact ih hlo (fun hfalse => nomatch hfalse) h
            | false =>
              simp only [Bool.not_false, Bool.true_and, decide_eq_true_eq]
                at hup
              exact ih (by omega) (fun _ => by omega) h

theorem parseInt64_bounds {arg : Bytes} {n : ℤ} (h : parseInt64 arg = some n) :
    -2 ^ 63 ≤ n ∧ n < 2 ^ 63 := by
  cases arg with
  | nil => cases h
  | cons c rest =>
    simp only [parseInt64] at h
    generalize (if (c = 0x2d || c = 0x2b) = true then rest else c :: rest) = digits at h
    by_cases hnil : digits = []
    · rw [if_pos hnil] at h
      cases h
    · rw [if_neg hnil] at h
      obtain ⟨read, hrd, rfl⟩ := Option.map_eq_some_iff.mp h
      obtain ⟨m, hm, hcast⟩ := Option.bind_eq_some_iff.mp hrd
      cases hcast
      obtain ⟨hle, hlt⟩ := parseDigits_le (Nat.zero_le _) (fun _ => by decide) hm
      by_cases hneg : c = 0x2d
      · rw [if_pos hneg]
        omega
      · have := hlt (decide_eq_false hneg)
        omega

theorem isDigit_of_decimal {c : UInt8} (h : Decimal.IsDigit c) : isDigit c = true := by
  obtain ⟨hlow, hhi⟩ := h
  simp only [isDigit, Bool.and_eq_true, decide_eq_true_eq]
  exact ⟨hlow, hhi⟩

/-- Digits whose number fits are read. -/
theorem parseDigits_eq_some (hdigits : ∀ c ∈ digits, Decimal.IsDigit c)
    (hfit : valueFrom n digits ≤ if neg then 2 ^ 63 else 2 ^ 63 - 1) :
    parseDigits neg n digits = some (valueFrom n digits) := by
  induction digits generalizing n with
  | nil => rfl
  | cons c digits ih =>
    have hstep : n * 10 + (c.toNat - 0x30) ≤ if neg then 2 ^ 63 else 2 ^ 63 - 1 :=
      (le_valueFrom _ digits).trans hfit
    have hnext := ih (fun d hd => hdigits d (List.mem_cons_of_mem _ hd)) hfit
    have hc := isDigit_of_decimal (hdigits c List.mem_cons_self)
    have hbd : n * 10 + (c.toNat - 0x30) ≤ 2 ^ 63 := by
      split at hstep
      · exact hstep
      · omega
    have hsign : ¬ ((!neg && decide (n * 10 + (c.toNat - 0x30) > 2 ^ 63 - 1)) = true) := by
      cases neg with
      | false => simpa using hstep
      | true => simp
    have hneg : ¬ ((neg && decide (n * 10 + (c.toNat - 0x30) > 2 ^ 63)) = true) := by
      simp only [Bool.and_eq_true, decide_eq_true_eq]
      omega
    unfold parseDigits
    rw [if_neg (by rw [hc]; decide), if_neg (by omega)]
    rw [if_neg hsign, if_neg hneg]
    exact hnext

theorem parseInt64_ofNat (hn : n < 2 ^ 63) : parseInt64 (ofNat n) = some (n : ℤ) := by
  have hdigit : ∀ c ∈ ofNat n, Decimal.IsDigit c := fun _ hc =>
    isDigit_of_mem_ofNat hc
  have hrd : parseDigits false 0 (ofNat n) = some n := by
    rw [parseDigits_eq_some hdigit]
    · rw [valueFrom_ofNat]
    · rw [valueFrom_ofNat]
      simp only [Bool.false_eq_true, if_false]
      omega
  obtain ⟨c, rest, hcons⟩ := List.exists_cons_of_ne_nil (ofNat_ne_nil n)
  obtain ⟨hlow, -⟩ := hdigit c (by rw [hcons]; exact List.mem_cons_self)
  have hminus : c ≠ 0x2d := by
    rintro rfl
    exact absurd hlow (by decide)
  have hplus : c ≠ 0x2b := by
    rintro rfl
    exact absurd hlow (by decide)
  rw [hcons] at hrd ⊢
  simp [parseInt64, hminus, hplus, hrd]

/-- `strings.EqualFold` against an ASCII word: the long `s` and the Kelvin sign count as `s` and
`k`. -/
def equalFold : Bytes → Bytes → Bool
  | [], arg => arg.isEmpty
  | x :: word, arg =>
    match arg with
    | [] => false
    | 0xc5 :: 0xbf :: rest => ByteText.upperByte x == 0x53 && equalFold word rest
    | 0xe2 :: 0x84 :: 0xaa :: rest => ByteText.upperByte x == 0x4b && equalFold word rest
    | b :: rest => ByteText.upperByte b == ByteText.upperByte x && equalFold word rest

theorem equalFold_cons_of_lt {x b : UInt8} (hb : b < 0x80) (word rest : Bytes) :
    equalFold (x :: word) (b :: rest) =
      (ByteText.upperByte b == ByteText.upperByte x && equalFold word rest) := by
  rw [equalFold]
  all_goals
    rintro other rfl -
    exact absurd hb (by decide)

theorem lt_of_upperByte_lt {b : UInt8} (h : ByteText.upperByte b < 0x80) : b < 0x80 := by
  unfold ByteText.upperByte at h
  split at h
  · rename_i hletter
    exact UInt8.lt_of_le_of_lt hletter.2 (by decide)
  · exact h

/-- A word of ASCII letters is equal under folding to what has the same upper case. -/
theorem equalFold_of_upper_eq {word arg : Bytes}
    (hw : ∀ x ∈ word, ByteText.upperByte x < 0x80) (h : upper arg = upper word) :
    equalFold word arg = true := by
  induction word generalizing arg with
  | nil =>
    rw [List.map_eq_nil_iff.mp h]
    rfl
  | cons x word ih =>
    cases arg with
    | nil => exact nomatch h
    | cons b rest =>
      obtain ⟨hb, hr⟩ := List.cons.inj h
      have hascii : b < 0x80 := lt_of_upperByte_lt (by rw [hb]; exact hw x List.mem_cons_self)
      rw [equalFold_cons_of_lt hascii, hb, ih (fun y hy => hw y (List.mem_cons_of_mem _ hy)) hr]
      simp

/-! ## 2.  Keys in the arguments -/

/-- The functions used as `Keys` of an entry. -/
inductive KeyExtractor where
  /-- No `Keys`. -/
  | none
  | first
  | firstTwo
  | all
  | allButLast
  | msetStyle
  | numkeysAt (offset : ℕ)
  | afterStreams
  | sort
  | jsonMSet
  | jsonDebug
  deriving DecidableEq

def keysNumkeysAtOffset (offset : ℕ) (args : List Bytes) : List Bytes :=
  match args.drop offset with
  | [] => []
  | numkeys :: rest =>
    match parseInt64 numkeys with
    | none => []
    | some n => if n ≤ 0 || (rest.length : ℤ) < n then [] else rest.take n.toNat

def keysAfterStreams (args : List Bytes) : List Bytes :=
  match args.dropWhile fun arg => !equalFold (utf8 "STREAMS") arg with
  | [] => []
  | _ :: remaining =>
    if remaining = [] || remaining.length % 2 ≠ 0 then []
    else remaining.take (remaining.length / 2)

/-- The destination that `KeysSortCmd` finds: what follows the first `STORE`. -/
def sortDestination : List Bytes → List Bytes
  | [] => []
  | [_] => []
  | arg :: next :: rest =>
    if equalFold (utf8 "STORE") arg then [next] else sortDestination (next :: rest)

def everyOther : List Bytes → List Bytes
  | [] => []
  | [arg] => [arg]
  | arg :: _ :: rest => arg :: everyOther rest

/-- The first argument of each full triple. -/
def everyTriple : List Bytes → List Bytes
  | key :: _ :: _ :: rest => key :: everyTriple rest
  | _ => []

/-- `entry.Keys(cmd)`. -/
def KeyExtractor.extract : KeyExtractor → List Bytes → List Bytes
  | .none, _ => []
  | .first, args => args.take 1
  | .firstTwo, args => if args.length < 2 then [] else args.take 2
  | .all, args => args
  | .allButLast, args => if args.length < 2 then [] else args.dropLast
  | .msetStyle, args => if args.length < 2 then [] else everyOther args
  | .numkeysAt offset, args => keysNumkeysAtOffset offset args
  | .afterStreams, args => keysAfterStreams args
  | .sort, args =>
    match args with
    | [] => []
    | key :: rest => key :: sortDestination rest
  | .jsonMSet, args => everyTriple args
  | .jsonDebug, args =>
    match args with
    | sub :: key :: _ => if equalFold (utf8 "MEMORY") sub then [key] else []
    | _ => []

/-! ## 3.  The entries -/

/-- The two ways in which `ExecuteInto` runs a command. -/
inductive HandlerKind where
  | handler
  | connHandler
  deriving DecidableEq

structure Registration where
  cmd : CommandType
  kind : HandlerKind
  keys : KeyExtractor
  deriving DecidableEq

/-- Entries of one kind with one extractor. -/
def registered (kind : HandlerKind) (keys : KeyExtractor) (cmds : List CommandType) :
    List Registration :=
  cmds.map fun cmd => ⟨cmd, kind, keys⟩

def registrations : List Registration :=
  registered .handler .none [
    .cmdInfo, .cmdDBSize, .cmdFlushDB, .cmdFlushAll, .cmdSwapDB, .cmdTime, .cmdKeys,
    .cmdRandomKey, .cmdScan, .cmdEcho, .cmdHGet, .cmdHExists, .cmdHGetAll, .cmdHKeys,
    .cmdHVals, .cmdHLen, .cmdHMGet, .cmdHStrLen, .cmdHRandField, .cmdHScan, .cmdHTTL,
    .cmdHPTTL, .cmdHExpireTime, .cmdHPExpireTime, .cmdGetBit, .cmdBitCount, .cmdBitPos,
    .cmdBitFieldRO, .cmdFunction, .cmdScript, .cmdPublish, .cmdZScore, .cmdZMScore, .cmdZCard,
    .cmdZRank, .cmdZRevRank, .cmdZRange, .cmdZRevRange, .cmdZRangeByScore,
    .cmdZRevRangeByScore, .cmdZCount, .cmdZLexCount, .cmdZRangeByLex, .cmdZRevRangeByLex,
    .cmdZRandMember, .cmdZUnion, .cmdZInter, .cmdZInterCard, .cmdZDiff, .cmdGeoDist,
    .cmdGeoHash, .cmdGeoPos, .cmdGeoRadiusRO, .cmdGeoRadiusByMemberRO, .cmdGeoSearch,
    .cmdLLen, .cmdLRange, .cmdLIndex, .cmdLPos, .cmdPFCount, .cmdPFSelfTest, .cmdPFDebug,
    .cmdXLen, .cmdXRange, .cmdXRevRange, .cmdXPending, .cmdXInfo, .cmdSCard, .cmdSIsMember,
    .cmdSMIsMember, .cmdSMembers, .cmdSRandMember, .cmdSInter, .cmdSInterCard, .cmdSUnion,
    .cmdSDiff, .cmdGet, .cmdMGet, .cmdStrLen, .cmdGetRange, .cmdSubstr, .cmdLcs, .cmdDigest,
    .cmdExists, .cmdType, .cmdTTL, .cmdPTTL, .cmdExpireTime, .cmdPExpireTime] ++
  registered .handler .first [
    .cmdJSONGet, .cmdJSONType, .cmdJSONArrLen, .cmdJSONArrIndex, .cmdJSONStrLen,
    .cmdJSONObjKeys, .cmdJSONObjLen, .cmdJSONResp, .cmdJSONSet, .cmdJSONMerge, .cmdJSONDel,
    .cmdJSONForget, .cmdJSONClear, .cmdJSONNumIncrBy, .cmdJSONNumMultBy, .cmdJSONNumPowBy,
    .cmdJSONArrAppend, .cmdJSONArrInsert, .cmdJSONArrPop, .cmdJSONArrTrim, .cmdJSONStrAppend,
    .cmdJSONToggle, .cmdHSet, .cmdHSetNX, .cmdHDel, .cmdHMSet, .cmdHIncrBy, .cmdHIncrByFloat,
    .cmdHGetDel, .cmdHExpire, .cmdHPExpire, .cmdHExpireAt, .cmdHPExpireAt, .cmdHPersist,
    .cmdHSetEx, .cmdHGetEx, .cmdSetBit, .cmdBitField, .cmdZAdd, .cmdZRem, .cmdZIncrBy,
    .cmdZPopMin, .cmdZPopMax, .cmdZRemRangeByScore, .cmdZRemRangeByRank, .cmdZRemRangeByLex,
    .cmdZUnionStore, .cmdZInterStore, .cmdZDiffStore, .cmdGeoAdd, .cmdGeoRadius,
    .cmdGeoRadiusByMember, .cmdLPush, .cmdLPushX, .cmdRPush, .cmdRPushX, .cmdLPop, .cmdRPop,
    .cmdLSet, .cmdLRem, .cmdLTrim, .cmdLInsert, .cmdPFAdd, .cmdXAdd, .cmdXGroup, .cmdXAck,
    .cmdXTrim, .cmdXDel, .cmdXSetId, .cmdXDelEx, .cmdXAckDel, .cmdXClaim, .cmdXAutoClaim,
    .cmdXIdmpRecord, .cmdXCfgSet, .cmdSAdd, .cmdSRem, .cmdSPop, .cmdSet, .cmdSetNX, .cmdSetEX,
    .cmdPSetEX, .cmdGetSet, .cmdGetDel, .cmdGetEx, .cmdSetRange, .cmdAppend, .cmdIncr,
    .cmdDecr, .cmdIncrBy, .cmdDecrBy, .cmdIncrByFloat, .cmdMove, .cmdExpire, .cmdExpireAt,
    .cmdPExpire, .cmdPExpireAt, .cmdPersist] ++
  registered .handler .firstTwo [
    .cmdZRangeStore, .cmdGeoSearchStore, .cmdLMove, .cmdRPopLPush, .cmdSMove, .cmdRename,
    .cmdRenameNX, .cmdCopy] ++
  registered .handler .all [
    .cmdBitOp, .cmdPFMerge, .cmdSInterStore, .cmdSUnionStore, .cmdSDiffStore, .cmdDel,
    .cmdUnlink, .cmdDelEx] ++
  registered .handler .allButLast [
    .cmdJSONMGet] ++
  registered .handler .msetStyle [
    .cmdMSet, .cmdMSetNX, .cmdMSetEX] ++
  registered .handler (.numkeysAt 0) [
    .cmdZMPop, .cmdLMPop] ++
  registered .handler .jsonMSet [
    .cmdJSONMSet] ++
  registered .handler .jsonDebug [
    .cmdJSONDebug] ++
  registered .connHandler .none [
    .cmdCommand, .cmdConfig, .cmdClient, .cmdDebug, .cmdMemory, .cmdSync, .cmdPSync,
    .cmdReplConf, .cmdWait, .cmdWaitAof, .cmdAcl, .cmdPing, .cmdAuth, .cmdSelect, .cmdQuit,
    .cmdHello, .cmdNoop, .cmdMulti, .cmdExec, .cmdDiscard, .cmdWatch, .cmdUnwatch,
    .cmdSubscribe, .cmdUnsubscribe, .cmdPSubscribe, .cmdPUnsubscribe, .cmdPubSub] ++
  registered .connHandler .first [
    .cmdSortRO] ++
  registered .connHandler .firstTwo [
    .cmdBLMove, .cmdBRPopLPush] ++
  registered .connHandler .allButLast [
    .cmdBZPopMin, .cmdBZPopMax, .cmdBLPop, .cmdBRPop] ++
  registered .connHandler (.numkeysAt 1) [
    .cmdEval, .cmdEvalSha, .cmdEvalRO, .cmdEvalShaRO, .cmdFcall, .cmdFcallRO, .cmdBZMPop,
    .cmdBLMPop] ++
  registered .connHandler .afterStreams [
    .cmdXRead, .cmdXReadGroup] ++
  registered .connHandler .sort [
    .cmdSort]

end Swytch.Redis
