import Swytch.Redis.Acl

/-!
# When an update of the users is all or nothing

Rules are applied to the live user one by one, and a file is loaded into a table that has
been cleared before its first line is read.  Whether an update is refused depends on its text
alone (`Accepts`, `FileAccepted`), but where it is refused decides what is left behind: the
rules before the refused one have been applied, and of the table there was nothing remains.
-/

namespace Swytch.Redis

open Sql (Bytes utf8)
open ACLManager (loadLine parseACLLine loadLines loadFromFile)

/-! ## 1.  The texts that are accepted -/

/-- A rule that can be applied: it is understood, and its password is not too long. -/
def Accepts (rule : Bytes) : Prop :=
  match parseACLRule rule with
  | .ok (.password pw) => pw.length ≤ 72
  | .ok _ => True
  | .error _ => False

instance (rule : Bytes) : Decidable (Accepts rule) := by
  unfold Accepts
  split <;> infer_instance

/-- A line that can be loaded: blank, a comment, or a user with rules that are accepted. -/
def LineAccepted (line : Bytes) : Prop :=
  match ByteText.fields line with
  | [] => True
  | word :: fields =>
    word.head? = some 0x23 ∨ ByteText.toLower word = utf8 "user" ∧
      match fields with
      | [] => False
      | _ :: rules => ∀ rule ∈ rules, Accepts rule

/-- A file that can be read to its end and whose lines are all accepted. -/
def FileAccepted (file : AclFile) : Prop :=
  (∀ line ∈ (scanLines file.content).1, LineAccepted line) ∧
    (scanLines file.content).2 = false ∧ file.readFails = false

/-- The same users with the same passwords and permissions. -/
def SameUsers (users users' : Users) : Prop := ∀ name, users.lookup name = users'.lookup name

variable {rules : List Bytes} {username path : Bytes} {file : AclFile}

section Passwords

variable [Bcrypt]

/-! ## 2.  What a refused list of rules leaves -/

theorem exists_apply_iff (rule : Bytes) (state : ACLUser × ℕ) :
    (∃ state', applyACLRule rule state = .ok state') ↔ Accepts rule := by
  rw [applyACLRule, Accepts]
  cases parseACLRule rule with
  | error e => simp
  | ok parsed =>
    cases parsed with
    | password pw =>
      by_cases hlen : pw.length ≤ 72 <;> simp [AclRule.apply, hashPassword, hlen]
    | category allow cat => by_cases hcat : cat = .catAll <;> simp [AclRule.apply, hcat]
    | _ => simp [AclRule.apply]

theorem applyACLRule_eq_error {rule : Bytes} (h : ¬ Accepts rule) (state : ACLUser × ℕ) :
    ∃ e, applyACLRule rule state = .error e := by
  cases ha : applyACLRule rule state with
  | error e => exact ⟨e, rfl⟩
  | ok state' => exact absurd ((exists_apply_iff rule state).mp ⟨state', ha⟩) h

/-- The rules before the first refused one are applied, and it alone is reported. -/
theorem applyACLRules_eq (rules : List Bytes) (state : ACLUser × ℕ) :
    ((applyACLRules rules state).1 = none ↔ ∀ rule ∈ rules, Accepts rule) ∧
      (applyACLRules rules state).2 =
        (applyACLRules (rules.takeWhile fun rule => Accepts rule) state).2 := by
  induction rules generalizing state with
  | nil => exact ⟨by simp [applyACLRules], rfl⟩
  | cons rule rules ih =>
    by_cases hr : Accepts rule
    · obtain ⟨state', ha⟩ := (exists_apply_iff rule state).mpr hr
      have ht : (rule :: rules).takeWhile (fun rule => Accepts rule) =
          rule :: rules.takeWhile fun rule => Accepts rule := by
        simp [hr]
      rw [ht, applyACLRules, applyACLRules, ha]
      simpa [hr] using ih state'
    · obtain ⟨e, ha⟩ := applyACLRule_eq_error hr state
      have ht : (rule :: rules).takeWhile (fun rule => Accepts rule) = [] := by
        simp [hr]
      have href : applyACLRules (rule :: rules) state = (some e, state) := by
        rw [applyACLRules, ha]
      rw [ht, href]
      exact ⟨by simp [hr], rfl⟩

variable (m : ACLManager)

/-- Applying rules to the user of a name changes that user and no other. -/
theorem lookup_applyTo (username : Bytes) (rules : List Bytes) (name : Bytes) :
    (m.applyTo username rules).2.users.lookup name =
      if name = username then
        some (applyACLRules rules
          ((m.users.lookup username).getD (ACLUser.fresh username), m.draws)).2.1
      else m.users.lookup name := by
  show (m.users.insert username _).lookup name = _
  by_cases hn : name = username
  · subst hn
    rw [if_pos rfl, AList.lookup_insert]
  · rw [if_neg hn, AList.lookup_insert_ne hn]

theorem applyTo_accepted_iff (username : Bytes) (rules : List Bytes) :
    (m.applyTo username rules).1 = none ↔ ∀ rule ∈ rules, Accepts rule :=
  (applyACLRules_eq rules _).1

/-- The users stay the same when the user is there and the rules leave it as it is. -/
theorem sameUsers_applyTo_iff :
    SameUsers m.users (m.applyTo username rules).2.users ↔
      ∃ user, m.users.lookup username = some user ∧
        (applyACLRules (rules.takeWhile fun rule => Accepts rule) (user, m.draws)).2.1 = user := by
  rw [SameUsers]
  simp only [lookup_applyTo, (applyACLRules_eq rules _).2]
  constructor
  · intro h
    have hse := h username
    rw [if_pos rfl] at hse
    cases hu : m.users.lookup username with
    | none => simp [hu] at hse
    | some user =>
      rw [hu] at hse
      exact ⟨user, rfl, (Option.some.inj hse).symm⟩
  · rintro ⟨user, hu, hsame⟩ name
    by_cases hn : name = username
    · subst hn
      rw [if_pos rfl, hu, Option.getD_some, hsame]
    · rw [if_neg hn]

/-! ## 3.  What a refused file leaves -/

theorem loadLine_accepted_iff (line : Bytes) : (m.loadLine line).1 = none ↔ LineAccepted line := by
  rw [loadLine, LineAccepted]
  cases ByteText.fields line with
  | nil => simp
  | cons word fields =>
    by_cases hcmt : word.head? = some 0x23
    · simp [hcmt]
    · by_cases hu : ByteText.toLower word = utf8 "user"
      · cases fields with
        | nil => simp [hcmt, parseACLLine]
        | cons username rules =>
          simp [hcmt, hu, parseACLLine, applyTo_accepted_iff]
      · cases fields <;> simp [hcmt, hu, parseACLLine]

theorem loadLines_accepted_iff (lineNum : ℕ) (lines : List Bytes) (m : ACLManager) :
    (loadLines lineNum lines m).1 = none ↔ ∀ line ∈ lines, LineAccepted line := by
  induction lines generalizing lineNum m with
  | nil => simp [loadLines]
  | cons line lines ih =>
    have hl := loadLine_accepted_iff m line
    cases hload : m.loadLine line with
    | mk err m' =>
      rw [hload] at hl
      cases err with
      | none =>
        have hacc : LineAccepted line := hl.mp rfl
        simp [loadLines, hload, ih, hacc]
      | some e =>
        have href : ¬ LineAccepted line := fun h => by simpa using hl.mpr h
        simp [loadLines, hload, href]

theorem loadFromFile_accepted_iff :
    (m.loadFromFile path (some file)).1 = none ↔ FileAccepted file := by
  have hlines := loadLines_accepted_iff 0 (scanLines file.content).1 { m with users := ∅ }
  rw [loadFromFile, FileAccepted, ← hlines]
  cases hload : loadLines 0 (scanLines file.content).1 { m with users := ∅ } with
  | mk err m' =>
    cases err with
    | some e => simp [hload]
    | none =>
      simp only [hload]
      cases (scanLines file.content).2 <;> cases file.readFails <;> simp

/-- The table that the accepted part of a file builds from nothing. -/
def builtFrom (draws : ℕ) (file : AclFile) : Users :=
  (ACLManager.loadFromFile ⟨∅, [], draws⟩ [] (some file)).2.users

/-- Where the file is kept plays no part in what it says. -/
theorem applyTo_aclFile :
    { m with aclFile := path }.applyTo username rules =
      ((m.applyTo username rules).1, { (m.applyTo username rules).2 with aclFile := path }) :=
  rfl

theorem loadLine_aclFile {line : Bytes} : { m with aclFile := path }.loadLine line =
      ((m.loadLine line).1, { (m.loadLine line).2 with aclFile := path }) := by
  rw [loadLine, loadLine]
  cases ByteText.fields line with
  | nil => rfl
  | cons word fields =>
    by_cases hcmt : word.head? = some 0x23
    · simp [hcmt]
    · by_cases hu : ByteText.toLower word = utf8 "user"
      · cases fields <;> simp [hcmt, hu, parseACLLine, applyTo_aclFile]
      · cases fields <;> simp [hcmt, hu, parseACLLine]

theorem loadLines_aclFile (lineNum : ℕ) (lines : List Bytes) (m : ACLManager) (path : Bytes) :
    loadLines lineNum lines { m with aclFile := path } =
      ((loadLines lineNum lines m).1,
        { (loadLines lineNum lines m).2 with aclFile := path }) := by
  induction lines generalizing lineNum m with
  | nil => rfl
  | cons line lines ih =>
    rw [loadLines, loadLines, loadLine_aclFile]
    cases hload : m.loadLine line with
    | mk err m' =>
      cases err with
      | none => exact ih (lineNum + 1) m'
      | some e => rfl

/-- The table there was plays no part: what is left is what the file built. -/
theorem users_loadFromFile :
    (m.loadFromFile path (some file)).2.users = builtFrom m.draws file := by
  have hlines : loadLines 0 (scanLines file.content).1 { m with users := ∅ } = _ :=
    loadLines_aclFile 0 (scanLines file.content).1 ⟨∅, [], m.draws⟩ m.aclFile
  rw [builtFrom, loadFromFile, loadFromFile]
  simp only [hlines]
  cases loadLines 0 (scanLines file.content).1 ⟨∅, [], m.draws⟩ with
  | mk err m' => cases err <;> rfl

/-! ## 4.  Updates that fail and change nothing -/

/-- A file that, if it is refused, changes nothing: it cannot be opened, or it is accepted,
or the table is the one its accepted part builds from nothing. -/
def LoadIsAtomic (m : ACLManager) (file : Option AclFile) : Prop :=
  match file with
  | none => True
  | some file => FileAccepted file ∨ SameUsers m.users (builtFrom m.draws file)

/-- A request that, if it is refused, changes nothing: it lacks arguments, or every rule is
accepted, or the user is there and the rules before the refused one leave it as it is. -/
def SetUserIsAtomic (m : ACLManager) (args : List Bytes) : Prop :=
  match args with
  | _ :: username :: rules =>
    (∀ rule ∈ rules, Accepts rule) ∨
      ∃ user, m.users.lookup username = some user ∧
        (applyACLRules (rules.takeWhile fun rule => Accepts rule) (user, m.draws)).2.1 = user
  | _ => True

end Passwords

section Samples

local instance updatesBcrypt : Bcrypt := Bcrypt.inert

end Samples

end Swytch.Redis
