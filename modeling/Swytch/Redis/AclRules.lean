import Swytch.Redis.AclText

/-!
# What a sequence of command rules grants

A sequence of command rules is folded into a flag and two maps, which `CheckCommand` consults
in a fixed order.  A rule is in force (`inForce`) until a later rule about the same thing, or
a later `-@all`, takes its place; the flag and the maps hold exactly the rules in force
(`Represents`).  `granted` is the order of the check, from the most particular rule to the
most general one, and `CheckCommand` follows it except in two places: the flag is looked at
before the rule about the command, and rules about subcommands are not looked at.
-/

namespace Swytch.Redis

open Sql (Bytes utf8)

/-! ## 1.  Command rules -/

/-- What a command rule is about. -/
inductive Scope where
  | all
  | category (cat : CommandCategory)
  | command (cmd : CommandType)
  | subcommand (cmd : CommandType) (sub : Bytes)
  deriving DecidableEq

/-- A command rule: whether it allows, and what it is about. -/
abbrev CommandRule := Bool × Scope

def AclRule.commandRule : AclRule → Option CommandRule
  | .allcommands => some (true, .all)
  | .nocommands => some (false, .all)
  | .category allow cat => some (allow, .category cat)
  | .command allow cmd => some (allow, .command cmd)
  | .subcommand allow cmd sub => some (allow, .subcommand cmd sub)
  | _ => none

/-- A text that is read as the command rule. -/
def Spells (text : Bytes) (rule : CommandRule) : Prop :=
  ∃ parsed, parseACLRule text = .ok parsed ∧ parsed.commandRule = some rule

/-- The commands, with their subcommands, that a rule is about. -/
def Scope.covers (cmd : CommandType) (sub : Bytes) : Scope → Bool
  | .all => true
  | .category cat => cat ∈ getCommandCategories cmd
  | .command c => c = cmd
  | .subcommand c s => c = cmd && s = sub

/-- The last rule that covers a command with its subcommand. -/
def lastCovering (rules : List CommandRule) (cmd : CommandType) (sub : Bytes) :
    Option CommandRule :=
  rules.reverse.find? fun rule => rule.2.covers cmd sub

/-- The rule about a scope that is in force: the last one, unless a `-@all` came later. -/
def inForce (scope : Scope) (rules : List CommandRule) : Option Bool :=
  match rules.reverse.find? fun rule => rule.2 = scope ∨ rule = (false, .all) with
  | none => none
  | some rule => if rule.2 = scope then some rule.1 else none

variable {rule : CommandRule} {text : Bytes}

theorem inForce_concat {scope : Scope} {rules : List CommandRule} :
    inForce scope (rules ++ [rule]) =
      if rule.2 = scope then some rule.1
      else if rule = (false, .all) then none
      else inForce scope rules := by
  rw [inForce, List.reverse_append, List.reverse_singleton]
  by_cases hscope : rule.2 = scope
  · simp [hscope]
  · by_cases hrs : rule = (false, .all)
    · simp [hrs] at hscope ⊢
    · simp [hscope, hrs, inForce]

/-! ## 2.  The flag and the maps hold the rules in force -/

theorem Spells.ne_catAll (h : Spells text rule) : rule.2 ≠ .category .catAll := by
  obtain ⟨parsed, hp, hr⟩ := h
  intro hscope
  cases parsed <;> simp only [AclRule.commandRule, Option.some.injEq, reduceCtorEq] at hr
  all_goals
    subst hr
    simp only [Scope.category.injEq, reduceCtorEq] at hscope
  exact sound_of_parse hp hscope

/-- An enabled user whose flag and maps hold the rules in force. -/
structure Represents (user : ACLUser) (rules : List CommandRule) : Prop where
  enabled : user.enabled = true
  all : user.allCommands = decide (inForce .all rules = some true)
  commands : ∀ cmd, user.commands cmd = inForce (.command cmd) rules
  categories : ∀ cat, user.categories cat = inForce (.category cat) rules

theorem represents_fresh (name : Bytes) :
    Represents { ACLUser.fresh name with enabled := true } [] :=
  ⟨rfl, rfl, fun _ => rfl, fun _ => rfl⟩

section Passwords

variable {user : ACLUser} {rules : List CommandRule} [Bcrypt]

theorem Represents.step (h : Represents user rules) (hspell : Spells text rule) (draws : ℕ) :
    ∃ user', applyACLRule text (user, draws) = .ok (user', draws) ∧
      Represents user' (rules ++ [rule]) := by
  have hcat := hspell.ne_catAll
  obtain ⟨parsed, hp, hr⟩ := hspell
  rw [applyACLRule, hp]
  cases parsed <;> simp only [AclRule.commandRule, Option.some.injEq, reduceCtorEq] at hr
  case allcommands =>
    subst hr
    exact ⟨_, rfl, h.enabled, by simp [inForce_concat],
      fun cmd => by simp [inForce_concat, h.commands], fun cat => by
        simp [inForce_concat, h.categories]⟩
  case nocommands =>
    subst hr
    exact ⟨_, rfl, h.enabled, by simp [inForce_concat],
      fun cmd => by simp [inForce_concat], fun cat => by simp [inForce_concat]⟩
  case category allow cat =>
    subst hr
    have hne : cat ≠ .catAll := fun heq => hcat (by rw [heq])
    refine ⟨{ user with categories := Function.update user.categories cat (some allow) },
      by simp only [AclRule.apply, if_neg hne], h.enabled, ?_, ?_, ?_⟩
    · simp [inForce_concat, h.all]
    · simp [inForce_concat, h.commands]
    · intro cat'
      by_cases hcat' : cat' = cat
      · simp [inForce_concat, hcat']
      · simp [inForce_concat, hcat', Ne.symm hcat', h.categories]
  case command allow cmd =>
    subst hr
    refine ⟨_, rfl, h.enabled, ?_, ?_, ?_⟩
    · simp [inForce_concat, h.all]
    · intro cmd'
      by_cases hcmd : cmd' = cmd
      · simp [inForce_concat, hcmd]
      · simp [inForce_concat, hcmd, Ne.symm hcmd, h.commands]
    · simp [inForce_concat, h.categories]
  case subcommand allow cmd sub =>
    subst hr
    exact ⟨_, rfl, h.enabled, by simp [inForce_concat, h.all],
      fun cmd' => by simp [inForce_concat, h.commands],
      fun cat => by simp [inForce_concat, h.categories]⟩

theorem Represents.run {before : List CommandRule} {texts : List Bytes}
    (h : Represents user before) (hspell : List.Forall₂ Spells texts rules) (draws : ℕ) :
    ∃ user', applyACLRules texts (user, draws) = (none, user', draws) ∧
      Represents user' (before ++ rules) := by
  induction hspell generalizing user before with
  | nil => exact ⟨user, rfl, by simpa using h⟩
  | cons hr _ ih =>
    obtain ⟨user₁, ha, h₁⟩ := h.step hr draws
    obtain ⟨user₂, hrun, h₂⟩ := ih h₁
    refine ⟨user₂, ?_, by simpa using h₂⟩
    rw [applyACLRules, ha]
    exact hrun

/-! ## 3.  What is granted -/

/-- What the rules in force grant: the rule about the subcommand, or else the one about the
command, decides; without either, an allowed category or `+@all` is enough. -/
def granted (rules : List CommandRule) (cmd : CommandType) (sub : Bytes) : Bool :=
  match inForce (.subcommand cmd sub) rules with
  | some allow => allow
  | none =>
    match inForce (.command cmd) rules with
    | some allow => allow
    | none =>
      ((getCommandCategories cmd).any fun cat => inForce (.category cat) rules = some true) ||
        inForce .all rules = some true

omit [Bcrypt] in
theorem Represents.checkCommand_eq_ok_iff (h : Represents user rules) (cmd : CommandType) :
    checkCommand (some user) cmd = .ok () ↔
      inForce .all rules = some true ∨ inForce (.command cmd) rules = some true ∨
        (inForce (.command cmd) rules = none ∧
          ∃ cat ∈ getCommandCategories cmd, inForce (.category cat) rules = some true) := by
  rw [checkCommand, h.enabled, h.all]
  by_cases hall : inForce .all rules = some true
  · simp [hall]
  · cases hcmd : inForce (.command cmd) rules with
    | some allow => cases allow <;> simp [hall, h.commands, hcmd]
    | none =>
      have hsecond : ∀ cat, (inForce (.category cat) rules).getD false = true ↔
          inForce (.category cat) rules = some true := by
        intro cat
        cases inForce (.category cat) rules <;> simp
      by_cases hcat : ∃ cat ∈ getCommandCategories cmd, inForce (.category cat) rules = some true
      · simp [hall, h.commands, hcmd, h.categories, hcat]
      · simp only [not_exists, not_and] at hcat
        simp [hall, h.commands, hcmd, h.categories, hsecond]
        exact .inl hcat

/-- `CheckCommand` follows the order of `granted`, where no rule about the subcommand is in
force and `+@all` is not in force beside a rule that denies the command. -/
theorem checkCommand_ok_iff_granted (name : Bytes) (draws : ℕ) {texts : List Bytes}
    {rules : List CommandRule} (hspell : List.Forall₂ Spells texts rules) {cmd : CommandType}
    {sub : Bytes} (hsub : inForce (.subcommand cmd sub) rules = none)
    (hall : inForce .all rules = some true → inForce (.command cmd) rules ≠ some false) :
    ∃ user, applyACLRules (utf8 "on" :: texts) (ACLUser.fresh name, draws) =
        (none, user, draws) ∧
      (checkCommand (some user) cmd = .ok () ↔ granted rules cmd sub = true) := by
  obtain ⟨user, hrun, hu⟩ := (represents_fresh name).run hspell draws
  refine ⟨user, hrun, ?_⟩
  rw [hu.checkCommand_eq_ok_iff, List.nil_append, granted, hsub]
  cases hcmd : inForce (.command cmd) rules with
  | none => simp [or_comm]
  | some allow =>
    cases allow with
    | true => simp
    | false =>
      have hnot : inForce .all rules ≠ some true := fun h => hall h hcmd
      simp [hnot]

end Passwords

section Samples

local instance rulesBcrypt : Bcrypt := Bcrypt.inert

/-- `+get` then `-@read`: the last rule that covers `GET` denies it, and the check allows it
because the rule about the command goes before the one about its category. -/
theorem command_rule_before_category :
    List.Forall₂ Spells [utf8 "+get", utf8 "-@read"]
        [(true, .command .cmdGet), (false, .category .catRead)] ∧
      lastCovering [(true, .command .cmdGet), (false, .category .catRead)] .cmdGet [] =
        some (false, .category .catRead) ∧
      (applyACLRules [utf8 "on", utf8 "+get", utf8 "-@read"]
        (ACLUser.fresh (utf8 "u"), 0)).1 = none ∧
      checkCommand (some (applyACLRules [utf8 "on", utf8 "+get", utf8 "-@read"]
        (ACLUser.fresh (utf8 "u"), 0)).2.1) .cmdGet = .ok () := by
  refine ⟨.cons ⟨_, rfl, rfl⟩ (.cons ⟨_, rfl, rfl⟩ .nil), ?_, ?_, ?_⟩
  · decide
  · rfl
  · rfl

/-- The same rules, by the order of `granted`. -/
theorem checkCommand_get_granted :
    ∃ user, applyACLRules [utf8 "on", utf8 "+get", utf8 "-@read"]
        (ACLUser.fresh (utf8 "u"), 0) = (none, user, 0) ∧
      (checkCommand (some user) .cmdGet = .ok () ↔
        granted [(true, .command .cmdGet), (false, .category .catRead)] .cmdGet [] = true) :=
  checkCommand_ok_iff_granted (utf8 "u") 0
    (.cons ⟨_, rfl, rfl⟩ (.cons ⟨_, rfl, rfl⟩ .nil)) (by decide) (by decide)

end Samples

end Swytch.Redis
