import Swytch.Redis.Acl

/-!
# Reading and printing rules

What a text can be read as (`sound_of_parse`), and that the rules `formatUserRule` prints are
read as what they were printed for.  Every printed rule begins with a byte that is no letter,
so it is read by that byte: it is a keyword only if it is `~*`, `&*`, `+@all` or `-@all`.
-/

namespace Swytch.Redis

variable {name text pattern : Bytes} {x : UInt8} {parsed : AclRule}

open List
open Sql (Bytes utf8)
open ByteText (toLower exists_of_toLower_eq_cons)

/-! ## 1.  What a text can be read as -/

/-- What holds of a rule that was read from a text: the keywords for everything are not read
as a category or a pattern, and commands have a name. -/
def AclRule.Sound : AclRule → Prop
  | .category _ cat => cat ≠ .catAll
  | .command _ cmd => ∃ name, lookupCommandName name = some cmd
  | .keyPattern pattern => pattern.type = .readWrite → pattern.pattern ≠ utf8 "*"
  | .channel pattern => pattern ≠ utf8 "*"
  | _ => True

theorem toLower_eq_all_of_getCategoryByName
    (h : getCategoryByName name = some .catAll) : toLower name = utf8 "all" := by
  have hall : ∀ entry ∈ categoryNames, entry.2 = .catAll → entry.1 = "all" := by decide
  obtain ⟨entry, hf, hcat⟩ := Option.map_eq_some_iff.mp h
  have hn : utf8 entry.1 = toLower name := by
    simpa using find?_some hf
  rw [← hn, hall entry (mem_of_find?_eq_some hf) hcat]

/-- A text that begins with a sign and `@` in lower case does so as it was given. -/
theorem toLower_of_signed (hx : ¬ (0x61 ≤ x ∧ x ≤ 0x7a)) (h : [x, 0x40] <+: toLower text) :
    toLower text = x :: 0x40 :: toLower (text.drop 2) := by
  obtain ⟨rest, hr⟩ := h
  obtain ⟨text₁, rfl, h₁⟩ := exists_of_toLower_eq_cons hr.symm hx
  obtain ⟨text₂, rfl, h₂⟩ := exists_of_toLower_eq_cons h₁.symm (by decide)
  rw [← hr, show rest = toLower text₂ from h₂]
  rfl

/-- A category rule for all categories would be `+@all` or `-@all`. -/
theorem sound_parseCategoryRule {allow : Bool}
    (hx : ¬ (0x61 ≤ x ∧ x ≤ 0x7a)) (hbegin : [x, 0x40] <+: toLower text)
    (hkw : toLower text ≠ [x, 0x40] ++ utf8 "all")
    (h : parseCategoryRule allow (text.drop 2) = .ok parsed) : parsed.Sound := by
  rw [parseCategoryRule] at h
  cases hn : getCategoryByName (text.drop 2) with
  | none => simp [hn] at h
  | some cat =>
    rw [hn] at h
    cases h
    rintro rfl
    refine hkw ?_
    rw [toLower_of_signed hx hbegin, toLower_eq_all_of_getCategoryByName hn]
    rfl

theorem sound_parseCommandRule {allow : Bool} {cmdStr : Bytes}
    (h : parseCommandRule allow cmdStr = .ok parsed) : parsed.Sound := by
  simp only [parseCommandRule] at h
  split_ifs at h
  · cases hl : lookupCommandName
        (ByteText.toUpper (cmdStr.take (cmdStr.idxOf 0x7c))) with
    | none => simp [hl] at h
    | some cmd =>
      rw [hl] at h
      cases h
      trivial
  · cases hl : lookupCommandName (ByteText.toUpper cmdStr) with
    | none => simp [hl] at h
    | some cmd =>
      rw [hl] at h
      cases h
      exact ⟨_, hl⟩

theorem sound_parseChannelRule (h : parseChannelRule pattern = .ok parsed) : parsed.Sound := by
  rw [parseChannelRule] at h
  split_ifs at h with hpat
  · cases h
    trivial
  · cases h
    exact hpat

/-- A key pattern for all keys would be `~*`. -/
theorem sound_keyPattern (hbegin : [0x7e] <+: toLower text) (hkw : toLower text ≠ utf8 "~*") :
    (AclRule.keyPattern ⟨text.drop 1, .readWrite⟩).Sound := by
  obtain ⟨rest, hr⟩ := hbegin
  obtain ⟨text₁, rfl, h₁⟩ := exists_of_toLower_eq_cons hr.symm (by decide)
  intro _ hall
  have hstar : text₁ = utf8 "*" := hall
  subst hstar
  exact hkw (by decide)

theorem sound_of_parse (h : parseACLRule text = .ok parsed) : parsed.Sound := by
  have hkeywords : ∀ entry ∈ keywords, entry.2.Sound := by
    simp [keywords, AclRule.Sound]
  rw [parseACLRule] at h
  cases hkw : keywords.find? fun entry => utf8 entry.1 = toLower text with
  | some entry =>
    rw [hkw] at h
    cases h
    exact hkeywords entry (mem_of_find?_eq_some hkw)
  | none =>
    have hn : ∀ entry ∈ keywords, toLower text ≠ utf8 entry.1 := by
      intro entry he heq
      simpa [heq] using find?_eq_none.mp hkw entry he
    rw [hkw] at h
    cases hfi : prefixRules.find? fun entry =>
        (utf8 entry.1).isPrefixOf (toLower text) with
    | none => simp [hfi] at h
    | some entry =>
      rw [hfi] at h
      have hf : (utf8 entry.1).isPrefixOf (toLower text) = true := by
        simpa using find?_some hfi
      have hbegin := isPrefixOf_iff_prefix.mp hf
      have hmem := mem_of_find?_eq_some hfi
      simp only [prefixRules, mem_cons, not_mem_nil, or_false] at hmem
      rcases hmem with rfl | rfl | rfl | rfl | rfl | rfl | rfl | rfl | rfl | rfl | rfl | rfl
      case inr.inr.inr.inr.inl =>
        exact sound_parseCategoryRule (by decide) hbegin
          (hn ("+@all", .allcommands) (by simp [keywords])) h
      case inr.inr.inr.inr.inr.inl =>
        exact sound_parseCategoryRule (by decide) hbegin
          (hn ("-@all", .nocommands) (by simp [keywords])) h
      case inr.inr.inr.inr.inr.inr.inl => exact sound_parseCommandRule h
      case inr.inr.inr.inr.inr.inr.inr.inl => exact sound_parseCommandRule h
      case inr.inr.inr.inr.inr.inr.inr.inr.inl =>
        cases h
        exact sound_keyPattern hbegin (hn ("~*", .allkeys) (by simp [keywords]))
      case inr.inr.inr.inr.inr.inr.inr.inr.inr.inr.inr => exact sound_parseChannelRule h
      all_goals
        cases h
        simp [AclRule.Sound]

/-! ## 2.  Printed rules are read again -/

/-- A text whose first byte begins no keyword is read by its prefix. -/
theorem parseACLRule_of_head (hx : x < 0x80) (hlo : ByteText.lowerByte x = x)
    {rest : Bytes} (hkw : ∀ entry ∈ keywords, utf8 entry.1 ≠ x :: toLower rest) :
    parseACLRule (x :: rest) =
      match prefixRules.find? fun entry =>
          (utf8 entry.1).isPrefixOf (x :: toLower rest) with
      | some entry => entry.2 ((x :: rest).drop (utf8 entry.1).length)
      | none => .error (.unknownRule (x :: rest)) := by
  have hn : keywords.find? (fun entry => utf8 entry.1 = x :: toLower rest) = none :=
    find?_eq_none.mpr fun entry he => by simpa using hkw entry he
  simp only [parseACLRule, ByteText.toLower_cons_of_ascii hx, hlo, hn]
  all_goals rfl

theorem parse_hash (hash : Bytes) : parseACLRule (utf8 "#" ++ hash) = .ok (.hash hash) := by
  have hkw : ∀ entry ∈ keywords, (utf8 entry.1).head? ≠ some 0x23 := by decide
  refine parseACLRule_of_head (by decide) (by decide) fun entry he heq => ?_
  exact hkw entry he (heq ▸ rfl)

/-- A keyword that begins with a sign for keys or channels is the one for all of them. -/
theorem ne_keyword_of_ne_star
    (hx : ∀ entry ∈ keywords, (utf8 entry.1).head? = some x → utf8 entry.1 = [x, 0x2a])
    (hpat : pattern ≠ utf8 "*") :
    ∀ entry ∈ keywords, utf8 entry.1 ≠ x :: toLower pattern := by
  intro entry he heq
  have hstar := hx entry he (by rw [heq, head?_cons])
  rw [heq] at hstar
  obtain ⟨rest, rfl, hr⟩ :=
    exists_of_toLower_eq_cons (cons.inj hstar).2 (by decide)
  rw [ByteText.toLower_eq_nil hr.symm] at hpat
  exact hpat rfl

theorem parse_keyPattern {pattern : KeyPattern} (h : (AclRule.keyPattern pattern).Sound) :
    parseACLRule pattern.rule = .ok (.keyPattern pattern) := by
  obtain ⟨pattern, type⟩ := pattern
  have hpercent : ∀ rest, ∀ entry ∈ keywords, utf8 entry.1 ≠ 0x25 :: rest := by
    have hh : ∀ entry ∈ keywords, (utf8 entry.1).head? ≠ some 0x25 := by decide
    intro rest entry he heq
    exact hh entry he (by rw [heq, head?_cons])
  cases type with
  | readWrite =>
    exact parseACLRule_of_head (by decide) (by decide)
      (ne_keyword_of_ne_star (by decide) (h rfl))
  | readOnly | writeOnly =>
    exact (parseACLRule_of_head (x := 0x25) (by decide) (by decide) (hpercent _)).trans rfl

theorem parse_channel (h : pattern ≠ utf8 "*") :
    parseACLRule (utf8 "&" ++ pattern) = .ok (.channel pattern) := by
  refine (parseACLRule_of_head (by decide) (by decide)
    (ne_keyword_of_ne_star (by decide) h)).trans ?_
  show parseChannelRule pattern = .ok (.channel pattern)
  rw [parseChannelRule, if_neg h]

theorem parse_category {cat : CommandCategory} (h : cat ≠ .catAll) (allow : Bool) :
    parseACLRule (sign allow ++ utf8 "@" ++ utf8 (getCategoryName cat)) =
      .ok (.category allow cat) := by
  cases allow <;> cases cat <;> first | rfl | exact absurd rfl h

/-- The printed names have no byte that means something in a rule or in a line. -/
theorem plain_string :
    (commandNames.all fun entry => (utf8 entry.2.string).all fun b =>
      Nat.ble 0x2e b.toNat && Nat.ble b.toNat 0x7a && b.toNat != 0x40) = true := by
  decide +kernel

theorem plain_string_of_lookup {cmd : CommandType} (h : lookupCommandName name = some cmd) :
    ∀ b ∈ utf8 cmd.string, 0x2e ≤ b.toNat ∧ b.toNat ≤ 0x7a ∧ b.toNat ≠ 0x40 := by
  obtain ⟨entry, hf, rfl⟩ := Option.map_eq_some_iff.mp h
  have hpl := all_eq_true.mp plain_string entry (mem_of_find?_eq_some hf)
  intro b hb
  simpa [and_assoc] using all_eq_true.mp hpl b hb

theorem parse_command {cmd : CommandType} (h : lookupCommandName name = some cmd) (allow : Bool) :
    parseACLRule (sign allow ++ utf8 cmd.string) = .ok (.command allow cmd) := by
  have hpl := plain_string_of_lookup h
  have hl := lookupCommandName_string h
  generalize utf8 cmd.string = word at hpl hl
  -- The name has no `|` and does not begin with `@`.
  have hbar : word.idxOf 0x7c = word.length := by
    refine idxOf_eq_length fun hmem => ?_
    exact absurd (hpl 0x7c hmem).2.1 (by decide)
  have hat : ∀ rest, toLower word ≠ 0x40 :: rest := by
    intro rest heq
    obtain ⟨tail, rfl, -⟩ := exists_of_toLower_eq_cons heq (by decide)
    exact (hpl 0x40 mem_cons_self).2.2 rfl
  have hr : parseCommandRule allow word = .ok (.command allow cmd) := by
    simp [parseCommandRule, hbar, hl]
  have hfit : ∀ x : UInt8, [x, 0x40].isPrefixOf (x :: toLower word) = false := by
    cases hlo : toLower word with
    | nil => simp
    | cons b bs =>
      have hb : b ≠ 0x40 := fun hb => hat bs (by rw [hlo, hb])
      simp [isPrefixOf, Ne.symm hb]
  have hkw : ∀ x : UInt8, (∀ entry ∈ keywords, (utf8 entry.1).head? = some x →
        [x, 0x40] <+: utf8 entry.1) →
      ∀ entry ∈ keywords, utf8 entry.1 ≠ x :: toLower word := by
    intro x hx entry he heq
    have hpre := hx entry he (by rw [heq, head?_cons])
    rw [heq] at hpre
    exact Bool.false_ne_true ((hfit x).symm.trans (List.isPrefixOf_iff_prefix.mpr hpre))
  cases allow with
  | true =>
    refine (parseACLRule_of_head (x := 0x2b) (by decide) (by decide)
      (hkw 0x2b (by decide))).trans ?_
    have hf : prefixRules.find? (fun entry =>
        (utf8 entry.1).isPrefixOf (0x2b :: toLower word)) =
        some ("+", parseCommandRule true) := by
      simp only [prefixRules, find?_cons, show utf8 "+@" = [0x2b, 0x40] from rfl, hfit]
      rfl
    rw [hf]
    exact hr
  | false =>
    refine (parseACLRule_of_head (x := 0x2d) (by decide) (by decide)
      (hkw 0x2d (by decide))).trans ?_
    have hf : prefixRules.find? (fun entry =>
        (utf8 entry.1).isPrefixOf (0x2d :: toLower word)) =
        some ("-", parseCommandRule false) := by
      simp only [prefixRules, find?_cons, show utf8 "-@" = [0x2d, 0x40] from rfl, hfit]
      rfl
    rw [hf]
    exact hr

end Swytch.Redis
