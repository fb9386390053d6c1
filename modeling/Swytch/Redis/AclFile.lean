import Swytch.Redis.AclText
import Swytch.Redis.AclUpdates

/-!
# Saving the users and loading them again

`SaveToFile` prints a line of words for every user, and `LoadFromFile` splits the lines into
words and applies them as rules to new users.  Where no name, hash or pattern contains white
space and no line fills the scanner's buffer, the words found are the words printed, and
loading gives every user back as `reloaded` says: what is lost decides nothing, except that
`nopass` is printed before the password hashes, and reading a hash takes `nopass` back.
-/

namespace Swytch.Redis

open ByteText
open Except
open List
open Sql (Bytes utf8)
open ACLManager (loadLines)
open ACLUser (fresh)

variable {κ : Type} {user : ACLUser} {commands : List (CommandType × Bool)} {lines : List Bytes}
    {users : Users}

/-! ## 1.  The users that accepted requests make -/

/-- What every rule keeps of a user that was made by rules. -/
structure WellMade (user : ACLUser) : Prop where
  selectors : user.selectors = []
  categories : ∀ cat allowed, user.categories cat = some allowed → cat ≠ .catAll
  commands : ∀ cmd allowed, user.commands cmd = some allowed →
    ∃ name, lookupCommandName name = some cmd
  keyPatterns : ∀ pattern ∈ user.keyPatterns, (AclRule.keyPattern pattern).Sound
  channelPatterns : ∀ pattern ∈ user.channelPatterns, (AclRule.channel pattern).Sound
  lists : (∃ entries, Lists user.categories entries) ∧ ∃ entries, Lists user.commands entries

theorem lists_none : Lists (fun _ : κ => (none : Option Bool)) [] :=
  ⟨nodup_nil, by simp⟩

variable {entries : List (κ × Bool)} {map : κ → Option Bool} {rule word line username : Bytes}
    {m : ACLManager} {key : κ} {categories : List (CommandCategory × Bool)} {users' : Users}

theorem Lists.set [DecidableEq κ] (h : Lists map entries) (key : κ) (allowed : Bool) :
    Lists (Function.update map key (some allowed))
      ((key, allowed) :: entries.filter fun entry => entry.1 ≠ key) := by
  constructor
  · rw [map_cons, nodup_cons]
    constructor
    · simp
    · exact h.nodup.sublist (filter_sublist.map _)
  · intro key' allowed'
    by_cases hkey : key' = key
    · simp [hkey, eq_comm]
    · simp [hkey, h.mem_iff]

theorem wellMade_fresh (name : Bytes) : WellMade (fresh name) where
  selectors := rfl
  categories := by simp [fresh]
  commands := by simp [fresh]
  keyPatterns := by simp [fresh]
  channelPatterns := by simp [fresh]
  lists := ⟨⟨[], lists_none⟩, [], lists_none⟩

/-- The users are well made, are filed under their names, and the default user is there. -/
structure WellKept (users : Users) : Prop where
  wellMade : ∀ name user, users.lookup name = some user → WellMade user ∧ user.name = name
  default : (users.lookup defaultUsername).isSome = true

section Passwords

variable [Bcrypt]

/-- The managers that accepted `ACL SETUSER` requests lead to. -/
inductive Reached : ACLManager → Prop
  | new : Reached ACLManager.new
  | setUser {m : ACLManager} (args : List Bytes) :
      Reached m → (m.handleAclSetUser args).1 = none → Reached (m.handleAclSetUser args).2

theorem WellMade.step {user' : ACLUser} {draws draws' : ℕ} (h : WellMade user)
    (ha : applyACLRule rule (user, draws) = .ok (user', draws')) :
    WellMade user' ∧ user'.name = user.name := by
  rw [applyACLRule] at ha
  cases hp : parseACLRule rule with
  | error e => simp [hp] at ha
  | ok parsed =>
    rw [hp] at ha
    have hsound := sound_of_parse hp
    cases parsed with
    | password pw =>
      by_cases hlen : pw.length ≤ 72
      · simp only [AclRule.apply, hashPassword, if_pos hlen] at ha
        obtain ⟨rfl, -⟩ := ha
        exact ⟨{ h with }, rfl⟩
      · simp [AclRule.apply, hashPassword, hlen] at ha
    | category allow cat =>
      have hcat : cat ≠ .catAll := hsound
      simp only [AclRule.apply, if_neg hcat] at ha
      obtain ⟨rfl, -⟩ := ha
      obtain ⟨⟨entries, hes⟩, hcommands⟩ := h.lists
      refine ⟨{ h with
        categories := fun cat' allowed hcat' => ?_
        lists := ⟨⟨_, hes.set cat allow⟩, hcommands⟩ }, rfl⟩
      by_cases heq : cat' = cat
      · rw [heq]
        exact hcat
      · exact h.categories cat' allowed ((Function.update_of_ne heq _ _).symm.trans hcat')
    | command allow cmd =>
      obtain ⟨rfl, -⟩ := ha
      obtain ⟨hcategories, entries, hes⟩ := h.lists
      refine ⟨{ h with
        commands := fun cmd' allowed hcmd' => ?_
        lists := ⟨hcategories, _, hes.set cmd allow⟩ }, rfl⟩
      by_cases heq : cmd' = cmd
      · rw [heq]
        exact hsound
      · exact h.commands cmd' allowed ((Function.update_of_ne heq _ _).symm.trans hcmd')
    | keyPattern pattern =>
      obtain ⟨rfl, -⟩ := ha
      have hall := forall_mem_append.mpr ⟨h.keyPatterns, forall_mem_singleton.mpr hsound⟩
      exact ⟨{ h with keyPatterns := hall }, rfl⟩
    | channel pattern =>
      obtain ⟨rfl, -⟩ := ha
      have hall := forall_mem_append.mpr ⟨h.channelPatterns, forall_mem_singleton.mpr hsound⟩
      exact ⟨{ h with channelPatterns := hall }, rfl⟩
    | nocommands =>
      obtain ⟨rfl, -⟩ := ha
      exact ⟨{ h with
        categories := by simp
        commands := by simp
        lists := ⟨⟨[], lists_none⟩, [], lists_none⟩ }, rfl⟩
    | reset =>
      obtain ⟨rfl, -⟩ := ha
      exact ⟨⟨rfl, by simp, by simp, by simp, by simp, ⟨[], lists_none⟩, [], lists_none⟩, rfl⟩
    | resetkeys =>
      obtain ⟨rfl, -⟩ := ha
      exact ⟨{ h with keyPatterns := by simp }, rfl⟩
    | resetchannels =>
      obtain ⟨rfl, -⟩ := ha
      exact ⟨{ h with channelPatterns := by simp }, rfl⟩
    | _ =>
      -- The other rules change none of these fields.
      obtain ⟨rfl, -⟩ := ha
      exact ⟨{ h with }, rfl⟩

theorem WellMade.run (h : WellMade user) (rules : List Bytes) (draws : ℕ) :
    WellMade (applyACLRules rules (user, draws)).2.1 ∧
      (applyACLRules rules (user, draws)).2.1.name = user.name := by
  induction rules generalizing user draws with
  | nil => exact ⟨h, rfl⟩
  | cons rule rules ih =>
    rw [applyACLRules]
    cases ha : applyACLRule rule (user, draws) with
    | error e => exact ⟨h, rfl⟩
    | ok state =>
      obtain ⟨user', draws'⟩ := state
      obtain ⟨h', hn⟩ := h.step ha
      obtain ⟨hrun, hrunname⟩ := ih h' draws'
      exact ⟨hrun, hrunname.trans hn⟩

theorem Reached.wellKept (h : Reached m) : WellKept m.users := by
  induction h with
  | new =>
    constructor
    · intro name user hl
      have hmem : (⟨name, user⟩ : Sigma fun _ : Bytes => ACLUser) ∈
          ACLManager.new.users.entries := AList.mem_lookup_iff.mp hl
      obtain ⟨rfl, rfl⟩ : name = defaultUsername ∧ user = defaultUser := by
        simpa [ACLManager.new] using hmem
      exact ⟨{ wellMade_fresh defaultUsername with }, rfl⟩
    · rfl
  | @setUser m args _ haccept ih =>
    rcases args with _ | ⟨word, _ | ⟨username, rules⟩⟩
    · simp [ACLManager.handleAclSetUser] at haccept
    · simp [ACLManager.handleAclSetUser] at haccept
    · show WellKept (m.applyTo username rules).2.users
      constructor
      · intro name user hl
        rw [lookup_applyTo] at hl
        by_cases hn : name = username
        · subst hn
          rw [if_pos rfl] at hl
          cases hl
          cases hold : m.users.lookup name with
          | none => exact (wellMade_fresh name).run rules m.draws
          | some old =>
            obtain ⟨hmade, rfl⟩ := ih.wellMade name old hold
            exact hmade.run rules m.draws
        · rw [if_neg hn] at hl
          exact ih.wellMade name user hl
      · rw [lookup_applyTo]
        split_ifs
        · rfl
        · exact ih.default

end Passwords

/-! ## 2.  A user printed and read again -/

/-- What a user is once it was printed and read: patterns and permissions that a rule for all
of them makes needless are gone, and so are the subcommands; a password hash takes `nopass`
back. -/
def reloaded (user : ACLUser) : ACLUser :=
  { user with
    noPass := user.noPass && user.passwordHashes.isEmpty
    categories := if user.allCommands then fun _ => none else user.categories
    commands := if user.allCommands then fun _ => none else user.commands
    subcommands := fun _ _ => none
    keyPatterns := if user.allKeys then [] else user.keyPatterns
    channelPatterns := if user.allChannels then [] else user.channelPatterns
    selectors := [] }

/-- A permission map after entries were put into it. -/
def putAll {κ : Type} [DecidableEq κ] (map : κ → Option Bool) (entries : List (κ × Bool)) :
    κ → Option Bool :=
  entries.foldl (fun map entry => Function.update map entry.1 (some entry.2)) map

theorem putAll_of_notMem [DecidableEq κ] (h : key ∉ entries.map Prod.fst) :
    putAll map entries key = map key := by
  induction entries generalizing map with
  | nil => rfl
  | cons entry entries ih =>
    rw [map_cons, mem_cons, not_or] at h
    exact (ih h.2).trans (Function.update_of_ne h.1 _ _)

theorem putAll_of_mem [DecidableEq κ] {allowed : Bool} (hnd : (entries.map Prod.fst).Nodup)
    (h : (key, allowed) ∈ entries) : putAll map entries key = some allowed := by
  induction entries generalizing map with
  | nil => simp at h
  | cons entry entries ih =>
    rw [map_cons, nodup_cons] at hnd
    rcases mem_cons.mp h with rfl | h
    · exact (putAll_of_notMem hnd.1).trans (Function.update_self _ _ _)
    · exact ih hnd.2 h

theorem Lists.putAll_eq [DecidableEq κ] (h : Lists map entries) :
    putAll (fun _ => none) entries = map := by
  funext key
  cases hkey : map key with
  | some allowed => exact putAll_of_mem h.nodup ((h.mem_iff key allowed).mpr hkey)
  | none =>
    refine putAll_of_notMem (fun hmem => ?_)
    obtain ⟨⟨_, allowed⟩, he, rfl⟩ := mem_map.mp hmem
    rw [(h.mem_iff _ allowed).mp he] at hkey
    exact Option.some_ne_none _ hkey

section Passwords

variable {u : ACLUser} [Bcrypt] {rest : List Bytes} {draws : ℕ}

theorem applyACLRule_of_parse {parsed : AclRule} (h : parseACLRule rule = .ok parsed)
    (state : ACLUser × ℕ) : applyACLRule rule state = parsed.apply state := by
  rw [applyACLRule, h]

/-- Rules that are all accepted are applied one after the other; `after` says what they make of a
user. -/
theorem applyACLRules_map {α : Type} {rule : α → Bytes} (after : ACLUser → List α → ACLUser)
    {l : List α} (hnil : ∀ user, after user [] = user)
    (hcons : ∀ user a l, after (after user [a]) l = after user (a :: l))
    (h : ∀ a ∈ l, ∀ user draws, applyACLRule (rule a) (user, draws) = .ok (after user [a], draws)) :
    applyACLRules (l.map rule ++ rest) (user, draws) = applyACLRules rest (after user l, draws) := by
  induction l generalizing user with
  | nil => rw [hnil]; rfl
  | cons a l ih =>
    rw [map_cons, cons_append, applyACLRules, h a mem_cons_self]
    exact (ih fun b hb => h b (mem_cons_of_mem a hb)).trans (by rw [hcons])

theorem apply_hashes (hashes : List Bytes) :
    applyACLRules (hashes.map (fun hash => utf8 "#" ++ hash) ++ rest) (user, draws) =
      applyACLRules rest ({ user with
        passwordHashes := user.passwordHashes ++ hashes
        noPass := user.noPass && hashes.isEmpty }, draws) := by
  apply applyACLRules_map (fun user hashes => { user with
    passwordHashes := user.passwordHashes ++ hashes, noPass := user.noPass && hashes.isEmpty })
  · simp
  · simp
  · intro hash _ user draws
    rw [applyACLRule_of_parse (parse_hash hash)]
    simp [AclRule.apply]

theorem apply_keyPatterns {patterns : List KeyPattern}
    (h : ∀ pattern ∈ patterns, (AclRule.keyPattern pattern).Sound) :
    applyACLRules (patterns.map KeyPattern.rule ++ rest) (user, draws) =
      applyACLRules rest ({ user with keyPatterns := user.keyPatterns ++ patterns }, draws) :=
  applyACLRules_map (fun user patterns =>
      { user with keyPatterns := user.keyPatterns ++ patterns }) (by simp) (by simp)
    (fun pattern hpat _ _ => applyACLRule_of_parse (parse_keyPattern (h pattern hpat)) _)

theorem apply_channels {patterns : List Bytes} (h : ∀ pattern ∈ patterns, pattern ≠ utf8 "*") :
    applyACLRules (patterns.map (fun pattern => utf8 "&" ++ pattern) ++ rest) (user, draws) =
      applyACLRules rest
        ({ user with channelPatterns := user.channelPatterns ++ patterns }, draws) :=
  applyACLRules_map (fun user patterns =>
      { user with channelPatterns := user.channelPatterns ++ patterns }) (by simp) (by simp)
    (fun pattern hpat _ _ => applyACLRule_of_parse (parse_channel (h pattern hpat)) _)

theorem apply_categories {entries : List (CommandCategory × Bool)}
    (h : ∀ entry ∈ entries, entry.1 ≠ .catAll) :
    applyACLRules (entries.map (fun entry =>
        sign entry.2 ++ utf8 "@" ++ utf8 (getCategoryName entry.1)) ++ rest) (user, draws) =
      applyACLRules rest ({ user with categories := putAll user.categories entries }, draws) := by
  refine applyACLRules_map (fun user entries =>
    { user with categories := putAll user.categories entries }) (fun _ => rfl) (fun _ _ _ => rfl)
    fun entry he user draws => ?_
  rw [applyACLRule_of_parse (parse_category (h entry he) entry.2), AclRule.apply,
    if_neg (h entry he)]
  rfl

theorem apply_commands {entries : List (CommandType × Bool)}
    (h : ∀ entry ∈ entries, ∃ name, lookupCommandName name = some entry.1) :
    applyACLRules (entries.map fun entry => sign entry.2 ++ utf8 entry.1.string)
        (user, draws) =
      (none, { user with commands := putAll user.commands entries }, draws) := by
  have hrun := @applyACLRules_map user _ [] draws _ _ (fun user entries =>
    { user with commands := putAll user.commands entries }) _ (fun _ => rfl) (fun _ _ _ => rfl)
    (fun entry he user draws => (h entry he).elim fun name hn =>
      applyACLRule_of_parse (parse_command hn entry.2) (user, draws))
  rwa [append_nil] at hrun

variable (h : WellMade user)

include h

/-- The rule or the rules for the keys, on a user without any. -/
theorem WellMade.apply_keys (hn : u.keyPatterns = []) (hall : u.allKeys = false) :
    applyACLRules ((if user.allKeys then [utf8 "~*"]
        else user.keyPatterns.map KeyPattern.rule) ++ rest) (u, draws) =
      applyACLRules rest ({ u with
        allKeys := user.allKeys
        keyPatterns := if user.allKeys then [] else user.keyPatterns }, draws) := by
  cases u
  obtain rfl := hn
  obtain rfl := hall
  cases user.allKeys with
  | true => rfl
  | false => exact apply_keyPatterns h.keyPatterns

/-- The rule or the rules for the channels, on a user without any. -/
theorem WellMade.apply_channels (hn : u.channelPatterns = []) (hall : u.allChannels = false) :
    applyACLRules ((if user.allChannels then [utf8 "&*"]
        else user.channelPatterns.map fun pattern => utf8 "&" ++ pattern) ++ rest) (u, draws) =
      applyACLRules rest ({ u with
        allChannels := user.allChannels
        channelPatterns := if user.allChannels then [] else user.channelPatterns }, draws) := by
  cases u
  obtain rfl := hn
  obtain rfl := hall
  cases user.allChannels with
  | true => rfl
  | false => exact Redis.apply_channels h.channelPatterns

variable (hcategories : Lists user.categories categories) (hcommands : Lists user.commands commands)

include hcategories hcommands

/-- The rule or the rules for the commands, on a user without any. -/
theorem WellMade.apply_permissions (hnoCategory : u.categories = fun _ => none)
    (hnoCommand : u.commands = fun _ => none) (hall : u.allCommands = false) :
    applyACLRules (if user.allCommands then [utf8 "+@all"]
        else categories.map (fun entry =>
          sign entry.2 ++ utf8 "@" ++ utf8 (getCategoryName entry.1)) ++
        commands.map fun entry => sign entry.2 ++ utf8 entry.1.string) (u, draws) =
      (none, { u with
        allCommands := user.allCommands
        categories := if user.allCommands then fun _ => none else user.categories
        commands := if user.allCommands then fun _ => none else user.commands }, draws) := by
  cases u
  obtain rfl := hnoCategory
  obtain rfl := hnoCommand
  obtain rfl := hall
  cases user.allCommands with
  | true => rfl
  | false =>
    have hcat : ∀ entry ∈ categories, entry.1 ≠ .catAll := fun entry he =>
      h.categories entry.1 entry.2 ((hcategories.mem_iff entry.1 entry.2).mp he)
    have hcmd : ∀ entry ∈ commands, ∃ name, lookupCommandName name = some entry.1 :=
      fun entry he =>
        h.commands entry.1 entry.2 ((hcommands.mem_iff entry.1 entry.2).mp he)
    refine (apply_categories hcat).trans ?_
    rw [apply_commands hcmd, hcategories.putAll_eq, hcommands.putAll_eq]
    rfl

/-- The printed rules, applied to a new user, give the user back as `reloaded` says. -/
theorem WellMade.read_printed :
    applyACLRules (formatRules user categories commands) (fresh user.name, draws) =
      (none, reloaded user, draws) := by
  have hon : ∀ rest, applyACLRules
      ((if user.enabled then [utf8 "on"] else [utf8 "off"]) ++ rest)
      (fresh user.name, draws) =
      applyACLRules rest
        ({ fresh user.name with enabled := user.enabled }, draws) := by
    intro rest
    cases user.enabled <;> rfl
  have hpass : ∀ rest, applyACLRules ((if user.noPass then [utf8 "nopass"] else []) ++ rest)
      ({ fresh user.name with enabled := user.enabled }, draws) =
      applyACLRules rest ({ fresh user.name with
        enabled := user.enabled, noPass := user.noPass }, draws) := by
    intro rest
    cases user.noPass <;> rfl
  rw [formatRules, hon, hpass, apply_hashes, h.apply_keys rfl rfl, h.apply_channels rfl rfl,
    h.apply_permissions hcategories hcommands rfl rfl rfl]
  rfl

end Passwords

/-! ## 3.  The words and lines of the file -/

/-- No name, hash or pattern that is printed contains white space, the name is not empty, and
the line does not fill the scanner's buffer. -/
structure TextSafe (user : ACLUser) : Prop where
  name_ne : user.name ≠ []
  name : ByteText.NoSpace user.name
  hashes : ∀ hash ∈ user.passwordHashes, ByteText.NoSpace hash
  keyPatterns : user.allKeys = false →
    ∀ pattern ∈ user.keyPatterns, ByteText.NoSpace pattern.pattern
  channelPatterns : user.allChannels = false →
    ∀ pattern ∈ user.channelPatterns, ByteText.NoSpace pattern
  fits : ∀ line, Prints user line → line.length < 65536

def IsWord (word : Bytes) : Prop := word ≠ [] ∧ ByteText.NoSpace word

theorem IsWord.cons {b : UInt8} {bs : Bytes} (hb : ByteText.Plain b)
    (h : ByteText.NoSpace bs) : IsWord (b :: bs) :=
  ⟨cons_ne_nil _ _, h.cons hb⟩

theorem isWord_of_visible (hne : word ≠ []) (h : word.all visible = true) : IsWord word :=
  ⟨hne, noSpace_of_plain fun b hb =>
    plain_of_visible (all_eq_true.mp h b hb)⟩

theorem isWord_of_mem {text : Bytes} (h : word ∈ [text]) (hne : text ≠ [])
    (hvisible : text.all visible = true) : IsWord word := by
  obtain rfl := mem_singleton.mp h
  exact isWord_of_visible hne hvisible

theorem isWord_keyPattern {pattern : KeyPattern} (h : ByteText.NoSpace pattern.pattern) :
    IsWord pattern.rule := by
  obtain ⟨pattern, type⟩ := pattern
  cases type with
  | readWrite => exact IsWord.cons (by decide) h
  | readOnly | writeOnly => exact IsWord.cons (by decide) ((h.cons (by decide)).cons (by decide))

theorem isWord_category (allowed : Bool) (cat : CommandCategory) :
    IsWord (sign allowed ++ utf8 "@" ++ utf8 (getCategoryName cat)) := by
  have hn : (utf8 (getCategoryName cat)).all visible = true := by
    cases cat <;> decide
  refine isWord_of_visible ?_ ?_
  · cases allowed <;> exact cons_ne_nil _ _
  · rw [all_append, hn]
    cases allowed <;> decide

theorem isWord_command {name : Bytes} {cmd : CommandType}
    (h : lookupCommandName name = some cmd) (allowed : Bool) :
    IsWord (sign allowed ++ utf8 cmd.string) := by
  have hpl : ∀ b ∈ utf8 cmd.string, ByteText.Plain b := by
    intro b hb
    obtain ⟨hlow, hhi, -⟩ := plain_string_of_lookup h b hb
    exact plain_of_visible (by simp [visible]; omega)
  cases allowed with
  | true | false => exact IsWord.cons (by decide) (noSpace_of_plain hpl)

theorem TextSafe.isWord (h : TextSafe user) (hmade : WellMade user)
    (categories : List (CommandCategory × Bool)) (hcommands : Lists user.commands commands) :
    ∀ word ∈ utf8 "user" :: user.name :: formatRules user categories commands,
      IsWord word := by
  intro word hw
  rw [mem_cons, mem_cons] at hw
  rcases hw with rfl | rfl | hw
  · exact isWord_of_visible (by decide) (by decide)
  · exact ⟨h.name_ne, h.name⟩
  simp only [formatRules, mem_append] at hw
  rcases hw with hw | hw | hw | hw | hw | hw
  · split_ifs at hw
    all_goals exact isWord_of_mem hw (by decide) (by decide)
  · split_ifs at hw
    · exact isWord_of_mem hw (by decide) (by decide)
    · simp at hw
  · obtain ⟨hash, hhash, rfl⟩ := mem_map.mp hw
    exact IsWord.cons (by decide) (h.hashes hash hhash)
  · split_ifs at hw with hall
    · exact isWord_of_mem hw (by decide) (by decide)
    · obtain ⟨pattern, hpat, rfl⟩ := mem_map.mp hw
      exact isWord_keyPattern (h.keyPatterns (Bool.not_eq_true _ ▸ hall) pattern hpat)
  · split_ifs at hw with hall
    · exact isWord_of_mem hw (by decide) (by decide)
    · obtain ⟨pattern, hpat, rfl⟩ := mem_map.mp hw
      exact IsWord.cons (by decide)
        (h.channelPatterns (Bool.not_eq_true _ ▸ hall) pattern hpat)
  · split_ifs at hw
    · exact isWord_of_mem hw (by decide) (by decide)
    · rcases mem_append.mp hw with hw | hw
      · obtain ⟨entry, -, rfl⟩ := mem_map.mp hw
        exact isWord_category entry.2 entry.1
      · obtain ⟨entry, he, rfl⟩ := mem_map.mp hw
        obtain ⟨name, hn⟩ :=
          hmade.commands entry.1 entry.2 ((hcommands.mem_iff entry.1 entry.2).mp he)
        exact isWord_command hn entry.2

theorem TextSafe.lineEnd_notMem (h : TextSafe user) (hmade : WellMade user)
    (hl : Prints user line) : 0x0a ∉ line := by
  obtain ⟨categories, commands, -, hcommands, rfl⟩ := hl
  intro hmem
  rcases mem_of_mem_intercalate hmem with hsep | ⟨word, hw, hb⟩
  · cases hsep
  · exact (h.isWord hmade categories hcommands word hw).2.notMem (by decide) hb

theorem splitOn_lines (h : ∀ line ∈ lines, 0x0a ∉ line) :
    ((lines.map fun line => line ++ [0x0a]).flatten).splitOn 0x0a = lines ++ [[]] := by
  induction lines with
  | nil => rfl
  | cons line lines ih =>
    have hl : ∀ b ∈ line, (b == 0x0a) = false := by
      intro b hb
      refine beq_eq_false_iff_ne.mpr ?_
      rintro rfl
      exact h line mem_cons_self hb
    rw [map_cons, flatten_cons, append_assoc, singleton_append,
      splitOn, splitOnP_append_cons_of_forall_mem hl _ (by decide),
      cons_append, ← ih fun other ho => h other (mem_cons_of_mem _ ho)]
    rfl

/-- The lines written are the lines read, where none has a line end in it or is too long. -/
theorem scanLines_lines (h : ∀ line ∈ lines, 0x0a ∉ line ∧ line.length < 65536) :
    scanLines ((lines.map fun line => line ++ [0x0a]).flatten) = (lines, false) := by
  have ht : (lines.takeWhile fun line => line.length < 65536) = lines :=
    takeWhile_eq_self_iff.mpr fun line hl => by simpa using (h line hl).2
  simp only [scanLines, splitOn_lines fun line hl => (h line hl).1,
    getLast?_concat, dropLast_concat, if_true, ht, lt_self_iff_false, decide_false]

theorem formatRules_of_allCommands (h : user.allCommands = true) :
    formatRules user categories commands = formatRules user [] [] := by
  simp [formatRules, h]

/-! ## 4.  Loading the file -/

theorem exists_saves (hkept : WellKept users) :
    ∃ content, Saves users content := by
  have hprints : ∀ name ∈ users.keys.insertionSort (· ≤ ·),
      ∃ line user, users.lookup name = some user ∧ Prints user line := by
    intro name hn
    have hmem : name ∈ users := (mem_insertionSort _).mp hn
    obtain ⟨user, hu⟩ := Option.isSome_iff_exists.mp (AList.lookup_isSome.mpr hmem)
    obtain ⟨⟨categories, hcategories⟩, commands, hcommands⟩ :=
      (hkept.wellMade name user hu).1.lists
    exact ⟨_, user, hu, categories, commands, hcategories, hcommands, rfl⟩
  obtain ⟨lines, hlines⟩ : ∃ lines, List.Forall₂
      (fun name line => ∃ user, users.lookup name = some user ∧ Prints user line)
      (users.keys.insertionSort (· ≤ ·)) lines := by
    generalize users.keys.insertionSort (· ≤ ·) = names at hprints
    induction names with
    | nil => exact ⟨[], .nil⟩
    | cons name names ih =>
      obtain ⟨line, hl⟩ := hprints name mem_cons_self
      obtain ⟨lines, hlines⟩ := ih fun other ho => hprints other (mem_cons_of_mem _ ho)
      exact ⟨line :: lines, .cons hl hlines⟩
  exact ⟨_, _, lines, perm_insertionSort _ _, pairwise_insertionSort _ _, hlines, rfl⟩

section Passwords

variable [Bcrypt]

/-- A line printed for a user makes that user, where the table has none of its name. -/
theorem TextSafe.loadLine (h : TextSafe user) (hmade : WellMade user) (hl : Prints user line)
    (hn : m.users.lookup user.name = none) :
    m.loadLine line = (none, { m with users := m.users.insert user.name (reloaded user) }) := by
  obtain ⟨categories, commands, hcategories, hcommands, rfl⟩ := hl
  have hfs := fields_intercalate (h.isWord hmade categories hcommands)
  have ha : m.applyTo user.name (formatRules user categories commands) =
      (none, { m with users := m.users.insert user.name (reloaded user) }) := by
    simp [ACLManager.applyTo, hn, hmade.read_printed hcategories hcommands]
  rw [ACLManager.loadLine, hfs]
  exact ha

variable (hkept : WellKept users)
    (hsafe : ∀ name user, users.lookup name = some user → TextSafe user)

include hkept hsafe

/-- The users of a table printed line by line, each loaded into a table without it. -/
theorem loadLines_printed {names : List Bytes} (hlines : List.Forall₂
      (fun name line => ∃ user, users.lookup name = some user ∧ Prints user line) names lines)
    (hnd : names.Nodup) (m : ACLManager) (hn : ∀ name ∈ names, m.users.lookup name = none)
    (lineNum : ℕ) :
    (loadLines lineNum lines m).1 = none ∧
      ∀ name, (loadLines lineNum lines m).2.users.lookup name =
        if name ∈ names then (users.lookup name).map reloaded else m.users.lookup name := by
  induction hlines generalizing m lineNum with
  | nil => exact ⟨rfl, by simp [loadLines]⟩
  | @cons name line names lines hln _ ih =>
    obtain ⟨user, hu, hprints⟩ := hln
    obtain ⟨hmade, rfl⟩ := hkept.wellMade name user hu
    rw [nodup_cons] at hnd
    have hload := (hsafe _ user hu).loadLine hmade hprints
      (hn user.name mem_cons_self)
    have hr : ∀ name ∈ names,
        (m.users.insert user.name (reloaded user)).lookup name = none := by
      intro name hnm
      have hne : name ≠ user.name := fun heq => hnd.1 (heq ▸ hnm)
      rw [AList.lookup_insert_ne hne]
      exact hn name (mem_cons_of_mem _ hnm)
    obtain ⟨hok, hl⟩ :=
      ih hnd.2 { m with users := m.users.insert user.name (reloaded user) } hr (lineNum + 1)
    rw [loadLines, hload]
    refine ⟨hok, fun name => (hl name).trans ?_⟩
    by_cases hnm : name = user.name
    · subst hnm
      rw [if_neg hnd.1, if_pos mem_cons_self, hu]
      exact AList.lookup_insert _
    · simp [hnm]

/-- Loading a saved table gives every user back as `reloaded` says. -/
theorem load_saved {content : Bytes} (hsaves : Saves users content) (loader : ACLManager)
    (path : Bytes) :
    (loader.loadFromFile path (some ⟨content, false⟩)).1 = none ∧
      ∀ name, (loader.loadFromFile path (some ⟨content, false⟩)).2.users.lookup name =
        (users.lookup name).map reloaded := by
  obtain ⟨names, lines, hpm, -, hlines, rfl⟩ := hsaves
  have hsc : scanLines ((lines.map fun line => line ++ [0x0a]).flatten) = (lines, false) := by
    refine scanLines_lines fun line hln => ?_
    obtain ⟨i, hi, rfl⟩ := mem_iff_getElem.mp hln
    obtain ⟨user, hu, hprints⟩ := hlines.get (hlines.length_eq ▸ hi) hi
    have hmade := (hkept.wellMade _ user hu).1
    exact ⟨(hsafe _ user hu).lineEnd_notMem hmade hprints,
      (hsafe _ user hu).fits _ hprints⟩
  obtain ⟨hok, hl⟩ := loadLines_printed hkept hsafe hlines
    (hpm.nodup_iff.mpr users.nodupKeys) { loader with users := ∅ }
    (fun name _ => AList.lookup_empty name) 0
  have hall : ∀ name,
      (loadLines 0 lines { loader with users := ∅ }).2.users.lookup name =
        (users.lookup name).map reloaded := by
    intro name
    rw [hl name]
    split_ifs with hn
    · rfl
    · have hab : users.lookup name = none := by
        rw [AList.lookup_eq_none]
        exact fun hmem => hn (hpm.mem_iff.mpr (AList.mem_keys.mp hmem))
      rw [hab]
      exact AList.lookup_empty name
  rw [ACLManager.loadFromFile, hsc]
  cases hload : loadLines 0 lines { loader with users := ∅ } with
  | mk err m' =>
    rw [hload] at hok hall
    obtain rfl : err = none := hok
    have hdefault : (m'.users.lookup defaultUsername).isSome = true := by
      rw [hall, Option.isSome_map]
      exact hkept.default
    simp only [hload, hdefault, Bool.or_self, Bool.false_eq_true, if_false, true_and]
    exact hall

end Passwords

/-! ## 5.  The decisions -/

theorem checkCommand_reloaded (user : ACLUser) (cmd : CommandType) :
    checkCommand (some (reloaded user)) cmd = checkCommand (some user) cmd := by
  cases hall : user.allCommands with
  | true | false => simp [checkCommand, reloaded, hall]

theorem checkKey_reloaded (h : WellMade user) (key : Bytes) (isWrite : Bool) :
    checkKey (some (reloaded user)) key isWrite = checkKey (some user) key isWrite := by
  cases hall : user.allKeys with
  | true => simp [checkKey, reloaded, hall]
  | false => simp [checkKey, reloaded, hall, h.selectors]

section Passwords

variable [Bcrypt]

/-- `Authenticate`, `CheckCommand` and `CheckKey` answer alike over both tables.  Of the user
that `Authenticate` returns its name counts: the checks are made by name. -/
structure SameDecisions (users users' : Users) : Prop where
  authenticate : ∀ username password,
    (authenticate users username password).map ACLUser.name =
      (authenticate users' username password).map ACLUser.name
  checkCommand : ∀ username cmd,
    checkCommand (users.lookup username) cmd = checkCommand (users'.lookup username) cmd
  checkKey : ∀ username key isWrite,
    checkKey (users.lookup username) key isWrite = checkKey (users'.lookup username) key isWrite

/-- A user whose logins do not rest on `nopass` beside password hashes: it is disabled, or has
no `nopass`, or has no hashes, or its hashes accept every password. -/
def KeepsLogin (user : ACLUser) : Prop :=
  user.enabled = true → user.noPass = true → user.passwordHashes = [] ∨
    ∀ password, ∃ hash ∈ user.passwordHashes, Bcrypt.compare hash password = true

theorem map_authenticate (h : users.lookup username = some user) {password : Bytes} :
    (authenticate users username password).map ACLUser.name =
      if !user.enabled then .error .userDisabled
      else if user.noPass || user.passwordHashes.any fun hash => Bcrypt.compare hash password then
        .ok user.name
      else .error .wrongPassword := by
  rw [authenticate, h]
  cases henabled : user.enabled with
  | false => simp [henabled, Except.map]
  | true =>
    cases hnoPass : user.noPass with
    | true => simp [henabled, hnoPass, Except.map]
    | false =>
      cases hany : user.passwordHashes.any fun hash => Bcrypt.compare hash password with
      | true | false => simp [henabled, hnoPass, hany, Except.map]

theorem authenticate_reloaded_iff (h : users.lookup username = some user)
    (h' : users'.lookup username = some (reloaded user)) :
    (∀ password, (authenticate users username password).map ACLUser.name =
      (authenticate users' username password).map ACLUser.name) ↔ KeepsLogin user := by
  simp only [map_authenticate h, map_authenticate h']
  cases henabled : user.enabled with
  | false => simp [reloaded, henabled, KeepsLogin]
  | true =>
    cases hnoPass : user.noPass with
    | false => simp [reloaded, henabled, hnoPass, KeepsLogin]
    | true =>
      by_cases hhashes : user.passwordHashes = []
      all_goals simp [reloaded, henabled, hnoPass, KeepsLogin, hhashes]

theorem sameDecisions_reloaded_iff (hkept : WellKept users)
    (h : ∀ name, users'.lookup name = (users.lookup name).map reloaded) :
    SameDecisions users users' ↔
      ∀ name user, users.lookup name = some user → KeepsLogin user := by
  constructor
  · intro hsame name user hu
    have huser' := h name
    rw [hu] at huser'
    exact (authenticate_reloaded_iff hu huser').mp (hsame.authenticate name)
  · intro hlogin
    constructor
    · intro username password
      have huser' := h username
      cases hu : users.lookup username with
      | none =>
        simp [authenticate, hu, huser']
      | some user =>
        rw [hu] at huser'
        exact (authenticate_reloaded_iff hu huser').mpr (hlogin username user hu) password
    · intro username cmd
      rw [h username]
      cases users.lookup username with
      | none => rfl
      | some user => exact (checkCommand_reloaded user cmd).symm
    · intro username key isWrite
      rw [h username]
      cases hu : users.lookup username with
      | none => rfl
      | some user =>
        exact (checkKey_reloaded (hkept.wellMade username user hu).1 key isWrite).symm

/-- The users that accepted `ACL SETUSER` requests made, where the file can hold what they are:
they can be saved, and every file they may be saved to is loaded and leads to the same
decisions exactly where no login rests on `nopass` beside password hashes. -/
theorem saved_users_decide_alike_iff {m : ACLManager} (hreached : Reached m)
    (hsafe : ∀ name user, m.users.lookup name = some user → TextSafe user)
    (loader : ACLManager) (path : Bytes) :
    (∃ content, Saves m.users content) ∧
      ((∀ content, Saves m.users content →
        (loader.loadFromFile path (some ⟨content, false⟩)).1 = none ∧
          SameDecisions m.users
            (loader.loadFromFile path (some ⟨content, false⟩)).2.users) ↔
        ∀ name user, m.users.lookup name = some user → KeepsLogin user) := by
  have hkept := hreached.wellKept
  obtain ⟨content, hsaves⟩ := exists_saves hkept
  refine ⟨⟨content, hsaves⟩, ?_⟩
  constructor
  · intro hsame
    obtain ⟨-, hl⟩ := load_saved hkept hsafe hsaves loader path
    exact (sameDecisions_reloaded_iff hkept hl).mp (hsame content hsaves).2
  · intro hlogin content hsaves
    obtain ⟨hok, hl⟩ := load_saved hkept hsafe hsaves loader path
    exact ⟨hok, (sameDecisions_reloaded_iff hkept hl).mpr hlogin⟩

end Passwords

section Samples

local instance fileBcrypt : Bcrypt := Bcrypt.inert

/-- A new table after one request. -/
def sampleManager (request : List String) : ACLManager :=
  (ACLManager.new.handleAclSetUser (request.map utf8)).2

/-- `ACL SETUSER alice on #h ~app:* allcommands`. -/
def appManager : ACLManager :=
  sampleManager ["SETUSER", "alice", "on", "#h", "~app:*", "allcommands"]

theorem saved_alice_decides_alike :
    (∃ content, Saves appManager.users content) ∧
      ∀ content, Saves appManager.users content →
        (ACLManager.new.loadFromFile (utf8 "acl.conf") (some ⟨content, false⟩)).1 = none ∧
          SameDecisions appManager.users
            (ACLManager.new.loadFromFile (utf8 "acl.conf")
              (some ⟨content, false⟩)).2.users := by
  have husers : ∀ name user, appManager.users.lookup name = some user →
      user = { fresh (utf8 "alice") with
        enabled := true, passwordHashes := [utf8 "h"], allCommands := true,
        keyPatterns := [⟨utf8 "app:*", .readWrite⟩] } ∨ user = defaultUser := by
    intro name user hl
    have hmem := AList.mem_lookup_iff.mp hl
    rcases mem_cons.mp hmem with heq | hmem
    · cases heq
      exact .inl rfl
    · cases mem_singleton.mp hmem
      exact .inr rfl
  have hw : ∀ word : String, utf8 word ≠ [] → (utf8 word).all visible = true →
      ByteText.NoSpace (utf8 word) := fun word hne h => (isWord_of_visible hne h).2
  have hsafe : ∀ name user, appManager.users.lookup name = some user → TextSafe user := by
    intro name user hl
    rcases husers name user hl with rfl | rfl
    · refine ⟨by decide, hw "alice" (by decide) (by decide), ?_, ?_,
        by simp [fresh], ?_⟩
      · simpa using hw "h" (by decide) (by decide)
      · simpa using fun _ => hw "app:*" (by decide) (by decide)
      · rintro line ⟨categories, commands, -, -, rfl⟩
        rw [formatRules_of_allCommands rfl]
        decide
    · refine ⟨by decide, hw "default" (by decide) (by decide),
        by simp [defaultUser, fresh], by simp [defaultUser], by simp [defaultUser], ?_⟩
      rintro line ⟨categories, commands, -, -, rfl⟩
      rw [formatRules_of_allCommands rfl]
      decide
  obtain ⟨hsaves, hiff⟩ := saved_users_decide_alike_iff (.setUser _ .new rfl) hsafe
    ACLManager.new (utf8 "acl.conf")
  refine ⟨hsaves, hiff.mpr fun name user hl => ?_⟩
  rcases husers name user hl with rfl | rfl
  · exact fun _ hnoPass => absurd hnoPass (by decide)
  · exact fun _ _ => .inl rfl

/-- `ACL SETUSER alice on #h nopass`, saved and loaded: `alice` no longer logs in without the
password.  `ACL SETUSER bob on nopass "~a b"`, saved: the file is refused. -/
theorem saved_users_change :
    (Reached (sampleManager ["SETUSER", "alice", "on", "#h", "nopass"]) ∧
      Saves (sampleManager ["SETUSER", "alice", "on", "#h", "nopass"]).users
        (utf8 "user alice on nopass #h\nuser default on nopass ~* &* +@all\n") ∧
      (ACLManager.new.loadFromFile (utf8 "acl.conf") (some
        ⟨utf8 "user alice on nopass #h\nuser default on nopass ~* &* +@all\n", false⟩)).1 =
        none ∧
      ¬ SameDecisions (sampleManager ["SETUSER", "alice", "on", "#h", "nopass"]).users
        (ACLManager.new.loadFromFile (utf8 "acl.conf") (some
          ⟨utf8 "user alice on nopass #h\nuser default on nopass ~* &* +@all\n",
            false⟩)).2.users) ∧
      Reached (sampleManager ["SETUSER", "bob", "on", "nopass", "~a b"]) ∧
      Saves (sampleManager ["SETUSER", "bob", "on", "nopass", "~a b"]).users
        (utf8 "user bob on nopass ~a b\nuser default on nopass ~* &* +@all\n") ∧
      (ACLManager.new.loadFromFile (utf8 "acl.conf") (some
        ⟨utf8 "user bob on nopass ~a b\nuser default on nopass ~* &* +@all\n", false⟩)).1 =
        some (.line 1 (.unknownRule (utf8 "b"))) := by
  refine ⟨⟨.setUser _ .new rfl, ?_, by decide, ?_⟩, .setUser _ .new rfl, ?_,
    by decide⟩
  · refine ⟨[utf8 "alice", defaultUsername],
      [utf8 "user alice on nopass #h", utf8 "user default on nopass ~* &* +@all"],
      by decide, by decide, .cons ?_ (.cons ?_ .nil), by decide⟩
    all_goals exact ⟨_, rfl, [], [], lists_none, lists_none, by decide⟩
  · intro hsame
    have hlogin := hsame.authenticate (utf8 "alice") (utf8 "x")
    revert hlogin
    decide
  · refine ⟨[utf8 "bob", defaultUsername],
      [utf8 "user bob on nopass ~a b", utf8 "user default on nopass ~* &* +@all"],
      by decide, by decide, .cons ?_ (.cons ?_ .nil), by decide⟩
    all_goals exact ⟨_, rfl, [], [], lists_none, lists_none, by decide⟩

end Samples

end Swytch.Redis
