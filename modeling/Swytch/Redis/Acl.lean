import Swytch.Redis.Commands

/-!
# Access control

Users, their rules and the checks made against them.  A rule is read from its text
(`parseACLRule`) and then changes the user; the text is compared in lower case, but what
follows a prefix is taken from the text as it was given.  Users are changed in place, rule by
rule, so the rules before one that is refused have taken effect.

Maps from commands and categories to permissions are functions into `Option Bool`; a file
lists their entries in any order (`Lists`).  Passwords are hashed by bcrypt with a fresh salt,
which is a parameter: the `n`-th hash made is `generate n`.
-/

namespace Swytch.Redis

open Sql (Bytes utf8)

/-! ## 1.  Users and their rules -/

/-- bcrypt: `generate n` makes the `n`-th hash, with the salt drawn for it; `compare` is
`CompareHashAndPassword` without an error. -/
class Bcrypt where
  generate : ℕ → Bytes → Bytes
  compare : Bytes → Bytes → Bool

/-- A bcrypt whose hash is the password, for concrete runs. -/
@[reducible] def Bcrypt.inert : Bcrypt where
  generate _ password := password
  compare hash password := hash = password

/-- `HashPassword`: `GenerateFromPassword` refuses a password of more than 72 bytes. -/
def hashPassword [Bcrypt] (draws : ℕ) (password : Bytes) : Option Bytes :=
  if password.length ≤ 72 then some (Bcrypt.generate draws password) else none

inductive KeyPatternType where
  | readWrite
  | readOnly
  | writeOnly
  deriving DecidableEq

structure KeyPattern where
  pattern : Bytes
  type : KeyPatternType
  deriving DecidableEq

structure ACLSelector where
  commands : CommandType → Option Bool
  categories : CommandCategory → Option Bool
  allCommands : Bool
  keyPatterns : List KeyPattern
  allKeys : Bool

@[ext] structure ACLUser where
  name : Bytes
  enabled : Bool
  passwordHashes : List Bytes
  noPass : Bool
  allCommands : Bool
  categories : CommandCategory → Option Bool
  commands : CommandType → Option Bool
  subcommands : CommandType → Bytes → Option Bool
  allKeys : Bool
  keyPatterns : List KeyPattern
  allChannels : Bool
  channelPatterns : List Bytes
  selectors : List ACLSelector

/-- A user just made: disabled and without permissions. -/
def ACLUser.fresh (name : Bytes) : ACLUser where
  name := name
  enabled := false
  passwordHashes := []
  noPass := false
  allCommands := false
  categories := fun _ => none
  commands := fun _ => none
  subcommands := fun _ _ => none
  allKeys := false
  keyPatterns := []
  allChannels := false
  channelPatterns := []
  selectors := []

/-- Why a rule is refused. -/
inductive AclError where
  /-- `failed to hash password`. -/
  | hashFailed
  /-- `unknown category: %s`. -/
  | unknownCategory (name : Bytes)
  /-- `unknown command: %s`. -/
  | unknownCommand (name : Bytes)
  /-- `unknown ACL rule: %s`. -/
  | unknownRule (rule : Bytes)
  /-- `invalid ACL line: must start with 'user'`. -/
  | invalidLine
  deriving DecidableEq

inductive AclRule where
  | on
  | off
  | nopass
  | resetpass
  | allkeys
  | resetkeys
  | allchannels
  | resetchannels
  | allcommands
  | nocommands
  | reset
  | password (password : Bytes)
  | hash (hash : Bytes)
  | removePassword (password : Bytes)
  | removeHash (hash : Bytes)
  | category (allow : Bool) (cat : CommandCategory)
  | command (allow : Bool) (cmd : CommandType)
  | subcommand (allow : Bool) (cmd : CommandType) (sub : Bytes)
  | keyPattern (pattern : KeyPattern)
  | channel (pattern : Bytes)
  deriving DecidableEq

/-- The `+@` and `-@` rules. -/
def parseCategoryRule (allow : Bool) (catName : Bytes) : Except AclError AclRule :=
  match getCategoryByName catName with
  | none => .error (.unknownCategory catName)
  | some cat => .ok (.category allow cat)

/-- The `+` and `-` rules: a command, or a subcommand after `|`. -/
def parseCommandRule (allow : Bool) (cmdStr : Bytes) : Except AclError AclRule :=
  let idx := cmdStr.idxOf 0x7c
  if 0 < idx ∧ idx < cmdStr.length then
    let cmdName := cmdStr.take idx
    let subName := cmdStr.drop (idx + 1)
    match lookupCommandName (ByteText.toUpper cmdName) with
    | none => .error (.unknownCommand cmdName)
    | some cmd => .ok (.subcommand allow cmd (ByteText.toLower subName))
  else
    match lookupCommandName (ByteText.toUpper cmdStr) with
    | none => .error (.unknownCommand cmdStr)
    | some cmd => .ok (.command allow cmd)

/-- The rules that are one word, in lower case. -/
def keywords : List (String × AclRule) :=
  [("on", .on), ("off", .off), ("nopass", .nopass), ("resetpass", .resetpass),
    ("allkeys", .allkeys), ("~*", .allkeys), ("resetkeys", .resetkeys),
    ("allchannels", .allchannels), ("&*", .allchannels), ("resetchannels", .resetchannels),
    ("allcommands", .allcommands), ("+@all", .allcommands), ("nocommands", .nocommands),
    ("-@all", .nocommands), ("reset", .reset)]

/-- The `&` rule. -/
def parseChannelRule (pattern : Bytes) : Except AclError AclRule :=
  if pattern = utf8 "*" then .ok .allchannels else .ok (.channel pattern)

/-- The rules that are a prefix, in lower case, and its argument; the first prefix that fits
is taken. -/
def prefixRules : List (String × (Bytes → Except AclError AclRule)) :=
  [(">", fun pw => .ok (.password pw)), ("#", fun hash => .ok (.hash hash)),
    ("<", fun pw => .ok (.removePassword pw)), ("!", fun hash => .ok (.removeHash hash)),
    ("+@", parseCategoryRule true), ("-@", parseCategoryRule false),
    ("+", parseCommandRule true), ("-", parseCommandRule false),
    ("~", fun pattern => .ok (.keyPattern ⟨pattern, .readWrite⟩)),
    ("%r~", fun pattern => .ok (.keyPattern ⟨pattern, .readOnly⟩)),
    ("%w~", fun pattern => .ok (.keyPattern ⟨pattern, .writeOnly⟩)), ("&", parseChannelRule)]

/-- The `switch` of `applyACLRule`: what a text says, or why it is refused.  The argument of
a prefix is cut from the text as it was given. -/
def parseACLRule (rule : Bytes) : Except AclError AclRule :=
  let lower := ByteText.toLower rule
  match keywords.find? fun entry => utf8 entry.1 = lower with
  | some entry => .ok entry.2
  | none =>
    match prefixRules.find? fun entry => (utf8 entry.1).isPrefixOf lower with
    | some entry => entry.2 (rule.drop (utf8 entry.1).length)
    | none => .error (.unknownRule rule)

section Passwords

variable [Bcrypt]

/-- The assignments of `applyACLRule`.  `draws` counts the salts drawn. -/
def AclRule.apply : AclRule → ACLUser × ℕ → Except AclError (ACLUser × ℕ)
  | on, (user, draws) => .ok ({ user with enabled := true }, draws)
  | off, (user, draws) => .ok ({ user with enabled := false }, draws)
  | nopass, (user, draws) => .ok ({ user with noPass := true }, draws)
  | resetpass, (user, draws) => .ok ({ user with passwordHashes := [], noPass := false }, draws)
  | allkeys, (user, draws) => .ok ({ user with allKeys := true }, draws)
  | resetkeys, (user, draws) => .ok ({ user with allKeys := false, keyPatterns := [] }, draws)
  | allchannels, (user, draws) => .ok ({ user with allChannels := true }, draws)
  | resetchannels, (user, draws) =>
    .ok ({ user with allChannels := false, channelPatterns := [] }, draws)
  | allcommands, (user, draws) => .ok ({ user with allCommands := true }, draws)
  | nocommands, (user, draws) =>
    .ok ({ user with
      allCommands := false, categories := fun _ => none, commands := fun _ => none }, draws)
  | reset, (user, draws) =>
    -- The subcommands stay.
    .ok ({ user with
      enabled := false, noPass := false, passwordHashes := [], allCommands := false,
      allKeys := false, allChannels := false, categories := fun _ => none,
      commands := fun _ => none, keyPatterns := [], channelPatterns := [], selectors := [] },
      draws)
  | password pw, (user, draws) =>
    match hashPassword draws pw with
    | none => .error .hashFailed
    | some hashed =>
      .ok ({ user with
        passwordHashes := user.passwordHashes ++ [hashed], noPass := false }, draws + 1)
  | hash h, (user, draws) =>
    .ok ({ user with passwordHashes := user.passwordHashes ++ [h], noPass := false }, draws)
  | removePassword pw, (user, draws) =>
    .ok ({ user with
      passwordHashes := user.passwordHashes.filter fun h => !Bcrypt.compare h pw }, draws)
  | removeHash h, (user, draws) =>
    .ok ({ user with passwordHashes := user.passwordHashes.filter fun h' => h' ≠ h }, draws)
  | category allow cat, (user, draws) =>
    if cat = .catAll then .ok ({ user with allCommands := allow }, draws)
    else .ok ({ user with
      categories := Function.update user.categories cat (some allow) }, draws)
  | command allow cmd, (user, draws) =>
    .ok ({ user with commands := Function.update user.commands cmd (some allow) }, draws)
  | subcommand allow cmd sub, (user, draws) =>
    .ok ({ user with
      subcommands := Function.update user.subcommands cmd
        (Function.update (user.subcommands cmd) sub (some allow)) }, draws)
  | keyPattern pattern, (user, draws) =>
    .ok ({ user with keyPatterns := user.keyPatterns ++ [pattern] }, draws)
  | channel pattern, (user, draws) =>
    .ok ({ user with channelPatterns := user.channelPatterns ++ [pattern] }, draws)

def applyACLRule (rule : Bytes) (state : ACLUser × ℕ) : Except AclError (ACLUser × ℕ) :=
  match parseACLRule rule with
  | .error e => .error e
  | .ok parsed => parsed.apply state

/-- `applyACLRules`: the rules before one that is refused have changed the user. -/
def applyACLRules : List Bytes → ACLUser × ℕ → Option AclError × (ACLUser × ℕ)
  | [], state => (none, state)
  | rule :: rules, state =>
    match applyACLRule rule state with
    | .error e => (some e, state)
    | .ok state' => applyACLRules rules state'

end Passwords

/-! ## 2.  The checks -/

/-- Why a check fails. -/
inductive Denied where
  /-- `ErrUserNotFound`. -/
  | userNotFound
  /-- `ErrUserDisabled`. -/
  | userDisabled
  /-- `ErrWrongPassword`. -/
  | wrongPassword
  /-- `ErrNoPermission`. -/
  | noPermission
  /-- `ErrNoKeyPermission`. -/
  | noKeyPermission
  deriving DecidableEq

/-- `CheckCommand`; `none` for a nil user. -/
def checkCommand (user : Option ACLUser) (cmd : CommandType) : Except Denied Unit :=
  match user with
  | none => .error .noPermission
  | some user =>
    if !user.enabled then .error .userDisabled
    else if user.allCommands then .ok ()
    else
      match user.commands cmd with
      | some allowed => if allowed then .ok () else .error .noPermission
      | none =>
        -- Both loops over the categories look for one that is allowed.
        if (getCommandCategories cmd).any fun cat => user.categories cat = some true then
          .ok ()
        else if (getCommandCategories cmd).any fun cat =>
            (user.categories cat).getD false then .ok ()
        else .error .noPermission

mutual

def aclMatchGlob : Bytes → Bytes → Bool
  | [], str => str.isEmpty
  | x :: pattern, [] => (x :: pattern).all (· = 0x2a)
  | x :: pattern, c :: str =>
    if x = 0x2a then (c :: str).tails.any fun rest => aclMatchGlob pattern rest
    else if x = 0x3f then aclMatchGlob pattern str
    else if x = 0x5b then
      match pattern with
      | [] => aclMatchClass false c str false []
      | y :: rest =>
        if y = 0x5e then aclMatchClass true c str false rest
        else aclMatchClass false c str false (y :: rest)
    else x = c && aclMatchGlob pattern str

/-- The loop over a character class and what follows it. -/
def aclMatchClass (negated : Bool) (c : UInt8) (str : Bytes) (matched : Bool) : Bytes → Bool
  | [] => matched != negated && str.isEmpty
  | x :: pattern =>
    if x = 0x5d then matched != negated && aclMatchGlob pattern str
    else
      match pattern with
      | y :: z :: rest =>
        if y = 0x2d then
          aclMatchClass negated c str (matched || (x ≤ c && c ≤ z)) rest
        else aclMatchClass negated c str (matched || x = c) (y :: z :: rest)
      | rest => aclMatchClass negated c str (matched || x = c) rest

end

/-- A pattern lets a read or a write of the key through. -/
def KeyPattern.permits (pattern : KeyPattern) (key : Bytes) (isWrite : Bool) : Bool :=
  aclMatchGlob pattern.pattern key &&
    match pattern.type with
    | .readWrite => true
    | .readOnly => !isWrite
    | .writeOnly => isWrite

/-- `CheckKey`; `none` for a nil user. -/
def checkKey (user : Option ACLUser) (key : Bytes) (isWrite : Bool) : Except Denied Unit :=
  match user with
  | none => .error .noKeyPermission
  | some user =>
    if user.allKeys then .ok ()
    else if user.keyPatterns.any fun pattern => pattern.permits key isWrite then .ok ()
    else if user.selectors.any fun selector =>
        selector.allKeys || selector.keyPatterns.any fun pattern =>
          pattern.permits key isWrite then .ok ()
    else .error .noKeyPermission

/-! ## 3.  The table of users, `ACL SETUSER` and the file -/

abbrev Users := AList fun _ : Bytes => ACLUser

def defaultUsername : Bytes := utf8 "default"

/-- The default user: no password and all permissions. -/
def defaultUser : ACLUser :=
  { ACLUser.fresh defaultUsername with
    enabled := true, noPass := true, allCommands := true, allKeys := true, allChannels := true }

/-- `ACLManager`, with the number of salts drawn. -/
structure ACLManager where
  users : Users
  aclFile : Bytes
  draws : ℕ

/-- `NewACLManager`. -/
def ACLManager.new : ACLManager := ⟨AList.singleton defaultUsername defaultUser, [], 0⟩

/-- What `bufio.Scanner` reads of a file: its lines without their ends, up to a line that
fills the buffer.  A carriage return before the line end is left: it is white space to all
that follows.  The flag is the scanner's error. -/
def scanLines (content : Bytes) : List Bytes × Bool :=
  let pieces := content.splitOn 0x0a
  -- The text after the last line end is a line when it is not empty.
  let lines := if pieces.getLast? = some [] then pieces.dropLast else pieces
  let read := lines.takeWhile fun line => line.length < 65536
  (read, decide (read.length < lines.length))

section Passwords

variable [Bcrypt]

def authenticate (users : Users) (username password : Bytes) : Except Denied ACLUser :=
  match users.lookup username with
  | none => .error .userNotFound
  | some user =>
    if !user.enabled then .error .userDisabled
    else if user.noPass then .ok user
    else if user.passwordHashes.any fun hash => Bcrypt.compare hash password then .ok user
    else .error .wrongPassword

/-- Applies rules to the user of a name, made if it is missing, in place. -/
def ACLManager.applyTo (m : ACLManager) (username : Bytes) (rules : List Bytes) :
    Option AclError × ACLManager :=
  let user := (m.users.lookup username).getD (ACLUser.fresh username)
  let (err, user', draws) := applyACLRules rules (user, m.draws)
  (err, { m with users := m.users.insert username user', draws := draws })

/-- Why `ACL SETUSER` replies with an error. -/
inductive SetUserError where
  /-- `ERR wrong number of arguments for 'acl|setuser' command`. -/
  | wrongNumberOfArguments
  /-- `ERR %v` of a refused rule. -/
  | rule (err : AclError)
  deriving DecidableEq

/-- `handleAclSetUser`; the arguments begin with the word `SETUSER`. -/
def ACLManager.handleAclSetUser (m : ACLManager) (args : List Bytes) :
    Option SetUserError × ACLManager :=
  match args with
  | _ :: username :: rules =>
    let (err, m') := m.applyTo username rules
    (err.map .rule, m')
  | _ => (some .wrongNumberOfArguments, m)

/-- `parseACLLine`, from the fields of the line. -/
def ACLManager.parseACLLine (m : ACLManager) (fields : List Bytes) :
    Option AclError × ACLManager :=
  match fields with
  | word :: username :: rules =>
    if ByteText.toLower word = utf8 "user" then m.applyTo username rules
    else (some .invalidLine, m)
  | _ => (some .invalidLine, m)

/-- One line of the file.  Trimming it only tells whether it is blank or a comment: the
fields are those of the untrimmed line. -/
def ACLManager.loadLine (m : ACLManager) (line : Bytes) : Option AclError × ACLManager :=
  match ByteText.fields line with
  | [] => (none, m)
  | field :: fields =>
    if field.head? = some 0x23 then (none, m) else m.parseACLLine (field :: fields)

/-- Why a file is not loaded. -/
inductive LoadError where
  /-- `os.Open` failed. -/
  | notOpened
  /-- `line %d: %w`. -/
  | line (lineNum : ℕ) (err : AclError)
  /-- `scanner.Err`: a line too long, or a failed read. -/
  | scan
  deriving DecidableEq

/-- The loop over the lines; the number is that of the line before. -/
def ACLManager.loadLines : ℕ → List Bytes → ACLManager → Option LoadError × ACLManager
  | _, [], m => (none, m)
  | lineNum, line :: lines, m =>
    match m.loadLine line with
    | (some e, m') => (some (.line (lineNum + 1) e), m')
    | (none, m') => loadLines (lineNum + 1) lines m'

/-- A file: what can be read of it, and whether reading it fails at the end. -/
structure AclFile where
  content : Bytes
  readFails : Bool

/-- `LoadFromFile`; `none` for a file that cannot be opened. -/
def ACLManager.loadFromFile (m : ACLManager) (path : Bytes) (file : Option AclFile) :
    Option LoadError × ACLManager :=
  match file with
  | none => (some .notOpened, m)
  | some file =>
    let (lines, tooLong) := scanLines file.content
    match loadLines 0 lines { m with users := ∅ } with
    | (some e, m') => (some e, m')
    | (none, m') =>
      let users :=
        if (m'.users.lookup defaultUsername).isSome then m'.users
        else m'.users.insert defaultUsername defaultUser
      (if tooLong || file.readFails then some .scan else none,
        { m' with users := users, aclFile := path })

end Passwords

/-- A permission map and its entries in some order, as `range` gives them. -/
structure Lists {κ : Type} (map : κ → Option Bool) (entries : List (κ × Bool)) : Prop where
  nodup : (entries.map Prod.fst).Nodup
  mem_iff : ∀ key allowed, (key, allowed) ∈ entries ↔ map key = some allowed

/-- `+` or `-`. -/
def sign (allowed : Bool) : Bytes := if allowed then utf8 "+" else utf8 "-"

def KeyPattern.rule (pattern : KeyPattern) : Bytes :=
  (match pattern.type with
    | .readWrite => utf8 "~"
    | .readOnly => utf8 "%R~"
    | .writeOnly => utf8 "%W~") ++ pattern.pattern

/-- The rules `formatUserRule` prints after the name, for an order of the two maps. -/
def formatRules (user : ACLUser) (categories : List (CommandCategory × Bool))
    (commands : List (CommandType × Bool)) : List Bytes :=
  (if user.enabled then [utf8 "on"] else [utf8 "off"]) ++
    ((if user.noPass then [utf8 "nopass"] else []) ++
    (user.passwordHashes.map (fun hash => utf8 "#" ++ hash) ++
    ((if user.allKeys then [utf8 "~*"] else user.keyPatterns.map KeyPattern.rule) ++
    ((if user.allChannels then [utf8 "&*"]
      else user.channelPatterns.map fun pattern => utf8 "&" ++ pattern) ++
    (if user.allCommands then [utf8 "+@all"]
      else
        categories.map (fun entry =>
          sign entry.2 ++ utf8 "@" ++ utf8 (getCategoryName entry.1)) ++
        commands.map fun entry => sign entry.2 ++ utf8 entry.1.string)))))

/-- `formatUserRule`: a line it may print for a user. -/
def Prints (user : ACLUser) (line : Bytes) : Prop :=
  ∃ categories commands, Lists user.categories categories ∧ Lists user.commands commands ∧
    line = [0x20].intercalate
      (utf8 "user" :: user.name :: formatRules user categories commands)

/-- `SaveToFile`: a file it may write, with a line for every user in the order of their
names. -/
def Saves (users : Users) (content : Bytes) : Prop :=
  ∃ names lines : List Bytes, names.Perm users.keys ∧ names.Pairwise (· ≤ ·) ∧
    List.Forall₂ (fun name line => ∃ user, users.lookup name = some user ∧ Prints user line)
      names lines ∧
    content = (lines.map fun line => line ++ [0x0a]).flatten

end Swytch.Redis
