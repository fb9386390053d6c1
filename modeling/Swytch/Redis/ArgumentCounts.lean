import Swytch.Lib.Checked
import Swytch.Redis.Blocking

/-!
# Commands that are told how many arguments follow

`LMPOP`, `ZMPOP`, their blocking forms and the set operations on sorted sets have the number of keys
among their arguments, `HSETEX` and `HGETEX` the number of fields.  The number is compared with the
number of arguments before a slice of that many elements is allocated; but to compare, something is
added to it, or it is doubled, and close to the largest `int64` the sum is negative.  Then the check
passes and the allocation panics, which nothing recovers.  `SPOP` allocates room for as many members
as it is asked for, however few there are.

A handler and its runner are one computation here that stops at the first access or allocation that
is not allowed.  While the arguments are read an allocation may be as large as there are arguments;
for a collection it may have its members more.  What the commands write to the keys is left out, and
so are the scores of the sorted sets, on which no size depends.
-/

namespace Swytch.Redis.ArgumentCounts

open Sql (Bytes utf8)
open Checked

/-! ## 1.  Replies and what the keys hold -/

/-- What the helper of a command finds at a key: the elements of a list with their ids, the members
of a set or of a sorted set, the fields of a hash. -/
inductive Seen where
  | absent
  | wrongType
  | found (members : List (Bytes × Bytes))

/-- The number of members. -/
def Seen.size : Seen → ℕ
  | .found members => members.length
  | _ => 0

inductive CountReply where
  | error (text : Bytes)
  | wrongType
  | null
  | bulk (value : Bytes)
  | integer (n : ℤ)
  | array (items : List (Option Bytes))
  | popped (key : Bytes) (items : List Bytes)
  deriving DecidableEq

/-- The text of `WriteWrongNumArguments`. -/
def wrongNumText (name : String) : Bytes :=
  utf8 ("ERR wrong number of arguments for '" ++ name ++ "' command")

/-- The text of `WriteNotInteger`. -/
def notIntegerText : Bytes := utf8 "ERR value is not an integer or out of range"

def wrongNumArguments (name : String) : CountReply := .error (wrongNumText name)

def notInteger : CountReply := .error notIntegerText

def syntaxError : CountReply := .error (utf8 "ERR syntax error")

def numkeysError : CountReply := .error (utf8 "ERR numkeys should be greater than 0")

/-- One look of a blocked client: whether it is the oldest waiter of a key, and the keys. -/
structure Look where
  isOldestWaiter : Bytes → Bool
  view : Bytes → Seen

/-- What happens to a client that blocks: the registration may fail; then it looks, now and when it
is woken, until it finds something or is unblocked. -/
structure Wait where
  registerError : Option Bytes
  looks : List Look
  unblockedWithError : Bool

/-- What the commands depend on: the keys, the error of a timeout, whether an argument is a weight,
and the waiting. -/
structure World where
  view : Bytes → Seen
  timeoutError : Bytes → Option Bytes
  isWeight : Bytes → Bool
  wait : Wait

/-! ## 2.  Pops from several keys -/

/-- The end of the arguments of `LMPOP` and `BLMPOP`: the direction and the count. -/
def listOptions (args : List Bytes) (dirIdx : ℕ) : Comp (Except CountReply (Bool × ℤ)) := do
  let direction ← get args dirIdx
  match Blocking.parseDirection direction with
  | none => return .error syntaxError
  | some left =>
    if dirIdx + 1 < args.length then
      if args.length ≠ dirIdx + 3 then return .error syntaxError
      else do
        let countArg ← get args (dirIdx + 1 : ℕ)
        if upper countArg ≠ utf8 "COUNT" then return .error syntaxError
        else do
          let arg ← get args (dirIdx + 2 : ℕ)
          match parseInt64 arg with
          | none => return .error (.error (utf8 "ERR count should be greater than 0"))
          | some count =>
            if count < 1 then
              return .error (.error (utf8 "ERR count should be greater than 0"))
            else return .ok (left, count)
    else return .ok (left, 1)

/-- The loop over the options of `ZMPOP` and `BZMPOP`; its condition is the bound of the index. -/
def zsetCount : List Bytes → Option ℤ → Except CountReply ℤ
  | [], count => .ok (count.getD 1)
  | word :: rest, count =>
    if upper word ≠ utf8 "COUNT" || count.isSome then .error syntaxError
    else
      match rest with
      | [] => .error syntaxError
      | arg :: rest =>
        match parseInt64 arg with
        | none => .error (.error (utf8 "ERR count must be positive"))
        | some n =>
          if n ≤ 0 then .error (.error (utf8 "ERR count must be positive"))
          else zsetCount rest (some n)

/-- The end of the arguments of `ZMPOP` and `BZMPOP`: the direction and the count. -/
def zsetOptions (args : List Bytes) (dirIdx : ℕ) : Comp (Except CountReply (Bool × ℤ)) := do
  let direction ← get args dirIdx
  if upper direction = utf8 "MIN" then
    return (zsetCount (args.drop (dirIdx + 1)) none).map (true, ·)
  else if upper direction = utf8 "MAX" then
    return (zsetCount (args.drop (dirIdx + 1)) none).map (false, ·)
  else return .error syntaxError

/-- A command that pops from several keys: the position of the number of keys, the options after
the keys, and whether a second slice is made for the keys. -/
structure PopForm where
  name : String
  offset : ℕ
  options : List Bytes → ℕ → Comp (Except CountReply (Bool × ℤ))
  twice : Bool

def PopForm.allocKeys (form : PopForm) (args : List Bytes) (numKeys : ℤ) : Comp Unit :=
  if form.twice then do
    alloc args.length numKeys
    alloc args.length numKeys
  else alloc args.length numKeys

/-- The handler: the number of keys, the check, the keys and the options. -/
def PopForm.handle (form : PopForm) (args : List Bytes)
    (runner : Bool → ℤ → List Bytes → Comp CountReply) : Comp CountReply :=
  if args.length < form.offset + 3 then return wrongNumArguments form.name
  else do
    let arg ← get args form.offset
    match parseInt64 arg with
    | none => return numkeysError
    | some numKeys =>
      if numKeys < 1 then return numkeysError
      else if (args.length : ℤ) < wrap64 (numKeys + (form.offset + 2)) then return syntaxError
      else do
        form.allocKeys args numKeys
        let keys ← getEach args (fun i => (form.offset + 1 + i : ℕ)) numKeys.toNat
        match ← form.options args (form.offset + 1 + numKeys.toNat) with
        | .error reply => return reply
        | .ok (first, count) => runner first count keys

/-- The elements that are popped, from the front or from the back. -/
def popElements (args : List Bytes) (front : Bool) (count : ℤ) (elements : List (Bytes × Bytes)) :
    Comp (List (Bytes × Bytes)) := do
  let n := min count elements.length
  alloc (args.length + elements.length) n
  getEach elements (fun i => if front then (i : ℤ) else elements.length - 1 - i) n.toNat

/-- The members of a sorted set are sorted first; from the front the slice `sorted[:n]` is
popped. -/
def popSorted (args : List Bytes) (front : Bool) (count : ℤ) (sorted : List (Bytes × Bytes)) :
    Comp (List (Bytes × Bytes)) := do
  alloc (args.length + sorted.length) sorted.length
  if front then sliceTo sorted (min count sorted.length) else popElements args front count sorted

/-- How the elements of a key are popped. -/
abbrev Pop := Bool → ℤ → List (Bytes × Bytes) → Comp (List (Bytes × Bytes))

/-- The loop over the keys of `LMPOP`; the types have been checked. -/
def popFound (pop : Pop) (view : Bytes → Seen) (front : Bool) (count : ℤ) :
    List Bytes → Comp CountReply
  | [] => return .null
  | key :: keys =>
    match view key with
    | .found elements =>
      if elements = [] then popFound pop view front count keys
      else do
        let popped ← pop front count elements
        return .popped key (popped.map Prod.snd)
    | _ => popFound pop view front count keys

/-- The loop over the keys of `ZMPOP`, which stops at a key of another type. -/
def popChecked (pop : Pop) (view : Bytes → Seen) (front : Bool) (count : ℤ) :
    List Bytes → Comp CountReply
  | [] => return .null
  | key :: keys =>
    match view key with
    | .absent => popChecked pop view front count keys
    | .wrongType => return .wrongType
    | .found elements =>
      if elements = [] then popChecked pop view front count keys
      else do
        let popped ← pop front count elements
        return .popped key (popped.map Prod.snd)

/-- Some key is of another type. -/
def anyWrongType (view : Bytes → Seen) (keys : List Bytes) : Bool :=
  keys.any fun key =>
    match view key with
    | .wrongType => true
    | _ => false

/-- `tryMultiPop` and `tryZMPop` for every key. -/
def tryKeys (pop : Pop) (look : Look) (front : Bool) (count : ℤ) :
    List Bytes → Comp (Option CountReply)
  | [] => return none
  | key :: keys =>
    if !look.isOldestWaiter key then tryKeys pop look front count keys
    else
      match look.view key with
      | .found elements =>
        if elements = [] then tryKeys pop look front count keys
        else do
          let popped ← pop front count elements
          return some (.popped key (popped.map Prod.snd))
      | _ => tryKeys pop look front count keys

/-- The loop of a blocked client. -/
def waitLoop (pop : Pop) (unblockedWithError front : Bool) (count : ℤ) (keys : List Bytes) :
    List Look → Comp CountReply
  | [] =>
    return if unblockedWithError then
      .error (utf8 "UNBLOCKED client unblocked via CLIENT UNBLOCK") else .null
  | look :: looks => do
    match ← tryKeys pop look front count keys with
    | some reply => return reply
    | none => waitLoop pop unblockedWithError front count keys looks

/-- What the blocking forms do after the arguments: the types are checked, the keys are
registered, and the client waits. -/
def blockOn (args : List Bytes) (pop : Pop) (world : World) (front : Bool) (count : ℤ)
    (keys : List Bytes) : Comp CountReply :=
  if anyWrongType world.view keys then return .wrongType
  else do
    alloc args.length keys.length
    match world.wait.registerError with
    | some text => return .error text
    | none => waitLoop pop world.wait.unblockedWithError front count keys world.wait.looks

/-- The timeout, which the blocking forms check first. -/
def checkTimeout (form : PopForm) (world : World) (args : List Bytes)
    (handler : Comp CountReply) : Comp CountReply :=
  if args.length < form.offset + 3 then return wrongNumArguments form.name
  else do
    let arg ← get args (0 : ℕ)
    match world.timeoutError arg with
    | some text => return .error text
    | none => handler

def lmpopForm : PopForm := ⟨"lmpop", 0, listOptions, false⟩

def blmpopForm : PopForm := ⟨"blmpop", 1, listOptions, false⟩

def zmpopForm : PopForm := ⟨"zmpop", 0, zsetOptions, false⟩

def bzmpopForm : PopForm := ⟨"bzmpop", 1, zsetOptions, false⟩

/-- `bzmpopForm` of a client that blocks, for whom the keys are copied twice. -/
def bzmpopBlockingForm : PopForm := { bzmpopForm with twice := true }

/-- The runner of `LMPOP` and of `BLMPOP` that does not block. -/
def popLists (args : List Bytes) (world : World) (left : Bool) (count : ℤ) (keys : List Bytes) :
    Comp CountReply :=
  if anyWrongType world.view keys then return .wrongType
  else popFound (popElements args) world.view left count keys

def handleLMPop (world : World) (args : List Bytes) : Comp CountReply :=
  lmpopForm.handle args (popLists args world)

def handleBLMPopNonBlocking (world : World) (args : List Bytes) : Comp CountReply :=
  blmpopForm.handle args (popLists args world)

def handleBLMPop (world : World) (args : List Bytes) : Comp CountReply :=
  checkTimeout blmpopForm world args
    (blmpopForm.handle args (blockOn args (popElements args) world))

def handleZMPop (world : World) (args : List Bytes) : Comp CountReply :=
  zmpopForm.handle args (popChecked (popSorted args) world.view)

def handleBZMPopNonBlocking (world : World) (args : List Bytes) : Comp CountReply :=
  bzmpopForm.handle args (popChecked (popSorted args) world.view)

def handleBZMPop (world : World) (args : List Bytes) : Comp CountReply :=
  checkTimeout bzmpopBlockingForm world args
    (bzmpopBlockingForm.handle args (blockOn args (popSorted args) world))

/-! ## 3.  Set operations on sorted sets -/

/-- What is parsed of the arguments of a set operation. -/
structure SetOp where
  keys : List Bytes
  weights : List Bytes
  aggregate : Bytes
  deriving DecidableEq

/-- The weights after `WEIGHTS`, one for every key, and what follows them. -/
def takeWeights (isWeight : Bytes → Bool) :
    ℕ → List Bytes → Except String (List Bytes × List Bytes)
  | 0, rest => .ok ([], rest)
  | _ + 1, [] => .error "syntax error"
  | n + 1, arg :: rest =>
    if !isWeight arg then .error "weight is not a float"
    else (takeWeights isWeight n rest).map fun taken => (arg :: taken.1, taken.2)

/-- The loop over the options.  Every round takes an argument, so that it ends within as many
rounds as there are arguments. -/
def setOpOptions (isWeight : Bytes → Bool) (withScores : Bool) :
    ℕ → SetOp → List Bytes → Except String SetOp
  | 0, op, _ => .ok op
  | _ + 1, op, [] => .ok op
  | rounds + 1, op, opt :: rest =>
    if upper opt = utf8 "WEIGHTS" then
      match takeWeights isWeight op.keys.length rest with
      | .error text => .error text
      | .ok (weights, rest) =>
        setOpOptions isWeight withScores rounds { op with weights := weights } rest
    else if upper opt = utf8 "AGGREGATE" then
      match rest with
      | [] => .error "syntax error"
      | arg :: rest =>
        if upper arg ∈ [utf8 "SUM", utf8 "MIN", utf8 "MAX"] then
          setOpOptions isWeight withScores rounds { op with aggregate := upper arg } rest
        else .error "syntax error"
    else if withScores && upper opt = utf8 "WITHSCORES" then
      setOpOptions isWeight withScores rounds op rest
    else .error "syntax error"

/-- `parseZSetOpArgs`, and `parseZStoreArgs`, which has no `WITHSCORES`. -/
def parseSetOp (name : String) (isWeight : Bytes → Bool) (withScores : Bool) (args : List Bytes) :
    Comp (Except String SetOp) :=
  if args.length < 2 then return .error "wrong number of arguments"
  else do
    let arg ← get args (0 : ℕ)
    match parseInt64 arg with
    | none => return .error "value is not an integer or out of range"
    | some numKeys =>
      if numKeys < 1 then
        return .error ("at least 1 input key is needed for '" ++ name ++ "' command")
      else if (args.length : ℤ) < wrap64 (1 + numKeys) then return .error "syntax error"
      else do
        alloc args.length numKeys
        let keys ← getEach args (fun i => (1 + i : ℕ)) numKeys.toNat
        alloc args.length numKeys
        let options := args.drop (1 + numKeys.toNat)
        return setOpOptions isWeight withScores options.length
          ⟨keys, keys.map fun _ => utf8 "1", utf8 "SUM"⟩ options

/-- The members that are not there yet. -/
def addMembers (result : List Bytes) (members : List (Bytes × Bytes)) : List Bytes :=
  result ++ (members.map Prod.fst).filter fun member => member ∉ result

/-- The loop over the keys of a union, from the key with this index on. -/
def unionLoop (args : List Bytes) (view : Bytes → Seen) (weights : List Bytes) :
    ℕ → List Bytes → List Bytes → Comp (Except CountReply (List Bytes))
  | _, [], result => return .ok result
  | i, key :: keys, result =>
    match view key with
    | .wrongType => return .error .wrongType
    | .absent => unionLoop args view weights (i + 1) keys result
    | .found members => do
      alloc (args.length + members.length) members.length
      let _ ← members.mapM fun _ => get weights i
      unionLoop args view weights (i + 1) keys (addMembers result members)

/-- The loop over the further keys of an intersection; `none` if a key is not there. -/
def interLoop (args : List Bytes) (view : Bytes → Seen) (weights : List Bytes) :
    ℕ → List Bytes → List Bytes → Comp (Except CountReply (Option (List Bytes)))
  | _, [], result => return .ok (some result)
  | i, key :: keys, result =>
    match view key with
    | .wrongType => return .error .wrongType
    | .absent => return .ok none
    | .found members => do
      alloc (args.length + members.length) members.length
      let common := result.filter fun member => member ∈ members.map Prod.fst
      let _ ← common.mapM fun _ => get weights i
      if common = [] then return .ok (some [])
      else interLoop args view weights (i + 1) keys common

/-- The first key of an intersection and the further ones. -/
def intersect (args : List Bytes) (view : Bytes → Seen) (op : SetOp) :
    Comp (Except CountReply (Option (List Bytes))) := do
  let first ← get op.keys (0 : ℕ)
  match view first with
  | .wrongType => return .error .wrongType
  | .absent => return .ok none
  | .found members => do
    alloc (args.length + members.length) members.length
    let _ ← members.mapM fun _ => get op.weights (0 : ℕ)
    interLoop args view op.weights 1 op.keys.tail (members.map Prod.fst)

/-- The number of members of all these keys. -/
def totalSize (view : Bytes → Seen) (keys : List Bytes) : ℕ :=
  (keys.map fun key => (view key).size).sum

/-- The reply of `ZUNION` and `ZINTER`, for which the members are collected; their order is left
out. -/
def replyEntries (args : List Bytes) (view : Bytes → Seen) (keys result : List Bytes) :
    Comp CountReply := do
  alloc (args.length + totalSize view keys) result.length
  return .array (result.map some)

/-- A set operation: the arguments are parsed and the operation is run. -/
def setOperation (name : String) (world : World) (withScores : Bool) (args : List Bytes)
    (run : SetOp → Comp CountReply) : Comp CountReply := do
  match ← parseSetOp name world.isWeight withScores args with
  | .error text => return .error (utf8 ("ERR " ++ text))
  | .ok op => run op

def handleZUnion (world : World) (args : List Bytes) : Comp CountReply :=
  if args.length < 2 then return wrongNumArguments "zunion"
  else
    setOperation "zunion" world true args fun op => do
      match ← unionLoop args world.view op.weights 0 op.keys [] with
      | .error reply => return reply
      | .ok result => replyEntries args world.view op.keys result

def handleZUnionStore (world : World) (args : List Bytes) : Comp CountReply :=
  if args.length < 3 then return wrongNumArguments "zunionstore"
  else
    setOperation "zunionstore" world false args.tail fun op => do
      match ← unionLoop args world.view op.weights 0 op.keys [] with
      | .error reply => return reply
      | .ok result => return .integer result.length

def handleZInter (world : World) (args : List Bytes) : Comp CountReply :=
  if args.length < 2 then return wrongNumArguments "zinter"
  else
    setOperation "zinter" world true args fun op => do
      if op.keys = [] then return .array []
      else do
        match ← intersect args world.view op with
        | .error reply => return reply
        | .ok none => return .array []
        | .ok (some result) => replyEntries args world.view op.keys result

def handleZInterStore (world : World) (args : List Bytes) : Comp CountReply :=
  if args.length < 3 then return wrongNumArguments "zinterstore"
  else
    setOperation "zinterstore" world false args.tail fun op => do
      match ← intersect args world.view op with
      | .error reply => return reply
      | .ok none => return .integer 0
      | .ok (some result) => return .integer result.length

/-! ## 4.  Fields of hashes -/

/-- The ways to give a time. -/
inductive ExpireMode where
  | ex
  | px
  | exat
  | pxat
  deriving DecidableEq

/-- The word of a way to give a time. -/
def expireMode (word : Bytes) : Option ExpireMode :=
  if word = utf8 "EX" then some .ex
  else if word = utf8 "PX" then some .px
  else if word = utf8 "EXAT" then some .exat
  else if word = utf8 "PXAT" then some .pxat
  else none

/-- The options so far; `keep` is `KEEPTTL` of `HSETEX` and `PERSIST` of `HGETEX`. -/
structure FieldOptions where
  fnx : Bool := false
  fxx : Bool := false
  keep : Bool := false
  expire : Option (ExpireMode × ℤ) := none
  deriving DecidableEq

/-- What a word among the options is: `FIELDS`, nothing known, an error, or an option with so many
arguments of its own. -/
inductive OptionStep where
  | fields
  | unknown
  | refused (text : Bytes)
  | next (opts : FieldOptions) (taken : ℕ)

/-- A command with `FIELDS`: how many arguments a field has, and the other options. -/
structure FieldForm where
  name : String
  stride : ℕ
  option : FieldOptions → Bytes → List Bytes → OptionStep

/-- An option with a time, which may be given once. -/
def timeOption (name : String) (conflict : String) (check : ExpireMode → Option ℤ → Option Bytes)
    (mode : ExpireMode) (opts : FieldOptions) (rest : List Bytes) : OptionStep :=
  if opts.expire.isSome || opts.keep then .refused (utf8 conflict)
  else
    match rest with
    | [] => .refused (wrongNumText name)
    | arg :: _ =>
      match parseInt64 arg, check mode (parseInt64 arg) with
      | _, some text => .refused text
      | none, none => .refused notIntegerText
      | some n, none => .next { opts with expire := some (mode, n) } 1

def hsetexConflict : String :=
  "ERR Only one of EX, PX, EXAT, PXAT or KEEPTTL arguments can be specified for HSETEX"

def hgetexConflict : String :=
  "ERR Only one of EX, PX, EXAT, PXAT or PERSIST arguments can be specified for HGETEX"

/-- The times that `HSETEX` refuses. -/
def hsetexCheck (_ : ExpireMode) (n : Option ℤ) : Option Bytes :=
  match n with
  | none => some (utf8 "ERR invalid expire time in 'hsetex' command")
  | some n => if n ≤ 0 then some (utf8 "ERR invalid expire time in 'hsetex' command") else none

/-- The times that `HGETEX` refuses. -/
def hgetexCheck (mode : ExpireMode) (n : Option ℤ) : Option Bytes :=
  let bound : ℤ := if mode = .ex || mode = .exat then 2 ^ 46 / 1000 else 2 ^ 46
  match n with
  | none => some notIntegerText
  | some n =>
    if n < 0 then some (utf8 "ERR invalid expire time, must be >= 0")
    else if n = 0 || bound < n then some (utf8 "ERR invalid expire time in 'hgetex' command")
    else none

def hsetexOption (opts : FieldOptions) (word : Bytes) (rest : List Bytes) : OptionStep :=
  if word = utf8 "FNX" || word = utf8 "FXX" then
    if opts.fnx || opts.fxx then
      .refused (utf8 "ERR Only one of FXX or FNX arguments can be specified for HSETEX")
    else if word = utf8 "FNX" then .next { opts with fnx := true } 0
    else .next { opts with fxx := true } 0
  else
    match expireMode word with
    | some mode => timeOption "hsetex" hsetexConflict hsetexCheck mode opts rest
    | none =>
      if word = utf8 "KEEPTTL" then
        if opts.expire.isSome || opts.keep then .refused (utf8 hsetexConflict)
        else .next { opts with keep := true } 0
      else if word = utf8 "FIELDS" then .fields
      else .unknown

def hgetexOption (opts : FieldOptions) (word : Bytes) (rest : List Bytes) : OptionStep :=
  match expireMode word with
  | some mode => timeOption "hgetex" hgetexConflict hgetexCheck mode opts rest
  | none =>
    if word = utf8 "PERSIST" then
      if opts.expire.isSome || opts.keep then .refused (utf8 hgetexConflict)
      else .next { opts with keep := true } 0
    else if word = utf8 "FIELDS" then .fields
    else .unknown

def hsetexForm : FieldForm := ⟨"hsetex", 2, hsetexOption⟩

def hgetexForm : FieldForm := ⟨"hgetex", 1, hgetexOption⟩

/-- The number of fields and their arguments. -/
abbrev Fields := ℤ × List Bytes

/-- The loop over the arguments, of which `rest` are left.  `FIELDS` may come more than once, and
the last one counts. -/
def FieldForm.loop (form : FieldForm) (args : List Bytes) :
    ℕ → FieldOptions → Option Fields → List Bytes →
      Comp (Except Bytes (FieldOptions × Option Fields))
  | 0, opts, fields, _ => return .ok (opts, fields)
  | _ + 1, opts, fields, [] => return .ok (opts, fields)
  | rounds + 1, opts, fields, word :: rest =>
    match form.option opts (ByteText.toUpper word) rest with
    | .refused text => return .error text
    | .unknown => return .error (utf8 "ERR unknown argument '" ++ word ++ utf8 "'")
    | .next opts taken => form.loop args rounds opts fields (rest.drop taken)
    | .fields =>
      match rest with
      | [] => return .error (wrongNumText form.name)
      | arg :: values =>
        match parseInt64 arg with
        | none => return .error notIntegerText
        | some numFields =>
          if numFields ≤ 0 then return .error (utf8 "ERR invalid number of fields")
          else
            let start := args.length - values.length
            let length := wrap64 (numFields * form.stride)
            let stop := wrap64 (start + length)
            if (args.length : ℤ) < stop then return .error (wrongNumText form.name)
            else do
              alloc args.length length
              let copied ←
                getEach args (fun j => (start + j : ℕ)) (numFields.toNat * form.stride)
              form.loop args rounds opts (some (numFields, copied)) (args.drop stop.toNat)

/-- The handler: the key, the options and the fields. -/
def FieldForm.handle (form : FieldForm) (args : List Bytes)
    (runner : Bytes → FieldOptions → Fields → Comp CountReply) : Comp CountReply :=
  if args.length < 4 then return wrongNumArguments form.name
  else do
    let key ← get args (0 : ℕ)
    match ← form.loop args args.tail.length {} none args.tail with
    | .error text => return .error text
    | .ok (_, none) => return wrongNumArguments form.name
    | .ok (opts, some fields) => runner key opts fields

def runHSetEx (view : Bytes → Seen) (key : Bytes) (opts : FieldOptions) (fields : Fields) :
    Comp CountReply :=
  let write : Comp CountReply := do
    let _ ← getEach fields.2 (fun j => (j * 2 : ℕ)) fields.1.toNat
    let _ ← getEach fields.2 (fun j => (j * 2 + 1 : ℕ)) fields.1.toNat
    return .integer 1
  match view key with
  | .wrongType => return .wrongType
  | .absent => if opts.fxx then return .integer 0 else write
  | .found members =>
    if opts.fnx || opts.fxx then do
      let names ← getEach fields.2 (fun j => (j * 2 : ℕ)) fields.1.toNat
      let known := names.map fun name => decide (name ∈ members.map Prod.fst)
      if opts.fnx && known.any id then return .integer 0
      else if opts.fxx && !known.all id then return .integer 0
      else write
    else write

def handleHSetEx (world : World) (args : List Bytes) : Comp CountReply :=
  hsetexForm.handle args (runHSetEx world.view)

def runHGetEx (view : Bytes → Seen) (key : Bytes) (_ : FieldOptions) (fields : Fields) :
    Comp CountReply :=
  match view key with
  | .wrongType => return .wrongType
  | .absent => return .array (List.replicate fields.1.toNat none)
  | .found members =>
    return .array (fields.2.map fun field => (members.find? (·.1 = field)).map Prod.snd)

def handleHGetEx (world : World) (args : List Bytes) : Comp CountReply :=
  hgetexForm.handle args (runHGetEx world.view)

/-! ## 5.  `SPOP`, and all commands -/

def runSPop (args : List Bytes) (view : Bytes → Seen) (key : Bytes) (count : ℤ)
    (returnArray : Bool) : Comp CountReply :=
  match view key with
  | .absent => return if returnArray then .array [] else .null
  | .wrongType => return .wrongType
  | .found found => do
    alloc (args.length + found.length) found.length
    let members := found.map Prod.fst
    alloc (args.length + found.length) count
    let popped := members.take count.toNat
    if returnArray then return .array (popped.map some)
    else if popped = [] then return .null
    else do
      let member ← get popped (0 : ℕ)
      return .bulk member

def handleSPop (world : World) (args : List Bytes) : Comp CountReply :=
  if args.length < 1 || 2 < args.length then return wrongNumArguments "spop"
  else do
    let key ← get args (0 : ℕ)
    if args.length = 2 then do
      let arg ← get args (1 : ℕ)
      match parseInt64 arg with
      | none => return notInteger
      | some c => if c < 0 then return notInteger else runSPop args world.view key c true
    else runSPop args world.view key 1 false

inductive Counted where
  | lmpop
  | blmpop
  | blmpopNonBlocking
  | zmpop
  | bzmpop
  | bzmpopNonBlocking
  | zunion
  | zinter
  | zunionstore
  | zinterstore
  | hsetex
  | hgetex
  | spop
  deriving DecidableEq

def Counted.run (world : World) : Counted → List Bytes → Comp CountReply
  | .lmpop => handleLMPop world
  | .blmpop => handleBLMPop world
  | .blmpopNonBlocking => handleBLMPopNonBlocking world
  | .zmpop => handleZMPop world
  | .bzmpop => handleBZMPop world
  | .bzmpopNonBlocking => handleBZMPopNonBlocking world
  | .zunion => handleZUnion world
  | .zinter => handleZInter world
  | .zunionstore => handleZUnionStore world
  | .zinterstore => handleZInterStore world
  | .hsetex => handleHSetEx world
  | .hgetex => handleHGetEx world
  | .spop => handleSPop world

/-! ## 6.  What fits -/

/-- The number of keys at this position, with `extra` added to it, fits into 64 bits. -/
def NumkeysFits (args : List Bytes) (position extra : ℕ) : Prop :=
  ∀ n, parseInt64 (args.getD position []) = some n → n + extra < 2 ^ 63

/-- There are fewer arguments than the number of keys and `extra` of them. -/
def NumkeysShort (args : List Bytes) (position extra : ℕ) : Prop :=
  ∃ n, parseInt64 (args.getD position []) = some n ∧ 1 ≤ n ∧ args.length < n + extra

/-- A `FIELDS` that the parser comes to: its number and the arguments after it. -/
structure Section where
  numFields : ℤ
  remaining : ℕ

/-- All of them, in the order in which the parser comes to them. -/
def FieldForm.sections (form : FieldForm) : ℕ → FieldOptions → List Bytes → List Section
  | 0, _, _ => []
  | _ + 1, _, [] => []
  | rounds + 1, opts, word :: rest =>
    match form.option opts (ByteText.toUpper word) rest with
    | .refused _ => []
    | .unknown => []
    | .next opts taken => form.sections rounds opts (rest.drop taken)
    | .fields =>
      match rest with
      | [] => []
      | arg :: values =>
        match parseInt64 arg with
        | none => []
        | some n =>
          if n ≤ 0 then []
          else
            ⟨n, values.length⟩ ::
              if n * form.stride ≤ values.length then
                form.sections rounds opts (values.drop (n.toNat * form.stride))
              else []

/-- The end of its fields fits into 64 bits. -/
def Section.Fits (s : Section) (form : FieldForm) (args : List Bytes) : Prop :=
  (args.length - s.remaining : ℕ) + s.numFields * form.stride < 2 ^ 63

/-- There are fewer arguments than its fields have. -/
def Section.Short (s : Section) (form : FieldForm) : Prop :=
  s.remaining < s.numFields * form.stride

/-- All sections of the arguments after the key. -/
def FieldForm.all (form : FieldForm) (args : List Bytes) : List Section :=
  form.sections args.tail.length {} args.tail

/-- The condition: what is computed from the number fits, where the command gets to it; and `SPOP`
is not asked for more than there are arguments and members. -/
def Counted.Fits (world : World) (args : List Bytes) : Counted → Prop
  | .lmpop => 3 ≤ args.length → NumkeysFits args 0 2
  | .zmpop => 3 ≤ args.length → NumkeysFits args 0 2
  | .blmpopNonBlocking => 4 ≤ args.length → NumkeysFits args 1 3
  | .bzmpopNonBlocking => 4 ≤ args.length → NumkeysFits args 1 3
  | .blmpop =>
    4 ≤ args.length → world.timeoutError (args.getD 0 []) = none → NumkeysFits args 1 3
  | .bzmpop =>
    4 ≤ args.length → world.timeoutError (args.getD 0 []) = none → NumkeysFits args 1 3
  | .zunion => 2 ≤ args.length → NumkeysFits args 0 1
  | .zinter => 2 ≤ args.length → NumkeysFits args 0 1
  | .zunionstore => 3 ≤ args.length → NumkeysFits args.tail 0 1
  | .zinterstore => 3 ≤ args.length → NumkeysFits args.tail 0 1
  | .hsetex => 4 ≤ args.length → ∀ s ∈ hsetexForm.all args, s.Fits hsetexForm args
  | .hgetex => 4 ≤ args.length → ∀ s ∈ hgetexForm.all args, s.Fits hgetexForm args
  | .spop =>
    args.length = 2 → ∀ c members, parseInt64 (args.getD 1 []) = some c →
      world.view (args.getD 0 []) = .found members → c ≤ args.length + members.length

/-- The arguments are too few for the number that is among them. -/
def Counted.Short (args : List Bytes) : Counted → Prop
  | .lmpop => NumkeysShort args 0 2
  | .zmpop => NumkeysShort args 0 2
  | .blmpop => NumkeysShort args 1 3
  | .blmpopNonBlocking => NumkeysShort args 1 3
  | .bzmpop => NumkeysShort args 1 3
  | .bzmpopNonBlocking => NumkeysShort args 1 3
  | .zunion => NumkeysShort args 0 1
  | .zinter => NumkeysShort args 0 1
  | .zunionstore => NumkeysShort args.tail 0 1
  | .zinterstore => NumkeysShort args.tail 0 1
  | .hsetex => ∃ s ∈ hsetexForm.all args, s.Short hsetexForm
  | .hgetex => ∃ s ∈ hgetexForm.all args, s.Short hgetexForm
  | .spop => False

def CountReply.IsError (reply : CountReply) : Prop := ∃ text, reply = .error text

/-- The computation comes to a reply, which is an error if the arguments are too few. -/
def Safe (short : Prop) (m : Comp CountReply) : Prop :=
  Returns m fun reply => short → reply.IsError

/-- The computation stops at an allocation of a length that is negative or enormous. -/
def Bursts (m : Comp CountReply) : Prop :=
  ∃ n limit, m = .error (.alloc n limit) ∧ (n < 0 ∨ 2 ^ 62 ≤ n)

theorem not_safe_of_bursts {short : Prop} {m : Comp CountReply} (h : Bursts m) : ¬ Safe short m := by
  obtain ⟨n, limit, rfl, -⟩ := h
  exact not_returns_error

theorem safe_error {short : Prop} (text : Bytes) : Safe short (.ok (.error text)) :=
  returns_pure fun _ => ⟨text, rfl⟩

end Swytch.Redis.ArgumentCounts
