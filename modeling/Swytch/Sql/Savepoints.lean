import Swytch.Sql.DirtyMaps
import Swytch.Sql.OwnWrites

/-!
# Savepoints

The session here keeps its maps in memory and its stack of frames as a slice whose array is
reused after it is cut.  `Reference` says what the statements mean, with values in place of
pointers: a transaction is a context and a set of rows, and its live savepoints are such
pairs under their names.  The session agrees with it after every statement, and so do the
states its frames hold.  So does the session of a connection, whose transaction leaves the
store alone while it is open.
-/

namespace Swytch.Sql

/-! ## 1.  The session and its statements -/

/-- `TakeSavepoint` and `RestoreSavepoint` of a context: restoring brings back the context
that was captured, whatever happened to it since. -/
structure ContextOps (κ σ : Type*) where
  takeSavepoint : κ → σ
  restoreSavepoint : κ → σ → κ
  restore_take : ∀ ctx now, restoreSavepoint now (takeSavepoint ctx) = ctx

/-- `savepointFrame`, with its map as a pointer. -/
structure HeapFrame (σ : Type*) where
  name : String
  ctxSnap : σ
  dirtyRows : Option ℕ

/-- `session`, with its maps in memory. -/
structure HeapSession (κ σ : Type*) where
  maps : DirtyMaps
  txContext : Option κ
  txDirtyRows : Option ℕ
  savepoints : Slice (HeapFrame σ)

/-- Why a statement fails. -/
inductive TxError where
  /-- `BEGIN: transaction already in progress`. -/
  | alreadyInProgress
  /-- `SAVEPOINT`, `RELEASE` or `ROLLBACK TO`: `no transaction in progress`. -/
  | noTransaction
  /-- `malformed savepoint statement`. -/
  | malformed
  /-- `savepoint statement missing name`. -/
  | missingName
  /-- `savepoint %q does not exist`. -/
  | noSuchSavepoint (name : String)
  /-- `serialization failure`: fork-choice aborted the flush. -/
  | serializationFailure
  /-- `commit flush`: the flush failed otherwise. -/
  | commitFlush
  deriving DecidableEq

/-- What `Flush` can return: `ErrTxnAborted`, or another error. -/
inductive FlushError where
  | txnAborted
  | other

/-- How `handleCommit` reports it. -/
def FlushError.report : FlushError → TxError
  | txnAborted => .serializationFailure
  | other => .commitFlush

/-- The statements of a session.  `begin` carries the context the engine hands out, `write`
what a statement emits and the rows it touches, `commit` the error of its flush. -/
inductive TxStmt (κ : Type*) where
  | begin (ctx : κ)
  | write (emit : κ → κ) (rows : List (String × Bytes))
  | savepoint (stmt : String)
  | release (stmt : String)
  | rollbackTo (stmt : String)
  | commit (flush : Option FlushError)
  | rollback

def isSpace (c : Char) : Bool :=
  c ∈ ['\t', '\n', '\x0b', '\x0c', '\r', ' ', '\x85', '\xa0', '\u1680', '\u2028', '\u2029',
    '\u202f', '\u205f', '\u3000'] || ('\u2000' ≤ c && c ≤ '\u200a')

def fields (s : String) : List (List Char) :=
  (s.toList.splitOnP isSpace).filter (· ≠ [])

/-- `unicode.ToUpper` on the letters that have an ASCII capital; no other rune is sent to an
ASCII letter, and only comparison with ASCII words follows. -/
def upperRune (c : Char) : Char :=
  if c = '\u0131' then 'I' else if c = '\u017f' then 'S' else c.toUpper

/-- The words `parseSavepointName` skips. -/
def savepointWords : List (List Char) :=
  ["SAVEPOINT".toList, "RELEASE".toList, "ROLLBACK".toList, "TO".toList]

/-- `strings.ReplaceAll` of a doubled quote by one. -/
def undouble : List Char → List Char
  | '\x22' :: '\x22' :: cs => '\x22' :: undouble cs
  | c :: cs => c :: undouble cs
  | [] => []

/-- The name between double quotes, or the text itself. -/
def unquoteName (name : List Char) : List Char :=
  if 2 ≤ name.length ∧ name.head? = some '\x22' ∧ name.getLast? = some '\x22' then
    undouble (name.tail.dropLast)
  else name

def parseSavepointName (stmt : String) : Except TxError String :=
  match fields stmt with
  | [] => .error .malformed
  | tokens =>
    match tokens.dropWhile fun token => token.map upperRune ∈ savepointWords with
    | [] => .error .missingName
    | token :: _ =>
      match unquoteName (token.rdropWhile (· = ';')) with
      | [] => .error .missingName
      | name => .ok (String.ofList name)

namespace HeapSession

variable {κ σ : Type*}

/-- A session outside a transaction that has allocated nothing. -/
def new : HeapSession κ σ := ⟨⟨⟨[]⟩, ⟨[]⟩⟩, none, none, Slice.empty⟩

def markRowDirty (s : HeapSession κ σ) (table : String) (pk : Bytes) : HeapSession κ σ :=
  match s.txContext with
  | none => s
  | some _ =>
    let (maps, a) := s.maps.make s.txDirtyRows
    { s with maps := maps.mark a table pk, txDirtyRows := some a }

def dirtyRowPKs (s : HeapSession κ σ) (table : String) : List Bytes :=
  match s.txContext with
  | none => []
  | some _ =>
    match (s.maps.entries s.txDirtyRows).lookup table with
    | none => []
    | some set => s.maps.inner.read set

def clearTxState (s : HeapSession κ σ) : HeapSession κ σ :=
  { s with txContext := none, txDirtyRows := none, savepoints := Slice.empty }

def pushSavepoint (ops : ContextOps κ σ) (s : HeapSession κ σ) (name : String) :
    HeapSession κ σ :=
  match s.txContext with
  | none => s
  | some ctx =>
    let (maps, dirtyRows) := s.maps.cloneDirtyRows s.txDirtyRows
    { s with
      maps := maps
      savepoints := s.savepoints.append ⟨name, ops.takeSavepoint ctx, dirtyRows⟩ }

/-- The backward scan of `findSavepoint` over the frames below a position. -/
def findSavepointBelow (frames : List (HeapFrame σ)) (name : String) : ℕ → Option ℕ
  | 0 => none
  | i + 1 =>
    if (frames[i]?).map HeapFrame.name = some name then some i
    else findSavepointBelow frames name i

/-- `findSavepoint`; `none` for `-1`. -/
def findSavepoint (s : HeapSession κ σ) (name : String) : Option ℕ :=
  findSavepointBelow s.savepoints.elems name s.savepoints.elems.length

/-- `releaseSavepoint`; `none` for `false`. -/
def releaseSavepoint (s : HeapSession κ σ) (name : String) : Option (HeapSession κ σ) :=
  match s.findSavepoint name with
  | none => none
  | some idx => some { s with savepoints := s.savepoints.truncate idx }

/-- `rollbackToSavepoint`; `none` for `false`. -/
def rollbackToSavepoint (ops : ContextOps κ σ) (s : HeapSession κ σ) (name : String) :
    Option (HeapSession κ σ) :=
  match s.findSavepoint name with
  | none => none
  | some idx =>
    match s.savepoints.elems[idx]? with
    | none => none
    | some frame =>
      let (maps, dirtyRows) := s.maps.cloneDirtyRows frame.dirtyRows
      some
        { maps := maps
          txContext := s.txContext.map fun ctx => ops.restoreSavepoint ctx frame.ctxSnap
          txDirtyRows := dirtyRows
          savepoints := s.savepoints.truncate (idx + 1) }

def handleBegin (ctx : κ) (s : HeapSession κ σ) : Except TxError Unit × HeapSession κ σ :=
  match s.txContext with
  | some _ => (.error .alreadyInProgress, s)
  | none => (.ok (), { s with txContext := some ctx })

/-- A statement that emits into the context and marks the rows it touches. -/
def write (emit : κ → κ) (rows : List (String × Bytes)) (s : HeapSession κ σ) :
    HeapSession κ σ :=
  rows.foldl (fun s row => s.markRowDirty row.1 row.2)
    { s with txContext := s.txContext.map emit }

def handleSavepoint (ops : ContextOps κ σ) (stmt : String) (s : HeapSession κ σ) :
    Except TxError Unit × HeapSession κ σ :=
  match s.txContext with
  | none => (.error .noTransaction, s)
  | some _ =>
    match parseSavepointName stmt with
    | .error e => (.error e, s)
    | .ok name => (.ok (), s.pushSavepoint ops name)

def handleReleaseSavepoint (stmt : String) (s : HeapSession κ σ) :
    Except TxError Unit × HeapSession κ σ :=
  match s.txContext with
  | none => (.error .noTransaction, s)
  | some _ =>
    match parseSavepointName stmt with
    | .error e => (.error e, s)
    | .ok name =>
      match s.releaseSavepoint name with
      | none => (.error (.noSuchSavepoint name), s)
      | some s' => (.ok (), s')

def handleRollbackTo (ops : ContextOps κ σ) (stmt : String) (s : HeapSession κ σ) :
    Except TxError Unit × HeapSession κ σ :=
  match s.txContext with
  | none => (.error .noTransaction, s)
  | some _ =>
    match parseSavepointName stmt with
    | .error e => (.error e, s)
    | .ok name =>
      match s.rollbackToSavepoint ops name with
      | none => (.error (.noSuchSavepoint name), s)
      | some s' => (.ok (), s')

/-- `handleCommit`: whether or not the flush succeeds, the transaction is over. -/
def handleCommit (flush : Option FlushError) (s : HeapSession κ σ) :
    Except TxError Unit × HeapSession κ σ :=
  match s.txContext with
  | none => (.ok (), s)
  | some _ =>
    match flush with
    | none => (.ok (), s.clearTxState)
    | some e => (.error e.report, s.clearTxState)

def handleRollback (s : HeapSession κ σ) : Except TxError Unit × HeapSession κ σ :=
  match s.txContext with
  | none => (.ok (), s)
  | some _ => (.ok (), s.clearTxState)

/-- One statement: the reply and the session after it. -/
def exec (ops : ContextOps κ σ) :
    TxStmt κ → HeapSession κ σ → Except TxError Unit × HeapSession κ σ
  | .begin ctx, s => s.handleBegin ctx
  | .write emit rows, s => (.ok (), s.write emit rows)
  | .savepoint stmt, s => s.handleSavepoint ops stmt
  | .release stmt, s => s.handleReleaseSavepoint stmt
  | .rollbackTo stmt, s => s.handleRollbackTo ops stmt
  | .commit flush, s => s.handleCommit flush
  | .rollback, s => s.handleRollback

/-- The dirty rows of the session, read through its maps. -/
def dirtyRows (s : HeapSession κ σ) : Set (String × Bytes) := s.maps.rows s.txDirtyRows

/-- What the frames hold, newest first, read through their maps. -/
def captured (s : HeapSession κ σ) : List (String × σ × Set (String × Bytes)) :=
  (s.savepoints.elems.map fun frame =>
    (frame.name, frame.ctxSnap, s.maps.rows frame.dirtyRows)).reverse

end HeapSession

/-- Statement after statement: the replies and the last state. -/
def runStmts {κ τ : Type*} (exec : TxStmt κ → τ → Except TxError Unit × τ) :
    List (TxStmt κ) → τ → List (Except TxError Unit) × τ
  | [], s => ([], s)
  | stmt :: stmts, s =>
    let (reply, s₁) := exec stmt s
    let (replies, s₂) := runStmts exec stmts s₁
    (reply :: replies, s₂)

/-! ## 2.  What the statements mean -/

/-- The state of a transaction. -/
@[ext] structure TxPoint (κ : Type*) where
  context : κ
  dirty : Set (String × Bytes)

/-- A session as a value: outside a transaction, or inside one with its live savepoints,
newest first, each with the state it captured. -/
inductive Reference (κ : Type*) where
  | idle
  | active (now : TxPoint κ) (live : List (String × TxPoint κ))

namespace Reference

variable {κ σ : Type*}

/-- The transaction context, if one is open. -/
def context : Reference κ → Option κ
  | idle => none
  | active now _ => some now.context

/-- The rows written. -/
def dirty : Reference κ → Set (String × Bytes)
  | idle => ∅
  | active now _ => now.dirty

def live : Reference κ → List (String × TxPoint κ)
  | idle => []
  | active _ live => live

/-- The live savepoints, with the snapshots their contexts give. -/
def captured (ops : ContextOps κ σ) (r : Reference κ) :
    List (String × σ × Set (String × Bytes)) :=
  r.live.map fun point => (point.1, ops.takeSavepoint point.2.context, point.2.dirty)

/-- A write changes the current state and no captured one. -/
def write (emit : κ → κ) (rows : List (String × Bytes)) : Reference κ → Reference κ
  | idle => idle
  | active now live => active ⟨emit now.context, now.dirty ∪ {row | row ∈ rows}⟩ live

/-- `SAVEPOINT` captures the current state. -/
def push (name : String) : Reference κ → Reference κ
  | idle => idle
  | active now live => active now ((name, now) :: live)

/-- `RELEASE` drops the newest live savepoint of the name and all later ones. -/
def release (name : String) : Reference κ → Option (Reference κ)
  | idle => none
  | active now live =>
    match live.dropWhile fun point => point.1 ≠ name with
    | [] => none
    | _ :: older => some (active now older)

/-- `ROLLBACK TO` restores the newest live savepoint of the name and keeps it. -/
def restore (name : String) : Reference κ → Option (Reference κ)
  | idle => none
  | active _ live =>
    match live.dropWhile fun point => point.1 ≠ name with
    | [] => none
    | point :: older => some (active point.2 (point :: older))

/-- A savepoint statement outside a transaction, without a name or with one that is not live
is refused and changes nothing. -/
def named (stmt : String) (step : String → Reference κ → Option (Reference κ))
    (r : Reference κ) : Except TxError Unit × Reference κ :=
  match r with
  | idle => (.error .noTransaction, idle)
  | active _ _ =>
    match parseSavepointName stmt with
    | .error e => (.error e, r)
    | .ok name =>
      match step name r with
      | none => (.error (.noSuchSavepoint name), r)
      | some r' => (.ok (), r')

def exec : TxStmt κ → Reference κ → Except TxError Unit × Reference κ
  | .begin ctx, idle => (.ok (), active ⟨ctx, ∅⟩ [])
  | .begin _, r@(active _ _) => (.error .alreadyInProgress, r)
  | .write emit rows, r => (.ok (), r.write emit rows)
  | .savepoint stmt, r => r.named stmt fun name r => some (r.push name)
  | .release stmt, r => r.named stmt release
  | .rollbackTo stmt, r => r.named stmt restore
  | .commit _, idle => (.ok (), idle)
  | .commit none, active _ _ => (.ok (), idle)
  | .commit (some e), active _ _ => (.error e.report, idle)
  | .rollback, _ => (.ok (), idle)

end Reference

/-! ## 3.  The session against its meaning -/

namespace HeapSession

variable {κ σ : Type*} {ops : ContextOps κ σ} {s : HeapSession κ σ} {r : Reference κ}

/-- The session and its meaning have the same context, rows and captured states, and no
frame reaches what the session writes. -/
structure Agrees (ops : ContextOps κ σ) (s : HeapSession κ σ) (r : Reference κ) : Prop where
  context : s.txContext = r.context
  dirty : s.dirtyRows = r.dirty
  captured : s.captured = r.captured ops
  separate : s.maps.Separate s.txDirtyRows (s.savepoints.elems.map HeapFrame.dirtyRows)

/-- The frames hold the same after the maps changed, if their rows are the same. -/
theorem captured_congr {s' : HeapSession κ σ} (hfrs : s'.savepoints.elems = s.savepoints.elems)
    (hr : ∀ ref ∈ s.savepoints.elems.map HeapFrame.dirtyRows,
      s'.maps.rows ref = s.maps.rows ref) : s'.captured = s.captured := by
  rw [captured, hfrs]
  congr 1
  refine List.map_congr_left fun frame hfr => ?_
  rw [hr frame.dirtyRows (List.mem_map_of_mem hfr)]

theorem Agrees.clear (s : HeapSession κ σ) : Agrees ops s.clearTxState .idle where
  context := rfl
  dirty := DirtyMaps.rows_none
  captured := rfl
  separate := DirtyMaps.separate_none_nil

theorem Agrees.begin (h : Agrees ops s .idle) (ctx : κ) :
    Agrees ops { s with txContext := some ctx } (.active ⟨ctx, ∅⟩ []) where
  context := rfl
  dirty := h.dirty
  captured := h.captured
  separate := h.separate

theorem Agrees.markRowDirty (h : Agrees ops s r) (table : String) (pk : Bytes) :
    Agrees ops (s.markRowDirty table pk) (r.write id [(table, pk)]) := by
  cases r with
  | idle =>
    have hctx : s.txContext = none := h.context
    rw [HeapSession.markRowDirty, hctx]
    exact h
  | active now live =>
    have hctx : s.txContext = some now.context := h.context
    obtain ⟨hsep, hr, hkps⟩ := DirtyMaps.separate_make h.separate
    obtain ⟨hsep', hrows', hfrs⟩ := DirtyMaps.separate_mark hsep table pk
    rw [HeapSession.markRowDirty, hctx]
    refine ⟨rfl, ?_, ?_, hsep'⟩
    · show DirtyMaps.rows _ _ = now.dirty ∪ {row | row ∈ [(table, pk)]}
      have hnow : s.maps.rows s.txDirtyRows = now.dirty := h.dirty
      rw [hrows', hr, hnow]
      simp
    · refine Eq.trans (captured_congr (s := s) rfl fun ref href => ?_) h.captured
      exact (hfrs ref href).trans (hkps ref href).rows_eq

theorem Agrees.emit (h : Agrees ops s r) (emit : κ → κ) :
    Agrees ops { s with txContext := s.txContext.map emit } (r.write emit []) := by
  cases r with
  | idle =>
    refine ⟨?_, h.dirty, h.captured, h.separate⟩
    show s.txContext.map emit = none
    rw [show s.txContext = none from h.context, Option.map_none]
  | active now live =>
    refine ⟨?_, ?_, h.captured, h.separate⟩
    · show s.txContext.map emit = some (emit now.context)
      rw [show s.txContext = some now.context from h.context, Option.map_some]
    · refine h.dirty.trans ?_
      show now.dirty = now.dirty ∪ {row | row ∈ []}
      simp

end HeapSession

namespace Reference

variable {κ : Type*}

/-- Rows are marked one after the other. -/
theorem write_write (emit emit' : κ → κ) (rows rows' : List (String × Bytes)) (r : Reference κ) :
    (r.write emit rows).write emit' rows' = r.write (emit' ∘ emit) (rows ++ rows') := by
  cases r with
  | idle => rfl
  | active now live =>
    simp only [write]
    congr 2
    ext row
    simp [or_assoc]

end Reference

namespace HeapSession

variable {κ σ : Type*} {ops : ContextOps κ σ} {s : HeapSession κ σ} {r : Reference κ}

theorem Agrees.write (h : Agrees ops s r) (emit : κ → κ) (rows : List (String × Bytes)) :
    Agrees ops (s.write emit rows) (r.write emit rows) := by
  -- The rows marked so far are a statement of their own.
  have hrun : ∀ (rows done : List (String × Bytes)) (s : HeapSession κ σ),
      Agrees ops s (r.write emit done) →
      Agrees ops (rows.foldl (fun s row => s.markRowDirty row.1 row.2) s)
        (r.write emit (done ++ rows)) := by
    intro rows
    induction rows with
    | nil =>
      intro done s hs
      simpa using hs
    | cons row rows ih =>
      intro done s hs
      have hmark := hs.markRowDirty row.1 row.2
      rw [Reference.write_write] at hmark
      simpa using ih (done ++ [row]) _ hmark
  exact hrun rows [] _ (h.emit emit)

theorem Agrees.pushSavepoint {now : TxPoint κ} {live : List (String × TxPoint κ)}
    (h : Agrees ops s (.active now live)) (name : String) :
    Agrees ops (s.pushSavepoint ops name) (.active now ((name, now) :: live)) := by
  have hctx : s.txContext = some now.context := h.context
  obtain ⟨houter, hinner, hr, hsep⟩ := DirtyMaps.cloneDirtyRows_spec h.separate.valid
  generalize hclone : s.maps.cloneDirtyRows s.txDirtyRows = clone at *
  obtain ⟨maps, dirtyRows⟩ := clone
  have hcur : s.maps.Keeps maps s.txDirtyRows :=
    DirtyMaps.keeps_of_extends houter hinner h.separate.valid
  have hfrs : ∀ ref ∈ s.savepoints.elems.map HeapFrame.dirtyRows, s.maps.Keeps maps ref :=
    fun ref href => DirtyMaps.keeps_of_extends houter hinner (h.separate.frames ref href).1
  -- The copy is new, so the session and the copy do not reach each other.
  have hapart : maps.Valid dirtyRows ∧ maps.Apart s.txDirtyRows dirtyRows := by
    have hnew := hsep [s.txDirtyRows] (by simpa using h.separate.valid)
    exact ⟨hnew.valid, (hnew.frames _ List.mem_cons_self).2.symm⟩
  have hk := h.separate.keeps hcur hfrs
  rw [HeapSession.pushSavepoint, hctx, hclone]
  refine ⟨rfl, hcur.rows_eq.trans h.dirty, ?_, ⟨hk.valid, hk.sets, ?_⟩⟩
  · have hold : (s.savepoints.elems.map fun frame : HeapFrame σ =>
        (frame.name, frame.ctxSnap, maps.rows frame.dirtyRows)).reverse = s.captured := by
      congr 1
      refine List.map_congr_left fun frame hfr => ?_
      rw [(hfrs frame.dirtyRows (List.mem_map_of_mem hfr)).rows_eq]
    simp only [HeapSession.captured, Slice.elems_append, List.map_append, List.map_cons,
      List.map_nil, List.reverse_append, List.reverse_cons, List.reverse_nil, hold]
    show (name, ops.takeSavepoint now.context, maps.rows dirtyRows) :: s.captured =
      (name, ops.takeSavepoint now.context, now.dirty) ::
        Reference.captured ops (.active now live)
    rw [hr, show s.maps.rows s.txDirtyRows = now.dirty from h.dirty, h.captured]
  · intro ref href
    rw [Slice.elems_append, List.map_append, List.mem_append] at href
    rcases href with href | href
    · exact hk.frames ref href
    · rw [List.map_singleton, List.mem_singleton] at href
      exact href ▸ hapart

/-- The backward scan stops at the newest frame of the name. -/
theorem findSavepointBelow_eq (frames : List (HeapFrame σ)) (name : String) (n : ℕ)
    (hn : n ≤ frames.length) :
    (findSavepointBelow frames name n = none ∧
        (frames.take n).reverse.dropWhile (fun frame => frame.name ≠ name) = []) ∨
      ∃ i frame, findSavepointBelow frames name n = some i ∧ frames[i]? = some frame ∧
        (frames.take n).reverse.dropWhile (fun frame => frame.name ≠ name) =
          frame :: (frames.take i).reverse := by
  induction n with
  | zero => exact .inl ⟨rfl, rfl⟩
  | succ n ih =>
    have hlt : n < frames.length := hn
    have hget : frames[n]? = some frames[n] := List.getElem?_eq_getElem hlt
    have ht : (frames.take (n + 1)).reverse = frames[n] :: (frames.take n).reverse := by
      rw [List.take_succ_eq_append_getElem hlt, List.reverse_append, List.reverse_singleton,
        List.singleton_append]
    rw [ht, findSavepointBelow, hget, Option.map_some]
    by_cases hnm : frames[n].name = name
    · refine .inr ⟨n, frames[n], ?_, hget, ?_⟩
      · rw [if_pos (congrArg some hnm)]
      · rw [List.dropWhile_cons_of_neg (by simpa using hnm)]
    · rw [if_neg (fun h => hnm (Option.some.inj h)),
        List.dropWhile_cons_of_pos (by simpa using hnm)]
      exact ih hlt.le

section

variable (h : Agrees ops s r)

include h

/-- `findSavepoint` and the reference stop at the same savepoint. -/
theorem Agrees.findSavepoint (name : String) :
    (s.findSavepoint name = none ∧ r.live.dropWhile (fun point => point.1 ≠ name) = []) ∨
      ∃ i frame point older, s.findSavepoint name = some i ∧
        s.savepoints.elems[i]? = some frame ∧
        r.live.dropWhile (fun point => point.1 ≠ name) = point :: older ∧
        frame.name = point.1 ∧ frame.ctxSnap = ops.takeSavepoint point.2.context ∧
        s.maps.rows frame.dirtyRows = point.2.dirty ∧
        ((s.savepoints.elems.take i).map fun frame =>
            (frame.name, frame.ctxSnap, s.maps.rows frame.dirtyRows)).reverse =
          older.map fun point =>
            (point.1, ops.takeSavepoint point.2.context, point.2.dirty) := by
  have hd := congrArg
    (List.dropWhile fun entry : String × σ × Set (String × Bytes) => decide (entry.1 ≠ name))
    h.captured
  rw [HeapSession.captured, Reference.captured, ← List.map_reverse, List.dropWhile_map,
    List.dropWhile_map] at hd
  simp only [Function.comp_def] at hd
  have hf := findSavepointBelow_eq s.savepoints.elems name s.savepoints.elems.length le_rfl
  rw [List.take_length] at hf
  rcases hf with ⟨hn, hfrs⟩ | ⟨i, frame, hso, hget, hfrs⟩
  · rw [hfrs, List.map_nil, eq_comm, List.map_eq_nil_iff] at hd
    exact .inl ⟨hn, hd⟩
  · rw [hfrs, eq_comm] at hd
    obtain ⟨point, older, hl, hpoint, holder⟩ := List.map_eq_cons_iff.mp hd
    simp only [Prod.mk.injEq] at hpoint
    obtain ⟨hnm, hs, hr⟩ := hpoint
    exact .inr ⟨i, frame, point, older, hso, hget, hl, hnm.symm, hs.symm, hr.symm,
      by rw [← List.map_reverse]; exact holder.symm⟩

theorem Agrees.releaseSavepoint (hctx : r ≠ .idle) (name : String) :
    Option.Rel (Agrees ops) (s.releaseSavepoint name) (r.release name) := by
  cases r with
  | idle => exact absurd rfl hctx
  | active now live =>
    rcases h.findSavepoint name with ⟨hn, hl⟩ |
      ⟨i, frame, point, older, hs, -, hl, -, -, -, holder⟩
    · rw [HeapSession.releaseSavepoint, hn, Reference.release,
        show live.dropWhile _ = [] from hl]
      exact .none
    · rw [HeapSession.releaseSavepoint, hs, Reference.release,
        show live.dropWhile _ = _ from hl]
      refine .some ⟨h.context, h.dirty, ?_, h.separate.mono ?_⟩
      · rw [HeapSession.captured, Slice.elems_truncate]
        exact holder
      · rw [Slice.elems_truncate]
        exact List.map_subset _ (List.take_subset _ _)

theorem Agrees.rollbackToSavepoint (hctx : r ≠ .idle) (name : String) :
    Option.Rel (Agrees ops) (s.rollbackToSavepoint ops name) (r.restore name) := by
  cases r with
  | idle => exact absurd rfl hctx
  | active now live =>
    have hopen : s.txContext = some now.context := h.context
    rcases h.findSavepoint name with ⟨hn, hl⟩ |
      ⟨i, frame, point, older, hso, hget, hl, hnm, hs, hr, holder⟩
    · rw [HeapSession.rollbackToSavepoint, hn, Reference.restore,
        show live.dropWhile _ = [] from hl]
      exact .none
    · have hmem : frame ∈ s.savepoints.elems := List.mem_of_getElem? hget
      have hrf : ∀ ref ∈ s.savepoints.elems.map HeapFrame.dirtyRows, s.maps.Valid ref :=
        fun ref href => (h.separate.frames ref href).1
      have hva : s.maps.Valid frame.dirtyRows := hrf _ (List.mem_map_of_mem hmem)
      obtain ⟨houter, hinner, hcp, hsep⟩ := DirtyMaps.cloneDirtyRows_spec hva
      generalize hclone : s.maps.cloneDirtyRows frame.dirtyRows = clone at *
      obtain ⟨maps, dirtyRows⟩ := clone
      have hkeep : ∀ frame ∈ s.savepoints.elems,
          maps.rows frame.dirtyRows = s.maps.rows frame.dirtyRows := fun frame hfr =>
        (DirtyMaps.keeps_of_extends houter hinner
          (hrf _ (List.mem_map_of_mem hfr))).rows_eq
      have ht : s.savepoints.elems.take (i + 1) = s.savepoints.elems.take i ++ [frame] := by
        rw [List.take_add_one, hget, Option.toList_some]
      have hrestored : s.rollbackToSavepoint ops name =
          some ⟨maps, some point.2.context, dirtyRows, s.savepoints.truncate (i + 1)⟩ := by
        simp [HeapSession.rollbackToSavepoint, hso, hget, hclone, hopen, hs, ops.restore_take]
      rw [hrestored, Reference.restore, show live.dropWhile _ = _ from hl]
      refine .some ⟨rfl, hcp.trans hr, ?_, (hsep _ hrf).mono ?_⟩
      · -- The frame that was restored and the older ones still hold what they captured.
        have hold : ((s.savepoints.elems.take i).map fun frame =>
            (frame.name, frame.ctxSnap, maps.rows frame.dirtyRows)) =
            (s.savepoints.elems.take i).map fun frame =>
              (frame.name, frame.ctxSnap, s.maps.rows frame.dirtyRows) :=
          List.map_congr_left fun frame hfr => by
            rw [hkeep frame (List.mem_of_mem_take hfr)]
        simp only [HeapSession.captured, Slice.elems_truncate, ht, List.map_append,
          List.map_singleton, List.reverse_append, hold, holder, hkeep frame hmem, hnm, hs,
          hr]
        rfl
      · rw [Slice.elems_truncate]
        exact List.map_subset _ (List.take_subset _ _)

/-- One statement: the same reply, and agreement is kept. -/
theorem Agrees.exec (stmt : TxStmt κ) :
    (s.exec ops stmt).1 = (r.exec stmt).1 ∧ Agrees ops (s.exec ops stmt).2 (r.exec stmt).2 := by
  cases r with
  | idle =>
    have hctx : s.txContext = none := h.context
    cases stmt with
    | begin ctx =>
      simp only [HeapSession.exec, handleBegin, hctx]
      exact ⟨rfl, h.begin ctx⟩
    | write emit rows => exact ⟨rfl, h.write emit rows⟩
    | savepoint stmt | release stmt | rollbackTo stmt | commit flush | rollback =>
      simp only [HeapSession.exec, handleSavepoint, handleReleaseSavepoint, handleRollbackTo,
        handleCommit, handleRollback, hctx]
      exact ⟨rfl, h⟩
  | active now live =>
    have hctx : s.txContext = some now.context := h.context
    have hopen : (Reference.active now live) ≠ .idle := by simp
    cases stmt with
    | begin ctx =>
      simp only [HeapSession.exec, handleBegin, hctx]
      exact ⟨rfl, h⟩
    | write emit rows => exact ⟨rfl, h.write emit rows⟩
    | savepoint stmt =>
      simp only [HeapSession.exec, handleSavepoint, hctx, Reference.exec, Reference.named]
      cases parseSavepointName stmt with
      | error e => exact ⟨rfl, h⟩
      | ok name => exact ⟨rfl, h.pushSavepoint name⟩
    | release stmt =>
      simp only [HeapSession.exec, handleReleaseSavepoint, hctx, Reference.exec,
        Reference.named]
      cases parseSavepointName stmt with
      | error e => exact ⟨rfl, h⟩
      | ok name =>
        have hstep := h.releaseSavepoint hopen name
        dsimp only
        generalize s.releaseSavepoint name = found at hstep ⊢
        generalize Reference.release name _ = expected at hstep ⊢
        cases hstep with
        | some h' => exact ⟨rfl, h'⟩
        | none => exact ⟨rfl, h⟩
    | rollbackTo stmt =>
      simp only [HeapSession.exec, handleRollbackTo, hctx, Reference.exec, Reference.named]
      cases parseSavepointName stmt with
      | error e => exact ⟨rfl, h⟩
      | ok name =>
        have hstep := h.rollbackToSavepoint hopen name
        dsimp only
        generalize s.rollbackToSavepoint ops name = found at hstep ⊢
        generalize Reference.restore name _ = expected at hstep ⊢
        cases hstep with
        | some h' => exact ⟨rfl, h'⟩
        | none => exact ⟨rfl, h⟩
    | commit flush =>
      simp only [HeapSession.exec, handleCommit, hctx]
      cases flush with
      | none | some e => exact ⟨rfl, .clear s⟩
    | rollback =>
      simp only [HeapSession.exec, handleRollback, hctx]
      exact ⟨rfl, .clear s⟩

theorem Agrees.run (stmts : List (TxStmt κ)) :
    (runStmts (HeapSession.exec ops) stmts s).1 = (runStmts Reference.exec stmts r).1 ∧
      Agrees ops (runStmts (HeapSession.exec ops) stmts s).2
        (runStmts Reference.exec stmts r).2 := by
  induction stmts generalizing s r with
  | nil => exact ⟨rfl, h⟩
  | cons stmt stmts ih =>
    obtain ⟨hr, hstep⟩ := h.exec stmt
    obtain ⟨hrs, hrun⟩ := ih hstep
    exact ⟨congrArg₂ List.cons hr hrs, hrun⟩

theorem Agrees.mem_dirtyRowPKs {table : String} {pk : Bytes} :
    pk ∈ s.dirtyRowPKs table ↔ (table, pk) ∈ r.dirty := by
  cases r with
  | idle =>
    have hctx : s.txContext = none := h.context
    simp [dirtyRowPKs, hctx, Reference.dirty]
  | active now live =>
    have hctx : s.txContext = some now.context := h.context
    rw [← h.dirty, dirtyRows, DirtyMaps.mem_rows, dirtyRowPKs, hctx]
    cases hl : (s.maps.entries s.txDirtyRows).lookup table with
    | none =>
      have hn : ∀ set, (table, set) ∉ s.maps.entries s.txDirtyRows := fun set hmem => by
        rw [h.separate.valid.lookup_eq_some_iff.mpr hmem] at hl
        simp at hl
      simp [hn]
    | some set =>
      constructor
      · exact fun hpk => ⟨set, h.separate.valid.lookup_eq_some_iff.mp hl, hpk⟩
      · rintro ⟨set', hmem, hpk⟩
        rw [h.separate.valid.lookup_eq_some_iff.mpr hmem] at hl
        cases hl
        exact hpk

end

/-- After every sequence of statements the session has the context and the dirty rows of the
reference, its frames hold the states the reference captured, and every statement was
answered alike. -/
theorem savepoints_follow_reference (ops : ContextOps κ σ) (stmts : List (TxStmt κ)) :
    (runStmts (HeapSession.exec ops) stmts new).1 =
        (runStmts Reference.exec stmts .idle).1 ∧
      (runStmts (HeapSession.exec ops) stmts new).2.txContext =
        (runStmts Reference.exec stmts .idle).2.context ∧
      (runStmts (HeapSession.exec ops) stmts new).2.dirtyRows =
        (runStmts Reference.exec stmts .idle).2.dirty ∧
      (∀ table pk,
        pk ∈ (runStmts (HeapSession.exec ops) stmts new).2.dirtyRowPKs table ↔
          (table, pk) ∈ (runStmts Reference.exec stmts .idle).2.dirty) ∧
      (runStmts (HeapSession.exec ops) stmts new).2.captured =
        (runStmts Reference.exec stmts .idle).2.captured ops := by
  obtain ⟨hrs, hrun⟩ := Agrees.run (Agrees.clear new : Agrees ops new.clearTxState .idle) stmts
  exact ⟨hrs, hrun.context, hrun.dirty, fun _ _ => hrun.mem_dirtyRowPKs, hrun.captured⟩

end HeapSession

/-! ## 4.  The session as a value

`Session` has no pointers.  Its operations are those of the reference, so the two models of
a session agree with each other through it. -/

namespace Session

def meaning (s : Session) : Reference (List Effect) :=
  match s.txContext with
  | none => .idle
  | some ctx =>
    .active ⟨ctx, {row | row ∈ s.txDirtyRows}⟩
      (s.savepoints.map fun frame =>
        (frame.name, ⟨frame.ctxSnap, {row | row ∈ frame.dirtyRows}⟩))

theorem meaning_markRowDirty (s : Session) (table : String) (pk : Bytes) :
    (s.markRowDirty table pk).meaning = s.meaning.write id [(table, pk)] := by
  cases hctx : s.txContext with
  | none => simp [markRowDirty, meaning, hctx, Reference.write]
  | some ctx =>
    simp only [markRowDirty, meaning, hctx]
    congr 2
    ext row
    simp

theorem meaning_pushSavepoint (s : Session) (name : String) :
    (s.pushSavepoint name).meaning = s.meaning.push name := by
  cases hctx : s.txContext with
  | none | some ctx => simp [pushSavepoint, meaning, hctx, Reference.push]

theorem meaning_releaseSavepoint {s : Session} {ctx : List Effect}
    (hctx : s.txContext = some ctx) (name : String) :
    (s.releaseSavepoint name).map meaning = s.meaning.release name := by
  simp only [releaseSavepoint, findSavepoint, meaning, hctx, Reference.release,
    List.dropWhile_map, Function.comp_def]
  cases s.savepoints.dropWhile fun frame => decide (frame.name ≠ name) with
  | nil => rfl
  | cons frame frames => simp [meaning]

theorem meaning_rollbackToSavepoint {s : Session} {ctx : List Effect}
    (hctx : s.txContext = some ctx) (name : String) :
    (s.rollbackToSavepoint name).map meaning = s.meaning.restore name := by
  simp only [rollbackToSavepoint, findSavepoint, meaning, hctx, Reference.restore,
    List.dropWhile_map, Function.comp_def]
  cases s.savepoints.dropWhile fun frame => decide (frame.name ≠ name) with
  | nil => rfl
  | cons frame frames => simp [meaning]

end Session

/-! ## 5.  The transaction of a connection -/

section Connection

open Session Conn

variable {c c' c₀ c₁ : Conn}

/-- A transaction that is open stays so, and the store is left alone. -/
def Isolated (c c' : Conn) : Prop :=
  c.session.txContext.isSome → c'.session.txContext.isSome ∧ c'.store = c.store

/-- For the reference it is a write. -/
def Wrote (c c' : Conn) : Prop :=
  Isolated c c' ∧ ∃ emit rows, c'.session.meaning = c.session.meaning.write emit rows

theorem wrote_self (c : Conn) : Wrote c c := by
  refine ⟨fun h => ⟨h, rfl⟩, id, [], ?_⟩
  cases c.session.meaning with
  | idle => rfl
  | active now live => simp [Reference.write]

theorem wrote_runWrite (c : Conn) (body : TxM Unit) : Wrote c (c.runWrite body).2 := by
  unfold runWrite Wrote Isolated
  cases htx : c.session.txContext with
  | none => exact ⟨fun h => absurd h Bool.false_ne_true, id, [], by simp [meaning, htx, Reference.write]⟩
  | some pending =>
    cases hb : body ⟨c.store, pending⟩ with
    | ok _ ctx | error e ctx =>
      refine ⟨fun _ => by simp [hb], fun _ => ctx.pending, [], ?_⟩
      simp [hb, meaning, htx, Reference.write]

theorem Wrote.markRowDirty (h : Wrote c c') (pk : Bytes) : Wrote c (c'.markRowDirty pk) := by
  obtain ⟨hs, emit, rows, hm⟩ := h
  refine ⟨fun ho => ?_, id ∘ emit, rows ++ [(c'.vtab.name, pk)], (meaning_markRowDirty ..).trans ?_⟩
  · rw [txContext_markRowDirty, store_markRowDirty]
    exact hs ho
  · rw [hm, Reference.write_write]

/-- A body runs, and if it succeeds its rows are marked. -/
theorem wrote_of_runWrite {α : Type} (body : TxM Unit) (a : α) {mark : Conn → Conn}
    (h : ∀ c', Wrote c c' → Wrote c (mark c')) :
    Wrote c (match c.runWrite body with
      | (.error e, c') => ((.error e : Except SqlError α), c')
      | (.ok _, c') => (.ok a, mark c')).2 := by
  have hb := wrote_runWrite c body
  rcases heq : c.runWrite body with ⟨_ | _, c'⟩ <;> rw [heq] at hb
  · exact hb
  · exact h c' hb

variable [Host]

theorem wrote_doInsert (c : Conn) (rowid : Int64) (cols : List Value) :
    Wrote c (doInsert rowid cols c).2 := by
  unfold doInsert
  cases insertTarget c.vtab rowid cols with
  | error e => exact wrote_self c
  | ok pk => exact wrote_of_runWrite _ _ fun _ h => h.markRowDirty pk

theorem wrote_doUpdate (c : Conn) (rowid : Int64) (cols : List Value) :
    Wrote c (doUpdate rowid cols c).2 := by
  unfold doUpdate
  cases updatePKs c.vtab rowid cols with
  | error e => exact wrote_self c
  | ok pks =>
    by_cases hne : pks.2 ≠ pks.1
    · simp only [if_pos hne]
      exact wrote_of_runWrite _ _ fun _ h => (h.markRowDirty pks.1).markRowDirty pks.2
    · simp only [if_neg hne]
      exact wrote_of_runWrite _ _ fun _ h => h.markRowDirty pks.2

theorem wrote_deleteRow (c : Conn) (rowid : Int64) : Wrote c (deleteRow rowid c).2 := by
  unfold deleteRow
  cases c.vtab.pkForRowID rowid with
  | none => exact wrote_self c
  | some pk => exact wrote_of_runWrite _ _ fun _ h => h.markRowDirty pk

namespace TxOp

/-- What a statement does to the transaction it is in.  One that is refused may have written. -/
def Means (r r' : Reference (List Effect)) : TxOp → Prop
  | savepoint name => r' = r.push name
  | release name => r' = (r.release name).getD r
  | rollbackTo name => r' = (r.restore name).getD r
  | _ => ∃ emit rows, r' = r.write emit rows

theorem follows (c : Conn) (op : TxOp) :
    Isolated c (op.step c) ∧ op.Means c.session.meaning (op.step c).session.meaning := by
  unfold Isolated
  cases op with
  | insert rowid cols => exact wrote_doInsert c rowid cols
  | update rowid cols => exact wrote_doUpdate c rowid cols
  | delete rowid => exact wrote_deleteRow c rowid
  | savepoint name =>
    simp only [Means, step, handleSavepoint]
    rw [← meaning_pushSavepoint]
    cases htx : c.session.txContext <;> simp [pushSavepoint, htx]
  | release name =>
    simp only [Means, step, handleReleaseSavepoint]
    cases htx : c.session.txContext with
    | none => simp [meaning, htx, Reference.release]
    | some pending =>
      rw [← meaning_releaseSavepoint htx, releaseSavepoint]
      cases findSavepoint name c.session.savepoints <;> simp [htx]
  | rollbackTo name =>
    simp only [Means, step, handleRollbackTo]
    cases htx : c.session.txContext with
    | none => simp [meaning, htx, Reference.restore]
    | some pending =>
      rw [← meaning_rollbackToSavepoint htx, rollbackToSavepoint]
      cases findSavepoint name c.session.savepoints <;> simp [htx]

def MeansAll : List TxOp → Reference (List Effect) → Reference (List Effect) → Prop
  | [], r, r' => r' = r
  | op :: ops, r, r' => ∃ m, op.Means r m ∧ MeansAll ops m r'

end TxOp

end Connection

end Swytch.Sql
