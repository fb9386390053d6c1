import Swytch.Sql.Effects

/-!
# Sessions

A session is inside a transaction exactly when it has a `txContext`; statements then
accumulate their effects there.  `txDirtyRows` is the set of rows the transaction has
written, kept for full scans.  A savepoint records both and restores both.
-/

namespace Swytch.Sql

structure SavepointFrame where
  name : String
  ctxSnap : List Effect
  dirtyRows : List (String × Bytes)

/-- The transactional part of `session`; `txContext` holds the pending effects. -/
structure Session where
  txContext : Option (List Effect)
  txDirtyRows : List (String × Bytes)
  savepoints : List SavepointFrame

namespace Session

/-- A session outside a transaction. -/
def idle : Session := ⟨none, [], []⟩

def markRowDirty (s : Session) (table : String) (pk : Bytes) : Session :=
  match s.txContext with
  | none => s
  | some _ => { s with txDirtyRows := s.txDirtyRows.insert (table, pk) }

def dirtyRowPKs (s : Session) (table : String) : List Bytes :=
  match s.txContext with
  | none => []
  | some _ => s.txDirtyRows.filterMap fun (t, pk) => if t = table then some pk else none

def clearTxState (_ : Session) : Session := idle

/-- `pushSavepoint`; the newest frame is the head of the stack. -/
def pushSavepoint (s : Session) (name : String) : Session :=
  match s.txContext with
  | none => s
  | some ctx => { s with savepoints := ⟨name, ctx, s.txDirtyRows⟩ :: s.savepoints }

/-- `findSavepoint`: the stack from the newest frame of the given name on. -/
def findSavepoint (name : String) (frames : List SavepointFrame) : List SavepointFrame :=
  frames.dropWhile fun frame => frame.name ≠ name

/-- `releaseSavepoint`; `none` when no frame has the name. -/
def releaseSavepoint (s : Session) (name : String) : Option Session :=
  match findSavepoint name s.savepoints with
  | [] => none
  | _ :: frames => some { s with savepoints := frames }

/-- `rollbackToSavepoint`; `none` when no frame has the name. -/
def rollbackToSavepoint (s : Session) (name : String) : Option Session :=
  match findSavepoint name s.savepoints with
  | [] => none
  | frame :: frames =>
    some ⟨some frame.ctxSnap, frame.dirtyRows, frame :: frames⟩

end Session

end Swytch.Sql
