import Swytch.Sql.Statements

/-!
# Transaction control

`BEGIN`, `COMMIT`, `ROLLBACK` and the savepoint statements move the session of a connection
between its transactional states.  `COMMIT` is the flush that fork-choice accepts: the
effects of the context become part of the committed store, one after the other.
-/

namespace Swytch.Sql

open KeyedStore

namespace Conn

/-- `handleBegin`; `none` when a transaction is open. -/
def handleBegin (c : Conn) : Option Conn :=
  match c.session.txContext with
  | some _ => none
  | none => some { c with session.txContext := some [] }

/-- `handleCommit` whose flush succeeds. -/
def handleCommit (c : Conn) : Conn :=
  match c.session.txContext with
  | none => c
  | some pending =>
    { c with store := applyAll (dataWrites pending) c.store, session := c.session.clearTxState }

def handleRollback (c : Conn) : Conn :=
  match c.session.txContext with
  | none => c
  | some _ => { c with session := c.session.clearTxState }

/-- `handleSavepoint`; `none` outside a transaction. -/
def handleSavepoint (name : String) (c : Conn) : Option Conn :=
  match c.session.txContext with
  | none => none
  | some _ => some { c with session := c.session.pushSavepoint name }

/-- `handleReleaseSavepoint`; `none` outside a transaction or for an unknown name. -/
def handleReleaseSavepoint (name : String) (c : Conn) : Option Conn :=
  match c.session.txContext with
  | none => none
  | some _ => (c.session.releaseSavepoint name).map fun session => { c with session }

/-- `handleRollbackTo`; `none` outside a transaction or for an unknown name. -/
def handleRollbackTo (name : String) (c : Conn) : Option Conn :=
  match c.session.txContext with
  | none => none
  | some _ => (c.session.rollbackToSavepoint name).map fun session => { c with session }

end Conn

end Swytch.Sql
