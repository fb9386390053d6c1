import Swytch.Lib.KeyedStore
import Swytch.Sql.Keys
import Swytch.Sql.Predicate

/-!
# Effects and transactional contexts

The engine keeps a keyed map: a key holds fields, `INSERT` sets a field and `REMOVE`
deletes it.  A context collects the effects of a transaction over the committed map;
reads through it see its own pending data effects.  A body that fails leaves the effects
it has emitted in its context: it is the caller that discards the context or keeps it.
-/

namespace Swytch.Sql

open KeyedStore

/-- The reduced state of one key (`NetAdds`). -/
abbrev Fields := KeyedStore.Fields Bytes Payload

/-- The committed map. -/
abbrev Store := KeyedStore.Store Bytes Bytes Payload

/-- A keyed `INSERT` (`put`) or `REMOVE` (`drop`). -/
abbrev Write := KeyedStore.Write Bytes Bytes Payload

/-- What a body emits: a data effect, a `Noop` that pins the version of a key it has read,
a row write and an observation at the table's schema key. -/
inductive Effect where
  | data (w : Write)
  | noop (key : Bytes)
  | rowWrite (key : Bytes) (rw : RowWrite)
  | observation (key : Bytes) (pred : Predicate)

/-- The data effects among the effects of a context. -/
def dataWrites (es : List Effect) : List Write :=
  es.filterMap fun e => match e with
    | .data w => some w
    | _ => none

@[simp] theorem dataWrites_nil : dataWrites [] = [] := rfl

@[simp] theorem dataWrites_data (w : Write) (es : List Effect) :
    dataWrites (.data w :: es) = w :: dataWrites es := rfl

@[simp] theorem dataWrites_noop (key : Bytes) (es : List Effect) :
    dataWrites (.noop key :: es) = dataWrites es := rfl

@[simp] theorem dataWrites_rowWrite (key : Bytes) (rw : RowWrite) (es : List Effect) :
    dataWrites (.rowWrite key rw :: es) = dataWrites es := rfl

@[simp] theorem dataWrites_observation (key : Bytes) (p : Predicate) (es : List Effect) :
    dataWrites (.observation key p :: es) = dataWrites es := rfl

@[simp] theorem dataWrites_append (es fs : List Effect) :
    dataWrites (es ++ fs) = dataWrites es ++ dataWrites fs := by
  simp [dataWrites]

@[simp] theorem dataWrites_map_data (ws : List Write) : dataWrites (ws.map .data) = ws := by
  induction ws with
  | nil => rfl
  | cons w ws ih => simp [ih]

/-- The errors the layer returns. -/
inductive SqlError where
  /-- `ErrNoSuchTable`. -/
  | noSuchTable (table : String)
  /-- `ErrNoSuchIndex`. -/
  | noSuchIndex (index : String)
  /-- `ErrUniqueViolation`. -/
  | uniqueViolation
  /-- `ErrUniqueViolation` from `CREATE UNIQUE INDEX`, with the rows that collide. -/
  | uniqueCollision (index : String) (otherPK pk : Bytes)
  /-- `CREATE INDEX` names a column the table does not have. -/
  | indexColumnNotFound (index column table : String)
  /-- `CREATE INDEX` names a column twice. -/
  | indexColumnDuplicate (index column : String)
  /-- `CREATE INDEX` of a name the table has already. -/
  | indexExists (index : String)
  /-- A stored schema lacks a field. -/
  | schemaMissing (table field : String)
  /-- A stored schema document does not unmarshal. -/
  | schemaUnmarshal (table field : String)
  /-- An identifier is empty where `emitSchema` or `emitIndexMetadata` needs it. -/
  | missingID (name : String)
  /-- `loadIndexSchema` finds no identifier. -/
  | indexMissingID (index : String)
  /-- `hasPK` is false. -/
  | noPrimaryKey (table : String)
  /-- The tuple of an `INSERT` or `UPDATE` does not have one value per column. -/
  | columnCount (statement : String) (got want : ℕ)
  /-- `encodePK` is given as many values as affinities or fails. -/
  | pkArity (values affinities : ℕ)
  /-- `primary key value cannot be NULL`, at a column of the key. -/
  | nullPrimaryKey (table column : String)
  /-- A rowid no cursor of the session has yielded. -/
  | unknownRowid (statement : String) (rowid : Int64)
  /-- A plan is run with too few or too many arguments. -/
  | planArgs (got want : ℕ)
  /-- A plan names an index the schema does not have, or one with a missing column. -/
  | planIndex (index : String)
  /-- `ErrTableExists`. -/
  | tableExists (table : String)
  /-- `ErrTableExists` from `CREATE VIEW`: the name is in use by a table. -/
  | nameInUse (name : String)
  /-- `ErrNoSuchView`. -/
  | noSuchView (view : String)
  /-- `ErrViewExists`. -/
  | viewExists (view : String)
  /-- A stored view lacks its body. -/
  | viewMissing (view : String)
  /-- `emitView` is given an empty name or body. -/
  | viewEmpty (view : String)
  /-- `ALTER TABLE` names a column the table does not have. -/
  | noSuchColumn (column : String)
  /-- `RENAME COLUMN` to a name that is taken. -/
  | columnExists (column : String)
  /-- `ADD COLUMN` of a name that is taken. -/
  | duplicateColumn (column : String)
  /-- `DROP COLUMN` of a key column. -/
  | dropKeyColumn (column : String)
  /-- `ADD COLUMN NOT NULL` without a `DEFAULT`. -/
  | notNullNeedsDefault (column : String)
  /-- `ADD COLUMN NOT NULL DEFAULT NULL`. -/
  | notNullDefaultNull (column : String)
  deriving DecidableEq, Repr

/-- `engine.ScanKeys`: the committed keys after `after` that match a pattern, ascending. -/
def scanKeys [Keytrie] (store : Store) (after pattern : Bytes) : List Bytes :=
  store.keys.filter fun key => compare after key == .lt && Keytrie.matchGlob pattern key

/-- A transactional context: the committed map it reads and the effects it has
collected. -/
structure Ctx where
  base : Store
  pending : List Effect

namespace Ctx

/-- The map a read through the context sees. -/
def view (c : Ctx) : Store := applyAll (dataWrites c.pending) c.base

/-- The context after some more effects. -/
def emitAll (c : Ctx) (es : List Effect) : Ctx := { c with pending := c.pending ++ es }

@[simp] theorem emitAll_base (c : Ctx) (es : List Effect) : (c.emitAll es).base = c.base := rfl

@[simp] theorem emitAll_pending (c : Ctx) (es : List Effect) :
    (c.emitAll es).pending = c.pending ++ es := rfl

@[simp] theorem emitAll_nil (c : Ctx) : c.emitAll [] = c := by simp [emitAll]

@[simp] theorem emitAll_emitAll (c : Ctx) (es fs : List Effect) :
    (c.emitAll es).emitAll fs = c.emitAll (es ++ fs) := by
  simp [emitAll]

theorem view_emitAll (c : Ctx) (es : List Effect) :
    (c.emitAll es).view = applyAll (dataWrites es) c.view := by
  simp [view, applyAll_append]

@[simp] theorem view_fresh (s : Store) : (Ctx.mk s []).view = s := rfl

end Ctx

variable {ι α : Type} {e : SqlError} {store : Store} {c : Ctx}

/-- The body of a read-modify-write. -/
abbrev TxM := EStateM SqlError Ctx

variable {a : α} {body : TxM α}

namespace TxM

/-- `ctx.GetSnapshot`: the fields of a key, `none` for a key that was never written. -/
def getSnapshot (key : Bytes) : TxM (Option Fields) := fun c => .ok c.view[key]? c

/-- `engine.ScanKeys` inside a body: it sees committed keys only. -/
def scanCommitted [Keytrie] (after pattern : Bytes) : TxM (List Bytes) :=
  fun c => .ok (scanKeys c.base after pattern) c

def emit (e : Effect) : TxM Unit := fun c => .ok () (c.emitAll [e])

/-! Running a body, step by step. -/

section Run

variable {c' : Ctx} {β : Type}

@[simp] theorem run_pure (a : α) (c : Ctx) : (pure a : TxM α) c = .ok a c := rfl

@[simp] theorem run_throw (e : SqlError) (c : Ctx) : (throw e : TxM α) c = .error e c := rfl

theorem run_bind (m : TxM α) (f : α → TxM β) (c : Ctx) :
    (m >>= f) c = match m c with
      | .ok a c' => f a c'
      | .error e c' => .error e c' := by
  show EStateM.bind m f c = _
  rw [EStateM.bind]
  cases m c <;> rfl

variable {f : α → TxM β} {m : TxM α}

theorem run_bind_ok (h : m c = .ok a c') : (m >>= f) c = f a c' := by
  rw [run_bind, h]

theorem run_bind_error (h : m c = .error e c') : (m >>= f) c = .error e c' := by
  rw [run_bind, h]

@[simp] theorem run_getSnapshot_bind (key : Bytes) (f : Option Fields → TxM β) (c : Ctx) :
    (getSnapshot key >>= f) c = f c.view[key]? c := rfl

@[simp] theorem run_scanCommitted_bind [Keytrie] (after pattern : Bytes)
    (f : List Bytes → TxM β) (c : Ctx) :
    (scanCommitted after pattern >>= f) c = f (scanKeys c.base after pattern) c := rfl

@[simp] theorem run_emit (e : Effect) (c : Ctx) : emit e c = .ok () (c.emitAll [e]) := rfl

@[simp] theorem run_emit_bind (e : Effect) (f : Unit → TxM β) (c : Ctx) :
    (emit e >>= f) c = f () (c.emitAll [e]) := rfl

theorem run_ofExcept (x : Except SqlError α) (c : Ctx) :
    (ofExcept x : TxM α) c = match x with
      | .ok a => .ok a c
      | .error e => .error e c := by
  cases x <;> rfl

@[simp] theorem run_throw_bind (e : SqlError) (f : α → TxM β) (c : Ctx) :
    ((throw e : TxM α) >>= f) c = .error e c := rfl

/-- What follows a successful step. -/
theorem run_bind_eq_ok {b : β} :
    (m >>= f) c = .ok b c' ↔ ∃ a c₁, m c = .ok a c₁ ∧ f a c₁ = .ok b c' := by
  rw [run_bind]
  cases h : m c with
  | ok a c₁ | error e c₁ => simp

end Run

/-- A loop whose turns do not depend on the context. -/
theorem run_forM_flatMap {l : List ι} {g : ι → TxM Unit} {f : ι → List Effect}
    (h : ∀ i ∈ l, ∀ c, g i c = .ok () (c.emitAll (f i))) (c : Ctx) :
    (forM l g) c = .ok () (c.emitAll (l.flatMap f)) := by
  induction l generalizing c with
  | nil => simp
  | cons i l ih =>
    rw [List.forM_cons, run_bind_ok (h i (List.mem_cons_self ..) c),
      ih (fun j hj => h j (List.mem_cons_of_mem _ hj)), Ctx.emitAll_emitAll]
    rfl

theorem run_forM_emit (l : List ι) (f : ι → Effect) (c : Ctx) :
    (forM l fun i => emit (f i)) c = .ok () (c.emitAll (l.map f)) := by
  induction l generalizing c with
  | nil => simp
  | cons i l ih => simp [ih]

/-! ## What a body adds to its context -/

section Emits

variable {es : List Effect} {β : Type} {P Q R : Effect → Prop} {m : TxM α} {f : α → TxM β}

/-- Run in `c`, the body adds effects that satisfy `P` when it succeeds, and effects that
satisfy `Q` when it fails. -/
def Emits (P Q : Effect → Prop) (c : Ctx) (m : TxM α) : Prop :=
  match m c with
  | .ok _ c' => ∃ es, c' = c.emitAll es ∧ ∀ e ∈ es, P e
  | .error _ c' => ∃ es, c' = c.emitAll es ∧ ∀ e ∈ es, Q e

theorem emits_of_ok (h : m c = .ok a (c.emitAll es)) (hes : ∀ e ∈ es, P e) : Emits P Q c m := by
  rw [Emits, h]
  exact ⟨es, rfl, hes⟩

theorem emits_of_error (h : m c = .error e (c.emitAll es)) (hes : ∀ e ∈ es, Q e) :
    Emits P Q c m := by
  rw [Emits, h]
  exact ⟨es, rfl, hes⟩

theorem emits_pure (a : α) : Emits P Q c (pure a : TxM α) :=
  ⟨[], (Ctx.emitAll_nil c).symm, by simp⟩

/-- What was added before a body stays there, whether the body succeeds or not. -/
theorem Emits.of_run {m' : TxM α} (h : m c = m' (c.emitAll es))
    (hP : ∀ e ∈ es, P e) (hQ : ∀ e ∈ es, Q e) (hm : Emits P Q (c.emitAll es) m') :
    Emits P Q c m := by
  have happend {R : Effect → Prop} {fs : List Effect} (hes : ∀ e ∈ es, R e)
      (hfs : ∀ e ∈ fs, R e) : ∀ e ∈ es ++ fs, R e := by
    intro e he
    rcases List.mem_append.mp he with he | he
    · exact hes e he
    · exact hfs e he
  unfold Emits at hm ⊢
  rw [h]
  cases hrun : m' (c.emitAll es) with
  | ok a c' =>
    rw [hrun] at hm
    obtain ⟨fs, rfl, hfs⟩ := hm
    exact ⟨es ++ fs, Ctx.emitAll_emitAll .., happend hP hfs⟩
  | error e c' =>
    rw [hrun] at hm
    obtain ⟨fs, rfl, hfs⟩ := hm
    exact ⟨es ++ fs, Ctx.emitAll_emitAll .., happend hQ hfs⟩

/-- A step and what follows it. -/
theorem Emits.bind (hm : Emits R Q c m) (hP : ∀ e, R e → P e) (hQ : ∀ e, R e → Q e)
    (hf : ∀ a c', m c = .ok a c' → Emits P Q c' (f a)) : Emits P Q c (m >>= f) := by
  unfold Emits at hm
  cases hrun : m c with
  | ok a c' =>
    rw [hrun] at hm
    obtain ⟨es, rfl, hes⟩ := hm
    exact (hf a _ hrun).of_run (run_bind_ok hrun) (fun e he => hP e (hes e he))
      fun e he => hQ e (hes e he)
  | error e c' =>
    rw [hrun] at hm
    obtain ⟨es, rfl, hes⟩ := hm
    exact emits_of_error (run_bind_error hrun) hes

end Emits

end TxM

/-- `runRMW` without contention: the body runs in a fresh context; its effects are flushed
when it succeeds and the context is aborted when it fails. -/
def runRMW {α : Type} (store : Store) (body : TxM α) : Except SqlError α × Store :=
  match body ⟨store, []⟩ with
  | .ok a c => (.ok a, c.view)
  | .error e _ => (.error e, store)

theorem runRMW_of_ok (h : body ⟨store, []⟩ = .ok a c) : runRMW store body = (.ok a, c.view) := by
  simp [runRMW, h]

theorem runRMW_of_error (h : body ⟨store, []⟩ = .error e c) :
    runRMW store body = (.error e, store) := by
  simp [runRMW, h]

end Swytch.Sql
