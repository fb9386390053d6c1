import Swytch.Sql.Value

/-!
# Observation predicates

A scan records a predicate over row tuples; every row write records a tuple.  A write
whose tuple satisfies a concurrent scan's predicate belongs to what the scan observed.
Evaluation is three-valued: a comparison with `NULL`, or between types that do not
compare, is unknown, and an unknown predicate does not match.  A column that is filled in
changes no definite answer.
-/

namespace Swytch.Sql

/-- The place of a double in numeric order, as the signed magnitude of its bits: the two
zeros share one place and a `NaN` has none. -/
def F64.order (f : F64) : Option ℤ :=
  let magnitude : ℤ := (f.bits &&& 0x7fffffffffffffff).toNat
  if magnitude > 0x7ff0000000000000 then none
  else if f.bits &&& 0x8000000000000000 ≠ 0 then some (-magnitude) else some magnitude

theorem and_topBit_ne_zero_iff (u : UInt64) :
    u &&& 0x8000000000000000 ≠ 0 ↔ 2 ^ 63 ≤ u.toNat := by
  have hnat : (u &&& 0x8000000000000000).toNat = (u.toNat.testBit 63).toNat * 2 ^ 63 := by
    exact Nat.and_two_pow u.toNat 63
  have hlt := u.toNat_lt
  rw [Ne, ← UInt64.toNat_inj, hnat, Nat.testBit_eq_decide_div_mod_eq]
  by_cases h : u.toNat / 2 ^ 63 % 2 = 1
  · simp only [h, decide_true, Bool.toNat_true, UInt64.toNat_zero]
    omega
  · simp only [h, decide_false, Bool.toNat_false, UInt64.toNat_zero]
    omega

/-- The place of a double, by the arithmetic of its bits. -/
theorem F64.order_eq (f : F64) :
    f.order = if ((f.bits.toNat % 2 ^ 63 : ℕ) : ℤ) > 0x7ff0000000000000 then none
      else if 2 ^ 63 ≤ f.bits.toNat then some (-((f.bits.toNat % 2 ^ 63 : ℕ) : ℤ))
      else some ((f.bits.toNat % 2 ^ 63 : ℕ) : ℤ) := by
  have hmag : (f.bits &&& 0x7fffffffffffffff).toNat = f.bits.toNat % 2 ^ 63 := by
    exact Nat.and_two_pow_sub_one_eq_mod f.bits.toNat 63
  simp only [F64.order, hmag, and_topBit_ne_zero_iff]

theorem F64.eq_of_order {f g : F64} {z : ℤ} (hf : f.order = some z) (hg : g.order = some z)
    (hz : z ≠ 0) : f = g := by
  have hlt := f.bits.toNat_lt
  have hlt' := g.bits.toNat_lt
  have hbs : f.bits.toNat = g.bits.toNat := by
    rw [F64.order_eq] at hf hg
    split_ifs at hf hg <;> rw [Option.some.injEq] at hf hg <;> omega
  calc f = ⟨f.bits⟩ := rfl
    _ = ⟨g.bits⟩ := by rw [UInt64.toNat_inj.mp hbs]
    _ = g := rfl

inductive CmpOp where
  | eq | lt | le | gt | ge
  deriving DecidableEq, Repr

inductive TypedValue where
  | null
  | int (i : Int64)
  | float (f : F64)
  | text (b : Bytes)
  | blob (b : Bytes)
  deriving DecidableEq, Repr

def typedValueFromSqlite : Value → TypedValue
  | .null | .unchanged => .null
  | .integer i => .int i
  | .float f => .float f
  | .text b => .text b
  | .blob b => .blob b

inductive Predicate where
  | bool (b : Bool)
  | and (children : List Predicate)
  | or (children : List Predicate)
  | not (child : Predicate)
  | cmp (col : ℕ) (op : CmpOp) (literal : TypedValue)
  | colCmp (col : ℕ) (op : CmpOp) (col2 : ℕ)
  | isNull (col : ℕ)
  deriving Repr

inductive WriteKind where
  | insert | update | delete
  deriving DecidableEq, Repr

structure RowWrite where
  table : String
  pk : Bytes
  kind : WriteKind
  cols : List TypedValue
  deriving DecidableEq, Repr

inductive TriState where
  | false | true | unknown
  deriving DecidableEq, Repr

namespace TriState

/-- One turn of the `AND` loop. -/
def and : TriState → TriState → TriState
  | .false, _ => .false
  | _, .false => .false
  | .true, r => r
  | .unknown, _ => .unknown

/-- One turn of the `OR` loop. -/
def or : TriState → TriState → TriState
  | .true, _ => .true
  | _, .true => .true
  | .false, r => r
  | .unknown, _ => .unknown

/-- Negation. -/
def not : TriState → TriState
  | .false => .true
  | .true => .false
  | .unknown => .unknown

/-- The second answer is the first one, if that is definite. -/
def Settles (a a' : TriState) : Prop := a = .unknown ∨ a' = a

theorem Settles.and {a b a' b' : TriState} (ha : Settles a a') (hb : Settles b b') :
    Settles (a.and b) (a'.and b') := by
  cases a <;> cases b <;> cases a' <;> simp_all [Settles, TriState.and]

theorem Settles.or {a b a' b' : TriState} (ha : Settles a a') (hb : Settles b b') :
    Settles (a.or b) (a'.or b') := by
  cases a <;> cases b <;> cases a' <;> simp_all [Settles, TriState.or]

end TriState

/-- `fromCmp`: whether an ordering satisfies an operator. -/
def fromCmp (c : Ordering) (op : CmpOp) : TriState :=
  let holds : Bool := match op with
    | .eq => c == .eq
    | .lt => c == .lt
    | .le => c != .gt
    | .gt => c == .gt
    | .ge => c != .lt
  if holds then .true else .false

def cmpFloat (a b : F64) : Ordering :=
  match a.order, b.order with
  | some x, some y => compare x y
  | _, _ => .eq

section Evaluate

variable [Host]

/-- `compareTyped`: integers and doubles are compared as doubles, any other two types not
at all. -/
def compareTyped (a : TypedValue) (op : CmpOp) (b : TypedValue) : TriState :=
  match a, b with
  | .int x, .int y => fromCmp (compare x y) op
  | .float x, .float y => fromCmp (cmpFloat x y) op
  | .text x, .text y => fromCmp (compare x y) op
  | .blob x, .blob y => fromCmp (compare x y) op
  | .int x, .float y => fromCmp (cmpFloat (Host.floatOfInt64 x) y) op
  | .float x, .int y => fromCmp (cmpFloat x (Host.floatOfInt64 y)) op
  | _, _ => .unknown

def evalCmp (col : ℕ) (op : CmpOp) (lit : TypedValue) (row : RowWrite) : TriState :=
  match row.cols[col]? with
  | none => .unknown
  | some left => if left = .null ∨ lit = .null then .unknown else compareTyped left op lit

def evalColCmp (leftCol : ℕ) (op : CmpOp) (rightCol : ℕ) (row : RowWrite) : TriState :=
  match row.cols[leftCol]?, row.cols[rightCol]? with
  | some l, some r => if l = .null ∨ r = .null then .unknown else compareTyped l op r
  | _, _ => .unknown

mutual

def evalTri : Predicate → RowWrite → TriState
  | .bool b, _ => if b then .true else .false
  | .and children, row => evalAnd children row
  | .or children, row => evalOr children row
  | .not child, row => (evalTri child row).not
  | .cmp col op lit, row => evalCmp col op lit row
  | .colCmp l op r, row => evalColCmp l op r row
  | .isNull col, row =>
    match row.cols[col]? with
    | none => .unknown
    | some v => if v = .null then .true else .false

/-- The `AND` loop of `evalTri`. -/
def evalAnd : List Predicate → RowWrite → TriState
  | [], _ => .true
  | p :: ps, row => (evalTri p row).and (evalAnd ps row)

/-- The `OR` loop of `evalTri`. -/
def evalOr : List Predicate → RowWrite → TriState
  | [], _ => .false
  | p :: ps, row => (evalTri p row).or (evalOr ps row)

end

def evaluate (p : Predicate) (row : RowWrite) : Bool := evalTri p row == .true

/-- A predicate that does not ask whether a column is `NULL`. -/
inductive NullFree : Predicate → Prop
  | bool (b : Bool) : NullFree (.bool b)
  | and {ps : List Predicate} (h : ∀ p ∈ ps, NullFree p) : NullFree (.and ps)
  | or {ps : List Predicate} (h : ∀ p ∈ ps, NullFree p) : NullFree (.or ps)
  | not {p : Predicate} (h : NullFree p) : NullFree (.not p)
  | cmp (col : ℕ) (op : CmpOp) (lit : TypedValue) : NullFree (.cmp col op lit)
  | colCmp (l : ℕ) (op : CmpOp) (r : ℕ) : NullFree (.colCmp l op r)

/-- The second tuple has the values of the first, and perhaps some for its `NULL`s. -/
def FillsIn (row row' : RowWrite) : Prop :=
  ∀ i : ℕ, ∀ v, row.cols[i]? = some v → v ≠ .null → row'.cols[i]? = some v

section Filling

open TriState List

variable {p : Predicate} {ps : List Predicate} {row row' : RowWrite}

theorem settles_evalAnd (h : ∀ p ∈ ps, Settles (evalTri p row) (evalTri p row')) :
    Settles (evalAnd ps row) (evalAnd ps row') := by
  induction ps with
  | nil => exact .inr rfl
  | cons p ps ih => exact (h p mem_cons_self).and (ih fun q hq => h q (mem_cons_of_mem _ hq))

theorem settles_evalOr (h : ∀ p ∈ ps, Settles (evalTri p row) (evalTri p row')) :
    Settles (evalOr ps row) (evalOr ps row') := by
  induction ps with
  | nil => exact .inr rfl
  | cons p ps ih => exact (h p mem_cons_self).or (ih fun q hq => h q (mem_cons_of_mem _ hq))

theorem settles_evalCmp (h : FillsIn row row') (col : ℕ) (op : CmpOp) (lit : TypedValue) :
    Settles (evalCmp col op lit row) (evalCmp col op lit row') := by
  unfold evalCmp
  split
  · exact .inl rfl
  · rename_i x hx
    split_ifs with hnull
    · exact .inl rfl
    · simp [h col x hx (not_or.mp hnull).1, hnull, Settles]

theorem settles_evalColCmp (h : FillsIn row row') (l : ℕ) (op : CmpOp) (r : ℕ) :
    Settles (evalColCmp l op r row) (evalColCmp l op r row') := by
  unfold evalColCmp
  split
  · rename_i x y hx hy
    split_ifs with hnull
    · exact .inl rfl
    · obtain ⟨hx', hy'⟩ := not_or.mp hnull
      simp [h l x hx hx', h r y hy hy', hnull, Settles]
  · exact .inl rfl

/-- **A column that is filled in changes no definite answer.** -/
theorem settles_of_fillsIn (hp : NullFree p) (h : FillsIn row row') :
    evalTri p row = .unknown ∨ evalTri p row' = evalTri p row := by
  induction hp with
  | bool b => exact .inr rfl
  | and _ ih => exact settles_evalAnd ih
  | or _ ih => exact settles_evalOr ih
  | not _ ih => exact ih.imp (congrArg TriState.not) (congrArg TriState.not)
  | cmp col op lit => exact settles_evalCmp h col op lit
  | colCmp l op r => exact settles_evalColCmp h l op r

end Filling

end Evaluate

/-- `a = 1`, of a row that has `1` for `a` and gets a second column. -/
theorem settles_second_column :
    @evalTri Host.inert (.cmp 0 .eq (.int 1)) ⟨"t", [], .insert, [.int 1, .text []]⟩ = .true :=
  (@settles_of_fillsIn Host.inert _ ⟨"t", [], .insert, [.int 1, .null]⟩ _ (.cmp ..) (by
    rintro (_ | _ | _) v h hv
    all_goals simp_all)).resolve_left (by decide)

end Swytch.Sql
