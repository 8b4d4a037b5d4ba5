import Cios.Support.Text
import Mathlib.Data.Rat.Defs

/-!
# Alarm — expressions

The compiled expressions of alarm rules (`pkg/alarm/expr.go`) over the arithmetic nodes they share
with the derived quantities (`pkg/arith/arith.go`), and their evaluation against a snapshot of point
values.

The numbers are the source's `float64`.  Nothing here depends on their rounding, so they are left
open (`Num`): the operations and the three comparisons the code uses, with no law.
-/

namespace Cios.Alarm
open Text

/-- The operations of the numbers that expressions compute with. -/
class Num (V : Type) where
  zero : V
  one : V
  add : V → V → V
  sub : V → V → V
  mul : V → V → V
  div : V → V → V
  lt : V → V → Bool
  le : V → V → Bool
  eq : V → V → Bool

instance : Num Rat where
  zero := 0
  one := 1
  add := (· + ·)
  sub := (· - ·)
  mul := (· * ·)
  div := (· / ·)
  lt a b := decide (a < b)
  le a b := decide (a ≤ b)
  eq a b := decide (a = b)

inductive BinOp where
  | add
  | sub
  | mul
  | div
deriving DecidableEq, Repr

inductive CmpOp where
  | lt
  | le
  | gt
  | ge
  | eq
  | ne
deriving DecidableEq, Repr

inductive Connective where
  | and
  | or
deriving DecidableEq, Repr

mutual

/-- An operand: arithmetic, or a parenthesised condition read as 1 or 0. -/
inductive Node (V : Type) where
  | num (v : V)
  | ident (name : Bytes)
  | binOp (op : BinOp) (l r : Node V)
  | logical (kind : Connective) (xs : Clauses V)

inductive Clauses (V : Type) where
  | nil
  | cons (op : CmpOp) (lhs rhs : Node V) (rest : Clauses V)

end

/-- A compiled expression: comparisons under one connective. -/
structure Compiled (V : Type) where
  kind : Connective
  xs : Clauses V

/-- Relative points and their values. -/
abbrev Snapshot (V : Type) := Bytes → Option V

inductive EvalError where
  /-- `ErrUndefined`, for the alarm rules `ErrMissingPoint`. -/
  | undefined
  | divisionByZero
deriving DecidableEq, Repr

section Eval

variable {V : Type} [Num V]

def BinOp.apply (op : BinOp) (l r : V) : Except EvalError V :=
  match op with
  | .add => .ok (Num.add l r)
  | .sub => .ok (Num.sub l r)
  | .mul => .ok (Num.mul l r)
  | .div => if Num.eq r Num.zero then .error .divisionByZero else .ok (Num.div l r)

def CmpOp.holds (op : CmpOp) (x y : V) : Bool :=
  match op with
  | .lt => Num.lt x y
  | .le => Num.le x y
  | .gt => Num.lt y x
  | .ge => Num.le y x
  | .eq => Num.eq x y
  | .ne => !Num.eq x y

def boolToFloat (b : Bool) : V := if b then Num.one else Num.zero

mutual

def Node.eval (snap : Snapshot V) : Node V → Except EvalError V
  | .num v => .ok v
  | .ident name =>
    match snap name with
    | some v => .ok v
    | none => .error .undefined
  | .binOp op l r => do
    let x ← l.eval snap
    let y ← r.eval snap
    op.apply x y
  | .logical kind xs => do
    let b ← xs.eval snap kind
    .ok (boolToFloat b)

/-- Left to right, up to the first comparison that decides. -/
def Clauses.eval (snap : Snapshot V) (kind : Connective) : Clauses V → Except EvalError Bool
  | .nil => .ok (kind = .and)
  | .cons op lhs rhs rest => do
    let x ← lhs.eval snap
    let y ← rhs.eval snap
    match kind, op.holds x y with
    | .or, true => .ok true
    | .and, false => .ok false
    | _, _ => rest.eval snap kind

end

theorem eval_single {snap : Snapshot V} (op : CmpOp) (l r : Node V) :
    (Clauses.cons op l r .nil).eval snap .and = (do
      let x ← l.eval snap
      let y ← r.eval snap
      .ok (op.holds x y)) := by
  rw [Clauses.eval]
  cases l.eval snap with
  | error e => rfl
  | ok x =>
    cases r.eval snap with
    | error e => rfl
    | ok y =>
      simp only [bind, Except.bind]
      cases op.holds x y <;> rfl

def Compiled.eval (e : Compiled V) (snap : Snapshot V) : Except EvalError Bool :=
  e.xs.eval snap e.kind

mutual

/-- The points an operand reads, in order, each once, after those already seen. -/
def Node.collectRefs : Node V → List Bytes → List Bytes
  | .num _, seen => seen
  | .ident name, seen => if seen.contains name then seen else seen ++ [name]
  | .binOp _ l r, seen => r.collectRefs (l.collectRefs seen)
  | .logical _ xs, seen => xs.collectRefs seen

def Clauses.collectRefs : Clauses V → List Bytes → List Bytes
  | .nil, seen => seen
  | .cons _ lhs rhs rest, seen => rest.collectRefs (rhs.collectRefs (lhs.collectRefs seen))

end

def Compiled.refs (e : Compiled V) : List Bytes := e.xs.collectRefs []

end Eval

end Cios.Alarm
