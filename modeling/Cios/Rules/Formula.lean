import Cios.Alarm.Refs
import Cios.Arith.Parse
import Cios.Support.Effect

/-!
# Rules — formulas of derived quantities

A derived quantity is defined by an arithmetic formula over relative points
(`pkg/rules/formula.go`), compiled once when the dictionary is loaded (`pkg/rules/derived.go`).  A
formula has no comparison in it, so that evaluating it reads every point it refers to
(`Formula.refs_present`) and nothing else (`Formula.eval_congr`).
-/

namespace Cios.Rules
open Text
open Effect (bind_eq_ok)
open Cios.Alarm (Num Node Snapshot EvalError BinOp)

variable {V : Type}

/-- Numbers, points and the four operations. -/
def Arithmetic : Node V → Prop
  | .num _ => True
  | .ident _ => True
  | .binOp _ l r => Arithmetic l ∧ Arithmetic r
  | .logical _ _ => False

/-- A compiled formula (`arith.Node`). -/
structure Formula (V : Type) where
  root : Node V
  arithmetic : Arithmetic root

def Formula.refs (f : Formula V) : List Bytes := f.root.collectRefs []

section Eval

variable [Num V]

def Formula.eval (f : Formula V) (inputs : Snapshot V) : Except EvalError V := f.root.eval inputs

/-- `arith.Parse` builds only arithmetic. -/
def Formula.builder : Arith.Builder V (Formula V) where
  num v := ⟨.num v, trivial⟩
  ident name := ⟨.ident name, trivial⟩
  binOp op l r := ⟨.binOp op l.root r.root, l.arithmetic, r.arithmetic⟩
  group f := f

def parseFormula (parseFloat : Bytes → Option V) (s : Bytes) :
    Except Arith.ParseError (Formula V) :=
  Arith.parseWith parseFloat Formula.builder s

end Eval

/-! ### Definitions in scope -/

/-- `[a-z0-9.]+` without a leading digit and without `..`. -/
def pureIdent (r : Bytes) : Bool :=
  r ≠ [] && !r.head?.any isDigit && r.all (fun c => isAlnum c || c == '.') && !contains ".." r

def allPureIdents (refs : List Bytes) : Bool := refs.all pureIdent

/-- A derived quantity in scope. -/
structure Derived (V : Type) where
  name : Bytes
  hosts : List Bytes
  formula : Formula V
  pure_refs : allPureIdents formula.refs = true

def Derived.refs (d : Derived V) : List Bytes := d.formula.refs

/-- An entry of `derived` that `LoadDerived` keeps: not of a site, with arithmetic over relative
points. -/
def loadDerived [Num V] (parseFloat : Bytes → Option V) (name : Bytes) (host : List Bytes)
    (formula : Bytes) : Option (Derived V) :=
  if host.contains "site" then none
  else
    match parseFormula parseFloat formula with
    | .error _ => none
    | .ok f => if h : allPureIdents f.refs = true then some ⟨name, host, f, h⟩ else none

theorem Derived.ne_nil_of_mem_refs {d : Derived V} {r : Bytes} (h : r ∈ d.refs) : r ≠ [] := by
  have hr : pureIdent r = true := List.all_eq_true.mp d.pure_refs r h
  rintro rfl
  simp [pureIdent] at hr

/-! ### What an evaluation reads -/

variable [Num V] {snap snap' : Snapshot V}

theorem eval_binOp_ok {op : BinOp} {l r : Node V} {v : V}
    (h : (Node.binOp op l r).eval snap = .ok v) :
    ∃ x y, l.eval snap = .ok x ∧ r.eval snap = .ok y ∧ op.apply x y = .ok v := by
  obtain ⟨x, hl, h⟩ := bind_eq_ok h
  obtain ⟨y, hr, h⟩ := bind_eq_ok h
  exact ⟨x, y, hl, hr, h⟩

theorem eval_reads : ∀ {n : Node V}, Arithmetic n → ∀ {v : V}, n.eval snap = .ok v →
    ∀ r ∈ n.collectRefs [], ∃ x, snap r = some x
  | .num v, _, _, _, r, hr => by simp [Node.collectRefs] at hr
  | .ident name, _, v, h, r, hr => by
    obtain rfl : r = name := by simpa [Node.collectRefs] using hr
    cases hs : snap r with
    | some x => exact ⟨x, rfl⟩
    | none => simp [Node.eval, hs] at h
  | .binOp op l r, ha, v, h, x, hx => by
    obtain ⟨a, b, hl, hr, -⟩ := eval_binOp_ok h
    rcases r.mem_collectRefs.mp hx with hx | hx
    · exact eval_reads ha.1 hl x hx
    · exact eval_reads ha.2 hr x hx

theorem Formula.refs_present {f : Formula V} {v : V} (h : f.eval snap = .ok v) :
    ∀ r ∈ f.refs, ∃ x, snap r = some x :=
  eval_reads f.arithmetic h

theorem Formula.eval_congr {f : Formula V} (h : ∀ r ∈ f.refs, snap r = snap' r) :
    f.eval snap = f.eval snap' :=
  (f.root.reads (List.Subset.refl _)).agree snap snap' h

end Cios.Rules
