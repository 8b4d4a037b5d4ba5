import Cios.Alarm.Expr
import Cios.Support.Parse

/-!
# Arithmetic — the parser of derived quantities

`arith.Parse` (`pkg/arith/arith.go`) reads sums of products of signed operands; an operand is a
number, an identifier or a parenthesised sum.  It works on what is left of the input, the source's
`p.src[p.pos:]`, and its positions are the lengths of what was read.  Reading a number is left open
(`parseFloat`).

The source forgets the parentheses.  The parser here builds through a `Builder`, so that the same
reading also gives the tree with its parentheses (`Expr`), of which every other result is a fold
(`parseWith_fold`).  A parse never runs out of fuel (`parseWith_ne_outOfFuel`).
-/

namespace Cios.Arith
open Text List
open Parse
open Cios.Alarm (BinOp Node)

inductive ParseError where
  | empty
  | trailing (rest : Bytes)
  | unexpectedEnd
  | unaryMinusAlone
  | unaryPlusAlone
  | unexpectedChar (rest : Bytes)
  | expectedClose (rest : Bytes)
  | badNumber (lit : Bytes)
  | emptyIdent (rest : Bytes)
  | invalidIdent (name : Bytes)
  /-- Not in the source: the depth or a loop of the model is used up. -/
  | outOfFuel
deriving DecidableEq, Repr

/-- What a parse makes of numbers, identifiers, operations and parentheses. -/
structure Builder (V N : Type) where
  num : V → N
  ident : Bytes → N
  binOp : BinOp → N → N → N
  group : N → N

def isNumberByte (c : UInt8) : Bool :=
  isDigit c || c == '.' || c == 'e' || c == 'E' || c == '+' || c == '-'

def isIdentByte (c : UInt8) : Bool :=
  isLower c || isUpper c || isDigit c || c == '.' || c == '_'

def validIdent (s : Bytes) : Bool :=
  s ≠ [] && !(s.head?.any isDigit) && !contains ".." s && s.all isIdentByte

def addOp (c : UInt8) : Option BinOp :=
  if c = '+' then some .add else if c = '-' then some .sub else none

def mulOp (c : UInt8) : Option BinOp :=
  if c = '*' then some .mul else if c = '/' then some .div else none

def minusOne {V : Type} [Alarm.Num V] : V := Alarm.Num.sub Alarm.Num.zero Alarm.Num.one

section Parser

variable {V N : Type} [Alarm.Num V] (parseFloat : Bytes → Option V) (B : Builder V N)

def parseNumber : Parser ParseError N := fun s =>
  let lit := s.takeWhile isNumberByte
  match parseFloat lit with
  | some v => .ok (B.num v, s.dropWhile isNumberByte)
  | none => .error (.badNumber lit)

def parseIdent : Parser ParseError N := fun s =>
  let name := s.takeWhile isIdentByte
  if name = [] then .error (.emptyIdent s)
  else if !validIdent name then .error (.invalidIdent name)
  else .ok (B.ident name, s.dropWhile isIdentByte)

variable (paren : Parser ParseError N)

/-- The operand behind an optional sign. -/
def parseOperand : Parser ParseError N
  | [] => .error .unexpectedEnd
  | c :: rest =>
    if isDigit c || c == '.' then parseNumber parseFloat B (c :: rest)
    else if isLower c || isUpper c || c == '_' then parseIdent B (c :: rest)
    else if c = '(' then
      match paren rest with
      | .error e => .error e
      | .ok (n, r) =>
        match trim r with
        | [] => .error (.expectedClose [])
        | d :: r' =>
          if d = ')' then .ok (B.group n, r') else .error (.expectedClose (d :: r'))
    else .error (.unexpectedChar (c :: rest))

def negate (x : Except ParseError (N × Bytes)) : Except ParseError (N × Bytes) :=
  match x with
  | .error e => .error e
  | .ok (inner, r) => .ok (B.binOp .mul inner (B.num minusOne), r)

def parseFactor : Parser ParseError N := fun s =>
  match trim s with
  | [] => .error .unexpectedEnd
  | c :: rest =>
    if c = '-' then
      if trim rest = [] then .error .unaryMinusAlone
      else negate B (parseOperand parseFloat B paren (trim rest))
    else if c = '+' then
      if trim rest = [] then .error .unaryPlusAlone
      else parseOperand parseFloat B paren (trim rest)
    else parseOperand parseFloat B paren (c :: rest)

def parseTerm : Parser ParseError N :=
  chained mulOp B.binOp (parseFactor parseFloat B paren) .outOfFuel

/-- `parseArith`, with `paren` for what stands in parentheses. -/
def parseSum : Parser ParseError N :=
  chained addOp B.binOp (parseTerm parseFloat B paren) .outOfFuel

/-- `parseArith`, down to a depth of parentheses. -/
def parseArith : Nat → Parser ParseError N
  | 0 => parseSum parseFloat B fun _ => .error .outOfFuel
  | d + 1 => parseSum parseFloat B (parseArith d)

def parseWith (s : Bytes) : Except ParseError N :=
  let t := trim s
  if t = [] then .error .empty
  else match parseArith parseFloat B t.length t with
    | .error e => .error e
    | .ok (n, r) => if trim r = [] then .ok n else .error (.trailing (trim r))

/-! ### What is left, and fuel -/

variable {parseFloat B paren}

theorem negate_ok {x : Except ParseError (N × Bytes)} {n : N} {r : Bytes}
    (h : negate B x = .ok (n, r)) :
    ∃ inner, x = .ok (inner, r) ∧ n = B.binOp .mul inner (B.num minusOne) := by
  unfold negate at h
  split at h
  · cases h
  · cases h
    exact ⟨_, rfl, rfl⟩

/-- Opening parentheses, which bound the depth. -/
def opens (s : Bytes) : Nat := s.count ('(' : UInt8)

theorem opens_le_of_suffix {r s : Bytes} (h : r <:+ s) : opens r ≤ opens s :=
  h.sublist.count_le _

section Sound

variable {d : Nat}

omit [Alarm.Num V] in
theorem parseNumber_sound {P : Prop} (s : Bytes) :
    Sound .outOfFuel P s (parseNumber parseFloat B s) := by
  simp only [parseNumber]
  split
  · exact dropWhile_suffix _
  · rintro - ⟨⟩

omit [Alarm.Num V] in
theorem parseIdent_sound {P : Prop} (s : Bytes) : Sound .outOfFuel P s (parseIdent B s) := by
  simp only [parseIdent]
  split
  · rintro - ⟨⟩
  · split
    · rintro - ⟨⟩
    · exact dropWhile_suffix _

theorem negate_sound {P : Prop} {s : Bytes} {x : Except ParseError (N × Bytes)}
    (h : Sound .outOfFuel P s x) : Sound .outOfFuel P s (negate B x) :=
  Sound.elim h (fun _ he => he) fun _ _ hr => hr

variable (hp : ∀ s, Sound .outOfFuel (opens s < d) s (paren s))
include hp

omit [Alarm.Num V] in
theorem parseOperand_sound (s : Bytes) :
    Sound .outOfFuel (opens s ≤ d) s (parseOperand parseFloat B paren s) := by
  unfold parseOperand
  split
  · rintro - ⟨⟩
  rename_i c rest
  split
  · exact parseNumber_sound _
  split
  · exact parseIdent_sound _
  split
  · rename_i hc
    subst hc
    refine Sound.elim (hp rest) (fun e he hs => he ?_) fun n r hr => ?_
    · rwa [opens, count_cons_self] at hs
    dsimp only
    split
    · rintro - ⟨⟩
    rename_i x r' htrim
    split
    · have h₁ : r' <:+ trim r := htrim ▸ suffix_cons x r'
      exact h₁.trans ((trim_suffix r).trans (hr.trans (suffix_cons _ rest)))
    · rintro - ⟨⟩
  · rintro - ⟨⟩

theorem parseFactor_sound (s : Bytes) :
    Sound .outOfFuel (opens s ≤ d) s (parseFactor parseFloat B paren s) := by
  have hoperand : ∀ r, r <:+ s →
      Sound .outOfFuel (opens s ≤ d) s (parseOperand parseFloat B paren r) := fun r hr =>
    (parseOperand_sound hp r).mono hr fun hs => (opens_le_of_suffix hr).trans hs
  simp only [parseFactor]
  split
  · rintro - ⟨⟩
  rename_i c rest htrim
  have hc : c :: rest <:+ s := htrim ▸ trim_suffix s
  have hrest : trim rest <:+ s := (trim_suffix rest).trans ((suffix_cons c rest).trans hc)
  split
  · split
    · rintro - ⟨⟩
    · exact negate_sound (hoperand _ hrest)
  split
  · split
    · rintro - ⟨⟩
    · exact hoperand _ hrest
  · exact hoperand _ hc

theorem parseSum_sound (s : Bytes) :
    Sound .outOfFuel (opens s ≤ d) s (parseSum parseFloat B paren s) := by
  have hP : ∀ r s, r <:+ s → opens s ≤ d → opens r ≤ d := fun r s h hs =>
    (opens_le_of_suffix h).trans hs
  exact chained_sound hP (chained_sound hP (parseFactor_sound hp)) s

omit hp in
theorem parseArith_sound (d : Nat) : ∀ s,
    Sound .outOfFuel (opens s ≤ d) s (parseArith parseFloat B d s) := by
  induction d with
  | zero => exact parseSum_sound fun s hs => absurd hs (Nat.not_lt_zero _)
  | succ d ih => exact parseSum_sound fun s => (ih s).mono suffix_rfl Nat.le_of_lt_succ

end Sound

/-- **A parse answers**: a value, or an error of the source. -/
theorem parseWith_ne_outOfFuel (s : Bytes) : parseWith parseFloat B s ≠ .error .outOfFuel := by
  simp only [parseWith]
  split
  · nofun
  split
  · rename_i e he
    have hsound : Sound .outOfFuel (opens (trim s) ≤ (trim s).length) (trim s)
        (parseArith parseFloat B (trim s).length (trim s)) := parseArith_sound _ _
    rw [he] at hsound
    exact fun h => hsound count_le_length (Except.error.inj h)
  · split <;> nofun

end Parser

/-! ### Trees with their parentheses -/

/-- An expression as it is written. -/
inductive Expr (V : Type) where
  | num (v : V)
  | ident (name : Bytes)
  | binOp (op : BinOp) (l r : Expr V)
  | group (e : Expr V)

section Trees

variable {V N : Type} [Alarm.Num V] {parseFloat : Bytes → Option V}

def Expr.builder : Builder V (Expr V) := ⟨.num, .ident, .binOp, .group⟩

/-- The nodes of the source, without parentheses. -/
def nodeBuilder : Builder V (Node V) := ⟨.num, .ident, .binOp, id⟩

def parse (parseFloat : Bytes → Option V) (s : Bytes) : Except ParseError (Node V) :=
  parseWith parseFloat nodeBuilder s

def Expr.fold (B : Builder V N) : Expr V → N
  | .num v => B.num v
  | .ident name => B.ident name
  | .binOp op l r => B.binOp op (l.fold B) (r.fold B)
  | .group e => B.group (e.fold B)

variable {B : Builder V N}

omit [Alarm.Num V] in
theorem parseOperand_image {p : Parser ParseError (Expr V)} {q : Parser ParseError N}
    (h : Image (Expr.fold B) p q) :
    Image (Expr.fold B) (parseOperand parseFloat Expr.builder p) (parseOperand parseFloat B q) := by
  intro s
  cases s with
  | nil => rfl
  | cons c rest =>
    simp only [parseOperand]
    split
    · simp only [parseNumber]
      split <;> rfl
    split
    · simp only [parseIdent]
      split
      · rfl
      · split <;> rfl
    · split
      · rw [h rest]
        cases p rest with
        | error e => rfl
        | ok a =>
          simp only [Except.map]
          split
          · rfl
          · split <;> rfl
      · rfl

theorem parseFactor_image {p : Parser ParseError (Expr V)} {q : Parser ParseError N}
    (h : Image (Expr.fold B) p q) :
    Image (Expr.fold B) (parseFactor parseFloat Expr.builder p) (parseFactor parseFloat B q) := by
  intro s
  have hop : Image (Expr.fold B) (parseOperand parseFloat Expr.builder p)
      (parseOperand parseFloat B q) := parseOperand_image h
  simp only [parseFactor]
  split
  · rfl
  rename_i c rest hs
  split
  · split
    · rfl
    · rw [hop (trim rest)]
      cases parseOperand parseFloat Expr.builder p (trim rest) <;> rfl
  · split
    · split
      · rfl
      · exact hop _
    · exact hop _

theorem parseArith_image (d : Nat) :
    Image (Expr.fold B) (parseArith parseFloat Expr.builder d) (parseArith parseFloat B d) := by
  have hmk : ∀ op (a b : Expr V), B.binOp op (a.fold B) (b.fold B) = Expr.fold B (.binOp op a b) :=
    fun _ _ _ => rfl
  induction d with
  | zero => exact chained_image hmk (chained_image hmk (parseFactor_image fun _ => rfl))
  | succ d ih => exact chained_image hmk (chained_image hmk (parseFactor_image ih))

/-- **Every parse is a fold** of the tree as written. -/
theorem parseWith_fold (s : Bytes) :
    parseWith parseFloat B s = (parseWith parseFloat Expr.builder s).map (Expr.fold B) := by
  simp only [parseWith]
  split
  · rfl
  rw [parseArith_image]
  cases parseArith parseFloat Expr.builder (trim s).length (trim s) with
  | error e => rfl
  | ok a =>
    simp only [Except.map]
    split <;> rfl

end Trees

end Cios.Arith
