import Cios.Arith.Parse

/-!
# Alarm — the parser of alarm expressions

`ParseExpr` (`pkg/alarm/expr.go`) has a recursive-descent parser of its own, over the same nodes:
comparisons of sums, joined by `and` and `or` into one flat list under the last connective read.  A
parenthesis opens a condition, never a sum: what stands in it is an operand worth 1 or 0.

Parsers are as in `Cios.Arith.Parse`, and never run out of fuel (`parseExpr_ne_outOfFuel`).
-/

namespace Cios.Alarm
open Text List
open Parse
open Cios.Arith (isNumberByte addOp mulOp minusOne opens opens_le_of_suffix)

inductive ParseError where
  | empty
  | trailing (rest : Bytes)
  | expected (want : UInt8) (rest : Bytes)
  | unexpectedEnd
  | unexpectedChar (rest : Bytes)
  | badNumber (lit : Bytes)
  | emptyIdent (rest : Bytes)
  | reservedWord (name : Bytes)
  /-- Not in the source: the depth or a loop of the model is used up. -/
  | outOfFuel
deriving DecidableEq, Repr

structure Cmp (V : Type) where
  op : CmpOp
  lhs : Node V
  rhs : Node V

def Clauses.snoc {V : Type} (x : Cmp V) : Clauses V → Clauses V
  | .nil => .cons x.op x.lhs x.rhs .nil
  | .cons op lhs rhs rest => .cons op lhs rhs (rest.snoc x)

def isWordByte (c : UInt8) : Bool := isLower c || isDigit c || c == '.'

section Parser

variable {V : Type} [Num V] (parseFloat : Bytes → Option V)

def parseNumber : Parser ParseError (Node V) := fun s =>
  let lit := s.takeWhile isNumberByte
  match parseFloat lit with
  | some v => .ok (.num v, s.dropWhile isNumberByte)
  | none => .error (.badNumber lit)

def parseIdent : Parser ParseError (Node V) := fun s =>
  let name := s.takeWhile isWordByte
  if name = [] then .error (.emptyIdent s)
  else if name = "and" ∨ name = "or" then .error (.reservedWord name)
  else .ok (.ident name, s.dropWhile isWordByte)

/-- `-x` is `x * -1`. -/
def negate (x : Except ParseError (Node V × Bytes)) : Except ParseError (Node V × Bytes) :=
  match x with
  | .error e => .error e
  | .ok (inner, r) => .ok (.binOp .mul inner (.num minusOne), r)

/-- A parenthesised condition, as an operand, behind its closing parenthesis. -/
def close (x : Except ParseError (Compiled V × Bytes)) : Except ParseError (Node V × Bytes) :=
  match x with
  | .error e => .error e
  | .ok (inner, r) =>
    match trim r with
    | [] => .error (.expected ')' [])
    | d :: r' =>
      if d = ')' then .ok (.logical inner.kind inner.xs, r')
      else .error (.expected ')' (d :: r'))

variable (paren : Parser ParseError (Compiled V))

/-- Blanks are skipped one by one, and each sign opens another factor. -/
def parseFactor : Parser ParseError (Node V)
  | [] => .error .unexpectedEnd
  | c :: rest =>
    if isSpace c then parseFactor rest
    else if c = '(' then close (paren (trim rest))
    else if c = '-' then negate (parseFactor rest)
    else if c = '+' then parseFactor rest
    else if isDigit c || c == '.' then parseNumber parseFloat (c :: rest)
    else if isLower c || isUpper c then parseIdent (c :: rest)
    else .error (.unexpectedChar (c :: rest))

def parseTerm : Parser ParseError (Node V) :=
  chained mulOp .binOp (parseFactor parseFloat paren) .outOfFuel

def parseArith : Parser ParseError (Node V) :=
  chained addOp .binOp (parseTerm parseFloat paren) .outOfFuel

/-- The comparison operator at the front, if there is one. -/
def readCmpOp : Bytes → Option (CmpOp × Bytes)
  | [] => none
  | c :: rest =>
    let orEqual := rest.head? = some ('=' : UInt8)
    if c = '<' then some (if orEqual then (.le, rest.tail) else (.lt, rest))
    else if c = '>' then some (if orEqual then (.ge, rest.tail) else (.gt, rest))
    else if c = '=' ∧ orEqual then some (.eq, rest.tail)
    else if c = '!' ∧ orEqual then some (.ne, rest.tail)
    else none

def parseCmp : Parser ParseError (Cmp V) := fun s =>
  match parseArith parseFloat paren s with
  | .error e => .error e
  | .ok (lhs, r) =>
    match readCmpOp (trim r) with
    | none => .ok (⟨.ne, lhs, .num Num.zero⟩, trim r)
    | some (op, r') =>
      match parseArith parseFloat paren r' with
      | .error e => .error e
      | .ok (rhs, r'') => .ok (⟨op, lhs, rhs⟩, r'')

/-- The connective a word is. -/
def connective (word : Bytes) : Option Connective :=
  if word = "and" then some .and else if word = "or" then some .or else none

/-- The loop after the first comparison.  Each connective read becomes that of the whole list. -/
def boolLoop : Nat → Compiled V → Parser ParseError (Compiled V)
  | 0, _, _ => .error .outOfFuel
  | n + 1, out, s =>
    match connective ((trim s).takeWhile isLower) with
    | none => .ok (out, trim s)
    | some kind =>
      match parseCmp parseFloat paren ((trim s).dropWhile isLower) with
      | .error e => .error e
      | .ok (next, s') => boolLoop n ⟨kind, out.xs.snoc next⟩ s'

def parseBool : Parser ParseError (Compiled V) := fun s =>
  match parseCmp parseFloat paren s with
  | .error e => .error e
  | .ok (first, r) =>
    boolLoop parseFloat paren (r.length + 1) ⟨.and, Clauses.nil.snoc first⟩ r

/-- `parseBool`, down to a depth of parentheses. -/
def parseBoolAt : Nat → Parser ParseError (Compiled V)
  | 0 => parseBool parseFloat fun _ => .error .outOfFuel
  | d + 1 => parseBool parseFloat (parseBoolAt d)

def parseExpr (s : Bytes) : Except ParseError (Compiled V) :=
  let t := trim s
  if t = [] then .error .empty
  else match parseBoolAt parseFloat t.length t with
    | .error e => .error e
    | .ok (root, r) => if trim r = [] then .ok root else .error (.trailing (trim r))

/-! ### What is left, and fuel -/

theorem readCmpOp_suffix {s r : Bytes} {op : CmpOp} (h : readCmpOp s = some (op, r)) :
    r <:+ s := by
  cases s with
  | nil => cases h
  | cons c rest =>
    have htail : rest.tail <:+ c :: rest := (tail_suffix rest).trans (suffix_cons c rest)
    have hrest : rest <:+ c :: rest := suffix_cons c rest
    simp only [readCmpOp] at h
    repeat' split at h
    all_goals cases h
    all_goals assumption

theorem length_dropWhile_of_connective {s : Bytes} {kind : Connective}
    (h : connective (s.takeWhile isLower) = some kind) :
    (s.dropWhile isLower).length < s.length := by
  have hne : s.takeWhile isLower ≠ [] := by
    intro e
    rw [e] at h
    cases h
  have hlen := congrArg List.length (takeWhile_append_dropWhile (p := isLower) (l := s))
  rw [length_append] at hlen
  have := length_pos_of_ne_nil hne
  omega

section Sound

variable {paren} {d : Nat}

omit [Num V] in
theorem parseNumber_sound {P : Prop} (s : Bytes) :
    Sound .outOfFuel P s (parseNumber parseFloat s) := by
  simp only [parseNumber]
  split
  · exact dropWhile_suffix _
  · rintro - ⟨⟩

omit [Num V] in
theorem parseIdent_sound {P : Prop} (s : Bytes) :
    Sound .outOfFuel P s (parseIdent s : Except ParseError (Node V × Bytes)) := by
  simp only [parseIdent]
  split
  · rintro - ⟨⟩
  · split
    · rintro - ⟨⟩
    · exact dropWhile_suffix _

omit [Num V] in
theorem close_sound {P : Prop} {s : Bytes} {x : Except ParseError (Compiled V × Bytes)}
    (h : Sound .outOfFuel P s x) : Sound .outOfFuel P s (close x) := by
  unfold close
  refine Sound.elim h (fun _ he => he) fun inner r hr => ?_
  dsimp only
  split
  · rintro - ⟨⟩
  rename_i c r' htrim
  split
  · have h₁ : r' <:+ trim r := htrim ▸ suffix_cons c r'
    exact h₁.trans ((trim_suffix r).trans hr)
  · rintro - ⟨⟩

theorem negate_sound {P : Prop} {s : Bytes} {x : Except ParseError (Node V × Bytes)}
    (h : Sound .outOfFuel P s x) : Sound .outOfFuel P s (negate x) :=
  Sound.elim h (fun _ he => he) fun _ _ hr => hr

variable (hp : ∀ s, Sound .outOfFuel (opens s < d) s (paren s))
include hp

theorem parseFactor_sound (s : Bytes) :
    Sound .outOfFuel (opens s ≤ d) s (parseFactor parseFloat paren s) := by
  induction s with
  | nil => rintro - ⟨⟩
  | cons c rest ih =>
    have hsuf := suffix_cons c rest
    have hrest := ih.mono hsuf (opens_le_of_suffix hsuf).trans
    rw [parseFactor]
    split
    · exact hrest
    split
    · rename_i hc
      subst hc
      refine close_sound ((hp (trim rest)).mono ((trim_suffix rest).trans hsuf) fun hs => ?_)
      rw [opens, count_cons_self] at hs
      exact lt_of_le_of_lt (opens_le_of_suffix (trim_suffix rest)) hs
    · split
      · exact negate_sound hrest
      split
      · exact hrest
      split
      · exact parseNumber_sound parseFloat _
      · split
        · exact parseIdent_sound _
        · rintro - ⟨⟩

theorem parseArith_sound (s : Bytes) :
    Sound .outOfFuel (opens s ≤ d) s (parseArith parseFloat paren s) := by
  have hP : ∀ r s, r <:+ s → opens s ≤ d → opens r ≤ d := fun r s h hs =>
    (opens_le_of_suffix h).trans hs
  exact chained_sound hP (chained_sound hP (parseFactor_sound parseFloat hp)) s

theorem parseCmp_sound (s : Bytes) :
    Sound .outOfFuel (opens s ≤ d) s (parseCmp parseFloat paren s) := by
  unfold parseCmp
  refine Sound.elim (parseArith_sound parseFloat hp s) (fun _ he => he) fun lhs r hr => ?_
  dsimp only
  have htrim : trim r <:+ s := (trim_suffix r).trans hr
  split
  · exact htrim
  rename_i op r' hop
  have hr' : r' <:+ s := (readCmpOp_suffix hop).trans htrim
  have hrhs := (parseArith_sound parseFloat hp r').mono hr' (opens_le_of_suffix hr').trans
  exact Sound.elim hrhs (fun _ he => he) fun _ _ h => h

theorem boolLoop_sound (n : Nat) :
    ∀ out s, Sound .outOfFuel (s.length < n ∧ opens s ≤ d) s
      (boolLoop parseFloat paren n out s) := by
  induction n with
  | zero =>
    intro out s h
    exact absurd h.1 (Nat.not_lt_zero _)
  | succ n ih =>
    intro out s
    rw [boolLoop]
    split
    · exact trim_suffix s
    rename_i kind hkind
    have hdrop : (trim s).dropWhile isLower <:+ s :=
      (dropWhile_suffix _).trans (trim_suffix s)
    refine Sound.elim (parseCmp_sound parseFloat hp ((trim s).dropWhile isLower))
      (fun e he h => he ((opens_le_of_suffix hdrop).trans h.2)) fun next s' hs' => ?_
    have hs := hs'.trans hdrop
    refine (ih _ s').mono hs fun h => ⟨?_, (opens_le_of_suffix hs).trans h.2⟩
    have h₁ := hs'.length_le
    have h₂ := length_dropWhile_of_connective hkind
    have h₃ := (trim_suffix s).length_le
    omega

theorem parseBool_sound (s : Bytes) :
    Sound .outOfFuel (opens s ≤ d) s (parseBool parseFloat paren s) := by
  unfold parseBool
  refine Sound.elim (parseCmp_sound parseFloat hp s) (fun _ he => he) fun first r hr => ?_
  exact (boolLoop_sound parseFloat hp _ _ r).mono hr fun hs =>
    ⟨Nat.lt_succ_self _, (opens_le_of_suffix hr).trans hs⟩

omit hp in
theorem parseBoolAt_sound (d : Nat) : ∀ s,
    Sound .outOfFuel (opens s ≤ d) s (parseBoolAt parseFloat d s) := by
  induction d with
  | zero => exact parseBool_sound parseFloat fun s hs => absurd hs (Nat.not_lt_zero _)
  | succ d ih => exact parseBool_sound parseFloat fun s => (ih s).mono suffix_rfl Nat.le_of_lt_succ

end Sound

/-- **A parse answers**: an expression, or an error of the source. -/
theorem parseExpr_ne_outOfFuel (s : Bytes) : parseExpr parseFloat s ≠ .error .outOfFuel := by
  simp only [parseExpr]
  split
  · nofun
  split
  · rename_i e he
    have hsound := parseBoolAt_sound parseFloat (trim s).length (trim s)
    rw [he] at hsound
    exact fun h => hsound count_le_length (Except.error.inj h)
  · split <;> nofun

end Parser

end Cios.Alarm
