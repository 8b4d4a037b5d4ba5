import Cios.Alarm.Parse

/-!
# Alarm — parentheses in compared sums

Two parsers read sums: that of derived quantities and that of alarm expressions.  On a sum that the
first accepts the second reads the same tree, except that each parenthesised sum becomes a
condition, "not zero" (`flagBuilder`), worth 1 or 0.  The second also refuses identifiers with
capitals or underscores (`Jam`), and the words `and` and `or`.

The two run in lockstep (`parseArith_echoes`), so an accepted `e₁ op e₂` compiles to one comparison
of the two flagged trees (`parseExpr_of_arith`, `compared_sums_agree_iff`).
-/

namespace Cios.Alarm
open Text List
open Parse
open Cios.Arith (Builder Expr nodeBuilder parseWith parseWith_fold isNumberByte isIdentByte
  addOp mulOp)

section Lockstep

variable {V : Type} [Num V] {parseFloat : Bytes → Option V} {tail : Bytes}

/-- A parenthesised sum as the condition it is read as. -/
def flag (n : Node V) : Compiled V := ⟨.and, .cons .ne n (.num Num.zero) .nil⟩

/-- The nodes of a sum with its parentheses read as conditions. -/
def flagBuilder : Builder V (Node V) :=
  ⟨.num, .ident, .binOp, fun n => .logical (flag n).kind (flag n).xs⟩

/-! ### Bytes -/

def CmpByte (c : UInt8) : Prop := c = '<' ∨ c = '>' ∨ c = '=' ∨ c = '!'

instance (c : UInt8) : Decidable (CmpByte c) := inferInstanceAs (Decidable (_ ∨ _))

/-- What follows a compared sum: nothing, or a comparison operator. -/
def Tail (s : Bytes) : Prop := ∀ c, s.head? = some c → CmpByte c

/-- A byte of an identifier that alarm expressions do not have. -/
def JamByte (c : UInt8) : Prop := isUpper c = true ∨ c = '_'

instance (c : UInt8) : Decidable (JamByte c) := inferInstanceAs (Decidable (_ ∨ _))

/-- What an identifier leaves that was cut off at such a byte. -/
def Jam (s : Bytes) : Prop := ∃ c r, s = c :: r ∧ JamByte c

theorem CmpByte.facts {c : UInt8} (h : CmpByte c) : isSpace c = false ∧ isNumberByte c = false ∧
    isWordByte c = false ∧ addOp c = none ∧ mulOp c = none := by
  rcases h with rfl | rfl | rfl | rfl <;> decide

theorem jamByte_facts : ∀ c : UInt8, JamByte c → isSpace c = false ∧ isLower c = false ∧
    c ≠ ')' ∧ c ≠ '<' ∧ c ≠ '>' ∧ c ≠ '=' ∧ c ≠ '!' ∧ addOp c = none ∧ mulOp c = none :=
  forall_byte (by decide +kernel)

theorem number_facts : ∀ c : UInt8, (isDigit c || c == '.') = true →
    isSpace c = false ∧ c ≠ '(' ∧ c ≠ '-' ∧ c ≠ '+' :=
  forall_byte (by decide +kernel)

theorem letter_facts : ∀ c : UInt8, isLower c = true ∨ JamByte c →
    isSpace c = false ∧ c ≠ '(' ∧ c ≠ '-' ∧ c ≠ '+' ∧ (isDigit c || c == '.') = false :=
  forall_byte (by decide +kernel)

theorem identByte_cases : ∀ c : UInt8, isIdentByte c = true ↔ isWordByte c = true ∨ JamByte c :=
  forall_byte (by decide +kernel)

theorem Tail.solid (h : Tail tail) : Solid tail := by
  cases tail with
  | nil => rfl
  | cons c r => exact trim_cons_of_not_space (h c rfl).facts.1

theorem Tail.stops_add (h : Tail tail) : Stops addOp tail :=
  ⟨h.solid, fun c _ e => (h c (by rw [e]; rfl)).facts.2.2.2.1⟩

theorem Tail.stops_mul (h : Tail tail) : Stops mulOp tail :=
  ⟨h.solid, fun c _ e => (h c (by rw [e]; rfl)).facts.2.2.2.2⟩

variable {s : Bytes}

theorem Jam.solid (h : Jam s) : trim s = s := by
  obtain ⟨c, r, rfl, hc⟩ := h
  exact trim_cons_of_not_space (jamByte_facts c hc).1

theorem Jam.stops_add (h : Jam s) : Stops addOp s := by
  refine ⟨h.solid, ?_⟩
  rintro c r rfl
  obtain ⟨_, _, ⟨⟩, hc⟩ := h
  exact (jamByte_facts c hc).2.2.2.2.2.2.2.1

theorem Jam.stops_mul (h : Jam s) : Stops mulOp s := by
  refine ⟨h.solid, ?_⟩
  rintro c r rfl
  obtain ⟨_, _, ⟨⟩, hc⟩ := h
  exact (jamByte_facts c hc).2.2.2.2.2.2.2.2

theorem Jam.no_cmpOp (h : Jam s) : readCmpOp s = none := by
  obtain ⟨c, r, rfl, hc⟩ := h
  obtain ⟨-, -, -, h₁, h₂, h₃, h₄, -⟩ := jamByte_facts c hc
  simp [readCmpOp, h₁, h₂, h₃, h₄]

theorem Jam.no_connective (h : Jam s) : connective (s.takeWhile isLower) = none := by
  obtain ⟨c, r, rfl, hc⟩ := h
  rw [takeWhile_cons_of_neg (by simp [(jamByte_facts c hc).2.1])]
  rfl

/-! ### Operands -/

variable {s r : Bytes} {n : Node V} {a : Node V × Bytes} {B : Builder V (Node V)}

/-- An identifier is read as far by both, or cut off by the second. -/
theorem ident_run (htail : Tail tail) (s : Bytes) : Jam ((s ++ tail).dropWhile isWordByte) ∨
    (s ++ tail).takeWhile isWordByte = s.takeWhile isIdentByte ∧
      (s ++ tail).dropWhile isWordByte = s.dropWhile isIdentByte ++ tail := by
  induction s with
  | nil =>
    cases tail with
    | nil => exact .inr ⟨rfl, rfl⟩
    | cons c r =>
      have hc := (htail c rfl).facts.2.2.1
      exact .inr ⟨by simp [hc], by simp [hc]⟩
  | cons c s ih =>
    by_cases hw : isWordByte c = true
    · have hi : isIdentByte c = true := (identByte_cases c).mpr (.inl hw)
      simpa [hw, hi] using ih
    by_cases hj : JamByte c
    · refine .inl ⟨c, s ++ tail, ?_, hj⟩
      simp [hw]
    · have hi : ¬ isIdentByte c = true := by
        rw [identByte_cases]
        exact fun h => h.elim hw hj
      exact .inr ⟨by simp [hw, hi], by simp [hw, hi]⟩

theorem parseFactor_trim (paren : Parser ParseError (Compiled V)) (s : Bytes) :
    parseFactor parseFloat paren (trim s) = parseFactor parseFloat paren s := by
  induction s with
  | nil => rfl
  | cons c s ih =>
    by_cases hc : isSpace c = true
    · rw [trim_cons_of_space hc, ih, parseFactor, if_pos hc]
    · rw [trim_cons_of_not_space (by simpa using hc)]

theorem parseIdent_echo (htail : Tail tail) (h : Arith.parseIdent flagBuilder s = .ok a) :
    Echo Jam tail a (parseIdent (s ++ tail) : Except ParseError (Node V × Bytes)) := by
  simp only [Arith.parseIdent] at h
  split at h
  · cases h
  rename_i hne
  split at h
  · cases h
  cases h
  simp only [parseIdent]
  iterate 2
    split
    · exact .inl ⟨_, rfl⟩
  rcases ident_run htail s with hjam | ⟨htake, hdrop⟩
  · exact .inr (.inl ⟨_, _, rfl, hjam⟩)
  · refine .inr (.inr ?_)
    rw [htake, hdrop]
    rfl

/-- What the second parser makes of what the first reads between parentheses. -/
def ParenEchoes (tail : Bytes) (p : Parser Arith.ParseError (Node V))
    (q : Parser ParseError (Compiled V)) : Prop :=
  ∀ s n r r', p s = .ok (n, r) → trim r = (')' : UInt8) :: r' →
    (∃ e, q (trim (s ++ tail)) = .error e) ∨
      (∃ c x, q (trim (s ++ tail)) = .ok (c, x) ∧ Jam x) ∨
        q (trim (s ++ tail)) = .ok (flag n, trim r ++ tail)

variable {p : Parser Arith.ParseError (Node V)} {q : Parser ParseError (Compiled V)}

theorem parseNumber_echo (htail : Tail tail)
    (h : Arith.parseNumber parseFloat flagBuilder s = .ok a) :
    Echo Jam tail a (parseNumber parseFloat (s ++ tail)) := by
  have hstop := takeWhile_append_stop (fun d hd => (htail d hd).facts.2.1) s
  simp only [Arith.parseNumber] at h
  split at h
  · rename_i v hv
    cases h
    refine .inr (.inr ?_)
    simp only [parseNumber, hstop.1, hstop.2, hv]
    rfl
  · cases h

/-- What stands in parentheses, behind the closing one. -/
theorem close_echo (htail : Tail tail) (hp : ParenEchoes tail p q) {r' : Bytes}
    (hn : p s = .ok (n, r)) (hr : trim r = (')' : UInt8) :: r') :
    Echo Jam tail (flagBuilder.group n, r') (close (q (trim (s ++ tail)))) := by
  rcases hp s n r r' hn hr with ⟨e, he⟩ | ⟨x, y, hx, hjam⟩ | hx
  · exact .inl ⟨e, by rw [he]; rfl⟩
  · -- A condition that ends at a jam is not closed.
    obtain ⟨c, z, rfl, hc⟩ := id hjam
    refine .inl ⟨.expected ')' (c :: z), ?_⟩
    simp [hx, close, hjam.solid, (jamByte_facts c hc).2.2.1]
  · refine .inr (.inr ?_)
    rw [hx]
    simp only [close]
    rw [trim_append htail.solid, trim_trim, hr]
    simp [flagBuilder]

theorem parseOperand_echo (htail : Tail tail) (hp : ParenEchoes tail p q)
    (h : Arith.parseOperand parseFloat flagBuilder p s = .ok a) :
    Echo Jam tail a (parseFactor parseFloat q (s ++ tail)) := by
  unfold Arith.parseOperand at h
  split at h
  · cases h
  rename_i c rest
  rw [cons_append]
  split at h
  · rename_i hc
    obtain ⟨hsp, h₁, h₂, h₃⟩ := number_facts c hc
    rw [parseFactor, if_neg (by simp [hsp]), if_neg h₁, if_neg h₂, if_neg h₃, if_pos hc]
    exact parseNumber_echo htail h
  · split at h
    · rename_i hnum hc
      have hc' : isLower c = true ∨ JamByte c := by
        simp only [Bool.or_eq_true, beq_iff_eq] at hc
        exact or_assoc.mp hc
      obtain ⟨hsp, h₁, h₂, h₃, h₄⟩ := letter_facts c hc'
      rw [parseFactor, if_neg (by simp [hsp]), if_neg h₁, if_neg h₂, if_neg h₃,
        if_neg (by simp [h₄])]
      split
      · exact parseIdent_echo htail h
      · exact .inl ⟨_, rfl⟩
    · split at h
      · rename_i hc
        subst hc
        split at h
        · cases h
        rename_i n r hn
        split at h
        · cases h
        rename_i d r' hr
        split at h
        · rename_i hd
          subst hd
          cases h
          exact close_echo htail hp hn hr
        · cases h
      · cases h

theorem negate_echo {x : Except Arith.ParseError (Node V × Bytes)}
    {y : Except ParseError (Node V × Bytes)} (h : Arith.negate flagBuilder x = .ok a)
    (hxy : ∀ b, x = .ok b → Echo Jam tail b y) : Echo Jam tail a (negate y) := by
  obtain ⟨inner, hx, hn⟩ := Arith.negate_ok (n := a.1) (r := a.2) h
  rcases hxy _ hx with ⟨e, rfl⟩ | ⟨m, r, rfl, hr⟩ | rfl
  · exact .inl ⟨e, rfl⟩
  · exact .inr (.inl ⟨_, r, rfl, hr⟩)
  · refine .inr (.inr ?_)
    rw [hn]
    rfl

theorem parseFactor_echoes (htail : Tail tail) (hp : ParenEchoes tail p q) :
    Echoes Jam tail (Arith.parseFactor parseFloat flagBuilder p) (parseFactor parseFloat q) := by
  intro s a h
  rw [← parseFactor_trim, trim_append htail.solid]
  simp only [Arith.parseFactor] at h
  split at h
  · cases h
  rename_i c rest hs
  have hrest : parseFactor parseFloat q (rest ++ tail) =
      parseFactor parseFloat q (trim rest ++ tail) := by
    rw [← parseFactor_trim, trim_append htail.solid]
  rw [hs]
  split at h
  · rename_i hc
    subst hc
    split at h
    · cases h
    · rw [cons_append, parseFactor, if_neg (by decide), if_neg (by decide), if_pos rfl,
        hrest]
      exact negate_echo h fun b hb => parseOperand_echo htail hp hb
  · split at h
    · rename_i hc
      subst hc
      split at h
      · cases h
      · rw [cons_append, parseFactor, if_neg (by decide), if_neg (by decide),
          if_neg (by decide), if_pos rfl, hrest]
        exact parseOperand_echo htail hp h
    · exact parseOperand_echo htail hp h

/-! ### Sums and conditions -/

/-- What alarm expressions read in parentheses at a depth. -/
def parens (parseFloat : Bytes → Option V) : Nat → Parser ParseError (Compiled V)
  | 0 => fun _ => .error .outOfFuel
  | d + 1 => parseBoolAt parseFloat d

theorem parseBoolAt_eq (d : Nat) :
    parseBoolAt parseFloat d = parseBool parseFloat (parens parseFloat d) := by
  cases d <;> rfl

/-- A condition that ends at a jam leaves it there. -/
theorem boolLoop_jam {n : Nat} {out : Compiled V} (h : Jam s) :
    boolLoop parseFloat q (n + 1) out s = .ok (out, s) := by
  rw [boolLoop, h.solid, h.no_connective]

theorem parseBool_jam (h : parseArith parseFloat q s = .ok (n, r))
    (hr : Jam r) : ∃ c, parseBool parseFloat q s = .ok (c, r) := by
  refine ⟨⟨.and, Clauses.nil.snoc ⟨.ne, n, .num Num.zero⟩⟩, ?_⟩
  simp only [parseBool, parseCmp, h, hr.solid, hr.no_cmpOp]
  exact boolLoop_jam hr

/-- A sum in front of a closing parenthesis is the condition that it is not zero. -/
theorem parseBool_close (h : parseArith parseFloat q s = .ok (n, r))
    {r' : Bytes} (hr : trim r = (')' : UInt8) :: r') :
    parseBool parseFloat q s = .ok (flag n, trim r) := by
  have hop : readCmpOp (trim r) = none := by
    rw [hr]
    rfl
  have hword : connective ((trim r).takeWhile isLower) = none := by
    rw [hr, takeWhile_cons_of_neg (by decide)]
    rfl
  simp only [parseBool, parseCmp, h, hop, boolLoop, trim_trim, hword]
  rfl

theorem parseSum_trim (s : Bytes) :
    Arith.parseSum parseFloat B p (trim s) = Arith.parseSum parseFloat B p s := by
  simp only [Arith.parseSum, Arith.parseTerm, chained, Arith.parseFactor, trim_trim]

theorem parenEchoes_of_echoes (htail : Tail tail) {p' : Parser Arith.ParseError (Node V)}
    (h : Echoes Jam tail (Arith.parseSum parseFloat flagBuilder p') (parseArith parseFloat q)) :
    ParenEchoes tail (Arith.parseSum parseFloat flagBuilder p') (parseBool parseFloat q) := by
  intro s n r r' hs hr
  rw [trim_append htail.solid]
  rw [← parseSum_trim] at hs
  rcases h (trim s) (n, r) hs with ⟨e, he⟩ | ⟨x, y, hx, hjam⟩ | hx
  · refine .inl ⟨e, ?_⟩
    simp only [parseBool, parseCmp, he]
  · obtain ⟨c, hc⟩ := parseBool_jam hx hjam
    exact .inr (.inl ⟨c, y, hc, hjam⟩)
  have htrim : trim (r ++ tail) = trim r ++ tail := trim_append htail.solid r
  have hclose : trim (r ++ tail) = (')' : UInt8) :: (r' ++ tail) := by
    rw [htrim, hr, cons_append]
  refine .inr (.inr ?_)
  rw [← htrim]
  exact parseBool_close hx hclose

/-- **The parsers in lockstep**, by induction on the depth of parentheses. -/
theorem parseArith_echoes (htail : Tail tail) (d : Nat) : ∀ d', d ≤ d' →
    Echoes Jam tail (Arith.parseArith parseFloat flagBuilder d)
      (parseArith parseFloat (parens parseFloat d')) := by
  have level : ∀ {p : Parser Arith.ParseError (Node V)} {q : Parser ParseError (Compiled V)},
      ParenEchoes tail p q → Echoes Jam tail (Arith.parseSum parseFloat flagBuilder p)
        (parseArith parseFloat q) := fun hp =>
    chained_echoes htail.stops_add (fun _ => Jam.stops_add)
      (chained_echoes htail.stops_mul (fun _ => Jam.stops_mul) (parseFactor_echoes htail hp))
  induction d with
  | zero =>
    intro d' _
    refine level ?_
    intro s n r r' h
    cases h
  | succ d ih =>
    intro d' hd
    obtain ⟨d', rfl⟩ : ∃ k, d' = k + 1 := ⟨d' - 1, by omega⟩
    have hd : d ≤ d' := Nat.le_of_succ_le_succ hd
    refine level ?_
    rw [parens, parseBoolAt_eq]
    have ih := ih d' hd
    cases d with
    | zero => exact parenEchoes_of_echoes htail ih
    | succ d => exact parenEchoes_of_echoes htail ih

/-! ### Compared sums -/

theorem arith_parseArith_trim (d : Nat) (s : Bytes) :
    Arith.parseArith parseFloat B d (trim s) = Arith.parseArith parseFloat B d s := by
  cases d <;> exact parseSum_trim s

theorem parseArith_of_parseWith (h : parseWith parseFloat B s = .ok n) :
    Arith.parseArith parseFloat B (trim s).length s = .ok (n, []) := by
  simp only [parseWith, arith_parseArith_trim] at h
  split at h
  · cases h
  split at h
  · cases h
  rename_i m r hr
  have hsolid : Solid r := by
    cases hd : (trim s).length with
    | zero => rw [hd] at hr; exact chained_solid hr
    | succ d => rw [hd] at hr; exact chained_solid hr
  split at h
  · rename_i hnil
    cases h
    rw [hr, ← hsolid, hnil]
  · cases h

def CmpOp.text : CmpOp → Bytes
  | .lt => "<"
  | .le => "<="
  | .gt => ">"
  | .ge => ">="
  | .eq => "=="
  | .ne => "!="

theorem CmpOp.tail_text (op : CmpOp) (s : Bytes) : Tail (op.text ++ s) := by
  intro c hc
  cases op <;> cases hc <;> decide

/-- No sum starts with an equals sign, so an operator is not read too long. -/
theorem readCmpOp_text (op : CmpOp) (h : parseWith parseFloat B s = .ok n) :
    readCmpOp (op.text ++ s) = some (op, s) := by
  have hne : s.head? ≠ some ('=' : UInt8) := by
    intro he
    obtain ⟨r, rfl⟩ := head?_eq_some_iff.mp he
    have := parseArith_of_parseWith h
    cases this
  cases op with
  | lt | gt =>
    show some (if s.head? = some ('=' : UInt8) then _ else _) = _
    rw [if_neg hne]
    rfl
  | _ => rfl

/-- **What a comparison of two sums compiles to**: it reads their parentheses as conditions. -/
theorem parseExpr_of_arith {e₁ e₂ : Bytes} {op : CmpOp} {t₁ t₂ : Expr V} {c : Compiled V}
    (h₁ : parseWith parseFloat Expr.builder e₁ = .ok t₁)
    (h₂ : parseWith parseFloat Expr.builder e₂ = .ok t₂)
    (hc : parseExpr parseFloat (e₁ ++ op.text ++ e₂) = .ok c) :
    c = ⟨.and, .cons op (t₁.fold flagBuilder) (t₂.fold flagBuilder) .nil⟩ := by
  have h₁ : parseWith parseFloat flagBuilder e₁ = .ok (t₁.fold flagBuilder) := by
    rw [parseWith_fold, h₁]; rfl
  have h₂ : parseWith parseFloat flagBuilder e₂ = .ok (t₂.fold flagBuilder) := by
    rw [parseWith_fold, h₂]; rfl
  have htail := op.tail_text e₂
  have hnil : Tail [] := nofun
  have hlen₁ : (trim e₁).length ≤ (trim e₁ ++ (op.text ++ e₂)).length := by
    rw [length_append]; exact Nat.le_add_right _ _
  have hlen₂ : (trim e₂).length ≤ (trim e₁ ++ (op.text ++ e₂)).length := by
    have := (trim_suffix e₂).length_le
    rw [length_append, length_append]
    omega
  have lhs := parseArith_echoes htail _ _ hlen₁ (trim e₁) _
    ((arith_parseArith_trim _ _).trans (parseArith_of_parseWith h₁))
  have rhs := parseArith_echoes hnil _ _ hlen₂ e₂ _ (parseArith_of_parseWith h₂)
  rw [append_nil] at rhs
  -- The three ways of the left sum, then of the right one; only the last of each is accepted.
  simp only [parseExpr, append_assoc, trim_append htail.solid, parseBoolAt_eq] at hc
  split at hc
  · cases hc
  rcases lhs with ⟨e, he⟩ | ⟨n, r, hn, hjam⟩ | hn
  · simp only [parseBool, parseCmp, he] at hc
    cases hc
  · obtain ⟨b, hb⟩ := parseBool_jam hn hjam
    rw [hb] at hc
    obtain ⟨d, z, rfl, -⟩ := id hjam
    simp [hjam.solid] at hc
  · have hop : readCmpOp (trim (op.text ++ e₂)) = some (op, e₂) := by
      rw [htail.solid]
      exact readCmpOp_text op h₂
    simp only [nil_append] at hn
    rcases rhs with ⟨e, he⟩ | ⟨m, r, hm, hjam⟩ | hm
    · simp only [parseBool, parseCmp, hn, hop, he] at hc
      cases hc
    · simp only [parseBool, parseCmp, hn, hop, hm, boolLoop_jam hjam] at hc
      obtain ⟨d, z, rfl, -⟩ := id hjam
      simp [hjam.solid] at hc
    · simp only [parseBool, parseCmp, hn, hop, hm] at hc
      cases hc
      rfl

end Lockstep

/-! ### What they evaluate to -/

section Eval

variable {V : Type} [Num V] {snap : Snapshot V}

/-- The value of a sum that reads each parenthesised part as 1 or 0: whether it is not zero. -/
def flaggedEval (snap : Snapshot V) : Expr V → Except EvalError V
  | .num v => .ok v
  | .ident name =>
    match snap name with
    | some v => .ok v
    | none => .error .undefined
  | .binOp op l r => do
    let x ← flaggedEval snap l
    let y ← flaggedEval snap r
    op.apply x y
  | .group e => do
    let v ← flaggedEval snap e
    .ok (boolToFloat (!Num.eq v Num.zero))

theorem eval_fold_flag (t : Expr V) : (t.fold flagBuilder).eval snap = flaggedEval snap t := by
  induction t with
  | num v => rfl
  | ident name => rfl
  | binOp op l r hl hr =>
    show (Node.binOp op (l.fold flagBuilder) (r.fold flagBuilder)).eval snap = _
    rw [Node.eval, hl, hr, flaggedEval]
  | group e ih =>
    show (Node.logical .and (.cons .ne (e.fold flagBuilder) (.num Num.zero) .nil)).eval snap = _
    rw [Node.eval, eval_single, ih, flaggedEval]
    cases flaggedEval snap e <;> rfl

/-- The value of an accepted sum with its parenthesised parts read as 1 or 0. -/
def FlaggedValue (parseFloat : Bytes → Option V) (snap : Snapshot V) (s : Bytes) (v : V) : Prop :=
  ∃ t, parseWith parseFloat Expr.builder s = .ok t ∧ flaggedEval snap t = .ok v

variable {parseFloat : Bytes → Option V} {op : CmpOp} {e₁ e₂ : Bytes} {c : Compiled V}

theorem eval_of_parseExpr {t₁ t₂ : Expr V} (h₁ : parseWith parseFloat Expr.builder e₁ = .ok t₁)
    (h₂ : parseWith parseFloat Expr.builder e₂ = .ok t₂)
    (hc : parseExpr parseFloat (e₁ ++ op.text ++ e₂) = .ok c) :
    c.eval snap = (do
      let x ← flaggedEval snap t₁
      let y ← flaggedEval snap t₂
      .ok (op.holds x y)) := by
  obtain rfl := parseExpr_of_arith h₁ h₂ hc
  rw [Compiled.eval, eval_single, eval_fold_flag, eval_fold_flag]

theorem exists_tree {s : Bytes} {n : Node V} (h : Arith.parse parseFloat s = .ok n) :
    ∃ t, parseWith parseFloat Expr.builder s = .ok t ∧ n = t.fold nodeBuilder := by
  rw [Arith.parse, parseWith_fold] at h
  cases ht : parseWith parseFloat Expr.builder s with
  | error e => rw [ht] at h; cases h
  | ok t =>
    rw [ht] at h
    cases h
    exact ⟨t, rfl, rfl⟩

/-- **When an alarm compares what the sums are worth**: exactly when reading every parenthesised
part as 1 or 0 leaves both sums defined and their comparison as it is. -/
theorem compared_sums_agree_iff (parseFloat : Bytes → Option V) (op : CmpOp) (e₁ e₂ : Bytes)
    (snap : Snapshot V) (n₁ n₂ : Node V) (c : Compiled V) (x y : V)
    (h₁ : Arith.parse parseFloat e₁ = .ok n₁) (h₂ : Arith.parse parseFloat e₂ = .ok n₂)
    (hc : parseExpr parseFloat (e₁ ++ op.text ++ e₂) = .ok c)
    (_ : n₁.eval snap = .ok x) (_ : n₂.eval snap = .ok y) :
    c.eval snap = .ok (op.holds x y) ↔ ∃ x' y', FlaggedValue parseFloat snap e₁ x' ∧
      FlaggedValue parseFloat snap e₂ y' ∧ op.holds x' y' = op.holds x y := by
  obtain ⟨t₁, ht₁, -⟩ := exists_tree h₁
  obtain ⟨t₂, ht₂, -⟩ := exists_tree h₂
  rw [eval_of_parseExpr ht₁ ht₂ hc]
  constructor
  · intro h
    cases hx : flaggedEval snap t₁ with
    | error e => rw [hx] at h; cases h
    | ok x' =>
      cases hy : flaggedEval snap t₂ with
      | error e => rw [hx, hy] at h; cases h
      | ok y' =>
        rw [hx, hy] at h
        exact ⟨x', y', ⟨t₁, ht₁, hx⟩, ⟨t₂, ht₂, hy⟩, Except.ok.inj h⟩
  · rintro ⟨x', y', ⟨s₁, hs₁, hx⟩, ⟨s₂, hs₂, hy⟩, h⟩
    obtain rfl : t₁ = s₁ := Except.ok.inj (ht₁.symm.trans hs₁)
    obtain rfl : t₂ = s₂ := Except.ok.inj (ht₂.symm.trans hs₂)
    rw [hx, hy, ← h]
    rfl

end Eval

def decimal (s : Bytes) : Option Rat :=
  if s ≠ [] ∧ s.all isDigit = true then some (digits s : Rat) else none

/-- A sum in parentheses is worth three to a derived quantity, and to an alarm one. -/
theorem sum_three_not_above_two : ∃ n₁ n₂ c, Arith.parse decimal "(1 + 2)" = .ok n₁ ∧
    Arith.parse decimal "2" = .ok n₂ ∧
    parseExpr decimal (lit "(1 + 2)" ++ CmpOp.gt.text ++ lit "2") = .ok c ∧
    n₁.eval (fun _ => none) = .ok 3 ∧ n₂.eval (fun _ => none) = .ok 2 ∧
    c.eval (fun _ => none) ≠ .ok (CmpOp.gt.holds (3 : Rat) 2) :=
  ⟨.binOp .add (.num 1) (.num 2), .num 2,
    ⟨.and, .cons .gt (.logical .and (.cons .ne (.binOp .add (.num 1) (.num 2)) (.num 0) .nil))
      (.num 2) .nil⟩,
    rfl, rfl, rfl, by decide +kernel, by decide +kernel, by decide +kernel⟩

/-- Both read it as greater than zero. -/
theorem sum_three_above_zero : ∃ n₁ n₂ c, Arith.parse decimal "(1 + 2)" = .ok n₁ ∧
    Arith.parse decimal "0" = .ok n₂ ∧
    parseExpr decimal (lit "(1 + 2)" ++ CmpOp.gt.text ++ lit "0") = .ok c ∧
    n₁.eval (fun _ => none) = .ok 3 ∧ n₂.eval (fun _ => none) = .ok 0 ∧
    c.eval (fun _ => none) = .ok (CmpOp.gt.holds (3 : Rat) 0) :=
  ⟨.binOp .add (.num 1) (.num 2), .num 0,
    ⟨.and, .cons .gt (.logical .and (.cons .ne (.binOp .add (.num 1) (.num 2)) (.num 0) .nil))
      (.num 0) .nil⟩,
    rfl, rfl, rfl, by decide +kernel, by decide +kernel,
    (compared_sums_agree_iff decimal .gt "(1 + 2)" "0" (fun _ => none) _ _ _ 3 0 rfl rfl rfl
      (by decide +kernel) (by decide +kernel)).mpr
      ⟨1, 0, ⟨.group (.binOp .add (.num 1) (.num 2)), rfl, by decide +kernel⟩,
        ⟨.num 0, rfl, by decide +kernel⟩, by decide +kernel⟩⟩

end Cios.Alarm
