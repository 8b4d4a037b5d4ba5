import Cios.Tenant.Promql

/-!
# Tenant — PromQL texts as tokens

How a PromQL text is read, apart from any rewriting: identifiers are maximal runs, a numeral is
digits and dots with an optional exponent, and string literals and selectors are skipped as a whole
(`tokens`).  On tokens it can be said what tenant isolation is: every metric name is followed by a
selector that has the tenant's matcher (`tenantScoped`).
-/

namespace Cios.Tenant
open Text List Option

/-- A label matcher, with the text between its quotes. -/
structure Matcher where
  name : Bytes
  op : Bytes
  value : Bytes
deriving DecidableEq, Repr

inductive Token where
  | space
  | ident (w : Bytes)
  | number (n : Bytes)
  | literal (value : Bytes)
  | selector (ms : List Matcher)
  | byte (c : UInt8)
deriving DecidableEq, Repr

/-! ### Reading -/

/-- The text up to a closing quote, and what follows the quote. -/
def closeQuote : Bytes → Option (Bytes × Bytes)
  | [] => none
  | c :: s =>
    if c = '\\' then
      match s with
      | [] => none
      | d :: s' => (closeQuote s').map fun p => (c :: d :: p.1, p.2)
    else if c = '\"' then some ([], s)
    else (closeQuote s).map fun p => (c :: p.1, p.2)

theorem closeQuote_escape (d : UInt8) (s : Bytes) :
    closeQuote (('\\' : UInt8) :: d :: s) =
      (closeQuote s).map fun p => (('\\' : UInt8) :: d :: p.1, p.2) := by
  rw [closeQuote.eq_def]
  simp

theorem closeQuote_quote (s : Bytes) : closeQuote (('\"' : UInt8) :: s) = some ([], s) := by
  rw [closeQuote.eq_def]
  rfl

theorem closeQuote_other {c : UInt8} (hb : c ≠ '\\') (hq : c ≠ '\"') (s : Bytes) :
    closeQuote (c :: s) = (closeQuote s).map fun p => (c :: p.1, p.2) := by
  rw [closeQuote.eq_def]
  simp [hb, hq]

def isMatchOperator (c : UInt8) : Bool := c = '=' || c = '!' || c = '~'

def readMatcher (s : Bytes) : Option (Matcher × Bytes) :=
  let afterName := (s.dropWhile isIdentCont).dropWhile isSpace
  let op := afterName.takeWhile isMatchOperator
  match (afterName.dropWhile isMatchOperator).dropWhile isSpace with
  | [] => none
  | q :: r =>
    if q = '\"' ∧ op ≠ [] then
      (closeQuote r).map fun p => (⟨s.takeWhile isIdentCont, op, p.1⟩, p.2)
    else none

theorem closeQuote_length : ∀ {s v rest : Bytes}, closeQuote s = some (v, rest) →
    rest.length < s.length
  | [], _, _, h => by cases h
  | c :: s, v, rest, h => by
    unfold closeQuote at h
    split_ifs at h
    · cases s with
      | nil => cases h
      | cons d s' =>
        simp only [map_eq_some_iff, Prod.mk.injEq] at h
        obtain ⟨p, hp, -, rfl⟩ := h
        have := closeQuote_length hp
        simp only [length_cons]
        omega
    · cases h
      simp
    · simp only [map_eq_some_iff, Prod.mk.injEq] at h
      obtain ⟨p, hp, -, rfl⟩ := h
      exact Nat.lt_succ_of_lt (closeQuote_length hp)

theorem readMatcher_length {s rest : Bytes} {m : Matcher} (h : readMatcher s = some (m, rest)) :
    rest.length < s.length := by
  unfold readMatcher at h
  dsimp only at h
  split at h
  · cases h
  rename_i q r hq
  split_ifs at h
  simp only [map_eq_some_iff] at h
  obtain ⟨p, hp, -, rfl⟩ := h
  have hlt := closeQuote_length hp
  have hsub : (q :: r).Sublist s := by
    rw [← hq]
    exact (dropWhile_sublist _).trans ((dropWhile_sublist _).trans
      ((dropWhile_sublist _).trans (dropWhile_sublist _)))
  have := hsub.length_le
  simp only [length_cons] at this
  omega

/-- The matchers of a selector, from after its opening brace, and what follows the closing one. -/
def readBody (s : Bytes) : Option (List Matcher × Bytes) :=
  match s with
  | [] => none
  | c :: r =>
    if c = '}' then some ([], r)
    else if isIdentStart c then
      match _h : readMatcher (c :: r) with
      | none => none
      | some (m, rest) => (readBody rest).map fun p => (m :: p.1, p.2)
    else readBody r
termination_by s.length
decreasing_by
  · exact readMatcher_length _h
  · simp

theorem readBody_length {s rest : Bytes} {ms : List Matcher} (h : readBody s = some (ms, rest)) :
    rest.length < s.length := by
  fun_induction readBody s generalizing ms with
  | case1 => cases h
  | case2 => cases h; simp
  | case3 => cases h
  | case4 c r _ _ m rest' hm ih =>
    simp only [map_eq_some_iff] at h
    obtain ⟨p, hp, -, rfl⟩ := h
    exact (ih hp).trans (readMatcher_length hm)
  | case5 c r _ _ ih => exact Nat.lt_succ_of_lt (ih h)

def isExponentMark (c : UInt8) : Bool := c = 'e' || c = 'E'

def isSign (c : UInt8) : Bool := c = '+' || c = '-'

/-- A mark and its digits, with an optional sign between; empty where there is none. -/
def exponent : Bytes → Bytes
  | e :: d :: r =>
    if !isExponentMark e then []
    else if isDigit d then e :: d :: r.takeWhile isDigit
    else if isSign d && r.head?.any isDigit then e :: d :: r.takeWhile isDigit
    else []
  | _ => []

def numeral (s : Bytes) : Bytes :=
  let mantissa := s.takeWhile fun c => isDigit c || c = '.'
  mantissa ++ exponent (s.dropWhile fun c => isDigit c || c = '.')

def tokens (s : Bytes) : List Token :=
  match s with
  | [] => []
  | c :: r =>
    if isSpace c then .space :: tokens r
    else if c = '\"' then
      match _h : closeQuote r with
      | some (v, rest) => .literal v :: tokens rest
      | none => .byte c :: tokens r
    else if c = '{' then
      match _h : readBody r with
      | some (ms, rest) => .selector ms :: tokens rest
      | none => .byte c :: tokens r
    else if isIdentStart c then
      .ident (c :: r.takeWhile isIdentCont) :: tokens (r.dropWhile isIdentCont)
    else if isDigit c then
      .number (numeral (c :: r)) :: tokens (r.drop ((numeral (c :: r)).length - 1))
    else .byte c :: tokens r
termination_by s.length
decreasing_by
  · simp
  · exact Nat.lt_succ_of_lt (closeQuote_length _h)
  · simp
  · exact Nat.lt_succ_of_lt (readBody_length _h)
  · simp
  · exact Nat.lt_succ_of_le (dropWhile_sublist _).length_le
  · exact Nat.lt_succ_of_le (drop_sublist _ _).length_le
  · simp

/-! ### The token a text begins with -/

section First

variable {c : UInt8} {r rest : Bytes}

theorem tokens_nil : tokens [] = [] := by rw [tokens]

theorem isIdentStart_facts : ∀ c : UInt8, isIdentStart c = true →
    isSpace c = false ∧ c ≠ '\"' ∧ c ≠ '{' ∧ c ≠ '}' ∧ isDigit c = false ∧ isIdentCont c = true :=
  forall_byte (by decide +kernel)

theorem isDigit_facts : ∀ c : UInt8, isDigit c = true →
    isSpace c = false ∧ c ≠ '\"' ∧ c ≠ '{' ∧ isIdentStart c = false ∧ isNumberByte c = true :=
  forall_byte (by decide +kernel)

theorem tokens_space (h : isSpace c = true) : tokens (c :: r) = .space :: tokens r := by
  rw [tokens, if_pos h]

theorem tokens_literal {v : Bytes} (h : closeQuote r = some (v, rest)) :
    tokens (('\"' : UInt8) :: r) = .literal v :: tokens rest := by
  rw [tokens, if_neg (by decide), if_pos rfl]
  split
  · rename_i h'
    obtain ⟨rfl, rfl⟩ := Prod.mk.inj (some.inj (h.symm.trans h'))
    rfl
  · rename_i h'
    cases h.symm.trans h'

theorem tokens_selector {ms : List Matcher} (h : readBody r = some (ms, rest)) :
    tokens (('{' : UInt8) :: r) = .selector ms :: tokens rest := by
  rw [tokens, if_neg (by decide), if_neg (by decide), if_pos rfl]
  split
  · rename_i h'
    obtain ⟨rfl, rfl⟩ := Prod.mk.inj (some.inj (h.symm.trans h'))
    rfl
  · rename_i h'
    cases h.symm.trans h'

theorem tokens_ident (h : isIdentStart c = true) :
    tokens (c :: r) = .ident (c :: r.takeWhile isIdentCont) ::
      tokens (r.dropWhile isIdentCont) := by
  obtain ⟨hsp, hq, hb, -⟩ := isIdentStart_facts c h
  rw [tokens, if_neg (by simp [hsp]), if_neg hq, if_neg hb, if_pos h]

theorem tokens_number (h : isDigit c = true) :
    tokens (c :: r) =
      .number (numeral (c :: r)) :: tokens (r.drop ((numeral (c :: r)).length - 1)) := by
  obtain ⟨hsp, hq, hb, hi, -⟩ := isDigit_facts c h
  rw [tokens, if_neg (by simp [hsp]), if_neg hq, if_neg hb, if_neg (by simp [hi]), if_pos h]

theorem tokens_byte (hsp : isSpace c = false) (hq : c ≠ '\"') (hb : c ≠ '{')
    (hi : isIdentStart c = false) (hd : isDigit c = false) :
    tokens (c :: r) = .byte c :: tokens r := by
  rw [tokens, if_neg (by simp [hsp]), if_neg hq, if_neg hb, if_neg (by simp [hi]),
    if_neg (by simp [hd])]

end First

/-! ### Numerals -/

section Numeral

variable {t : Bytes}

theorem isNumberByte_facts : ∀ c : UInt8, isNumberByte c = false →
    isDigit c = false ∧ isExponentMark c = false ∧ isSign c = false ∧ c ≠ '.' :=
  forall_byte (by decide +kernel)

theorem exponent_append (ht : ∀ c, t.head? = some c → isNumberByte c = false) (x : Bytes) :
    exponent (x ++ t) = exponent x := by
  have hdig : ∀ c, t.head? = some c → isDigit c = false := fun c hc =>
    (isNumberByte_facts c (ht c hc)).1
  match x with
  | [] =>
    match t with
    | [] => rfl
    | [c] => rfl
    | c :: d :: t => simp [exponent, (isNumberByte_facts c (ht c rfl)).2.1]
  | [e] =>
    match t with
    | [] => rfl
    | d :: t =>
      obtain ⟨hd, -, hs, -⟩ := isNumberByte_facts d (ht d rfl)
      simp [exponent, hd, hs]
  | e :: d :: r =>
    have hhead : (r ++ t).head?.any isDigit = r.head?.any isDigit := by
      cases r with
      | cons a r => rfl
      | nil =>
        cases t with
        | nil => rfl
        | cons c t => simp [hdig c rfl]
    simp only [cons_append, exponent, hhead, (takeWhile_append_stop hdig r).1]

theorem exponent_prefix (x : Bytes) : exponent x <+: x := by
  match x with
  | [] => exact prefix_rfl
  | [e] => exact nil_prefix
  | e :: d :: r =>
    rw [exponent]
    split_ifs
    · exact nil_prefix
    iterate 2 exact prefix_append_right_inj [e, d] |>.mpr ( takeWhile_prefix _)
    · exact nil_prefix

theorem numeral_append (ht : ∀ c, t.head? = some c → isNumberByte c = false) (x : Bytes) :
    numeral (x ++ t) = numeral x := by
  have hstop : ∀ c, t.head? = some c → (isDigit c || decide (c = '.')) = false := fun c hc => by
    obtain ⟨hd, -, -, hdot⟩ := isNumberByte_facts c (ht c hc)
    simp [hd, hdot]
  obtain ⟨h₁, h₂⟩ := takeWhile_append_stop hstop x
  rw [numeral, h₁, h₂, exponent_append ht, numeral]

theorem numeral_prefix (x : Bytes) : numeral x <+: x := by
  obtain ⟨r, hr⟩ := exponent_prefix (x.dropWhile fun c => isDigit c || c = '.')
  exact ⟨r, by rw [numeral, append_assoc, hr, takeWhile_append_dropWhile]⟩

/-- A text with a leading digit begins with a numeral, which no other byte of numbers follows. -/
theorem tokens_numeral {c : UInt8} (hc : isDigit c = true) (x : Bytes) :
    ∃ n y, y.length ≤ x.length ∧ (∀ d ∈ y, d ∈ x) ∧
      ∀ t, (∀ c, t.head? = some c → isNumberByte c = false) →
        tokens (c :: (x ++ t)) = .number n :: tokens (y ++ t) := by
  obtain ⟨y, hy⟩ := numeral_prefix (c :: x)
  obtain ⟨n, hn⟩ : ∃ n, numeral (c :: x) = c :: n := by simp [numeral, hc]
  rw [hn, cons_append] at hy
  obtain rfl := (List.cons.inj hy).2
  refine ⟨c :: n, y, by simp, fun d hd => mem_append_right _ hd, fun t ht => ?_⟩
  have hnum : numeral (c :: ((n ++ y) ++ t)) = c :: n := by
    rw [← cons_append, numeral_append ht, hn]
  rw [tokens_number hc, hnum]
  simp

end Numeral

/-! ### Isolation -/

/-- The selector the tokens begin with, after spaces. -/
def nextSelector : List Token → Option (List Matcher)
  | .space :: ts => nextSelector ts
  | .selector ms :: _ => some ms
  | _ => none

/-- The tenant's matcher, as it is read. -/
def tenantIs (id : Bytes) : Matcher := ⟨tenantLabelName, "=", id⟩

/-- Every metric name is followed by a selector with the tenant's matcher. -/
def tenantScoped (id : Bytes) : List Token → Bool
  | [] => true
  | .ident _ :: ts => (nextSelector ts).any (·.contains (tenantIs id)) && tenantScoped id ts
  | _ :: ts => tenantScoped id ts

example : tokens "up + 1e5" =
    [.ident "up", .space, .byte '+', .space, .number "1e5"] := by decide +kernel

end Cios.Tenant
