import Cios.Support.Text

/-!
# Tenant — the label-tier rewriter

`InjectTenantLabel` (`pkg/tenant/promql.go`) rewrites a PromQL text so that its selectors carry a
`tenant="<id>"` matcher, in one forward pass that refuses what it cannot audit.  The pass walks the
remaining bytes and appends to what it has written; a refusal is a `Bypass`, with the byte offsets
of the source's messages.
-/

namespace Cios.Tenant
open Text List

/-- Why a query is refused. -/
inductive Bypass where
  | emptyQuery
  | emptyTenantID
  | tenantIDByte (b : UInt8) (offset : Nat)
  | tenantIDControlByte (b : UInt8) (offset : Nat)
  | trailingContent (i : Nat)
  | noSelector
  | comment (i : Nat)
  | group (i : Nat)
  | rangeVector (i : Nat)
  | vectorOperator (word : Bytes) (i : Nat)
  | followedByIdentifier (word : Bytes) (k : Nat)
  | byteAfterMetric (b : UInt8) (word : Bytes) (k : Nat)
  | selectorComment (j : Nat)
  | nestedSelector (j : Nat)
  | missingOperator (name : Bytes) (j : Nat)
  | badOperator (name : Bytes) (j : Nat)
  | missingValue (name : Bytes) (j : Nat)
  | unquotedValue (name : Bytes) (j : Nat)
  | tenantAlreadySet (nameStart : Nat)
  | unterminatedSelector (openIdx : Nat)
  | multiLineString (i : Nat)
  | unterminatedString (openIdx : Nat)
deriving DecidableEq, Repr

/-! ### Bytes -/

variable (c : UInt8)

def isSpace : Bool := c = ' ' || c = '\t' || c = '\n' || c = '\r'

def isBlank : Bool := c = ' ' || c = '\t'

def isSeparator : Bool := isSpace c || c = ','

def isIdentStart : Bool := isLower c || isUpper c || c = '_' || c = ':'

def isIdentCont : Bool := isIdentStart c || isDigit c

/-- What continues the numeric branch once it has begun. -/
def isNumberByte : Bool :=
  isDigit c || c = '.' || c = 'e' || c = 'E' || c = '-' || c = '+'

def isOperatorStart : Bool :=
  c = '+' || c = '-' || c = '*' || c = '/' || c = '%' || c = '^'

/-! ### The tenant's matcher -/

def tenantLabelName : Bytes := "tenant"

/-- `validateTenantIDForLabel`, from an offset on. -/
def validateTenantIDForLabel : Nat → Bytes → Except Bypass Unit
  | _, [] => .ok ()
  | i, b :: id =>
    if b = '\\' || b = '\"' || b = '\n' || b = '\r' || b = '\t' then .error (.tenantIDByte b i)
    else if b < 0x20 then .error (.tenantIDControlByte b i)
    else validateTenantIDForLabel (i + 1) id

def escapeTenantIDForLabel (id : Bytes) : Bytes :=
  id.flatMap fun b : UInt8 =>
    if b = '\\' then lit "\\\\" else if b = '\"' then lit "\\\"" else if b = '\n' then lit "\\n"
    else [b]

def tenantMatcher (id : Bytes) : Bytes :=
  tenantLabelName ++ (lit "=\"" ++ (escapeTenantIDForLabel id ++ lit "\""))

def injectSyntheticSelector (out id : Bytes) : Bytes :=
  out ++ (lit "\x7b" ++ (tenantMatcher id ++ lit "\x7d"))

theorem map_ok {ε α β : Type} {x : Except ε α} {f : α → β} {b : β} (h : x.map f = .ok b) :
    ∃ a, x = .ok a ∧ f a = b := by
  cases x with
  | error e => cases h
  | ok a => exact ⟨a, rfl, Except.ok.inj h⟩

/-! ### String literals -/

/-- The rest of a literal up to its closing quote, and what follows it. -/
def scanQuotedString (openIdx : Nat) : Nat → Bytes → Except Bypass (Bytes × Bytes)
  | _, [] => .error (.unterminatedString openIdx)
  | i, c :: s =>
    if c = '\\' then
      match s with
      | [] => .error (.unterminatedString openIdx)
      | d :: s' =>
        if d = '\n' then .error (.multiLineString i)
        else (scanQuotedString openIdx (i + 2) s').map fun p => (c :: d :: p.1, p.2)
    else if c = '\"' then .ok ([c], s)
    else if c = '\n' then .error (.multiLineString i)
    else (scanQuotedString openIdx (i + 1) s).map fun p => (c :: p.1, p.2)

/-- The same loop, which writes the literal as it goes. -/
def copyStringLiteral (openIdx : Nat) (s out : Bytes) : Except Bypass (Bytes × Nat × Bytes) :=
  (scanQuotedString openIdx (openIdx + 1) s).map fun p =>
    (out ++ (lit "\"" ++ p.1), openIdx + 1 + p.1.length, p.2)

/-! ### Selectors -/

/-- The optional `~` of a matcher's operator. -/
def cutTilde (s : Bytes) : Bytes × Bytes :=
  if s.head? = some ('~' : UInt8) then (s.take 1, s.drop 1) else ([], s)

/-- One matcher `<name><op>"<value>"` of a body: its bytes and what follows. -/
def scanMatcher (nameStart : Nat) (s : Bytes) : Except Bypass (Bytes × Bytes) :=
  let name := s.takeWhile isIdentCont
  let afterName := s.dropWhile isIdentCont
  let gap := afterName.takeWhile isBlank
  let j3 := nameStart + name.length + gap.length
  match afterName.dropWhile isBlank with
  | [] => .error (.missingOperator name j3)
  | op :: afterOp =>
    if op ≠ '=' ∧ op ≠ '!' then .error (.badOperator name j3)
    else
      let (tilde, afterTilde) := cutTilde afterOp
      let gap' := afterTilde.takeWhile isBlank
      let j4 := j3 + 1 + tilde.length + gap'.length
      match afterTilde.dropWhile isBlank with
      | [] => .error (.missingValue name j4)
      | q :: value =>
        if q ≠ '\"' then .error (.unquotedValue name j4)
        else match scanQuotedString j4 (j4 + 1) value with
          | .error e => .error e
          | .ok (literal, rest) =>
            if name = tenantLabelName then .error (.tenantAlreadySet nameStart)
            else .ok (name ++ (gap ++ (op :: (tilde ++ (gap' ++ q :: literal)))), rest)

theorem scanQuotedString_ok {o i : Nat} {s literal rest : Bytes}
    (h : scanQuotedString o i s = .ok (literal, rest)) :
    s = literal ++ rest ∧ literal.getLast? = some ('\"' : UInt8) := by
  fun_induction scanQuotedString o i s generalizing literal with
  | case1 | case2 | case3 | case6 => cases h
  | case5 => cases h; simp
  | case4 | case7 =>
    rename_i ih
    obtain ⟨p, hp, he⟩ := map_ok h
    obtain ⟨rfl, rfl⟩ := Prod.mk.inj he
    obtain ⟨rfl, hlast⟩ := ih hp
    exact ⟨by simp, by simp [getLast?_cons, hlast]⟩

theorem cutTilde_append (s : Bytes) : (cutTilde s).1 ++ (cutTilde s).2 = s := by
  unfold cutTilde
  split
  · exact take_append_drop 1 s
  · rfl

theorem mem_cutTilde {s : Bytes} {c : UInt8} (h : c ∈ (cutTilde s).1) : c = '~' := by
  unfold cutTilde at h
  split at h
  · cases s with
    | nil => simp at h
    | cons d s => simp_all
  · simp at h

/-- The bytes of an accepted matcher, by its name and what follows it. -/
inductive MatcherText (name rest : Bytes) : Bytes → Prop where
  | mk {gap tilde gap' literal : Bytes} {op : UInt8} {o i : Nat}
      (hgap : ∀ c ∈ gap, isBlank c = true) (hop : op = '=' ∨ op = '!')
      (htilde : ∀ c ∈ tilde, c = '~') (hgap' : ∀ c ∈ gap', isBlank c = true)
      (hlit : scanQuotedString o i (literal ++ rest) = .ok (literal, rest)) :
      MatcherText name rest
        (name ++ (gap ++ (op :: (tilde ++ (gap' ++ ('\"' : UInt8) :: literal)))))

theorem MatcherText.ne_nil {name rest raw : Bytes} (h : MatcherText name rest raw) : raw ≠ [] := by
  cases h
  simp

theorem scanMatcher_ok {o : Nat} {s raw rest : Bytes} (h : scanMatcher o s = .ok (raw, rest)) :
    s = raw ++ rest ∧ s.takeWhile isIdentCont ≠ tenantLabelName ∧
      MatcherText (s.takeWhile isIdentCont) rest raw := by
  unfold scanMatcher at h
  dsimp only at h
  split at h
  · cases h
  rename_i op afterOp hop
  split at h
  · cases h
  split at h
  · cases h
  rename_i q value hq
  split at h
  · cases h
  rename_i hquote
  split at h
  · cases h
  rename_i literal rest' hlit
  split at h
  · cases h
  rename_i hname
  obtain rfl : q = '\"' := not_not.mp hquote
  obtain ⟨rfl, -⟩ := scanQuotedString_ok hlit
  cases h
  refine ⟨?_, hname, .mk (fun c hc => mem_takeWhile_imp hc) (by tauto)
    (fun c hc => mem_cutTilde hc) (fun c hc => mem_takeWhile_imp hc) hlit⟩
  have htilde := congrArg ((cutTilde afterOp).1 ++ ·)
    (takeWhile_append_dropWhile (p := isBlank) (l := (cutTilde afterOp).2))
  rw [hq, cutTilde_append] at htilde
  have hgap := takeWhile_append_dropWhile (p := isBlank) (l := s.dropWhile isIdentCont)
  rw [hop, ← htilde] at hgap
  have hs := takeWhile_append_dropWhile (p := isIdentCont) (l := s)
  rw [← hgap] at hs
  simpa using hs.symm

theorem scanMatcher_length {o : Nat} {s raw rest : Bytes}
    (h : scanMatcher o s = .ok (raw, rest)) : rest.length < s.length := by
  obtain ⟨hs, -, hraw⟩ := scanMatcher_ok h
  have hpos := length_pos_of_ne_nil hraw.ne_nil
  have hlen := congrArg List.length hs
  rw [length_append] at hlen
  omega

/-- The bytes written without their trailing separators, and those.  The first byte stays. -/
def trimTrailingSeparators (out : Bytes) : Bytes × Bytes :=
  let trail := (out.tail.reverse.takeWhile isSeparator).reverse
  (out.take (out.length - trail.length), trail)

/-- The loop of `rewriteSelector`: the bytes written, the index after the brace and what follows. -/
def rewriteBody (id : Bytes) (openIdx j : Nat) (s out : Bytes) (sawMatcher : Bool) :
    Except Bypass (Bytes × Nat × Bytes) :=
  match s with
  | [] => .error (.unterminatedSelector openIdx)
  | c :: r =>
    if isSeparator c then rewriteBody id openIdx (j + 1) r (out ++ [c]) sawMatcher
    else if c = '#' then .error (.selectorComment j)
    else if c = '{' then .error (.nestedSelector j)
    else if c = '}' then
      let (cur, trail) := trimTrailingSeparators out
      let comma : Bytes := if sawMatcher then "," else []
      .ok (cur ++ (comma ++ (tenantMatcher id ++ (trail ++ [c]))), j + 1, r)
    else if isIdentStart c then
      match _h : scanMatcher j (c :: r) with
      | .error e => .error e
      | .ok (raw, rest) => rewriteBody id openIdx (j + raw.length) rest (out ++ raw) true
    else rewriteBody id openIdx (j + 1) r (out ++ [c]) sawMatcher
termination_by s.length
decreasing_by
  · simp
  · exact scanMatcher_length _h
  · simp

/-- The body begins after the opening brace. -/
def rewriteSelector (id : Bytes) (openIdx : Nat) (s out : Bytes) :
    Except Bypass (Bytes × Nat × Bytes) :=
  rewriteBody id openIdx (openIdx + 1) s (out ++ lit "\x7b") false

theorem rewriteBody_length {id : Bytes} {o j k : Nat} {s out out' rest : Bytes} {b : Bool}
    (h : rewriteBody id o j s out b = .ok (out', k, rest)) : rest.length < s.length := by
  fun_induction rewriteBody id o j s out b with
  | case1 => cases h
  | case2 j out b c r hsep ih => exact Nat.lt_succ_of_lt (ih h)
  | case3 => cases h
  | case4 => cases h
  | case5 => cases h; simp
  | case6 => cases h
  | case7 j out b c r _ _ _ _ _ raw rest' hm ih => exact (ih h).trans (scanMatcher_length hm)
  | case8 j out b c r _ _ _ _ _ ih => exact Nat.lt_succ_of_lt (ih h)

/-! ### The forward pass -/

/-- What follows a bare word decides whether a selector is injected after it. -/
def lookAhead (id word : Bytes) (i : Nat) (rest out : Bytes) (sawSelector : Bool) :
    Except Bypass (Bytes × Bool) :=
  let k := i + (rest.takeWhile isSpace).length
  match rest.dropWhile isSpace with
  | [] => .ok (injectSyntheticSelector out id, true)
  | c :: _ =>
    if c = '{' then .ok (out, sawSelector)
    else if isOperatorStart c then
      if sawSelector then .ok (out, sawSelector) else .ok (injectSyntheticSelector out id, true)
    else if isIdentStart c then .error (.followedByIdentifier word k)
    else .error (.byteAfterMetric c word k)

def isVectorOperator (word : Bytes) : Bool := word = "or" || word = "and" || word = "unless"

/-- `injectScan`: the index reached, whether a selector was seen, and the bytes written. -/
def injectScan (id : Bytes) (i : Nat) (s out : Bytes) (sawSelector : Bool) :
    Except Bypass (Nat × Bool × Bytes) :=
  match s with
  | [] => .ok (i, sawSelector, out)
  | c :: r =>
    if isSpace c then injectScan id (i + 1) r (out ++ [c]) sawSelector
    else if c = '#' then .error (.comment i)
    else if c = '(' then .error (.group i)
    else if c = '[' then .error (.rangeVector i)
    else if c = '{' then
      match _h : rewriteSelector id i r out with
      | .error e => .error e
      | .ok (out', selEnd, rest) => injectScan id selEnd rest out' true
    else if c = '\"' then
      match _h : copyStringLiteral i r out with
      | .error e => .error e
      | .ok (out', i2, rest) => injectScan id i2 rest out' sawSelector
    else if isIdentStart c then
      let word := c :: r.takeWhile isIdentCont
      let rest := r.dropWhile isIdentCont
      let j := i + word.length
      if isVectorOperator word then .error (.vectorOperator word i)
      else match lookAhead id word j rest (out ++ word) sawSelector with
        | .error e => .error e
        | .ok (out', saw') => injectScan id j rest out' saw'
    else if c = '-' || c = '+' || isDigit c then
      let number := c :: r.takeWhile isNumberByte
      injectScan id (i + number.length) (r.dropWhile isNumberByte) (out ++ number) sawSelector
    else injectScan id (i + 1) r (out ++ [c]) sawSelector
termination_by s.length
decreasing_by
  · simp
  · exact Nat.lt_succ_of_lt (rewriteBody_length _h)
  · rw [copyStringLiteral] at _h
    obtain ⟨p, hp, he⟩ := map_ok _h
    simp only [Prod.mk.injEq] at he
    obtain ⟨-, -, rfl⟩ := he
    have := congrArg List.length (scanQuotedString_ok hp).1
    simp at this ⊢
    omega
  iterate 2 exact Nat.lt_succ_of_le (dropWhile_sublist _).length_le
  · simp

def injectTenantLabel (promql tenantID : Bytes) : Except Bypass Bytes :=
  if promql = [] then .error .emptyQuery
  else if tenantID = [] then .error .emptyTenantID
  else match validateTenantIDForLabel 0 tenantID with
    | .error e => .error e
    | .ok () =>
      match injectScan tenantID 0 promql [] false with
      | .error e => .error e
      | .ok (i, sawSelector, out) =>
        if i ≠ promql.length then .error (.trailingContent i)
        else if !sawSelector then .error .noSelector
        else .ok out

end Cios.Tenant
