import Cios.Tenant.ReadBack

/-!
# Tenant — plain selectors

A plain selector (`PlainSelector`) is a metric name and a list of label matchers in braces, with
white space between any two of its tokens.  The rewriter should accept every one and add the
tenant's matcher after the last of its own (`PlainSelector.withTenant`).

It takes the operator of a matcher to be one byte and an optional `~`, so it reads `!=` as `!` and
then misses the quote; it skips spaces and tabs around the operator, but no line end; and a metric
named like a set operator is refused for one (`injectTenantLabel_plain_iff`).
-/

namespace Cios.Tenant
open Text List

/-! ### Selectors -/

structure Spaces where
  text : Bytes
  spaces : ∀ c ∈ text, isSpace c = true

/-- The name of a metric or of a label. -/
structure Ident where
  first : UInt8
  rest : Bytes
  start : isIdentStart first = true
  cont : ∀ c ∈ rest, isIdentCont c = true

def Ident.text (w : Ident) : Bytes := w.first :: w.rest

/-- A byte or an escape of a string on one line. -/
inductive ValueChar where
  | plain (c : UInt8) (h : c ≠ '\\' ∧ c ≠ '\"' ∧ c ≠ '\n')
  | escape (d : UInt8) (h : d ≠ '\n')

def ValueChar.text : ValueChar → Bytes
  | plain c _ => [c]
  | escape d _ => ['\\', d]

inductive MatchOp where
  | equal
  | notEqual
  | regexMatch
  | regexNoMatch
deriving DecidableEq, Repr

def MatchOp.text : MatchOp → Bytes
  | equal => "="
  | notEqual => "!="
  | regexMatch => "=~"
  | regexNoMatch => "!~"

structure PlainMatcher where
  lead : Spaces
  label : Ident
  op : MatchOp
  value : List ValueChar
  trail : Spaces
  /-- What stands between the label and the operator, and between that and the value. -/
  gap : Spaces
  gap' : Spaces
  other : label.text ≠ tenantLabelName

namespace PlainMatcher

variable (m : PlainMatcher)

/-- The value, from after its opening quote. -/
def literal : Bytes := m.value.flatMap ValueChar.text ++ [('\"' : UInt8)]

def raw : Bytes :=
  m.label.text ++ (m.gap.text ++ (m.op.text ++ (m.gap'.text ++ ('\"' : UInt8) :: m.literal)))

def text : Bytes := m.lead.text ++ (m.raw ++ m.trail.text)

/-- The matchers of a body, between commas. -/
def joined : List PlainMatcher → Bytes
  | [] => []
  | [m] => m.text
  | m :: m' :: ms => m.text ++ (lit "," ++ joined (m' :: ms))

/-- The same with one more after the last of them, or alone. -/
def joinedWith (t : Bytes) : List PlainMatcher → Bytes
  | [] => t
  | [m] => m.lead.text ++ (m.raw ++ (lit "," ++ (t ++ m.trail.text)))
  | m :: m' :: ms => m.text ++ (lit "," ++ joinedWith t (m' :: ms))

/-- What the rewriter can read. -/
def Readable : Prop :=
  m.op ≠ .notEqual ∧ (∀ c ∈ m.gap.text, isBlank c = true) ∧ ∀ c ∈ m.gap'.text, isBlank c = true

end PlainMatcher

/-- A selector with matchers, or with white space in the braces. -/
structure PlainSelector where
  metric : Ident
  gap : Spaces
  matchers : List PlainMatcher
  blank : Spaces

namespace PlainSelector

def text (q : PlainSelector) : Bytes :=
  q.metric.text ++ (q.gap.text ++
    (lit "\x7b" ++ (PlainMatcher.joined q.matchers ++ (q.blank.text ++ lit "\x7d"))))

def withTenant (q : PlainSelector) (id : Bytes) : Bytes :=
  q.metric.text ++ (q.gap.text ++ (lit "\x7b" ++
    (PlainMatcher.joinedWith (lit "tenant=\"" ++ (id ++ lit "\"")) q.matchers ++
      (q.blank.text ++ lit "\x7d"))))

end PlainSelector

/-! ### A matcher -/

theorem isSpace_facts : ∀ c : UInt8, isSpace c = true → isSeparator c = true ∧
    isIdentCont c = false ∧ c ≠ '=' ∧ c ≠ '!' ∧ c ≠ '~' ∧ c ≠ '\"' :=
  forall_byte (by decide +kernel)

theorem Spaces.separators (l : Spaces) : ∀ c ∈ l.text, isSeparator c = true :=
  fun c hc => (isSpace_facts c (l.spaces c hc)).1

theorem Spaces.head {P : UInt8 → Prop} (l : Spaces) {d : UInt8} {r : Bytes}
    (hspace : ∀ c, isSpace c = true → P c) (hd : P d) :
    ∀ c, (l.text ++ d :: r).head? = some c → P c := by
  intro c hc
  cases hl : l.text with
  | nil =>
    rw [hl] at hc
    cases hc
    exact hd
  | cons e t =>
    rw [hl] at hc
    cases hc
    exact hspace c (l.spaces c (by simp [hl]))

/-- White space with a line end in it is not skipped to its end. -/
theorem Spaces.dropWhile_blank (l : Spaces) (h : ¬ ∀ c ∈ l.text, isBlank c = true) (r : Bytes) :
    ∃ c t, (l.text ++ r).dropWhile isBlank = c :: t ∧ isSpace c = true := by
  cases hd : l.text.dropWhile isBlank with
  | nil => exact absurd (dropWhile_eq_nil_iff.mp hd) h
  | cons c t =>
    refine ⟨c, t ++ r, ?_, l.spaces c ((dropWhile_sublist _).subset (by rw [hd]; simp))⟩
    rw [dropWhile_append, hd]
    rfl

theorem Ident.cont_text (w : Ident) : ∀ c ∈ w.text, isIdentCont c = true := by
  rw [Ident.text, forall_mem_cons]
  exact ⟨(isIdentStart_facts w.first w.start).2.2.2.2.2, w.cont⟩

/-- A value is scanned up to its quote. -/
theorem scanQuotedString_value (o i : Nat) (v : List ValueChar) (rest : Bytes) :
    scanQuotedString o i (v.flatMap ValueChar.text ++ ('\"' : UInt8) :: rest) =
      .ok (v.flatMap ValueChar.text ++ [('\"' : UInt8)], rest) := by
  induction v generalizing i with
  | nil =>
    rw [scanQuotedString.eq_def]
    rfl
  | cons x v ih =>
    rw [scanQuotedString.eq_def]
    cases x with
    | plain c h => simp [ValueChar.text, h, ih, Except.map]
    | escape d h => simp [ValueChar.text, h, ih, Except.map]

/-- The operators that are one byte and an optional `~`. -/
theorem MatchOp.cut {op : MatchOp} (h : op ≠ .notEqual) : ∃ c tilde, op.text = c :: tilde ∧
    (c = '=' ∨ c = '!') ∧
    ∀ s : Bytes, (∀ d, s.head? = some d → d ≠ '~') → cutTilde (tilde ++ s) = (tilde, s) := by
  have hnone : ∀ s : Bytes, (∀ d, s.head? = some d → d ≠ '~') → cutTilde ([] ++ s) = ([], s) := by
    intro s hs
    rw [nil_append, cutTilde, if_neg fun hc => hs _ hc rfl]
  cases op with
  | equal => exact ⟨'=', [], rfl, .inl rfl, hnone⟩
  | notEqual => exact absurd rfl h
  | regexMatch => exact ⟨'=', [('~' : UInt8)], rfl, .inl rfl, fun s _ => rfl⟩
  | regexNoMatch => exact ⟨'!', [('~' : UInt8)], rfl, .inr rfl, fun s _ => rfl⟩

theorem MatchOp.head (op : MatchOp) : ∃ c tail, op.text = c :: tail ∧ (c = '=' ∨ c = '!') := by
  cases op with
  | equal => exact ⟨_, _, rfl, .inl rfl⟩
  | notEqual => exact ⟨_, _, rfl, .inr rfl⟩
  | regexMatch => exact ⟨_, _, rfl, .inl rfl⟩
  | regexNoMatch => exact ⟨_, _, rfl, .inr rfl⟩

section Matcher

variable (m : PlainMatcher) (j : Nat) (rest : Bytes)

theorem PlainMatcher.raw_label :
    (m.raw ++ rest).takeWhile isIdentCont = m.label.text ∧
      (m.raw ++ rest).dropWhile isIdentCont = m.gap.text ++
        (m.op.text ++ (m.gap'.text ++ ('\"' : UInt8) :: (m.literal ++ rest))) := by
  have hstop : ∀ c, (m.gap.text ++ (m.op.text ++
      (m.gap'.text ++ ('\"' : UInt8) :: (m.literal ++ rest)))).head? = some c →
        isIdentCont c = false := by
    obtain ⟨c, tail, hop, hc⟩ := m.op.head
    rw [hop, cons_append]
    refine m.gap.head (fun c hc => (isSpace_facts c hc).2.1) ?_
    rcases hc with rfl | rfl <;> decide
  have hraw : m.raw ++ rest = m.label.text ++ (m.gap.text ++ (m.op.text ++
      (m.gap'.text ++ ('\"' : UInt8) :: (m.literal ++ rest)))) := by
    simp [PlainMatcher.raw]
  rw [hraw]
  exact takeWhile_run m.label.cont_text hstop

variable {m}

/-- After the label: a blank gap, then an operator that is one byte and an optional `~`. -/
theorem PlainMatcher.raw_op (hop : m.op ≠ .notEqual) (hgap : ∀ c ∈ m.gap.text, isBlank c = true) :
    let value := m.gap'.text ++ ('\"' : UInt8) :: (m.literal ++ rest)
    ∃ c tilde, m.op.text = c :: tilde ∧ ¬ (c ≠ '=' ∧ c ≠ '!') ∧
      (m.gap.text ++ c :: (tilde ++ value)).takeWhile isBlank = m.gap.text ∧
      (m.gap.text ++ c :: (tilde ++ value)).dropWhile isBlank = c :: (tilde ++ value) ∧
      cutTilde (tilde ++ value) = (tilde, value) := by
  obtain ⟨c, tilde, htext, hc, hcut⟩ := MatchOp.cut hop
  have hop' : isBlank c = false := by rcases hc with rfl | rfl <;> decide
  obtain ⟨hg, hg'⟩ := takeWhile_run (p := isBlank)
    (r := c :: (tilde ++ (m.gap'.text ++ ('\"' : UInt8) :: (m.literal ++ rest)))) hgap
    (fun d hd => by cases hd; exact hop')
  have hcut' := hcut (m.gap'.text ++ ('\"' : UInt8) :: (m.literal ++ rest))
    (m.gap'.head (fun c hc => (isSpace_facts c hc).2.2.2.2.1) (by decide))
  exact ⟨c, tilde, htext, by tauto, hg, hg', hcut'⟩

theorem scanMatcher_readable (h : m.Readable) :
    scanMatcher j (m.raw ++ rest) = .ok (m.raw, rest) := by
  obtain ⟨hop, hgap, hgap'⟩ := h
  obtain ⟨hname, hafter⟩ := m.raw_label rest
  obtain ⟨c, tilde, htext, hquote, hg, hg', hcut⟩ := PlainMatcher.raw_op rest hop hgap
  obtain ⟨hv, hv'⟩ := takeWhile_run (p := isBlank)
    (r := ('\"' : UInt8) :: (m.literal ++ rest)) hgap'
    (fun d hd => by cases hd; decide)
  have hlit : ∀ o i, scanQuotedString o i (m.literal ++ rest) = .ok (m.literal, rest) := by
    intro o i
    rw [PlainMatcher.literal, append_assoc]
    exact scanQuotedString_value o i m.value rest
  rw [scanMatcher, hname, hafter, htext, cons_append]
  simp only [hg, hg', hcut, hv, hv', hlit, if_neg hquote, if_neg m.other]
  simp [PlainMatcher.raw, htext]

theorem scanMatcher_unreadable (h : ¬ m.Readable) :
    ∃ e, scanMatcher j (m.raw ++ rest) = .error e := by
  obtain ⟨hname, hafter⟩ := m.raw_label rest
  rw [scanMatcher, hname, hafter]
  by_cases hgap : ∀ c ∈ m.gap.text, isBlank c = true
  · by_cases hop : m.op = .notEqual
    · -- After the `!`, the `=` stands where the quote should.
      obtain ⟨-, hg'⟩ := takeWhile_run (p := isBlank)
        (r := ('!' : UInt8) :: ('=' : UInt8) ::
          (m.gap'.text ++ ('\"' : UInt8) :: (m.literal ++ rest))) hgap
        (fun d hd => by cases hd; decide)
      rw [hop, show MatchOp.notEqual.text = [('!' : UInt8), ('=' : UInt8)] from rfl,
        cons_append, cons_append, nil_append, hg']
      exact ⟨_, rfl⟩
    · -- The white space before the value has a line end.
      have hgap' : ¬ ∀ c ∈ m.gap'.text, isBlank c = true := fun hgap' => h ⟨hop, hgap, hgap'⟩
      obtain ⟨c, tilde, htext, hquote, -, hg', hcut⟩ := PlainMatcher.raw_op rest hop hgap
      obtain ⟨d, t, hd, hsp⟩ :=
        m.gap'.dropWhile_blank hgap' (('\"' : UInt8) :: (m.literal ++ rest))
      rw [htext, cons_append]
      simp only [hg', hcut, hd, if_neg hquote, if_pos (isSpace_facts d hsp).2.2.2.2.2]
      exact ⟨_, rfl⟩
  · -- The white space before the operator has a line end.
    obtain ⟨c, t, hc, hsp⟩ := m.gap.dropWhile_blank hgap
      (m.op.text ++ (m.gap'.text ++ ('\"' : UInt8) :: (m.literal ++ rest)))
    obtain ⟨-, -, hne, hne', -⟩ := isSpace_facts c hsp
    rw [hc]
    simp only [if_pos (And.intro hne hne')]
    exact ⟨_, rfl⟩

end Matcher

/-! ### A body -/

section Body

variable {id : Bytes} {o j : Nat} {s out : Bytes} {b : Bool}

theorem rewriteBody_separators {l : Bytes} (h : ∀ c ∈ l, isSeparator c = true) :
    rewriteBody id o j (l ++ s) out b = rewriteBody id o (j + l.length) s (out ++ l) b := by
  induction l generalizing j out with
  | nil => simp
  | cons c l ih =>
    rw [forall_mem_cons] at h
    rw [cons_append, rewriteBody, if_pos h.1, ih h.2]
    simp [Nat.add_assoc, Nat.add_comm 1]

theorem isIdentStart_body : ∀ c : UInt8, isIdentStart c = true →
    isSeparator c = false ∧ c ≠ '#' ∧ c ≠ '{' ∧ c ≠ '}' :=
  forall_byte (by decide +kernel)

theorem rewriteBody_ident {c : UInt8} (h : isIdentStart c = true) :
    rewriteBody id o j (c :: s) out b =
      match scanMatcher j (c :: s) with
      | .error e => .error e
      | .ok (raw, rest) => rewriteBody id o (j + raw.length) rest (out ++ raw) true := by
  obtain ⟨hsep, hcomment, hopen, hclose⟩ := isIdentStart_body c h
  rw [rewriteBody, if_neg (by simp [hsep]), if_neg hcomment, if_neg hopen, if_neg hclose, if_pos h]
  split <;> simp_all

variable (m : PlainMatcher)

theorem PlainMatcher.raw_cons : ∃ t, m.raw = m.label.first :: t := ⟨_, rfl⟩

theorem rewriteBody_readable {m : PlainMatcher} (h : m.Readable) :
    rewriteBody id o j (m.lead.text ++ (m.raw ++ s)) out b =
      rewriteBody id o (j + (m.lead.text ++ m.raw).length) s
        (out ++ (m.lead.text ++ m.raw)) true := by
  obtain ⟨t, ht⟩ := m.raw_cons
  have hscan := scanMatcher_readable (j + m.lead.text.length) s h
  rw [ht, cons_append] at hscan
  rw [rewriteBody_separators m.lead.separators, ht, cons_append,
    rewriteBody_ident m.label.start, hscan]
  simp [Nat.add_assoc]

theorem readable_of_rewriteBody {m : PlainMatcher} {r : Bytes × Nat × Bytes}
    (h : rewriteBody id o j (m.lead.text ++ (m.raw ++ s)) out b = .ok r) : m.Readable := by
  by_contra hread
  obtain ⟨t, ht⟩ := m.raw_cons
  obtain ⟨e, hscan⟩ := scanMatcher_unreadable (j + m.lead.text.length) s hread
  rw [ht, cons_append] at hscan
  rw [rewriteBody_separators m.lead.separators, ht, cons_append,
    rewriteBody_ident m.label.start, hscan] at h
  cases h

theorem rewriteBody_close {cur trail : Bytes} {d : UInt8} (hlast : cur.getLast? = some d)
    (hd : isSeparator d = false) (ht : ∀ c ∈ trail, isSeparator c = true) :
    rewriteBody id o j (trail ++ ('}' : UInt8) :: s) cur b =
      .ok (cur ++ ((if b then lit "," else []) ++ (tenantMatcher id ++ (trail ++ lit "\x7d"))),
        j + trail.length + 1, s) := by
  rw [rewriteBody_separators ht, rewriteBody, if_neg (by decide), if_neg (by decide),
    if_neg (by decide), if_pos rfl, trimTrailingSeparators_append hlast hd ht]
  rfl

theorem PlainMatcher.raw_getLast : m.raw.getLast? = some ('\"' : UInt8) := by
  simp [PlainMatcher.raw, PlainMatcher.literal, getLast?_cons]

theorem PlainMatcher.joined_cons (m m' : PlainMatcher) (ms : List PlainMatcher) (s : Bytes) :
    joined (m :: m' :: ms) ++ s =
      m.lead.text ++ (m.raw ++ ((m.trail.text ++ lit ",") ++ (joined (m' :: ms) ++ s))) := by
  simp [joined, text]

theorem PlainMatcher.joined_single (s : Bytes) :
    joined [m] ++ s = m.lead.text ++ (m.raw ++ (m.trail.text ++ s)) := by
  simp [joined, text]

theorem PlainMatcher.comma_separators :
    ∀ c ∈ m.trail.text ++ lit ",", isSeparator c = true := by
  intro c hc
  rcases mem_append.mp hc with hc | hc
  · exact m.trail.separators c hc
  · rw [mem_singleton.mp hc]
    decide

/-- **Accepted bodies.**  The tenant's matcher goes after the last of those that can be read. -/
theorem rewriteBody_joined {ms : List PlainMatcher} (h : ∀ m ∈ ms, m.Readable) (blank : Spaces)
    (hout : ms = [] → b = false ∧ ∃ d, out.getLast? = some d ∧ isSeparator d = false) :
    rewriteBody id o j (PlainMatcher.joined ms ++ (blank.text ++ ('}' : UInt8) :: s)) out b =
      .ok (out ++ (PlainMatcher.joinedWith (tenantMatcher id) ms ++ (blank.text ++ lit "\x7d")),
        j + (PlainMatcher.joined ms ++ blank.text).length + 1, s) := by
  fun_induction PlainMatcher.joinedWith (tenantMatcher id) ms generalizing j out b with
  | case1 =>
    obtain ⟨rfl, d, hlast, hd⟩ := hout rfl
    exact rewriteBody_close hlast hd blank.separators
  | case2 m =>
    have hseps : ∀ c ∈ m.trail.text ++ blank.text, isSeparator c = true := by
      intro c hc
      rcases mem_append.mp hc with hc | hc
      · exact m.trail.separators c hc
      · exact blank.separators c hc
    have hlast : (out ++ (m.lead.text ++ m.raw)).getLast? = some ('\"' : UInt8) := by
      simp [m.raw_getLast]
    rw [m.joined_single, ← append_assoc m.trail.text, rewriteBody_readable (h m (by simp)),
      rewriteBody_close hlast (by decide) hseps]
    simp [PlainMatcher.joined, PlainMatcher.text, Nat.add_assoc]
  | case3 m m' ms ih =>
    rw [m.joined_cons, rewriteBody_readable (h m (by simp)),
      rewriteBody_separators m.comma_separators, ih (fun m hm => h m (by simp [hm])) nofun]
    simp [PlainMatcher.joined, PlainMatcher.text, Nat.add_assoc]

/-- No other body is accepted. -/
theorem readable_of_rewriteBody_joined {ms : List PlainMatcher} {r : Bytes × Nat × Bytes}
    (h : rewriteBody id o j (PlainMatcher.joined ms ++ s) out b = .ok r) :
    ∀ m ∈ ms, m.Readable := by
  induction ms using PlainMatcher.joined.induct generalizing j out b with
  | case1 => simp
  | case2 m =>
    rw [m.joined_single] at h
    simpa using readable_of_rewriteBody h
  | case3 m m' ms ih =>
    rw [m.joined_cons] at h
    have hm := readable_of_rewriteBody h
    rw [rewriteBody_readable hm, rewriteBody_separators m.comma_separators] at h
    exact forall_mem_cons.mpr ⟨hm, ih h⟩

end Body

/-! ### The selector -/

/-- An id without the bytes that could end its label's value. -/
def ValidTenantID (id : Bytes) : Prop := id ≠ [] ∧ ∀ c ∈ id, c ≠ '\\' ∧ c ≠ '\"' ∧ 0x20 ≤ c

theorem validateTenantIDForLabel_valid {id : Bytes}
    (h : ∀ c ∈ id, c ≠ '\\' ∧ c ≠ '\"' ∧ 0x20 ≤ c) (i : Nat) :
    validateTenantIDForLabel i id = .ok () := by
  induction id generalizing i with
  | nil => rfl
  | cons c id ih =>
    rw [forall_mem_cons] at h
    obtain ⟨⟨hb, hq, hc⟩, hid⟩ := h
    have hctl : ¬ (c = '\n' ∨ c = '\r' ∨ c = '\t') := by
      rintro (rfl | rfl | rfl) <;> exact absurd hc (by decide)
    rw [validateTenantIDForLabel, if_neg (by simp; tauto), if_neg (by simpa using hc), ih hid]

section Scan

variable {id : Bytes} {i : Nat} {s out : Bytes} {saw : Bool}

theorem injectScan_spaces {l : Bytes} (h : ∀ c ∈ l, isSpace c = true) :
    injectScan id i (l ++ s) out saw = injectScan id (i + l.length) s (out ++ l) saw := by
  induction l generalizing i out with
  | nil => simp
  | cons c l ih =>
    rw [forall_mem_cons] at h
    rw [cons_append, injectScan, if_pos h.1, ih h.2]
    simp [Nat.add_assoc, Nat.add_comm 1]

theorem isIdentStart_scan : ∀ c : UInt8, isIdentStart c = true → isSpace c = false ∧ c ≠ '#' ∧
    c ≠ '(' ∧ c ≠ '[' ∧ c ≠ '{' ∧ c ≠ '\"' :=
  forall_byte (by decide +kernel)

theorem injectScan_metric (w : Ident) (gap : Spaces) :
    injectScan id i (w.text ++ (gap.text ++ ('{' : UInt8) :: s)) out saw =
      if isVectorOperator w.text then .error (.vectorOperator w.text i)
      else injectScan id (i + w.text.length) (gap.text ++ ('{' : UInt8) :: s)
        (out ++ w.text) saw := by
  obtain ⟨hsp, hcomment, hgroup, hrange, hopen, hquote⟩ := isIdentStart_scan w.first w.start
  obtain ⟨htake, hdrop⟩ := takeWhile_run (r := gap.text ++ ('{' : UInt8) :: s) w.cont
    (gap.head (fun c hc => (isSpace_facts c hc).2.1) (by decide))
  have hrest := (takeWhile_run (p := isSpace) (r := ('{' : UInt8) :: s) gap.spaces
    (fun c hc => by cases hc; decide)).2
  have hlook : ∀ j out, lookAhead id w.text j (gap.text ++ ('{' : UInt8) :: s) out saw =
      .ok (out, saw) := by
    intro j out
    rw [lookAhead, hrest]
    rfl
  rw [Ident.text, cons_append, injectScan, if_neg (by simp [hsp]), if_neg hcomment,
    if_neg hgroup, if_neg hrange, if_neg hopen, if_neg hquote, if_pos w.start, htake, hdrop]
  dsimp only
  rw [← Ident.text, hlook]

theorem injectScan_selector : injectScan id i (('{' : UInt8) :: s) out saw =
    match rewriteSelector id i s out with
    | .error e => .error e
    | .ok (out', selEnd, rest) => injectScan id selEnd rest out' true := by
  rw [injectScan, if_neg (by decide), if_neg (by decide), if_neg (by decide), if_neg (by decide),
    if_pos rfl]
  split <;> simp_all

end Scan

theorem PlainSelector.scan (q : PlainSelector) (id : Bytes)
    (h : isVectorOperator q.metric.text = false) :
    injectScan id 0 q.text [] false =
      match rewriteBody id (q.metric.text ++ q.gap.text).length
        ((q.metric.text ++ q.gap.text).length + 1)
        (PlainMatcher.joined q.matchers ++ (q.blank.text ++ [('}' : UInt8)]))
        (q.metric.text ++ (q.gap.text ++ lit "\x7b")) false with
      | .error e => .error e
      | .ok (out', selEnd, rest) => injectScan id selEnd rest out' true := by
  have htext : q.text = q.metric.text ++ (q.gap.text ++ ('{' : UInt8) ::
      (PlainMatcher.joined q.matchers ++ (q.blank.text ++ [('}' : UInt8)]))) := rfl
  rw [htext, injectScan_metric, if_neg (by simp [h]), injectScan_spaces q.gap.spaces,
    injectScan_selector, rewriteSelector]
  simp

theorem injectTenantLabel_valid {promql id : Bytes} (hne : promql ≠ []) (hid : ValidTenantID id) :
    injectTenantLabel promql id =
      match injectScan id 0 promql [] false with
      | .error e => .error e
      | .ok (i, sawSelector, out) =>
        if i ≠ promql.length then .error (.trailingContent i)
        else if !sawSelector then .error .noSelector
        else .ok out := by
  have hvalid := validateTenantIDForLabel_valid hid.2 0
  rw [injectTenantLabel, if_neg hne, if_neg hid.1]
  cases hv : validateTenantIDForLabel 0 id with
  | error e => exact nomatch hv.symm.trans hvalid
  | ok _ => rfl

theorem isVectorOperator_eq_false {w : Bytes} :
    isVectorOperator w = false ↔ w ≠ "or" ∧ w ≠ "and" ∧ w ≠ "unless" := by
  simp [isVectorOperator, and_assoc]

theorem ValidTenantID.matcher {id : Bytes} (hid : ValidTenantID id) :
    tenantMatcher id = lit "tenant=\"" ++ (id ++ lit "\"") := by
  refine tenantMatcher_valid fun c hc => ?_
  obtain ⟨hb, hq, hctl⟩ := hid.2 c hc
  refine ⟨hb, hq, ?_⟩
  rintro rfl
  exact absurd hctl (by decide)

/-- **Plain selectors.**  One is accepted, and returned with the tenant's matcher added, if and only
if its metric is not named like a set operator, it has no `!=`, and no line ends beside an
operator. -/
theorem injectTenantLabel_plain_iff (q : PlainSelector) {id : Bytes} (hid : ValidTenantID id) :
    injectTenantLabel q.text id = .ok (q.withTenant id) ↔
      (q.metric.text ≠ "or" ∧ q.metric.text ≠ "and" ∧ q.metric.text ≠ "unless") ∧
        ∀ m ∈ q.matchers, m.op ≠ .notEqual ∧ (∀ c ∈ m.gap.text, isBlank c = true) ∧
          ∀ c ∈ m.gap'.text, isBlank c = true := by
  have hne : q.text ≠ [] := nofun
  rw [injectTenantLabel_valid hne hid, ← isVectorOperator_eq_false]
  constructor
  · intro h
    cases hop : isVectorOperator q.metric.text with
    | true =>
      rw [PlainSelector.text, show lit "\x7b" = [('{' : UInt8)] from rfl, singleton_append,
        injectScan_metric, if_pos hop] at h
      cases h
    | false =>
      rw [q.scan id hop] at h
      split at h
      · cases h
      · rename_i hscan
        split at hscan
        · cases hscan
        · rename_i hbody
          exact ⟨rfl, readable_of_rewriteBody_joined hbody⟩
  · rintro ⟨hop, hms⟩
    have hlast : (q.metric.text ++ (q.gap.text ++ lit "\x7b")).getLast? = some ('{' : UInt8) := by
      rw [← append_assoc, getLast?_append]
      rfl
    rw [q.scan id hop, rewriteBody_joined hms q.blank fun _ => ⟨rfl, _, hlast, by decide⟩]
    dsimp only
    rw [injectScan, hid.matcher]
    have hlen : (q.metric.text ++ q.gap.text).length + 1 +
        (PlainMatcher.joined q.matchers ++ q.blank.text).length + 1 = q.text.length := by
      have hbrace : (lit "\x7b").length = 1 := rfl
      have hbrace' : (lit "\x7d").length = 1 := rfl
      simp only [PlainSelector.text, length_append]
      omega
    simp only [hlen]
    simp [PlainSelector.withTenant]

def up : Ident := ⟨'u', "p", by decide, forall_mem_of_all (by decide)⟩

def noSpaces : Spaces := ⟨[], nofun⟩

def jobMatcher (op : MatchOp) : PlainMatcher where
  lead := noSpaces
  label := ⟨'j', "ob", by decide, forall_mem_of_all (by decide)⟩
  op := op
  value := [.plain 'x' (by decide)]
  trail := noSpaces
  gap := noSpaces
  gap' := noSpaces
  other := by decide

theorem injectTenantLabel_plain_iff_job :
    let q : PlainSelector := ⟨up, noSpaces, [jobMatcher .equal], noSpaces⟩
    q.text = "up\x7bjob=\"x\"\x7d" ∧ q.withTenant "acme" = "up\x7bjob=\"x\",tenant=\"acme\"\x7d" ∧
      injectTenantLabel q.text "acme" = .ok (q.withTenant "acme") := by
  refine ⟨by decide, by decide, (injectTenantLabel_plain_iff _ ?_).mpr ⟨by decide, ?_⟩⟩
  · exact ⟨by decide, forall_mem_of_all (by decide)⟩
  · intro m hm
    cases mem_singleton.mp hm
    exact ⟨by decide, nofun, nofun⟩

/-- A plain selector with a `!=` is refused. -/
theorem not_equal_refused :
    let q : PlainSelector := ⟨up, noSpaces, [jobMatcher .notEqual], noSpaces⟩
    q.text = "up\x7bjob!=\"x\"\x7d" ∧
      injectTenantLabel q.text "acme" = .error (.unquotedValue "job" 7) := by
  decide +kernel

end Cios.Tenant
