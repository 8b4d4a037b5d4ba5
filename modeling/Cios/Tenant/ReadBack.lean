import Cios.Tenant.Tokens

/-!
# Tenant — what the rewriter writes, read back

The rewriter's scanners accept texts that the reader of tokens reads in the same way: a literal up
to its quote (`closeQuote_of_scan`), a matcher (`readMatcher_text`), a selector's body
(`rewriteBody_ok`).
-/

namespace Cios.Tenant
open Text List

/-! ### Literals and matchers -/

theorem closeQuote_of_scan {o i : Nat} {s literal rest : Bytes}
    (h : scanQuotedString o i s = .ok (literal, rest)) :
    ∃ v, ∀ r, closeQuote (literal ++ r) = some (v, r) := by
  fun_induction scanQuotedString o i s generalizing literal with
  | case1 | case2 | case3 | case6 => cases h
  | case4 i d s' _ ih =>
    obtain ⟨p, hp, he⟩ := map_ok h
    obtain ⟨rfl, rfl⟩ := Prod.mk.inj he
    obtain ⟨v, hv⟩ := ih hp
    exact ⟨('\\' : UInt8) :: d :: v, fun r => by simp [closeQuote_escape, hv]⟩
  | case5 =>
    cases h
    exact ⟨[], closeQuote_quote⟩
  | case7 i c s hb hq _ ih =>
    obtain ⟨p, hp, he⟩ := map_ok h
    obtain ⟨rfl, rfl⟩ := Prod.mk.inj he
    obtain ⟨v, hv⟩ := ih hp
    exact ⟨c :: v, fun r => by simp [closeQuote_other hb hq, hv]⟩

theorem isBlank_facts : ∀ c : UInt8, isBlank c = true →
    isSpace c = true ∧ isIdentCont c = false ∧ isMatchOperator c = false :=
  forall_byte (by decide +kernel)

theorem isMatchOperator_facts : ∀ c : UInt8, isMatchOperator c = true →
    isSpace c = false ∧ isIdentCont c = false :=
  forall_byte (by decide +kernel)

theorem readMatcher_parts {name gap ops gap' literal v : Bytes}
    (hname : ∀ c ∈ name, isIdentCont c = true) (hgap : ∀ c ∈ gap, isBlank c = true) (hne : ops ≠ [])
    (hops : ∀ c ∈ ops, isMatchOperator c = true) (hgap' : ∀ c ∈ gap', isBlank c = true)
    (hv : ∀ r, closeQuote (literal ++ r) = some (v, r)) (r : Bytes) :
    readMatcher (name ++ (gap ++ (ops ++ (gap' ++ ('\"' : UInt8) :: literal))) ++ r) =
      some (⟨name, ops, v⟩, r) := by
  obtain ⟨op, tilde, rfl⟩ := exists_cons_of_ne_nil hne
  have hhead : ∀ {l r : Bytes} {d : UInt8} {p : UInt8 → Bool}, (∀ c ∈ l, p c = false) →
      p d = false → ∀ c, (l ++ d :: r).head? = some c → p c = false := by
    intro l r d p hl hd c hc
    cases l with
    | nil => simp_all
    | cons e l => simp_all
  have hop := isMatchOperator_facts op (hops op mem_cons_self)
  obtain ⟨hname1, hname2⟩ := takeWhile_run hname
    (hhead (r := tilde ++ (gap' ++ ('\"' : UInt8) :: (literal ++ r)))
      (fun c hc => (isBlank_facts c (hgap c hc)).2.1) hop.2)
  have hgap2 := (takeWhile_run (p := isSpace) (fun c hc => (isBlank_facts c (hgap c hc)).1)
    (hhead (l := []) (r := tilde ++ (gap' ++ ('\"' : UInt8) :: (literal ++ r))) (by simp) hop.1)).2
  obtain ⟨hop1, hop2⟩ := takeWhile_run hops
    (hhead (r := literal ++ r) (d := '\"') (fun c hc => (isBlank_facts c (hgap' c hc)).2.2)
      (by decide))
  have hgap2' := (takeWhile_run (p := isSpace) (fun c hc => (isBlank_facts c (hgap' c hc)).1)
    (hhead (l := []) (r := literal ++ r) (d := '\"') (by simp) (by decide))).2
  simp only [append_assoc, cons_append, nil_append] at *
  simp only [readMatcher, hname1, hname2, hgap2, hop1, hop2, hgap2', hv]
  simp

theorem readMatcher_text {name rest raw : Bytes} (h : MatcherText name rest raw)
    (hname : ∀ c ∈ name, isIdentCont c = true) :
    ∃ m, m.name = name ∧ ∀ r, readMatcher (raw ++ r) = some (m, r) := by
  obtain @⟨gap, tilde, gap', literal, op, o, i, hgap, hop, htilde, hgap', hlit⟩ := h
  obtain ⟨v, hv⟩ := closeQuote_of_scan hlit
  refine ⟨_, rfl, readMatcher_parts hname hgap (cons_ne_nil op tilde) ?_ hgap' hv⟩
  intro c hc
  rcases mem_cons.mp hc with rfl | hc
  · rcases hop with rfl | rfl <;> decide
  · rw [htilde c hc]
    decide

/-! ### Bodies -/

/-- A piece of a body that reads as the given matchers, whatever follows it. -/
def Reads (b : Bytes) (ms : List Matcher) : Prop :=
  ∀ r, readBody (b ++ r) = (readBody r).map fun p => (ms ++ p.1, p.2)

theorem Reads.nil : Reads [] [] := by
  intro r
  simp

theorem Reads.append {b b' : Bytes} {ms ms' : List Matcher} (h : Reads b ms) (h' : Reads b' ms') :
    Reads (b ++ b') (ms ++ ms') := by
  intro r
  rw [append_assoc, h, h', Option.map_map]
  simp [Function.comp_def]

theorem Reads.byte {c : UInt8} (hb : c ≠ '}') (hi : isIdentStart c = false) : Reads [c] [] := by
  intro r
  rw [singleton_append, readBody]
  simp [hb, hi]

theorem isSeparator_facts : ∀ c : UInt8, isSeparator c = true → c ≠ '}' ∧ isIdentStart c = false :=
  forall_byte (by decide +kernel)

theorem Reads.separators {t : Bytes} (h : ∀ c ∈ t, isSeparator c = true) : Reads t [] := by
  induction t with
  | nil => exact .nil
  | cons c t ih =>
    rw [forall_mem_cons] at h
    obtain ⟨hb, hi⟩ := isSeparator_facts c h.1
    exact (Reads.byte hb hi).append (ih h.2)

theorem Reads.of_readMatcher {raw : Bytes} {m : Matcher} {c : UInt8}
    (hhead : raw.head? = some c) (hc : isIdentStart c = true)
    (h : ∀ r, readMatcher (raw ++ r) = some (m, r)) : Reads raw [m] := by
  intro r
  obtain ⟨t, rfl⟩ := head?_eq_some_iff.mp hhead
  have hm : readMatcher (c :: (t ++ r)) = some (m, r) := h r
  rw [cons_append, readBody, if_neg (isIdentStart_facts c hc).2.2.2.1, if_pos hc]
  split
  · rename_i h'
    cases hm.symm.trans h'
  · rename_i m' rest h'
    obtain ⟨rfl, rfl⟩ := Prod.mk.inj (Option.some.inj (hm.symm.trans h'))
    rfl

theorem MatcherText.getLast {name rest raw : Bytes} (h : MatcherText name rest raw) :
    raw.getLast? = some ('\"' : UInt8) := by
  obtain @⟨gap, tilde, gap', literal, op, o, i, hgap, hop, htilde, hgap', hlit⟩ := h
  simp [getLast?_cons, (scanQuotedString_ok hlit).2]

theorem trimTrailingSeparators_append {cur trail : Bytes} {c : UInt8}
    (hlast : cur.getLast? = some c) (hc : isSeparator c = false)
    (ht : ∀ d ∈ trail, isSeparator d = true) :
    trimTrailingSeparators (cur ++ trail) = (cur, trail) := by
  have hne : cur ≠ [] := by
    rintro rfl
    cases hlast
  have htail : cur.tail.reverse.takeWhile isSeparator = [] := by
    cases h : cur.tail.reverse with
    | nil => rfl
    | cons d l =>
      have hd : cur.tail.getLast? = some d := by
        rw [← head?_reverse, h]
        rfl
      have hdc : d = c := by
        grind
      rw [hdc, takeWhile_cons_of_neg (by simp [hc])]
  have htrail : ((cur ++ trail).tail.reverse.takeWhile isSeparator).reverse = trail := by
    rw [tail_append_of_ne_nil hne, reverse_append,
      takeWhile_append_of_pos (by simpa using ht), htail]
    simp
  simp [trimTrailingSeparators, htrail]

/-- A body's matchers leave the tenant's to the rewriter. -/
def Untenanted (ms : List Matcher) : Prop := ∀ m ∈ ms, m.name ≠ tenantLabelName

/-- What joins the tenant's matcher to those before it. -/
def joint (ms : List Matcher) : Bytes := if ms = [] then [] else ","

variable {id : Bytes} {s out out' rest : Bytes} {ms : List Matcher}

/-- **A rewritten body** has a core, which reads as matchers and does not end in a separator, and
trailing separators; the tenant's matcher goes in between. -/
theorem rewriteBody_ok {o j k : Nat} {b : Bool}
    (h : rewriteBody id o j s out b = .ok (out', k, rest)) (pre core trail : Bytes) (d : UInt8)
    (hout : out = pre ++ (core ++ trail)) (hlast : (pre ++ core).getLast? = some d)
    (hd : isSeparator d = false) (ht : ∀ c ∈ trail, isSeparator c = true) (hr : Reads core ms)
    (hb : b = true ↔ ms ≠ []) (hms : Untenanted ms) :
    ∃ core' trail' ms', core ++ (trail ++ s) = core' ++ (trail' ++ ('}' : UInt8) :: rest) ∧
      out' = pre ++ (core' ++ (joint ms' ++ (tenantMatcher id ++ (trail' ++ [('}' : UInt8)])))) ∧
      (∀ c ∈ trail', isSeparator c = true) ∧ Reads core' ms' ∧ Untenanted ms' := by
  fun_induction rewriteBody id o j s out b generalizing core trail d ms with
  | case1 => cases h
  | case2 j out b c r hsep ih =>
    have := ih h core (trail ++ [c]) d (by simp [hout]) hlast hd
      (by simpa [or_imp, forall_and] using ⟨ht, hsep⟩) hr hb hms
    simpa using this
  | case3 => cases h
  | case4 => cases h
  | case5 j out b r cur trail' htrim comma =>
    rw [hout, ← append_assoc, trimTrailingSeparators_append hlast hd ht] at htrim
    cases htrim
    cases h
    have hcomma : comma = joint ms := by
      by_cases hnil : ms = []
      · simp [comma, joint, hnil, show b = false by simpa [hnil] using hb]
      · simp [comma, joint, hnil, hb.mpr hnil]
    exact ⟨core, trail', ms, rfl, by simp [hcomma], ht, hr, hms⟩
  | case6 => cases h
  | case7 j out b c r _ _ _ _ hi raw rest' hm ih =>
    obtain ⟨hs, hname, htext⟩ := scanMatcher_ok hm
    obtain ⟨m, hm, hread⟩ := readMatcher_text htext fun c hc => mem_takeWhile_imp hc
    have hhead : raw.head? = some c := by
      rw [← head?_append_of_ne_nil raw htext.ne_nil, ← hs, head?_cons]
    have := ih h (core ++ (trail ++ raw)) [] '\"' (by simp [hout])
      (by rw [← append_assoc, ← append_assoc, getLast?_append, htext.getLast]; rfl)
      (by decide) (by simp)
      (hr.append ((Reads.separators ht).append (.of_readMatcher hhead hi hread))) (by simp)
      (by simpa [Untenanted, or_imp, forall_and] using ⟨hms, hm ▸ hname⟩)
    rw [hs]
    simpa using this
  | case8 j out b c r hsep _ _ hbrace hi ih =>
    have := ih h (core ++ (trail ++ [c])) [] c (by simp [hout])
      (by simp) (by simpa using hsep) (by simp)
      (hr.append ((Reads.separators ht).append (.byte hbrace (by simpa using hi))))
      (by simpa using hb) (by simpa using hms)
    simpa using this

/-! ### The tenant's matcher -/

/-- An id that stands in a matcher as it is. -/
def Unescaped (id : Bytes) : Prop := ∀ c ∈ id, c ≠ '\\' ∧ c ≠ '\"' ∧ c ≠ '\n'

theorem validateTenantIDForLabel_ok : ∀ {i : Nat} {id : Bytes},
    validateTenantIDForLabel i id = .ok () → Unescaped id
  | _, [], _ => by simp [Unescaped]
  | i, b :: id, h => by
    unfold validateTenantIDForLabel at h
    split_ifs at h with h1 h2
    rw [Unescaped, forall_mem_cons]
    exact ⟨by simp at h1; tauto, validateTenantIDForLabel_ok h⟩

theorem escapeTenantIDForLabel_valid (h : Unescaped id) : escapeTenantIDForLabel id = id := by
  induction id with
  | nil => rfl
  | cons c id ih =>
    rw [Unescaped, forall_mem_cons] at h
    rw [escapeTenantIDForLabel, flatMap_cons, if_neg h.1.1, if_neg h.1.2.1, if_neg h.1.2.2]
    exact congrArg (c :: ·) (ih h.2)

theorem tenantMatcher_valid (h : Unescaped id) :
    tenantMatcher id = lit "tenant=\"" ++ (id ++ lit "\"") := by
  rw [tenantMatcher, escapeTenantIDForLabel_valid h]
  rfl

theorem closeQuote_valid (h : Unescaped id) (r : Bytes) :
    closeQuote (id ++ ('\"' : UInt8) :: r) = some (id, r) := by
  induction id with
  | nil => exact closeQuote_quote r
  | cons c id ih =>
    rw [Unescaped, forall_mem_cons] at h
    rw [cons_append, closeQuote_other h.1.1 h.1.2.1, ih h.2]
    rfl

theorem Reads.tenantMatcher (h : Unescaped id) :
    Reads (tenantMatcher id) [tenantIs id] := by
  refine .of_readMatcher (c := 't') rfl (by decide) ?_
  have hquote : ∀ r, closeQuote (id ++ lit "\"" ++ r) = some (id, r) := by
    intro r
    rw [append_assoc]
    exact closeQuote_valid h r
  have hparts := @readMatcher_parts tenantLabelName [] (lit "=") [] _ _
    (forall_mem_of_all (by decide)) nofun (by decide) (forall_mem_of_all (by decide)) nofun hquote
  rw [Tenant.tenantMatcher, escapeTenantIDForLabel_valid h]
  exact hparts

theorem readBody_close (r : Bytes) : readBody (('}' : UInt8) :: r) = some ([], r) := by
  rw [readBody, if_pos rfl]

theorem Reads.close {b : Bytes} (h : Reads b ms) (r : Bytes) :
    readBody (b ++ ('}' : UInt8) :: r) = some (ms, r) := by
  rw [h, readBody_close]
  simp

theorem Reads.joint (ms : List Matcher) : Reads (joint ms) [] := by
  unfold Tenant.joint
  split
  · exact .nil
  · exact .separators (forall_mem_of_all (by decide))

theorem Reads.tenanted {id core trail : Bytes} (hid : Unescaped id) (hcore : Reads core ms)
    (htrail : ∀ c ∈ trail, isSeparator c = true) :
    Reads (core ++ (Tenant.joint ms ++ (Tenant.tenantMatcher id ++ trail)))
      (ms ++ [tenantIs id]) := by
  have := hcore.append ((Reads.joint ms).append
    ((Reads.tenantMatcher hid).append (Reads.separators htrail)))
  simpa using this

/-- **A rewritten selector** is a body of matchers that leave the tenant's to the rewriter, at its
end. -/
theorem rewriteSelector_split {i k : Nat} (h : rewriteSelector id i s out = .ok (out', k, rest)) :
    ∃ core trail ms, s = core ++ (trail ++ ('}' : UInt8) :: rest) ∧
      out' = out ++ (lit "\x7b" ++
        (core ++ (joint ms ++ (tenantMatcher id ++ (trail ++ [('}' : UInt8)]))))) ∧
      (∀ c ∈ trail, isSeparator c = true) ∧ Reads core ms ∧ Untenanted ms := by
  obtain ⟨core, trail, ms, hs, hout, hrest⟩ :=
    rewriteBody_ok h (out ++ lit "\x7b") [] [] '{' (by simp)
      (by rw [append_nil, getLast?_append]; rfl) (by decide) (by simp) .nil (by simp)
      (by simp [Untenanted])
  exact ⟨core, trail, ms, by simpa using hs, by simpa using hout, hrest⟩

/-- It reads as a selector, and so does what it is rewritten to, with the tenant's matcher in it. -/
theorem rewriteSelector_ok {i k : Nat} (hid : Unescaped id)
    (h : rewriteSelector id i s out = .ok (out', k, rest)) :
    ∃ ms ms' t, readBody s = some (ms, rest) ∧ out' = out ++ ('{' : UInt8) :: t ∧
      (∀ r, readBody (t ++ r) = some (ms', r)) ∧ tenantIs id ∈ ms' := by
  obtain ⟨core, trail, ms, rfl, rfl, htrail, hreads, -⟩ := rewriteSelector_split h
  refine ⟨ms, ms ++ [tenantIs id], _, ?_, rfl, fun r => ?_, by simp⟩
  · have := (hreads.append (Reads.separators htrail)).close rest
    simpa using this
  · have := (hreads.tenanted hid htrail).close r
    simpa using this

end Cios.Tenant
