import Cios.Tenant.ReadBack

/-!
# Tenant — which queries the rewriter isolates

The rewriter means every accepted query to come out with the tenant's matcher on every metric name.
It gives a name a selector of its own when the name ends the query, or when it is followed by an
operator and nothing before it was labelled yet.  So a name in the middle of a longer expression
stays bare (`a + b + c`), and so does one that the numeric branch takes for an exponent (`up +e`).

`labelled` says, on the tokens of the query, that neither happens (`injectTenantLabel_scoped_iff`).
-/

namespace Cios.Tenant
open Text List

/-! ### The condition -/

/-- Every metric name is followed by a selector, or it is not taken for a part of a number, and is
the last thing in the query or the first name or selector.  `run` says that a number is being read,
`seen` that a name or a selector came before. -/
def labelled (run seen : Bool) : List Token → Bool
  | [] => true
  | .ident w :: ts =>
    ((nextSelector ts).isSome ||
      (!(run && w.all isNumberByte) && (ts.all (· == .space) || !seen))) && labelled false true ts
  | .number _ :: ts => labelled true seen ts
  | .byte c :: ts => labelled (isSign c || (run && c = '.')) seen ts
  | .selector _ :: ts => labelled false true ts
  | .literal _ :: ts => labelled false seen ts
  | .space :: ts => labelled false seen ts

theorem labelled_seen {run : Bool} (seen seen' : Bool) {ts : List Token}
    (h : (nextSelector ts).isSome = true) : labelled run seen ts = labelled run seen' ts := by
  induction ts generalizing run with
  | nil => rfl
  | cons t ts ih =>
    cases t with
    | space => exact ih h
    | selector ms => rfl
    | ident w => cases h
    | number n => cases h
    | literal v => cases h
    | byte c => cases h

theorem labelled_run {seen : Bool} {s : Bytes}
    (hs : ∀ c, s.head? = some c → isNumberByte c = false) :
    labelled true seen (tokens s) = labelled false seen (tokens s) := by
  cases s with
  | nil => rw [tokens_nil]; rfl
  | cons c r =>
    have hc := hs c rfl
    obtain ⟨hd, -, -, hdot⟩ := isNumberByte_facts c hc
    rw [tokens]
    split_ifs
    · rfl
    iterate 2 split <;> simp [labelled, hdot]
    · simp [labelled, hc]
    · simp_all
    · simp [labelled, hdot]

/-! ### A query and what is written for it -/

/-- `t` is written for `s`: it begins with the same byte, and after spaces with a selector just when
`s` does, which then has the tenant's matcher. -/
structure Follows (id s t : Bytes) : Prop where
  head : t.head? = s.head?
  next : (nextSelector (tokens t)).any (·.contains (tenantIs id)) =
    (nextSelector (tokens s)).isSome
  brace : ∀ r, s.dropWhile isSpace = ('{' : UInt8) :: r → (nextSelector (tokens s)).isSome = true

theorem isExponentMark_facts : ∀ c : UInt8, isNumberByte c = true → isDigit c = false →
    isSign c = false → c ≠ '.' → isIdentStart c = true :=
  forall_byte (by decide +kernel)

theorem isNumberByte_byte : ∀ c : UInt8, isNumberByte c = true → isIdentCont c = false →
    isSpace c = false ∧ c ≠ '\"' ∧ c ≠ '{' ∧ isIdentStart c = false ∧ isDigit c = false :=
  forall_byte (by decide +kernel)

theorem isSign_facts : ∀ c : UInt8, isSign c = true → isIdentCont c = false :=
  forall_byte (by decide +kernel)

section Run

/-- A name that a number goes on after is bare. -/
theorem scoped_inner (id : Bytes) (seen : Bool) {c d : UInt8} {a b : Bytes}
    (hc : isIdentStart c = true)
    (hnum : ∀ e ∈ c :: a, isNumberByte e = true) (ha : ∀ e ∈ a, isIdentCont e = true)
    (hd : isNumberByte d = true) (hd' : isIdentCont d = false) (u v : Bytes) :
    tenantScoped id (tokens (c :: (a ++ d :: (b ++ u)))) = false ∧
      labelled true seen (tokens (c :: (a ++ d :: (b ++ v)))) = false := by
  obtain ⟨hsp, hq, hb, hi, hdig⟩ := isNumberByte_byte d hd hd'
  have hbyte : ∀ w, tokens (d :: (b ++ w)) = .byte d :: tokens (b ++ w) := fun w =>
    tokens_byte hsp hq hb hi hdig
  have hread : ∀ w, tokens (c :: (a ++ d :: (b ++ w))) =
      .ident (c :: a) :: .byte d :: tokens (b ++ w) := fun w => by
    obtain ⟨h₁, h₂⟩ := takeWhile_run (p := isIdentCont) (r := d :: (b ++ w)) ha
      (fun e he => by cases he; exact hd')
    rw [tokens_ident hc, h₁, h₂, hbyte]
  have hall : (c :: a).all isNumberByte = true := all_eq_true.mpr hnum
  rw [hread, hread]
  exact ⟨by simp [tenantScoped, nextSelector], by simp [labelled, nextSelector, hall]⟩

variable {id s t : Bytes} {seen : Bool}
  (hs : ∀ d, s.head? = some d → isNumberByte d = false) (hf : Follows id s t)
  (hst : tenantScoped id (tokens t) = labelled false seen (tokens s))
include hs hf hst

/-- A name that ends a number goes on into the name that follows, or is followed as the rest is. -/
theorem scoped_mark {c : UInt8} {n : Bytes} (hc : isIdentStart c = true)
    (hnum : ∀ d ∈ c :: n, isNumberByte d = true) (hn : ∀ d ∈ n, isIdentCont d = true) :
    tenantScoped id (tokens (c :: (n ++ t))) = labelled true seen (tokens (c :: (n ++ s))) := by
  rw [tokens_ident hc, tokens_ident hc, takeWhile_append_of_pos hn,
    takeWhile_append_of_pos hn, dropWhile_append_of_pos hn,
    dropWhile_append_of_pos hn]
  by_cases hgo : ∃ d, s.head? = some d ∧ isIdentCont d = true
  · -- The next byte is no digit, so it begins a name, and the two are read as one.
    obtain ⟨d, hsd, hd⟩ := hgo
    have hdn := hs d hsd
    have hdi : isIdentStart d = true := by
      rw [isIdentCont, (isNumberByte_facts d hdn).1] at hd
      simpa using hd
    obtain ⟨t₁, rfl⟩ := head?_eq_some_iff.mp (hf.head.trans hsd)
    obtain ⟨s₁, rfl⟩ := head?_eq_some_iff.mp hsd
    rw [tokens_ident hdi, tokens_ident hdi] at hst
    simpa [tenantScoped, labelled, hd, hdn] using hst
  · -- Nothing is added to the name, which is bare unless a selector follows.
    have hstop : ∀ u : Bytes, u.head? = s.head? →
        u.takeWhile isIdentCont = [] ∧ u.dropWhile isIdentCont = u := by
      intro u hu
      have := takeWhile_append_stop (p := isIdentCont) (r := u) (fun d hd => by
        by_contra hcont
        exact hgo ⟨d, hu ▸ hd, by simpa using hcont⟩) []
      simpa using this
    rw [(hstop s rfl).1, (hstop s rfl).2, (hstop t hf.head).1, (hstop t hf.head).2]
    have hall : (c :: n).all isNumberByte = true := all_eq_true.mpr hnum
    rw [append_nil, tenantScoped, labelled, hall, hf.next, hst]
    cases hsel : (nextSelector (tokens s)).isSome with
    | false => simp
    | true => simp [labelled_seen seen true hsel]

/-- **Numbers.**  Behind bytes of the numeric branch, an accepted rest is isolated just when its
names and those among the bytes are labelled. -/
theorem scoped_run (n : Bytes) (hn : ∀ d ∈ n, isNumberByte d = true) :
    tenantScoped id (tokens (n ++ t)) = labelled true seen (tokens (n ++ s)) := by
  have ht : ∀ d, t.head? = some d → isNumberByte d = false := fun d hd => hs d (hf.head ▸ hd)
  -- A numeral takes several bytes at once, so the induction is on the number of bytes left.
  induction hlen : n.length using Nat.strong_induction_on generalizing n with
  | _ k ih =>
    cases n with
    | nil => rw [nil_append, nil_append, labelled_run hs, hst]
    | cons c x =>
      have hc := hn c (by simp)
      have hx : ∀ d ∈ x, isNumberByte d = true := fun d hd => hn d (by simp [hd])
      simp only [cons_append]
      by_cases hdig : isDigit c = true
      · obtain ⟨m, y, hy, hmem, htok⟩ := tokens_numeral hdig x
        rw [htok t ht, htok s hs]
        exact ih y.length (by simp at hlen; omega) y (fun d hd => hx d (hmem d hd)) rfl
      by_cases hdot : isSign c = true ∨ c = '.'
      · have hcont : isIdentCont c = false := by
          rcases hdot with h | rfl
          · exact isSign_facts c h
          · decide
        obtain ⟨hsp, hq, hb, hi, hd⟩ := isNumberByte_byte c hc hcont
        rw [tokens_byte hsp hq hb hi hd, tokens_byte hsp hq hb hi hd, tenantScoped, labelled,
          show (isSign c || (true && decide (c = '.'))) = true by simpa using hdot]
        · exact ih x.length (by simp at hlen; omega) x hx rfl
        · simp
      · push Not at hdot
        have hmark := isExponentMark_facts c hc (by simpa using hdig) (by simpa using hdot.1)
          hdot.2
        cases hrest : x.dropWhile isIdentCont with
        | nil =>
          exact scoped_mark hs hf hst hmark hn (dropWhile_eq_nil_iff.mp hrest)
        | cons d b =>
          have hsplit : x = x.takeWhile isIdentCont ++ d :: b := by
            rw [← hrest, takeWhile_append_dropWhile]
          have hd : isIdentCont d = false := by
            have := head?_dropWhile_not isIdentCont x
            simpa [hrest] using this
          have hsub : ∀ e ∈ c :: x.takeWhile isIdentCont, isNumberByte e = true := by
            intro e he
            refine hn e (mem_cons.mpr ((mem_cons.mp he).imp_right fun he => ?_))
            exact (takeWhile_sublist _).subset he
          obtain ⟨h₁, h₂⟩ := scoped_inner id seen (b := b) hmark hsub
            (fun e he => mem_takeWhile_imp he) (hx d (by rw [hsplit]; simp)) hd t s
          rw [hsplit]
          simp only [append_assoc, cons_append]
          rw [h₁, h₂]

end Run

/-! ### The pass -/

section Pass

variable {id s t : Bytes}

theorem nextSelector_dropSpace (s : Bytes) :
    nextSelector (tokens s) = nextSelector (tokens (s.dropWhile isSpace)) ∧
      (tokens s).all (· == .space) = (tokens (s.dropWhile isSpace)).all (· == .space) := by
  induction s with
  | nil => simp
  | cons c r ih =>
    cases hc : isSpace c with
    | false => simp [hc]
    | true => simpa [hc, tokens_space hc, nextSelector] using ih

theorem isOperatorStart_facts : ∀ c : UInt8, isOperatorStart c = true →
    isSpace c = false ∧ c ≠ '\"' ∧ c ≠ '{' ∧ isIdentStart c = false ∧ isDigit c = false :=
  forall_byte (by decide +kernel)

theorem lookAhead_ok {word : Bytes} {i : Nat} {rest out out' : Bytes} {saw saw' : Bool}
    (h : lookAhead id word i rest out saw = .ok (out', saw')) :
    (out' = out ∧ saw' = saw ∧ ∃ r, rest.dropWhile isSpace = ('{' : UInt8) :: r) ∨
    (out' = out ∧ saw' = saw ∧ saw = true ∧ nextSelector (tokens rest) = none ∧
      (tokens rest).all (· == .space) = false) ∨
    (out' = injectSyntheticSelector out id ∧ saw' = true ∧
      ((tokens rest).all (· == .space) = true ∨ saw = false)) := by
  obtain ⟨hnext, hall⟩ := nextSelector_dropSpace rest
  unfold lookAhead at h
  dsimp only at h
  split at h
  · rename_i hnil
    cases h
    exact .inr (.inr ⟨rfl, rfl, .inl (by rw [hall, hnil, tokens_nil]; rfl)⟩)
  rename_i c r hrest
  split_ifs at h with hb hop hsaw
  · cases h
    exact .inl ⟨rfl, rfl, r, hb ▸ hrest⟩
  · cases h
    obtain ⟨hsp, hq, hb', hi, hd⟩ := isOperatorStart_facts c hop
    rw [hnext, hall, hrest, tokens_byte hsp hq hb' hi hd]
    exact .inr (.inl ⟨rfl, rfl, hsaw, rfl, rfl⟩)
  · cases h
    exact .inr (.inr ⟨rfl, rfl, .inr (by simpa using hsaw)⟩)

/-- A text that begins with another token than a space or a selector keeps that token. -/
theorem Follows.of_other {c : UInt8} {r u : Bytes} (hc : isSpace c = false) (hb : c ≠ '{')
    (hs : nextSelector (tokens (c :: r)) = none) (ht : nextSelector (tokens (c :: u)) = none) :
    Follows id (c :: r) (c :: u) where
  head := rfl
  next := by rw [hs, ht]; rfl
  brace r' h := by
    rw [dropWhile_cons_of_neg (by simp [hc])] at h
    exact absurd (List.cons.inj h).1 hb

/-- A metric name with its selector. -/
theorem tokens_injected (hid : Unescaped id) {c : UInt8} {w u : Bytes}
    (hc : isIdentStart c = true) (hw : ∀ d ∈ w, isIdentCont d = true) :
    tokens (injectSyntheticSelector (c :: w) id ++ u) =
      .ident (c :: w) :: .selector [tenantIs id] :: tokens u := by
  have hout : injectSyntheticSelector (c :: w) id ++ u =
      c :: (w ++ ('{' : UInt8) :: (tenantMatcher id ++ ('}' : UInt8) :: u)) := by
    simp only [injectSyntheticSelector, append_assoc, cons_append]
    rfl
  obtain ⟨h₁, h₂⟩ := takeWhile_run (p := isIdentCont)
    (r := ('{' : UInt8) :: (tenantMatcher id ++ ('}' : UInt8) :: u)) hw
    (fun d hd => by cases hd; decide)
  rw [hout, tokens_ident hc, h₁, h₂, tokens_selector ((Reads.tenantMatcher hid).close u)]

theorem first_number {c : UInt8} (hsp : isSpace c = false) (hq : c ≠ '\"') (hb : c ≠ '{')
    (hi : isIdentStart c = false)
    (hnum : (decide (c = '-') || decide (c = '+') || isDigit c) = true) (r : Bytes) :
    nextSelector (tokens (c :: r)) = none ∧
      ∀ seen, labelled true seen (tokens (c :: r)) = labelled false seen (tokens (c :: r)) := by
  cases hd : isDigit c with
  | true =>
    rw [tokens_number hd]
    exact ⟨rfl, fun _ => rfl⟩
  | false =>
    have hsign : isSign c = true := by simpa [hd, isSign, or_comm] using hnum
    rw [tokens_byte hsp hq hb hi hd]
    exact ⟨rfl, fun seen => by simp [labelled, hsign]⟩

theorem number_bytes {c : UInt8} {r : Bytes}
    (hnum : (decide (c = '-') || decide (c = '+') || isDigit c) = true) :
    ∀ d ∈ c :: r.takeWhile isNumberByte, isNumberByte d = true := by
  rw [forall_mem_cons]
  refine ⟨?_, fun d hd => mem_takeWhile_imp hd⟩
  simp only [isNumberByte, Bool.or_eq_true] at hnum ⊢
  tauto

/-- **The pass.**  What is written for an accepted query is isolated just when its names are
labelled. -/
theorem injectScan_ok (hid : Unescaped id) {i k : Nat}
    {out out' : Bytes} {saw saw' : Bool} (h : injectScan id i s out saw = .ok (k, saw', out')) :
    ∃ t, out' = out ++ t ∧ Follows id s t ∧
      tenantScoped id (tokens t) = labelled false saw (tokens s) := by
  fun_induction injectScan id i s out saw with
  | case1 i out saw =>
    cases h
    exact ⟨[], by simp, ⟨rfl, by simp [tokens_nil, nextSelector], nofun⟩,
      by simp [tokens_nil, tenantScoped, labelled]⟩
  | case2 i out saw c r hsp ih =>
    obtain ⟨t, rfl, hf, hiff⟩ := ih h
    refine ⟨c :: t, by simp, ⟨rfl, ?_, fun r' hr' => ?_⟩, ?_⟩
    · simpa [tokens_space hsp, nextSelector] using hf.next
    · rw [dropWhile_cons_of_pos hsp] at hr'
      simpa [tokens_space hsp, nextSelector] using hf.brace r' hr'
    · simpa [tokens_space hsp, tenantScoped, labelled] using hiff
  | case3 | case4 | case5 | case6 | case8 | case10 | case11 => cases h
  | case7 i out saw r out₁ selEnd rest hsel _ _ _ _ ih =>
    obtain ⟨t, rfl, -, hiff⟩ := ih h
    obtain ⟨ms, ms', u, hread, rfl, hread', hmem⟩ := rewriteSelector_ok hid hsel
    have hs := tokens_selector hread
    have ht := tokens_selector (hread' t)
    refine ⟨('{' : UInt8) :: (u ++ t), by simp, ⟨rfl, ?_, fun _ _ => by rw [hs]; rfl⟩, ?_⟩
    · simpa [hs, ht, nextSelector] using hmem
    · simpa [hs, ht, tenantScoped, labelled] using hiff
  | case9 i out saw r out₁ i₂ rest hlit _ _ _ _ _ ih =>
    obtain ⟨t, rfl, -, hiff⟩ := ih h
    obtain ⟨p, hp, he⟩ := map_ok hlit
    simp only [Prod.mk.injEq] at he
    obtain ⟨rfl, -, rfl⟩ := he
    obtain ⟨v, hv⟩ := closeQuote_of_scan hp
    have hr := (scanQuotedString_ok hp).1
    have hs : tokens (('\"' : UInt8) :: r) = .literal v :: tokens p.2 :=
      tokens_literal (by rw [hr, hv])
    have ht := tokens_literal (hv t)
    refine ⟨('\"' : UInt8) :: (p.1 ++ t), by simp; rfl,
      .of_other (by decide) (by decide) (by rw [hs]; rfl) (by rw [ht]; rfl), ?_⟩
    simpa [hs, ht, tenantScoped, labelled] using hiff
  | case12 i out saw c r hsp _ _ _ hb _ hi word rest j _ out₁ saw₁ hlook ih =>
    obtain ⟨t, rfl, hf, hiff⟩ := ih h
    have hs : tokens (c :: r) = .ident word :: tokens rest := tokens_ident hi
    have hw : ∀ d ∈ r.takeWhile isIdentCont, isIdentCont d = true := fun d hd =>
      mem_takeWhile_imp hd
    have hstop : ∀ d, t.head? = some d → isIdentCont d = false := by
      intro d hd
      have := head?_dropWhile_not isIdentCont r
      rw [hf.head] at hd
      simpa [rest, hd] using this
    have hbare : tokens (word ++ t) = .ident word :: tokens t := by
      obtain ⟨h₁, h₂⟩ := takeWhile_run hw hstop
      rw [cons_append, tokens_ident hi, h₁, h₂]
    have hother : ∀ u, nextSelector (tokens (c :: u)) = none := fun u => by
      rw [tokens_ident hi]
      rfl
    have hsp' : isSpace c = false := by simpa using hsp
    rcases lookAhead_ok hlook with ⟨rfl, rfl, r', hr'⟩ | ⟨rfl, rfl, rfl, hnone, hall⟩ |
      ⟨rfl, rfl, hlab⟩
    · -- A selector follows, which the pass labels next.
      have hsel := hf.brace r' hr'
      refine ⟨word ++ t, by simp, .of_other hsp' hb (hother _) (hother _), ?_⟩
      rw [hbare, hs, tenantScoped, labelled, hf.next, hsel, hiff, labelled_seen saw₁ true hsel]
      simp
    · -- An operator follows and something was labelled before: the name stays bare.
      refine ⟨word ++ t, by simp, .of_other hsp' hb (hother _) (hother _), ?_⟩
      rw [hbare, hs, tenantScoped, labelled, hf.next, hnone, hall]
      simp
    · -- The name gets a selector of its own.
      have hinj := tokens_injected hid (u := t) hi hw
      refine ⟨injectSyntheticSelector word id ++ t, by simp [injectSyntheticSelector],
        .of_other hsp' hb (hother _) (hother _), ?_⟩
      rw [hinj, hs, tenantScoped, labelled, tenantScoped, hiff]
      · rcases hlab with hall | rfl
        · simp [nextSelector, hall]
        · simp [nextSelector]
      · simp
  | case13 i out saw c r hsp _ _ _ hb hq hi hnum number ih =>
    obtain ⟨t, rfl, hf, hiff⟩ := ih h
    have hfirst := first_number (by simpa using hsp) hq hb (by simpa using hi) hnum
    have hstop : ∀ d, (r.dropWhile isNumberByte).head? = some d → isNumberByte d = false := by
      intro d hd
      have := head?_dropWhile_not isNumberByte r
      simpa [hd] using this
    have hrun := scoped_run hstop hf hiff number (number_bytes hnum)
    simp only [number, cons_append, takeWhile_append_dropWhile] at hrun
    refine ⟨number ++ t, by simp, .of_other (by simpa using hsp) hb (hfirst _).1 (hfirst _).1, ?_⟩
    rw [← (hfirst r).2 saw, ← hrun]
    rfl
  | case14 i out saw c r hsp _ _ _ hb hq hi hnum ih =>
    obtain ⟨t, rfl, -, hiff⟩ := ih h
    simp only [Bool.or_eq_true, not_or, Bool.not_eq_true, decide_eq_false_iff_not] at hnum
    have hbyte : ∀ u, tokens (c :: u) = .byte c :: tokens u := fun u =>
      tokens_byte (by simpa using hsp) hq hb (by simpa using hi) hnum.2
    refine ⟨c :: t, by simp, .of_other (by simpa using hsp) hb (by rw [hbyte]; rfl)
      (by rw [hbyte]; rfl), ?_⟩
    simpa [hbyte, tenantScoped, labelled, isSign, hnum.1.1, hnum.1.2] using hiff

end Pass

/-! ### Isolation -/

theorem injectTenantLabel_ok {promql tenantID out : Bytes}
    (h : injectTenantLabel promql tenantID = .ok out) :
    validateTenantIDForLabel 0 tenantID = .ok () ∧
      ∃ i, injectScan tenantID 0 promql [] false = .ok (i, true, out) := by
  unfold injectTenantLabel at h
  split_ifs at h
  split at h
  · cases h
  rename_i hvalid
  split at h
  · cases h
  rename_i i sawSelector out' hscan
  split_ifs at h with _ hsaw
  cases h
  obtain rfl : sawSelector = true := by simpa using hsaw
  exact ⟨hvalid, i, hscan⟩

/-- **Isolation.**  An accepted query has the tenant's matcher on every metric name if and only if
its names are labelled. -/
theorem injectTenantLabel_scoped_iff {promql tenantID out : Bytes}
    (h : injectTenantLabel promql tenantID = .ok out) :
    tenantScoped tenantID (tokens out) = true ↔ labelled false false (tokens promql) = true := by
  obtain ⟨hvalid, i, hscan⟩ := injectTenantLabel_ok h
  obtain ⟨t, rfl, -, hiff⟩ := injectScan_ok (validateTenantIDForLabel_ok hvalid) hscan
  rw [hiff]

/-- A ratio of two metrics, both labelled. -/
theorem injectTenantLabel_scoped_iff_ratio :
    tenantScoped "acme" (tokens "a\x7btenant=\"acme\"\x7d / b\x7btenant=\"acme\"\x7d") = true ↔
      labelled false false (tokens "a / b") = true :=
  injectTenantLabel_scoped_iff (by decide +kernel)

/-- The metric in the middle of a sum comes out bare. -/
theorem sum_of_three_bare : ∃ out, injectTenantLabel "a + b + c" "acme" = .ok out ∧
    tenantScoped "acme" (tokens out) = false :=
  ⟨"a\x7btenant=\"acme\"\x7d + b + c\x7btenant=\"acme\"\x7d", by decide +kernel, by decide +kernel⟩

/-- A metric named like an exponent comes out bare. -/
example : injectTenantLabel "up +e" "acme" = .ok (lit "up\x7btenant=\"acme\"\x7d +e") := by
  decide +kernel

end Cios.Tenant
