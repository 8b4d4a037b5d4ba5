import Cios.Tenant.Isolation

/-!
# Tenant — the rewriter only inserts

An accepted query is divided into pieces (`Edit`): bytes, string literals and names that are copied,
names that get a selector of their own, and selectors, whose bodies get the tenant's matcher after
the last of theirs.  What is written is the same pieces with the insertions.  Which selectors a text
has is read apart from the rewriter (`bodies`, `injectTenantLabel_inserts`).
-/

namespace Cios.Tenant
open Text List

/-! ### The selectors of a text -/

/-- The matchers of each selector, from left to right. -/
def bodies (s : Bytes) : List (List Matcher) :=
  match s with
  | [] => []
  | c :: r =>
    if c = '\"' then
      match _h : closeQuote r with
      | some (_, rest) => bodies rest
      | none => bodies r
    else if c = '{' then
      match _h : readBody r with
      | some (ms, rest) => ms :: bodies rest
      | none => bodies r
    else bodies r
termination_by s.length
decreasing_by
  · exact Nat.lt_succ_of_lt (closeQuote_length _h)
  · simp
  · exact Nat.lt_succ_of_lt (readBody_length _h)
  · simp
  · simp

theorem bodies_nil : bodies [] = [] := by rw [bodies]

theorem bodies_byte {c : UInt8} (hq : c ≠ '\"') (hb : c ≠ '{') (r : Bytes) :
    bodies (c :: r) = bodies r := by
  rw [bodies, if_neg hq, if_neg hb]

theorem bodies_literal {r v rest : Bytes} (h : closeQuote r = some (v, rest)) :
    bodies (('\"' : UInt8) :: r) = bodies rest := by
  rw [bodies, if_pos rfl]
  split
  · rename_i h'
    obtain ⟨-, rfl⟩ := Prod.mk.inj (Option.some.inj (h.symm.trans h'))
    rfl
  · rename_i h'
    cases h.symm.trans h'

theorem bodies_selector {r rest : Bytes} {ms : List Matcher} (h : readBody r = some (ms, rest)) :
    bodies (('{' : UInt8) :: r) = ms :: bodies rest := by
  rw [bodies, if_neg (by decide), if_pos rfl]
  split
  · rename_i h'
    obtain ⟨rfl, rfl⟩ := Prod.mk.inj (Option.some.inj (h.symm.trans h'))
    rfl
  · rename_i h'
    cases h.symm.trans h'

theorem bodies_bytes {l : Bytes} (h : ∀ c ∈ l, c ≠ '\"' ∧ c ≠ '{') (r : Bytes) :
    bodies (l ++ r) = bodies r := by
  induction l with
  | nil => rfl
  | cons c l ih =>
    rw [forall_mem_cons] at h
    rw [cons_append, bodies_byte h.1.1 h.1.2, ih h.2]

/-! ### Pieces -/

/-- A whole identifier of a text that goes on with `rest`. -/
structure Identifier (w rest : Bytes) : Prop where
  start : ∃ c, w.head? = some c ∧ isIdentStart c = true
  cont : ∀ c ∈ w, isIdentCont c = true
  stop : ∀ c, rest.head? = some c → isIdentCont c = false

/-- A piece of a query, as the pass goes over it. -/
inductive Edit where
  | copy (text : Bytes)
  | literal (text : Bytes)
  | bare (name : Bytes)
  | selector (core trail : Bytes) (ms : List Matcher)
deriving DecidableEq, Repr

namespace Edit

/-- The text up to where something may be inserted. -/
@[simp] def before : Edit → Bytes
  | copy t => t
  | literal t => lit "\"" ++ t
  | bare w => w
  | selector core _ _ => lit "\x7b" ++ core

@[simp] def inserted (id : Bytes) : Edit → Bytes
  | copy _ => []
  | literal _ => []
  | bare _ => lit "\x7btenant=\"" ++ (id ++ lit "\"\x7d")
  | selector _ _ ms => (if ms = [] then [] else lit ",") ++ (lit "tenant=\"" ++ (id ++ lit "\""))

@[simp] def after : Edit → Bytes
  | copy _ => []
  | literal _ => []
  | bare _ => []
  | selector _ trail _ => trail ++ lit "\x7d"

@[simp] def old (e : Edit) : Bytes := e.before ++ e.after

@[simp] def new (id : Bytes) (e : Edit) : Bytes := e.before ++ (e.inserted id ++ e.after)

/-- The matchers of the piece, where it is a selector. -/
def body : Edit → Option (List Matcher)
  | selector _ _ ms => some ms
  | _ => none

/-- And as it is written. -/
def newBody (id : Bytes) : Edit → Option (List Matcher)
  | selector _ _ ms => some (ms ++ [tenantIs id])
  | bare _ => some [tenantIs id]
  | _ => none

/-- What the pieces are, in a text that goes on with `rest`. -/
def Ok (rest : Bytes) : Edit → Prop
  | copy t => ∀ c ∈ t, c ≠ '\"' ∧ c ≠ '{'
  | literal t => ∃ v, ∀ r, closeQuote (t ++ r) = some (v, r)
  | bare w => Identifier w rest
  | selector core trail ms =>
    Reads core ms ∧ (∀ c ∈ trail, isSeparator c = true) ∧ Untenanted ms

end Edit

/-- The text that is divided into the pieces. -/
inductive Divides : List Edit → Bytes → Prop where
  | nil : Divides [] []
  | cons {e : Edit} {es : List Edit} {s : Bytes} :
      e.Ok s → Divides es s → Divides (e :: es) (e.old ++ s)

theorem Divides.text {es : List Edit} {s : Bytes} (h : Divides es s) : s = es.flatMap Edit.old := by
  induction h with
  | nil => rfl
  | cons _ _ ih => rw [flatMap_cons, ← ih]

/-! ### The selectors of the pieces -/

theorem isIdentCont_facts : ∀ c : UInt8, isIdentCont c = true → c ≠ '\"' ∧ c ≠ '{' :=
  forall_byte (by decide +kernel)

section Bodies

variable {e : Edit} {id s : Bytes}

theorem Edit.bodies_old (h : e.Ok s) : bodies (e.old ++ s) = e.body.toList ++ bodies s := by
  cases e with
  | copy t =>
    rw [old, before, after, append_nil, bodies_bytes h]
    rfl
  | literal t =>
    obtain ⟨v, hv⟩ := h
    rw [old, before, after, append_nil, append_assoc]
    exact bodies_literal (hv s)
  | bare w =>
    rw [old, before, after, append_nil,
      bodies_bytes fun c hc => isIdentCont_facts c (h.cont c hc)]
    rfl
  | selector core trail ms =>
    obtain ⟨hcore, htrail, -⟩ := h
    have hread := (hcore.append (Reads.separators htrail)).close s
    rw [append_nil] at hread
    have hold : (selector core trail ms).old ++ s =
        ('{' : UInt8) :: (core ++ trail ++ ('}' : UInt8) :: s) := by
      simp only [old, after, append_assoc]
      rfl
    rw [hold, bodies_selector hread]
    rfl

theorem Edit.bodies_new (hid : Unescaped id) (h : e.Ok s) (t : Bytes) :
    bodies (e.new id ++ t) = (e.newBody id).toList ++ bodies t := by
  cases e with
  | copy u =>
    rw [new, before, inserted, after, append_nil, append_nil, bodies_bytes h]
    rfl
  | literal u =>
    obtain ⟨v, hv⟩ := h
    rw [new, before, inserted, after, append_nil, append_nil, append_assoc]
    exact bodies_literal (hv t)
  | bare w =>
    have hread := (Reads.tenantMatcher hid).close t
    have hnew : (bare w).new id ++ t =
        w ++ ('{' : UInt8) :: (tenantMatcher id ++ ('}' : UInt8) :: t) := by
      simp only [new, inserted, tenantMatcher_valid hid, append_assoc]
      rfl
    rw [hnew, bodies_bytes fun c hc => isIdentCont_facts c (h.cont c hc), bodies_selector hread]
    rfl
  | selector core trail ms =>
    obtain ⟨hcore, htrail, -⟩ := h
    have hread := (hcore.tenanted hid htrail).close t
    have hnew : (selector core trail ms).new id ++ t = ('{' : UInt8) ::
        (core ++ (joint ms ++ (tenantMatcher id ++ trail)) ++ ('}' : UInt8) :: t) := by
      simp only [new, inserted, after, tenantMatcher_valid hid, append_assoc]
      rfl
    rw [hnew, bodies_selector hread]
    rfl

variable {es : List Edit}

theorem Divides.bodies_old (h : Divides es s) : bodies s = es.filterMap Edit.body := by
  induction h with
  | nil => exact bodies_nil
  | @cons e es s he _ ih =>
    rw [e.bodies_old he, ih]
    cases hb : e.body <;> simp [hb]

theorem Divides.bodies_new (hid : Unescaped id) (h : Divides es s) :
    bodies (es.flatMap (Edit.new id)) = es.filterMap (Edit.newBody id) := by
  induction h with
  | nil => exact bodies_nil
  | @cons e es s he _ ih =>
    rw [flatMap_cons, e.bodies_new hid he, ih]
    cases hb : e.newBody id <;> simp [hb]

theorem Untenanted.filter {ms : List Matcher} (h : Untenanted ms) :
    ms.filter (·.name = tenantLabelName) = [] :=
  filter_eq_nil_iff.mpr fun m hm => by simpa using h m hm

theorem Edit.newBody_tenant (h : e.Ok s) {ms : List Matcher} (hms : e.newBody id = some ms) :
    ms.filter (·.name = tenantLabelName) = [tenantIs id] := by
  cases e with
  | copy t => cases hms
  | literal t => cases hms
  | bare w =>
    cases hms
    rfl
  | selector core trail ms' =>
    cases hms
    rw [filter_append, h.2.2.filter]
    rfl

theorem Divides.ok (h : Divides es s) : ∀ e ∈ es, ∃ rest, e.Ok rest := by
  induction h with
  | nil => simp
  | cons he _ ih => exact forall_mem_cons.mpr ⟨⟨_, he⟩, ih⟩

theorem Divides.newBody_tenant (h : Divides es s) :
    ∀ ms ∈ es.filterMap (Edit.newBody id),
      ms.filter (·.name = tenantLabelName) = [tenantIs id] := by
  intro ms hms
  obtain ⟨e, he, hb⟩ := mem_filterMap.mp hms
  obtain ⟨rest, hok⟩ := h.ok e he
  exact Edit.newBody_tenant hok hb

theorem Divides.body_untenanted (h : Divides es s) :
    ∀ ms ∈ es.filterMap Edit.body, ms.filter (·.name = tenantLabelName) = [] := by
  intro ms hms
  obtain ⟨e, he, hb⟩ := mem_filterMap.mp hms
  obtain ⟨rest, hok⟩ := h.ok e he
  cases e with
  | selector core trail ms' =>
    cases hb
    exact hok.2.2.filter
  | copy t | literal t | bare w => cases hb

end Bodies

/-! ### The pass -/

theorem isNumberByte_copied : ∀ c : UInt8, isNumberByte c = true → c ≠ '\"' ∧ c ≠ '{' :=
  forall_byte (by decide +kernel)

theorem isSpace_copied : ∀ c : UInt8, isSpace c = true → c ≠ '\"' ∧ c ≠ '{' :=
  forall_byte (by decide +kernel)

section Pass

variable {id s : Bytes}

/-- The pass has come from `out` and `saw` to `out'` and `saw'` through these pieces. -/
structure Passed (id out out' : Bytes) (saw saw' : Bool) (es : List Edit) : Prop where
  out : out' = out ++ es.flatMap (Edit.new id)
  saw : saw = saw' ∨ ∃ e ∈ es, e.newBody id ≠ none

theorem Divides.extend {out out₁ out' rest : Bytes} {saw saw₁ saw' : Bool}
    {es : List Edit} (e : Edit)
    (he : e.Ok rest) (hes : Divides es rest) (hpassed : Passed id out₁ out' saw₁ saw' es)
    (hs : s = e.old ++ rest) (hout : out₁ = out ++ e.new id)
    (hsaw : saw = saw₁ ∨ e.newBody id ≠ none) :
    ∃ es, Divides es s ∧ Passed id out out' saw saw' es := by
  refine ⟨e :: es, hs ▸ .cons he hes, ?_, ?_⟩
  · rw [hpassed.out, hout, flatMap_cons, append_assoc]
  · rcases hsaw with rfl | hsaw
    · exact hpassed.saw.imp_right fun ⟨x, hx, hbody⟩ => ⟨x, mem_cons_of_mem _ hx, hbody⟩
    · exact .inr ⟨e, mem_cons_self, hsaw⟩

/-- **The pass.**  An accepted query is divided into pieces, written with their insertions. -/
theorem injectScan_divides (hid : Unescaped id) {i k : Nat}
    {out out' : Bytes} {saw saw' : Bool} (h : injectScan id i s out saw = .ok (k, saw', out')) :
    ∃ es, Divides es s ∧ Passed id out out' saw saw' es := by
  fun_induction injectScan id i s out saw with
  | case1 i out saw =>
    cases h
    exact ⟨[], .nil, by simp, .inl rfl⟩
  | case2 i out saw c r hsp ih =>
    obtain ⟨es, hes, hpassed⟩ := ih h
    exact hes.extend (.copy [c]) (by simpa [Edit.Ok] using isSpace_copied c hsp) hpassed rfl
      (by simp) (.inl rfl)
  | case3 | case4 | case5 | case6 | case8 | case10 | case11 => cases h
  | case7 i out saw r out₁ selEnd rest hsel _ _ _ _ ih =>
    obtain ⟨es, hes, hpassed⟩ := ih h
    obtain ⟨core, trail, ms, rfl, rfl, htrail, hreads, hms⟩ := rewriteSelector_split hsel
    refine hes.extend (.selector core trail ms) ⟨hreads, htrail, hms⟩ hpassed ?_ ?_
      (.inr (by simp [Edit.newBody]))
    · simp only [Edit.old, Edit.after, append_assoc]
      rfl
    · rw [tenantMatcher_valid hid]
      simp only [Edit.new, Edit.inserted, append_assoc]
      rfl
  | case9 i out saw r out₁ i₂ rest hlit _ _ _ _ _ ih =>
    obtain ⟨es, hes, hpassed⟩ := ih h
    obtain ⟨p, hp, he⟩ := map_ok hlit
    obtain ⟨rfl, -, rfl⟩ := he
    refine hes.extend (.literal p.1) (closeQuote_of_scan hp) hpassed ?_ ?_ (.inl rfl)
    · rw [(scanQuotedString_ok hp).1]
      simp only [Edit.old, append_assoc]
      rfl
    · simp
  | case12 i out saw c r _ _ _ _ _ _ hi word rest j _ out₁ saw₁ hlook ih =>
    obtain ⟨es, hes, hpassed⟩ := ih h
    have hw : Identifier word rest := by
      refine ⟨⟨c, rfl, hi⟩, ?_, fun d hd => ?_⟩
      · simp only [word, forall_mem_cons]
        exact ⟨(isIdentStart_facts c hi).2.2.2.2.2, fun d hd => mem_takeWhile_imp hd⟩
      · have := head?_dropWhile_not isIdentCont r
        simpa [rest, hd] using this
    have hs : c :: r = (Edit.copy word).old ++ rest := by
      simp [word, rest]
    have hcopy : (Edit.copy word).Ok rest := fun d hd => isIdentCont_facts d (hw.cont d hd)
    have hnew : out ++ word = out ++ (Edit.copy word).new id := by
      simp
    rcases lookAhead_ok hlook with ⟨rfl, rfl, -⟩ | ⟨rfl, rfl, -⟩ | ⟨rfl, -⟩
    · -- A selector follows the name, which the pass comes to next.
      exact hes.extend (.copy word) hcopy hpassed hs hnew (.inl rfl)
    · -- An operator follows it, and something was labelled before.
      exact hes.extend (.copy word) hcopy hpassed hs hnew (.inl rfl)
    · refine hes.extend (.bare word) hw hpassed hs ?_ (.inr (by simp [Edit.newBody]))
      rw [injectSyntheticSelector, tenantMatcher_valid hid]
      simp only [Edit.new, Edit.inserted, append_assoc]
      rfl
  | case13 i out saw c r _ _ _ _ _ _ _ hnum number ih =>
    obtain ⟨es, hes, hpassed⟩ := ih h
    exact hes.extend (.copy number) (fun d hd => isNumberByte_copied d (number_bytes hnum d hd))
      hpassed (by simp [number])
      (by simp) (.inl rfl)
  | case14 i out saw c r _ _ _ _ hb hq _ _ ih =>
    obtain ⟨es, hes, hpassed⟩ := ih h
    exact hes.extend (.copy [c]) (by simpa [Edit.Ok] using ⟨hq, hb⟩) hpassed rfl
      (by simp) (.inl rfl)

end Pass

/-! ### Insertion -/

/-- **Only insertions.**  The pieces of an accepted query that are selectors are just its selectors,
and each gets the tenant's matcher once, after a comma if it has a matcher before; the only other
insertions are selectors of that matcher alone, each after a whole identifier.  Without the
insertions the query is left; and every written selector has the tenant's label once. -/
theorem injectTenantLabel_inserts {promql tenantID out : Bytes}
    (h : injectTenantLabel promql tenantID = .ok out) :
    ∃ es : List Edit, Divides es promql ∧
      promql = (es.flatMap fun e => e.before ++ e.after) ∧
      out = (es.flatMap fun e => e.before ++ (e.inserted tenantID ++ e.after)) ∧
      bodies promql = es.filterMap Edit.body ∧
      bodies out = es.filterMap (Edit.newBody tenantID) ∧
      ∀ ms ∈ bodies out, ms.filter (·.name = tenantLabelName) = [tenantIs tenantID] := by
  obtain ⟨hvalid, i, hscan⟩ := injectTenantLabel_ok h
  have hid := validateTenantIDForLabel_ok hvalid
  obtain ⟨es, hes, rfl, -⟩ := injectScan_divides hid hscan
  have hnew := hes.bodies_new hid
  refine ⟨es, hes, hes.text, rfl, hes.bodies_old, hnew, ?_⟩
  rw [nil_append, hnew]
  exact hes.newBody_tenant

/-- No selector of an accepted query has the tenant's label, and one that is written has. -/
theorem injectTenantLabel_bodies {promql tenantID out : Bytes}
    (h : injectTenantLabel promql tenantID = .ok out) :
    (∀ ms ∈ bodies promql, ms.filter (·.name = tenantLabelName) = []) ∧
      ∃ ms ∈ bodies out, ms.filter (·.name = tenantLabelName) = [tenantIs tenantID] := by
  obtain ⟨hvalid, i, hscan⟩ := injectTenantLabel_ok h
  have hid := validateTenantIDForLabel_ok hvalid
  obtain ⟨es, hes, rfl, hsaw⟩ := injectScan_divides hid hscan
  obtain ⟨e, he, hbody⟩ := hsaw.resolve_left nofun
  obtain ⟨ms, hms⟩ := Option.ne_none_iff_exists'.mp hbody
  have hwritten : ms ∈ es.filterMap (Edit.newBody tenantID) := mem_filterMap.mpr ⟨e, he, hms⟩
  rw [nil_append, hes.bodies_new hid, hes.bodies_old]
  exact ⟨hes.body_untenanted, ms, hwritten, hes.newBody_tenant ms hwritten⟩

/-- A rewritten query is never the query itself. -/
theorem injectTenantLabel_ne {promql tenantID : Bytes} :
    injectTenantLabel promql tenantID ≠ .ok promql := by
  intro h
  obtain ⟨hnone, ms, hms, hlabel⟩ := injectTenantLabel_bodies h
  rw [hnone ms hms] at hlabel
  cases hlabel

/-- **A query is rewritten once**: what was written for a tenant is refused for every tenant. -/
theorem injectTenantLabel_once {promql tenantID out : Bytes}
    (h : injectTenantLabel promql tenantID = .ok out) (tenantID' : Bytes) :
    ∃ e, injectTenantLabel out tenantID' = .error e := by
  obtain ⟨-, ms, hms, hlabel⟩ := injectTenantLabel_bodies h
  cases hout : injectTenantLabel out tenantID' with
  | error e => exact ⟨e, rfl⟩
  | ok out' =>
    rw [(injectTenantLabel_bodies hout).1 ms hms] at hlabel
    cases hlabel

theorem injectTenantLabel_once_up :
    ∃ e, injectTenantLabel "up\x7btenant=\"acme\"\x7d" "globex" = .error e :=
  injectTenantLabel_once (show injectTenantLabel "up" "acme" = .ok _ by decide +kernel) "globex"

/-- A ratio of a selector whose value has a brace and of a bare name. -/
theorem injectTenantLabel_inserts_ratio :
    ∃ es : List Edit, Divides es "a\x7bjob=\"\x7d\", \x7d / b" ∧
      lit "a\x7bjob=\"\x7d\", \x7d / b" = (es.flatMap fun e => e.before ++ e.after) ∧
      lit "a\x7bjob=\"\x7d\",tenant=\"acme\", \x7d / b\x7btenant=\"acme\"\x7d" =
        (es.flatMap fun e => e.before ++ (e.inserted "acme" ++ e.after)) ∧
      bodies "a\x7bjob=\"\x7d\", \x7d / b" = es.filterMap Edit.body ∧
      bodies "a\x7bjob=\"\x7d\",tenant=\"acme\", \x7d / b\x7btenant=\"acme\"\x7d" =
        es.filterMap (Edit.newBody "acme") ∧
      ∀ ms ∈ bodies "a\x7bjob=\"\x7d\",tenant=\"acme\", \x7d / b\x7btenant=\"acme\"\x7d",
        ms.filter (·.name = tenantLabelName) = [tenantIs "acme"] :=
  injectTenantLabel_inserts (by decide +kernel)

end Cios.Tenant
