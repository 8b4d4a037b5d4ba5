import Cios.Rbac.Boot

/-!
# RBAC — the grammar of tenant-bound names, and globs for a tenant

Three grammars meet in a name of the form `crn:tenant/<tid>/org/<oid>/site/<sid>(/<node>)*`: the one
`ParseCRN` reads, the one `String` writes, and the one `CompileGlob` takes the dotted path under the
site in (`core/crn.go`).  They are meant to agree on every name that is read (`Crn.Coherent`), and
fail to in three places (`coherent_iff`).

The tenant of a name may be a glob.  The red line compares it with the tenant of the request as a
text, so a glob admits no tenant it matches (`glob_tenant_iff`).
-/

namespace Cios.Rbac
open Text List Bool

/-! ### What is accepted -/

section Accepted

variable {s p : Bytes} {c : Crn} {nodes tail : List Bytes}

theorem forall_of_all_globByte (h : p.all globByte = true) : ∀ d ∈ p, isAlnum d ∨ d = '*' := by
  simpa [globByte] using h

theorem no_slash_of_bytes (h : ∀ d ∈ p, isAlnum d ∨ d = '*') : ('/' : UInt8) ∉ p :=
  fun hd => (h _ hd).elim (by decide) (by decide)

theorem globSeg_of_crnValidPiece (h : crnValidPiece p = true) (hne : p ≠ []) : GlobSeg p := by
  unfold crnValidPiece at h
  split_ifs at h with h₁ h₂
  · rcases (by simpa using h₁ : p = lit "*" ∨ p = lit "**") with rfl | rfl
    · exact ⟨hne, forall_mem_of_all (by decide), .inr (by decide)⟩
    · exact ⟨hne, forall_mem_of_all (by decide), .inl rfl⟩
  · rw [all_eq_true] at h₂
    refine ⟨hne, fun d hd => .inl (h₂ d hd), .inr fun hin => ?_⟩
    exact absurd (h₂ '*' (hin.subset (by decide))) (by decide)
  · simp only [crnGlobSegRe, and_eq_true, not_eq_true'] at h
    refine ⟨hne, forall_of_all_globByte h.1.1, .inr fun hin => ?_⟩
    rw [contains_iff.mpr hin] at h
    exact false_ne_true h.2.symm

theorem crnValidNode_pieces (h : crnValidNode p = true) :
    ∀ q ∈ split '.' p, crnValidPiece q = true := by
  unfold crnValidNode at h
  split_ifs at h with h₁ h₂
  · rcases (by simpa using h₂ : p = lit "*" ∨ p = lit "**") with rfl | rfl <;> decide
  · exact all_eq_true.mp h

/-- The nodes of a tail pass the check, so its pieces that are not empty are single globs. -/
theorem crnTail_valid (h : crnTail nodes = .ok tail) :
    (∀ n ∈ nodes, crnValidNode n = true) ∧ ∀ q ∈ tail, q = [] ∨ GlobSeg q := by
  have hnodes : ∀ n ∈ nodes, crnValidNode n = true := by
    induction nodes generalizing tail with
    | nil => simp
    | cons n nodes ih =>
      rw [crnTail] at h
      split_ifs at h with hn
      cases hrest : crnTail nodes with
      | error e => simp [hrest] at h
      | ok rest => exact forall_mem_cons.mpr ⟨hn, ih hrest⟩
  refine ⟨hnodes, fun q hq => or_iff_not_imp_left.mpr ?_⟩
  rw [crnTail_ok h, mem_flatten] at hq
  obtain ⟨_, hmem, hq⟩ := hq
  obtain ⟨n, hn, rfl⟩ := mem_map.mp hmem
  exact globSeg_of_crnValidPiece (crnValidNode_pieces (hnodes n hn) q hq)

theorem alnum_or_star_of_globSeg (h : crnIsGlobSeg p = true) :
    p ≠ [] ∧ ∀ d ∈ p, isAlnum d ∨ d = '*' := by
  cases p with
  | nil => cases h
  | cons d rest =>
    refine ⟨cons_ne_nil _ _, ?_⟩
    rw [crnIsGlobSeg] at h
    split_ifs at h with h₁ h₂ h₃
    · rcases (by simpa using h₁ : d :: rest = lit "*" ∨ d :: rest = lit "**") with e | e <;>
        rw [e] <;> exact forall_mem_of_all (by decide)
    · refine forall_mem_cons.mpr ⟨?_, forall_of_all_globByte h⟩
      simp only [isAlnum] at h₂ ⊢
      grind

/-- No length or first byte of a literal: too short, too long or led by a digit. -/
def OutOfForm (t : Bytes) : Prop :=
  t.length < 2 ∨ 31 < t.length ∨ t.head?.any isDigit = true

/-- A tenant or organisation that is no glob and no literal, but accepted. -/
def Loose (t : Bytes) : Prop := (∀ d ∈ t, isAlnum d) ∧ OutOfForm t

theorem lower_iff_not_digit : ∀ d : UInt8, isAlnum d = true →
    (isLower d = true ↔ isDigit d = false) :=
  forall_byte (by decide +kernel)

theorem crnTidOidRe_iff (hal : ∀ d ∈ p, isAlnum d) : crnTidOidRe p = true ↔ ¬ OutOfForm p := by
  cases p with
  | nil => simp [crnTidOidRe, OutOfForm]
  | cons d rest =>
    rw [forall_mem_cons] at hal
    simp only [crnTidOidRe, OutOfForm, and_eq_true, lower_iff_not_digit d hal.1]
    grind

/-- An accepted tenant is a literal or holds a star, unless it is loose. -/
theorem literal_or_star_iff (h : crnIsTidOrOid p = true) :
    crnTidOidRe p = true ∨ ('*' : UInt8) ∈ p ↔ ¬ Loose p := by
  by_cases hstar : ('*' : UInt8) ∈ p
  · exact iff_of_true (.inr hstar) fun hl => absurd (hl.1 _ hstar) (by decide)
  rw [or_iff_left hstar]
  constructor
  · exact fun hre hl => (crnTidOidRe_iff hl.1).mp hre hl.2
  intro hl
  refine (or_eq_true_iff.mp h).elim (fun hseg => ?_) id
  have hal : ∀ d ∈ p, isAlnum d = true := fun d hd =>
    ((alnum_or_star_of_globSeg hseg).2 d hd).resolve_right fun e => hstar (e ▸ hd)
  exact (crnTidOidRe_iff hal).mpr fun hbad => hl ⟨hal, hbad⟩

/-- The dotted glob compiles, the name is read back, and tenant and organisation are literals or
hold a star. -/
def Crn.Coherent (c : Crn) : Prop :=
  (compileGlob c.dotPath).isSome ∧ parseCRN c.toString = .ok c ∧
    ∀ t ∈ [c.tid, c.oid], crnTidOidRe t = true ∨ ('*' : UInt8) ∈ t

theorem compiles_iff (h : parseCRN s = .ok c) :
    (compileGlob c.dotPath).isSome ↔ (c.sid = "**" ∨ ¬ lit "**" <:+: c.sid) ∧ [] ∉ c.tail := by
  obtain ⟨nodes, -, -, -, hs, htail⟩ := parseCRN_ok h
  simp only [crnSiteRe, and_eq_true, not_eq_true', isEmpty_eq_false_iff] at hs
  rw [compileGlob_isSome, split_dotPath_of_parse h, DotGlob, forall_mem_cons]
  refine and_congr ?_ ⟨fun hall h0 => (hall [] h0).1 rfl, fun h0 p hp => ?_⟩
  · exact ⟨fun hsid => hsid.2.2, fun hsid => ⟨hs.1, forall_of_all_globByte hs.2, hsid⟩⟩
  · exact ((crnTail_valid htail).2 p hp).resolve_left fun e => h0 (e ▸ hp)

theorem read_back_iff (h : parseCRN s = .ok c) : parseCRN c.toString = .ok c ↔ [] ∉ c.tail := by
  obtain ⟨nodes, hsplit, ht, ho, hs, htail⟩ := parseCRN_ok h
  have hno : ∀ q ∈ [c.tid, c.oid], ('/' : UInt8) ∉ q := by
    intro q hq
    refine not_mem_of_mem_splitOn (s := s.drop crnPrefix.length) ?_
    rw [hsplit]
    simp only [mem_cons] at hq ⊢
    tauto
  have hpieces := (crnTail_valid htail).2
  have hwritten := Crn.split_toString (hno c.tid (by simp)) (hno c.oid (by simp))
    (no_slash_of_bytes (forall_of_all_globByte (and_eq_true_iff.mp hs).2))
    fun q hq => (hpieces q hq).elim (fun e => e ▸ not_mem_nil) globSeg_no_slash
  constructor
  · intro hread h0
    obtain ⟨nodes', hsplit', -, -, -, htail'⟩ := parseCRN_ok hread
    rw [hwritten] at hsplit'
    obtain rfl : c.tail = nodes' := by simpa using hsplit'
    exact absurd ((crnTail_valid htail').1 [] h0) (by decide)
  · intro h0
    exact parseCRN_eq_ok c.isPrefixOf_toString hwritten ht ho hs
      (crnTail_pieces fun q hq => (hpieces q hq).resolve_left fun e => h0 (e ▸ hq))

/-- **When an accepted name is coherent**: its site has `**` only alone, no piece of its tail is
empty, and neither tenant nor organisation is loose. -/
theorem coherent_iff (h : parseCRN s = .ok c) :
    c.Coherent ↔ (c.sid = "**" ∨ ¬ lit "**" <:+: c.sid) ∧ [] ∉ c.tail ∧
      ¬ Loose c.tid ∧ ¬ Loose c.oid := by
  obtain ⟨-, -, ht, ho, -, -⟩ := parseCRN_ok h
  simp only [Crn.Coherent, compiles_iff h, read_back_iff h, forall_mem_cons,
    literal_or_star_iff ht, literal_or_star_iff ho]
  tauto

end Accepted

theorem coherent_iff_acme : (Crn.mk "acme" "*" "fra01" ["pod*", "**"]).Coherent :=
  (coherent_iff (s := "crn:tenant/acme/org/*/site/fra01/pod*.**") (by decide)).mpr
    ⟨.inr (by decide), by decide, (literal_or_star_iff (by decide)).mp (.inl (by decide)),
      (literal_or_star_iff (by decide)).mp (.inr (by decide))⟩

/-- Each part can fail: a site `**x` does not compile, an empty piece is not read back, a tenant of
one letter is no literal. -/
theorem accepted_incoherent :
    (∃ c, parseCRN "crn:tenant/acme/org/emea/site/a**b" = .ok c ∧ compileGlob c.dotPath = none) ∧
    (∃ c, parseCRN "crn:tenant/acme/org/emea/site/fra01/a..b" = .ok c ∧
      parseCRN c.toString ≠ .ok c) ∧
    ∃ c, parseCRN "crn:tenant/a/org/emea/site/fra01" = .ok c ∧
      ¬ (crnTidOidRe c.tid = true ∨ ('*' : UInt8) ∈ c.tid) :=
  ⟨⟨⟨"acme", "emea", "a**b", []⟩, by decide, by decide⟩,
    ⟨⟨"acme", "emea", "fra01", ["a", [], "b"]⟩, by decide, by decide⟩,
    ⟨⟨"a", "emea", "fra01", []⟩, by decide, by decide⟩⟩

/-! ### A glob for a tenant -/

section Tenant

variable {s t path : Bytes} {c : Crn} {p : Principal} {closed : Bool} {action : Action}

/-- A principal of one scope, compiled or not yet. -/
def Principal.HoldsOnly (p : Principal) (s : Bytes) : Prop :=
  p.scopes = [s] ∧ (p.compiledScopes = none ∨ ∃ q, compilePrincipalScopes q = .ok p)

/-- The dotted glob under a site matches a path; for a read, so does the subtree below it. -/
def Crn.tailMatches (c : Crn) (action : Action) (path : Bytes) : Bool :=
  (compileGlob c.dotPath).any (·.matches path) ||
    action == .read && (compileGlob (c.dotPath ++ ".**")).any (·.matches path)

theorem Principal.HoldsOnly.scopeGlobs (h : p.HoldsOnly s) :
    p.scopeGlobs = (compileScopeGlob s).toOption.toList := by
  obtain ⟨hs, hc | ⟨q, hq⟩⟩ := h
  · rw [Principal.scopeGlobs, hc, hs, compileScopeGlobs]
    cases compileScopeGlob s <;> rfl
  unfold compilePrincipalScopes at hq
  cases hsgs : compileScopeGlobs q.scopes with
  | error e => simp [hsgs] at hq
  | ok sgs =>
    rw [hsgs] at hq
    cases hq
    rw [show q.scopes = [s] from hs, compileScopeGlobs] at hsgs
    cases hsg : compileScopeGlob s with
    | error e => simp [hsg] at hsgs
    | ok sg => simpa [hsg, compileScopeGlobs, Principal.scopeGlobs, Except.toOption] using hsgs.symm

theorem authorizeScopes_name (h : parseCRN s = .ok c) (ht : t ≠ []) :
    authorizeScopes closed action path t (compileScopeGlob s).toOption.toList = .ok () ↔
      c.tailMatches action path = true ∧ c.tid = t := by
  have hparts : scopeParts s = .ok (.crn, c.tid, c.dotPath) := by
    have hp : crnPrefix.isPrefixOf s = true := by
      by_contra hp
      simp [parseCRN, cutPrefix, hp] at h
    simp [scopeParts, hp, h]
  have hsub : (compileGlob (c.dotPath ++ ".**")).isSome = (compileGlob c.dotPath).isSome := by
    rw [Bool.eq_iff_iff, compileGlob_isSome, compileGlob_isSome, split_append_globstar, DotGlob,
      forall_mem_append]
    exact and_iff_left (by simpa using globSeg_globstar)
  rw [Crn.tailMatches]
  cases he : compileGlob c.dotPath with
  | none =>
    rw [he, Option.isSome_none, Option.isSome_eq_false_iff, Option.isNone_iff_eq_none] at hsub
    have hscope : compileScopeGlob s = .error .glob := by simp [compileScopeGlob, hparts, he]
    simp [hsub, hscope, authorizeScopes, Except.toOption]
  | some exact =>
    rw [he, Option.isSome_some, Option.isSome_iff_exists] at hsub
    obtain ⟨subtree, hs⟩ := hsub
    have hscope : compileScopeGlob s = .ok ⟨exact, subtree, .crn, c.tid⟩ := by
      simp [compileScopeGlob, hparts, he, hs]
    have hone : (compileScopeGlob s).toOption.toList = [⟨exact, subtree, .crn, c.tid⟩] := by
      rw [hscope]
      rfl
    rw [hone, authorizeScopes_ok_iff]
    simp [hs, ht, ScopeGlob.matches, ScopeGlob.Admissible]

theorem SegGlob.no_star {p s : Bytes} (h : SegGlob p s) : ('*' : UInt8) ∉ s := by
  induction p generalizing s with
  | nil => simp [Cover.covers_nil.mp h]
  | cons d p ih =>
    obtain ⟨run, rest, hrun, hrest, rfl⟩ := Cover.covers_cons.mp h
    rw [mem_append]
    rintro (hin | hin)
    · unfold ByteTakes at hrun
      split_ifs at hrun with hd
      · exact absurd (hrun _ hin) (by decide)
      · rw [hrun, mem_singleton] at hin
        exact hd hin.symm
    · exact ih hrest hin

/-- **A glob for a tenant**: the decision compares it with the request's tenant `t` as a text, so it
is the described one exactly where the glob neither matches nor is `t`, or the role or the tail
refuses. -/
theorem glob_tenant_iff (h : parseCRN s = .ok c) (hglob : ('*' : UInt8) ∈ c.tid)
    (hp : p.HoldsOnly s) (hadm : p.role ≠ .admin) (ht : t ≠ []) :
    (authorizeTenant closed p action path t = .ok () ↔
      roleAllows p action = .ok () ∧ c.tailMatches action path = true ∧ c.tid = t) ∧
    ((authorizeTenant closed p action path t = .ok () ↔
        roleAllows p action = .ok () ∧ c.tailMatches action path = true ∧ SegGlob c.tid t) ↔
      ¬ (roleAllows p action = .ok () ∧ c.tailMatches action path = true ∧
        (SegGlob c.tid t ∨ c.tid = t))) := by
  have hcode : authorizeTenant closed p action path t = .ok () ↔
      roleAllows p action = .ok () ∧ c.tailMatches action path = true ∧ c.tid = t := by
    by_cases hr : roleAllows p action = .ok ()
    · rw [authorizeTenant_of_role hr hadm, hp.scopeGlobs, authorizeScopes_name h ht,
        and_iff_right hr]
    · simp [hr, authorizeTenant_of_role_error hr]
  have hstar : c.tid = t → ¬ SegGlob c.tid t := fun e hm => hm.no_star (e ▸ hglob)
  refine ⟨hcode, ?_⟩
  tauto

end Tenant

theorem glob_tenant_iff_other :
    authorizeTenant false (viewerOf ["crn:tenant/acme*/org/o1/site/site01"]) .read
      "site01" "other" ≠
      .ok () := by
  intro hok
  have h := (glob_tenant_iff (c := ⟨"acme*", "o1", "site01", []⟩) (t := "other") (by decide)
    (by decide) ⟨rfl, .inl rfl⟩ (by decide) (by decide)).1.mp hok
  exact absurd h.2.2 (by decide)

/-- A viewer of `acme*` is refused for tenant `acme1`, which the glob matches. -/
theorem glob_tenant_refused :
    let c : Crn := ⟨"acme*", "o1", "site01", []⟩
    parseCRN "crn:tenant/acme*/org/o1/site/site01" = .ok c ∧
      c.tailMatches .read "site01" = true ∧ SegGlob c.tid "acme1" ∧
      authorizeTenant false (viewerOf ["crn:tenant/acme*/org/o1/site/site01"]) .read "site01"
        "acme1" = .error .forbidden :=
  ⟨by decide, by decide, segMatch_iff.mp (by decide), by decide⟩

end Cios.Rbac
