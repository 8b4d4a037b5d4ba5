import Cios.Rbac.Crn

/-!
# RBAC — principals and the decision

A principal (`core/auth.go`) is a subject, a role and a list of scopes; `compilePrincipalScopes`
compiles each scope to the glob that must match the path of a request and, for reads, the glob of
everything below it.  `authorizeTenant` (`core/rbac.go`) is the decision: the role must admit the
action, an admin needs nothing more, and for anyone else the scopes are tried in order.

The source describes the decision as "at least one scope must match" (`Granted`).  The loop returns
the verdict of the *first* matching scope instead, so a matching scope that is not admissible hides
every admissible one after it (`Masked`, `authorizeTenant_granted_iff`).
-/

namespace Cios.Rbac
open Text List

inductive Action where
  | read
  | controlWrite
  | apply
deriving DecidableEq, Repr

/-- The roles, and any other text a token table may carry. -/
inductive Role where
  | viewer
  | operator
  | admin
  | other (name : Bytes)
deriving DecidableEq, Repr

/-- How a scope entered: a v1.0 dotted glob, or a tenant-bound name. -/
inductive ScopeOrigin where
  | legacy
  | crn
deriving DecidableEq, Repr

structure ScopeGlob where
  exact : Glob
  subtree : Glob
  origin : ScopeOrigin
  tid : Bytes

/-- `compiledScopes` is `none` for a principal built without compiling (a nil slice). -/
structure Principal where
  subject : Bytes
  role : Role
  scopes : List Bytes
  compiledScopes : Option (List ScopeGlob)

inductive ScopeError where
  | crn (e : CrnError)
  | glob
deriving DecidableEq, Repr

inductive Forbidden where
  | forbidden
deriving DecidableEq, Repr

/-! ### Compiling scopes -/

/-- The tenant of a legacy scope: not yet bound. -/
def transitionTenantSentinel : Bytes := []

/-- The origin, the tenant and the dotted glob of a raw scope. -/
def scopeParts (s : Bytes) : Except ScopeError (ScopeOrigin × Bytes × Bytes) :=
  if crnPrefix.isPrefixOf s then
    match parseCRN s with
    | .ok c => .ok (.crn, c.tid, c.dotPath)
    | .error e => .error (.crn e)
  else
    let c := legacyToCRN s transitionTenantSentinel
    .ok (.legacy, c.tid, c.dotPath)

/-- The loop body of `compilePrincipalScopes`. -/
def compileScopeGlob (s : Bytes) : Except ScopeError ScopeGlob :=
  match scopeParts s with
  | .error e => .error e
  | .ok (origin, tid, dotPath) =>
    match compileGlob dotPath with
    | none => .error .glob
    | some exact =>
      match compileGlob (dotPath ++ ".**") with
      | none => .error .glob
      | some subtree => .ok ⟨exact, subtree, origin, tid⟩

def compileScopeGlobs : List Bytes → Except ScopeError (List ScopeGlob)
  | [] => .ok []
  | s :: rest =>
    match compileScopeGlob s with
    | .error e => .error e
    | .ok sg =>
      match compileScopeGlobs rest with
      | .error e => .error e
      | .ok sgs => .ok (sg :: sgs)

def compilePrincipalScopes (p : Principal) : Except ScopeError Principal :=
  match compileScopeGlobs p.scopes with
  | .error e => .error e
  | .ok sgs => .ok ⟨p.subject, p.role, p.scopes, some sgs⟩

/-! ### The decision -/

/-- The role floor. -/
def roleAllows (p : Principal) (action : Action) : Except Forbidden Unit :=
  match p.role with
  | .admin => .ok ()
  | .operator =>
    if action ≠ .read ∧ action ≠ .controlWrite then .error .forbidden else .ok ()
  | .viewer => if action ≠ .read then .error .forbidden else .ok ()
  | .other _ => .error .forbidden

/-- The verdict of a scope that has matched.  `closed` is the legacy window's flag. -/
def ScopeGlob.afterMatch (sg : ScopeGlob) (closed : Bool) (requestTenant : Bytes) :
    Except Forbidden Unit :=
  if sg.origin = .crn ∧ requestTenant ≠ [] ∧ sg.tid ≠ requestTenant then .error .forbidden
  else if sg.origin = .legacy ∧ closed then .error .forbidden
  else .ok ()

/-- A scope matches exactly, or by its subtree for reads. -/
def ScopeGlob.matches (sg : ScopeGlob) (action : Action) (path : Bytes) : Bool :=
  sg.exact.matches path || (action == .read && sg.subtree.matches path)

/-- The loop over the scopes. -/
def authorizeScopes (closed : Bool) (action : Action) (path requestTenant : Bytes) :
    List ScopeGlob → Except Forbidden Unit
  | [] => .error .forbidden
  | sg :: rest =>
    if sg.exact.matches path then sg.afterMatch closed requestTenant
    else if action = .read ∧ sg.subtree.matches path then sg.afterMatch closed requestTenant
    else authorizeScopes closed action path requestTenant rest

def authorizeTenant (closed : Bool) (p : Principal) (action : Action)
    (path requestTenant : Bytes) : Except Forbidden Unit :=
  match roleAllows p action with
  | .error e => .error e
  | .ok () =>
    if p.role = .admin then .ok ()
    else match p.compiledScopes with
      | some sgs => authorizeScopes closed action path requestTenant sgs
      | none =>
        match compilePrincipalScopes p with
        | .error _ => .error .forbidden
        | .ok ready =>
          authorizeScopes closed action path requestTenant (ready.compiledScopes.getD [])

def authorize (closed : Bool) (p : Principal) (action : Action) (path : Bytes) :
    Except Forbidden Unit :=
  authorizeTenant closed p action path []

/-- The scopes of a principal, compiled on it or on the spot, none when one is malformed. -/
def Principal.scopeGlobs (p : Principal) : List ScopeGlob :=
  match p.compiledScopes with
  | some sgs => sgs
  | none =>
    match compileScopeGlobs p.scopes with
    | .ok sgs => sgs
    | .error _ => []

/-! ### The decision as an existential -/

section Decision

variable {closed : Bool} {action : Action} {path requestTenant : Bytes}

/-- A match decides by itself: not another tenant's, and not a legacy one in a closed window. -/
def ScopeGlob.Admissible (sg : ScopeGlob) (closed : Bool) (requestTenant : Bytes) : Prop :=
  ¬ (sg.origin = .crn ∧ requestTenant ≠ [] ∧ sg.tid ≠ requestTenant) ∧
    ¬ (sg.origin = .legacy ∧ closed = true)

instance (sg : ScopeGlob) : Decidable (sg.Admissible closed requestTenant) :=
  inferInstanceAs (Decidable (_ ∧ _))

/-- The decision as described: the role admits the action, and some scope grants it. -/
def Granted (closed : Bool) (p : Principal) (action : Action) (path requestTenant : Bytes) :
    Prop :=
  roleAllows p action = .ok () ∧ (p.role = .admin ∨
    ∃ sg ∈ p.scopeGlobs, sg.matches action path = true ∧ sg.Admissible closed requestTenant)

instance (p : Principal) : Decidable (Granted closed p action path requestTenant) :=
  inferInstanceAs (Decidable (_ ∧ (_ ∨ _)))

/-- An admissible match stands behind one that is not, with no match before that. -/
def Masked (closed : Bool) (action : Action) (path requestTenant : Bytes)
    (sgs : List ScopeGlob) : Prop :=
  ∃ pre sg post, sgs = pre ++ sg :: post ∧ (∀ x ∈ pre, x.matches action path = false) ∧
    sg.matches action path = true ∧ ¬ sg.Admissible closed requestTenant ∧
      ∃ sg' ∈ post, sg'.matches action path = true ∧ sg'.Admissible closed requestTenant

theorem ScopeGlob.afterMatch_ok_iff {sg : ScopeGlob} :
    sg.afterMatch closed requestTenant = .ok () ↔ sg.Admissible closed requestTenant := by
  unfold ScopeGlob.afterMatch ScopeGlob.Admissible
  split
  · simp_all
  · split <;> simp_all

theorem authorizeScopes_cons (sg : ScopeGlob) (rest : List ScopeGlob) :
    authorizeScopes closed action path requestTenant (sg :: rest) =
      if sg.matches action path then sg.afterMatch closed requestTenant
      else authorizeScopes closed action path requestTenant rest := by
  rw [authorizeScopes, ScopeGlob.matches]
  by_cases he : sg.exact.matches path = true
  · simp [he]
  · simp [he]

theorem authorizeScopes_ok_iff : ∀ {sgs : List ScopeGlob},
    authorizeScopes closed action path requestTenant sgs = .ok () ↔
      ∃ sg, sgs.find? (·.matches action path) = some sg ∧ sg.Admissible closed requestTenant
  | [] => by simp [authorizeScopes]
  | sg :: rest => by
    rw [authorizeScopes_cons, find?_cons]
    cases hm : sg.matches action path with
    | true => simp [ScopeGlob.afterMatch_ok_iff]
    | false => simpa using authorizeScopes_ok_iff

theorem find_admissible_iff {sgs : List ScopeGlob}
    (h : ¬ Masked closed action path requestTenant sgs) :
    (∃ sg, sgs.find? (·.matches action path) = some sg ∧ sg.Admissible closed requestTenant) ↔
      ∃ sg ∈ sgs, sg.matches action path = true ∧ sg.Admissible closed requestTenant := by
  constructor
  · rintro ⟨sg, hf, ha⟩
    exact ⟨sg, mem_of_find?_eq_some hf, by simpa using find?_some hf, ha⟩
  rintro ⟨sg', hmem, hm', ha'⟩
  obtain ⟨sg, hf⟩ : ∃ sg, sgs.find? (·.matches action path) = some sg :=
    Option.isSome_iff_exists.mp (find?_isSome.mpr ⟨sg', hmem, hm'⟩)
  refine ⟨sg, hf, ?_⟩
  by_contra ha
  obtain ⟨hm, pre, post, rfl, hpre⟩ := find?_eq_some_iff_append.mp hf
  have hpre' : ∀ x ∈ pre, x.matches action path = false := by simpa using hpre
  -- The admissible match is neither before the first match nor that match itself.
  rcases mem_append.mp hmem with hin | hin
  · simp [hpre' sg' hin] at hm'
  · rcases mem_cons.mp hin with rfl | hin
    · exact ha ha'
    · exact h ⟨pre, sg, post, rfl, hpre', hm, ha, sg', hin, hm', ha'⟩

theorem Masked.not_find {sgs : List ScopeGlob}
    (h : Masked closed action path requestTenant sgs) :
    ¬ ∃ sg, sgs.find? (·.matches action path) = some sg ∧ sg.Admissible closed requestTenant := by
  obtain ⟨pre, sg, post, rfl, hpre, hm, ha, -⟩ := h
  have hf : (pre ++ sg :: post).find? (·.matches action path) = some sg :=
    find?_eq_some_iff_append.mpr ⟨hm, pre, post, rfl, by simpa using hpre⟩
  rintro ⟨x, hx, hxa⟩
  obtain rfl : sg = x := by simpa [hf] using hx
  exact ha hxa

variable {p : Principal}

theorem authorizeTenant_of_role (hr : roleAllows p action = .ok ()) (hadm : p.role ≠ .admin) :
    authorizeTenant closed p action path requestTenant = .ok () ↔
      authorizeScopes closed action path requestTenant p.scopeGlobs = .ok () := by
  unfold authorizeTenant Principal.scopeGlobs
  rw [hr]
  cases hc : p.compiledScopes with
  | some sgs => simp [hadm]
  | none =>
    cases he : compileScopeGlobs p.scopes with
    | ok sgs => simp [hadm, compilePrincipalScopes, he]
    | error e => simp [hadm, compilePrincipalScopes, he, authorizeScopes]

theorem authorizeTenant_of_role_error (hr : roleAllows p action ≠ .ok ()) :
    authorizeTenant closed p action path requestTenant ≠ .ok () := by
  unfold authorizeTenant
  cases h : roleAllows p action with
  | ok u => exact absurd h hr
  | error e => simp

theorem authorizeTenant_admin (h : p.role = .admin) :
    authorizeTenant closed p action path requestTenant = .ok () := by
  simp [authorizeTenant, roleAllows, h]

/-- A principal whose grant for this request is hidden by an earlier scope. -/
def Principal.Shadowed (closed : Bool) (p : Principal) (action : Action)
    (path requestTenant : Bytes) : Prop :=
  roleAllows p action = .ok () ∧ p.role ≠ .admin ∧
    Masked closed action path requestTenant p.scopeGlobs

/-- An allow is always a grant: the scope that decided is one. -/
theorem granted_of_authorizeTenant
    (h : authorizeTenant closed p action path requestTenant = .ok ()) :
    Granted closed p action path requestTenant := by
  by_cases hr : roleAllows p action = .ok ()
  · refine ⟨hr, ?_⟩
    by_cases hadm : p.role = .admin
    · exact .inl hadm
    · rw [authorizeTenant_of_role hr hadm, authorizeScopes_ok_iff] at h
      obtain ⟨sg, hf, ha⟩ := h
      exact .inr ⟨sg, mem_of_find?_eq_some hf, by simpa using find?_some hf, ha⟩
  · exact absurd h (authorizeTenant_of_role_error hr)

theorem authorizeTenant_of_granted (h : Granted closed p action path requestTenant)
    (hs : ¬ p.Shadowed closed action path requestTenant) :
    authorizeTenant closed p action path requestTenant = .ok () := by
  obtain ⟨hr, hadm | hex⟩ := h
  · exact authorizeTenant_admin hadm
  by_cases hadm : p.role = .admin
  · exact authorizeTenant_admin hadm
  · have hm : ¬ Masked closed action path requestTenant p.scopeGlobs :=
      fun hm => hs ⟨hr, hadm, hm⟩
    rw [authorizeTenant_of_role hr hadm, authorizeScopes_ok_iff, find_admissible_iff hm]
    exact hex

theorem Principal.Shadowed.granted_and_refused (h : p.Shadowed closed action path requestTenant) :
    Granted closed p action path requestTenant ∧
      authorizeTenant closed p action path requestTenant ≠ .ok () := by
  obtain ⟨hr, hadm, hm⟩ := h
  refine ⟨⟨hr, .inr ?_⟩, ?_⟩
  · obtain ⟨pre, sg, post, e, -, -, -, sg', hin, hm', ha'⟩ := hm
    exact ⟨sg', by simp [e, hin], hm', ha'⟩
  · rw [ne_eq, authorizeTenant_of_role hr hadm, authorizeScopes_ok_iff]
    exact hm.not_find

/-- **The decision and the existential** agree exactly where no grant is hidden by an earlier scope;
and where the grant of `q` is not hidden, an allow of `p` is one of `q` if `q` has the role of `p`
and every scope of `p`, in any order. -/
theorem authorizeTenant_granted_iff (closed : Bool) (p : Principal) (action : Action)
    (path requestTenant : Bytes) :
    ((authorizeTenant closed p action path requestTenant = .ok () ↔
        Granted closed p action path requestTenant) ↔
      ¬ p.Shadowed closed action path requestTenant) ∧
    ∀ q : Principal, q.role = p.role → p.scopeGlobs ⊆ q.scopeGlobs →
      ¬ q.Shadowed closed action path requestTenant →
      authorizeTenant closed p action path requestTenant = .ok () →
      authorizeTenant closed q action path requestTenant = .ok () := by
  refine ⟨⟨fun h hs => ?_, fun hs => ⟨granted_of_authorizeTenant, fun h => ?_⟩⟩, ?_⟩
  · obtain ⟨hg, hr⟩ := hs.granted_and_refused
    exact hr (h.mpr hg)
  · exact authorizeTenant_of_granted h hs
  intro q hrole hsub hq hp
  obtain ⟨hr, h⟩ := granted_of_authorizeTenant hp
  refine authorizeTenant_of_granted ⟨?_, ?_⟩ hq
  · rwa [roleAllows, hrole]
  · rcases h with hadm | ⟨sg, hin, hm, ha⟩
    · exact .inl (hrole.trans hadm)
    · exact .inr ⟨sg, hsub hin, hm, ha⟩

end Decision

def viewerOf (scopes : List Bytes) : Principal :=
  ⟨"svc:reader", .viewer, scopes, none⟩

/-- Adding the other tenant's scope behind the granting one hides nothing. -/
theorem authorizeTenant_granted_iff_acme :
    let other : Bytes := "crn:tenant/other/org/o1/site/site01"
    let acme : Bytes := "crn:tenant/acme/org/o1/site/site01"
    authorizeTenant false (viewerOf [acme, other]) .read "site01" "acme" = .ok () :=
  (authorizeTenant_granted_iff false (viewerOf ["crn:tenant/acme/org/o1/site/site01"]) .read
    "site01" "acme").2
    (viewerOf ["crn:tenant/acme/org/o1/site/site01", "crn:tenant/other/org/o1/site/site01"]) rfl
    (List.IsPrefix.subset ⟨_, rfl⟩) (fun h => h.granted_and_refused.2 (by decide)) (by decide)

/-- A read for tenant `acme` is refused although the second scope grants it; with the scopes in the
other order, or the second alone, it is allowed. -/
theorem authorizeTenant_hides_second_scope :
    let other : Bytes := "crn:tenant/other/org/o1/site/site01"
    let acme : Bytes := "crn:tenant/acme/org/o1/site/site01"
    let verdict := fun p => authorizeTenant false p .read "site01" "acme"
    (verdict (viewerOf [other, acme]) = .error .forbidden ∧
        Granted false (viewerOf [other, acme]) .read "site01" "acme") ∧
      verdict (viewerOf [acme, other]) = .ok () ∧ verdict (viewerOf [acme]) = .ok () := by
  decide

end Cios.Rbac
