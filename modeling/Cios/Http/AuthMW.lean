import Cios.Http.Request

/-!
# HTTP — the authentication middleware

`authMW` (`core/authmw.go`) stands in front of the mux.  It lets the two probes through, asks
`mapRequest` which action on which path a request is, verifies the bearer token, and gates: a
collection endpoint by the role alone, every other one by the full decision on the path.

The full decision is `authorize`, which threads no tenant.  So a principal whose matching scopes all
belong to other tenants is let through with the header `t` attached (`authMW_red_line_iff`).
-/

namespace Cios.Http
open Text
open Cios.Rbac

/-! ### Mapping a request to an action and a path -/

/-- The whole tree, for a resource that is not under an asset path. -/
def everything : Bytes := "**"

/-- Control for `POST`, read for anything else. -/
def postWrites (m : Method) : Action := if m = .post then .controlWrite else .read

/-- `POST` on `/v1/tickets/{id}:transition` and its siblings: the id without the verb. -/
def ticketVerb (p : Bytes) : Option Bytes :=
  match cutSuffix ":transition" p with
  | some id => some id
  | none =>
    match cutSuffix ":note" p with
    | some id => some id
    | none => cutSuffix ":assign" p

/-- The action and the path of a request, `none` outside the API. -/
def mapRequest (r : Request) : Option (Action × Bytes) :=
  let u := r.path
  if u = "/v1/assets" then some (.read, everything)
  else if let some p := cutPrefix "/v1/assets/" u then
    match (if r.method = .post then cutSuffix ":lifecycle" p else none) with
    | some asset => some (.apply, asset)
    | none =>
      match r.method with
      | .put | .delete => some (.apply, p)
      | _ => some (.read, p)
  else if u = "/v1/alarms" then some (.read, everything)
  else if let some p := cutPrefix "/v1/alarms/" u then
    match cutSuffix ":ack" p with
    | some id => some (.controlWrite, id)
    | none => some (.read, p)
  else if u = "/v1/reports/ops" then some (.read, everything)
  else if u = "/v1/reports/reconcile" then some (.read, everything)
  else if u = "/v1/maintenance/upcoming" then some (.read, everything)
  else if u = "/v1/maintenance/windows" then some (postWrites r.method, everything)
  else if let some p := cutPrefix "/v1/maintenance/windows/" u then some (.controlWrite, p)
  else if u = "/v1/sla" then some (.read, everything)
  else if u = "/v1/usage" then some (.read, everything)
  else if u = "/v1/usage:export" then some (.read, everything)
  else if u = "/v1/usage:compute" then some (.apply, everything)
  else if u = "/v1/control/audit" then some (.read, everything)
  else if let some p := cutPrefix "/v1/control/" u then
    match cutSuffix ":approve" p with
    | some id => some (.controlWrite, id)
    | none => some (.read, p)
  else if u = "/v1/tickets" then some (postWrites r.method, everything)
  else if u = "/v1/pm/schedules" then some (postWrites r.method, everything)
  else if let some p := cutPrefix "/v1/pm/schedules/" u then some (.read, p)
  else if u = "/v1/inspections" then some (postWrites r.method, everything)
  else if let some p := cutPrefix "/v1/inspections/" u then
    match cutPrefix "/v1/inspections/form/" u with
    | some id => some (postWrites r.method, id)
    | none => some (.read, p)
  else if u = "/v1/cases" then some (.read, everything)
  else if u = "/v1/spares" then some (postWrites r.method, everything)
  else if let some p := cutPrefix "/v1/spares/" u then
    match cutSuffix ":adjust" p with
    | some _ => some (.controlWrite, everything)
    | none => some (.read, everything)
  else if u = "/v1/orgs" then some (postWrites r.method, everything)
  else if let some _ := cutPrefix "/v1/orgs/" u then some (.controlWrite, everything)
  else if u = "/v1/tenants" then some (postWrites r.method, everything)
  else if let some _ := cutPrefix "/v1/tenants/" u then some (.apply, everything)
  else if u = "/v1/site-orgs" then some (postWrites r.method, everything)
  else if u = "/v1/role-bindings" then
    some (if r.method = .post ∨ r.method = .delete then .controlWrite else .read, everything)
  else if u = "/v1/model-packs" ∨ (cutPrefix "/v1/model-packs/" u).isSome then
    some (if r.method = .get then .read else .controlWrite, everything)
  else if u = "/v1/site-layouts" ∨ (cutPrefix "/v1/site-layouts/" u).isSome then
    some (if r.method = .get then .read else .controlWrite, everything)
  else if let some _ := cutPrefix "/v1/runbooks/" u then some (.read, everything)
  else if let some p := cutPrefix "/v1/tickets/" u then
    match ticketVerb p with
    | some id => some (.controlWrite, id)
    | none =>
      match (if r.method = .get then cutSuffix ":history" p else none) with
      | some id => some (.read, id)
      | none => some (.read, p)
  else if u = "/v1/metrics/query" ∨ u = "/v1/metrics/query_range" then some (.read, everything)
  else if let some p := cutPrefix "/v1/points/" u then
    match cutSuffix ":set" p with
    | some point => some (.controlWrite, point)
    | none => some (.read, p)
  else if u = "/v1/health/scanners" then some (.read, everything)
  else none

/-- The endpoints gated by role alone; their handlers check scopes item by item. -/
def isListScopeEndpoint (r : Request) : Bool :=
  let u := r.path
  let get := decide (r.method = .get)
  let post := decide (r.method = .post)
  let delete := decide (r.method = .delete)
  let under := fun (s : Bytes) => s.isPrefixOf u
  let ends := fun (s : Bytes) => s.isSuffixOf u
  if u = "/v1/assets" ∨ u = "/v1/alarms" then get
  else if under "/v1/alarms/" then post && ends ":ack"
  else if u = "/v1/reports/ops" then get
  else if u = "/v1/reports/reconcile" then get
  else if u = "/v1/maintenance/upcoming" then get
  else if u = "/v1/maintenance/windows" then get || post
  else if under "/v1/maintenance/windows/" then delete
  else if u = "/v1/sla" then get
  else if u = "/v1/usage" then get
  else if u = "/v1/usage:export" then get
  else if u = "/v1/usage:compute" then post
  else if u = "/v1/control/audit" then get
  else if under "/v1/control/" && ends ":approve" then post
  else if u = "/v1/tickets" then get || post
  else if under "/v1/tickets/" then
    get || (post && (ends ":transition" || ends ":note" || ends ":assign"))
  else if u = "/v1/pm/schedules" then get || post
  else if under "/v1/pm/schedules/" then get
  else if u = "/v1/inspections" then get || post
  else if under "/v1/inspections/" then
    if under "/v1/inspections/form/" then get || post else get
  else if u = "/v1/cases" then get
  else if u = "/v1/spares" then get || post
  else if under "/v1/spares/" then get || (post && ends ":adjust")
  else if u = "/v1/tenants" then get || post
  else if under "/v1/tenants/" then post
  else if u = "/v1/orgs" then get || post
  else if under "/v1/orgs/" then true
  else if u = "/v1/site-orgs" then get || post
  else if u = "/v1/role-bindings" then get || post || delete
  else if u = "/v1/model-packs" ∨ under "/v1/model-packs/" then true
  else if u = "/v1/site-layouts" ∨ under "/v1/site-layouts/" then true
  else if under "/v1/runbooks/" then get
  else if under "/v1/assets/" then get && ends ":history"
  else if u = "/v1/health/scanners" then get
  else false

/-! ### The middleware -/

/-- The token verifier, the legacy window's flag, the gate on the tenant header, and Unicode's
tables. -/
structure AuthConfig where
  verify : Bytes → Option Principal
  closed : Bool
  requirePeer : Bool
  letters : Letters

/-- No letter of `bearer` has a case form outside ASCII. -/
def bearerFromHeader (hdr : Bytes) : Option Bytes :=
  if hdr.length ≤ 7 then none
  else if asciiLower (hdr.take 6) ≠ "bearer" then none
  else if hdr.drop 6 |>.head? |> (· ≠ some (' ' : UInt8)) then none
  else some (hdr.drop 7)

variable (cfg : AuthConfig)

def isAPIGW (component : Bytes) : Bool :=
  let c := cfg.letters.toLower (trimSpace component)
  c = "apigw" || c = "cios-apigw" || (lit "-apigw").isSuffixOf c

/-- Why the tenant header is refused, if it is. -/
def gateTenantHeader (r : Request) : Option Bytes :=
  if !cfg.requirePeer then none
  else if r.tenantHeader = [] then none
  else if isAPIGW cfg r.peer then none
  else if r.peer = [] then
    some "X-CIOS-Tenant requires verified mTLS peer (apigw); no client certificate on this connection"
  else some (lit "X-CIOS-Tenant rejected: peer component " ++ r.peer ++ lit " is not apigw")

/-- The gate of a mapped request. -/
def gate (r : Request) (p : Principal) (action : Action) (path : Bytes) :
    Except Forbidden Unit :=
  if isListScopeEndpoint r then roleAllows p action else authorize cfg.closed p action path

def unauthorized (detail : Bytes) : Problem := ⟨401, "unauthorized", "Unauthorized", detail⟩

def forbidden (detail : Bytes) : Problem := ⟨403, "forbidden", "Forbidden", detail⟩

def isProbe (u : Bytes) : Bool := u = "/v1/health" || u = "/v1/health/ready"

/-- `authMW.ServeHTTP`: a problem, or the context the request is passed on with. -/
def authMW (r : Request) : Except Problem Ctx :=
  if isProbe r.path then .ok ⟨none, none⟩
  else match mapRequest r with
    | none => .ok ⟨none, none⟩
    | some (action, path) =>
      match bearerFromHeader r.authorization with
      | none => .error (unauthorized "missing or malformed Bearer token")
      | some raw =>
        match cfg.verify raw with
        | none => .error (unauthorized "token rejected")
        | some p =>
          match gate cfg r p action path with
          | .error _ =>
            .error (forbidden "principal not authorized for this action and path")
          | .ok () =>
            if r.tenantHeader = [] then .ok ⟨some p, none⟩
            else match gateTenantHeader cfg r with
              | some msg => .error (forbidden msg)
              | none => .ok ⟨some p, some r.tenantHeader⟩

/-! ### What is passed on -/

/-- What a passed request has been through. -/
structure Passed (cfg : AuthConfig) (r : Request) (action : Action) (path : Bytes) (p : Principal) :
    Prop where
  bearer : ∃ raw, bearerFromHeader r.authorization = some raw ∧ cfg.verify raw = some p
  gated : gate cfg r p action path = .ok ()

variable {cfg : AuthConfig} {r : Request} {action : Action} {path : Bytes} {p : Principal}

/-- **Every mapped request is mediated**: it is passed on only with the principal its own bearer
token verified to, and past the gate. -/
theorem authMW_mapped {c : Ctx} (hprobe : isProbe r.path = false)
    (hm : mapRequest r = some (action, path)) (h : authMW cfg r = .ok c) :
    ∃ p, c.principal = some p ∧ Passed cfg r action path p := by
  simp only [authMW, hprobe, hm, Bool.false_eq_true, if_false] at h
  split at h
  · cases h
  rename_i raw hb
  split at h
  · cases h
  rename_i p hv
  split at h
  · cases h
  rename_i hg
  have hp : Passed cfg r action path p := ⟨⟨raw, hb, hv⟩, hg⟩
  split at h
  · cases h
    exact ⟨p, rfl, hp⟩
  · split at h
    · cases h
    · cases h
      exact ⟨p, rfl, hp⟩

theorem Passed.read_of_viewer (h : Passed cfg r action path p) (hv : p.role = .viewer) :
    action = .read := by
  have hrole : roleAllows p action = .ok () := by
    have hg := h.gated
    unfold gate at hg
    split at hg
    · exact hg
    · exact (granted_of_authorizeTenant hg).1
  by_contra hne
  simp [roleAllows, hv, hne] at hrole

theorem authMW_tenant_ok_iff {raw : Bytes} (hprobe : isProbe r.path = false)
    (hm : mapRequest r = some (action, path)) (hb : bearerFromHeader r.authorization = some raw)
    (hv : cfg.verify raw = some p) (ht : r.tenantHeader ≠ [])
    (hacc : gateTenantHeader cfg r = none) :
    authMW cfg r = .ok ⟨some p, some r.tenantHeader⟩ ↔ gate cfg r p action path = .ok () := by
  simp only [authMW, hprobe, hm, hb, hv, ht, hacc]
  cases gate cfg r p action path <;> simp

theorem authMW_ctx {c : Ctx} {raw : Bytes} (hprobe : isProbe r.path = false)
    (hm : mapRequest r = some (action, path)) (hb : bearerFromHeader r.authorization = some raw)
    (hv : cfg.verify raw = some p) (h : authMW cfg r = .ok c) : gate cfg r p action path = .ok () ∧
      c = ⟨some p, if r.tenantHeader = [] then none else some r.tenantHeader⟩ := by
  simp only [authMW, hprobe, hm, hb, hv] at h
  cases hg : gate cfg r p action path with
  | error e =>
    rw [hg] at h
    cases h
  | ok u =>
    rw [hg] at h
    refine ⟨rfl, ?_⟩
    by_cases ht : r.tenantHeader = []
    · simp only [if_pos ht] at h ⊢
      exact (Except.ok.inj h).symm
    simp only [if_neg ht] at h ⊢
    cases hgate : gateTenantHeader cfg r with
    | some msg =>
      rw [hgate] at h
      cases h
    | none =>
      rw [hgate] at h
      exact (Except.ok.inj h).symm

/-! ### The tenant red line on the request path -/

section RedLine

variable {closed : Bool} {action : Action} {path t : Bytes}

/-- A scope of the request's own tenant, or one not yet bound to a tenant. -/
def OwnScope (t : Bytes) (sg : ScopeGlob) : Prop := sg.origin = .legacy ∨ sg.tid = t

instance (sg : ScopeGlob) : Decidable (OwnScope t sg) := inferInstanceAs (Decidable (_ ∨ _))

/-- The role admits the action, some scope matches, and all that do are other tenants'. -/
def OnlyForeign (p : Principal) (action : Action) (path t : Bytes) : Prop :=
  roleAllows p action = .ok () ∧ (∃ sg ∈ p.scopeGlobs, sg.matches action path = true) ∧
    ∀ sg ∈ p.scopeGlobs, sg.matches action path = true → ¬ OwnScope t sg

theorem admissible_of_not_own {sg : ScopeGlob} (h : ¬ OwnScope t sg) : sg.Admissible closed [] := by
  refine ⟨fun hc => hc.2.1 rfl, fun hl => h (.inl hl.1)⟩

/-- The untenanted decision lets a principal of foreign scopes alone through. -/
theorem authorize_of_onlyForeign {p : Principal} (h : OnlyForeign p action path t) :
    authorize closed p action path = .ok () := by
  obtain ⟨hr, ⟨sg, hin, hm⟩, hall⟩ := h
  have hadm : sg.Admissible closed [] := admissible_of_not_own (hall sg hin hm)
  refine authorizeTenant_of_granted ⟨hr, .inr ⟨sg, hin, hm, hadm⟩⟩ ?_
  rintro ⟨-, -, pre, x, post, e, -, hxm, hxa, -⟩
  exact hxa (admissible_of_not_own (hall x (by simp [e]) hxm))

/-- **The red line on the request path.**  A non-admin's request that is fully checked and carries
an accepted tenant header `t` is passed on only with a matching scope of `t`'s own, exactly unless
the role admits the action and the matching scopes are all other tenants'. -/
theorem authMW_red_line_iff (cfg : AuthConfig) (r : Request) (action : Action) (path raw : Bytes)
    (p : Principal) (hprobe : isProbe r.path = false) (hm : mapRequest r = some (action, path))
    (hfull : isListScopeEndpoint r = false) (hb : bearerFromHeader r.authorization = some raw)
    (hv : cfg.verify raw = some p) (hadm : p.role ≠ .admin) (ht : r.tenantHeader ≠ [])
    (hacc : gateTenantHeader cfg r = none) :
    ((∃ c, authMW cfg r = .ok c) →
        ∃ sg ∈ p.scopeGlobs, sg.matches action path = true ∧ OwnScope r.tenantHeader sg) ↔
      ¬ OnlyForeign p action path r.tenantHeader := by
  have hpass : (∃ c, authMW cfg r = .ok c) ↔ authorize cfg.closed p action path = .ok () := by
    have hg : gate cfg r p action path = authorize cfg.closed p action path := by
      rw [gate, hfull, if_neg Bool.false_ne_true]
    rw [← hg]
    exact ⟨fun ⟨c, hc⟩ => (authMW_ctx hprobe hm hb hv hc).1,
      fun h => ⟨_, (authMW_tenant_ok_iff hprobe hm hb hv ht hacc).mpr h⟩⟩
  rw [hpass]
  constructor
  · rintro h hf
    obtain ⟨sg, hin, hsm, hown⟩ := h (authorize_of_onlyForeign hf)
    exact hf.2.2 sg hin hsm hown
  intro hf hok
  obtain ⟨hr, h⟩ := granted_of_authorizeTenant hok
  obtain ⟨sg, hin, hsm, -⟩ := h.resolve_left hadm
  by_contra hno
  push Not at hno
  exact hf ⟨hr, ⟨sg, hin, hsm⟩, hno⟩

end RedLine

def otherViewer : AuthConfig where
  verify raw :=
    if raw = "t0" then some (viewerOf ["crn:tenant/other/org/o1/site/site01"]) else none
  closed := false
  requirePeer := false
  letters := .none

def readForAcme : Request :=
  ⟨.get, "/v1/assets/site01", [], "Bearer t0", "acme", [], [], .ok []⟩

theorem authMW_red_line_iff_readForAcme :
    ((∃ c, authMW otherViewer readForAcme = .ok c) →
        ∃ sg ∈ (viewerOf ["crn:tenant/other/org/o1/site/site01"]).scopeGlobs,
          sg.matches .read "site01" = true ∧ OwnScope readForAcme.tenantHeader sg) ↔
      ¬ OnlyForeign (viewerOf ["crn:tenant/other/org/o1/site/site01"]) .read "site01"
        readForAcme.tenantHeader :=
  authMW_red_line_iff otherViewer readForAcme .read "site01" "t0" _ (by decide) (by decide)
    (by decide) (by decide) rfl (by decide) (by decide) (by decide)

/-- A viewer of another tenant is passed on with tenant `acme` attached, without a scope of
`acme`'s. -/
theorem authMW_passes_foreign_viewer :
    (∃ c, authMW otherViewer readForAcme = .ok c ∧ c.tenant = some (lit "acme")) ∧
      ¬ ∃ sg ∈ (viewerOf ["crn:tenant/other/org/o1/site/site01"]).scopeGlobs,
        sg.matches .read "site01" = true ∧ OwnScope "acme" sg :=
  ⟨⟨_, rfl, rfl⟩, by decide⟩

end Cios.Http
