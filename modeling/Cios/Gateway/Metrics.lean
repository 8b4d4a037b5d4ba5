import Cios.Http.Mux
import Cios.Support.Url
import Cios.Tenant.Insertion

/-!
# Gateway — metric queries, end to end

A metric query goes through four layers: the gateway's middleware and handler
(`pkg/apigw/server.go`, `reads.go`), its upstream client (`upstream.go`), the core's middleware and
proxy (`core/metrics.go`), and the query string in between.  `Deployment.vmReceives` is the PromQL
text that arrives at VictoriaMetrics, if any does.

For a tenant of tier label the comments of each layer have the text rewritten by
`InjectTenantLabel`, in another layer.  None calls it: what arrives is the client's own text
(`vmReceives_eq`, `label_query_rewritten_iff`).
-/

namespace Cios.Gateway
open Text
open Cios.Http
open Cios.Tenant (injectTenantLabel)

/-! ### Claims -/

structure TokenClaims where
  realm : Bytes
  scope : List Bytes
  tenant : Bytes
  isolationTier : Bytes

inductive Tier where
  | db
  | row
  | label
deriving DecidableEq, Repr

def parseTier (s : Bytes) : Option Tier :=
  if s = "db" then some .db else if s = "row" then some .row
  else if s = "label" then some .label else none

def tenantFromClaims (c : TokenClaims) : Option (Bytes × Tier) :=
  let id := trimSpace c.tenant
  if id = [] then none else (parseTier c.isolationTier).map fun t => (id, t)

/-! ### The gateway -/

structure ApiRequest where
  method : Method
  path : Bytes
  rawQuery : Bytes
  authorization : Bytes

structure PolicyInput where
  realm : Bytes
  action : Bytes
  method : Method
  path : Bytes
  mfa : Bool
  time : Int
  scope : List Bytes

/-- The token service and the policy engine, each optional (one that fails has denied), and whether
the core's base URL has a scheme and a host. -/
structure Config where
  sts : Option (Bytes → Option TokenClaims)
  pdp : Option (PolicyInput → Bool)
  baseURLOk : Bool

def bearerToken (h : Bytes) : Option Bytes :=
  match cutPrefix "Bearer " h with
  | some [] => none
  | some tok => some tok
  | none => none

def actionForMethod (m : Method) : Bytes := if m = .get then "read" else "write"

structure Identity where
  claims : TokenClaims
  rawToken : Bytes

variable (r : ApiRequest)

def policyInput (c : TokenClaims) (now : Int) : PolicyInput :=
  ⟨c.realm, actionForMethod r.method, r.method, r.path, false, now, c.scope⟩

/-- `AuthMiddleware`; without a token service and a policy engine it passes everything on. -/
def authMiddleware (g : Config) (r : ApiRequest) (now : Int) : Except Problem (Option Identity) :=
  if g.sts.isNone && g.pdp.isNone then .ok none
  else match bearerToken r.authorization with
    | none => .error ⟨401, "unauthorized", "missing bearer token",
        "the request did not carry an Authorization: Bearer header"⟩
    | some token =>
      match g.sts with
      | none => decide g.pdp ⟨[], [], [], []⟩ token
      | some verify =>
        match verify token with
        | none => .error ⟨401, "unauthorized", "token invalid",
            "the bearer token failed to verify"⟩
        | some claims => decide g.pdp claims token
where
  decide (pdp : Option (PolicyInput → Bool)) (claims : TokenClaims) (token : Bytes) :
      Except Problem (Option Identity) :=
    if pdp.all fun allow => allow (policyInput r claims now) then .ok (some ⟨claims, token⟩)
    else .error ⟨403, "forbidden", "policy denied", "the policy engine denied this request"⟩

structure Outgoing where
  path : Bytes
  rawQuery : Bytes
  authorization : Bytes
  tenantHeader : Bytes

def isCTL (c : UInt8) : Bool := c < 0x20 || c = 0x7F

def validHeaderValue (v : Bytes) : Bool := v.all fun c => !isCTL c || c = '\t'

/-- The query component of a raw query string: it ends where a fragment begins. -/
def queryComponent (raw : Bytes) : Bytes := (Url.cut '#' raw).1

/-- Whether the URL with this raw query string parses and its request line is well formed. -/
def sendable (raw : Bytes) : Bool :=
  (queryComponent raw).all (fun c => !isCTL c && c != ' ') &&
    (Url.unescape false (Url.cut '#' raw).2).isSome

def tenantMissing : Problem :=
  ⟨403, "forbidden", "tenant or isolation tier missing",
    "the verified token did not carry a usable tenant identity"⟩

def upstreamUnavailable : Problem :=
  ⟨502, "upstream-unavailable", "upstream unavailable", "core /v1/metrics/query is not reachable"⟩

/-- `GetV1AsTenant` up to the wire; the tier does not enter. -/
def getV1AsTenant (g : Config) (claims : TokenClaims) (rawToken path rawQuery : Bytes) :
    Except Problem Outgoing :=
  match tenantFromClaims claims with
  | none => .error tenantMissing
  | some (tenantID, _) =>
    let authorization : Bytes := if rawToken ≠ [] then lit "Bearer " ++ rawToken else []
    if g.baseURLOk && sendable rawQuery && validHeaderValue authorization &&
        validHeaderValue tenantID then
      .ok ⟨path, queryComponent rawQuery, authorization, tenantID⟩
    else .error upstreamUnavailable

def handleMetricsQuery (g : Config) (r : ApiRequest) (id : Option Identity) :
    Except Problem Outgoing :=
  if r.method ≠ .get then
    .error ⟨405, "bad-request", "method not allowed", "/api/metrics/query only supports GET"⟩
  else match id with
    | none => .error ⟨401, "unauthorized", "no verified identity",
        "the request did not carry a verified token"⟩
    | some ⟨claims, rawToken⟩ =>
      match tenantFromClaims claims with
      | none => .error tenantMissing
      | some _ =>
        let base : Bytes :=
          if r.path = "/api/metrics/query_range" then "/v1/metrics/query_range"
          else "/v1/metrics/query"
        getV1AsTenant g claims rawToken base r.rawQuery

/-! ### The core -/

/-- The core's middleware, if a verifier is configured. -/
structure Core where
  auth : AuthConfig
  authOn : Bool

structure VmRequest where
  path : Bytes
  rawQuery : Bytes

/-- The text the query endpoint evaluates. -/
def VmRequest.promql (vm : VmRequest) : Bytes := Url.get (Url.parseQuery vm.rawQuery) "query"

/-- The parameters that are passed on, in the order they are written in. -/
def queryWhitelist : List Bytes := ["end", "query", "start", "step", "time"]

def serveMetricsQuery (r : Request) : Except Problem VmRequest :=
  let upstream : Bytes :=
    if r.path = "/v1/metrics/query_range" then "/api/v1/query_range" else "/api/v1/query"
  let out := queryWhitelist.filterMap fun k =>
    if r.query.any (fun kv => kv.1 = k) then some (k, r.queryGet k) else none
  if Url.get out "query" = [] then .error ⟨400, "bad-request", "query is required", []⟩
  else .ok ⟨upstream, Url.encode out⟩

/-- The core's handler, for the two metric endpoints. -/
def Core.serve (k : Core) (r : Request) : Except Problem VmRequest :=
  match gateTenantHeader k.auth r with
  | some msg => .error (forbidden msg)
  | none =>
    match if k.authOn then authMW k.auth r else .ok ⟨none, none⟩ with
    | .error p => .error p
    | .ok _ =>
      match mux r.path with
      | some .metricsQuery | some .metricsQueryRange => serveMetricsQuery r
      | _ => .error ⟨404, "path-not-found", "API path not found", []⟩

/-! ### The composition -/

/-- A gateway in front of a core; `peer` is the gateway's certificate as the core sees it. -/
structure Deployment where
  gateway : Config
  core : Core
  peer : Bytes

def Deployment.coreRequest (d : Deployment) (o : Outgoing) : Request :=
  ⟨.get, o.path, Url.parseQuery o.rawQuery, o.authorization, o.tenantHeader, [], d.peer, .ok []⟩

/-- The PromQL text that arrives at VictoriaMetrics, when every hop is up. -/
def Deployment.vmReceives (d : Deployment) (r : ApiRequest) (now : Int) : Option Bytes :=
  if r.path = "/api/metrics/query" ∨ r.path = "/api/metrics/query_range" then
    match authMiddleware d.gateway r now with
    | .error _ => none
    | .ok id =>
      match handleMetricsQuery d.gateway r id with
      | .error _ => none
      | .ok o =>
        match d.core.serve (d.coreRequest o) with
        | .error _ => none
        | .ok vm => some vm.promql
  else none

def clientQuery : Bytes :=
  Url.get (Url.parseQuery (queryComponent r.rawQuery)) "query"

def upstreamPath : Bytes :=
  if r.path = "/api/metrics/query_range" then "/v1/metrics/query_range" else "/v1/metrics/query"

def Deployment.forwarded (d : Deployment) (r : ApiRequest) (token tenantID : Bytes) : Request :=
  d.coreRequest ⟨upstreamPath r, queryComponent r.rawQuery, lit "Bearer " ++ token, tenantID⟩

/-- The policy engine, the wire, the core's tenant header check and its middleware, where it is on,
let the request through. -/
structure Admitted (d : Deployment) (r : ApiRequest) (now : Int) (claims : TokenClaims)
    (token tenantID : Bytes) : Prop where
  policy : (d.gateway.pdp.all fun allow => allow (policyInput r claims now)) = true
  wire : (d.gateway.baseURLOk && sendable r.rawQuery && validHeaderValue (lit "Bearer " ++ token) &&
    validHeaderValue tenantID) = true
  header : gateTenantHeader d.core.auth (d.forwarded r token tenantID) = none
  auth : d.core.authOn = true → ∃ c, authMW d.core.auth (d.forwarded r token tenantID) = .ok c

/-! ### What arrives -/

theorem get_whitelisted (r : Request) :
    Url.get (queryWhitelist.filterMap fun k =>
      if r.query.any (fun kv => kv.1 = k) then some (k, r.queryGet k) else none) "query" =
      r.queryGet "query" := by
  rw [Url.get_filterMap]
  split_ifs with h
  · rfl
  have hnone : r.query.find? (fun kv => kv.1 = lit "query") = none := by
    rw [List.find?_eq_none]
    intro kv hkv he
    exact h ⟨by decide, List.any_eq_true.mpr ⟨kv, hkv, he⟩⟩
  rw [Request.queryGet, hnone]

theorem serveMetricsQuery_promql {r : Request} {m : Bytes} :
    (∃ vm, serveMetricsQuery r = .ok vm ∧ vm.promql = m) ↔
      r.queryGet "query" ≠ [] ∧ r.queryGet "query" = m := by
  rw [serveMetricsQuery, get_whitelisted]
  by_cases hq : r.queryGet "query" = []
  · simp [hq]
  rw [if_neg hq]
  have hvm : ∀ p, (VmRequest.mk p (Url.encode (queryWhitelist.filterMap fun k =>
      if r.query.any (fun kv => kv.1 = k) then some (k, r.queryGet k) else none))).promql =
        r.queryGet "query" := fun p => by
    rw [VmRequest.promql, Url.parseQuery_encode, get_whitelisted]
  constructor
  · rintro ⟨vm, h, rfl⟩
    cases h
    exact ⟨hq, (hvm _).symm⟩
  · rintro ⟨-, rfl⟩
    exact ⟨_, rfl, hvm _⟩

theorem mux_upstreamPath :
    mux (upstreamPath r) = some .metricsQuery ∨ mux (upstreamPath r) = some .metricsQueryRange := by
  unfold upstreamPath
  split_ifs
  · exact .inr (by decide +kernel)
  · exact .inl (by decide +kernel)

theorem core_serve_promql {k : Core} {r : Request} {m : Bytes}
    (hmux : mux r.path = some .metricsQuery ∨ mux r.path = some .metricsQueryRange) :
    (∃ vm, k.serve r = .ok vm ∧ vm.promql = m) ↔
      gateTenantHeader k.auth r = none ∧ (k.authOn = true → ∃ c, authMW k.auth r = .ok c) ∧
        r.queryGet "query" ≠ [] ∧ r.queryGet "query" = m := by
  rw [← serveMetricsQuery_promql, Core.serve]
  cases gateTenantHeader k.auth r with
  | some msg => simp
  | none =>
    have hroute : (match mux r.path with
        | some .metricsQuery | some .metricsQueryRange => serveMetricsQuery r
        | _ => .error ⟨404, "path-not-found", "API path not found", []⟩) =
        serveMetricsQuery r := by
      rcases hmux with h | h <;> rw [h]
    rw [hroute]
    cases k.authOn with
    | false => simp
    | true => cases authMW k.auth r <;> simp

section Label

variable {d : Deployment} {r : ApiRequest} {now : Int} {verify : Bytes → Option TokenClaims}
  {token tenantID m : Bytes} {claims : TokenClaims} {tier : Tier}

variable (hget : r.method = .get)
  (hpath : r.path = "/api/metrics/query" ∨ r.path = "/api/metrics/query_range")
  (hsts : d.gateway.sts = some verify) (hb : bearerToken r.authorization = some token)
  (hv : verify token = some claims)
include hget hpath hsts hb hv

/-- **What arrives** is the client's own text, if it is not empty and every gate lets it through. -/
theorem vmReceives_eq_some (ht : tenantFromClaims claims = some (tenantID, tier)) :
    d.vmReceives r now = some m ↔
      Admitted d r now claims token tenantID ∧ clientQuery r ≠ [] ∧ clientQuery r = m := by
  have htok : token ≠ [] := by
    rintro rfl
    unfold bearerToken at hb
    split at hb <;> simp_all
  have hauth : authMiddleware d.gateway r now =
      authMiddleware.decide r now d.gateway.pdp claims token := by
    simp [authMiddleware, hsts, hb, hv]
  rw [Deployment.vmReceives, if_pos hpath, hauth, authMiddleware.decide]
  by_cases hpol : (d.gateway.pdp.all fun allow => allow (policyInput r claims now)) = true
  swap
  · rw [if_neg hpol]
    exact ⟨nofun, fun h => absurd h.1.policy hpol⟩
  by_cases hwire : (d.gateway.baseURLOk && sendable r.rawQuery &&
      validHeaderValue (lit "Bearer " ++ token) && validHeaderValue tenantID) = true
  swap
  · have hup : handleMetricsQuery d.gateway r (some ⟨claims, token⟩) =
        .error upstreamUnavailable := by
      simp only [handleMetricsQuery, getV1AsTenant, hget, ht, htok, ne_eq, not_true_eq_false,
        not_false_eq_true, if_false, if_true, if_neg hwire]
    rw [if_pos hpol]
    dsimp only
    rw [hup]
    exact ⟨nofun, fun h => absurd h.1.wire hwire⟩
  have hup : handleMetricsQuery d.gateway r (some ⟨claims, token⟩) =
      .ok ⟨upstreamPath r, queryComponent r.rawQuery, lit "Bearer " ++ token, tenantID⟩ := by
    simp only [handleMetricsQuery, getV1AsTenant, hget, ht, htok, ne_eq, not_false_eq_true,
      if_true, if_pos hwire]
    rfl
  have hcore := core_serve_promql (k := d.core) (r := d.forwarded r token tenantID) (m := m)
    (mux_upstreamPath r)
  rw [if_pos hpol]
  dsimp only
  rw [hup]
  dsimp only
  have hsplit : Admitted d r now claims token tenantID ↔
      gateTenantHeader d.core.auth (d.forwarded r token tenantID) = none ∧
        (d.core.authOn = true → ∃ c, authMW d.core.auth (d.forwarded r token tenantID) = .ok c) :=
    ⟨fun h => ⟨h.header, h.auth⟩, fun h => ⟨hpol, hwire, h.1, h.2⟩⟩
  rw [hsplit, and_assoc]
  refine Iff.trans ?_ hcore
  rw [Deployment.forwarded]
  cases d.core.serve _ <;> simp

/-- **Label tier, end to end.**  A query of a tenant of tier label arrives rewritten, or not at all
where the rewriter refuses it, if and only if it is empty or some gate refuses it. -/
theorem label_query_rewritten_iff (ht : tenantFromClaims claims = some (tenantID, .label)) :
    ((∀ m, d.vmReceives r now = some m → injectTenantLabel (clientQuery r) tenantID = .ok m) ∧
      (∀ e, injectTenantLabel (clientQuery r) tenantID = .error e → d.vmReceives r now = none)) ↔
      clientQuery r = [] ∨ ¬ Admitted d r now claims token tenantID := by
  have harrives : ∀ m, d.vmReceives r now = some m ↔
      Admitted d r now claims token tenantID ∧ clientQuery r ≠ [] ∧ clientQuery r = m :=
    fun _ => vmReceives_eq_some hget hpath hsts hb hv ht
  constructor
  · rintro ⟨hrewritten, -⟩
    by_contra hno
    push Not at hno
    have hm := (harrives (clientQuery r)).mpr ⟨hno.2, hno.1, rfl⟩
    exact Tenant.injectTenantLabel_ne (hrewritten _ hm)
  · intro hno
    have hnone : d.vmReceives r now = none := by
      refine Option.eq_none_iff_forall_ne_some.mpr fun m hm => ?_
      obtain ⟨hadm, hq, -⟩ := (harrives m).mp hm
      exact hno.elim hq fun h => h hadm
    exact ⟨fun m hm => (by rw [hnone] at hm; cases hm), fun _ _ => hnone⟩

end Label

/-! ### An administrator of a label-tier tenant -/

def acmeClaims : TokenClaims := ⟨"ops", [], "acme", "label"⟩

def acmeDeployment : Deployment where
  gateway := ⟨some fun tok => if tok = "t1" then some acmeClaims else none, none, true⟩
  core := ⟨⟨fun tok => if tok = "t1" then some ⟨"alice", .admin, [], none⟩ else none, false, false,
    .none⟩, true⟩
  peer := "apigw"

def acmeQuery (raw : Bytes) : ApiRequest := ⟨.get, "/api/metrics/query", raw, "Bearer t1"⟩

/-- Without a query nothing has to be rewritten. -/
theorem label_query_rewritten_iff_empty :
    ((∀ m, acmeDeployment.vmReceives (acmeQuery "time=5") 0 = some m →
        injectTenantLabel (clientQuery (acmeQuery "time=5")) "acme" = .ok m) ∧
      (∀ e, injectTenantLabel (clientQuery (acmeQuery "time=5")) "acme" = .error e →
        acmeDeployment.vmReceives (acmeQuery "time=5") 0 = none)) ↔
      clientQuery (acmeQuery "time=5") = [] ∨
        ¬ Admitted acmeDeployment (acmeQuery "time=5") 0 acmeClaims "t1" "acme" :=
  label_query_rewritten_iff (r := acmeQuery "time=5") rfl (.inl rfl) rfl (by decide +kernel)
    (by simp [acmeClaims]) (by decide +kernel)

/-- The query `up` arrives as it is. -/
theorem label_query_arrives_bare :
    acmeDeployment.vmReceives (acmeQuery "query=up") 0 = some (lit "up") ∧
      injectTenantLabel (clientQuery (acmeQuery "query=up")) "acme" =
        .ok (lit "up\x7btenant=\"acme\"\x7d") ∧
      tenantFromClaims acmeClaims = some (lit "acme", .label) := by
  decide +kernel

end Cios.Gateway
