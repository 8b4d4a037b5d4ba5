import Cios.Gateway.Metrics
import Cios.Policy.Context
import Cios.Sts.Token
import Cios.Support.Effect

/-!
# API gateway — requests

How the API gateway serves a request (`pkg/apigw/server.go`, `audit.go`, `sse.go`): the mux, the
access log, the middleware that verifies the token and asks the policy engine, the dispatch by path,
and the handler of a site's event stream.  A handler is a program over what lies outside of it.

The access log's `ResponseWriter` adds no method, so what it wraps can flush and it cannot.  What a
handler closes over is taken when the route is registered (`Registered.api`).
-/

namespace Cios.Apigw
open Text Effect List
open Cios.Http (Method Problem)
open Cios.Gateway (bearerToken actionForMethod)
open Cios.Sts (TokenClaims)

structure Request where
  method : Method
  path : Bytes
  authorization : Bytes
  requestID : Bytes
deriving DecidableEq, Repr

/-- What `WithClaims` and `WithRawToken` put into the context of a request. -/
structure Identity where
  claims : TokenClaims
  rawToken : Bytes

/-! ### Writers -/

/-- A `ResponseWriter`: the connection's own, with or without `Flush`, or the access log's. -/
inductive Writer where
  | conn (canFlush : Bool)
  | statusCapturing (inner : Writer)

/-- `w.(http.Flusher)`.  The wrapper has the methods of the embedded interface, without `Flush`. -/
def Writer.flusher : Writer → Bool
  | .conn canFlush => canFlush
  | .statusCapturing _ => false

/-! ### What lies outside -/

structure TelemetryEvent where
  id : Bytes
  type : Bytes
  data : Bytes
deriving DecidableEq, Repr

/-- What `select` finds ready in the loop of a stream. -/
inductive Selected where
  | done
  | event (ev : TelemetryEvent)
  | closed
  | keepAlive
deriving DecidableEq, Repr

/-- What is written at once; the JSON of a problem is left to the encoder. -/
inductive Chunk where
  | raw (b : Bytes)
  | problem (p : Problem) (path : Bytes)
deriving DecidableEq, Repr

/-- The record of the access log, but for the duration. -/
structure AccessRecord where
  method : Method
  path : Bytes
  status : Nat
  requestID : Bytes
deriving DecidableEq, Repr

inductive ApiRoute where
  | sites
  | siteOrgs
  | roleBindings
  | modelPacks
  | siteLayouts
  | tenants
  | orgs
  | assets
  | alarms
  | alarmAck
  | metricsQuery
  | topology
  | tickets
  | ticketByID
  | capacity
  | capacityMetrics
  | capacityForecast
  | usage
  | maintenanceUpcoming
  | pmSchedules
  | pmScheduleByID
  | spares
  | spareByID
  | inspections
  | inspectionByID
  | runbookByKey
  | cases
  | reportOps
  | reportReconcile
  | customerStatus
  | customerSLA
  | customerUsage
  | siteStream
  | omniverse
deriving DecidableEq, Repr

/-- The calls of a handler, over policy engines `P`, login handlers `H` and telemetry sources `T`.
Handlers that are not modelled are one call. -/
inductive Op (P H T : Type) where
  | verify (sts : Sts.Service) (token : Bytes)
  | now
  | decision (pdp : P) (input : Policy.Input)
  | subscribe (source : T) (site : Bytes) (claims : TokenClaims)
  | select
  | setHeader (name value : Bytes)
  | writeHeader (status : Nat)
  | write (chunk : Chunk)
  | flush
  | logAttrs (record : AccessRecord)
  | handle (route : ApiRoute) (identity : Option Identity)
  | handleHealthz
  | authHandler (handler : H)
  | handleToken
  | handleClientCredentialsToken
  | notFound

/-- A decision is `none` when the engine failed; a write or a subscription tells its success. -/
def Op.Ret {P H T : Type} : Op P H T → Type
  | .verify _ _ => Option TokenClaims
  | .now => Int
  | .decision _ _ => Option Bool
  | .subscribe _ _ _ => Bool
  | .select => Selected
  | .write _ => Bool
  | _ => Unit

variable {P H T : Type}

/-- Whether a handler has returned, or its loop is still turning. -/
inductive Progress where
  | returned
  | running
deriving DecidableEq, Repr

abbrev Served (P H T : Type) : Type → Type := Prog (Op P H T) Op.Ret

def writeProblem (p : Problem) (r : Request) : Served P H T Progress :=
  .call (.setHeader "Content-Type" "application/problem+json") fun _ =>
    .call (.writeHeader p.status) fun _ =>
      .call (.write (.problem p r.path)) fun _ => .done .returned

/-! ### Event streams -/

/-- `^[a-z]{2,8}[0-9]{2}$` -/
def reSite (s : Bytes) : Bool :=
  4 ≤ s.length && s.length ≤ 10 &&
    ((s.take (s.length - 2)).all isLower && (s.drop (s.length - 2)).all isDigit)

def parseSiteFromStreamPath (p : Bytes) : Option Bytes :=
  match cutPrefix "/api/sites/" p with
  | none => none
  | some rest =>
    match rest.span (· != ('/' : UInt8)) with
    | (site, _ :: tail) => if site ≠ [] && tail = "stream" then some site else none
    | (_, []) => none

def normaliseNewlines : Bytes → Bytes
  | [] => []
  | [b] => if b = '\r' then ['\n'] else [b]
  | b :: c :: rest =>
    if b = '\r' then
      if c = '\n' then '\n' :: normaliseNewlines rest else '\n' :: normaliseNewlines (c :: rest)
    else b :: normaliseNewlines (c :: rest)

def splitDataLines (payload : Bytes) : List Bytes :=
  if payload = [] then [] else split '\n' (normaliseNewlines payload)

/-- The writes of `writeSSEEvent`, in order. -/
def sseWrites (ev : TelemetryEvent) : List Bytes :=
  (if ev.id ≠ [] then [lit "id: ", ev.id, lit "\n"] else []) ++
    (if ev.type ≠ [] then [lit "event: ", ev.type, lit "\n"] else []) ++
    (if ev.data = [] then [lit "data: \n"]
      else (splitDataLines ev.data).flatMap fun line => [lit "data: ", line, lit "\n"]) ++
    [lit "\n"]

def writeAll : List Bytes → Served P H T Unit
  | [] => .done ()
  | b :: rest => .call (.write (.raw b)) fun _ => writeAll rest

def writeSSEEvent (ev : TelemetryEvent) : Served P H T Unit := writeAll (sseWrites ev)

def keepAliveComment : Bytes := ":keep-alive\n\n"

/-- The loop of a stream for at most so many turns. -/
def streamLoop : Nat → Served P H T Progress
  | 0 => .done .running
  | turns + 1 => .call .select fun
      | .done => .done .returned
      | .closed => .done .returned
      | .event ev => writeSSEEvent ev >>= fun _ => .call .flush fun _ => streamLoop turns
      | .keepAlive => .call (.write (.raw keepAliveComment)) fun (ok : Bool) =>
        if ok then .call .flush fun _ => streamLoop turns else .done .returned

/-- The head of a stream, then its loop. -/
def openStream (turns : Nat) : Served P H T Progress :=
  .call (.setHeader "Content-Type" "text/event-stream; charset=utf-8") fun _ =>
    .call (.setHeader "Cache-Control" "no-cache") fun _ =>
      .call (.setHeader "Connection" "keep-alive") fun _ =>
        .call (.setHeader "X-Accel-Buffering" "no") fun _ =>
          .call (.writeHeader 200) fun _ => .call .flush fun _ => streamLoop turns

def streamingUnsupported : Problem :=
  ⟨500, "internal", "streaming unsupported", "the ResponseWriter does not support http.Flusher"⟩

def handleSiteStream (source : Option T) (turns : Nat) (identity : Option Identity) (w : Writer)
    (r : Request) : Served P H T Progress :=
  if r.method ≠ .get then .call (.setHeader "Allow" "GET") fun _ =>
    writeProblem ⟨405, "bad-request", "method not allowed",
      "/api/sites/\x7bsite\x7d/stream only supports GET"⟩ r
  else match identity with
    | none => writeProblem ⟨401, "unauthorized", "no verified identity",
        "the request did not carry a verified token"⟩ r
    | some i =>
      match parseSiteFromStreamPath r.path with
      | none => writeProblem ⟨404, "path-not-found", "stream path malformed",
          "expected /api/sites/\x7bsite\x7d/stream"⟩ r
      | some site =>
        if !reSite site then writeProblem ⟨400, "bad-request", "invalid site",
          "site must match ^[a-z]\x7b2,8\x7d[0-9]\x7b2\x7d$"⟩ r
        else if !w.flusher then writeProblem streamingUnsupported r
        else match source with
          | none => writeProblem ⟨500, "internal", "telemetry source not configured",
              "no TelemetrySource is wired into the server"⟩ r
          | some src => .call (.subscribe src site i.claims) fun (ok : Bool) =>
            if ok then openStream turns
            else writeProblem ⟨502, "upstream-unavailable", "upstream unavailable",
              "telemetry source could not be opened"⟩ r

/-! ### Dispatch -/

def underOrAt (p path : Bytes) : Bool := path = p || (p ++ lit "/").isPrefixOf path

def below (p path : Bytes) : Bool := (p ++ lit "/").isPrefixOf path

def ApiRoute.admits : ApiRoute → Bytes → Bool
  | .sites, p => p = "/api/sites"
  | .siteOrgs, p => p = "/api/site-orgs"
  | .roleBindings, p => p = "/api/role-bindings"
  | .modelPacks, p => underOrAt "/api/model-packs" p
  | .siteLayouts, p => underOrAt "/api/site-layouts" p
  | .tenants, p => underOrAt "/api/tenants" p
  | .orgs, p => underOrAt "/api/orgs" p
  | .assets, p => p = "/api/assets"
  | .alarms, p => p = "/api/alarms"
  | .alarmAck, p => below "/api/alarms" p
  | .metricsQuery, p => p = "/api/metrics/query" || p = "/api/metrics/query_range"
  | .topology, p => p = "/api/topology"
  | .tickets, p => p = "/api/tickets"
  | .ticketByID, p => below "/api/tickets" p
  | .capacity, p => p = "/api/capacity"
  | .capacityMetrics, p => p = "/api/capacity/metrics"
  | .capacityForecast, p => p = "/api/capacity/forecast"
  | .usage, p => p = "/api/usage"
  | .maintenanceUpcoming, p => p = "/api/maintenance/upcoming"
  | .pmSchedules, p => p = "/api/pm/schedules"
  | .pmScheduleByID, p => below "/api/pm/schedules" p
  | .spares, p => p = "/api/spares"
  | .spareByID, p => below "/api/spares" p
  | .inspections, p => p = "/api/inspections"
  | .inspectionByID, p => below "/api/inspections" p
  | .runbookByKey, p => below "/api/runbooks" p
  | .cases, p => p = "/api/cases"
  | .reportOps, p => p = "/api/reports/ops"
  | .reportReconcile, p => p = "/api/reports/reconcile"
  | .customerStatus, p => p = "/api/customer/status"
  | .customerSLA, p => p = "/api/customer/sla"
  | .customerUsage, p => p = "/api/customer/usage"
  | .siteStream, p => (parseSiteFromStreamPath p).isSome
  | .omniverse, p => underOrAt "/api/omniverse" p

def apiRoutes : List ApiRoute :=
  [.sites, .siteOrgs, .roleBindings, .modelPacks, .siteLayouts, .tenants, .orgs, .assets, .alarms,
    .alarmAck, .metricsQuery, .topology, .tickets, .ticketByID, .capacity, .capacityMetrics,
    .capacityForecast, .usage, .maintenanceUpcoming, .pmSchedules, .pmScheduleByID, .spares,
    .spareByID, .inspections, .inspectionByID, .runbookByKey, .cases, .reportOps, .reportReconcile,
    .customerStatus, .customerSLA, .customerUsage, .siteStream, .omniverse]

def apiHandler (source : Option T) (turns : Nat) (identity : Option Identity) (w : Writer)
    (r : Request) : Served P H T Progress :=
  match apiRoutes.find? (·.admits r.path) with
  | some .siteStream => handleSiteStream source turns identity w r
  | some route => .call (.handle route identity) fun _ => .done .returned
  | none => writeProblem ⟨404, "path-not-found", "API path not found",
      lit "no handler registered for " ++ r.path⟩ r

/-! ### Middleware -/

/-- What `AuthMiddleware` takes from the package's holder when it wraps a handler. -/
structure AuthDeps (P : Type) where
  sts : Option Sts.Service
  pdp : Option P

/-- The input the middleware asks about, without the organisation and the sites. -/
def policyInput (r : Request) (c : TokenClaims) (now : Int) : Policy.Input :=
  ⟨c.realm, actionForMethod r.method, r.method, r.path, false, now, c.scope, [], [], []⟩

def zeroClaims : TokenClaims := ⟨[], [], [], [], [], 0, [], [], [], []⟩

/-- The middleware behind the token: the claims go into the context, and the engine is asked. -/
def authorised (pdp : Option P) (next : Option Identity → Writer → Request → Served P H T Progress)
    (claims : TokenClaims) (token : Bytes) (w : Writer) (r : Request) : Served P H T Progress :=
  .call .now fun now =>
    match pdp with
    | none => next (some ⟨claims, token⟩) w r
    | some p => .call (.decision p (policyInput r claims now)) fun (verdict : Option Bool) =>
      if verdict = some true then next (some ⟨claims, token⟩) w r
      else writeProblem ⟨403, "forbidden", "policy denied",
        "the policy engine denied this request"⟩ r

/-- `AuthMiddleware`; without a token service and a policy engine it passes everything on. -/
def authMiddleware (deps : AuthDeps P)
    (next : Option Identity → Writer → Request → Served P H T Progress)
    (w : Writer) (r : Request) : Served P H T Progress :=
  if deps.sts.isNone && deps.pdp.isNone then next none w r
  else match bearerToken r.authorization with
    | none => writeProblem ⟨401, "unauthorized", "missing bearer token",
        "the request did not carry an Authorization: Bearer header"⟩ r
    | some token =>
      match deps.sts with
      | none => authorised deps.pdp next zeroClaims token w r
      | some sts => .call (.verify sts token) fun
          | none => writeProblem ⟨401, "unauthorized", "token invalid",
              "the bearer token failed to verify"⟩ r
          | some claims => authorised deps.pdp next claims token w r

/-- The status the wrapper of the access log has seen: that of the first `WriteHeader`. -/
def capture : Served P H T Progress → Nat → Bool → Served P H T (Progress × Nat)
  | .done a, status, _ => .done (a, status)
  | .call (.writeHeader code) k, status, wrote =>
    .call (.writeHeader code) fun u => capture (k u) (if wrote then status else code) true
  | .call op k, status, wrote => .call op fun a => capture (k a) status wrote

def accessLogMiddleware (next : Writer → Request → Served P H T Progress) (w : Writer)
    (r : Request) : Served P H T Progress :=
  capture (next (.statusCapturing w) r) 200 false >>= fun
    | (.running, _) => .done .running
    | (.returned, status) =>
      .call (.logAttrs ⟨r.method, r.path, status, r.requestID⟩) fun _ => .done .returned

/-! ### The mux -/

/-- A handler on the mux, with what it closes over. -/
inductive Registered (P H : Type) where
  | healthz
  | api (deps : AuthDeps P)
  | auth (handler : H)
  | authWithToken (handler : H)
  | clientCredentials

structure Server (P H T : Type) where
  sts : Option Sts.Service
  pdp : Option P
  authHandler : Option H
  sessionKey : Bytes
  hasSessionDecoder : Bool
  hasServiceAccounts : Bool
  source : Option T
  mux : List (Bytes × Registered P H)

def patternAdmits (pattern path : Bytes) : Bool :=
  if pattern.getLast? = some ('/' : UInt8) then pattern.isPrefixOf path else pattern = path

/-- The handler of the longest pattern that admits the path. -/
def Server.handlerFor (s : Server P H T) (path : Bytes) : Option (Registered P H) :=
  ((s.mux.filter fun e => patternAdmits e.1 path).argmax fun e => e.1.length).map (·.2)

def tokenAction (p : Bytes) : Bytes :=
  let rest := (cutPrefix "/auth/" p).getD p
  (rest.dropWhile (· != ('/' : UInt8))).drop 1

/-- `Server.Handler()` on a request. -/
def Server.serveHTTP (s : Server P H T) (turns : Nat) (w : Writer) (r : Request) :
    Served P H T Progress :=
  match s.handlerFor r.path with
  | none => .call .notFound fun _ => .done .returned
  | some .healthz => .call .handleHealthz fun _ => .done .returned
  | some (.api deps) =>
    accessLogMiddleware (authMiddleware deps (apiHandler s.source turns)) w r
  | some (.auth h) => .call (.authHandler h) fun _ => .done .returned
  | some (.authWithToken h) =>
    if tokenAction r.path = "token" then .call .handleToken fun _ => .done .returned
    else .call (.authHandler h) fun _ => .done .returned
  | some .clientCredentials => .call .handleClientCredentialsToken fun _ => .done .returned

def bindAuthDeps (sts : Option Sts.Service) (pdp : Option P) : Option (AuthDeps P) :=
  some ⟨sts, pdp⟩

def currentAuthDeps (authHolder : Option (AuthDeps P)) : AuthDeps P :=
  authHolder.getD ⟨none, none⟩

/-- `Routes`.  The holder is filled and read here, with what the server has at this moment. -/
def Server.routes (s : Server P H T) : Server P H T :=
  { s with mux := s.mux ++ ownRoutes ++ authRoutes ++ tokenRoute }
where
  ownRoutes : List (Bytes × Registered P H) :=
    [("/healthz", .healthz), ("/api/", .api (currentAuthDeps (bindAuthDeps s.sts s.pdp)))]
  authRoutes : List (Bytes × Registered P H) :=
    match s.authHandler with
    | some h => [("/auth/", if s.sts.isSome then .authWithToken h else .auth h)]
    | none => []
  tokenRoute : List (Bytes × Registered P H) :=
    if s.sts.isSome && s.hasServiceAccounts then [("/auth/token", .clientCredentials)] else []

/-! ### The verdict of the middleware -/

/-- What the components answer for the time of a request. -/
structure World (P T : Type) where
  verify : Sts.Service → Bytes → Option TokenClaims
  decide : P → Policy.Input → Option Bool
  subscribe : T → Bytes → TokenClaims → Bool

def metricClaims (c : TokenClaims) : Gateway.TokenClaims :=
  ⟨c.realm, c.scope, c.tenant, c.isolationTier⟩

/-! ### Where a request goes -/

variable {p q rest : Bytes}

theorem not_isPrefixOf (h₁ : p.isPrefixOf q = false) (h₂ : q.isPrefixOf p = false) :
    p.isPrefixOf (q ++ rest) = false := by
  rw [Bool.eq_false_iff, ne_eq, isPrefixOf_iff_prefix] at *
  intro hp
  rcases prefix_or_prefix_of_prefix hp (prefix_append q rest) with h | h
  · exact h₁ h
  · exact h₂ h

theorem append_ne (h : q.isPrefixOf p = false) : q ++ rest ≠ p := by
  rintro rfl
  rw [Bool.eq_false_iff, ne_eq, isPrefixOf_iff_prefix] at h
  exact h (prefix_append q rest)

theorem patternAdmits_eq_false (h₁ : p.isPrefixOf q = false) (h₂ : q.isPrefixOf p = false) :
    patternAdmits p (q ++ rest) = false := by
  unfold patternAdmits
  split
  · exact not_isPrefixOf h₁ h₂
  · exact decide_eq_false (append_ne h₂).symm

theorem patternAdmits_subtree {p rest : Bytes} (h : p.getLast? = some ('/' : UInt8)) :
    patternAdmits p (p ++ rest) = true := by
  rw [patternAdmits, if_pos h, isPrefixOf_iff_prefix]
  exact prefix_append p rest

/-- A request below `/api/` is served with what the server had at registration. -/
theorem handlerFor_api {s : Server P H T} (hmux : s.mux = []) (rest : Bytes) :
    s.routes.handlerFor (lit "/api/" ++ rest) = some (.api ⟨s.sts, s.pdp⟩) := by
  have hhealthz : patternAdmits (lit "/healthz") (lit "/api/" ++ rest) = false :=
    patternAdmits_eq_false (by decide) (by decide)
  have hauth : patternAdmits (lit "/auth/") (lit "/api/" ++ rest) = false :=
    patternAdmits_eq_false (by decide) (by decide)
  have htoken : patternAdmits (lit "/auth/token") (lit "/api/" ++ rest) = false :=
    patternAdmits_eq_false (by decide) (by decide)
  have hapi : patternAdmits (lit "/api/") (lit "/api/" ++ rest) = true :=
    patternAdmits_subtree (by decide)
  have hauths : (Server.routes.authRoutes s).filter
      (fun e => patternAdmits e.1 (lit "/api/" ++ rest)) = [] := by
    unfold Server.routes.authRoutes
    split <;> simp [hauth]
  have htokens : (Server.routes.tokenRoute s).filter
      (fun e => patternAdmits e.1 (lit "/api/" ++ rest)) = [] := by
    unfold Server.routes.tokenRoute
    split <;> simp [htoken]
  have hown : (Server.routes.ownRoutes s).filter
      (fun e => patternAdmits e.1 (lit "/api/" ++ rest)) =
      [(lit "/api/", .api ⟨s.sts, s.pdp⟩)] := by
    simp [Server.routes.ownRoutes, hhealthz, hapi, currentAuthDeps, bindAuthDeps]
  unfold Server.handlerFor
  simp only [Server.routes, hmux, nil_append, filter_append, hown, hauths, htokens,
    append_nil, argmax_singleton, Option.map_some]

theorem apiRoutes_find_stream {site : Bytes} (h : (parseSiteFromStreamPath
    (lit "/api/sites/" ++ site)).isSome = true) :
    apiRoutes.find? (·.admits (lit "/api/sites/" ++ site)) = some .siteStream := by
  have hne {p : Bytes} (hp : (lit "/api/sites/").isPrefixOf p = false) :
      (lit "/api/sites/" ++ site = p) = False := eq_false (append_ne hp)
  have hbelow {p : Bytes} (h₁ : (p ++ lit "/").isPrefixOf (lit "/api/sites/") = false)
      (h₂ : (lit "/api/sites/").isPrefixOf (p ++ lit "/") = false) :
      (p ++ lit "/").isPrefixOf (lit "/api/sites/" ++ site) = false := not_isPrefixOf h₁ h₂
  simp (disch := decide) only [apiRoutes, find?_cons, ApiRoute.admits, underOrAt, below, hne,
    hbelow, decide_false, Bool.or_self, h]

theorem span_segment {seg rest : Bytes} (h : ∀ c ∈ seg, c ≠ ('/' : UInt8)) :
    (seg ++ ('/' : UInt8) :: rest).span (· != ('/' : UInt8)) = (seg, ('/' : UInt8) :: rest) := by
  have hall : ∀ c ∈ seg, (c != ('/' : UInt8)) = true := by simpa using h
  simp [takeWhile_append_of_pos hall, dropWhile_append_of_pos hall]

theorem parseSiteFromStreamPath_eq {site : Bytes} (hne : site ≠ [])
    (h : ∀ c ∈ site, c ≠ ('/' : UInt8)) :
    parseSiteFromStreamPath (lit "/api/sites/" ++ (site ++ lit "/stream")) = some site := by
  have hcut : cutPrefix "/api/sites/" (lit "/api/sites/" ++ (site ++ lit "/stream")) =
      some (site ++ lit "/stream") := cutPrefix_eq_some.mpr rfl
  have hstream : lit "/stream" = ('/' : UInt8) :: lit "stream" := rfl
  rw [parseSiteFromStreamPath, hcut, hstream]
  simp only [span_segment h]
  simp [hne]

theorem reSite_segment {site : Bytes} (h : reSite site = true) :
    site ≠ [] ∧ ∀ c ∈ site, c ≠ ('/' : UInt8) := by
  simp only [reSite, Bool.and_eq_true] at h
  obtain ⟨⟨hlength, -⟩, hlower, hdigit⟩ := h
  constructor
  · rintro rfl
    cases hlength
  intro c hc
  rw [← take_append_drop (site.length - 2) site, mem_append] at hc
  rintro rfl
  rcases hc with hc | hc
  · have := all_eq_true.mp hlower _ hc
    cases this
  · have := all_eq_true.mp hdigit _ hc
    cases this

end Cios.Apigw
