import Cios.Apigw.Server
import Cios.Support.Interleave
import Mathlib.Data.List.DropRight

/-!
# API gateway — start-up

What `main` does before it serves (`cmd/cios-apigw/main.go`, `startup.go`, `pkg/apigw/config.go`):
read the environment, build the server, then install the policy engine, the login handler and the
session decoder.  But `NewServer` registers the routes itself: the middleware has what it found
then, and the login routes are not on the mux (`startup_takes_effect_iff`).
-/

namespace Cios.Apigw
open Text Effect Server
open Cios.Http (Problem)
open Cios.Gateway (bearerToken)

/-! ### What is built -/

inductive HttpClient (L : Type) where
  | default
  | tuned (timeout : Int) (tls : Option L)

/-- A policy engine asked over HTTP. -/
structure OpaPDP (L : Type) where
  url : Bytes
  client : HttpClient L

def trimSlashes (url : Bytes) : Bytes := url.rdropWhile (· == ('/' : UInt8))

def newOPAPDP {L : Type} (opaURL : Bytes) (hc : HttpClient L) : OpaPDP L := ⟨trimSlashes opaURL, hc⟩

structure Upstream (L : Type) where
  baseURL : Bytes
  client : HttpClient L

def newUpstream {L : Type} (baseURL : Bytes) (hc : HttpClient L) : Option (Upstream L) :=
  if baseURL = [] then none else some ⟨trimSlashes baseURL, hc⟩

inductive Realm where
  | ops
  | customer
deriving DecidableEq, Repr

/-- The login handler, over verifiers `V`. -/
structure AuthnHandler (V : Type) where
  verifiers : List (Realm × V)
  sessionKey : Bytes

/-! ### The environment -/

def envUpstream : Bytes := "CIOS_APIGW_UPSTREAM"
def envListen : Bytes := "CIOS_APIGW_LISTEN"
def envAuthMode : Bytes := "CIOS_APIGW_AUTH_MODE"
def envAllowNoAuth : Bytes := "CIOS_APIGW_ALLOW_NO_AUTH"
def envDevNoAuth : Bytes := "CIOS_APIGW_DEV_NO_AUTH"
def envSessionKey : Bytes := "CIOS_APIGW_SESSION_KEY"
def envSTSSigningKey : Bytes := "CIOS_STS_SIGNING_KEY"
def envOPAURL : Bytes := "CIOS_OPA_URL"
def envServiceAccounts : Bytes := "CIOS_STS_SERVICE_ACCOUNTS"
def envUpstreamTimeout : Bytes := "CIOS_APIGW_UPSTREAM_TIMEOUT"

/-- The issuer, client, secret and redirect of a realm. -/
def oidcVars : Realm → List Bytes
  | .ops => ["CIOS_OIDC_OPS_ISSUER", "CIOS_OIDC_OPS_CLIENT_ID", "CIOS_OIDC_OPS_CLIENT_SECRET",
      "CIOS_OIDC_OPS_REDIRECT_URL"]
  | .customer => ["CIOS_OIDC_CUSTOMER_ISSUER", "CIOS_OIDC_CUSTOMER_CLIENT_ID",
      "CIOS_OIDC_CUSTOMER_CLIENT_SECRET", "CIOS_OIDC_CUSTOMER_REDIRECT_URL"]

/-- What the process finds: the environment, certificates, identity providers and files. -/
structure Host (L V : Type) where
  getenv : Bytes → Bytes
  letters : Letters
  parseDuration : Bytes → Option Int
  upstreamTLS : Except Bytes (Option L)
  mtlsRequire : Except Bytes Bool
  newOIDCVerifier : Realm → List Bytes → Except Bytes V
  serviceAccountsReadable : Bytes → Bool

inductive OidcError where
  | missing (realm : Realm) (vars : List Bytes)
  | verifier (realm : Realm) (msg : Bytes)

inductive StartupError where
  | upstreamRequired
  | devNoAuthRequiresLab
  | tls (msg : Bytes)
  | mtlsMode (msg : Bytes)
  | mtlsMaterial
  | refusingWithoutAuth
  | missingKeys (vars : List Bytes)
  | oidc (errs : List OidcError)
  | noRealm
  | emptySessionKey

variable {L V : Type} (h : Host L V)

/-- `Config`, the fields the start-up reads. -/
structure Config where
  listenAddr : Bytes
  upstreamURL : Bytes
  devNoAuth : Bool

def parseBool (s : Bytes) : Bool :=
  let t := h.letters.toLower (trimSpace s)
  t = "1" || t = "true" || t = "yes"

/-- `LoadConfig` of a production build, which has no bypass. -/
def loadConfig : Except StartupError Config :=
  let listen := h.getenv envListen
  let upstream := h.getenv envUpstream
  if upstream = [] then .error .upstreamRequired
  else
    let devNoAuth := parseBool h (h.getenv envDevNoAuth) &&
      !(h.getenv envSTSSigningKey ≠ [] || h.getenv envOPAURL ≠ [])
    if devNoAuth then .error .devNoAuthRequiresLab
    else .ok ⟨if listen = [] then ":8443" else listen, upstream, devNoAuth⟩

structure StartupConfig (L V : Type) where
  authMode : Bool
  upstreamHC : HttpClient L
  opaURL : Bytes
  verifiers : List (Realm × V)

def truthyEnv (name : Bytes) : Bool :=
  let t := h.letters.toLower (trimSpace (h.getenv name))
  t = "1" || t = "true" || t = "yes" || t = "on"

/-- Ten seconds unless the environment has a positive duration. -/
def parseUpstreamTimeout : Int :=
  match h.parseDuration (h.getenv envUpstreamTimeout) with
  | some d => if 0 < d then d else 10000000000
  | none => 10000000000

/-- One realm of `buildOIDCVerifiers`, `none` when none of its variables is set. -/
def buildRealm (realm : Realm) : Option (Except OidcError V) :=
  let vals := (oidcVars realm).map h.getenv
  if vals.all (· = []) then none
  else if vals.any (· = []) then
    some (.error (.missing realm ((oidcVars realm).filter (h.getenv · = []))))
  else match h.newOIDCVerifier realm vals with
    | .error e => some (.error (.verifier realm e))
    | .ok v => some (.ok v)

def buildOIDCVerifiers : Except StartupError (List (Realm × V)) :=
  let built := [Realm.ops, .customer].filterMap fun realm => (buildRealm h realm).map (realm, ·)
  let errs := built.filterMap fun e => match e.2 with | .error err => some err | .ok _ => none
  let out := built.filterMap fun e => match e.2 with | .ok v => some (e.1, v) | .error _ => none
  if errs ≠ [] then .error (.oidc errs)
  else if out = [] then .error .noRealm
  else .ok out

def loadStartupConfig : Except StartupError (StartupConfig L V) :=
  match h.upstreamTLS with
  | .error e => .error (.tls e)
  | .ok tls =>
    match h.mtlsRequire with
    | .error e => .error (.mtlsMode e)
    | .ok require =>
      if require && tls.isNone then .error .mtlsMaterial
      else
        let sc : StartupConfig L V :=
          ⟨h.letters.equalFold (h.getenv envAuthMode) "on", .tuned (parseUpstreamTimeout h) tls,
            h.getenv envOPAURL, []⟩
        if !sc.authMode then
          if truthyEnv h envAllowNoAuth || truthyEnv h envDevNoAuth then .ok sc
          else .error .refusingWithoutAuth
        else
          let missing := [envSessionKey, envSTSSigningKey].filter (h.getenv · = [])
          if missing ≠ [] then .error (.missingKeys missing)
          else (buildOIDCVerifiers h).map fun verifiers => { sc with verifiers }

def buildOPAPDP (opaURL : Bytes) (hc : HttpClient L) : Option (OpaPDP L) :=
  if opaURL = [] then none else some (newOPAPDP opaURL hc)

/-- `buildAuthHandler` with `authn.NewHandler`. -/
def buildAuthHandler (sc : StartupConfig L V) (sessionKey : Bytes) :
    Except StartupError (Option (AuthnHandler V)) :=
  if !sc.authMode || sc.verifiers.isEmpty then .ok none
  else if sessionKey = [] then .error .emptySessionKey
  else .ok (some ⟨sc.verifiers, sessionKey⟩)

/-! ### The sequence -/

abbrev Gateway (L V : Type) := Server (OpaPDP L) (AuthnHandler V) (Upstream L)

/-- `loadTokenKeys`, `loadPDP`, `loadServiceAccounts` and the default source. -/
def loaded (up : Upstream L) : Gateway L V :=
  let sts := if h.getenv envSTSSigningKey = [] then none
    else some ⟨h.getenv envSTSSigningKey, fun _ => false⟩
  { sts
    pdp := if h.getenv envOPAURL = [] then none else some (newOPAPDP (h.getenv envOPAURL) .default)
    authHandler := none
    sessionKey := h.getenv envSessionKey
    hasSessionDecoder := false
    hasServiceAccounts := h.getenv envServiceAccounts ≠ [] &&
      h.serviceAccountsReadable (h.getenv envServiceAccounts) && sts.isSome
    source := some up
    mux := [] }

def newServer (up : Upstream L) : Gateway L V := (loaded h up).routes

def setPDP (s : Gateway L V) (p : OpaPDP L) : Gateway L V := { s with pdp := some p }

def setAuthHandler (s : Gateway L V) (a : AuthnHandler V) : Gateway L V :=
  { s with authHandler := some a }

def setSessionDecoder (s : Gateway L V) : Gateway L V := { s with hasSessionDecoder := true }

/-- `main` up to the listener.  With the configuration loaded the bypass is off, so the check of the
listen address says nothing. -/
def startup : Except StartupError (Gateway L V) :=
  match loadConfig h with
  | .error e => .error e
  | .ok cfg =>
    match loadStartupConfig h with
    | .error e => .error e
    | .ok sc =>
      match newUpstream cfg.upstreamURL sc.upstreamHC with
      | none => .error .upstreamRequired
      | some up =>
        let srv := newServer h up
        let srv := ((buildOPAPDP sc.opaURL sc.upstreamHC).map (setPDP srv)).getD srv
        match buildAuthHandler sc (h.getenv envSessionKey) with
        | .error e => .error e
        | .ok a => .ok (setSessionDecoder ((a.map (setAuthHandler srv)).getD srv))

/-! ### Who decides -/

section Decisions
variable {P H T : Type} {p : P}

/-- Decisions are asked of one engine, and a handler is reached only behind its consent. -/
def decisions (p : P) : Protocol (Op P H T) Op.Ret Progress Bool where
  next allowed
    | ⟨.decision _ _, (verdict : Option Bool)⟩ => allowed || verdict == some true
    | _ => allowed
  permits allowed
    | .decision q _ => q = p
    | .handle _ _ | .subscribe _ _ _ => allowed = true
    | _ => True
  ends _ _ := True

/-- The request is decided by the engine `p`. -/
def DecidedBy (p : P) (prog : Served P H T Progress) : Prop := (decisions p).Obeys false prog

def Op.undeciding : Op P H T → Prop
  | .decision _ _ => False
  | _ => True

theorem obeys_allowed {prog : Served P H T Progress} (h : prog.Calls Op.undeciding) :
    (decisions p).Obeys true prog := by
  induction prog with
  | done a => trivial
  | call op k ih =>
    refine ⟨?_, fun r => ?_⟩
    · cases op with
      | decision q i => exact h.1.elim
      | _ => first | exact rfl | trivial
    have hnext : (decisions p).next true ⟨op, r⟩ = true := by
      cases op with
      | decision q i => exact h.1.elim
      | _ => rfl
    rw [hnext]
    exact ih r (h.2 r)

theorem obeys_writeProblem (b : Bool) (e : Problem) (r : Request) :
    (decisions p).Obeys b (writeProblem (H := H) (T := T) e r) :=
  ⟨trivial, fun _ => ⟨trivial, fun _ => ⟨trivial, fun _ => trivial⟩⟩⟩

theorem obeys_accessLog_iff {next : Writer → Request → Served P H T Progress} {w : Writer}
    {r : Request} {b : Bool} : (decisions p).Obeys b (accessLogMiddleware next w r) ↔
      (decisions p).Obeys b (next (.statusCapturing w) r) := by
  unfold accessLogMiddleware
  generalize next (.statusCapturing w) r = prog
  generalize (200 : Nat) = status
  generalize false = wrote
  induction prog generalizing b status wrote with
  | done a =>
    cases a with
    | running => exact Iff.rfl
    | returned => exact ⟨fun _ => trivial, fun _ => ⟨trivial, fun _ => trivial⟩⟩
  | call op k ih =>
    cases op <;> exact and_congr_right fun _ => forall_congr' fun a => ih a _ _

theorem calls_writeProblem (e : Problem) (r : Request) :
    (writeProblem (P := P) (H := H) (T := T) e r).Calls Op.undeciding :=
  ⟨trivial, fun _ => ⟨trivial, fun _ => ⟨trivial, fun _ => trivial⟩⟩⟩

theorem calls_writeAll (bs : List Bytes) :
    (writeAll (P := P) (H := H) (T := T) bs).Calls Op.undeciding := by
  induction bs with
  | nil => trivial
  | cons b rest ih => exact ⟨trivial, fun _ => ih⟩

theorem calls_streamLoop (turns : Nat) :
    (streamLoop (P := P) (H := H) (T := T) turns).Calls Op.undeciding := by
  induction turns with
  | zero => trivial
  | succ turns ih =>
    refine ⟨trivial, fun r => ?_⟩
    cases r with
    | done | closed => trivial
    | event ev => exact (calls_writeAll _).bind fun _ => ⟨trivial, fun _ => ih⟩
    | keepAlive =>
      refine ⟨trivial, fun ok => ?_⟩
      cases ok with
      | true => exact ⟨trivial, fun _ => ih⟩
      | false => trivial

theorem calls_apiHandler (source : Option T) (turns : Nat) (i : Option Identity) (w : Writer)
    (r : Request) : (apiHandler (P := P) (H := H) source turns i w r).Calls Op.undeciding := by
  unfold apiHandler
  split
  · unfold handleSiteStream
    split
    · exact ⟨trivial, fun _ => calls_writeProblem _ r⟩
    iterate 2
      split
      · exact calls_writeProblem _ r
    split_ifs
    iterate 2 exact calls_writeProblem _ r
    split
    · exact calls_writeProblem _ r
    refine ⟨trivial, fun ok => ?_⟩
    cases ok with
    | false => exact calls_writeProblem _ r
    | true =>
      exact ⟨trivial, fun _ => ⟨trivial, fun _ => ⟨trivial, fun _ => ⟨trivial, fun _ =>
        ⟨trivial, fun _ => ⟨trivial, fun _ => calls_streamLoop turns⟩⟩⟩⟩⟩⟩
  · exact ⟨trivial, fun _ => trivial⟩
  · exact calls_writeProblem _ r

section Middleware
variable {deps : AuthDeps P} {next : Option Identity → Writer → Request → Served P H T Progress}
  {w : Writer} {r : Request}

theorem authorised_obeys (hnext : ∀ i w r, (next i w r).Calls Op.undeciding)
    (claims : Sts.TokenClaims) (token : Bytes) :
    (decisions p).Obeys false (authorised (some p) next claims token w r) := by
  refine ⟨trivial, fun now => ⟨rfl, fun verdict => ?_⟩⟩
  cases verdict with
  | none => exact obeys_writeProblem _ _ r
  | some b =>
    cases b with
    | false => exact obeys_writeProblem _ _ r
    | true => exact obeys_allowed (hnext _ w r)

/-- Every request through the middleware is decided by the engine it was wrapped with. -/
theorem authMiddleware_decided (hpdp : deps.pdp = some p)
    (hnext : ∀ i w r, (next i w r).Calls Op.undeciding) :
    DecidedBy p (authMiddleware deps next w r) := by
  unfold DecidedBy authMiddleware
  rw [hpdp]
  simp only [Option.isNone_some, Bool.and_false, Bool.false_eq_true, if_false]
  split
  · exact obeys_writeProblem _ _ r
  split
  · exact authorised_obeys hnext _ _
  · refine ⟨trivial, fun claims => ?_⟩
    cases claims with
    | none => exact obeys_writeProblem _ _ r
    | some claims => exact authorised_obeys hnext _ _

theorem decidedBy_unique {q : P} {token : Bytes} (hpdp : deps.pdp = some q)
    (htoken : bearerToken r.authorization = some token)
    (h : DecidedBy p (authMiddleware deps next w r)) : q = p := by
  unfold DecidedBy authMiddleware at h
  rw [hpdp, htoken] at h
  simp only [Option.isNone_some, Bool.and_false, Bool.false_eq_true, if_false] at h
  split at h
  · exact (h.2 (0 : Int)).1
  · exact ((h.2 (some zeroClaims)).2 (0 : Int)).1

end Middleware

end Decisions

/-! ### What a start leaves behind -/

section Start
variable {h}

theorem loadStartupConfig_ok {sc : StartupConfig L V} (hsc : loadStartupConfig h = .ok sc) :
    (∃ timeout tls, sc.upstreamHC = .tuned timeout tls) ∧ sc.opaURL = h.getenv envOPAURL ∧
      (sc.authMode = true → h.getenv envSTSSigningKey ≠ []) := by
  unfold loadStartupConfig at hsc
  iterate 3
    split at hsc
    · cases hsc
  dsimp only at hsc
  split_ifs at hsc with hmode _ hmissing
  · cases hsc
    refine ⟨⟨_, _, rfl⟩, rfl, fun hon => ?_⟩
    dsimp only at hon
    rw [hon] at hmode
    cases hmode
  · cases hverifiers : buildOIDCVerifiers h with
    | error e =>
      rw [hverifiers] at hsc
      cases hsc
    | ok verifiers =>
      rw [hverifiers] at hsc
      cases hsc
      refine ⟨⟨_, _, rfl⟩, rfl, fun _ hempty => hmissing fun hnil => ?_⟩
      have hmem : envSTSSigningKey ∈
          [envSessionKey, envSTSSigningKey].filter (h.getenv · = []) := by
        simp [hempty]
      rw [hnil] at hmem
      cases hmem

/-- The routes are those of `NewServer`, the engine is the one built last, and a login handler comes
with a signing key. -/
structure Started (h : Host L V) (up : Upstream L) (s : Gateway L V) : Prop where
  mux : s.mux = (newServer h up).mux
  sts : s.sts = (loaded h up).sts
  source : s.source = some up
  pdp : ∃ timeout tls, s.pdp = if h.getenv envOPAURL = [] then none
    else some (newOPAPDP (h.getenv envOPAURL) (.tuned timeout tls))
  handler : s.authHandler.isSome = true → h.getenv envSTSSigningKey ≠ []

variable {s : Gateway L V}

theorem startup_started (hs : startup h = .ok s) : ∃ up, Started h up s := by
  unfold startup at hs
  split at hs
  · cases hs
  split at hs
  · cases hs
  rename_i sc hsc
  obtain ⟨⟨timeout, tls, hhc⟩, hopa, hmode⟩ := loadStartupConfig_ok hsc
  split at hs
  · cases hs
  rename_i up _
  split at hs
  · cases hs
  rename_i a ha
  cases hs
  refine ⟨up, ?_⟩
  have hhandler : a.isSome = true → h.getenv envSTSSigningKey ≠ [] := by
    intro hsome
    apply hmode
    unfold buildAuthHandler at ha
    split_ifs at ha with hoff
    · cases ha
      cases hsome
    · simp only [Bool.or_eq_true, Bool.not_eq_true', not_or, Bool.not_eq_false] at hoff
      exact hoff.1
  by_cases hurl : h.getenv envOPAURL = []
  all_goals
    cases a with
    | none =>
      refine ⟨?_, ?_, ?_, ⟨timeout, tls, ?_⟩, ?_⟩ <;>
        simp [buildOPAPDP, hopa, hhc, hurl, setSessionDecoder, setPDP, newServer, loaded, routes]
    | some a =>
      refine ⟨?_, ?_, ?_, ⟨timeout, tls, ?_⟩, fun _ => hhandler rfl⟩ <;>
        simp [buildOPAPDP, hopa, hhc, hurl, setSessionDecoder, setAuthHandler, setPDP, newServer,
          loaded, routes]

/-- Below `/api/` a request meets the middleware as `NewServer` wrapped it. -/
theorem Started.serve_api {up : Upstream L} (hs : Started h up s) {turns : Nat} {w : Writer}
    {r : Request} {rest : Bytes} (hpath : r.path = lit "/api/" ++ rest) :
    s.serveHTTP turns w r = accessLogMiddleware
      (authMiddleware ⟨(loaded h up).sts, (loaded h up).pdp⟩ (apiHandler s.source turns)) w r := by
  have hmux : s.handlerFor r.path = (newServer h up).handlerFor r.path := by
    rw [handlerFor, handlerFor, hs.mux]
  rw [serveHTTP, hmux, hpath, newServer, handlerFor_api rfl]

/-- Below `/auth/` nothing was registered but the token of a service account. -/
theorem Started.serve_auth {up : Upstream L} (hs : Started h up s) {turns : Nat} {w : Writer}
    {r : Request} {realm action : Bytes}
    (hpath : r.path = lit "/auth/" ++ (realm ++ lit "/" ++ action)) :
    s.serveHTTP turns w r = .call .notFound fun _ => .done .returned := by
  have hhealthz : patternAdmits (lit "/healthz") r.path = false := by
    rw [hpath]
    exact patternAdmits_eq_false (by decide) (by decide)
  have hapi : patternAdmits (lit "/api/") r.path = false := by
    rw [hpath]
    exact patternAdmits_eq_false (by decide) (by decide)
  have htoken : patternAdmits (lit "/auth/token") r.path = false := by
    have hne : lit "token" ≠ realm ++ lit "/" ++ action := by
      intro heq
      have hslash : ('/' : UInt8) ∈ lit "token" := by
        rw [heq]
        simp [show lit "/" = [47] by decide, show '/'.toUInt8 = 47 by decide]
      exact absurd hslash (by decide)
    have hsplit : lit "/auth/token" = lit "/auth/" ++ lit "token" := by decide
    rw [patternAdmits, if_neg (by decide), hpath, hsplit, decide_eq_false_iff_not]
    exact fun heq => hne (List.append_cancel_left heq)
  have hnone : s.handlerFor r.path = none := by
    have htokens : (routes.tokenRoute (loaded h up)).filter
        (fun e => patternAdmits e.1 r.path) = [] := by
      unfold routes.tokenRoute
      split <;> simp [htoken]
    have hmux : s.mux = routes.ownRoutes (loaded h up) ++
        routes.tokenRoute (loaded h up) := by
      rw [hs.mux]
      simp [newServer, routes, routes.authRoutes, loaded]
    rw [handlerFor, hmux, List.filter_append, htokens]
    simp [routes.ownRoutes, hhealthz, hapi]
  rw [serveHTTP, hnone]

end Start

/-- **The wiring takes effect.**  The engine installed last decides below `/api/`, and the login and
token routes go to what is installed for them. -/
structure TakesEffect {P H T : Type} (s : Server P H T) : Prop where
  api : ∀ p, s.pdp = some p → ∀ turns w (r : Request), lit "/api/" <+: r.path →
    DecidedBy p (s.serveHTTP turns w r)
  auth : ∀ a, s.authHandler = some a → ∀ turns w (r : Request) realm action, realm ≠ [] →
    ('/' : UInt8) ∉ realm → action ∈ [lit "login", lit "callback", lit "logout"] →
      r.path = lit "/auth/" ++ (realm ++ lit "/" ++ action) →
        s.serveHTTP turns w r = .call (.authHandler a) fun _ => .done .returned
  token : s.sts.isSome = true → ∀ turns w (r : Request) realm, realm ≠ [] → ('/' : UInt8) ∉ realm →
    r.path = lit "/auth/" ++ (realm ++ lit "/" ++ lit "token") →
      s.serveHTTP turns w r = .call .handleToken fun _ => .done .returned

/-- A request below `/api/` with a bearer token. -/
def bearing : Request := ⟨.get, "/api/assets", "Bearer t", []⟩

/-- What decides such a request is the engine that `NewServer` captured. -/
theorem Started.captured {h : Host L V} {s : Gateway L V} {up : Upstream L} (hs : Started h up s)
    {p q : OpaPDP L} (hloaded : (loaded h up).pdp = some q)
    (hdecided : DecidedBy p (s.serveHTTP 0 (.conn true) bearing)) : q = p := by
  have hpath : bearing.path = lit "/api/" ++ lit "assets" := by decide
  have htoken : bearerToken bearing.authorization = some (lit "t") := by decide
  rw [DecidedBy, hs.serve_api hpath, obeys_accessLog_iff] at hdecided
  exact decidedBy_unique hloaded htoken hdecided

/-- **When the wiring takes effect**: only when there is neither a policy engine nor a signing key
to wire.  In every case a request is decided by the engine that `NewServer` built, not by the one
that `main` installs, and no login or token route is on the mux. -/
theorem startup_takes_effect_iff {h : Host L V} {s : Gateway L V} (hs : startup h = .ok s) :
    (TakesEffect s ↔ h.getenv envOPAURL = [] ∧ h.getenv envSTSSigningKey = []) ∧
      (h.getenv envOPAURL ≠ [] → ∀ turns w (r : Request), lit "/api/" <+: r.path →
        DecidedBy (newOPAPDP (h.getenv envOPAURL) .default) (s.serveHTTP turns w r)) ∧
      ∀ turns w (r : Request) realm action, r.path = lit "/auth/" ++ (realm ++ lit "/" ++ action) →
        s.serveHTTP turns w r = .call .notFound fun _ => .done .returned := by
  obtain ⟨up, hstarted⟩ := startup_started hs
  obtain ⟨timeout, tls, hpdp⟩ := hstarted.pdp
  refine ⟨⟨?_, ?_⟩, ?_, fun _ _ _ _ _ hpath => hstarted.serve_auth hpath⟩
  · intro heffect
    constructor
    · by_contra hurl
      rw [if_neg hurl] at hpdp
      have hdecided := heffect.api _ hpdp 0 (.conn true) bearing ⟨lit "assets", by decide⟩
      -- The engine that was captured has the default client, the installed one the tuned one.
      cases congrArg OpaPDP.client (hstarted.captured (if_neg hurl) hdecided)
    · by_contra hkey
      have hsts : s.sts.isSome = true := by
        rw [hstarted.sts, loaded]
        simp [hkey]
      have hpath : lit "/auth/ops/token" =
          lit "/auth/" ++ (lit "ops" ++ lit "/" ++ lit "token") := by
        decide
      have hserved := heffect.token hsts 0 (.conn true) ⟨.post, "/auth/ops/token", [], []⟩ "ops"
        (by decide) (by decide) hpath
      rw [hstarted.serve_auth hpath] at hserved
      injection hserved with hop
      cases hop
  · rintro ⟨hurl, hkey⟩
    rw [if_pos hurl] at hpdp
    refine ⟨?_, ?_, ?_⟩
    · intro p hp
      rw [hpdp] at hp
      cases hp
    · intro a ha
      exact absurd hkey (hstarted.handler (by rw [ha]; rfl))
    · intro hsts
      rw [hstarted.sts, loaded] at hsts
      simp [hkey] at hsts
  · rintro hurl turns w r ⟨rest, hpath⟩
    have hloaded : (loaded h up).pdp = some (newOPAPDP (h.getenv envOPAURL) .default) := if_neg hurl
    rw [DecidedBy, hstarted.serve_api hpath.symm, obeys_accessLog_iff]
    exact authMiddleware_decided hloaded (calls_apiHandler s.source turns)

def hostWith (env : List (Bytes × Bytes)) : Host Unit Unit where
  getenv := fun name => (env.lookup name).getD []
  letters := .none
  parseDuration := fun _ => none
  upstreamTLS := .ok none
  mtlsRequire := .ok false
  newOIDCVerifier := fun _ _ => .ok ()
  serviceAccountsReadable := fun _ => false

def bareEnv : List (Bytes × Bytes) := [(envUpstream, "u"), (envAllowNoAuth, "1")]

def fullEnv : List (Bytes × Bytes) :=
  [(envUpstream, "u"), (envAuthMode, "on"), (envSessionKey, "s"), (envSTSSigningKey, "k"),
    (envOPAURL, "o"), ("CIOS_OIDC_OPS_ISSUER", "i"), ("CIOS_OIDC_OPS_CLIENT_ID", "c"),
    ("CIOS_OIDC_OPS_CLIENT_SECRET", "x"), ("CIOS_OIDC_OPS_REDIRECT_URL", "r")]

theorem bare_start_takes_effect :
    ∃ s, startup (hostWith bareEnv) = .ok s ∧ TakesEffect s := by
  refine ⟨_, rfl, ?_⟩
  exact (startup_takes_effect_iff (h := hostWith bareEnv) rfl).1.mpr ⟨by decide, by decide⟩

/-- With everything configured the installed engine decides nothing, and the login route is not
found. -/
theorem full_start_bypassed :
    ∃ s p a, startup (hostWith fullEnv) = .ok s ∧ s.pdp = some p ∧ s.authHandler = some a ∧
      ¬ DecidedBy p (s.serveHTTP 0 (.conn true) bearing) ∧
      s.serveHTTP 0 (.conn true) ⟨.get, "/auth/ops/login", [], []⟩ =
        .call .notFound fun _ => .done .returned := by
  have hs : ∃ s, startup (hostWith fullEnv) = .ok s ∧ s.authHandler.isSome = true := ⟨_, rfl, rfl⟩
  obtain ⟨s, hs, hhandler⟩ := hs
  obtain ⟨up, hstarted⟩ := startup_started hs
  obtain ⟨timeout, tls, hpdp⟩ := hstarted.pdp
  obtain ⟨a, ha⟩ := Option.isSome_iff_exists.mp hhandler
  refine ⟨s, _, a, hs, hpdp, ha, ?_, ?_⟩
  · intro hdecided
    cases congrArg OpaPDP.client (hstarted.captured rfl hdecided)
  · have hpath : lit "/auth/ops/login" = lit "/auth/" ++ (lit "ops" ++ lit "/" ++ lit "login") := by
      decide
    exact hstarted.serve_auth hpath

end Cios.Apigw
