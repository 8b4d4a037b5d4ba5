import Cios.Apigw.Proxy
import Cios.Store.Operations
import Cios.Sts.LifeCycle

/-!
# API gateway — the token route

`POST /auth/{realm}/token` (`pkg/apigw/server.go`): the session cookie is decoded, its realm is
compared with the URL's, and the token service mints a token for its subject, its realm and its
roles.  `Exchange` has no argument for a tenant, and the token it signs names none; but the routes
that forward for a tenant ask for one (`tenantFromClaims`, `minted_token_never_gated`).
-/

namespace Cios.Apigw
open Text Effect Sts
open Cios.Http (Method Problem)
open Cios.Gateway (Tier tenantFromClaims)
open Cios.Sts (TokenClaims TokenJson STS StsOp Signed wholeSecond unixSeconds)
open Cios.Store (Json Spec)

structure SessionInfo (V : Type) where
  subject : Bytes
  realm : Bytes
  claims : Spec V

abbrev SessionDecoder (V : Type) := Bytes → Int → Bytes → Option (SessionInfo V)

/-- The decoder that `main` sets. -/
def decodeSessionInfo {V : Type} (mac : Bytes → Bytes → Bytes) (sjson : Sts.SessionJson (Spec V)) :
    SessionDecoder V :=
  fun key now cookie =>
    (Sts.decodeSession mac sjson key now cookie).map fun s => ⟨s.subject, s.realm, s.claims⟩

structure TokenServer (V : Type) where
  sts : Option STS
  sessionKey : Bytes
  sessionDecoder : Option (SessionDecoder V)

structure TokenRequest where
  method : Method
  path : Bytes
  /-- The session cookie, if there is one. -/
  cookie : Option Bytes

def checkRealm (urlRealm sessionRealm : Bytes) : Bool :=
  urlRealm = sessionRealm && Sts.realmAllowlist.contains urlRealm

def parseRealmFromTokenPath (p : Bytes) : Option Bytes :=
  let rest := (cutPrefix "/auth/" p).getD p
  let realm := (Url.cut '/' rest).1
  if !rest.contains '/' || realm = [] || (Url.cut '/' rest).2 ≠ "token" then none
  else if realm = "ops" || realm = "customer" then some realm else none

/-- The strings of an array that are not empty. -/
def roleStrings {V : Type} (items : List (Json V)) : List Bytes :=
  (items.map Json.asStr).filter (· ≠ [])

/-- The claim `roles`, or the words of `scope` if it names none. -/
def sessionRoles {V : Type} (info : SessionInfo V) : List Bytes :=
  let roles := match info.claims.get "roles" with
    | some (.arr items) => roleStrings items
    | _ => []
  if roles ≠ [] then roles else fields (info.claims.getStr "scope")

section Route

variable {V : Type} (mac : Bytes → Bytes → Bytes) (json : TokenJson) (srv : TokenServer V)

/-- The end of `handleToken`: the token and its lifetime, or a problem. -/
def mintedReply : Sts.Minted → Except Problem (Bytes × Int)
  | .error e => .error ⟨500, "internal", "could not mint token", e⟩
  | .ok m => .ok m

def TokenServer.exchangeSession (s : STS) (urlRealm : Bytes) (info : SessionInfo V) :
    Prog StsOp StsOp.Ret (Except Problem (Bytes × Int)) :=
  if !checkRealm urlRealm info.realm then
    .done (.error ⟨403, "forbidden", "realm mismatch",
      "the session was minted for a different realm"⟩)
  else s.exchange mac json info.subject info.realm (sessionRoles info) >>= fun m =>
    .done (mintedReply m)

def TokenServer.handleToken (r : TokenRequest) :
    Prog StsOp StsOp.Ret (Except Problem (Bytes × Int)) :=
  if r.method ≠ .post then
    .done (.error (notAllowed "only POST is accepted at /auth/\x7brealm\x7d/token"))
  else match srv.sts with
    | none => .done (.error ⟨404, "path-not-found", "token route disabled",
        "STS is not configured; set CIOS_STS_SIGNING_KEY"⟩)
    | some s =>
      if srv.sessionKey = [] then
        .done (.error ⟨500, "internal", "session key not configured",
          "CIOS_APIGW_SESSION_KEY must be set"⟩)
      else match parseRealmFromTokenPath r.path with
        | none => .done (.error ⟨404, "path-not-found", "token path malformed",
            "expected /auth/<realm>/token"⟩)
        | some urlRealm =>
          match r.cookie with
          | none => .done (.error ⟨401, "unauthorized", "no session",
              "request did not carry a session cookie"⟩)
          | some cookie =>
            match srv.sessionDecoder with
            | none => .done (.error ⟨500, "internal", "session decoder not configured",
                "no SessionDecoder wired; set via SetSessionDecoder"⟩)
            | some decode => .call .now fun now =>
              match decode srv.sessionKey now cookie with
              | none => .done (.error ⟨401, "unauthorized", "session invalid",
                  "the session cookie failed to verify"⟩)
              | some info => exchangeSession mac json s urlRealm info

variable {mac json srv}

/-- The session of a request: what the decoder answers on its cookie. -/
def TokenServer.SessionOf (srv : TokenServer V) (r : TokenRequest) (now : Int)
    (info : SessionInfo V) : Prop :=
  ∃ cookie decode, r.cookie = some cookie ∧ srv.sessionDecoder = some decode ∧
    decode srv.sessionKey now cookie = some info

theorem handleToken_fed {r : TokenRequest} {evs : List (Event StsOp StsOp.Ret)} {raw : Bytes}
    {n : Int} (h : (srv.handleToken mac json r).Fed evs (.done (.ok (raw, n)))) :
    ∃ s now info evs₁, srv.sts = some s ∧ evs = ⟨.now, now⟩ :: evs₁ ∧ srv.SessionOf r now info ∧
      (s.exchange mac json info.subject info.realm (sessionRoles info)).Fed evs₁
        (.done (.ok (raw, n))) := by
  unfold TokenServer.handleToken at h
  split at h
  · simp at h
  cases hsts : srv.sts with
  | none => simp [hsts] at h
  | some s =>
    simp only [hsts] at h
    split at h
    · simp at h
    split at h
    · simp at h
    rename_i urlRealm _
    split at h
    · simp at h
    rename_i cookie hcookie
    split at h
    · simp at h
    rename_i decode hdecode
    obtain ⟨now, evs₁, rfl, h₁⟩ := Prog.fed_call_done.mp h
    split at h₁
    · simp at h₁
    rename_i info hinfo
    refine ⟨s, now, info, evs₁, rfl, rfl,
      ⟨cookie, decode, hcookie, hdecode, hinfo⟩, ?_⟩
    rw [TokenServer.exchangeSession] at h₁
    split at h₁
    · simp at h₁
    obtain ⟨m, h₂, hm⟩ := h₁.bind_wrap
    cases m with
    | error e => cases hm
    | ok m =>
      cases hm
      exact h₂

end Route

/-! ### The gate -/

/-- The tenant and the tier of a session, under the names they have in a token. -/
def sessionTenant {V : Type} (info : SessionInfo V) : Option (Bytes × Tier) :=
  tenantFromClaims ⟨info.realm, [], info.claims.getStr "tenant", info.claims.getStr "tier"⟩

/-- A request with these claims is let through for the tenant, and forwarded under its name. -/
structure Gated {authority : Bytes → Option Bytes} (core : Url.Origin authority)
    (c : TokenClaims) (raw tenant : Bytes) (tier : Tier) : Prop where
  gate : tenantFromClaims (metricClaims c) = some (tenant, tier)
  forwarded : ∀ path, path ≠ [] → getV1AsTenant core c raw path ≠ .error .tenantMissing ∧
    ∀ sent, getV1AsTenant core c raw path = .ok sent → sent.tenantHeader = tenant

section Gate

variable {authority : Bytes → Option Bytes} {core : Url.Origin authority}
variable {mac : Bytes → Bytes → Bytes} {json : TokenJson} {s : STS}

theorem verify_signed (hjson : json.Lawful) {c : TokenClaims} {iat : Int} {payload raw : Bytes}
    (h : Signed mac json s.key iat c payload raw)
    (hrealm : realmAllowlist.contains c.realm = true)
    {evs : List (Event StsOp StsOp.Ret)} {r : Option TokenClaims}
    (hver : (s.verify mac json raw).Fed evs (.done r))
    (hbefore : ∀ t, (⟨.now, t⟩ : Event StsOp StsOp.Ret) ∈ evs → t < wholeSecond c.expiry)
    (hlive : ∀ jti, (⟨.isRevoked jti, true⟩ : Event StsOp StsOp.Ret) ∉ evs) :
    r = some c.parsed := by
  have hparse (t : Int) (ht : t < wholeSecond c.expiry) :
      parse mac json s.key (unixSeconds t) raw = some c.parsed := by
    rw [h.parse hjson, if_neg]
    rw [unixSeconds_le_iff]
    exact not_le.mpr ht
  cases verify_fed hver with
  | @unparsed now hnone =>
    rw [hparse now (hbefore now (by simp))] at hnone
    cases hnone
  | @refused now clock c' hsome hc =>
    rw [hparse now (hbefore now (by simp))] at hsome
    cases hsome
    rcases hc with hc | hc
    · exact absurd (hbefore clock (by simp)) (not_lt.mpr hc)
    · have hcoerce := Utf8.coerce_valid (Utf8.valid_ascii (realm_ascii hrealm))
      rw [TokenClaims.parsed, hcoerce, hrealm] at hc
      cases hc
  | @looked now clock c' revoked hsome hc =>
    rw [hparse now (hbefore now (by simp))] at hsome
    cases hsome
    cases revoked with
    | true => exact absurd (by simp) (hlive c.parsed.jti)
    | false => rfl

end Gate

/-- **A minted token never passes the gate for its session's tenant**: `Exchange` signs neither a
tenant nor a tier, so each request with it is refused. -/
theorem minted_token_never_gated {V : Type} {authority : Bytes → Option Bytes}
    (core : Url.Origin authority) {mac : Bytes → Bytes → Bytes} {json : TokenJson}
    (hjson : json.Lawful) (srv : TokenServer V) (r : TokenRequest)
    (evs : List (Event StsOp StsOp.Ret)) (raw : Bytes) (n : Int)
    (hmint : (srv.handleToken mac json r).Fed evs (.done (.ok (raw, n)))) :
    ∃ s now info b issued iat, srv.sts = some s ∧ srv.SessionOf r now info ∧
      evs = [⟨.now, now⟩, ⟨.randRead, .ok b⟩, ⟨.now, issued⟩, ⟨.now, iat⟩] ∧
      let signed := s.claims info.subject info.realm (sessionRoles info) (Base64.encode b) issued
      ∀ evs' answer, (s.verify mac json raw).Fed evs' (.done answer) →
        (∀ t, (⟨.now, t⟩ : Event StsOp StsOp.Ret) ∈ evs' → t < wholeSecond signed.expiry) →
        (∀ jti, (⟨.isRevoked jti, true⟩ : Event StsOp StsOp.Ret) ∉ evs') →
        ∃ c, answer = some c ∧
          (∀ path, path ≠ [] → getV1AsTenant core c raw path = .error .tenantMissing) ∧
          ∀ tenant tier, sessionTenant info = some (tenant, tier) →
            ¬Gated core c raw tenant tier := by
  obtain ⟨s, now, info, evs₁, hs, rfl, hinfo, hex⟩ := handleToken_fed hmint
  obtain ⟨issued, b, hallowed, iat, payload, rfl, hsigned⟩ := exchange_fed hex
  refine ⟨s, now, info, b, issued, iat, hs, hinfo, rfl, ?_⟩
  intro signed evs' answer hver hbefore hlive
  refine ⟨_, verify_signed hjson hsigned hallowed hver hbefore hlive, ?_, ?_⟩
  · intro path hp
    exact v1AsTenant_tenantless hp rfl
  · intro tenant tier _ hgated
    cases hgated.gate

/-! ### A tenant's session -/

def tenantSession : SessionInfo Unit :=
  ⟨"alice", "ops", some [("roles", .arr [.str "viewer"]), ("tenant", .str "acme"),
    ("tier", .str "row")]⟩

def tenantSts : STS := ⟨"k", 900000000000⟩

def tenantServer : TokenServer Unit :=
  ⟨some tenantSts, "s", some (decodeSessionInfo (fun _ _ => []) ⟨fun _ => .ok [], fun _ =>
    some ⟨tenantSession.subject, tenantSession.realm, 900, tenantSession.claims⟩⟩)⟩

def tenantTokenRequest : TokenRequest := ⟨.post, "/auth/ops/token", some (lit "v1..")⟩

def tenantSigned : TokenClaims :=
  tenantSts.claims "alice" "ops" ["viewer"] (Base64.encode [0]) 0

theorem tenantSession_minted : ∃ (json : TokenJson) (raw : Bytes), json.Lawful ∧
    (tenantServer.handleToken (fun _ _ => []) json tenantTokenRequest).Fed
      [⟨.now, (0 : Int)⟩, ⟨.randRead, .ok [0]⟩, ⟨.now, (0 : Int)⟩, ⟨.now, (0 : Int)⟩]
      (.done (.ok (raw, 900))) ∧
    (tenantSts.verify (fun _ _ => []) json raw).Fed [⟨.now, (0 : Int)⟩, ⟨.now, (0 : Int)⟩,
      ⟨.isRevoked tenantSigned.parsed.jti, false⟩] (.done (some tenantSigned.parsed)) := by
  obtain ⟨json, hjson⟩ := exists_lawful
  obtain ⟨payload, hmarshal, -⟩ := hjson.claims (wireClaims 0 tenantSigned)
  have hsign := sign_of_marshal (fun _ _ => []) (show tenantSts.key ≠ [] by decide) (by decide)
    (by decide) (by decide) (by decide) hmarshal
  obtain ⟨payload', hsigned⟩ := sign_signed hsign
  have hparse := hsigned.parse hjson 0
  generalize stamp _ _ _ = raw at *
  refine ⟨json, raw, hjson, ?_, ?_⟩
  · refine .cons ?_
    change Prog.Fed (TokenServer.exchangeSession (fun _ _ => []) json tenantSts (lit "ops")
      tenantSession) _ _
    refine .cons (.cons (.cons ?_))
    simp only
    rw [show sign _ json tenantSts.key (unixSeconds 0) (tenantSts.claims tenantSession.subject
      tenantSession.realm (sessionRoles tenantSession) (Base64.encode [0]) 0) = _ from hsign]
    exact .nil _
  · refine .cons ?_
    rw [show unixSeconds 0 = 0 from rfl, hparse]
    exact .cons (.cons (.nil _))

/-- The token of the tenant's session, while it is valid. -/
theorem tenantSession_token_not_gated : ∃ (json : TokenJson) (raw : Bytes) (c : TokenClaims),
    (∃ evs, (tenantSts.verify (fun _ _ => []) json raw).Fed evs (.done (some c))) ∧
      sessionTenant tenantSession = some (lit "acme", .row) ∧
      ¬Gated coreOrigin c raw "acme" .row := by
  obtain ⟨json, raw, hjson, hmint, hver⟩ := tenantSession_minted
  obtain ⟨s, now, info, b, issued, iat, hs, hinfo, hevs, hall⟩ :=
    minted_token_never_gated coreOrigin hjson tenantServer tenantTokenRequest _ raw 900 hmint
  cases hs
  cases hevs
  obtain ⟨cookie, decode, hcookie, hdecode, hinfo⟩ := hinfo
  cases hcookie
  cases hdecode
  cases hinfo
  have htenant : sessionTenant tenantSession = some (lit "acme", .row) := by decide
  obtain ⟨c, hc, -, hnot⟩ := hall _ _ hver (by simp; decide) (by simp)
  exact ⟨json, raw, c, ⟨_, hc ▸ hver⟩, htenant, hnot _ _ htenant⟩

/-- Each route that forwards for a tenant refuses the token. -/
theorem tenantSession_token_refused : ∃ (json : TokenJson) (raw : Bytes) (c : TokenClaims),
    (∃ evs, (tenantServer.handleToken (fun _ _ => []) json tenantTokenRequest).Fed evs
      (.done (.ok (raw, 900)))) ∧
    tenantServer.SessionOf tenantTokenRequest 0 tenantSession ∧
    sessionTenant tenantSession = some (lit "acme", .row) ∧
    (∃ evs, (tenantSts.verify (fun _ _ => []) json raw).Fed evs (.done (some c))) ∧
    tenantFromClaims (metricClaims c) = none ∧
    getV1AsTenant coreOrigin c raw "/v1/tickets/T-1" = .error .tenantMissing := by
  obtain ⟨json, raw, -, hmint, hver⟩ := tenantSession_minted
  exact ⟨json, raw, _, ⟨_, hmint⟩, ⟨_, _, rfl, rfl, rfl⟩, by decide, ⟨_, hver⟩, rfl,
    v1AsTenant_tenantless (by decide) rfl⟩

end Cios.Apigw
