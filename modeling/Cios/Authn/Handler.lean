import Cios.Authn.Oidc

/-!
# Login — the handlers

`/auth/{realm}/login`, `callback` and `logout` (`pkg/authn/handler.go`) as programs over the clock,
the random source and the identity provider.

`callback_granted` says once what a callback that sets a session cookie has checked.  From it,
`callback_complete_iff`: the flow was complete and matching in every respect but two, the spelling
of the state cookie and the meaning of `ES384` and `ES512`.
-/

namespace Cios.Authn
open Text Effect List Prog
open Cios.Http (Problem)
open Cios.Store (Spec)
open Cios.Sts (Session unixSeconds)

/-! ### The handler -/

structure HandlerConfig where
  verifiers : Realm → Option OidcVerifier
  sessionKey : Bytes
  redirectAfterLogin : Bytes
  stateTTL : Int

/-- A handler as `NewHandler` returns it. -/
structure Handler extends HandlerConfig where
  sessionKey_ne : sessionKey ≠ []
  redirectAfterLogin_ne : redirectAfterLogin ≠ []
  stateTTL_pos : 0 < stateTTL

structure AuthRequest where
  path : Bytes
  query : List (Bytes × Bytes)
  /-- The state cookie, if there is one. -/
  stateCookie : Option Bytes

inductive SetCookie where
  | state (value : Bytes) (realm : Realm) (maxAge : Int)
  | clearState (realm : Realm)
  /-- With its expiry in seconds. -/
  | session (value : Bytes) (expires : Int)
  | clearSession
deriving DecidableEq, Repr

/-- How a response ends: with a problem, or with what `http.Redirect` is given. -/
inductive Outcome where
  | problem (p : Problem)
  | redirect (url : Bytes)
deriving DecidableEq, Repr

structure Response where
  cookies : List SetCookie
  outcome : Outcome
deriving DecidableEq, Repr

def refuse (p : Problem) : Response := ⟨[], .problem p⟩

/-- The path behind `/auth/`, in two parts at its first slash. -/
def authParts (path : Bytes) : Bytes × Option Bytes :=
  let rest := (cutPrefix "/auth/" path).getD path
  ((Url.cut '/' rest).1, if rest.contains '/' then some (Url.cut '/' rest).2 else none)

def realmFromPath (path : Bytes) : Except Problem Realm :=
  let name := (authParts path).1
  if name = [] then
    .error ⟨404, "path-not-found", "auth realm missing", "expected /auth/<realm>/..."⟩
  else match parseRealm name with
    | none => .error ⟨404, "path-not-found", "unknown auth realm", lit "unknown realm: " ++ name⟩
    | some realm => .ok realm

def Handler.verifierFor (h : Handler) (realm : Realm) : Except Problem OidcVerifier :=
  match h.verifiers realm with
  | none => .error ⟨404, "path-not-found", "no verifier for realm",
      lit "no OIDC verifier registered for realm " ++ realm.text⟩
  | some v => .ok v

def isSafeRedirect (target : Bytes) : Bool :=
  (lit "/").isPrefixOf target && !(lit "//").isPrefixOf target

/-- The parameter `next` where it is safe, or the landing path. -/
def Handler.nextOf (h : Handler) (r : AuthRequest) : Bytes :=
  let q := Url.get r.query "next"
  if q ≠ [] && isSafeRedirect q then q else h.redirectAfterLogin

/-! ### Login -/

section Handlers

variable {V : Type} (lib : Lib V) (h : Handler)

def mintProblem (title e : Bytes) : Response := refuse ⟨500, "internal", title, e⟩

def login (r : AuthRequest) : Login Response :=
  match realmFromPath r.path with
  | .error p => .done (refuse p)
  | .ok realm =>
    match h.verifierFor realm with
    | .error p => .done (refuse p)
    | .ok v => .call (.randRead 32) fun
        | .error e => .done (mintProblem "could not mint PKCE verifier" e)
        | .ok verifierBytes => .call (.randRead 32) fun
            | .error e => .done (mintProblem "could not mint state" e)
            | .ok stateBytes => .call (.randRead 32) fun
                | .error e => .done (mintProblem "could not mint nonce" e)
                | .ok nonceBytes => .call .now fun now => .done <|
                    let codeVerifier := Base64.encode verifierBytes
                    let codeChallenge := Base64.encode (lib.sha256 codeVerifier)
                    let state := Base64.encode stateBytes
                    let nonce := Base64.encode nonceBytes
                    match lib.state.marshal
                      ⟨realm.text, state, nonce, codeVerifier, unixSeconds now, h.nextOf r⟩ with
                    | .error e => mintProblem "could not write state cookie" e
                    | .ok body =>
                      ⟨[.state (signStateValue lib.mac h.sessionKey body realm) realm
                        (h.stateTTL / 1000000000)],
                        .redirect (authCodeURL v state nonce codeChallenge)⟩

/-! ### Callback -/

/-- `decodeStateCookie`: the clock is read when the payload has been. -/
def decodeStateCookie (realm : Realm) (cookie : Bytes) : Login (Option StatePayload) :=
  match (verifyStateValue lib.mac h.sessionKey cookie realm).bind lib.state.unmarshal with
  | none => .done none
  | some p => .call .now fun now => .done <|
      if p.issuedAt * 1000000000 + h.stateTTL < now then none else some p

/-- Where a callback sends the browser. -/
def Handler.landing (h : Handler) (p : StatePayload) : Bytes :=
  if p.redirectTo = [] then h.redirectAfterLogin else p.redirectTo

def unauthorized (title detail : Bytes) : Problem := ⟨401, "unauthorized", title, detail⟩

/-- The end of a callback, from the claims on; the state cookie has been cleared. -/
def mintSession (realm : Realm) (p : StatePayload) (claims : Spec V) (now : Int) : Response :=
  let sub := claims.getStr "sub"
  if sub = [] then ⟨[.clearState realm], .problem (unauthorized "id_token missing sub"
    "OIDC id_token has no sub claim")⟩
  else
    let exp := (int64Claim lib claims "exp").getD (unixSeconds (now + 8 * 3600 * 1000000000))
    match Sts.encodeSession lib.mac lib.session h.sessionKey ⟨sub, realm.text, exp, claims⟩ with
    | .error e => ⟨[.clearState realm],
        .problem ⟨500, "internal", "could not encode session", e⟩⟩
    | .ok value => ⟨[.clearState realm, .session value exp], .redirect (h.landing p)⟩

/-- A callback whose state cookie has been read. -/
def redeem (realm : Realm) (v : OidcVerifier) (r : AuthRequest) (p : StatePayload) :
    Login Response :=
  if p.realm ≠ realm.text then .done (refuse (unauthorized "realm mismatch"
    "the OIDC state cookie realm does not match the callback URL"))
  else if Url.get r.query "state" ≠ p.state then .done (refuse (unauthorized "state mismatch"
    "the OIDC ?state= parameter does not match the state cookie"))
  else
    let code := Url.get r.query "code"
    if code = [] then .done ⟨[.clearState realm], .problem ⟨400, "bad-request", "missing code",
      "OIDC callback missing ?code= parameter"⟩⟩
    else exchange lib v realm code p.codeVerifier p.nonce >>= fun
      | none => .done ⟨[.clearState realm], .problem (unauthorized "OIDC exchange failed"
          "OIDC token exchange rejected; restart login")⟩
      | some claims =>
        -- the clock is read only where the claims have no expiry
        if int64Claim lib claims "exp" = none ∧ claims.getStr "sub" ≠ [] then
          .call .now fun now => .done (mintSession lib h realm p claims now)
        else .done (mintSession lib h realm p claims 0)

def callback (r : AuthRequest) : Login Response :=
  match realmFromPath r.path with
  | .error p => .done (refuse p)
  | .ok realm =>
    match h.verifierFor realm with
    | .error p => .done (refuse p)
    | .ok v =>
      match r.stateCookie with
      | none => .done (refuse (unauthorized "missing state cookie"
          "the OIDC state cookie was not sent; restart login"))
      | some cookie => decodeStateCookie lib h realm cookie >>= fun
          | none => .done (refuse (unauthorized "invalid state cookie"
              "the OIDC state cookie failed to decode; restart login"))
          | some p => redeem lib h realm v r p

/-! ### Logout -/

def logout (r : AuthRequest) : Response :=
  match realmFromPath r.path with
  | .error p => refuse p
  | .ok _ => ⟨[.clearSession], .redirect (h.nextOf r)⟩

end Handlers

/-! ### A callback that sets a session cookie -/

/-- A response that sets a session cookie or sends the browser on. -/
def Response.Granted (resp : Response) : Prop :=
  (∃ value expires, .session value expires ∈ resp.cookies) ∨ ∃ url, resp.outcome = .redirect url

theorem not_granted_refuse (p : Problem) : ¬(refuse p).Granted := by
  simp [Response.Granted, refuse]

theorem not_granted_cleared (realm : Realm) (p : Problem) :
    ¬(⟨[.clearState realm], .problem p⟩ : Response).Granted := by
  simp [Response.Granted]

/-- What a callback goes by. -/
structure Flow (V : Type) where
  realm : Realm
  verifier : OidcVerifier
  cookie : Bytes
  body : Bytes
  payload : StatePayload
  readAt : Int
  token : IDToken V
  keys : List Jwk
  pub : PublicKey
  verifiedAt : Int
  session : Session (Spec V)

section Flow

variable {V : Type} (lib : Lib V) (h : Handler) (r : AuthRequest)

/-- The flow is that of this run: what the request has, what was read from it and answered. -/
structure Flow.Ran (evs : List (Event AuthnOp AuthnOp.Ret)) (resp : Response) (f : Flow V) :
    Prop where
  realm : realmFromPath r.path = .ok f.realm
  verifier : h.verifiers f.realm = some f.verifier
  cookie : r.stateCookie = some f.cookie
  body : verifyStateValue lib.mac h.sessionKey f.cookie f.realm = some f.body
  payload : lib.state.unmarshal f.body = some f.payload
  readAt : (⟨.now, f.readAt⟩ : Event AuthnOp AuthnOp.Ret) ∈ evs
  token : ∃ body raw, (⟨.postToken f.verifier.disc.tokenEndpoint
      (tokenForm f.verifier (Url.get r.query "code") f.payload.codeVerifier), some (200, body)⟩ :
      Event AuthnOp AuthnOp.Ret) ∈ evs ∧
    lib.decodeToken body = some raw ∧ readIDToken lib raw = some f.token
  keys : ∃ at_, (⟨.loadJWKS, some (f.keys, at_)⟩ : Event AuthnOp AuthnOp.Ret) ∈ evs
  verifiedAt : (⟨.now, f.verifiedAt⟩ : Event AuthnOp AuthnOp.Ret) ∈ evs
  claims : f.session.claims = f.token.claims
  response : ∃ value, Sts.encodeSession lib.mac lib.session h.sessionKey f.session = .ok value ∧
    resp = ⟨[.clearState f.realm, .session value f.session.expiresAt],
      .redirect (h.landing f.payload)⟩

/-- What is checked on every way to the session cookie. -/
structure Flow.Checked (f : Flow V) : Prop where
  fresh : f.readAt ≤ f.payload.issuedAt * 1000000000 + h.stateTTL
  payloadRealm : f.payload.realm = f.realm.text
  state : Url.get r.query "state" = f.payload.state
  key : lookupJWK f.keys f.token.header.kid = some f.pub
  signature : verifySignature lib.crypto f.token.header.alg f.pub f.token.input f.token.sig = true
  audience : audienceIs (f.token.claims.get "aud") f.verifier.clientID = true
  unexpired : ∃ exp, int64Claim lib f.token.claims "exp" = some exp ∧ unixSeconds f.verifiedAt < exp
  nonce : f.token.claims.getStr "nonce" = f.payload.nonce
  issuer : f.token.claims.getStr "iss" = f.verifier.disc.issuer
  sub : f.token.claims.getStr "sub" ≠ []
  subject : f.session.subject = f.token.claims.getStr "sub"
  realm : f.session.realm = f.realm.text

/-- The state cookie was written under this key for this realm, and the signature is valid for its
algorithm. -/
structure Flow.Complete (f : Flow V) : Prop extends f.Checked lib h r where
  produced : ∃ p body, lib.state.marshal p = .ok body ∧
    f.cookie = signStateValue lib.mac h.sessionKey body f.realm
  valid : JoseValid lib.crypto f.token.header.alg f.pub f.token.input f.token.sig

variable {lib h r} {realm : Realm} {p : StatePayload} {evs : List (Event AuthnOp AuthnOp.Ret)}

theorem decodeStateCookie_fed {cookie : Bytes}
    (hrun : (decodeStateCookie lib h realm cookie).Fed evs (.done (some p))) :
    ∃ body now, verifyStateValue lib.mac h.sessionKey cookie realm = some body ∧
      lib.state.unmarshal body = some p ∧ evs = [⟨.now, now⟩] ∧
      now ≤ p.issuedAt * 1000000000 + h.stateTTL := by
  unfold decodeStateCookie at hrun
  split at hrun
  · simp at hrun
  rename_i p' hp
  obtain ⟨body, hbody, hunmarshal⟩ := Option.bind_eq_some_iff.mp hp
  obtain ⟨now, rest, rfl, h₁⟩ := fed_call_done.mp hrun
  obtain ⟨rfl, hdone⟩ := fed_done.mp h₁
  split at hdone
  · cases hdone
  · next hfresh =>
      cases hdone
      exact ⟨body, now, hbody, hunmarshal, rfl, not_lt.mp hfresh⟩

theorem mintSession_granted {claims : Spec V} {now : Int}
    (hg : (mintSession lib h realm p claims now).Granted) :
    claims.getStr "sub" ≠ [] ∧ ∃ value expires,
      Sts.encodeSession lib.mac lib.session h.sessionKey
        ⟨claims.getStr "sub", realm.text, expires, claims⟩ = .ok value ∧
      mintSession lib h realm p claims now =
        ⟨[.clearState realm, .session value expires], .redirect (h.landing p)⟩ := by
  simp only [mintSession] at hg ⊢
  split at hg
  · exact absurd hg (not_granted_cleared _ _)
  rename_i hsub
  rw [if_neg hsub]
  split at hg
  · exact absurd hg (not_granted_cleared _ _)
  · next value hvalue => exact ⟨hsub, value, _, hvalue, rfl⟩

theorem redeem_granted {v : OidcVerifier} {resp : Response}
    (hrun : (redeem lib h realm v r p).Fed evs (.done resp)) (hg : resp.Granted) :
    p.realm = realm.text ∧ Url.get r.query "state" = p.state ∧
      ∃ evs₁ evs₂ claims value expires, evs = evs₁ ++ evs₂ ∧
        (exchange lib v realm (Url.get r.query "code") p.codeVerifier p.nonce).Fed evs₁
          (.done (some claims)) ∧
        claims.getStr "sub" ≠ [] ∧
        Sts.encodeSession lib.mac lib.session h.sessionKey
          ⟨claims.getStr "sub", realm.text, expires, claims⟩ = .ok value ∧
        resp = ⟨[.clearState realm, .session value expires], .redirect (h.landing p)⟩ := by
  unfold redeem at hrun
  split at hrun
  · exact absurd (hrun.ended ▸ hg) (not_granted_refuse _)
  rename_i hrealm
  split at hrun
  · exact absurd (hrun.ended ▸ hg) (not_granted_refuse _)
  rename_i hstate
  dsimp only at hrun
  split at hrun
  · exact absurd (hrun.ended ▸ hg) (not_granted_cleared _ _)
  obtain ⟨evs₁, evs₂, o, rfl, h₁, h₂⟩ := hrun.bind_done
  refine ⟨not_not.mp hrealm, not_not.mp hstate, evs₁, evs₂, ?_⟩
  cases o with
  | none => exact absurd (h₂.ended ▸ hg) (not_granted_cleared _ _)
  | some claims =>
    obtain ⟨now, hresp⟩ : ∃ now, resp = mintSession lib h realm p claims now := by
      dsimp only at h₂
      split at h₂
      · obtain ⟨now, rest, rfl, h₃⟩ := fed_call_done.mp h₂
        exact ⟨now, h₃.ended⟩
      · exact ⟨0, h₂.ended⟩
    rw [hresp] at hg ⊢
    obtain ⟨hsub, value, expires, hencode, hminted⟩ := mintSession_granted hg
    exact ⟨claims, value, expires, rfl, h₁, hsub, hencode, hminted⟩

/-- **What a callback that grants a session has checked.** -/
theorem callback_granted {resp : Response} (hrun : (callback lib h r).Fed evs (.done resp))
    (hg : resp.Granted) : ∃ f : Flow V, f.Ran lib h r evs resp ∧ f.Checked lib h r := by
  have ended {evs : List (Event AuthnOp AuthnOp.Ret)} {p : Problem}
      (hd : Fed (.done (refuse p)) evs (.done resp)) : False := by
    rw [hd.ended] at hg
    exact not_granted_refuse _ hg
  unfold callback at hrun
  split at hrun
  · exact (ended hrun).elim
  rename_i realm hrealm
  split at hrun
  · exact (ended hrun).elim
  rename_i v hv
  have hverifier : h.verifiers realm = some v := by
    unfold Handler.verifierFor at hv
    split at hv
    · cases hv
    · next v' hv' =>
        cases hv
        exact hv'
  split at hrun
  · exact (ended hrun).elim
  rename_i cookie hcookie
  obtain ⟨evs₁, evs₂, o, rfl, h₁, h₂⟩ := hrun.bind_done
  cases o with
  | none => exact (ended h₂).elim
  | some p =>
    obtain ⟨body, readAt, hbody, hpayload, rfl, hfresh⟩ := decodeStateCookie_fed h₁
    obtain ⟨hprealm, hstate, evs₃, evs₄, claims, value, expires, rfl, hex, hsub,
      hencode, hresp⟩ := redeem_granted h₂ hg
    obtain ⟨answer, raw, t, keys, at_, pub, now, -, hr⟩ := exchange_fed hex
    obtain ⟨-, haud, hexp, hnonce⟩ :=
      (verifyStandardClaims_iff hr.nonce_ne).mp hr.standard
    obtain rfl := hr.claims
    have later {ev : Event AuthnOp AuthnOp.Ret} (hev : ev ∈ evs₃) :
        ev ∈ [⟨.now, readAt⟩] ++ (evs₃ ++ evs₄) :=
      mem_append_right _ (mem_append_left _ hev)
    refine ⟨⟨realm, v, cookie, body, p, readAt, t, keys, pub, now,
      ⟨t.claims.getStr "sub", realm.text, expires, t.claims⟩⟩, ?_, ?_⟩
    · exact {
        realm := hrealm
        verifier := hverifier
        cookie := hcookie
        body := hbody
        payload := hpayload
        readAt := by simp
        token := ⟨answer, raw, later hr.answered, hr.token, hr.read⟩
        keys := ⟨at_, later hr.loaded⟩
        verifiedAt := later hr.clock
        claims := rfl
        response := ⟨value, hencode, hresp⟩ }
    · exact {
        fresh := hfresh
        payloadRealm := hprealm
        state := hstate
        key := hr.key
        signature := hr.signed
        audience := haud
        unexpired := hexp
        nonce := hnonce
        issuer := hr.issuer
        sub := hsub
        subject := rfl
        realm := rfl }

end Flow

/-- **A callback that sets a session cookie ran a complete and matching flow exactly when the state
cookie is spelled as it was written and the signature conforms to its algorithm**; all else is
checked.  HMAC is unforgeable: the message of an accepted state cookie was MACed for something
issued. -/
theorem callback_complete_iff {V : Type} (lib : Lib V) (tjson : Sts.TokenJson)
    (hjson : ObjectJson tjson lib.session lib.state) (h : Handler) (r : AuthRequest)
    (evs : List (Event AuthnOp AuthnOp.Ret)) (resp : Response)
    (hrun : (callback lib h r).Fed evs (.done resp)) (value : Bytes) (expires : Int)
    (hset : SetCookie.session value expires ∈ resp.cookies)
    (hmac : ∀ cookie m, r.stateCookie = some cookie →
      Accepts lib.mac tjson lib.session h.sessionKey .state cookie m →
      ∃ k y, Issued lib.mac tjson lib.session lib.state h.sessionKey k y m) :
    ∃ f : Flow V, f.Ran lib h r evs resp ∧ f.Checked lib h r ∧
      (f.Complete lib h r ↔ StateSpelled f.cookie ∧
        Conforms lib.crypto f.token.header.alg f.pub f.token.input f.token.sig) := by
  obtain ⟨f, hran, hchecked⟩ := callback_granted hrun (.inl ⟨value, expires, hset⟩)
  have hproduced := state_produced_iff hjson hran.body (hmac _ _ hran.cookie (.state hran.body))
  have hvalid := joseValid_iff hchecked.signature
  refine ⟨f, hran, hchecked, ?_⟩
  constructor
  · intro hc
    exact ⟨hproduced.mp hc.produced, hvalid.mp hc.valid⟩
  · rintro ⟨hspelled, hconforms⟩
    exact ⟨hchecked, hproduced.mpr hspelled, hvalid.mpr hconforms⟩

/-! ### A login -/

def demoClaims : Spec Int :=
  some [("iss", .str "i"), ("aud", .str "c"), ("exp", .num 900), ("nonce", .str "n"),
    ("sub", .str "alice")]

def demoPayload : StatePayload := ⟨"ops", "s", "n", "cv", 0, "/"⟩

/-- Primitives that tell the hashes apart; an elliptic signature is valid over SHA-256 only. -/
def demoCrypto : Crypto where
  hashSum := fun
    | .sha256, _ => [1]
    | .sha384, _ => [2]
    | .sha512, _ => [3]
  verifyPKCS1v15 := fun _ _ _ digest _ => digest = [1]
  ecdsaVerify := fun _ _ _ digest _ _ => digest = [1]

def demoLib : Lib Int where
  mac := fun _ _ => [0]
  crypto := demoCrypto
  sha256 := id
  int64 := id
  unmarshalHeader := fun b => some ⟨b, "k"⟩
  unmarshalClaims := fun _ => some demoClaims
  decodeToken := some
  decodeJWKS := fun _ => none
  decodeDiscovery := fun _ => none
  session := ⟨fun _ => .ok "\x7b\x7d", fun _ => none⟩
  state := ⟨fun _ => .ok "\x7b\x7d", fun _ => some demoPayload⟩

def demoVerifier : OidcVerifier where
  realm := .ops
  clientID := "c"
  clientSecret := []
  redirectURL := "r"
  disc := ⟨⟨"i", "a", "t", "j"⟩, by decide, by decide, by decide, by decide⟩
  clientID_ne := by decide

def demoHandler : Handler where
  verifiers := fun
    | .ops => some demoVerifier
    | .customer => none
  sessionKey := "k"
  redirectAfterLogin := "/"
  stateTTL := 1
  sessionKey_ne := by decide
  redirectAfterLogin_ne := by decide
  stateTTL_pos := by decide

def demoRequest (cookie : Bytes) : AuthRequest :=
  ⟨"/auth/ops/callback", [("state", "s"), ("code", "x")], some cookie⟩

def rsaKeys : List Jwk := [⟨"RSA", "k", "AQ", "AQ", [], [], []⟩]

def ecKeys : List Jwk := [⟨"EC", "k", [], [], "P-384", "AQ", "AQ"⟩]

def demoEvents (keys : List Jwk) (raw : Bytes) : List (Event AuthnOp AuthnOp.Ret) :=
  [⟨.now, (0 : Int)⟩, ⟨.postToken "t" (tokenForm demoVerifier "x" "cv"), some (200, raw)⟩,
    ⟨.loadJWKS, some (keys, 0)⟩, ⟨.now, (0 : Int)⟩, ⟨.loadJWKS, some (keys, 0)⟩, ⟨.now, (0 : Int)⟩]

def demoSession : Bytes := Sts.stamp (demoLib.mac "k") Sts.sessionCookieVersion "e30"

def demoResponse : Response := ⟨[.clearState .ops, .session demoSession 900], .redirect "/"⟩

def rsaToken : Bytes := Base64.encode (lit "RS256") ++ lit ".AA.AA"

def ecToken : Bytes :=
  Base64.encode (lit "ES384") ++ lit ".AA." ++ List.replicate 128 ('A' : UInt8)

theorem demo_rsa (cookie : Bytes) (hc : cookie = "e30.AA.ops" ∨ cookie = "e30.AB.ops") :
    (callback demoLib demoHandler (demoRequest cookie)).Fed (demoEvents rsaKeys rsaToken)
      (.done demoResponse) := by
  rcases hc with rfl | rfl
  all_goals exact .cons (.cons (.cons (.cons (.cons (.cons (.nil _))))))

theorem demo_ec : (callback demoLib demoHandler (demoRequest "e30.AA.ops")).Fed
    (demoEvents ecKeys ecToken) (.done demoResponse) := by
  exact .cons (.cons (.cons (.cons (.cons (.cons (.nil _))))))

theorem demo_objects : ObjectJson emptyTokenJson demoLib.session demoLib.state where
  session := by
    rintro s p ⟨⟩
    rfl
  state := by
    rintro p b ⟨⟩
    rfl
  claims := emptyJson_object.claims
  header := emptyJson_object.header

theorem demo_unforged {cookie m : Bytes} (hc : cookie = "e30.AA.ops" ∨ cookie = "e30.AB.ops")
    (h : Accepts demoLib.mac emptyTokenJson demoLib.session demoHandler.sessionKey
      .state cookie m) :
    ∃ k y, Issued demoLib.mac emptyTokenJson demoLib.session demoLib.state demoHandler.sessionKey
      k y m := by
  obtain ⟨p, hp⟩ : ∃ p, demoLib.state.marshal p = .ok (lit "\x7b\x7d") := ⟨demoPayload, rfl⟩
  cases h with
  | @state x body realm h =>
    have hbody : body = lit "\x7b\x7d" := by
      rcases hc with rfl | rfl
      all_goals cases realm <;> cases h
      all_goals rfl
    rw [hbody]
    exact ⟨_, _, .state realm hp⟩

def tokenAnswer : Event AuthnOp AuthnOp.Ret → Option (Nat × Bytes)
  | ⟨.postToken _ _, answer⟩ => answer
  | _ => none

def cacheAnswer : Event AuthnOp AuthnOp.Ret → Option (List Jwk × Int)
  | ⟨.loadJWKS, answer⟩ => answer
  | _ => none

theorem demo_flow {keys : List Jwk} {raw cookie : Bytes} {t : IDToken Int} {f : Flow Int}
    (ht : readIDToken demoLib raw = some t)
    (hran : f.Ran demoLib demoHandler (demoRequest cookie) (demoEvents keys raw) demoResponse) :
    f.token = t ∧ f.keys = keys := by
  obtain ⟨body, raw', hmem, hraw, hread⟩ := hran.token
  obtain ⟨at_, hload⟩ := hran.keys
  have hbody := mem_map_of_mem (f := tokenAnswer) hmem
  have hkeys := mem_map_of_mem (f := cacheAnswer) hload
  simp only [demoEvents, map_cons, map_nil, tokenAnswer, cacheAnswer, mem_cons,
    reduceCtorEq, Option.some.injEq, Prod.mk.injEq, true_and, false_or, or_false, not_mem_nil,
    or_self] at hbody hkeys
  subst hbody
  have hsame : raw' = body := (Option.some.inj hraw).symm
  rw [hsame, ht] at hread
  exact ⟨(Option.some.inj hread).symm, hkeys.1⟩

/-- A login with an `RS256` token runs a complete flow. -/
theorem demo_complete : ∃ f : Flow Int,
    f.Ran demoLib demoHandler (demoRequest "e30.AA.ops") (demoEvents rsaKeys rsaToken)
      demoResponse ∧ f.Complete demoLib demoHandler (demoRequest "e30.AA.ops") := by
  obtain ⟨f, hran, -, hiff⟩ := callback_complete_iff demoLib emptyTokenJson demo_objects demoHandler
    (demoRequest "e30.AA.ops") _ _ (demo_rsa _ (.inl rfl)) demoSession 900 (by decide)
    (by
      rintro cookie m ⟨⟩ h
      exact demo_unforged (.inl rfl) h)
  have hcookie : f.cookie = "e30.AA.ops" := (Option.some.inj hran.cookie).symm
  refine ⟨f, hran, hiff.mpr ⟨?_, ?_⟩⟩
  · rw [hcookie]
    obtain ⟨first, second, hsealed⟩ := verifyStateValue_sealed (show verifyStateValue demoLib.mac
      "k" "e30.AA.ops" .ops = some (lit "\x7b\x7d") by decide)
    exact hsealed.eq_sign_iff.mp (by decide)
  · rw [(demo_flow rfl hran).1]
    trivial

/-- With a respelled state cookie, or an `ES384` token signed over SHA-256, the session cookie is
set. -/
theorem incomplete_callbacks :
    (∃ f : Flow Int, f.Ran demoLib demoHandler (demoRequest "e30.AB.ops")
        (demoEvents rsaKeys rsaToken) demoResponse ∧
      (callback demoLib demoHandler (demoRequest "e30.AB.ops")).Fed (demoEvents rsaKeys rsaToken)
        (.done demoResponse) ∧
      ¬f.Complete demoLib demoHandler (demoRequest "e30.AB.ops")) ∧
    (∃ f : Flow Int, f.Ran demoLib demoHandler (demoRequest "e30.AA.ops")
        (demoEvents ecKeys ecToken) demoResponse ∧
      (callback demoLib demoHandler (demoRequest "e30.AA.ops")).Fed (demoEvents ecKeys ecToken)
        (.done demoResponse) ∧
      ¬f.Complete demoLib demoHandler (demoRequest "e30.AA.ops")) := by
  have hset : demoResponse.Granted := .inr ⟨_, rfl⟩
  constructor
  · obtain ⟨f, hran, -⟩ := callback_granted (demo_rsa _ (.inr rfl)) hset
    refine ⟨f, hran, demo_rsa _ (.inr rfl), ?_⟩
    intro hc
    obtain ⟨p, b, hb, hcookie⟩ := hc.produced
    cases hb
    rw [← Option.some.inj hran.cookie] at hcookie
    revert hcookie
    cases f.realm <;> decide
  · obtain ⟨f, hran, hchecked⟩ := callback_granted demo_ec hset
    refine ⟨f, hran, demo_ec, ?_⟩
    intro hc
    obtain ⟨htoken, hkeys⟩ := demo_flow rfl hran
    have hpub := hchecked.key
    rw [htoken, hkeys] at hpub
    have hvalid := hc.valid
    rw [htoken, ← Option.some.inj hpub] at hvalid
    -- over its own digest the signature is not valid
    exact absurd hvalid.2.2 (by decide)

end Cios.Authn
