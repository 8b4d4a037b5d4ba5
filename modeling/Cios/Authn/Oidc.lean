import Cios.Authn.Cookies
import Cios.Store.Operations
import Cios.Support.Interleave
import Cios.Support.Url

/-!
# Login — the OIDC verifier

How a realm's verifier redeems a code (`pkg/authn/oidc.go`): it posts the code to the token
endpoint, takes the id token of the answer, looks up the key the header names in the realm's key
set, which is fetched anew when it is an hour old, and checks the signature and the standard claims.
The primitives and the JSON codecs are parameters (`Lib`).

The signature check takes every `ES*` algorithm over the SHA-256 digest and on any curve;
`JoseValid` is what the names mean.
-/

namespace Cios.Authn
open Text Effect List Prog
open Cios.Store (Json Spec)
open Cios.Sts (SessionJson)

/-! ### Keys and signatures -/

inductive Curve where
  | p256
  | p384
  | p521
deriving DecidableEq, Repr

inductive Hash where
  | sha256
  | sha384
  | sha512
deriving DecidableEq, Repr

inductive PublicKey where
  | rsa (n : Nat) (e : UInt64)
  | ec (curve : Curve) (x y : Nat)
deriving DecidableEq, Repr

structure Jwk where
  kty : Bytes
  kid : Bytes
  n : Bytes
  e : Bytes
  crv : Bytes
  x : Bytes
  y : Bytes
deriving DecidableEq, Repr

def bigInt (b : Bytes) : Nat := b.foldl (fun n c => n * 256 + c.toNat) 0

def parseCurve (s : Bytes) : Option Curve :=
  if s = "P-256" then some .p256 else if s = "P-384" then some .p384
  else if s = "P-521" then some .p521 else none

def Jwk.publicKey (k : Jwk) : Option PublicKey :=
  if k.kty = "RSA" then do
    let nBytes ← Base64.decode k.n
    let eBytes ← Base64.decode k.e
    -- an `int`: what is shifted out is lost
    let e : UInt64 := eBytes.foldl (fun e c => e <<< 8 ||| c.toUInt64) 0
    if e = 0 then none else some (.rsa (bigInt nBytes) e)
  else if k.kty = "EC" then do
    let curve ← parseCurve k.crv
    let x ← Base64.decode k.x
    let y ← Base64.decode k.y
    some (.ec curve (bigInt x) (bigInt y))
  else none

def lookupJWK (keys : List Jwk) (kid : Bytes) : Option PublicKey :=
  match keys.find? (·.kid = kid) with
  | none => none
  | some k => k.publicKey

inductive Alg where
  | rs (h : Hash)
  | es (h : Hash)
deriving DecidableEq, Repr

def parseAlg (s : Bytes) : Option Alg :=
  if s = "RS256" then some (.rs .sha256) else if s = "RS384" then some (.rs .sha384)
  else if s = "RS512" then some (.rs .sha512) else if s = "ES256" then some (.es .sha256)
  else if s = "ES384" then some (.es .sha384) else if s = "ES512" then some (.es .sha512) else none

/-- The bytes of each half of an `ES*` signature. -/
def Hash.size : Hash → Nat
  | .sha256 => 32
  | .sha384 => 48
  | .sha512 => 66

/-- The curve of the `ES*` algorithm with this hash. -/
def Hash.curve : Hash → Curve
  | .sha256 => .p256
  | .sha384 => .p384
  | .sha512 => .p521

structure Crypto where
  hashSum : Hash → Bytes → Bytes
  verifyPKCS1v15 : Nat → UInt64 → Hash → Bytes → Bytes → Bool
  ecdsaVerify : Curve → Nat → Nat → Bytes → Nat → Nat → Bool

/-- The check of the primitive for an `ES*` signature over a digest. -/
def Crypto.verifyES (c : Crypto) (h : Hash) (curve : Curve) (x y : Nat) (digest sig : Bytes) :
    Bool :=
  c.ecdsaVerify curve x y digest (bigInt (sig.take h.size)) (bigInt (sig.drop h.size))

/-- The digest of an `ES*` signature is SHA-256 whatever the algorithm. -/
def verifySignature (c : Crypto) (alg : Bytes) (pub : PublicKey) (input sig : Bytes) : Bool :=
  match parseAlg alg, pub with
  | some (.rs h), .rsa n e => c.verifyPKCS1v15 n e h (c.hashSum h input) sig
  | some (.es h), .ec curve x y =>
    sig.length = 2 * h.size && c.verifyES h curve x y (c.hashSum .sha256 input) sig
  | _, _ => false

/-- A signature as its algorithm is defined. -/
def JoseValid (c : Crypto) (alg : Bytes) (pub : PublicKey) (input sig : Bytes) : Prop :=
  match parseAlg alg, pub with
  | some (.rs h), .rsa n e => c.verifyPKCS1v15 n e h (c.hashSum h input) sig = true
  | some (.es h), .ec curve x y =>
    curve = h.curve ∧ sig.length = 2 * h.size ∧
      c.verifyES h curve x y (c.hashSum h input) sig = true
  | _, _ => False

/-- An `ES*` signature is on the algorithm's own curve, and over its own digest too. -/
def Conforms (c : Crypto) (alg : Bytes) (pub : PublicKey) (input sig : Bytes) : Prop :=
  match parseAlg alg, pub with
  | some (.es h), .ec curve x y =>
    curve = h.curve ∧
      (h ≠ .sha256 → c.verifyES h curve x y (c.hashSum h input) sig = true)
  | _, _ => True

theorem joseValid_iff {c : Crypto} {alg input sig : Bytes} {pub : PublicKey}
    (h : verifySignature c alg pub input sig = true) :
    JoseValid c alg pub input sig ↔ Conforms c alg pub input sig := by
  simp only [verifySignature] at h
  simp only [JoseValid, Conforms]
  cases halg : parseAlg alg with
  | none => simp [halg] at h
  | some a =>
    cases a with
    | rs hash =>
      cases pub with
      | rsa n e =>
        simp only [halg] at h
        exact iff_of_true h trivial
      | ec curve x y => simp [halg] at h
    | es hash =>
      cases pub with
      | rsa n e => simp [halg] at h
      | ec curve x y =>
        obtain ⟨hlen, hver⟩ : sig.length = 2 * hash.size ∧
            c.verifyES hash curve x y (c.hashSum .sha256 input) sig = true := by
          simpa [halg] using h
        constructor
        · rintro ⟨hcurve, -, hown⟩
          exact ⟨hcurve, fun _ => hown⟩
        rintro ⟨hcurve, hown⟩
        refine ⟨hcurve, hlen, ?_⟩
        by_cases hh : hash = .sha256
        · subst hh
          exact hver
        · exact hown hh

/-! ### What lies outside -/

structure JwtHeader where
  alg : Bytes
  kid : Bytes
deriving DecidableEq, Repr

structure DiscoveryDoc where
  issuer : Bytes
  authEndpoint : Bytes
  tokenEndpoint : Bytes
  jwksURI : Bytes
deriving DecidableEq, Repr

/-- The primitives and codecs, for numbers `V` in claims. -/
structure Lib (V : Type) where
  mac : Bytes → Bytes → Bytes
  crypto : Crypto
  sha256 : Bytes → Bytes
  /-- The conversion of a `float64`. -/
  int64 : V → Int
  unmarshalHeader : Bytes → Option JwtHeader
  unmarshalClaims : Bytes → Option (Spec V)
  decodeToken : Bytes → Option Bytes
  decodeJWKS : Bytes → Option (List Jwk)
  decodeDiscovery : Bytes → Option DiscoveryDoc
  session : SessionJson (Spec V)
  state : StateJson

/-- The calls of a login: clock, random source, the verifier's cache, and the identity provider. -/
inductive AuthnOp where
  | now
  | randRead (n : Nat)
  | loadJWKS
  | saveJWKS (keys : List Jwk) (at_ : Int)
  | getJWKS (uri : Bytes)
  | getDiscovery (url : Bytes)
  | postToken (endpoint form : Bytes)

abbrev AuthnOp.Ret : AuthnOp → Type
  | .now => Int
  | .randRead _ => Except Bytes Bytes
  | .loadJWKS => Option (List Jwk × Int)
  | .saveJWKS _ _ => Unit
  | .getJWKS _ => Option (Nat × Bytes)
  | .getDiscovery _ => Option (Nat × Bytes)
  | .postToken _ _ => Option (Nat × Bytes)

abbrev Login (α : Type) : Type := Prog AuthnOp AuthnOp.Ret α

/-! ### The verifier -/

/-- A discovery document that `refreshDiscovery` keeps. -/
structure Discovery extends DiscoveryDoc where
  issuer_ne : issuer ≠ []
  authEndpoint_ne : authEndpoint ≠ []
  tokenEndpoint_ne : tokenEndpoint ≠ []
  jwksURI_ne : jwksURI ≠ []

/-- A verifier as `NewOIDCVerifier` returns it; its discovery document is never replaced. -/
structure OidcVerifier where
  realm : Realm
  clientID : Bytes
  clientSecret : Bytes
  redirectURL : Bytes
  disc : Discovery
  clientID_ne : clientID ≠ []

section Verifier

variable {V : Type} (lib : Lib V) (v : OidcVerifier)

def okBody : Option (Nat × Bytes) → Option Bytes
  | some (200, body) => some body
  | _ => none

/-- The body of a fetched key set is decoded and put into the cache. -/
def refreshJWKS (jwksURI : Bytes) : Login (Option Unit) :=
  .call (.getJWKS jwksURI) fun answer =>
    match (okBody answer).bind lib.decodeJWKS with
    | none => .done none
    | some [] => .done none
    | some keys => .call .now fun now => .call (.saveJWKS keys now) fun _ => .done (some ())

def discoveryCacheTTL : Int := 3600 * 1000000000

/-- The cache again, which another login may have filled in the meantime. -/
def cachedJWKS : Login (Option (List Jwk)) :=
  .call .loadJWKS fun cached => .done (cached.map Prod.fst)

def maybeRefreshJWKS : Login (Option (List Jwk)) :=
  .call .loadJWKS fun
    | none => (refreshJWKS lib v.disc.jwksURI).attempt fun _ => cachedJWKS
    | some (_, at_) => .call .now fun now =>
      if now - at_ > discoveryCacheTTL then
        (refreshJWKS lib v.disc.jwksURI).attempt fun _ => cachedJWKS
      else cachedJWKS

def audienceIs (aud : Option (Json V)) (wantAud : Bytes) : Bool :=
  match aud with
  | some (.str a) => a = wantAud
  | some (.arr items) => items.any fun
      | .str a => a = wantAud
      | _ => false
  | _ => false

def int64Claim (claims : Spec V) (name : Bytes) : Option Int :=
  match claims.get name with
  | some (.num x) => some (lib.int64 x)
  | _ => none

def verifyStandardClaims (claims : Spec V) (wantAud wantNonce : Bytes) (now : Int) : Bool :=
  claims.getStr "iss" ≠ [] && audienceIs (claims.get "aud") wantAud &&
    (match int64Claim lib claims "exp" with
      | some exp => now < exp
      | none => false) &&
    (wantNonce = [] || claims.getStr "nonce" = wantNonce)

/-- An id token in its parts, read. -/
structure IDToken (V : Type) where
  input : Bytes
  header : JwtHeader
  claims : Spec V
  sig : Bytes

def readIDToken (raw : Bytes) : Option (IDToken V) :=
  match split '.' raw with
  | [first, second, third] => do
    let headerBytes ← Base64.decode first
    let header ← lib.unmarshalHeader headerBytes
    let payloadBytes ← Base64.decode second
    let claims ← lib.unmarshalClaims payloadBytes
    let sig ← Base64.decode third
    some ⟨first ++ lit "." ++ second, header, claims, sig⟩
  | _ => none

def verifyIDToken (raw nonce : Bytes) : Login (Option (Spec V)) :=
  match readIDToken lib raw with
  | none => .done none
  | some t => (maybeRefreshJWKS lib v).attempt fun keys =>
    match lookupJWK keys t.header.kid with
    | none => .done none
    | some pub =>
      if !verifySignature lib.crypto t.header.alg pub t.input t.sig then .done none
      else .call .now fun now => .done <|
        if verifyStandardClaims lib t.claims v.clientID nonce (Sts.unixSeconds now) then
          some t.claims
        else none

def tokenForm (code codeVerifier : Bytes) : Bytes :=
  Url.encode ([(lit "client_id", v.clientID)] ++
    (if v.clientSecret ≠ [] then [(lit "client_secret", v.clientSecret)] else []) ++
    [(lit "code", code), (lit "code_verifier", codeVerifier),
      (lit "grant_type", lit "authorization_code"), (lit "redirect_uri", v.redirectURL)])

def exchange (realm : Realm) (code codeVerifier nonce : Bytes) : Login (Option (Spec V)) :=
  if realm ≠ v.realm then .done none
  else if code = [] ∨ codeVerifier = [] ∨ nonce = [] then .done none
  else .call (.postToken v.disc.tokenEndpoint (tokenForm v code codeVerifier)) fun answer =>
    match (okBody answer).bind lib.decodeToken with
    | none => .done none
    | some [] => .done none
    | some idToken => (verifyIDToken lib v idToken nonce).attempt fun claims => .done <|
        let iss := claims.getStr "iss"
        if iss ≠ [] ∧ v.disc.issuer ≠ [] ∧ iss ≠ v.disc.issuer then none else some claims

def authCodeURL (state nonce codeChallenge : Bytes) : Bytes :=
  v.disc.authEndpoint ++ lit "?" ++ Url.encode
    [(lit "client_id", v.clientID), (lit "code_challenge", codeChallenge),
      (lit "code_challenge_method", lit "S256"), (lit "nonce", nonce),
      (lit "redirect_uri", v.redirectURL), (lit "response_type", lit "code"),
      (lit "scope", lit "openid"), (lit "state", state)]

variable {lib v}

/-- What a redemption has seen: the answer to the code, the cached key set, and the clock. -/
structure Redeemed (lib : Lib V) (v : OidcVerifier) (code codeVerifier nonce : Bytes)
    (evs : List (Event AuthnOp AuthnOp.Ret)) (claims : Spec V) (body raw : Bytes)
    (t : IDToken V) (keys : List Jwk) (at_ : Int) (pub : PublicKey) (now : Int) : Prop where
  answered : (⟨.postToken v.disc.tokenEndpoint (tokenForm v code codeVerifier), some (200, body)⟩ :
    Event AuthnOp AuthnOp.Ret) ∈ evs
  token : lib.decodeToken body = some raw
  read : readIDToken lib raw = some t
  claims : t.claims = claims
  loaded : (⟨.loadJWKS, some (keys, at_)⟩ : Event AuthnOp AuthnOp.Ret) ∈ evs
  key : lookupJWK keys t.header.kid = some pub
  signed : verifySignature lib.crypto t.header.alg pub t.input t.sig = true
  clock : (⟨.now, now⟩ : Event AuthnOp AuthnOp.Ret) ∈ evs
  standard : verifyStandardClaims lib t.claims v.clientID nonce (Sts.unixSeconds now) = true
  nonce_ne : nonce ≠ []
  issuer : t.claims.getStr "iss" = v.disc.issuer

theorem okBody_eq_some {answer : Option (Nat × Bytes)} {body : Bytes}
    (h : okBody answer = some body) : answer = some (200, body) := by
  unfold okBody at h
  split at h
  · cases h
    rfl
  · cases h

variable {evs : List (Event AuthnOp AuthnOp.Ret)} {claims : Spec V}

theorem cachedJWKS_fed {keys : List Jwk} (h : cachedJWKS.Fed evs (.done (some keys))) :
    ∃ at_, (⟨.loadJWKS, some (keys, at_)⟩ : Event AuthnOp AuthnOp.Ret) ∈ evs := by
  obtain ⟨cached, rest, rfl, h₁⟩ := fed_call_done.mp h
  obtain ⟨rfl, hdone⟩ := fed_done.mp h₁
  obtain ⟨⟨keys', at_⟩, hcached, rfl⟩ := Option.map_eq_some_iff.mp (done.inj hdone).symm
  exact ⟨at_, by simp [hcached]⟩

theorem maybeRefreshJWKS_fed {keys : List Jwk}
    (h : (maybeRefreshJWKS lib v).Fed evs (.done (some keys))) :
    ∃ at_, (⟨.loadJWKS, some (keys, at_)⟩ : Event AuthnOp AuthnOp.Ret) ∈ evs := by
  have refreshed {evs : List (Event AuthnOp AuthnOp.Ret)}
      (h : ((refreshJWKS lib v.disc.jwksURI).attempt fun _ => cachedJWKS).Fed evs
        (.done (some keys))) :
      ∃ at_, (⟨.loadJWKS, some (keys, at_)⟩ : Event AuthnOp AuthnOp.Ret) ∈ evs := by
    obtain ⟨evs₁, evs₂, -, rfl, -, h₂⟩ := h.attempt
    obtain ⟨at_, hmem⟩ := cachedJWKS_fed h₂
    exact ⟨at_, mem_append_right _ hmem⟩
  obtain ⟨cached, rest, rfl, h₁⟩ := fed_call_done.mp h
  cases cached with
  | none =>
    obtain ⟨at_, hmem⟩ := refreshed h₁
    exact ⟨at_, mem_cons_of_mem _ hmem⟩
  | some entry =>
    obtain ⟨now, rest, rfl, h₂⟩ := fed_call_done.mp h₁
    split at h₂
    · obtain ⟨at_, hmem⟩ := refreshed h₂
      exact ⟨at_, mem_cons_of_mem _ (mem_cons_of_mem _ hmem)⟩
    · obtain ⟨at_, hmem⟩ := cachedJWKS_fed h₂
      exact ⟨at_, mem_cons_of_mem _ (mem_cons_of_mem _ hmem)⟩

theorem verifyIDToken_fed {raw nonce : Bytes}
    (h : (verifyIDToken lib v raw nonce).Fed evs (.done (some claims))) :
    ∃ t keys at_ pub now, readIDToken lib raw = some t ∧ t.claims = claims ∧
      (⟨.loadJWKS, some (keys, at_)⟩ : Event AuthnOp AuthnOp.Ret) ∈ evs ∧
      lookupJWK keys t.header.kid = some pub ∧
      verifySignature lib.crypto t.header.alg pub t.input t.sig = true ∧
      (⟨.now, now⟩ : Event AuthnOp AuthnOp.Ret) ∈ evs ∧
      verifyStandardClaims lib t.claims v.clientID nonce (Sts.unixSeconds now) = true := by
  unfold verifyIDToken at h
  split at h
  · simp at h
  rename_i t ht
  obtain ⟨evs₁, evs₂, keys, rfl, h₁, h₂⟩ := h.attempt
  obtain ⟨at_, hload⟩ := maybeRefreshJWKS_fed h₁
  split at h₂
  · simp at h₂
  rename_i pub hpub
  split at h₂
  · simp at h₂
  rename_i hsig
  obtain ⟨now, rest, rfl, h₃⟩ := fed_call_done.mp h₂
  obtain ⟨rfl, hdone⟩ := fed_done.mp h₃
  split at hdone
  · next hstandard =>
      cases hdone
      exact ⟨t, keys, at_, pub, now, ht, rfl, mem_append_left _ hload, hpub,
        by simpa using hsig, by simp, hstandard⟩
  · cases hdone

theorem verifyStandardClaims_iff {wantAud wantNonce : Bytes} {now : Int} (hnonce : wantNonce ≠ []) :
    verifyStandardClaims lib claims wantAud wantNonce now = true ↔
      claims.getStr "iss" ≠ [] ∧ audienceIs (claims.get "aud") wantAud = true ∧
      (∃ exp, int64Claim lib claims "exp" = some exp ∧ now < exp) ∧
      claims.getStr "nonce" = wantNonce := by
  have hexp : (match int64Claim lib claims "exp" with
      | some exp => decide (now < exp)
      | none => false) = true ↔ ∃ exp, int64Claim lib claims "exp" = some exp ∧ now < exp := by
    cases int64Claim lib claims "exp" <;> simp
  simp only [verifyStandardClaims, Bool.and_eq_true, hexp, decide_eq_true_eq, Bool.or_eq_true,
    hnonce,
    false_or, and_assoc]

theorem exchange_fed {realm : Realm} {code codeVerifier nonce : Bytes}
    (h : (exchange lib v realm code codeVerifier nonce).Fed evs (.done (some claims))) :
    ∃ body raw t keys at_ pub now, realm = v.realm ∧
      Redeemed lib v code codeVerifier nonce evs claims body raw t keys at_ pub now := by
  unfold exchange at h
  split at h
  · simp at h
  rename_i hrealm
  split at h
  · simp at h
  rename_i hne
  obtain ⟨answer, rest, rfl, h₁⟩ := fed_call_done.mp h
  split at h₁
  · simp at h₁
  · simp at h₁
  rename_i raw _ hraw
  obtain ⟨body, hbody, hdecode⟩ := Option.bind_eq_some_iff.mp hraw
  cases okBody_eq_some hbody
  obtain ⟨evs₁, evs₂, claims', rfl, h₂, h₃⟩ := h₁.attempt
  obtain ⟨t, keys, at_, pub, now, hread, rfl, hload, hpub, hsig, hnow, hstandard⟩ :=
    verifyIDToken_fed h₂
  obtain ⟨rfl, hdone⟩ := fed_done.mp h₃
  simp only [not_or] at hne
  have hiss := ((verifyStandardClaims_iff hne.2.2).mp hstandard).1
  dsimp only at hdone
  split at hdone
  · cases hdone
  rename_i hissuer
  cases hdone
  refine ⟨body, raw, t, keys, at_, pub, now, not_not.mp hrealm, ?_⟩
  exact {
    answered := by simp
    token := hdecode
    read := hread
    claims := rfl
    loaded := mem_cons_of_mem _ (mem_append_left _ hload)
    key := hpub
    signed := hsig
    clock := mem_cons_of_mem _ (mem_append_left _ hnow)
    standard := hstandard
    nonce_ne := hne.2.2
    issuer := by
      by_contra hother
      exact hissuer ⟨hiss, v.disc.issuer_ne, hother⟩ }

end Verifier

end Cios.Authn
