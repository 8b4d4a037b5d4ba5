import Cios.Support.Base64

/-!
# STS — tokens and session cookies

The API token of the security token service (`pkg/sts/token.go`, `pkg/sts/sts.go`) and the session
cookie of the login handler (`pkg/authn/session.go`).  Both are three base64url segments between
dots, the last one the HMAC of the first two as they are spelled; both are read back through
`splitDots`, which drops what follows the third segment.

HMAC-SHA256 and the JSON codecs are parameters.
-/

namespace Cios.Sts
open Text List Option
open Base64 (decode_encode dot_not_mem_encode)

/-! ### Segments -/

/-- `splitDots`, the same in both packages: the segments between dots, at most three of them. -/
def splitDots (s : Bytes) : List Bytes := (split '.' s).take 3

/-- The three segments of a token or a cookie, with the MAC over the first two. -/
def stamp (mac : Bytes → Bytes) (first second : Bytes) : Bytes :=
  first ++ lit "." ++ second ++ lit "." ++ Base64.encode (mac (first ++ lit "." ++ second))

/-! ### API tokens -/

structure TokenClaims where
  subject : Bytes
  realm : Bytes
  audience : Bytes
  scope : List Bytes
  jti : Bytes
  expiry : Int
  tenant : Bytes
  isolationTier : Bytes
  org : Bytes
  sites : List Bytes
deriving DecidableEq, Repr

/-- The claims on the wire, with times in seconds. -/
structure WireClaims where
  sub : Bytes
  realm : Bytes
  aud : Bytes
  scope : List Bytes
  jti : Bytes
  exp : Int
  iat : Int
  tenant : Bytes
  tier : Bytes
  org : Bytes
  sites : List Bytes
deriving DecidableEq, Repr

/-- `encoding/json` at the types of a token; of a header only the algorithm is read. -/
structure TokenJson where
  marshalClaims : WireClaims → Except Bytes Bytes
  unmarshalHeader : Bytes → Option Bytes
  unmarshalClaims : Bytes → Option WireClaims

/-- The JSON of `{Alg: "HS256", Typ: "JWT"}`. -/
def tokenHeader : Bytes := "\x7b\"alg\":\"HS256\",\"typ\":\"JWT\"\x7d"

def unixSeconds (t : Int) : Int := t / 1000000000

/-- The zero time, midnight of the first day of the year 1. -/
def zeroTime : Int := -62135596800 * 1000000000

def wireClaims (iat : Int) (c : TokenClaims) : WireClaims :=
  ⟨c.subject, c.realm, c.audience, c.scope, c.jti, unixSeconds c.expiry, iat, c.tenant,
    c.isolationTier, c.org, c.sites⟩

variable (mac : Bytes → Bytes → Bytes) (json : TokenJson)

def sign (key : Bytes) (iat : Int) (c : TokenClaims) : Except Bytes Bytes :=
  if key = [] then .error "sts: signing key is empty"
  else if c.subject = [] then .error "sts: Subject is empty"
  else if c.realm = [] then .error "sts: Realm is empty"
  else if c.jti = [] then .error "sts: JTI is empty"
  else if c.expiry = zeroTime then .error "sts: Expiry is zero"
  else match json.marshalClaims (wireClaims iat c) with
    | .error e => .error (lit "sts: marshal claims: " ++ e)
    | .ok payload => .ok (stamp (mac key) (Base64.encode tokenHeader) (Base64.encode payload))

/-- `Parse` at the time `now`, in seconds; every failure is `ErrTokenInvalid`. -/
def parse (key : Bytes) (now : Int) (raw : Bytes) : Option TokenClaims :=
  if key = [] then none
  else match splitDots raw with
    | [first, second, third] => do
      let hdrBytes ← Base64.decode first
      let alg ← json.unmarshalHeader hdrBytes
      if alg ≠ "HS256" then none
      else
        let payloadBytes ← Base64.decode second
        let wire ← json.unmarshalClaims payloadBytes
        let sigBytes ← Base64.decode third
        if sigBytes ≠ mac key (first ++ lit "." ++ second) then none
        else if wire.sub = [] || wire.realm = [] || wire.jti = [] then none
        else if wire.exp ≤ now then none
        else some ⟨wire.sub, wire.realm, wire.aud, wire.scope, wire.jti, wire.exp * 1000000000,
          wire.tenant, wire.tier, wire.org, wire.sites⟩
    | _ => none

def realmAllowlist : List Bytes := ["ops", "customer"]

/-- The signing key and the revocation list of an `STS`. -/
structure Service where
  key : Bytes
  isRevoked : Bytes → Bool

/-- `Verify`, with the clock read at `now` by `Parse` and at `clock` by itself. -/
def verify (s : Service) (now clock : Int) (raw : Bytes) : Option TokenClaims :=
  match parse mac json s.key (unixSeconds now) raw with
  | none => none
  | some c =>
    if c.expiry ≤ clock then none
    else if !realmAllowlist.contains c.realm then none
    else if s.isRevoked c.jti then none
    else some c

/-! ### Session cookies -/

/-- A session, with the verified claims of its id token as `C`. -/
structure Session (C : Type) where
  subject : Bytes
  realm : Bytes
  expiresAt : Int
  claims : C

structure SessionJson (C : Type) where
  marshal : Session C → Except Bytes Bytes
  unmarshal : Bytes → Option (Session C)

def sessionCookieVersion : Bytes := "v1"

variable {C : Type} (sjson : SessionJson C)

def encodeSession (key : Bytes) (s : Session C) : Except Bytes Bytes :=
  if key = [] then .error "authn: session key is empty"
  else match sjson.marshal s with
    | .error e => .error (lit "authn: marshal session: " ++ e)
    | .ok payload => .ok (stamp (mac key) sessionCookieVersion (Base64.encode payload))

/-- Every failure is `ErrSessionInvalid`. -/
def decodeSession (key : Bytes) (now : Int) (cookie : Bytes) : Option (Session C) :=
  if key = [] then none
  else match splitDots cookie with
    | [first, second, third] =>
      if first ≠ sessionCookieVersion then none
      else do
        let bodyBytes ← Base64.decode second
        let sigBytes ← Base64.decode third
        if sigBytes ≠ mac key (first ++ lit "." ++ second) then none
        else
          let s ← sjson.unmarshal bodyBytes
          if s.realm ≠ "ops" && s.realm ≠ "customer" then none
          else if s.subject = [] then none
          else if s.expiresAt ≤ now then none
          else some s
    | _ => none

/-! ### What an accepted string is made of -/

/-- The first three segments of a string, the last one a MAC over the others. -/
structure Sealed (mac : Bytes → Bytes) (x first second third : Bytes) : Prop where
  parts : splitDots x = [first, second, third]
  tag : Base64.decode third = some (mac (first ++ lit "." ++ second))

variable {mac json sjson} {key raw x : Bytes} {now clock iat : Int} {c : TokenClaims}

theorem parse_header (h : parse mac json key now raw = some c) :
    ∃ first second third hdr alg, Sealed (mac key) raw first second third ∧
      Base64.decode first = some hdr ∧ json.unmarshalHeader hdr = some alg := by
  unfold parse at h
  split at h
  · cases h
  split at h
  · rename_i first second third hparts
    obtain ⟨hdr, hhdr, h⟩ := bind_eq_some_iff.mp h
    obtain ⟨alg, halg, h⟩ := bind_eq_some_iff.mp h
    split at h
    · cases h
    obtain ⟨payload, -, h⟩ := bind_eq_some_iff.mp h
    obtain ⟨wire, -, h⟩ := bind_eq_some_iff.mp h
    obtain ⟨sig, hsig, h⟩ := bind_eq_some_iff.mp h
    split at h
    · cases h
    · rename_i htag
      rw [not_not.mp htag] at hsig
      exact ⟨first, second, third, hdr, alg, ⟨hparts, hsig⟩, hhdr, halg⟩
  · cases h

theorem parse_sealed (h : parse mac json key now raw = some c) :
    ∃ first second third, Sealed (mac key) raw first second third := by
  obtain ⟨first, second, third, -, -, hsealed, -⟩ := parse_header h
  exact ⟨first, second, third, hsealed⟩

theorem verify_parse {s : Service} (h : verify mac json s now clock raw = some c) :
    ∃ c', parse mac json s.key (unixSeconds now) raw = some c' := by
  unfold verify at h
  split at h
  · cases h
  · rename_i c' hparse
    exact ⟨c', hparse⟩

theorem verify_sealed {s : Service} (h : verify mac json s now clock raw = some c) :
    ∃ first second third, Sealed (mac s.key) raw first second third := by
  obtain ⟨c', hparse⟩ := verify_parse h
  exact parse_sealed hparse

variable {s : Session C}

theorem decodeSession_sealed {cookie : Bytes}
    (h : decodeSession mac sjson key now cookie = some s) :
    ∃ second third, Sealed (mac key) cookie sessionCookieVersion second third := by
  unfold decodeSession at h
  split at h
  · cases h
  split at h
  · rename_i first second third hparts
    split at h
    · cases h
    rename_i hversion
    obtain ⟨body, -, h⟩ := bind_eq_some_iff.mp h
    obtain ⟨sig, hsig, h⟩ := bind_eq_some_iff.mp h
    split at h
    · cases h
    · rename_i htag
      rw [not_not.mp htag] at hsig
      obtain rfl := not_not.mp hversion
      exact ⟨second, third, hparts, hsig⟩
  · cases h

/-- A token that `Sign` wrote: what was checked, and what is written. -/
structure Signed (mac : Bytes → Bytes → Bytes) (json : TokenJson) (key : Bytes) (iat : Int)
    (c : TokenClaims) (payload x : Bytes) : Prop where
  keyed : key ≠ []
  subject : c.subject ≠ []
  realm : c.realm ≠ []
  jti : c.jti ≠ []
  marshal : json.marshalClaims (wireClaims iat c) = .ok payload
  written : x = stamp (mac key) (Base64.encode tokenHeader) (Base64.encode payload)

theorem sign_signed (h : sign mac json key iat c = .ok x) :
    ∃ payload, Signed mac json key iat c payload x := by
  unfold sign at h
  split_ifs at h with hkey hsub hrealm hjti hexpiry
  split at h
  · cases h
  · rename_i payload hmarshal
    cases h
    exact ⟨payload, hkey, hsub, hrealm, hjti, hmarshal, rfl⟩

theorem sign_of_marshal (mac : Bytes → Bytes → Bytes) {payload : Bytes} (hkey : key ≠ [])
    (hsub : c.subject ≠ []) (hrealm : c.realm ≠ []) (hjti : c.jti ≠ [])
    (hexpiry : c.expiry ≠ zeroTime) (h : json.marshalClaims (wireClaims iat c) = .ok payload) :
    sign mac json key iat c =
      .ok (stamp (mac key) (Base64.encode tokenHeader) (Base64.encode payload)) := by
  rw [sign, if_neg hkey, if_neg hsub, if_neg hrealm, if_neg hjti, if_neg hexpiry, h]

theorem sign_eq_ok (h : sign mac json key iat c = .ok x) :
    ∃ payload, x = stamp (mac key) (Base64.encode tokenHeader) (Base64.encode payload) := by
  obtain ⟨payload, hsigned⟩ := sign_signed h
  exact ⟨payload, hsigned.written⟩

theorem encodeSession_marshal (h : encodeSession mac sjson key s = .ok x) :
    ∃ payload, sjson.marshal s = .ok payload ∧
      x = stamp (mac key) sessionCookieVersion (Base64.encode payload) := by
  unfold encodeSession at h
  split_ifs at h
  split at h
  · cases h
  · rename_i payload hmarshal
    cases h
    exact ⟨payload, hmarshal, rfl⟩

theorem encodeSession_eq_ok (h : encodeSession mac sjson key s = .ok x) :
    ∃ payload, x = stamp (mac key) sessionCookieVersion (Base64.encode payload) := by
  obtain ⟨payload, -, hx⟩ := encodeSession_marshal h
  exact ⟨payload, hx⟩

/-! ### Spelling -/

theorem split_dotted {parts : List Bytes} (h : ∀ p ∈ parts, ('.' : UInt8) ∉ p) (hne : parts ≠ []) :
    split '.' ((lit ".").intercalate parts) = parts :=
  splitOn_intercalate _ h hne

theorem dotted_split (s : Bytes) : (lit ".").intercalate (split '.' s) = s :=
  intercalate_splitOn _

/-- What the MAC of a token or a cookie covers. -/
def message (x : Bytes) : Bytes := (lit ".").intercalate ((split '.' x).take 2)

/-- Spelled as it is written: three segments and no more, the last one in canonical base64. -/
def Spelled (x : Bytes) : Prop :=
  (split '.' x).length = 3 ∧ Base64.Canonical ((split '.' x).getD 2 [])

section Stamped
variable {mac : Bytes → Bytes} {first second : Bytes}

theorem stamp_eq : stamp mac first second =
    (lit ".").intercalate
      [first, second, Base64.encode (mac (first ++ lit "." ++ second))] := by
  simp [stamp]

variable (h₁ : ('.' : UInt8) ∉ first) (h₂ : ('.' : UInt8) ∉ second)
include h₁ h₂

theorem split_stamp : split '.' (stamp mac first second) =
    [first, second, Base64.encode (mac (first ++ lit "." ++ second))] := by
  rw [stamp_eq]
  refine split_dotted ?_ (by simp)
  simp only [forall_mem_cons]
  exact ⟨h₁, h₂, dot_not_mem_encode _, by simp⟩

theorem message_stamp : message (stamp mac first second) = first ++ lit "." ++ second := by
  rw [message, split_stamp h₁ h₂]
  simp

theorem spelled_stamp : Spelled (stamp mac first second) := by
  unfold Spelled
  rw [split_stamp h₁ h₂]
  exact ⟨rfl, (Base64.encode_eq_iff (decode_encode _)).mp rfl⟩

theorem sealed_stamp : Sealed mac (stamp mac first second) first second
    (Base64.encode (mac (first ++ lit "." ++ second))) where
  parts := by rw [splitDots, split_stamp h₁ h₂]; rfl
  tag := decode_encode _

theorem split_stamp_segment {more : Bytes} (hmore : ('.' : UInt8) ∉ more) :
    split '.' (stamp mac first second ++ lit "." ++ more) =
      [first, second, Base64.encode (mac (first ++ lit "." ++ second)), more] := by
  have hparts : ∀ p ∈ [first, second, Base64.encode (mac (first ++ lit "." ++ second)), more],
      ('.' : UInt8) ∉ p := by
    simp only [forall_mem_cons]
    exact ⟨h₁, h₂, dot_not_mem_encode _, hmore, by simp⟩
  have := split_dotted hparts (by simp)
  simpa [stamp] using this

theorem split_stamp_lineFeed : split '.' (stamp mac first second ++ lit "\n") =
    [first, second, Base64.encode (mac (first ++ lit "." ++ second)) ++ lit "\n"] := by
  have hparts : ∀ p ∈ [first, second, Base64.encode (mac (first ++ lit "." ++ second)) ++ lit "\n"],
      ('.' : UInt8) ∉ p := by
    simp only [forall_mem_cons, mem_append, not_or]
    exact ⟨h₁, h₂, ⟨dot_not_mem_encode _, by decide⟩, by simp⟩
  have := split_dotted hparts (by simp)
  simpa [stamp] using this

theorem not_spelled_segment {more : Bytes} (hmore : ('.' : UInt8) ∉ more) :
    ¬ Spelled (stamp mac first second ++ lit "." ++ more) := by
  rintro ⟨hlength, -⟩
  rw [split_stamp_segment h₁ h₂ hmore] at hlength
  cases hlength

theorem not_spelled_lineFeed : ¬ Spelled (stamp mac first second ++ lit "\n") := by
  rintro ⟨-, hcanonical, -⟩
  rw [split_stamp_lineFeed h₁ h₂] at hcanonical
  have hbreak := hcanonical '\n' (mem_append_right _ (by decide))
  cases hbreak

end Stamped

section Sealed
variable {mac : Bytes → Bytes} {x first second third : Bytes} (h : Sealed mac x first second third)
include h

theorem Sealed.dot_not_mem : ('.' : UInt8) ∉ first ∧ ('.' : UInt8) ∉ second := by
  have hmem : ∀ p ∈ [first, second, third], ('.' : UInt8) ∉ p := by
    intro p hp
    rw [← h.parts] at hp
    exact not_mem_of_mem_splitOn (mem_of_mem_take hp)
  exact ⟨hmem first (by simp), hmem second (by simp)⟩

theorem Sealed.message_eq : message x = first ++ lit "." ++ second := by
  have htwo : (split '.' x).take 2 = [first, second] := by
    have := congrArg (List.take 2) h.parts
    simpa [splitDots, take_take] using this
  rw [message, htwo]
  simp

theorem Sealed.segments_eq {q₁ q₂ : Bytes} (h₁ : ('.' : UInt8) ∉ q₁)
    (hmessage : message x = q₁ ++ lit "." ++ q₂) : first = q₁ ∧ second = q₂ :=
  append_sep_inj h.dot_not_mem.1 h₁ (h.message_eq.symm.trans hmessage)

end Sealed

/-- A sealed string with a stamped message is the stamped string exactly when it is spelled like
one. -/
theorem Sealed.eq_stamp_iff {mac : Bytes → Bytes} {x first second third q₁ q₂ : Bytes}
    (h : Sealed mac x first second third) (h₁ : ('.' : UInt8) ∉ q₁) (h₂ : ('.' : UInt8) ∉ q₂)
    (hmessage : message x = q₁ ++ lit "." ++ q₂) : x = stamp mac q₁ q₂ ↔ Spelled x := by
  obtain ⟨rfl, rfl⟩ := h.segments_eq h₁ hmessage
  obtain ⟨hparts, htag⟩ := h
  unfold splitDots at hparts
  constructor
  · rintro rfl
    exact spelled_stamp h₁ h₂
  rintro ⟨hlength, hcanonical⟩
  have hsplit : split '.' x = [first, second, third] := by
    rw [← hparts, take_of_length_le hlength.le]
  rw [hsplit] at hcanonical
  have hthird := (Base64.encode_eq_iff htag).mpr hcanonical
  rw [stamp_eq, hthird, ← hsplit, dotted_split]

/-- Among the strings written with one first segment, a sealed string with the message of one is one
exactly when it is spelled so. -/
theorem Sealed.written_iff {mac : Bytes → Bytes} {x first second third q : Bytes}
    {Written : Bytes → Prop} (h : Sealed mac x first second third) (hq : ('.' : UInt8) ∉ q)
    (hstamp : ∀ z, Written z → ∃ payload, z = stamp mac q (Base64.encode payload))
    (hy : ∃ y, Written y ∧ message y = message x) : Written x ↔ Spelled x := by
  have hsame : ∀ z, Written z → message z = message x → (x = z ↔ Spelled x) := by
    intro z hz hm
    obtain ⟨payload, rfl⟩ := hstamp z hz
    rw [message_stamp hq (dot_not_mem_encode _)] at hm
    exact h.eq_stamp_iff hq (dot_not_mem_encode _) hm.symm
  constructor
  · intro hx
    exact (hsame x hx rfl).mp rfl
  · intro hspelled
    obtain ⟨y, hw, hm⟩ := hy
    rw [(hsame y hw hm).mpr hspelled]
    exact hw

/-! ### Malleability -/

theorem dot_not_mem_sessionCookieVersion : ('.' : UInt8) ∉ sessionCookieVersion := by decide

/-- **When a token is not malleable.**  HMAC being unforgeable, the message of an accepted string
was stamped under the key; then an accepted token was written by `Sign`, and an accepted cookie by
`EncodeSession`, exactly when it is spelled like one. -/
theorem written_iff_spelled (mac : Bytes → Bytes → Bytes) (json : TokenJson)
    (sjson : SessionJson C) :
    (∀ s now clock x c, verify mac json s now clock x = some c →
      (∃ y, (∃ iat c', sign mac json s.key iat c' = .ok y) ∧ message y = message x) →
      ((∃ iat c', sign mac json s.key iat c' = .ok x) ↔ Spelled x)) ∧
    (∀ key now x s, decodeSession mac sjson key now x = some s →
      (∃ y, (∃ s', encodeSession mac sjson key s' = .ok y) ∧ message y = message x) →
      ((∃ s', encodeSession mac sjson key s' = .ok x) ↔ Spelled x)) := by
  constructor
  · intro s now clock x c haccept hminted
    obtain ⟨first, second, third, hsealed⟩ := verify_sealed haccept
    refine hsealed.written_iff (dot_not_mem_encode tokenHeader) ?_ hminted
    rintro z ⟨iat, c', hz⟩
    exact sign_eq_ok hz
  · intro key now x s haccept hminted
    obtain ⟨second, third, hsealed⟩ := decodeSession_sealed haccept
    refine hsealed.written_iff dot_not_mem_sessionCookieVersion ?_ hminted
    rintro z ⟨s', hz⟩
    exact encodeSession_eq_ok hz

def operator : TokenClaims :=
  ⟨"alice", "ops", "ops", ["viewer"], "j1", 900000000000, [], [], [], []⟩

def operatorJson : TokenJson where
  marshalClaims := fun w => if w = wireClaims 0 operator then .ok "claims" else .error []
  unmarshalHeader := fun b => if b = tokenHeader then some "HS256" else none
  unmarshalClaims := fun b => if b = "claims" then some (wireClaims 0 operator) else none

def operatorSessionJson : SessionJson Unit where
  marshal := fun _ => .ok "session"
  unmarshal := fun b => if b = "session" then some ⟨"alice", "ops", 900, ()⟩ else none

def operatorToken (mac : Bytes → Bytes → Bytes) : Bytes :=
  stamp (mac "k") (Base64.encode tokenHeader) (Base64.encode "claims")

def operatorCookie (mac : Bytes → Bytes → Bytes) : Bytes :=
  stamp (mac "k") sessionCookieVersion (Base64.encode "session")

variable {mac : Bytes → Bytes → Bytes}

theorem verify_operator {x third : Bytes}
    (h : Sealed (mac "k") x (Base64.encode tokenHeader) (Base64.encode "claims") third) :
    verify mac operatorJson ⟨"k", fun _ => false⟩ 0 0 x = some operator := by
  have hparse : parse mac operatorJson "k" 0 x = some operator := by
    simp only [parse, h.parts, h.tag, bind_eq_bind, bind_some, ne_eq]
    rfl
  unfold verify
  simp only [unixSeconds, Int.zero_ediv, hparse]
  rfl

theorem decodeSession_operator {x third : Bytes}
    (h : Sealed (mac "k") x sessionCookieVersion (Base64.encode "session") third) :
    decodeSession mac operatorSessionJson "k" 0 x = some ⟨"alice", "ops", 900, ()⟩ := by
  simp only [decodeSession, h.parts, h.tag, bind_eq_bind, bind_some, ne_eq]
  rfl

theorem written_operator (mac : Bytes → Bytes → Bytes) :
    (verify mac operatorJson ⟨"k", fun _ => false⟩ 0 0 (operatorToken mac) = some operator ∧
      ∃ iat c, sign mac operatorJson "k" iat c = .ok (operatorToken mac)) ∧
    decodeSession mac operatorSessionJson "k" 0 (operatorCookie mac) =
        some ⟨"alice", "ops", 900, ()⟩ ∧
      ∃ s, encodeSession mac operatorSessionJson "k" s = .ok (operatorCookie mac) := by
  refine ⟨⟨verify_operator (sealed_stamp ?_ ?_), 0, operator, rfl⟩,
    decodeSession_operator (sealed_stamp ?_ ?_), ⟨"alice", "ops", 900, ()⟩, rfl⟩
  · exact dot_not_mem_encode tokenHeader
  · exact dot_not_mem_encode _
  · exact dot_not_mem_sessionCookieVersion
  · exact dot_not_mem_encode _

theorem operator_spelled :
    (∀ mac, Spelled (operatorToken mac)) ∧ ∀ mac, Spelled (operatorCookie mac) := by
  refine ⟨fun mac => ?_, fun mac => ?_⟩
  · have hwritten := (written_operator mac).1
    exact ((written_iff_spelled mac operatorJson operatorSessionJson).1 ⟨"k", fun _ => false⟩ 0 0
      _ _ hwritten.1 ⟨_, hwritten.2, rfl⟩).mp hwritten.2
  · have hwritten := (written_operator mac).2
    exact ((written_iff_spelled mac operatorJson operatorSessionJson).2 "k" 0
      _ _ hwritten.1 ⟨_, hwritten.2, rfl⟩).mp hwritten.2

/-! What is put behind the third segment, or into it, is covered by no MAC. -/

/-- Respelled, both are accepted: the token with one more segment, the cookie with a line feed. -/
theorem respelled_accepted :
    (∀ mac : Bytes → Bytes → Bytes,
      verify mac operatorJson ⟨"k", fun _ => false⟩ 0 0 (operatorToken mac ++ lit "." ++ lit "x") =
        some operator ∧
      message (operatorToken mac ++ lit "." ++ lit "x") = message (operatorToken mac) ∧
      ¬ ∃ iat c, sign mac operatorJson "k" iat c = .ok (operatorToken mac ++ lit "." ++ lit "x")) ∧
    ∀ mac : Bytes → Bytes → Bytes,
      decodeSession mac operatorSessionJson "k" 0 (operatorCookie mac ++ lit "\n") =
        some ⟨"alice", "ops", 900, ()⟩ ∧
      message (operatorCookie mac ++ lit "\n") = message (operatorCookie mac) ∧
      ¬ ∃ s, encodeSession mac operatorSessionJson "k" s =
        .ok (operatorCookie mac ++ lit "\n") := by
  constructor
  · intro mac
    have hheader := dot_not_mem_encode tokenHeader
    have hclaims := dot_not_mem_encode (lit "claims")
    have hx : ('.' : UInt8) ∉ lit "x" := by decide
    unfold operatorToken
    refine ⟨verify_operator ⟨?_, decode_encode _⟩, ?_, ?_⟩
    · rw [splitDots, split_stamp_segment hheader hclaims hx]
      rfl
    · rw [message_stamp hheader hclaims, message, split_stamp_segment hheader hclaims hx]
      simp
    rintro ⟨iat, c, h⟩
    obtain ⟨payload, hwritten⟩ := sign_eq_ok h
    have hspelled : Spelled (stamp (mac "k") _ _) :=
      spelled_stamp hheader (dot_not_mem_encode payload)
    rw [← hwritten] at hspelled
    exact not_spelled_segment hheader hclaims hx hspelled
  · intro mac
    have hversion := dot_not_mem_sessionCookieVersion
    have hsession := dot_not_mem_encode (lit "session")
    unfold operatorCookie
    have htag := (Base64.decode_append_lineBreak (c := '\n') rfl).trans
      (decode_encode (mac "k" (sessionCookieVersion ++ lit "." ++ Base64.encode "session")))
    refine ⟨decodeSession_operator ⟨?_, htag⟩, ?_, ?_⟩
    · rw [splitDots, split_stamp_lineFeed hversion hsession]
      rfl
    · rw [message_stamp hversion hsession, message, split_stamp_lineFeed hversion hsession]
      simp
    rintro ⟨s, h⟩
    obtain ⟨payload, hwritten⟩ := encodeSession_eq_ok h
    have hspelled : Spelled (stamp (mac "k") _ _) :=
      spelled_stamp hversion (dot_not_mem_encode payload)
    rw [← hwritten] at hspelled
    exact not_spelled_lineFeed hversion hsession hspelled

/-- **A session cookie is read back** as its session, while that is valid and no longer. -/
theorem decodeSession_encodeSession {sjson : SessionJson C} {key x : Bytes} {s : Session C}
    (h : encodeSession mac sjson key s = .ok x)
    (hjson : ∀ payload, sjson.marshal s = .ok payload → sjson.unmarshal payload = some s)
    (now : Int) : decodeSession mac sjson key now x =
      if (s.realm = "ops" ∨ s.realm = "customer") ∧ s.subject ≠ [] ∧ now < s.expiresAt then some s
      else none := by
  have hkey : key ≠ [] := by
    rintro rfl
    cases h
  obtain ⟨payload, hmarshal, rfl⟩ := encodeSession_marshal h
  have hsealed := @sealed_stamp (mac key) _ _ dot_not_mem_sessionCookieVersion
    (dot_not_mem_encode payload)
  simp only [decodeSession, if_neg hkey, hsealed.parts, hsealed.tag, decode_encode, bind_eq_bind,
    bind_some, ne_eq, not_true, if_false, hjson payload hmarshal]
  split_ifs <;> grind

theorem decodeSession_encodeSession_operator :
    encodeSession (fun _ m => m) operatorSessionJson "k" ⟨"alice", "ops", 900, ()⟩ =
      .ok (operatorCookie fun _ m => m) ∧ ∀ now,
    decodeSession (fun _ m => m) operatorSessionJson "k" now (operatorCookie fun _ m => m) =
      if now < 900 then some ⟨"alice", "ops", 900, ()⟩ else none := by
  refine ⟨rfl, fun now => ?_⟩
  rw [decodeSession_encodeSession (s := ⟨"alice", "ops", 900, ()⟩) rfl
    (fun _ h => by cases h; rfl) now]
  exact if_congr (by simp [show lit "alice" ≠ [] by decide]) rfl rfl

end Cios.Sts
