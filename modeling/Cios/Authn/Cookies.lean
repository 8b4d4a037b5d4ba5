import Cios.Sts.Token

/-!
# Login — what is under the key

The state cookie of a login (`pkg/authn/handler.go`): the JSON of its payload and a MAC over that
JSON and the realm, in base64url, and the realm.  The session cookie (`pkg/authn/session.go`) and
the API token (`pkg/sts/token.go`) are MACed over base64url text.

If all three are under one key, no message that was MACed for one kind is taken by the verifier of
another (`accepts_issued_kind`).  What does it is the JSON: an object begins with a brace, which is
no base64 digit, and its base64 with an `e`, as no realm does.
-/

namespace Cios.Authn
open Text List Base64 Sts
open Cios.Sts (TokenJson TokenClaims SessionJson Session message)

/-! ### Realms -/

inductive Realm where
  | ops
  | customer
deriving DecidableEq, Repr

def Realm.text : Realm → Bytes
  | .ops => "ops"
  | .customer => "customer"

def parseRealm (s : Bytes) : Option Realm :=
  if s = "ops" then some .ops else if s = "customer" then some .customer else none

theorem Realm.dot_not_mem (r : Realm) : ('.' : UInt8) ∉ r.text := by
  cases r <;> decide

/-! ### State cookies -/

structure StatePayload where
  realm : Bytes
  state : Bytes
  nonce : Bytes
  codeVerifier : Bytes
  /-- In seconds. -/
  issuedAt : Int
  redirectTo : Bytes
deriving DecidableEq, Repr

structure StateJson where
  marshal : StatePayload → Except Bytes Bytes
  unmarshal : Bytes → Option StatePayload

def stateMessage (body : Bytes) (realm : Realm) : Bytes := body ++ lit "." ++ realm.text

/-- `strings.SplitN` at dots, for three parts: the last one has the dots that are left. -/
def splitThree (s : Bytes) : Option (Bytes × Bytes × Bytes) :=
  match split '.' s with
  | first :: second :: rest@(_ :: _) => some (first, second, (lit ".").intercalate rest)
  | _ => none

section State

variable (mac : Bytes → Bytes → Bytes)

def signStateValue (key body : Bytes) (realm : Realm) : Bytes :=
  Base64.encode body ++ lit "." ++ Base64.encode (mac key (stateMessage body realm)) ++ lit "." ++
    realm.text

/-- The errors differ, and nobody looks at them. -/
def verifyStateValue (key cookie : Bytes) (realm : Realm) : Option Bytes :=
  match splitThree cookie with
  | none => none
  | some (first, second, third) =>
    if third ≠ realm.text then none
    else do
      let body ← Base64.decode first
      let want ← Base64.decode second
      if want ≠ mac key (stateMessage body realm) then none else some body

variable {mac}

theorem splitThree_eq_some {s first second third : Bytes}
    (h : splitThree s = some (first, second, third)) :
    s = first ++ lit "." ++ second ++ lit "." ++ third ∧
      ∃ rest, split '.' s = first :: second :: rest ∧ (lit ".").intercalate rest = third := by
  unfold splitThree at h
  split at h
  · next a b c rest hsplit =>
      cases h
      refine ⟨?_, c :: rest, hsplit, rfl⟩
      conv_lhs => rw [← dotted_split s, hsplit]
      simp [intercalate]
  · cases h

/-- An accepted state cookie: its segments, and what they say. -/
structure StateSealed (mac : Bytes → Bytes → Bytes) (key x : Bytes) (realm : Realm) (body : Bytes)
    (first second : Bytes) : Prop where
  written : x = first ++ lit "." ++ second ++ lit "." ++ realm.text
  segments : (split '.' x).take 2 = [first, second]
  decoded : Base64.decode first = some body
  tag : Base64.decode second = some (mac key (stateMessage body realm))

theorem verifyStateValue_sealed {key x body : Bytes} {realm : Realm}
    (h : verifyStateValue mac key x realm = some body) :
    ∃ first second, StateSealed mac key x realm body first second := by
  unfold verifyStateValue at h
  split at h
  · cases h
  rename_i first second third hsplit
  obtain ⟨hx, rest, hparts, -⟩ := splitThree_eq_some hsplit
  by_cases hrealm : third = realm.text
  · subst hrealm
    rw [if_neg (not_not_intro rfl)] at h
    obtain ⟨b, hb, h₁⟩ := Option.bind_eq_some_iff.mp h
    obtain ⟨want, hwant, h₂⟩ := Option.bind_eq_some_iff.mp h₁
    split_ifs at h₂ with htag
    cases h₂
    rw [not_not.mp htag] at hwant
    exact ⟨first, second, hx, by rw [hparts]; rfl, hb, hwant⟩
  · rw [if_pos hrealm] at h
    cases h

theorem split_signStateValue (key body : Bytes) (realm : Realm) :
    split '.' (signStateValue mac key body realm) =
      [encode body, encode (mac key (stateMessage body realm)), realm.text] := by
  have hdots : ∀ p ∈ [encode body, encode (mac key (stateMessage body realm)),
      realm.text], ('.' : UInt8) ∉ p := by
    simp [dot_not_mem_encode, realm.dot_not_mem]
  simpa [intercalate, signStateValue] using split_dotted hdots (by simp)

/-- **A state cookie is read back** for the realm it was written for, and for no other. -/
theorem verifyStateValue_signStateValue (key body : Bytes) (realm realm' : Realm) :
    verifyStateValue mac key (signStateValue mac key body realm) realm' =
      if realm = realm' then some body else none := by
  have htext : realm.text = realm'.text ↔ realm = realm' := by
    cases realm <;> cases realm' <;> decide
  simp only [verifyStateValue, splitThree, split_signStateValue, intercalate_singleton, ne_eq,
    htext,
    decode_encode]
  split_ifs with hrealm
  · subst hrealm
    simp
  · rfl

/-- Both base64 segments as they are written. -/
def StateSpelled (x : Bytes) : Prop := ∀ p ∈ (split '.' x).take 2, Base64.Canonical p

/-- An accepted state cookie is the string written for its body exactly when it is spelled like
one. -/
theorem StateSealed.eq_sign_iff {key x body first second : Bytes} {realm : Realm}
    (h : StateSealed mac key x realm body first second) :
    x = signStateValue mac key body realm ↔ StateSpelled x := by
  constructor
  · intro hx p hp
    rw [hx, split_signStateValue] at hp
    rcases mem_cons.mp hp with rfl | hp
    · exact (encode_eq_iff (decode_encode _)).mp rfl
    · cases mem_singleton.mp hp
      exact (encode_eq_iff (decode_encode _)).mp rfl
  · intro hspelled
    have hfirst : encode body = first :=
      (encode_eq_iff h.decoded).mpr (hspelled first (by simp [h.segments]))
    have hsecond : encode (mac key (stateMessage body realm)) = second :=
      (encode_eq_iff h.tag).mpr (hspelled second (by simp [h.segments]))
    rw [signStateValue, hfirst, hsecond]
    exact h.written

end State

/-! ### Three kinds under one key -/

inductive Kind where
  | session
  | state
  | token
deriving DecidableEq, Repr

variable {C : Type} (mac : Bytes → Bytes → Bytes) (tjson : TokenJson) (sjson : SessionJson C)
  (stjson : StateJson) (key : Bytes)

/-- A value that the system issues, and the message it MACs for it. -/
inductive Issued : Kind → Bytes → Bytes → Prop where
  | session {s : Session C} {x : Bytes} (h : Sts.encodeSession mac sjson key s = .ok x) :
      Issued .session x (message x)
  | state {p : StatePayload} {body : Bytes} (realm : Realm) (h : stjson.marshal p = .ok body) :
      Issued .state (signStateValue mac key body realm) (stateMessage body realm)
  | token {iat : Int} {c : TokenClaims} {x : Bytes} (h : Sts.sign mac tjson key iat c = .ok x) :
      Issued .token x (message x)

/-- A string that the verifier of a kind accepts, and the message whose MAC it has checked. -/
inductive Accepts : Kind → Bytes → Bytes → Prop where
  | session {x : Bytes} {now : Int} {s : Session C}
      (h : Sts.decodeSession mac sjson key now x = some s) : Accepts .session x (message x)
  | state {x body : Bytes} {realm : Realm} (h : verifyStateValue mac key x realm = some body) :
      Accepts .state x (stateMessage body realm)
  | token {x : Bytes} {isRevoked : Bytes → Bool} {now clock : Int} {c : TokenClaims}
      (h : Sts.verify mac tjson ⟨key, isRevoked⟩ now clock x = some c) :
      Accepts .token x (message x)

/-- The first byte of a JSON text that is no blank. -/
def opening (b : Bytes) : Option UInt8 :=
  (b.dropWhile fun c : UInt8 => c = ' ' || c = '\t' || c = '\n' || c = '\r').head?

/-- What is used of `encoding/json`: the structs are objects, and a header is an object or
`null`. -/
structure ObjectJson : Prop where
  session : ∀ s p, sjson.marshal s = .ok p → p.head? = some ('\x7b' : UInt8)
  state : ∀ p b, stjson.marshal p = .ok b → b.head? = some ('\x7b' : UInt8)
  claims : ∀ w p, tjson.marshalClaims w = .ok p → p.head? = some ('\x7b' : UInt8)
  header : ∀ b alg, tjson.unmarshalHeader b = some alg →
    opening b = some ('\x7b' : UInt8) ∨ opening b = some ('n' : UInt8)

variable {mac tjson sjson stjson key} {x m : Bytes}

abbrev Object (p : Bytes) : Prop := p.head? = some ('\x7b' : UInt8)

/-! ### Messages -/

theorem head_encode_object {p : Bytes} (h : Object p) :
    (encode p).head? = some ('e' : UInt8) := by
  match p with
  | [] => cases h
  | [a] | [a, b] | a :: b :: c :: rest =>
    cases h
    rfl

theorem encode_object_ne_realm {p : Bytes} (h : Object p) (realm : Realm) :
    encode p ≠ realm.text := by
  intro he
  have hhead := head_encode_object h
  rw [he] at hhead
  revert hhead
  cases realm <;> decide

theorem stateMessage_eq {body first second : Bytes} {realm : Realm} (h : ('.' : UInt8) ∉ second)
    (he : stateMessage body realm = first ++ lit "." ++ second) :
    body = first ∧ realm.text = second := by
  have hsplit (a : Bytes) {b : Bytes} (hb : ('.' : UInt8) ∉ b) :
      split '.' (a ++ lit "." ++ b) = split '.' a ++ [b] := by
    have hdot : a ++ lit "." ++ b = a ++ ('.' : UInt8) :: b :=
      by simp [show lit "." = ['.'] from rfl]
    rw [hdot, split_append_cons]
    exact congrArg _ (splitOn_eq_singleton hb)
  have hs := congrArg (split '.') he
  rw [stateMessage, hsplit body realm.dot_not_mem, hsplit first h] at hs
  obtain ⟨hbody, hrealm⟩ := append_inj' hs rfl
  refine ⟨?_, by simpa using hrealm⟩
  rw [← dotted_split body, hbody, dotted_split]

/-! ### Separation -/

/-- An accepted session cookie has the version, and one segment behind it. -/
theorem accepts_session (h : Accepts mac tjson sjson key .session x m) :
    ∃ second, ('.' : UInt8) ∉ second ∧ m = sessionCookieVersion ++ lit "." ++ second := by
  cases h with
  | session h =>
    obtain ⟨second, third, hsealed⟩ := decodeSession_sealed h
    exact ⟨second, hsealed.dot_not_mem.2, hsealed.message_eq⟩

/-- An accepted state cookie: its body is base64. -/
theorem accepts_state (h : Accepts mac tjson sjson key .state x m) :
    ∃ body realm first, decode first = some body ∧ m = stateMessage body realm := by
  cases h with
  | @state x body realm h =>
    obtain ⟨first, second, hsealed⟩ := verifyStateValue_sealed h
    exact ⟨body, realm, first, hsealed.decoded, rfl⟩

theorem head_of_message {body first second : Bytes} {realm : Realm} (hbody : Object body)
    (h : stateMessage body realm = first ++ lit "." ++ second) : Object first := by
  have hleft : Object (stateMessage body realm) := by
    cases body with
    | nil => cases hbody
    | cons c rest => exact hbody
  rw [h] at hleft
  cases first with
  | nil =>
    revert hleft
    rw [nil_append]
    intro hleft
    cases hleft
  | cons c rest => exact hleft

theorem decode_brace {s : Bytes} (h : Object s) : decode s = none := by
  cases s with
  | nil => cases h
  | cons c rest =>
    cases h
    rfl

section Objects
variable (hjson : ObjectJson tjson sjson stjson)
include hjson

theorem issued_session (h : Issued mac tjson sjson stjson key .session x m) :
    ∃ p, Object p ∧ m = sessionCookieVersion ++ lit "." ++ encode p := by
  cases h with
  | session h =>
    obtain ⟨p, hp, rfl⟩ := encodeSession_marshal h
    exact ⟨p, hjson.session _ _ hp, message_stamp dot_not_mem_sessionCookieVersion
      (dot_not_mem_encode _)⟩

theorem issued_token (h : Issued mac tjson sjson stjson key .token x m) :
    ∃ p, Object p ∧ m = encode tokenHeader ++ lit "." ++ encode p := by
  cases h with
  | token h =>
    obtain ⟨p, hp⟩ := sign_signed h
    refine ⟨p, hjson.claims _ _ hp.marshal, ?_⟩
    rw [hp.written]
    exact message_stamp (dot_not_mem_encode _) (dot_not_mem_encode _)

theorem issued_state (h : Issued mac tjson sjson stjson key .state x m) :
    ∃ body realm, Object body ∧ m = stateMessage body realm := by
  cases h with
  | state realm h => exact ⟨_, realm, hjson.state _ _ h, rfl⟩

/-- An accepted token has a header that is base64 of a JSON text. -/
theorem accepts_token (h : Accepts mac tjson sjson key .token x m) :
    ∃ first second b, ('.' : UInt8) ∉ first ∧ ('.' : UInt8) ∉ second ∧
      m = first ++ lit "." ++ second ∧ decode first = some b ∧
      (opening b = some ('\x7b' : UInt8) ∨ opening b = some ('n' : UInt8)) := by
  cases h with
  | token h =>
    obtain ⟨c', hparse⟩ := verify_parse h
    obtain ⟨first, second, third, b, alg, hsealed, hb, halg⟩ := parse_header hparse
    exact ⟨first, second, b, hsealed.dot_not_mem.1, hsealed.dot_not_mem.2, hsealed.message_eq, hb,
      hjson.header b alg halg⟩

/-- **What one kind is MACed over, no verifier of another kind takes.** -/
theorem accepts_issued_kind {k k' : Kind} {y : Bytes}
    (hissued : Issued mac tjson sjson stjson key k y m)
    (haccepts : Accepts mac tjson sjson key k' x m) : k = k' := by
  have hversion := dot_not_mem_sessionCookieVersion
  have hheader := dot_not_mem_encode tokenHeader
  cases k' with
  | session =>
    obtain ⟨second, hdot, rfl⟩ := accepts_session haccepts
    cases k with
    | session => rfl
    | state =>
      obtain ⟨body, realm, hbody, hm⟩ := issued_state hjson hissued
      have := head_of_message hbody hm.symm
      revert this
      decide
    | token =>
      obtain ⟨p, -, hm⟩ := issued_token hjson hissued
      have := (append_sep_inj hversion hheader hm).1
      revert this
      decide
  | token =>
    obtain ⟨first, second, b, hfirst, hsecond, rfl, hb, hopening⟩ := accepts_token hjson haccepts
    cases k with
    | session =>
      obtain ⟨p, -, hm⟩ := issued_session hjson hissued
      obtain rfl := (append_sep_inj hfirst hversion hm).1
      -- the version decodes to a byte that begins no JSON text
      have hbyte : decode sessionCookieVersion = some [0xBF] := by decide
      rw [hbyte] at hb
      cases hb
      revert hopening
      decide
    | state =>
      obtain ⟨body, realm, hbody, hm⟩ := issued_state hjson hissued
      rw [decode_brace (head_of_message hbody hm.symm)] at hb
      cases hb
    | token => rfl
  | state =>
    obtain ⟨body, realm, first, hbody, rfl⟩ := accepts_state haccepts
    cases k with
    | session =>
      obtain ⟨p, hp, hm⟩ := issued_session hjson hissued
      have := (stateMessage_eq (dot_not_mem_encode p) hm).2
      exact absurd this.symm (encode_object_ne_realm hp realm)
    | token =>
      obtain ⟨p, hp, hm⟩ := issued_token hjson hissued
      have := (stateMessage_eq (dot_not_mem_encode p) hm).2
      exact absurd this.symm (encode_object_ne_realm hp realm)
    | state => rfl

end Objects

/-- **Separation under one key.**  HMAC being unforgeable, the message of an accepted string was
MACed for an issued value; if all of these are of other kinds, nothing is accepted. -/
theorem kinds_separated (hjson : ObjectJson tjson sjson stjson) (k : Kind)
    (issued : Set (Kind × Bytes)) (hkinds : ∀ v ∈ issued, v.1 ≠ k) (x : Bytes)
    (hmac : ∀ m, Accepts mac tjson sjson key k x m →
      ∃ v ∈ issued, Issued mac tjson sjson stjson key v.1 v.2 m) :
    ∀ m, ¬Accepts mac tjson sjson key k x m := by
  intro m haccepts
  obtain ⟨v, hv, hissued⟩ := hmac m haccepts
  exact hkinds v hv (accepts_issued_kind hjson hissued haccepts)

/-- **When an accepted state cookie is one that was written**: exactly as it is spelled, for its
message was MACed, and so for a state cookie. -/
theorem state_produced_iff (hjson : ObjectJson tjson sjson stjson) {x body : Bytes} {realm : Realm}
    (h : verifyStateValue mac key x realm = some body)
    (hmac : ∃ k y, Issued mac tjson sjson stjson key k y (stateMessage body realm)) :
    (∃ p b, stjson.marshal p = .ok b ∧ x = signStateValue mac key b realm) ↔ StateSpelled x := by
  obtain ⟨first, second, hsealed⟩ := verifyStateValue_sealed h
  constructor
  · rintro ⟨p, b, -, hx⟩
    -- the body can be told from the string
    have hfirst : (split '.' x).take 2 =
        [encode b, encode (mac key (stateMessage b realm))] := by
      rw [hx, split_signStateValue]
      rfl
    have hb : decode first = some b := by
      rw [hsealed.segments] at hfirst
      rw [(cons.inj hfirst).1, decode_encode]
    rw [hsealed.decoded] at hb
    cases hb
    exact hsealed.eq_sign_iff.mp hx
  · intro hspelled
    obtain ⟨k, y, hissued⟩ := hmac
    obtain rfl := accepts_issued_kind hjson hissued (.state h)
    obtain ⟨p, b, hp, hb⟩ : ∃ p b, stjson.marshal p = .ok b ∧ b = body := by
      generalize hm : stateMessage body realm = m at hissued
      cases hissued with
      | state realm' hp => exact ⟨_, _, hp, (stateMessage_eq realm'.dot_not_mem hm).1.symm⟩
    subst hb
    exact ⟨p, b, hp, hsealed.eq_sign_iff.mpr hspelled⟩

def emptyTokenJson : TokenJson :=
  ⟨fun _ => .ok "\x7b\x7d",
    fun b => if opening b = some ('\x7b' : UInt8) then some "HS256" else none,
    fun _ => none⟩

def emptySessionJson : SessionJson Unit := ⟨fun _ => .ok "\x7b\x7d", fun _ => none⟩

def emptyStateJson : StateJson := ⟨fun _ => .ok "\x7b\x7d", fun _ => none⟩

theorem emptyJson_object : ObjectJson emptyTokenJson emptySessionJson emptyStateJson where
  session := by
    rintro s p ⟨⟩
    rfl
  state := by
    rintro p b ⟨⟩
    rfl
  claims := by
    rintro w p ⟨⟩
    rfl
  header := by
    intro b alg h
    have hopening : opening b = some ('\x7b' : UInt8) ∧ lit "HS256" = alg := by
      simpa [emptyTokenJson] using h
    exact .inl hopening.1

/-- A session cookie as a token: what it is MACed over was MACed, and it is refused. -/
theorem session_cookie_no_token : ∃ x,
    Sts.encodeSession (fun _ m => m) emptySessionJson "k" ⟨"alice", "ops", 900, ()⟩ = .ok x ∧
      ∀ m, ¬Accepts (fun _ m => m) emptyTokenJson emptySessionJson "k" .token x m := by
  obtain ⟨x, hx⟩ : ∃ x, encodeSession (fun _ m => m) emptySessionJson "k"
      ⟨"alice", "ops", 900, ()⟩ = .ok x := ⟨_, rfl⟩
  refine ⟨x, hx, kinds_separated emptyJson_object .token {(.session, x)} ?_ x ?_⟩
  · rintro v rfl ⟨⟩
  · rintro m (⟨⟩ | ⟨⟩ | h)
    exact ⟨_, rfl, .session hx⟩

end Cios.Authn
