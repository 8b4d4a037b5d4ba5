import Cios.Sts.Token
import Cios.Support.Interleave
import Cios.Support.Utf8
import Mathlib.Data.Countable.Basic
import Mathlib.Logic.Equiv.List

/-!
# STS — the life of a token

`Exchange`, `IssueClientCredentials`, `Revoke` and `Verify` (`pkg/sts/sts.go`,
`pkg/sts/client_credentials.go`, `pkg/sts/revoke.go`) as programs over what they share: the random
source, a clock that does not run backwards, and the revocation list.  Any number of calls run side
by side, in any order of their steps.

A token is accepted exactly while it has not expired and its id is not revoked, with the subject,
realm and scope it was minted with; and whatever is accepted is a minted token, respelled at most
(`token_life_cycle`).  Nothing rests on ids being fresh.
-/

namespace Cios.Sts
open Text Effect List Base64 Pool Function Prog Utf8 Option
open Runs (Run)

/-! ### What the calls share -/

inductive StsOp where
  | randRead
  | now
  | isRevoked (jti : Bytes)
  | revoke (jti : Bytes)

abbrev StsOp.Ret : StsOp → Type
  | .randRead => Except Bytes Bytes
  | .now => Int
  | .isRevoked _ => Bool
  | .revoke _ => Unit

/-- The clock, and the entries of a `memRevoker`. -/
structure Shared where
  clock : Int
  revoked : List Bytes

def Shared.Step : (op : StsOp) → Shared → op.Ret → Shared → Prop
  | .randRead, s, _, s' => s' = s
  | .now, s, t, s' => s.clock ≤ t ∧ s' = { s with clock := t }
  | .isRevoked jti, s, b, s' => b = s.revoked.contains jti ∧ s' = s
  | .revoke jti, s, _, s' => s' = { s with revoked := s.revoked.insert jti }

/-! ### The calls -/

structure STS where
  key : Bytes
  ttl : Int

structure ServiceAccount where
  clientID : Bytes
  secretHash : Bytes
  maxScope : List Bytes
  realm : Bytes

def errRealmUnknown : Bytes := "sts: realm not in \x7bops, customer\x7d"

def errBadCredentials : Bytes := "invalid client credentials"

def errScopeExceeded : Bytes := "requested scope exceeds account maximum"

/-- The token, and its lifetime in seconds. -/
abbrev Minted := Except Bytes (Bytes × Int)

variable (mac : Bytes → Bytes → Bytes) (json : TokenJson) (s : STS)

/-- The claims that `Exchange` signs. -/
def STS.claims (sub realm : Bytes) (scope : List Bytes) (jti : Bytes) (now : Int) : TokenClaims :=
  ⟨sub, realm, realm, scope, jti, now + s.ttl, [], [], [], []⟩

/-- `Exchange`; the clock is read for the expiry, and once more by `Sign`. -/
def STS.exchange (sub realm : Bytes) (scope : List Bytes) : Prog StsOp StsOp.Ret Minted :=
  if !realmAllowlist.contains realm then .done (.error errRealmUnknown)
  else if sub = [] then .done (.error "sts: subject is empty")
  else .call .randRead fun
    | .error e => .done (.error (lit "sts: mint jti: " ++ e))
    | .ok b => .call .now fun now => .call .now fun iat => .done <|
        match sign mac json s.key (unixSeconds iat)
          (s.claims sub realm scope (Base64.encode b) now) with
        | .error e => .error (lit "sts: sign: " ++ e)
        | .ok raw => .ok (raw, s.ttl.tdiv 1000000000)

def hashSecret (key secret : Bytes) : Bytes := mac key secret

/-- The realm a client's token is minted for. -/
def ServiceAccount.tokenRealm (a : ServiceAccount) : Bytes :=
  if a.realm = [] then "ops" else a.realm

/-- `IssueClientCredentials`, with the store as its lookup. -/
def STS.issueClientCredentials (store : Option (Bytes → Option ServiceAccount))
    (clientID secret : Bytes) (reqScope : List Bytes) : Prog StsOp StsOp.Ret Minted :=
  match store with
  | none => .done (.error errBadCredentials)
  | some lookup =>
    if clientID = [] ∨ secret = [] then .done (.error errBadCredentials)
    else match lookup clientID with
      | none => .done (.error errBadCredentials)
      | some acct =>
        if acct.secretHash = [] ∨ acct.secretHash ≠ hashSecret mac s.key secret then
          .done (.error errBadCredentials)
        else if !(reqScope.all fun want => acct.maxScope.contains want) then
          .done (.error errScopeExceeded)
        else s.exchange mac json clientID acct.tokenRealm reqScope

/-- `Verify`; the clock is read by `Parse`, and once more after it. -/
def STS.verify (raw : Bytes) : Prog StsOp StsOp.Ret (Option TokenClaims) :=
  .call .now fun now =>
    match parse mac json s.key (unixSeconds now) raw with
    | none => .done none
    | some c => .call .now fun clock =>
      if c.expiry ≤ clock then .done none
      else if !realmAllowlist.contains c.realm then .done none
      else .call (.isRevoked c.jti) fun revoked => .done (if revoked then none else some c)

inductive Call where
  | exchange (sub realm : Bytes) (scope : List Bytes)
  | issueClientCredentials (store : Option (Bytes → Option ServiceAccount))
      (clientID secret : Bytes) (reqScope : List Bytes)
  | revoke (jti : Bytes)
  | verify (raw : Bytes)

inductive Answer where
  | minted (r : Minted)
  | revoked
  | verified (c : Option TokenClaims)

def STS.serve : Call → Prog StsOp StsOp.Ret Answer
  | .exchange sub realm scope =>
    s.exchange mac json sub realm scope >>= fun r => .done (.minted r)
  | .issueClientCredentials store clientID secret reqScope =>
    s.issueClientCredentials mac json store clientID secret reqScope >>= fun r =>
      .done (.minted r)
  | .revoke jti => .call (.revoke jti) fun _ => .done .revoked
  | .verify raw => s.verify mac json raw >>= fun c => .done (.verified c)

/-- The subject, the realm and the scope that a call asks a token for. -/
def Call.grant : Call → Option (Bytes × Bytes × List Bytes)
  | .exchange sub realm scope => some (sub, realm, scope)
  | .issueClientCredentials (some lookup) clientID _ reqScope =>
    (lookup clientID).map fun acct => (clientID, acct.tokenRealm, reqScope)
  | _ => none

/-- The strings a token is asked for are UTF-8. -/
def Call.Utf8 (c : Call) : Prop :=
  ∀ sub realm scope, c.grant = some (sub, realm, scope) →
    Utf8.valid sub = true ∧ ∀ r ∈ scope, Utf8.valid r = true

/-! ### What a token reads back as -/

/-- The claims as they are read back: in UTF-8, and without the time of issue. -/
def WireClaims.coerce (w : WireClaims) : WireClaims :=
  ⟨Utf8.coerce w.sub, Utf8.coerce w.realm, Utf8.coerce w.aud, w.scope.map Utf8.coerce,
    Utf8.coerce w.jti, w.exp, 0, Utf8.coerce w.tenant, Utf8.coerce w.tier, Utf8.coerce w.org,
    w.sites.map Utf8.coerce⟩

/-- `encoding/json` reads back what it wrote, with what is not UTF-8 replaced. -/
structure TokenJson.Lawful (json : TokenJson) : Prop where
  header : json.unmarshalHeader tokenHeader = some "HS256"
  claims : ∀ w : WireClaims, ∃ payload, json.marshalClaims w = .ok payload ∧
    json.unmarshalClaims payload = some w.coerce

def wholeSecond (t : Int) : Int := unixSeconds t * 1000000000

/-- The claims of a token as `Parse` answers them. -/
def TokenClaims.parsed (c : TokenClaims) : TokenClaims :=
  ⟨Utf8.coerce c.subject, Utf8.coerce c.realm, Utf8.coerce c.audience, c.scope.map Utf8.coerce,
    Utf8.coerce c.jti, wholeSecond c.expiry, Utf8.coerce c.tenant, Utf8.coerce c.isolationTier,
    Utf8.coerce c.org, c.sites.map Utf8.coerce⟩

variable {mac json s}

theorem Signed.sealed {key x payload : Bytes} {iat : Int} {c : TokenClaims}
    (h : Signed mac json key iat c payload x) :
    Sealed (mac key) x (encode tokenHeader) (encode payload) (encode
      (mac key (encode tokenHeader ++ lit "." ++ encode payload))) := by
  rw [h.written]
  exact sealed_stamp (dot_not_mem_encode _) (dot_not_mem_encode _)

theorem Signed.parse (hjson : json.Lawful) {key x payload : Bytes} {iat : Int}
    {c : TokenClaims} (h : Signed mac json key iat c payload x) (now : Int) :
    parse mac json key now x = if unixSeconds c.expiry ≤ now then none else some c.parsed := by
  obtain ⟨payload', hmarshal, hunmarshal⟩ := hjson.claims (wireClaims iat c)
  obtain rfl : payload' = payload := by
    rw [h.marshal] at hmarshal
    exact (Except.ok.inj hmarshal).symm
  have hsealed := h.sealed
  simp only [Sts.parse, if_neg h.keyed, hsealed.parts, decode_encode, hjson.header, hunmarshal,
    bind_eq_bind, bind_some, ne_eq, WireClaims.coerce, wireClaims, coerce_eq_nil, h.subject,
    h.realm, h.jti]
  rfl

/-! ### The events of one call -/

theorem base64_ascii (b : Bytes) : ∀ c ∈ encode b, c < 0x80 := by
  have hdigit : ∀ i : Fin 64, digit i < 0x80 := by decide +kernel
  intro c hc
  obtain ⟨n, hn, rfl⟩ := mem_map.mp hc
  exact hdigit ⟨n, unpack_lt b n hn⟩

variable {realm raw : Bytes} {evs : List (Event StsOp StsOp.Ret)}

theorem realm_ascii (h : realmAllowlist.contains realm = true) : ∀ c ∈ realm, c < 0x80 := by
  have hrealm : realm = lit "ops" ∨ realm = lit "customer" := by simpa [realmAllowlist] using h
  rcases hrealm with rfl | rfl
  iterate 2 exact forall_mem_of_all (by decide)

/-- In UTF-8, the claims that were minted are those that are answered. -/
theorem parsed_claims {sub b : Bytes} {scope : List Bytes} {issued : Int}
    (hallowed : realmAllowlist.contains realm = true) (hsub : valid sub = true)
    (hscope : ∀ r ∈ scope, valid r = true) :
    (s.claims sub realm scope (encode b) issued).parsed =
      { s.claims sub realm scope (encode b) issued with
        expiry := wholeSecond (issued + s.ttl) } := by
  have hrealm := coerce_valid (valid_ascii (realm_ascii hallowed))
  have hjti := coerce_valid (valid_ascii (base64_ascii b))
  have hmap : scope.map coerce = scope := by
    conv_rhs => rw [← map_id scope]
    exact map_congr_left fun r hr => coerce_valid (hscope r hr)
  simp only [TokenClaims.parsed, STS.claims, coerce_valid hsub, hrealm, hjti, hmap,
    coerce_nil, map_nil]

/-- An exchange that minted a token: its draws and readings, and the token it signed. -/
structure Exchanged (mac : Bytes → Bytes → Bytes) (json : TokenJson) (s : STS) (sub realm : Bytes)
    (scope : List Bytes) (evs : List (Event StsOp StsOp.Ret)) (raw : Bytes) (issued : Int)
    (b : Bytes) : Prop where
  allowed : realmAllowlist.contains realm = true
  signed : ∃ iat payload, evs = [⟨.randRead, .ok b⟩, ⟨.now, issued⟩, ⟨.now, iat⟩] ∧
    Signed mac json s.key (unixSeconds iat) (s.claims sub realm scope (Base64.encode b) issued)
      payload raw

theorem exchange_fed {sub : Bytes} {scope : List Bytes} {n : Int}
    (h : (s.exchange mac json sub realm scope).Fed evs (.done (.ok (raw, n)))) :
    ∃ issued b, Exchanged mac json s sub realm scope evs raw issued b := by
  unfold STS.exchange at h
  split at h
  · simp at h
  rename_i hrealm
  split at h
  · simp at h
  obtain ⟨drawn, rest, rfl, h₁⟩ := fed_call_done.mp h
  cases drawn with
  | error e => simp at h₁
  | ok b =>
    obtain ⟨issued, rest, rfl, h₂⟩ := fed_call_done.mp h₁
    obtain ⟨iat, rest, rfl, h₃⟩ := fed_call_done.mp h₂
    obtain ⟨rfl, hdone⟩ := fed_done.mp h₃
    split at hdone
    · cases hdone
    · rename_i raw' hsign
      cases hdone
      obtain ⟨payload, hsigned⟩ := sign_signed hsign
      exact ⟨issued, b, by simpa using hrealm, iat, payload, rfl, hsigned⟩

theorem issueClientCredentials_fed {store : Option (Bytes → Option ServiceAccount)}
    {clientID secret : Bytes} {reqScope : List Bytes} {n : Int}
    (h : (s.issueClientCredentials mac json store clientID secret reqScope).Fed evs
      (.done (.ok (raw, n)))) :
    ∃ lookup acct, store = some lookup ∧ lookup clientID = some acct ∧ reqScope ⊆ acct.maxScope ∧
      (s.exchange mac json clientID acct.tokenRealm reqScope).Fed evs (.done (.ok (raw, n))) := by
  unfold STS.issueClientCredentials at h
  cases store with
  | none => simp at h
  | some lookup =>
    dsimp only at h
    split at h
    · simp at h
    cases hacct : lookup clientID with
    | none => simp [hacct] at h
    | some acct =>
      simp only [hacct] at h
      split at h
      · simp at h
      split at h
      · simp at h
      rename_i hscope
      refine ⟨lookup, acct, rfl, hacct, ?_, h⟩
      intro want hwant
      have hall : ∀ r ∈ reqScope, r ∈ acct.maxScope := by simpa using hscope
      exact hall want hwant

/-- A verification answers as `Sts.verify`, at the times it has read and on what it looked up. -/
theorem verify_eq {r : Option TokenClaims} {isRevoked : Bytes → Bool}
    (h : (s.verify mac json raw).Fed evs (.done r))
    (hlooked : ∀ jti b, (⟨.isRevoked jti, b⟩ : Event StsOp StsOp.Ret) ∈ evs → b = isRevoked jti) :
    ∃ now clock, r = Sts.verify mac json ⟨s.key, isRevoked⟩ now clock raw := by
  obtain ⟨now, rest, rfl, h₁⟩ := fed_call_done.mp h
  unfold Sts.verify
  cases hparse : parse mac json s.key (unixSeconds now) raw with
  | none =>
    simp only [hparse] at h₁
    exact ⟨now, now, by simp [hparse, h₁.ended]⟩
  | some c =>
    simp only [hparse] at h₁
    obtain ⟨clock, rest, rfl, h₂⟩ := fed_call_done.mp h₁
    refine ⟨now, clock, ?_⟩
    simp only [hparse]
    split at h₂
    · next hexpired => simp [hexpired, h₂.ended]
    next hexpired =>
    split at h₂
    · next hrealm => rw [if_neg hexpired, if_pos hrealm, h₂.ended]
    next hrealm =>
    obtain ⟨revoked, rest, rfl, h₃⟩ := fed_call_done.mp h₂
    rw [if_neg hexpired, if_neg hrealm, h₃.ended, hlooked c.jti revoked (by simp)]

/-- The three ways of a verification, by how far it comes. -/
inductive Verified (mac : Bytes → Bytes → Bytes) (json : TokenJson) (s : STS) (raw : Bytes) :
    List (Event StsOp StsOp.Ret) → Option TokenClaims → Prop where
  | unparsed {now : Int} (h : parse mac json s.key (unixSeconds now) raw = none) :
      Verified mac json s raw [⟨.now, now⟩] none
  | refused {now clock : Int} {c : TokenClaims}
      (h : parse mac json s.key (unixSeconds now) raw = some c)
      (hc : c.expiry ≤ clock ∨ realmAllowlist.contains c.realm = false) :
      Verified mac json s raw [⟨.now, now⟩, ⟨.now, clock⟩] none
  | looked {now clock : Int} {c : TokenClaims} {revoked : Bool}
      (h : parse mac json s.key (unixSeconds now) raw = some c) (hc : clock < c.expiry) :
      Verified mac json s raw [⟨.now, now⟩, ⟨.now, clock⟩, ⟨.isRevoked c.jti, revoked⟩]
        (if revoked then none else some c)

theorem verify_fed {r : Option TokenClaims} (h : (s.verify mac json raw).Fed evs (.done r)) :
    Verified mac json s raw evs r := by
  obtain ⟨now, rest, rfl, h₁⟩ := fed_call_done.mp h
  split at h₁
  · rename_i hparse
    obtain ⟨rfl, ⟨⟩⟩ := h₁.finished
    exact .unparsed hparse
  · rename_i c hparse
    obtain ⟨clock, rest, rfl, h₂⟩ := fed_call_done.mp h₁
    split at h₂
    · rename_i hexpired
      obtain ⟨rfl, ⟨⟩⟩ := h₂.finished
      exact .refused hparse (.inl hexpired)
    · rename_i hexpiry
      split at h₂
      · rename_i hrealm
        obtain ⟨rfl, ⟨⟩⟩ := h₂.finished
        exact .refused hparse (.inr (by simpa using hrealm))
      · obtain ⟨revoked, rest, rfl, h₃⟩ := fed_call_done.mp h₂
        obtain ⟨rfl, ⟨⟩⟩ := h₃.finished
        exact .looked hparse (not_le.mp hexpiry)

/-! ### Calls side by side -/

def reading : Event StsOp StsOp.Ret → Option Int
  | ⟨.now, t⟩ => some t
  | _ => none

def drawnID : Event StsOp StsOp.Ret → Option Bytes
  | ⟨.randRead, .ok b⟩ => some (Base64.encode b)
  | _ => none

section Run

variable {ι : Type} [DecidableEq ι]

def issuedAt (j : ι) (ls : List (Label ι StsOp StsOp.Ret)) : Option Int :=
  ((own j ls).filterMap reading).head?

def jtiOf (j : ι) (ls : List (Label ι StsOp StsOp.Ret)) : Option Bytes :=
  ((own j ls).filterMap drawnID).head?

/-- The time of a verification, as it last reads it. -/
def verifiedAt (i : ι) (ls : List (Label ι StsOp StsOp.Ret)) : Option Int :=
  ((own i ls).filterMap reading).getLast?

/-- The id was revoked before the last step of the call. -/
def RevokedBefore (i : ι) (jti : Bytes) (ls : List (Label ι StsOp StsOp.Ret)) : Prop :=
  ∃ pre l post, ls = pre ++ l :: post ∧ l.1 = i ∧ ∃ l' ∈ pre, l'.2.op = .revoke jti

/-- The calls of a token service side by side, from a time with nothing revoked. -/
abbrev STS.Run (mac : Bytes → Bytes → Bytes) (json : TokenJson) (s : STS) (calls : ι → Call)
    (clock : Int) (ls : List (Label ι StsOp StsOp.Ret))
    (p : Pool ι StsOp StsOp.Ret Answer Shared) : Prop :=
  Runs.Run (Pool.Step Shared.Step) ⟨⟨clock, []⟩, fun i => s.serve mac json (calls i)⟩ ls p

variable {calls : ι → Call} {clock : Int} {ls : List (Label ι StsOp StsOp.Ret)}
variable {p : Pool ι StsOp StsOp.Ret Answer Shared}

theorem revoked_step {c c' : Pool ι StsOp StsOp.Ret Answer Shared} {l : Label ι StsOp StsOp.Ret}
    (hi : ∀ jti, jti ∈ c.shared.revoked ↔ ∃ l ∈ ls, l.2.op = .revoke jti)
    (hstep : Step Shared.Step c l c') (jti : Bytes) :
    jti ∈ c'.shared.revoked ↔ ∃ l' ∈ ls ++ [l], l'.2.op = .revoke jti := by
  obtain ⟨i, op, r⟩ := l
  obtain ⟨k, -, hshared, -⟩ := hstep
  simp only [mem_append, or_and_right, exists_or, ← hi]
  cases op with
  | revoke jti' =>
    have hs : c'.shared = { c.shared with revoked := c.shared.revoked.insert jti' } := hshared
    simp [hs, or_comm, eq_comm]
  | randRead =>
    have hs : c'.shared = c.shared := hshared
    simp [hs]
  | now =>
    have hs : c'.shared = { c.shared with clock := r } := hshared.2
    simp [hs]
  | isRevoked jti' =>
    have hs : c'.shared = c.shared := hshared.2
    simp [hs]

variable {i : ι} {jti : Bytes}
variable {pre post : List (Label ι StsOp StsOp.Ret)}

theorem looked_iff {revoked : Bool}
    (hrun : s.Run mac json calls clock (pre ++ (i, ⟨.isRevoked jti, revoked⟩) :: post) p) :
    revoked = true ↔ ∃ l ∈ pre, l.2.op = .revoke jti := by
  let I : List (Label ι StsOp StsOp.Ret) → Pool ι StsOp StsOp.Ret Answer Shared → Prop :=
    fun ls c => ∀ jti, jti ∈ c.shared.revoked ↔ ∃ l ∈ ls, l.2.op = .revoke jti
  let P : List (Label ι StsOp StsOp.Ret) → Label ι StsOp StsOp.Ret → Prop :=
    fun ls l => ∀ jti b, l.2 = ⟨.isRevoked jti, b⟩ → (b = true ↔ ∃ l ∈ ls, l.2.op = .revoke jti)
  refine hrun.label_of_history (I := I) (P := P) revoked_step ?_ (by simp [I]) jti revoked rfl
  rintro ls c ⟨i, ev⟩ c' hi ⟨k, -, hshared, -⟩ jti b rfl
  rw [← hi jti, show b = c.shared.revoked.contains jti from hshared.1]
  simp

/-- How a minting call that is done has done it. -/
theorem minted_thread (hrun : s.Run mac json calls clock ls p) {j : ι} {raw : Bytes} {n : Int}
    (h : p.prog j = .done (.minted (.ok (raw, n)))) :
    ∃ sub realm scope issued b, (calls j).grant = some (sub, realm, scope) ∧
      Exchanged mac json s sub realm scope (own j ls) raw issued b := by
  have hfed := fed hrun j
  rw [h] at hfed
  generalize own j ls = evs at hfed ⊢
  dsimp only at hfed
  cases hcall : calls j with
  | exchange sub realm scope =>
    rw [hcall] at hfed
    obtain ⟨a, h₁, hdone⟩ := Fed.bind_wrap hfed
    cases hdone
    obtain ⟨issued, b, hex⟩ := exchange_fed h₁
    exact ⟨sub, realm, scope, issued, b, rfl, hex⟩
  | issueClientCredentials store clientID secret reqScope =>
    rw [hcall] at hfed
    obtain ⟨a, h₁, hdone⟩ := Fed.bind_wrap hfed
    cases hdone
    obtain ⟨lookup, acct, rfl, hacct, -, h₁⟩ := issueClientCredentials_fed h₁
    obtain ⟨issued, b, hex⟩ := exchange_fed h₁
    refine ⟨clientID, acct.tokenRealm, reqScope, issued, b, ?_, hex⟩
    rw [Call.grant, hacct, map_some]
  | revoke jti =>
    rw [hcall] at hfed
    obtain ⟨r, rest, rfl, h₁⟩ := fed_call_done.mp hfed
    obtain ⟨-, hdone⟩ := fed_done.mp h₁
    cases hdone
  | verify x =>
    rw [hcall] at hfed
    obtain ⟨a, h₁, hdone⟩ := Fed.bind_wrap hfed
    cases hdone

/-- How a verification that is done has done it. -/
theorem verified_thread (hrun : s.Run mac json calls clock ls p) {x : Bytes}
    {r : Option TokenClaims} (hcall : calls i = .verify x) (h : p.prog i = .done (.verified r)) :
    Verified mac json s x (own i ls) r := by
  have hfed := fed hrun i
  rw [h] at hfed
  generalize own i ls = evs at hfed ⊢
  dsimp only at hfed
  rw [hcall] at hfed
  obtain ⟨a, h₁, hdone⟩ := Fed.bind_wrap hfed
  cases hdone
  exact verify_fed h₁

omit [DecidableEq ι] in
/-- Of a call's last step it is enough to look at what came before it. -/
theorem revokedBefore_iff {ev : Event StsOp StsOp.Ret} (hpost : ∀ l ∈ post, l.1 ≠ i) :
    RevokedBefore i jti (pre ++ (i, ev) :: post) ↔ ∃ l ∈ pre, l.2.op = .revoke jti := by
  constructor
  · rintro ⟨pre', l, post', he, hl, l', hl', hop⟩
    rcases append_eq_append_iff.mp he with ⟨mid, rfl, hmid⟩ | ⟨mid, rfl, -⟩
    · cases mid with
      | nil => exact ⟨l', by simpa using hl', hop⟩
      | cons m mid =>
        -- The step would come after the last one.
        have hmem : l ∈ post := by
          obtain ⟨-, hrest⟩ := List.cons.inj hmid
          rw [hrest]
          simp
        exact absurd hl (hpost l hmem)
    · exact ⟨l', mem_append_left _ hl', hop⟩
  · rintro ⟨l, hl, hop⟩
    exact ⟨pre, (i, ev), post, rfl, rfl, l, hl, hop⟩

theorem unixSeconds_le_iff (e t : Int) : unixSeconds e ≤ unixSeconds t ↔ wholeSecond e ≤ t :=
  Int.le_ediv_iff_mul_le (by decide)

/-- What a verification answers on a minted token. -/
theorem verified_minted (hrun : s.Run mac json calls clock ls p) {raw : Bytes} {expiry : Int}
    {c : TokenClaims} {r : Option TokenClaims}
    (hparse : ∀ now, parse mac json s.key now raw =
      if unixSeconds expiry ≤ now then none else some c)
    (hexpiry : c.expiry = wholeSecond expiry) (hjti : c.jti = jti)
    (hrealm : realmAllowlist.contains c.realm = true) (h : Verified mac json s raw (own i ls) r) :
    (r.isSome = true ↔ (∃ t, verifiedAt i ls = some t ∧ t < wholeSecond expiry) ∧
      ¬ RevokedBefore i jti ls) ∧ ∀ c', r = some c' → c' = c := by
  generalize hown : own i ls = evs at h
  cases h with
  | @unparsed now h =>
    rw [hparse] at h
    split at h
    · rename_i hle
      have hat : verifiedAt i ls = some now := by rw [verifiedAt, hown]; rfl
      refine ⟨?_, nofun⟩
      simp [hat, (unixSeconds_le_iff _ _).mp hle]
    · cases h
  | @refused now clock c' h hc =>
    rw [hparse] at h
    split at h
    · cases h
    cases h
    have hat : verifiedAt i ls = some clock := by rw [verifiedAt, hown]; rfl
    have hle : wholeSecond expiry ≤ clock := by
      rcases hc with hc | hc
      · rwa [hexpiry] at hc
      · rw [hrealm] at hc
        cases hc
    refine ⟨?_, nofun⟩
    simp [hat, hle]
  | @looked now clock c' revoked h hc =>
    rw [hparse] at h
    split at h
    · cases h
    cases h
    have hat : verifiedAt i ls = some clock := by rw [verifiedAt, hown]; rfl
    have hlast : own i ls = [⟨StsOp.now, now⟩, ⟨StsOp.now, clock⟩] ++
        [⟨StsOp.isRevoked c.jti, revoked⟩] := hown
    obtain ⟨pre, post, rfl, hpost⟩ := own_last hlast
    subst hjti
    rw [revokedBefore_iff hpost, ← looked_iff hrun, hat]
    rw [hexpiry] at hc
    cases revoked with
    | true => simp
    | false => simp [hc]

/-- HMAC is not forged: what carries the MAC of its message has the message of a minted token. -/
def Unforged (mac : Bytes → Bytes → Bytes) (s : STS) (calls : ι → Call)
    (p : Pool ι StsOp StsOp.Ret Answer Shared) : Prop :=
  ∀ i x first second third, calls i = .verify x → Sealed (mac s.key) x first second third →
    ∃ j y n, p.prog j = .done (.minted (.ok (y, n))) ∧ message y = message x

theorem Verified.sealed {x : Bytes} {evs : List (Event StsOp StsOp.Ret)} {c : TokenClaims}
    (h : Verified mac json s x evs (some c)) :
    ∃ first second third, Sealed (mac s.key) x first second third := by
  generalize hr : some c = r at h
  cases h with
  | unparsed | refused => cases hr
  | looked hparse => exact parse_sealed hparse

/-- Codecs that read back what they wrote, there are. -/
theorem exists_lawful : ∃ json : TokenJson, json.Lawful := by
  have hbyte : Countable UInt8 :=
    Injective.countable (f := UInt8.toNat) fun _ _ h => UInt8.toNat_inj.mp h
  have hwire : Countable WireClaims := by
    refine Injective.countable (f := fun w : WireClaims => (w.sub, w.realm, w.aud, w.scope,
      w.jti, w.exp, w.iat, w.tenant, w.tier, w.org, w.sites)) ?_
    rintro ⟨⟩ ⟨⟩ h
    simpa using h
  obtain ⟨f, hf⟩ := exists_injective_nat WireClaims
  classical
  refine ⟨⟨fun w => .ok (List.replicate (f w) 0), fun _ => some "HS256",
    fun b => (partialInv f b.length).map WireClaims.coerce⟩, rfl, ?_⟩
  intro w
  refine ⟨_, rfl, ?_⟩
  dsimp only
  rw [length_replicate, partialInv_left hf, map_some]

theorem accepted_run (mac : Bytes → Bytes → Bytes) (s : STS) (call : Call) (sub realm : Bytes)
    (scope : List Bytes) (hjson : json.Lawful)
    (hcall : s.serve mac json call =
      s.exchange mac json sub realm scope >>= fun r => .done (.minted r))
    (hkey : s.key ≠ []) (hsub : sub ≠ []) (hrealm : realmAllowlist.contains realm = true)
    (hutf : valid sub = true) (hscope : ∀ r ∈ scope, valid r = true)
    (httl : 0 < wholeSecond s.ttl) :
    ∃ raw n ls p c, s.Run mac json (fun i : Bool => if i then .verify raw else call) 0 ls p ∧
      p.prog false = .done (.minted (.ok (raw, n))) ∧ p.prog true = .done (.verified (some c)) ∧
      c.realm = realm := by
  obtain ⟨b, hjti⟩ : ∃ b : Bytes, encode b ≠ [] := ⟨[0], by decide⟩
  have hne : realm ≠ [] := by
    rintro rfl
    exact absurd hrealm (by decide)
  have hzero : (s.claims sub realm scope (encode b) 0).expiry ≠ zeroTime := by
    intro h
    have : s.ttl = zeroTime := by simpa [STS.claims] using h
    rw [this] at httl
    exact absurd httl (by decide)
  obtain ⟨payload, hmarshal, -⟩ :=
    hjson.claims (wireClaims (unixSeconds 0) (s.claims sub realm scope (encode b) 0))
  have hsign := sign_of_marshal mac hkey hsub hne hjti hzero hmarshal
  obtain ⟨payload', hsigned⟩ := sign_signed hsign
  have hparse := hsigned.parse hjson (unixSeconds 0)
  rw [parsed_claims hrealm hutf hscope] at hparse
  generalize stamp (mac s.key) (encode tokenHeader) (encode payload) = raw at *
  have hbefore : ¬ unixSeconds (s.claims sub realm scope (encode b) 0).expiry ≤
      unixSeconds 0 := by
    rw [unixSeconds_le_iff]
    simpa [STS.claims] using httl
  rw [if_neg hbefore] at hparse
  -- Both calls see the clock at zero throughout.
  have hmint : (s.serve mac json call).Steps Shared.Step ⟨0, []⟩
      (.minted (.ok (raw, s.ttl.tdiv 1000000000))) ⟨0, []⟩ := by
    rw [hcall, STS.exchange, if_neg (by simpa using hrealm), if_neg hsub]
    refine .call (r := .ok b) rfl (.call (r := (0 : Int)) ⟨le_rfl, rfl⟩
      (.call (r := (0 : Int)) ⟨le_rfl, rfl⟩ ?_))
    dsimp only
    rw [hsign]
    exact .done _ _
  have hverify : (s.serve mac json (.verify raw)).Steps Shared.Step ⟨0, []⟩ (.verified (some
      { s.claims sub realm scope (encode b) 0 with expiry := wholeSecond (0 + s.ttl) }))
      ⟨0, []⟩ := by
    refine .call (r := (0 : Int)) ⟨le_rfl, rfl⟩ ?_
    dsimp only
    rw [hparse]
    refine .call (r := (0 : Int)) ⟨le_rfl, rfl⟩ ?_
    dsimp only
    rw [if_neg (by simpa using httl), if_neg (by simpa [STS.claims] using hrealm)]
    exact .call (r := false) ⟨rfl, rfl⟩ (.done _ _)
  obtain ⟨ls₁, hrun₁⟩ := run_alone hmint
    (f := fun i : Bool => s.serve mac json (if i then .verify raw else call)) (i := false) rfl
  obtain ⟨ls₂, hrun₂⟩ := run_alone hverify (i := true)
    (f := update (fun i : Bool => s.serve mac json (if i then .verify raw else call)) false
      (.done (.minted (.ok (raw, s.ttl.tdiv 1000000000))))) rfl
  exact ⟨raw, _, _, _, _, hrun₁.trans hrun₂, rfl, rfl, rfl⟩

/-- **The life of a token**, over every interleaving of calls. -/
theorem token_life_cycle (hjson : json.Lawful) (hutf : ∀ i, (calls i).Utf8)
    (hrun : s.Run mac json calls clock ls p) (hmac : Unforged mac s calls p) :
    (∀ j raw n, p.prog j = .done (.minted (.ok (raw, n))) →
      ∃ sub realm scope issued jti, (calls j).grant = some (sub, realm, scope) ∧
        issuedAt j ls = some issued ∧ jtiOf j ls = some jti ∧
        ∀ i r, calls i = .verify raw → p.prog i = .done (.verified r) →
          (r.isSome = true ↔
            (∃ t, verifiedAt i ls = some t ∧ t < wholeSecond (issued + s.ttl)) ∧
              ¬ RevokedBefore i jti ls) ∧
          ∀ c, r = some c → c.subject = sub ∧ c.realm = realm ∧ c.scope = scope ∧ c.jti = jti) ∧
    (∀ i x c, calls i = .verify x → p.prog i = .done (.verified (some c)) →
      ∃ j y n, p.prog j = .done (.minted (.ok (y, n))) ∧ message y = message x ∧
        (x = y ↔ Spelled x)) ∧
    (∀ j store clientID secret scope raw n,
      calls j = .issueClientCredentials store clientID secret scope →
      p.prog j = .done (.minted (.ok (raw, n))) →
      ∃ lookup acct, store = some lookup ∧ lookup clientID = some acct ∧ scope ⊆ acct.maxScope ∧
        (calls j).grant =
          some (clientID, if acct.realm = [] then lit "ops" else acct.realm, scope)) := by
  refine ⟨?_, ?_, ?_⟩
  · intro j raw n hj
    obtain ⟨sub, realm, scope, issued, b, hgrant, hex⟩ := minted_thread hrun hj
    obtain ⟨hsub, hscope⟩ := hutf j sub realm scope hgrant
    obtain ⟨iat, payload, hown, hsigned⟩ := hex.signed
    refine ⟨sub, realm, scope, issued, encode b, hgrant, ?_, ?_, ?_⟩
    · rw [issuedAt, hown]; rfl
    · rw [jtiOf, hown]; rfl
    intro i r hi hr
    have hparse := hsigned.parse hjson
    rw [parsed_claims hex.allowed hsub hscope] at hparse
    obtain ⟨hiff, hclaims⟩ := verified_minted hrun hparse rfl rfl hex.allowed
      (verified_thread hrun hi hr)
    refine ⟨hiff, ?_⟩
    intro c hc
    rw [hclaims c hc]
    exact ⟨rfl, rfl, rfl, rfl⟩
  · intro i x c hi hr
    obtain ⟨first, second, third, hx⟩ := (verified_thread hrun hi hr).sealed
    obtain ⟨j, y, n, hj, hm⟩ := hmac i x first second third hi hx
    refine ⟨j, y, n, hj, hm, ?_⟩
    obtain ⟨sub, realm, scope, issued, b, -, hex⟩ := minted_thread hrun hj
    obtain ⟨iat, payload, -, hsigned⟩ := hex.signed
    have hheader := dot_not_mem_encode tokenHeader
    have hpayload := dot_not_mem_encode payload
    rw [hsigned.written] at hm ⊢
    rw [message_stamp hheader hpayload] at hm
    exact hx.eq_stamp_iff hheader hpayload hm.symm
  · intro j store clientID secret scope raw n hcall hj
    have hfed := fed hrun j
    rw [hj] at hfed
    dsimp only at hfed
    rw [hcall] at hfed
    obtain ⟨a, h₁, hdone⟩ := Fed.bind_wrap hfed
    cases hdone
    obtain ⟨lookup, acct, rfl, hacct, hscope, -⟩ := issueClientCredentials_fed h₁
    refine ⟨lookup, acct, rfl, hacct, hscope, ?_⟩
    rw [hcall, Call.grant, hacct]
    rfl

end Run

/-- An operator's token, minted and verified. -/
theorem operator_token_lives : ∃ (json : TokenJson) (raw : Bytes)
    (ls : List (Label Bool StsOp StsOp.Ret)) (p : Pool Bool StsOp StsOp.Ret Answer Shared),
    STS.Run (fun _ _ => []) json ⟨"k", 900000000000⟩
      (fun i => if i then .verify raw else .exchange "alice" "ops" ["viewer"]) 0 ls p ∧
    ∃ issued jti t, issuedAt false ls = some issued ∧ jtiOf false ls = some jti ∧
      verifiedAt true ls = some t ∧ t < wholeSecond (issued + 900000000000) ∧
      ¬ RevokedBefore true jti ls := by
  obtain ⟨json, hjson⟩ := exists_lawful
  obtain ⟨raw, n, ls, p, c, hrun, hminted, hverified, -⟩ := accepted_run (fun _ _ => [])
    ⟨"k", 900000000000⟩ (.exchange "alice" "ops" ["viewer"]) "alice" "ops" ["viewer"] hjson rfl
    (by decide) (by decide) (by decide) (by decide) (by decide) (by decide)
  have hutf : ∀ i : Bool,
      (if i then Call.verify raw else .exchange "alice" "ops" ["viewer"]).Utf8 := by
    rintro (_ | _) sub realm scope h
    · cases h
      decide
    · cases h
  have hmac : Unforged (fun _ _ => []) ⟨"k", 900000000000⟩
      (fun i : Bool => if i then Call.verify raw else .exchange "alice" "ops" ["viewer"]) p := by
    rintro (_ | _) x first second third h -
    · cases h
    · cases h
      exact ⟨false, raw, n, hminted, rfl⟩
  obtain ⟨sub, realm, scope, issued, jti, -, hissued, hjti, hlife⟩ :=
    (token_life_cycle hjson hutf hrun hmac).1 false raw n hminted
  obtain ⟨⟨t, ht, hlt⟩, hnot⟩ := (hlife true (some c) rfl hverified).1.mp rfl
  exact ⟨json, raw, ls, p, hrun, issued, jti, t, hissued, hjti, ht, hlt, hnot⟩

def unpinned : ServiceAccount := ⟨"cli", [1], ["viewer"], []⟩

/-- Its token is accepted for the realm `ops`, which is not the account's. -/
theorem unpinned_account_ops : ∃ (json : TokenJson) (raw : Bytes)
    (ls : List (Label Bool StsOp StsOp.Ret)) (p : Pool Bool StsOp StsOp.Ret Answer Shared)
    (c : TokenClaims), json.Lawful ∧
    STS.Run (fun _ _ => [1]) json ⟨"k", 900000000000⟩ (fun i => if i then .verify raw
      else .issueClientCredentials (some fun _ => some unpinned) "cli" "secret" []) 0 ls p ∧
    p.prog true = .done (.verified (some c)) ∧ c.realm = "ops" ∧ c.realm ≠ unpinned.realm := by
  obtain ⟨json, hjson⟩ := exists_lawful
  obtain ⟨raw, n, ls, p, c, hrun, -, hverified, hrealm⟩ := accepted_run (fun _ _ => [1])
    ⟨"k", 900000000000⟩ (.issueClientCredentials (some fun _ => some unpinned) "cli" "secret" [])
    "cli" "ops" [] hjson rfl (by decide) (by decide) (by decide) (by decide) (by decide) (by decide)
  exact ⟨json, raw, ls, p, c, hjson, hrun, hverified, hrealm, by rw [hrealm]; decide⟩

end Cios.Sts
