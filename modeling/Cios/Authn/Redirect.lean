import Cios.Authn.Handler
import Cios.Support.Location
import Cios.Support.Utf8

/-!
# Login — where the browser is sent

A login takes a path from the parameter `next`, keeps it in the state cookie, and the callback sends
the browser there; a logout sends it there at once (`pkg/authn/handler.go`).  `isSafeRedirect` looks
at two bytes: a slash, and no second one.  But the browser reads a backslash as a slash and drops
tabs (`redirect_stays_iff`).
-/

namespace Cios.Authn
open Text Effect Url Location Prog Utf8

/-- `encoding/json` reads the path of a state back, with what is not UTF-8 replaced. -/
def StateJson.Lawful (json : StateJson) : Prop :=
  ∀ p body, json.marshal p = .ok body →
    ∃ p', json.unmarshal body = some p' ∧ p'.redirectTo = Utf8.coerce p.redirectTo

section Redirect

variable {V : Type} (lib : Lib V) (h : Handler) (authority : Bytes → Option Bytes)

/-- The ways of a path to a redirect. -/
inductive Way where
  | logout
  | callback

/-- The path at the end of the way: in the state cookie it is UTF-8. -/
def Way.carried : Way → Bytes → Bytes
  | .logout, next => next
  | .callback, next => coerce next

/-- What is sent for a path: by a logout with it, or by the callback of a login with it. -/
inductive Sends (next : Bytes) : Way → Bytes → Prop where
  | logout {r : AuthRequest} {url : Bytes} (hnext : Url.get r.query "next" = next)
      (hr : (logout h r).outcome = .redirect url) :
      Sends next .logout (Location.location authority r.path url)
  | callback {r₁ r₂ : AuthRequest} {evs₁ evs₂ : List (Event AuthnOp AuthnOp.Ret)}
      {resp₁ resp₂ : Response} {value url : Bytes} {realm : Realm} {maxAge : Int}
      (hnext : Url.get r₁.query "next" = next)
      (hlogin : (login lib h r₁).Fed evs₁ (.done resp₁))
      (hset : .state value realm maxAge ∈ resp₁.cookies) (hcookie : r₂.stateCookie = some value)
      (hcallback : (callback lib h r₂).Fed evs₂ (.done resp₂))
      (hr : resp₂.outcome = .redirect url) :
      Sends next .callback (Location.location authority r₂.path url)

variable {lib h authority}

theorem nextOf_safe {r : AuthRequest} (hsafe : isSafeRedirect (get r.query "next") = true) :
    h.nextOf r = get r.query "next" := by
  have hne : get r.query "next" ≠ [] := by
    intro he
    rw [he] at hsafe
    revert hsafe
    decide
  simp [Handler.nextOf, hne, hsafe]

theorem login_state {r : AuthRequest} {evs : List (Event AuthnOp AuthnOp.Ret)} {resp : Response}
    {value : Bytes} {realm : Realm} {maxAge : Int} (hrun : (login lib h r).Fed evs (.done resp))
    (hset : .state value realm maxAge ∈ resp.cookies) :
    ∃ p body, p.redirectTo = h.nextOf r ∧ lib.state.marshal p = .ok body ∧
      value = signStateValue lib.mac h.sessionKey body realm := by
  unfold login at hrun
  -- every other end of the program sets no cookie
  have ended {evs : List (Event AuthnOp AuthnOp.Ret)} {p : Http.Problem}
      (hd : Fed (.done (refuse p)) evs (.done resp)) : False := by
    rw [hd.ended] at hset
    simp [refuse] at hset
  iterate 2
    split at hrun
    · exact (ended hrun).elim
  obtain ⟨drawn, rest, rfl, h₁⟩ := fed_call_done.mp hrun
  cases drawn with
  | error e => exact (ended h₁).elim
  | ok verifierBytes =>
    obtain ⟨drawn, rest, rfl, h₂⟩ := fed_call_done.mp h₁
    cases drawn with
    | error e => exact (ended h₂).elim
    | ok stateBytes =>
      obtain ⟨drawn, rest, rfl, h₃⟩ := fed_call_done.mp h₂
      cases drawn with
      | error e => exact (ended h₃).elim
      | ok nonceBytes =>
        obtain ⟨now, rest, rfl, h₄⟩ := fed_call_done.mp h₃
        have hresp := h₄.ended
        dsimp only at hresp
        split at hresp
        · simp [hresp, mintProblem, refuse] at hset
        · next body hbody =>
            simp only [hresp, List.mem_singleton] at hset
            obtain ⟨rfl, rfl, rfl⟩ := hset
            exact ⟨_, body, rfl, hbody, rfl⟩

/-- A written state cookie is accepted for its realm alone, with its body. -/
theorem verifyStateValue_sign {key body body' : Bytes} {realm realm' : Realm}
    {mac : Bytes → Bytes → Bytes}
    (hv : verifyStateValue mac key (signStateValue mac key body realm) realm' = some body') :
    body' = body := by
  obtain ⟨first, second, hsealed⟩ := verifyStateValue_sealed hv
  have hfirst := hsealed.segments
  rw [split_signStateValue] at hfirst
  have hdecoded := hsealed.decoded
  rw [← (List.cons.inj hfirst).1, Base64.decode_encode] at hdecoded
  exact (Option.some.inj hdecoded).symm

theorem slash_of_safe {next : Bytes} (hsafe : isSafeRedirect next = true) :
    ∃ t, next = ('/' : UInt8) :: t := by
  obtain ⟨hslash, -⟩ : (lit "/").isPrefixOf next = true ∧ (lit "//").isPrefixOf next = false := by
    simpa [isSafeRedirect] using hsafe
  obtain ⟨t, rfl⟩ := List.isPrefixOf_iff_prefix.mp hslash
  exact ⟨t, rfl⟩

theorem slash_carried (way : Way) {next : Bytes} (hsafe : isSafeRedirect next = true) :
    ∃ t, way.carried next = ('/' : UInt8) :: t := by
  obtain ⟨t, rfl⟩ := slash_of_safe hsafe
  cases way with
  | logout => exact ⟨t, rfl⟩
  | callback => exact ⟨coerce t, coerce_ascii_cons (by decide) t⟩

/-- What is sent for a safe path is the location for it as it is carried. -/
theorem sends_eq (hjson : lib.state.Lawful) {next loc : Bytes} {way : Way}
    (hsafe : isSafeRedirect next = true) (hs : Sends lib h authority next way loc) :
    ∃ path, loc = location authority path (way.carried next) := by
  cases hs with
  | @logout r url hnext hr =>
    unfold logout at hr
    split at hr
    · cases hr
    · subst hnext
      cases hr
      rw [nextOf_safe hsafe]
      exact ⟨_, rfl⟩
  | @callback r₁ r₂ evs₁ evs₂ resp₁ resp₂ value url realm maxAge hnext hlogin hset hcookie hcallback
      hr =>
      subst hnext
      obtain ⟨p, body, hto, hmarshal, rfl⟩ := login_state hlogin hset
      obtain ⟨f, hran, -⟩ := callback_granted hcallback (.inr ⟨url, hr⟩)
      have hcookie' := hran.cookie
      rw [hcookie] at hcookie'
      have hbody : f.body = body :=
        verifyStateValue_sign ((Option.some.inj hcookie').symm ▸ hran.body)
      obtain ⟨p', hp', hto'⟩ := hjson p body hmarshal
      have hpayload : f.payload.redirectTo = coerce (get r₁.query "next") := by
        have hsome := hran.payload
        rw [hbody, hp'] at hsome
        rw [← Option.some.inj hsome, hto', hto, nextOf_safe hsafe]
      obtain ⟨token, -, hresp⟩ := hran.response
      rw [hresp] at hr
      have hlanding : h.landing f.payload = coerce (get r₁.query "next") := by
        obtain ⟨t, ht⟩ := slash_carried .callback hsafe
        rw [Handler.landing, hpayload, if_neg (by rw [show coerce _ = _ from ht]; simp)]
      exact ⟨_, by rw [← Outcome.redirect.inj hr, hlanding]; rfl⟩

end Redirect

/-- **A safe path leads to the gateway's origin exactly when it does not escape**, or reads as an
authority that is the gateway's own. -/
theorem redirect_stays_iff {V O : Type} (lib : Lib V) (hjson : lib.state.Lawful) (h : Handler)
    (authority : Bytes → Option Bytes) (own : O) (browser absolute : Bytes → Option O)
    (next loc : Bytes) (way : Way) (hsafe : isSafeRedirect next = true)
    (hs : Sends lib h authority next way loc) :
    Location.originOf own browser absolute loc = some own ↔
      (Location.escapes authority (way.carried next) = true →
        browser (Location.authorityIn authority (way.carried next)) = some own) := by
  obtain ⟨path, rfl⟩ := sends_eq hjson hsafe hs
  obtain ⟨t, ht⟩ := slash_carried way hsafe
  rw [ht]
  exact originOf_location authority path t

def pathLib : Lib Int :=
  { demoLib with
    state := ⟨fun p => .ok (('\x7b' : UInt8) :: p.redirectTo),
      fun b => some { demoPayload with redirectTo := Utf8.coerce (b.drop 1) }⟩ }

theorem pathLib_lawful : pathLib.state.Lawful := by
  rintro p body ⟨⟩
  exact ⟨_, rfl, rfl⟩

def logoutRequest (next : Bytes) : AuthRequest := ⟨"/auth/ops/logout", [("next", next)], none⟩

/-- A backslash in the middle of a path stays with the gateway, whose authority is its host. -/
theorem portal_stays : ∃ loc, Sends pathLib demoHandler some "/portal\\?tab=1" .logout loc ∧
    Location.originOf (lit "gateway") some (fun _ => none) loc = some (lit "gateway") := by
  have hsends : Sends pathLib demoHandler some "/portal\\?tab=1" .logout
      (location some "/auth/ops/logout" "/portal\\?tab=1") :=
    .logout (show get (logoutRequest "/portal\\?tab=1").query "next" = _ by decide) (by decide)
  have hstays : escapes some "/portal\\?tab=1" = false := by decide
  refine ⟨_, hsends, ?_⟩
  refine (redirect_stays_iff pathLib pathLib_lawful demoHandler some (lit "gateway") some
    (fun _ => none) "/portal\\?tab=1" _ .logout (by decide) hsends).mpr fun hescapes => ?_
  rw [Way.carried, hstays] at hescapes
  cases hescapes

/-- A safe path that a logout turns into a location at another host. -/
def LeadsAway (next : Bytes) : Prop :=
  isSafeRedirect next = true ∧ ∃ loc, Sends pathLib demoHandler some next .logout loc ∧
    Location.originOf (lit "gateway") some (fun _ => none) loc = some (lit "evil.com")

/-- A backslash behind the slash, and a tab between two slashes. -/
theorem backslash_leads_away : LeadsAway "/\\evil.com" ∧ LeadsAway "/\t/evil.com" := by
  have away (next : Bytes) (hm : next ∈ [lit "/\\evil.com", lit "/\t/evil.com"]) :
      LeadsAway next := by
    have hall : ∀ next ∈ [lit "/\\evil.com", lit "/\t/evil.com"], isSafeRedirect next = true ∧
        (logout demoHandler (logoutRequest next)).outcome = .redirect next ∧
        get (logoutRequest next).query "next" = next ∧
        originOf (lit "gateway") some (fun _ => none)
          (location some "/auth/ops/logout" next) = some (lit "evil.com") := by decide
    obtain ⟨hsafe, hlogout, hnext, horigin⟩ := hall next hm
    exact ⟨hsafe, _, .logout hnext hlogout, horigin⟩
  exact ⟨away _ (by decide), away _ (by decide)⟩

end Cios.Authn
