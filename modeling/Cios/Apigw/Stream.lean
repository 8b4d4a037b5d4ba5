import Cios.Apigw.Server

/-!
# API gateway — event streams

A stream of a site's telemetry, from the request to the last event.  `World` has the answers of the
token service, the policy engine and the telemetry source; `Conn` is the connection and the channel
of the source, which moves by itself between any two calls of the handler.

* `stream_opens_iff_flusher`: an authorised stream is opened exactly when the writer can flush, and
  then no event is lost before the client disconnects.  Through the mux the writer never can.
* `stream_confined`: for that reason no stream leaves the sites of its token, although no layer
  compares them with the site that is asked for.
-/

namespace Cios.Apigw
open Text Effect List Sts
open Effect.Prog (Always Steps always_done always_call)
open Cios.Http (Problem)
open Cios.Gateway (bearerToken)
open Cios.Sts (TokenClaims)

variable {P H T : Type}

/-! ### The world -/

abbrev Headers := List (Bytes × Bytes)

def Headers.set (hs : Headers) (name value : Bytes) : Headers :=
  (name, value) :: hs.filter (·.1 ≠ name)

/-- A connection and its channel.  `emitted` are the events up to the disconnect, `late` those after
it, `queue` those the handler has not received yet. -/
structure Conn where
  now : Int
  header : Headers
  sent : Option (Nat × Headers)
  body : List Chunk
  log : List AccessRecord
  subscribed : List (Bytes × TokenClaims)
  emitted : List TelemetryEvent
  late : List TelemetryEvent
  queue : List TelemetryEvent
  received : List TelemetryEvent
  closed : Bool
  disconnected : Bool

def Conn.fresh (now : Int) : Conn := ⟨now, [], none, [], [], [], [], [], [], [], false, false⟩

def Conn.send (c : Conn) (status : Nat) : Conn :=
  { c with sent := some (c.sent.getD (status, c.header)) }

/-- What happens by itself. -/
inductive Move : Conn → Conn → Prop where
  | emit {c : Conn} (ev : TelemetryEvent) (hsub : c.subscribed ≠ []) (hopen : c.closed = false)
      (hconn : c.disconnected = false) :
      Move c { c with emitted := c.emitted ++ [ev], queue := c.queue ++ [ev] }
  | emitLate {c : Conn} (ev : TelemetryEvent) (hsub : c.subscribed ≠ []) (hopen : c.closed = false)
      (hconn : c.disconnected = true) :
      Move c { c with late := c.late ++ [ev], queue := c.queue ++ [ev] }
  | close {c : Conn} : Move c { c with closed := true }
  | disconnect {c : Conn} : Move c { c with disconnected := true }
  | elapse {c : Conn} (t : Int) (h : c.now ≤ t) : Move c { c with now := t }

/-- A call and its answer.  A write fails only on a connection that is gone; `select` may take
either of two ready channels. -/
def answers (W : World P T) : (op : Op P H T) → Conn → op.Ret → Conn → Prop
  | .verify sts token, c, r, c' => r = W.verify sts token ∧ c' = c
  | .now, c, r, c' => r = c.now ∧ c' = c
  | .decision pdp input, c, r, c' => r = W.decide pdp input ∧ c' = c
  | .subscribe source site claims, c, r, c' => r = W.subscribe source site claims ∧
      c' = if W.subscribe source site claims
        then { c with subscribed := c.subscribed ++ [(site, claims)] } else c
  | .select, c, .done, c' => c.disconnected = true ∧ c' = c
  | .select, c, .event ev, c' => ∃ rest, c.queue = ev :: rest ∧
      c' = { c with queue := rest, received := c.received ++ [ev] }
  | .select, c, .closed, c' => c.closed = true ∧ c.queue = [] ∧ c' = c
  | .select, c, .keepAlive, c' => c' = c
  | .setHeader name value, c, _, c' => c' = { c with header := c.header.set name value }
  | .writeHeader status, c, _, c' => c' = c.send status
  | .write chunk, c, true, c' => c' = { c.send 200 with body := c.body ++ [chunk] }
  | .write _, c, false, c' => c.disconnected = true ∧ c' = c.send 200
  | .flush, c, _, c' => c' = c.send 200
  | .logAttrs record, c, _, c' => c' = { c with log := c.log ++ [record] }
  | .handle _ _, _, _, _ => True
  | .handleHealthz, _, _, _ => True
  | .authHandler _, _, _, _ => True
  | .handleToken, _, _, _ => True
  | .handleClientCredentialsToken, _, _, _ => True
  | .notFound, _, _, _ => True

/-- The world moves, then the call is answered. -/
def step (W : World P T) (op : Op P H T) (c : Conn) (r : op.Ret) (c' : Conn) : Prop :=
  ∃ c₁, Relation.ReflTransGen Move c c₁ ∧ answers W op c₁ r c'

/-! ### What a handler has done -/

structure View where
  header : Headers
  sent : Option (Nat × Headers)
  body : List Chunk
  subscribed : List (Bytes × TokenClaims)
  received : List TelemetryEvent

def View.fresh : View := ⟨[], none, [], [], []⟩

def View.send (v : View) (status : Nat) : View :=
  { v with sent := some (v.sent.getD (status, v.header)) }

/-- A connection as the handler leaves it: the body is what it wrote while the client is there, and
every event is received or waits in the channel. -/
structure Shows (v : View) (c : Conn) : Prop where
  header : c.header = v.header
  sent : c.sent = v.sent
  subscribed : c.subscribed = v.subscribed
  received : c.received = v.received
  account : c.received ++ c.queue = c.emitted ++ c.late
  uncut : c.disconnected = false → c.late = [] ∧ c.body = v.body

theorem shows_fresh (now : Int) : Shows .fresh (.fresh now) where
  header := rfl
  sent := rfl
  subscribed := rfl
  received := rfl
  account := rfl
  uncut := fun _ => ⟨rfl, rfl⟩

theorem Shows.move {v : View} {c c' : Conn} (h : Shows v c) (hm : Move c c') : Shows v c' := by
  cases hm with
  | emit ev hsub hopen hconn =>
    refine { h with account := ?_ }
    have haccount := h.account
    rw [(h.uncut hconn).1, append_nil] at haccount
    simp [(h.uncut hconn).1, ← haccount]
  | emitLate ev hsub hopen hconn =>
    refine { h with account := ?_, uncut := ?_ }
    · rw [← append_assoc, h.account, append_assoc]
    · intro hfalse
      rw [hconn] at hfalse
      cases hfalse
  | close => exact { h with }
  | disconnect => exact { h with uncut := nofun }
  | elapse t ht => exact { h with }

theorem Shows.moves {v : View} {c c' : Conn} (h : Shows v c)
    (hm : Relation.ReflTransGen Move c c') : Shows v c' := by
  induction hm with
  | refl => exact h
  | tail _ hm ih => exact ih.move hm

/-- What a call adds, the handlers that are calls as a whole apart. -/
def View.after (v : View) : (op : Op P H T) → op.Ret → View
  | .subscribe _ site claims, true => { v with subscribed := v.subscribed ++ [(site, claims)] }
  | .select, .event ev => { v with received := v.received ++ [ev] }
  | .setHeader name value, _ => { v with header := v.header.set name value }
  | .writeHeader status, _ => v.send status
  | .write chunk, _ => { v.send 200 with body := v.body ++ [chunk] }
  | .flush, _ => v.send 200
  | _, _ => v

/-- Whether the call is one of the gateway's own. -/
def Op.own : Op P H T → Bool
  | .handle _ _ | .handleHealthz | .authHandler _ | .handleToken | .handleClientCredentialsToken
  | .notFound => false
  | _ => true

theorem Shows.send {v : View} {c : Conn} (h : Shows v c) (status : Nat) :
    Shows (v.send status) (c.send status) :=
  { h with sent := by simp only [Conn.send, View.send, h.sent, h.header] }

theorem Shows.answered {W : World P T} {v : View} {op : Op P H T} {c c' : Conn} {r : op.Ret}
    (h : Shows v c) (hop : op.own = true) (ha : answers W op c r c') : Shows (v.after op r) c' := by
  cases op with
  | verify sts token => rw [ha.2]; exact h
  | now => rw [ha.2]; exact h
  | decision pdp input => rw [ha.2]; exact h
  | subscribe source site claims =>
    obtain ⟨hr, rfl⟩ := ha
    cases hb : W.subscribe source site claims with
    | false => rw [hb] at hr; subst hr; exact h
    | true =>
      rw [hb] at hr
      subst hr
      exact { h with subscribed := by simp [View.after, h.subscribed] }
  | select =>
    cases r with
    | done => rw [ha.2]; exact h
    | closed => rw [ha.2.2]; exact h
    | keepAlive => rw [show c' = c from ha]; exact h
    | event ev =>
      obtain ⟨rest, hqueue, rfl⟩ := ha
      refine { h with received := ?_, account := ?_ }
      · simp [View.after, h.received]
      · rw [← h.account, hqueue]
        simp
  | setHeader name value =>
    rw [show c' = _ from ha]
    exact { h with header := by simp [View.after, h.header] }
  | writeHeader status => rw [show c' = _ from ha]; exact h.send status
  | write chunk =>
    have hsend := h.send 200
    cases r with
    | true =>
      rw [show c' = _ from ha]
      refine { hsend with uncut := fun hconn => ?_ }
      exact ⟨(h.uncut hconn).1, by simp [View.after, (h.uncut hconn).2]⟩
    | false =>
      obtain ⟨hgone, rfl⟩ := ha
      refine { hsend with uncut := fun hconn => ?_ }
      rw [show (c.send 200).disconnected = c.disconnected from rfl, hgone] at hconn
      cases hconn
  | flush => rw [show c' = _ from ha]; exact h.send 200
  | logAttrs record =>
    rw [show c' = _ from ha]
    exact { h with }
  | handle | handleHealthz | authHandler | handleToken | handleClientCredentialsToken | notFound =>
    cases hop

/-! ### Rules -/

section Rules
variable {W : World P T} {v : View} {c : Conn} {α : Type} {Q : α → Conn → Prop}

theorem Shows.always_call {op : Op P H T} {k : op.Ret → Prog (Op P H T) Op.Ret α} (h : Shows v c)
    (hop : op.own = true) (hk : ∀ c₁ r c', answers W op c₁ r c' → Shows (v.after op r) c' →
      Always (step W) c' Q (k r)) : Always (step W) c Q (.call op k) := by
  rw [Prog.always_call]
  rintro r c' ⟨c₁, hm, ha⟩
  exact hk c₁ r c' ha ((h.moves hm).answered hop ha)

def View.problem (v : View) (p : Problem) (r : Request) : View :=
  let header := v.header.set "Content-Type" "application/problem+json"
  { v with header, sent := some (p.status, header), body := v.body ++ [.problem p r.path] }

theorem Shows.always_writeProblem {p : Problem} {r : Request} {Q : Progress → Conn → Prop}
    (h : Shows v c) (hsent : v.sent = none)
    (hQ : ∀ c', Shows (v.problem p r) c' → Q .returned c') :
    Always (step (H := H) W) c Q (writeProblem p r) := by
  iterate 2 refine h.always_call rfl fun _ _ _ _ h => ?_
  refine h.always_call rfl fun _ _ c' _ h => ?_
  rw [always_done]
  refine hQ c' ?_
  simpa [View.after, View.send, View.problem, hsent] using h

theorem Shows.always_writeAll {Q : Unit → Conn → Prop} (bs : List Bytes)
    (h : Shows v c) (hsent : v.sent.isSome = true)
    (hQ : ∀ c', Shows { v with body := v.body ++ bs.map .raw } c' → Q () c') :
    Always (step (H := H) W) c Q (writeAll bs) := by
  induction bs generalizing v c with
  | nil => exact always_done.mpr (hQ c (by simpa using h))
  | cons b rest ih =>
    refine h.always_call rfl fun _ _ c' _ h' => ih h' rfl fun c'' h'' => hQ c'' ?_
    obtain ⟨sent, hv⟩ := Option.isSome_iff_exists.mp hsent
    simpa [View.after, View.send, hv] using h''

end Rules

/-! ### The loop -/

/-- What a stream is made of. -/
inductive Item where
  | event (ev : TelemetryEvent)
  | comment

def Item.chunks : Item → List Chunk
  | .event ev => (sseWrites ev).map .raw
  | .comment => [.raw keepAliveComment]

def Item.event? : Item → Option TelemetryEvent
  | .event ev => some ev
  | .comment => none

/-- A stream after these items: each event received is written, in order. -/
def View.streaming (head : Nat × Headers) (sub : List (Bytes × TokenClaims)) (items : List Item) :
    View :=
  ⟨head.2, some head, items.flatMap Item.chunks, sub, items.filterMap Item.event?⟩

section Loop
variable {W : World P T} {c : Conn} {head : Nat × Headers} {sub : List (Bytes × TokenClaims)}
  {items : List Item}

theorem streaming_event (ev : TelemetryEvent) :
    View.streaming head sub (items ++ [.event ev]) =
      { View.streaming head sub items with
        body := (View.streaming head sub items).body ++ (sseWrites ev).map .raw
        received := (View.streaming head sub items).received ++ [ev] } := by
  simp [View.streaming, Item.chunks, Item.event?]

theorem streaming_comment :
    View.streaming head sub (items ++ [.comment]) =
      { View.streaming head sub items with
        body := (View.streaming head sub items).body ++ [.raw keepAliveComment] } := by
  simp [View.streaming, Item.chunks, Item.event?]

/-- The loop returns when the client is gone or the channel is drained. -/
theorem Shows.always_streamLoop (turns : Nat) (h : Shows (.streaming head sub items) c) :
    Always (step (H := H) W) c (fun out c' => (∃ items', Shows (.streaming head sub items') c') ∧
      (out = .returned → c'.disconnected = true ∨ c'.queue = [])) (streamLoop turns) := by
  induction turns generalizing c items with
  | zero => exact always_done.mpr ⟨⟨items, h⟩, nofun⟩
  | succ turns ih =>
    refine h.always_call rfl fun c₁ r c' ha h' => ?_
    cases r with
    | done =>
      obtain ⟨hgone, rfl⟩ := ha
      exact always_done.mpr ⟨⟨items, h'⟩, fun _ => .inl hgone⟩
    | closed =>
      obtain ⟨-, hqueue, rfl⟩ := ha
      exact always_done.mpr ⟨⟨items, h'⟩, fun _ => .inr hqueue⟩
    | event ev =>
      refine Prog.Always.bind
        (Q := fun _ c' => Shows (.streaming head sub (items ++ [.event ev])) c')
        (h'.always_writeAll _ rfl fun c'' h'' => ?_) fun _ c'' h'' => ?_
      · rw [streaming_event]
        exact h''
      · exact h''.always_call rfl fun _ _ _ _ h₃ => ih h₃
    | keepAlive =>
      refine h'.always_call rfl fun c₂ ok c'' ha' h'' => ?_
      replace h'' : Shows (.streaming head sub (items ++ [.comment])) c'' := by
        rw [streaming_comment]
        exact h''
      cases ok with
      | true => exact h''.always_call rfl fun _ _ _ _ h₃ => ih h₃
      | false =>
        obtain ⟨hgone, rfl⟩ := ha'
        exact always_done.mpr ⟨⟨_, h''⟩, fun _ => .inl hgone⟩

end Loop

def streamHeaders : Headers :=
  (((Headers.set [] "Content-Type" "text/event-stream; charset=utf-8").set
    "Cache-Control" "no-cache").set "Connection" "keep-alive").set "X-Accel-Buffering" "no"

def problemHeaders : Headers := Headers.set [] "Content-Type" "application/problem+json"

/-- Answered 200 as an event stream.  While the client is there, every event is written or waits in
the channel, and none waits when the handler returns. -/
structure Streamed (site : Bytes) (claims : TokenClaims) (out : Progress) (c : Conn) : Prop where
  sent : c.sent = some (200, streamHeaders)
  subscribed : c.subscribed = [(site, claims)]
  written : c.disconnected = false → ∃ items : List Item, c.body = items.flatMap Item.chunks ∧
    items.filterMap Item.event? ++ c.queue = c.emitted
  drained : c.disconnected = false → out = .returned → c.queue = []

/-- Answered with a problem before anything was subscribed to. -/
structure Refused (p : Problem) (r : Request) (c : Conn) : Prop where
  sent : c.sent = some (p.status, problemHeaders)
  subscribed : c.subscribed = []
  body : c.disconnected = false → c.body = [.problem p r.path]

theorem Shows.refused {p : Problem} {r : Request} {c : Conn}
    (h : Shows (View.fresh.problem p r) c) :
    Refused p r c where
  sent := h.sent
  subscribed := h.subscribed
  body := fun hconn => (h.uncut hconn).2

theorem Shows.always_openStream {W : World P T} {site : Bytes} {claims : TokenClaims} {c : Conn}
    (turns : Nat) (h : Shows { View.fresh with subscribed := [(site, claims)] } c) :
    Always (step (H := H) W) c (Streamed site claims) (openStream turns) := by
  iterate 5 refine h.always_call rfl fun _ _ _ _ h => ?_
  refine h.always_call rfl fun _ _ c' _ h => ?_
  have hstart : Shows (.streaming (200, streamHeaders) [(site, claims)] []) c' := h
  refine (hstart.always_streamLoop turns).mono fun out c'' hend => ?_
  obtain ⟨⟨items, hitems⟩, hreturned⟩ := hend
  refine ⟨hitems.sent, hitems.subscribed, fun hconn => ⟨items, (hitems.uncut hconn).2, ?_⟩, ?_⟩
  · have haccount := hitems.account
    rw [(hitems.uncut hconn).1, append_nil, hitems.received] at haccount
    exact haccount
  intro hconn hout
  rcases hreturned hout with hgone | hqueue
  · rw [hconn] at hgone
    cases hgone
  · exact hqueue

/-! ### A request for a stream -/

/-- A GET of a site's stream with a verified token that the policy engine allows. -/
structure Admitted (W : World P T) (deps : AuthDeps P) (r : Request) (site : Bytes)
    (claims : TokenClaims) : Prop where
  get : r.method = .get
  path : r.path = lit "/api/sites/" ++ (site ++ lit "/stream")
  site : reSite site = true
  verified : ∃ sts token, deps.sts = some sts ∧ bearerToken r.authorization = some token ∧
    W.verify sts token = some claims
  allowed : ∀ p, deps.pdp = some p → ∀ now, W.decide p (policyInput r claims now) = some true

section Request
variable {W : World P T} {deps : AuthDeps P} {r : Request} {site : Bytes} {claims : TokenClaims}
  {source : Option T} {turns : Nat} {w : Writer} {c : Conn}

theorem apiHandler_stream (hpath : r.path = lit "/api/sites/" ++ (site ++ lit "/stream"))
    (hne : site ≠ []) (hslash : ∀ c ∈ site, c ≠ '/') (i : Option Identity) :
    apiHandler (P := P) (H := H) source turns i w r = handleSiteStream source turns i w r := by
  unfold apiHandler
  rw [hpath, apiRoutes_find_stream (by rw [parseSiteFromStreamPath_eq hne hslash]; rfl)]

theorem Admitted.parsed (h : Admitted W deps r site claims) :
    parseSiteFromStreamPath r.path = some site := by
  obtain ⟨hne, hslash⟩ := reSite_segment h.site
  rw [h.path, parseSiteFromStreamPath_eq hne hslash]

theorem Admitted.apiHandler_eq (h : Admitted W deps r site claims) (i : Option Identity) :
    apiHandler (P := P) (H := H) source turns i w r = handleSiteStream source turns i w r :=
  apiHandler_stream h.path (reSite_segment h.site).1 (reSite_segment h.site).2 i

theorem always_capture {p : Served P H T Progress} {Q : Progress → Conn → Prop} {status : Nat}
    {wrote : Bool} (h : Always (step W) c Q p) :
    Always (step W) c (fun out c' => Q out.1 c') (capture p status wrote) := by
  induction p generalizing c status wrote with
  | done a => exact always_done.mpr (always_done.mp h)
  | call op k ih =>
    cases op <;> exact always_call.mpr fun r c' hs => ih r (always_call.mp h r c' hs)

theorem serveHTTP_stream {s : Server P H T} (hmux : s.mux = [])
    (hpath : r.path = lit "/api/sites/" ++ (site ++ lit "/stream")) :
    s.routes.serveHTTP turns w r =
      accessLogMiddleware (authMiddleware ⟨s.sts, s.pdp⟩ (apiHandler s.source turns)) w r := by
  have hapi : r.path = lit "/api/" ++ (lit "sites/" ++ (site ++ lit "/stream")) := hpath
  rw [Server.serveHTTP, hapi, handlerFor_api hmux]
  rfl

variable (h : Admitted W deps r site claims) (hc : Shows .fresh c) {src : T}
  (hsource : source = some src) (hsub : W.subscribe src site claims = true)
include h hc hsource hsub

/-- The handler asks for the site's telemetry when the writer can flush, and refuses otherwise. -/
theorem Admitted.always_handleSiteStream {token : Bytes} :
    Always (step (H := H) W) c (fun out c' => if w.flusher then Streamed site claims out c' else
      Shows (View.fresh.problem streamingUnsupported r) c')
      (handleSiteStream source turns (some ⟨claims, token⟩) w r) := by
  unfold handleSiteStream
  rw [if_neg (not_not.mpr h.get), hsource]
  simp only [h.parsed, h.site]
  cases hw : w.flusher with
  | false =>
    exact hc.always_writeProblem rfl fun c' h' => h'
  | true =>
    refine hc.always_call rfl fun c₁ ok c' ha h' => ?_
    obtain ⟨hok, -⟩ := ha
    rw [hsub] at hok
    subst hok
    exact h'.always_openStream turns

/-- The middleware lets it through, with the claims of its token. -/
theorem Admitted.always_authMiddleware :
    Always (step (H := H) W) c (fun out c' => if w.flusher then Streamed site claims out c' else
      Shows (View.fresh.problem streamingUnsupported r) c')
      (authMiddleware deps (apiHandler source turns) w r) := by
  obtain ⟨sts, token, hsts, htoken, hverify⟩ := h.verified
  unfold authMiddleware
  rw [hsts, htoken]
  refine hc.always_call rfl fun c₁ answer c' ha h' => ?_
  obtain ⟨hanswer, -⟩ := ha
  rw [hverify] at hanswer
  subst hanswer
  refine h'.always_call rfl fun c₂ now c'' _ h'' => ?_
  cases hpdp : deps.pdp with
  | none =>
    simp only [h.apiHandler_eq]
    exact h.always_handleSiteStream h'' hsource hsub
  | some p =>
    refine h''.always_call rfl fun c₃ verdict c₄ ha h₃ => ?_
    obtain ⟨hverdict, -⟩ := ha
    rw [h.allowed p hpdp now] at hverdict
    subst hverdict
    simp only [h.apiHandler_eq]
    exact h.always_handleSiteStream h₃ hsource hsub

/-- Through the access log nothing is streamed: its wrapper cannot flush. -/
theorem Admitted.always_accessLog :
    Always (step (H := H) W) c (fun _ c' => Refused streamingUnsupported r c')
      (accessLogMiddleware (authMiddleware deps (apiHandler source turns)) w r) := by
  refine Prog.Always.bind (always_capture (h.always_authMiddleware hc hsource hsub)) ?_
  rintro ⟨progress, status⟩ c' (hshows : Shows (View.fresh.problem streamingUnsupported r) c')
  cases progress with
  | running => exact always_done.mpr hshows.refused
  | returned => exact hshows.always_call rfl fun _ _ _ _ h' => always_done.mpr h'.refused

end Request

theorem exists_steps (W : World P T) {α : Type} (p : Prog (Op P H T) Op.Ret α) (c : Conn) :
    ∃ a c', Steps (step W) p c a c' := by
  have hanswer : ∀ (op : Op P H T) (c : Conn), ∃ r c', answers W op c r c' := by
    intro op c
    cases op with
    | select => exact ⟨.keepAlive, c, rfl⟩
    | write chunk => exact ⟨true, _, rfl⟩
    | verify | now | decision | subscribe => exact ⟨_, _, rfl, rfl⟩
    | setHeader | writeHeader | flush | logAttrs => exact ⟨(), _, rfl⟩
    | handle | handleHealthz | authHandler | handleToken | handleClientCredentialsToken
    | notFound =>
      exact ⟨(), c, trivial⟩
  induction p generalizing c with
  | done a => exact ⟨a, c, .done a c⟩
  | call op k ih =>
    obtain ⟨r, c₁, hr⟩ := hanswer op c
    obtain ⟨a, c', hk⟩ := ih r c₁
    exact ⟨a, c', .call ⟨c, .refl, hr⟩ hk⟩

/-- **When a stream opens.**  Behind the access log, an authorised stream whose source can be
subscribed to is answered as an event stream, in every execution, exactly when the writer can flush.
Through `Handler()` it is always answered with 500 and nothing is subscribed to. -/
theorem stream_opens_iff_flusher {W : World P T} {s : Server P H T} {r : Request} {site : Bytes}
    {claims : TokenClaims} {src : T} (hmux : s.mux = []) (hsource : s.source = some src)
    (hadmitted : Admitted W ⟨s.sts, s.pdp⟩ r site claims)
    (hsub : W.subscribe src site claims = true) (turns : Nat) (w : Writer) (now : Int) :
    ((∀ out c, Steps (step (H := H) W)
      (authMiddleware ⟨s.sts, s.pdp⟩ (apiHandler s.source turns) w r)
        (.fresh now) out c → Streamed site claims out c) ↔ w.flusher = true) ∧
      ∀ out c, Steps (step W) (s.routes.serveHTTP turns w r) (.fresh now) out c →
        Refused streamingUnsupported r c := by
  have hfresh := shows_fresh now
  refine ⟨⟨?_, ?_⟩, ?_⟩
  · intro hstreamed
    by_contra hw
    obtain ⟨out, c, hrun⟩ := exists_steps (H := H) W
      (authMiddleware ⟨s.sts, s.pdp⟩ (apiHandler s.source turns) w r) (.fresh now)
    have hrefused : Shows (View.fresh.problem streamingUnsupported r) c := by
      simpa only [hw, if_false] using
        hadmitted.always_authMiddleware hfresh hsource hsub out c hrun
    have hsent := (hstreamed out c hrun).sent
    rw [hrefused.refused.sent] at hsent
    cases hsent
  · intro hw out c hrun
    simpa only [hw, if_true] using
      hadmitted.always_authMiddleware hfresh hsource hsub out c hrun
  · rw [serveHTTP_stream hmux hadmitted.path]
    exact hadmitted.always_accessLog hfresh hsource hsub

def wired : Server Unit Unit Unit :=
  ⟨some ⟨"k", fun _ => false⟩, some (), none, [], false, false, some (), []⟩

def echo (key message : Bytes) : Bytes := key ++ message

/-- `natsTelemetrySource.Subscribe` over a broker: the claims are not looked at. -/
def natsSubscribe (broker : Bytes → Bool) (site : Bytes) (_claims : TokenClaims) : Bool :=
  site ≠ [] && reSite site && broker (lit "cios.tlm." ++ site ++ lit ".>")

def shipped : World Unit Unit where
  verify := fun s token => Sts.verify echo Sts.operatorJson s 0 0 token
  decide := fun _ i => some (Policy.allow (fun _ => 12) i)
  subscribe := fun _ => natsSubscribe fun _ => true

def operatorStream : Request :=
  ⟨.get, "/api/sites/ab12/stream", lit "Bearer " ++ Sts.operatorToken echo, []⟩

theorem bearerToken_append {token : Bytes} (h : token ≠ []) :
    bearerToken (lit "Bearer " ++ token) = some token := by
  cases token with
  | nil => exact absurd rfl h
  | cons c rest => rfl

theorem operatorToken_ne_nil : operatorToken echo ≠ [] := by
  simp [operatorToken, stamp, show lit "." = [46] by decide]

theorem admitted_operator :
    Admitted shipped ⟨wired.sts, wired.pdp⟩ operatorStream "ab12" operator where
  get := rfl
  path := by decide
  site := by decide
  verified := ⟨⟨"k", fun _ => false⟩, operatorToken echo, rfl,
    bearerToken_append operatorToken_ne_nil, (written_operator echo).1.1⟩
  allowed := fun _ _ _ => rfl

theorem operator_stream_opens_behind_log :
    (∀ out c, Steps (step (H := Unit) shipped) (authMiddleware ⟨wired.sts, wired.pdp⟩
      (apiHandler wired.source 1) (.conn true) operatorStream) (.fresh 0) out c →
        Streamed "ab12" operator out c) ∧
      ∀ out c, Steps (step shipped)
        (wired.routes.serveHTTP 1 (.conn true) operatorStream) (.fresh 0)
        out c → Refused streamingUnsupported operatorStream c := by
  have h := stream_opens_iff_flusher (s := wired) rfl rfl admitted_operator rfl 1 (.conn true) 0
  exact ⟨h.1.mpr rfl, h.2⟩

/-- With the token verified, the policy allowing it and the source ready, the stream is answered
with 500. -/
theorem operator_stream_refused :
    ∃ out c, Steps (step shipped) (wired.routes.serveHTTP 1 (.conn true) operatorStream) (.fresh 0)
      out c ∧ c.sent = some (500, problemHeaders) := by
  obtain ⟨out, c, hrun⟩ := exists_steps shipped
    (wired.routes.serveHTTP 1 (.conn true) operatorStream) (.fresh 0)
  refine ⟨out, c, hrun, ?_⟩
  exact (admitted_operator.always_accessLog (shows_fresh 0) rfl rfl out c hrun).sent

/-! ### The sites of a token -/

/-- Every subscription is to a site of its token, which has an organisation. -/
def Confined (c : Conn) : Prop := ∀ x ∈ c.subscribed, x.1 ∈ x.2.sites ∧ x.2.org ≠ []

/-- Whether the call is one of the gateway's own and subscribes to nothing. -/
def Op.quiet : Op P H T → Prop
  | .subscribe _ _ _ => False
  | op => op.own = true

theorem after_quiet {v : View} {op : Op P H T} (hop : op.quiet) (r : op.Ret) :
    op.own = true ∧ (v.after op r).subscribed = v.subscribed := by
  cases op with
  | subscribe => cases hop
  | select => cases r <;> exact ⟨rfl, rfl⟩
  | _ => exact ⟨hop, rfl⟩

theorem quiet_writeProblem (p : Problem) (r : Request) :
    (writeProblem (P := P) (H := H) (T := T) p r).Calls Op.quiet :=
  ⟨rfl, fun _ => ⟨rfl, fun _ => ⟨rfl, fun _ => trivial⟩⟩⟩

section Quiet
variable {r : Request} {w : Writer}

theorem quiet_handleSiteStream (source : Option T) (turns : Nat) (i : Option Identity)
    (hw : w.flusher = false) :
    (handleSiteStream (P := P) (H := H) source turns i w r).Calls Op.quiet := by
  unfold handleSiteStream
  split
  · exact ⟨rfl, fun _ => quiet_writeProblem _ r⟩
  iterate 2
    split
    · exact quiet_writeProblem _ r
  -- The writer is looked at before the source is subscribed to.
  simp only [hw, Bool.not_false, if_true]
  split_ifs <;> exact quiet_writeProblem _ r

theorem quiet_authMiddleware {deps : AuthDeps P}
    {next : Option Identity → Writer → Request → Served P H T Progress}
    (hnext : ∀ i, (next i w r).Calls Op.quiet) : (authMiddleware deps next w r).Calls Op.quiet := by
  have hauthorised : ∀ claims token,
      (authorised deps.pdp next claims token w r).Calls Op.quiet := by
    intro claims token
    refine ⟨rfl, fun now => ?_⟩
    split
    · exact hnext _
    · refine ⟨rfl, fun (verdict : Option Bool) => ?_⟩
      dsimp only
      split_ifs
      · exact hnext _
      · exact quiet_writeProblem _ r
  unfold authMiddleware
  split_ifs
  · exact hnext none
  split
  · exact quiet_writeProblem _ r
  split
  · exact hauthorised _ _
  · refine ⟨rfl, fun claims => ?_⟩
    cases claims with
    | none => exact quiet_writeProblem _ r
    | some claims => exact hauthorised claims _

theorem quiet_accessLog {next : Writer → Request → Served P H T Progress}
    (hnext : (next (.statusCapturing w) r).Calls Op.quiet) :
    (accessLogMiddleware next w r).Calls Op.quiet := by
  have hcapture : ∀ (p : Served P H T Progress) status wrote, p.Calls Op.quiet →
      (capture p status wrote).Calls Op.quiet := by
    intro p
    induction p with
    | done a => exact fun _ _ _ => trivial
    | call op k ih => intro _ _ hp; cases op <;> exact ⟨hp.1, fun a => ih a _ _ (hp.2 a)⟩
  refine (hcapture _ _ _ hnext).bind ?_
  rintro ⟨progress, status⟩
  cases progress with
  | running => trivial
  | returned => exact ⟨rfl, fun _ => trivial⟩

end Quiet

theorem always_quiet {W : World P T} {p : Served P H T Progress} (hp : p.Calls Op.quiet)
    (now : Int) :
    Always (step W) (.fresh now) (fun _ c => c.subscribed = []) p := by
  refine (hp.always (I := fun c => ∃ v, Shows v c ∧ v.subscribed = []) ?_
    ⟨.fresh, shows_fresh now, rfl⟩).mono fun _ c ⟨v, hv, hsub⟩ => hv.subscribed.trans hsub
  rintro op c answer c' hop ⟨v, hv, hsub⟩ ⟨c₁, hm, ha⟩
  obtain ⟨hown, hafter⟩ := after_quiet (v := v) hop answer
  exact ⟨v.after op answer, (hv.moves hm).answered hown ha, hafter.trans hsub⟩

/-- **Streams are confined.**  Whatever the token, the policy engine and the source are, what a
request for a site's stream subscribes to through `Handler()` is confined to the token's sites.  No
layer compares the site with them: nothing is ever subscribed to, as the access log's writer cannot
flush. -/
theorem stream_confined {W : World P T} {s : Server P H T} {r : Request} {site : Bytes}
    (hmux : s.mux = []) (hpath : r.path = lit "/api/sites/" ++ (site ++ lit "/stream"))
    (hne : site ≠ []) (hslash : ∀ c ∈ site, c ≠ '/') (turns : Nat) (w : Writer) (now : Int) :
    ∀ out c, Steps (step W) (s.routes.serveHTTP turns w r) (.fresh now) out c →
      Confined c ∧ c.subscribed = [] := by
  intro out c hrun
  rw [serveHTTP_stream hmux hpath] at hrun
  have hquiet : (accessLogMiddleware
      (authMiddleware ⟨s.sts, s.pdp⟩ (apiHandler (H := H) s.source turns))
      w r).Calls Op.quiet := by
    refine quiet_accessLog (quiet_authMiddleware fun i => ?_)
    rw [apiHandler_stream hpath hne hslash]
    exact quiet_handleSiteStream s.source turns i rfl
  have hnone := always_quiet hquiet now out c hrun
  refine ⟨fun x hx => ?_, hnone⟩
  rw [hnone] at hx
  cases hx

/-- A token with no sites and no organisation, on a connection that can flush. -/
theorem stream_confined_operator : operator.sites = [] ∧ operator.org = [] ∧
    ∀ out c, Steps (step shipped) (wired.routes.serveHTTP 1 (.conn true) operatorStream) (.fresh 0)
      out c → Confined c ∧ c.subscribed = [] :=
  have hsite := reSite_segment admitted_operator.site
  ⟨rfl, rfl, stream_confined (s := wired) rfl admitted_operator.path hsite.1 hsite.2 1 _ 0⟩

end Cios.Apigw
