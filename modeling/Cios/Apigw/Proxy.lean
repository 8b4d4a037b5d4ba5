import Cios.Apigw.Server
import Cios.Support.UrlParse

/-!
# API gateway — resources by id

The routes that forward to one resource of the core (`pkg/apigw/reads.go`), and the client they
forward with (`upstream.go`).  A route takes the id from the request's path, which the server has
decoded, and the client puts it behind the fixed path of the resource: nothing escapes it again.  So
what the library parses is not always that path and one segment (`by_id_reaches_iff`).
-/

namespace Cios.Apigw
open Text List Url Option
open Effect (bind_eq_ok mapError_eq_ok)
open Cios.Http (Method Problem)
open Cios.Gateway (tenantFromClaims tenantMissing validHeaderValue)
open Cios.Sts (TokenClaims)

/-! ### The client -/

/-- A request as the client hands it to its transport. -/
structure Sent where
  method : Method
  url : Url.Parsed
  authorization : Bytes
  tenantHeader : Bytes
  body : Bytes
deriving DecidableEq, Repr

/-- Why nothing is sent: `ErrTenantMissing`, or any other error. -/
inductive UpstreamError where
  | tenantMissing
  | unavailable
deriving DecidableEq, Repr

section Client

variable {authority : Bytes → Option Bytes} (core : Url.Origin authority)

/-- One slash between the base URL, which is an origin, and the path. -/
def joinURL (path : Bytes) : Bytes :=
  core.text ++ ('/' : UInt8) :: (if path.head? = some ('/' : UInt8) then path.drop 1 else path)

def v1AsTenant (method : Method) (claims : TokenClaims) (rawToken path body : Bytes) :
    Except UpstreamError Sent :=
  if path = [] then .error .unavailable
  else match tenantFromClaims (metricClaims claims) with
    | none => .error .tenantMissing
    | some (tenantID, _) =>
      match Url.parse authority (joinURL core path) with
      | none => .error .unavailable
      | some url =>
        let authorization : Bytes := if rawToken ≠ [] then lit "Bearer " ++ rawToken else []
        -- the transport refuses other header values
        if validHeaderValue authorization && validHeaderValue tenantID then
          .ok ⟨method, url, authorization, tenantID, body⟩
        else .error .unavailable

def getV1AsTenant (claims : TokenClaims) (rawToken path : Bytes) : Except UpstreamError Sent :=
  v1AsTenant core .get claims rawToken path []

def postV1AsTenant (claims : TokenClaims) (rawToken path body : Bytes) :
    Except UpstreamError Sent :=
  v1AsTenant core .post claims rawToken path body

variable {core} {method : Method} {claims : TokenClaims} {rawToken path body : Bytes}

/-- Everything a request that was sent has passed. -/
theorem v1AsTenant_eq_ok {sent : Sent}
    (h : v1AsTenant core method claims rawToken path body = .ok sent) :
    path ≠ [] ∧
      parse authority (joinURL core path) = some sent.url ∧
      (tenantFromClaims (metricClaims claims)).map Prod.fst = some sent.tenantHeader := by
  by_cases hp : path = []
  · simp [v1AsTenant, hp] at h
  rw [v1AsTenant, if_neg hp] at h
  split at h
  · cases h
  rename_i tenantID tier ht
  split at h
  · cases h
  · next url hu =>
      simp only [ite_eq_iff, reduceCtorEq, and_false, or_false, Except.ok.injEq] at h
      obtain ⟨-, rfl⟩ := h
      exact ⟨hp, hu, by rw [ht]; rfl⟩

theorem v1AsTenant_method {sent : Sent}
    (h : v1AsTenant core method claims rawToken path body = .ok sent) : sent.method = method := by
  rw [v1AsTenant, if_neg (v1AsTenant_eq_ok h).1] at h
  split at h
  · cases h
  · split at h
    · cases h
    · simp only [ite_eq_iff, reduceCtorEq, and_false, or_false, Except.ok.injEq] at h
      rw [← h.2]

theorem v1AsTenant_tenantless (hp : path ≠ []) (h : tenantFromClaims (metricClaims claims) = none) :
    v1AsTenant core method claims rawToken path body = .error .tenantMissing := by
  rw [v1AsTenant, if_neg hp, h]

end Client

/-! ### Ids -/

/-- What stands behind a path, if something does and it has no slash. -/
def segmentAfter (pre p : Bytes) : Option Bytes :=
  match cutPrefix pre p with
  | none => none
  | some rest => if rest = [] ∨ ('/' : UInt8) ∈ rest then none else some rest

variable (p : Bytes)

def extractPMScheduleID : Option Bytes := segmentAfter "/api/pm/schedules/" p

def extractSpareID : Option Bytes := segmentAfter "/api/spares/" p

def extractInspectionID : Option Bytes := segmentAfter "/api/inspections/" p

def extractRunbookKey : Option Bytes := segmentAfter "/api/runbooks/" p

/-- A ticket's id ends at the first colon, and only what stands before it must not be nested. -/
def extractTicketID : Option Bytes :=
  match cutPrefix "/api/tickets/" p with
  | none => none
  | some rest =>
    let rest := (Url.cut ':' rest).1
    if rest = [] ∨ ('/' : UInt8) ∈ rest then none else some rest

def extractTicketTransition : Option Bytes :=
  match cutSuffix ":transition" p with
  | none => none
  | some base => extractTicketID base

/-- A path that has not the prefix is taken as it is. -/
def extractAlarmAck : Option Bytes :=
  match cutSuffix ":ack" p with
  | none => none
  | some base =>
    let rest := (cutPrefix "/api/alarms/" base).getD base
    if rest = [] ∨ ('/' : UInt8) ∈ rest ∨ (':' : UInt8) ∈ rest then none else some rest

/-! ### Handlers -/

/-- A request as the handlers see it, with what the middleware put into its context. -/
structure ProxyRequest where
  method : Method
  path : Bytes
  identity : Option Identity
  body : Except Bytes Bytes

def notAllowed (detail : Bytes) : Problem := ⟨405, "bad-request", "method not allowed", detail⟩

def noIdentity : Problem :=
  ⟨401, "unauthorized", "no verified identity", "the request did not carry a verified token"⟩

def pathNotFound : Problem :=
  ⟨404, "path-not-found", "API path not found", lit "no handler registered for " ++ p⟩

def notReachable (resource : Bytes) : Problem :=
  ⟨502, "upstream-unavailable", "upstream unavailable",
    lit "core " ++ resource ++ lit " is not reachable"⟩

/-- The problem a handler answers with when nothing was sent. -/
def UpstreamError.problem (resource : Bytes) : UpstreamError → Problem
  | .tenantMissing => Gateway.tenantMissing
  | .unavailable => notReachable resource

/-- The identity of the context, if its claims have a tenant and a tier. -/
def tenantGate (identity : Option Identity) : Except Problem Identity :=
  match identity with
  | none => .error noIdentity
  | some i =>
    match tenantFromClaims (metricClaims i.claims) with
    | none => .error tenantMissing
    | some _ => .ok i

section Handlers

variable {authority : Bytes → Option Bytes} (core : Url.Origin authority)

/-- The handlers that forward a GET, over the paths and the way the id is taken. -/
def proxyByID (refusal resource dir : Bytes) (extract : Bytes → Option Bytes) (r : ProxyRequest) :
    Except Problem Sent :=
  if r.method ≠ .get then .error (notAllowed refusal)
  else (tenantGate r.identity).bind fun i =>
    match extract r.path with
    | none => .error (pathNotFound r.path)
    | some id => (getV1AsTenant core i.claims i.rawToken (dir ++ id)).mapError (·.problem resource)

def handlePMScheduleByID : ProxyRequest → Except Problem Sent :=
  proxyByID core "/api/pm/schedules/\x7bid\x7d only supports GET" "/v1/pm/schedules/\x7bid\x7d"
    "/v1/pm/schedules/" extractPMScheduleID

def handleSpareByID : ProxyRequest → Except Problem Sent :=
  proxyByID core "/api/spares/\x7bid\x7d only supports GET" "/v1/spares/\x7bid\x7d" "/v1/spares/"
    extractSpareID

def handleInspectionByID : ProxyRequest → Except Problem Sent :=
  proxyByID core "/api/inspections/\x7bid\x7d only supports GET" "/v1/inspections/\x7bid\x7d"
    "/v1/inspections/" extractInspectionID

def handleRunbookByKey : ProxyRequest → Except Problem Sent :=
  proxyByID core "/api/runbooks/\x7bkey\x7d only supports GET" "/v1/runbooks/\x7bkey\x7d"
    "/v1/runbooks/" extractRunbookKey

def forwardAction (resource path : Bytes) (r : ProxyRequest) : Except Problem Sent :=
  (tenantGate r.identity).bind fun i =>
    match r.body with
    | .error e => .error ⟨400, "bad-request", "read body", e⟩
    | .ok body =>
      (postV1AsTenant core i.claims i.rawToken path body).mapError (·.problem resource)

def handleTicketTransition (r : ProxyRequest) (id : Bytes) : Except Problem Sent :=
  if r.method ≠ .post then
    .error (notAllowed "/api/tickets/\x7bid\x7d:transition only supports POST")
  else if id = [] then .error (pathNotFound r.path)
  else forwardAction core "/v1/tickets/\x7bid\x7d:transition"
    (lit "/v1/tickets/" ++ id ++ lit ":transition") r

/-- A path with the action is the action's, whatever the method. -/
def handleTicketByID (r : ProxyRequest) : Except Problem Sent :=
  match extractTicketTransition r.path with
  | some id => handleTicketTransition core r id
  | none =>
    proxyByID core "/api/tickets/\x7bid\x7d only supports GET (POST allowed on :transition)"
      "/v1/tickets/\x7bid\x7d" "/v1/tickets/" extractTicketID r

def handleAlarmAck (r : ProxyRequest) : Except Problem Sent :=
  if r.method ≠ .post then .error (notAllowed "/api/alarms/\x7bid\x7d:ack only supports POST")
  else match extractAlarmAck r.path with
    | none => .error (pathNotFound r.path)
    | some id =>
      forwardAction core "/v1/alarms/\x7bid\x7d:ack" (lit "/v1/alarms/" ++ id ++ lit ":ack") r

end Handlers

/-! ### What is reached -/

/-- The cases of the switch that go to one resource. -/
inductive ByIDRoute where
  | ticket
  | alarmAck
  | pmSchedule
  | spare
  | inspection
  | runbook
deriving DecidableEq, Repr

/-- The resource that a request means: a directory of the core, an id and what is to be done. -/
structure Target where
  dir : Bytes
  id : Bytes
  action : Bytes
deriving DecidableEq, Repr

def Target.segment (t : Target) : Bytes := t.id ++ t.action

def Target.path (t : Target) : Bytes := t.dir ++ t.segment

def ByIDRoute.target : ByIDRoute → Bytes → Option Target
  | .ticket, p =>
    match extractTicketTransition p with
    | some id => some ⟨"/v1/tickets/", id, ":transition"⟩
    | none => (extractTicketID p).map fun id => ⟨"/v1/tickets/", id, []⟩
  | .alarmAck, p => (extractAlarmAck p).map fun id => ⟨"/v1/alarms/", id, ":ack"⟩
  | .pmSchedule, p => (extractPMScheduleID p).map fun id => ⟨"/v1/pm/schedules/", id, []⟩
  | .spare, p => (extractSpareID p).map fun id => ⟨"/v1/spares/", id, []⟩
  | .inspection, p => (extractInspectionID p).map fun id => ⟨"/v1/inspections/", id, []⟩
  | .runbook, p => (extractRunbookKey p).map fun id => ⟨"/v1/runbooks/", id, []⟩

def ByIDRoute.serve {authority : Bytes → Option Bytes} (core : Url.Origin authority) :
    ByIDRoute → ProxyRequest → Except Problem Sent
  | .ticket => handleTicketByID core
  | .alarmAck => handleAlarmAck core
  | .pmSchedule => handlePMScheduleByID core
  | .spare => handleSpareByID core
  | .inspection => handleInspectionByID core
  | .runbook => handleRunbookByKey core

/-- The URL is the target's: the directory and one segment that decodes to the id with the action,
without a query, a fragment or a dot segment. -/
structure Reaches (u : Url.Parsed) (t : Target) : Prop where
  segment : ∃ s, u.rawPath = t.dir ++ s ∧ ('/' : UInt8) ∉ s ∧ Url.unescape false s = some t.segment
  query : u.rawQuery = none
  fragment : u.fragment = []
  dots : ∀ s ∈ split '/' u.rawPath, ∀ d, Url.unescape false s = some d → d ≠ "." ∧ d ≠ ".."

/-- The id can stand in a URL as it is. -/
def Target.Clean (t : Target) : Prop :=
  (∀ c ∈ t.id, c ≠ '?' ∧ c ≠ '#' ∧ c ≠ '%') ∧ t.segment ≠ "." ∧ t.segment ≠ ".."

instance (t : Target) : Decidable t.Clean :=
  @instDecidableAnd _ _ (List.decidableBAll _ t.id) inferInstance

section Reach

variable {authority : Bytes → Option Bytes} {core : Url.Origin authority}

variable {dir p id : Bytes} {r : ProxyRequest} {sent : Sent} {t : Target}

theorem proxyByID_eq_ok {refusal resource : Bytes} {extract : Bytes → Option Bytes}
    (h : proxyByID core refusal resource dir extract r = .ok sent) :
    ∃ id, extract r.path = some id ∧
      parse authority (joinURL core (dir ++ id)) = some sent.url := by
  by_cases hm : r.method = .get
  · rw [proxyByID, if_neg (not_not_intro hm)] at h
    obtain ⟨i, -, h₁⟩ := bind_eq_ok h
    split at h₁
    · cases h₁
    · next id hid => exact ⟨id, hid, (v1AsTenant_eq_ok (mapError_eq_ok h₁)).2.1⟩
  · rw [proxyByID, if_pos hm] at h
    cases h

theorem forwardAction_eq_ok {resource path : Bytes}
    (h : forwardAction core resource path r = .ok sent) :
    parse authority (joinURL core path) = some sent.url := by
  obtain ⟨i, -, h₁⟩ := bind_eq_ok h
  split at h₁
  · cases h₁
  · exact (v1AsTenant_eq_ok (mapError_eq_ok h₁)).2.1

/-- **Every request that is sent has a target**, whose path its URL has behind the origin. -/
theorem serve_target {route : ByIDRoute} (h : route.serve core r = .ok sent) :
    ∃ t, route.target r.path = some t ∧
      parse authority (joinURL core t.path) = some sent.url := by
  have get {refusal resource dir : Bytes} {extract : Bytes → Option Bytes}
      (h : proxyByID core refusal resource dir extract r = .ok sent) :
      ∃ t, (extract r.path).map (fun id => (⟨dir, id, []⟩ : Target)) = some t ∧
        parse authority (joinURL core t.path) = some sent.url := by
    obtain ⟨id, hid, hu⟩ := proxyByID_eq_ok h
    exact ⟨⟨dir, id, []⟩, by rw [hid]; rfl, by simpa [Target.path, Target.segment] using hu⟩
  cases route with
  | ticket =>
    simp only [ByIDRoute.serve, handleTicketByID] at h
    simp only [ByIDRoute.target]
    cases ht : extractTicketTransition r.path with
    | none =>
      rw [ht] at h
      exact get h
    | some id =>
      simp only [ht, handleTicketTransition] at h
      split_ifs at h
      refine ⟨_, rfl, ?_⟩
      simpa [Target.path, Target.segment] using forwardAction_eq_ok h
  | alarmAck =>
    simp only [ByIDRoute.serve, handleAlarmAck] at h
    split_ifs at h
    split at h
    · cases h
    · next id hid =>
        refine ⟨⟨"/v1/alarms/", id, ":ack"⟩, by simp [ByIDRoute.target, hid], ?_⟩
        simpa [Target.path, Target.segment] using forwardAction_eq_ok h
  | pmSchedule | spare | inspection | runbook => exact get h

/-- A directory that a URL reads as it is written: from slash to slash, without dot segments. -/
def FixedDir (dir : Bytes) : Prop :=
  dir.head? = some ('/' : UInt8) ∧ dir.getLast? = some ('/' : UInt8) ∧ dir.all Url.plain = true ∧
    ∀ w ∈ split '/' dir.dropLast, w ≠ "." ∧ w ≠ ".."

def FixedAction (action : Bytes) : Prop := ∀ c ∈ action, c ≠ '?' ∧ c ≠ '#' ∧ c ≠ '%' ∧ c ≠ '/'

instance (dir : Bytes) : Decidable (FixedDir dir) := inferInstanceAs (Decidable (_ ∧ _ ∧ _ ∧ _))

instance (action : Bytes) : Decidable (FixedAction action) := List.decidableBAll _ action

structure Target.Fixed (t : Target) : Prop where
  dir : FixedDir t.dir
  action : FixedAction t.action
  id : ('/' : UInt8) ∉ t.id

theorem segmentAfter_eq_some {pre : Bytes} (h : segmentAfter pre p = some id) :
    ('/' : UInt8) ∉ id := by
  rw [segmentAfter] at h
  split at h
  · cases h
  · split_ifs at h with hc
    cases h
    exact (not_or.mp hc).2

theorem extractTicketID_eq_some (h : extractTicketID p = some id) : ('/' : UInt8) ∉ id := by
  rw [extractTicketID] at h
  split at h
  · cases h
  · dsimp only at h
    split_ifs at h with hc
    cases h
    exact (not_or.mp hc).2

theorem extractAlarmAck_eq_some (h : extractAlarmAck p = some id) : ('/' : UInt8) ∉ id := by
  rw [extractAlarmAck] at h
  split at h
  · cases h
  · dsimp only at h
    split_ifs at h with hc
    cases h
    exact (not_or.mp (not_or.mp hc).2).1

/-- **Every target has a fixed directory and a fixed action**; only the id is the client's. -/
theorem target_fixed {route : ByIDRoute} (h : route.target p = some t) : t.Fixed := by
  have nothing : FixedAction [] := by decide
  have transition : FixedAction ":transition" := by decide
  have ack : FixedAction ":ack" := by decide
  have tickets : FixedDir "/v1/tickets/" := by decide
  have alarms : FixedDir "/v1/alarms/" := by decide
  have plain {dir pre : Bytes} (hd : FixedDir dir)
      (h : (segmentAfter pre p).map (fun id => (⟨dir, id, []⟩ : Target)) = some t) : t.Fixed := by
    obtain ⟨id, hid, rfl⟩ := map_eq_some_iff.mp h
    exact ⟨hd, nothing, segmentAfter_eq_some hid⟩
  cases route with
  | ticket =>
    simp only [ByIDRoute.target] at h
    split at h
    · next id hid =>
        cases h
        rw [extractTicketTransition] at hid
        split at hid
        · cases hid
        · exact ⟨tickets, transition, extractTicketID_eq_some hid⟩
    · obtain ⟨id, hid, rfl⟩ := map_eq_some_iff.mp h
      exact ⟨tickets, nothing, extractTicketID_eq_some hid⟩
  | alarmAck =>
    obtain ⟨id, hid, rfl⟩ := map_eq_some_iff.mp h
    exact ⟨alarms, ack, extractAlarmAck_eq_some hid⟩
  | pmSchedule | spare | inspection | runbook => exact plain (by decide) h

theorem FixedDir.eq (h : FixedDir dir) :
    ∃ d, dir = ('/' : UInt8) :: d ∧ ∀ c ∈ d, plain c = true := by
  obtain ⟨hhead, -, hall, -⟩ := h
  cases dir with
  | nil => cases hhead
  | cons c d =>
    cases hhead
    exact ⟨d, rfl, fun c hc => all_eq_true.mp hall c (mem_cons_of_mem _ hc)⟩

theorem FixedDir.split {s : Bytes} (h : FixedDir dir) (hs : ('/' : UInt8) ∉ s) :
    split '/' (dir ++ s) = Text.split '/' dir.dropLast ++ [s] := by
  have hlast : dir.dropLast ++ [('/' : UInt8)] = dir := dropLast_append_getLast? _ h.2.1
  conv_lhs => rw [← hlast, append_assoc, singleton_append]
  rw [split_append_cons]
  exact congrArg _ (splitOn_eq_singleton hs)

theorem joinURL_path (h : FixedDir t.dir) :
    joinURL core t.path = core.text ++ t.dir ++ t.segment := by
  obtain ⟨d, hd, -⟩ := h.eq
  simp [joinURL, Target.path, hd]

theorem segment_plain_iff (h : FixedAction t.action) :
    (('?' : UInt8) ∉ t.segment ∧ ('#' : UInt8) ∉ t.segment ∧ ('%' : UInt8) ∉ t.segment) ↔
      ∀ c ∈ t.id, c ≠ '?' ∧ c ≠ '#' ∧ c ≠ '%' := by
  have hmem (d : UInt8) (hd : d ∉ t.action) : d ∉ t.segment ↔ d ∉ t.id := by
    simp [Target.segment, hd]
  rw [hmem '?' fun hm => (h _ hm).1 rfl, hmem '#' fun hm => (h _ hm).2.1 rfl,
    hmem '%' fun hm => (h _ hm).2.2.1 rfl]
  constructor
  · rintro ⟨hq, hh, hp⟩ c hc
    exact ⟨fun e => hq (e ▸ hc), fun e => hh (e ▸ hc), fun e => hp (e ▸ hc)⟩
  · intro hall
    exact ⟨fun hm => (hall _ hm).1 rfl, fun hm => (hall _ hm).2.1 rfl,
      fun hm => (hall _ hm).2.2 rfl⟩

theorem reaches_iff {u : Parsed} (hf : t.Fixed)
    (h : parse authority (joinURL core t.path) = some u) : Reaches u t ↔ t.Clean := by
  obtain ⟨d, hd, hplain⟩ := hf.dir.eq
  rw [joinURL_path hf.dir, hd] at h
  obtain ⟨p, hp, -, hfrag, hraw, -, -, hquery⟩ := parse_append core hplain h
  rw [← hd] at hraw
  have hslash : ('/' : UInt8) ∉ t.segment := by
    intro hm
    rcases mem_append.mp hm with hm | hm
    · exact hf.id hm
    · exact (hf.action _ hm).2.2.2 rfl
  constructor
  · intro hr
    obtain ⟨s, hs, -, hdec⟩ := hr.segment
    rw [append_cancel_left (hs.symm.trans hraw)] at hdec
    have hbytes := unescape_front_eq_iff.mp hdec
    -- the segment is the last of the path, so it is no dot segment
    rw [cut_of_not_mem hbytes.2.1, cut_of_not_mem hbytes.1] at hraw
    have hmem : t.segment ∈ split '/' u.rawPath := by
      rw [hraw, hf.dir.split hslash]
      exact mem_append_right _ (mem_singleton_self _)
    exact ⟨(segment_plain_iff hf.action).mp hbytes,
      hr.dots _ hmem _ (unescape_eq_self hbytes.2.2)⟩
  · rintro ⟨hid, hdots⟩
    have hbytes := (segment_plain_iff hf.action).mpr hid
    rw [cut_of_not_mem hbytes.2.1] at hfrag hraw hquery
    rw [cut_of_not_mem hbytes.1] at hraw
    refine ⟨⟨t.segment, hraw, hslash, unescape_eq_self hbytes.2.2⟩, ?_, ?_, ?_⟩
    · simpa [hbytes.1] using hquery
    · exact (some.inj hfrag).symm
    intro s hs e he
    rw [hraw, hf.dir.split hslash] at hs
    rcases mem_append.mp hs with hs | hs
    · -- a word of the directory decodes to itself
      have hpct : ('%' : UInt8) ∉ s := fun hm => by
        have := all_eq_true.mp hf.dir.2.2.1 _
          (mem_of_mem_dropLast (mem_of_mem_splitOn hs hm))
        revert this
        decide
      rw [unescape_eq_self hpct] at he
      cases he
      exact hf.dir.2.2.2 s hs
    · cases mem_singleton.mp hs
      rw [unescape_eq_self hbytes.2.2] at he
      cases he
      exact hdots

end Reach

/-- **A by-id route sends the URL of its target exactly when the id can stand in a URL as it is**:
it has no `?`, `#` or `%`, and with the action it is no dot segment. -/
theorem by_id_reaches_iff {authority : Bytes → Option Bytes} (core : Url.Origin authority)
    (route : ByIDRoute) (r : ProxyRequest) (sent : Sent) (h : route.serve core r = .ok sent) :
    ∃ t, route.target r.path = some t ∧ (Reaches sent.url t ↔ t.Clean) := by
  obtain ⟨t, ht, hu⟩ := serve_target h
  exact ⟨t, ht, reaches_iff (target_fixed ht) hu⟩

def coreOrigin : Url.Origin some where
  scheme := "https"
  host := "core:9443"
  scheme_ne := by decide
  scheme_lower := forall_mem_of_all (by decide)
  host_ne := by decide
  host_plain := forall_mem_of_all (by decide)
  host_ok := rfl

def tenantIdentity : Identity :=
  ⟨{ zeroClaims with tenant := "acme", isolationTier := "row" }, "t"⟩

/-- A ticket with a plain id is reached. -/
theorem plain_ticket_reached :
    ∃ sent, ByIDRoute.ticket.serve coreOrigin
        ⟨.post, "/api/tickets/T-1:transition", some tenantIdentity, .ok []⟩ = .ok sent ∧
      ∃ t : Target, t.segment = "T-1:transition" ∧ Reaches sent.url t := by
  obtain ⟨sent, hs⟩ : ∃ sent, ByIDRoute.ticket.serve coreOrigin
      ⟨.post, "/api/tickets/T-1:transition", some tenantIdentity, .ok []⟩ = .ok sent := ⟨_, rfl⟩
  obtain ⟨t, ht, hiff⟩ := by_id_reaches_iff coreOrigin .ticket _ sent hs
  cases ht
  exact ⟨sent, hs, _, by decide, hiff.mpr (by decide)⟩

/-- A spare part with a question mark in its id: another spare part is asked for, with a query. -/
theorem question_mark_spare_queries :
    ∃ sent t, ByIDRoute.spare.serve coreOrigin
        ⟨.get, "/api/spares/P?x=1", some tenantIdentity, .ok []⟩ = .ok sent ∧
      ByIDRoute.spare.target "/api/spares/P?x=1" = some t ∧
      sent.url.path = "/v1/spares/P" ∧ sent.url.rawQuery = some (lit "x=1") ∧
      ¬Reaches sent.url t := by
  refine ⟨_, _, rfl, rfl, by decide, by decide, ?_⟩
  intro hr
  exact absurd hr.query (by decide)

end Cios.Apigw
