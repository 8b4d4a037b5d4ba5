import Cios.Http.Handler

/-!
# HTTP — tickets and inspection forms

The handlers of `/v1/tickets` and `/v1/inspections/form/` (`core/tickets.go`,
`core/inspection_form.go`).  A ticket is written by `POST` alone: on the collection, under the
suffixes `:transition`, `:note` and `:assign`, and on its inspection form and the form's photos.

The notifications a handler sends after its write are left out.
-/

namespace Cios.Http.Core
open Text
open Cios.Rbac (Action)
open Cios.Store

variable {V : Type} (env : Env V) (r : Request) (c : Ctx)

/-! ### Tickets -/

def allowedTicketState (s : Bytes) : Bool :=
  s = "open" || s = "acknowledged" || s = "resolved" || s = "closed"

def ticketIDPattern : Bytes → Bool := idPattern "tk_"

def allowedTransition (source target : Bytes) : Bool :=
  if source = "open" then target = "acknowledged" || target = "closed"
  else if source = "acknowledged" then target = "resolved" || target = "closed"
  else if source = "resolved" then target = "closed"
  else false

/-- The audit row of a change; whether it could be written does not matter. -/
def appendTicketAudit (ticketID op source target : Bytes) (k : Handler V) : Handler V :=
  outside (.newID "ta_") fun id => outside .now fun time =>
    work (.appendTicketAudit ⟨id, ticketID, op, source, target, auditName c, time⟩) fun _ => k

variable (id : Bytes)

def withTicket (k : Ticket → Handler V) : Handler V :=
  work (.getTicket id) <| onFound (notFound "ticket not found" id) k

/-- A write of a ticket that was read, at the version it was read at. -/
def putTicketAt (t : Ticket) (k : Ticket → Handler V) : Handler V :=
  work (.putTicket t t.resourceVersion) fun res =>
    match res with
    | .ok out => k out
    | .error e =>
      if e.sentinel = some .versionConflict then
        problem 409 "version-conflict" "ticket was updated concurrently; refetch and retry" e.text
      else storeError e

def serveTicketsList : Handler V :=
  checkParam r "severity" "bad severity" allowedSeverity <|
    checkParam r "state" "bad state" allowedTicketState <|
    withGlob env r fun glob => withPageSize r fun size =>
      withPageToken [] env.decodePageToken r fun cursor =>
        work .listTickets <| onOk fun all =>
          let severity := r.queryGet "severity"
          let state := r.queryGet "state"
          indexPage env cursor size
            (all.filter fun t => (severity = [] || t.severity = severity) &&
              (state = [] || t.state = state) && glob.matches t.assetPath &&
              allowed env c .read t.assetPath)
            fun shown next => respond 200 (.tickets shown next)

def newTicket (req : TicketCreateRequest) (id : Bytes) (now : Int) : Ticket where
  id := id
  alarmID := req.alarmID
  assetPath := req.assetPath
  title := req.title
  severity := req.severity
  state := "open"
  assignee := req.assignee
  openedAt := now
  ackedAt := none
  resolvedAt := none
  closedAt := none
  escalatedAt := none
  resourceVersion := 0
  runbook := []

def serveTicketsCreate : Handler V :=
  decodeBody (2 ^ 16) env.ticketCreate r fun req =>
    if req.assetPath = [] then badRequest "missing asset_path" []
    else orElse (env.parseAssetPath req.assetPath)
      (fun e => problem 400 "bad-path" "bad asset path" e) fun _ =>
    if req.title = [] then badRequest "missing title" []
    else if !allowedSeverity req.severity then badRequest "bad severity" req.severity
    else checkScope env c .controlWrite req.assetPath <|
      outside .now fun now => outside (.newID "tk_") fun id =>
        let t := newTicket req id now
        work (.putTicket t 0) fun res =>
          match res with
          | .error e =>
            if e.sentinel = some .duplicateActiveTicket then
              problem 409 "conflict" "duplicate active ticket"
                (lit "an open ticket already exists for alarm_id " ++ req.alarmID)
            else storeError e
          | .ok _ => appendTicketAudit c t.id "created" [] t.state <| respond 201 (.ticket t)

def serveTicketGet : Handler V :=
  withTicket id fun t => checkScope env c .read t.assetPath <|
    work (.listTicketNotes id) <| onOk fun notes => respond 200 (.ticketWithNotes t notes)

/-- The ticket in its new state; a state's time is kept from its first arrival. -/
def moveTicket (t : Ticket) (target : Bytes) (now : Int) : Ticket :=
  let stamp := fun (at? : Option Int) => some (at?.getD now)
  let t := { t with state := target }
  if target = "acknowledged" then { t with ackedAt := stamp t.ackedAt }
  else if target = "resolved" then { t with resolvedAt := stamp t.resolvedAt }
  else if target = "closed" then { t with closedAt := stamp t.closedAt }
  else t

def serveTicketTransition : Handler V :=
  decodeBody (2 ^ 16) env.ticketTo r fun target =>
    if !allowedTicketState target then
      problem 422 "invalid-transition" "invalid transition target" target
    else withTicket id fun t =>
      if !allowedTransition t.state target then
        problem 422 "invalid-transition" "illegal transition" (t.state ++ lit "->" ++ target)
      else checkScope env c .controlWrite t.assetPath <| outside .now fun now =>
        putTicketAt (moveTicket t target now) fun out =>
          appendTicketAudit c id "transitioned" t.state out.state <| respond 200 (.ticket out)

def serveTicketNote : Handler V :=
  decodeBody (2 ^ 13 + 1024) env.ticketNoteBody r fun body =>
    if body = [] then badRequest "missing body" []
    else if 2 ^ 13 < body.length then badRequest "body too large" []
    else withTicket id fun t => checkScope env c .controlWrite t.assetPath <|
      outside (.newID "tn_") fun noteID => outside .now fun now =>
        let author := match c.principal with
          | some p => p.subject
          | none => "anonymous"
        let note : TicketNote := ⟨noteID, id, author, body, now⟩
        work (.appendTicketNote note) <| onOk fun _ => respond 201 (.ticketNote note)

def serveTicketAssign : Handler V :=
  decodeBody (2 ^ 16) env.ticketAssignee r fun assignee =>
    withTicket id fun t => checkScope env c .controlWrite t.assetPath <|
      putTicketAt { t with assignee := assignee } fun out =>
        appendTicketAudit c id "assigned" [] [] <| respond 200 (.ticket out)

def serveTicketHistory : Handler V :=
  withTicket id fun t => checkScope env c .read t.assetPath <|
    work (.listTicketAudits id) <| onOk fun entries => respond 200 (.ticketAudits entries)

def serveTickets : Handler V :=
  match r.method with
  | .get => serveTicketsList env r c
  | .post => serveTicketsCreate env r c
  | _ => methodNotAllowed

inductive TicketSuffix where
  | none
  | transition
  | note
  | assign
  | history
deriving DecidableEq, Repr

def ticketSuffix (rest : Bytes) : Bytes × TicketSuffix :=
  match cutSuffix ":transition" rest with
  | some id => (id, .transition)
  | none => match cutSuffix ":note" rest with
    | some id => (id, .note)
    | none => match cutSuffix ":assign" rest with
      | some id => (id, .assign)
      | none => match cutSuffix ":history" rest with
        | some id => (id, .history)
        | none => (rest, .none)

def serveTicket : Handler V :=
  let rest := below "/v1/tickets/" r
  if rest = [] then badRequest "missing id" []
  else
    let (id, suffix) := ticketSuffix rest
    if id = [] then badRequest "missing id" []
    else if !ticketIDPattern id then badRequest "bad ticket id" id
    else match suffix, r.method with
      | .none, .get => serveTicketGet env c id
      | .transition, .post => serveTicketTransition env r c id
      | .note, .post => serveTicketNote env r c id
      | .assign, .post => serveTicketAssign env r c id
      | .history, .get => serveTicketHistory env c id
      | _, _ => methodNotAllowed

/-! ### Inspection forms -/

def inspectionFormPrefix : Bytes := "inspection:"

def inspectionFormResultPrefix : Bytes := "result:"

def inspectionFormPhotoPrefix : Bytes := "result:photo="

/-- The checklist in a runbook, without the results appended to it. -/
def decodeInspectionRunbook (runbook : Bytes) : List Bytes :=
  match cutPrefix inspectionFormPrefix runbook with
  | none => []
  | some body => (split '\n' body).filter fun line =>
    line ≠ [] && !inspectionFormResultPrefix.isPrefixOf line

/-- A runbook that ends its last line. -/
def endLine (runbook : Bytes) : Bytes :=
  if runbook ≠ [] ∧ !(lit "\n").isSuffixOf runbook then runbook ++ lit "\n" else runbook

def appendInspectionResult (runbook note : Bytes) (checked : List Int) (now : Int) : Bytes :=
  endLine runbook ++ inspectionFormResultPrefix ++ lit "submitted=" ++ env.formatTime now ++
    lit "\n" ++ inspectionFormResultPrefix ++ lit "checked=" ++
    (lit ",").intercalate (checked.map fun n => lit (toString n)) ++ lit "\n" ++
    (if note = [] then []
      else inspectionFormResultPrefix ++ lit "note=" ++ note.filter (· ≠ ('\r' : UInt8)) ++
        lit "\n")

def appendInspectionPhoto (runbook relPath : Bytes) : Bytes :=
  endLine runbook ++ inspectionFormPhotoPrefix ++ relPath ++ lit "\n"

/-- The boxes checked, each once and in order. -/
def parseCheckedIndices (values : List Bytes) : List Int :=
  ((values.filterMap atoi).filter (0 ≤ ·)).eraseDups.insertionSort (· ≤ ·)

/-- The ticket of a form: it must be an inspection's, and in the principal's scope. -/
def loadInspectionFormTicket (action : Action) (k : Ticket → Handler V) :
    Handler V :=
  withTicket id fun t =>
    if !inspectionFormPrefix.isPrefixOf t.runbook then
      notFound "ticket is not an inspection" id
    else checkScope env c action t.assetPath (k t)

def serveInspectionFormGet : Handler V :=
  loadInspectionFormTicket env c id .read fun t =>
    respond 200 (.inspectionForm t (decodeInspectionRunbook t.runbook))

def serveInspectionFormPost : Handler V :=
  loadInspectionFormTicket env c id .controlWrite fun t =>
    orElse (env.parseForm r.body) (badRequest "bad form") fun form =>
      let notes := (form.find? fun kv => kv.1 = lit "notes").elim [] Prod.snd
      if 2 ^ 16 < notes.length then badRequest "notes too large" []
      else
        let checked := parseCheckedIndices
          ((form.filter fun kv => kv.1 = lit "item").map Prod.snd)
        if !allowedTransition t.state "resolved" then
          problem 422 "invalid-transition" "illegal transition" (t.state ++ lit "->resolved")
        else outside .now fun now =>
          let t := { t with
            runbook := appendInspectionResult env t.runbook notes checked now
            state := "resolved"
            resolvedAt := some (t.resolvedAt.getD now) }
          work (.putTicket t 0) <| onOk fun _ =>
            respond 303 (.redirect (lit "/v1/inspections/form/" ++ t.id))

def servePhotoUpload : Handler V :=
  loadInspectionFormTicket env c id .controlWrite fun t =>
    if env.inspectionPhotoDir = [] then
      problem 503 "disabled" "photo upload disabled" "inspection photo dir not configured"
    else outside (.savePhoto t.id r) fun saved => orElse saved refuse fun photo =>
      work (.putTicket { t with runbook := appendInspectionPhoto t.runbook photo.path } 0) <|
        onOk fun _ => respond 200 (.photo photo)

def serveInspectionForm : Handler V :=
  let rest := below "/v1/inspections/form/" r
  if rest = [] ∨ rest = r.path then badRequest "missing ticket id" []
  else match cutSuffix "/photo" rest with
    | some id =>
      if !ticketIDPattern id then badRequest "bad ticket id" id
      else if r.method ≠ .post then methodNotAllowed
      else servePhotoUpload env r c id
    | none =>
      if !ticketIDPattern rest then badRequest "bad ticket id" rest
      else match r.method with
        | .get => serveInspectionFormGet env c rest
        | .post => serveInspectionFormPost env r c rest
        | _ => methodNotAllowed

/-! ### What only reads -/

section ReadOnly

variable {env r c}

theorem ReadOnly.withTicket {id : Bytes} {k : Ticket → Handler V} (hk : ∀ t, ReadOnly (k t)) :
    ReadOnly (Core.withTicket id k) :=
  .work rfl fun _ => .onFound .answer hk

@[simp] theorem serveTickets_readOnly (h : r.method ≠ .post) : ReadOnly (serveTickets env r c) := by
  refine readOnly_collection (.checkParam <| .checkParam <| .withGlob fun _ => ?_) h
  exact .withPageSize fun _ => .withPageToken fun _ => .work rfl fun _ => .onOk fun _ =>
    .indexPage fun _ _ => .answer

/-- The middleware and the handler agree on what is a writing suffix. -/
theorem ticketSuffix_of_ticketVerb {rest : Bytes} (h : ticketVerb rest = none) :
    (ticketSuffix rest).2 = .none ∨ (ticketSuffix rest).2 = .history := by
  unfold ticketVerb at h
  split at h
  · cases h
  rename_i htransition
  split at h
  · cases h
  rename_i hnote
  rw [ticketSuffix, htransition, hnote, h]
  cases cutSuffix ":history" rest with
  | none => exact .inl rfl
  | some id => exact .inr rfl

theorem serveTicket_readOnly (h : ticketVerb (below "/v1/tickets/" r) = none) :
    ReadOnly (serveTicket env r c) := by
  have hs := ticketSuffix_of_ticketVerb h
  unfold serveTicket
  dsimp only
  generalize ticketSuffix (below "/v1/tickets/" r) = named at hs ⊢
  obtain ⟨id, suffix⟩ := named
  refine .check <| .check <| .check ?_
  have hread : ReadOnly (serveTicketGet env c id) ∧ ReadOnly (serveTicketHistory env c id) :=
    ⟨.withTicket fun _ => .checkScope <| .work rfl fun _ => .onOk fun _ => .answer,
      .withTicket fun _ => .checkScope <| .work rfl fun _ => .onOk fun _ => .answer⟩
  -- the writing suffixes are ruled out, the reading ones want `GET`
  rcases hs with rfl | rfl
  · cases r.method <;> first | exact hread.1 | exact .answer
  · cases r.method <;> first | exact hread.2 | exact .answer

@[simp] theorem serveInspectionForm_readOnly (h : r.method ≠ .post) :
    ReadOnly (serveInspectionForm env r c) := by
  refine .check ?_
  split
  · refine .check ?_
    exact .ite (fun _ => .answer) fun hm => absurd (not_not.mp hm) h
  refine .check ?_
  split
  · exact .withTicket fun _ => .check <| .checkScope .answer
  · exact absurd ‹_› h
  · exact .answer

end ReadOnly

end Cios.Http.Core
