import Cios.Http.AuthMW
import Cios.Http.Admin
import Cios.Store.Operations

/-!
# HTTP — what the core's handlers are made of

A handler is a program (`Handler`) over everything it can reach: the store, by its tenancy and its
operational methods, and what lies outside of it (`Outside`).  The pure functions a handler calls
from elsewhere are in `Env`.

`ReadOnly` says that a handler calls no method of the store that may change it, whatever it is
answered; it has one rule for each of the steps that the handlers share.
-/

namespace Cios.Http.Core
open Text Effect
open Cios.Rbac (Principal Action authorize compileGlob Glob)
open Cios.Store
open Cios.Control (SetAudit PendingControl Execution ControlResult)

variable {V : Type}

/-! ### Outside the store -/

structure LayoutInstance (V : Type) where
  id : Bytes
  path : Bytes
  type : Bytes
  model : Bytes
  packType : Bytes
  x : V
  y : V
  rot : V

structure LayoutEdge where
  id : Bytes
  fromID : Bytes
  toID : Bytes
  relation : Bytes
deriving DecidableEq, Repr

structure LayoutWritebackResult where
  time : Int
  actor : Bytes
  assetsCreated : Nat
  assetsUpdated : Nat
  edgesKept : Nat
  errors : List Bytes
deriving DecidableEq, Repr

structure SiteLayout (V : Type) where
  site : Bytes
  instances : List (LayoutInstance V)
  edges : List LayoutEdge
  updatedAt : Int
  updatedBy : Bytes
  lastWriteback : Option LayoutWritebackResult

/-- Why an import failed, as far as the handler tells the reasons apart. -/
inductive ImportError (V : Type) where
  | exists
  | validation (text : Bytes) (lint : Json V)
  | failed (text : Bytes)

structure ModelPack (V : Type) where
  pack : Json V
  bindings : Json V
  lint : Option (Json V)

structure SavedPhoto where
  path : Bytes
  name : Bytes
  size : Nat

/-- What a handler reaches besides the store. -/
inductive Outside (V : Type) where
  | now
  | newID (tag : Bytes)
  | dedupLookup (key : Bytes)
  | dedupRemember (key : Bytes) (status : Nat) (a : Asset V)
  | lookUpPending (id : Bytes) (now : Int)
  | insertPending (now : Int) (pend : PendingControl V)
  | consumePending (id : Bytes)
  | dispatchControl (x : Execution V) (auditID : Bytes)
  | proxyToVM (upstream rawQuery : Bytes)
  | fetchVM (query : Bytes)
  | assetHasTelemetryBatch (paths : List Bytes) (window : Bytes)
  | fetchVMAssetPaths (window : Bytes)
  | scanners
  | readRunbook (key : Bytes)
  | savePhoto (ticketID : Bytes) (r : Request)
  | listModelPacks
  | readModelPack (typ model : Bytes)
  | getModelPackDetail (typ model : Bytes)
  | runModelPackLint (typ model : Bytes)
  | runG8Conform (typ model actor : Bytes) (dryRun : Bool) (mappings : List (Bytes × Bytes))
  | saveBindings (typ model principal notes : Bytes) (bindings : Json V)
  | importUSDPack (typ model filename data : Bytes) (force : Bool)
  | listSiteLayoutSites
  | loadSiteLayout (site : Bytes)
  | saveSiteLayout (lay : SiteLayout V) (actor : Bytes)
  | kickSceneRebuild (site : Bytes)
  | loadSceneJob (site : Bytes)
  | onUsageUpserted (rec : UsageRecord V)

/-- An error is its text; of a missing runbook and of a degraded backend only the fact is told. -/
abbrev Outside.Ret : Outside V → Type
  | .now => Int
  | .newID _ => Bytes
  | .dedupLookup _ => Option (Nat × Asset V)
  | .dedupRemember _ _ _ => Unit
  | .lookUpPending _ _ => Except Problem (PendingControl V)
  | .insertPending _ _ => Unit
  | .consumePending _ => Bool
  | .dispatchControl _ _ => Except Bytes ControlResult
  | .proxyToVM _ _ => Except Bytes (Nat × Bytes)
  | .fetchVM _ => Except Bytes Bytes
  | .assetHasTelemetryBatch _ _ => Option (List Bytes)
  | .fetchVMAssetPaths _ => Option (List Bytes)
  | .scanners => Json V
  | .readRunbook _ => Except (Option Bytes) Bytes
  | .savePhoto _ _ => Except Problem SavedPhoto
  | .listModelPacks => Except Bytes (List (Json V))
  | .readModelPack _ _ => Option (Except Bytes Bytes)
  | .getModelPackDetail _ _ => Except Bytes (ModelPack V)
  | .runModelPackLint _ _ => Except Bytes (Json V)
  | .runG8Conform _ _ _ _ _ => Except Bytes (Json V)
  | .saveBindings _ _ _ _ _ => Except Bytes (Json V)
  | .importUSDPack _ _ _ _ _ => Except (ImportError V) (Json V)
  | .listSiteLayoutSites => Except Bytes (List Bytes)
  | .loadSiteLayout _ => Except Bytes (SiteLayout V)
  | .saveSiteLayout _ _ => Except Bytes (SiteLayout V)
  | .kickSceneRebuild _ => Except Bytes (Json V)
  | .loadSceneJob _ => Except Bytes (Json V)
  | .onUsageUpserted _ => Unit

/-- Everything a handler calls. -/
inductive Op (V : Type) where
  | tenancy (c : Call)
  | work (c : WorkCall V)
  | outside (o : Outside V)

abbrev Op.Ret : Op V → Type
  | .tenancy c => c.Ret
  | .work c => c.Ret
  | .outside o => o.Ret

/-- The operation is a method of the store that may change it. -/
def Op.mutates : Op V → Bool
  | .tenancy c => c.mutates
  | .work c => c.mutates
  | .outside _ => false

/-! ### Bodies -/

structure PutAssetRequest (V : Type) where
  spec : Spec V
  resourceVersion : Int
  requestID : Bytes

structure TicketCreateRequest where
  assetPath : Bytes
  title : Bytes
  severity : Bytes
  assignee : Bytes
  alarmID : Bytes

structure CreatePMScheduleRequest where
  assetPath : Bytes
  kind : Bytes
  intervalDays : Int
  title : Bytes
  severity : Bytes
  enabled : Option Bool

structure CreateInspectionRequest where
  assetPath : Bytes
  title : Bytes
  items : List Bytes
  interval : Int
  enabled : Option Bool

structure MaintenanceWindowCreateRequest where
  assetPath : Bytes
  startsAt : Bytes
  endsAt : Bytes
  reason : Bytes

structure SpareCreateRequest where
  sku : Bytes
  name : Bytes
  qty : Int
  minQty : Int
  location : Bytes

structure SpareAdjustRequest where
  delta : Int
  ticketID : Bytes

structure Measurement (V : Type) where
  assetPath : Bytes
  time : Int
  quantity : V
  unit : Bytes

/-- A time that was not sent is the zero time, here `none`. -/
structure UsageComputeRequest (V : Type) where
  periodStart : Option Int
  periodEnd : Option Int
  granularity : Bytes
  kinds : List Bytes
  measurements : List (Measurement V)

structure ConformRequest where
  dryRun : Bool
  mode : Bytes
  mappings : List (Bytes × Bytes)

structure PutBindingsRequest (V : Type) where
  notes : Bytes
  bindings : Json V

/-- The fields of an import form, and the uploaded file with its name. -/
structure ImportForm where
  type : Bytes
  model : Bytes
  force : Bytes
  filename : Bytes
  data : Bytes

/-- The pure functions the handlers call: libraries, the point dictionary, usage arithmetic,
settings.  A decoder answers the value or the error's text; a body with one field decodes to it. -/
structure Env (V : Type) extends Control.Env V, Admin.Std where
  putAsset : Bytes → Except Bytes (PutAssetRequest V)
  lifecycleTo : Bytes → Except Bytes Bytes
  ticketCreate : Bytes → Except Bytes TicketCreateRequest
  ticketTo : Bytes → Except Bytes Bytes
  ticketNoteBody : Bytes → Except Bytes Bytes
  ticketAssignee : Bytes → Except Bytes Bytes
  pmCreate : Bytes → Except Bytes CreatePMScheduleRequest
  inspectionCreate : Bytes → Except Bytes CreateInspectionRequest
  windowCreate : Bytes → Except Bytes MaintenanceWindowCreateRequest
  spareCreate : Bytes → Except Bytes SpareCreateRequest
  spareAdjust : Bytes → Except Bytes SpareAdjustRequest
  usageCompute : Bytes → Except Bytes (UsageComputeRequest V)
  conform : Bytes → Except Bytes ConformRequest
  putBindings : Bytes → Except Bytes (PutBindingsRequest V)
  siteLayout : Bytes → Except Bytes (SiteLayout V)
  importForm : Request → Except Problem ImportForm
  /-- The fields of a form body of at most 64 KiB. -/
  parseForm : Except Bytes Bytes → Except Bytes (List (Bytes × Bytes))
  /-- RFC 3339, to nanoseconds. -/
  parseTime : Bytes → Except Bytes Int
  formatTime : Int → Bytes
  addDays : Int → Int → Int
  parseBool : Bytes → Option Bool
  /-- `ParseAssetPath`: the type of the leaf. -/
  parseAssetPath : Bytes → Except Bytes Bytes
  globError : Bytes → Bytes
  selector : Bytes → Except Bytes Bytes
  pointValue : Bytes → Bytes → Except Problem (Json V)
  vmSuccess : Bytes → Bool
  pathClean : Bytes → Bytes
  layoutOk : SiteLayout V → Except Bytes (SiteLayout V)
  relationNames : List Bytes
  typeVocab : List Bytes
  computeRackHourUsage : List (Asset V) → Int → Int → UsageGranularity → List (UsageRecord V)
  computeEnergyUsage : List (Measurement V) → Int → Int → UsageGranularity → List (UsageRecord V)
  runbookDir : Bytes
  inspectionPhotoDir : Bytes
  sinkWired : Bool

def Env.plain : Env Nat where
  __ := Control.pumpEnv
  __ := Admin.Std.plain
  putAsset _ := .error []
  lifecycleTo _ := .error []
  ticketCreate _ := .error []
  ticketTo _ := .error []
  ticketNoteBody _ := .error []
  ticketAssignee _ := .error []
  pmCreate _ := .error []
  inspectionCreate _ := .error []
  windowCreate _ := .error []
  spareCreate _ := .error []
  spareAdjust _ := .error []
  usageCompute _ := .error []
  conform _ := .error []
  putBindings _ := .error []
  siteLayout _ := .error []
  importForm _ := .error ⟨400, "bad-request", "bad form", []⟩
  parseForm _ := .error []
  parseTime _ := .error []
  formatTime t := lit (toString t)
  addDays t n := t + n
  parseBool _ := none
  parseAssetPath p := .ok p
  globError _ := []
  selector p := .ok p
  pointValue _ _ := .error ⟨404, "path-not-found", "no value", []⟩
  vmSuccess _ := false
  pathClean p := p
  layoutOk lay := .ok lay
  relationNames := []
  typeVocab := []
  computeRackHourUsage _ _ _ _ := []
  computeEnergyUsage _ _ _ _ := []
  runbookDir := []
  inspectionPhotoDir := "photos"
  sinkWired := true

structure UpcomingItem where
  kind : Bytes
  id : Bytes
  assetPath : Bytes
  title : Bytes
  nextDue : Int
  overdue : Bool
deriving DecidableEq, Repr

structure ReconcileEntry where
  path : Bytes
  lifecycle : Bytes
  state : Bytes
  telemetryPresent : Bool
  telemetryUnknown : Bool
deriving DecidableEq, Repr

/-- `orphans` is `none` for a caller below the role that may see them. -/
structure ReconcileResponse where
  window : Bytes
  degraded : Bool
  entries : List ReconcileEntry
  orphans : Option (List Bytes)
deriving DecidableEq, Repr

/-- The bodies of successful answers.  Of the ops report the rows behind its figures are kept. -/
inductive Body (V : Type) where
  | admin (b : Admin.Body)
  | asset (a : Asset V)
  | assets (items : List (Asset V)) (nextPageToken : Bytes)
  | deletedAssets (n : Int)
  | assetAudits (items : List AssetAudit)
  | alarm (a : Alarm)
  | alarms (items : List Alarm) (nextPageToken : Bytes)
  | ticket (t : Ticket)
  | ticketWithNotes (t : Ticket) (notes : List TicketNote)
  | tickets (items : List Ticket) (nextPageToken : Bytes)
  | ticketNote (n : TicketNote)
  | ticketAudits (items : List TicketAudit)
  | pmSchedule (p : PMSchedule)
  | pmSchedules (items : List PMSchedule)
  | inspection (t : InspectionTemplate)
  | inspections (items : List InspectionTemplate)
  | inspectionForm (t : Ticket) (items : List Bytes)
  | redirect (location : Bytes)
  | photo (p : SavedPhoto)
  | upcoming (items : List UpcomingItem)
  | window (w : MaintenanceWindow)
  | windows (items : List MaintenanceWindow) (nextPageToken : Bytes)
  | deletedWindow (id : Bytes)
  | spare (sp : SparePart) (lowStock : Bool) (recent : List SpareTxn)
  | spares (items : List SparePart) (nextPageToken : Bytes)
  | sparePart (sp : SparePart)
  | usage (items : List (UsageRecord V)) (nextPageToken : Bytes)
  | usageCSV (items : List (UsageRecord V))
  | opsReport (tickets : List Ticket) (alarms : List Alarm) (top : Nat) (since : Option Int)
  | reconcile (rep : ReconcileResponse)
  | cases (items : List Ticket) (csv : Bool)
  | customerSLA
  | markdown (text : Bytes)
  | health
  | ready (down : List Bytes)
  | control (a : Control.Answer V)
  | setAudits (items : List (SetAudit V)) (nextPageToken : Bytes)
  | upstream (body : Bytes)
  | doc (j : Json V)
  | modelPacks (items : List (Json V))
  | modelPack (p : ModelPack V)
  | importRefused (text : Bytes) (lint : Json V)
  | file (data : Bytes)
  | vocab (types : List Bytes)
  | siteLayouts (sites relations : List Bytes)
  | siteLayout (lay : SiteLayout V)
  | writeback (lay : SiteLayout V) (res : LayoutWritebackResult)
      (scene : Option (Except Bytes (Json V)))

abbrev Handler (V : Type) := Prog (Op V) Op.Ret (Reply (Body V))

/-! ### Shared steps -/

def work (c : WorkCall V) (k : c.Ret → Handler V) : Handler V := .call (.work c) k

def tenancy (c : Call) (k : c.Ret → Handler V) : Handler V := .call (.tenancy c) k

def outside (o : Outside V) (k : o.Ret → Handler V) : Handler V := .call (.outside o) k

def respond (status : Nat) (b : Body V) : Handler V := .done (.json status b)

def refuse (p : Problem) : Handler V := .done (.problem p)

def problem (status : Nat) (slug title detail : Bytes) : Handler V :=
  refuse ⟨status, slug, title, detail⟩

def badRequest (title detail : Bytes) : Handler V := problem 400 "bad-request" title detail

def notFound (title detail : Bytes) : Handler V := problem 404 "path-not-found" title detail

def methodNotAllowed : Handler V := problem 405 "bad-request" "method not allowed" []

/-- `writeInternalProblem`: the error itself is only logged. -/
def internalProblem (status : Nat) (slug title : Bytes) : Handler V :=
  problem status slug title "internal error; see request_id"

def storeError (e : StoreError) : Handler V := problem 500 "bad-request" "store error" e.text

/-- The rest of the handler on a store's answer; an error of the store is a 500. -/
def onOk {α : Type} (k : α → Handler V) : Except StoreError α → Handler V
  | .error e => storeError e
  | .ok a => k a

/-- As `onOk`, with the store's error only logged. -/
def onOkInternal {α : Type} (k : α → Handler V) : Except StoreError α → Handler V
  | .error _ => internalProblem 500 "bad-request" "store error"
  | .ok a => k a

def onFound {α : Type} (missing : Handler V) (k : α → Handler V) :
    Except StoreError (Option α) → Handler V :=
  onOk fun found =>
    match found with
    | none => missing
    | some a => k a

def orElse {ε α : Type} (x : Except ε α) (no : ε → Handler V) (k : α → Handler V) : Handler V :=
  match x with
  | .error e => no e
  | .ok a => k a

def withSome {α : Type} (x : Option α) (no : Handler V) (k : α → Handler V) : Handler V :=
  match x with
  | none => no
  | some a => k a

variable (env : Env V) (c : Ctx)

/-- Whether the scopes of the request's principal, if it has one, admit the action on the path. -/
def allowed (action : Action) (path : Bytes) : Bool :=
  match c.principal with
  | none => true
  | some p => authorize env.closed p action path = .ok ()

/-- The scope check of one row, refused in the middleware's words. -/
def checkScope (action : Action) (path : Bytes) (k : Handler V) :
    Handler V :=
  if allowed env c action path then k
  else problem 403 "forbidden" "Forbidden" "principal not authorized for this asset path"

/-- The scope check of one row, refused with the row's path. -/
def inScope (action : Action) (path : Bytes) (k : Handler V) :
    Handler V :=
  if allowed env c action path then k else problem 403 "forbidden" "out of scope" path

/-- The request is not an admin's. -/
def NonAdmin : Prop := ∀ p, c.principal = some p → p.role ≠ .admin

def requireOrgAdmin (k : Principal → Handler V) : Handler V :=
  match c.principal with
  | some p => if p.role = .admin then k p else problem 403 "forbidden" "forbidden" []
  | none => problem 403 "forbidden" "forbidden" []

def subject : Bytes :=
  match c.principal with
  | some p => p.subject
  | none => []

def auditName : Bytes := if subject c = [] then "anonymous" else subject c

def readBody (limit : Nat) (r : Request) (k : Bytes → Handler V) : Handler V :=
  orElse r.body (badRequest "read body") fun b => k (b.take limit)

def decodeBody {α : Type} (limit : Nat) (decode : Bytes → Except Bytes α) (r : Request)
    (k : α → Handler V) : Handler V :=
  readBody limit r fun b => orElse (decode b) (badRequest "bad json") k

/-- An empty body stands for the zero value. -/
def decodeOptional {α : Type} (zero : α) (decode : Bytes → Except Bytes α) (r : Request)
    (k : α → Handler V) : Handler V :=
  readBody (2 ^ 16) r fun b =>
    if b = [] then k zero else orElse (decode b) (badRequest "bad json") k

/-- The body decoded as it streams in, without a limit. -/
def decodeStream {α : Type} (decode : Bytes → Except Bytes α) (r : Request) (k : α → Handler V) :
    Handler V :=
  orElse (r.body >>= decode) (badRequest "bad json") k

/-- `[A-Z2-7]`. -/
def base32Byte (c : UInt8) : Bool := isUpper c || ('2' : UInt8) ≤ c && c ≤ ('7' : UInt8)

/-- A tag and sixteen bytes of base 32: the shape of the ids the core makes. -/
def idPattern (tag s : Bytes) : Bool :=
  match cutPrefix tag s with
  | some t => t.length = 16 && t.all base32Byte
  | none => false

def below (pattern : Bytes) (r : Request) : Bytes := (cutPrefix pattern r.path).getD r.path

theorem below_append {pattern rest : Bytes} {r : Request} (h : r.path = pattern ++ rest) :
    below pattern r = rest := by
  rw [below, cutPrefix_eq_some.mpr h, Option.getD_some]

def allowedSeverity (s : Bytes) : Bool :=
  s = "critical" || s = "major" || s = "minor" || s = "info"

/-! ### Paging and filters -/

def defaultPageSize : Nat := 100

variable (r : Request)

def withCount (key bad tooLarge : Bytes) (k : Nat → Handler V) : Handler V :=
  withSome (atoi (r.queryGet key)) (badRequest bad (r.queryGet key)) fun n =>
    if n ≤ 0 then badRequest bad (r.queryGet key)
    else if Admin.maxPageSize < n then badRequest tooLarge (r.queryGet key)
    else k n.toNat

def withPageSize (k : Nat → Handler V) : Handler V :=
  if r.queryGet "page_size" = [] then k defaultPageSize
  else withCount r "page_size" "bad page_size" "page_size > 1000" k

def withPageToken {α : Type} (none : α) (decode : Bytes → Option α) (r : Request)
    (k : α → Handler V) : Handler V :=
  if r.queryGet "page_token" = [] then k none
  else withSome (decode (r.queryGet "page_token")) (badRequest "bad page_token" []) k

/-- The `filter` parameter, by default everything. -/
def withGlob (k : Glob → Handler V) : Handler V :=
  let f := r.queryGet "filter"
  withSome (compileGlob "**") (problem 500 "bad-request" "default glob" (env.globError "**"))
    fun all => if f = [] then k all
      else withSome (compileGlob f) (badRequest "bad filter" (env.globError f)) k

/-- A parameter that must be one of a set when it is sent. -/
def checkParam (key bad : Bytes) (ok : Bytes → Bool) (k : Handler V) : Handler V :=
  if r.queryGet key ≠ [] ∧ !ok (r.queryGet key) then badRequest bad (r.queryGet key) else k

def withTime (key bad : Bytes) (k : Option Int → Handler V) :
    Handler V :=
  if r.queryGet key = [] then k none
  else orElse (env.parseTime (r.queryGet key)) (fun _ => badRequest bad (r.queryGet key))
    fun t => k (some t)

/-- A page by position: the cursor is the index it starts at. -/
def indexPage {α : Type} (cursor : Bytes) (size : Nat) (items : List α)
    (k : List α → Bytes → Handler V) : Handler V :=
  let page := fun (start : Nat) =>
    let rest := items.drop start
    k (rest.take size)
      (if size < rest.length then env.encodePageToken (lit (toString (start + size))) else [])
  if cursor = [] then page 0
  else
    let bad := badRequest "bad page_token (not an int)" cursor
    withSome (atoi cursor) bad fun n => if n < 0 then bad else page (min n.toNat items.length)

/-- `Time.UnixNano`: the arithmetic of `int64` wraps around. -/
def unixNano (t : Int) : Int := t.bmod (2 ^ 64)

/-- Whether a position is after a cursor of a time and an id; a time that is no number holds nothing
back. -/
def afterCursor (cursor : Bytes × Bytes) (time : Int) (id : Bytes) : Bool :=
  match atoi cursor.1 with
  | none => true
  | some t => if time ≠ t then t < time else !le id cursor.2

/-- The same in descending order. -/
def beforeCursor (cursor : Bytes × Bytes) (time : Int) (id : Bytes) : Bool :=
  match atoi cursor.1 with
  | none => true
  | some t => if time ≠ t then time < t else !le cursor.2 id

/-- The page and the token of the next, which names the last row shown. -/
def keyPage {α : Type} (token : α → Bytes) (size : Nat) (items : List α) : List α × Bytes :=
  (items.take size,
    if size < items.length then ((items.take size).getLast?.map token).getD [] else [])

/-! ### Handlers that only read -/

/-- The handler calls no method of the store that may change it, whatever it is answered. -/
def ReadOnly (h : Handler V) : Prop := h.Calls fun op => op.mutates = false

section ReadOnly

variable {α ε : Type}

theorem ReadOnly.answer {reply : Reply (Body V)} : ReadOnly (.done reply) := trivial

theorem ReadOnly.work {c : WorkCall V} {k : c.Ret → Handler V} (hc : c.mutates = false)
    (hk : ∀ a, ReadOnly (k a)) : ReadOnly (work c k) := ⟨hc, hk⟩

theorem ReadOnly.outside {o : Outside V} {k : o.Ret → Handler V} (hk : ∀ a, ReadOnly (k a)) :
    ReadOnly (outside o k) := ⟨rfl, hk⟩

theorem ReadOnly.ite {b : Prop} [Decidable b] {h h' : Handler V} (hb : b → ReadOnly h)
    (hn : ¬ b → ReadOnly h') : ReadOnly (if b then h else h') := by
  split
  · exact hb ‹_›
  · exact hn ‹_›

theorem ReadOnly.check {b : Prop} [Decidable b] {reply : Reply (Body V)} {h : Handler V}
    (hk : ReadOnly h) : ReadOnly (if b then .done reply else h) :=
  .ite (fun _ => .answer) fun _ => hk

variable {k : α → Handler V}

theorem ReadOnly.onOk {x : Except StoreError α} (hk : ∀ a, ReadOnly (k a)) :
    ReadOnly (onOk k x) := by
  cases x with
  | error e => exact .answer
  | ok a => exact hk a

theorem ReadOnly.onOkInternal {x : Except StoreError α} (hk : ∀ a, ReadOnly (k a)) :
    ReadOnly (onOkInternal k x) := by
  cases x with
  | error e => exact .answer
  | ok a => exact hk a

theorem ReadOnly.onFound {missing : Handler V} {x : Except StoreError (Option α)}
    (hm : ReadOnly missing) (hk : ∀ a, ReadOnly (k a)) : ReadOnly (onFound missing k x) := by
  refine .onOk fun found => ?_
  cases found with
  | none => exact hm
  | some a => exact hk a

theorem ReadOnly.orElse {x : Except ε α} {no : ε → Handler V} (hno : ∀ e, ReadOnly (no e))
    (hk : ∀ a, ReadOnly (k a)) : ReadOnly (orElse x no k) := by
  cases x with
  | error e => exact hno e
  | ok a => exact hk a

theorem ReadOnly.withSome {x : Option α} {no : Handler V} (hno : ReadOnly no)
    (hk : ∀ a, ReadOnly (k a)) : ReadOnly (withSome x no k) := by
  cases x with
  | none => exact hno
  | some a => exact hk a

variable {env : Env V} {r : Request} {c : Ctx}

theorem ReadOnly.checkScope {action : Action} {path : Bytes} {k : Handler V} (hk : ReadOnly k) :
    ReadOnly (checkScope env c action path k) :=
  .ite (fun _ => hk) fun _ => .answer

theorem ReadOnly.inScope {action : Action} {path : Bytes} {k : Handler V} (hk : ReadOnly k) :
    ReadOnly (inScope env c action path k) :=
  .ite (fun _ => hk) fun _ => .answer

theorem readOnly_requireOrgAdmin {k : Principal → Handler V} (h : NonAdmin c) :
    ReadOnly (requireOrgAdmin c k) := by
  unfold requireOrgAdmin
  split
  · rename_i p hp
    rw [if_neg (h p hp)]
    exact .answer
  · exact .answer

theorem ReadOnly.withPageSize {k : Nat → Handler V} (hk : ∀ n, ReadOnly (k n)) :
    ReadOnly (withPageSize r k) :=
  .ite (fun _ => hk _) fun _ => .withSome .answer fun _ =>
    .check <| .check <| hk _

theorem ReadOnly.withPageToken {none : α} {decode : Bytes → Option α} (hk : ∀ a, ReadOnly (k a)) :
    ReadOnly (withPageToken none decode r k) :=
  .ite (fun _ => hk _) fun _ => .withSome .answer hk

theorem ReadOnly.withGlob {k : Glob → Handler V} (hk : ∀ g, ReadOnly (k g)) :
    ReadOnly (withGlob env r k) := by
  unfold Core.withGlob
  refine .withSome .answer fun all => ?_
  exact .ite (fun _ => hk all) fun _ => .withSome .answer hk

theorem ReadOnly.checkParam {key bad : Bytes} {ok : Bytes → Bool} {k : Handler V}
    (hk : ReadOnly k) : ReadOnly (checkParam r key bad ok k) :=
  .check hk

theorem ReadOnly.withTime {key bad : Bytes} {k : Option Int → Handler V}
    (hk : ∀ t, ReadOnly (k t)) : ReadOnly (withTime env r key bad k) :=
  .ite (fun _ => hk _) fun _ => .orElse (fun _ => .answer) fun _ => hk _

theorem ReadOnly.indexPage {cursor : Bytes} {size : Nat} {items : List α}
    {k : List α → Bytes → Handler V} (hk : ∀ l t, ReadOnly (k l t)) :
    ReadOnly (indexPage env cursor size items k) :=
  .ite (fun _ => hk _ _) fun _ => .withSome .answer fun _ =>
    .check <| hk _ _

/-- Of a handler that lists by `GET`, creates by `POST` and refuses the rest, `POST` alone
writes. -/
theorem readOnly_collection {list create : Handler V} (hlist : ReadOnly list)
    (h : r.method ≠ .post) : ReadOnly (match r.method with
      | .get => list
      | .post => create
      | _ => methodNotAllowed) := by
  split
  · exact hlist
  · exact absurd ‹_› h
  · exact .answer

end ReadOnly

end Cios.Http.Core
