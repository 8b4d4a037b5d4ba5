import Cios.Http.Handler

/-!
# HTTP — maintenance and spare parts

The handlers of `/v1/pm/schedules`, `/v1/inspections`, `/v1/maintenance` and `/v1/spares`
(`core/pm.go`, `core/inspection.go`, `core/maintenance.go`, `core/mwindows.go`, `core/spares.go`).
A collection is written by `POST`, a window is removed by `DELETE`, and stock is moved by `:adjust`;
the rest reads.
-/

namespace Cios.Http.Core
open Text
open Cios.Store

variable {V : Type} (env : Env V) (r : Request) (c : Ctx)

/-! ### Maintenance plans -/

def servePMSchedulesList : Handler V :=
  work .listPMSchedules <| onOk fun all =>
    respond 200 (.pmSchedules (all.filter fun p => allowed env c .read p.assetPath))

def servePMSchedulesCreate : Handler V :=
  decodeStream env.pmCreate r fun req =>
    let kind := if req.kind = [] then lit "calendar" else req.kind
    if req.assetPath = [] ∨ req.title = [] ∨ req.severity = [] then
      badRequest "asset_path, title, severity required" []
    else if kind ≠ "calendar" then badRequest "only kind=calendar is supported in M2" kind
    else if req.intervalDays ≤ 0 then badRequest "interval_days must be > 0" []
    else if !allowedSeverity req.severity then badRequest "unknown severity" req.severity
    else inScope env c .controlWrite req.assetPath <|
      outside .now fun now => outside (.newID "pm_") fun id =>
        let sched : PMSchedule := ⟨id, req.assetPath, kind, req.intervalDays, none,
          env.addDays now req.intervalDays, req.title, req.severity, req.enabled.getD true⟩
        work (.putPMSchedule sched) <| onOk fun _ => respond 201 (.pmSchedule sched)

def servePMSchedules : Handler V :=
  match r.method with
  | .get => servePMSchedulesList env c
  | .post => servePMSchedulesCreate env r c
  | _ => methodNotAllowed

def servePMSchedule : Handler V :=
  let id := below "/v1/pm/schedules/" r
  if r.method ≠ .get then methodNotAllowed
  else if !idPattern "pm_" id then badRequest "bad pm id" id
  else work (.getPMSchedule id) <|
    onFound (problem 404 "not-found" "pm schedule not found" id) fun sched =>
      inScope env c .read sched.assetPath <| respond 200 (.pmSchedule sched)

/-! ### Inspections -/

def serveInspectionsList : Handler V :=
  work .listInspectionTemplates <| onOk fun all =>
    respond 200 (.inspections (all.filter fun t => allowed env c .read t.assetPath))

def serveInspectionsCreate : Handler V :=
  decodeStream env.inspectionCreate r fun req =>
    if req.assetPath = [] ∨ req.title = [] then badRequest "asset_path, title required" []
    else if req.interval ≤ 0 then badRequest "interval must be > 0" []
    else inScope env c .controlWrite req.assetPath <|
      outside .now fun now => outside (.newID "ins_") fun id =>
        let tpl : InspectionTemplate := ⟨id, req.assetPath, req.title, req.items, req.interval,
          now + req.interval, req.enabled.getD true⟩
        work (.putInspectionTemplate tpl) <| onOk fun _ => respond 201 (.inspection tpl)

def serveInspections : Handler V :=
  match r.method with
  | .get => serveInspectionsList env c
  | .post => serveInspectionsCreate env r c
  | _ => methodNotAllowed

def serveInspection : Handler V :=
  let id := below "/v1/inspections/" r
  if r.method ≠ .get then methodNotAllowed
  else if !idPattern "ins_" id then badRequest "bad inspection id" id
  else work (.getInspectionTemplate id) <|
    onFound (problem 404 "not-found" "inspection template not found" id) fun tpl =>
      inScope env c .read tpl.assetPath <| respond 200 (.inspection tpl)

/-! ### What is due -/

def upcomingLe (a b : UpcomingItem) : Bool :=
  if a.nextDue ≠ b.nextDue then a.nextDue < b.nextDue
  else if a.kind ≠ b.kind then le a.kind b.kind
  else le a.id b.id

/-- The enabled plans and templates in scope, as items. -/
def upcomingItems (pm : List PMSchedule) (insp : List InspectionTemplate) (now : Int) :
    List UpcomingItem :=
  ((pm.filter fun p => p.enabled && allowed env c .read p.assetPath).map fun p =>
      ⟨"pm", p.id, p.assetPath, p.title, p.nextDue, p.nextDue < now⟩) ++
    (insp.filter fun t => t.enabled && allowed env c .read t.assetPath).map fun t =>
      ⟨"inspection", t.id, t.assetPath, t.title, t.nextDue, t.nextDue < now⟩

def serveMaintenanceUpcoming : Handler V :=
  if r.method ≠ .get then methodNotAllowed
  else withTime env r "before" "bad before (need RFC3339)" fun before =>
    let overdue := r.queryGet "overdue"
    let asked := if overdue = [] then some none else (env.parseBool overdue).map some
    withSome asked (badRequest "bad overdue (need bool)" overdue) fun overdueOnly =>
      work .listPMSchedules <| onOk fun pm => work .listInspectionTemplates <| onOk fun insp =>
        outside .now fun now =>
          let items := (upcomingItems env c pm insp now).filter fun it =>
            before.all (it.nextDue ≤ ·) && overdueOnly.all (it.overdue = ·)
          respond 200 (.upcoming (items.insertionSort fun a b => upcomingLe a b = true))

/-! ### Maintenance windows -/

def serveMaintenanceWindowsList : Handler V :=
  withPageSize r fun size =>
    withPageToken ([], []) env.decodePageTokenPair r fun cursor =>
      work .listMaintenanceWindows <| onOk fun all =>
        let (shown, next) := keyPage
          (fun w => env.encodePageTokenPair (lit (toString (unixNano w.startsAt))) w.id) size
          (all.filter fun w => (cursor.1 = [] || afterCursor cursor (unixNano w.startsAt) w.id) &&
            allowed env c .read w.assetPath)
        respond 200 (.windows shown next)

/-- `parseMaintenanceWindowTime`, refused with the text of its error as the title. -/
def withWindowTime (text field : Bytes) (k : Int → Handler V) : Handler V :=
  if text = [] then badRequest (lit "missing " ++ field ++ lit " (need RFC3339)") text
  else orElse (env.parseTime text)
    (fun e => badRequest (lit "bad " ++ field ++ lit " (need RFC3339): " ++ e) text) k

def serveMaintenanceWindowsCreate : Handler V :=
  decodeOptional ⟨[], [], [], []⟩ env.windowCreate r fun req =>
    if req.assetPath = [] then badRequest "missing asset_path" []
    else orElse (env.parseAssetPath req.assetPath)
      (fun e => problem 400 "bad-path" "bad asset_path" e) fun _ =>
    withWindowTime env req.startsAt "starts_at" fun startsAt =>
    withWindowTime env req.endsAt "ends_at" fun endsAt =>
      if endsAt ≤ startsAt then badRequest "ends_at must be after starts_at" []
      else inScope env c .controlWrite req.assetPath <| outside (.newID "mw_") fun id =>
        let mw : MaintenanceWindow := ⟨id, req.assetPath, startsAt, endsAt, req.reason⟩
        work (.putMaintenanceWindow mw) <| onOk fun _ => respond 201 (.window mw)

def serveMaintenanceWindowsRoot : Handler V :=
  match r.method with
  | .get => serveMaintenanceWindowsList env r c
  | .post => serveMaintenanceWindowsCreate env r c
  | _ => methodNotAllowed

def serveMaintenanceWindowDelete (id : Bytes) : Handler V :=
  let missing := notFound "maintenance window not found" id
  if !idPattern "mw_" id then badRequest "bad maintenance window id" id
  else work (.getMaintenanceWindow id) <| onFound missing fun cur =>
    inScope env c .controlWrite cur.assetPath <|
      work (.deleteMaintenanceWindow id) <| onOk fun deleted =>
        if !deleted then missing else respond 200 (.deletedWindow id)

def serveMaintenanceWindow : Handler V :=
  let rest := below "/v1/maintenance/windows/" r
  if rest = [] then badRequest "missing id" []
  else if r.method ≠ .delete then methodNotAllowed
  else serveMaintenanceWindowDelete env c rest

/-! ### Spare parts -/

def serveSparesList : Handler V :=
  withPageSize r fun size => withPageToken [] env.decodePageToken r fun cursor =>
    work .listSpares <| onOk fun all =>
      indexPage env cursor size all fun shown next => respond 200 (.spares shown next)

def serveSparesCreate : Handler V :=
  decodeBody (2 ^ 16) env.spareCreate r fun req =>
    if req.sku = [] then badRequest "missing sku" []
    else if req.name = [] then badRequest "missing name" []
    else if req.qty < 0 then badRequest "qty < 0" []
    else if req.minQty < 0 then badRequest "min_qty < 0" []
    else outside (.newID "sp_") fun id =>
      let sp : SparePart := ⟨id, req.sku, req.name, req.qty, req.minQty, req.location⟩
      work (.putSpare sp) fun res =>
        match res with
        | .ok () => respond 201 (.sparePart sp)
        | .error e =>
          if e.sentinel = some .skuExists then
            problem 422 "sku-exists" "sku already exists" req.sku
          else storeError e

def serveSpares : Handler V :=
  match r.method with
  | .get => serveSparesList env r
  | .post => serveSparesCreate env r
  | _ => methodNotAllowed

def serveSpareGet (id : Bytes) : Handler V :=
  work (.getSpare id) <| onFound (notFound "spare not found" id) fun sp =>
    work (.listSpareTxns id) <| onOk fun txns =>
      respond 200 (.spare sp (sp.qty < sp.minQty) (txns.take 20))

def serveSpareAdjust (id : Bytes) : Handler V :=
  decodeBody (2 ^ 16) env.spareAdjust r fun req =>
    if req.delta = 0 then badRequest "delta must be non-zero" []
    else if req.ticketID ≠ [] ∧ !(lit "tk_").isPrefixOf req.ticketID then
      badRequest "bad ticket_id prefix" req.ticketID
    else outside .now fun now => work (.adjustSpare id req.delta req.ticketID now) fun res =>
      match res with
      | .ok (updated, txn) => respond 200 (.spare updated (updated.qty < updated.minQty) [txn])
      | .error e =>
        if e.sentinel = some .insufficientStock then
          problem 422 "insufficient-stock" "insufficient stock" []
        else storeError e

def serveSpare : Handler V :=
  let rest := below "/v1/spares/" r
  if rest = [] then badRequest "missing id" []
  else
    let adjust := cutSuffix ":adjust" rest
    let id := adjust.getD rest
    if id = [] then badRequest "missing id" []
    else if !idPattern "sp_" id then badRequest "bad spare id" id
    else match adjust.isSome, r.method with
      | true, .post => serveSpareAdjust env r id
      | false, .get => serveSpareGet id
      | _, _ => methodNotAllowed

/-! ### What only reads -/

section ReadOnly

variable {env r c}

@[simp] theorem servePMSchedules_readOnly (h : r.method ≠ .post) :
    ReadOnly (servePMSchedules env r c) :=
  readOnly_collection (.work rfl fun _ => .onOk fun _ => .answer) h

@[simp] theorem servePMSchedule_readOnly : ReadOnly (servePMSchedule env r c) :=
  .check <| .check <| .work rfl fun _ => .onFound .answer fun _ => .inScope .answer

@[simp] theorem serveInspections_readOnly (h : r.method ≠ .post) :
    ReadOnly (serveInspections env r c) :=
  readOnly_collection (.work rfl fun _ => .onOk fun _ => .answer) h

@[simp] theorem serveInspection_readOnly : ReadOnly (serveInspection env r c) :=
  .check <| .check <| .work rfl fun _ => .onFound .answer fun _ => .inScope .answer

@[simp] theorem serveMaintenanceUpcoming_readOnly :
    ReadOnly (serveMaintenanceUpcoming env r c) := by
  refine .check <| .withTime fun _ => ?_
  refine .withSome .answer fun _ => .work rfl fun _ => .onOk fun _ => ?_
  exact .work rfl fun _ => .onOk fun _ => .outside fun _ => .answer

@[simp] theorem serveMaintenanceWindowsRoot_readOnly (h : r.method ≠ .post) :
    ReadOnly (serveMaintenanceWindowsRoot env r c) :=
  readOnly_collection (.withPageSize fun _ => .withPageToken fun _ => .work rfl fun _ =>
    .onOk fun _ => .answer) h

@[simp] theorem serveSpares_readOnly (h : r.method ≠ .post) : ReadOnly (serveSpares env r) :=
  readOnly_collection (.withPageSize fun _ => .withPageToken fun _ => .work rfl fun _ =>
    .onOk fun _ => .indexPage fun _ _ => .answer) h

theorem serveSpare_readOnly
    (h : r.method = .post → cutSuffix ":adjust" (below "/v1/spares/" r) = none) :
    ReadOnly (serveSpare env r) := by
  refine .check <| .check <| .check ?_
  split
  · rename_i hadjust hpost
    rw [h hpost] at hadjust
    cases hadjust
  · exact .work rfl fun _ => .onFound .answer fun _ => .work rfl fun _ => .onOk fun _ => .answer
  · exact .answer

end ReadOnly

end Cios.Http.Core
