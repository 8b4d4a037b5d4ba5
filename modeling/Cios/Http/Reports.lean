import Cios.Http.Assets

/-!
# HTTP — usage, reports and probes

The handlers of `/v1/usage` and its verbs, of the reports, cases and runbooks, and of the health
endpoints (`core/usage_http.go`, `core/usage.go`, `core/reports.go`, `core/reconcile.go`,
`core/runbooks.go`, `core/sla_read.go`, `core/health.go`).  Of these `POST /v1/usage:compute` alone
writes.
-/

namespace Cios.Http.Core
open Text
open Cios.Store

variable {V : Type} (env : Env V) (r : Request) (c : Ctx)

/-! ### Usage -/

def usageKind (s : Bytes) : Option UsageKind :=
  if s = "energy" then some .energy else if s = "rack_hour" then some .rackHour else none

def usageGranularity (s : Bytes) : Option UsageGranularity :=
  if s = "daily" then some .daily else if s = "monthly" then some .monthly else none

/-- A parameter that names a value of an enumeration when it is sent. -/
def withEnum {α : Type} (key bad : Bytes) (read : Bytes → Option α) (k : Option α → Handler V) :
    Handler V :=
  if r.queryGet key = [] then k none
  else withSome (read (r.queryGet key)) (badRequest bad (r.queryGet key)) fun a => k (some a)

/-- The tenant that is listed: the request's own, which the query may only repeat. -/
def withUsageTenant (k : Bytes → Handler V) : Handler V :=
  let asked := r.queryGet "tenant_id"
  match c.tenant with
  | none => k asked
  | some tid =>
    if asked ≠ [] ∧ asked ≠ tid then
      problem 403 "tenant-scope-mismatch" "tenant scope mismatch" asked
    else k tid

/-- The filter of a list of usage, the page's size and where it starts. -/
def parseUsageListQuery (k : UsageListFilter → Nat → Nat → Handler V) : Handler V :=
  withUsageTenant r c fun tenantID => withEnum r "kind" "bad kind" usageKind fun kind =>
    withEnum r "granularity" "bad granularity" usageGranularity fun granularity =>
    withTime env r "period_start" "bad period_start" fun periodStart =>
    withTime env r "period_end" "bad period_end" fun periodEnd =>
    withPageSize r fun size =>
      let filter : UsageListFilter :=
        ⟨tenantID, r.queryGet "site_id", kind, granularity, periodStart, periodEnd⟩
      let token := r.queryGet "page_token"
      if token = [] then k filter size 0
      else withSome (atoi token) (badRequest "bad page_token" token) fun n =>
        if n < 0 then badRequest "bad page_token" token else k filter size n.toNat

def serveUsage : Handler V :=
  if r.method ≠ .get then methodNotAllowed
  else parseUsageListQuery env r c fun filter size start =>
    work (.listUsage filter) <| onOkInternal fun items =>
      let start := min start items.length
      let page := items.drop start
      respond 200 (.usage (page.take size)
        (if size < page.length then lit (toString (start + size)) else []))

def serveUsageExport : Handler V :=
  if r.method ≠ .get then methodNotAllowed
  else parseUsageListQuery env r c fun filter _ _ =>
    work (.listUsage filter) <| onOkInternal fun items => respond 200 (.usageCSV items)

def siteIDFromPath (path : Bytes) : Bytes := path.takeWhile (· ≠ ('.' : UInt8))

/-- `EnrichUsageIdentity`: the organisation of the record's site, and its tenant. -/
def enrichUsageIdentity (u : UsageRecord V) (no : Handler V) (k : UsageRecord V → Handler V) :
    Handler V :=
  let u := if u.siteID = [] then { u with siteID := siteIDFromPath u.assetPath } else u
  if u.siteID = [] then k u
  else tenancy (.getSiteOrg u.siteID) fun found =>
    match found with
    | .error _ => no
    | .ok none => k u
    | .ok (some so) =>
      let u := if u.orgID = [] then { u with orgID := so.orgID } else u
      if so.orgID = [] ∨ u.tenantID ≠ [] then k u
      else tenancy (.getOrg so.orgID) fun org =>
        match org with
        | .error _ => no
        | .ok none => k u
        | .ok (some o) => k { u with tenantID := o.tenantID }

/-- The loop of `POST /v1/usage:compute` over the computed records. -/
def saveUsage : List (UsageRecord V) → List (UsageRecord V) → Handler V
  | [], saved => respond 200 (.usage saved [])
  | u :: rest, saved =>
    let u := { u with tenantID := c.tenant.getD u.tenantID }
    enrichUsageIdentity u (internalProblem 500 "bad-request" "identity enrich error")
      fun enriched => work (.upsertUsage enriched) fun res =>
        match res with
        | .ok out => outside (.onUsageUpserted out) fun _ => saveUsage rest (saved ++ [out])
        | .error e =>
          if e.sentinel = some .usagePGNotImplemented then
            problem 501 "not-implemented" "usage postgres backend not implemented" []
          else internalProblem 500 "bad-request" "store error"

def serveUsageCompute : Handler V :=
  if r.method ≠ .post then methodNotAllowed
  else if !(c.principal.any fun p => p.role = .admin) then
    problem 403 "forbidden" "forbidden" "admin required"
  else decodeBody (2 ^ 20) env.usageCompute r fun req =>
    match req.periodStart, req.periodEnd with
    | some start, some stop =>
      if stop ≤ start then badRequest "bad period" "period_end must be after period_start"
      else if req.granularity = [] then badRequest "missing granularity" []
      else withSome (usageGranularity req.granularity)
        (badRequest "bad granularity" req.granularity) fun g =>
      match req.kinds.find? fun k => (usageKind k).isNone with
      | some k => badRequest "bad kind" k
      | none =>
        let wanted := fun kind => req.kinds = [] || req.kinds.any fun k => usageKind k = some kind
        let energy := if wanted .energy && !req.measurements.isEmpty then
          env.computeEnergyUsage req.measurements start stop g else []
        if wanted .rackHour then
          work .listAssets <| onOkInternal fun assets =>
            saveUsage c (env.computeRackHourUsage assets start stop g ++ energy) []
        else saveUsage c energy []
    | _, _ => badRequest "missing period" "period_start and period_end required"

/-! ### Reports and cases -/

def withTop (k : Nat → Handler V) : Handler V :=
  let v := r.queryGet "top"
  let bad := badRequest "bad top (need positive int)" v
  if v = [] then k 10
  else withSome (atoi v) bad fun n =>
    if n ≤ 0 then bad else if 100 < n then badRequest "top > 100" v else k n.toNat

def serveOpsReport : Handler V :=
  if r.method ≠ .get then methodNotAllowed
  else withTime env r "since" "bad since (need RFC3339)" fun since => withTop r fun top =>
    withGlob env r fun glob =>
      work .listTickets <| onOk fun tickets => work .listAlarms <| onOk fun alarms =>
        respond 200 (.opsReport
          (tickets.filter fun t => since.all (· ≤ t.openedAt) && glob.matches t.assetPath &&
            allowed env c .read t.assetPath)
          (alarms.filter fun a => glob.matches a.path && allowed env c .read a.path) top since)

def maxCapacityWindowDays : Int := 90

/-- A number and one of the units `d`, `h`, `m`, `s`. -/
def validCapacityWindow (s : Bytes) : Bool :=
  2 ≤ s.length && s.length ≤ 5 &&
    match s.getLast?, atoi s.dropLast with
    | some unit, some n =>
      (unit = 'd' || unit = 'h' || unit = 'm' || unit = 's') && 0 < n &&
        !(unit = 'd' && maxCapacityWindowDays < n)
    | _, _ => false

def defaultReconcileWindow : Bytes := "7d"

/-- The assets in service, against the telemetry of the window; without an answer all are
unknown. -/
def computeReconcile (window : Bytes) (k : ReconcileResponse → Handler V) : Handler V :=
  work .listAssets fun res =>
    match res with
    | .error _ => k ⟨window, true, [], some []⟩
    | .ok all =>
      let inService := all.filter fun a =>
        a.spec.getStr "lifecycle" = lit "active" || a.spec.getStr "lifecycle" = lit "maintenance"
      outside (.assetHasTelemetryBatch (inService.map Asset.path) window) fun present =>
        let entry := fun (a : Asset V) =>
          let lc := a.spec.getStr "lifecycle"
          match present with
          | none => ⟨a.path, lc, [], false, true⟩
          | some paths =>
            if a.path ∈ paths then ⟨a.path, lc, "ok", true, false⟩
            else ⟨a.path, lc, "registered_no_telemetry", false, false⟩
        k ⟨window, present.isNone, inService.map entry, some []⟩

def seesOrphans : Bool :=
  match c.principal with
  | none => true
  | some p => Rbac.roleAllows p .controlWrite = .ok ()

def serveReconcile : Handler V :=
  if r.method ≠ .get then methodNotAllowed
  else
    let asked := r.queryGet "window"
    if asked ≠ [] ∧ !validCapacityWindow asked then badRequest "bad window" asked
    else
      let window := if asked = [] then defaultReconcileWindow else asked
      computeReconcile window fun rep =>
        let visible := rep.entries.filter fun e => allowed env c .read e.path
        if !seesOrphans c then
          respond 200 (.reconcile { rep with entries := visible, orphans := none })
        else outside (.fetchVMAssetPaths window) fun paths =>
          match paths with
          | none => respond 200 (.reconcile
              { rep with entries := visible, degraded := true, orphans := some [] })
          | some paths => respond 200 (.reconcile
              { rep with
                entries := visible
                orphans := some (paths.filter fun p => !(visible.any fun e => e.path = p)) })

def casesHardLimit : Nat := 1000

def casesDefaultLimit : Nat := 100

def withCasesLimit (k : Nat → Handler V) : Handler V :=
  let v := r.queryGet "limit"
  if v = [] then k casesDefaultLimit
  else withSome (atoi v) (badRequest "bad limit" v) fun n =>
    if n ≤ 0 then badRequest "bad limit" v else k (min n.toNat casesHardLimit)

def serveCases : Handler V :=
  if r.method ≠ .get then methodNotAllowed
  else checkParam r "severity" "bad severity" allowedSeverity <|
    withTime env r "since" "bad since (need RFC3339)" fun since =>
    withTime env r "until" "bad until (need RFC3339)" fun til =>
    withCasesLimit r fun limit =>
      let format := env.letters.toLower (r.queryGet "format")
      if format ≠ [] ∧ format ≠ "json" ∧ format ≠ "csv" then
        badRequest "bad format (need json|csv)" (r.queryGet "format")
      else work .listTickets <| onOk fun all =>
        let severity := r.queryGet "severity"
        let assetPrefix := r.queryGet "asset_prefix"
        let closed := all.filter fun t => t.state = lit "closed" &&
          (severity = [] || t.severity = severity) &&
          (assetPrefix = [] || assetPrefix.isPrefixOf t.assetPath) &&
          since.all (fun s => t.closedAt.any (s ≤ ·)) &&
          til.all (fun u => t.closedAt.any (· ≤ u)) &&
          allowed env c .read t.assetPath
        respond 200 (.cases (closed.take limit) (format = "csv"))

def serveCustomerSLA : Handler V :=
  if r.method ≠ .get then methodNotAllowed else respond 200 .customerSLA

/-- `[A-Za-z0-9_-]`. -/
def runbookByte (b : UInt8) : Bool := isAlnum b || isUpper b || b = '_' || b = '-'

def runbookIDPattern (key : Bytes) : Bool :=
  (split '/' key).all fun seg => seg ≠ [] && seg.all runbookByte

def serveRunbook : Handler V :=
  let rest := below "/v1/runbooks/" r
  if r.method ≠ .get then methodNotAllowed
  else if rest = [] ∨ rest = r.path then badRequest "missing key" []
  else
    let key := (cutSuffix ".md" rest).getD rest
    if env.pathClean key ≠ key ∨ !runbookIDPattern key then badRequest "bad runbook key" key
    else if env.runbookDir = [] then problem 404 "not-found" "runbook dir not configured" key
    else outside (.readRunbook key) fun res =>
      match res with
      | .ok text => respond 200 (.markdown text)
      | .error none => problem 404 "not-found" "runbook not found" key
      | .error (some e) => problem 500 "bad-request" "read error" e

/-! ### Probes -/

def serveHealth : Handler V :=
  if r.method ≠ .get then methodNotAllowed else respond 200 .health

def serveReady : Handler V :=
  if r.method ≠ .get then methodNotAllowed
  else work .listAlarms fun alarms => outside (.fetchVM "vector(1)") fun vm =>
    let pg := match alarms with
      | .ok _ => true
      | .error _ => false
    let vmUp := match vm with
      | .ok body => env.vmSuccess body
      | .error _ => false
    let down := (if pg then [] else [lit "pg"]) ++ if vmUp then [] else [lit "vm"]
    if down = [] then respond 200 (.ready []) else respond 503 (.ready down)

def serveScanners : Handler V :=
  if r.method ≠ .get then methodNotAllowed
  else outside .scanners fun snap => respond 200 (.doc snap)

/-! ### What only reads -/

section ReadOnly

variable {env r c}

theorem ReadOnly.withEnum {α : Type} {key bad : Bytes} {read : Bytes → Option α}
    {k : Option α → Handler V} (hk : ∀ a, ReadOnly (k a)) :
    ReadOnly (withEnum r key bad read k) :=
  .ite (fun _ => hk _) fun _ => .withSome .answer fun _ => hk _

theorem ReadOnly.withUsageTenant {k : Bytes → Handler V} (hk : ∀ t, ReadOnly (k t)) :
    ReadOnly (withUsageTenant r c k) := by
  unfold Core.withUsageTenant
  split
  · exact hk _
  · exact .check <| hk _

theorem ReadOnly.parseUsageListQuery {k : UsageListFilter → Nat → Nat → Handler V}
    (hk : ∀ f size start, ReadOnly (k f size start)) :
    ReadOnly (parseUsageListQuery env r c k) := by
  refine .withUsageTenant fun _ => .withEnum fun _ => .withEnum fun _ => ?_
  refine .withTime fun _ => .withTime fun _ => .withPageSize fun _ => ?_
  exact .ite (fun _ => hk _ _ _) fun _ => .withSome .answer fun _ =>
    .check <| hk _ _ _

@[simp] theorem serveUsage_readOnly : ReadOnly (serveUsage env r c) :=
  .check <| .parseUsageListQuery fun _ _ _ => .work rfl fun _ => .onOkInternal fun _ => .answer

@[simp] theorem serveUsageExport_readOnly : ReadOnly (serveUsageExport env r c) :=
  .check <| .parseUsageListQuery fun _ _ _ => .work rfl fun _ => .onOkInternal fun _ => .answer

theorem ReadOnly.withTop {k : Nat → Handler V} (hk : ∀ n, ReadOnly (k n)) :
    ReadOnly (withTop r k) :=
  .ite (fun _ => hk _) fun _ => .withSome .answer fun _ =>
    .check <| .check <| hk _

@[simp] theorem serveOpsReport_readOnly : ReadOnly (serveOpsReport env r c) :=
  .check <| .withTime fun _ => .withTop fun _ =>
    .withGlob fun _ => .work rfl fun _ => .onOk fun _ => .work rfl fun _ => .onOk fun _ =>
      .answer

theorem ReadOnly.computeReconcile {window : Bytes} {k : ReconcileResponse → Handler V}
    (hk : ∀ rep, ReadOnly (k rep)) : ReadOnly (computeReconcile window k) := by
  refine .work rfl fun res => ?_
  cases res with
  | error e => exact hk _
  | ok all => exact .outside fun _ => hk _

@[simp] theorem serveReconcile_readOnly : ReadOnly (serveReconcile env r c) := by
  refine .check <| .check <| .computeReconcile fun rep => .check ?_
  refine .outside fun paths => ?_
  cases paths with
  | none | some => exact .answer

theorem ReadOnly.withCasesLimit {k : Nat → Handler V} (hk : ∀ n, ReadOnly (k n)) :
    ReadOnly (withCasesLimit r k) :=
  .ite (fun _ => hk _) fun _ => .withSome .answer fun _ =>
    .check <| hk _

@[simp] theorem serveCases_readOnly : ReadOnly (serveCases env r c) :=
  .check <| .checkParam <| .withTime fun _ => .withTime fun _ => .withCasesLimit fun _ => .check <|
      .work rfl fun _ => .onOk fun _ => .answer

@[simp] theorem serveCustomerSLA_readOnly : ReadOnly (serveCustomerSLA r : Handler V) :=
  .check .answer

@[simp] theorem serveRunbook_readOnly : ReadOnly (serveRunbook env r) := by
  refine .check <| .check <| .check <| .check ?_
  refine .outside fun res => ?_
  split
  iterate 3 exact .answer

@[simp] theorem serveHealth_readOnly : ReadOnly (serveHealth r : Handler V) :=
  .check .answer

@[simp] theorem serveReady_readOnly : ReadOnly (serveReady env r) :=
  .check <| .work rfl fun _ => .outside fun _ => .check .answer

@[simp] theorem serveScanners_readOnly : ReadOnly (serveScanners r : Handler V) :=
  .check <| .outside fun _ => .answer

end ReadOnly

end Cios.Http.Core
