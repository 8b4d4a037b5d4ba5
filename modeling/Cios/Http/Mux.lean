import Cios.Http.AuthMW
import Mathlib.Data.List.MinMax

/-!
# HTTP — the route table

The patterns `Server.Handler` registers (`core/server.go`), each named after its handler.  The mux
of the library takes a pattern that ends in a slash for the whole tree below it, any other for
itself alone, and hands a request to the longest pattern that admits its path.
-/

namespace Cios.Http
open Text List
open Cios.Rbac (Action)

inductive Route where
  | assetsRoot
  | assetPath
  | alarms
  | alarmAck
  | tickets
  | ticket
  | opsReport
  | reconcile
  | pmSchedules
  | pmSchedule
  | controlAudit
  | controlApprove
  | customerSLA
  | usage
  | usageExport
  | usageCompute
  | runbook
  | cases
  | spares
  | spare
  | inspections
  | inspection
  | inspectionForm
  | maintenanceUpcoming
  | maintenanceWindowsRoot
  | maintenanceWindow
  | tenants
  | tenantTier
  | orgs
  | org
  | siteOrgs
  | roleBindings
  | modelPacks
  | modelPack
  | siteLayoutsRoot
  | siteLayout
  | metricsQuery
  | metricsQueryRange
  | point
  | health
  | ready
  | scanners
deriving DecidableEq, Repr

def Route.pattern : Route → Bytes
  | .assetsRoot => "/v1/assets"
  | .assetPath => "/v1/assets/"
  | .alarms => "/v1/alarms"
  | .alarmAck => "/v1/alarms/"
  | .tickets => "/v1/tickets"
  | .ticket => "/v1/tickets/"
  | .opsReport => "/v1/reports/ops"
  | .reconcile => "/v1/reports/reconcile"
  | .pmSchedules => "/v1/pm/schedules"
  | .pmSchedule => "/v1/pm/schedules/"
  | .controlAudit => "/v1/control/audit"
  | .controlApprove => "/v1/control/"
  | .customerSLA => "/v1/sla"
  | .usage => "/v1/usage"
  | .usageExport => "/v1/usage:export"
  | .usageCompute => "/v1/usage:compute"
  | .runbook => "/v1/runbooks/"
  | .cases => "/v1/cases"
  | .spares => "/v1/spares"
  | .spare => "/v1/spares/"
  | .inspections => "/v1/inspections"
  | .inspection => "/v1/inspections/"
  | .inspectionForm => "/v1/inspections/form/"
  | .maintenanceUpcoming => "/v1/maintenance/upcoming"
  | .maintenanceWindowsRoot => "/v1/maintenance/windows"
  | .maintenanceWindow => "/v1/maintenance/windows/"
  | .tenants => "/v1/tenants"
  | .tenantTier => "/v1/tenants/"
  | .orgs => "/v1/orgs"
  | .org => "/v1/orgs/"
  | .siteOrgs => "/v1/site-orgs"
  | .roleBindings => "/v1/role-bindings"
  | .modelPacks => "/v1/model-packs"
  | .modelPack => "/v1/model-packs/"
  | .siteLayoutsRoot => "/v1/site-layouts"
  | .siteLayout => "/v1/site-layouts/"
  | .metricsQuery => "/v1/metrics/query"
  | .metricsQueryRange => "/v1/metrics/query_range"
  | .point => "/v1/points/"
  | .health => "/v1/health"
  | .ready => "/v1/health/ready"
  | .scanners => "/v1/health/scanners"

/-- The routes, in the order they are registered. -/
def routes : List Route :=
  [.assetsRoot, .assetPath, .alarms, .alarmAck, .tickets, .ticket, .opsReport, .reconcile,
    .pmSchedules, .pmSchedule, .controlAudit, .controlApprove, .customerSLA, .usage,
    .usageExport, .usageCompute, .runbook, .cases, .spares, .spare, .inspections, .inspection,
    .inspectionForm, .maintenanceUpcoming, .maintenanceWindowsRoot, .maintenanceWindow,
    .tenants, .tenantTier, .orgs, .org, .siteOrgs, .roleBindings, .modelPacks, .modelPack,
    .siteLayoutsRoot, .siteLayout, .metricsQuery, .metricsQueryRange, .point, .health, .ready,
    .scanners]

def Route.subtree (ρ : Route) : Bool := ρ.pattern.getLast? = some ('/' : UInt8)

def Route.admits (ρ : Route) (path : Bytes) : Bool :=
  if ρ.subtree then ρ.pattern.isPrefixOf path else ρ.pattern = path

/-- The handler of a path, `none` for the mux's own 404. -/
def mux (path : Bytes) : Option Route :=
  (routes.filter (·.admits path)).argmax fun ρ => ρ.pattern.length

theorem mux_admits {path : Bytes} {ρ : Route} (h : mux path = some ρ) : ρ.admits path = true :=
  (mem_filter.mp (argmax_mem h)).2

theorem mux_longest {path : Bytes} {ρ ρ' : Route} (h : mux path = some ρ) (hmem : ρ' ∈ routes)
    (ha : ρ'.admits path = true) : ρ'.pattern.length ≤ ρ.pattern.length :=
  le_of_mem_argmax (f := fun ρ : Route => ρ.pattern.length)
    (mem_filter.mpr ⟨hmem, ha⟩) h

theorem mux_append {path : Bytes} {ρ : Route} (h : mux path = some ρ) :
    ∃ rest, path = ρ.pattern ++ rest ∧ (ρ.subtree = false → rest = []) := by
  have ha := mux_admits h
  unfold Route.admits at ha
  split at ha
  · rename_i hs
    obtain ⟨rest, e⟩ := List.isPrefixOf_iff_prefix.mp ha
    exact ⟨rest, e.symm, fun hf => absurd hs (by simp [hf])⟩
  · exact ⟨[], by simpa using (of_decide_eq_true ha).symm, fun _ => rfl⟩

/-! ### The middleware knows every route -/

def suffixWrites (suffix rest : Bytes) (a : Action) : Action :=
  if (cutSuffix suffix rest).isSome then a else .read

/-- The action a routed request is taken for; `rest` is what follows the route's pattern. -/
def Route.action (ρ : Route) (m : Method) (rest : Bytes) : Action :=
  match ρ with
  | .assetPath =>
    if m = .put ∨ m = .delete then .apply
    else if m = .post then suffixWrites ":lifecycle" rest .apply else .read
  | .alarmAck => suffixWrites ":ack" rest .controlWrite
  | .controlApprove => suffixWrites ":approve" rest .controlWrite
  | .spare => suffixWrites ":adjust" rest .controlWrite
  | .point => suffixWrites ":set" rest .controlWrite
  | .ticket => if (ticketVerb rest).isSome then .controlWrite else .read
  | .tickets | .pmSchedules | .inspections | .inspectionForm | .maintenanceWindowsRoot | .spares
  | .tenants | .orgs | .siteOrgs => postWrites m
  | .roleBindings => if m = .post ∨ m = .delete then .controlWrite else .read
  | .modelPacks | .modelPack | .siteLayoutsRoot | .siteLayout =>
    if m = .get then .read else .controlWrite
  | .maintenanceWindow | .org => .controlWrite
  | .usageCompute | .tenantTier => .apply
  | _ => .read

section Mapped

variable {r : Request} {rest : Bytes}

/-! On the paths with suffixes the middleware's table, at a path that starts with the pattern, comes
down to one test on what follows. -/

theorem mapRequest_assetPath (h : r.path = lit "/v1/assets/" ++ rest) :
    mapRequest r = match (if r.method = .post then cutSuffix ":lifecycle" rest else none) with
      | some asset => some (.apply, asset)
      | none => match r.method with
        | .put | .delete => some (.apply, rest)
        | _ => some (.read, rest) := by
  obtain ⟨_, path⟩ := r
  subst h
  rfl

theorem mapRequest_alarmAck (h : r.path = lit "/v1/alarms/" ++ rest) :
    mapRequest r = match cutSuffix ":ack" rest with
      | some id => some (.controlWrite, id)
      | none => some (.read, rest) := by
  obtain ⟨_, path⟩ := r
  subst h
  rfl

theorem mapRequest_controlApprove (h : r.path = lit "/v1/control/" ++ rest) :
    mapRequest r = if lit "/v1/control/" ++ rest = lit "/v1/control/audit" then
        some (.read, everything)
      else match cutSuffix ":approve" rest with
        | some id => some (.controlWrite, id)
        | none => some (.read, rest) := by
  obtain ⟨_, path⟩ := r
  subst h
  rfl

theorem mapRequest_spare (h : r.path = lit "/v1/spares/" ++ rest) :
    mapRequest r = match cutSuffix ":adjust" rest with
      | some _ => some (.controlWrite, everything)
      | none => some (.read, everything) := by
  obtain ⟨_, path⟩ := r
  subst h
  rfl

theorem mapRequest_ticket (h : r.path = lit "/v1/tickets/" ++ rest) :
    mapRequest r = match ticketVerb rest with
      | some id => some (.controlWrite, id)
      | none => match (if r.method = .get then cutSuffix ":history" rest else none) with
        | some id => some (.read, id)
        | none => some (.read, rest) := by
  obtain ⟨_, path⟩ := r
  subst h
  rfl

theorem mapRequest_point (h : r.path = lit "/v1/points/" ++ rest) :
    mapRequest r = match cutSuffix ":set" rest with
      | some point => some (.controlWrite, point)
      | none => some (.read, rest) := by
  obtain ⟨_, path⟩ := r
  subst h
  rfl

theorem mapRequest_inspection (h : r.path = lit "/v1/inspections/" ++ rest) :
    mapRequest r = match cutPrefix "form/" rest with
      | some id => some (postWrites r.method, id)
      | none => some (.read, rest) := by
  obtain ⟨_, path⟩ := r
  subst h
  rfl

/-- Under the shorter pattern the mux sends only what is not below the longer one. -/
theorem cutPrefix_form_of_mux (h : mux r.path = some .inspection)
    (hp : r.path = lit "/v1/inspections/" ++ rest) : cutPrefix "form/" rest = none := by
  cases hc : cutPrefix "form/" rest with
  | none => rfl
  | some tail =>
    exfalso
    have hrest : rest = lit "form/" ++ tail := cutPrefix_eq_some.mp hc
    have hform : Route.inspectionForm.admits r.path = true := by
      rw [hp, hrest]
      rfl
    have hlong := mux_longest h (by decide) hform
    revert hlong
    decide

/-- Every path a route admits, probes apart, is in the middleware's table under the route's
action. -/
theorem mapRequest_of_mux {ρ : Route} (h : mux r.path = some ρ) (hhealth : ρ ≠ .health)
    (hready : ρ ≠ .ready) : ∃ rest path, r.path = ρ.pattern ++ rest ∧
      mapRequest r = some (ρ.action r.method rest, path) := by
  obtain ⟨rest, hp, hexact⟩ := mux_append h
  refine ⟨rest, ?_⟩
  suffices hs : ∃ path, mapRequest r = some (ρ.action r.method rest, path) by
    obtain ⟨path, hs⟩ := hs
    exact ⟨path, hp, hs⟩
  cases ρ with
  | health => exact absurd rfl hhealth
  | ready => exact absurd rfl hready
  | assetPath =>
    rw [mapRequest_assetPath hp]
    unfold Route.action suffixWrites
    cases r.method <;> cases cutSuffix ":lifecycle" rest <;> exact ⟨_, rfl⟩
  | alarmAck =>
    rw [mapRequest_alarmAck hp]
    unfold Route.action suffixWrites
    cases cutSuffix ":ack" rest <;> exact ⟨_, rfl⟩
  | controlApprove =>
    rw [mapRequest_controlApprove hp]
    split
    · rename_i haudit
      obtain rfl : rest = lit "audit" := append_cancel_left haudit
      exact ⟨_, rfl⟩
    · unfold Route.action suffixWrites
      cases cutSuffix ":approve" rest <;> exact ⟨_, rfl⟩
  | spare =>
    rw [mapRequest_spare hp]
    unfold Route.action suffixWrites
    cases cutSuffix ":adjust" rest <;> exact ⟨_, rfl⟩
  | point =>
    rw [mapRequest_point hp]
    unfold Route.action suffixWrites
    cases cutSuffix ":set" rest <;> exact ⟨_, rfl⟩
  | ticket =>
    rw [mapRequest_ticket hp]
    unfold Route.action
    cases ticketVerb rest with
    | some id => exact ⟨_, rfl⟩
    | none => dsimp only; split <;> exact ⟨_, rfl⟩
  | inspection =>
    rw [mapRequest_inspection hp, cutPrefix_form_of_mux h hp]
    exact ⟨_, rfl⟩
  -- At any other pattern the table has one entry for all paths the pattern admits.
  | _ =>
    obtain ⟨_, path⟩ := r
    try obtain rfl := hexact rfl
    subst hp
    exact ⟨_, rfl⟩

end Mapped

end Cios.Http
