import Cios.Http.Points
import Cios.Http.Reports
import Cios.Http.Studio
import Cios.Http.Tickets
import Cios.Http.Upkeep

/-!
# HTTP — the server

`Server.Handler` (`core/server.go`): the gate on the tenant header, the authentication middleware,
the route table, and behind each route its handler.  Three classifications of a request have to
agree: the middleware's own table of paths (`mapRequest`), the patterns of the mux, and the tests
that each handler makes on the method and on the suffix of the path.

* **The middleware knows every route** (`mapRequest_of_mux`).
* **The handlers agree with it** (`handle_readOnly`).

Together they give `mediated_and_viewers_read`.
-/

namespace Cios.Http.Core
open Text Effect Prog Option
open Cios.Rbac (Principal Action)

variable {V : Type}

/-! ### The handlers behind the routes -/

def adminReply : Reply Admin.Body → Reply (Body V)
  | .problem p => .problem p
  | .json status b => .json status (.admin b)
  | .noContent => .noContent

def admin (h : Admin.Handler) : Handler V :=
  let embedded : Prog (Op V) Op.Ret (Reply Admin.Body) := Prog.embed Op.tenancy (fun _ a => a) h
  embedded.bind fun reply => .done (adminReply reply)

def handle (env : Env V) (ρ : Route) (r : Request) (c : Ctx) : Handler V :=
  match ρ with
  | .assetsRoot => serveAssetsRoot env r c
  | .assetPath => serveAssetPath env r c
  | .alarms => serveAlarms env r c
  | .alarmAck => serveAlarmAck env r c
  | .tickets => serveTickets env r c
  | .ticket => serveTicket env r c
  | .opsReport => serveOpsReport env r c
  | .reconcile => serveReconcile env r c
  | .pmSchedules => servePMSchedules env r c
  | .pmSchedule => servePMSchedule env r c
  | .controlAudit => serveControlAudit env r c
  | .controlApprove => serveControlApprove env r c
  | .customerSLA => serveCustomerSLA r
  | .usage => serveUsage env r c
  | .usageExport => serveUsageExport env r c
  | .usageCompute => serveUsageCompute env r c
  | .runbook => serveRunbook env r
  | .cases => serveCases env r c
  | .spares => serveSpares env r
  | .spare => serveSpare env r
  | .inspections => serveInspections env r c
  | .inspection => serveInspection env r c
  | .inspectionForm => serveInspectionForm env r c
  | .maintenanceUpcoming => serveMaintenanceUpcoming env r c
  | .maintenanceWindowsRoot => serveMaintenanceWindowsRoot env r c
  | .maintenanceWindow => serveMaintenanceWindow env r c
  | .tenants => admin (Admin.serveTenants env.toStd r c)
  | .tenantTier => admin (Admin.serveTenantTier env.toStd r c)
  | .orgs => admin (Admin.serveOrgs env.toStd r c)
  | .org => admin (Admin.serveOrg env.toStd r c)
  | .siteOrgs => admin (Admin.serveSiteOrgs env.toStd r c)
  | .roleBindings => admin (Admin.serveRoleBindings env.toStd r c)
  | .modelPacks => serveModelPacks env r c
  | .modelPack => serveModelPack env r c
  | .siteLayoutsRoot => serveSiteLayoutsRoot env r c
  | .siteLayout => serveSiteLayout env r c
  | .metricsQuery => serveMetricsQuery r
  | .metricsQueryRange => serveMetricsQuery r
  | .point => servePoint env r c
  | .health => serveHealth r
  | .ready => serveReady env r
  | .scanners => serveScanners r

structure Server (V : Type) where
  verify : Bytes → Option Principal
  requirePeer : Bool
  env : Env V

/-- The middleware and the handlers share the legacy window's flag. -/
def Server.auth (s : Server V) : AuthConfig :=
  ⟨s.verify, s.env.closed, s.requirePeer, s.env.letters⟩

def pageNotFound : Problem := ⟨404, [], "404 page not found", []⟩

/-- The route whose handler runs and the context it runs with, or the answer given before. -/
def Server.dispatch (s : Server V) (r : Request) : Except Problem (Route × Ctx) :=
  match gateTenantHeader s.auth r with
  | some msg => .error (forbidden msg)
  | none =>
    match authMW s.auth r with
    | .error p => .error p
    | .ok c =>
      match mux r.path with
      | none => .error pageNotFound
      | some ρ => .ok (ρ, c)

def Server.serveHTTP (s : Server V) (r : Request) : Handler V :=
  match s.dispatch r with
  | .error p => refuse p
  | .ok (ρ, c) => handle s.env ρ r c

theorem Server.dispatch_ok {s : Server V} {r : Request} {ρ : Route} {c : Ctx}
    (h : s.dispatch r = .ok (ρ, c)) : authMW s.auth r = .ok c ∧ mux r.path = some ρ := by
  unfold Server.dispatch at h
  split at h
  · cases h
  split at h
  · cases h
  rename_i hc
  split at h
  · cases h
  · rename_i hρ
    cases h
    exact ⟨hc, hρ⟩

/-- A mapped request with a verified token is refused, or handled by its route for the principal and
tenant the middleware passed. -/
theorem Server.serveHTTP_cases {s : Server V} {r : Request} {ρ : Route} {action : Action}
    {path raw : Bytes} {p : Principal} (hprobe : isProbe r.path = false)
    (hmap : mapRequest r = some (action, path)) (hmux : mux r.path = some ρ)
    (hb : bearerFromHeader r.authorization = some raw) (hv : s.verify raw = some p) :
    (∃ q, s.serveHTTP r = refuse q) ∨ (gate s.auth r p action path = .ok () ∧
      s.serveHTTP r = handle s.env ρ r
        ⟨some p, if r.tenantHeader = [] then none else some r.tenantHeader⟩) := by
  rw [Server.serveHTTP]
  cases hd : s.dispatch r with
  | error q => exact .inl ⟨q, rfl⟩
  | ok x =>
    obtain ⟨ρ', c⟩ := x
    obtain ⟨hauth, hmux'⟩ := Server.dispatch_ok hd
    obtain rfl : ρ = ρ' := some.inj (hmux.symm.trans hmux')
    obtain ⟨hgate, rfl⟩ := authMW_ctx hprobe hmap hb hv hauth
    exact .inr ⟨hgate, rfl⟩

/-! ### Behind the admin gate -/

section AdminGate

variable {std : Admin.Std} {r : Request} {c : Ctx}

/-- The handler gets to no call. -/
def Idle (h : Admin.Handler) : Prop := h.Calls fun _ => False

theorem Idle.admin_readOnly {h : Admin.Handler} (hi : Idle h) : ReadOnly (admin h : Handler V) :=
  Calls.bind (Calls.embed (Calls.mono (fun _ => False.elim) hi)) fun _ => trivial

theorem idle_requireOrgAdmin {k : Principal → Admin.Handler} (h : NonAdmin c) :
    Idle (Admin.requireOrgAdmin c k) := by
  unfold Admin.requireOrgAdmin
  split
  · rename_i p hp
    rw [if_neg (h p hp)]
    trivial
  · trivial

theorem idle_serveTenants (h : NonAdmin c) : Idle (Admin.serveTenants std r c) := by
  unfold Admin.serveTenants
  split
  iterate 2 exact idle_requireOrgAdmin h
  · trivial

theorem idle_serveTenantTier (h : NonAdmin c) : Idle (Admin.serveTenantTier std r c) := by
  unfold Admin.serveTenantTier
  dsimp only
  split_ifs
  · trivial
  · trivial
  · exact idle_requireOrgAdmin h
  · trivial
  split
  · trivial
  · split_ifs
    · trivial
    · exact idle_requireOrgAdmin h

theorem idle_serveOrgs (h : NonAdmin c) : Idle (Admin.serveOrgs std r c) := by
  unfold Admin.serveOrgs
  split
  iterate 2 exact idle_requireOrgAdmin h
  · trivial

theorem idle_serveOrg (h : NonAdmin c) : Idle (Admin.serveOrg std r c) := by
  unfold Admin.serveOrg
  dsimp only
  split_ifs
  · trivial
  · trivial
  · trivial
  · split
    iterate 3 exact idle_requireOrgAdmin h
    · trivial

theorem idle_serveSiteOrgs (h : NonAdmin c) : Idle (Admin.serveSiteOrgs std r c) := by
  unfold Admin.serveSiteOrgs
  split
  iterate 3 exact idle_requireOrgAdmin h
  · trivial

theorem idle_serveRoleBindings (h : NonAdmin c) : Idle (Admin.serveRoleBindings std r c) := by
  unfold Admin.serveRoleBindings
  split
  iterate 3 exact idle_requireOrgAdmin h
  · trivial

end AdminGate

/-! ### The handlers agree with the middleware -/

section Reads

variable {env : Env V} {r : Request} {c : Ctx} {rest : Bytes}

theorem ne_post_of_postWrites {m : Method} (h : postWrites m = .read) : m ≠ .post := by
  rintro rfl
  cases h

theorem cutSuffix_below {pattern suffix : Bytes} {a : Action} (hp : r.path = pattern ++ rest)
    (hw : a ≠ .read) (h : suffixWrites suffix rest a = .read) :
    cutSuffix suffix (below pattern r) = none := by
  rw [below_append hp]
  unfold suffixWrites at h
  split at h
  · exact absurd h hw
  · rename_i hs
    simpa using hs

theorem ticketVerb_below {m : Method} (hp : r.path = lit "/v1/tickets/" ++ rest)
    (h : Route.ticket.action m rest = .read) : ticketVerb (below "/v1/tickets/" r) = none := by
  rw [below_append hp]
  unfold Route.action at h
  simpa using h

/-- **A read is a read.**  A route whose action is a read calls nothing that may change the store,
the administrators' handlers apart. -/
theorem handle_readOnly {ρ : Route} (hp : r.path = ρ.pattern ++ rest)
    (ha : ρ.action r.method rest = .read) (hc : NonAdmin c) : ReadOnly (handle env ρ r c) := by
  cases ρ with
  | assetPath =>
    have hm : r.method ≠ .put ∧ r.method ≠ .delete := by
      constructor <;> intro hm <;> rw [hm] at ha <;> cases ha
    refine serveAssetPath_readOnly hm.1 hm.2 fun hpost => ?_
    rw [hpost] at ha
    exact cutSuffix_below hp (by decide) ha
  | alarmAck => exact serveAlarmAck_readOnly (cutSuffix_below hp (by decide) ha)
  | ticket => exact serveTicket_readOnly (ticketVerb_below hp ha)
  | controlApprove => exact serveControlApprove_readOnly (cutSuffix_below hp (by decide) ha)
  | spare => exact serveSpare_readOnly fun _ => cutSuffix_below hp (by decide) ha
  | usageCompute | maintenanceWindow => cases ha
  | tenants => exact (idle_serveTenants hc).admin_readOnly
  | tenantTier => exact (idle_serveTenantTier hc).admin_readOnly
  | orgs => exact (idle_serveOrgs hc).admin_readOnly
  | org => exact (idle_serveOrg hc).admin_readOnly
  | siteOrgs => exact (idle_serveSiteOrgs hc).admin_readOnly
  | roleBindings => exact (idle_serveRoleBindings hc).admin_readOnly
  | point => exact servePoint_readOnly (cutSuffix_below hp (by decide) ha)
  | tickets | pmSchedules | spares | inspections | inspectionForm | maintenanceWindowsRoot =>
    have hm := ne_post_of_postWrites ha
    simp [handle, hm]
  | _ => simp [handle, hc]

end Reads

/-! ### Mediation, and what a viewer can do -/

section Mediation

variable {s : Server V} {r : Request} {ρ : Route} {c : Ctx}

theorem isProbe_of_mux (h : mux r.path = some ρ) (hhealth : ρ ≠ .health) (hready : ρ ≠ .ready) :
    isProbe r.path = false := by
  by_contra hprobe
  rw [Bool.not_eq_false, isProbe, Bool.or_eq_true, decide_eq_true_eq, decide_eq_true_eq] at hprobe
  obtain hp | hp := hprobe
  · rw [hp, show mux "/v1/health" = some .health by decide] at h
    exact hhealth (some.inj h).symm
  · rw [hp, show mux "/v1/health/ready" = some .ready by decide] at h
    exact hready (some.inj h).symm

/-- The handler of a route, probes apart, runs for a principal passed for the route's action. -/
theorem Server.dispatch_passed (h : s.dispatch r = .ok (ρ, c)) (hhealth : ρ ≠ .health)
    (hready : ρ ≠ .ready) : ∃ p rest path, c.principal = some p ∧ r.path = ρ.pattern ++ rest ∧
      Passed s.auth r (ρ.action r.method rest) path p := by
  obtain ⟨hauth, hmux⟩ := s.dispatch_ok h
  obtain ⟨rest, path, hp, hmap⟩ := mapRequest_of_mux hmux hhealth hready
  obtain ⟨p, hc, hpass⟩ := authMW_mapped (isProbe_of_mux hmux hhealth hready) hmap hauth
  exact ⟨p, rest, path, hc, hp, hpass⟩

theorem Server.serveHTTP_readOnly {raw : Bytes} {p : Principal}
    (hb : bearerFromHeader r.authorization = some raw) (hv : s.verify raw = some p)
    (hviewer : p.role = .viewer) : ReadOnly (s.serveHTTP r) := by
  unfold Server.serveHTTP
  split
  · exact .answer
  rename_i ρ c hd
  by_cases hhealth : ρ = .health
  · subst hhealth
    exact serveHealth_readOnly
  by_cases hready : ρ = .ready
  · subst hready
    exact serveReady_readOnly
  obtain ⟨p', rest, path, hc, hp, hpass⟩ := s.dispatch_passed hd hhealth hready
  obtain ⟨raw', hb', hv'⟩ := hpass.bearer
  -- the principal of the context is the viewer: both come from the request's one token
  obtain rfl : raw = raw' := by simpa [hb] using hb'
  obtain rfl : p = p' := some.inj (hv.symm.trans hv')
  refine handle_readOnly hp (hpass.read_of_viewer hviewer) fun q hq => ?_
  obtain rfl : p = q := some.inj (hc.symm.trans hq)
  simp [hviewer]

end Mediation

/-- **Complete mediation, and viewers only read.**  A handler other than the probes' runs only with
the principal that the request's own bearer token verified to; and while it serves a viewer, the
server calls no method that may change the store, whatever it is answered. -/
theorem mediated_and_viewers_read (s : Server V) (r : Request) :
    (∀ ρ c, s.dispatch r = .ok (ρ, c) → ρ ≠ .health → ρ ≠ .ready →
      ∃ raw p, bearerFromHeader r.authorization = some raw ∧ s.verify raw = some p ∧
        c.principal = some p) ∧
      (∀ raw p, bearerFromHeader r.authorization = some raw → s.verify raw = some p →
        p.role = .viewer → ∀ ops reply, (s.serveHTTP r).Runs ops reply →
          ∀ op ∈ ops, op.mutates = false) := by
  constructor
  · intro ρ c hd hhealth hready
    obtain ⟨p, _, _, hc, -, hpass⟩ := s.dispatch_passed hd hhealth hready
    obtain ⟨raw, hb, hv⟩ := hpass.bearer
    exact ⟨raw, p, hb, hv, hc⟩
  · intro raw p hb hv hviewer ops reply hruns
    exact Calls.of_runs (Server.serveHTTP_readOnly hb hv hviewer) hruns

end Cios.Http.Core
