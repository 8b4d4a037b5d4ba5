import Cios.Http.Serve
import Cios.Sts.Token
import Cios.Ticket.History
import Cios.Usage.Scan

/-!
# Usage — who sees it

`GET /v1/usage` and its export list what the store has for the query.  The middleware lets a list
endpoint pass on the role alone, for its handler to check every item; these two handlers check none.
The tenant of the request is part of the filter, the caller's scopes are not (`usage_scoped_iff`).
-/

namespace Cios.Store
open Text

variable {V : Type}

/-- A bound of a period; the zero time stands for none. -/
def bound (t : Option Int) : Option Int := t.filter fun t => t ≠ Cios.Sts.zeroTime

/-- The record passes the filter; a period passes when it overlaps the one asked for. -/
def UsageListFilter.admits (f : UsageListFilter) (u : UsageRecord V) : Bool :=
  (f.tenantID = [] || u.tenantID = f.tenantID) && (f.siteID = [] || u.siteID = f.siteID) &&
    f.kind.all (fun k => u.kind = k) && f.granularity.all (fun g => u.granularity = g) &&
    (bound f.periodEnd).all (fun t => u.periodStart < t) &&
    (bound f.periodStart).all (fun t => t < u.periodEnd)

/-- The order of a list of usage: by the start of the period, the asset and the kind. -/
def UsageRecord.before (u v : UsageRecord V) : Bool :=
  if u.periodStart ≠ v.periodStart then u.periodStart < v.periodStart
  else if u.assetPath ≠ v.assetPath then !le v.assetPath u.assetPath
  else !le v.kind.text u.kind.text

/-- `ListUsage`.  The map is ranged over in any `order`, and the sort keeps equals in any order;
both are in `order`. -/
def Memory.listUsage (m : Memory V) (order : List Bytes) (f : UsageListFilter) :
    List (UsageRecord V) :=
  let out := (order.filterMap fun id => m.usages[id]?).filter f.admits
  out.insertionSort fun u v => v.before u = false

theorem Memory.mem_listUsage {m : Memory V} {order : List Bytes} {f : UsageListFilter}
    {u : UsageRecord V} : u ∈ m.listUsage order f ↔
      (∃ id ∈ order, m.usages[id]? = some u) ∧ f.admits u = true := by
  rw [Memory.listUsage, List.mem_insertionSort, List.mem_filter, List.mem_filterMap]

theorem Memory.tenant_of_mem_listUsage {m : Memory V} {order : List Bytes} {f : UsageListFilter}
    {u : UsageRecord V} (hu : u ∈ m.listUsage order f) (hf : f.tenantID ≠ []) :
    u.tenantID = f.tenantID := by
  have hadmits := (Memory.mem_listUsage.mp hu).2
  simp only [UsageListFilter.admits, Bool.and_eq_true, Bool.or_eq_true,
    decide_eq_true_eq] at hadmits
  exact hadmits.1.1.1.1.1.resolve_left hf

end Cios.Store

namespace Cios.Usage
open Text Effect
open Cios.Store hiding refuse
open Cios.Rbac (Principal authorize roleAllows)
open Cios.Http (Request Ctx Reply Route mux bearerFromHeader gate mapRequest isListScopeEndpoint
  isProbe)
open Cios.Http.Core

variable {V : Type}

/-! ### The query -/

def timeParam (env : Env V) (r : Request) (key : Bytes) : Option Int :=
  if r.queryGet key = [] then none else (env.parseTime (r.queryGet key)).toOption

/-- What a query asks the store for, under a tenant. -/
def usageFilter (env : Env V) (r : Request) (tenant : Option Bytes) : UsageListFilter where
  tenantID := tenant.getD (r.queryGet "tenant_id")
  siteID := r.queryGet "site_id"
  kind := usageKind (r.queryGet "kind")
  granularity := usageGranularity (r.queryGet "granularity")
  periodStart := timeParam env r "period_start"
  periodEnd := timeParam env r "period_end"

/-- The page size asked for, or the default. -/
def pageSize (r : Request) : Nat :=
  if r.queryGet "page_size" = [] then defaultPageSize
  else ((atoi (r.queryGet "page_size")).getD 0).toNat

def pageStart (r : Request) : Nat := ((atoi (r.queryGet "page_token")).getD 0).toNat

/-- What is answered of a list: a page of it, or for the export all. -/
def usagePage {α : Type} (r : Request) (items : List α) : List α :=
  if r.path = "/v1/usage:export" then items else (items.drop (pageStart r)).take (pageSize r)

/-- The handler goes on as `h'`, unless it refuses the request. -/
def OrRefuses (h h' : Handler V) : Prop := h = h' ∨ ∃ p, h = refuse p

section Query

variable {env : Env V} {r : Request} {c : Ctx} {h h' h'' : Handler V}

theorem OrRefuses.refl : OrRefuses h h := .inl rfl

theorem OrRefuses.trans (h₁ : OrRefuses h h') (h₂ : OrRefuses h' h'') : OrRefuses h h'' := by
  rcases h₁ with rfl | hp
  · exact h₂
  · exact .inr hp

theorem orRefuses_problem {status : Nat} {slug title detail : Bytes} :
    OrRefuses (problem status slug title detail) h :=
  .inr ⟨_, rfl⟩

theorem withUsageTenant_orRefuses {k : Bytes → Handler V} :
    OrRefuses (withUsageTenant r c k) (k (c.tenant.getD (r.queryGet "tenant_id"))) := by
  rw [withUsageTenant.eq_def]
  cases c.tenant with
  | none => exact .refl
  | some tid =>
    dsimp only
    split_ifs
    · exact orRefuses_problem
    · exact .refl

theorem withEnum_orRefuses {α : Type} {key bad : Bytes} {read : Bytes → Option α}
    {k : Option α → Handler V} (hread : read [] = none) :
    OrRefuses (withEnum r key bad read k) (k (read (r.queryGet key))) := by
  rw [withEnum]
  by_cases hnone : r.queryGet key = []
  · rw [if_pos hnone, hnone, hread]
    exact .refl
  · rw [if_neg hnone]
    cases read (r.queryGet key) with
    | none => exact orRefuses_problem
    | some a => exact .refl

theorem withTime_orRefuses {key bad : Bytes} {k : Option Int → Handler V} :
    OrRefuses (withTime env r key bad k) (k (timeParam env r key)) := by
  rw [withTime, timeParam]
  by_cases hnone : r.queryGet key = []
  · rw [if_pos hnone, if_pos hnone]
    exact .refl
  · rw [if_neg hnone, if_neg hnone]
    cases env.parseTime (r.queryGet key) with
    | error e => exact orRefuses_problem
    | ok t => exact .refl

theorem withPageSize_orRefuses {k : Nat → Handler V} :
    OrRefuses (withPageSize r k) (k (pageSize r)) := by
  rw [withPageSize, pageSize]
  by_cases hnone : r.queryGet "page_size" = []
  · rw [if_pos hnone, if_pos hnone]
    exact .refl
  rw [if_neg hnone, if_neg hnone, withCount]
  cases atoi (r.queryGet "page_size") with
  | none => exact orRefuses_problem
  | some n =>
    dsimp only [withSome]
    split_ifs
    iterate 2 exact orRefuses_problem
    · exact .refl

/-- A query is refused, or read as what it asks for. -/
theorem parseUsageListQuery_orRefuses {k : UsageListFilter → Nat → Nat → Handler V} :
    OrRefuses (parseUsageListQuery env r c k)
      (k (usageFilter env r c.tenant) (pageSize r) (pageStart r)) := by
  refine withUsageTenant_orRefuses.trans ?_
  iterate 2 refine (withEnum_orRefuses (by decide)).trans ?_
  refine withTime_orRefuses.trans (withTime_orRefuses.trans (withPageSize_orRefuses.trans ?_))
  rw [pageStart]
  by_cases hnone : r.queryGet "page_token" = []
  · rw [if_pos hnone, hnone]
    exact .refl
  rw [if_neg hnone]
  cases atoi (r.queryGet "page_token") with
  | none => exact orRefuses_problem
  | some n =>
    dsimp only [withSome]
    split_ifs
    · exact orRefuses_problem
    · exact .refl

end Query

/-! ### The answer -/

def shownUsage : Reply (Body V) → List (UsageRecord V)
  | .json _ (.usage items _) => items
  | .json _ (.usageCSV items) => items
  | _ => []

/-- The handler, unless it refuses the request, answers with what `page` takes of a list. -/
def Lists (h : Handler V) (f : UsageListFilter)
    (page : List (UsageRecord V) → List (UsageRecord V)) : Prop :=
  ∃ reply : List (UsageRecord V) → Reply (Body V),
    OrRefuses h (work (.listUsage f) <| onOkInternal fun items => .done (reply items)) ∧
      ∀ items, shownUsage (reply items) = page items

section Handlers

variable {env : Env V} {r : Request} {c : Ctx}

theorem serveUsage_lists (hget : r.method = .get) :
    Lists (serveUsage env r c) (usageFilter env r c.tenant)
      fun items => (items.drop (pageStart r)).take (pageSize r) := by
  rw [serveUsage, if_neg (not_not_intro hget)]
  refine ⟨_, parseUsageListQuery_orRefuses, ?_⟩
  intro items
  show (items.drop (min (pageStart r) items.length)).take (pageSize r) =
    (items.drop (pageStart r)).take (pageSize r)
  rcases le_total (pageStart r) items.length with h | h
  · rw [min_eq_left h]
  · rw [min_eq_right h, List.drop_length, List.drop_eq_nil_of_le h]

theorem serveUsageExport_lists (hget : r.method = .get) :
    Lists (serveUsageExport env r c) (usageFilter env r c.tenant) id := by
  rw [serveUsageExport, if_neg (not_not_intro hget)]
  exact ⟨_, parseUsageListQuery_orRefuses, fun items => rfl⟩

/-- What a list handler ends with: nothing, or the page of what the store has answered. -/
theorem Lists.ends {h : Handler V} {f : UsageListFilter}
    {page : List (UsageRecord V) → List (UsageRecord V)} (hl : Lists h f page)
    {evs : List (Event (Op V) Op.Ret)} {reply : Reply (Body V)} (hrun : h.Fed evs (.done reply)) :
    ((∀ items, ⟨.work (.listUsage f), .ok items⟩ ∉ evs) ∧ shownUsage reply = []) ∨
      ∃ items, ⟨.work (.listUsage f), .ok items⟩ ∈ evs ∧ shownUsage reply = page items := by
  obtain ⟨answer, rfl | ⟨p, rfl⟩, hanswer⟩ := hl
  · obtain ⟨res, rest, rfl, hrest⟩ := Prog.fed_call_done.mp hrun
    cases res with
    | error e =>
      obtain ⟨rfl, ⟨⟩⟩ := hrest.finished
      exact .inl ⟨by simp, rfl⟩
    | ok items =>
      cases hrest.ended
      exact .inr ⟨items, List.mem_cons_self, hanswer items⟩
  · obtain ⟨rfl, ⟨⟩⟩ := hrun.finished
    exact .inl ⟨by simp, rfl⟩

end Handlers

/-! ### Scopes -/

/-- The first of the principal's scopes that matches the path admits a read of it. -/
def Covered (closed : Bool) (p : Principal) (path : Bytes) : Prop :=
  ∃ sg, p.scopeGlobs.find? (·.matches .read path) = some sg ∧ sg.Admissible closed []

instance (closed : Bool) (p : Principal) (path : Bytes) : Decidable (Covered closed p path) :=
  decidable_of_iff ((p.scopeGlobs.find? (·.matches .read path)).any
    fun sg => decide (sg.Admissible closed [])) (by simp [Covered, Option.any_eq_true])

theorem authorize_read_iff {closed : Bool} {p : Principal} {path : Bytes} (hadm : p.role ≠ .admin)
    (hrole : roleAllows p .read = .ok ()) :
    authorize closed p .read path = .ok () ↔ Covered closed p path :=
  (Rbac.authorizeTenant_of_role hrole hadm).trans Rbac.authorizeScopes_ok_iff

section Server

variable {s : Server V} {r : Request} {raw : Bytes} {p : Principal}

/-- The two list endpoints of usage. -/
def listsUsage (path : Bytes) : Bool := path = "/v1/usage" || path = "/v1/usage:export"

/-- A list request of usage as the middleware and the mux see it. -/
theorem listsUsage_cases (hget : r.method = .get) (h : listsUsage r.path = true) :
    isProbe r.path = false ∧ (∃ path, mapRequest r = some (.read, path)) ∧
      isListScopeEndpoint r = true ∧
      ((mux r.path = some .usage ∧ r.path ≠ "/v1/usage:export") ∨
        (mux r.path = some .usageExport ∧ r.path = "/v1/usage:export")) := by
  rw [listsUsage, Bool.or_eq_true, decide_eq_true_eq, decide_eq_true_eq] at h
  obtain ⟨method, path, query, authorization, tenantHeader, actorHeader, peer, body⟩ := r
  subst hget
  rcases h with rfl | rfl
  · have hmux : mux (lit "/v1/usage") = some .usage ∧
        lit "/v1/usage" ≠ lit "/v1/usage:export" := by decide
    exact ⟨rfl, ⟨_, rfl⟩, rfl, .inl hmux⟩
  · have hmux : mux (lit "/v1/usage:export") = some .usageExport := by decide
    exact ⟨rfl, ⟨_, rfl⟩, rfl, .inr ⟨hmux, rfl⟩⟩

/-- The tenant of the request, as the middleware passes it on. -/
def headerTenant (r : Request) : Option Bytes :=
  if r.tenantHeader = [] then none else some r.tenantHeader

theorem mem_of_mem_usagePage {α : Type} {items : List α} {x : α} (h : x ∈ usagePage r items) :
    x ∈ items := by
  rw [usagePage] at h
  split_ifs at h
  · exact h
  · exact List.mem_of_mem_drop (List.mem_of_mem_take h)

variable (hget : r.method = .get) (hpath : listsUsage r.path = true)
  (hb : bearerFromHeader r.authorization = some raw) (hv : s.verify raw = some p)
include hget hpath hb hv

/-- Past the middleware a list request of usage has its principal's role checked, not the scopes. -/
theorem serveHTTP_lists :
    (∃ q, s.serveHTTP r = refuse q) ∨ (roleAllows p .read = .ok () ∧
      Lists (s.serveHTTP r) (usageFilter s.env r (headerTenant r)) (usagePage r)) := by
  obtain ⟨hprobe, ⟨path, hmap⟩, hexempt, hroute⟩ := listsUsage_cases hget hpath
  have passed {ρ : Route} (hmux : mux r.path = some ρ) :
      (∃ q, s.serveHTTP r = refuse q) ∨ (roleAllows p .read = .ok () ∧
        s.serveHTTP r = handle s.env ρ r ⟨some p, headerTenant r⟩) := by
    have h := Server.serveHTTP_cases hprobe hmap hmux hb hv
    rw [gate, if_pos hexempt] at h
    exact h
  rcases hroute with ⟨hlist, hne⟩ | ⟨hexport, heq⟩
  · have hpage : usagePage r = fun items : List (UsageRecord V) =>
        (items.drop (pageStart r)).take (pageSize r) := by
      funext items
      rw [usagePage, if_neg hne]
    refine (passed hlist).imp_right fun h => ⟨h.1, ?_⟩
    rw [h.2, hpage]
    exact serveUsage_lists hget
  · have hpage : usagePage r = (id : List (UsageRecord V) → List (UsageRecord V)) := by
      funext items
      rw [usagePage, if_pos heq, id]
    refine (passed hexport).imp_right fun h => ⟨h.1, ?_⟩
    rw [h.2, hpage]
    exact serveUsageExport_lists hget

/-- **Who sees usage.**  Every record a non-admin is shown is one that `authorize` admits for a read
and, with a tenant on the request, that tenant's, exactly when the store is not asked for the query,
or all it has for it, on the page asked for, is in the caller's scopes. -/
theorem usage_scoped_iff {m : Memory V} {order : List Bytes} {evs : List (Event (Op V) Op.Ret)}
    {reply : Reply (Body V)} (hadm : p.role ≠ .admin) (hrun : (s.serveHTTP r).Fed evs (.done reply))
    (hstore : ∀ f items, ⟨.work (.listUsage f), .ok items⟩ ∈ evs → items = m.listUsage order f) :
    (∀ u ∈ shownUsage reply, authorize s.env.closed p .read u.assetPath = .ok () ∧
        (r.tenantHeader ≠ [] → u.tenantID = r.tenantHeader)) ↔
      ((∃ items, ⟨.work (.listUsage (usageFilter s.env r (headerTenant r))), .ok items⟩ ∈ evs) →
        ∀ u ∈ usagePage r (m.listUsage order (usageFilter s.env r (headerTenant r))),
          Covered s.env.closed p u.assetPath) := by
  rcases serveHTTP_lists hget hpath hb hv with ⟨q, hq⟩ | ⟨hrole, hlists⟩
  · rw [hq] at hrun
    obtain ⟨rfl, ⟨⟩⟩ := hrun.finished
    exact iff_of_true (by simp [shownUsage]) (by simp)
  rcases hlists.ends hrun with ⟨hno, hnothing⟩ | ⟨items, hmem, hshown⟩
  · exact iff_of_true (by simp [hnothing]) fun ⟨items, hmem⟩ => absurd hmem (hno items)
  obtain rfl := hstore _ _ hmem
  rw [hshown]
  constructor
  · intro h _ u hu
    exact (authorize_read_iff hadm hrole).mp (h u hu).1
  intro h u hu
  refine ⟨(authorize_read_iff hadm hrole).mpr (h ⟨_, hmem⟩ u hu), ?_⟩
  -- the tenant is the filter's
  intro ht
  have htenant : (usageFilter s.env r (headerTenant r)).tenantID = r.tenantHeader := by
    rw [headerTenant, if_neg ht]
    rfl
  have hlisted := mem_of_mem_usagePage hu
  rw [Memory.tenant_of_mem_listUsage hlisted (by rw [htenant]; exact ht), htenant]

end Server

/-! ### A viewer of one site -/

def viewerServer : Server Nat where
  verify raw :=
    if raw = "t0" then some (Rbac.viewerOf ["crn:tenant/acme/org/o1/site/site01"]) else none
  requirePeer := false
  env := Env.plain

def usageGet : Request := ⟨.get, "/v1/usage", [], "Bearer t0", [], [], [], .ok []⟩

variable (path : Bytes)

def rackDay : UsageRecord Nat :=
  { usageOf .rackHour 0 day .daily path 24 "h" with id := "us_1" }

def oneRecord : Memory Nat :=
  { Memory.empty with usages := (∅ : Map (UsageRecord Nat)).insert "us_1" (rackDay path) }

def listCall : List (Event (Op Nat) Op.Ret) :=
  [⟨.work (.listUsage (usageFilter Env.plain usageGet none)), .ok [rackDay path]⟩]

theorem usageGet_run : (viewerServer.serveHTTP usageGet).Fed (listCall path)
    (.done (.json 200 (.usage [rackDay path] []))) :=
  .cons (.nil _)

theorem listCall_answered (f : UsageListFilter) (items : List (UsageRecord Nat))
    (h : ⟨.work (.listUsage f), .ok items⟩ ∈ listCall path) :
    items = (oneRecord path).listUsage [lit "us_1"] f := by
  cases List.mem_singleton.mp h
  rfl

/-- A viewer of `site01` is shown a rack of `site01`. -/
theorem viewer_sees_own_site :
    (viewerServer.serveHTTP usageGet).Fed (listCall "site01.rk001")
        (.done (.json 200 (.usage [rackDay "site01.rk001"] []))) ∧
      ∀ u ∈ [rackDay "site01.rk001"],
        authorize false (Rbac.viewerOf ["crn:tenant/acme/org/o1/site/site01"]) .read u.assetPath =
          .ok () := by
  refine ⟨usageGet_run _, ?_⟩
  have h := (usage_scoped_iff (s := viewerServer) (r := usageGet) (m := oneRecord "site01.rk001")
    rfl rfl rfl rfl (by decide) (usageGet_run "site01.rk001")
    (listCall_answered "site01.rk001")).mpr ?_
  · intro u hu
    exact (h u hu).1
  · intro _
    decide

/-- The same viewer is shown a rack of `site02`, of which `authorize` forbids the viewer a read. -/
theorem viewer_sees_other_site :
    (viewerServer.serveHTTP usageGet).Fed (listCall "site02.rk001")
        (.done (.json 200 (.usage [rackDay "site02.rk001"] []))) ∧
      (∀ f items, ⟨.work (.listUsage f), .ok items⟩ ∈ listCall "site02.rk001" →
        items = (oneRecord "site02.rk001").listUsage [lit "us_1"] f) ∧
      authorize false (Rbac.viewerOf ["crn:tenant/acme/org/o1/site/site01"]) .read
        (rackDay "site02.rk001").assetPath ≠ .ok () :=
  ⟨usageGet_run _, listCall_answered _, by decide⟩

end Cios.Usage
