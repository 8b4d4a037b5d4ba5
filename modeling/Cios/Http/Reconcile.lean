import Cios.Http.Serve
import Cios.Support.Interleave

/-!
# HTTP — the reconcile report

`GET /v1/reports/reconcile` sets the CMDB against what reports to VictoriaMetrics
(`core/reconcile.go`).  An orphan is a path that reports and is not among the entries of the report.
The entries are the assets in service that the caller may read: any other asset that reports is an
orphan too, and orphans are not checked against the caller's scopes (`reconcile_orphans_iff`).
-/

namespace Cios.Http.Core
open Text Effect List Prog
open Cios.Store
open Cios.Rbac (Principal authorize)

variable {V : Type}

/-- The paths that a report has as orphans. -/
def orphansOf : Reply (Body V) → List Bytes
  | .json _ (.reconcile rep) => rep.orphans.getD []
  | _ => []

/-- The paths that a report discloses. -/
def disclosed : Reply (Body V) → List Bytes
  | .json _ (.reconcile rep) => rep.entries.map ReconcileEntry.path ++ rep.orphans.getD []
  | _ => []

/-- The lifecycles that a report covers. -/
def inService (a : Asset V) : Bool :=
  a.spec.getStr "lifecycle" = lit "active" || a.spec.getStr "lifecycle" = lit "maintenance"

/-- The CMDB was listed. -/
def Listed (evs : List (Event (Op V) Op.Ret)) : Prop := ∃ all, ⟨.work .listAssets, .ok all⟩ ∈ evs

/-- What VictoriaMetrics has answered for the paths that report. -/
def Reporting (evs : List (Event (Op V) Op.Ret)) (paths : List Bytes) : Prop :=
  ∃ window, ⟨.outside (.fetchVMAssetPaths window), some paths⟩ ∈ evs

/-- The entries the caller may read; the orphans are what reports besides these. -/
def answerReconcile (env : Env V) (c : Ctx) (window : Bytes) (rep : ReconcileResponse) :
    Handler V :=
  let visible := rep.entries.filter fun e => allowed env c .read e.path
  if !seesOrphans c then respond 200 (.reconcile { rep with entries := visible, orphans := none })
  else outside (.fetchVMAssetPaths window) fun paths =>
    match paths with
    | none => respond 200 (.reconcile
        { rep with entries := visible, degraded := true, orphans := some [] })
    | some paths => respond 200 (.reconcile
        { rep with
          entries := visible
          orphans := some (paths.filter fun p => !(visible.any fun e => e.path = p)) })

section Report

variable {env : Env V} {r : Request} {p : Principal} {c : Ctx}
variable {assets : List (Asset V)} {evs : List (Event (Op V) Op.Ret)} {reply : Reply (Body V)}

variable (env c) in
theorem serveReconcile_eq (hget : r.method = .get) :
    (∃ q, serveReconcile env r c = refuse q) ∨
      ∃ window, serveReconcile env r c =
        computeReconcile window (answerReconcile env c window) := by
  rw [serveReconcile, if_neg (not_not_intro hget)]
  by_cases hbad : r.queryGet "window" ≠ [] ∧ (!validCapacityWindow (r.queryGet "window")) = true
  · rw [if_pos hbad]
    exact .inl ⟨_, rfl⟩
  · rw [if_neg hbad]
    exact .inr ⟨_, rfl⟩

/-- The entries of a report that the caller may read. -/
def readable (env : Env V) (p : Principal) (entries : List ReconcileEntry) : List Bytes :=
  (entries.map ReconcileEntry.path).filter fun q => authorize env.closed p .read q = .ok ()

/-- An answer shows the readable entries and, if VictoriaMetrics has answered, the other paths. -/
theorem answerReconcile_ends {window : Bytes} {rep : ReconcileResponse} (hc : c.principal = some p)
    (hrun : (answerReconcile env c window rep).Fed evs (.done reply)) :
    disclosed reply = readable env p rep.entries ++ orphansOf reply ∧
      ((orphansOf reply = [] ∧
          (evs = [] ∨ evs = [⟨.outside (.fetchVMAssetPaths window), none⟩])) ∨
        ∃ paths, evs = [⟨.outside (.fetchVMAssetPaths window), some paths⟩] ∧
          orphansOf reply = paths.filter fun q => q ∉ readable env p rep.entries) := by
  have hvisible : (rep.entries.filter fun e => allowed env c .read e.path).map ReconcileEntry.path =
      readable env p rep.entries := by
    rw [readable, filter_map]
    simp only [allowed, hc]
    rfl
  rw [answerReconcile] at hrun
  split_ifs at hrun
  · cases hrun.ended
    refine ⟨?_, .inl ⟨rfl, .inl (fed_done.mp hrun).1⟩⟩
    rw [disclosed, hvisible]
    rfl
  · obtain ⟨paths, rest, rfl, hrest⟩ := fed_call_done.mp hrun
    cases paths with
    | none =>
      obtain ⟨rfl, ⟨⟩⟩ := hrest.finished
      refine ⟨?_, .inl ⟨rfl, .inr rfl⟩⟩
      rw [disclosed, hvisible]
      rfl
    | some paths =>
      obtain ⟨rfl, ⟨⟩⟩ := hrest.finished
      refine ⟨?_, .inr ⟨paths, rfl, ?_⟩⟩
      · rw [disclosed, hvisible]
        rfl
      rw [← hvisible]
      show paths.filter _ = paths.filter _
      congr 1
      funext q
      rw [Bool.eq_iff_iff]
      simp

theorem mem_readable (assets : List (Asset V)) {entries : List ReconcileEntry} {q : Bytes}
    (h : entries.map ReconcileEntry.path = (assets.filter inService).map Asset.path) :
    q ∈ readable env p entries ↔ (∃ a ∈ assets, a.path = q ∧ inService a = true) ∧
      authorize env.closed p .read q = .ok () := by
  rw [readable, h, mem_filter, decide_eq_true_eq]
  refine and_congr_left' ?_
  simp only [mem_map, mem_filter]
  constructor
  · rintro ⟨a, ⟨ha, hs⟩, hq⟩
    exact ⟨a, ha, hq, hs⟩
  · rintro ⟨a, ha, hq, hs⟩
    exact ⟨a, ⟨ha, hs⟩, hq⟩

/-- The entries of a report: the assets in service that the caller may read. -/
def Entry (env : Env V) (p : Principal) (assets : List (Asset V))
    (evs : List (Event (Op V) Op.Ret)) (q : Bytes) : Prop :=
  Listed evs ∧ (∃ a ∈ assets, a.path = q ∧ inService a = true) ∧
    authorize env.closed p .read q = .ok ()

/-- What a report is made of: its entries, and the rest of the paths that report. -/
structure Made (env : Env V) (p : Principal) (assets : List (Asset V))
    (evs : List (Event (Op V) Op.Ret)) (reply : Reply (Body V)) : Prop where
  entries : ∀ q, q ∈ disclosed reply ↔ Entry env p assets evs q ∨ q ∈ orphansOf reply
  orphans : ∀ q, q ∈ orphansOf reply ↔
    (∃ paths, Reporting evs paths ∧ q ∈ paths) ∧ ¬ Entry env p assets evs q

theorem made_refuse {q : Problem} : Made env p assets [] (.problem q) := by
  constructor <;> simp [disclosed, orphansOf, Entry, Listed, Reporting]

theorem made_answer {window : Bytes} {rep : ReconcileResponse} (pre : List (Event (Op V) Op.Ret))
    (hc : c.principal = some p) (hrun : (answerReconcile env c window rep).Fed evs (.done reply))
    (hpre : ∀ paths, ¬ Reporting pre paths)
    (hread : ∀ q, q ∈ readable env p rep.entries ↔ Entry env p assets pre q) :
    Made env p assets (pre ++ evs) reply := by
  obtain ⟨hdisclosed, horphans⟩ := answerReconcile_ends hc hrun
  -- the answer does not list the CMDB again
  have hlisted : Listed (pre ++ evs) ↔ Listed pre := by
    rcases horphans with ⟨-, rfl | rfl⟩ | ⟨paths, rfl, -⟩ <;> simp [Listed]
  have hentry : ∀ q, q ∈ readable env p rep.entries ↔ Entry env p assets (pre ++ evs) q := by
    intro q
    rw [hread, Entry, Entry, hlisted]
  constructor
  · intro q
    rw [hdisclosed, mem_append, hentry]
  intro q
  rcases horphans with ⟨hnone, hevs⟩ | ⟨paths, rfl, hsome⟩
  · have hno : ∀ paths, ¬ Reporting (pre ++ evs) paths := by
      rintro paths ⟨w, hw⟩
      rcases mem_append.mp hw with hw | hw
      · exact hpre paths ⟨w, hw⟩
      · rcases hevs with rfl | rfl <;> simp at hw
    rw [hnone]
    simp [hno]
  · have honly : ∀ paths', Reporting
        (pre ++ [⟨.outside (.fetchVMAssetPaths window), some paths⟩]) paths' ↔ paths' = paths := by
      intro paths'
      constructor
      · rintro ⟨w, hw⟩
        rcases mem_append.mp hw with hw | hw
        · exact absurd ⟨w, hw⟩ (hpre paths')
        · cases mem_singleton.mp hw
          rfl
      · rintro rfl
        exact ⟨window, by simp⟩
    rw [hsome, mem_filter, decide_eq_true_eq, hentry]
    simp [honly]

theorem serveReconcile_made (hget : r.method = .get) (hc : c.principal = some p)
    (hrun : (serveReconcile env r c).Fed evs (.done reply))
    (hstore : ∀ all, ⟨.work .listAssets, .ok all⟩ ∈ evs → all = assets) :
    Made env p assets evs reply := by
  rcases serveReconcile_eq env c hget with ⟨q, hq⟩ | ⟨window, hq⟩
  · rw [hq] at hrun
    obtain ⟨rfl, ⟨⟩⟩ := hrun.finished
    exact made_refuse
  · rw [hq] at hrun
    obtain ⟨res, rest, rfl, hrest⟩ := fed_call_done.mp hrun
    cases res with
    | error e =>
      refine made_answer [⟨.work .listAssets, .error e⟩] hc hrest ?_ ?_
      · simp [Reporting]
      · simp [readable, Entry, Listed]
    | ok all =>
      obtain rfl := hstore all mem_cons_self
      obtain ⟨present, rest, rfl, hanswer⟩ := fed_call_done.mp hrest
      refine made_answer [⟨.work .listAssets, .ok all⟩, ⟨_, present⟩] hc hanswer ?_ ?_
      · simp [Reporting]
      intro q
      refine (mem_readable all ?_).trans (and_iff_right ⟨all, mem_cons_self⟩).symm
      rw [map_map]
      refine map_congr_left ?_
      intro a _
      cases present with
      | none => rfl
      | some paths =>
        show ReconcileEntry.path (if a.path ∈ paths then _ else _) = a.path
        split_ifs <;> rfl

end Report

section Server

variable {s : Server V} {r : Request} {raw : Bytes} {p : Principal}
variable {assets : List (Asset V)} {evs : List (Event (Op V) Op.Ret)} {reply : Reply (Body V)}

variable (hget : r.method = .get) (hpath : r.path = "/v1/reports/reconcile")
  (hb : bearerFromHeader r.authorization = some raw) (hv : s.verify raw = some p)
  (hrun : (s.serveHTTP r).Fed evs (.done reply))
  (hstore : ∀ all, ⟨.work .listAssets, .ok all⟩ ∈ evs → all = assets)
include hget hpath hb hv hrun hstore

theorem serveHTTP_made : Made s.env p assets evs reply := by
  have hmux : mux r.path = some .reconcile := by
    rw [hpath]
    decide
  obtain ⟨rest, path, -, hmap⟩ := mapRequest_of_mux hmux (by decide) (by decide)
  have hprobe := isProbe_of_mux hmux (by decide) (by decide)
  rcases Server.serveHTTP_cases hprobe hmap hmux hb hv with ⟨q, hq⟩ | ⟨-, hq⟩
  · rw [hq] at hrun
    obtain ⟨rfl, ⟨⟩⟩ := hrun.finished
    exact made_refuse
  · rw [hq] at hrun
    exact serveReconcile_made hget rfl hrun hstore

/-- **Orphans.**  No orphan is in the CMDB, and every path of the report is one that the caller may
read, exactly when every path that reports is one that the caller may read and, if it is in the
CMDB, the CMDB was listed and has it in service. -/
theorem reconcile_orphans_iff :
    ((∀ q ∈ orphansOf reply, ∀ a ∈ assets, a.path ≠ q) ∧
        ∀ q ∈ disclosed reply, authorize s.env.closed p .read q = .ok ()) ↔
      ∀ paths, Reporting evs paths → ∀ q ∈ paths, authorize s.env.closed p .read q = .ok () ∧
        ((∃ a ∈ assets, a.path = q) → Listed evs ∧
          ∃ a ∈ assets, a.path = q ∧ inService a = true) := by
  have hmade := serveHTTP_made hget hpath hb hv hrun hstore
  constructor
  · rintro ⟨hfresh, hread⟩ paths hpaths q hq
    by_cases hentry : Entry s.env p assets evs q
    · exact ⟨hentry.2.2, fun _ => ⟨hentry.1, hentry.2.1⟩⟩
    · have horphan : q ∈ orphansOf reply := (hmade.orphans q).mpr ⟨⟨paths, hpaths, hq⟩, hentry⟩
      refine ⟨hread q ((hmade.entries q).mpr (.inr horphan)), ?_⟩
      rintro ⟨a, ha, haq⟩
      exact absurd haq (hfresh q horphan a ha)
  · intro h
    constructor
    · intro q hq a ha haq
      obtain ⟨⟨paths, hpaths, hmem⟩, hno⟩ := (hmade.orphans q).mp hq
      obtain ⟨hread, hreg⟩ := h paths hpaths q hmem
      obtain ⟨hlisted, hserved⟩ := hreg ⟨a, ha, haq⟩
      exact hno ⟨hlisted, hserved, hread⟩
    · intro q hq
      rcases (hmade.entries q).mp hq with hentry | horphan
      · exact hentry.2.2
      · obtain ⟨⟨paths, hpaths, hmem⟩, -⟩ := (hmade.orphans q).mp horphan
        exact (h paths hpaths q hmem).1

end Server

/-! ### An operator of one site -/

def siteOperator : Principal :=
  ⟨"svc:operator", .operator, [lit "crn:tenant/acme/org/o1/site/site01"], none⟩

def operatorServer : Server Nat where
  verify raw := if raw = "t0" then some siteOperator else none
  requirePeer := false
  env := Env.plain

def reconcileGet : Request := ⟨.get, "/v1/reports/reconcile", [], "Bearer t0", [], [], [], .ok []⟩

def rackIn (path lifecycle : Bytes) : Asset Nat :=
  ⟨path, 1, some [("lifecycle", .str lifecycle)], 0, 0⟩

def reportRun (assets : List (Asset Nat)) : List (Event (Op Nat) Op.Ret) :=
  [⟨.work .listAssets, .ok assets⟩,
    ⟨.outside (.assetHasTelemetryBatch ((assets.filter inService).map Asset.path) "7d"),
      some ((assets.filter inService).map Asset.path)⟩,
    ⟨.outside (.fetchVMAssetPaths "7d"), some (assets.map Asset.path)⟩]

theorem reportRun_listed {assets all : List (Asset Nat)}
    (h : ⟨.work .listAssets, .ok all⟩ ∈ reportRun assets) : all = assets := by
  simpa [reportRun] using h

/-- A rack in service, of the operator's own site, is no orphan. -/
theorem own_rack_no_orphan : ∃ reply,
    (operatorServer.serveHTTP reconcileGet).Fed (reportRun [rackIn "site01.rk001" "active"])
      (.done reply) ∧ (∀ q ∈ orphansOf reply, ∀ a ∈ [rackIn "site01.rk001" "active"], a.path ≠ q) ∧
    ∀ q ∈ disclosed reply, authorize false siteOperator .read q = .ok () := by
  obtain ⟨reply, hrun⟩ : ∃ reply, (operatorServer.serveHTTP reconcileGet).Fed
      (reportRun [rackIn "site01.rk001" "active"]) (.done reply) :=
    ⟨_, .cons <| .cons <| .cons <| .nil _⟩
  refine ⟨reply, hrun, (reconcile_orphans_iff (p := siteOperator) rfl rfl rfl rfl hrun
    fun all => reportRun_listed).mpr ?_⟩
  rintro paths ⟨window, hw⟩ q hq
  obtain ⟨-, rfl⟩ : window = lit "7d" ∧ paths = [lit "site01.rk001"] := by
    simpa [reportRun, rackIn] using hw
  cases mem_singleton.mp hq
  exact ⟨by decide, fun _ => ⟨⟨_, mem_cons_self⟩, by decide⟩⟩

/-- The operator's retired rack and another site's active one are both reported as orphans. -/
theorem registered_racks_orphaned :
    let assets := [rackIn "site01.rk001" "retired", rackIn "site02.rk001" "active"]
    ∃ reply, (operatorServer.serveHTTP reconcileGet).Fed (reportRun assets) (.done reply) ∧
      (∀ a ∈ assets, a.path ∈ orphansOf reply) ∧
      lit "site02.rk001" ∈ disclosed reply ∧
      authorize false siteOperator .read "site02.rk001" ≠ .ok () :=
  ⟨_, .cons <| .cons <| .cons <| .nil _, by decide, by decide, by decide⟩

end Cios.Http.Core
