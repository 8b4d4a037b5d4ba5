import Cios.Apigw.Proxy
import Cios.Http.Serve
import Cios.Support.Interleave
import Cios.Support.Utf8

/-!
# API gateway — customer status

`GET /api/customer/status` (`pkg/apigw/customer.go`): the gateway asks the core for the tenant's
sites and for its alarms, and counts the open alarms of each site.  What it gets is one page of a
hundred alarms, and it reads no other (`customer_status_exact_iff`).
-/

namespace Cios.Apigw
open Text Effect List Keyed.Table Prog Utf8
open Cios.Http (Problem Reply Ctx)
open Cios.Http.Core
open Cios.Gateway (tenantFromClaims tenantMissing)
open Cios.Sts (TokenClaims)
open Cios.Store (Alarm)

/-! ### The handler -/

inductive Health where
  | green
  | yellow
  | red
deriving DecidableEq, Repr

structure CustomerSiteStatus where
  id : Bytes
  health : Health
  openAlarms : Nat
deriving DecidableEq, Repr

structure CustomerStatusResponse where
  tenantID : Bytes
  sites : List CustomerSiteStatus
  asOf : Bytes
  degraded : Bool
  note : Bytes
deriving DecidableEq, Repr

structure CustomerAlarmWire where
  path : Bytes
  severity : Bytes
  state : Bytes
deriving DecidableEq, Repr

def isCustomerOpenAlarm (state : Bytes) : Bool := state = "firing" || state = "acked"

/-- The first segment of a path; a path that begins with its dot is taken whole. -/
def siteIDFromPath (path : Bytes) : Bytes :=
  let path := trimSpace path
  if path.contains '.' && path.head? ≠ some ('.' : UInt8) then (Url.cut '.' path).1 else path

abbrev BySite := Keyed.Table CustomerSiteStatus.id

def CustomerSiteStatus.raise (st : CustomerSiteStatus) (severity : Bytes) : CustomerSiteStatus :=
  { st with
    openAlarms := st.openAlarms + 1
    health := if severity = "critical" then .red else if st.health ≠ .red then .yellow else .red }

def countAlarm (bySite : BySite) (a : CustomerAlarmWire) : BySite :=
  if !isCustomerOpenAlarm a.state then bySite
  else
    let siteID := siteIDFromPath a.path
    if siteID = [] then bySite
    else bySite.put (((bySite.get siteID).getD ⟨siteID, .green, 0⟩).raise a.severity)

/-- The listed sites start green; then every alarm is counted. -/
def bySite (siteIDs : List Bytes) (alarms : List CustomerAlarmWire) : BySite :=
  alarms.foldl countAlarm (siteIDs.foldl (fun t id => t.put ⟨id, .green, 0⟩) .empty)

/-- The sites as they are listed, then the others that have open alarms, by id. -/
def customerSites (siteIDs : List Bytes) (alarms : List CustomerAlarmWire) :
    List CustomerSiteStatus :=
  let t := bySite siteIDs alarms
  let extra := ((t.rows.map (·.id)).filter fun id => id ∉ siteIDs).insertionSort
    fun a b => le a b = true
  siteIDs.filterMap t.get ++ extra.filterMap t.get

section Fetch

variable {authority : Bytes → Option Bytes} {V B : Type}

/-- The client of the core: its base URL, and the status and body of each answer, if any. -/
structure Client (authority : Bytes → Option Bytes) (B : Type) where
  origin : Url.Origin authority
  transport : Sent → Option (Nat × B)

/-- An alarm as it comes out of the JSON of the core. -/
def wire (a : Alarm) : CustomerAlarmWire :=
  ⟨Utf8.coerce a.path, Utf8.coerce a.severity, Utf8.coerce a.state⟩

structure CoreJson (V B : Type) where
  render : Reply (Body V) → Nat × B
  sites : B → Option (List Bytes)
  alarms : B → Option (List CustomerAlarmWire)
  render_status : ∀ status body, (render (.json status body)).1 = status
  alarms_render : ∀ status shown next,
    alarms (render (.json status (.alarms shown next))).2 = some (shown.map wire)

variable (up : Option (Client authority B)) (json : CoreJson V B) (i : Identity)

/-- The items of a resource, `none` when there is no client or answer, no success, or no JSON. -/
def fetchItems {α : Type} (decode : B → Option α) (path : Bytes) : Option α :=
  match up with
  | none => none
  | some client =>
    match getV1AsTenant client.origin i.claims i.rawToken path with
    | .error _ => none
    | .ok sent =>
      match client.transport sent with
      | none => none
      | some (status, body) => if status < 200 ∨ 300 ≤ status then none else decode body

def fetchCustomerAlarms : Option (List CustomerAlarmWire) :=
  fetchItems up i json.alarms "/v1/alarms"

def fetchCustomerSiteIDs : Option (List Bytes) :=
  (fetchItems up i json.sites "/v1/sites").map fun items => (items.map trimSpace).filter (· ≠ [])

def handleCustomerStatus (now : Bytes) (r : ProxyRequest) : Except Problem CustomerStatusResponse :=
  if r.method ≠ .get then .error (notAllowed "/api/customer/status only supports GET")
  else match r.identity with
    | none => .error noIdentity
    | some i =>
      match tenantFromClaims (metricClaims i.claims) with
      | none => .error tenantMissing
      | some (tenantID, _) =>
        let siteIDs := fetchCustomerSiteIDs up json i
        let alarms := fetchCustomerAlarms up json i
        let degraded := siteIDs.isNone || alarms.isNone
        .ok
          { tenantID
            sites := customerSites (siteIDs.getD []) (alarms.getD [])
            asOf := now
            degraded
            note := if degraded then "status upstream degraded (sites or alarms unavailable)"
              else [] }

end Fetch

/-! ### What is counted -/

def CustomerAlarmWire.opensAt (id : Bytes) (a : CustomerAlarmWire) : Bool :=
  isCustomerOpenAlarm a.state && siteIDFromPath a.path = id

/-- The status of a site from all its alarms at once. -/
def siteStatus (alarms : List CustomerAlarmWire) (id : Bytes) : CustomerSiteStatus where
  id := id
  health :=
    if alarms.any fun a => a.opensAt id && a.severity = "critical" then .red
    else if alarms.any (·.opensAt id) then .yellow else .green
  openAlarms := alarms.countP (·.opensAt id)

@[simp] theorem siteStatus_id (alarms : List CustomerAlarmWire) (id : Bytes) :
    (siteStatus alarms id).id = id := rfl

section Count

variable {siteIDs : List Bytes} {alarms rest : List CustomerAlarmWire} {a : CustomerAlarmWire}
  {id : Bytes}

theorem siteStatus_snoc_open (h : a.opensAt id = true) :
    siteStatus (alarms ++ [a]) id = (siteStatus alarms id).raise a.severity := by
  by_cases hc : a.severity = "critical"
  · simp [siteStatus, CustomerSiteStatus.raise, h, hc]
  cases hred : alarms.any fun a => a.opensAt id && a.severity = "critical" with
  | true => simp [siteStatus, CustomerSiteStatus.raise, h, hred]
  | false =>
    cases hany : alarms.any (·.opensAt id) <;>
      simp [siteStatus, CustomerSiteStatus.raise, h, hred, hany]

theorem siteStatus_snoc_other (h : a.opensAt id = false) :
    siteStatus (alarms ++ [a]) id = siteStatus alarms id := by
  simp [siteStatus, h]

/-- More alarms leave the status of a site as it is when none of them is open at it. -/
theorem siteStatus_append_eq :
    siteStatus alarms id = siteStatus (alarms ++ rest) id ↔ ∀ a ∈ rest, a.opensAt id = false := by
  constructor
  · intro h
    have hcount := congrArg CustomerSiteStatus.openAlarms h
    simp only [siteStatus, countP_append, Nat.left_eq_add, countP_eq_zero,
      Bool.not_eq_true] at hcount
    exact hcount
  · intro h
    induction rest using List.reverseRecOn with
    | nil => rw [append_nil]
    | append_singleton rest a ih =>
      rw [← append_assoc, siteStatus_snoc_other (h a (by simp))]
      exact ih fun b hb => h b (by simp [hb])

theorem siteStatus_none (h : alarms.any (·.opensAt id) = false) :
    siteStatus alarms id = ⟨id, .green, 0⟩ := by
  have hno : ∀ a ∈ alarms, a.opensAt id = false := by simpa using h
  exact ((@siteStatus_append_eq [] alarms id).mpr hno).symm

/-- The map once the alarms are counted: the sites listed or with an open alarm, with their
status. -/
def Counted (siteIDs : List Bytes) (alarms : List CustomerAlarmWire) (t : BySite) : Prop :=
  ∀ id, t.get id =
    if id ∈ siteIDs ∨ id ≠ [] ∧ alarms.any (·.opensAt id) then some (siteStatus alarms id) else none

theorem counted_nil :
    Counted siteIDs [] (siteIDs.foldl (fun t id => t.put ⟨id, .green, 0⟩) .empty) := by
  intro id
  induction siteIDs using List.reverseRecOn with
  | nil => simp [get_eq_none, empty]
  | append_singleton ids last ih =>
    rw [foldl_append]
    by_cases hid : id = last
    · subst hid
      simpa [siteStatus] using get_put_self
    · refine (get_put_other hid).trans (ih.trans ?_)
      simp [hid]

theorem Counted.countAlarm (hids : [] ∉ siteIDs) {t : BySite} (ht : Counted siteIDs alarms t) :
    Counted siteIDs (alarms ++ [a]) (countAlarm t a) := by
  intro id
  -- away from the alarm's own site nothing changes
  have hother (h : id ≠ [] → a.opensAt id = false) : t.get id =
      if id ∈ siteIDs ∨ id ≠ [] ∧ (alarms ++ [a]).any (·.opensAt id) then
        some (siteStatus (alarms ++ [a]) id) else none := by
    rw [ht id]
    by_cases hnil : id = []
    · simp [hnil, hids]
    · rw [siteStatus_snoc_other (h hnil)]
      simp [h hnil]
  rw [Apigw.countAlarm]
  by_cases hopen : isCustomerOpenAlarm a.state = true
  swap
  · rw [if_pos (by simpa using hopen)]
    exact hother fun _ => by simp [CustomerAlarmWire.opensAt, hopen]
  rw [if_neg (by simpa using hopen)]
  by_cases hsite : siteIDFromPath a.path = []
  · rw [if_pos hsite]
    exact hother fun hnil => by simp [CustomerAlarmWire.opensAt, hsite, Ne.symm hnil]
  rw [if_neg hsite]
  have hcur : (t.get (siteIDFromPath a.path)).getD ⟨siteIDFromPath a.path, .green, 0⟩ =
      siteStatus alarms (siteIDFromPath a.path) := by
    rw [ht]
    split_ifs with hin
    · rfl
    · have hany : alarms.any (·.opensAt (siteIDFromPath a.path)) = false := by
        simpa [hsite] using (not_or.mp hin).2
      exact (siteStatus_none hany).symm
  rw [hcur]
  by_cases hid : id = siteIDFromPath a.path
  · subst hid
    have hat : a.opensAt (siteIDFromPath a.path) = true := by
      simpa [CustomerAlarmWire.opensAt] using hopen
    rw [← siteStatus_snoc_open hat]
    refine get_put_self.trans ?_
    simp [hsite, hat]
  · refine (get_put_other (t := t) hid).trans (hother fun _ => ?_)
    simp [CustomerAlarmWire.opensAt, Ne.symm hid]

theorem counted_bySite (hids : [] ∉ siteIDs) : Counted siteIDs alarms (bySite siteIDs alarms) := by
  induction alarms using List.reverseRecOn with
  | nil => exact counted_nil
  | append_singleton alarms a ih =>
    rw [bySite, foldl_append]
    exact ih.countAlarm hids

/-- **The count is right for the alarms it is made from**: the sites in the answer are those listed
or with an open alarm, each with its status. -/
theorem mem_customerSites (hids : [] ∉ siteIDs) {st : CustomerSiteStatus} :
    st ∈ customerSites siteIDs alarms ↔
      (st.id ∈ siteIDs ∨ st.id ≠ [] ∧ alarms.any (·.opensAt st.id)) ∧
        st = siteStatus alarms st.id := by
  have hget : st ∈ customerSites siteIDs alarms ↔
      (bySite siteIDs alarms).get st.id = some st := by
    simp only [customerSites, mem_append, mem_filterMap, mem_insertionSort,
      mem_filter, mem_map]
    constructor
    · rintro (⟨id, -, h⟩ | ⟨id, -, h⟩)
      iterate 2 rwa [(get_eq_some.mp h).2]
    · intro h
      by_cases hid : st.id ∈ siteIDs
      · exact .inl ⟨_, hid, h⟩
      · exact .inr ⟨_, ⟨⟨st, (get_eq_some.mp h).1, rfl⟩, by simpa using hid⟩, h⟩
  rw [hget, counted_bySite hids]
  split_ifs with hin
  · simp only [Option.some.injEq, hin, true_and]
    exact eq_comm
  · exact iff_of_false (by simp) fun h => hin h.1

end Count

/-! ### What is exact -/

/-- The entry of a site tells what all these alarms say of it. -/
structure Exact (alarms : List CustomerAlarmWire) (st : CustomerSiteStatus) : Prop where
  openAlarms : st.openAlarms = alarms.countP (·.opensAt st.id)
  red : st.health = .red ↔ ∃ a ∈ alarms, a.opensAt st.id = true ∧ a.severity = "critical"
  yellow : st.health = .yellow ↔ (∃ a ∈ alarms, a.opensAt st.id = true) ∧
    ∀ a ∈ alarms, a.opensAt st.id = true → a.severity ≠ "critical"
  green : st.health = .green ↔ ∀ a ∈ alarms, a.opensAt st.id = false

section Exactness

variable {alarms : List CustomerAlarmWire} {id : Bytes}

theorem siteStatus_red : (siteStatus alarms id).health = .red ↔
    ∃ a ∈ alarms, a.opensAt id = true ∧ a.severity = "critical" := by
  simp only [siteStatus]
  split_ifs with hred
  iterate 3 simpa using hred

theorem siteStatus_green :
    (siteStatus alarms id).health = .green ↔ ∀ a ∈ alarms, a.opensAt id = false := by
  simp only [siteStatus]
  split_ifs with hred hany
  · obtain ⟨a, ha, hat⟩ := any_eq_true.mp hred
    refine iff_of_false (by simp) fun hno => ?_
    simp [hno a ha] at hat
  · simpa using hany
  · simpa using hany

theorem exact_siteStatus : Exact alarms (siteStatus alarms id) := by
  refine ⟨rfl, siteStatus_red, ?_, siteStatus_green⟩
  have hyellow : (siteStatus alarms id).health = .yellow ↔
      ¬(siteStatus alarms id).health = .green ∧ ¬(siteStatus alarms id).health = .red := by
    cases (siteStatus alarms id).health <;> simp
  rw [hyellow, siteStatus_green, siteStatus_red]
  simp only [not_forall, Bool.not_eq_false, exists_prop, not_exists, not_and]
  rfl

theorem Exact.unique {st st' : CustomerSiteStatus} (h : Exact alarms st) (h' : Exact alarms st')
    (hid : st.id = st'.id) : st = st' := by
  obtain ⟨id, health, count⟩ := st
  obtain ⟨id', health', count'⟩ := st'
  obtain rfl : id = id' := hid
  obtain rfl : count = count' := h.openAlarms.trans h'.openAlarms.symm
  have hred := h.red.trans h'.red.symm
  have hgreen := h.green.trans h'.green.symm
  cases health <;> cases health' <;> simp_all

theorem exact_iff {st : CustomerSiteStatus} : Exact alarms st ↔ st = siteStatus alarms st.id := by
  constructor
  · intro h
    exact h.unique exact_siteStatus rfl
  · intro h
    rw [h]
    exact exact_siteStatus

theorem siteStatus_perm {alarms' : List CustomerAlarmWire} (h : alarms.Perm alarms') :
    siteStatus alarms id = siteStatus alarms' id := by
  simp only [siteStatus, h.any_eq, h.countP_eq]

/-- The status of a site only looks at where an alarm is open and at whether it is critical. -/
theorem siteStatus_map_congr {α : Type} {f g : α → CustomerAlarmWire} {l : List α}
    (h : ∀ a ∈ l, (f a).opensAt id = (g a).opensAt id ∧
      ((f a).severity = "critical" ↔ (g a).severity = "critical")) :
    siteStatus (l.map f) id = siteStatus (l.map g) id := by
  induction l using List.reverseRecOn with
  | nil => rfl
  | append_singleton l a ih =>
    have ih' := ih fun b hb => h b (by simp [hb])
    obtain ⟨hat, hc⟩ := h a (by simp)
    rw [map_append, map_append, map_singleton, map_singleton]
    by_cases ho : (f a).opensAt id = true
    · rw [siteStatus_snoc_open ho, siteStatus_snoc_open (hat ▸ ho), ih']
      simp only [CustomerSiteStatus.raise, hc]
    · have hf : (f a).opensAt id = false := by simpa using ho
      rw [siteStatus_snoc_other hf, siteStatus_snoc_other (hat ▸ hf), ih']

end Exactness

/-! ### The page -/

section Page

variable {V : Type} (env : Env V) (c : Ctx) (all : List Alarm)

def visible : List Alarm := all.filter fun a => allowed env c .read a.path

/-- A path that `**` matches. -/
def isPath (p : Bytes) : Bool :=
  match Rbac.compileGlob "**" with
  | none => false
  | some g => g.matches p

def firstPage : List Alarm :=
  ((visible env c all).filter fun a => isPath a.path).take defaultPageSize

/-- What the first page leaves out of the alarms that the caller may read. -/
def leftOut : List Alarm :=
  ((visible env c all).filter fun a => isPath a.path).drop defaultPageSize ++
    (visible env c all).filter fun a => !isPath a.path

variable {env c}

theorem visible_perm :
    (visible env c all).Perm (firstPage env c all ++ leftOut env c all) := by
  rw [firstPage, leftOut, ← append_assoc, take_append_drop]
  exact (filter_append_perm (fun a : Alarm => isPath a.path) _).symm

theorem isPath_of_mem_firstPage {all : List Alarm} {a : Alarm} (h : a ∈ firstPage env c all) :
    isPath a.path = true :=
  (mem_filter.mp (mem_of_mem_take h)).2

theorem ascii_of_isPath {p : Bytes} (h : isPath p = true) : ∀ d ∈ p, d < 0x80 := by
  have hbyte : ∀ d : UInt8, Rbac.globPathByte d = true → d < 0x80 :=
    forall_byte (by decide +kernel)
  rw [isPath] at h
  split at h
  · cases h
  rename_i g _
  intro d hd
  by_cases hall : p.all Rbac.globPathByte = true
  · exact hbyte d (all_eq_true.mp hall d hd)
  · simp [Rbac.Glob.matches, hall] at h

theorem filter_visible {g : Rbac.Glob} (hg : Rbac.compileGlob "**" = some g) :
    (visible env c all).filter (fun a => isPath a.path) =
      all.filter fun a => g.matches a.path && allowed env c .read a.path := by
  have hpath (p : Bytes) : isPath p = g.matches p := by rw [isPath, hg]
  simp only [visible, filter_filter, hpath]

theorem serveAlarms_plain {r : Http.Request} (hm : r.method = .get) (hq : r.query = []) :
    ∃ next : List Alarm → Bytes, serveAlarms env r c = work .listAlarms (onOkInternal fun all =>
      respond 200 (.alarms (firstPage env c all) (next all))) := by
  have hget (key : Bytes) : r.queryGet key = [] := by simp [Http.Request.queryGet, hq]
  obtain ⟨g, hg⟩ : ∃ g, Rbac.compileGlob "**" = some g := ⟨_, rfl⟩
  refine ⟨fun all =>
    if defaultPageSize < ((visible env c all).filter fun a => isPath a.path).length then
      env.encodePageToken (lit (toString (0 + defaultPageSize))) else [], ?_⟩
  simp only [firstPage, filter_visible _ hg]
  simp [serveAlarms, hm, checkParam, hget, withGlob, hg, withSome, withPageSize, withPageToken,
    indexPage]

end Page

/-! ### The core behind the gateway -/

section Behind

variable {authority : Bytes → Option Bytes} {V B : Type}

/-- The request as it arrives at the core, from a client with this certificate. -/
def Sent.arrive (peer : Bytes) (sent : Sent) : Http.Request where
  method := sent.method
  path := sent.url.path
  query := match sent.url.rawQuery with
    | none => []
    | some q => Url.parseQuery q
  authorization := sent.authorization
  tenantHeader := sent.tenantHeader
  actorHeader := []
  peer := peer
  body := .ok sent.body

def facts (a : Alarm) : CustomerAlarmWire := ⟨a.path, a.severity, a.state⟩

/-- The client leads to a core that lets the caller list with this context and stores these
alarms. -/
structure Listing (client : Client authority B) (json : CoreJson V B) (core : Http.Core.Server V)
    (peer : Bytes) (i : Identity) (c : Ctx) (all : List Alarm) : Prop where
  answered : ∀ sent, getV1AsTenant client.origin i.claims i.rawToken "/v1/alarms" = .ok sent →
    core.dispatch (sent.arrive peer) = .ok (.alarms, c) ∧
      ∃ reply, (core.serveHTTP (sent.arrive peer)).Fed
        [⟨.work .listAlarms, .ok all⟩] (.done reply) ∧
        client.transport sent = some (json.render reply)

/-- No open alarm left out by the page is at a site that is listed or has an open alarm on it. -/
def NothingMissed (siteIDs : List Bytes) (page out : List Alarm) : Prop :=
  ∀ a ∈ out, isCustomerOpenAlarm a.state = true → siteIDFromPath a.path ≠ [] →
    siteIDFromPath a.path ∉ siteIDs ∧
      ∀ d ∈ page, (facts d).opensAt (siteIDFromPath a.path) = false

instance (siteIDs : List Bytes) (page out : List Alarm) :
    Decidable (NothingMissed siteIDs page out) := inferInstanceAs (Decidable (∀ _ ∈ _, _))

variable {client : Client authority B} {json : CoreJson V B} {core : Http.Core.Server V}
  {peer : Bytes} {i : Identity} {c : Ctx} {all : List Alarm}

theorem getV1AsTenant_alarms {core : Url.Origin authority} {claims : TokenClaims} {rawToken : Bytes}
    {sent : Sent} (h : getV1AsTenant core claims rawToken "/v1/alarms" = .ok sent) (peer : Bytes) :
    (sent.arrive peer).method = .get ∧ (sent.arrive peer).query = [] := by
  have hmethod : sent.method = .get := v1AsTenant_method h
  have hurl := (v1AsTenant_eq_ok h).2.1
  have hjoin : joinURL core "/v1/alarms" =
      core.text ++ (('/' : UInt8) :: lit "v1/alarms") ++ [] := by
    rw [append_nil]
    rfl
  rw [hjoin] at hurl
  obtain ⟨-, -, -, -, -, -, -, hquery⟩ := Url.parse_append core (forall_mem_of_all (by decide)) hurl
  refine ⟨hmethod, ?_⟩
  have hnone : sent.url.rawQuery = none := hquery
  rw [Sent.arrive, hnone]

theorem serveHTTP_alarms {r : Http.Request} (hd : core.dispatch r = .ok (.alarms, c))
    (hm : r.method = .get) (hq : r.query = []) :
    ∃ next : List Alarm → Bytes, ∀ all reply,
      (core.serveHTTP r).Fed [⟨.work .listAlarms, .ok all⟩] (.done reply) ↔
        reply = .json 200 (.alarms (firstPage core.env c all) (next all)) := by
  obtain ⟨next, hserve⟩ : ∃ next : List Alarm → Bytes,
      serveAlarms core.env r c = work .listAlarms (onOkInternal fun all =>
        respond 200 (.alarms (firstPage core.env c all) (next all))) := serveAlarms_plain hm hq
  refine ⟨next, fun all reply => ?_⟩
  have hprog : core.serveHTTP r = serveAlarms core.env r c := by
    rw [Http.Core.Server.serveHTTP, hd]
    rfl
  rw [hprog, hserve, work, fed_call_done]
  constructor
  · rintro ⟨a, rest, hevs, hfed⟩
    cases hevs
    exact done.inj (fed_done.mp hfed).2
  · rintro rfl
    exact ⟨.ok all, [], rfl, fed_done.mpr ⟨rfl, rfl⟩⟩

/-- **What the gateway gets is the first page.** -/
theorem Listing.fetch (h : Listing client json core peer i c all) {alarms : List CustomerAlarmWire}
    (hf : fetchCustomerAlarms (some client) json i = some alarms) :
    alarms = (firstPage core.env c all).map wire := by
  rw [fetchCustomerAlarms, fetchItems] at hf
  cases hsent : getV1AsTenant client.origin i.claims i.rawToken "/v1/alarms" with
  | error e => simp [hsent] at hf
  | ok sent =>
    simp only [hsent] at hf
    obtain ⟨hdispatch, reply, hfed, htransport⟩ := h.answered sent hsent
    obtain ⟨hm, hq⟩ := getV1AsTenant_alarms hsent peer
    obtain ⟨next, hreply⟩ := serveHTTP_alarms hdispatch hm hq
    rw [htransport, (hreply all reply).mp hfed] at hf
    dsimp only at hf
    rw [json.render_status, if_neg (by decide), json.alarms_render] at hf
    exact (Option.some.inj hf).symm

theorem wire_agrees {a : Alarm} (h : isPath a.path = true) (id : Bytes) :
    (wire a).opensAt id = (facts a).opensAt id ∧
      ((wire a).severity = "critical" ↔ (facts a).severity = "critical") := by
  have hpath : (wire a).path = a.path := coerce_valid (valid_ascii (ascii_of_isPath h))
  have hfiring : (wire a).state = "firing" ↔ a.state = "firing" :=
    coerce_eq_ascii (forall_mem_of_all (by decide))
  have hacked : (wire a).state = "acked" ↔ a.state = "acked" :=
    coerce_eq_ascii (forall_mem_of_all (by decide))
  refine ⟨?_, coerce_eq_ascii (forall_mem_of_all (by decide))⟩
  simp only [CustomerAlarmWire.opensAt, isCustomerOpenAlarm, hpath, hfiring, hacked]
  rfl

theorem opensAt_facts {a : Alarm} {id : Bytes} : (facts a).opensAt id = true ↔
    isCustomerOpenAlarm a.state = true ∧ siteIDFromPath a.path = id := by
  rw [CustomerAlarmWire.opensAt, Bool.and_eq_true, decide_eq_true_eq]
  rfl

/-- The status of a site on a page, against all the alarms. -/
theorem exact_page_iff {seen page out : List Alarm} (hperm : seen.Perm (page ++ out))
    (hpage : ∀ a ∈ page, isPath a.path = true) (id : Bytes) :
    Exact (seen.map facts) (siteStatus (page.map wire) id) ↔
      ∀ a ∈ out, (facts a).opensAt id = false := by
  have hwire : siteStatus (page.map wire) id = siteStatus (page.map facts) id :=
    siteStatus_map_congr fun a ha => wire_agrees (hpage a ha) id
  rw [exact_iff, siteStatus_id, hwire, siteStatus_perm (hperm.map facts), map_append,
    siteStatus_append_eq, forall_mem_map]

theorem exact_sites_iff {siteIDs : List Bytes} {seen page out : List Alarm} (hids : [] ∉ siteIDs)
    (hperm : seen.Perm (page ++ out)) (hpage : ∀ a ∈ page, isPath a.path = true) :
    (∀ st ∈ customerSites siteIDs (page.map wire), Exact (seen.map facts) st) ↔
      NothingMissed siteIDs page out := by
  constructor
  · intro h a ha hopen hsite
    have hat := opensAt_facts.mpr ⟨hopen, rfl⟩
    -- an entry of the alarm's site would not be exact
    have hno : ¬(siteIDFromPath a.path ∈ siteIDs ∨ siteIDFromPath a.path ≠ [] ∧
        (page.map wire).any (·.opensAt (siteIDFromPath a.path))) := by
      intro hin
      have hexact := h (siteStatus (page.map wire) (siteIDFromPath a.path))
        ((mem_customerSites hids).mpr ⟨hin, rfl⟩)
      rw [(exact_page_iff hperm hpage _).mp hexact a ha] at hat
      cases hat
    refine ⟨fun hm => hno (.inl hm), fun d hdp => ?_⟩
    by_contra hd
    refine hno (.inr ⟨hsite, any_eq_true.mpr ⟨wire d, mem_map_of_mem hdp, ?_⟩⟩)
    rw [(wire_agrees (hpage d hdp) _).1]
    simpa using hd
  · intro h st hst
    obtain ⟨hin, hst⟩ := (mem_customerSites hids).mp hst
    rw [hst, exact_page_iff hperm hpage]
    intro a ha
    by_contra hat
    obtain ⟨hopen, hsite⟩ := opensAt_facts.mp (by simpa using hat)
    have hne : st.id ≠ [] := by
      rintro hnil
      rcases hin with hin | hin
      · exact hids (hnil ▸ hin)
      · exact hin.1 hnil
    obtain ⟨hlisted, hnone⟩ := h a ha hopen (hsite ▸ hne)
    rw [hsite] at hlisted hnone
    rcases hin with hin | hin
    · exact hlisted hin
    · obtain ⟨w, hw, hwat⟩ := any_eq_true.mp hin.2
      obtain ⟨d, hdp, rfl⟩ := mem_map.mp hw
      rw [(wire_agrees (hpage d hdp) _).1, hnone d hdp] at hwat
      cases hwat

/-- What a response that is not degraded was made from. -/
theorem handleCustomerStatus_ok {now : Bytes} {r : ProxyRequest} {resp : CustomerStatusResponse}
    (h : handleCustomerStatus (some client) json now r = .ok resp) (hd : resp.degraded = false)
    (hi : r.identity = some i) :
    ∃ siteIDs alarms, fetchCustomerSiteIDs (some client) json i = some siteIDs ∧
      fetchCustomerAlarms (some client) json i = some alarms ∧
      resp.sites = customerSites siteIDs alarms := by
  by_cases hm : r.method = .get
  · rw [handleCustomerStatus, if_neg (not_not_intro hm)] at h
    simp only [hi] at h
    split at h
    · cases h
    cases h
    simp only [Bool.or_eq_false_iff, Option.isNone_eq_false_iff] at hd
    obtain ⟨siteIDs, hs⟩ := Option.isSome_iff_exists.mp hd.1
    obtain ⟨alarms, ha⟩ := Option.isSome_iff_exists.mp hd.2
    exact ⟨siteIDs, alarms, hs, ha, by simp only [hs, ha, Option.getD_some]⟩
  · rw [handleCustomerStatus, if_pos hm] at h
    cases h

theorem nil_not_mem_siteIDs {siteIDs : List Bytes}
    (h : fetchCustomerSiteIDs (some client) json i = some siteIDs) : [] ∉ siteIDs := by
  obtain ⟨items, -, rfl⟩ := Option.map_eq_some_iff.mp h
  simp

/-- **Customer status, and the first page.**  A response that is not degraded tells of every site in
it what all the alarms the caller may read say, exactly when no open alarm that the first page
leaves out is at a site that is listed or has an open alarm on that page. -/
theorem customer_status_exact_iff (client : Client authority B) (json : CoreJson V B)
    (core : Http.Core.Server V) (peer : Bytes) (i : Identity) (c : Ctx) (all : List Alarm)
    (hcore : Listing client json core peer i c all) (now : Bytes) (r : ProxyRequest)
    (hi : r.identity = some i) (resp : CustomerStatusResponse)
    (h : handleCustomerStatus (some client) json now r = .ok resp) (hd : resp.degraded = false) :
    ∃ siteIDs, fetchCustomerSiteIDs (some client) json i = some siteIDs ∧
      ((∀ st ∈ resp.sites, Exact ((visible core.env c all).map facts) st) ↔
        NothingMissed siteIDs (firstPage core.env c all) (leftOut core.env c all)) := by
  obtain ⟨siteIDs, alarms, hs, ha, hsites⟩ := handleCustomerStatus_ok h hd hi
  have hids := nil_not_mem_siteIDs hs
  refine ⟨siteIDs, hs, ?_⟩
  rw [hsites, hcore.fetch ha]
  exact exact_sites_iff hids (visible_perm all) fun a ha => isPath_of_mem_firstPage ha

end Behind

/-! ### A floor of alarms -/

abbrev PlainBody := List Bytes ⊕ List CustomerAlarmWire

def plainJson : CoreJson Nat PlainBody where
  render
    | .problem p => (p.status, .inl [])
    | .json status (.alarms shown _) => (status, .inr (shown.map wire))
    | .json status _ => (status, .inl [])
    | .noContent => (204, .inl [])
  sites
    | .inl ids => some ids
    | .inr _ => none
  alarms
    | .inl _ => none
    | .inr alarms => some alarms
  render_status status body := by cases body <;> rfl
  alarms_render _ _ _ := rfl

def siteReader : Rbac.Principal := Rbac.viewerOf ["crn:tenant/acme/org/o1/site/sgp01"]

def readerCore : Http.Core.Server Nat := ⟨fun _ => some siteReader, false, Env.plain⟩

def readerCtx : Ctx := ⟨some siteReader, some "acme"⟩

variable (n : Nat)

def podAlarm : Alarm :=
  ⟨lit (toString n), "sgp01.pod002", "minor", "firing", "supply temperature", 0, [], none⟩

def floorAlarms : List Alarm := (List.range n).map podAlarm

def floorClient : Client some PlainBody where
  origin := coreOrigin
  transport sent :=
    if sent.url.path = "/v1/alarms" then
      some (plainJson.render
        (.json 200 (.alarms (firstPage Env.plain readerCtx (floorAlarms n)) [])))
    else some (200, .inl ["sgp01"])

theorem floor_listing :
    Listing (floorClient n) plainJson readerCore [] tenantIdentity readerCtx (floorAlarms n) := by
  have hask : ∃ sent, getV1AsTenant coreOrigin tenantIdentity.claims tenantIdentity.rawToken
      "/v1/alarms" = .ok sent ∧ sent.url.path = "/v1/alarms" ∧
      readerCore.dispatch (sent.arrive []) = .ok (.alarms, readerCtx) :=
    ⟨_, rfl, by decide, rfl⟩
  constructor
  intro sent hsent
  obtain ⟨sent', hsent', hpath, hdispatch⟩ := hask
  obtain rfl : sent' = sent := Except.ok.inj (hsent'.symm.trans hsent)
  obtain ⟨hm, hq⟩ := getV1AsTenant_alarms hsent' []
  obtain ⟨next, hreply⟩ := serveHTTP_alarms hdispatch hm hq
  refine ⟨hdispatch, _, (hreply (floorAlarms n) _).mpr rfl, ?_⟩
  rw [floorClient]
  dsimp only
  rw [if_pos hpath]
  rfl

theorem firstPage_floor :
    visible Env.plain readerCtx (floorAlarms n) = floorAlarms n ∧
      firstPage Env.plain readerCtx (floorAlarms n) = floorAlarms (min 100 n) := by
  have hallowed : allowed Env.plain readerCtx .read "sgp01.pod002" = true := by decide
  have hpath : isPath "sgp01.pod002" = true := by decide
  have hmem {a : Alarm} (ha : a ∈ floorAlarms n) : a.path = "sgp01.pod002" := by
    obtain ⟨k, -, rfl⟩ := mem_map.mp ha
    rfl
  have hvisible : visible Env.plain readerCtx (floorAlarms n) = floorAlarms n := by
    refine filter_eq_self.mpr fun a ha => ?_
    rw [hmem ha, hallowed]
  refine ⟨hvisible, ?_⟩
  rw [firstPage, hvisible, filter_eq_self.mpr fun a ha => by rw [hmem ha, hpath],
    floorAlarms, ← map_take, take_range]
  rfl

def statusRequest : ProxyRequest := ⟨.get, "/api/customer/status", some tenantIdentity, .ok []⟩

theorem floor_status :
    ∃ resp, handleCustomerStatus (some (floorClient n)) plainJson [] statusRequest = .ok resp ∧
      resp.degraded = false ∧
      resp.sites = customerSites ["sgp01"] ((floorAlarms (min 100 n)).map wire) := by
  refine ⟨_, rfl, rfl, ?_⟩
  rw [← (firstPage_floor n).2]
  rfl

/-- Three alarms: the status is exact. -/
theorem three_alarms_exact :
    ∃ resp, handleCustomerStatus (some (floorClient 3)) plainJson [] statusRequest = .ok resp ∧
      ∀ st ∈ resp.sites,
        Exact ((visible Env.plain readerCtx (floorAlarms 3)).map facts) st := by
  obtain ⟨resp, h, hd, -⟩ := floor_status 3
  obtain ⟨siteIDs, hs, hiff⟩ := customer_status_exact_iff (floorClient 3) plainJson readerCore []
    tenantIdentity readerCtx (floorAlarms 3) (floor_listing 3) [] statusRequest rfl resp h hd
  refine ⟨resp, h, hiff.mpr ?_⟩
  exact fun a ha => absurd ha (not_mem_nil)

/-- Of the hundred and one firing alarms of a site, a response that is not degraded tells a
hundred. -/
theorem hundred_and_first_uncounted :
    ∃ resp, Listing (floorClient 101) plainJson readerCore [] tenantIdentity readerCtx
        (floorAlarms 101) ∧
      handleCustomerStatus (some (floorClient 101)) plainJson [] statusRequest = .ok resp ∧
      resp.degraded = false ∧ resp.sites = [⟨"sgp01", .yellow, 100⟩] ∧
      ((visible Env.plain readerCtx (floorAlarms 101)).map facts).countP (·.opensAt "sgp01") = 101 ∧
      ¬∀ st ∈ resp.sites, Exact ((visible Env.plain readerCtx (floorAlarms 101)).map facts) st := by
  obtain ⟨resp, h, hd, hsites⟩ := floor_status 101
  have hone : resp.sites = [⟨"sgp01", .yellow, 100⟩] := by
    rw [hsites]
    decide +kernel
  have hcount : ((visible Env.plain readerCtx (floorAlarms 101)).map facts).countP
      (·.opensAt "sgp01") = 101 := by
    decide +kernel
  refine ⟨resp, floor_listing 101, h, hd, hone, hcount, fun hexact => ?_⟩
  have hst := (hexact ⟨"sgp01", .yellow, 100⟩ (by simp [hone])).openAlarms
  rw [hcount] at hst
  cases hst

end Cios.Apigw
