import Cios.Http.Reports
import Cios.Support.Interleave

/-!
# Usage — the scanner

The scheduled computation of usage (`core/usage_scan.go`, `core/usage_period.go`, `core/usage.go`).
A tick takes the scanner's lock, lists the assets, and materialises two kinds of period: the last
complete UTC day, for all assets at once, and the last complete calendar month, site by site in the
site's own time zone.  A rack in service counts its hours; an asset's energy is asked of
VictoriaMetrics, as the increase of its counter or else its average power.  Each record gets the
organisation and the tenant of its site, and is upserted.

Time is in nanoseconds.  The library's time zones, its `float64` and its decoders are parameters.
-/

namespace Cios.Usage
open Text Effect List Prog Under
open Cios.Store
open Cios.Http.Core (Op Handler Measurement enrichUsageIdentity siteIDFromPath)

variable {V Loc : Type}

/-! ### Periods -/

def hour : Int := 3600 * 10 ^ 9

def day : Int := 24 * hour

/-- The first and the last instant of the last complete UTC day, the last one excluded. -/
def previousUTCDay (now : Int) : Int × Int :=
  let stop := now - now % day
  (stop - day, stop)

/-- The library's time zones: `firstOfMonth` of an instant, and `addMonths` for `AddDate`. -/
structure Calendar (Loc : Type) where
  utc : Loc
  loadLocation : Bytes → Option Loc
  firstOfMonth : Loc → Int → Int
  addMonths : Loc → Int → Int → Int

section Zones

variable (cal : Calendar Loc)

def previousCalendarMonth (now : Int) (loc : Loc) : Int × Int :=
  let stop := cal.firstOfMonth loc now
  (cal.addMonths loc stop (-1), stop)

def locationFromSiteSpec (spec : Spec V) : Loc :=
  let raw := trimSpace (spec.getStr "timezone")
  if raw = [] then cal.utc else (cal.loadLocation raw).getD cal.utc

/-- The time zones of the sites, the last one set first. -/
abbrev Locations (Loc : Type) := List (Bytes × Loc)

/-- An asset below its site says the zone only of a site that has none yet. -/
def addLocation (out : Locations Loc) (a : Asset V) : Locations Loc :=
  let site := siteIDFromPath a.path
  let zoned := match a.spec.get "timezone" with
    | some (.str _) => true
    | _ => false
  if site = [] then out
  else if a.path ≠ site ∧ a.path ≠ site ++ lit "." ∧ out.any (·.1 = site) then out
  else if a.spec.isNone then out
  else if !zoned ∧ a.path ≠ site then out
  else (site, locationFromSiteSpec cal a.spec) :: out

def siteLocationMap (assets : List (Asset V)) : Locations Loc := assets.foldl (addLocation cal) []

def locationForSite (locs : Locations Loc) (siteID : Bytes) : Loc :=
  match locs.find? fun sl => sl.1 = siteID with
  | some sl => sl.2
  | none => cal.utc

end Zones

/-! ### Usage -/

/-- The `float64` of the scanner.  A sum starts at zero, which leaves a positive quantity. -/
structure Num (V : Type) where
  zero : V
  add : V → V → V
  mul : V → V → V
  div : V → V → V
  thousand : V
  nonPositive : V → Bool
  /-- `Duration.Hours`. -/
  hours : Int → V
  parseFloat : Bytes → Option V
  zero_add : ∀ v, nonPositive v = false → add zero v = v

section Compute

variable (num : Num V)

/-- A record as it is computed: its identity is still to be filled in. -/
def usageOf (kind : UsageKind) (start stop : Int) (g : UsageGranularity)
    (path : Bytes) (quantity : V)
    (unit : Bytes) : UsageRecord V :=
  ⟨[], kind, [], [], siteIDFromPath path, path, start, stop, g, quantity, unit⟩

def computeRackHourUsage (assets : List (Asset V)) (start stop : Int) (g : UsageGranularity) :
    List (UsageRecord V) :=
  let racks := assets.filter fun a =>
    a.spec.getStr "type" = lit "rack" && a.spec.getStr "lifecycle" = lit "active"
  racks.map fun a => usageOf .rackHour start stop g a.path (num.hours (stop - start)) "h"

/-- The sums by asset, in the order in which the assets are first seen. -/
def addMeasurement (sums : List (Bytes × V)) (m : Measurement V) : List (Bytes × V) :=
  if sums.any (·.1 = m.assetPath) then
    sums.map fun s => if s.1 = m.assetPath then (s.1, num.add s.2 m.quantity) else s
  else sums ++ [(m.assetPath, num.add num.zero m.quantity)]

def computeEnergyUsage (ms : List (Measurement V)) (start stop : Int) (g : UsageGranularity) :
    List (UsageRecord V) :=
  let counted := ms.filter fun m => m.unit = lit "kWh" && start ≤ m.time && m.time < stop
  (counted.foldl (addMeasurement num) []).map fun s =>
    usageOf .energy start stop g s.1 s.2 "kWh"

end Compute

/-- `EnrichUsageIdentity`, answering the record. -/
def enrichUsage (u : UsageRecord V) :
    Prog (Op V) Op.Ret (Except StoreError (UsageRecord V)) :=
  let u := if u.siteID = [] then { u with siteID := siteIDFromPath u.assetPath } else u
  if u.siteID = [] then .done (.ok u)
  else .call (.tenancy (.getSiteOrg u.siteID)) fun found =>
    match found with
    | .error e => .done (.error e)
    | .ok none => .done (.ok u)
    | .ok (some so) =>
      let u := if u.orgID = [] then { u with orgID := so.orgID } else u
      if so.orgID = [] ∨ u.tenantID ≠ [] then .done (.ok u)
      else .call (.tenancy (.getOrg so.orgID)) fun org =>
        match org with
        | .error e => .done (.error e)
        | .ok none => .done (.ok u)
        | .ok (some o) => .done (.ok { u with tenantID := o.tenantID })

theorem enrichUsageIdentity_eq (u : UsageRecord V)
    (no : Handler V) (k : UsageRecord V → Handler V) :
    enrichUsageIdentity u no k = (enrichUsage u).bind fun
      | .error _ => no
      | .ok u' => k u' := by
  rw [enrichUsageIdentity, enrichUsage]
  dsimp only
  generalize (if u.siteID = [] then { u with siteID := siteIDFromPath u.assetPath } else u) = u₁
  by_cases hsite : u₁.siteID = []
  · rw [if_pos hsite, if_pos hsite]
    rfl
  rw [if_neg hsite, if_neg hsite]
  refine congrArg (call _) (funext fun found => ?_)
  rcases found with e | _ | so
  · rfl
  · rfl
  dsimp only
  generalize (if u₁.orgID = [] then { u₁ with orgID := so.orgID } else u₁) = u₂
  by_cases hdone : so.orgID = [] ∨ u₂.tenantID ≠ []
  · rw [if_pos hdone, if_pos hdone]
    rfl
  rw [if_neg hdone, if_neg hdone]
  refine congrArg (call _) (funext fun org => ?_)
  rcases org with e | _ | o
  · rfl
  · rfl
  · rfl

/-! ### VictoriaMetrics -/

/-- What the scanner calls. -/
inductive ScanOp (V : Type) where
  | tryScannerLock
  | release
  | core (op : Op V)
  | onUsageUpserted (rec : UsageRecord V)

abbrev ScanOp.Ret : ScanOp V → Type
  | .tryScannerLock => Except Bytes Bool
  | .release => Unit
  | .core op => op.Ret
  | .onUsageUpserted _ => Unit

abbrev Scan (V α : Type) := Prog (ScanOp V) ScanOp.Ret α

/-- `vmResponse` decodes the status and the values; `rangeOrder` is the order of a loop over a
map. -/
structure Scanner (V Loc : Type) where
  num : Num V
  calendar : Calendar Loc
  vmURL : Bytes
  vmResponse : Bytes → Option (Bytes × List (List (Json V)))
  rangeOrder : List Bytes → List Bytes
  rangeOrder_perm : ∀ l, (rangeOrder l).Perm l

def escapeLabelValue (v : Bytes) : Bytes :=
  v.flatMap fun c : UInt8 =>
    if c = '\\' then lit "\\\\" else if c = '"' then lit "\\\"" else if c = '\n' then lit "\\n"
    else [c]

def energyQuery (path window : Bytes) : Bytes :=
  lit "increase(cios_energy_kwh\x7basset_path=\"" ++ escapeLabelValue path ++ lit "\"\x7d[" ++
    window ++ lit "])"

def powerQuery (path window : Bytes) : Bytes :=
  lit "avg_over_time(cios_power_watt\x7basset_path=\"" ++ escapeLabelValue path ++ lit "\"\x7d[" ++
    window ++ lit "])"

/-- The window of a period, in whole hours. -/
def windowOf (start stop : Int) : Bytes :=
  let hours := (stop - start + hour / 2) / hour
  if hours = 0 then "24h" else lit (toString hours) ++ lit "h"

namespace Scanner

variable (s : Scanner V Loc)

/-- The number in an answer: the second part of the first result's value, a string. -/
def scalar : Except Bytes Bytes → Option V
  | .error _ => none
  | .ok body =>
    match s.vmResponse body with
    | none => none
    | some (status, results) =>
      if status ≠ "success" then none
      else match results with
        | (_ :: .str v :: _) :: _ => s.num.parseFloat v
        | _ => none

/-- The query goes without a time: it is evaluated when it arrives. -/
def fetchVMScalar (query : Bytes) : Scan V (Option V) :=
  .call (.core (.outside (.fetchVM query))) fun r => .done (s.scalar r)

def fetchEnergyKWhIncrease (path window : Bytes) : Scan V (Option V) :=
  s.fetchVMScalar (energyQuery path window)

def estimate (hours : V) (watts : V) : V := s.num.div (s.num.mul watts hours) s.num.thousand

def fetchPowerAvgAsKWh (path window : Bytes) (hours : V) : Scan V (Option V) :=
  s.fetchVMScalar (powerQuery path window) >>= fun watts => .done (watts.map (s.estimate hours))

/-- The counter, and the power where the counter says nothing. -/
def fetchKWh (path window : Bytes) (hours : V) : Scan V (Option V) :=
  s.fetchEnergyKWhIncrease path window >>= fun
    | some kwh => .done (some kwh)
    | none => s.fetchPowerAvgAsKWh path window hours

/-- The loop over the assets: `out` has one measurement for each path that has been seen. -/
def measure (window : Bytes) (hours : V) (mid : Int) :
    List (Asset V) → List (Measurement V) → Scan V (List (Measurement V))
  | [], out => .done out
  | a :: rest, out =>
    if a.path = [] ∨ a.path ∈ out.map (·.assetPath) then measure window hours mid rest out
    else s.fetchKWh a.path window hours >>= fun
      | none => measure window hours mid rest out
      | some kwh =>
        if s.num.nonPositive kwh then measure window hours mid rest out
        else measure window hours mid rest (out ++ [⟨a.path, mid, kwh, "kWh"⟩])

def fetchEnergyMeasurements (assets : List (Asset V)) (start stop : Int) :
    Scan V (List (Measurement V)) :=
  if s.vmURL = [] then .done []
  else if stop ≤ start then .done []
  else s.measure (windowOf start stop) (s.num.hours (stop - start)) (start + (stop - start) / 2)
    assets []

def computeUsageWindow (assets : List (Asset V)) (start stop : Int) (g : UsageGranularity) :
    Scan V (List (UsageRecord V)) :=
  s.fetchEnergyMeasurements assets start stop >>= fun ms =>
    .done (computeRackHourUsage s.num assets start stop g ++
      computeEnergyUsage s.num ms start stop g)

def siteKey (a : Asset V) : Bytes :=
  if siteIDFromPath a.path = [] then "_" else siteIDFromPath a.path

/-- The months, site by site. -/
def computeMonths (assets : List (Asset V)) (now : Int) : List Bytes → Scan V (List (UsageRecord V))
  | [] => .done []
  | sid :: rest =>
    let loc := locationForSite s.calendar (siteLocationMap s.calendar assets) sid
    let (start, stop) := previousCalendarMonth s.calendar now loc
    s.computeUsageWindow (assets.filter fun a => siteKey a = sid) start stop .monthly >>= fun us =>
      computeMonths assets now rest >>= fun more => .done (us ++ more)

/-- A record that cannot be completed or saved is passed over. -/
def saveComputed : List (UsageRecord V) → Scan V Unit
  | [] => .done ()
  | u :: rest =>
    (enrichUsage u).embed ScanOp.core (fun _ r => r) >>= fun
      | .error _ => saveComputed rest
      | .ok enriched => .call (.core (.work (.upsertUsage enriched))) fun res =>
        match res with
        | .error _ => saveComputed rest
        | .ok saved => .call (.onUsageUpserted saved) fun _ => saveComputed rest

def scanAssets (now : Int) (assets : List (Asset V)) : Scan V Unit :=
  let (start, stop) := previousUTCDay now
  s.computeUsageWindow assets start stop .daily >>= fun days =>
    s.computeMonths assets now (s.rangeOrder (assets.map siteKey).eraseDups) >>= fun months =>
      saveComputed (days ++ months)

/-- A tick of the scanner, by the lock that it holds. -/
def scanUsageTick (now : Int) : Scan V Unit :=
  .call .tryScannerLock fun lock =>
    match lock with
    | .ok true => .call (.core (.work .listAssets)) fun assets =>
      let scan : Scan V Unit := match assets with
        | .error _ => .done ()
        | .ok assets => s.scanAssets now assets
      scan >>= fun _ => .call .release fun _ => .done ()
    | _ => .done ()

end Scanner

/-! ### What is computed -/

section Computed

variable {num : Num V} {ms : List (Measurement V)} {F : Bytes → V → Prop} {mid : Int}

theorem foldl_addMeasurement (hnodup : (ms.map (·.assetPath)).Nodup) :
    ms.foldl (addMeasurement num) [] =
      ms.map fun m => (m.assetPath, num.add num.zero m.quantity) := by
  induction ms using List.reverseRecOn with
  | nil => rfl
  | append_singleton ms m ih =>
    rw [map_append, nodup_append] at hnodup
    obtain ⟨hms, -, hdisj⟩ := hnodup
    have hnew : ((ms.map fun m => (m.assetPath, num.add num.zero m.quantity)).any
        (·.1 = m.assetPath)) = false := by
      rw [any_eq_false]
      intro s hs
      obtain ⟨m', hm', rfl⟩ := mem_map.mp hs
      simpa using hdisj _ (mem_map_of_mem hm') _ (mem_singleton_self _)
    rw [foldl_append, ih hms, foldl_cons, foldl_nil, addMeasurement, hnew]
    simp

/-- A tick measures each asset once, in kilowatt-hours, within the period and positive. -/
structure Measured (num : Num V) (F : Bytes → V → Prop) (mid : Int) (ms : List (Measurement V)) :
    Prop where
  nodup : (ms.map (·.assetPath)).Nodup
  each : ∀ m ∈ ms, m.unit = "kWh" ∧ m.time = mid ∧ num.nonPositive m.quantity = false ∧
    F m.assetPath m.quantity

theorem Measured.nil : Measured num F mid [] :=
  ⟨nodup_nil, by simp⟩

theorem Measured.snoc {path : Bytes} {kwh : V} (h : Measured num F mid ms)
    (hnew : path ∉ ms.map (·.assetPath)) (hpos : num.nonPositive kwh = false) (hF : F path kwh) :
    Measured num F mid (ms ++ [⟨path, mid, kwh, "kWh"⟩]) := by
  constructor
  · rw [map_append, nodup_append]
    refine ⟨h.nodup, by simp, ?_⟩
    intro p hp q hq hpq
    cases mem_singleton.mp hq
    subst hpq
    exact hnew hp
  · intro m hm
    rcases mem_append.mp hm with hm | hm
    · exact h.each m hm
    · cases mem_singleton.mp hm
      exact ⟨rfl, rfl, hpos, hF⟩

theorem Measured.computeEnergyUsage {start stop : Int} {g : UsageGranularity}
    (h : Measured num F mid ms) (hstart : start ≤ mid) (hstop : mid < stop) {u : UsageRecord V}
    (hu : u ∈ computeEnergyUsage num ms start stop g) :
    ∃ path kwh, F path kwh ∧ u = usageOf .energy start stop g path kwh "kWh" := by
  have hall : ms.filter (fun m => m.unit = lit "kWh" && start ≤ m.time && m.time < stop) = ms := by
    refine filter_eq_self.mpr fun m hm => ?_
    obtain ⟨hunit, htime, -, -⟩ := h.each m hm
    simp [hunit, htime, hstart, hstop]
  simp only [Usage.computeEnergyUsage, hall, foldl_addMeasurement h.nodup, map_map] at hu
  obtain ⟨m, hm, rfl⟩ := mem_map.mp hu
  obtain ⟨-, -, hpos, hF⟩ := h.each m hm
  refine ⟨m.assetPath, m.quantity, hF, ?_⟩
  simp only [Function.comp_apply, num.zero_add _ hpos]

end Computed

/-! ### What a tick upserts -/

section Upserts

variable {s : Scanner V Loc} {H : (op : ScanOp V) → op.Ret → Prop} {R : UsageRecord V → Prop}

/-- Every record that is upserted is in `R`. -/
def Upserts (R : UsageRecord V → Prop) : ScanOp V → Prop
  | .core (.work (.upsertUsage u)) => R u
  | _ => True

theorem fetchVMScalar_under {query : Bytes} {Q : Option V → Prop}
    (hQ : ∀ r, H (.core (.outside (.fetchVM query))) r → Q (s.scalar r)) :
    (s.fetchVMScalar query).Under H (Upserts R) Q :=
  ⟨trivial, fun r hr => hQ r hr⟩

/-- The reading of an asset: the counter's, or else the estimate from the power. -/
theorem fetchKWh_under {path window : Bytes} {hours : V} {A B : Option V → Prop}
    (hA : ∀ r, H (.core (.outside (.fetchVM (energyQuery path window)))) r → A (s.scalar r))
    (hB : ∀ r, H (.core (.outside (.fetchVM (powerQuery path window)))) r → B (s.scalar r)) :
    (s.fetchKWh path window hours).Under H (Upserts R) fun r =>
      (∃ kwh, A (some kwh) ∧ r = some kwh) ∨ A none ∧ ∃ w, B w ∧ r = w.map (s.estimate hours) := by
  have henergy : (s.fetchEnergyKWhIncrease path window).Under H (Upserts R) A :=
    fetchVMScalar_under hA
  refine bind henergy fun r hr => ?_
  cases r with
  | some kwh => exact .inl ⟨kwh, hr, rfl⟩
  | none =>
    have hpower : (s.fetchVMScalar (powerQuery path window)).Under H (Upserts R) B :=
      fetchVMScalar_under hB
    exact bind hpower fun w hw => .inr ⟨hr, w, hw, rfl⟩

theorem measure_under {window : Bytes} {hours : V} {mid : Int} {F : Bytes → V → Prop}
    (hF : ∀ path, (s.fetchKWh path window hours).Under H (Upserts R)
      fun r => ∀ kwh, r = some kwh → F path kwh) :
    ∀ {assets : List (Asset V)} {out : List (Measurement V)}, Measured s.num F mid out →
      (s.measure window hours mid assets out).Under H (Upserts R) (Measured s.num F mid)
  | [], _, hout => hout
  | a :: rest, out, hout => by
    rw [Scanner.measure]
    by_cases hskip : a.path = [] ∨ a.path ∈ out.map (·.assetPath)
    · rw [if_pos hskip]
      exact measure_under hF hout
    rw [if_neg hskip]
    refine bind (hF a.path) ?_
    intro r hr
    cases r with
    | none => exact measure_under hF hout
    | some kwh =>
      dsimp only
      by_cases hpos : s.num.nonPositive kwh = true
      · rw [if_pos hpos]
        exact measure_under hF hout
      · rw [if_neg hpos]
        exact measure_under hF (hout.snoc (not_or.mp hskip).2 (by simpa using hpos) (hr kwh rfl))

structure Computed (F : Bytes → V → Prop) (start stop : Int) (g : UsageGranularity)
    (u : UsageRecord V) : Prop where
  form : ∃ path quantity unit, u = usageOf u.kind start stop g path quantity unit
  energy : u.kind = .energy → F u.assetPath u.quantity

theorem computeUsageWindow_under {start stop : Int} {g : UsageGranularity} {F : Bytes → V → Prop}
    (hF : ∀ path, (s.fetchKWh path (windowOf start stop) (s.num.hours (stop - start))).Under H
      (Upserts R) fun r => ∀ kwh, r = some kwh → F path kwh) (assets : List (Asset V)) :
    (s.computeUsageWindow assets start stop g).Under H (Upserts R)
      fun us => ∀ u ∈ us, Computed F start stop g u := by
  have hrack {u : UsageRecord V} (hu : u ∈ computeRackHourUsage s.num assets start stop g) :
      Computed F start stop g u := by
    obtain ⟨a, -, rfl⟩ := mem_map.mp hu
    exact ⟨⟨_, _, _, rfl⟩, fun h => by cases h⟩
  have hms : (s.fetchEnergyMeasurements assets start stop).Under H (Upserts R) fun ms =>
      ∀ u ∈ computeEnergyUsage s.num ms start stop g, Computed F start stop g u := by
    rw [Scanner.fetchEnergyMeasurements]
    by_cases hvm : s.vmURL = []
    · rw [if_pos hvm]
      exact fun u hu => absurd hu (by simp [computeEnergyUsage])
    rw [if_neg hvm]
    by_cases hlen : stop ≤ start
    · rw [if_pos hlen]
      exact fun u hu => absurd hu (by simp [computeEnergyUsage])
    rw [if_neg hlen]
    have hmid : start ≤ start + (stop - start) / 2 ∧ start + (stop - start) / 2 < stop := by
      omega
    refine mono ?_ (measure_under hF Measured.nil)
    intro ms hms u hu
    obtain ⟨path, kwh, hkwh, rfl⟩ := hms.computeEnergyUsage hmid.1 hmid.2 hu
    exact ⟨⟨_, _, _, rfl⟩, fun _ => hkwh⟩
  refine bind hms fun ms hms u hu => ?_
  rcases mem_append.mp hu with hu | hu
  · exact hrack hu
  · exact hms u hu

variable {C : UsageRecord V → Prop}

theorem computeMonths_under {assets : List (Asset V)} {now : Int}
    (hwindow : ∀ assets start stop,
      (s.computeUsageWindow assets start stop .monthly).Under H (Upserts R)
        fun us => ∀ u ∈ us, C u) :
    ∀ {sids : List Bytes},
      (s.computeMonths assets now sids).Under H (Upserts R) fun us => ∀ u ∈ us, C u
  | [] => by simp [Scanner.computeMonths]
  | sid :: rest => by
    refine bind (hwindow _ _ _) fun us hus => ?_
    refine bind (computeMonths_under hwindow) fun more hmore => ?_
    intro u hu
    rcases mem_append.mp hu with hu | hu
    · exact hus u hu
    · exact hmore u hu

def siteOf (u : UsageRecord V) : Bytes :=
  if u.siteID = [] then siteIDFromPath u.assetPath else u.siteID

/-- A record's tenant, with answers in `A`: its own, unless it has none and its site is attached. -/
inductive TenantFrom (A : (op : Op V) → op.Ret → Prop) (u : UsageRecord V) : Bytes → Prop where
  | noSite (h : siteOf u = []) : TenantFrom A u u.tenantID
  | unattached (h : A (.tenancy (.getSiteOrg (siteOf u))) (.ok none)) : TenantFrom A u u.tenantID
  | noOrg {so : SiteOrg} (h : A (.tenancy (.getSiteOrg (siteOf u))) (.ok (some so)))
      (horg : so.orgID = []) : TenantFrom A u u.tenantID
  | given (h : u.tenantID ≠ []) : TenantFrom A u u.tenantID
  | orphan {so : SiteOrg} (h : A (.tenancy (.getSiteOrg (siteOf u))) (.ok (some so)))
      (horg : A (.tenancy (.getOrg so.orgID)) (.ok none)) : TenantFrom A u u.tenantID
  | owned {so : SiteOrg} {o : Org} (hnone : u.tenantID = [])
      (h : A (.tenancy (.getSiteOrg (siteOf u))) (.ok (some so))) (hne : so.orgID ≠ [])
      (horg : A (.tenancy (.getOrg so.orgID)) (.ok (some o))) : TenantFrom A u o.tenantID

/-- The record once its identity is filled in; the rest is as it was. -/
def Enriched (A : (op : Op V) → op.Ret → Prop) (u u' : UsageRecord V) : Prop :=
  ∃ org tenant, u' = { u with siteID := siteOf u, orgID := org, tenantID := tenant } ∧
    TenantFrom A u tenant

theorem enrichUsage_under {A : (op : Op V) → op.Ret → Prop} {P : Op V → Prop}
    (hP : ∀ c, P (.tenancy c)) (u : UsageRecord V) :
    (enrichUsage u).Under A P fun res => ∀ u', res = .ok u' → Enriched A u u' := by
  have hu : (if u.siteID = [] then { u with siteID := siteIDFromPath u.assetPath } else u) =
      { u with siteID := siteOf u } := by
    rw [siteOf]
    split_ifs <;> rfl
  rw [enrichUsage, hu]
  dsimp only
  by_cases hsite : siteOf u = []
  · rw [if_pos hsite]
    rintro u' ⟨⟩
    exact ⟨_, _, rfl, .noSite hsite⟩
  rw [if_neg hsite]
  refine ⟨hP _, fun found hfound => ?_⟩
  rcases found with e | _ | so
  · rintro u' ⟨⟩
  · rintro u' ⟨⟩
    exact ⟨_, _, rfl, .unattached hfound⟩
  dsimp only
  have horg : ∃ org, (if u.orgID = [] then { u with siteID := siteOf u, orgID := so.orgID }
      else { u with siteID := siteOf u }) = { u with siteID := siteOf u, orgID := org } := by
    split_ifs
    · exact ⟨_, rfl⟩
    · exact ⟨_, rfl⟩
  obtain ⟨org, horg⟩ := horg
  rw [horg]
  by_cases hnone : so.orgID = []
  · rw [if_pos (.inl hnone)]
    rintro u' ⟨⟩
    exact ⟨_, _, rfl, .noOrg hfound hnone⟩
  by_cases hgiven : u.tenantID = []
  · rw [if_neg (by simp [hnone, hgiven])]
    refine ⟨hP _, fun o ho => ?_⟩
    rcases o with e | _ | o
    · rintro u' ⟨⟩
    · rintro u' ⟨⟩
      exact ⟨_, _, rfl, .orphan hfound ho⟩
    · rintro u' ⟨⟩
      exact ⟨_, _, rfl, .owned hgiven hfound hnone ho⟩
  · rw [if_pos (.inr hgiven)]
    rintro u' ⟨⟩
    exact ⟨_, _, rfl, .given hgiven⟩

variable (henrich : ∀ u, C u → (enrichUsage u).Under (fun op r => H (.core op) r)
  (fun op => Upserts R (.core op)) fun res => ∀ u', res = .ok u' → R u')
include henrich

theorem saveComputed_under :
    ∀ {us : List (UsageRecord V)}, (∀ u ∈ us, C u) →
      (Scanner.saveComputed us).Under H (Upserts R) fun _ => True
  | [], _ => trivial
  | u :: rest, hus => by
    rw [forall_mem_cons] at hus
    have hrest := saveComputed_under hus.2
    have hu : ((enrichUsage u).embed ScanOp.core (fun _ r => r) :
        Scan V (Except StoreError (UsageRecord V))).Under H (Upserts R)
          fun res => ∀ u', res = .ok u' → R u' := by
      refine embed ?_ ?_ (henrich u hus.1)
      · exact fun _ _ h => h
      · exact fun _ h => h
    refine bind hu fun res hres => ?_
    cases res with
    | error e => exact hrest
    | ok u' =>
      refine ⟨hres u' rfl, fun saved _ => ?_⟩
      cases saved with
      | error e => exact hrest
      | ok out => exact ⟨trivial, fun _ _ => hrest⟩

/-- **What a tick upserts**: what its periods compute, once it is enriched. -/
theorem scanUsageTick_under {now : Int}
    (hday : ∀ assets, (s.computeUsageWindow assets (previousUTCDay now).1 (previousUTCDay now).2
      .daily).Under H (Upserts R) fun us => ∀ u ∈ us, C u)
    (hmonth : ∀ assets start stop,
      (s.computeUsageWindow assets start stop .monthly).Under H (Upserts R) fun us =>
        ∀ u ∈ us, C u) :
    (s.scanUsageTick now).Under H (Upserts R) fun _ => True := by
  refine ⟨trivial, fun lock _ => ?_⟩
  rcases lock with e | _ | _
  · trivial
  · trivial
  refine ⟨trivial, fun assets _ => ?_⟩
  have hrelease : ∀ _ : Unit, True → (call .release fun _ => .done () : Scan V Unit).Under H
      (Upserts R) fun _ => True := fun _ _ => ⟨trivial, fun _ _ => trivial⟩
  cases assets with
  | error e => exact hrelease () trivial
  | ok assets =>
    refine bind ?_ hrelease
    refine bind (hday assets) fun days hdays => ?_
    refine bind (computeMonths_under hmonth) fun months hmonths => ?_
    refine saveComputed_under henrich fun u hu => ?_
    rcases mem_append.mp hu with hu | hu
    · exact hdays u hu
    · exact hmonths u hu

end Upserts

end Cios.Usage
