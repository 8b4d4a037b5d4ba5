import Cios.Ticket.History
import Cios.Usage.Metered

/-!
# Usage — whose usage it is

Two writers choose the tenant of a usage record.  The scanner takes the one that owns the
organisation of the record's site (`EnrichUsageIdentity`); `POST /v1/usage:compute` sets the tenant
of the request, if it has one, on every record that it computes, and it computes records for every
site.  Both then upsert under a key that the tenant is no part of, so a record is whose the last
writer said.

Any number of requests and ticks run side by side over one store, whose attachments stay as they
are.  What each upserts is read off its program (`Attributed`, `usage_billed_iff`).
-/

namespace Cios.Usage
open Text Effect List Pool Prog Under
open Runs (Run)
open Cios.Store
open Cios.Http (Request Ctx Reply)
open Cios.Http.Core (Env Body serveUsageCompute saveUsage siteIDFromPath)

variable {V Loc ι : Type}

/-! ### Writers -/

/-- A request to compute, as its handler gets it, or a tick of the scanner. -/
inductive Writer where
  | compute (r : Request) (c : Ctx)
  | tick (now : Int)

def Writer.tenant : Writer → Option Bytes
  | .compute _ c => c.tenant
  | .tick _ => none

def Writer.prog (env : Env V) (s : Scanner V Loc) : Writer → Scan V Unit
  | .compute r c =>
    let handler : Scan V (Reply (Body V)) :=
      (serveUsageCompute env r c).embed ScanOp.core fun _ a => a
    handler >>= fun _ => .done ()
  | .tick now => s.scanUsageTick now

/-! ### The store -/

/-- The tenant that owns the organisation a site is attached to. -/
def owner (m : Memory V) (site : Bytes) : Option Bytes :=
  if site = [] then none
  else match m.siteOrgs[site]? with
    | none => none
    | some so => if so.orgID = [] then none else (m.orgs[so.orgID]?).map (·.tenantID)

/-- What a read of an attachment or an organisation answers is what is stored, unless it fails. -/
structure Honest (m : Memory V) (ev : Event (ScanOp V) ScanOp.Ret) : Prop where
  siteOrg : ∀ site found, ev = ⟨.core (.tenancy (.getSiteOrg site)), .ok found⟩ →
    found = m.siteOrgs[site]?
  org : ∀ id found, ev = ⟨.core (.tenancy (.getOrg id)), .ok found⟩ → found = m.orgs[id]?

def ScanOp.mutates : ScanOp V → Bool
  | .core op => op.mutates
  | _ => false

/-- A call on the store in memory.  A new id is no record's, and no time has a bar in it. -/
structure StoreStep (op : ScanOp V) (m : Memory V) (r : op.Ret) (m' : Memory V) : Prop where
  honest : Honest m ⟨op, r⟩
  store : (op.mutates = false ∧ m' = m) ∨ ∃ u, ∃ amb : WorkAmbient,
    m.usages[amb.newUsageID]? = none ∧ (∀ t, ('|' : UInt8) ∉ amb.rfc3339Nano t) ∧
      (⟨op, r⟩ : Event (ScanOp V) ScanOp.Ret) =
        ⟨.core (.work (.upsertUsage u)), ((m.upsertUsage amb u).outcome amb m).1⟩ ∧
      m' = ((m.upsertUsage amb u).outcome amb m).2

/-- The record is stored, under its own id. -/
structure Saved (m : Memory V) (ev : Event (ScanOp V) ScanOp.Ret) (m' : Memory V)
    (u : UsageRecord V) (amb : WorkAmbient) : Prop where
  fresh : m.usages[amb.newUsageID]? = none
  bars : ∀ t, ('|' : UInt8) ∉ amb.rfc3339Nano t
  event : ev = ⟨.core (.work (.upsertUsage u)), .ok { u with id := m.usageID amb u }⟩
  store : m' = { m with
    usages := m.usages.insert (m.usageID amb u) { u with id := m.usageID amb u } }

section Upsert

variable {m : Memory V} {amb : WorkAmbient} {u : UsageRecord V}

theorem upsertUsage_saved (hsave : amb.save = none) : (m.upsertUsage amb u).outcome amb m =
    (.ok { u with id := m.usageID amb u }, { m with
      usages := m.usages.insert (m.usageID amb u) { u with id := m.usageID amb u } }) := by
  simp only [Attempt.outcome, hsave]
  rfl

theorem upsertUsage_failed {e : Bytes} (hsave : amb.save = some e) :
    ∃ f, (m.upsertUsage amb u).outcome amb m = (.error f, m) := by
  obtain ⟨f, hf⟩ := Memory.upsertIn_atomic Memory.usagesF m (m.usageID amb u)
    { u with id := m.usageID amb u } { u with id := m.usageID amb u } e rfl
  have hrun : (m.upsertUsage amb u).run amb.save m = (.error f, m) := by
    rw [hsave]
    exact hf
  exact ⟨f.error, by rw [Attempt.outcome, hrun]; rfl⟩

/-- A record without an id is saved over one of its natural key, or under the new id. -/
theorem usageID_cases (hid : u.id = []) :
    (∃ old, m.usages[m.usageID amb u]? = some old ∧
        Memory.usageNaturalKey amb old = Memory.usageNaturalKey amb u) ∨
      m.usageID amb u = amb.newUsageID ∧ (m.usages[([] : Bytes)]? = none →
        ∀ id ∈ amb.usageOrder, ∀ old, m.usages[id]? = some old →
          Memory.usageNaturalKey amb old ≠ Memory.usageNaturalKey amb u) := by
  rw [Memory.usageID, if_neg (not_not_intro hid)]
  cases hfound : amb.usageOrder.find? fun id => m.usages[id]?.any fun existing =>
      Memory.usageNaturalKey amb existing = Memory.usageNaturalKey amb u with
  | none =>
    refine .inr ⟨rfl, fun _ id hmem old hold hkey => ?_⟩
    exact find?_eq_none.mp hfound id hmem (by simp [hold, hkey])
  | some id =>
    have hkey := find?_some hfound
    cases hold : m.usages[id]? with
    | none => simp [hold] at hkey
    | some old =>
      dsimp only
      split_ifs with hnil
      · subst hnil
        exact .inr ⟨rfl, fun hno => by simp [hold] at hno⟩
      · exact .inl ⟨old, hold, by simpa [hold] using hkey⟩

end Upsert

theorem StoreStep.cases {op : ScanOp V} {m m' : Memory V} {r : op.Ret} (h : StoreStep op m r m') :
    (m' = m ∧ ∀ u out, (⟨op, r⟩ : Event (ScanOp V) ScanOp.Ret) ≠
        ⟨.core (.work (.upsertUsage u)), .ok out⟩) ∨
      ∃ u amb, Saved m ⟨op, r⟩ m' u amb := by
  rcases h.store with ⟨hread, rfl⟩ | ⟨u, amb, hfresh, hbars, hev, rfl⟩
  · refine .inl ⟨rfl, ?_⟩
    intro u out hev
    cases hev
    cases hread
  · rw [hev]
    cases hsave : amb.save with
    | none =>
      rw [upsertUsage_saved hsave]
      exact .inr ⟨u, amb, hfresh, hbars, rfl, rfl⟩
    | some e =>
      obtain ⟨f, hf⟩ := upsertUsage_failed hsave
      rw [hf]
      refine .inl ⟨rfl, ?_⟩
      intro u' out hev'
      cases hev'

/-! ### What a writer upserts -/

/-- A record as it is computed. -/
structure Unattributed (u : UsageRecord V) : Prop where
  id : u.id = []
  tenantID : u.tenantID = []
  siteID : u.siteID = siteIDFromPath u.assetPath

theorem unattributed_usageOf {kind : UsageKind} {start stop : Int} {g : UsageGranularity}
    {path unit : Bytes} {q : V} : Unattributed (usageOf kind start stop g path q unit) :=
  ⟨rfl, rfl, rfl⟩

/-- A record as upserted: of its asset's site, and where that is attached, of the tenant forced on
it, or else of the owner. -/
structure Attributed (m : Memory V) (forced : Bytes) (u : UsageRecord V) : Prop where
  id : u.id = []
  siteID : u.siteID = siteIDFromPath u.assetPath
  tenantID : ∀ t, owner m u.siteID = some t → u.tenantID = if forced = [] then t else forced

section Writers

variable {m : Memory V} {env : Env V} {s : Scanner V Loc} {r : Request} {c : Ctx}

variable {u : UsageRecord V} {num : Num V} {start stop : Int} {g : UsageGranularity}

theorem tenant_of_from {tenant t : Bytes}
    (h : TenantFrom (fun op r => Honest m ⟨.core op, r⟩) u tenant)
    (ht : owner m (siteOf u) = some t) : tenant = if u.tenantID = [] then t else u.tenantID := by
  rw [owner] at ht
  cases h with
  | noSite hsite => simp [hsite] at ht
  | unattached hsite =>
    rw [← hsite.siteOrg _ _ rfl] at ht
    simp at ht
  | noOrg hsite hnone =>
    rw [← hsite.siteOrg _ _ rfl] at ht
    simp [hnone] at ht
  | given hne => rw [if_neg hne]
  | orphan hsite horg =>
    rw [← hsite.siteOrg _ _ rfl] at ht
    simp [← horg.org _ _ rfl] at ht
  | owned hnone hsite hne horg =>
    rw [← hsite.siteOrg _ _ rfl] at ht
    simp only [← horg.org _ _ rfl] at ht
    rw [if_pos hnone]
    split_ifs at ht
    exact Option.some.inj ht

theorem attributed_of_enriched {u' : UsageRecord V} (hid : u.id = [])
    (hsite : u.siteID = siteIDFromPath u.assetPath)
    (h : Enriched (fun op r => Honest m ⟨.core op, r⟩) u u') : Attributed m u.tenantID u' := by
  obtain ⟨org, tenant, rfl, hfrom⟩ := h
  refine ⟨hid, ?_, fun t ht => tenant_of_from hfrom ht⟩
  rw [siteOf, hsite]
  split_ifs with hnil
  · rfl
  · rfl

theorem enrichUsage_attributed {R : UsageRecord V → Prop} (hid : u.id = [])
    (hsite : u.siteID = siteIDFromPath u.assetPath) :
    (enrichUsage u).Under (fun op r => Honest m ⟨.core op, r⟩) (fun op => Upserts R (.core op))
      fun res => ∀ u', res = .ok u' → Attributed m u.tenantID u' :=
  mono (fun _ hres u' hu' => attributed_of_enriched hid hsite (hres u' hu'))
    (enrichUsage_under (fun _ => trivial) u)

theorem scanUsageTick_attributed (now : Int) :
    (s.scanUsageTick now).Under (fun op r => Honest m ⟨op, r⟩) (Upserts (Attributed m []))
      fun _ => True := by
  have hwindow (assets : List (Asset V)) (start stop : Int) (g : UsageGranularity) :
      (s.computeUsageWindow assets start stop g).Under (fun op r => Honest m ⟨op, r⟩)
        (Upserts (Attributed m [])) fun us => ∀ u ∈ us, Unattributed u := by
    refine mono ?_ (computeUsageWindow_under (F := fun _ _ => True) ?_ assets)
    · intro us hus u hu
      obtain ⟨_, _, _, hform⟩ := (hus u hu).form
      rw [hform]
      exact unattributed_usageOf
    · intro path
      exact mono (fun _ _ _ _ => trivial) (fetchKWh_under (A := fun _ => True)
        (B := fun _ => True) (fun _ _ => trivial) fun _ _ => trivial)
  refine scanUsageTick_under (C := Unattributed) ?_ (fun assets => hwindow assets _ _ _)
    fun assets start stop => hwindow assets start stop _
  intro u hu
  rw [← hu.tenantID]
  exact enrichUsage_attributed hu.id hu.siteID

/-- What a handler upserts is attributed, as long as the store answers what it holds. -/
abbrev Attributes (m : Memory V) (forced : Bytes) (p : Http.Core.Handler V) : Prop :=
  p.Under (fun op r => Honest m ⟨.core op, r⟩) (fun op => Upserts (Attributed m forced) (.core op))
    fun _ => True

theorem saveUsage_attributed : ∀ {us saved : List (UsageRecord V)}, (∀ u ∈ us, Unattributed u) →
    Attributes m (c.tenant.getD []) (saveUsage c us saved)
  | [], _, _ => trivial
  | u :: rest, saved, hus => by
    rw [forall_mem_cons] at hus
    rw [saveUsage, enrichUsageIdentity_eq, hus.1.tenantID]
    refine bind (enrichUsage_attributed (m := m) hus.1.id hus.1.siteID) ?_
    intro res hres
    cases res with
    | error e => trivial
    | ok u' =>
      refine ⟨hres u' rfl, fun out _ => ?_⟩
      cases out with
      | ok out => exact ⟨trivial, fun _ _ => saveUsage_attributed hus.2⟩
      | error e =>
        dsimp only
        split_ifs
        · trivial
        · trivial

/-- The usage arithmetic of the handler is the package's. -/
structure Computes (env : Env V) (num : Num V) : Prop where
  rackHour : env.computeRackHourUsage = computeRackHourUsage num
  energy : env.computeEnergyUsage = computeEnergyUsage num

theorem Computes.rackHour_unattributed (hc : Computes env num) {assets : List (Asset V)} :
    ∀ u ∈ env.computeRackHourUsage assets start stop g, Unattributed u := by
  rw [hc.rackHour]
  intro u hu
  obtain ⟨a, -, rfl⟩ := mem_map.mp hu
  exact unattributed_usageOf

theorem Computes.energy_unattributed (hc : Computes env num) {ms : List (Http.Core.Measurement V)} :
    ∀ u ∈ env.computeEnergyUsage ms start stop g, Unattributed u := by
  rw [hc.energy]
  intro u hu
  obtain ⟨sum, -, rfl⟩ := mem_map.mp hu
  exact unattributed_usageOf

theorem rackHours_attributed (hc : Computes env num) {energy : List (UsageRecord V)}
    (he : ∀ u ∈ energy, Unattributed u) :
    Attributes m (c.tenant.getD []) <| Http.Core.work .listAssets <|
      Http.Core.onOkInternal fun assets =>
        saveUsage c (env.computeRackHourUsage assets start stop g ++ energy) [] := by
  refine ⟨trivial, fun assets _ => ?_⟩
  cases assets with
  | error e => trivial
  | ok assets =>
    refine saveUsage_attributed fun u hu => ?_
    rcases mem_append.mp hu with hu | hu
    · exact hc.rackHour_unattributed u hu
    · exact he u hu

theorem serveUsageCompute_attributed (hc : Computes env num) :
    Attributes m (c.tenant.getD []) (serveUsageCompute env r c) := by
  rw [serveUsageCompute]
  split_ifs
  · trivial
  · trivial
  rw [Http.Core.decodeBody, Http.Core.readBody]
  cases r.body with
  | error e => trivial
  | ok b =>
    dsimp only [Http.Core.orElse]
    cases env.usageCompute (b.take (2 ^ 20)) with
    | error e => trivial
    | ok req =>
      obtain ⟨_ | start, _ | stop, granularity, kinds, measurements⟩ := req
      iterate 3 trivial
      dsimp only
      by_cases hperiod : stop ≤ start
      · rw [if_pos hperiod]
        trivial
      rw [if_neg hperiod]
      by_cases hnone : granularity = []
      · rw [if_pos hnone]
        trivial
      rw [if_neg hnone]
      cases Http.Core.usageGranularity granularity with
      | none => trivial
      | some g =>
        split
        · trivial
        -- racks or not, measurements or not
        split_ifs
        · exact rackHours_attributed hc hc.energy_unattributed
        · exact rackHours_attributed hc (by simp)
        · exact saveUsage_attributed hc.energy_unattributed
        · exact saveUsage_attributed (by simp)

/-- **What a writer upserts is attributed**, as long as the store answers it what it holds. -/
theorem Writer.attributed (hc : Computes env num) (w : Writer) :
    (w.prog env s).Under (fun op r => Honest m ⟨op, r⟩) (Upserts (Attributed m (w.tenant.getD [])))
      fun _ => True := by
  cases w with
  | compute r c =>
    refine bind (?_ : Under _ _ (fun _ => True) _) fun _ _ => trivial
    refine embed ?_ ?_ (serveUsageCompute_attributed (m := m) hc)
    · exact fun _ _ h => h
    · exact fun _ h => h
  | tick now => exact scanUsageTick_attributed now

end Writers

/-! ### Records -/

section Key

variable {amb : WorkAmbient} (hbars : ∀ t, ('|' : UInt8) ∉ amb.rfc3339Nano t)
include hbars

theorem split_naturalKey (u : UsageRecord V) : split '|' (Memory.usageNaturalKey amb u) =
    u.kind.text :: (split '|' u.assetPath ++
      [amb.rfc3339Nano u.periodStart, amb.rfc3339Nano u.periodEnd, u.granularity.text]) := by
  have hkind : ('|' : UInt8) ∉ u.kind.text := by
    cases u.kind
    · decide
    · decide
  have hgran : ('|' : UInt8) ∉ u.granularity.text := by
    cases u.granularity
    · decide
    · decide
  have hform : Memory.usageNaturalKey amb u = u.kind.text ++ ('|' : UInt8) :: (u.assetPath ++
      ('|' : UInt8) :: (amb.rfc3339Nano u.periodStart ++ ('|' : UInt8) ::
        (amb.rfc3339Nano u.periodEnd ++ ('|' : UInt8) :: u.granularity.text))) := by
    have hbar : lit "|" = [('|' : UInt8)] := by decide
    simp [Memory.usageNaturalKey, hbar]
  rw [hform]
  simp only [split_append_cons]
  rw [split, splitOn_eq_singleton hkind, split, split,
    splitOn_eq_singleton (hbars _), split, splitOn_eq_singleton (hbars _), split,
    splitOn_eq_singleton hgran]
  rfl

/-- The key determines what it is made of: only the path may have bars. -/
theorem naturalKey_inj {u v : UsageRecord V}
    (h : Memory.usageNaturalKey amb u = Memory.usageNaturalKey amb v) :
    u.kind.text = v.kind.text ∧ u.assetPath = v.assetPath ∧
      amb.rfc3339Nano u.periodStart = amb.rfc3339Nano v.periodStart ∧
      amb.rfc3339Nano u.periodEnd = amb.rfc3339Nano v.periodEnd ∧
      u.granularity.text = v.granularity.text := by
  have hsplit := congrArg (split '|') h
  rw [split_naturalKey hbars u, split_naturalKey hbars v] at hsplit
  obtain ⟨hkind, hrest⟩ := List.cons.inj hsplit
  obtain ⟨hpath, htail⟩ := append_inj' hrest rfl
  refine ⟨hkind, ?_, by simpa using htail⟩
  calc u.assetPath = [('|' : UInt8)].intercalate (split '|' u.assetPath) :=
        (intercalate_splitOn _).symm
    _ = [('|' : UInt8)].intercalate (split '|' v.assetPath) := by rw [hpath]
    _ = v.assetPath := intercalate_splitOn _

end Key

/-- Every record of a site that is attached is the owner's. -/
def BilledToOwner (m : Memory V) : Prop :=
  ∀ (id : Bytes) (u : UsageRecord V) (t : Bytes), m.usages[id]? = some u →
    owner m u.siteID = some t → u.tenantID = t

/-- So it stays, as long as a record is of its asset's site: an upsert never changes the asset. -/
structure Billed (m : Memory V) : Prop where
  siteID : ∀ (id : Bytes) (u : UsageRecord V), m.usages[id]? = some u →
    u.siteID = siteIDFromPath u.assetPath
  toOwner : BilledToOwner m

/-- The tenant of every record of a site that another tenant owns is what it was. -/
def KeepsOthers (tenant : Bytes) (m m' : Memory V) : Prop :=
  ∀ (id : Bytes) (u : UsageRecord V) (t : Bytes), m.usages[id]? = some u →
    owner m u.siteID = some t → t ≠ tenant →
      ∃ u', m'.usages[id]? = some u' ∧ u'.tenantID = u.tenantID

section Store

variable {m m' m₀ : Memory V} {ev : Event (ScanOp V) ScanOp.Ret} {u : UsageRecord V}
  {amb : WorkAmbient}

/-- The attachments and the organisations are those of the start. -/
structure Attached (m₀ m : Memory V) : Prop where
  siteOrgs : m.siteOrgs = m₀.siteOrgs
  orgs : m.orgs = m₀.orgs

theorem Attached.owner (h : Attached m₀ m) (site : Bytes) : owner m site = owner m₀ site := by
  rw [Usage.owner, Usage.owner, h.siteOrgs, h.orgs]

theorem Attached.honest (h : Attached m₀ m) (hev : Honest m ev) : Honest m₀ ev :=
  ⟨fun site found e => h.siteOrgs ▸ hev.siteOrg site found e,
    fun id found e => h.orgs ▸ hev.org id found e⟩

theorem Attached.attributed (h : Attached m₀ m) {forced : Bytes} (hu : Attributed m₀ forced u) :
    Attributed m forced u :=
  ⟨hu.id, hu.siteID, fun t ht => hu.tenantID t (h.owner _ ▸ ht)⟩

theorem Saved.attached (h : Saved m ev m' u amb) (hm : Attached m₀ m) : Attached m₀ m' := by
  rw [h.store]
  exact ⟨hm.siteOrgs, hm.orgs⟩

theorem Saved.getElem? (h : Saved m ev m' u amb) (id : Bytes) :
    m'.usages[id]? = if m.usageID amb u = id then some { u with id := m.usageID amb u }
      else m.usages[id]? := by
  rw [h.store]
  rw [Std.ExtTreeMap.getElem?_insert]
  simp only [Std.LawfulEqCmp.compare_eq_iff_eq]

/-- A record that is saved over another one is of the same asset. -/
theorem Saved.over (h : Saved m ev m' u amb) (hid : u.id = []) {old : UsageRecord V}
    (hold : m.usages[m.usageID amb u]? = some old) : old.assetPath = u.assetPath := by
  rcases usageID_cases hid with ⟨old', hold', hkey⟩ | ⟨hnew, -⟩
  · cases hold.symm.trans hold'
    exact (naturalKey_inj h.bars hkey).2.1
  · rw [hnew, h.fresh] at hold
    cases hold

variable (h : Saved m ev m' u amb) {forced : Bytes} (hu : Attributed m forced u)
  (hown : forced ≠ [] → ∀ t, owner m u.siteID = some t → t = forced) (hm : Billed m)
include h hu hown hm

/-- What a save keeps, attributed to a tenant when the site is that tenant's or nobody's. -/
theorem Saved.billed : Billed m' := by
  have hattached : Attached m m' := h.attached ⟨rfl, rfl⟩
  constructor
  · intro id v hv
    rw [h.getElem?] at hv
    split_ifs at hv
    · cases hv
      exact hu.siteID
    · exact hm.siteID id v hv
  · intro id v t hv ht
    rw [hattached.owner] at ht
    rw [h.getElem?] at hv
    split_ifs at hv
    · cases hv
      have htenant := hu.tenantID t ht
      by_cases hforced : forced = []
      · rw [if_pos hforced] at htenant
        exact htenant
      · rw [if_neg hforced] at htenant
        rw [hown hforced t ht]
        exact htenant
    · exact hm.toOwner id v t hv ht

theorem Saved.keepsOthers : KeepsOthers forced m m' := by
  intro id old t hold ht hne
  rw [h.getElem?]
  by_cases hid : m.usageID amb u = id
  · subst hid
    -- the record is of the same site, so it was the owner's, and is again
    have hsite : old.siteID = u.siteID := by
      rw [hm.siteID _ _ hold, hu.siteID, h.over hu.id hold]
    rw [if_pos rfl]
    refine ⟨_, rfl, ?_⟩
    rw [hm.toOwner _ _ _ hold ht]
    rw [hsite] at ht
    by_cases hforced : forced = []
    · simpa [hforced] using hu.tenantID t ht
    · exact absurd (hown hforced t ht) hne
  · rw [if_neg hid]
    exact ⟨old, hold, rfl⟩

end Store

/-! ### Runs -/

section Run

variable [DecidableEq ι] {env : Env V} {s : Scanner V Loc} {w : ι → Writer} {m₀ : Memory V}
variable {c c' : Pool ι (ScanOp V) ScanOp.Ret Unit (Memory V)}
variable {log : List (Entry ι (ScanOp V) ScanOp.Ret (Memory V))}
variable {e : Entry ι (ScanOp V) ScanOp.Ret (Memory V)}

theorem attached_of_run (hrun : Run (Logged StoreStep) c log c') :
    Attached c.shared c'.shared := by
  refine hrun.history (I := fun _ c' => Attached c.shared c'.shared) ?_ ⟨rfl, rfl⟩
  intro _ c₁ e c₂ hi hl
  rw [← hl.2.1] at hi
  rw [← hl.2.2]
  rcases (Logged.call hl).cases with ⟨hsame, -⟩ | ⟨u, amb, hsaved⟩
  · exact hsame ▸ hi
  · exact hsaved.attached hi

theorem step_of_mem (hrun : Run (Logged StoreStep) c log c') (he : e ∈ log) :
    StoreStep e.event.op e.before e.event.ret e.after ∧ Attached c.shared e.before := by
  obtain ⟨pre, post, rfl⟩ := append_of_mem he
  obtain ⟨c₁, hpre, hrest⟩ := hrun.split
  cases hrest with
  | more hl _ => exact ⟨Logged.call hl, hl.2.1 ▸ attached_of_run hpre⟩

theorem attributed_of_mem {num : Num V} (hc : Computes env num)
    (hrun : Run (Logged StoreStep) ⟨m₀, fun i => (w i).prog env s⟩ log c') (he : e ∈ log) :
    Upserts (Attributed m₀ ((w e.thread).tenant.getD [])) e.event.op := by
  have hfed := fed (hrun.simulate id Entry.label fun hl => hl.1) e.thread
  refine fed ((w e.thread).attributed (m := m₀) hc) hfed ?_ e.event ?_
  · intro ev hev
    obtain ⟨⟨i, ev'⟩, hl, rfl⟩ := mem_map.mp hev
    obtain ⟨e', he', heq⟩ := mem_map.mp (mem_of_mem_filter hl)
    cases heq
    obtain ⟨hstep, hattached⟩ := step_of_mem hrun he'
    exact hattached.honest hstep.honest
  · refine mem_map.mpr ⟨e.label, ?_, rfl⟩
    exact mem_filter.mpr ⟨mem_map_of_mem he, by simp [Entry.label]⟩

/-- The call saves no record of a site that is another's than the tenant the request is for. -/
def SavesOwn (m₀ : Memory V) (tenant : Option Bytes)
    (ev : Event (ScanOp V) ScanOp.Ret) : Prop :=
  ∀ u out, ev = ⟨.core (.work (.upsertUsage u)), .ok out⟩ →
    ∀ t, tenant = some t → t ≠ [] → ∀ o, owner m₀ u.siteID = some o → o = t

omit [DecidableEq ι] in
theorem billed_step (hstep : StoreStep e.event.op e.before e.event.ret e.after)
    (hattached : Attached m₀ e.before) {tenant : Option Bytes}
    (hups : Upserts (Attributed m₀ (tenant.getD [])) e.event.op)
    (hown : SavesOwn m₀ tenant e.event) (hm : Billed e.before) :
    Billed e.after ∧ ∀ t, tenant = some t → KeepsOthers t e.before e.after := by
  rcases hstep.cases with ⟨hsame, -⟩ | ⟨u, amb, hsaved⟩
  · rw [hsame]
    exact ⟨hm, fun t _ id u o hu _ _ => ⟨u, hu, rfl⟩⟩
  have hop : e.event.op = .core (.work (.upsertUsage u)) := congrArg Event.op hsaved.event
  rw [hop] at hups
  have hu : Attributed e.before (tenant.getD []) u := hattached.attributed hups
  have hforced : tenant.getD [] ≠ [] → ∀ o, owner e.before u.siteID = some o →
      o = tenant.getD [] := by
    intro hne o ho
    rw [hattached.owner] at ho
    cases tenant with
    | none => exact absurd rfl hne
    | some t => exact hown u _ hsaved.event t rfl hne o ho
  refine ⟨hsaved.billed hu hforced hm, ?_⟩
  rintro t rfl
  exact hsaved.keepsOthers hu hforced hm

/-- Records stay billed right as long as every request saves its own. -/
theorem billed_of_run {num : Num V} (hc : Computes env num) (h₀ : Billed m₀)
    (hrun : Run (Logged StoreStep) ⟨m₀, fun i => (w i).prog env s⟩ log c')
    (hown : ∀ e ∈ log, SavesOwn m₀ (w e.thread).tenant e.event) : Billed c'.shared := by
  let I : List (Entry ι (ScanOp V) ScanOp.Ret (Memory V)) →
      Pool ι (ScanOp V) ScanOp.Ret Unit (Memory V) → Prop :=
    fun log c' => (∀ e ∈ log, SavesOwn m₀ (w e.thread).tenant e.event) → Billed c'.shared
  refine hrun.history_of_run (I := I) ?_ (fun _ => h₀) hown
  intro log c₁ e c₂ hpre hi hl hown
  have hmem : e ∈ log ++ [e] := mem_append_right log (mem_singleton_self e)
  obtain ⟨hstep, hattached⟩ := step_of_mem (hpre.snoc hl) hmem
  have hbefore : Billed e.before := by
    rw [hl.2.1]
    exact hi fun e' he' => hown e' (mem_append_left _ he')
  rw [← hl.2.2]
  exact (billed_step hstep hattached (attributed_of_mem hc (hpre.snoc hl) hmem) (hown e hmem)
    hbefore).1

/-- **Usage is billed to the owner** after every step of a run, and no request changes the tenant of
another's records, exactly when no request for a tenant saves a record of a site that another tenant
owns. -/
theorem usage_billed_iff {num : Num V} (hc : Computes env num) (h₀ : Billed m₀)
    (hrun : Run (Pool.Logged StoreStep) ⟨m₀, fun i => (w i).prog env s⟩ log c') :
    (∀ e ∈ log, BilledToOwner e.after ∧
        ∀ t, (w e.thread).tenant = some t → KeepsOthers t e.before e.after) ↔
      ∀ e ∈ log, SavesOwn m₀ (w e.thread).tenant e.event := by
  constructor
  · intro h e he u out hev t ht hne o ho
    obtain ⟨hstep, hattached⟩ := step_of_mem hrun he
    rcases hstep.cases with ⟨-, hread⟩ | ⟨u', amb, hsaved⟩
    · exact absurd hev (hread u out)
    -- the record that was saved says both
    obtain rfl : u' = u := by
      have := hsaved.event.symm.trans hev
      cases this
      rfl
    have hups := attributed_of_mem hc hrun he
    rw [hev] at hups
    have hforced := Attributed.tenantID hups o ho
    rw [ht, Option.getD_some, if_neg hne] at hforced
    have hstored := hsaved.getElem? (e.before.usageID amb u')
    rw [if_pos rfl] at hstored
    have hafter : owner e.after u'.siteID = some o := by
      rw [(hsaved.attached hattached).owner]
      exact ho
    rw [← hforced]
    exact ((h e he).1 _ _ o hstored hafter).symm
  · intro hown e he
    obtain ⟨hstep, hattached⟩ := step_of_mem hrun he
    have hbefore : Billed e.before := by
      obtain ⟨pre, post, rfl⟩ := append_of_mem he
      obtain ⟨c₁, hpre, hrest⟩ := hrun.split
      cases hrest with
      | more hl _ =>
        rw [hl.2.1]
        exact billed_of_run hc h₀ hpre fun e' he' => hown e' (mem_append_left _ he')
    obtain ⟨hafter, hkeeps⟩ :=
      billed_step hstep hattached (attributed_of_mem hc hrun he) (hown e he) hbefore
    exact ⟨hafter.toOwner, hkeeps⟩

end Run

/-! ### Two requests for one meter -/

def computeEnv : Env Nat :=
  { Env.plain with
    usageCompute := fun _ => .ok ⟨some 0, some day, "daily", [lit "energy"],
      [⟨"sgp01.pdu001", hour, 5, "kWh"⟩]⟩
    computeRackHourUsage := computeRackHourUsage wholeNum
    computeEnergyUsage := computeEnergyUsage wholeNum }

def computeBy (tenant : Bytes) : Writer :=
  .compute (Control.pumpCall .post "/v1/usage:compute") ⟨some (Control.admin "ops"), some tenant⟩

def ownersOrg : Org := ⟨"og_1", "acme", "Acme", 0⟩

def attachment : SiteOrg := ⟨"sgp01", "og_1", 0, 0⟩

def oneSite : Memory Nat :=
  { Memory.empty with
    orgs := (∅ : Map Org).insert "og_1" ownersOrg
    siteOrgs := (∅ : Map SiteOrg).insert "sgp01" attachment }

def dayRecord (tenant : Bytes) : UsageRecord Nat :=
  { usageOf .energy 0 day .daily "sgp01.pdu001" 5 "kWh" with tenantID := tenant, orgID := "og_1" }

def saving (newID : Bytes) (order : List Bytes) : WorkAmbient :=
  { diskFull with save := none, newUsageID := newID, usageOrder := order }

def afterSave (m : Memory Nat) (amb : WorkAmbient) (tenant : Bytes) : Memory Nat :=
  ((m.upsertUsage amb (dayRecord tenant)).outcome amb m).2

theorem oneSite_billed : Billed oneSite := by
  constructor
  · intro id u hu
    simp [oneSite, Memory.empty] at hu
  · intro id u t hu
    simp [oneSite, Memory.empty] at hu

abbrev Call := Entry Bool (ScanOp Nat) ScanOp.Ret (Memory Nat)

def asks (i : Bool) (m : Memory Nat) : Call :=
  ⟨i, ⟨.core (.tenancy (.getSiteOrg "sgp01")), .ok (some attachment)⟩, m, m⟩

def saves (i : Bool) (m : Memory Nat) (amb : WorkAmbient) (tenant : Bytes) : Call :=
  ⟨i, ⟨.core (.work (.upsertUsage (dayRecord tenant))),
    ((m.upsertUsage amb (dayRecord tenant)).outcome amb m).1⟩, m, afterSave m amb tenant⟩

theorem asks_step {m : Memory Nat} (h : m.siteOrgs[lit "sgp01"]? = some attachment) :
    StoreStep (.core (.tenancy (.getSiteOrg "sgp01"))) m (.ok (some attachment)) m := by
  refine ⟨⟨?_, ?_⟩, .inl ⟨rfl, rfl⟩⟩
  · intro site found hev
    cases hev
    exact h.symm
  · intro id found hev
    cases hev

theorem saves_step {m : Memory Nat} {newID : Bytes} (order : List Bytes) (tenant : Bytes)
    (hfresh : m.usages[newID]? = none) :
    StoreStep (.core (.work (.upsertUsage (dayRecord tenant)))) m
      ((m.upsertUsage (saving newID order) (dayRecord tenant)).outcome (saving newID order) m).1
      (afterSave m (saving newID order) tenant) := by
  refine ⟨⟨?_, ?_⟩, .inr ⟨_, saving newID order, hfresh, by simp [saving, diskFull], rfl, rfl⟩⟩
  · intro site found hev
    cases hev
  · intro id found hev
    cases hev

def tenants (i : Bool) : Writer := computeBy (if i then "beta" else "acme")

def acmeSaved : Memory Nat := afterSave oneSite (saving "us_1" []) "acme"

def acmeLog : List Call := [asks false oneSite, saves false oneSite (saving "us_1" []) "acme"]

def betaLog : List Call :=
  [asks true acmeSaved, saves true acmeSaved (saving "us_2" [lit "us_1"]) "beta"]

theorem acme_run : ∃ f, Run (Logged StoreStep)
    ⟨oneSite, fun i => (tenants i).prog computeEnv meterScanner⟩ acmeLog ⟨acmeSaved, f⟩ ∧
      f true = (computeBy "beta").prog computeEnv meterScanner := by
  have h₁ := asks_step (m := oneSite) (by decide)
  have hnew : oneSite.usages[lit "us_1"]? = none := by decide
  have h₂ := saves_step [] "acme" hnew
  refine ⟨_, .more (logged_call (i := false) rfl h₁)
    (.more (logged_call (i := false) rfl h₂) (.refl _)), rfl⟩

theorem both_run : ∃ c', Run (Logged StoreStep)
    ⟨oneSite, fun i => (tenants i).prog computeEnv meterScanner⟩ (acmeLog ++ betaLog) c' := by
  obtain ⟨f, hrun, hf⟩ := acme_run
  have h₁ := asks_step (m := acmeSaved) (by decide)
  have hnew : acmeSaved.usages[lit "us_2"]? = none := by decide
  have h₂ := saves_step [lit "us_1"] "beta" hnew
  refine ⟨_, hrun.trans (.more (logged_call (i := true) hf h₁)
    (.more (logged_call (i := true) rfl h₂) (.refl _)))⟩

/-- The request of `acme` alone leaves its records its own. -/
theorem acme_bills_own : owner oneSite (lit "sgp01") = some (lit "acme") ∧
    (∃ c', Run (Pool.Logged StoreStep)
      ⟨oneSite, fun i => (tenants i).prog computeEnv meterScanner⟩ acmeLog c') ∧
    ∀ e ∈ acmeLog, BilledToOwner e.after ∧
      ∀ t, (tenants e.thread).tenant = some t → KeepsOthers t e.before e.after := by
  obtain ⟨f, hrun, -⟩ := acme_run
  refine ⟨by decide, ⟨_, hrun⟩, (usage_billed_iff ⟨rfl, rfl⟩ oneSite_billed hrun).mpr ?_⟩
  intro e he u out hev t ht hne o ho
  rcases mem_pair.mp he with rfl | rfl
  · cases hev
  · cases hev
    cases ht
    have howner : owner oneSite (lit "sgp01") = some (lit "acme") := by decide
    exact Option.some.inj (ho.symm.trans howner)

/-- The request of `beta` takes the record over: a day of `acme`'s site is billed to `beta`. -/
theorem beta_takes_record : Computes computeEnv wholeNum ∧ Billed oneSite ∧
    (∃ c', Run (Pool.Logged StoreStep)
      ⟨oneSite, fun i => (tenants i).prog computeEnv meterScanner⟩ (acmeLog ++ betaLog) c') ∧
    ∃ e ∈ acmeLog ++ betaLog, ¬ BilledToOwner e.after ∧
      ∃ t, (tenants e.thread).tenant = some t ∧ ¬ KeepsOthers t e.before e.after := by
  have hbefore : acmeSaved.usages[lit "us_1"]? = some { dayRecord "acme" with id := "us_1" } := rfl
  have hafter : (afterSave acmeSaved (saving "us_2" [lit "us_1"]) "beta").usages[lit "us_1"]? =
      some { dayRecord "beta" with id := "us_1" } := rfl
  refine ⟨⟨rfl, rfl⟩, oneSite_billed, both_run,
    saves true acmeSaved (saving "us_2" [lit "us_1"]) "beta", by simp [betaLog], ?_,
      "beta", rfl, ?_⟩
  · intro hbilled
    have := hbilled _ _ (lit "acme") hafter (by decide)
    exact absurd this (by decide)
  intro hkeeps
  obtain ⟨u', hu', htenant⟩ := hkeeps _ _ (lit "acme") hbefore (by decide) (by decide)
  rw [show (saves true acmeSaved (saving "us_2" [lit "us_1"]) "beta").after =
    afterSave acmeSaved (saving "us_2" [lit "us_1"]) "beta" from rfl, hafter] at hu'
  cases hu'
  exact absurd htenant (by decide)

end Cios.Usage
