import Cios.Migrate.Stores

/-!
# Migration — the attribution of sites, exactly

`buildSiteTenantMap` ranges over a map, but what it finds does not depend on the order: an
organisation is listed under one tenant only.  `attribution` is the tenant of a site as the store
alone determines it, and a snapshot that was taken without an error has found just that
(`takeSnapshot_exact`).
-/

namespace Cios.Migrate
open Text List Keyed.Table
open Cios.Store
open Effect.Prog
open Keyed (Table)

/-! ### The attribution -/

/-- The tenant of an organisation, if the store has both; an empty id counts as none. -/
def orgTenant (w : Holding) (orgID : Bytes) : Option Bytes :=
  ((w.store.orgs.get orgID).map Org.tenantID).filter fun t =>
    t ≠ [] && (w.store.tenants.get t).isSome

/-- What the assets say of a site: it belongs to the only tenant there is. -/
def fromAssets (tenants : List Tenant) (assets : List Bytes) (site : Bytes) : Option Bytes :=
  if site ≠ [] ∧ site ∈ assets.map firstPathSegment then (soleTenant tenants).map Tenant.id
  else none

/-- The tenant of a site: its organisation's, or the only one if the site has an asset. -/
def attribution (w : Holding) (site : Bytes) : Option Bytes :=
  ((w.store.siteOrgs.get site).bind fun so => orgTenant w so.orgID).or
    (fromAssets w.store.tenants.rows w.assets site)

/-- The id of the organisation a tenant's listing has first under the name `default`. -/
def defaultOrg (w : Holding) (tenantID : Bytes) : Option Bytes :=
  ((w.store.listOrgs tenantID).find? fun o => o.name = defaultOrgName).map Org.id

def orgOf (w : Holding) (site : Bytes) : Option Bytes :=
  (w.store.siteOrgs.get site).map SiteOrg.orgID

variable {w w' : Holding} {b : Backend}

theorem mem_listOrgs {t : Bytes} {o : Org} :
    o ∈ w.store.listOrgs t ↔ o ∈ w.store.orgs.rows ∧ o.tenantID = t := by
  rw [FileStore.listOrgs, (FileStore.perm_sortBy _ _).mem_iff, mem_filter, decide_eq_true_eq]

theorem orgTenant_eq_some {orgID t : Bytes} : orgTenant w orgID = some t ↔
    t ≠ [] ∧ (∃ x ∈ w.store.tenants.rows, x.id = t) ∧
      ∃ o ∈ w.store.orgs.rows, o.id = orgID ∧ o.tenantID = t := by
  have htenant : (w.store.tenants.get t).isSome = true ↔ ∃ x ∈ w.store.tenants.rows, x.id = t := by
    simp [Table.get]
  simp only [orgTenant, Option.filter_eq_some_iff, Option.map_eq_some_iff, Table.get_eq_some,
    Bool.and_eq_true, decide_eq_true_eq, htenant]
  constructor
  · rintro ⟨⟨o, ⟨ho, hid⟩, ht⟩, hne, hx⟩
    exact ⟨hne, hx, o, ho, hid, ht⟩
  · rintro ⟨hne, hx, o, ho, hid, ht⟩
    exact ⟨⟨o, ⟨ho, hid⟩, ht⟩, hne, hx⟩

variable {tenants : List Tenant}

theorem soleTenant_eq {t : Tenant} (h : soleTenant tenants = some t) :
    tenants = [t] := by
  unfold soleTenant at h
  split at h <;> cases h
  rfl

theorem attribution_tenant {site t : Bytes} (h : attribution w site = some t) :
    ∃ x ∈ w.store.tenants.rows, x.id = t := by
  rw [attribution, Option.or_eq_some_iff] at h
  rcases h with h | ⟨-, h⟩
  · obtain ⟨d, -, hd⟩ := Option.bind_eq_some_iff.mp h
    exact (orgTenant_eq_some.mp hd).2.1
  rw [fromAssets] at h
  split at h
  · obtain ⟨x, hx, rfl⟩ := Option.map_eq_some_iff.mp h
    rw [soleTenant_eq hx]
    exact ⟨x, by simp, rfl⟩
  · cases h

theorem Names.find_put {m : Names} {k v k' : Bytes} :
    Names.find (m.put (k, v)) k' = if k' = k then some v else m.find k' := by
  by_cases h : k' = k
  · subst h
    have hself : (m.put (k', v)).get k' = some (k', v) := Table.get_put_self
    rw [if_pos rfl, Names.find, hself]
    rfl
  · have hother : (m.put (k, v)).get k' = m.get k' := Table.get_put_other h
    rw [if_neg h, Names.find, hother]
    rfl

/-! ### The reads -/

theorem read_eq {α : Type} {out : Outside} {a : α} {r : Except StoreError α}
    (h : (b.read out a, w) = (r, w')) : w = w' ∧ ∀ l, r = .ok l → l = a := by
  cases h
  refine ⟨rfl, fun l hl => ?_⟩
  cases b with
  | file => exact (Except.ok.inj hl).symm
  | pg =>
    simp only [Backend.read, PgStore.read] at hl
    split at hl <;> cases hl
    rfl

/-- The organisations of each tenant, as listed. -/
def Listed (w : Holding) (m : OrgsByTenant) : Prop :=
  ∀ e ∈ m.rows, (∃ t ∈ w.store.tenants.rows, t.id = e.1) ∧ e.2 = w.store.listOrgs e.1

theorem listOrgsOf_listed : ∀ {tenants : List Tenant} {m : OrgsByTenant},
    (∀ t ∈ tenants, t ∈ w.store.tenants.rows) → Listed w m →
    Always b.step w (fun r w' => w = w' ∧ ∀ m', r = .ok m' → Listed w m') (listOrgsOf tenants m)
  | [], m, _, hm => always_done.mpr ⟨rfl, fun _ h => Except.ok.inj h ▸ hm⟩
  | t :: rest, m, ht, hm => by
    rw [listOrgsOf, always_call]
    rintro r w₁ ⟨out, h⟩
    obtain ⟨rfl, hl⟩ := read_eq h
    rcases r with e | orgs
    · exact always_done.mpr ⟨rfl, nofun⟩
    refine listOrgsOf_listed (fun x hx => ht x (mem_cons_of_mem _ hx)) ?_
    intro e he
    rcases mem_put.mp he with ⟨he, -⟩ | rfl
    · exact hm e he
    · exact ⟨⟨t, ht t (by simp), rfl⟩, hl orgs rfl⟩

def ListsAll (w : Holding) (m : OrgsByTenant) : Prop :=
  Listed w m ∧ ∀ t ∈ w.store.tenants.rows, ∃ e ∈ m.rows, e.1 = t.id

theorem listOrgsOf_keys : ∀ {tenants : List Tenant} {m : OrgsByTenant},
    Always b.step w (fun r _ => ∀ m', r = .ok m' → (∀ e ∈ m.rows, ∃ e' ∈ m'.rows, e'.1 = e.1) ∧
      ∀ t ∈ tenants, ∃ e ∈ m'.rows, e.1 = t.id) (listOrgsOf tenants m)
  | [], m => always_done.mpr fun m' h => by
    cases h
    exact ⟨fun e he => ⟨e, he, rfl⟩, nofun⟩
  | t :: rest, m => by
    rw [listOrgsOf, always_call]
    rintro r w₁ ⟨out, h⟩
    obtain ⟨rfl, -⟩ := read_eq h
    rcases r with e | orgs
    · exact always_done.mpr nofun
    refine listOrgsOf_keys.mono fun r _ hr m' hm' => ?_
    obtain ⟨hold, hrest⟩ := hr m' hm'
    refine ⟨fun e he => ?_, forall_mem_cons.mpr ⟨?_, hrest⟩⟩
    · by_cases hk : e.1 = t.id
      · rw [hk]
        exact hold (t.id, orgs) (mem_put.mpr (.inr rfl))
      · exact hold e (mem_put.mpr (.inl ⟨he, hk⟩))
    · exact hold (t.id, orgs) (mem_put.mpr (.inr rfl))

variable {m : OrgsByTenant}

theorem ListsAll.orgs (h : ListsAll w m) {t : Tenant} (ht : t ∈ w.store.tenants.rows) :
    m.orgs t.id = w.store.listOrgs t.id := by
  obtain ⟨e, he, het⟩ := h.2 t ht
  have hget : m.get t.id = some e := Table.get_eq_some.mpr ⟨he, het⟩
  rw [OrgsByTenant.orgs, hget, ← het]
  exact (h.1 e he).2

/-- The tenant lists the organisation, and its id is not empty. -/
def listsOrg (m : OrgsByTenant) (orgID t : Bytes) : Bool :=
  (m.orgs t).any (fun o => o.id = orgID) && t ≠ []

theorem tenantOfOrg_eq_find {orgID : Bytes} : ∀ {tids : List Bytes},
    tenantOfOrg m orgID tids = (tids.find? (listsOrg m orgID)).getD []
  | [] => rfl
  | t :: rest => by
    rw [tenantOfOrg, tenantOfOrg_eq_find, find?_cons, listsOrg]
    by_cases hany : ((m.orgs t).any fun o => o.id = orgID) = true
    · by_cases hne : t = []
      · simp [hne]
      · simp [hany, hne]
    · simp [hany]

/-- Whatever the order of the map, the tenant found for an organisation is its own. -/
theorem tenantOfOrg_exact {tids : List Bytes} (hm : ListsAll w m)
    (htids : tids.Perm (m.rows.map Prod.fst)) (orgID : Bytes) :
    tenantOfOrg m orgID tids = (orgTenant w orgID).getD [] := by
  have hfound : ∀ t, t ∈ tids ∧ listsOrg m orgID t = true ↔ orgTenant w orgID = some t := by
    intro t
    rw [orgTenant_eq_some, htids.mem_iff, listsOrg]
    simp only [Bool.and_eq_true, any_eq_true, decide_eq_true_eq]
    constructor
    · rintro ⟨hin, ⟨o, ho, hid⟩, hne⟩
      obtain ⟨e, he, rfl⟩ := mem_map.mp hin
      obtain ⟨⟨x, hx, hxe⟩, -⟩ := hm.1 e he
      rw [← hxe, hm.orgs hx] at ho
      obtain ⟨ho, hot⟩ := mem_listOrgs.mp ho
      exact ⟨hne, ⟨x, hx, hxe⟩, o, ho, hid, hot.trans hxe⟩
    · rintro ⟨hne, ⟨x, hx, rfl⟩, o, ho, hid, hot⟩
      obtain ⟨e, he, het⟩ := hm.2 x hx
      refine ⟨mem_map.mpr ⟨e, he, het⟩, ⟨o, ?_, hid⟩, hne⟩
      rw [hm.orgs hx]
      exact mem_listOrgs.mpr ⟨ho, hot⟩
  rw [tenantOfOrg_eq_find]
  cases hfind : tids.find? (listsOrg m orgID) with
  | some t =>
    rw [(hfound t).mp ⟨mem_of_find?_eq_some hfind, find?_some hfind⟩]
  | none =>
    cases horg : orgTenant w orgID with
    | none => rfl
    | some t =>
      obtain ⟨hin, ht⟩ := (hfound t).mpr horg
      exact absurd ht (find?_eq_none.mp hfind t hin)

theorem attributeSiteOrgs_exact {orgs : OrgsByTenant} (horgs : ListsAll w orgs) :
    ∀ {siteOrgs : List SiteOrg} {m : Names}, (siteOrgs.map SiteOrg.site).Nodup →
      Always b.step w (fun m' w' => w = w' ∧ ∀ site, m'.find site =
          ((siteOrgs.find? fun so => so.site = site).bind fun so => orgTenant w so.orgID).or
            (m.find site))
        (attributeSiteOrgs orgs siteOrgs m)
  | [], m, _ => always_done.mpr ⟨rfl, fun site => by simp⟩
  | so :: rest, m, hnodup => by
    rw [map_cons, nodup_cons] at hnodup
    rw [attributeSiteOrgs, always_call]
    rintro tids w₁ ⟨out, h⟩
    cases h
    refine (attributeSiteOrgs_exact horgs hnodup.2).mono fun m' _ hm' => ⟨hm'.1, fun site => ?_⟩
    rw [hm'.2 site, tenantOfOrg_exact horgs (out.range_perm _)]
    by_cases hsite : so.site = site
    · -- No later row has this site, so what is put here stays.
      have hrest : (rest.find? fun so => so.site = site) = none := by
        rw [find?_eq_none]
        intro x hx he
        have hx' : x.site = so.site := (by simpa using he : x.site = site).trans hsite.symm
        exact hnodup.1 (hx' ▸ mem_map_of_mem hx)
      rw [hrest, find?_cons_of_pos (by simpa using hsite)]
      cases horg : orgTenant w so.orgID with
      | none => simp [horg]
      | some t =>
        have hne : t ≠ [] := (orgTenant_eq_some.mp horg).1
        simp [horg, hne, Names.find_put, hsite]
    · rw [find?_cons_of_neg (by simpa using hsite)]
      split
      · rfl
      · rw [Names.find_put, if_neg (Ne.symm hsite)]

theorem fromAssets_skip {path : Bytes} {rest : List Bytes} {m : Names}
    (h : firstPathSegment path = [] ∨ (m.find (firstPathSegment path)).isSome = true)
    (site : Bytes) : (m.find site).or (fromAssets tenants rest site) =
      (m.find site).or (fromAssets tenants (path :: rest) site) := by
  by_cases hsite : site = firstPathSegment path
  · subst hsite
    rcases h with h | h
    · simp [fromAssets, h]
    · obtain ⟨t, ht⟩ := Option.isSome_iff_exists.mp h
      simp [ht]
  · simp [fromAssets, hsite]

theorem attributeAssets_exact :
    ∀ {assets seen : List Bytes} {m m' : Names}, (∀ s ∈ seen, (m.find s).isSome = true) →
      attributeAssets tenants assets seen m = .ok m' →
      ∀ site, m'.find site = (m.find site).or (fromAssets tenants assets site)
  | [], seen, m, m', _, h, site => by
    cases h
    simp [fromAssets]
  | path :: rest, seen, m, m', hseen, h, site => by
    rw [attributeAssets] at h
    split at h
    · rename_i hskip
      rw [attributeAssets_exact hseen h site]
      refine fromAssets_skip ?_ site
      rw [Bool.or_eq_true, decide_eq_true_eq, contains_iff_mem] at hskip
      exact hskip.imp_right (hseen _)
    · split at h
      · rename_i hknown
        rw [attributeAssets_exact (forall_mem_cons.mpr ⟨hknown, hseen⟩) h site]
        exact fromAssets_skip (.inr hknown) site
      rename_i hne hknown
      split at h
      · rename_i t hsole
        have hseen' : ∀ s ∈ firstPathSegment path :: seen,
            ((Names.find (m.put (firstPathSegment path, t.id)) s)).isSome = true := by
          intro s hs
          rw [Names.find_put]
          split
          · rfl
          · rename_i hother
            exact hseen s ((mem_cons.mp hs).resolve_left hother)
        rw [attributeAssets_exact hseen' h site, Names.find_put]
        by_cases hsite : site = firstPathSegment path
        · subst hsite
          have hnone : m.find (firstPathSegment path) = none := by simpa using hknown
          have hne' : firstPathSegment path ≠ [] := fun he => hne (by simp [he])
          simp [fromAssets, hsole, hnone, hne']
        · simp [hsite, fromAssets]
      · cases h

/-! ### The snapshot -/

/-- What is read is what the store holds, and the attribution is that of the store. -/
structure Snapshot.Exact (w : Holding) (sn : Snapshot) : Prop where
  tenants : sn.tenants.Perm w.store.tenants.rows
  orgs : ListsAll w sn.orgsByTenant
  siteOrgs : sn.siteOrgs.Perm w.store.siteOrgs.rows
  sites : ∀ site, sn.sites.find site = attribution w site

theorem Snapshot.Exact.mem_range {sn : Snapshot} (h : sn.Exact w) (out : Outside) {site : Bytes} :
    site ∈ out.range (sn.sites.rows.map Prod.fst) ↔ (attribution w site).isSome = true := by
  rw [(out.range_perm _).mem_iff, ← h.sites]
  simp [Names.find, Table.get]

/-- The reads before the attribution answer what the store holds. -/
theorem takeSnapshot_ind {Q : Snapshot → Prop}
    (h : ∀ orgs, ListsAll w orgs → Always b.step w (fun r w' => w = w' ∧ ∀ sites, r = .ok sites →
        Q ⟨w.store.listTenants, orgs, w.store.listSiteOrgs, sites⟩)
      (buildSiteTenantMap w.store.listTenants w.assets w.store.listSiteOrgs orgs)) :
    Always b.step w (fun r w' => w = w' ∧ ∀ sn, r.2 = .ok sn → Q sn) takeSnapshot := by
  have hperm := FileStore.perm_sortBy Tenant.id w.store.tenants.rows
  rw [takeSnapshot, always_call]
  rintro r w₁ ⟨out, hr⟩
  obtain ⟨rfl, htenants⟩ := read_eq hr
  rcases r with e | tenants
  · exact always_done.mpr ⟨rfl, by rintro _ ⟨⟩⟩
  obtain rfl := htenants tenants rfl
  refine Always.bind ((listOrgsOf_listed (fun t => hperm.mem_iff.mp)
    (by simp [Listed, empty])).and listOrgsOf_keys) ?_
  rintro (e | orgs) w₂ ⟨⟨rfl, hlisted⟩, hkeys⟩
  · exact always_done.mpr ⟨rfl, by rintro _ ⟨⟩⟩
  have horgs : ListsAll w orgs :=
    ⟨hlisted orgs rfl, fun t ht => (hkeys orgs rfl).2 t (hperm.mem_iff.mpr ht)⟩
  refine always_call.mpr ?_
  rintro r w₃ ⟨out, hr⟩
  obtain ⟨rfl, hassets⟩ := read_eq hr
  rcases r with e | assets
  · exact always_done.mpr ⟨rfl, by rintro _ ⟨⟩⟩
  obtain rfl := hassets assets rfl
  refine always_call.mpr ?_
  rintro r w₄ ⟨out, hr⟩
  obtain ⟨rfl, hsiteOrgs⟩ := read_eq hr
  rcases r with e | siteOrgs
  · exact always_done.mpr ⟨rfl, by rintro _ ⟨⟩⟩
  obtain rfl := hsiteOrgs siteOrgs rfl
  refine Always.bind (h orgs horgs) ?_
  rintro (e | sites) w₅ ⟨rfl, hsites⟩
  · exact always_done.mpr ⟨rfl, by rintro _ ⟨⟩⟩
  · refine always_done.mpr ⟨rfl, ?_⟩
    rintro sn ⟨⟩
    exact hsites sites rfl

theorem soleTenant_perm {tenants rows : List Tenant} (h : tenants.Perm rows) :
    soleTenant tenants = soleTenant rows := by
  match rows with
  | [] => rw [h.eq_nil]
  | [t] => rw [perm_singleton.mp h]
  | t :: t' :: rest =>
    match tenants, h.length_eq with
    | _ :: _ :: _, _ => rfl

theorem takeSnapshot_exact :
    Always b.step w (fun r w' => w = w' ∧ ∀ sn, r.2 = .ok sn → sn.Exact w) takeSnapshot := by
  refine takeSnapshot_ind fun orgs horgs => ?_
  have htenants : w.store.listTenants.Perm w.store.tenants.rows := FileStore.perm_sortBy _ _
  have hso : w.store.listSiteOrgs.Perm w.store.siteOrgs.rows := FileStore.perm_sortBy _ _
  have hnodup : (w.store.listSiteOrgs.map SiteOrg.site).Nodup :=
    (hso.map _).nodup_iff.mpr w.store.siteOrgs.nodup
  refine Always.bind (attributeSiteOrgs_exact horgs hnodup) ?_
  rintro m w₁ ⟨rfl, hm⟩
  refine always_done.mpr ⟨rfl, fun m' hm' => ⟨htenants, horgs, hso, fun site => ?_⟩⟩
  have hempty : Names.find Table.empty site = none := rfl
  rw [attributeAssets_exact (by simp) hm' site, hm site, attribution, fromAssets, fromAssets,
    Table.find_of_perm hso, hempty, Option.or_none, soleTenant_perm htenants]

end Cios.Migrate
