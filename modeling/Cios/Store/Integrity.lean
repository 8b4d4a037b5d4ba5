import Cios.Store.FileStore
import Cios.Support.Run

/-!
# Store — the integrity of tenants, organisations and sites

Three tables refer to each other: a site to its organisation, an organisation to its tenant.
`Change` says once what a call can do to the store while its writes go through.  From it follow, for
every store that calls can lead to from the empty one: the references hold and no tenant has two
organisations of one name (`Integral`), a tier only goes up (`Raised`), and what a call changes is
recorded (`Recorded`).
-/

namespace Cios.Store
open Text Keyed List FileStore Table
open Runs (Run)

/-! ### Calls -/

def errorOf {α : Type} : Except StoreError α → Option StoreError
  | .ok _ => none
  | .error e => some e

namespace Call

def failure : (c : Call) → c.Ret → Option StoreError
  | .getTenant _, r => errorOf r
  | .listTenants, r => errorOf r
  | .createTenant _ _ _, r => errorOf r
  | .getOrg _, r => errorOf r
  | .listOrgs _, r => errorOf r
  | .listOrgsAll, r => errorOf r
  | .createOrg _ _ _, r => errorOf r
  | .renameOrg _ _ _, r => errorOf r
  | .deleteOrg _ _, r => errorOf r
  | .updateTenantTier _ _ _, r => errorOf r
  | .getSiteOrg _, r => errorOf r
  | .listSiteOrgs, r => errorOf r
  | .attachSiteToOrg _ _ _, r => errorOf r
  | .detachSiteFromOrg _ _, r => errorOf r
  | .deleteTenant _ _, r => errorOf r
  | .putRoleBinding _, r => errorOf r
  | .listRoleBindings _, r => errorOf r
  | .listAllRoleBindings, r => errorOf r
  | .deleteRoleBinding _ _, r => errorOf r

/-- The methods of tenants, organisations, sites and tiers. -/
def ofTenancy : Call → Bool
  | .putRoleBinding _ | .listRoleBindings _ | .listAllRoleBindings | .deleteRoleBinding _ _ => false
  | _ => true

/-- The kinds of the audit rows that a call should write when it changes something. -/
def ops : Call → List Bytes
  | .createTenant _ _ _ => ["tenant_create", "org_create"]
  | .createOrg _ _ _ => ["org_create"]
  | .renameOrg _ _ _ => ["org_rename"]
  | .deleteOrg _ _ => ["org_delete"]
  | .updateTenantTier _ _ _ => ["tier_change"]
  | .attachSiteToOrg _ _ _ | .detachSiteFromOrg _ _ => ["org_reattach"]
  | .deleteTenant _ _ => ["tenant_status"]
  | _ => []

def principal : Call → Bytes
  | .createTenant _ _ p | .createOrg _ _ p | .renameOrg _ _ p | .deleteOrg _ p
  | .updateTenantTier _ _ p | .attachSiteToOrg _ _ p | .detachSiteFromOrg _ p
  | .deleteTenant _ p => p
  | _ => []

end Call

/-- The rows that a call should write: of its kinds, under its principal's name. -/
structure RowsOf (c : Call) (auds : List TenantAudit) : Prop where
  ops : auds.map TenantAudit.op = c.ops
  principal : ∀ a ∈ auds, a.principal = c.principal

/-! ### What a call can do -/

/-- The store after a call whose write goes through, with the error it answers. -/
inductive Change (amb : Ambient) (st : FileStore) :
    Call → Option StoreError → FileStore → Prop where
  | stays {c : Call} {err : Option StoreError} (herr : err ≠ some Sentinel.tierDowngrade) :
      Change amb st c err st
  | tenantCreated {id name p : Bytes} {auds : List TenantAudit}
      (hslug : validTenantSlug (trimSpace id) = true) (hnew : st.tenants.get (trimSpace id) = none)
      (hauds : RowsOf (.createTenant id name p) auds) :
      Change amb st (.createTenant id name p) none
        { st with
          tenants := st.tenants.put
            ⟨trimSpace id, trimSpace name, "label", "active", amb.now, amb.now⟩
          orgs := st.orgs.put ⟨amb.newOrgID, trimSpace id, defaultOrgName, amb.now⟩
          tenantAuds := st.tenantAuds ++ auds }
  | orgCreated {t name p : Bytes} {auds : List TenantAudit} {owner : Tenant}
      (howner : st.tenants.get t = some owner)
      (hname : ∀ o ∈ st.orgs.rows, o.tenantID = t → o.name ≠ name)
      (hauds : RowsOf (.createOrg t name p) auds) :
      Change amb st (.createOrg t name p) none
        { st with
          orgs := st.orgs.put ⟨amb.newOrgID, t, name, amb.now⟩
          tenantAuds := st.tenantAuds ++ auds }
  | orgRenamed {id name p : Bytes} {auds : List TenantAudit} {prev : Org}
      (hprev : st.orgs.get id = some prev)
      (hname : ∀ o ∈ st.orgs.rows, o.tenantID = prev.tenantID → o.name = name → o.id = id)
      (hauds : RowsOf (.renameOrg id name p) auds) :
      Change amb st (.renameOrg id name p) none
        { st with
          orgs := st.orgs.put { prev with name := name }
          tenantAuds := st.tenantAuds ++ auds }
  | orgDeleted {id p : Bytes} {auds : List TenantAudit}
      (hfree : ∀ so ∈ st.siteOrgs.rows, so.orgID ≠ id) (hauds : RowsOf (.deleteOrg id p) auds) :
      Change amb st (.deleteOrg id p) none
        { st with orgs := st.orgs.erase id, tenantAuds := st.tenantAuds ++ auds }
  | tierRaised {id target p : Bytes} {auds : List TenantAudit} {t : Tenant} {r r' : Nat}
      (ht : st.tenants.get id = some t) (hr : tenantTierRank t.isolationTier = some r)
      (hr' : tenantTierRank target = some r') (hlt : r < r')
      (hauds : RowsOf (.updateTenantTier id target p) auds) :
      Change amb st (.updateTenantTier id target p) none
        { st with
          tenants := st.tenants.put { t with isolationTier := target, updatedAt := amb.now }
          tenantAuds := st.tenantAuds ++ auds }
  | tierRefused {id target p : Bytes} {auds : List TenantAudit} {t : Tenant} {r r' : Nat}
      (ht : st.tenants.get id = some t) (hr : tenantTierRank t.isolationTier = some r)
      (hr' : tenantTierRank target = some r') (hlt : r' < r)
      (hauds : RowsOf (.updateTenantTier id target p) auds) :
      Change amb st (.updateTenantTier id target p) (some Sentinel.tierDowngrade)
        { st with tenantAuds := st.tenantAuds ++ auds }
  | siteAttached {site org p : Bytes} {auds : List TenantAudit} {o : Org} (createdAt : Int)
      (ho : st.orgs.get org = some o) (hauds : RowsOf (.attachSiteToOrg site org p) auds) :
      Change amb st (.attachSiteToOrg site org p) none
        { st with
          siteOrgs := st.siteOrgs.put ⟨site, org, createdAt, amb.now⟩
          tenantAuds := st.tenantAuds ++ auds }
  | siteDetached {site p : Bytes} {auds : List TenantAudit} {cur : SiteOrg}
      (hcur : st.siteOrgs.get site = some cur)
      (hauds : ∀ o, st.orgs.get cur.orgID = some o → o.tenantID ≠ [] →
        RowsOf (.detachSiteFromOrg site p) auds) :
      Change amb st (.detachSiteFromOrg site p) none
        { st with siteOrgs := st.siteOrgs.erase site, tenantAuds := st.tenantAuds ++ auds }
  | tenantDeleted {id p : Bytes} {auds : List TenantAudit}
      (hfree : ∀ o ∈ st.orgs.rows, o.tenantID ≠ id) (hauds : RowsOf (.deleteTenant id p) auds) :
      Change amb st (.deleteTenant id p) none
        { st with tenants := st.tenants.erase id, tenantAuds := st.tenantAuds ++ auds }
  | bindings {c : Call} (hc : c.ofTenancy = false) (rbs : Table RoleBinding.grant) :
      Change amb st c none { st with roleBindings := rbs }

section Answers

variable {amb : Ambient} {st : FileStore}

theorem RowsOf.single {c : Call} {tenantID op detail : Bytes} (hop : c.ops = [op]) :
    RowsOf c [audit amb c.principal tenantID op detail] := by
  refine ⟨hop.symm, fun a ha => ?_⟩
  rw [mem_singleton.mp ha]
  rfl

/-- What a call answers and leaves is a change. -/
abbrev Changes {α : Type} (amb : Ambient) (st : FileStore) (c : Call)
    (x : Except StoreError α × FileStore) : Prop :=
  Change amb st c (errorOf x.1) x.2

variable (hs : amb.save = none)
include hs

theorem createTenant_change (id name p : Bytes) :
    Changes amb st (.createTenant id name p) (st.createTenant amb id name p) := by
  unfold createTenant
  dsimp only
  split_ifs with hslug hname htaken
  iterate 3 exact .stays nofun
  rw [commit_saved hs]
  refine .tenantCreated (by simpa using hslug) (by simpa using htaken) ⟨rfl, fun a ha => ?_⟩
  rcases mem_cons.mp ha with rfl | ha
  · rfl
  · rw [mem_singleton.mp ha]
    rfl

theorem createOrg_change (t name p : Bytes) :
    Changes amb st (.createOrg t name p) (st.createOrg amb t name p) := by
  unfold createOrg
  split_ifs with hslug howner htaken
  iterate 3 exact .stays nofun
  · obtain ⟨owner, howner⟩ := Option.ne_none_iff_exists'.mp (by simpa using howner)
    rw [commit_saved hs]
    exact .orgCreated howner (fun o ho ht hn => htaken (any_eq_true.mpr ⟨o, ho, by simp [ht, hn]⟩))
      (.single rfl)

theorem renameOrg_change (id name p : Bytes) :
    Changes amb st (.renameOrg id name p) (st.renameOrg amb id name p) := by
  unfold renameOrg
  split_ifs with hslug
  · exact .stays nofun
  cases hprev : st.orgs.get id with
  | none => exact .stays nofun
  | some prev =>
    dsimp only
    split_ifs with hsame htaken
    · exact .stays nofun
    · exact .stays nofun
    · rw [commit_saved hs]
      refine .orgRenamed hprev (fun o ho ht hn => ?_) (.single rfl)
      by_contra hid
      exact htaken (any_eq_true.mpr ⟨o, ho, by simp [ht, hn, hid]⟩)

theorem deleteOrg_change (id p : Bytes) :
    Changes amb st (.deleteOrg id p) (st.deleteOrg amb id p) := by
  unfold deleteOrg
  cases hprev : st.orgs.get id with
  | none => exact .stays nofun
  | some prev =>
    dsimp only
    split_ifs with hsites
    · exact .stays nofun
    · rw [commit_saved hs]
      exact .orgDeleted (fun so hso h => hsites (any_eq_true.mpr ⟨so, hso, by simp [h]⟩))
        (.single rfl)

theorem updateTenantTier_change (id target p : Bytes) :
    Changes amb st (.updateTenantTier id target p) (st.updateTenantTier amb id target p) := by
  unfold updateTenantTier
  cases hr' : tenantTierRank target with
  | none => exact .stays nofun
  | some r' =>
    cases ht : st.tenants.get id with
    | none => exact .stays nofun
    | some t =>
      dsimp only
      cases hr : tenantTierRank t.isolationTier with
      | none => exact .stays nofun
      | some r =>
        dsimp only
        split_ifs with heq hlt
        · exact .stays nofun
        · rw [hs]
          exact .tierRefused ht hr hr' hlt (.single rfl)
        · rw [commit_saved hs]
          exact .tierRaised ht hr hr' (by omega) (.single rfl)

theorem attachSiteToOrg_change (site org p : Bytes) :
    Changes amb st (.attachSiteToOrg site org p) (st.attachSiteToOrg amb site org p) := by
  unfold attachSiteToOrg
  split_ifs with hslug
  · exact .stays nofun
  cases ho : st.orgs.get org with
  | none => exact .stays nofun
  | some o =>
    dsimp only
    cases hcur : st.siteOrgs.get site with
    | none =>
      dsimp only
      rw [commit_saved hs]
      exact .siteAttached amb.now ho (.single rfl)
    | some cur =>
      dsimp only
      split_ifs with hsame
      · exact .stays nofun
      · rw [commit_saved hs]
        exact .siteAttached cur.createdAt ho (.single rfl)

theorem detachSiteFromOrg_change (site p : Bytes) :
    Changes amb st (.detachSiteFromOrg site p) (st.detachSiteFromOrg amb site p) := by
  unfold detachSiteFromOrg
  cases hcur : st.siteOrgs.get site with
  | none => exact .stays nofun
  | some cur =>
    dsimp only
    rw [commit_saved hs]
    refine .siteDetached hcur fun o ho hne => ?_
    rw [ho, if_neg hne]
    exact .single rfl

theorem deleteTenant_change (id p : Bytes) :
    Changes amb st (.deleteTenant id p) (st.deleteTenant amb id p) := by
  unfold deleteTenant
  cases ht : st.tenants.get id with
  | none => exact .stays nofun
  | some t =>
    split_ifs with horgs
    · exact .stays nofun
    · rw [commit_saved hs]
      exact .tenantDeleted (fun o ho h => horgs (any_eq_true.mpr ⟨o, ho, by simp [h]⟩))
        (.single rfl)

theorem putRoleBinding_change (rb : RoleBinding) :
    Changes amb st (.putRoleBinding rb) (st.putRoleBinding amb rb) := by
  by_cases hempty : (rb.subject = [] || rb.scope = []) = true
  · rw [putRoleBinding, if_pos hempty]
    exact .stays nofun
  have hne : rb.subject ≠ [] ∧ rb.scope ≠ [] := by simpa using hempty
  rcases st.putRoleBinding_cases amb rb hne.1 hne.2 with ⟨row, -, -, h⟩ | ⟨e, -, hsave⟩
  · rw [h]
    exact .bindings rfl _
  · exact absurd hs hsave

theorem deleteRoleBinding_change (subject scope : Bytes) :
    Changes amb st (.deleteRoleBinding subject scope) (st.deleteRoleBinding amb subject scope) := by
  unfold deleteRoleBinding
  split_ifs
  · exact .stays nofun
  cases hget : st.roleBindings.get (subject, scope) with
  | none => exact .stays nofun
  | some rb =>
    dsimp only
    rw [commit_saved hs]
    exact .bindings rfl _

/-- **Every call** whose write goes through changes the store in one of these ways. -/
theorem answer_change (c : Call) :
    Change amb st c (c.failure (answer amb c st).1) (answer amb c st).2 := by
  cases c with
  | createTenant id name p => exact createTenant_change hs id name p
  | createOrg t name p => exact createOrg_change hs t name p
  | renameOrg id name p => exact renameOrg_change hs id name p
  | deleteOrg id p => exact deleteOrg_change hs id p
  | updateTenantTier id target p => exact updateTenantTier_change hs id target p
  | attachSiteToOrg site org p => exact attachSiteToOrg_change hs site org p
  | detachSiteFromOrg site p => exact detachSiteFromOrg_change hs site p
  | deleteTenant id p => exact deleteTenant_change hs id p
  | putRoleBinding rb => exact putRoleBinding_change hs rb
  | deleteRoleBinding s sc => exact deleteRoleBinding_change hs s sc
  | _ => exact .stays nofun

end Answers

/-! ### Integrity -/

/-- The references between the tables hold, and a tenant's organisations have different names. -/
structure Integral (st : FileStore) : Prop where
  org_tenant : ∀ o ∈ st.orgs.rows, ∃ t ∈ st.tenants.rows, t.id = o.tenantID
  site_org : ∀ so ∈ st.siteOrgs.rows, ∃ o ∈ st.orgs.rows, o.id = so.orgID
  org_name : ∀ o ∈ st.orgs.rows, ∀ o' ∈ st.orgs.rows,
    o.tenantID = o'.tenantID → o.name = o'.name → o = o'
  tenant_slug : ∀ t ∈ st.tenants.rows, validTenantSlug t.id = true

theorem Integral.empty : Integral .empty := ⟨nofun, nofun, nofun, nofun⟩

section Integrity

variable {amb : Ambient} {st st' : FileStore} {c : Call} {err : Option StoreError}

theorem Integral.put_org (hi : Integral st) {o : Org} (auds : List TenantAudit)
    (hten : ∃ t ∈ st.tenants.rows, t.id = o.tenantID)
    (hname : ∀ o' ∈ st.orgs.rows, o'.tenantID = o.tenantID → o'.name = o.name → o'.id = o.id) :
    Integral { st with orgs := st.orgs.put o, tenantAuds := auds } where
  org_tenant o' ho' := by
    rcases mem_put.mp ho' with ⟨ho', -⟩ | rfl
    · exact hi.org_tenant o' ho'
    · exact hten
  site_org so hso := exists_put o (hi.site_org so hso)
  org_name o₁ h₁ o₂ h₂ ht hn := by
    rcases mem_put.mp h₁ with ⟨hm₁, hk₁⟩ | rfl
    · rcases mem_put.mp h₂ with ⟨hm₂, -⟩ | rfl
      · exact hi.org_name o₁ hm₁ o₂ hm₂ ht hn
      · exact absurd (hname o₁ hm₁ ht hn) hk₁
    · rcases mem_put.mp h₂ with ⟨hm₂, hk₂⟩ | rfl
      · exact absurd (hname o₂ hm₂ ht.symm hn.symm) hk₂
      · rfl
  tenant_slug := hi.tenant_slug

theorem Integral.put_tenant (hi : Integral st) {t : Tenant} (auds : List TenantAudit)
    (hslug : validTenantSlug t.id = true) :
    Integral { st with tenants := st.tenants.put t, tenantAuds := auds } where
  org_tenant o ho := exists_put t (hi.org_tenant o ho)
  site_org := hi.site_org
  org_name := hi.org_name
  tenant_slug t' ht' := by
    rcases mem_put.mp ht' with ⟨ht', -⟩ | rfl
    · exact hi.tenant_slug t' ht'
    · exact hslug

/-- **One call** keeps the store's integrity. -/
theorem Change.integral (h : Change amb st c err st') (hi : Integral st) : Integral st' := by
  cases h with
  | stays _ => exact hi
  | @tenantCreated id name p auds hslug hnew hauds =>
    have hnone := get_eq_none.mp hnew
    refine (hi.put_tenant (t := ⟨trimSpace id, trimSpace name, "label", "active", amb.now, amb.now⟩)
      [] hslug).put_org (o := ⟨amb.newOrgID, trimSpace id, defaultOrgName, amb.now⟩) _
      ⟨_, mem_put.mpr (.inr rfl), rfl⟩ fun o' ho' ht => ?_
    -- The tenant is new, so nothing refers to it yet.
    obtain ⟨t, hten, hid⟩ := hi.org_tenant o' ho'
    exact absurd (hid.trans ht) (hnone t hten)
  | orgCreated howner hname hauds =>
    obtain ⟨hmem, hid⟩ := get_eq_some.mp howner
    exact hi.put_org _ ⟨_, hmem, hid⟩ fun o' ho' ht hn => absurd hn (hname o' ho' ht)
  | @orgRenamed id name p auds prev hprev hname hauds =>
    obtain ⟨hmem, rfl⟩ := get_eq_some.mp hprev
    exact hi.put_org _ (hi.org_tenant prev hmem) hname
  | orgDeleted hfree hauds =>
    refine ⟨fun o ho => hi.org_tenant o (mem_erase.mp ho).1, fun so hso => ?_,
      fun o ho o' ho' => hi.org_name o (mem_erase.mp ho).1 o'
        (mem_erase.mp ho').1, hi.tenant_slug⟩
    obtain ⟨o, ho, hid⟩ := hi.site_org so hso
    exact ⟨o, mem_erase.mpr ⟨ho, hid ▸ hfree so hso⟩, hid⟩
  | @tierRaised id target p auds t r r' ht hr hr' hlt hauds =>
    exact hi.put_tenant _ (hi.tenant_slug t (get_eq_some.mp ht).1)
  | tierRefused ht hr hr' hlt hauds => exact { hi with }
  | siteAttached createdAt ho hauds =>
    refine { hi with site_org := fun so hso => ?_ }
    rcases mem_put.mp hso with ⟨hso, -⟩ | rfl
    · exact hi.site_org so hso
    · exact ⟨_, get_eq_some.mp ho⟩
  | siteDetached hcur hauds =>
    exact { hi with site_org := fun so hso => hi.site_org so (mem_erase.mp hso).1 }
  | tenantDeleted hfree hauds =>
    refine ⟨fun o ho => ?_, hi.site_org, hi.org_name,
      fun t ht => hi.tenant_slug t (mem_erase.mp ht).1⟩
    obtain ⟨t, ht, hid⟩ := hi.org_tenant o ho
    exact ⟨t, mem_erase.mpr ⟨ht, hid ▸ hfree o ho⟩, hid⟩
  | bindings hc rbs => exact { hi with }

/-! ### Tiers and the audit -/

/-- A tenant that was there and still is has its tier, or a higher one that the call asked for. -/
def Raised (st : FileStore) (c : Call) (err : Option StoreError) (st' : FileStore) : Prop :=
  ∀ t ∈ st.tenants.rows, ∀ t' ∈ st'.tenants.rows, t'.id = t.id →
    t'.isolationTier = t.isolationTier ∨
      ∃ p r r', c = .updateTenantTier t.id t'.isolationTier p ∧ err = none ∧
        tenantTierRank t.isolationTier = some r ∧ tenantTierRank t'.isolationTier = some r' ∧ r < r'

/-- A successful change appends its audit rows; a failure changes nothing, except that a refused
tier appends one row. -/
structure Recorded (st : FileStore) (c : Call) (err : Option StoreError) (st' : FileStore) :
    Prop where
  succeeded : err = none → st' ≠ st → ∃ auds, RowsOf c auds ∧ st'.tenantAuds = st.tenantAuds ++ auds
  refused : err = some Sentinel.tierDowngrade → ∃ id target p t r r' auds,
    c = .updateTenantTier id target p ∧ st.tenants.get id = some t ∧
      tenantTierRank t.isolationTier = some r ∧ tenantTierRank target = some r' ∧ r' < r ∧
      RowsOf c auds ∧ st' = { st with tenantAuds := st.tenantAuds ++ auds }
  failed : err ≠ none → err ≠ some Sentinel.tierDowngrade → st' = st

theorem Change.raised (h : Change amb st c err st') : Raised st c err st' := by
  intro t ht t' ht' hid
  cases h with
  | tenantCreated hslug hnew hauds =>
    rcases mem_put.mp ht' with ⟨ht', -⟩ | rfl
    · exact .inl (congrArg _ (eq_of_key_eq ht' ht hid))
    · exact absurd hid.symm (get_eq_none.mp hnew t ht)
  | @tierRaised id target p auds cur r r' hcur hr hr' hlt hauds =>
    obtain ⟨hmem, rfl⟩ := get_eq_some.mp hcur
    rcases mem_put.mp ht' with ⟨ht', -⟩ | rfl
    · exact .inl (congrArg _ (eq_of_key_eq ht' ht hid))
    · obtain rfl := eq_of_key_eq hmem ht hid
      exact .inr ⟨p, r, r', rfl, rfl, hr, hr', hlt⟩
  | tenantDeleted hfree hauds =>
    exact .inl (congrArg _ (eq_of_key_eq (mem_erase.mp ht').1 ht hid))
  | _ => exact .inl (congrArg _ (eq_of_key_eq ht' ht hid))

theorem Recorded.of_rows {auds : List TenantAudit} (hauds : RowsOf c auds)
    (haud : st'.tenantAuds = st.tenantAuds ++ auds) : Recorded st c none st' :=
  ⟨fun _ _ => ⟨auds, hauds, haud⟩, nofun, fun h => absurd rfl h⟩

theorem Change.recorded (h : Change amb st c err st') (hi : Integral st)
    (hc : c.ofTenancy = true) : Recorded st c err st' := by
  cases h with
  | stays herr => exact ⟨fun _ h => absurd rfl h, fun h => absurd h herr, fun _ _ => rfl⟩
  | tenantCreated | orgCreated | orgRenamed | orgDeleted | tierRaised | siteAttached
  | tenantDeleted =>
    rename_i hauds
    exact .of_rows hauds rfl
  | tierRefused ht hr hr' hlt hauds =>
    exact ⟨nofun, fun _ => ⟨_, _, _, _, _, _, _, rfl, ht, hr, hr', hlt, hauds, rfl⟩,
      fun _ h => absurd rfl h⟩
  | @siteDetached site p auds cur hcur hauds =>
    -- The site's organisation and its tenant exist, so there is a tenant to record it under.
    obtain ⟨o, ho, hid⟩ := hi.site_org cur (get_eq_some.mp hcur).1
    obtain ⟨t, ht, htid⟩ := hi.org_tenant o ho
    have hne : o.tenantID ≠ [] := by
      intro hnil
      have hslug := hi.tenant_slug t ht
      rw [htid, hnil] at hslug
      cases hslug
    exact .of_rows (hauds o (get_eq_some.mpr ⟨ho, hid⟩) hne) rfl
  | bindings hb => exact absurd hc (by simp [hb])

end Integrity

/-! ### Runs -/

def Call.Step (st : FileStore) (l : Ambient × Call) (st' : FileStore) : Prop :=
  l.1.save = none ∧ st' = (FileStore.answer l.1 l.2 st).2

theorem integral_of_run {ls : List (Ambient × Call)} {st : FileStore}
    (h : Run Call.Step .empty ls st) : Integral st :=
  h.invariant (fun {_ l _} hi hl => hl.2 ▸ (answer_change hl.1 l.2).integral hi) .empty

/-- **Tenancy integrity.**  In every store that calls lead to from the empty one, organisations
refer to tenants and sites to organisations, and no tenant has two organisations of one name.  The
next call moves a tier only up and records what it changes; if it fails it changes nothing, but for
the record of a refused tier. -/
theorem tenancy_integrity {ls : List (Ambient × Call)} {st : FileStore}
    (h : Run Call.Step .empty ls st) :
    (∀ o ∈ st.orgs.rows, ∃ t ∈ st.tenants.rows, t.id = o.tenantID) ∧
      (∀ so ∈ st.siteOrgs.rows, ∃ o ∈ st.orgs.rows, o.id = so.orgID) ∧
      (st.orgs.rows.map fun o => (o.tenantID, o.name)).Nodup ∧
      ∀ amb c, amb.save = none → c.ofTenancy = true →
        Raised st c (c.failure (FileStore.answer amb c st).1) (FileStore.answer amb c st).2 ∧
          Recorded st c (c.failure (FileStore.answer amb c st).1)
            (FileStore.answer amb c st).2 := by
  have hi := integral_of_run h
  refine ⟨hi.org_tenant, hi.site_org, ?_, fun amb c hs hc => ?_⟩
  · refine Nodup.map_on (fun o ho o' ho' heq => ?_) st.orgs.nodup.of_map
    obtain ⟨ht, hn⟩ := Prod.mk.inj heq
    exact hi.org_name o ho o' ho' ht hn
  · have hchange : Change amb st c _ _ := answer_change hs c
    exact ⟨hchange.raised, hchange.recorded hi hc⟩

def drawn : Ambient := ⟨0, "o1", "a1", "a2", "r1", none⟩

def raisedTenant : List (Ambient × Call) :=
  [(drawn, .createTenant "acme" "Acme" "root"), (drawn, .updateTenantTier "acme" "row" "root"),
    (drawn, .attachSiteToOrg "hel01" "o1" "root")]

def afterCalls (ls : List (Ambient × Call)) : FileStore :=
  ls.foldl (fun st l => (FileStore.answer l.1 l.2 st).2) .empty

theorem tenancy_integrity_raised :
    (∀ so ∈ (afterCalls raisedTenant).siteOrgs.rows,
        ∃ o ∈ (afterCalls raisedTenant).orgs.rows, o.id = so.orgID) ∧
      (afterCalls raisedTenant).siteOrgs.rows.length = 1 ∧
      (afterCalls raisedTenant).tenantAuds.length = 4 := by
  have hrun : Run Call.Step .empty raisedTenant (afterCalls raisedTenant) :=
    .more ⟨rfl, rfl⟩ (.more ⟨rfl, rfl⟩ (.more ⟨rfl, rfl⟩ (.refl _)))
  exact ⟨(tenancy_integrity hrun).2.1, by decide +kernel, by decide +kernel⟩

/-- A tier that would go down: the call fails, and the audit grows by a row. -/
theorem refused_tier_recorded :
    Run Call.Step .empty raisedTenant (afterCalls raisedTenant) ∧
      let c : Call := .updateTenantTier "acme" "label" "root"
      c.failure (answer drawn c (afterCalls raisedTenant)).1 =
          some Sentinel.tierDowngrade ∧
        (answer drawn c (afterCalls raisedTenant)).2.tenantAuds.length =
          (afterCalls raisedTenant).tenantAuds.length + 1 :=
  ⟨.more ⟨rfl, rfl⟩ (.more ⟨rfl, rfl⟩ (.more ⟨rfl, rfl⟩ (.refl _))), by decide +kernel,
    by decide +kernel⟩

end Cios.Store
