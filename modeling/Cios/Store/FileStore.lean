import Cios.Store.Tenancy

/-!
# Store — the file store's tenancy methods

`fileStore` (`core/store.go`) keeps its tables in memory and writes them out after each change.  A
change whose write fails is taken back, so a mutator either moves to the new state or leaves the
old one (`commit`).  Time, fresh ids and the outcome of the write come from outside, one sample
per call (`Ambient`).
-/

namespace Cios.Store
open Text
open Keyed (Table)

/-- What a call finds outside: the clock, the ids it would draw, and the error of the write. -/
structure Ambient where
  now : Int
  newOrgID : Bytes
  newTenantAuditID : Bytes
  newTenantAuditID' : Bytes
  newRoleBindingID : Bytes
  save : Option Bytes

structure FileStore where
  tenants : Table Tenant.id
  orgs : Table Org.id
  siteOrgs : Table SiteOrg.site
  tenantAuds : List TenantAudit
  roleBindings : Table RoleBinding.grant

namespace FileStore

def empty : FileStore := ⟨.empty, .empty, .empty, [], .empty⟩

variable (amb : Ambient) (st : FileStore)

/-- The new state, or the old one with the write's error behind `text`. -/
def commit {α : Type} (text : Bytes) (a : α) (st' : FileStore) :
    Except StoreError α × FileStore :=
  match amb.save with
  | none => (.ok a, st')
  | some e => (.error (.plain (text ++ e)), st)

variable {α : Type}

theorem commit_saved {amb : Ambient} {st st' : FileStore} {text : Bytes} {a : α}
    (h : amb.save = none) : commit amb st text a st' = (.ok a, st') := by
  simp [commit, h]

theorem commit_failed {amb : Ambient} {st st' : FileStore} {text e : Bytes} {a : α}
    (h : amb.save = some e) : commit amb st text a st' = (.error (.plain (text ++ e)), st) := by
  simp [commit, h]

theorem commit_cases (amb : Ambient) (st st' : FileStore) (text : Bytes) (a : α) :
    commit amb st text a st' = (.ok a, st') ∧ amb.save = none ∨
      ∃ e, commit amb st text a st' = (.error e, st) ∧ amb.save ≠ none := by
  cases hs : amb.save with
  | none => exact .inl ⟨commit_saved hs, rfl⟩
  | some e => exact .inr ⟨_, commit_failed hs, nofun⟩

def audit (principal tenantID op detail : Bytes) : TenantAudit :=
  ⟨amb.newTenantAuditID, amb.now, principal, tenantID, op, detail⟩

def sortBy {α : Type} (key : α → Bytes) (l : List α) : List α :=
  l.insertionSort fun a b => le (key a) (key b) = true

theorem pairwise_sortBy (key : α → Bytes) (l : List α) :
    (sortBy key l).Pairwise fun a b => le (key a) (key b) = true :=
  Keyed.pairwise_insertionSort_of (fun a b => Text.le_total (key a) (key b)) Text.le_trans l

theorem perm_sortBy (key : α → Bytes) (l : List α) : (sortBy key l).Perm l :=
  List.perm_insertionSort _ l

/-! ### Tenants and organisations -/

def getTenant (id : Bytes) : Option Tenant := st.tenants.get id

def listTenants : List Tenant := sortBy Tenant.id st.tenants.rows

def createTenant (id displayName principal : Bytes) :
    Except StoreError (Tenant × Org) × FileStore :=
  let id := trimSpace id
  let displayName := trimSpace displayName
  if !validTenantSlug id then (.error (.plain "core: create tenant: invalid slug"), st)
  else if displayName = [] then (.error (.plain "core: create tenant: display_name required"), st)
  else if (st.tenants.get id).isSome then (.error Sentinel.tenantExists, st)
  else
    let t : Tenant := ⟨id, displayName, "label", "active", amb.now, amb.now⟩
    let o : Org := ⟨amb.newOrgID, id, defaultOrgName, amb.now⟩
    let created := audit amb principal id "tenant_create" displayName
    let orgCreated : TenantAudit := ⟨amb.newTenantAuditID', amb.now, principal, id, "org_create",
      o.id ++ lit ":" ++ o.name⟩
    commit amb st "core: create tenant: save: " (t, o)
      { st with
        tenants := st.tenants.put t
        orgs := st.orgs.put o
        tenantAuds := st.tenantAuds ++ [created, orgCreated] }

def getOrg (id : Bytes) : Option Org := st.orgs.get id

def listOrgs (tenantID : Bytes) : List Org :=
  sortBy Org.name (st.orgs.rows.filter fun o => o.tenantID = tenantID)

def listOrgsAll (tenantID : Bytes) : List Org := st.listOrgs tenantID

def createOrg (tenantID name principal : Bytes) : Except StoreError Org × FileStore :=
  if !validTenantSlug name then (.error (.plain "core: create org: invalid slug"), st)
  else if (st.tenants.get tenantID).isNone then
    (.error (.plain "core: create org: tenant not found"), st)
  else if st.orgs.rows.any fun o => o.tenantID = tenantID && o.name = name then
    (.error Sentinel.orgNameConflict, st)
  else
    let o : Org := ⟨amb.newOrgID, tenantID, name, amb.now⟩
    commit amb st "core: create org: save: " o
      { st with
        orgs := st.orgs.put o
        tenantAuds := st.tenantAuds ++
          [audit amb principal tenantID "org_create" (o.id ++ lit ":" ++ name)] }

def renameOrg (id newName principal : Bytes) : Except StoreError Unit × FileStore :=
  if !validTenantSlug newName then (.error (.plain "core: rename org: invalid slug"), st)
  else match st.orgs.get id with
    | none => (.error (.plain "core: rename org: not found"), st)
    | some prev =>
      if prev.name = newName then (.ok (), st)
      else if st.orgs.rows.any fun o =>
          o.tenantID = prev.tenantID && o.name = newName && o.id ≠ id then
        (.error Sentinel.orgNameConflict, st)
      else
        commit amb st "core: rename org: save: " ()
          { st with
            orgs := st.orgs.put { prev with name := newName }
            tenantAuds := st.tenantAuds ++
              [audit amb principal prev.tenantID "org_rename"
                (prev.name ++ lit "→" ++ newName)] }

def deleteOrg (id principal : Bytes) : Except StoreError Unit × FileStore :=
  match st.orgs.get id with
  | none => (.error (.plain "core: delete org: not found"), st)
  | some prev =>
    if st.siteOrgs.rows.any fun so => so.orgID = id then (.error Sentinel.orgOwnsResources, st)
    else
      commit amb st "core: delete org: save: " ()
        { st with
          orgs := st.orgs.erase id
          tenantAuds := st.tenantAuds ++
            [audit amb principal prev.tenantID "org_delete" prev.name] }

def updateTenantTier (id target principal : Bytes) : Except StoreError Unit × FileStore :=
  match tenantTierRank target with
  | none => (.error Sentinel.tierValidation, st)
  | some targetRank =>
    match st.tenants.get id with
    | none => (.error (.plain "core: update tenant tier: not found"), st)
    | some t =>
      match tenantTierRank t.isolationTier with
      | none => (.error (.plain "core: update tenant tier: not found"), st)
      | some curRank =>
        let change := t.isolationTier ++ lit "→" ++ target
        if targetRank = curRank then (.ok (), st)
        else if targetRank < curRank then
          -- The refusal itself is recorded; a failed write hides it.
          match amb.save with
          | none => (.error Sentinel.tierDowngrade,
              { st with
                tenantAuds := st.tenantAuds ++
                  [audit amb principal id "tier_change" (change ++ lit " REFUSED")] })
          | some e => (.error (.plain e), st)
        else
          commit amb st [] ()
            { st with
              tenants := st.tenants.put
                { t with isolationTier := target, updatedAt := amb.now }
              tenantAuds := st.tenantAuds ++
                [audit amb principal id "tier_change" change] }

def deleteTenant (id principal : Bytes) : Except StoreError Unit × FileStore :=
  match st.tenants.get id with
  | none => (.error (.plain "core: delete tenant: not found"), st)
  | some _ =>
    if st.orgs.rows.any fun o => o.tenantID = id then (.error Sentinel.tenantOwnsOrgs, st)
    else
      commit amb st "core: delete tenant: save: " ()
        { st with
          tenants := st.tenants.erase id
          tenantAuds := st.tenantAuds ++ [audit amb principal id "tenant_status" "deleted"] }

/-! ### Sites -/

def getSiteOrg (site : Bytes) : Option SiteOrg := st.siteOrgs.get site

def listSiteOrgs : List SiteOrg := sortBy SiteOrg.site st.siteOrgs.rows

def attachSiteToOrg (site orgID principal : Bytes) : Except StoreError Unit × FileStore :=
  if !validSiteSlug site then (.error Sentinel.siteSlug, st)
  else match st.orgs.get orgID with
    | none => (.error Sentinel.siteOrgNotFound, st)
    | some o =>
      let write := fun (createdAt : Int) (detail : Bytes) =>
        commit amb st [] ()
          { st with
            siteOrgs := st.siteOrgs.put ⟨site, orgID, createdAt, amb.now⟩
            tenantAuds := st.tenantAuds ++
              [audit amb principal o.tenantID "org_reattach" detail] }
      match st.siteOrgs.get site with
      | some cur =>
        if cur.orgID = orgID then (.ok (), st)
        else write cur.createdAt (site ++ lit ": " ++ cur.orgID ++ lit "→" ++ orgID)
      | none => write amb.now (site ++ lit "→" ++ orgID)

def detachSiteFromOrg (site principal : Bytes) : Except StoreError Unit × FileStore :=
  match st.siteOrgs.get site with
  | none => (.error (.plain "core: detach site from org: not found"), st)
  | some cur =>
    let tenantID := match st.orgs.get cur.orgID with
      | some o => o.tenantID
      | none => []
    let auds := if tenantID = [] then [] else
      [audit amb principal tenantID "org_reattach" (site ++ lit ": " ++ cur.orgID ++ lit "→")]
    commit amb st "core: detach site from org: save: " ()
      { st with siteOrgs := st.siteOrgs.erase site, tenantAuds := st.tenantAuds ++ auds }

/-! ### Role bindings -/

/-- A put of a stored grant renews its origin and time; times are nanoseconds, `0` the zero time. -/
def putRoleBinding (rb : RoleBinding) : Except StoreError Unit × FileStore :=
  if rb.subject = [] || rb.scope = [] then
    (.error (.plain "core: put role binding: subject and scope required"), st)
  else
    let origin : Bytes := if rb.origin = [] then "legacy" else rb.origin
    let id := if rb.id = [] then amb.newRoleBindingID else rb.id
    let row : RoleBinding := match st.roleBindings.get rb.grant with
      | some existing =>
        { existing with
          origin := origin
          updatedAt := amb.now
          createdAt := if existing.createdAt = 0 then amb.now else existing.createdAt }
      | none =>
        ⟨id, rb.subject, rb.scope, origin, if rb.createdAt = 0 then amb.now else rb.createdAt,
          amb.now⟩
    commit amb st [] () { st with roleBindings := st.roleBindings.put row }

theorem putRoleBinding_cases (rb : RoleBinding) (hs : rb.subject ≠ []) (hc : rb.scope ≠ []) :
    (∃ row, row.grant = rb.grant ∧ amb.save = none ∧ st.putRoleBinding amb rb =
        (.ok (), { st with roleBindings := st.roleBindings.put row })) ∨
      ∃ e, st.putRoleBinding amb rb = (.error e, st) ∧ amb.save ≠ none := by
  unfold putRoleBinding
  rw [if_neg (by simp [hs, hc])]
  rcases commit_cases amb st _ [] () with ⟨h, hsave⟩ | ⟨e, h, hsave⟩
  · refine .inl ⟨_, ?_, hsave, h⟩
    cases hget : st.roleBindings.get rb.grant with
    | none => rfl
    | some existing => exact (Keyed.Table.get_eq_some.mp hget).2
  · exact .inr ⟨e, h, hsave⟩

def listRoleBindings (subject : Bytes) : List RoleBinding :=
  sortBy RoleBinding.scope (st.roleBindings.rows.filter fun rb => rb.subject = subject)

def grantLe (a b : RoleBinding) : Bool := Keyed.lexLe le le a.grant b.grant

theorem grantLe_total (a b : RoleBinding) : grantLe a b = true ∨ grantLe b a = true :=
  Keyed.lexLe_total (fun a b _ => Text.le_total a b) Text.le_total _ _

theorem grantLe_trans {a b c : RoleBinding} (hab : grantLe a b = true) (hbc : grantLe b c = true) :
    grantLe a c = true :=
  Keyed.lexLe_trans Text.le_antisymm Text.le_trans Text.le_trans hab hbc

theorem grantLe_antisymm {a b : RoleBinding} (hab : grantLe a b = true) (hba : grantLe b a = true) :
    a.grant = b.grant :=
  Keyed.lexLe_antisymm Text.le_antisymm Text.le_antisymm hab hba

def listAllRoleBindings : List RoleBinding :=
  st.roleBindings.rows.insertionSort fun a b => grantLe a b = true

def deleteRoleBinding (subject scope : Bytes) : Except StoreError Unit × FileStore :=
  if subject = [] || scope = [] then
    (.error (.plain "core: delete role binding: subject and scope required"), st)
  else match st.roleBindings.get (subject, scope) with
    | some _ =>
      commit amb st [] () { st with roleBindings := st.roleBindings.erase (subject, scope) }
    | none => (.ok (), st)

def answer : (c : Call) → FileStore → c.Ret × FileStore
  | .getTenant id, st => (.ok (st.getTenant id), st)
  | .listTenants, st => (.ok st.listTenants, st)
  | .createTenant id name p, st => st.createTenant amb id name p
  | .getOrg id, st => (.ok (st.getOrg id), st)
  | .listOrgs t, st => (.ok (st.listOrgs t), st)
  | .listOrgsAll, st => (.ok st.listOrgsAll, st)
  | .createOrg t name p, st => st.createOrg amb t name p
  | .renameOrg id name p, st => st.renameOrg amb id name p
  | .deleteOrg id p, st => st.deleteOrg amb id p
  | .updateTenantTier id target p, st => st.updateTenantTier amb id target p
  | .getSiteOrg site, st => (.ok (st.getSiteOrg site), st)
  | .listSiteOrgs, st => (.ok st.listSiteOrgs, st)
  | .attachSiteToOrg site org p, st => st.attachSiteToOrg amb site org p
  | .detachSiteFromOrg site p, st => st.detachSiteFromOrg amb site p
  | .deleteTenant id p, st => st.deleteTenant amb id p
  | .putRoleBinding rb, st => st.putRoleBinding amb rb
  | .listRoleBindings s, st => (.ok (st.listRoleBindings s), st)
  | .listAllRoleBindings, st => (.ok st.listAllRoleBindings, st)
  | .deleteRoleBinding s sc, st => st.deleteRoleBinding amb s sc

end FileStore

end Cios.Store
