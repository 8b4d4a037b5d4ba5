import Cios.Support.Effect
import Cios.Rbac.Crn
import Cios.Store.Tenancy

/-!
# Migration — the v1.1 transition

`MigrateV11` (`core/migrate_v11.go`) moves a v1.0 store under the tenancy of v1.1: every tenant gets
an organisation `default`, every known site is attached to the `default` organisation of its tenant,
and every role binding that is not yet tenant-bound is replaced by one whose scope names that
tenant.  It reads the whole store first, then writes in three passes, and stops at the first error.

It is a program over the calls it makes (`MigrateOp`).
-/

namespace Cios.Migrate
open Text
open Cios.Rbac
open Cios.Store
open Effect (Prog)
open Keyed (Table)

/-! ### The calls -/

inductive MigrateOp where
  | listTenants
  | listOrgs (tenantID : Bytes)
  | listAssets
  | listSiteOrgs
  | createOrg (tenantID name principal : Bytes)
  | attachSiteToOrg (site orgID principal : Bytes)
  | listAllRoleBindings
  | putRoleBinding (rb : RoleBinding)
  | deleteRoleBinding (subject scope : Bytes)
  | recordRewrite (subject oldScope newScope : Bytes)
  | newRoleBindingID
  | now
  | rangeMap (keys : List Bytes)

/-- What a call answers.  Of an asset only its path is read. -/
abbrev MigrateOp.Ret : MigrateOp → Type
  | .listTenants => Except StoreError (List Tenant)
  | .listOrgs _ => Except StoreError (List Org)
  | .listAssets => Except StoreError (List Bytes)
  | .listSiteOrgs => Except StoreError (List SiteOrg)
  | .createOrg _ _ _ => Except StoreError Org
  | .attachSiteToOrg _ _ _ => Except StoreError Unit
  | .listAllRoleBindings => Except StoreError (List RoleBinding)
  | .putRoleBinding _ => Except StoreError Unit
  | .deleteRoleBinding _ _ => Except StoreError Unit
  | .recordRewrite _ _ _ => Except Bytes Unit
  | .newRoleBindingID => Bytes
  | .now => Int
  | .rangeMap _ => List Bytes

abbrev Migration := Prog MigrateOp MigrateOp.Ret

/-! ### Reports and errors -/

structure RewriteDiff where
  ts : Int
  subject : Bytes
  oldScope : Bytes
  newScope : Bytes
deriving DecidableEq, Repr

structure MigrateReport where
  tenantsSeen : Nat
  orgsEnsured : Nat
  orgsAlready : Nat
  sitesAttached : Nat
  sitesAlready : Nat
  rbTotal : Nat
  rbRewritten : Nat
  rbSkippedCRN : Nat
  rbSkippedNoSite : Nat
  diffs : List RewriteDiff
deriving DecidableEq, Repr

def MigrateReport.zero : MigrateReport := ⟨0, 0, 0, 0, 0, 0, 0, 0, 0, []⟩

/-- The errors, each behind `core: migrate v11: ` with the data its text prints. -/
inductive MigrateError where
  | nilSink
  | listTenants (e : StoreError)
  | listOrgs (tenant : Bytes) (e : StoreError)
  | listAssets (e : StoreError)
  | listSiteOrgs (e : StoreError)
  | noAttribution (site : Bytes) (tenants : Nat)
  | orgNotVisible (tenant : Bytes)
  | createOrg (tenant : Bytes) (e : StoreError)
  | noDefaultOrg (site tenant : Bytes)
  | attachSite (site org : Bytes) (e : StoreError)
  | listRoleBindings (e : StoreError)
  | putRoleBinding (subject : Bytes) (e : StoreError)
  | deleteRoleBinding (subject scope : Bytes) (e : StoreError)
  | auditSink (e : Bytes)
deriving DecidableEq, Repr

/-! ### Sites and their tenants -/

/-- `allOrgsByTenant`. -/
abbrev OrgsByTenant := Table (Prod.fst : Bytes × List Org → Bytes)

/-- The tenant of a site, the default organisation of a tenant. -/
abbrev Names := Table (Prod.fst : Bytes × Bytes → Bytes)

def OrgsByTenant.orgs (m : OrgsByTenant) (tenantID : Bytes) : List Org :=
  ((m.get tenantID).map Prod.snd).getD []

def Names.find (m : Names) (k : Bytes) : Option Bytes := (m.get k).map Prod.snd

def firstPathSegment (path : Bytes) : Bytes := path.takeWhile (· != ('.' : UInt8))

def legacyScopeSite (scope : Bytes) : Option Bytes :=
  let s := scope.takeWhile (· != ('.' : UInt8))
  if s = [] then none else some s

/-- The tenant that has the organisation, in the order the map is ranged over. -/
def tenantOfOrg (orgsByTenant : OrgsByTenant) (orgID : Bytes) : List Bytes → Bytes
  | [] => []
  | tid :: rest =>
    let tenantID := if (orgsByTenant.orgs tid).any fun o => o.id = orgID then tid else []
    if tenantID ≠ [] then tenantID else tenantOfOrg orgsByTenant orgID rest

/-- `buildSiteTenantMap`, first loop: the attached sites. -/
def attributeSiteOrgs (orgsByTenant : OrgsByTenant) : List SiteOrg → Names → Migration Names
  | [], m => .done m
  | so :: rest, m =>
    .call (.rangeMap (orgsByTenant.rows.map Prod.fst)) fun tids =>
      let tenantID := tenantOfOrg orgsByTenant so.orgID tids
      attributeSiteOrgs orgsByTenant rest
        (if tenantID = [] then m else m.put (so.site, tenantID))

def soleTenant : List Tenant → Option Tenant
  | [t] => some t
  | _ => none

/-- Second loop: the sites of the assets, which a single tenant owns. -/
def attributeAssets (tenants : List Tenant) :
    List Bytes → List Bytes → Names → Except MigrateError Names
  | [], _, m => .ok m
  | path :: rest, seen, m =>
    let s := firstPathSegment path
    if s = [] || seen.contains s then attributeAssets tenants rest seen m
    else if (m.find s).isSome then attributeAssets tenants rest (s :: seen) m
    else match soleTenant tenants with
      | some t => attributeAssets tenants rest (s :: seen) (m.put (s, t.id))
      | none => .error (.noAttribution s tenants.length)

def buildSiteTenantMap (tenants : List Tenant) (assets : List Bytes) (siteOrgs : List SiteOrg)
    (orgsByTenant : OrgsByTenant) : Migration (Except MigrateError Names) := do
  let m ← attributeSiteOrgs orgsByTenant siteOrgs .empty
  return attributeAssets tenants assets [] m

/-! ### The passes -/

def listOrgsOf : List Tenant → OrgsByTenant → Migration (Except MigrateError OrgsByTenant)
  | [], m => .done (.ok m)
  | t :: rest, m =>
    .call (.listOrgs t.id) fun
      | .error e => .done (.error (.listOrgs t.id e))
      | .ok orgs => listOrgsOf rest (m.put (t.id, orgs))

/-- Pass 1: a `default` organisation for every tenant. -/
def ensureDefaultOrgs (principal : Bytes) (orgsByTenant : OrgsByTenant) :
    List Tenant → MigrateReport → Names → Migration (MigrateReport × Except MigrateError Names)
  | [], rep, defaultOrgID => .done (rep, .ok defaultOrgID)
  | t :: rest, rep, defaultOrgID =>
    .call (.createOrg t.id defaultOrgName principal) fun
      | .ok org =>
        ensureDefaultOrgs principal orgsByTenant rest
          { rep with orgsEnsured := rep.orgsEnsured + 1 } (defaultOrgID.put (t.id, org.id))
      | .error e =>
        if e.sentinel = some .orgNameConflict then
          let rep := { rep with orgsAlready := rep.orgsAlready + 1 }
          match (orgsByTenant.orgs t.id).find? fun o => o.name = defaultOrgName with
          | some org =>
            ensureDefaultOrgs principal orgsByTenant rest rep
              (defaultOrgID.put (t.id, org.id))
          | none => .done (rep, .error (.orgNotVisible t.id))
        else .done (rep, .error (.createOrg t.id e))

/-- Pass 2: every attributed site, to the `default` organisation of its tenant. -/
def attachSites (principal : Bytes) (sites defaultOrgID : Names) (siteOrgs : List SiteOrg) :
    List Bytes → MigrateReport → Migration (MigrateReport × Except MigrateError Unit)
  | [], rep => .done (rep, .ok ())
  | site :: rest, rep =>
    let tenantID := (sites.find site).getD []
    match defaultOrgID.find tenantID with
    | none => .done (rep, .error (.noDefaultOrg site tenantID))
    | some orgID =>
      if siteOrgs.any fun so => so.site = site && so.orgID = orgID then
        attachSites principal sites defaultOrgID siteOrgs rest
          { rep with sitesAlready := rep.sitesAlready + 1 }
      else
        .call (.attachSiteToOrg site orgID principal) fun
          | .error e => .done (rep, .error (.attachSite site orgID e))
          | .ok () =>
            attachSites principal sites defaultOrgID siteOrgs rest
              { rep with sitesAttached := rep.sitesAttached + 1 }

/-- What pass 3 does with a row. -/
inductive Plan where
  | skipCRN
  | skipNoSite
  | unchanged
  | rewrite (newScope : Bytes)
deriving DecidableEq, Repr

def planFor (sites : Names) (rb : RoleBinding) : Plan :=
  if rb.origin = "crn" then .skipCRN
  else match (legacyScopeSite rb.scope).bind sites.find with
    | none => .skipNoSite
    | some tenantID =>
      let newScope := (legacyToCRN rb.scope tenantID).toString
      if rb.scope = newScope then .unchanged else .rewrite newScope

/-- The new row goes in before the old one is taken out. -/
def rewriteRow (rb : RoleBinding) (newScope : Bytes) :
    Migration (Except MigrateError RewriteDiff) :=
  .call .newRoleBindingID fun id =>
  .call .now fun updatedAt =>
  .call (.putRoleBinding ⟨id, rb.subject, newScope, "crn", rb.createdAt, updatedAt⟩) fun
    | .error e => .done (.error (.putRoleBinding rb.subject e))
    | .ok () =>
      .call (.deleteRoleBinding rb.subject rb.scope) fun
        | .error e => .done (.error (.deleteRoleBinding rb.subject rb.scope e))
        | .ok () =>
          .call (.recordRewrite rb.subject rb.scope newScope) fun
            | .error e => .done (.error (.auditSink e))
            | .ok () => .call .now fun ts => .done (.ok ⟨ts, rb.subject, rb.scope, newScope⟩)

/-- Pass 3: the role bindings. -/
def rewriteRows (sites : Names) :
    List RoleBinding → MigrateReport → Migration (MigrateReport × Except MigrateError Unit)
  | [], rep => .done (rep, .ok ())
  | rb :: rest, rep =>
    match planFor sites rb with
    | .skipCRN => rewriteRows sites rest { rep with rbSkippedCRN := rep.rbSkippedCRN + 1 }
    | .skipNoSite =>
      rewriteRows sites rest { rep with rbSkippedNoSite := rep.rbSkippedNoSite + 1 }
    | .unchanged => rewriteRows sites rest rep
    | .rewrite newScope => do
      match ← rewriteRow rb newScope with
      | .error e => return (rep, .error e)
      | .ok d =>
        rewriteRows sites rest
          { rep with rbRewritten := rep.rbRewritten + 1, diffs := rep.diffs ++ [d] }

/-! ### The whole -/

structure Snapshot where
  tenants : List Tenant
  orgsByTenant : OrgsByTenant
  siteOrgs : List SiteOrg
  sites : Names

/-- The reads, and the attribution of sites to tenants. -/
def takeSnapshot : Migration (MigrateReport × Except MigrateError Snapshot) :=
  .call .listTenants fun
    | .error e => .done (.zero, .error (.listTenants e))
    | .ok tenants => do
      let rep := { MigrateReport.zero with tenantsSeen := tenants.length }
      match ← listOrgsOf tenants .empty with
      | .error e => return (rep, .error e)
      | .ok orgsByTenant =>
        .call .listAssets fun
          | .error e => .done (rep, .error (.listAssets e))
          | .ok assets =>
            .call .listSiteOrgs fun
              | .error e => .done (rep, .error (.listSiteOrgs e))
              | .ok siteOrgs => do
                match ← buildSiteTenantMap tenants assets siteOrgs orgsByTenant with
                | .error e => return (rep, .error e)
                | .ok sites => return (rep, .ok ⟨tenants, orgsByTenant, siteOrgs, sites⟩)

def rewriteBindings (sites : Names) (rep : MigrateReport) :
    Migration (MigrateReport × Except MigrateError Unit) :=
  .call .listAllRoleBindings fun
    | .error e => .done (rep, .error (.listRoleBindings e))
    | .ok bindings => rewriteRows sites bindings { rep with rbTotal := bindings.length }

def applySnapshot (principal : Bytes) (sn : Snapshot) (rep : MigrateReport) :
    Migration (MigrateReport × Except MigrateError Unit) := do
  match ← ensureDefaultOrgs principal sn.orgsByTenant sn.tenants rep .empty with
  | (rep, .error e) => return (rep, .error e)
  | (rep, .ok defaultOrgID) =>
    .call (.rangeMap (sn.sites.rows.map Prod.fst)) fun order => do
      match ← attachSites principal sn.sites defaultOrgID sn.siteOrgs order rep with
      | (rep, .error e) => return (rep, .error e)
      | (rep, .ok ()) => rewriteBindings sn.sites rep

def migrateV11 (sinkGiven : Bool) (principal : Bytes) :
    Migration (MigrateReport × Except MigrateError Unit) :=
  if !sinkGiven then .done (.zero, .error .nilSink)
  else do
    let principal := if principal = [] then lit "system:migrate-v11" else principal
    match ← takeSnapshot with
    | (rep, .error e) => return (rep, .error e)
    | (rep, .ok sn) => applySnapshot principal sn rep

end Cios.Migrate
