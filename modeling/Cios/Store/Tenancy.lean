import Cios.Support.Table

/-!
# Store — tenants, organisations, sites and role bindings

The tenancy half of the `Store` interface (`core/store.go`): its records, its errors, its methods as
calls with typed answers, and the checks its implementations share.
-/

namespace Cios.Store
open Text

/-! ### Records -/

structure Tenant where
  id : Bytes
  displayName : Bytes
  isolationTier : Bytes
  status : Bytes
  createdAt : Int
  updatedAt : Int
deriving DecidableEq, Repr

structure Org where
  id : Bytes
  tenantID : Bytes
  name : Bytes
  createdAt : Int
deriving DecidableEq, Repr

structure SiteOrg where
  site : Bytes
  orgID : Bytes
  createdAt : Int
  updatedAt : Int
deriving DecidableEq, Repr

structure RoleBinding where
  id : Bytes
  subject : Bytes
  scope : Bytes
  origin : Bytes
  createdAt : Int
  updatedAt : Int
deriving DecidableEq, Repr

/-- What a binding grants; a store holds each grant once. -/
def RoleBinding.grant (rb : RoleBinding) : Bytes × Bytes := (rb.subject, rb.scope)

structure TenantAudit where
  id : Bytes
  ts : Int
  principal : Bytes
  tenantID : Bytes
  op : Bytes
  detail : Bytes
deriving DecidableEq, Repr

/-! ### Errors -/

/-- The errors that callers compare by identity. -/
inductive Sentinel where
  | tierDowngrade
  | tierValidation
  | orgNameConflict
  | orgOwnsResources
  | tenantExists
  | tenantOwnsOrgs
  | siteSlug
  | siteOrgNotFound
  | versionConflict
  | hasChildren
  | alarmNotAckable
  | insufficientStock
  | skuExists
  | duplicateActiveTicket
  | usagePGNotImplemented
deriving DecidableEq, Repr

def Sentinel.text : Sentinel → Bytes
  | .tierDowngrade => "core: isolation_tier downgrade refused"
  | .tierValidation => "core: invalid isolation_tier"
  | .orgNameConflict => "core: org name already exists in tenant"
  | .orgOwnsResources => "core: org owns resources"
  | .tenantExists => "core: tenant already exists"
  | .tenantOwnsOrgs => "core: tenant owns orgs"
  | .siteSlug => "core: invalid site slug"
  | .siteOrgNotFound => "core: attach site to org: not found"
  | .versionConflict => "core: resource version conflict"
  | .hasChildren => "core: asset has children"
  | .alarmNotAckable => "core: alarm not in firing state"
  | .insufficientStock => "core: insufficient stock"
  | .skuExists => "core: sku already exists"
  | .duplicateActiveTicket => "core: duplicate active ticket for alarm_id"
  | .usagePGNotImplemented => "core: usage: postgres backend not implemented"

/-- An error: its text, and which of the compared ones it is, if any. -/
structure StoreError where
  sentinel : Option Sentinel
  text : Bytes
deriving DecidableEq, Repr

instance : Coe Sentinel StoreError := ⟨fun s => ⟨some s, s.text⟩⟩

def StoreError.plain (text : Bytes) : StoreError := ⟨none, text⟩

/-! ### The interface -/

/-- The tenancy methods of `Store`, with their arguments. -/
inductive Call where
  | getTenant (id : Bytes)
  | listTenants
  | createTenant (id displayName principal : Bytes)
  | getOrg (id : Bytes)
  | listOrgs (tenantID : Bytes)
  | listOrgsAll
  | createOrg (tenantID name principal : Bytes)
  | renameOrg (id newName principal : Bytes)
  | deleteOrg (id principal : Bytes)
  | updateTenantTier (id target principal : Bytes)
  | getSiteOrg (site : Bytes)
  | listSiteOrgs
  | attachSiteToOrg (site orgID principal : Bytes)
  | detachSiteFromOrg (site principal : Bytes)
  | deleteTenant (id principal : Bytes)
  | putRoleBinding (rb : RoleBinding)
  | listRoleBindings (subject : Bytes)
  | listAllRoleBindings
  | deleteRoleBinding (subject scope : Bytes)

/-- What a call answers. -/
abbrev Call.Ret : Call → Type
  | .getTenant _ => Except StoreError (Option Tenant)
  | .listTenants => Except StoreError (List Tenant)
  | .createTenant _ _ _ => Except StoreError (Tenant × Org)
  | .getOrg _ => Except StoreError (Option Org)
  | .listOrgs _ => Except StoreError (List Org)
  | .listOrgsAll => Except StoreError (Bytes → List Org)
  | .createOrg _ _ _ => Except StoreError Org
  | .renameOrg _ _ _ => Except StoreError Unit
  | .deleteOrg _ _ => Except StoreError Unit
  | .updateTenantTier _ _ _ => Except StoreError Unit
  | .getSiteOrg _ => Except StoreError (Option SiteOrg)
  | .listSiteOrgs => Except StoreError (List SiteOrg)
  | .attachSiteToOrg _ _ _ => Except StoreError Unit
  | .detachSiteFromOrg _ _ => Except StoreError Unit
  | .deleteTenant _ _ => Except StoreError Unit
  | .putRoleBinding _ => Except StoreError Unit
  | .listRoleBindings _ => Except StoreError (List RoleBinding)
  | .listAllRoleBindings => Except StoreError (List RoleBinding)
  | .deleteRoleBinding _ _ => Except StoreError Unit

/-- The methods that may change what is stored. -/
def Call.mutates : Call → Bool
  | .createTenant _ _ _ | .createOrg _ _ _ | .renameOrg _ _ _ | .deleteOrg _ _
  | .updateTenantTier _ _ _ | .attachSiteToOrg _ _ _ | .detachSiteFromOrg _ _
  | .deleteTenant _ _ | .putRoleBinding _ | .deleteRoleBinding _ _ => true
  | _ => false

/-! ### Checks -/

/-- `[a-z][a-z0-9-]{1,30}`. -/
def validTenantSlug : Bytes → Bool
  | [] => false
  | c :: s => 1 ≤ s.length && s.length ≤ 30 && isLower c && s.all fun d => isAlnum d || d == '-'

/-- `[a-z]{2,8}[0-9]{2}`, not ending in `00`. -/
def validSiteSlug (s : Bytes) : Bool :=
  4 ≤ s.length && s.length ≤ 10 &&
    ((s.drop (s.length - 2)).all isDigit && s.drop (s.length - 2) != "00" &&
      (s.take (s.length - 2)).all isLower)

def tenantTierRank (tier : Bytes) : Option Nat :=
  if tier = "label" then some 0 else if tier = "row" then some 1
  else if tier = "db" then some 2 else none

def defaultOrgName : Bytes := "default"

end Cios.Store
