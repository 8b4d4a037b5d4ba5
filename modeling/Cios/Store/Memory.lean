import Cios.Store.FileStore
import Cios.Store.Operations
import Cios.Support.Undo

/-!
# Store — the file store in memory

`fileStore` (`core/store.go`) as it is held in memory: maps by id, and slices for what is only
appended to.  Every mutator checks, changes the memory, and saves; when the save fails it undoes the
change by hand.  An `Attempt` is what such a call comes to.
-/

namespace Cios.Store
open Text
open Cios.Control (SetAudit)
open Undo (Field restore)

abbrev Map (α : Type) := Std.ExtTreeMap Bytes α compare

/-- The assets, each under its own path: `load` and every mutator put them there. -/
structure AssetMap (V : Type) where
  rows : Map (Asset V)
  keyed : ∀ (p : Bytes) (a : Asset V), rows[p]? = some a → a.path = p

namespace AssetMap

variable {V : Type} (m : AssetMap V)

def get (path : Bytes) : Option (Asset V) := m.rows[path]?

def put (a : Asset V) : AssetMap V where
  rows := m.rows.insert a.path a
  keyed := by
    intro p b hb
    rw [Undo.get_insert] at hb
    split at hb
    · rename_i hk
      obtain rfl := Option.some.inj hb
      exact hk.symm
    · exact m.keyed p b hb

def erase (path : Bytes) : AssetMap V where
  rows := m.rows.erase path
  keyed := by
    intro p b hb
    rw [Std.ExtTreeMap.getElem?_erase] at hb
    split at hb
    · cases hb
    · exact m.keyed p b hb

def putAll (as : List (Asset V)) : AssetMap V := as.foldl put m

def eraseAll (as : List (Asset V)) : AssetMap V :=
  as.foldl (fun m a => m.erase a.path) m

end AssetMap

structure Memory (V : Type) where
  assets : AssetMap V
  alarms : Map Alarm
  tickets : Map Ticket
  pmSchedules : Map PMSchedule
  audits : List AssetAudit
  spares : Map SparePart
  spareTxns : List SpareTxn
  inspections : Map InspectionTemplate
  notes : List TicketNote
  ticketAuds : List TicketAudit
  setAudits : List (SetAudit V)
  mwWindows : Map MaintenanceWindow
  tenants : Map Tenant
  orgs : Map Org
  tenantAuds : List TenantAudit
  siteOrgs : Map SiteOrg
  roleBindings : List RoleBinding
  usages : Map (UsageRecord V)

def Memory.empty {V : Type} : Memory V :=
  ⟨⟨∅, by simp⟩, ∅, ∅, ∅, [], ∅, [], ∅, [], [], [], ∅, ∅, ∅, [], ∅, [], ∅⟩

/-- What the operational methods draw besides.  `usageOrder` is the undetermined order of a loop
over usage records. -/
structure WorkAmbient extends Ambient where
  newSpareTxnID : Bytes
  newUsageID : Bytes
  usageOrder : List Bytes
  rfc3339Nano : Int → Bytes

/-! ### Answers and attempts -/

/-- An error, and the value next to it where that is not the zero value. -/
structure Failure (α : Type) where
  error : StoreError
  value : Option α

abbrev Answer (α : Type) := Except (Failure α) α

def refuse {α : Type} (e : StoreError) : Answer α := .error ⟨e, none⟩

/-- The error of a failed save, behind `text`. -/
def saveError {α : Type} (text e : Bytes) : Answer α := refuse (.plain (text ++ e))

/-- What a mutator comes to. -/
inductive Attempt (V α : Type) where
  | done (r : Answer α)
  | save (next : Memory V) (ok : Answer α) (undo : Memory V → Memory V) (failed : Bytes → Answer α)

/-- The call, with the error of the save if it fails. -/
def Attempt.run {V α : Type} (a : Attempt V α) (save : Option Bytes) (m : Memory V) :
    Answer α × Memory V :=
  match a, save with
  | .done r, _ => (r, m)
  | .save next ok _ _, none => (ok, next)
  | .save next _ undo failed, some e => (failed e, undo next)

def Attempt.saves {V α : Type} : Attempt V α → Bool
  | .done _ => false
  | .save _ _ _ _ => true

namespace Memory

variable {V : Type}

/-! ### Families -/

def pmSchedulesF : Field (Memory V) (Map PMSchedule) :=
  ⟨pmSchedules, fun m x => { m with pmSchedules := x }, fun _ _ _ => rfl, fun _ _ => rfl,
    fun _ => rfl⟩

def sparesF : Field (Memory V) (Map SparePart) :=
  ⟨spares, fun m x => { m with spares := x }, fun _ _ _ => rfl, fun _ _ => rfl, fun _ => rfl⟩

def inspectionsF : Field (Memory V) (Map InspectionTemplate) :=
  ⟨inspections, fun m x => { m with inspections := x }, fun _ _ _ => rfl, fun _ _ => rfl,
    fun _ => rfl⟩

def mwWindowsF : Field (Memory V) (Map MaintenanceWindow) :=
  ⟨mwWindows, fun m x => { m with mwWindows := x }, fun _ _ _ => rfl, fun _ _ => rfl, fun _ => rfl⟩

def usagesF : Field (Memory V) (Map (UsageRecord V)) :=
  ⟨usages, fun m x => { m with usages := x }, fun _ _ _ => rfl, fun _ _ => rfl, fun _ => rfl⟩

def auditsF : Field (Memory V) (List AssetAudit) :=
  ⟨audits, fun m x => { m with audits := x }, fun _ _ _ => rfl, fun _ _ => rfl, fun _ => rfl⟩

def notesF : Field (Memory V) (List TicketNote) :=
  ⟨notes, fun m x => { m with notes := x }, fun _ _ _ => rfl, fun _ _ => rfl, fun _ => rfl⟩

def ticketAudsF : Field (Memory V) (List TicketAudit) :=
  ⟨ticketAuds, fun m x => { m with ticketAuds := x }, fun _ _ _ => rfl, fun _ _ => rfl,
    fun _ => rfl⟩

def setAuditsF : Field (Memory V) (List (SetAudit V)) :=
  ⟨setAudits, fun m x => { m with setAudits := x }, fun _ _ _ => rfl, fun _ _ => rfl, fun _ => rfl⟩

def tenantAudsF : Field (Memory V) (List TenantAudit) :=
  ⟨tenantAuds, fun m x => { m with tenantAuds := x }, fun _ _ _ => rfl, fun _ _ => rfl,
    fun _ => rfl⟩

/-- Put a row; a failed save puts back the one before it, or deletes it. -/
def upsertIn {α β : Type} (F : Field (Memory V) (Map α)) (m : Memory V) (id : Bytes) (row : α)
    (ok : β) : Attempt V β :=
  .save (F.set m ((F.get m).insert id row)) (.ok ok)
    (fun m' => F.set m' (restore (F.get m') id (F.get m)[id]?)) (saveError [])

/-- Append a row; a failed save cuts the slice back to its length before. -/
def appendTo {α : Type} (F : Field (Memory V) (List α)) (m : Memory V) (row : α) :
    Attempt V Unit :=
  .save (F.set m (F.get m ++ [row])) (.ok ())
    (fun m' => F.set m' ((F.get m').take (F.get m).length)) (saveError [])

/-! ### Assets and alarms -/

variable (amb : WorkAmbient) (m : Memory V)

def putAsset (a : Asset V) (expectVersion : Int) : Attempt V (Asset V) :=
  match m.assets.get a.path with
  | some cur =>
    if expectVersion > 0 ∧ cur.resourceVersion ≠ expectVersion then
      .done (.error ⟨Sentinel.versionConflict, some cur⟩)
    else
      let next := { cur with
        spec := a.spec, resourceVersion := cur.resourceVersion + 1, updatedAt := amb.now }
      .save { m with assets := m.assets.put next } (.ok next)
        (fun m' => { m' with assets := m'.assets.put cur }) (saveError [])
  | none =>
    if expectVersion > 0 then .done (refuse Sentinel.versionConflict)
    else
      let row := { a with resourceVersion := 1, createdAt := amb.now, updatedAt := amb.now }
      .save { m with assets := m.assets.put row } (.ok row)
        (fun m' => { m' with assets := m'.assets.erase a.path }) (saveError [])

/-- The assets below a path, by path. -/
def hasChildren (path : Bytes) : List (Asset V) :=
  FileStore.sortBy Asset.path
    ((m.assets.rows.toList.filter fun kv => (path ++ lit ".").isPrefixOf kv.1).map Prod.snd)

def deleteAsset (path : Bytes) (cascade : Bool) : Attempt V Nat :=
  let existing := m.assets.get path
  let kids := m.hasChildren path
  if existing.isNone = true ∧ kids.isEmpty = true then .done (.ok 0)
  else if kids.isEmpty = false ∧ cascade = false then
    .done (.error ⟨Sentinel.hasChildren, some kids.length⟩)
  else
    let prevAssets := existing.toList ++ kids
    .save { m with assets := m.assets.eraseAll prevAssets } (.ok prevAssets.length)
      (fun m' => { m' with assets := m'.assets.putAll prevAssets }) (saveError [])

/-- One turn of the loop of `SeedAlarms`: an alarm that is there keeps its `Since`. -/
def seedAlarm (alarms : Map Alarm) (a : Alarm) : Map Alarm :=
  match alarms[a.id]? with
  | some prev => alarms.insert a.id
      { prev with severity := a.severity, state := a.state, summary := a.summary, path := a.path }
  | none => alarms.insert a.id a

/-- The only thing done about a failed save is to return its error. -/
def seedAlarms (rows : List Alarm) : Attempt V Unit :=
  .save { m with alarms := rows.foldl seedAlarm m.alarms } (.ok ()) id (saveError [])

/-- As `SeedAlarms`; the alarm is answered as found next to the error. -/
def ackAlarm (id actor : Bytes) : Attempt V (Option Alarm × Bool) :=
  match m.alarms[id]? with
  | none => .done (.ok (none, false))
  | some a =>
    if a.state ≠ "firing" then .done (.error ⟨Sentinel.alarmNotAckable, some (some a, true)⟩)
    else
      let acked := { a with state := "acked", ackedBy := actor, ackedAt := some amb.now }
      .save { m with alarms := m.alarms.insert id acked } (.ok (some acked, true)) (fun m' => m')
        (fun e => .error ⟨.plain e, some (none, true)⟩)

/-! ### Tickets -/

def putTicket (t : Ticket) (expectVersion : Int) : Attempt V Ticket :=
  if t.alarmID ≠ [] ∧ t.state ≠ "closed" ∧ (m.tickets.toList.any fun kv =>
      kv.1 ≠ t.id && kv.2.alarmID = t.alarmID && kv.2.state ≠ "closed") then
    .done (refuse Sentinel.duplicateActiveTicket)
  else match m.tickets[t.id]? with
    | some cur =>
      if expectVersion > 0 ∧ cur.resourceVersion ≠ expectVersion then
        .done (.error ⟨Sentinel.versionConflict, some cur⟩)
      else
        let row := { t with resourceVersion := cur.resourceVersion + 1 }
        .save { m with tickets := m.tickets.insert t.id row } (.ok row)
          (fun m' => { m' with tickets := m'.tickets.insert t.id cur }) (saveError [])
    | none =>
      if expectVersion > 0 then .done (refuse Sentinel.versionConflict)
      else
        let row := { t with resourceVersion := 1 }
        .save { m with tickets := m.tickets.insert t.id row } (.ok row)
          (fun m' => { m' with tickets := m'.tickets.erase t.id }) (saveError [])

def updateTicketAssignee (ticketID assignee : Bytes) : Attempt V (Option Ticket) :=
  match m.tickets[ticketID]? with
  | none => .done (.ok none)
  | some cur =>
    let row := { cur with assignee := assignee }
    .save { m with tickets := m.tickets.insert ticketID row } (.ok (some row))
      (fun m' => { m' with tickets := m'.tickets.insert ticketID cur }) (saveError [])

def appendTicketNote (n : TicketNote) : Attempt V Unit := appendTo notesF m n

def appendTicketAudit (a : TicketAudit) : Attempt V Unit := appendTo ticketAudsF m a

/-! ### Upkeep -/

def putPMSchedule (p : PMSchedule) : Attempt V Unit := upsertIn pmSchedulesF m p.id p ()

def appendAssetAudit (a : AssetAudit) : Attempt V Unit := appendTo auditsF m a

def putSpare (sp : SparePart) : Attempt V Unit :=
  if m.spares.toList.any fun kv => kv.1 ≠ sp.id && kv.2.sku = sp.sku then
    .done (refuse Sentinel.skuExists)
  else upsertIn sparesF m sp.id sp ()

def adjustSpare (id : Bytes) (delta : Int) (ticketID : Bytes) (time : Int) :
    Attempt V (SparePart × SpareTxn) :=
  match m.spares[id]? with
  | none => .done (refuse (.plain "core: adjust spare: not found"))
  | some sp =>
    -- An `int` sum, which wraps around at 64 bits.
    let newQty := (sp.qty + delta).bmod (2 ^ 64)
    if delta = 0 then .done (refuse (.plain "core: adjust spare: delta must be non-zero"))
    else if newQty < 0 then .done (refuse Sentinel.insufficientStock)
    else
      let row := { sp with qty := newQty }
      let txn : SpareTxn := ⟨amb.newSpareTxnID, id, delta, ticketID, time⟩
      .save { m with spares := m.spares.insert id row, spareTxns := m.spareTxns ++ [txn] }
        (.ok (row, txn))
        (fun m' => { m' with
          spares := m'.spares.insert id sp
          spareTxns := m'.spareTxns.take m.spareTxns.length })
        (saveError [])

def putInspectionTemplate (it : InspectionTemplate) : Attempt V Unit :=
  upsertIn inspectionsF m it.id it ()

def appendSetAudit (a : SetAudit V) : Attempt V Unit := appendTo setAuditsF m a

def putMaintenanceWindow (w : MaintenanceWindow) : Attempt V Unit := upsertIn mwWindowsF m w.id w ()

def deleteMaintenanceWindow (id : Bytes) : Attempt V Bool :=
  match m.mwWindows[id]? with
  | none => .done (.ok false)
  | some prev =>
    .save { m with mwWindows := m.mwWindows.erase id } (.ok true)
      (fun m' => { m' with mwWindows := m'.mwWindows.insert id prev }) (saveError [])

/-! ### Tenants and organisations -/

def audit (principal tenantID op detail : Bytes) : TenantAudit :=
  ⟨amb.newTenantAuditID, amb.now, principal, tenantID, op, detail⟩

/-- The save fails: the rows under the tenant's id and the drawn id are deleted. -/
def createTenant (id displayName principal : Bytes) : Attempt V (Tenant × Org) :=
  let id := trimSpace id
  let displayName := trimSpace displayName
  if !validTenantSlug id then .done (refuse (.plain "core: create tenant: invalid slug"))
  else if displayName = [] then .done (refuse (.plain "core: create tenant: display_name required"))
  else if m.tenants[id]?.isSome then .done (refuse Sentinel.tenantExists)
  else
    let t : Tenant := ⟨id, displayName, "label", "active", amb.now, amb.now⟩
    let o : Org := ⟨amb.newOrgID, id, defaultOrgName, amb.now⟩
    let created := audit amb principal id "tenant_create" displayName
    let orgCreated : TenantAudit := ⟨amb.newTenantAuditID', amb.now, principal, id, "org_create",
      o.id ++ lit ":" ++ o.name⟩
    .save
      { m with
        tenants := m.tenants.insert id t
        orgs := m.orgs.insert o.id o
        tenantAuds := m.tenantAuds ++ [created, orgCreated] }
      (.ok (t, o))
      (fun m' => { m' with
        tenants := m'.tenants.erase id
        orgs := m'.orgs.erase o.id
        tenantAuds := m'.tenantAuds.take m.tenantAuds.length })
      (saveError "core: create tenant: save: ")

def createOrg (tenantID name principal : Bytes) : Attempt V Org :=
  if !validTenantSlug name then .done (refuse (.plain "core: create org: invalid slug"))
  else if m.tenants[tenantID]?.isNone then
    .done (refuse (.plain "core: create org: tenant not found"))
  else if m.orgs.toList.any fun kv => kv.2.tenantID = tenantID && kv.2.name = name then
    .done (refuse Sentinel.orgNameConflict)
  else
    let o : Org := ⟨amb.newOrgID, tenantID, name, amb.now⟩
    .save
      { m with
        orgs := m.orgs.insert o.id o
        tenantAuds := m.tenantAuds ++
          [audit amb principal tenantID "org_create" (o.id ++ lit ":" ++ name)] }
      (.ok o)
      (fun m' => { m' with
        orgs := m'.orgs.erase o.id
        tenantAuds := m'.tenantAuds.take m.tenantAuds.length })
      (saveError "core: create org: save: ")

def renameOrg (id newName principal : Bytes) : Attempt V Unit :=
  if !validTenantSlug newName then .done (refuse (.plain "core: rename org: invalid slug"))
  else match m.orgs[id]? with
    | none => .done (refuse (.plain "core: rename org: not found"))
    | some prev =>
      if prev.name = newName then .done (.ok ())
      else if m.orgs.toList.any fun kv =>
          kv.2.tenantID = prev.tenantID && kv.2.name = newName && kv.2.id ≠ id then
        .done (refuse Sentinel.orgNameConflict)
      else
        .save
          { m with
            orgs := m.orgs.insert id { prev with name := newName }
            tenantAuds := m.tenantAuds ++ [audit amb principal prev.tenantID "org_rename"
              (prev.name ++ lit "→" ++ newName)] }
          (.ok ())
          (fun m' => { m' with
            orgs := m'.orgs.insert id prev
            tenantAuds := m'.tenantAuds.take m.tenantAuds.length })
          (saveError "core: rename org: save: ")

def deleteOrg (id principal : Bytes) : Attempt V Unit :=
  match m.orgs[id]? with
  | none => .done (refuse (.plain "core: delete org: not found"))
  | some prev =>
    if m.siteOrgs.toList.any fun kv => kv.2.orgID = id then
      .done (refuse Sentinel.orgOwnsResources)
    else
      .save
        { m with
          orgs := m.orgs.erase id
          tenantAuds := m.tenantAuds ++
            [audit amb principal prev.tenantID "org_delete" prev.name] }
        (.ok ())
        (fun m' => { m' with
          orgs := m'.orgs.insert id prev
          tenantAuds := m'.tenantAuds.take m.tenantAuds.length })
        (saveError "core: delete org: save: ")

def updateTenantTier (id target principal : Bytes) : Attempt V Unit :=
  match tenantTierRank target with
  | none => .done (refuse Sentinel.tierValidation)
  | some targetRank =>
    match m.tenants[id]? with
    | none => .done (refuse (.plain "core: update tenant tier: not found"))
    | some t =>
      match tenantTierRank t.isolationTier with
      | none => .done (refuse (.plain "core: update tenant tier: not found"))
      | some curRank =>
        let change := t.isolationTier ++ lit "→" ++ target
        if targetRank = curRank then .done (.ok ())
        else if targetRank < curRank then
          -- the refusal is recorded, and answered when that is saved
          .save
            { m with
              tenantAuds := m.tenantAuds ++
                [audit amb principal id "tier_change" (change ++ lit " REFUSED")] }
            (refuse Sentinel.tierDowngrade)
            (fun m' => { m' with tenantAuds := m'.tenantAuds.take m.tenantAuds.length })
            (saveError [])
        else
          .save
            { m with
              tenants := m.tenants.insert id
                { t with isolationTier := target, updatedAt := amb.now }
              tenantAuds := m.tenantAuds ++ [audit amb principal id "tier_change" change] }
            (.ok ())
            (fun m' => { m' with
              tenants := m'.tenants.insert id t
              tenantAuds := m'.tenantAuds.take m.tenantAuds.length })
            (saveError [])

def appendTenantAudit (a : TenantAudit) : Attempt V Unit := appendTo tenantAudsF m a

def attachSiteToOrg (site orgID principal : Bytes) : Attempt V Unit :=
  if !validSiteSlug site then .done (refuse Sentinel.siteSlug)
  else match m.orgs[orgID]? with
    | none => .done (refuse Sentinel.siteOrgNotFound)
    | some o =>
      let write := fun (createdAt : Int) (detail : Bytes) =>
        Attempt.save
          { m with
            siteOrgs := m.siteOrgs.insert site ⟨site, orgID, createdAt, amb.now⟩
            tenantAuds := m.tenantAuds ++
              [audit amb principal o.tenantID "org_reattach" detail] }
          (.ok ())
          (fun m' => { m' with
            siteOrgs := restore m'.siteOrgs site m.siteOrgs[site]?
            tenantAuds := m'.tenantAuds.take m.tenantAuds.length })
          (saveError [])
      match m.siteOrgs[site]? with
      | some cur =>
        if cur.orgID = orgID then .done (.ok ())
        else write cur.createdAt (site ++ lit ": " ++ cur.orgID ++ lit "→" ++ orgID)
      | none => write amb.now (site ++ lit "→" ++ orgID)

def detachSiteFromOrg (site principal : Bytes) : Attempt V Unit :=
  match m.siteOrgs[site]? with
  | none => .done (refuse (.plain "core: detach site from org: not found"))
  | some cur =>
    let tenantID := match m.orgs[cur.orgID]? with
      | some o => o.tenantID
      | none => []
    let auds := if tenantID = [] then [] else
      [audit amb principal tenantID "org_reattach" (site ++ lit ": " ++ cur.orgID ++ lit "→")]
    .save { m with siteOrgs := m.siteOrgs.erase site, tenantAuds := m.tenantAuds ++ auds } (.ok ())
      (fun m' => { m' with
        siteOrgs := m'.siteOrgs.insert site cur
        tenantAuds := m'.tenantAuds.take m.tenantAuds.length })
      (saveError "core: detach site from org: save: ")

def deleteTenant (id principal : Bytes) : Attempt V Unit :=
  match m.tenants[id]? with
  | none => .done (refuse (.plain "core: delete tenant: not found"))
  | some prev =>
    if m.orgs.toList.any fun kv => kv.2.tenantID = id then .done (refuse Sentinel.tenantOwnsOrgs)
    else
      .save
        { m with
          tenants := m.tenants.erase id
          tenantAuds := m.tenantAuds ++ [audit amb principal id "tenant_status" "deleted"] }
        (.ok ())
        (fun m' => { m' with
          tenants := m'.tenants.insert id prev
          tenantAuds := m'.tenantAuds.take m.tenantAuds.length })
        (saveError "core: delete tenant: save: ")

/-! ### Role bindings and usage -/

/-- The first row of a grant, with its index. -/
def findRoleBinding (subject scope : Bytes) : Option (RoleBinding × Nat) :=
  m.roleBindings.zipIdx.find? fun row => row.1.subject = subject && row.1.scope = scope

def putRoleBinding (rb : RoleBinding) : Attempt V Unit :=
  if rb.subject = [] ∨ rb.scope = [] then
    .done (refuse (.plain "core: put role binding: subject and scope required"))
  else
    let origin : Bytes := if rb.origin = [] then "legacy" else rb.origin
    let id := if rb.id = [] then amb.newRoleBindingID else rb.id
    match m.findRoleBinding rb.subject rb.scope with
    | some (existing, i) =>
      let updated := { existing with
        origin := origin
        updatedAt := amb.now
        createdAt := if existing.createdAt = 0 then amb.now else existing.createdAt }
      .save { m with roleBindings := m.roleBindings.set i updated } (.ok ())
        (fun m' => { m' with roleBindings := m'.roleBindings.set i existing }) (saveError [])
    | none =>
      let row : RoleBinding := ⟨id, rb.subject, rb.scope, origin,
        if rb.createdAt = 0 then amb.now else rb.createdAt, amb.now⟩
      .save { m with roleBindings := m.roleBindings ++ [row] } (.ok ())
        (fun m' => { m' with roleBindings := m'.roleBindings.take m.roleBindings.length })
        (saveError [])

def deleteRoleBinding (subject scope : Bytes) : Attempt V Unit :=
  if subject = [] ∨ scope = [] then
    .done (refuse (.plain "core: delete role binding: subject and scope required"))
  else match m.findRoleBinding subject scope with
    | some (existing, i) =>
      .save { m with roleBindings := m.roleBindings.eraseIdx i } (.ok ())
        (fun m' => { m' with
          roleBindings := m'.roleBindings.take i ++ existing :: m'.roleBindings.drop i })
        (saveError [])
    | none => .done (.ok ())

def usageNaturalKey (r : UsageRecord V) : Bytes :=
  r.kind.text ++ lit "|" ++ r.assetPath ++ lit "|" ++ amb.rfc3339Nano r.periodStart ++ lit "|" ++
    amb.rfc3339Nano r.periodEnd ++ lit "|" ++ r.granularity.text

/-- The id a record is stored under: its own, its natural key's, or a new one. -/
def usageID (r : UsageRecord V) : Bytes :=
  if r.id ≠ [] then r.id
  else
    let found := amb.usageOrder.find? fun id =>
      m.usages[id]?.any fun existing => usageNaturalKey amb existing = usageNaturalKey amb r
    match found with
    | some id => if id = [] then amb.newUsageID else id
    | none => amb.newUsageID

def upsertUsage (r : UsageRecord V) : Attempt V (UsageRecord V) :=
  let row := { r with id := usageID amb m r }
  upsertIn usagesF m row.id row row

end Memory

/-! ### The mutators -/

/-- The mutating methods, with their arguments. -/
inductive Mutation (V : Type) where
  | putAsset (a : Asset V) (expectVersion : Int)
  | deleteAsset (path : Bytes) (cascade : Bool)
  | seedAlarms (rows : List Alarm)
  | ackAlarm (id actor : Bytes)
  | putTicket (t : Ticket) (expectVersion : Int)
  | updateTicketAssignee (ticketID assignee : Bytes)
  | appendTicketNote (n : TicketNote)
  | appendTicketAudit (a : TicketAudit)
  | putPMSchedule (p : PMSchedule)
  | appendAssetAudit (a : AssetAudit)
  | putSpare (sp : SparePart)
  | adjustSpare (id : Bytes) (delta : Int) (ticketID : Bytes) (time : Int)
  | putInspectionTemplate (it : InspectionTemplate)
  | appendSetAudit (a : SetAudit V)
  | putMaintenanceWindow (w : MaintenanceWindow)
  | deleteMaintenanceWindow (id : Bytes)
  | createTenant (id displayName principal : Bytes)
  | createOrg (tenantID name principal : Bytes)
  | renameOrg (id newName principal : Bytes)
  | deleteOrg (id principal : Bytes)
  | updateTenantTier (id target principal : Bytes)
  | appendTenantAudit (a : TenantAudit)
  | attachSiteToOrg (site orgID principal : Bytes)
  | detachSiteFromOrg (site principal : Bytes)
  | deleteTenant (id principal : Bytes)
  | putRoleBinding (rb : RoleBinding)
  | deleteRoleBinding (subject scope : Bytes)
  | upsertUsage (r : UsageRecord V)

/-- What a mutator answers next to its error. -/
abbrev Mutation.Val {V : Type} : Mutation V → Type
  | .putAsset _ _ => Asset V
  | .deleteAsset _ _ => Nat
  | .ackAlarm _ _ => Option Alarm × Bool
  | .putTicket _ _ => Ticket
  | .updateTicketAssignee _ _ => Option Ticket
  | .adjustSpare _ _ _ _ => SparePart × SpareTxn
  | .deleteMaintenanceWindow _ => Bool
  | .createTenant _ _ _ => Tenant × Org
  | .createOrg _ _ _ => Org
  | .upsertUsage _ => UsageRecord V
  | _ => Unit

def Memory.perform {V : Type} (amb : WorkAmbient) (m : Memory V) :
    (c : Mutation V) → Attempt V c.Val
  | .putAsset a v => m.putAsset amb a v
  | .deleteAsset path cascade => m.deleteAsset path cascade
  | .seedAlarms rows => m.seedAlarms rows
  | .ackAlarm id actor => m.ackAlarm amb id actor
  | .putTicket t v => m.putTicket t v
  | .updateTicketAssignee id assignee => m.updateTicketAssignee id assignee
  | .appendTicketNote n => m.appendTicketNote n
  | .appendTicketAudit a => m.appendTicketAudit a
  | .putPMSchedule p => m.putPMSchedule p
  | .appendAssetAudit a => m.appendAssetAudit a
  | .putSpare sp => m.putSpare sp
  | .adjustSpare id delta ticketID time => m.adjustSpare amb id delta ticketID time
  | .putInspectionTemplate it => m.putInspectionTemplate it
  | .appendSetAudit a => m.appendSetAudit a
  | .putMaintenanceWindow w => m.putMaintenanceWindow w
  | .deleteMaintenanceWindow id => m.deleteMaintenanceWindow id
  | .createTenant id name p => m.createTenant amb id name p
  | .createOrg t name p => m.createOrg amb t name p
  | .renameOrg id name p => m.renameOrg amb id name p
  | .deleteOrg id p => m.deleteOrg amb id p
  | .updateTenantTier id target p => m.updateTenantTier amb id target p
  | .appendTenantAudit a => m.appendTenantAudit a
  | .attachSiteToOrg site org p => m.attachSiteToOrg amb site org p
  | .detachSiteFromOrg site p => m.detachSiteFromOrg amb site p
  | .deleteTenant id p => m.deleteTenant amb id p
  | .putRoleBinding rb => m.putRoleBinding amb rb
  | .deleteRoleBinding s sc => m.deleteRoleBinding s sc
  | .upsertUsage r => m.upsertUsage amb r

end Cios.Store
