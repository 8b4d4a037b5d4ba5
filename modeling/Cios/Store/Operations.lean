import Cios.Control.TwoMan
import Cios.Store.Tenancy
import Cios.Store.Windows

/-!
# Store — assets, alarms, tickets, upkeep, spares and usage

The other half of the `Store` interface (`core/store.go`): the records the operational handlers read
and write, and the methods as calls with typed answers.  `V` is the type of measured values.
-/

namespace Cios.Store
open Text
open Cios.Control (SetAudit)

variable {V : Type}

/-! ### Records -/

/-- A decoded JSON value, as the free-form parts of a record hold it. -/
inductive Json (V : Type) where
  | null
  | bool (b : Bool)
  | num (v : V)
  | str (s : Bytes)
  | arr (items : List (Json V))
  | obj (fields : List (Bytes × Json V))

/-- The string in a value, empty when it is none. -/
def Json.asStr : Json V → Bytes
  | .str s => s
  | _ => []

/-- A spec: a JSON object by its fields, `none` for the nil map. -/
abbrev Spec (V : Type) := Option (List (Bytes × Json V))

namespace Spec

variable (spec : Spec V)

def fields : List (Bytes × Json V) := spec.getD []

def get (key : Bytes) : Option (Json V) :=
  (spec.fields.find? fun kv => kv.1 = key).map Prod.snd

/-- The string at a key, empty when there is none. -/
def getStr (key : Bytes) : Bytes :=
  match spec.get key with
  | some v => v.asStr
  | none => []

def erase (key : Bytes) : Spec V :=
  some (spec.fields.filter fun kv => kv.1 ≠ key)

def set (key : Bytes) (v : Json V) : Spec V :=
  some ((key, v) :: (spec.erase key).fields)

end Spec

structure Asset (V : Type) where
  path : Bytes
  resourceVersion : Int
  spec : Spec V
  createdAt : Int
  updatedAt : Int

structure Alarm where
  id : Bytes
  path : Bytes
  severity : Bytes
  state : Bytes
  summary : Bytes
  since : Int
  ackedBy : Bytes
  ackedAt : Option Int
deriving DecidableEq, Repr

structure Ticket where
  id : Bytes
  alarmID : Bytes
  assetPath : Bytes
  title : Bytes
  severity : Bytes
  state : Bytes
  assignee : Bytes
  openedAt : Int
  ackedAt : Option Int
  resolvedAt : Option Int
  closedAt : Option Int
  escalatedAt : Option Int
  resourceVersion : Int
  runbook : Bytes
deriving DecidableEq, Repr

structure TicketNote where
  id : Bytes
  ticketID : Bytes
  author : Bytes
  body : Bytes
  time : Int
deriving DecidableEq, Repr

structure TicketAudit where
  id : Bytes
  ticketID : Bytes
  op : Bytes
  fromState : Bytes
  toState : Bytes
  who : Bytes
  time : Int
deriving DecidableEq, Repr

structure AssetAudit where
  id : Bytes
  ts : Int
  principal : Bytes
  path : Bytes
  op : Bytes
  detail : Bytes
deriving DecidableEq, Repr

structure PMSchedule where
  id : Bytes
  assetPath : Bytes
  kind : Bytes
  intervalDays : Int
  lastRun : Option Int
  nextDue : Int
  title : Bytes
  severity : Bytes
  enabled : Bool
deriving DecidableEq, Repr

structure InspectionTemplate where
  id : Bytes
  assetPath : Bytes
  title : Bytes
  items : List Bytes
  interval : Int
  nextDue : Int
  enabled : Bool
deriving DecidableEq, Repr

structure SparePart where
  id : Bytes
  sku : Bytes
  name : Bytes
  qty : Int
  minQty : Int
  location : Bytes
deriving DecidableEq, Repr

structure SpareTxn where
  id : Bytes
  spareID : Bytes
  delta : Int
  ticketID : Bytes
  time : Int
deriving DecidableEq, Repr

inductive UsageKind where
  | energy
  | rackHour
deriving DecidableEq, Repr

def UsageKind.text : UsageKind → Bytes
  | .energy => "energy"
  | .rackHour => "rack_hour"

inductive UsageGranularity where
  | daily
  | monthly
deriving DecidableEq, Repr

def UsageGranularity.text : UsageGranularity → Bytes
  | .daily => "daily"
  | .monthly => "monthly"

structure UsageRecord (V : Type) where
  id : Bytes
  kind : UsageKind
  tenantID : Bytes
  orgID : Bytes
  siteID : Bytes
  assetPath : Bytes
  periodStart : Int
  periodEnd : Int
  granularity : UsageGranularity
  quantity : V
  unit : Bytes

/-- What `ListUsage` is asked for; an absent kind, granularity or bound admits all. -/
structure UsageListFilter where
  tenantID : Bytes
  siteID : Bytes
  kind : Option UsageKind
  granularity : Option UsageGranularity
  periodStart : Option Int
  periodEnd : Option Int

/-! ### The interface -/

/-- The operational methods of `Store` that the HTTP surface calls, with their arguments. -/
inductive WorkCall (V : Type) where
  | putAsset (a : Asset V) (expectVersion : Int)
  | getAsset (path : Bytes)
  | listAssets
  | deleteAsset (path : Bytes) (cascade : Bool)
  | appendAssetAudit (a : AssetAudit)
  | listAssetAudits (path : Bytes)
  | listAlarms
  | ackAlarm (id actor : Bytes)
  | putTicket (t : Ticket) (expectVersion : Int)
  | getTicket (id : Bytes)
  | listTickets
  | appendTicketNote (n : TicketNote)
  | listTicketNotes (ticketID : Bytes)
  | appendTicketAudit (a : TicketAudit)
  | listTicketAudits (ticketID : Bytes)
  | putPMSchedule (p : PMSchedule)
  | getPMSchedule (id : Bytes)
  | listPMSchedules
  | putInspectionTemplate (t : InspectionTemplate)
  | getInspectionTemplate (id : Bytes)
  | listInspectionTemplates
  | putMaintenanceWindow (m : MaintenanceWindow)
  | getMaintenanceWindow (id : Bytes)
  | listMaintenanceWindows
  | deleteMaintenanceWindow (id : Bytes)
  | putSpare (sp : SparePart)
  | getSpare (id : Bytes)
  | listSpares
  | adjustSpare (id : Bytes) (delta : Int) (ticketID : Bytes) (time : Int)
  | listSpareTxns (spareID : Bytes)
  | appendSetAudit (a : SetAudit V)
  | listSetAudits
  | upsertUsage (rec : UsageRecord V)
  | listUsage (filter : UsageListFilter)

/-- What a call answers. -/
abbrev WorkCall.Ret : WorkCall V → Type
  | .putAsset _ _ => Asset V × Option StoreError
  | .getAsset _ => Except StoreError (Option (Asset V))
  | .listAssets => Except StoreError (List (Asset V))
  | .deleteAsset _ _ => Int × Option StoreError
  | .appendAssetAudit _ => Except StoreError Unit
  | .listAssetAudits _ => Except StoreError (List AssetAudit)
  | .listAlarms => Except StoreError (List Alarm)
  | .ackAlarm _ _ => (Alarm × Bool) × Option StoreError
  | .putTicket _ _ => Except StoreError Ticket
  | .getTicket _ => Except StoreError (Option Ticket)
  | .listTickets => Except StoreError (List Ticket)
  | .appendTicketNote _ => Except StoreError Unit
  | .listTicketNotes _ => Except StoreError (List TicketNote)
  | .appendTicketAudit _ => Except StoreError Unit
  | .listTicketAudits _ => Except StoreError (List TicketAudit)
  | .putPMSchedule _ => Except StoreError Unit
  | .getPMSchedule _ => Except StoreError (Option PMSchedule)
  | .listPMSchedules => Except StoreError (List PMSchedule)
  | .putInspectionTemplate _ => Except StoreError Unit
  | .getInspectionTemplate _ => Except StoreError (Option InspectionTemplate)
  | .listInspectionTemplates => Except StoreError (List InspectionTemplate)
  | .putMaintenanceWindow _ => Except StoreError Unit
  | .getMaintenanceWindow _ => Except StoreError (Option MaintenanceWindow)
  | .listMaintenanceWindows => Except StoreError (List MaintenanceWindow)
  | .deleteMaintenanceWindow _ => Except StoreError Bool
  | .putSpare _ => Except StoreError Unit
  | .getSpare _ => Except StoreError (Option SparePart)
  | .listSpares => Except StoreError (List SparePart)
  | .adjustSpare _ _ _ _ => Except StoreError (SparePart × SpareTxn)
  | .listSpareTxns _ => Except StoreError (List SpareTxn)
  | .appendSetAudit _ => Except StoreError Unit
  | .listSetAudits => Except StoreError (List (SetAudit V))
  | .upsertUsage _ => Except StoreError (UsageRecord V)
  | .listUsage _ => Except StoreError (List (UsageRecord V))

/-- The methods that may change what is stored. -/
def WorkCall.mutates : WorkCall V → Bool
  | .putAsset _ _ | .deleteAsset _ _ | .appendAssetAudit _ | .ackAlarm _ _ | .putTicket _ _
  | .appendTicketNote _ | .appendTicketAudit _ | .putPMSchedule _ | .putInspectionTemplate _
  | .putMaintenanceWindow _ | .deleteMaintenanceWindow _ | .putSpare _ | .adjustSpare _ _ _ _
  | .appendSetAudit _ | .upsertUsage _ => true
  | _ => false

end Cios.Store
