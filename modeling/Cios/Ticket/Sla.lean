import Cios.Http.Tickets

/-!
# Tickets — the SLA scanner

A tick of the scanner (`core/sla.go`) lists the tickets, keeps those past the window of their
severity, and reads each of them again before it marks it as escalated, at the version just read.
Whether the tick leads, and the time it runs at, are given to it; what it ends with is the error it
records.  The event it sends out after a write is left out.
-/

namespace Cios.Ticket
open Text Effect
open Cios.Store
open Cios.Http.Core (Op)

variable {V : Type}

def minute : Int := 60 * 10 ^ 9

def hour : Int := 60 * minute

def slaResponseCritical : Int := 15 * minute
def slaResponseMajor : Int := 1 * hour
def slaResponseMinor : Int := 8 * hour

def slaResolveCritical : Int := 4 * hour
def slaResolveMajor : Int := 24 * hour
def slaResolveMinor : Int := 72 * hour

/-- The response and the resolution window; `info` and what is no severity have none. -/
def slaWindows (severity : Bytes) : Option (Int × Int) :=
  if severity = "critical" then some (slaResponseCritical, slaResolveCritical)
  else if severity = "major" then some (slaResponseMajor, slaResolveMajor)
  else if severity = "minor" then some (slaResponseMinor, slaResolveMinor)
  else none

/-- Both windows run from the opening. -/
def isSLABreach (t : Ticket) (now : Int) : Bool :=
  if t.state = "resolved" ∨ t.state = "closed" then false
  else match slaWindows t.severity with
    | none => false
    | some (resp, resolve) =>
      if t.state = "open" then resp < now - t.openedAt
      else if t.state = "acknowledged" then resolve < now - t.openedAt
      else false

def scanSLA (now : Int) (tickets : List Ticket) : List Ticket :=
  tickets.filter fun t => t.escalatedAt.isNone && isSLABreach t now

/-- The loop over the breached tickets.  An error, of a read or of a write, is only logged. -/
def escalate (now : Int) : List Ticket → Prog (Op V) Op.Ret Unit
  | [] => .done ()
  | t :: ts => .call (.work (.getTicket t.id)) fun found =>
    match found with
    | .ok (some cur) =>
      if cur.escalatedAt.isSome || !isSLABreach cur now then escalate now ts
      else
        .call (.work (.putTicket { cur with escalatedAt := some now } cur.resourceVersion))
          fun _ => escalate now ts
    | _ => escalate now ts

/-- One tick; `lock` is what `TryScannerLock` answers. -/
def scanSLATick (lock : Except StoreError Bool) (now : Int) :
    Prog (Op V) Op.Ret (Option StoreError) :=
  match lock with
  | .error e => .done (some e)
  | .ok false => .done none
  | .ok true => .call (.work .listTickets) fun listed =>
    match listed with
    | .error e => .done (some e)
    | .ok all => do
      escalate now (scanSLA now all)
      return none

end Cios.Ticket
