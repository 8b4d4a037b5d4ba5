import Cios.Http.AuthMW

/-!
# Http — the access log

The middlewares around the core's mux (`core/server.go`, `middleware.go`, `mtls_tenant_gate.go`).
Each hands the request on with a context of its own, and what an inner one adds is not in the
context of an outer one.  The access log stands outside the authentication, so it never names the
caller (`access_names_caller_iff`).
-/

namespace Cios.Http
open Text

/-- The values of a request's context. -/
structure Values extends Ctx where
  requestID : Option Bytes

/-- A handler, by the status it writes. -/
abbrev Stage := Request → Values → Nat

structure AccessLine where
  method : Method
  path : Bytes
  status : Nat
  durMs : Nat
  principal : Bytes
  requestID : Bytes

/-- `rid` is the header's value, or a fresh one if the request has none. -/
def withRequestID {α : Type} (rid : Bytes) (inner : Request → Values → α) (r : Request)
    (v : Values) : α := inner r { v with requestID := some rid }

def accessLogMiddleware (durMs : Nat) (inner : Stage) (r : Request) (v : Values) :
    Nat × AccessLine :=
  let status := inner r v
  let principal := match v.principal with
    | some p => p.subject
    | none => "-"
  (status, ⟨r.method, r.path, status, durMs, principal, v.requestID.getD []⟩)

def tenantMTLSGate (cfg : AuthConfig) (inner : Stage) : Stage := fun r v =>
  match gateTenantHeader cfg r with
  | some msg => (forbidden msg).status
  | none => inner r v

def newAuthMiddleware (cfg : AuthConfig) (inner : Stage) : Stage := fun r v =>
  match authMW cfg r with
  | .error p => p.status
  | .ok c => inner r { v with toCtx := c }

/-- `Server.Handler` with a verifier: the status, and the line logged. -/
def chain (cfg : AuthConfig) (rid : Bytes) (durMs : Nat) (mux : Stage) (r : Request) :
    Nat × AccessLine :=
  withRequestID rid
    (accessLogMiddleware durMs (tenantMTLSGate cfg (newAuthMiddleware cfg mux))) r
    ⟨⟨none, none⟩, none⟩

/-- A request that is passed on has its subject in the line only if that is the dash of a request
without one; so has one that is rejected. -/
theorem access_names_caller_iff (cfg : AuthConfig) (rid : Bytes) (durMs : Nat) (mux : Stage)
    (r : Request) :
    let line := (chain cfg rid durMs mux r).2
    (∀ c p, gateTenantHeader cfg r = none → authMW cfg r = .ok c → c.principal = some p →
      line.status = mux r ⟨c, some rid⟩ ∧ (line.principal = p.subject ↔ p.subject = "-")) ∧
    (∀ e, authMW cfg r = .error e → line.principal = "-") := by
  refine ⟨fun c p hgate hauth hp => ⟨?_, eq_comm⟩, fun e _ => rfl⟩
  simp [chain, withRequestID, accessLogMiddleware, tenantMTLSGate, newAuthMiddleware, hgate, hauth]

theorem readForAcme_not_named :
    ∃ c p, authMW otherViewer readForAcme = .ok c ∧ c.principal = some p ∧
      (chain otherViewer "r1" 3 (fun _ _ => 200) readForAcme).2 =
        ⟨.get, "/v1/assets/site01", 200, 3, "-", "r1"⟩ ∧ p.subject ≠ "-" :=
  ⟨_, _, rfl, rfl, rfl, by decide⟩

end Cios.Http
