import Cios.Gateway.Metrics
import Cios.Http.Handler

/-!
# HTTP — points, control writes and metrics

The handlers of `/v1/points/`, `/v1/control/` and `/v1/metrics/` (`core/metrics.go`,
`core/setctl.go`).  What a control write or an approval decides is in `Control.servePoint` and
`Control.approveRequest`; here the decision is carried out.  A point is written under the suffix
`:set` and a parked write is approved under `:approve`; everything else reads.
-/

namespace Cios.Http.Core
open Text
open Cios.Rbac (Principal)
open Cios.Control (SetRequest Execution)

variable {V : Type} (env : Env V) (r : Request) (c : Ctx)

/-! ### Metrics -/

def serveMetricsQuery : Handler V :=
  orElse (Gateway.serveMetricsQuery r) refuse fun vm =>
    outside (.proxyToVM vm.path vm.rawQuery) fun res =>
      match res with
      | .ok (status, body) => respond status (.upstream body)
      | .error _ =>
        internalProblem 502 "upstream-unavailable" "victoria metrics unavailable"

def servePointGet (pt : Bytes) : Handler V :=
  orElse (env.parsePoint pt) (fun e => problem 400 "bad-path" "bad point path" e) fun _ =>
    orElse (env.selector pt) (fun e => problem 500 "bad-request" "selector build" e) fun sel =>
      outside (.fetchVM sel) fun res =>
        orElse res (fun _ =>
          internalProblem 502 "upstream-unavailable" "victoria metrics unavailable") fun body =>
          orElse (env.pointValue pt body) refuse fun v => respond 200 (.doc v)

/-! ### Control writes -/

def controlReply : Reply (Control.Answer V) → Handler V
  | .problem p => refuse p
  | .json status a => respond status (.control a)
  | .noContent => .done .noContent

def executeSet (x : Execution V) : Handler V :=
  outside (.newID "us_") fun id => outside .now fun now =>
    let audit := Control.executionAudit x id now
    work (.appendSetAudit audit) <| onOk fun _ =>
      if env.sinkWired then
        outside (.dispatchControl x audit.id) fun res =>
          controlReply (Control.executeReply audit (some res))
      else controlReply (Control.executeReply audit none)

def serveSetPending (p : Principal) (path : Bytes) (req : SetRequest V) : Handler V :=
  outside .now fun now => outside (.newID "us_") fun id =>
    let pend := Control.newPending p path req now id
    work (.appendSetAudit (Control.pendingAudit pend)) <| onOk fun _ =>
      outside (.insertPending now pend) fun _ => respond 202 (.control (.pending pend))

def servePoint : Handler V :=
  match Control.servePoint env.toEnv r c with
  | .answer p => refuse p
  | .read path => servePointGet env path
  | .park p path req => serveSetPending p path req
  | .execute path cls req actor second => executeSet env ⟨path, cls, req, actor, second, none⟩

def serveControlApprove : Handler V :=
  orElse (Control.approveRequest r c) refuse fun (approver, id) =>
    outside .now fun now => outside (.lookUpPending id now) fun res =>
      orElse res refuse fun pend =>
        orElse (Control.approveChecks env.toEnv approver pend) refuse fun _ =>
          outside (.consumePending id) fun still =>
            if !still then refuse (Control.noSuchPending id)
            else executeSet env (Control.approved approver pend)

def serveControlAudit : Handler V :=
  if r.method ≠ .get then
    problem 405 "method-not-allowed" "use GET for control audit" []
  else withPageSize r fun size =>
    withPageToken ([], []) env.decodePageTokenPair r fun cursor =>
      work .listSetAudits <| onOk fun all =>
        let (shown, next) := keyPage
          (fun a => env.encodePageTokenPair (lit (toString a.time)) a.id) size
          (all.filter fun a => (cursor.1 = [] || beforeCursor cursor a.time a.id) &&
            allowed env c .read a.path)
        respond 200 (.setAudits shown next)

/-! ### What only reads -/

section ReadOnly

variable {env r c}

@[simp] theorem serveMetricsQuery_readOnly : ReadOnly (serveMetricsQuery r : Handler V) := by
  refine .orElse (fun _ => .answer) fun _ => .outside fun res => ?_
  split
  · exact .answer
  · exact .answer

theorem servePointGet_readOnly {pt : Bytes} : ReadOnly (servePointGet env pt) :=
  .orElse (fun _ => .answer) fun _ => .orElse (fun _ => .answer) fun _ =>
    .outside fun _ => .orElse (fun _ => .answer) fun _ =>
      .orElse (fun _ => .answer) fun _ => .answer

theorem servePoint_readOnly (h : cutSuffix ":set" (below "/v1/points/" r) = none) :
    ReadOnly (servePoint env r c) := by
  have hread : ∀ o, Control.servePoint env.toEnv r c = o →
      (∃ p, o = .answer p) ∨ ∃ path, o = .read path := by
    intro o ho
    unfold Control.servePoint at ho
    dsimp only at ho
    split at ho
    · exact .inl ⟨_, ho.symm⟩
    rw [show cutSuffix ":set" ((cutPrefix "/v1/points/" r.path).getD r.path) = none from h] at ho
    dsimp only at ho
    split at ho
    · exact .inl ⟨_, ho.symm⟩
    · exact .inr ⟨_, ho.symm⟩
  unfold servePoint
  rcases hread _ rfl with ⟨p, e⟩ | ⟨path, e⟩ <;> rw [e]
  · exact .answer
  · exact servePointGet_readOnly

theorem serveControlApprove_readOnly (h : cutSuffix ":approve" (below "/v1/control/" r) = none) :
    ReadOnly (serveControlApprove env r c) := by
  have hno : Control.approveRequest r c =
      .error ⟨404, "not-found", "unknown control resource", []⟩ := by
    unfold Control.approveRequest
    rw [show cutSuffix ":approve" ((cutPrefix "/v1/control/" r.path).getD r.path) = none from h]
  rw [serveControlApprove, hno]
  exact .answer

@[simp] theorem serveControlAudit_readOnly : ReadOnly (serveControlAudit env r c) :=
  .check <| .withPageSize fun _ => .withPageToken fun _ => .work rfl fun _ => .onOk fun _ => .answer

end ReadOnly

end Cios.Http.Core
