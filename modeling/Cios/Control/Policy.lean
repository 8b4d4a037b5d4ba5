import Cios.Http.Request

/-!
# Control — risk classes and the handlers' decisions

A control write (`core/setctl.go`) names a point and a value.  The points that may be written are on
a list, each with a risk class: a write of class A waits for the approval of a second principal, the
others are executed at once.  This is what `servePoint` and `approveRequest` decide before they
touch anything they share.

The value type, Unicode's tables, the point grammar and the decoding of the body are left open
(`Env`).
-/

namespace Cios.Control
open Text
open Cios.Rbac (Principal)
open Cios.Http

inductive RiskClass where
  | a
  | b
  | c
deriving DecidableEq, Repr

/-! ### The list of writable points -/

def l108AllowList : List (Bytes × RiskClass) :=
  [("chiller.compressor.status", .a), ("fws.supply.temp", .a), ("cdu.pump.rpm", .a),
    ("chiller.valve.opening", .a), ("switchgear.breaker.status", .a), ("bess.pcs.power", .a),
    ("genset.status", .a), ("ups.status", .a), ("drycooler.fan.rpm", .b),
    ("cdu.valve.opening", .b), ("tcs.opening", .b), ("tou.status", .b), ("pdu.status", .b),
    ("node.status", .b), ("gpu.clock", .c), (".status", .c)]

def stripInstanceDigits (p : Bytes) : Bytes := p.filter fun c => !isDigit c

/-- Whether the entry is for the point; the bare `.status` is for maintenance marks only. -/
def entryMatches (p norm suffix : Bytes) : Bool :=
  if suffix = ".status" then (lit ".status").isSuffixOf norm && contains "maintenance" norm
  else suffix.isSuffixOf norm || contains (lit "." ++ suffix) norm || suffix.isSuffixOf p

/-- The longest entry, the first among those of one length. -/
def longestEntry (p norm : Bytes) : List (Bytes × RiskClass) → Option (Bytes × RiskClass) →
    Option (Bytes × RiskClass)
  | [], best => best
  | e :: rest, best =>
    if entryMatches p norm e.1 && best.all fun b => b.1.length < e.1.length then
      longestEntry p norm rest (some e)
    else longestEntry p norm rest best

def lookupRiskClass (letters : Letters) (pointPath : Bytes) : Option RiskClass :=
  let p := letters.toLower (trimSpace pointPath)
  if p = [] then none
  else (longestEntry p (stripInstanceDigits p) l108AllowList none).map Prod.snd

/-! ### Policy -/

structure SetRequest (V : Type) where
  value : V
  ttlSeconds : Int
  secondApprover : Bytes
  requireReadback : Bool
  note : Bytes

/-- What the handlers take from outside.  `closed` is the legacy window's flag. -/
structure Env (V : Type) where
  letters : Letters
  parsePoint : Bytes → Except Bytes Unit
  decodeSet : Except Bytes Bytes → Except Bytes (SetRequest V)
  closed : Bool

variable {V : Type} (env : Env V)

/-- The class, or the status and the detail of the refusal. -/
def evaluateSetPolicy (path actor : Bytes) (req : SetRequest V) : Except (Nat × Bytes) RiskClass :=
  if actor = [] then .error (401, "missing actor identity")
  else if req.ttlSeconds ≤ 0 then .error (400, "ttl_seconds must be > 0")
  else match lookupRiskClass env.letters path with
    | none => .error (403, "point is not on L108 rw allow-list (default ro)")
    | some .b =>
      if !req.requireReadback then .error (400, "risk_class=b requires require_readback=true")
      else .ok .b
    | some cls => .ok cls

/-- How `servePoint` goes on: an answer, a read, a class-A write to park, or an execution. -/
inductive PointOutcome (V : Type) where
  | answer (p : Problem)
  | read (path : Bytes)
  | park (requester : Principal) (path : Bytes) (req : SetRequest V)
  | execute (path : Bytes) (cls : RiskClass) (req : SetRequest V) (actor second : Bytes)

def servePointSet (r : Request) (c : Ctx) (path : Bytes) : PointOutcome V :=
  match env.parsePoint path with
  | .error e => .answer ⟨400, "bad-path", "bad point path", e⟩
  | .ok () =>
    match env.decodeSet r.body with
    | .error e => .answer ⟨400, "bad-request", "invalid set body", e⟩
    | .ok req =>
      let subject := match c.principal with
        | some p => p.subject
        | none => []
      let actor := if subject = [] then trimSpace r.actorHeader else subject
      match evaluateSetPolicy env path actor req with
      | .error (code, detail) =>
        let slug : Bytes := if code = 400 then "bad-request"
          else if code = 401 then "unauthorized" else "set-denied"
        .answer ⟨code, slug, detail, []⟩
      | .ok .a =>
        match c.principal with
        | none => .answer ⟨401, "unauthorized",
            "risk_class=a requires an authenticated principal (header actor not accepted)",
            []⟩
        | some p => .park p path req
      | .ok cls => .execute path cls req actor req.secondApprover

def servePoint (r : Request) (c : Ctx) : PointOutcome V :=
  let raw := (cutPrefix "/v1/points/" r.path).getD r.path
  if raw = [] then .answer ⟨400, "bad-path", "missing point path", []⟩
  else match cutSuffix ":set" raw with
    | some path =>
      if r.method ≠ .put then .answer ⟨405, "method-not-allowed", "use PUT for :set", []⟩
      else servePointSet env r c path
    | none =>
      if r.method ≠ .get then .answer ⟨405, "method-not-allowed", "use GET for point read", []⟩
      else .read raw

/-- `serveControlApprove` up to the lookup: the approver and the id, or an answer. -/
def approveRequest (r : Request) (c : Ctx) : Except Problem (Principal × Bytes) :=
  match cutSuffix ":approve" ((cutPrefix "/v1/control/" r.path).getD r.path) with
  | none => .error ⟨404, "not-found", "unknown control resource", []⟩
  | some id =>
    if r.method ≠ .post then .error ⟨405, "method-not-allowed", "use POST for :approve", []⟩
    else match c.principal with
      | none => .error ⟨401, "unauthorized", "approve requires an authenticated principal", []⟩
      | some approver => .ok (approver, id)

/-! ### What a decision says -/

variable {env} {r : Request} {c : Ctx}

/-- A parked write is its authenticated principal's; one executed at once is not of class A. -/
def PointOutcome.Fits (c : Ctx) : PointOutcome V → Prop
  | .park p _ _ => c.principal = some p
  | .execute _ cls _ _ _ => cls ≠ .a
  | .answer _ | .read _ => True

theorem servePointSet_fits (path : Bytes) : (servePointSet env r c path).Fits c := by
  unfold servePointSet
  split
  · trivial
  split
  · trivial
  dsimp only
  split
  · trivial
  · split
    · trivial
    · rename_i hp
      exact hp
  · rename_i hcls _
    exact hcls

theorem servePoint_fits : (servePoint env r c).Fits c := by
  unfold servePoint
  dsimp only
  split
  · trivial
  split
  · split
    · trivial
    · exact servePointSet_fits _
  · split <;> trivial

theorem approveRequest_ok {approver : Principal} {id : Bytes}
    (h : approveRequest r c = .ok (approver, id)) : c.principal = some approver := by
  unfold approveRequest at h
  iterate 3
    split at h
    · cases h
  · rename_i hp
    cases h
    exact hp

end Cios.Control
