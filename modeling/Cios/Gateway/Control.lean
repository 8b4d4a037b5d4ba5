import Cios.Driver.ModbusLine
import Cios.Gateway.Pipeline
import Cios.Http.Request

/-!
# Gateway — control writes

The gateway's local control interface (`gateway/control.go`): the registry from full paths to
drivers, as `Run` fills it, and `POST /v1/control/set`.

The value of a command goes to the driver as it is, and the driver truncates it to the register.
Nothing on the way looks at the point's scale, unit or limits, so only a fixed point of the read
path is written as it should be (`control_write_faithful_iff`).
-/

namespace Cios.Gateway
open Text Option
open Effect.Prog
open Cios.Driver
open Cios.Modbus
open Cios.Http (Method)

/-! ### Devices -/

structure GatewayDevice where
  asset : Bytes
  drv : Modbus.Driver
  pipes : List (Bytes × Pipeline)

/-- The bindings and pipelines of a point map's rows; of one point the later row's pipeline
stays. -/
def buildPoints (c : Casts) (u : Units) : List (PointDef × QuantityDef) →
    Option (List Binding × List (Bytes × Pipeline))
  | [] => some ([], [])
  | (pd, q) :: rest => do
    let pl ← newPipelineCore u q pd
    let b ← (buildFromPointDef c pd).toOption
    let (bs, pipes) ← buildPoints c u rest
    some (b :: bs, pipes ++ [(pd.point, pl)])

/-- A device of the configuration, before `Init`. -/
def bringUp (c : Casts) (u : Units) (asset : Bytes) (points : List (PointDef × QuantityDef)) :
    Option GatewayDevice :=
  (buildPoints c u points).map fun bp => ⟨asset, .new bp.1, bp.2⟩

/-! ### The registry -/

/-- `controlTarget`, with the driver as its place among `n` devices. -/
structure Target (n : Nat) where
  drv : Fin n
  relPoint : Bytes
  asset : Bytes

def register {n : Nat} (reg : Bytes → Option (Target n)) (asset relPoint : Bytes) (i : Fin n) :
    Bytes → Option (Target n) :=
  if asset = [] ∨ relPoint = [] then reg
  else Function.update reg (asset ++ lit "." ++ relPoint) (some ⟨i, relPoint, asset⟩)

/-- The registry as `Run` fills it: every point of every device. -/
def controlRegistry (devs : List GatewayDevice) : Bytes → Option (Target devs.length) :=
  (List.finRange devs.length).foldl
    (fun reg i => (devs.get i).pipes.foldl (fun reg p => register reg (devs.get i).asset p.1 i) reg)
    fun _ => none

inductive ControlError where
  | unknownPoint (path : Bytes)
  | driver (e : WriteError)
deriving DecidableEq

def registryWrite (c : Casts) (devs : List GatewayDevice) (ctxDone : Bool) (path : Bytes)
    (value : Rat) (requestID : Bytes) (ttl : Int) :
    Wire ((ControlResult × Option ControlError) × List GatewayDevice) :=
  match controlRegistry devs path with
  | none => pure (({}, some (.unknownPoint path)), devs)
  | some t => do
    let gd := devs.get t.drv
    let (out, d) ← gd.drv.write c.uint16 ctxDone ⟨t.relPoint, value, requestID, ttl⟩
    pure ((out.1, out.2.map .driver), devs.set t.drv { gd with drv := d })

/-! ### The handler -/

structure ControlSetRequest where
  path : Bytes
  value : Rat
  requestID : Bytes
  ttlSeconds : Int

/-- What the handler reads.  `body` is the decoded JSON, if it is one of at most 64 kilobytes. -/
structure SetCall where
  method : Method
  controlToken : Bytes
  authorization : Bytes
  body : Option ControlSetRequest
  ctxDone : Bool

structure ControlSetResponse where
  accepted : Bool
  readback : Rat
  detail : Option ControlError
  path : Bytes
deriving DecidableEq

inductive SetReply where
  | methodNotAllowed
  | unauthorized
  | badJSON
  | pathRequired
  | set (status : Nat) (body : ControlSetResponse)
deriving DecidableEq

/-- Whether the gateway reports the command as accepted. -/
def SetReply.accepted : SetReply → Bool
  | .set _ body => body.accepted
  | _ => false

def SetReply.readback : SetReply → Rat
  | .set _ body => body.readback
  | _ => 0

/-- The token of a request; no letter of `bearer` has a case form outside ASCII. -/
def controlTokenFromRequest (r : SetCall) : Bytes :=
  let h := trimSpace r.controlToken
  if h ≠ [] then h
  else
    let auth := trimSpace r.authorization
    if 7 ≤ auth.length ∧ asciiLower (auth.take 7) = "bearer " then trimSpace (auth.drop 7)
    else []

def controlTokenOK (got want : Bytes) : Bool :=
  let got := trimSpace got
  let want := trimSpace want
  !(want = [] || got = [] || got.length ≠ want.length) && got = want

/-- `time.Duration(n) * time.Second`, and half a minute where that is not positive. -/
def ttlOf (ttlSeconds : Int) : Int :=
  let ttl := (ttlSeconds * 1000000000).bmod (2 ^ 64)
  if ttl ≤ 0 then 30 * 1000000000 else ttl

/-- The request id, drawn from the clock where the client sends none. -/
def drawID (req : ControlSetRequest) : Wire Bytes :=
  if req.requestID = [] then do
    let now ← Wire.now
    pure (lit "gw-" ++ lit (toString now))
  else pure req.requestID

def replyOf (path : Bytes) (out : ControlResult × Option ControlError) : SetReply :=
  match out.2 with
  | some e => .set 404 ⟨false, 0, some e, path⟩
  | none => .set (if out.1.accepted then 200 else 409) ⟨out.1.accepted, out.1.readback, none, path⟩

def serveSet (c : Casts) (token : Bytes) (devs : List GatewayDevice) (r : SetCall) :
    Wire (SetReply × List GatewayDevice) :=
  if r.method ≠ .post then pure (.methodNotAllowed, devs)
  else if !controlTokenOK (controlTokenFromRequest r) token then pure (.unauthorized, devs)
  else match r.body with
    | none => pure (.badJSON, devs)
    | some req =>
      if req.path = [] then pure (.pathRequired, devs)
      else do
        let requestID ← drawID req
        let (out, devs) ← registryWrite c devs r.ctxDone req.path req.value requestID
          (ttlOf req.ttlSeconds)
        pure (replyOf req.path out, devs)

/-! ### What a control write should do -/

section Faithful

variable {S : Type} (c : Casts) (token : Bytes) (L : Line S) (devs : List GatewayDevice) (s : S)
  (r : SetCall)

def Target.device {devs : List GatewayDevice} (t : Target devs.length) : GatewayDevice :=
  devs.get t.drv

def Target.pipeline {devs : List GatewayDevice} (t : Target devs.length) : Option Pipeline :=
  t.device.pipes.lookup t.relPoint

def Target.binding {devs : List GatewayDevice} (t : Target devs.length) : Option Binding :=
  t.device.drv.bindings.find? fun b => b.point = t.relPoint

/-- A register value that the read path turns into `x`. -/
def ReadsAs (pl : Pipeline) (point : Bytes) (v : UInt16) (x : Rat) : Prop :=
  ∀ ts, (pl.convert c (goodSample point v ts)).1 = x

/-- **What a control write should do.**  An accepted command is within the limits, and wrote the
point's register, once, with a value that is read as the command and was read back; any other wrote
nothing. -/
def Faithful : Prop :=
  let out := (serveSet c token devs r).exec L.answer s
  if out.1.1.accepted then
    ∃ (req : ControlSetRequest) (t : Target devs.length) (pl : Pipeline) (b : Binding) (v : UInt16),
      r.body = some req ∧ controlRegistry devs req.path = some t ∧ t.pipeline = some pl ∧
      t.binding = some b ∧ pl.InLimits req.value ∧
      L.writes out.2 = L.writes s ++ [⟨t.device.drv.endpoint, b.register, v⟩] ∧
      ReadsAs c pl t.relPoint v req.value ∧ out.1.1.readback = v.toNat
  else L.writes out.2 = L.writes s

/-- A command that passes every check before the connection. -/
structure AdmittedSet (devs : List GatewayDevice) where
  req : ControlSetRequest
  target : Target devs.length
  binding : Binding

def admittedSet : Option (AdmittedSet devs) :=
  if r.method ≠ .post ∨ controlTokenOK (controlTokenFromRequest r) token = false then none
  else match r.body with
    | none => none
    | some req =>
      if req.path = [] then none
      else match controlRegistry devs req.path with
        | none => none
        | some t =>
          match t.device.drv.checkWrite r.ctxDone
              ⟨t.relPoint, req.value, req.requestID, ttlOf req.ttlSeconds⟩ with
          | .error _ => none
          | .ok b => some ⟨req, t, b⟩

/-- Where the driver starts: once the request id is drawn. -/
def startOf (req : ControlSetRequest) : S := ((drawID req).exec L.answer s).2

/-- The command is within the limits and a fixed point of the read path, once truncated. -/
def AdmittedSet.Represented {devs : List GatewayDevice} (a : AdmittedSet devs) : Prop :=
  ∃ pl, a.target.pipeline = some pl ∧ pl.InLimits a.req.value ∧
    ReadsAs c pl a.target.relPoint (c.uint16 a.req.value) a.req.value

def AdmittedSet.course {devs : List GatewayDevice} (a : AdmittedSet devs) : Course :=
  L.course a.target.device.drv (startOf L s a.req) a.binding.register (c.uint16 a.req.value)

/-- What must come of an admitted command. -/
def AdmittedSet.Behaves {devs : List GatewayDevice} (a : AdmittedSet devs) : Prop :=
  match a.course c L s with
  | .refused => True
  | .failed took => took = false
  | .confirmed took rb => took = true ∧ rb = c.uint16 a.req.value ∧ a.Represented c

/-! ### Runs of the handler -/

variable {c token L devs s r}

theorem writes_startOf (req : ControlSetRequest) : L.writes (startOf L s req) = L.writes s := by
  refine L.writes_of_quiet ?_ s
  unfold drawID
  split
  · exact ⟨rfl, fun _ => trivial⟩
  · trivial

theorem checkWrite_ok {d : Modbus.Driver} {ctxDone : Bool} {cmd : ControlCommand} {b : Binding}
    (h : d.checkWrite ctxDone cmd = .ok b) :
    d.bindings.find? (fun b => b.point = cmd.point) = some b := by
  unfold Modbus.Driver.checkWrite at h
  split at h
  · cases h
  split at h
  · cases h
  rename_i b' hb
  split at h
  · cases h
  · split at h
    · cases h
    · cases h
      exact hb

theorem exec_serveSet {req : ControlSetRequest} {t : Target devs.length} (hm : r.method = .post)
    (ht : controlTokenOK (controlTokenFromRequest r) token = true) (hb : r.body = some req)
    (hp : req.path ≠ []) (hreg : controlRegistry devs req.path = some t) : ∃ id,
      let w := (t.device.drv.write c.uint16 r.ctxDone
        ⟨t.relPoint, req.value, id, ttlOf req.ttlSeconds⟩).exec L.answer (startOf L s req)
      let out := (serveSet c token devs r).exec L.answer s
      out.1.1 = replyOf req.path (w.1.1.1, w.1.1.2.map .driver) ∧ out.2 = w.2 := by
  rw [serveSet, if_neg (by simp [hm]), if_neg (by simp [ht]), hb]
  simp only [if_neg hp, exec_bind, registryWrite, hreg]
  exact ⟨_, rfl, rfl⟩

theorem serveSet_of_not_admitted (h : admittedSet token devs r = none) :
    let out := (serveSet c token devs r).exec L.answer s
    out.1.1.accepted = false ∧ L.writes out.2 = L.writes s := by
  by_cases hm : r.method = .post
  · by_cases ht : controlTokenOK (controlTokenFromRequest r) token = true
    · rw [admittedSet, if_neg (by simp [hm, ht])] at h
      cases hb : r.body with
      | none =>
        rw [serveSet, if_neg (by simp [hm]), if_neg (by simp [ht]), hb]
        exact ⟨rfl, rfl⟩
      | some req =>
        by_cases hp : req.path = []
        · rw [serveSet, if_neg (by simp [hm]), if_neg (by simp [ht]), hb]
          simp only [if_pos hp]
          exact ⟨rfl, rfl⟩
        simp only [hb, if_neg hp] at h
        cases hreg : controlRegistry devs req.path with
        | none =>
          rw [serveSet, if_neg (by simp [hm]), if_neg (by simp [ht]), hb]
          simp only [if_neg hp, exec_bind, registryWrite, hreg]
          exact ⟨rfl, writes_startOf req⟩
        | some t =>
          simp only [hreg] at h
          split at h
          · rename_i e he
            obtain ⟨id, hreply, hstate⟩ :=
              exec_serveSet (c := c) (L := L) (s := s) hm ht hb hp hreg
            have hw := L.write_not_admitted t.device.drv (startOf L s req) c.uint16 r.ctxDone
              ⟨t.relPoint, req.value, id, ttlOf req.ttlSeconds⟩ he
            rw [hw] at hreply hstate
            simp only [hreply, hstate]
            exact ⟨rfl, writes_startOf req⟩
          · cases h
    · rw [serveSet, if_neg (by simp [hm]), if_pos (by simpa using ht)]
      exact ⟨rfl, rfl⟩
  · rw [serveSet, if_pos hm]
    exact ⟨rfl, rfl⟩

variable {a : AdmittedSet devs}

theorem admittedSet_eq_some (h : admittedSet token devs r = some a) :
    r.method = .post ∧ controlTokenOK (controlTokenFromRequest r) token = true ∧
    r.body = some a.req ∧ a.req.path ≠ [] ∧ controlRegistry devs a.req.path = some a.target ∧
    a.target.device.drv.checkWrite r.ctxDone
      ⟨a.target.relPoint, a.req.value, a.req.requestID, ttlOf a.req.ttlSeconds⟩ =
        .ok a.binding := by
  unfold admittedSet at h
  split at h
  · cases h
  rename_i hmt
  obtain ⟨hm, ht⟩ := not_or.mp hmt
  split at h
  · cases h
  rename_i req hb
  split at h
  · cases h
  rename_i hp
  split at h
  · cases h
  rename_i t hreg
  split at h
  · cases h
  · rename_i b hcheck
    cases h
    exact ⟨not_not.mp hm, by simpa using ht, hb, hp, hreg, hcheck⟩

theorem serveSet_of_admitted (h : admittedSet token devs r = some a) :
    let out := (serveSet c token devs r).exec L.answer s
    let w : RegisterWrite :=
      ⟨a.target.device.drv.endpoint, a.binding.register, c.uint16 a.req.value⟩
    match a.course c L s with
    | .refused => out.1.1.accepted = false ∧ L.writes out.2 = L.writes s
    | .failed took => out.1.1.accepted = false ∧
        L.writes out.2 = if took then L.writes s ++ [w] else L.writes s
    | .confirmed took rb => out.1.1.accepted = true ∧ out.1.1.readback = rb.toNat ∧
        L.writes out.2 = if took then L.writes s ++ [w] else L.writes s := by
  obtain ⟨hm, ht, hb, hp, hreg, hcheck⟩ := admittedSet_eq_some h
  obtain ⟨id, hreply, hstate⟩ := exec_serveSet (c := c) (L := L) (s := s) hm ht hb hp hreg
  have hw := L.write_course a.target.device.drv (startOf L s a.req) c.uint16 r.ctxDone
    ⟨a.target.relPoint, a.req.value, id, ttlOf a.req.ttlSeconds⟩ hcheck
  simp only [hreply, hstate]
  rw [writes_startOf] at hw
  revert hw
  rcases (a.target.device.drv.write c.uint16 r.ctxDone
    ⟨a.target.relPoint, a.req.value, id, ttlOf a.req.ttlSeconds⟩).exec L.answer
      (startOf L s a.req) with ⟨⟨⟨res, err⟩, d⟩, s'⟩
  unfold AdmittedSet.course
  cases L.course a.target.device.drv (startOf L s a.req) a.binding.register
    (c.uint16 a.req.value) with
  | refused | failed =>
    rintro ⟨-, herr, hwrites⟩
    obtain ⟨e, rfl⟩ := isSome_iff_exists.mp herr
    exact ⟨rfl, hwrites⟩
  | confirmed took rb =>
    rintro ⟨hacc, hrb, rfl, hwrites⟩
    exact ⟨hacc, hrb, hwrites⟩

theorem faithful_iff_behaves (h : admittedSet token devs r = some a) :
    Faithful c token L devs s r ↔ a.Behaves c L s := by
  obtain ⟨-, -, hb, -, hreg, hcheck⟩ := admittedSet_eq_some h
  have hrun := serveSet_of_admitted (c := c) (L := L) (s := s) h
  rw [AdmittedSet.Behaves, Faithful]
  revert hrun
  cases a.course c L s with
  | refused =>
    rintro ⟨hacc, hwrites⟩
    simp [hacc, hwrites]
  | failed took =>
    rintro ⟨hacc, hwrites⟩
    cases took <;> simp [hacc, hwrites]
  | confirmed took rb =>
    rintro ⟨hacc, hrb, hwrites⟩
    rw [if_pos hacc]
    constructor
    · rintro ⟨req, t, pl, b, v, hb', hreg', hpl, hbind, hlim, hw, hreads, hread⟩
      obtain rfl : a.req = req := some.inj (hb.symm.trans hb')
      obtain rfl : a.target = t := some.inj (hreg.symm.trans hreg')
      cases took with
      | false => simp [hwrites] at hw
      | true =>
        -- The one write is the command's own, so it fixes the register value.
        rw [hwrites, if_pos rfl] at hw
        have hw := List.append_cancel_left hw
        simp only [List.cons.injEq, RegisterWrite.mk.injEq, and_true, true_and] at hw
        obtain ⟨-, rfl⟩ := hw
        rw [hrb] at hread
        have hread : rb.toNat = (c.uint16 a.req.value).toNat := by exact_mod_cast hread
        exact ⟨rfl, UInt16.toNat_inj.mp hread, pl, hpl, hlim, hreads⟩
    · rintro ⟨rfl, rfl, pl, hpl, hlim, hreads⟩
      exact ⟨a.req, a.target, pl, a.binding, c.uint16 a.req.value, hb, hreg, hpl,
        checkWrite_ok hcheck, hlim, by rw [hwrites, if_pos rfl], hreads, hrb⟩

/-- **When control writes do what they should**: exactly when every admitted command behaves.
Without confirmation it must not have taken effect; confirmed, it must have, must be read back as
written, and must be, within the limits, a fixed point of the read path. -/
theorem control_write_faithful_iff {S : Type} (c : Casts) (token : Bytes) (L : Line S)
    (devs : List GatewayDevice) (s : S) (r : SetCall) :
    Faithful c token L devs s r ↔
      ∀ a, admittedSet token devs r = some a → a.Behaves c L s := by
  constructor
  · intro h a ha
    exact (faithful_iff_behaves ha).mp h
  intro h
  cases ha : admittedSet token devs r with
  | none =>
    obtain ⟨hacc, hwrites⟩ := serveSet_of_not_admitted (c := c) (L := L) (s := s) ha
    rw [Faithful, if_neg (by simp [hacc])]
    exact hwrites
  | some a => exact (faithful_iff_behaves ha).mpr (h a ha)

end Faithful

/-! ### A setpoint in tenths -/

def setpoint : PointDef :=
  ⟨"temp", .rw, [], 1 / 10, some ⟨10, 30⟩, fun _ => none, some (.int 7), none⟩

def chiller : GatewayDevice :=
  ⟨"site01.cdu000",
    { Modbus.Driver.new [⟨"temp", .holding, 7, true⟩] with
      endpoint := "10.0.0.7:502", unitID := 1 },
    [("temp", ⟨none, ⟨1, 0⟩, 1 / 10, fun _ => none, some ⟨10, 30⟩⟩)]⟩

def setTo25 : SetCall :=
  ⟨.post, "secret", [], some ⟨"site01.cdu000.temp", 25, "r1", 0⟩, false⟩

/-- A setpoint of 25 degrees is accepted and writes 25 tenths. -/
theorem setpoint_written_in_tenths :
    let out := (serveSet truncating "secret" [chiller] setTo25).exec Plc.line.answer
      ⟨fun _ => 0, [], []⟩
    bringUp truncating (fun _ _ => none) "site01.cdu000" [(setpoint, ⟨"C", none⟩)] =
      some { chiller with drv := .new chiller.drv.bindings } ∧
    out.1.1 = .set 200 ⟨true, 25, none, "site01.cdu000.temp"⟩ ∧
    out.2.writes = [⟨"10.0.0.7:502", 7, 25⟩] ∧
    ¬ Faithful truncating "secret" Plc.line [chiller] ⟨fun _ => 0, [], []⟩ setTo25 := by
  intro out
  have hwrites : out.2.writes = [⟨"10.0.0.7:502", 7, 25⟩] := by decide +kernel
  refine ⟨rfl, by decide +kernel, hwrites, ?_⟩
  -- The register was written with 25, which is read as two and a half degrees.
  rintro ⟨req, t, pl, b, v, hreq, hreg, hpl, -, -, hw, hreads, -⟩
  cases hreq
  cases hreg
  cases hpl
  obtain rfl : 25 = v :=
    congrArg RegisterWrite.value (List.cons.inj (hwrites.symm.trans hw)).1
  exact absurd (hreads 0) (by decide +kernel)

end Cios.Gateway
