import Cios.Support.Effect
import Cios.Support.Framing
import Mathlib.Data.Rat.Defs

/-!
# Driver — Modbus TCP

The pull driver of the gateway (`pkg/driver/modbus/modbus.go`), with the types of `pkg/driver` it
exchanges.  It owns one connection, and every request is one round trip on it.

The driver is a program over the connection (`Op`); the answers of `readFull` have the length asked
for, as those of `io.ReadFull`, and deadlines and the clock are part of the answers.  Values are the
source's `float64`, as exact rationals, and its conversion to `uint16` is left open: out of range it
depends on the machine.
-/

namespace Cios.Driver
open Text

inductive Quality where
  | good
  | stale
  | suspect
  | substituted
deriving DecidableEq, Repr

structure Sample where
  point : Bytes
  value : Rat
  ts : Int
  quality : Quality
deriving DecidableEq

/-- `ttl` in nanoseconds. -/
structure ControlCommand where
  point : Bytes
  value : Rat
  requestID : Bytes
  ttl : Int

structure ControlResult where
  accepted : Bool := false
  readback : Rat := 0
  readbackTs : Int := 0
deriving DecidableEq

structure DriverConfig where
  endpoint : Bytes
  unitID : Bytes

end Cios.Driver

namespace Cios.Modbus
open Text
open Effect (Prog)
open Effect.Prog (perform)
open Framing (be16 readBe16)
open Cios.Driver

/-- The table of a register, by its name. -/
inductive Table where
  | holding
  | input
  /-- Any other name, which `Init` refuses. -/
  | other (name : Bytes)
deriving DecidableEq, Repr

structure Binding where
  point : Bytes
  table : Table
  register : UInt16
  writable : Bool
deriving DecidableEq

/-! ### The connection -/

/-- What the driver does on the connection to an endpoint, and the clock. -/
inductive Op where
  | dial (endpoint : Bytes)
  | close (endpoint : Bytes)
  | setWriteDeadline (endpoint : Bytes)
  | write (endpoint : Bytes) (frame : Bytes)
  | setReadDeadline (endpoint : Bytes)
  | readFull (endpoint : Bytes) (n : Nat)
  | now

/-- An error is its text. -/
def Ret : Op → Type
  | .dial _ => Except Bytes Unit
  | .close _ => Unit
  | .setWriteDeadline _ => Except Bytes Unit
  | .write _ _ => Except Bytes Unit
  | .setReadDeadline _ => Except Bytes Unit
  | .readFull _ n => Except Bytes { l : Bytes // l.length = n }
  | .now => Int

abbrev Wire := Prog Op Ret

variable (endpoint : Bytes)

abbrev Wire.dial : Wire (Except Bytes Unit) := perform (Op.dial endpoint)
abbrev Wire.close : Wire Unit := perform (Op.close endpoint)
abbrev Wire.setWriteDeadline : Wire (Except Bytes Unit) :=
  perform (Op.setWriteDeadline endpoint)
abbrev Wire.write (endpoint frame : Bytes) : Wire (Except Bytes Unit) :=
  perform (Op.write endpoint frame)
abbrev Wire.setReadDeadline : Wire (Except Bytes Unit) :=
  perform (Op.setReadDeadline endpoint)
abbrev Wire.readFull (n : Nat) :
    Wire (Except Bytes { l : Bytes // l.length = n }) := perform (Op.readFull endpoint n)
abbrev Wire.now : Wire Int := perform Op.now

/-- What `errConnLost` is wrapped around. -/
inductive Lost where
  | noConn
  | setWriteDeadline (e : Bytes)
  | write (e : Bytes)
  | setReadDeadline (e : Bytes)
  | readHeader (e : Bytes)
  | protoID (id : UInt16)
  | badLength (n : UInt16)
  | txID (want got : UInt16)
  | readBody (e : Bytes)
  | emptyPDU
  | truncatedException
deriving DecidableEq

inductive WireError where
  | connLost (why : Lost)
  | exception (code : UInt8)
  | shortRead
  | shortReadback
  | noEndpoint
  | dial (e : Bytes)
deriving DecidableEq

def WireError.isModbusException : WireError → Bool
  | .exception _ => true
  | _ => false

structure Driver where
  bindings : List Binding
  endpoint : Bytes
  unitID : UInt8
  /-- `conn != nil`. -/
  conn : Bool
  txID : UInt16
  connected : Bool
  lastSuccess : Int
  errorCount : Nat
  detail : Option WireError
deriving DecidableEq

def Driver.new (bindings : List Binding) : Driver :=
  ⟨bindings, [], 0, false, 0, false, 0, 0, none⟩

/-! ### Frames -/

def fcReadHolding : UInt8 := 0x03
def fcReadInput : UInt8 := 0x04
def fcWriteSingle : UInt8 := 0x06
def exceptionMask : UInt8 := 0x80
def mbapHeader : Nat := 6

def readPDU (fc : UInt8) (register : UInt16) : Bytes := fc :: (be16 register ++ be16 1)

def writePDU (register val : UInt16) : Bytes := fcWriteSingle :: (be16 register ++ be16 val)

def frame (txID : UInt16) (unitID : UInt8) (pdu : Bytes) : Bytes :=
  be16 txID ++ be16 0 ++ be16 (.ofNat (1 + pdu.length)) ++ unitID :: pdu

def readHeader (txID : UInt16) (hdr : Bytes) : Except Lost UInt16 :=
  let rxID := readBe16 (hdr.take 2)
  let protoID := readBe16 ((hdr.drop 2).take 2)
  let length := readBe16 ((hdr.drop 4).take 2)
  if protoID ≠ 0 then .error (.protoID protoID)
  else if length < 2 ∨ length > 253 then .error (.badLength length)
  else if rxID ≠ txID then .error (.txID txID rxID)
  else .ok length

/-- The protocol data unit of a body: what follows the unit id. -/
def readBody (rest : Bytes) : Except WireError Bytes :=
  match rest.drop 1 with
  | [] => .error (.connLost .emptyPDU)
  | fc :: data =>
    if fc &&& exceptionMask ≠ 0 then
      match data with
      | [] => .error (.connLost .truncatedException)
      | code :: _ => .error (.exception code)
    else .ok (fc :: data)

/-- The register in the answer to `readPDU`. -/
def registerOf (resp : Bytes) : UInt16 := readBe16 ((resp.drop 2).take 2)

/-! ### Internals -/

namespace Driver

variable (d : Driver)

/-- What is read once the frame is out. -/
def receive : Wire (Except WireError Bytes) := do
  match ← Wire.readFull d.endpoint mbapHeader with
  | .error e => pure (.error (.connLost (.readHeader e)))
  | .ok hdr =>
    match readHeader d.txID hdr.val with
    | .error why => pure (.error (.connLost why))
    | .ok length =>
      match ← Wire.readFull d.endpoint length.toNat with
      | .error e => pure (.error (.connLost (.readBody e)))
      | .ok rest => pure (readBody rest.val)

def exchange (pdu : Bytes) : Wire (Except WireError Bytes) := do
  match ← Wire.setWriteDeadline d.endpoint with
  | .error e => pure (.error (.connLost (.setWriteDeadline e)))
  | .ok _ =>
    match ← Wire.write d.endpoint (frame d.txID d.unitID pdu) with
    | .error e => pure (.error (.connLost (.write e)))
    | .ok _ =>
      match ← Wire.setReadDeadline d.endpoint with
      | .error e => pure (.error (.connLost (.setReadDeadline e)))
      | .ok _ => d.receive

def nextTxID : Driver := { d with txID := d.txID + 1 }

def roundTrip (pdu : Bytes) : Wire (Except WireError Bytes × Driver) :=
  if !d.conn then pure (.error (.connLost .noConn), d)
  else do
    let r ← d.nextTxID.exchange pdu
    pure (r, d.nextTxID)

def closeConn : Wire Driver := do
  if d.conn then
    let _ ← Wire.close d.endpoint
    pure { d with conn := false, connected := false }
  else pure { d with connected := false }

def dial : Wire (Option WireError × Driver) :=
  if d.endpoint = [] then pure (some .noEndpoint, { d with connected := false })
  else do
    match ← Wire.dial d.endpoint with
    | .error e => pure (some (.dial e), { d with connected := false, detail := some (.dial e) })
    | .ok _ => pure (none, { d with conn := true, connected := true })

def reconnect : Wire (Option WireError × Driver) :=
  if d.conn then do
    let _ ← Wire.close d.endpoint
    { d with conn := false }.dial
  else d.dial

def recordErr (e : WireError) : Driver :=
  { d with errorCount := d.errorCount + 1, detail := some e }

/-- The connection a round or a write starts with. -/
def ensureConn : Wire (Option WireError × Driver) :=
  if d.conn then pure (none, d)
  else do
    let (e, d) ← d.reconnect
    match e with
    | some e => pure (some e, { d with errorCount := d.errorCount + 1 })
    | none => pure (none, d)

/-! ### Init -/

end Driver

inductive InitError where
  | ctx
  | emptyTable
  | emptyPoint (i : Nat)
  | invalidTable (i : Nat) (point name : Bytes)
  | inputWritable (i : Nat) (point : Bytes)
  | duplicate (i : Nat) (point : Bytes)
  | unitID (s : Bytes)
  | dial (e : Bytes)
deriving DecidableEq

def checkBindings (i : Nat) (seen : List Bytes) : List Binding → Option InitError
  | [] => none
  | b :: rest =>
    if b.point = [] then some (.emptyPoint i)
    else match b.table with
      | .other name => some (.invalidTable i b.point name)
      | _ =>
        if b.table = .input ∧ b.writable = true then some (.inputWritable i b.point)
        else if b.point ∈ seen then some (.duplicate i b.point)
        else checkBindings (i + 1) (b.point :: seen) rest

namespace Driver

def init (d : Driver) (ctxDone : Bool) (cfg : DriverConfig) :
    Wire (Option InitError × Driver) :=
  if ctxDone then pure (some .ctx, d)
  else if d.bindings = [] then pure (some .emptyTable, d)
  else match checkBindings 0 [] d.bindings with
    | some e => pure (some e, d)
    | none =>
      let uidStr : Bytes := if cfg.unitID = [] then "1" else cfg.unitID
      match parseUint 256 uidStr with
      | none => pure (some (.unitID uidStr), d)
      | some uid => do
        if d.conn then
          let _ ← Wire.close d.endpoint
        let d := { d with
          conn := false, endpoint := cfg.endpoint, unitID := .ofNat uid, txID := 0,
          connected := false, lastSuccess := 0, errorCount := 0, detail := none }
        match ← Wire.dial cfg.endpoint with
        | .error e => pure (some (.dial e), { d with detail := some (.dial e) })
        | .ok _ => pure (none, { d with conn := true, connected := true })

/-! ### Collect -/

end Driver

def suspectSample (point : Bytes) (ts : Int) : Sample := ⟨point, 0, ts, .suspect⟩

def goodSample (point : Bytes) (val : UInt16) (ts : Int) : Sample := ⟨point, val.toNat, ts, .good⟩

def Binding.readPDU (b : Binding) : Bytes :=
  Modbus.readPDU (match b.table with
    | .holding => fcReadHolding
    | _ => fcReadInput) b.register

namespace Driver

/-- The rest of a round that cannot recover. -/
def fillSuspect (rest : List Binding) : Wire (List Sample) := do
  let now ← Wire.now
  pure (rest.map fun b => suspectSample b.point now)

/-- The connection is lost at `b`: one attempt to get it back, for the bindings that are left. -/
def lose (d : Driver) (e : WireError) (b : Binding) (rest : List Binding)
    (next : Driver → Wire (List Sample × Driver)) : Wire (List Sample × Driver) := do
  let now ← Wire.now
  let d ← (d.recordErr e).closeConn
  let (err, d) ← d.reconnect
  match err with
  | some _ =>
    let samples ← fillSuspect rest
    pure (suspectSample b.point now :: samples, d)
  | none =>
    let (samples, d) ← next d
    pure (suspectSample b.point now :: samples, d)

/-- The round over the bindings that are left, and whether all before were good. -/
def round (d : Driver) : List Binding → Bool → Wire (List Sample × Driver)
  | [], allGood =>
    if allGood then do
      let now ← Wire.now
      pure ([], { d with lastSuccess := now })
    else pure ([], d)
  | b :: rest, allGood => do
    let (r, d) ← d.roundTrip b.readPDU
    match r with
    | .ok resp =>
      if resp.length < 4 then d.lose .shortRead b rest fun d => d.round rest false
      else
        let now ← Wire.now
        let (samples, d) ← d.round rest allGood
        pure (goodSample b.point (registerOf resp) now :: samples, d)
    | .error (.exception code) =>
      -- The connection survives; only this point is suspect.
      let now ← Wire.now
      let (samples, d) ← (d.recordErr (.exception code)).round rest false
      pure (suspectSample b.point now :: samples, d)
    | .error e => d.lose e b rest fun d => d.round rest false

/-- The source's error is always `nil`. -/
def collect (d : Driver) : Wire (List Sample × Driver) := do
  let (err, d) ← d.ensureConn
  match err with
  | some _ =>
    let samples ← fillSuspect d.bindings
    pure (samples, d)
  | none => d.round d.bindings true

/-! ### Write -/

end Driver

inductive WriteError where
  | ctx
  | notInTable (point : Bytes)
  | notWritable (point : Bytes)
  | expired (point : Bytes)
  | connect (point : Bytes) (e : WireError)
  | write (point : Bytes) (e : WireError)
  | readback (point : Bytes) (e : WireError)
  | malformed (point : Bytes)
deriving DecidableEq

namespace Driver

/-- The checks before any input or output: the binding of the point, if it may be written. -/
def checkWrite (d : Driver) (ctxDone : Bool) (cmd : ControlCommand) : Except WriteError Binding :=
  if ctxDone then .error .ctx
  else match d.bindings.find? (fun b => b.point = cmd.point) with
    | none => .error (.notInTable cmd.point)
    | some b =>
      if !b.writable then .error (.notWritable cmd.point)
      else if cmd.ttl ≤ 0 then .error (.expired cmd.point)
      else .ok b

/-- A request of a write has failed: only an exception leaves the connection open. -/
def giveUp (d : Driver) (e : WireError) : Wire Driver :=
  if e.isModbusException then pure (d.recordErr e) else (d.recordErr e).closeConn

def confirm (d : Driver) (point : Bytes) (register : UInt16) :
    Wire ((ControlResult × Option WriteError) × Driver) := do
  let (r, d) ← d.roundTrip (readPDU fcReadHolding register)
  match r with
  | .error e =>
    let d ← d.giveUp e
    pure (({}, some (.readback point e)), d)
  | .ok resp =>
    if resp.length < 4 then
      let d ← d.giveUp .shortReadback
      pure (({}, some (.malformed point)), d)
    else
      let now ← Wire.now
      pure ((⟨true, (registerOf resp).toNat, now⟩, none), d)

def write (d : Driver) (uint16 : Rat → UInt16) (ctxDone : Bool) (cmd : ControlCommand) :
    Wire ((ControlResult × Option WriteError) × Driver) :=
  match d.checkWrite ctxDone cmd with
  | .error e => pure (({}, some e), d)
  | .ok b => do
    let (e, d) ← d.ensureConn
    match e with
    | some e => pure (({}, some (.connect cmd.point e)), d)
    | none =>
      let (w, d) ← d.roundTrip (writePDU b.register (uint16 cmd.value))
      match w with
      | .error e =>
        let d ← d.giveUp e
        pure (({}, some (.write cmd.point e)), d)
      | .ok _ => d.confirm cmd.point b.register

end Driver

end Cios.Modbus
