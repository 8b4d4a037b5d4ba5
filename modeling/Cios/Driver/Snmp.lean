import Cios.Driver.ModbusLine

/-!
# Driver — SNMP

The other pull driver of the gateway (`pkg/driver/snmp/snmp.go`), as far as a round of `Collect`
goes.  It is a program over its session as the Modbus driver is one over its connection.  Its
session is a value of the `gosnmp` library: what that makes of a request is part of the answers.
-/

namespace Cios.Snmp
open Text
open Effect (Prog)
open Effect.Prog
open Cios.Driver
open Cios.Modbus (suspectSample)

structure Binding where
  point : Bytes
  oid : Bytes

/-- The types of a variable that `Collect` tells apart. -/
inductive Asn1BER where
  | noSuchObject
  | noSuchInstance
  | endOfMibView
  | other (name : Bytes)

/-- `value` is `numericToFloat` of the variable's: a number of any type, as a `float64`. -/
structure SnmpPDU where
  type : Asn1BER
  value : Option Rat

inductive Op where
  | connect (host : Bytes) (port : UInt16) (community : Bytes)
  | close
  | get (oid : Bytes)
  | now

/-- An error is its text; a packet is the list of its variables. -/
def Ret : Op → Type
  | .connect _ _ _ => Except Bytes Unit
  | .close => Unit
  | .get _ => Except Bytes (Option (List SnmpPDU))
  | .now => Int

abbrev Wire := Prog Op Ret

inductive SnmpError where
  | endpoint (e : Bytes)
  | connect (e : Bytes)
  | get (e : Bytes)
  | emptyResponse (oid : Bytes)
  | notPresent (oid : Bytes) (type : Asn1BER)
  | nonNumeric (oid : Bytes) (type : Asn1BER)

structure Driver where
  bindings : List Binding
  endpoint : Bytes
  community : Bytes
  /-- `sess != nil`. -/
  sess : Bool
  connected : Bool
  lastSuccess : Int
  errorCount : Nat
  detail : Option SnmpError

def normalizeOID (oid : Bytes) : Bytes := (cutPrefix "." oid).getD oid

/-- The number in a response. -/
def reading (oid : Bytes) : Option (List SnmpPDU) → Except SnmpError Rat
  | none => .error (.emptyResponse oid)
  | some [] => .error (.emptyResponse oid)
  | some (v :: _) =>
    match v.type, v.value with
    | .other _, some x => .ok x
    | .other name, none => .error (.nonNumeric oid (.other name))
    | type, _ => .error (.notPresent oid type)

namespace Driver

-- `target` splits an endpoint into its host and its port.
variable (target : Bytes → Except Bytes (Bytes × UInt16)) (d : Driver)

def dial : Wire (Bool × Driver) :=
  if d.endpoint = [] then pure (false, { d with connected := false })
  else match target d.endpoint with
    | .error e => pure (false, { d with connected := false, detail := some (.endpoint e) })
    | .ok (host, port) => do
      match ← perform (Op.connect host port d.community) with
      | .error e => pure (false, { d with connected := false, detail := some (.connect e) })
      | .ok _ => pure (true, { d with sess := true })

/-- Whether there is a session, and the driver. -/
def reconnect : Wire (Bool × Driver) :=
  if d.sess then do
    let _ ← perform Op.close
    dial target { d with sess := false }
  else d.dial target

def recordErr (e : SnmpError) : Driver :=
  { d with errorCount := d.errorCount + 1, detail := some e }

def fillSuspect (rest : List Binding) : Wire (List Sample) := do
  let now ← perform Op.now
  pure (rest.map fun b => suspectSample b.point now)

/-- The round over the bindings that are left, and whether all before were good. -/
def round (d : Driver) : List Binding → Bool → Wire (List Sample × Driver)
  | [], allGood =>
    if allGood then do
      let now ← perform Op.now
      pure ([], { d with lastSuccess := now })
    else pure ([], d)
  | b :: rest, allGood => do
    let r ← perform (Op.get (normalizeOID b.oid))
    let now ← perform Op.now
    match r with
    | .error e =>
      let (ok, d) ← reconnect target { d.recordErr (.get e) with connected := false }
      if ok then
        let (samples, d) ← round d rest false
        pure (suspectSample b.point now :: samples, d)
      else
        let samples ← fillSuspect rest
        pure (suspectSample b.point now :: samples, d)
    | .ok pkt =>
      match reading (normalizeOID b.oid) pkt with
      | .error e =>
        let (samples, d) ← round { d.recordErr e with connected := true } rest false
        pure (suspectSample b.point now :: samples, d)
      | .ok x =>
        let (samples, d) ← round { d with connected := true } rest allGood
        pure (⟨b.point, x, now, .good⟩ :: samples, d)

/-- The session a round starts with. -/
def ensureSess : Wire (Bool × Driver) := if d.sess then pure (true, d) else d.reconnect target

/-- The source's error is always `nil`. -/
def collect : Wire (List Sample × Driver) := do
  let (ok, d) ← d.ensureSess target
  if ok then d.round target d.bindings true
  else
    let samples ← fillSuspect d.bindings
    pure (samples, { d with errorCount := d.errorCount + 1 })

end Driver

/-! ### A round -/

def Op.onConn : Op → Bool
  | .close => true
  | .get _ => true
  | _ => false

def Op.opened (o : Bool) : (op : Op) → Ret op → Bool
  | .connect _ _ _, .ok _ => true
  | .close, _ => false
  | _, _ => o

def Tracked {α : Type} (Q : α → Bool → Prop) : Wire α → Bool → Prop :=
  Keeps (fun o op => op.onConn = true → o = true) Op.opened Q

namespace Driver

variable (target : Bytes → Except Bytes (Bytes × UInt16)) (d : Driver)

/-- After an attempt at a session: `d'` is `d` but for that, and knows whether it has one. -/
def Knows (out : Bool × Driver) (o : Bool) : Prop :=
  o = out.2.sess ∧ (out.1 = true → o = true) ∧ out.2.lastSuccess = d.lastSuccess ∧
    out.2.bindings = d.bindings

theorem tracked_dial (hsess : d.sess = false) : Tracked d.Knows (d.dial target) false := by
  unfold dial
  split
  · exact ⟨hsess.symm, nofun, rfl, rfl⟩
  split
  · exact ⟨hsess.symm, nofun, rfl, rfl⟩
  · refine ⟨nofun, fun r => ?_⟩
    cases r with
    | error e => exact ⟨hsess.symm, nofun, rfl, rfl⟩
    | ok _ => exact ⟨rfl, fun _ => rfl, rfl, rfl⟩

theorem tracked_reconnect : Tracked d.Knows (d.reconnect target) d.sess := by
  unfold reconnect
  cases hsess : d.sess with
  | false => exact d.tracked_dial target hsess
  | true => exact ⟨fun _ => rfl, fun _ => tracked_dial target { d with sess := false } rfl⟩

def Rounds (allGood : Bool) (bs : List Binding) (out : List Sample × Driver) (o : Bool) : Prop :=
  o = out.2.sess ∧ Round allGood (bs.map Binding.point) d.lastSuccess out.1 out.2.lastSuccess

theorem tracked_round (bs : List Binding) : ∀ (d : Driver) (allGood : Bool), d.sess = true →
    Tracked (d.Rounds allGood bs) (d.round target bs allGood) d.sess := by
  induction bs with
  | nil =>
    intro d allGood _
    unfold round
    split
    · next hgood => exact ⟨nofun, fun _ => ⟨rfl, rfl, .inr ⟨hgood, nofun⟩⟩⟩
    · exact ⟨rfl, rfl, .inl rfl⟩
  | cons b rest ih =>
    intro d allGood hsess
    refine ⟨fun _ => hsess, fun r => ⟨nofun, fun now => ?_⟩⟩
    have hsuspect (d' : Driver) (hsess : d'.sess = true) (hlast : d'.lastSuccess = d.lastSuccess) :
        Tracked (d.Rounds allGood (b :: rest)) (d'.round target rest false >>= fun out =>
          pure (suspectSample b.point now :: out.1, out.2)) d'.sess := by
      refine (ih d' false hsess).bind fun out o hout => ⟨hout.1, ?_⟩
      rw [← hlast]
      exact hout.2.suspect (x := suspectSample b.point now)
    cases r with
    | error e =>
      refine (tracked_reconnect target _).bind ?_
      rintro ⟨ok, d'⟩ o ⟨rfl, hok, hlast, -⟩
      cases ok with
      | false =>
        refine ⟨nofun, fun now' => ⟨rfl, ?_⟩⟩
        exact .suspect (x := suspectSample b.point now) ⟨by simp [suspectSample], .inl hlast⟩
      | true => exact hsuspect d' (hok rfl) hlast
    | ok pkt =>
      dsimp only
      cases reading (normalizeOID b.oid) pkt with
      | error e => exact hsuspect _ hsess rfl
      | ok x =>
        refine (ih { d with connected := true } allGood hsess).bind fun out o hout => ⟨hout.1, ?_⟩
        exact hout.2.good (x := ⟨b.point, x, now, .good⟩) rfl

theorem tracked_collect : Tracked (d.Rounds true d.bindings) (d.collect target) d.sess := by
  have hconn : Tracked d.Knows (d.ensureSess target) d.sess := by
    unfold ensureSess
    split
    · next h => exact ⟨rfl, fun _ => h, rfl, rfl⟩
    · exact d.tracked_reconnect target
  refine hconn.bind ?_
  rintro ⟨ok, d'⟩ o ⟨rfl, hok, hlast, hbs⟩
  simp only at hlast hbs hok
  rw [← hbs, show d.Rounds = d'.Rounds by unfold Rounds; rw [hlast]]
  cases ok with
  | false => exact ⟨nofun, fun now => ⟨rfl, by simp [suspectSample], .inl rfl⟩⟩
  | true => exact tracked_round target _ d' true (hok rfl)

end Driver

end Cios.Snmp

namespace Cios.Driver

/-- **Rounds.**  Whatever the device does, a round of either driver ends, with a sample for each
binding and the connection as the driver has it; nothing is done on a closed one. -/
theorem collect_total (m : Modbus.Driver) (s : Snmp.Driver)
    (target : Text.Bytes → Except Text.Bytes (Text.Bytes × UInt16)) :
    Modbus.Tracked (m.Rounds true m.bindings) m.collect m.conn ∧
      Snmp.Tracked (s.Rounds true s.bindings) (s.collect target) s.sess :=
  ⟨m.tracked_collect, s.tracked_collect target⟩

end Cios.Driver
