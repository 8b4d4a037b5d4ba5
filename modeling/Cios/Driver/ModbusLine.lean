import Cios.Driver.Modbus

/-!
# Driver — Modbus against a device

A `Line` is whatever answers the driver: connections, devices and the clock, as a state machine of
any kind.  It records the register writes that take effect, and all that is asked of it is that a
write takes effect only because a frame asked for it, and at most once for each frame.  Whether it
does is decided when the frame is out, however late the device acts.

Polling writes no register (`writes_collect`).  A command that passes the checks takes one of three
courses (`Line.course`), which determines what is reported and what was written (`write_course`).
-/

namespace Cios.Driver
open Text

/-- One sample for each point, in order; the last success moves only if all are good. -/
structure Round (allGood : Bool) (points : List Bytes) (last : Int) (samples : List Sample)
    (last' : Int) : Prop where
  points : samples.map Sample.point = points
  success : last' = last ∨ allGood = true ∧ ∀ x ∈ samples, x.quality = .good

variable {allGood : Bool} {points : List Bytes} {last last' : Int} {samples : List Sample}
  {x : Sample}

theorem Round.suspect (h : Round false points last samples last') :
    Round allGood (x.point :: points) last (x :: samples) last' :=
  ⟨congrArg _ h.points, .inl (by simpa using h.success)⟩

theorem Round.good (h : Round allGood points last samples last') (hx : x.quality = .good) :
    Round allGood (x.point :: points) last (x :: samples) last' :=
  ⟨congrArg _ h.points, h.success.imp_right (And.imp_right (List.forall_mem_cons.mpr ⟨hx, ·⟩))⟩

end Cios.Driver

namespace Cios.Modbus
open Text
open Effect (Prog)
open Effect.Prog
open Framing (be16 readBe16 readBe16_be16)
open Cios.Driver

/-! ### Requests -/

/-- A register write that was asked for. -/
structure RegisterWrite where
  endpoint : Bytes
  register : UInt16
  value : UInt16
deriving DecidableEq

/-- The register write a protocol data unit asks for. -/
def writeOf (endpoint : Bytes) : Bytes → Option RegisterWrite
  | [fc, a, b, c, d] =>
    if fc = fcWriteSingle then some ⟨endpoint, readBe16 [a, b], readBe16 [c, d]⟩ else none
  | _ => none

def Op.request : Op → Option RegisterWrite
  | .write endpoint f => writeOf endpoint (f.drop 7)
  | _ => none

@[simp] theorem writeOf_writePDU (endpoint : Bytes) (register val : UInt16) :
    writeOf endpoint (writePDU register val) = some ⟨endpoint, register, val⟩ := by
  have h₁ : readBe16 [.ofNat (register.toNat / 2 ^ 8), .ofNat register.toNat] = register :=
    readBe16_be16 register
  have h₂ : readBe16 [.ofNat (val.toNat / 2 ^ 8), .ofNat val.toNat] = val := readBe16_be16 val
  show some (RegisterWrite.mk endpoint (readBe16 _) (readBe16 _)) = _
  rw [h₁, h₂]

theorem writeOf_readPDU (endpoint : Bytes) {fc : UInt8} (h : fc ≠ fcWriteSingle)
    (register : UInt16) : writeOf endpoint (readPDU fc register) = none :=
  if_neg h

/-- A program that asks for no register write, whatever the answers. -/
def Quiet {α : Type} (p : Wire α) : Prop := p.Calls fun op => op.request = none

/-- The operation is one on a connection. -/
def Op.onConn : Op → Bool
  | .dial _ => false
  | .now => false
  | _ => true

/-- Whether there is an open connection after the operation. -/
def Op.opened (o : Bool) : (op : Op) → Ret op → Bool
  | .dial _, .ok _ => true
  | .close _, _ => false
  | _, _ => o

/-- The operation leaves an open connection open, and asks for no write. -/
def Op.Reads (op : Op) : Prop := op.request = none ∧ ∀ r, op.opened true r = true

/-- A quiet program that does nothing on a connection that is not open. -/
def Tracked {α : Type} (Q : α → Bool → Prop) : Wire α → Bool → Prop :=
  Keeps (fun o op => op.request = none ∧ (op.onConn = true → o = true)) Op.opened Q

theorem Tracked.quiet {α : Type} {Q : α → Bool → Prop} {p : Wire α} {o : Bool} (h : Tracked Q p o) :
    Quiet p :=
  Keeps.calls (fun _ _ hop => hop.1) h

namespace Driver

variable (d : Driver)

theorem reads_receive : d.receive.Calls Op.Reads := by
  refine ⟨⟨rfl, fun _ => rfl⟩, fun hdr => ?_⟩
  cases hdr with
  | error e => trivial
  | ok hdr =>
    simp only [Prog.bind]
    cases readHeader d.txID hdr.val with
    | error why => trivial
    | ok length =>
      refine ⟨⟨rfl, fun _ => rfl⟩, fun rest => ?_⟩
      cases rest <;> trivial

theorem once_exchange {P : Op → Prop} {pdu : Bytes}
    (h : P (.write d.endpoint (frame d.txID d.unitID pdu))) :
    Once P Op.Reads (d.exchange pdu) := by
  refine .inl ⟨⟨rfl, fun _ => rfl⟩, fun r => ?_⟩
  cases r with
  | error e => trivial
  | ok _ =>
    refine .inr ⟨h, fun r => ?_⟩
    cases r with
    | error e => trivial
    | ok _ =>
      refine ⟨⟨rfl, fun _ => rfl⟩, fun r => ?_⟩
      cases r with
      | error e => trivial
      | ok _ => exact d.reads_receive

theorem once_roundTrip {P : Op → Prop} {pdu : Bytes}
    (h : P (.write d.endpoint (frame (d.txID + 1) d.unitID pdu))) :
    Once P Op.Reads (d.roundTrip pdu) := by
  unfold roundTrip
  split
  · trivial
  · exact Once.bind (d.nextTxID.once_exchange h) fun r => trivial

/-- `d'` is `d`, but for its connection and what it counts, and knows whether that is open. -/
def Knows (d' : Driver) (o : Bool) : Prop :=
  o = d'.conn ∧ d'.lastSuccess = d.lastSuccess ∧ d'.bindings = d.bindings

theorem tracked_roundTrip {pdu : Bytes} (h : writeOf d.endpoint pdu = none) :
    Tracked (fun out => d.Knows out.2) (d.roundTrip pdu) d.conn := by
  unfold roundTrip
  cases hconn : d.conn with
  | false => exact ⟨hconn.symm, rfl, rfl⟩
  | true =>
    have hreads := Once.calls (d.nextTxID.once_exchange (P := Op.Reads) ⟨h, fun _ => rfl⟩)
    refine (Calls.keeps (hreads.mono fun op hop => ⟨⟨hop.1, fun _ => rfl⟩, hop.2⟩)).bind ?_
    rintro _ _ rfl
    exact ⟨hconn.symm, rfl, rfl⟩

theorem tracked_closeConn : Tracked d.Knows d.closeConn d.conn := by
  unfold closeConn
  cases d.conn with
  | false => exact ⟨rfl, rfl, rfl⟩
  | true => exact ⟨⟨rfl, fun _ => rfl⟩, fun _ => ⟨rfl, rfl, rfl⟩⟩

theorem tracked_dial (hconn : d.conn = false) :
    Tracked (fun out => d.Knows out.2) d.dial false := by
  unfold dial
  split
  · exact ⟨hconn.symm, rfl, rfl⟩
  · refine ⟨⟨rfl, nofun⟩, fun r => ?_⟩
    cases r with
    | error e => exact ⟨hconn.symm, rfl, rfl⟩
    | ok _ => exact ⟨rfl, rfl, rfl⟩

theorem tracked_reconnect : Tracked (fun out => d.Knows out.2) d.reconnect d.conn := by
  unfold reconnect
  cases hconn : d.conn with
  | false => exact d.tracked_dial hconn
  | true =>
    refine ⟨⟨rfl, fun _ => rfl⟩, fun _ => ?_⟩
    exact @tracked_dial { d with conn := false } rfl

theorem tracked_ensureConn : Tracked (fun out => d.Knows out.2) d.ensureConn d.conn := by
  unfold ensureConn
  split
  · exact ⟨rfl, rfl, rfl⟩
  · refine d.tracked_reconnect.bind ?_
    rintro ⟨e, d'⟩ o h
    cases e <;> exact h

theorem quiet_giveUp (e : WireError) : Quiet (d.giveUp e) := by
  unfold giveUp
  split
  · trivial
  · exact (tracked_closeConn _).quiet

theorem quiet_confirm (point : Bytes) (register : UInt16) : Quiet (d.confirm point register) := by
  refine (d.tracked_roundTrip (writeOf_readPDU _ (by decide) register)).quiet.bind ?_
  rintro ⟨r, d'⟩
  cases r with
  | error e => exact (d'.quiet_giveUp e).bind fun _ => trivial
  | ok resp =>
    show Quiet (if _ then _ else _)
    split
    · exact (d'.quiet_giveUp _).bind fun _ => trivial
    · exact ⟨rfl, fun _ => trivial⟩

theorem writeOf_binding (endpoint : Bytes) (b : Binding) : writeOf endpoint b.readPDU = none := by
  unfold Binding.readPDU
  cases b.table with
  | holding => exact writeOf_readPDU endpoint (show fcReadHolding ≠ fcWriteSingle by decide) _
  | input | other _ => exact writeOf_readPDU endpoint (show fcReadInput ≠ fcWriteSingle by decide) _

/-- What a round over bindings comes to. -/
def Rounds (allGood : Bool) (bs : List Binding) (out : List Sample × Driver) (o : Bool) : Prop :=
  o = out.2.conn ∧ Round allGood (bs.map Binding.point) d.lastSuccess out.1 out.2.lastSuccess

theorem round_fillSuspect {allGood : Bool} (bs : List Binding) (now last : Int) :
    Round allGood (bs.map Binding.point) last (bs.map fun b => suspectSample b.point now) last :=
  ⟨by simp [suspectSample], .inl rfl⟩

theorem Knows.rounds {d d' : Driver} {o : Bool} (h : d.Knows d' o) : d.Rounds = d'.Rounds := by
  unfold Rounds
  rw [h.2.1]

theorem tracked_lose (e : WireError) (b : Binding) (rest : List Binding) (allGood : Bool)
    {next : Driver → Wire (List Sample × Driver)}
    (hnext : ∀ d, Tracked (Rounds d false rest) (next d) d.conn) :
    Tracked (d.Rounds allGood (b :: rest)) (d.lose e b rest next) d.conn := by
  refine ⟨⟨rfl, nofun⟩, fun now => (tracked_closeConn (d.recordErr e)).bind fun d₁ o h₁ => ?_⟩
  obtain rfl := h₁.1
  refine d₁.tracked_reconnect.bind ?_
  rintro ⟨err, d₂⟩ o h₂
  obtain rfl := h₂.1
  have hlast : d₂.lastSuccess = d.lastSuccess := h₂.2.1.trans h₁.2.1
  cases err with
  | some e =>
    refine ⟨⟨rfl, nofun⟩, fun now' => ⟨rfl, ?_⟩⟩
    rw [← hlast]
    exact (round_fillSuspect rest now' _).suspect (x := suspectSample b.point now)
  | none =>
    refine (hnext d₂).bind fun out o hout => ⟨hout.1, ?_⟩
    rw [← hlast]
    exact hout.2.suspect (x := suspectSample b.point now)

/-- A round: by induction on the bindings left, with the connection lost or not. -/
theorem tracked_round (bs : List Binding) : ∀ (d : Driver) (allGood : Bool),
    Tracked (d.Rounds allGood bs) (d.round bs allGood) d.conn := by
  induction bs with
  | nil =>
    intro d allGood
    unfold round
    split
    · next hgood => exact ⟨⟨rfl, nofun⟩, fun _ => ⟨rfl, rfl, .inr ⟨hgood, nofun⟩⟩⟩
    · exact ⟨rfl, rfl, .inl rfl⟩
  | cons b rest ih =>
    intro d allGood
    refine (d.tracked_roundTrip (writeOf_binding _ b)).bind ?_
    rintro ⟨r, d'⟩ o h
    obtain rfl := h.1
    rw [h.rounds]
    have hlose (e : WireError) := d'.tracked_lose e b rest allGood fun d => ih d false
    cases r with
    | ok resp =>
      dsimp only
      split
      · exact hlose _
      · refine ⟨⟨rfl, nofun⟩, fun now => (ih d' allGood).bind fun out o hout => ⟨hout.1, ?_⟩⟩
        exact hout.2.good (x := goodSample b.point (registerOf resp) now) rfl
    | error e =>
      cases e with
      | exception code =>
        refine ⟨⟨rfl, nofun⟩, fun now => (ih _ false).bind fun out o hout => ⟨hout.1, ?_⟩⟩
        exact hout.2.suspect (x := suspectSample b.point now)
      | _ => exact hlose _

theorem tracked_collect : Tracked (d.Rounds true d.bindings) d.collect d.conn := by
  refine d.tracked_ensureConn.bind ?_
  rintro ⟨e, d'⟩ o h
  obtain rfl := h.1
  rw [← h.2.2, h.rounds]
  cases e with
  | some e => exact ⟨⟨rfl, nofun⟩, fun now => ⟨rfl, round_fillSuspect _ now _⟩⟩
  | none => exact tracked_round _ d' true

/-! ### Lines -/

end Driver

/-- What answers the driver.  `writes` are the register writes that take effect, oldest first. -/
structure Line (S : Type) where
  answer : (op : Op) → S → Ret op × S
  writes : S → List RegisterWrite
  /-- A write takes effect only for a frame that asks for it, and once. -/
  effect : ∀ op s, writes (answer op s).2 = writes s ∨
    ∃ w, op.request = some w ∧ writes (answer op s).2 = writes s ++ [w]

namespace Line

variable {S : Type} (L : Line S)

theorem writes_of_quiet {α : Type} {p : Wire α} (hp : Quiet p) (s : S) :
    L.writes (p.exec L.answer s).2 = L.writes s := by
  refine Calls.exec_rel (R := fun s s' => L.writes s' = L.writes s) (fun _ => rfl)
    (fun h₁ h₂ => h₂.trans h₁) ?_ hp s
  intro op s hop
  rcases L.effect op s with h | ⟨w, hw, -⟩
  · exact h
  · rw [hop] at hw
    cases hw

/-- **Polling writes no register.** -/
theorem writes_collect (d : Driver) (s : S) :
    L.writes (d.collect.exec L.answer s).2 = L.writes s :=
  L.writes_of_quiet d.tracked_collect.quiet s

theorem writes_of_once {α : Type} {p : Wire α} {w : RegisterWrite}
    (hp : Once (fun op => op.request = some w) Op.Reads p) (s : S) :
    L.writes (p.exec L.answer s).2 = L.writes s ∨
      L.writes (p.exec L.answer s).2 = L.writes s ++ [w] := by
  refine Once.exec_cases (g := fun l => l ++ [w]) ?_ ?_ hp s
  · intro op s hop
    rcases L.effect op s with h | ⟨w', hw, -⟩
    · exact h
    · rw [hop.1] at hw
      cases hw
  · intro op s hop
    rcases L.effect op s with h | ⟨w', hw, h⟩
    · exact .inl h
    · obtain rfl : w = w' := Option.some.inj (hop.symm.trans hw)
      exact .inr h

theorem writes_roundTrip (d : Driver) (register val : UInt16) (s : S) :
    let s' := ((d.roundTrip (writePDU register val)).exec L.answer s).2
    L.writes s' = L.writes s ∨ L.writes s' = L.writes s ++ [⟨d.endpoint, register, val⟩] := by
  have h : (Op.write d.endpoint (frame (d.txID + 1) d.unitID (writePDU register val))).request =
      some ⟨d.endpoint, register, val⟩ := writeOf_writePDU d.endpoint register val
  exact L.writes_of_once (d.once_roundTrip h) s

end Line

/-! ### Commands -/

/-- What comes of a command that passes the checks. -/
inductive Course where
  /-- There is no connection, and no request goes out. -/
  | refused
  /-- The write or the read back was not answered.  `took`: whether the write took effect. -/
  | failed (took : Bool)
  /-- Both were answered. -/
  | confirmed (took : Bool) (readback : UInt16)
deriving DecidableEq

/-- The register an answer to a read back holds, if it holds one. -/
def readbackOf : Except WireError Bytes → Option UInt16
  | .error _ => none
  | .ok resp => if resp.length < 4 then none else some (registerOf resp)

namespace Line

variable {S : Type} (L : Line S) (d : Driver) (s : S)

/-- After the write request `w`, answered in the state `s'`. -/
def courseOf (register : UInt16) (took : Bool) (w : Except WireError Bytes × Driver) (s' : S) :
    Course :=
  match w.1 with
  | .error _ => .failed took
  | .ok _ =>
    match readbackOf ((w.2.roundTrip (readPDU fcReadHolding register)).exec L.answer s').1.1 with
    | none => .failed took
    | some rb => .confirmed took rb

/-- What the line makes of writing `val` to a register. -/
def course (register val : UInt16) : Course :=
  let c := d.ensureConn.exec L.answer s
  match c.1.1 with
  | some _ => .refused
  | none =>
    let w := (c.1.2.roundTrip (writePDU register val)).exec L.answer c.2
    L.courseOf register (decide (L.writes w.2 ≠ L.writes c.2)) w.1 w.2

/-- What is reported and what was written, for each course. -/
def Reports (w : RegisterWrite) (before after : List RegisterWrite)
    (out : ControlResult × Option WriteError) : Course → Prop
  | .refused => out.1.accepted = false ∧ out.2.isSome = true ∧ after = before
  | .failed took => out.1.accepted = false ∧ out.2.isSome = true ∧
      after = if took then before ++ [w] else before
  | .confirmed took rb => out.1.accepted = true ∧ out.1.readback = rb.toNat ∧ out.2 = none ∧
      after = if took then before ++ [w] else before

theorem dial_endpoint : (d.dial.exec L.answer s).1.2.endpoint = d.endpoint := by
  unfold Driver.dial
  split
  · rfl
  · rw [exec_bind]
    cases (exec L.answer (Wire.dial d.endpoint) s).1 <;> rfl

theorem ensureConn_endpoint : (d.ensureConn.exec L.answer s).1.2.endpoint = d.endpoint := by
  unfold Driver.ensureConn
  split
  · rfl
  rename_i hconn
  rw [exec_bind, Driver.reconnect, if_neg hconn]
  have h := L.dial_endpoint d s
  rcases hd : d.dial.exec L.answer s with ⟨⟨e, d'⟩, s'⟩
  rw [hd] at h
  cases e with
  | none => exact h
  | some e => exact h

/-- What is reported where a request of the command has failed. -/
def failWith (d : Driver) (e : WireError) (err : WriteError) :
    Wire ((ControlResult × Option WriteError) × Driver) := do
  let d ← d.giveUp e
  pure (({}, some err), d)

theorem exec_failWith (e : WireError) (err : WriteError) :
    let out := (failWith d e err).exec L.answer s
    out.1.1 = ({}, some err) ∧ L.writes out.2 = L.writes s := by
  refine ⟨by rw [failWith, exec_bind]; rfl, ?_⟩
  have h : Quiet (failWith d e err) := (d.quiet_giveUp e).bind fun _ => trivial
  exact L.writes_of_quiet h s

theorem confirm_spec (point : Bytes) (register : UInt16) :
    let out := (d.confirm point register).exec L.answer s
    L.writes out.2 = L.writes s ∧
    match readbackOf ((d.roundTrip (readPDU fcReadHolding register)).exec L.answer s).1.1 with
    | none => out.1.1.1.accepted = false ∧ out.1.1.2.isSome = true
    | some rb => out.1.1.1.accepted = true ∧ out.1.1.1.readback = rb.toNat ∧ out.1.1.2 = none := by
  refine ⟨L.writes_of_quiet (d.quiet_confirm point register) s, ?_⟩
  rw [Driver.confirm, exec_bind]
  rcases (d.roundTrip (readPDU fcReadHolding register)).exec L.answer s with ⟨⟨r, d'⟩, s'⟩
  cases r with
  | error e =>
    obtain ⟨h, -⟩ := L.exec_failWith d' s' e (.readback point e)
    exact ⟨congrArg (·.1.accepted) h, congrArg (·.2.isSome) h⟩
  | ok resp =>
    by_cases hlen : resp.length < 4
    · obtain ⟨h, -⟩ := L.exec_failWith d' s' .shortReadback (.malformed point)
      simp only [readbackOf, if_pos hlen]
      exact ⟨congrArg (·.1.accepted) h, congrArg (·.2.isSome) h⟩
    · simp only [readbackOf, if_neg hlen]
      exact ⟨rfl, rfl, rfl⟩

theorem reports_after_write (d₂ : Driver) (w : Except WireError Bytes) (register : UInt16) {s₂ : S}
    {before : List RegisterWrite} {reg : RegisterWrite}
    (hw : L.writes s₂ = before ∨ L.writes s₂ = before ++ [reg]) (point : Bytes) :
    let out := (match w with
      | .error e => failWith d₂ e (.write point e)
      | .ok _ => d₂.confirm point register).exec L.answer s₂
    Reports reg before (L.writes out.2) out.1.1
      (L.courseOf register (decide (L.writes s₂ ≠ before)) (w, d₂) s₂) := by
  have took : L.writes s₂ = if decide (L.writes s₂ ≠ before) then before ++ [reg] else before := by
    rcases hw with hw | hw <;> simp [hw]
  cases w with
  | error e =>
    obtain ⟨hres, hwrites⟩ := L.exec_failWith d₂ s₂ e (.write point e)
    exact ⟨congrArg (·.1.accepted) hres, congrArg (·.2.isSome) hres, hwrites.trans took⟩
  | ok resp =>
    obtain ⟨hwrites, hres⟩ := L.confirm_spec d₂ s₂ point register
    simp only [courseOf]
    cases hrb : readbackOf ((d₂.roundTrip
        (readPDU fcReadHolding register)).exec L.answer s₂).1.1 with
    | none =>
      rw [hrb] at hres
      exact ⟨hres.1, hres.2, hwrites.trans took⟩
    | some rb =>
      rw [hrb] at hres
      exact ⟨hres.1, hres.2.1, hres.2.2, hwrites.trans took⟩

/-- **A command is reported by its course**, and what it writes is its register or nothing. -/
theorem write_course (uint16 : Rat → UInt16) (ctxDone : Bool) (cmd : ControlCommand) {b : Binding}
    (h : d.checkWrite ctxDone cmd = .ok b) :
    let out := (d.write uint16 ctxDone cmd).exec L.answer s
    Reports ⟨d.endpoint, b.register, uint16 cmd.value⟩ (L.writes s) (L.writes out.2) out.1.1
      (L.course d s b.register (uint16 cmd.value)) := by
  have hend := L.ensureConn_endpoint d s
  have hquiet := L.writes_of_quiet d.tracked_ensureConn.quiet s
  rw [Driver.write, h]
  simp only [exec_bind, course]
  rcases hc : d.ensureConn.exec L.answer s with ⟨⟨e, d₁⟩, s₁⟩
  rw [hc] at hend hquiet
  dsimp only at hend hquiet
  cases e with
  | some e => exact ⟨rfl, rfl, hquiet⟩
  | none =>
    simp only [exec_bind]
    have hw := L.writes_roundTrip d₁ b.register (uint16 cmd.value) s₁
    rcases hx : (d₁.roundTrip (writePDU b.register (uint16 cmd.value))).exec L.answer s₁ with
      ⟨⟨w, d₂⟩, s₂⟩
    rw [hx] at hw
    simp only [hend, hquiet] at hw ⊢
    exact L.reports_after_write d₂ w b.register hw cmd.point

theorem write_not_admitted (uint16 : Rat → UInt16) (ctxDone : Bool) (cmd : ControlCommand)
    {e : WriteError} (h : d.checkWrite ctxDone cmd = .error e) :
    (d.write uint16 ctxDone cmd).exec L.answer s = ((({}, some e), d), s) := by
  rw [Driver.write, h]
  rfl

end Line

/-! ### A device that does what it is asked -/

/-- Holding registers, what was sent and is not read yet, and the writes. -/
structure Plc where
  holding : UInt16 → UInt16
  inbox : Bytes
  writes : List RegisterWrite

namespace Plc

/-- The answer to a protocol data unit; what is no read or write is an illegal function. -/
def dispatch (p : Plc) (endpoint : Bytes) : Bytes → Bytes × Plc
  | [fc, a, b, c, d] =>
    if fc = fcWriteSingle then
      ([fc, a, b, c, d], { p with
        holding := Function.update p.holding (readBe16 [a, b]) (readBe16 [c, d])
        writes := p.writes ++ [⟨endpoint, readBe16 [a, b], readBe16 [c, d]⟩] })
    else if fc = fcReadHolding then (fc :: 2 :: be16 (p.holding (readBe16 [a, b])), p)
    else ([fc ||| exceptionMask, 1], p)
  | _ => ([exceptionMask, 1], p)

def answer : (op : Op) → Plc → Ret op × Plc
  | .dial _, p => (.ok (), { p with inbox := [] })
  | .close _, p => ((), { p with inbox := [] })
  | .setWriteDeadline _, p => (.ok (), p)
  | .write endpoint f, p =>
    let r := p.dispatch endpoint (f.drop 7)
    (.ok (), { r.2 with inbox := p.inbox ++ frame (readBe16 (f.take 2)) (f.getD 6 0) r.1 })
  | .setReadDeadline _, p => (.ok (), p)
  | .readFull _ n, p =>
    if h : n ≤ p.inbox.length then
      (.ok ⟨p.inbox.take n, List.length_take_of_le h⟩, { p with inbox := p.inbox.drop n })
    else (.error "i/o timeout", p)
  | .now, p => ((0 : Int), p)

theorem writes_dispatch (p : Plc) (endpoint pdu : Bytes) :
    (p.dispatch endpoint pdu).2.writes = p.writes ∨ ∃ w, writeOf endpoint pdu = some w ∧
      (p.dispatch endpoint pdu).2.writes = p.writes ++ [w] := by
  unfold dispatch writeOf
  split
  · split
    · exact .inr ⟨_, rfl, rfl⟩
    · split <;> exact .inl rfl
  · exact .inl rfl

def line : Line Plc where
  answer := answer
  writes := writes
  effect := by
    intro op p
    cases op with
    | write endpoint f => exact p.writes_dispatch endpoint (f.drop 7)
    | readFull endpoint n =>
      refine .inl ?_
      simp only [answer]
      split <;> rfl
    | _ => exact .inl rfl

end Plc

end Cios.Modbus
