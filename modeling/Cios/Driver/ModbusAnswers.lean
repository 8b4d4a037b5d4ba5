import Cios.Driver.ModbusLine
import Cios.Support.Interleave
import Mathlib.Data.List.Nodup

/-!
# Driver — the answers Modbus takes

What comes back on the connection may be anything.  Whatever it is, a good sample of a round was
read from a response to the request for its own binding (`collect_carried`), as far as the driver
checks: it looks at the transaction id and at the flag of an exception, and neither at the unit nor
at the function code.
-/

namespace Cios.Modbus
open Text
open Effect (Event)
open Effect.Prog
open Cios.Driver

abbrev Log := List (Event Op Ret)

/-- The frame of a request went out, and a response that is taken for its answer came back. -/
def Answered (log : Log) (pdu resp : Bytes) : Prop :=
  ∃ endpoint txID unitID hdr length rest,
    [⟨.write endpoint (frame txID unitID pdu), .ok ()⟩, ⟨.setReadDeadline endpoint, .ok ()⟩,
      ⟨.readFull endpoint mbapHeader, .ok hdr⟩,
      ⟨.readFull endpoint (UInt16.toNat length), .ok rest⟩] <:+: log ∧
    readHeader txID hdr.val = .ok length ∧ readBody rest.val = .ok resp

/-- The value is that of the register in a response to the request for the binding. -/
def Carried (log : Log) (b : Binding) (value : Rat) : Prop :=
  ∃ resp, Answered log b.readPDU resp ∧ 4 ≤ resp.length ∧ value = (registerOf resp).toNat

def Sourced (bs : List Binding) (out : List Sample × Driver) (log : Log) : Prop :=
  List.Forall₂ (fun b s => s.quality = .good → Carried log b s.value) bs out.1

variable {d : Driver} {b : Binding} {log : Log} {pdu : Bytes}

theorem Carried.snoc {value : Rat} (log : Log) (op : Op) (r : Ret op) (h : Carried log b value) :
    Carried (log ++ [⟨op, r⟩]) b value := by
  obtain ⟨resp, ⟨endpoint, txID, unitID, hdr, length, rest, hin, hok⟩, hresp⟩ := h
  exact ⟨resp, ⟨endpoint, txID, unitID, hdr, length, rest,
    hin.trans (List.prefix_append ..).isInfix, hok⟩, hresp⟩

theorem sourced_suspect (bs : List Binding) (now : Int) :
    Sourced bs (bs.map fun b => suspectSample b.point now, d) log := by
  rw [Sourced, List.forall₂_map_right_iff]
  exact List.forall₂_same.mpr fun _ _ => nofun

theorem logged_exchange :
    Logged (fun r log => ∀ resp, r = .ok resp → Answered log pdu resp) (d.exchange pdu) log := by
  iterate 4
    refine ⟨trivial, fun r => ?_⟩
    rcases r with e | hdr
    · exact fun _ h => by cases h
  simp only [Effect.Prog.bind]
  cases hhdr : readHeader d.txID hdr.val with
  | error why => exact fun _ h => by cases h
  | ok length =>
    refine ⟨trivial, fun r => ?_⟩
    rcases r with e | rest
    · exact fun _ h => by cases h
    · intro resp hresp
      refine ⟨d.endpoint, d.txID, d.unitID, hdr, length, rest, ?_, hhdr, hresp⟩
      exact ⟨log ++ [⟨.setWriteDeadline d.endpoint, .ok ()⟩], [], by simp⟩

theorem logged_roundTrip : Logged (fun out log => ∀ resp, out.1 = .ok resp → Answered log pdu resp)
    (d.roundTrip pdu) log := by
  unfold Driver.roundTrip
  split
  · exact nofun
  · exact logged_exchange.bind fun _ _ h => h

theorem logged_lose {e : WireError} {rest : List Binding}
    {next : Driver → Wire (List Sample × Driver)}
    (hnext : ∀ d log, (next d).Logged (Sourced rest) log) :
    (d.lose e b rest next).Logged (Sourced (b :: rest)) log := by
  refine logged_bind fun now _ => logged_bind fun d _ => logged_bind ?_
  rintro ⟨_ | e, d⟩ log
  · exact (hnext d log).bind fun _ _ hout => .cons nofun hout
  · exact ⟨trivial, fun now => .cons nofun (@sourced_suspect d _ rest now)⟩

/-- A round: by induction on the bindings left. -/
theorem logged_round (bs : List Binding) : ∀ (d : Driver) (allGood : Bool) (log : Log),
    (d.round bs allGood).Logged (Sourced bs) log := by
  induction bs with
  | nil =>
    intro d allGood log
    unfold Driver.round
    split
    · exact ⟨trivial, fun _ => .nil⟩
    · exact .nil
  | cons b rest ih =>
    intro d allGood log
    refine logged_roundTrip.bind ?_
    rintro ⟨r, d⟩ log hr
    cases r with
    | ok resp =>
      dsimp only
      split
      · exact logged_lose fun d => ih d false
      · rename_i hlen
        have hcarried : Carried log b (registerOf resp).toNat :=
          ⟨resp, hr resp rfl, Nat.not_lt.mp hlen, rfl⟩
        refine ⟨trivial, fun now => ?_⟩
        refine ((ih d allGood _).frame Carried.snoc (hcarried.snoc ..)).bind fun _ _ hout => ?_
        exact .cons (fun _ => hout.2) hout.1
    | error e =>
      cases e with
      | exception code =>
        refine ⟨trivial, fun now => (ih _ false _).bind fun _ _ hout => .cons ?_ hout⟩
        exact fun h => by cases h
      | _ => exact logged_lose fun d => ih d false

theorem logged_ensureConn :
    d.ensureConn.Logged (fun out _ => out.2.bindings = d.bindings) log := by
  unfold Driver.ensureConn
  split
  · rfl
  rename_i hconn
  rw [Driver.reconnect, if_neg hconn, Driver.dial]
  split
  · rfl
  · refine ⟨trivial, fun r => ?_⟩
    cases r <;> rfl

/-- **Good samples were carried.**  Whatever comes back in a round, every good sample has the value
of a register read from a response to the request for its own binding. -/
theorem collect_carried (d : Driver) : d.collect.Logged (fun out log => List.Forall₂ (fun b s =>
    s.quality = .good → Carried log b s.value) d.bindings out.1) [] := by
  refine logged_ensureConn.bind ?_
  rintro ⟨_ | e, d'⟩ log hbs
  · rw [← hbs]
    exact logged_round d'.bindings d' true log
  · rw [← hbs]
    exact ⟨trivial, fun now => @sourced_suspect d' _ d'.bindings now⟩

/-! ### After `Init` -/

theorem checkBindings_eq_none {i : Nat} {seen : List Bytes} {bs : List Binding} :
    checkBindings i seen bs = none ↔ (bs.map Binding.point).Nodup ∧ ∀ b ∈ bs,
      b.point ≠ [] ∧ (∀ name, b.table ≠ .other name) ∧ (b.table = .input → b.writable = false) ∧
        b.point ∉ seen := by
  induction bs generalizing i seen with
  | nil => simp [checkBindings]
  | cons b rest ih =>
    rw [checkBindings, List.map_cons, List.nodup_cons, List.forall_mem_cons]
    by_cases hpoint : b.point = []
    · simp [hpoint]
    rw [if_neg hpoint]
    split
    · next name htable => simp [htable]
    next hknown =>
    split_ifs with hinput hseen
    · simp [hinput]
    · simp [hseen]
    · rw [ih]
      grind

variable {ctxDone : Bool} {cmd : ControlCommand}

theorem checkWrite_mem (h : d.checkWrite ctxDone cmd = .ok b) :
    b ∈ d.bindings ∧ b.point = cmd.point ∧ b.writable = true := by
  unfold Driver.checkWrite at h
  iterate 2
    split at h
    · cases h
  rename_i b' hfind
  split_ifs at h with hwritable
  cases h
  exact ⟨List.mem_of_find?_eq_some hfind, by simpa using List.find?_some hfind,
    by simpa using hwritable⟩

theorem checkWrite_holding (hcheck : checkBindings 0 [] d.bindings = none)
    (h : d.checkWrite ctxDone cmd = .ok b) :
    b.table = .holding ∧ ∀ b' ∈ d.bindings, b'.point = cmd.point → b' = b := by
  obtain ⟨hnodup, hbs⟩ := checkBindings_eq_none.mp hcheck
  obtain ⟨hb, hpoint, hwritable⟩ := checkWrite_mem h
  refine ⟨?_, fun b' hb' hp => List.inj_on_of_nodup_map hnodup hb' hb (hp.trans hpoint.symm)⟩
  cases htable : b.table with
  | holding => rfl
  | input => exact absurd hwritable (by simp [(hbs b hb).2.2.1 htable])
  | other name => exact absurd htable ((hbs b hb).2.1 name)

/-- **Commands go to holding registers.**  `Write` does not look at the table; but after an `Init`
without error, the binding of an admitted command is the only one of its point, and is to a holding
register. -/
theorem init_guards_write (d : Driver) (ctxDone : Bool) (cfg : DriverConfig) :
    (d.init ctxDone cfg).Logged (fun out _ => out.1 = none → ∀ ctxDone cmd b,
      out.2.checkWrite ctxDone cmd = .ok b → b.table = .holding ∧
        ∀ b' ∈ out.2.bindings, b'.point = cmd.point → b' = b) [] := by
  unfold Driver.init
  iterate 3
    split
    · exact nofun
  rename_i hcheck
  dsimp only
  split
  · exact nofun
  split
  -- An open connection is closed first.
  on_goal 1 => refine ⟨trivial, fun _ => ?_⟩
  all_goals
    refine ⟨trivial, fun r => ?_⟩
    cases r with
    | error e => exact nofun
    | ok _ => exact fun _ _ _ _ => checkWrite_holding hcheck

end Cios.Modbus
