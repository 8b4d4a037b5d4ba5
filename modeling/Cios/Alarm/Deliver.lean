import Cios.Alarm.Engine
import Cios.Support.Run
import Cios.Support.Table

/-!
# Alarm — deliveries and the stored state

`cios-alarm` (`cmd/cios-alarm/main.go`) feeds every asset of a telemetry batch to the engine, stores
each event by an upsert (`pkg/alarm/store.go`), and acknowledges the batch unless an upsert failed;
then the batch comes back later.

The engine has moved on by then: a redelivered batch emits no event a second time, and is
acknowledged with nothing stored.  As the events of a pair alternate, what counts is the parity of
the upserts that failed (`stored_eq_current_iff`).
-/

namespace Cios.Alarm
open Text Runs List Function
open Keyed (Table)

/-! ### The alarms table -/

structure AlarmRow where
  id : Bytes
  path : Bytes
  severity : Bytes
  state : State
  summary : Bytes
  since : Int
deriving DecidableEq, Repr

/-- The key of a pair's row; `hash` is the truncated digest, in hexadecimal. -/
def eventID (hash : Bytes → Bytes) (π : Pair) : Bytes := hash (π.1 ++ lit "|" ++ π.2)

/-- `Store.Upsert`: a row that is there keeps its `since`. -/
def upsert (hash : Bytes → Bytes) (rows : Table AlarmRow.id) (ev : Event) : Table AlarmRow.id :=
  let id := eventID hash ev.pair
  let since := match rows.get id with
    | some row => row.since
    | none => ev.since
  rows.put ⟨id, ev.assetPath, ev.severity, ev.state, ev.summary, since⟩

/-! ### One delivery -/

/-- One asset of a decoded batch. -/
structure Entry (V : Type) where
  assetPath : Bytes
  assetType : Bytes
  snapshot : Snapshot V

inductive Payload (V : Type) where
  /-- A message that does not decode, or of an unknown encoding. -/
  | poison
  | batch (timestamp : Int) (entries : List (Entry V))

structure Message (V : Type) where
  seq : Nat
  payload : Payload V

/-- What a delivery brings: the order of its assets, the clock, and which upserts go through. -/
structure Delivery (V : Type) where
  msg : Message V
  order : List (Entry V)
  clock : Int
  ok : Nat → Bool

/-- The assets of a batch are visited each once, in any order. -/
def Delivery.Visits {V : Type} (d : Delivery V) : Prop :=
  match d.msg.payload with
  | .poison => True
  | .batch _ entries => d.order.Perm entries

/-- The daemon, its table, the batches still due, and, newest first, every upsert's pair and
success. -/
structure System (V : Type) where
  engine : Engine V
  rows : Table AlarmRow.id
  unacked : List Nat
  log : List (Pair × Bool)

section Handler

variable {V : Type} [Num V]

def observeAll (now : Int) : List (Entry V) → Engine V → Engine V × List Event
  | [], e => (e, [])
  | x :: xs, e =>
    let res := e.observe x.assetPath x.assetType x.snapshot now
    let rest := observeAll now xs res.1
    (rest.1, res.2 ++ rest.2)

/-- The upserts of the events in order: the table, and whether one failed. -/
def processEvents (hash : Bytes → Bytes) : (Nat → Bool) → List Event → Table AlarmRow.id →
    Table AlarmRow.id × Bool
  | _, [], rows => (rows, false)
  | ok, ev :: evs, rows =>
    let later := processEvents hash (fun k => ok (k + 1)) evs
      (if ok 0 then upsert hash rows ev else rows)
    (later.1, !ok 0 || later.2)

/-- What `processEvents` attempts, on top of what was attempted before. -/
def attempts : (Nat → Bool) → List Event → List (Pair × Bool) → List (Pair × Bool)
  | _, [], log => log
  | ok, ev :: evs, log => attempts (fun k => ok (k + 1)) evs ((ev.pair, ok 0) :: log)

/-- The handler of `makeHandler`, for one delivery. -/
def System.deliver (hash : Bytes → Bytes) (s : System V) (d : Delivery V) : System V :=
  let acked := s.unacked.filter (· ≠ d.msg.seq)
  match d.msg.payload with
  | .poison => { s with unacked := acked }
  | .batch timestamp _ =>
    let now := if timestamp = 0 then d.clock else timestamp
    let observed := observeAll now d.order s.engine
    let stored := processEvents hash d.ok observed.2 s.rows
    { engine := observed.1
      rows := stored.1
      unacked := if stored.2 then d.msg.seq :: acked else acked
      log := attempts d.ok observed.2 s.log }

def System.start (rules : List (AlarmRule V)) : System V := ⟨newEngine rules, .empty, [], []⟩

def System.step (hash : Bytes → Bytes) (s : System V) (d : Delivery V) (s' : System V) : Prop :=
  d.Visits ∧ s' = s.deliver hash d

/-- Every delivered batch has been acknowledged. -/
def System.Quiet (s : System V) : Prop := s.unacked = []

/-- The stored state of a pair. -/
def System.stored (hash : Bytes → Bytes) (s : System V) (π : Pair) : Option State :=
  (s.rows.get (eventID hash π)).map AlarmRow.state

def outcomes (log : List (Pair × Bool)) (π : Pair) : List Bool :=
  (log.filter fun a => a.1 = π).map Prod.snd

/-- The engine emitted an event for the pair. -/
def System.Emitted (s : System V) (π : Pair) : Prop := outcomes s.log π ≠ []

end Handler

/-! ### Row keys -/

theorem not_mem_of_reRuleName {s : Bytes} (h : reRuleName s = true) : ('|' : UInt8) ∉ s := by
  intro hc
  simp only [reRuleName, Bool.and_eq_true, all_eq_true] at h
  obtain ⟨p, hp, hcp⟩ := exists_mem_splitOn hc (show ('|' : UInt8) ≠ '-' by decide)
  exact absurd ((h.2 p hp).2 _ hcp) (by decide)

theorem eventID_inj {hash : Bytes → Bytes} (hinj : Injective hash) {π π' : Pair}
    (hπ : reRuleName π.1 = true) (hπ' : reRuleName π'.1 = true)
    (h : eventID hash π = eventID hash π') : π = π' := by
  -- Rule names have no bar, so the text of the key determines the pair.
  obtain ⟨h₁, h₂⟩ := append_sep_inj (not_mem_of_reRuleName hπ) (not_mem_of_reRuleName hπ') (hinj h)
  exact Prod.ext h₁ h₂

/-- No other pair of a loaded rule has the key of the pair's row. -/
def OwnKey (hash : Bytes → Bytes) (π : Pair) : Prop :=
  ∀ π', reRuleName π'.1 = true → eventID hash π' = eventID hash π → π' = π

theorem ownKey_id (π : Pair) (hπ : reRuleName π.1 = true) : OwnKey id π :=
  fun _ hπ' hid => eventID_inj injective_id hπ' hπ hid

/-! ### What is stored -/

/-- The state of a pair in the table: that of its last upsert that went through. -/
def lastStored : List Bool → Option State
  | [] => none
  | true :: l => some (phase (l.length + 1))
  | false :: l => lastStored l

/-- An upsert went through, and an even number has failed since. -/
def Settled (l : List Bool) : Prop :=
  ∃ k older, l = List.replicate (2 * k) false ++ true :: older

theorem phase_succ_ne (n : Nat) : phase (n + 1) ≠ phase n := by
  rw [phase]
  cases phase n <;> decide

theorem phase_add_two (n : Nat) : phase (n + 2) = phase n := by
  rw [phase, phase]
  cases phase n <;> rfl

/-- The last stored state is the present one exactly when an even number of upserts has failed
since. -/
theorem lastStored_eq_phase_iff : ∀ {l : List Bool},
    lastStored l = some (phase l.length) ↔ Settled l
  | [] => by simp [lastStored, Settled]
  | true :: l => by
    simp only [lastStored, length_cons, true_iff]
    exact ⟨0, l, rfl⟩
  | [false] => by
    simp only [lastStored, reduceCtorEq, false_iff]
    rintro ⟨k, older, h⟩
    cases k <;> simp [Nat.mul_succ, replicate_succ] at h
  | false :: true :: l => by
    simp only [lastStored, length_cons, Option.some.injEq]
    refine iff_of_false (phase_succ_ne _).symm ?_
    rintro ⟨k, older, h⟩
    cases k <;> simp [Nat.mul_succ, replicate_succ] at h
  | false :: false :: l => by
    simp only [lastStored, length_cons, phase_add_two]
    rw [lastStored_eq_phase_iff]
    constructor
    · rintro ⟨k, older, rfl⟩
      exact ⟨k + 1, older, by simp [Nat.mul_succ, replicate_succ]⟩
    · rintro ⟨k, older, h⟩
      cases k with
      | zero => simp at h
      | succ k => exact ⟨k, older, by simpa [Nat.mul_succ, replicate_succ] using h⟩

/-! ### Runs -/

section Runs

variable {V : Type} {hash : Bytes → Bytes} {log : List (Pair × Bool)} {rows : Table AlarmRow.id}

/-- How many events of each pair the log has. -/
def counts (log : List (Pair × Bool)) (π : Pair) : Nat := (outcomes log π).length

theorem outcomes_cons_self {π : Pair} {b : Bool} :
    outcomes ((π, b) :: log) π = b :: outcomes log π := by
  simp [outcomes]

theorem outcomes_cons_other {π π' : Pair} {b : Bool} (h : π' ≠ π) :
    outcomes ((π', b) :: log) π = outcomes log π := by
  simp [outcomes, h]

theorem counts_cons (ev : Event) (b : Bool) :
    counts ((ev.pair, b) :: log) = bump (counts log) ev := by
  funext π
  by_cases hπ : π = ev.pair
  · subst hπ
    simp [counts, bump, outcomes_cons_self]
  · simp [counts, bump, outcomes_cons_other (Ne.symm hπ), hπ]

/-- The table has the state of each pair's last upsert that went through, all of loaded rules. -/
structure Tracks (hash : Bytes → Bytes) (rows : Table AlarmRow.id) (log : List (Pair × Bool)) :
    Prop where
  stored : ∀ π, reRuleName π.1 = true →
    (rows.get (eventID hash π)).map AlarmRow.state = lastStored (outcomes log π)
  named : ∀ a ∈ log, reRuleName a.1.1 = true

theorem upsert_get_self {ev : Event} :
    ((upsert hash rows ev).get (eventID hash ev.pair)).map AlarmRow.state = some ev.state := by
  unfold upsert
  rw [Table.get_put_self]
  rfl

theorem upsert_get_other {ev : Event} {id : Bytes} (h : id ≠ eventID hash ev.pair) :
    (upsert hash rows ev).get id = rows.get id := Table.get_put_other h

/-- **One upsert**, whether it goes through or not, keeps the table in step with the log. -/
theorem Tracks.attempt (hkeys : ∀ π, reRuleName π.1 = true → OwnKey hash π)
    (h : Tracks hash rows log) {ev : Event}
    (hname : reRuleName ev.ruleName = true) (hstate : ev.state = phase (counts log ev.pair + 1))
    (b : Bool) :
    Tracks hash (if b then upsert hash rows ev else rows) ((ev.pair, b) :: log) where
  stored π hπ := by
    by_cases he : ev.pair = π
    · subst he
      rw [outcomes_cons_self]
      cases b with
      | true =>
        simp only [if_true, lastStored]
        rw [upsert_get_self, hstate]
        rfl
      | false => exact h.stored _ hπ
    · rw [outcomes_cons_other he, ← h.stored π hπ]
      cases b with
      | true =>
        simp only [if_true]
        rw [upsert_get_other fun hid => he (hkeys π hπ _ hname hid.symm)]
      | false => rfl
  named a ha := by
    rcases mem_cons.mp ha with rfl | ha
    · exact hname
    · exact h.named a ha

/-- The upserts of a delivery, for events that alternate. -/
theorem Tracks.processEvents (hkeys : ∀ π, reRuleName π.1 = true → OwnKey hash π) :
    ∀ (evs : List Event) (ok : Nat → Bool) {rows : Table AlarmRow.id} {log : List (Pair × Bool)},
      Tracks hash rows log → Alternates (counts log) evs →
      Tracks hash (processEvents hash ok evs rows).1 (attempts ok evs log) ∧
        counts (attempts ok evs log) = bumps (counts log) evs
  | [], _, _, _, h, _ => ⟨h, rfl⟩
  | ev :: evs, ok, rows, log, h, ha => by
    have hstep := h.attempt hkeys ha.2.1 ha.1 (ok 0)
    have hrest : Alternates (counts ((ev.pair, ok 0) :: log)) evs := by
      rw [counts_cons]
      exact ha.2.2
    obtain ⟨ht, hc⟩ := Tracks.processEvents hkeys evs (fun k => ok (k + 1)) hstep hrest
    refine ⟨ht, hc.trans ?_⟩
    rw [counts_cons]
    rfl

/-- The engine is in step with the log's events, the table with those that were stored. -/
structure System.Inv (hash : Bytes → Bytes) (s : System V) : Prop where
  synced : Synced s.engine (counts s.log)
  tracks : Tracks hash s.rows s.log

theorem System.Inv.start (rules : List (AlarmRule V)) : System.Inv hash (System.start rules) where
  synced := Synced.newEngine rules
  tracks := ⟨fun _ _ => rfl, nofun⟩

theorem System.Inv.stateOf {s : System V} (h : System.Inv hash s) {π : Pair} (he : s.Emitted π) :
    s.engine.stateOf π = some (phase (outcomes s.log π).length) := by
  unfold Engine.stateOf
  cases hi : s.engine.instances π with
  | some i => exact congrArg some (h.synced.state π i hi)
  | none => exact absurd (eq_nil_of_length_eq_zero (h.synced.unseen π hi)) he

theorem System.Inv.named {s : System V} (h : System.Inv hash s) {π : Pair} (he : s.Emitted π) :
    reRuleName π.1 = true := by
  obtain ⟨b, hb⟩ := exists_mem_of_ne_nil _ he
  obtain ⟨a, ha, -⟩ := mem_map.mp hb
  obtain ⟨hin, hπ⟩ := mem_filter.mp ha
  rw [← of_decide_eq_true hπ]
  exact h.tracks.named a hin

variable [Num V]

theorem Synced.observeAll (now : Int) : ∀ (xs : List (Entry V)) {e : Engine V} {n : Pair → Nat},
    Synced e n → Alternates n (observeAll now xs e).2 ∧
      Synced (observeAll now xs e).1 (bumps n (observeAll now xs e).2)
  | [], _, _, h => ⟨trivial, h⟩
  | x :: xs, e, n, h => by
    obtain ⟨ha, hs⟩ := h.observe x.assetPath x.assetType x.snapshot now
    obtain ⟨ha', hs'⟩ := Synced.observeAll now xs hs
    refine ⟨ha.append ha', ?_⟩
    rw [Alarm.observeAll, bumps_append]
    exact hs'

/-- **One delivery**, first or repeated, whatever fails. -/
theorem System.Inv.deliver (hkeys : ∀ π, reRuleName π.1 = true → OwnKey hash π) {s : System V}
    (h : System.Inv hash s) (d : Delivery V) : System.Inv hash (s.deliver hash d) := by
  unfold System.deliver
  split
  · exact ⟨h.synced, h.tracks⟩
  rename_i timestamp _ _
  obtain ⟨ha, hs⟩ :=
    Synced.observeAll (if timestamp = 0 then d.clock else timestamp) d.order h.synced
  obtain ⟨ht, hc⟩ := Tracks.processEvents hkeys _ d.ok h.tracks ha
  exact ⟨by rw [hc]; exact hs, ht⟩

/-- **Stored and current state.**  After every run of deliveries, the table has the engine's state
of each pair that emitted an event exactly when, for each of them, an upsert went through and an
even number has failed since. -/
theorem stored_eq_current_iff (hkeys : ∀ π, reRuleName π.1 = true → OwnKey hash π)
    {rules : List (AlarmRule V)} {ds : List (Delivery V)} {s : System V}
    (hrun : Run (System.step hash) (System.start rules) ds s) :
    (∀ π, s.Emitted π → s.stored hash π = s.engine.stateOf π) ↔
      ∀ π, s.Emitted π → Settled (outcomes s.log π) := by
  have hinv : System.Inv hash s := by
    refine hrun.invariant ?_ (System.Inv.start rules)
    rintro s d s' hs ⟨-, rfl⟩
    exact hs.deliver hkeys d
  refine forall_congr' fun π => imp_congr_right fun he => ?_
  rw [System.stored, hinv.tracks.stored π (hinv.named he), hinv.stateOf he]
  exact lastStored_eq_phase_iff

end Runs

def faultRule : AlarmRule Rat where
  name := "cdu-fault"
  name_ok := by decide
  appliesTo := "cdu"
  severity := "critical"
  summary := "CDU fault"
  runbook := []
  forDuration := 0
  hysteresis := 0
  expr := ⟨.and, .cons .eq (.ident "status") (.num 3) .nil⟩

def faultBatch (ok : Bool) : Delivery Rat where
  msg := ⟨1, .batch 7 [⟨"site01.cdu000", "cdu", fun p => if p = "status" then some 3 else none⟩]⟩
  order := [⟨"site01.cdu000", "cdu", fun p => if p = "status" then some 3 else none⟩]
  clock := 0
  ok := fun _ => ok

theorem faultBatch_visits (ok : Bool) : (faultBatch ok).Visits := List.Perm.refl _

theorem stored_eq_current_iff_faultBatch :
    let s := (System.start [faultRule]).deliver id (faultBatch true)
    (∀ π, s.Emitted π → s.stored id π = s.engine.stateOf π) ↔
      ∀ π, s.Emitted π → Settled (outcomes s.log π) :=
  stored_eq_current_iff ownKey_id (.more ⟨faultBatch_visits _, rfl⟩ (.refl _))

/-- The batch comes again after its upsert failed: it is acknowledged with nothing stored, while the
engine is firing. -/
theorem redelivery_loses_firing :
    ∃ s, Run (System.step id) (System.start [faultRule]) [faultBatch false, faultBatch true] s ∧
      s.Quiet ∧ s.Emitted ("cdu-fault", "site01.cdu000") ∧
      s.stored id ("cdu-fault", "site01.cdu000") = none ∧
      s.engine.stateOf ("cdu-fault", "site01.cdu000") = some .firing :=
  ⟨_, .more ⟨faultBatch_visits _, rfl⟩ (.more ⟨faultBatch_visits _, rfl⟩ (.refl _)),
    rfl, nofun, rfl, rfl⟩

end Cios.Alarm
