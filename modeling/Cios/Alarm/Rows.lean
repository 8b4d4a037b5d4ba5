import Cios.Alarm.Deliver
import Cios.Alarm.Discipline

/-!
# Alarm — rows, acknowledgements and episodes

The alarms table as both of its writers see it: `cios-alarm` stores each event of its engine by an
upsert (`pkg/alarm/store.go`), and an operator acknowledges a firing alarm through `cios-core`
(`core/pg_store.go`, `ackAlarm`).  An upsert keeps the `since` and the acknowledgement of a row that
is there, though each firing event begins a new episode (`row_described_iff`).
-/

namespace Cios.Alarm
open Text List
open Keyed (Table)

/-! ### The table -/

inductive RowState where
  | firing
  | acked
  | resolved
deriving DecidableEq, Repr

def State.row : State → RowState
  | .firing => .firing
  | .resolved => .resolved

/-- A row of the alarms table, with the columns of its acknowledgement. -/
structure StoredAlarm where
  id : Bytes
  path : Bytes
  severity : Bytes
  state : RowState
  summary : Bytes
  since : Int
  ackedBy : Bytes
  ackedAt : Option Int
deriving DecidableEq, Repr

/-- The row that an upsert leaves where the given one was. -/
def StoredAlarm.update (id : Bytes) (old : Option StoredAlarm) (ev : Event) : StoredAlarm :=
  match old with
  | none => ⟨id, ev.assetPath, ev.severity, ev.state.row, ev.summary, ev.since, [], none⟩
  | some row =>
    { row with
      id := id, path := ev.assetPath, severity := ev.severity, state := ev.state.row,
      summary := ev.summary }

def storeEvent (hash : Bytes → Bytes) (rows : Table StoredAlarm.id) (ev : Event) :
    Table StoredAlarm.id :=
  rows.put (.update (eventID hash ev.pair) (rows.get (eventID hash ev.pair)) ev)

def StoredAlarm.acknowledge (row : StoredAlarm) (actor : Bytes) (now : Int) : StoredAlarm :=
  { row with state := .acked, ackedBy := actor, ackedAt := some now }

inductive AckOutcome where
  | acked (row : StoredAlarm)
  | missing
  /-- `ErrAlarmNotAckable`. -/
  | notAckable (row : StoredAlarm)

/-- `ackAlarm`: one conditional update, and a second look at a row that it did not touch. -/
def ackAlarm (rows : Table StoredAlarm.id) (id actor : Bytes) (now : Int) :
    Table StoredAlarm.id × AckOutcome :=
  match rows.get id with
  | none => (rows, .missing)
  | some row =>
    if row.state = .firing then
      (rows.put (row.acknowledge actor now), .acked (row.acknowledge actor now))
    else (rows, .notAckable row)

section Writes

variable {hash : Bytes → Bytes} {rows : Table StoredAlarm.id} {ev : Event} {id : Bytes}

theorem StoredAlarm.update_id (old : Option StoredAlarm) :
    (StoredAlarm.update id old ev).id = id := by
  cases old <;> rfl

theorem storeEvent_get_self (hid : eventID hash ev.pair = id) :
    (storeEvent hash rows ev).get id = some (.update id (rows.get id) ev) := by
  subst hid
  have hself : (storeEvent hash rows ev).get
      (StoredAlarm.update (eventID hash ev.pair) (rows.get (eventID hash ev.pair)) ev).id =
      some (.update (eventID hash ev.pair) (rows.get (eventID hash ev.pair)) ev) :=
    Table.get_put_self
  rwa [StoredAlarm.update_id] at hself

theorem storeEvent_get_other (hid : eventID hash ev.pair ≠ id) :
    (storeEvent hash rows ev).get id = rows.get id := by
  refine Table.get_put_other ?_
  rw [StoredAlarm.update_id]
  exact hid.symm

theorem ackAlarm_cases (rows : Table StoredAlarm.id) (id actor : Bytes) (now : Int) :
    (∃ row, rows.get id = some row ∧ row.state = .firing ∧ ackAlarm rows id actor now =
        (rows.put (row.acknowledge actor now), .acked (row.acknowledge actor now))) ∨
      (∀ row, rows.get id = some row → row.state ≠ .firing) ∧
        ((ackAlarm rows id actor now) = (rows, .missing) ∨
          ∃ row, (ackAlarm rows id actor now) = (rows, .notAckable row)) := by
  rw [ackAlarm]
  cases hrow : rows.get id with
  | none => exact .inr ⟨nofun, .inl rfl⟩
  | some row =>
    by_cases hf : row.state = .firing
    · exact .inl ⟨row, rfl, hf, if_pos hf⟩
    · refine .inr ⟨?_, .inr ⟨row, if_neg hf⟩⟩
      rintro row' hrow'
      cases hrow'
      exact hf

variable {row : StoredAlarm} {actor : Bytes} {now : Int}

theorem acknowledge_get_self (hrow : rows.get id = some row) :
    (rows.put (row.acknowledge actor now)).get id = some (row.acknowledge actor now) := by
  obtain rfl : row.id = id := (Table.get_eq_some.mp hrow).2
  exact Table.get_put_self (a := row.acknowledge actor now)

theorem acknowledge_get_other {id' : Bytes} (hrow : rows.get id = some row) (h : id' ≠ id) :
    (rows.put (row.acknowledge actor now)).get id' = rows.get id' := by
  obtain rfl : row.id = id := (Table.get_eq_some.mp hrow).2
  exact Table.get_put_other h

end Writes

/-! ### A run -/

/-- What has been written to the table. -/
inductive Mark where
  | stored (ev : Event)
  | acked (id actor : Bytes) (now : Int)

/-- The engine, its events that are not stored yet, the table, and what was written to it. -/
structure Desk (V : Type) where
  engine : Engine V
  pending : List Event
  rows : Table StoredAlarm.id
  log : List Mark

/-- The engine observes, the next event is stored, or an operator acknowledges. -/
inductive Move (V : Type) where
  | observe (o : Observation V)
  | persist
  | ack (id actor : Bytes) (now : Int)

section Run

variable {V : Type} [Num V]

def Desk.start (rules : List (AlarmRule V)) : Desk V := ⟨newEngine rules, [], .empty, []⟩

def Desk.step (hash : Bytes → Bytes) (s : Desk V) : Move V → Desk V
  | .observe o =>
    { s with engine := (s.engine.feed o).1, pending := s.pending ++ (s.engine.feed o).2 }
  | .persist =>
    match s.pending with
    | [] => s
    | ev :: rest =>
      { s with
        pending := rest, rows := storeEvent hash s.rows ev, log := s.log ++ [.stored ev] }
  | .ack id actor now =>
    match ackAlarm s.rows id actor now with
    | (rows, .acked _) => { s with rows := rows, log := s.log ++ [.acked id actor now] }
    | (_, _) => s

def Desk.run (hash : Bytes → Bytes) (s : Desk V) (moves : List (Move V)) : Desk V :=
  moves.foldl (Desk.step hash) s

end Run

/-! ### Episodes -/

def Mark.event : Mark → Option Event
  | .stored ev => some ev
  | .acked _ _ _ => none

def firings (π : Pair) (log : List Mark) : List Event :=
  (log.filterMap Mark.event).filter fun ev => ev.pair = π ∧ ev.state = .firing

def Mark.ackOf (id : Bytes) : Mark → Option (Bytes × Int)
  | .stored _ => none
  | .acked id' actor now => if id' = id then some (actor, now) else none

def acksOf (id : Bytes) (log : List Mark) : List (Bytes × Int) := log.filterMap (Mark.ackOf id)

/-- The row tells the present episode: a firing one has the `Since` of the latest firing event and
is not acknowledged, an acknowledged one was acknowledged after it. -/
def Described {V : Type} (hash : Bytes → Bytes) (s : Desk V) (π : Pair) : Prop :=
  ∀ row, s.rows.get (eventID hash π) = some row →
    (row.state = .firing → (∃ ev, (firings π s.log).getLast? = some ev ∧ row.since = ev.since) ∧
      row.ackedBy = [] ∧ row.ackedAt = none) ∧
    (row.state = .acked → ∃ pre actor now post,
      s.log = pre ++ .acked (eventID hash π) actor now :: post ∧ firings π post = [] ∧
        row.ackedBy = actor ∧ row.ackedAt = some now)

def Mark.Touches (hash : Bytes → Bytes) (π : Pair) : Mark → Prop
  | .stored ev => ev.pair = π
  | .acked id _ _ => id = eventID hash π

/-- What a row has kept of the marks. -/
structure RowTold (hash : Bytes → Bytes) (π : Pair) (log : List Mark) (row : StoredAlarm) :
    Prop where
  since : ∃ ev, (firings π log).head? = some ev ∧ row.since = ev.since
  acks : acksOf (eventID hash π) log = [] ∧ row.ackedBy = [] ∧ row.ackedAt = none ∨
    acksOf (eventID hash π) log ≠ [] ∧ row.ackedAt ≠ none
  acked : row.state = .acked → ∃ pre actor now post,
    log = pre ++ .acked (eventID hash π) actor now :: post ∧
      (∀ m ∈ post, ¬ m.Touches hash π) ∧ row.ackedBy = actor ∧ row.ackedAt = some now

/-- The events stored and pending alternate, in step with the engine, and the row has kept what it
should. -/
structure Desk.Inv {V : Type} (hash : Bytes → Bytes) (π : Pair) (s : Desk V) : Prop where
  alternates : Alternates (fun _ => 0) (s.log.filterMap Mark.event ++ s.pending)
  synced : Synced s.engine (bumps (fun _ => 0) (s.log.filterMap Mark.event ++ s.pending))
  unwritten : s.rows.get (eventID hash π) = none → ∀ m ∈ s.log, ¬ m.Touches hash π
  told : ∀ row, s.rows.get (eventID hash π) = some row → RowTold hash π s.log row

section Marks

variable {hash : Bytes → Bytes} {π : Pair} {log : List Mark} {row : StoredAlarm} {ev : Event}

theorem firings_append (log log' : List Mark) :
    firings π (log ++ log') = firings π log ++ firings π log' := by
  rw [firings, filterMap_append, filter_append]
  rfl

theorem acksOf_append (id : Bytes) (log log' : List Mark) :
    acksOf id (log ++ log') = acksOf id log ++ acksOf id log' := filterMap_append

/-- Marks of other rows are no part of a pair's episodes. -/
theorem untouched (h : ∀ m ∈ log, ¬ m.Touches hash π) :
    firings π log = [] ∧ acksOf (eventID hash π) log = [] := by
  constructor
  · refine filter_eq_nil_iff.mpr ?_
    intro ev hev
    obtain ⟨m, hm, hmev⟩ := mem_filterMap.mp hev
    cases m with
    | acked id actor now => cases hmev
    | stored ev' =>
      cases hmev
      have hne : ev.pair ≠ π := h _ hm
      simp [hne]
  · refine filterMap_eq_nil_iff.mpr ?_
    intro m hm
    cases m with
    | stored ev => rfl
    | acked id actor now => exact if_neg (h _ hm)

theorem untouched_singleton {m : Mark} (h : ¬ m.Touches hash π) :
    firings π [m] = [] ∧ acksOf (eventID hash π) [m] = [] :=
  untouched (forall_mem_singleton.mpr h)

theorem RowTold.keep (h : RowTold hash π log row) {m : Mark} (hm : ¬ m.Touches hash π) :
    RowTold hash π (log ++ [m]) row := by
  obtain ⟨hfirings, hacks⟩ := untouched_singleton hm
  refine ⟨?_, ?_, ?_⟩
  · rw [firings_append, hfirings, append_nil]
    exact h.since
  · rw [acksOf_append, hacks, append_nil]
    exact h.acks
  intro hst
  obtain ⟨pre, actor, now, post, rfl, hpost, hcols⟩ := h.acked hst
  refine ⟨pre, actor, now, post ++ [m], by simp, ?_, hcols⟩
  intro m' hm'
  rcases mem_append.mp hm' with hm' | hm'
  · exact hpost m' hm'
  · rw [mem_singleton.mp hm']
    exact hm

/-- Another event of the pair: the row keeps its `since` and its acknowledgement. -/
theorem RowTold.store (h : RowTold hash π log row) (id : Bytes) :
    RowTold hash π (log ++ [.stored ev]) (.update id (some row) ev) := by
  obtain ⟨first, hfirst, hsince⟩ := h.since
  refine ⟨⟨first, ?_, hsince⟩, ?_, ?_⟩
  · rw [firings_append, head?_append, hfirst]
    rfl
  · rw [acksOf_append, show acksOf (eventID hash π) [.stored ev] = [] from rfl, append_nil]
    exact h.acks
  · intro hst
    have hrow : ev.state.row = .acked := hst
    cases hs : ev.state <;> rw [hs] at hrow <;> cases hrow

theorem RowTold.first (h : ∀ m ∈ log, ¬ m.Touches hash π) (hp : ev.pair = π)
    (hst : ev.state = .firing) (id : Bytes) :
    RowTold hash π (log ++ [.stored ev]) (.update id none ev) := by
  obtain ⟨hfirings, hacks⟩ := untouched h
  refine ⟨⟨ev, ?_, rfl⟩, .inl ⟨?_, rfl, rfl⟩, ?_⟩
  · rw [firings_append, hfirings]
    simp [firings, Mark.event, hp, hst]
  · rw [acksOf_append, hacks]
    rfl
  · intro hacked
    have hrow : ev.state.row = .acked := hacked
    rw [hst] at hrow
    cases hrow

theorem RowTold.acknowledge (h : RowTold hash π log row) (actor : Bytes) (now : Int) :
    RowTold hash π (log ++ [.acked (eventID hash π) actor now]) (row.acknowledge actor now) := by
  refine ⟨?_, .inr ⟨?_, nofun⟩, ?_⟩
  · rw [firings_append, show firings π [.acked (eventID hash π) actor now] = [] from rfl,
      append_nil]
    exact h.since
  · rw [acksOf_append]
    simp [acksOf, Mark.ackOf]
  · intro _
    exact ⟨log, actor, now, [], rfl, by simp, rfl, rfl⟩

end Marks

/-! ### One move, and runs -/

section Moves

variable {V : Type} {hash : Bytes → Bytes} {π : Pair} {s : Desk V}

theorem Alternates.mid {ev : Event} : ∀ {evs rest : List Event} {n : Pair → Nat},
    Alternates n (evs ++ ev :: rest) →
      ev.state = phase (bumps n evs ev.pair + 1) ∧ reRuleName ev.ruleName = true
  | [], _, _, h => ⟨h.1, h.2.1⟩
  | _ :: _, _, _, h => h.2.2.mid

theorem bumps_of_absent : ∀ {evs : List Event} {n : Pair → Nat},
    (∀ ev ∈ evs, ev.pair ≠ π) → bumps n evs π = n π
  | [], _, _ => rfl
  | ev :: evs, n, h => by
    obtain ⟨hev, hevs⟩ := forall_mem_cons.mp h
    have ih : bumps (bump n ev) evs π = bump n ev π := bumps_of_absent hevs
    exact ih.trans (Function.update_of_ne hev.symm _ _)

theorem Desk.Inv.start (rules : List (AlarmRule V)) : (Desk.start rules).Inv hash π :=
  ⟨trivial, .newEngine rules, by simp [Desk.start], nofun⟩

/-- A write to the table: what it does to the pair's row, and that the events are the same. -/
theorem Desk.Inv.write (h : s.Inv hash π) {s' : Desk V} {m : Mark} (hengine : s'.engine = s.engine)
    (hlog : s'.log = s.log ++ [m])
    (hevents : s'.log.filterMap Mark.event ++ s'.pending = s.log.filterMap Mark.event ++ s.pending)
    (hself : m.Touches hash π → ∃ row, s'.rows.get (eventID hash π) = some row ∧
      RowTold hash π (s.log ++ [m]) row)
    (hother : ¬ m.Touches hash π →
      s'.rows.get (eventID hash π) = s.rows.get (eventID hash π)) : s'.Inv hash π := by
  refine ⟨hevents ▸ h.alternates, hengine ▸ hevents ▸ h.synced, fun hnone => ?_, fun row hrow => ?_⟩
  · have hm : ¬ m.Touches hash π := by
      intro hm
      obtain ⟨row, hrow, -⟩ := hself hm
      cases hnone.symm.trans hrow
    rw [hother hm] at hnone
    rw [hlog]
    exact forall_mem_append.mpr ⟨h.unwritten hnone, forall_mem_singleton.mpr hm⟩
  · rw [hlog]
    by_cases hm : m.Touches hash π
    · obtain ⟨row', hrow', htold⟩ := hself hm
      cases hrow.symm.trans hrow'
      exact htold
    · rw [hother hm] at hrow
      exact (h.told row hrow).keep hm

theorem Desk.Inv.persist (hkey : OwnKey hash π) (h : s.Inv hash π) {ev : Event}
    {rest : List Event} (hp : s.pending = ev :: rest) :
    Desk.Inv hash π { s with
      pending := rest, rows := storeEvent hash s.rows ev, log := s.log ++ [.stored ev] } := by
  have halt := h.alternates
  rw [hp] at halt
  obtain ⟨hstate, hname⟩ := halt.mid
  refine h.write (m := .stored ev) rfl rfl (by simp [Mark.event, hp]) ?_ fun hne =>
    storeEvent_get_other fun hid => hne (hkey _ hname hid)
  rintro rfl
  refine ⟨_, storeEvent_get_self rfl, ?_⟩
  cases hold : s.rows.get (eventID hash ev.pair) with
  | some row => exact (h.told row hold).store _
  | none =>
    have hun := h.unwritten hold
    refine .first hun rfl ?_ _
    -- no event of the pair has been stored, so that this one fires
    rw [hstate, bumps_of_absent]
    · rfl
    intro ev' hev'
    obtain ⟨m, hm, hmev⟩ := mem_filterMap.mp hev'
    cases m with
    | acked id actor now => cases hmev
    | stored ev'' =>
      cases hmev
      exact hun _ hm

theorem Desk.Inv.ack (h : s.Inv hash π) {id actor : Bytes} {now : Int} {row : StoredAlarm}
    (hrow : s.rows.get id = some row) :
    Desk.Inv hash π { s with
      rows := s.rows.put (row.acknowledge actor now), log := s.log ++ [.acked id actor now] } := by
  refine h.write (m := .acked id actor now) rfl rfl (by simp [Mark.event]) ?_ fun hne =>
    acknowledge_get_other hrow (Ne.symm hne)
  rintro rfl
  exact ⟨_, acknowledge_get_self hrow, (h.told row hrow).acknowledge actor now⟩

variable [Num V]

/-- **One move.** -/
theorem Desk.Inv.step (hkey : OwnKey hash π) (h : s.Inv hash π) (mv : Move V) :
    (s.step hash mv).Inv hash π := by
  cases mv with
  | observe o =>
    obtain ⟨halt, hsync⟩ := h.synced.observe o.assetPath o.assetType o.snapshot o.now
    refine ⟨?_, ?_, h.unwritten, h.told⟩
    · show Alternates _ (_ ++ (s.pending ++ (s.engine.feed o).2))
      rw [← append_assoc]
      exact h.alternates.append halt
    · show Synced _ (bumps _ (_ ++ (s.pending ++ (s.engine.feed o).2)))
      rw [← append_assoc, bumps_append]
      exact hsync
  | persist =>
    rw [Desk.step]
    cases hp : s.pending with
    | nil => exact h
    | cons ev rest => exact h.persist hkey hp
  | ack id actor now =>
    rw [Desk.step]
    rcases ackAlarm_cases s.rows id actor now with ⟨row, hrow, -, hack⟩ | ⟨-, hack | ⟨row, hack⟩⟩
    · rw [hack]
      exact h.ack hrow
    · rw [hack]
      exact h
    · rw [hack]
      exact h

theorem Desk.Inv.run (hkey : OwnKey hash π) (moves : List (Move V)) (h : s.Inv hash π) :
    (s.run hash moves).Inv hash π := by
  induction moves generalizing s with
  | nil => exact h
  | cons mv moves ih => exact ih (h.step hkey mv)

/-- **Rows and episodes.**  After every run of observations, of upserts in order and of
acknowledgements, the row of a pair tells its present episode exactly when, if it is firing, the
latest firing event has the `Since` of the first one, and the row has never been acknowledged. -/
theorem row_described_iff (hkey : OwnKey hash π) (rules : List (AlarmRule V))
    (moves : List (Move V)) :
    Described hash ((Desk.start rules).run hash moves) π ↔
      ∀ row, ((Desk.start rules).run hash moves).rows.get (eventID hash π) = some row →
        row.state = .firing →
          (firings π ((Desk.start rules).run hash moves).log).getLast?.map Event.since =
              (firings π ((Desk.start rules).run hash moves).log).head?.map Event.since ∧
            acksOf (eventID hash π) ((Desk.start rules).run hash moves).log = [] := by
  have hinv : ((Desk.start rules).run hash moves).Inv hash π :=
    (Desk.Inv.start rules).run hkey moves
  generalize (Desk.start rules).run hash moves = s at hinv ⊢
  refine forall₂_congr fun row hrow => ?_
  obtain ⟨⟨first, hfirst, hsince⟩, hacks, hacked⟩ := hinv.told row hrow
  have hack : row.state = .acked → ∃ pre actor now post,
      s.log = pre ++ .acked (eventID hash π) actor now :: post ∧ firings π post = [] ∧
        row.ackedBy = actor ∧ row.ackedAt = some now := by
    intro hst
    obtain ⟨pre, actor, now, post, hlog, hpost, hcols⟩ := hacked hst
    exact ⟨pre, actor, now, post, hlog, (untouched hpost).1, hcols⟩
  rw [and_iff_left hack]
  refine imp_congr_right fun _ => ?_
  rw [hfirst]
  constructor
  · rintro ⟨⟨last, hlast, hlastSince⟩, hby, hat⟩
    refine ⟨?_, ?_⟩
    · rw [hlast, Option.map_some, Option.map_some, ← hlastSince, hsince]
    · rcases hacks with ⟨hnil, -⟩ | ⟨-, hsome⟩
      · exact hnil
      · exact absurd hat hsome
  · rintro ⟨hsame, hnil⟩
    obtain ⟨last, hlast, hlastSince⟩ := Option.map_eq_some_iff.mp hsame
    refine ⟨⟨last, hlast, hsince.trans hlastSince.symm⟩, ?_⟩
    rcases hacks with ⟨-, hcols⟩ | ⟨hne, -⟩
    · exact hcols
    · exact absurd hnil hne

end Moves

/-! ### A fault that comes back -/

def faultPair : Pair := (lit "cdu-fault", lit "site01.cdu000")

/-- The fault fires, and its row tells so. -/
theorem first_fault_described :
    Described id ((Desk.start [faultRule]).run id [.observe (statusAt 3 7), .persist]) faultPair :=
  (row_described_iff (ownKey_id faultPair (by decide)) [faultRule] _).mpr (by
    intro row _ _
    exact ⟨rfl, rfl⟩)

/-- The fault fires at 7 and is acknowledged, then resolves and fires at 9: the row is firing since
7, acknowledged. -/
theorem second_fault_as_first :
    let s := (Desk.start [faultRule]).run id
      [.observe (statusAt 3 7), .persist, .ack (eventID id faultPair) "op" 7,
        .observe (statusAt 0 8), .persist, .observe (statusAt 3 9), .persist]
    (∃ row, s.rows.get (eventID id faultPair) = some row ∧ row.state = .firing ∧ row.since = 7 ∧
        row.ackedBy = "op" ∧ row.ackedAt = some 7) ∧
      (firings faultPair s.log).getLast?.map Event.since = some 9 ∧ ¬ Described id s faultPair := by
  intro s
  have hrow : s.rows.get (eventID id faultPair) =
      some ⟨eventID id faultPair, "site01.cdu000", "critical", .firing, "CDU fault", 7, "op",
        some 7⟩ := by rfl
  refine ⟨⟨_, hrow, rfl, rfl, rfl, rfl⟩, rfl, ?_⟩
  intro hdesc
  cases ((hdesc _ hrow).1 rfl).2.2

end Cios.Alarm
