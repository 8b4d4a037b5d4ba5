import Cios.Alarm.Rows
import Mathlib.Order.Nat

/-!
# Alarm — restarts

`cios-alarm` keeps the state of its instances in memory, and starts with none (`NewEngine`).  A row
is resolved only by the event of an instance that is firing.  So an alarm whose instance was lost in
a restart stays in the table until the condition holds again and the new engine fires itself
(`row_resolves_iff`).

A run is an endless sequence of batches, acknowledgements and restarts; every batch is stored.
-/

namespace Cios.Alarm
open Text List Engine
open Keyed (Table)

variable {V : Type}

/-! ### The daemon -/

/-- What `LoadRules` returns: no two rules of one name. -/
structure RuleSet (V : Type) where
  rules : List (AlarmRule V)
  unique : (rules.map AlarmRule.name).Nodup

/-- A decoded batch, in the order in which its assets are visited: each asset is there once. -/
structure Batch (V : Type) where
  now : Int
  entries : List (Entry V)
  apart : (entries.map Entry.assetPath).Nodup

inductive Happening (V : Type) where
  | deliver (b : Batch V)
  | ack (id actor : Bytes) (now : Int)
  | restart

structure Daemon (V : Type) where
  engine : Engine V
  rows : Table StoredAlarm.id

def Entry.observed (x : Entry V) (now : Int) : Observation V :=
  ⟨x.assetPath, x.assetType, x.snapshot, now⟩

def Entry.Of (x : Entry V) (r : AlarmRule V) (asset : Bytes) : Prop :=
  x.assetPath = asset ∧ x.assetType = r.appliesTo ∧ x.assetType ≠ []

/-- The happening is a batch with an entry of the asset that satisfies the condition. -/
def Happening.Shows (h : Happening V) (r : AlarmRule V) (asset : Bytes) (P : Snapshot V → Prop) :
    Prop :=
  ∃ b, h = .deliver b ∧ ∃ x ∈ b.entries, x.Of r asset ∧ P x.snapshot

def Daemon.stored (hash : Bytes → Bytes) (s : Daemon V) (π : Pair) : Option RowState :=
  (s.rows.get (eventID hash π)).map StoredAlarm.state

/-- The engine itself has the pair firing. -/
def Daemon.Firing (s : Daemon V) (π : Pair) : Prop := s.engine.stateOf π = some .firing

section Run

variable [Num V]

/-- The condition is false, and left by the hysteresis. -/
def AlarmRule.Cleared (r : AlarmRule V) (snap : Snapshot V) : Prop :=
  r.expr.eval snap = .ok false ∧ r.recovery snap = .ok true

/-- The condition is not known to hold, and the alarm has recovered. -/
def AlarmRule.Recovered (r : AlarmRule V) (snap : Snapshot V) : Prop :=
  r.expr.eval snap ≠ .ok true ∧ r.recovery snap = .ok true

variable (hash : Bytes → Bytes) (rs : RuleSet V)

def Daemon.step (s : Daemon V) : Happening V → Daemon V
  | .deliver b =>
    let res := observeAll b.now b.entries s.engine
    ⟨res.1, res.2.foldl (storeEvent hash) s.rows⟩
  | .ack id actor now => { s with rows := (ackAlarm s.rows id actor now).1 }
  | .restart => { s with engine := newEngine rs.rules }

def Daemon.after (rows : Table StoredAlarm.id) (ρ : Nat → Happening V) : Nat → Daemon V
  | 0 => ⟨newEngine rs.rules, rows⟩
  | k + 1 => (Daemon.after rows ρ k).step hash rs (ρ k)

end Run

/-! ### The rows of a batch -/

section Rows

variable {hash : Bytes → Bytes} {π : Pair}

theorem Alternates.named : ∀ {evs : List Event} {n : Pair → Nat}, Alternates n evs →
    ∀ ev ∈ evs, reRuleName ev.ruleName = true
  | ev :: _, _, h, ev', hev' => by
    rcases mem_cons.mp hev' with rfl | hev'
    · exact h.2.1
    · exact h.2.2.named ev' hev'

/-- After a batch, the row of a pair has the state of the pair's last event. -/
theorem stored_batch (hkey : OwnKey hash π) {evs : List Event} (rows : Table StoredAlarm.id)
    (hnamed : ∀ ev ∈ evs, reRuleName ev.ruleName = true) :
    ((evs.foldl (storeEvent hash) rows).get (eventID hash π)).map StoredAlarm.state =
      match (eventsOf π evs).getLast? with
      | none => (rows.get (eventID hash π)).map StoredAlarm.state
      | some ev => some ev.state.row := by
  induction evs using List.reverseRecOn with
  | nil => rfl
  | append_singleton evs ev ih =>
    have hname : reRuleName ev.pair.1 = true := hnamed ev (by simp)
    rw [foldl_append, foldl_cons, foldl_nil, eventsOf_append]
    by_cases hp : ev.pair = π
    · rw [storeEvent_get_self (congrArg (eventID hash) hp)]
      have hlast : eventsOf π [ev] = [ev] := by simp [eventsOf, hp]
      rw [hlast, getLast?_concat]
      cases ((evs.foldl (storeEvent hash) rows).get (eventID hash π)) <;> rfl
    · rw [storeEvent_get_other fun hid => hp (hkey _ hname hid)]
      have hlast : eventsOf π [ev] = [] := by simp [eventsOf, hp]
      rw [hlast, append_nil]
      exact ih fun ev' hev' => hnamed ev' (mem_append_left _ hev')

theorem stored_ack (rows : Table StoredAlarm.id) (id actor : Bytes) (now : Int) :
    (((ackAlarm rows id actor now).1.get (eventID hash π)).map StoredAlarm.state =
        some .resolved) ↔
      (rows.get (eventID hash π)).map StoredAlarm.state = some .resolved := by
  rcases ackAlarm_cases rows id actor now with ⟨row, hrow, hf, hack⟩ | ⟨-, hack | ⟨row, hack⟩⟩
  · rw [hack]
    by_cases hid : eventID hash π = id
    · subst hid
      rw [acknowledge_get_self hrow, hrow]
      simp [StoredAlarm.acknowledge, hf]
    · rw [acknowledge_get_other hrow hid]
  · rw [hack]
  · rw [hack]

end Rows

/-! ### The instance of a pair -/

section Instance

variable [Num V] {r : AlarmRule V} {asset : Bytes} {rs : RuleSet V}

theorem Instance.tick_rule (i : Instance V) (snap : Snapshot V) (now : Int) :
    (i.tick snap now).1.rule = i.rule := by
  have h := i.ticked snap now
  generalize (i.tick snap now).1 = i' at h ⊢
  generalize (i.tick snap now).2 = ev at h
  cases h <;> rfl

/-- A firing instance whose condition is not known to hold asks whether it has recovered. -/
theorem Instance.tick_unsatisfied {i : Instance V} (hs : i.state = .firing) {snap : Snapshot V}
    (hsat : i.rule.expr.eval snap ≠ .ok true) (now : Int) :
    i.tick snap now = match i.rule.recovery snap with
      | .ok true =>
        let i' := { i with state := .resolved, firstSatisfiedAt := 0 }
        (i', some (i'.event now))
      | _ => (i, none) := by
  rw [Instance.tick]
  rcases he : i.rule.expr.eval snap with e | b
  · simp only [hs]
    rfl
  cases b with
  | false =>
    simp only [hs]
    rfl
  | true => exact absurd he hsat

/-- A firing instance emits its resolved event when it has recovered, and else goes on firing. -/
theorem Instance.tick_firing {i : Instance V} (hs : i.state = .firing) (snap : Snapshot V)
    (now : Int) :
    i.rule.Recovered snap ∧ (i.tick snap now).1.state = .resolved ∧
        (∃ ev, (i.tick snap now).2 = some ev ∧ ev.state = .resolved) ∨
      ¬ i.rule.Recovered snap ∧ (i.tick snap now).1.state = .firing ∧
        (i.tick snap now).2 = none := by
  by_cases hsat : i.rule.expr.eval snap = .ok true
  · have htick : i.tick snap now = (i, none) := by simp [Instance.tick, hs, hsat]
    rw [htick]
    exact .inr ⟨fun h => h.1 hsat, hs, rfl⟩
  rw [Instance.tick_unsatisfied hs hsat]
  rcases hr : i.rule.recovery snap with e | b
  · exact .inr ⟨fun h => by simp [h.2] at hr, hs, rfl⟩
  · cases b with
    | false => exact .inr ⟨fun h => by simp [h.2] at hr, hs, rfl⟩
    | true => exact .inl ⟨⟨hsat, hr⟩, rfl, _, rfl, rfl⟩

variable {e : Engine V} {n : Pair → Nat}

theorem Synced.observe_other (h : Synced e n) (hnodup : (e.rules.map AlarmRule.name).Nodup)
    (hr : r ∈ e.rules) {x : Entry V} (hx : ¬ x.Of r asset) (now : Int) :
    (e.feed (x.observed now)).1.instances (r.name, asset) = e.instances (r.name, asset) ∧
      eventsOf (r.name, asset) (e.feed (x.observed now)).2 = [] := by
  by_cases htype : x.assetType = []
  · have hfeed : e.feed (x.observed now) = (e, []) := if_pos htype
    rw [hfeed]
    exact ⟨rfl, rfl⟩
  · exact h.feed_other hnodup hr fun ho => hx ⟨ho.1, ho.2, htype⟩

theorem observeAll_other (now : Int) : ∀ {xs : List (Entry V)} {e : Engine V}
    {n : Pair → Nat}, Synced e n → (e.rules.map AlarmRule.name).Nodup → r ∈ e.rules →
      (∀ x ∈ xs, ¬ x.Of r asset) →
      (observeAll now xs e).1.instances (r.name, asset) = e.instances (r.name, asset) ∧
        eventsOf (r.name, asset) (observeAll now xs e).2 = []
  | [], _, _, _, _, _, _ => ⟨rfl, rfl⟩
  | x :: xs, e, n, h, hnodup, hr, hxs => by
    obtain ⟨hx, hxs⟩ := forall_mem_cons.mp hxs
    obtain ⟨hi, hev⟩ := h.observe_other hnodup hr hx now
    have hrules : (e.feed (x.observed now)).1.rules = e.rules := e.feed_rules _
    obtain ⟨hi', hev'⟩ := observeAll_other now
      (h.observe x.assetPath x.assetType x.snapshot now).2 (hrules.symm ▸ hnodup)
      (hrules.symm ▸ hr) hxs
    refine ⟨hi'.trans hi, ?_⟩
    rw [observeAll, eventsOf_append, hev']
    exact append_eq_nil_iff.mpr ⟨hev, rfl⟩

/-- A batch with an entry of the rule and the asset ticks their instance once. -/
theorem observeAll_of (now : Int) : ∀ {xs : List (Entry V)} {e : Engine V}
    {n : Pair → Nat}, Synced e n → (e.rules.map AlarmRule.name).Nodup → r ∈ e.rules →
      (xs.map Entry.assetPath).Nodup → ∀ x ∈ xs, x.Of r asset →
      (observeAll now xs e).1.instances (r.name, asset) =
          some ((e.getOrCreate r asset).tick x.snapshot now).1 ∧
        eventsOf (r.name, asset) (observeAll now xs e).2 =
          ((e.getOrCreate r asset).tick x.snapshot now).2.toList
  | y :: xs, e, n, h, hnodup, hr, hapart, x, hx, hof => by
    rw [map_cons, nodup_cons] at hapart
    have hrules : (e.feed (y.observed now)).1.rules = e.rules := e.feed_rules _
    have hsync := (h.observe y.assetPath y.assetType y.snapshot now).2
    rw [observeAll, eventsOf_append]
    rcases mem_cons.mp hx with rfl | hx
    · have hof' : (x.observed now).Of r asset := ⟨hof.1, hof.2.1⟩
      obtain ⟨hi, hev⟩ := h.feed_of hnodup hr hof' (hof.2.1 ▸ hof.2.2)
      have hrest : ∀ x' ∈ xs, ¬ x'.Of r asset := by
        intro x' hx' hof''
        refine hapart.1 (mem_map.mpr ⟨x', hx', ?_⟩)
        rw [hof''.1, hof.1]
      obtain ⟨hi', hev'⟩ := observeAll_other now hsync (hrules.symm ▸ hnodup)
        (hrules.symm ▸ hr) hrest
      refine ⟨hi'.trans hi, ?_⟩
      rw [hev', append_nil]
      exact hev
    · have hy : ¬ y.Of r asset := by
        intro hof'
        refine hapart.1 (mem_map.mpr ⟨x, hx, ?_⟩)
        rw [hof.1, hof'.1]
      obtain ⟨hi, hev⟩ := h.observe_other hnodup hr hy now
      obtain ⟨hi', hev'⟩ := observeAll_of now hsync (hrules.symm ▸ hnodup)
        (hrules.symm ▸ hr) hapart.2 x hx hof
      have hget : (e.feed (y.observed now)).1.getOrCreate r asset = e.getOrCreate r asset := by
        rw [getOrCreate, hi, getOrCreate]
      refine ⟨?_, ?_⟩
      · rw [← hget]
        exact hi'
      · rw [← hget]
        exact (congrArg (· ++ _) hev).trans hev'

/-! ### One happening -/

/-- The engine is in step with its events, and its instance of the pair has the pair's rule. -/
structure Daemon.Inv (rs : RuleSet V) (r : AlarmRule V) (asset : Bytes) (s : Daemon V) : Prop where
  synced : ∃ n, Synced s.engine n
  rules : s.engine.rules = rs.rules
  ruled : ∀ i, s.engine.instances (r.name, asset) = some i → i.rule = r

end Instance

section Happening

variable {hash : Bytes → Bytes} {rs : RuleSet V} {r : AlarmRule V} {asset : Bytes} {s : Daemon V}

theorem Daemon.Inv.rule_getOrCreate (h : s.Inv rs r asset) :
    (s.engine.getOrCreate r asset).rule = r := by
  rw [getOrCreate]
  cases hi : s.engine.instances (r.name, asset) with
  | none => rfl
  | some i => exact h.ruled i hi

theorem Daemon.firing_iff :
    s.Firing (r.name, asset) ↔ (s.engine.getOrCreate r asset).state = .firing := by
  rw [Daemon.Firing, stateOf, getOrCreate]
  cases hi : s.engine.instances (r.name, asset) with
  | none => simp
  | some i => simp

variable [Num V]

theorem observeAll_rules (now : Int) : ∀ (xs : List (Entry V)) (e : Engine V),
    (observeAll now xs e).1.rules = e.rules
  | [], _ => rfl
  | x :: xs, e => (observeAll_rules now xs _).trans (e.feed_rules (x.observed now))

theorem Daemon.Inv.stored_deliver (hkey : OwnKey hash (r.name, asset)) (h : s.Inv rs r asset)
    (b : Batch V) :
    (s.step hash rs (.deliver b)).stored hash (r.name, asset) =
      match (eventsOf (r.name, asset) (observeAll b.now b.entries s.engine).2).getLast? with
      | none => s.stored hash (r.name, asset)
      | some ev => some ev.state.row := by
  obtain ⟨n, hn⟩ := h.synced
  exact stored_batch hkey s.rows (Synced.observeAll b.now b.entries hn).1.named

variable (hr : r ∈ rs.rules) (h : s.Inv rs r asset)
include hr h

/-- What a batch does to a pair: nothing, without an entry of it; else one tick. -/
theorem Daemon.Inv.deliver (b : Batch V) :
    (∀ x ∈ b.entries, ¬ x.Of r asset) ∧
        (observeAll b.now b.entries s.engine).1.instances (r.name, asset) =
          s.engine.instances (r.name, asset) ∧
        eventsOf (r.name, asset) (observeAll b.now b.entries s.engine).2 = [] ∨
      ∃ x ∈ b.entries, x.Of r asset ∧
        (observeAll b.now b.entries s.engine).1.instances (r.name, asset) =
          some ((s.engine.getOrCreate r asset).tick x.snapshot b.now).1 ∧
        eventsOf (r.name, asset) (observeAll b.now b.entries s.engine).2 =
          ((s.engine.getOrCreate r asset).tick x.snapshot b.now).2.toList := by
  obtain ⟨n, hn⟩ := h.synced
  have hnodup : (s.engine.rules.map AlarmRule.name).Nodup := by
    rw [h.rules]
    exact rs.unique
  have hr' : r ∈ s.engine.rules := by
    rw [h.rules]
    exact hr
  by_cases hx : ∃ x ∈ b.entries, x.Of r asset
  · obtain ⟨x, hx, hof⟩ := hx
    exact .inr ⟨x, hx, hof, observeAll_of b.now hn hnodup hr' b.apart x hx hof⟩
  · push Not at hx
    exact .inl ⟨hx, observeAll_other b.now hn hnodup hr' hx⟩

theorem Daemon.Inv.step (hp : Happening V) : (s.step hash rs hp).Inv rs r asset := by
  cases hp with
  | restart => exact ⟨⟨_, .newEngine rs.rules⟩, rfl, nofun⟩
  | ack id actor now => exact ⟨h.synced, h.rules, h.ruled⟩
  | deliver b =>
    obtain ⟨n, hn⟩ := h.synced
    refine ⟨⟨_, (Synced.observeAll b.now b.entries hn).2⟩,
      (observeAll_rules b.now b.entries _).trans h.rules, ?_⟩
    intro i hi
    rcases h.deliver hr b with ⟨-, hsame, -⟩ | ⟨x, -, -, htick, -⟩
    · exact h.ruled i (hsame ▸ hi)
    · obtain rfl : _ = i := Option.some.inj (htick.symm.trans hi)
      rw [Instance.tick_rule]
      exact h.rule_getOrCreate

/-- The row is resolved only by an observation that ends the engine's own alarm. -/
theorem Daemon.Inv.firing_of_resolved (hkey : OwnKey hash (r.name, asset)) {hp : Happening V}
    (hbefore : s.stored hash (r.name, asset) ≠ some .resolved)
    (hafter : (s.step hash rs hp).stored hash (r.name, asset) = some .resolved) :
    s.Firing (r.name, asset) ∧ hp.Shows r asset r.Recovered := by
  cases hp with
  | restart => exact absurd hafter hbefore
  | ack id actor now => exact absurd ((stored_ack s.rows id actor now).mp hafter) hbefore
  | deliver b =>
    rw [h.stored_deliver hkey b] at hafter
    rcases h.deliver hr b with ⟨-, -, hev⟩ | ⟨x, hx, hof, -, hev⟩
    · rw [hev] at hafter
      exact absurd hafter hbefore
    rw [hev] at hafter
    cases hs : (s.engine.getOrCreate r asset).state with
    | firing =>
      refine ⟨Daemon.firing_iff.mpr hs, b, rfl, x, hx, hof, ?_⟩
      rcases Instance.tick_firing hs x.snapshot b.now with ⟨hrec, -⟩ | ⟨-, -, hnone⟩
      · rwa [h.rule_getOrCreate] at hrec
      · rw [hnone] at hafter
        exact absurd hafter hbefore
    | resolved =>
      -- the event of an instance that is not firing is a firing one
      obtain ⟨-, ⟨hnone, -⟩ | ⟨ev, hsome, -, hflip, -⟩⟩ :=
        (s.engine.getOrCreate r asset).tick_cases x.snapshot b.now
      · rw [hnone] at hafter
        exact absurd hafter hbefore
      rw [hsome] at hafter
      rw [hs] at hflip
      have hrow : ev.state.row = .resolved := Option.some.inj hafter
      rw [hflip] at hrow
      cases hrow

/-- A firing engine that observes a recovery resolves the row. -/
theorem Daemon.Inv.resolved_of_firing (hkey : OwnKey hash (r.name, asset))
    (hf : s.Firing (r.name, asset)) {hp : Happening V} (hshows : hp.Shows r asset r.Recovered) :
    (s.step hash rs hp).stored hash (r.name, asset) = some .resolved := by
  obtain ⟨b, rfl, x, hx, hof, hrec⟩ := hshows
  rw [h.stored_deliver hkey b]
  rcases h.deliver hr b with ⟨hno, -⟩ | ⟨x', hx', hof', -, hev⟩
  · exact absurd hof (hno x hx)
  obtain rfl : x' = x :=
    inj_on_of_nodup_map b.apart hx' hx (hof'.1.trans hof.1.symm)
  rcases Instance.tick_firing (Daemon.firing_iff.mp hf) x'.snapshot b.now with
    ⟨-, -, ev, hsome, hst⟩ | ⟨hnot, -⟩
  · rw [hev, hsome]
    show some ev.state.row = some .resolved
    rw [hst]
    rfl
  · rw [h.rule_getOrCreate] at hnot
    exact absurd hrec hnot

/-- Without a recovery and without a restart, a firing engine goes on firing. -/
theorem Daemon.Inv.firing_step (hf : s.Firing (r.name, asset)) {hp : Happening V}
    (hno : ¬ hp.Shows r asset r.Recovered) (hrestart : hp ≠ .restart) :
    (s.step hash rs hp).Firing (r.name, asset) := by
  cases hp with
  | restart => exact absurd rfl hrestart
  | ack id actor now => exact hf
  | deliver b =>
    rcases h.deliver hr b with ⟨-, hsame, -⟩ | ⟨x, hx, hof, htick, -⟩
    · show ((observeAll b.now b.entries s.engine).1.instances (r.name, asset)).map _ = _
      rw [hsame]
      exact hf
    show ((observeAll b.now b.entries s.engine).1.instances (r.name, asset)).map _ = _
    rw [htick]
    rcases Instance.tick_firing (Daemon.firing_iff.mp hf) x.snapshot b.now with
      ⟨hrec, -⟩ | ⟨-, hst, -⟩
    · rw [h.rule_getOrCreate] at hrec
      exact absurd ⟨b, rfl, x, hx, hof, hrec⟩ hno
    · rw [Option.map_some, hst]

omit hr h

/-! ### Whole runs -/

variable {rows : Table StoredAlarm.id} {ρ : Nat → Happening V}

theorem Daemon.Inv.after (hr : r ∈ rs.rules) (k : Nat) :
    (Daemon.after hash rs rows ρ k).Inv rs r asset := by
  induction k with
  | zero => exact ⟨⟨_, .newEngine rs.rules⟩, rfl, nofun⟩
  | succ k ih => exact ih.step hr (ρ k)

/-- A firing engine that is not restarted before a recovery resolves the row by then. -/
theorem resolved_of_undisturbed (hkey : OwnKey hash (r.name, asset)) (hr : r ∈ rs.rules) {j : Nat}
    (hshows : (ρ j).Shows r asset r.Recovered) : ∀ (m k : Nat), k + m = j →
      (Daemon.after hash rs rows ρ k).Firing (r.name, asset) →
      (∀ i, k ≤ i → i < j → ρ i ≠ .restart) →
      ∃ i > k, (Daemon.after hash rs rows ρ i).stored hash (r.name, asset) = some .resolved
  | 0, k, hkj, hf, _ => by
    obtain rfl : k = j := hkj
    exact ⟨k + 1, k.lt_succ_self, (Daemon.Inv.after hr k).resolved_of_firing hr hkey hf hshows⟩
  | m + 1, k, hkj, hf, hquiet => by
    by_cases hnow : (ρ k).Shows r asset r.Recovered
    · exact ⟨k + 1, k.lt_succ_self, (Daemon.Inv.after hr k).resolved_of_firing hr hkey hf hnow⟩
    have hf' : (Daemon.after hash rs rows ρ (k + 1)).Firing (r.name, asset) :=
      (Daemon.Inv.after hr k).firing_step hr hf hnow (hquiet k le_rfl (by omega))
    obtain ⟨i, hi, hres⟩ := resolved_of_undisturbed hkey hr hshows m (k + 1) (by omega) hf'
      fun i hki hij => hquiet i (by omega) hij
    exact ⟨i, by omega, hres⟩

/-- What holds at some point and not before began to hold at one step. -/
theorem exists_step {P : Nat → Prop} {k₀ k : Nat} (h₀ : ¬ P k₀) (hle : k₀ ≤ k) (h : P k) :
    ∃ i ≥ k₀, ¬ P i ∧ P (i + 1) := by
  by_contra hnone
  push Not at hnone
  exact Nat.le_induction (P := fun i _ => ¬ P i) h₀ hnone k hle h

/-- **Resolving across restarts.**  A firing row is resolved later, if the asset is observed again
and again with the condition false and recovered, exactly when, if so, the engine itself has the
alarm firing at some later point and is not restarted from then until the next observed recovery. -/
theorem row_resolves_iff (hkey : OwnKey hash (r.name, asset)) (hr : r ∈ rs.rules)
    (rows : Table StoredAlarm.id) (ρ : Nat → Happening V) {k₀ : Nat}
    (hfiring : (Daemon.after hash rs rows ρ k₀).stored hash (r.name, asset) = some .firing) :
    ((∀ n, ∃ k ≥ n, (ρ k).Shows r asset r.Cleared) → ∃ k ≥ k₀,
        (Daemon.after hash rs rows ρ k).stored hash (r.name, asset) = some .resolved) ↔
      ((∀ n, ∃ k ≥ n, (ρ k).Shows r asset r.Cleared) → ∃ k ≥ k₀,
        (Daemon.after hash rs rows ρ k).Firing (r.name, asset) ∧
          ∃ j ≥ k, (ρ j).Shows r asset r.Recovered ∧ ∀ i, k ≤ i → i < j → ρ i ≠ .restart) := by
  refine imp_congr_right fun _ => ?_
  constructor
  · rintro ⟨k, hk, hres⟩
    have hnot : (Daemon.after hash rs rows ρ k₀).stored hash (r.name, asset) ≠ some .resolved := by
      rw [hfiring]
      nofun
    obtain ⟨i, hi, hbefore, hafter⟩ := exists_step (P := fun k =>
      (Daemon.after hash rs rows ρ k).stored hash (r.name, asset) = some .resolved) hnot hk hres
    obtain ⟨hf, hshows⟩ := (Daemon.Inv.after hr i).firing_of_resolved hr hkey hbefore hafter
    exact ⟨i, hi, hf, i, le_rfl, hshows, fun i' h₁ h₂ => absurd h₂ (by omega)⟩
  · rintro ⟨k, hk, hf, j, hkj, hshows, hquiet⟩
    obtain ⟨i, hi, hres⟩ :=
      resolved_of_undisturbed hkey hr hshows (j - k) k (by omega) hf hquiet
    exact ⟨i, by omega, hres⟩

end Happening

/-! ### A fault across a restart -/

def faultRules : RuleSet Rat := ⟨[faultRule], by simp⟩

def statusBatch (v : Rat) : Happening Rat :=
  .deliver ⟨7, [⟨"site01.cdu000", "cdu", fun p => if p = "status" then some v else none⟩], by simp⟩

def clearedRun : Nat → Happening Rat
  | 0 => statusBatch 3
  | _ => statusBatch 0

def restartedRun : Nat → Happening Rat
  | 0 => statusBatch 3
  | 1 => .restart
  | _ => statusBatch 0

theorem statusBatch_cleared : (statusBatch 0).Shows faultRule "site01.cdu000" faultRule.Cleared :=
  ⟨_, rfl, _, mem_singleton_self _, ⟨rfl, rfl, by decide⟩, by decide +kernel, rfl⟩

theorem ownKey_fault : OwnKey id (faultRule.name, lit "site01.cdu000") :=
  ownKey_id _ (by decide)

/-- Without a restart the fault is resolved. -/
theorem cleared_fault_resolved :
    (Daemon.after id faultRules .empty clearedRun 1).stored id (faultRule.name, "site01.cdu000") =
        some .firing ∧
      ∃ k ≥ 1, (Daemon.after id faultRules .empty clearedRun k).stored id
        (faultRule.name, "site01.cdu000") = some .resolved := by
  refine ⟨rfl, (row_resolves_iff ownKey_fault (mem_singleton_self _) .empty clearedRun
    rfl).mpr (fun _ => ⟨1, le_rfl, rfl, 1, le_rfl, ?_, ?_⟩) ?_⟩
  · exact ⟨_, rfl, _, mem_singleton_self _, ⟨rfl, rfl, by decide⟩, by decide +kernel, rfl⟩
  · intro i h₁ h₂
    omega
  · intro n
    exact ⟨n + 1, Nat.le_succ n, statusBatch_cleared⟩

/-- After the restart the engine has an instance that is not firing, and the row is left alone. -/
theorem restartedRun_after : ∀ m, Daemon.after id faultRules .empty restartedRun (m + 3) =
    ⟨⟨[faultRule], Function.update (fun _ => none) (faultRule.name, "site01.cdu000")
      (some ⟨faultRule, "site01.cdu000", .resolved, 0, 0⟩)⟩,
      (Daemon.after id faultRules .empty restartedRun 1).rows⟩
  | 0 => rfl
  | m + 1 => by
    rw [Daemon.after, restartedRun_after m]
    exact congrArg (fun is => (⟨⟨[faultRule], is⟩, _⟩ : Daemon Rat)) (Function.update_idem ..)

/-- After a restart it is observed for ever that the fault is over, and the row stays firing. -/
theorem restarted_fault_never_resolved :
    (Daemon.after id faultRules .empty restartedRun 1).stored id
        (faultRule.name, "site01.cdu000") = some .firing ∧
      (∀ n, ∃ k ≥ n, (restartedRun k).Shows faultRule "site01.cdu000" faultRule.Cleared) ∧
      ∀ k ≥ 1, (Daemon.after id faultRules .empty restartedRun k).stored id
        (faultRule.name, "site01.cdu000") ≠ some .resolved := by
  refine ⟨rfl, ?_, ?_⟩
  · intro n
    exact ⟨n + 2, Nat.le_add_right n 2, statusBatch_cleared⟩
  rintro (_ | _ | _ | k) hk
  · omega
  · nofun
  · nofun
  · rw [restartedRun_after]
    nofun

end Cios.Alarm
