import Cios.Alarm.Expr

/-!
# Alarm — the engine

One instance per rule and asset (`pkg/alarm/engine.go`), resolved or firing.  `tick` is the state
machine of an instance and `Engine.observe` feeds one asset's snapshot to every rule of its type;
both answer the events the caller has to publish and store.

An instance emits an event exactly when it changes state, and the event carries the new state
(`tick_cases`).  So the events of a pair alternate, firing first (`Alternates`, `Synced.observe`).

Times are nanoseconds; `0` is the zero time.
-/

namespace Cios.Alarm
open Text Function

/-! ### Rules -/

/-- `^[a-z][a-z0-9]*(-[a-z0-9]+)*$`. -/
def reRuleName (s : Bytes) : Bool :=
  (s.head?.any isLower) && (split '-' s).all fun p => !p.isEmpty && p.all isAlnum

/-- A rule that the loader accepted. -/
structure AlarmRule (V : Type) where
  name : Bytes
  name_ok : reRuleName name = true
  appliesTo : Bytes
  severity : Bytes
  summary : Bytes
  runbook : Bytes
  forDuration : Int
  hysteresis : V
  expr : Compiled V

abbrev Pair := Bytes × Bytes

inductive State where
  | firing
  | resolved
deriving DecidableEq, Repr

def State.flip : State → State
  | .firing => .resolved
  | .resolved => .firing

structure Event where
  ruleName : Bytes
  assetPath : Bytes
  pointPath : Bytes
  severity : Bytes
  state : State
  summary : Bytes
  runbook : Bytes
  since : Int
  occurredAt : Int
deriving DecidableEq, Repr

def Event.pair (ev : Event) : Pair := (ev.ruleName, ev.assetPath)

structure Instance (V : Type) where
  rule : AlarmRule V
  assetPath : Bytes
  state : State
  firstSatisfiedAt : Int
  since : Int

def Instance.pair {V : Type} (i : Instance V) : Pair := (i.rule.name, i.assetPath)

section Machine

variable {V : Type} [Num V]

/-! ### Recovery -/

/-- The point and the number of a comparison between the two, in either order. -/
def extractCmpLiterals : Node V → Node V → Option (Bytes × V)
  | .ident name, .num v => some (name, v)
  | .num v, .ident name => some (name, v)
  | _, _ => none

/-- Whether the value has left the threshold by the hysteresis.  The operator is taken as it is
written, also when the operands are the other way round. -/
def CmpOp.recovered (op : CmpOp) (h rhs v : V) : Bool :=
  match op with
  | .lt => Num.le (Num.add rhs h) v
  | .le => Num.lt (Num.add rhs h) v
  | .gt => Num.le v (Num.sub rhs h)
  | .ge => Num.lt v (Num.sub rhs h)
  | .eq => Num.le (Num.add rhs h) v || Num.le v (Num.sub rhs h)
  | .ne => Num.eq v rhs

def deriveRecoveryFromExpr (e : Compiled V) (h : V) (snap : Snapshot V) : Except EvalError Bool :=
  match e with
  | ⟨.and, .cons op lhs rhs .nil⟩ =>
    match extractCmpLiterals lhs rhs with
    | none => .ok true
    | some (name, v) =>
      match snap name with
      | none => .error .undefined
      | some x => .ok (op.recovered h v x)
  | _ => .ok true

def AlarmRule.recovery (r : AlarmRule V) (snap : Snapshot V) : Except EvalError Bool :=
  if Num.le r.hysteresis Num.zero then .ok true
  else deriveRecoveryFromExpr r.expr r.hysteresis snap

/-! ### The state machine -/

def AlarmRule.pointPath (r : AlarmRule V) (assetPath : Bytes) : Bytes :=
  match r.expr.refs with
  | [] => assetPath
  | ref :: _ => assetPath ++ lit "." ++ ref

def Instance.event (i : Instance V) (now : Int) : Event where
  ruleName := i.rule.name
  assetPath := i.assetPath
  pointPath := i.rule.pointPath i.assetPath
  severity := i.rule.severity
  state := i.state
  summary := i.rule.summary
  runbook := i.rule.runbook
  since := i.since
  occurredAt := now

def Instance.fire (i : Instance V) (since now : Int) : Instance V × Option Event :=
  let i' := { i with state := .firing, since := since, firstSatisfiedAt := 0 }
  (i', some (i'.event now))

def Instance.tick (i : Instance V) (snap : Snapshot V) (now : Int) :
    Instance V × Option Event :=
  let satisfied := match i.rule.expr.eval snap with
    | .ok b => b
    | .error _ => false
  match i.state with
  | .resolved =>
    if satisfied then
      if i.rule.forDuration = 0 then i.fire now now
      else if i.firstSatisfiedAt = 0 then ({ i with firstSatisfiedAt := now }, none)
      else if now - i.firstSatisfiedAt ≥ i.rule.forDuration then i.fire i.firstSatisfiedAt now
      else (i, none)
    else ({ i with firstSatisfiedAt := 0 }, none)
  | .firing =>
    if satisfied then (i, none)
    else match i.rule.recovery snap with
      | .ok true =>
        let i' := { i with state := .resolved, firstSatisfiedAt := 0 }
        (i', some (i'.event now))
      | _ => (i, none)

/-! ### The engine -/

structure Engine (V : Type) where
  rules : List (AlarmRule V)
  instances : Pair → Option (Instance V)

def newEngine (rules : List (AlarmRule V)) : Engine V := ⟨rules, fun _ => none⟩

def Engine.getOrCreate (e : Engine V) (r : AlarmRule V) (assetPath : Bytes) : Instance V :=
  match e.instances (r.name, assetPath) with
  | some i => i
  | none => ⟨r, assetPath, .resolved, 0, 0⟩

/-- One turn of the loop over the rules. -/
def Engine.tickRule (e : Engine V) (r : AlarmRule V) (assetPath : Bytes) (snap : Snapshot V)
    (now : Int) : Engine V × Option Event :=
  let res := (e.getOrCreate r assetPath).tick snap now
  ({ e with instances := Function.update e.instances (r.name, assetPath) (some res.1) }, res.2)

def Engine.observeRules (assetPath assetType : Bytes) (snap : Snapshot V) (now : Int) :
    List (AlarmRule V) → Engine V → Engine V × List Event
  | [], e => (e, [])
  | r :: rs, e =>
    if r.appliesTo ≠ assetType then Engine.observeRules assetPath assetType snap now rs e
    else
      let res := e.tickRule r assetPath snap now
      let rest := Engine.observeRules assetPath assetType snap now rs res.1
      (rest.1, res.2.toList ++ rest.2)

def Engine.observe (e : Engine V) (assetPath assetType : Bytes) (snap : Snapshot V) (now : Int) :
    Engine V × List Event :=
  if assetType = [] then (e, [])
  else Engine.observeRules assetPath assetType snap now e.rules e

/-- The engine's state of a pair; a pair not yet seen has none. -/
def Engine.stateOf (e : Engine V) (π : Pair) : Option State := (e.instances π).map Instance.state

end Machine

/-! ### Events alternate -/

section Sync

variable {V : Type}

/-- The state of a pair after `n` events. -/
def phase : Nat → State
  | 0 => .resolved
  | n + 1 => (phase n).flip

def bump (n : Pair → Nat) (ev : Event) : Pair → Nat :=
  Function.update n ev.pair (n ev.pair + 1)

def bumps (n : Pair → Nat) (evs : List Event) : Pair → Nat := evs.foldl bump n

/-- After `n` events of each pair, each of these carries its pair's next state, of a loaded rule. -/
def Alternates : (Pair → Nat) → List Event → Prop
  | _, [] => True
  | n, ev :: evs =>
    ev.state = phase (n ev.pair + 1) ∧ reRuleName ev.ruleName = true ∧ Alternates (bump n ev) evs

theorem Alternates.append : ∀ {n : Pair → Nat} {evs evs' : List Event}, Alternates n evs →
    Alternates (bumps n evs) evs' → Alternates n (evs ++ evs')
  | _, [], _, _, h' => h'
  | _, _ :: _, _, h, h' => ⟨h.1, h.2.1, Alternates.append h.2.2 h'⟩

theorem bumps_append (n : Pair → Nat) (evs evs' : List Event) :
    bumps n (evs ++ evs') = bumps (bumps n evs) evs' := List.foldl_append

/-- The engine's instances stand under their own pair, in the state that `n` events leave. -/
structure Synced (e : Engine V) (n : Pair → Nat) : Prop where
  keyed : ∀ π i, e.instances π = some i → i.pair = π
  state : ∀ π i, e.instances π = some i → i.state = phase (n π)
  unseen : ∀ π, e.instances π = none → n π = 0

theorem Synced.newEngine (rules : List (AlarmRule V)) : Synced (newEngine rules) fun _ => 0 :=
  ⟨nofun, nofun, fun _ _ => rfl⟩

variable {e : Engine V} {n : Pair → Nat}

theorem Synced.getOrCreate (h : Synced e n) (r : AlarmRule V) (assetPath : Bytes) :
    (e.getOrCreate r assetPath).pair = (r.name, assetPath) ∧
      (e.getOrCreate r assetPath).state = phase (n (r.name, assetPath)) := by
  unfold Engine.getOrCreate
  cases hi : e.instances (r.name, assetPath) with
  | some i => exact ⟨h.keyed _ i hi, h.state _ i hi⟩
  | none => exact ⟨rfl, by rw [h.unseen _ hi]; rfl⟩

/-- Writing an instance of a pair back, in the state that `k` events of it leave. -/
theorem Synced.update (h : Synced e n) {π : Pair} {i : Instance V} {k : Nat} (hp : i.pair = π)
    (hs : i.state = phase k) :
    Synced { e with instances := update e.instances π (some i) }
      (update n π k) where
  keyed π' i' hi := by
    by_cases hπ : π' = π
    · subst hπ
      obtain rfl : i = i' := by simpa using hi
      exact hp
    · exact h.keyed π' i' (by simpa [hπ] using hi)
  state π' i' hi := by
    by_cases hπ : π' = π
    · subst hπ
      obtain rfl : i = i' := by simpa using hi
      simpa using hs
    · simpa [hπ] using h.state π' i' (by simpa [hπ] using hi)
  unseen π' hi := by
    by_cases hπ : π' = π
    · subst hπ
      simp at hi
    · simpa [hπ] using h.unseen π' (by simpa [hπ] using hi)

variable [Num V]

/-- **One tick.**  Without an event the state stays; with one it changes to what the event
carries. -/
theorem Instance.tick_cases (i : Instance V) (snap : Snapshot V) (now : Int) :
    (i.tick snap now).1.pair = i.pair ∧
      ((i.tick snap now).2 = none ∧ (i.tick snap now).1.state = i.state ∨
        ∃ ev, (i.tick snap now).2 = some ev ∧ ev.pair = i.pair ∧ ev.state = i.state.flip ∧
          (i.tick snap now).1.state = i.state.flip) := by
  unfold Instance.tick
  generalize (match i.rule.expr.eval snap with | .ok b => b | .error _ => false) = satisfied
  cases hs : i.state with
  | resolved =>
    dsimp only
    split
    · split
      · exact ⟨rfl, .inr ⟨_, rfl, rfl, rfl, rfl⟩⟩
      split
      · exact ⟨rfl, .inl ⟨rfl, rfl⟩⟩
      · split
        · exact ⟨rfl, .inr ⟨_, rfl, rfl, rfl, rfl⟩⟩
        · exact ⟨rfl, .inl ⟨rfl, hs⟩⟩
    · exact ⟨rfl, .inl ⟨rfl, rfl⟩⟩
  | firing =>
    dsimp only
    split
    · exact ⟨rfl, .inl ⟨rfl, hs⟩⟩
    · split
      · exact ⟨rfl, .inr ⟨_, rfl, rfl, rfl, rfl⟩⟩
      · exact ⟨rfl, .inl ⟨rfl, hs⟩⟩

theorem Synced.tickRule (h : Synced e n) (r : AlarmRule V) (assetPath : Bytes)
    (snap : Snapshot V) (now : Int) :
    Alternates n (e.tickRule r assetPath snap now).2.toList ∧
      Synced (e.tickRule r assetPath snap now).1
        (bumps n (e.tickRule r assetPath snap now).2.toList) := by
  obtain ⟨hpair, hstate⟩ := h.getOrCreate r assetPath
  unfold Engine.tickRule
  obtain ⟨hp, ⟨hno, hs⟩ | ⟨ev, hev, hevp, hevs, hs⟩⟩ :=
    (e.getOrCreate r assetPath).tick_cases snap now
  · rw [hno]
    refine ⟨trivial, ?_⟩
    have hu := h.update (hp.trans hpair) (hs.trans hstate)
    rwa [update_eq_self] at hu
  · rw [hev]
    have hevp' : ev.pair = (r.name, assetPath) := hevp.trans hpair
    have hname : ev.ruleName = r.name := congrArg Prod.fst hevp'
    rw [hstate] at hevs hs
    refine ⟨⟨?_, ?_, trivial⟩, ?_⟩
    · rw [hevp']
      exact hevs
    · rw [hname]
      exact r.name_ok
    have hbump : bumps n [ev] =
        Function.update n (r.name, assetPath) (n (r.name, assetPath) + 1) := by
      rw [← hevp']
      rfl
    have hu := h.update (hp.trans hpair) (k := n (r.name, assetPath) + 1) hs
    rwa [← hbump] at hu

theorem Synced.observeRules {assetPath assetType : Bytes} {snap : Snapshot V} {now : Int} :
    ∀ {rs : List (AlarmRule V)} {e : Engine V} {n : Pair → Nat}, Synced e n →
      Alternates n (Engine.observeRules assetPath assetType snap now rs e).2 ∧
        Synced (Engine.observeRules assetPath assetType snap now rs e).1
          (bumps n (Engine.observeRules assetPath assetType snap now rs e).2)
  | [], _, _, h => ⟨trivial, h⟩
  | r :: rs, e, n, h => by
    rw [Engine.observeRules]
    split
    · exact Synced.observeRules h
    · obtain ⟨ha, hs⟩ := h.tickRule r assetPath snap now
      obtain ⟨ha', hs'⟩ := Synced.observeRules hs
      exact ⟨ha.append ha', by rw [bumps_append]; exact hs'⟩

/-- **One observation.**  The events alternate, and the engine is in step with them. -/
theorem Synced.observe (h : Synced e n) (assetPath assetType : Bytes) (snap : Snapshot V)
    (now : Int) :
    Alternates n (e.observe assetPath assetType snap now).2 ∧
      Synced (e.observe assetPath assetType snap now).1
        (bumps n (e.observe assetPath assetType snap now).2) := by
  unfold Engine.observe
  split
  · exact ⟨trivial, h⟩
  · exact h.observeRules

end Sync

end Cios.Alarm
