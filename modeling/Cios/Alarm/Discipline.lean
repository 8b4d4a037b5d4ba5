import Cios.Alarm.Engine
import Mathlib.Data.List.Nodup

/-!
# Alarm — the discipline of the events

What the events of one rule and asset say, over whole runs of the engine (`events_disciplined`).
The tick of an instance is stated once by its outcomes (`Ticked`); `Tracked` is what an instance
knows of the observations so far, and every outcome keeps it (`Tracked.tick`).
-/

namespace Cios.Alarm
open Text List Engine Option

variable {V : Type}

/-! ### Observations -/

/-- The arguments of `Observe`. -/
structure Observation (V : Type) where
  assetPath : Bytes
  assetType : Bytes
  snapshot : Snapshot V
  now : Int

def Observation.Of (o : Observation V) (r : AlarmRule V) (asset : Bytes) : Prop :=
  o.assetPath = asset ∧ o.assetType = r.appliesTo

def eventsOf (π : Pair) (evs : List Event) : List Event := evs.filter fun ev => ev.pair = π

theorem eventsOf_append (π : Pair) (evs evs' : List Event) :
    eventsOf π (evs ++ evs') = eventsOf π evs ++ eventsOf π evs' := filter_append ..

section Machine

variable [Num V]

def Engine.feed (e : Engine V) (o : Observation V) : Engine V × List Event :=
  e.observe o.assetPath o.assetType o.snapshot o.now

/-- The engine after a sequence of observations, and the events it has emitted. -/
def Engine.feedAll (e : Engine V) (obs : List (Observation V)) : Engine V × List Event :=
  obs.foldl (fun acc o => ((acc.1.feed o).1, acc.2 ++ (acc.1.feed o).2)) (e, [])

theorem Engine.feedAll_append (e : Engine V) (obs : List (Observation V)) (o : Observation V) :
    e.feedAll (obs ++ [o]) =
      (((e.feedAll obs).1.feed o).1, (e.feedAll obs).2 ++ ((e.feedAll obs).1.feed o).2) := by
  simp [feedAll]

/-- The condition of the rule, observed to hold. -/
def Observation.Satisfies (o : Observation V) (r : AlarmRule V) : Prop :=
  r.expr.eval o.snapshot = .ok true

/-! ### One tick -/

/-- The outcomes of a tick. -/
inductive Ticked (i : Instance V) (snap : Snapshot V) (now : Int) :
    Instance V → Option Event → Prop where
  | started (hs : i.state = .resolved) (hsat : i.rule.expr.eval snap = .ok true) :
      Ticked i snap now { i with firstSatisfiedAt := now } none
  | waiting (hs : i.state = .resolved) (hsat : i.rule.expr.eval snap = .ok true) :
      Ticked i snap now i none
  | fired (hs : i.state = .resolved) (hsat : i.rule.expr.eval snap = .ok true) (since : Int)
      (hsince : since = now ∧ i.rule.forDuration = 0 ∨ since = i.firstSatisfiedAt ∧ since ≠ 0 ∧
        now - since ≥ i.rule.forDuration) :
      Ticked i snap now (i.fire since now).1 (i.fire since now).2
  | cleared (hs : i.state = .resolved) : Ticked i snap now { i with firstSatisfiedAt := 0 } none
  | burning (hs : i.state = .firing) : Ticked i snap now i none
  | recovered (hs : i.state = .firing) :
      Ticked i snap now { i with state := .resolved, firstSatisfiedAt := 0 }
        (some (({ i with state := .resolved, firstSatisfiedAt := 0 } : Instance V).event now))

variable {i : Instance V} {snap : Snapshot V} {now : Int} {ev : Event} {assetPath : Bytes}

/-- A firing instance whose condition does not hold burns on or recovers. -/
theorem Ticked.of_unsatisfied (hs : i.state = .firing) :
    let res : Instance V × Option Event := match i.rule.recovery snap with
      | .ok true =>
        let i' := { i with state := .resolved, firstSatisfiedAt := 0 }
        (i', some (i'.event now))
      | _ => (i, none)
    Ticked i snap now res.1 res.2 := by
  split
  · exact .recovered hs
  · exact .burning hs

theorem Instance.ticked (i : Instance V) (snap : Snapshot V) (now : Int) :
    Ticked i snap now (i.tick snap now).1 (i.tick snap now).2 := by
  obtain ⟨rule, asset, state, first, since⟩ := i
  unfold Instance.tick
  rcases he : rule.expr.eval snap with e | b
  · cases state with
    | resolved => exact .cleared rfl
    | firing => exact .of_unsatisfied rfl
  cases state with
  | resolved =>
    cases b with
    | false => exact .cleared rfl
    | true =>
      simp only [if_true]
      split
      · exact .fired rfl he now (.inl ⟨rfl, ‹_›⟩)
      split
      · exact .started rfl he
      · split
        · exact .fired rfl he first (.inr ⟨rfl, ‹_›, ‹_›⟩)
        · exact .waiting rfl he
  | firing =>
    cases b with
    | false => exact .of_unsatisfied rfl
    | true => exact .burning rfl

/-! ### What the events say -/

/-- The condition was observed at the given instant and at every observation of the asset since. -/
def HeldSince (r : AlarmRule V) (asset : Bytes) (obs : List (Observation V)) (since : Int) : Prop :=
  ∃ pre o span, obs = pre ++ o :: span ∧ o.Of r asset ∧ o.now = since ∧
    ∀ o' ∈ o :: span, o'.Of r asset → o'.Satisfies r

/-- A firing event's last observation completes the rule's duration, throughout which it held. -/
structure Sustained (r : AlarmRule V) (asset : Bytes) (obs : List (Observation V)) (ev : Event) :
    Prop where
  duration : ev.occurredAt - ev.since ≥ r.forDuration
  held : ∃ upto o post, obs = upto ++ o :: post ∧ o.Of r asset ∧ o.now = ev.occurredAt ∧
    HeldSince r asset (upto ++ [o]) ev.since

/-- The discipline of the events of one rule and asset, over a sequence of observations. -/
structure Disciplined (r : AlarmRule V) (asset : Bytes) (obs : List (Observation V))
    (evs : List Event) : Prop where
  alternates : ∀ k ev, evs[k]? = some ev → ev.state = phase (k + 1)
  sustained : ∀ ev ∈ evs, ev.state = .firing → Sustained r asset obs ev
  sameSince : ∀ k f g, evs[k]? = some f → evs[k + 1]? = some g → g.state = .resolved →
    g.since = f.since

variable {r : AlarmRule V} {asset : Bytes} {obs : List (Observation V)} {evs : List Event}
  {o : Observation V}

theorem HeldSince.start (ho : o.Of r asset) (hsat : o.Satisfies r) :
    HeldSince r asset (obs ++ [o]) o.now :=
  ⟨obs, o, [], rfl, ho, rfl, by simpa using fun _ => hsat⟩

theorem HeldSince.snoc {since : Int} (h : HeldSince r asset obs since)
    (hsat : o.Of r asset → o.Satisfies r) : HeldSince r asset (obs ++ [o]) since := by
  obtain ⟨pre, o₀, span, rfl, ho₀, ht, hall⟩ := h
  refine ⟨pre, o₀, span ++ [o], by simp, ho₀, ht, fun o' ho' => ?_⟩
  rw [← cons_append] at ho'
  rcases mem_append.mp ho' with hin | hin
  · exact hall o' hin
  · obtain rfl : o' = o := by simpa using hin
    exact hsat

theorem Sustained.snoc (h : Sustained r asset obs ev) : Sustained r asset (obs ++ [o]) ev := by
  obtain ⟨hd, upto, o₁, post, rfl, ho₁, ht, hheld⟩ := h
  exact ⟨hd, upto, o₁, post ++ [o], by simp, ho₁, ht, hheld⟩

theorem Disciplined.nil : Disciplined r asset [] [] :=
  ⟨by simp, by simp, by simp⟩

theorem Disciplined.snoc (h : Disciplined r asset obs evs) :
    Disciplined r asset (obs ++ [o]) evs :=
  ⟨h.alternates, fun ev hin hs => (h.sustained ev hin hs).snoc, h.sameSince⟩

theorem getElem?_snoc {ev' : Event} {k : Nat} (h : (evs ++ [ev])[k]? = some ev') :
    evs[k]? = some ev' ∨ k = evs.length ∧ ev' = ev := by
  rw [getElem?_append] at h
  split at h
  · exact .inl h
  · rename_i hlen
    obtain ⟨hk, he⟩ := List.getElem?_eq_some_iff.mp h
    simp only [length_singleton] at hk
    exact .inr ⟨by omega, by simpa using he.symm⟩

/-- One more event: the pair's next state, sustained if firing, with the last `Since` if
resolved. -/
theorem Disciplined.emit (h : Disciplined r asset obs evs) (hs : ev.state = phase (evs.length + 1))
    (hf : ev.state = .firing → Sustained r asset obs ev)
    (hr : ev.state = .resolved → ∀ f, evs.getLast? = some f → ev.since = f.since) :
    Disciplined r asset obs (evs ++ [ev]) where
  alternates k ev' hk := by
    rcases getElem?_snoc hk with hk | ⟨rfl, rfl⟩
    · exact h.alternates k ev' hk
    · exact hs
  sustained ev' hin := by
    rcases mem_append.mp hin with hin | hin
    · exact h.sustained ev' hin
    · obtain rfl : ev' = ev := by simpa using hin
      exact hf
  sameSince k f g hkf hkg := by
    have hlt : k < evs.length := by
      have := (List.getElem?_eq_some_iff.mp hkg).1
      simp at this
      omega
    rw [getElem?_append_left hlt] at hkf
    rcases getElem?_snoc hkg with hkg | ⟨hlen, rfl⟩
    · exact h.sameSince k f g hkf hkg
    intro hres
    refine hr hres f ?_
    rw [getLast?_eq_getElem?, ← hkf]
    congr 1
    omega

/-! ### What an instance knows -/

/-- What the instance of a rule and asset knows of the observations and events so far. -/
structure Tracked (r : AlarmRule V) (asset : Bytes) (obs : List (Observation V))
    (evs : List Event) (i : Instance V) : Prop where
  rule : i.rule = r
  assetPath : i.assetPath = asset
  state : i.state = phase evs.length
  timer : i.state = .resolved → i.firstSatisfiedAt ≠ 0 → HeldSince r asset obs i.firstSatisfiedAt
  since : i.state = .firing → ∃ ev, evs.getLast? = some ev ∧ ev.since = i.since

theorem Tracked.fresh : Tracked r asset obs [] ⟨r, asset, .resolved, 0, 0⟩ :=
  ⟨rfl, rfl, rfl, fun _ h => absurd rfl h, nofun⟩

/-- An observation of another asset, or under another type, tells the instance nothing. -/
theorem Tracked.snoc (h : Tracked r asset obs evs i) (ho : ¬ o.Of r asset) :
    Tracked r asset (obs ++ [o]) evs i :=
  ⟨h.rule, h.assetPath, h.state, fun hs hf => (h.timer hs hf).snoc fun h => absurd h ho, h.since⟩

/-- **One tick** keeps what the instance knows, and its event, if any, keeps the discipline. -/
theorem Tracked.tick {i' : Instance V} {ev? : Option Event} (h : Tracked r asset obs evs i)
    (hd : Disciplined r asset obs evs) (ho : o.Of r asset) (ht : Ticked i o.snapshot o.now i' ev?) :
    Tracked r asset (obs ++ [o]) (evs ++ ev?.toList) i' ∧
      Disciplined r asset (obs ++ [o]) (evs ++ ev?.toList) := by
  obtain ⟨rfl, rfl, hstate, htimer, hsince⟩ := h
  have hd' := hd.snoc (o := o)
  cases ht with
  | started hs hsat =>
    simp only [toList_none, append_nil]
    exact ⟨⟨rfl, rfl, hstate, fun _ _ => .start ho hsat, fun hf => by simp [hs] at hf⟩, hd'⟩
  | waiting hs hsat =>
    simp only [toList_none, append_nil]
    exact ⟨⟨rfl, rfl, hstate, fun hr hf => (htimer hr hf).snoc fun _ => hsat, hsince⟩, hd'⟩
  | cleared hs =>
    simp only [toList_none, append_nil]
    exact ⟨⟨rfl, rfl, hstate, fun _ hf => absurd rfl hf, fun hf => by simp [hs] at hf⟩, hd'⟩
  | burning hs =>
    simp only [toList_none, append_nil]
    exact ⟨⟨rfl, rfl, hstate, fun hr => by simp [hs] at hr, hsince⟩, hd'⟩
  | fired hs hsat since hwhen =>
    have hphase : State.firing = phase (evs.length + 1) := by
      rw [phase, ← hstate, hs]
      rfl
    -- either the rule asks for no duration, or the timer has run for it
    have hheld : HeldSince i.rule i.assetPath (obs ++ [o]) since ∧
        o.now - since ≥ i.rule.forDuration := by
      rcases hwhen with ⟨rfl, hzero⟩ | ⟨rfl, hne, hdur⟩
      · exact ⟨.start ho hsat, by omega⟩
      · exact ⟨(htimer hs hne).snoc fun _ => hsat, hdur⟩
    refine ⟨⟨rfl, rfl, by simpa [Instance.fire] using hphase, nofun, fun _ => ?_⟩, ?_⟩
    · exact ⟨_, getLast?_concat, rfl⟩
    · exact hd'.emit hphase (fun _ => ⟨hheld.2, obs, o, [], rfl, ho, rfl, hheld.1⟩) nofun
  | recovered hs =>
    have hphase : State.resolved = phase (evs.length + 1) := by
      rw [phase, ← hstate, hs]
      rfl
    refine ⟨⟨rfl, rfl, by simpa using hphase, fun _ hf => absurd rfl hf, nofun⟩, ?_⟩
    refine hd'.emit hphase nofun fun _ f hf => ?_
    obtain ⟨f', hf', hs'⟩ := hsince hs
    obtain rfl : f = f' := some.inj (hf.symm.trans hf')
    exact hs'.symm

/-! ### One observation -/

variable {e : Engine V} {n : Pair → Nat}

theorem Engine.observeRules_append {assetType : Bytes} :
    ∀ (rs rs' : List (AlarmRule V)) (e : Engine V),
      observeRules assetPath assetType snap now (rs ++ rs') e =
        let first := observeRules assetPath assetType snap now rs e
        let rest := observeRules assetPath assetType snap now rs' first.1
        (rest.1, first.2 ++ rest.2)
  | [], _, _ => rfl
  | r :: rs, rs', e => by
    rw [cons_append, observeRules, observeRules]
    split
    · exact observeRules_append rs rs' e
    · simp [observeRules_append rs rs']

theorem Engine.observeRules_rules {assetType : Bytes} :
    ∀ (rs : List (AlarmRule V)) (e : Engine V),
      (observeRules assetPath assetType snap now rs e).1.rules = e.rules
  | [], _ => rfl
  | r :: rs, e => by
    rw [observeRules]
    split
    · exact observeRules_rules rs e
    · exact observeRules_rules rs _

theorem Engine.observeRules_cons (r : AlarmRule V) (rs : List (AlarmRule V)) (e : Engine V) :
    observeRules assetPath r.appliesTo snap now (r :: rs) e =
      let res := e.tickRule r assetPath snap now
      let rest := observeRules assetPath r.appliesTo snap now rs res.1
      (rest.1, res.2.toList ++ rest.2) := by
  rw [observeRules, if_neg (by simp)]

theorem Synced.eventsOf_tickRule (h : Synced e n) (assetPath : Bytes) (snap : Snapshot V)
    (now : Int) (π : Pair) :
    eventsOf π (e.tickRule r assetPath snap now).2.toList =
      if (r.name, assetPath) = π then (e.tickRule r assetPath snap now).2.toList else [] := by
  unfold Engine.tickRule
  obtain ⟨-, ⟨hno, -⟩ | ⟨ev, hev, hp, -⟩⟩ := (e.getOrCreate r assetPath).tick_cases snap now
  · simp [hno, eventsOf]
  · rw [(h.getOrCreate r assetPath).1] at hp
    simp [hev, eventsOf, filter_singleton, hp]

/-- The rules that tick other pairs leave this one's instance alone, and emit no event of it. -/
theorem Synced.observeRules_other {π : Pair} (assetPath assetType : Bytes) (snap : Snapshot V)
    (now : Int) : ∀ {rs : List (AlarmRule V)} {e : Engine V} {n : Pair → Nat}, Synced e n →
      (∀ r ∈ rs, r.appliesTo = assetType → (r.name, assetPath) ≠ π) →
      (Engine.observeRules assetPath assetType snap now rs e).1.instances π = e.instances π ∧
        eventsOf π (Engine.observeRules assetPath assetType snap now rs e).2 = []
  | [], _, _, _, _ => ⟨rfl, rfl⟩
  | r :: rs, e, n, h, hrs => by
    obtain ⟨hr, hrest⟩ := forall_mem_cons.mp hrs
    by_cases htype : r.appliesTo = assetType
    · subst htype
      rw [observeRules_cons]
      obtain ⟨hi, hev⟩ := Synced.observeRules_other assetPath r.appliesTo snap now
        (h.tickRule r assetPath snap now).2 hrest
      refine ⟨hi.trans (Function.update_of_ne (Ne.symm (hr rfl)) _ _), ?_⟩
      rw [eventsOf_append, hev, h.eventsOf_tickRule, if_neg (hr rfl), nil_append]
    · rw [Engine.observeRules, if_pos htype]
      exact Synced.observeRules_other assetPath assetType snap now h hrest

/-- An observation under the rule's type ticks the rule's instance, and emits its event. -/
theorem Synced.feed_of (h : Synced e n) (hnodup : (e.rules.map AlarmRule.name).Nodup)
    (hr : r ∈ e.rules) (ho : o.Of r asset) (htype : r.appliesTo ≠ []) :
    (e.feed o).1.instances (r.name, asset) =
        some ((e.getOrCreate r asset).tick o.snapshot o.now).1 ∧
      eventsOf (r.name, asset) (e.feed o).2 =
        ((e.getOrCreate r asset).tick o.snapshot o.now).2.toList := by
  obtain ⟨rfl, hty⟩ := ho
  obtain ⟨rs, rs', hrules⟩ := append_of_mem hr
  rw [hrules, map_append, map_cons, nodup_middle, ← map_append, nodup_cons] at hnodup
  have hother : ∀ r' ∈ rs ++ rs', r'.appliesTo = o.assetType →
      (r'.name, o.assetPath) ≠ (r.name, o.assetPath) := by
    intro r' hr' _ hp
    have hname : r'.name = r.name := congrArg Prod.fst hp
    exact hnodup.1 (hname ▸ mem_map_of_mem hr')
  obtain ⟨hbefore, hafter⟩ := forall_mem_append.mp hother
  -- The rules before and after this one tick other pairs.
  obtain ⟨hi, hev⟩ := h.observeRules_other o.assetPath o.assetType o.snapshot o.now hbefore
  obtain ⟨k, hk⟩ : ∃ k, Synced (Engine.observeRules o.assetPath o.assetType o.snapshot o.now
      rs e).1 k := ⟨_, h.observeRules.2⟩
  have hget : (Engine.observeRules o.assetPath o.assetType o.snapshot o.now rs e).1.getOrCreate
      r o.assetPath = e.getOrCreate r o.assetPath := by
    simp only [Engine.getOrCreate, hi]
  obtain ⟨hi', hev'⟩ := (hk.tickRule r o.assetPath o.snapshot o.now).2.observeRules_other
    o.assetPath o.assetType o.snapshot o.now hafter
  have hfeed : e.feed o = Engine.observeRules o.assetPath o.assetType o.snapshot o.now
      (rs ++ r :: rs') e := by
    rw [Engine.feed, Engine.observe, if_neg (hty ▸ htype), hrules]
  rw [hfeed, observeRules_append]
  rw [hty] at hi' hev' hev hget hk ⊢
  dsimp only
  rw [observeRules_cons]
  refine ⟨?_, ?_⟩
  · rw [hi', ← hget]
    exact Function.update_self _ _ _
  · rw [eventsOf_append, eventsOf_append, hev, hev', hk.eventsOf_tickRule, if_pos rfl,
      nil_append, append_nil, ← hget]
    rfl

theorem Synced.feed_other (h : Synced e n) (hnodup : (e.rules.map AlarmRule.name).Nodup)
    (hr : r ∈ e.rules) (ho : ¬ o.Of r asset) :
    (e.feed o).1.instances (r.name, asset) = e.instances (r.name, asset) ∧
      eventsOf (r.name, asset) (e.feed o).2 = [] := by
  unfold Engine.feed Engine.observe
  split
  · exact ⟨rfl, rfl⟩
  refine h.observeRules_other o.assetPath o.assetType o.snapshot o.now ?_
  intro r' hr' htype hp
  obtain ⟨hname, hasset⟩ := Prod.mk.inj hp
  obtain rfl : r' = r := inj_on_of_nodup_map hnodup hr' hr hname
  exact ho ⟨hasset, htype.symm⟩

theorem Engine.feed_rules (e : Engine V) (o : Observation V) : (e.feed o).1.rules = e.rules := by
  unfold feed observe
  split
  · rfl
  · exact observeRules_rules e.rules e

/-! ### Whole runs -/

/-- What the engine knows of a pair after the observations, by which it has emitted the events. -/
structure Followed (r : AlarmRule V) (asset : Bytes) (obs : List (Observation V))
    (e : Engine V) (evs : List Event) : Prop where
  synced : ∃ n, Synced e n
  disciplined : Disciplined r asset obs evs
  unseen : e.instances (r.name, asset) = none → evs = []
  seen : ∀ i, e.instances (r.name, asset) = some i → r.appliesTo ≠ [] ∧ Tracked r asset obs evs i

theorem Followed.getOrCreate (h : Followed r asset obs e evs) :
    Tracked r asset obs evs (e.getOrCreate r asset) := by
  unfold Engine.getOrCreate
  cases hi : e.instances (r.name, asset) with
  | some i => exact (h.seen i hi).2
  | none =>
    rw [h.unseen hi]
    exact .fresh

/-- **The step lemma.** -/
theorem Followed.feed (h : Followed r asset obs e evs)
    (hnodup : (e.rules.map AlarmRule.name).Nodup) (hr : r ∈ e.rules) (o : Observation V) :
    Followed r asset (obs ++ [o]) (e.feed o).1
      (evs ++ eventsOf (r.name, asset) (e.feed o).2) := by
  obtain ⟨n, hn⟩ := h.synced
  have hsynced : ∃ n, Synced (e.feed o).1 n :=
    ⟨_, (hn.observe o.assetPath o.assetType o.snapshot o.now).2⟩
  by_cases ho : o.Of r asset
  · by_cases htype : r.appliesTo = []
    · -- A rule for no type is never ticked, and so has no instance.
      have hfeed : e.feed o = (e, []) := by
        rw [Engine.feed, Engine.observe, if_pos (ho.2.trans htype)]
      rw [hfeed]
      simp only [eventsOf, filter_nil, append_nil]
      exact ⟨⟨n, hn⟩, h.disciplined.snoc, h.unseen, fun i hi => absurd htype (h.seen i hi).1⟩
    · obtain ⟨hi, hev⟩ := hn.feed_of hnodup hr ho htype
      obtain ⟨ht, hd⟩ := h.getOrCreate.tick h.disciplined ho (Instance.ticked _ _ _)
      rw [hev]
      exact ⟨hsynced, hd, by simp [hi], fun i hi' => by
        obtain rfl : _ = i := by simpa [hi] using hi'
        exact ⟨htype, ht⟩⟩
  · obtain ⟨hi, hev⟩ := hn.feed_other hnodup hr ho
    rw [hev, append_nil]
    exact ⟨hsynced, h.disciplined.snoc, fun hnone => h.unseen (hi ▸ hnone),
      fun i hsome => ⟨(h.seen i (hi ▸ hsome)).1, (h.seen i (hi ▸ hsome)).2.snoc ho⟩⟩

/-- **The run lemma.** -/
theorem followed_feedAll {rules : List (AlarmRule V)} (hnodup : (rules.map AlarmRule.name).Nodup)
    (hr : r ∈ rules) (asset : Bytes) (obs : List (Observation V)) :
    ((newEngine rules).feedAll obs).1.rules = rules ∧
      Followed r asset obs ((newEngine rules).feedAll obs).1
        (eventsOf (r.name, asset) ((newEngine rules).feedAll obs).2) := by
  induction obs using reverseRecOn with
  | nil => exact ⟨rfl, ⟨_, .newEngine rules⟩, .nil, fun _ => rfl, nofun⟩
  | append_singleton obs o ih =>
    obtain ⟨hrules, hf⟩ := ih
    rw [feedAll_append, eventsOf_append]
    refine ⟨(feed_rules _ o).trans hrules, hf.feed ?_ ?_ o⟩
    · rwa [hrules]
    · rwa [hrules]

/-- The observations of a sustained event strictly between its `Since` and its time, when times do
not decrease. -/
theorem Sustained.satisfies (h : Sustained r asset obs ev)
    (htimes : obs.Pairwise fun a b => a.now ≤ b.now) (hin : o ∈ obs) (ho : o.Of r asset)
    (hs : ev.since < o.now) (ht : o.now < ev.occurredAt) : o.Satisfies r := by
  obtain ⟨-, upto, o₁, post, rfl, -, ht₁, pre, o₀, span, hspan, -, hs₀, hall⟩ := h
  rw [append_cons, hspan] at hin htimes
  obtain ⟨hbefore, -, hacross⟩ := pairwise_append.mp htimes
  rcases mem_append.mp hin with hin | hin
  · rcases mem_append.mp hin with hin | hin
    · -- before the timer was started
      have := (pairwise_append.mp hbefore).2.2 o hin o₀ (by simp)
      omega
    · exact hall o hin ho
  · -- after the event
    have hlast : o₁ ∈ pre ++ o₀ :: span := by simp [← hspan]
    have := hacross o₁ hlast o hin
    omega

/-- **The discipline of alarm events.**  While times do not decrease, the events of a rule and an
asset alternate, firing first.  A firing event comes when the condition has held from its `Since` on
for the rule's duration, at every observation of the asset.  A resolved event carries the `Since` of
the firing one before it. -/
theorem events_disciplined (rules : List (AlarmRule V))
    (hnodup : (rules.map AlarmRule.name).Nodup) (obs : List (Observation V))
    (htimes : obs.Pairwise fun a b => a.now ≤ b.now) (r : AlarmRule V) (hr : r ∈ rules)
    (asset : Bytes) :
    let evs := eventsOf (r.name, asset) ((newEngine rules).feedAll obs).2
    Disciplined r asset obs evs ∧
      ∀ ev ∈ evs, ev.state = .firing → ∀ o ∈ obs, o.Of r asset → ev.since < o.now →
        o.now < ev.occurredAt → o.Satisfies r := by
  have hd := (followed_feedAll hnodup hr asset obs).2.disciplined
  exact ⟨hd, fun ev hin hf o ho hof hs ht =>
    (hd.sustained ev hin hf).satisfies htimes ho hof hs ht⟩

end Machine

def lastingFault : AlarmRule Rat where
  name := "cdu-lasting-fault"
  name_ok := by decide
  appliesTo := "cdu"
  severity := "critical"
  summary := "CDU fault"
  runbook := []
  forDuration := 60
  hysteresis := 0
  expr := ⟨.and, .cons .eq (.ident "status") (.num 3) .nil⟩

def statusAt (v : Rat) (now : Int) : Observation Rat :=
  ⟨"site01.cdu000", "cdu", fun p => if p = "status" then some v else none, now⟩

/-- A fault that lasts, then clears: one firing and one resolved event, of the same `Since`. -/
theorem events_disciplined_lastingFault :
    let obs := [statusAt 3 100, statusAt 3 130, statusAt 3 160, statusAt 0 200]
    let evs := eventsOf (lastingFault.name, "site01.cdu000")
      ((newEngine [lastingFault]).feedAll obs).2
    evs.map (fun ev => (ev.state, ev.since, ev.occurredAt)) =
        [(.firing, 100, 160), (.resolved, 100, 200)] ∧
      Disciplined lastingFault "site01.cdu000" obs evs :=
  ⟨rfl, (events_disciplined [lastingFault] (by simp) _ (by simp [statusAt]) lastingFault (by simp)
    "site01.cdu000").1⟩

end Cios.Alarm
