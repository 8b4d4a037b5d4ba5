import Cios.Alarm.Parse
import Cios.Alarm.Restart
import Mathlib.Algebra.Order.Ring.Abs
import Mathlib.Tactic.Linarith

/-!
# Alarm — hysteresis

A rule that compares a point with a number, under a hysteresis, leaves a band on the recovered side
of the number in which nothing happens once it has fired.  This is so exactly for the numbers that
are written without a minus (`hysteresis_holds_iff`): `-5` is parsed into a product, which the
derivation of the recovery does not take for a literal.
-/

namespace Cios.Alarm
open Text List
open Cios.Arith (minusOne)

/-- The value is on the recovered side by the hysteresis, or more. -/
def CmpOp.Cleared (op : CmpOp) (h c v : Rat) : Prop :=
  match op with
  | .lt | .le => c + h ≤ v
  | .gt | .ge => v ≤ c - h
  | .eq => h ≤ |v - c|
  | .ne => v = c

/-- The value is on the recovered side, and nearer than the hysteresis. -/
def CmpOp.Near (op : CmpOp) (h c v : Rat) : Prop := op.holds v c = false ∧ |v - c| < h

variable {op : CmpOp} {h c v : Rat} {x : Bytes} {r : AlarmRule Rat}

theorem CmpOp.cleared_of_recovered (hrec : op.recovered h c v = true) : op.Cleared h c v := by
  cases op <;> simp only [CmpOp.recovered, CmpOp.Cleared, Num.le, Num.lt, Num.eq, Num.add, Num.sub,
    Bool.or_eq_true, decide_eq_true_eq] at hrec ⊢
  case eq =>
    rcases hrec with hv | hv
    · exact le_abs.mpr (.inl (by linarith))
    · exact le_abs.mpr (.inr (by linarith))
  all_goals linarith

theorem CmpOp.Near.not_cleared (hop : op ≠ .ne) (hv : op.Near h c v) : ¬ op.Cleared h c v := by
  obtain ⟨hlo, hhi⟩ := abs_lt.mp hv.2
  cases op <;> simp only [CmpOp.Cleared, not_le]
  case eq => exact hv.2
  case ne => exact absurd rfl hop
  all_goals linarith

/-- Such a rule recovers only on a value that is clear of the literal. -/
theorem AlarmRule.cleared_of_recovery (hr : r.expr = ⟨.and, .cons op (.ident x) (.num c) .nil⟩)
    (hh : 0 < r.hysteresis) {snap : Snapshot Rat} (hrec : r.recovery snap = .ok true) :
    ∃ v, snap x = some v ∧ op.Cleared r.hysteresis c v := by
  have hpos : Num.le r.hysteresis Num.zero = false := decide_eq_false (not_le.mpr hh)
  rw [AlarmRule.recovery, hpos, hr] at hrec
  cases hx : snap x with
  | none => simp [deriveRecoveryFromExpr, extractCmpLiterals, hx] at hrec
  | some v =>
    refine ⟨v, rfl, CmpOp.cleared_of_recovered ?_⟩
    simpa [deriveRecoveryFromExpr, extractCmpLiterals, hx] using hrec

/-! ### Whole runs -/

def Fired (evs : List Event) : Prop := ∃ ev, evs.getLast? = some ev ∧ ev.state = .firing

theorem Followed.firing {V : Type} [Num V] {r : AlarmRule V} {asset : Bytes}
    {obs : List (Observation V)} {e : Engine V} {evs : List Event}
    (hf : Followed r asset obs e evs) (hfired : Fired evs) :
    r.appliesTo ≠ [] ∧ (e.getOrCreate r asset).rule = r ∧
      (e.getOrCreate r asset).state = .firing := by
  obtain ⟨ev, hlast, hev⟩ := hfired
  have ht := hf.getOrCreate
  refine ⟨?_, ht.rule, ?_⟩
  · cases hi : e.instances (r.name, asset) with
    | none => simp [hf.unseen hi] at hlast
    | some i => exact (hf.seen i hi).1
  have hlen : evs.length - 1 + 1 = evs.length := by
    have : evs ≠ [] := by
      rintro rfl
      simp at hlast
    have := length_pos_of_ne_nil this
    omega
  rw [getLast?_eq_getElem?] at hlast
  rw [ht.state, ← hlen, ← hf.disciplined.alternates _ ev hlast, hev]

variable {rules : List (AlarmRule Rat)} {asset : Bytes}

/-- After a firing event, the rule's next event for the asset comes only with a value on the
recovered side by the hysteresis, and none while the values on that side are nearer. -/
def HoldsBack (rules : List (AlarmRule Rat)) (r : AlarmRule Rat) (asset : Bytes) (op : CmpOp)
    (x : Bytes) (c : Rat) : Prop :=
  let events := fun obs => eventsOf (r.name, asset) ((newEngine rules).feedAll obs).2
  ∀ pre span, Fired (events pre) →
    (events (pre ++ span) ≠ events pre → ∃ o ∈ span, o.Of r asset ∧
      ∃ v, o.snapshot x = some v ∧ op.Cleared r.hysteresis c v) ∧
    ((∀ o ∈ span, o.Of r asset → ∀ v, o.snapshot x = some v → op.Near r.hysteresis c v) →
      events (pre ++ span) = events pre)

section Literal

variable (hr : r.expr = ⟨.and, .cons op (.ident x) (.num c) .nil⟩) (hh : 0 < r.hysteresis)
  (hnodup : (rules.map AlarmRule.name).Nodup) (hin : r ∈ rules)
include hr hh hnodup hin

/-- **The run lemma.**  After a firing event, no event is emitted while no value is clear. -/
theorem quiet_of_not_cleared {pre : List (Observation Rat)}
    (hfired : Fired (eventsOf (r.name, asset) ((newEngine rules).feedAll pre).2))
    {span : List (Observation Rat)}
    (hspan : ∀ o ∈ span, o.Of r asset → ∀ v, o.snapshot x = some v →
      ¬ op.Cleared r.hysteresis c v) :
    eventsOf (r.name, asset) ((newEngine rules).feedAll (pre ++ span)).2 =
      eventsOf (r.name, asset) ((newEngine rules).feedAll pre).2 := by
  induction span using reverseRecOn with
  | nil => rw [append_nil]
  | append_singleton span o ih =>
    replace ih := ih fun o ho => hspan o (by simp [ho])
    obtain ⟨hrules, hf⟩ := followed_feedAll hnodup hin asset (pre ++ span)
    obtain ⟨htype, hrule, hstate⟩ := hf.firing (ih ▸ hfired)
    obtain ⟨n, hn⟩ := hf.synced
    rw [← hrules] at hnodup hin
    rw [← append_assoc, Engine.feedAll_append, eventsOf_append, ih]
    by_cases ho : o.Of r asset
    · rw [(hn.feed_of hnodup hin ho htype).2]
      rcases Instance.tick_firing hstate o.snapshot o.now with ⟨hrec, -⟩ | ⟨-, -, hno⟩
      · rw [hrule] at hrec
        obtain ⟨v, hv, hclear⟩ := r.cleared_of_recovery hr hh hrec.2
        exact absurd hclear (hspan o (by simp) ho v hv)
      · rw [hno, Option.toList_none, append_nil]
    · rw [(hn.feed_other hnodup hin ho).2, append_nil]

theorem holdsBack_literal (hop : op ≠ .ne) : HoldsBack rules r asset op x c := by
  intro pre span hfired
  refine ⟨fun hne => ?_, fun hnear => ?_⟩
  · by_contra hnone
    refine hne (quiet_of_not_cleared hr hh hnodup hin hfired fun o ho hof v hv hclear => ?_)
    exact hnone ⟨o, ho, hof, v, hv, hclear⟩
  · exact quiet_of_not_cleared hr hh hnodup hin hfired fun o ho hof v hv =>
      (hnear o ho hof v hv).not_cleared hop

end Literal

/-! ### Signs -/

/-- A number with minus signs in front, and its value. -/
inductive Signed : Node Rat → Rat → Prop where
  | literal (c : Rat) : Signed (.num c) c
  | minus {n : Node Rat} {c : Rat} (h : Signed n c) : Signed (.binOp .mul n (.num minusOne)) (-c)

theorem Signed.eval {n : Node Rat} (h : Signed n c) (snap : Snapshot Rat) :
    n.eval snap = .ok c := by
  induction h with
  | literal c => rfl
  | @minus n c _ ih =>
    have hmul : Num.mul c minusOne = -c := by
      change c * (0 - 1) = -c
      linarith
    rw [Node.eval, ih, ← hmul]
    rfl

/-- An observation of the point alone. -/
def seenAt (r : AlarmRule Rat) (asset x : Bytes) (v : Rat) (now : Int) : Observation Rat :=
  ⟨asset, r.appliesTo, fun y => if y = x then some v else none, now⟩

theorem eval_seenAt {n : Node Rat} (hn : Signed n c)
    (hr : r.expr = ⟨.and, .cons op (.ident x) n .nil⟩) (now : Int) :
    r.expr.eval (seenAt r asset x v now).snapshot = .ok (op.holds v c) := by
  rw [hr, Compiled.eval, eval_single, hn.eval, Node.eval]
  simp [seenAt, bind, Except.bind]

/-- There is a value for which the rule holds, and a near one for which it does not. -/
theorem CmpOp.exists_near (hop : op ≠ .ne) (hh : 0 < h) (c : Rat) :
    (∃ u, op.holds u c = true) ∧ ∃ v, op.Near h c v := by
  have hpos : 0 < h / 2 := by linarith
  have hhalf : |h / 2| < h := by
    rw [abs_of_pos hpos]
    linarith
  cases op with
  | lt => exact ⟨⟨c - 1, by simp [CmpOp.holds, Num.lt]⟩, c, by simp [CmpOp.holds, Num.lt], by simpa⟩
  | le =>
    exact ⟨⟨c, by simp [CmpOp.holds, Num.le]⟩,
      c + h / 2, by simp [CmpOp.holds, Num.le, hpos], by simpa⟩
  | gt => exact ⟨⟨c + 1, by simp [CmpOp.holds, Num.lt]⟩, c, by simp [CmpOp.holds, Num.lt], by simpa⟩
  | ge =>
    exact ⟨⟨c, by simp [CmpOp.holds, Num.le]⟩,
      c - h / 2, by simp [CmpOp.holds, Num.le, hpos], by simpa⟩
  | eq =>
    exact ⟨⟨c, by simp [CmpOp.holds, Num.eq]⟩, c + h / 2,
      by simpa [CmpOp.holds, Num.eq] using hh.ne',
      by simpa⟩
  | ne => exact absurd rfl hop

section Flapping
variable (hnodup : (rules.map AlarmRule.name).Nodup) (hin : r ∈ rules) (htype : r.appliesTo ≠ [])
include hnodup hin htype

theorem feedAll_concat {obs : List (Observation Rat)} {i : Instance Rat}
    (hi : ((newEngine rules).feedAll obs).1.getOrCreate r asset = i) {o : Observation Rat}
    (ho : o.Of r asset) :
    ((newEngine rules).feedAll (obs ++ [o])).1.getOrCreate r asset = (i.tick o.snapshot o.now).1 ∧
      eventsOf (r.name, asset) ((newEngine rules).feedAll (obs ++ [o])).2 =
        eventsOf (r.name, asset) ((newEngine rules).feedAll obs).2 ++
          (i.tick o.snapshot o.now).2.toList := by
  obtain ⟨hrules, hf⟩ := followed_feedAll hnodup hin asset obs
  obtain ⟨n, hn⟩ := hf.synced
  rw [← hrules] at hnodup hin
  obtain ⟨hinst, hev⟩ := hn.feed_of hnodup hin ho htype
  rw [hi] at hinst hev
  rw [Engine.feedAll_append, eventsOf_append, hev]
  exact ⟨by rw [Engine.getOrCreate, hinst], rfl⟩

variable {n : Node Rat} (hn : Signed n c) (hr : r.expr = ⟨.and, .cons op (.ident x) n .nil⟩)
include hn hr

/-- Seen to hold twice, as long apart as it takes, the rule fires. -/
theorem fires_held (asset : Bytes) {u : Rat} (hu : op.holds u c = true) :
    ∃ pre, Fired (eventsOf (r.name, asset) ((newEngine rules).feedAll pre).2) := by
  have hsat (now : Int) : r.expr.eval (seenAt r asset x u now).snapshot = .ok true :=
    hu ▸ eval_seenAt hn hr now
  have hnew : ((newEngine rules).feedAll []).1.getOrCreate r asset = ⟨r, asset, .resolved, 0, 0⟩ :=
    rfl
  obtain ⟨hi₁, hev₁⟩ := feedAll_concat hnodup hin htype hnew (o := seenAt r asset x u 1) ⟨rfl, rfl⟩
  obtain ⟨-, hev₂⟩ := feedAll_concat hnodup hin htype hi₁
    (o := seenAt r asset x u (1 + max r.forDuration 0)) ⟨rfl, rfl⟩
  have hnow (now : Int) : (seenAt r asset x u now).now = now := rfl
  refine ⟨[] ++ [seenAt r asset x u 1] ++ [seenAt r asset x u (1 + max r.forDuration 0)], ?_⟩
  rw [hev₂, hev₁]
  by_cases hzero : r.forDuration = 0
  · simp [Instance.tick, Instance.fire, hsat, hzero, Fired, Instance.event]
  · simp [Instance.tick, Instance.fire, hsat, hzero, Fired, Instance.event, hnow]

end Flapping

/-- **Hysteresis prevents flapping** of `x op c` exactly when `c` is written without a minus. -/
theorem hysteresis_holds_iff (op : CmpOp) (hop : op ≠ .ne) (x : Bytes) (c : Rat) (n : Node Rat)
    (hn : Signed n c) (r : AlarmRule Rat) (hr : r.expr = ⟨.and, .cons op (.ident x) n .nil⟩)
    (hh : 0 < r.hysteresis) (htype : r.appliesTo ≠ [])
    (rules : List (AlarmRule Rat)) (hnodup : (rules.map AlarmRule.name).Nodup) (hin : r ∈ rules)
    (asset : Bytes) : HoldsBack rules r asset op x c ↔ n = .num c := by
  constructor
  · intro hback
    cases hn with
    | literal c => rfl
    | @minus n c h =>
      obtain ⟨⟨u, hu⟩, v, hv⟩ := CmpOp.exists_near hop hh (-c)
      obtain ⟨pre, hfired⟩ := fires_held hnodup hin htype (.minus h) hr asset hu
      obtain ⟨-, hrule, hstate⟩ := (followed_feedAll hnodup hin asset pre).2.firing hfired
      have hquiet : eventsOf _ ((newEngine rules).feedAll (pre ++ [seenAt r asset x v 0])).2 = _ :=
        (hback pre _ hfired).2 (by simp [seenAt, hv])
      have hi : ((newEngine rules).feedAll pre).1.getOrCreate r asset = _ := rfl
      obtain ⟨-, hev⟩ := feedAll_concat hnodup hin htype hi (o := seenAt r asset x v 0) ⟨rfl, rfl⟩
      -- a product is no literal, so the rule has recovered when it does not hold
      have hrecovered : r.Recovered (seenAt r asset x v 0).snapshot := by
        refine ⟨by simp [eval_seenAt (.minus h) hr, hv.1], ?_⟩
        simp [AlarmRule.recovery, hr, deriveRecoveryFromExpr, extractCmpLiterals]
      rw [hev, append_right_eq_self] at hquiet
      rcases Instance.tick_firing hstate (seenAt r asset x v 0).snapshot
          (seenAt r asset x v 0).now with
        ⟨-, -, ev, hresolved, -⟩ | ⟨hno, -⟩
      · rw [hresolved] at hquiet
        cases hquiet
      · rw [hrule] at hno
        exact absurd hrecovered hno
  · rintro rfl
    exact holdsBack_literal hr hh hnodup hin hop

def wideFault : AlarmRule Rat := { faultRule with hysteresis := 2 }

theorem hysteresis_holds_iff_wideFault :
    HoldsBack [wideFault] wideFault "site01.cdu000" .eq "status" 3 ∧
      Fired (eventsOf (wideFault.name, "site01.cdu000")
        ((newEngine [wideFault]).feedAll [statusAt 3 100]).2) :=
  ⟨(hysteresis_holds_iff .eq (by decide) "status" 3 (.num 3) (.literal 3) wideFault rfl
    (by decide +kernel) (by decide) [wideFault] (by simp) (by simp) "site01.cdu000").mpr rfl,
    _, rfl, rfl⟩

/-- A rule as it is loaded: `status < -5` with a hysteresis of 1. -/
def chilled : AlarmRule Rat :=
  { faultRule with
    hysteresis := 1
    expr := ⟨.and, .cons .lt (.ident "status") (.binOp .mul (.num 5) (.num minusOne)) .nil⟩ }

/-- It fires at -6, resolves at -4.5, which is within the hysteresis, and fires again at -5.1. -/
theorem chilled_flaps :
    parseExpr (fun s => if s = "5" then some (5 : Rat) else none) "status < -5" = .ok chilled.expr ∧
      (eventsOf (chilled.name, "site01.cdu000") ((newEngine [chilled]).feedAll
        [statusAt (-6) 100, statusAt (-9/2) 200, statusAt (-51/10) 300]).2).map Event.state =
          [.firing, .resolved, .firing] ∧
      CmpOp.lt.Near chilled.hysteresis (-5) (-9/2) := by
  refine ⟨rfl, by decide +kernel, ?_⟩
  norm_num [CmpOp.Near, CmpOp.holds, Num.lt, chilled]

end Cios.Alarm
