import Cios.Policy.Resilient

/-!
# Policy — the breaker under concurrent decisions

Any number of decisions share one breaker, in any interleaving.  A half-open period begins with the
call that is let through as the probe and ends with the next outcome that is reported
(`halfOpen_iff_period`).

* The breaker is locked for good exactly when the probe's caller was cancelled and no other outcome
  has come in since (`next_decision_calls_inner_iff`).
* A call that started before a half-open period and reports within it ends the period in the probe's
  place (`discipline_iff`).
-/

namespace Cios.Policy
open List Option
open Effect Effect.Prog
open Runs (Run)
open Pool (step_call)

/-! ### One caller -/

/-- What a caller was told: the breaker's answer, the inner PDP's, and whether it has reported. -/
structure Caller where
  asked : Option (Except PdpError Bool)
  allowed : Bool
  reported : Bool

def Caller.new : Caller := ⟨none, false, false⟩

/-- A caller asks the breaker once and goes on only when let through.  It allows only what the inner
PDP allowed, and leaves without a report only when cancelled. -/
def caller (cfg : RetryConfig) : Protocol PdpOp PdpOp.Ret Verdict Caller where
  next g e :=
    match e with
    | ⟨.beforeCall, r⟩ => { g with asked := some r }
    | ⟨.innerDecision, .ok true⟩ => { g with allowed := true }
    | ⟨.afterCall _ _, _⟩ => { g with reported := true }
    | _ => g
  permits g op :=
    match op with
    | .beforeCall => g.asked = none
    | _ => ∃ probe, g.asked = some (.ok probe)
  ends g v := (v = (true, none) → g.allowed = true) ∧
    (∀ probe, g.asked = some (.ok probe) → 0 < cfg.maxAttempts → g.reported = false →
      ∃ e, v = (false, some (.ctx e)))

variable {cfg : RetryConfig}

theorem attempts_obeys {probe : Bool} {left attempt : Nat} {lastErr : Option PdpError} {g : Caller}
    (hasked : g.asked = some (.ok probe)) (hcount : (left : Int) + attempt = cfg.maxAttempts + 1)
    (hleft : 0 < cfg.maxAttempts → 0 < left) :
    (caller cfg).Obeys g (attempts cfg probe left attempt lastErr) := by
  induction left generalizing attempt lastErr g with
  | zero =>
    refine ⟨nofun, ?_⟩
    intro _ _ hpos
    exact absurd (hleft hpos) (Nat.lt_irrefl 0)
  | succ left ih =>
    refine ⟨⟨probe, hasked⟩, ?_⟩
    rintro (_ | e)
    · refine ⟨⟨probe, hasked⟩, ?_⟩
      rintro (e | allow)
      · simp only
        split
        · -- The last attempt reports its failure.
          refine ⟨⟨probe, hasked⟩, ?_⟩
          rintro ⟨⟩
          exact ⟨nofun, fun _ _ _ h => Bool.noConfusion h⟩
        · rename_i hnot
          refine ⟨⟨probe, hasked⟩, ?_⟩
          intro j
          refine ⟨⟨probe, hasked⟩, ?_⟩
          rintro (_ | e)
          · refine ih hasked (by omega) ?_
            omega
          · exact ⟨nofun, fun _ _ _ _ => ⟨e, rfl⟩⟩
      · cases allow with
        | false =>
          refine ⟨⟨probe, hasked⟩, ?_⟩
          rintro ⟨⟩
          exact ⟨nofun, fun _ _ _ h => Bool.noConfusion h⟩
        | true =>
          refine ⟨⟨probe, hasked⟩, ?_⟩
          rintro ⟨⟩
          exact ⟨fun _ => rfl, fun _ _ _ h => Bool.noConfusion h⟩
    · exact ⟨nofun, fun _ _ _ _ => ⟨e, rfl⟩⟩

theorem decision_obeys : (caller cfg).Obeys .new (decision cfg) := by
  refine ⟨rfl, ?_⟩
  rintro (e | probe)
  · exact ⟨nofun, nofun⟩
  by_cases hpos : 0 < cfg.maxAttempts
  · exact attempts_obeys rfl (by omega) (by omega)
  · -- No attempt is made.
    have hzero : cfg.maxAttempts.toNat = 0 := by omega
    rw [hzero]
    exact ⟨nofun, fun _ _ h => absurd h hpos⟩

/-! ### Half-open periods -/

section System

variable {ι : Type} [DecidableEq ι]

/-- Decisions over one breaker. -/
abbrev System (ι : Type) := Pool ι PdpOp PdpOp.Ret Verdict Breaker

/-- A new breaker, and calls that have not begun. -/
def idle (cfg : RetryConfig) (ι : Type) : System ι := ⟨.new, fun _ => decision cfg⟩

abbrev PdpLabel (ι : Type) := Label ι PdpOp PdpOp.Ret

/-- A half-open period: the call let through as the probe, and the calls begun since. -/
structure Period (ι : Type) where
  probe : ι
  started : List ι

def followPeriod (p : Option (Period ι)) (l : PdpLabel ι) : Option (Period ι) :=
  match l.2 with
  | ⟨.beforeCall, .ok true⟩ => some ⟨l.1, [l.1]⟩
  | ⟨.beforeCall, _⟩ => p.map fun q => { q with started := l.1 :: q.started }
  | ⟨.afterCall _ _, _⟩ => none
  | _ => p

/-- The half-open period that is on after a run, if one is. -/
def period (ls : List (PdpLabel ι)) : Option (Period ι) := ls.foldl followPeriod none

omit [DecidableEq ι] in
theorem period_snoc (ls : List (PdpLabel ι)) (l : PdpLabel ι) :
    period (ls ++ [l]) = followPeriod (period ls) l := by
  simp [period]

variable {ls : List (PdpLabel ι)} {c c' : System ι} {l : PdpLabel ι}

/-- What a caller has been told along a run. -/
def told (cfg : RetryConfig) (ls : List (PdpLabel ι)) (i : ι) : Caller :=
  (caller cfg).after (fun _ => .new) ls i

theorem obeys_told (hrun : Run (Pool.Step (step cfg)) (idle cfg ι) ls c) (i : ι) :
    (caller cfg).Obeys (told cfg ls i) (c.prog i) :=
  Pool.obeys hrun (fun _ => decision_obeys) i

/-- The breaker is half-open, its slot taken, exactly during a period; the probe has not reported,
and every other call of the period was turned away. -/
structure Follows (cfg : RetryConfig) (ls : List (PdpLabel ι)) (c : System ι) : Prop where
  halfOpen : c.shared.state = .breakerHalfOpen ↔ (period ls).isSome = true
  slot : c.shared.halfOpenIn = (period ls).isSome
  probe : ∀ q, period ls = some q →
    (told cfg ls q.probe).asked = some (.ok true) ∧ (told cfg ls q.probe).reported = false
  started : ∀ q, period ls = some q → ∀ i ∈ q.started, i ≠ q.probe →
    ∃ e, (told cfg ls i).asked = some (.error e)
  unasked : ∀ i, (told cfg ls i).asked = none → (told cfg ls i).reported = false

theorem told_snoc (i : ι) : told cfg (ls ++ [l]) i =
    if l.1 = i then (caller cfg).next (told cfg ls i) l.2 else told cfg ls i :=
  Protocol.after_snoc i

theorem Follows.quiet (h : Follows cfg ls c) (hb : c'.shared = c.shared)
    (hperiod : followPeriod (period ls) l = period ls)
    (hnext : ∀ g, ((caller cfg).next g l.2).asked = g.asked ∧
      ((caller cfg).next g l.2).reported = g.reported) :
    Follows cfg (ls ++ [l]) c' := by
  have hp : period (ls ++ [l]) = period ls := (period_snoc ls l).trans hperiod
  have ht : ∀ i, (told cfg (ls ++ [l]) i).asked = (told cfg ls i).asked ∧
      (told cfg (ls ++ [l]) i).reported = (told cfg ls i).reported := by
    intro i
    rw [told_snoc]
    split
    · exact hnext _
    · exact ⟨rfl, rfl⟩
  refine ⟨?_, ?_, ?_, ?_, ?_⟩
  · rw [hb, hp]; exact h.halfOpen
  · rw [hb, hp]; exact h.slot
  · intro q hq
    rw [(ht q.probe).1, (ht q.probe).2]
    exact h.probe q (hp ▸ hq)
  · intro q hq i hi hne
    rw [(ht i).1]
    exact h.started q (hp ▸ hq) i hi hne
  · intro i
    rw [(ht i).1, (ht i).2]
    exact h.unasked i

theorem Follows.period_none (h : Follows cfg ls c) (hs : c.shared.state ≠ .breakerHalfOpen) :
    period ls = none := by
  rw [← not_isSome_iff_eq_none, ← h.halfOpen]
  exact hs

variable {i : ι}

theorem Follows.ask {r : Except PdpError Bool} {now : Int} (h : Follows cfg ls c)
    (hasked : (told cfg ls i).asked = none) (hr : beforeCall cfg now c.shared = (r, c'.shared)) :
    Follows cfg (ls ++ [(i, ⟨.beforeCall, r⟩)]) c' := by
  have htold : ∀ j, told cfg (ls ++ [(i, ⟨.beforeCall, r⟩)]) j =
      if i = j then { told cfg ls j with asked := some r } else told cfg ls j :=
    fun j => told_snoc j
  have hunasked : ∀ j, (told cfg (ls ++ [(i, ⟨.beforeCall, r⟩)]) j).asked = none →
      (told cfg (ls ++ [(i, ⟨.beforeCall, r⟩)]) j).reported = false := by
    intro j
    rw [htold]
    split
    · exact nofun
    · exact h.unasked j
  have hperiod := period_snoc ls (i, ⟨.beforeCall, r⟩)
  -- Outside of a period, where none begins.
  have houtside : c.shared.state ≠ .breakerHalfOpen → r ≠ .ok true → c'.shared = c.shared →
      Follows cfg (ls ++ [(i, ⟨.beforeCall, r⟩)]) c' := by
    intro hs hr e
    have hnone : period (ls ++ [(i, ⟨.beforeCall, r⟩)]) = none := by
      rw [hperiod, h.period_none hs]
      rcases r with e | _ | _
      · rfl
      · rfl
      · exact absurd rfl hr
    exact ⟨by rw [e, hnone]; simp [hs], by rw [e, h.slot, h.period_none hs, hnone],
      by rw [hnone]; nofun, by rw [hnone]; nofun, hunasked⟩
  rcases beforeCall_cases hr with ⟨hs, rfl, e⟩ | ⟨hs, -, rfl, e⟩ | ⟨hs, -, rfl, e⟩ |
      ⟨hs, hin, rfl, e⟩ | ⟨hs, hin, -, -⟩
  iterate 2 (exact houtside (by rw [hs]; nofun) nofun e)
  · -- The period begins, with `i` as its probe.
    refine ⟨by rw [e, hperiod]; simp [followPeriod], by rw [e, hperiod]; rfl, ?_, ?_, hunasked⟩
    · rw [hperiod]
      rintro q ⟨⟩
      rw [htold, if_pos rfl]
      exact ⟨rfl, h.unasked i hasked⟩
    · rw [hperiod]
      rintro q ⟨⟩ j hj hne
      exact absurd (mem_singleton.mp hj) hne
  · -- A period is on, and `i` is turned away.
    obtain ⟨q, hq⟩ := isSome_iff_exists.mp (h.halfOpen.mp hs)
    rw [hq] at hperiod
    have hne : i ≠ q.probe := by
      rintro rfl
      have := (h.probe q hq).1
      rw [hasked] at this
      cases this
    refine ⟨by rw [e, hperiod, hs]; simp [followPeriod], by rw [e, hin, hperiod]; rfl,
      ?_, ?_, hunasked⟩
    · rw [hperiod]
      rintro q' ⟨⟩
      rw [htold, if_neg hne]
      exact h.probe q hq
    · rw [hperiod]
      rintro q' ⟨⟩ j hj hj'
      rw [htold]
      split
      · exact ⟨_, rfl⟩
      · rename_i hij
        exact h.started q hq j ((mem_cons.mp hj).resolve_left (Ne.symm hij)) hj'
  · -- While a period is on the slot is taken.
    rw [h.slot, h.halfOpen.mp hs] at hin
    cases hin

theorem Follows.report {success probe : Bool} {now : Int} (h : Follows cfg ls c)
    (hpermits : ∃ p, (told cfg ls i).asked = some (.ok p))
    (hr : afterCall cfg now success c.shared = c'.shared) :
    Follows cfg (ls ++ [(i, ⟨.afterCall success probe, ()⟩)]) c' := by
  have hperiod : period (ls ++ [(i, ⟨.afterCall success probe, ()⟩)]) = none := period_snoc ls _
  have hstate : c'.shared.state ≠ .breakerHalfOpen ∧ c'.shared.halfOpenIn = false := by
    rw [← hr]
    refine afterCall_state ?_
    intro hs
    rw [h.slot, h.period_none hs]
    rfl
  refine ⟨by simp [hperiod, hstate.1], by rw [hperiod, hstate.2]; rfl, by rw [hperiod]; nofun,
    by rw [hperiod]; nofun, ?_⟩
  · intro j
    rw [told_snoc]
    split
    · rename_i hij
      obtain rfl : i = j := hij
      obtain ⟨p, hp⟩ := hpermits
      intro hnone
      exact absurd (hp.symm.trans hnone) nofun
    · exact h.unasked j

theorem follows_idle : Follows cfg ([] : List (PdpLabel ι)) (idle cfg ι) :=
  ⟨⟨nofun, nofun⟩, rfl, nofun, nofun, fun _ _ => rfl⟩

/-- **Every run keeps to its periods.** -/
theorem follows (hrun : Run (Pool.Step (step cfg)) (idle cfg ι) ls c) : Follows cfg ls c := by
  refine hrun.history_of_run ?_ follows_idle
  intro ls c l c' hrun h hstep
  have hpermits := Pool.permits hrun (fun _ => decision_obeys) hstep
  obtain ⟨k, -, hs, -⟩ := hstep
  obtain ⟨i, op, r⟩ := l
  cases op with
  | beforeCall =>
    obtain ⟨now, hr⟩ := hs
    exact h.ask hpermits hr
  | afterCall success probe =>
    obtain ⟨now, hr⟩ := hs
    exact h.report hpermits hr
  | ctxErr => exact h.quiet hs rfl fun _ => ⟨rfl, rfl⟩
  | jitter => exact h.quiet hs.2.2 rfl fun _ => ⟨rfl, rfl⟩
  | sleep d => exact h.quiet hs rfl fun _ => ⟨rfl, rfl⟩
  | innerDecision =>
    refine h.quiet hs rfl ?_
    intro g
    rcases r with e | _ | _ <;> exact ⟨rfl, rfl⟩

/-- The breaker is half-open exactly in a period, with the slot taken: no second call gets in. -/
theorem halfOpen_iff_period (hrun : Run (Pool.Step (step cfg)) (idle cfg ι) ls c) :
    (c.shared.state = .breakerHalfOpen ↔ (period ls).isSome = true) ∧
      c.shared.halfOpenIn = (period ls).isSome :=
  ⟨(follows hrun).halfOpen, (follows hrun).slot⟩

/-- Failures are counted while the breaker is closed, below the threshold. -/
def Counts (cfg : RetryConfig) (b : Breaker) : Prop :=
  0 ≤ b.consecFail ∧
    (b.consecFail = 0 ∨ b.state = .breakerClosed ∧ b.consecFail < cfg.failureThresh)

/-- **In every run failures are counted below the threshold.** -/
theorem counts_of_run (hrun : Run (Pool.Step (step cfg)) (idle cfg ι) ls c) :
    Counts cfg c.shared := by
  refine hrun.history (I := fun _ c => Counts cfg c.shared) ?_ ⟨Int.le_refl 0, .inl rfl⟩
  rintro ls c ⟨i, op, r⟩ c' h ⟨k, -, hs, -⟩
  cases op with
  | beforeCall =>
    obtain ⟨now, hs⟩ := hs
    grind [Counts, beforeCall]
  | afterCall success probe =>
    obtain ⟨now, hs⟩ := hs
    grind [Counts, afterCall]
  | jitter => rwa [hs.2.2]
  | _ => rwa [show c'.shared = c.shared from hs]

/-! ### Lock-out -/

/-- A call made at `now` whose context stays alive. -/
def liveStep (cfg : RetryConfig) (now : Int) : (op : PdpOp) → Breaker → op.Ret → Breaker → Prop
  | .beforeCall, b, r, b' => beforeCall cfg now b = (r, b')
  | .ctxErr, b, r, b' | .sleep _, b, r, b' => r = none ∧ b' = b
  | .innerDecision, b, r, b' => step cfg .innerDecision b r b'
  | .afterCall success probe, b, r, b' => step cfg (.afterCall success probe) b r b'
  | .jitter, b, r, b' => step cfg .jitter b r b'

theorem decision_must_iff {now : Int} {b : Breaker} :
    (decision cfg).Must (liveStep cfg now) (· = .innerDecision) b ↔
      0 < cfg.maxAttempts ∧ ∃ probe, (beforeCall cfg now b).1 = .ok probe := by
  constructor
  · rintro (h | h)
    · cases h
    have h := h (beforeCall cfg now b).1 (beforeCall cfg now b).2 rfl
    revert h
    rcases (beforeCall cfg now b).1 with e | probe
    · exact fun h => absurd h must_done
    intro h
    refine ⟨?_, probe, rfl⟩
    by_contra hneg
    have hzero : cfg.maxAttempts.toNat = 0 := by omega
    simp only [hzero] at h
    exact must_done h
  · rintro ⟨hpos, probe, hok⟩
    refine .inr ?_
    intro r b' hr
    have hr' : r = .ok probe := by
      rw [← hok]
      exact (congrArg Prod.fst hr).symm
    subst hr'
    obtain ⟨left, hleft⟩ : ∃ left, cfg.maxAttempts.toNat = left + 1 :=
      ⟨cfg.maxAttempts.toNat - 1, by omega⟩
    simp only [hleft]
    refine .inr ?_
    rintro r b'' ⟨rfl, -⟩
    exact .inl rfl

/-- A call that has not begun, or is over. -/
def Resting (cfg : RetryConfig) (p : Decision) : Prop := p = decision cfg ∨ ∃ v, p = .done v

/-- **When the breaker locks out.**  After any run, with no call in flight and the cooldown over,
the next call with a live context reaches the inner PDP exactly when there is an attempt to make and
the breaker is not in a half-open period whose probe was cancelled. -/
theorem next_decision_calls_inner_iff {now : Int}
    (hrun : Run (Pool.Step (step cfg)) (idle cfg ι) ls c) (hrest : ∀ i, Resting cfg (c.prog i))
    (hcool : c.shared.state = .breakerOpen → cfg.openCooldown ≤ now - c.shared.openedAt) :
    (decision cfg).Must (liveStep cfg now) (· = .innerDecision) c.shared ↔
      0 < cfg.maxAttempts ∧
        ¬ ∃ q e, period ls = some q ∧ c.prog q.probe = .done (false, some (.ctx e)) := by
  have hf := follows hrun
  rw [decision_must_iff]
  refine and_congr_right fun hpos => ?_
  constructor
  · rintro ⟨probe, hok⟩ ⟨q, e, hq, -⟩
    have hhalf : c.shared.state = .breakerHalfOpen := hf.halfOpen.mpr (by rw [hq]; rfl)
    have hin : c.shared.halfOpenIn = true := by rw [hf.slot, hq]; rfl
    simp [beforeCall, hhalf, hin] at hok
  · intro hfree
    cases hs : c.shared.state with
    | breakerClosed => exact ⟨false, by simp [beforeCall, hs]⟩
    | breakerOpen => exact ⟨true, by simp [beforeCall, hs, Int.not_lt.mpr (hcool hs)]⟩
    | breakerHalfOpen =>
      obtain ⟨q, hq⟩ := isSome_iff_exists.mp (hf.halfOpen.mp hs)
      obtain ⟨hasked, hreported⟩ := hf.probe q hq
      have hobeys := obeys_told hrun q.probe
      rcases hrest q.probe with hp | ⟨v, hp⟩
      · -- The probe has asked the breaker, so it has begun.
        rw [hp] at hobeys
        have hnone : (told cfg ls q.probe).asked = none := hobeys.1
        rw [hasked] at hnone
        cases hnone
      · rw [hp] at hobeys
        obtain ⟨e, rfl⟩ := hobeys.2 true hasked hpos hreported
        exact absurd ⟨q, e, hq, hp⟩ hfree

def strict : RetryConfig := ⟨1, 50, 500, 1, 2⟩

def failedCall : List (PdpLabel Bool) :=
  [(false, ⟨.beforeCall, .ok false⟩), (false, ⟨.ctxErr, none⟩),
    (false, ⟨.innerDecision, .error "connection refused"⟩), (false, ⟨.afterCall false false, ()⟩)]

theorem failedCall_opens : ∃ c : System Bool, Run (Pool.Step (step strict)) (idle strict Bool)
    failedCall c ∧ c.shared = ⟨.breakerOpen, 0, 10, false⟩ ∧
      c.prog false = .done (false, some (.inner "connection refused")) ∧
      c.prog true = decision strict :=
  ⟨_, .more (step_call rfl ⟨9, rfl⟩) <| .more (step_call rfl rfl) <|
    .more (step_call rfl rfl) <| .more (step_call rfl ⟨10, rfl⟩) <| .refl _,
    rfl, rfl, rfl⟩

/-- A probe after the cooldown: the breaker is half-open, and its slot is taken. -/
theorem probe_slot_taken : ∃ (ls : List (PdpLabel Bool)) (c : System Bool),
    Run (Pool.Step (step strict)) (idle strict Bool) ls c ∧ c.shared.state = .breakerHalfOpen ∧
      c.shared.halfOpenIn = true := by
  obtain ⟨⟨b, p⟩, hrun, rfl, -, hnew⟩ := failedCall_opens
  have hprobe := hrun.trans (.more (step_call (i := true) hnew ⟨12, rfl⟩) (.refl _))
  obtain ⟨hperiod, hslot⟩ := halfOpen_iff_period hprobe
  exact ⟨_, _, hprobe, rfl, hslot.trans (hperiod.mp rfl)⟩

def lenient : RetryConfig := { strict with failureThresh := 2 }

theorem counts_failedCall : ∃ c : System Bool,
    c.shared.consecFail = 1 ∧ Counts lenient c.shared := by
  have hrun : Run (Pool.Step (step lenient)) (idle lenient Bool) failedCall _ :=
    .more (step_call rfl ⟨9, rfl⟩) <| .more (step_call rfl rfl) <|
      .more (step_call rfl rfl) <| .more (step_call rfl ⟨10, rfl⟩) <| .refl _
  exact ⟨_, rfl, counts_of_run hrun⟩

/-- After the cooldown the next call tries the inner PDP again. -/
theorem next_decision_after_cooldown : ∃ c : System Bool,
    Run (Pool.Step (step strict)) (idle strict Bool) failedCall c ∧
      (decision strict).Must (liveStep strict 12) (· = .innerDecision) c.shared := by
  obtain ⟨c, hrun, hb, hdone, hnew⟩ := failedCall_opens
  refine ⟨c, hrun, (next_decision_calls_inner_iff hrun ?_ ?_).mpr ⟨by decide, ?_⟩⟩
  · rintro (_ | _)
    · exact .inr ⟨_, hdone⟩
    · exact .inl hnew
  · rw [hb]
    decide
  · rintro ⟨q, e, hq, -⟩
    cases hq

/-- After a cancelled probe no call is in flight, and at no later time does a live call reach the
inner PDP. -/
theorem locked_out_by_cancelled_probe : ∃ (ls : List (PdpLabel Bool)) (c : System Bool),
    Run (Pool.Step (step strict)) (idle strict Bool) ls c ∧
      (∀ i, Resting strict (c.prog i)) ∧ c.shared.openedAt = 10 ∧
      ∀ now, ¬ (decision strict).Must (liveStep strict now) (· = .innerDecision) c.shared := by
  obtain ⟨c, hrun, hb, hdone, hnew⟩ := failedCall_opens
  obtain ⟨b, p⟩ := c
  subst hb
  refine ⟨_, _, hrun.trans (.more (step_call (i := true) hnew ⟨12, rfl⟩)
    (.more (step_call (i := true) (r := some "context canceled") rfl rfl) (.refl _))),
    ?_, rfl, ?_⟩
  · rintro (_ | _)
    · exact .inr ⟨_, hdone⟩
    · exact .inr ⟨_, rfl⟩
  · intro now hmust
    obtain ⟨-, probe, hok⟩ := decision_must_iff.mp hmust
    cases hok

/-! ### Discipline -/

/-- The call is inside the inner PDP: it has called it and waits for the answer. -/
def Inside (c : System ι) (i : ι) : Prop := ∃ k, c.prog i = .call .innerDecision k

/-- An outcome reported to the breaker. -/
def Reports (l : PdpLabel ι) : Prop := ∃ success probe, l.2.op = .afterCall success probe

/-- In a half-open period at most one of its calls is inside the inner PDP, only the probe's report
ends it, and a call allows only what the inner PDP has allowed. -/
structure Discipline (cfg : RetryConfig) (ls : List (PdpLabel ι)) : Prop where
  single : ∀ pre post c q, ls = pre ++ post → Run (Pool.Step (step cfg)) (idle cfg ι) pre c →
    period pre = some q → ∀ i ∈ q.started, ∀ j ∈ q.started, Inside c i → Inside c j → i = j
  outcome : ∀ pre l post c c', ls = pre ++ l :: post →
    Run (Pool.Step (step cfg)) (idle cfg ι) pre c → Pool.Step (step cfg) c l c' →
    c.shared.state = .breakerHalfOpen → c'.shared.state ≠ .breakerHalfOpen →
    Reports l ∧ ∃ q, period pre = some q ∧ l.1 = q.probe
  allow : ∀ pre post c i, ls = pre ++ post → Run (Pool.Step (step cfg)) (idle cfg ι) pre c →
    c.prog i = .done (true, none) → (i, ⟨.innerDecision, .ok true⟩) ∈ pre

omit [DecidableEq ι] in
theorem probe_mem_started {q : Period ι} (hq : period ls = some q) : q.probe ∈ q.started := by
  induction ls using reverseRecOn generalizing q with
  | nil => cases hq
  | append_singleton ls l ih =>
    rw [period_snoc] at hq
    unfold followPeriod at hq
    split at hq
    · cases hq
      exact mem_singleton_self _
    · obtain ⟨q', hq', rfl⟩ := map_eq_some_iff.mp hq
      exact mem_cons_of_mem _ (ih hq')
    · cases hq
    · exact ih hq

theorem eq_probe (hrun : Run (Pool.Step (step cfg)) (idle cfg ι) ls c) {q : Period ι}
    (hq : period ls = some q) (hi : i ∈ q.started)
    (hin : ∃ probe, (told cfg ls i).asked = some (.ok probe)) : i = q.probe := by
  by_contra hne
  obtain ⟨e, he⟩ := (follows hrun).started q hq i hi hne
  obtain ⟨probe, hok⟩ := hin
  rw [he] at hok
  cases hok

theorem inside_asked (hrun : Run (Pool.Step (step cfg)) (idle cfg ι) ls c) (hin : Inside c i) :
    ∃ probe, (told cfg ls i).asked = some (.ok probe) := by
  obtain ⟨k, hk⟩ := hin
  have hobeys := obeys_told hrun i
  rw [hk] at hobeys
  exact hobeys.1

/-- A caller that has heard an allowing verdict heard it from the inner PDP. -/
theorem mem_of_allowed (h : (told cfg ls i).allowed = true) :
    (i, ⟨.innerDecision, .ok true⟩) ∈ ls := by
  induction ls using reverseRecOn with
  | nil => cases h
  | append_singleton ls l ih =>
    rw [mem_append, mem_singleton]
    rw [told_snoc] at h
    split at h
    · rename_i hl
      obtain ⟨j, op, r⟩ := l
      obtain rfl : j = i := hl
      cases op with
      | innerDecision =>
        rcases r with e | _ | _
        iterate 2 exact .inl (ih h)
        · exact .inr rfl
      | _ => exact .inl (ih h)
    · exact .inl (ih h)

theorem reports_of_leaves (hstep : Pool.Step (step cfg) c l c')
    (hs : c.shared.state = .breakerHalfOpen) (hs' : c'.shared.state ≠ .breakerHalfOpen) :
    Reports l := by
  obtain ⟨k, -, h, -⟩ := hstep
  obtain ⟨i, op, r⟩ := l
  cases op with
  | afterCall success probe => exact ⟨success, probe, rfl⟩
  | beforeCall =>
    obtain ⟨now, hr⟩ := h
    exfalso
    rcases beforeCall_cases hr with ⟨h, -⟩ | ⟨h, -⟩ | ⟨h, -⟩ | ⟨-, -, -, e⟩ | ⟨-, -, -, e⟩
    iterate 3 (rw [hs] at h; cases h)
    iterate 2 (rw [e] at hs'; exact hs' hs)
  | jitter => exact absurd (h.2.2 ▸ hs) hs'
  | _ => exact absurd (h ▸ hs) hs'

/-- Under the discipline a report in a period is the probe's. -/
theorem Discipline.reporter {pre post : List (PdpLabel ι)} {q : Period ι} (h : Discipline cfg ls)
    (hrun : Run (Pool.Step (step cfg)) (idle cfg ι) ls c) (hls : ls = pre ++ l :: post)
    (hl : Reports l) (hq : period pre = some q) : l.1 = q.probe := by
  rw [hls] at hrun
  obtain ⟨c₁, hpre, hrest⟩ := hrun.split
  cases hrest with
  | more hstep _ =>
    have hs : c₁.shared.state = .breakerHalfOpen := (follows hpre).halfOpen.mpr (by rw [hq]; rfl)
    have hend : period (pre ++ [l]) = none := by
      obtain ⟨i, op, r⟩ := l
      obtain ⟨success, probe, rfl⟩ := hl
      exact period_snoc pre _
    have hs' := (follows (hpre.snoc hstep)).halfOpen
    rw [hend] at hs'
    obtain ⟨-, q', hq', he⟩ := h.outcome pre l post c₁ _ hls hpre hstep hs fun e => nomatch hs'.mp e
    obtain rfl : q = q' := some.inj (hq.symm.trans hq')
    exact he

/-- **Breaker discipline.**  A run keeps it exactly when every outcome reported in a half-open
period is that of a call begun in it. -/
theorem discipline_iff (hrun : Run (Pool.Step (step cfg)) (idle cfg ι) ls c) :
    Discipline cfg ls ↔ ∀ pre l post q, ls = pre ++ l :: post → Reports l →
      period pre = some q → l.1 ∈ q.started := by
  constructor
  · intro h pre l post q hls hl hq
    rw [h.reporter hrun hls hl hq]
    exact probe_mem_started hq
  intro h
  refine ⟨?_, ?_, ?_⟩
  · rintro pre post c₁ q - hpre hq i hi j hj hini hinj
    rw [eq_probe hpre hq hi (inside_asked hpre hini), eq_probe hpre hq hj (inside_asked hpre hinj)]
  · rintro pre l post c₁ c₂ rfl hpre hstep hs hs'
    have hl := reports_of_leaves hstep hs hs'
    obtain ⟨q, hq⟩ := isSome_iff_exists.mp ((follows hpre).halfOpen.mp hs)
    have hpermits := Pool.permits hpre (fun _ => decision_obeys) hstep
    refine ⟨hl, q, hq, eq_probe hpre hq (h pre l post q rfl hl hq) ?_⟩
    obtain ⟨success, probe, hop⟩ := hl
    rw [hop] at hpermits
    exact hpermits
  · rintro pre post c₁ i - hpre hdone
    have hobeys := obeys_told hpre i
    rw [hdone] at hobeys
    exact mem_of_allowed (hobeys.1 rfl)

def probedCall : List (PdpLabel Bool) :=
  [(false, ⟨.beforeCall, .ok false⟩), (false, ⟨.ctxErr, none⟩),
    (false, ⟨.innerDecision, .error "connection refused"⟩), (false, ⟨.afterCall false false, ()⟩),
    (true, ⟨.beforeCall, .ok true⟩), (true, ⟨.ctxErr, none⟩), (true, ⟨.innerDecision, .ok true⟩),
    (true, ⟨.afterCall true true, ()⟩)]

theorem forall_split_cons {α : Type} {P : List α → α → Prop} {x : α} {xs : List α} (hx : P [] x)
    (hxs : ∀ pre l post, xs = pre ++ l :: post → P (x :: pre) l) :
    ∀ pre l post, x :: xs = pre ++ l :: post → P pre l := by
  rintro (_ | ⟨y, pre⟩) l post h
  · cases h
    exact hx
  · obtain ⟨rfl, h'⟩ := cons.inj h
    exact hxs pre l post h'

/-- The probe's own report closes the breaker. -/
theorem discipline_probedCall : ∃ c : System Bool,
    Run (Pool.Step (step strict)) (idle strict Bool) probedCall c ∧
      c.shared.state = .breakerClosed ∧ Discipline strict probedCall := by
  have hprobed : Run (Pool.Step (step strict)) (idle strict Bool) probedCall _ :=
    .more (step_call rfl ⟨9, rfl⟩) <| .more (step_call rfl rfl) <|
    .more (step_call rfl rfl) <| .more (step_call rfl ⟨10, rfl⟩) <|
    .more (step_call rfl ⟨12, rfl⟩) <| .more (step_call rfl rfl) <|
    .more (step_call rfl rfl) <| .more (step_call rfl ⟨13, rfl⟩) <| .refl _
  refine ⟨_, hprobed, rfl, (discipline_iff hprobed).mpr ?_⟩
  have hno : ∀ {i : Bool} {op : PdpOp} {r : op.Ret}, (∀ s p, op ≠ .afterCall s p) →
      ¬ Reports (i, ⟨op, r⟩) := fun hop ⟨s, p, h⟩ => hop s p h
  have hplaces : ∀ q, ∀ pre l post, probedCall = pre ++ l :: post →
      Reports l → period pre = some q → l.1 ∈ q.started := by
    intro q
    iterate 3 refine forall_split_cons (fun h => absurd h (hno nofun)) ?_
    refine forall_split_cons (fun _ => nofun) ?_
    iterate 3 refine forall_split_cons (fun h => absurd h (hno nofun)) ?_
    refine forall_split_cons ?_ (by simp)
    rintro - ⟨⟩
    exact mem_singleton_self _
  exact fun pre l post q => hplaces q pre l post

/-- A second call is inside when the first one fails, and reports while the next probe is inside. -/
def lateCall : List (PdpLabel (Fin 3)) :=
  [(1, ⟨.beforeCall, .ok false⟩), (1, ⟨.ctxErr, none⟩), (0, ⟨.beforeCall, .ok false⟩),
    (0, ⟨.ctxErr, none⟩), (0, ⟨.innerDecision, .error "connection refused"⟩),
    (0, ⟨.afterCall false false, ()⟩), (2, ⟨.beforeCall, .ok true⟩), (2, ⟨.ctxErr, none⟩),
    (1, ⟨.innerDecision, .ok false⟩), (1, ⟨.afterCall true false, ()⟩)]

/-- The late outcome closes the breaker while the probe still waits. -/
theorem lateCall_closes_breaker : ∃ c : System (Fin 3),
    Run (Pool.Step (step strict)) (idle strict (Fin 3)) lateCall c ∧
      c.shared.state = .breakerClosed ∧ Inside c 2 ∧ ¬ Discipline strict lateCall := by
  have hrun : Run (Pool.Step (step strict)) (idle strict (Fin 3)) lateCall _ :=
    .more (step_call rfl ⟨9, rfl⟩) <| .more (step_call rfl rfl) <|
    .more (step_call rfl ⟨9, rfl⟩) <| .more (step_call rfl rfl) <|
    .more (step_call rfl rfl) <| .more (step_call rfl ⟨10, rfl⟩) <|
    .more (step_call rfl ⟨12, rfl⟩) <| .more (step_call rfl rfl) <|
    .more (step_call rfl rfl) <| .more (step_call rfl ⟨13, rfl⟩) <| .refl _
  refine ⟨_, hrun, rfl, ⟨_, rfl⟩, ?_⟩
  intro h
  have hlast : lateCall = lateCall.take 9 ++ [(1, ⟨.afterCall true false, ()⟩)] := rfl
  have hreporter : (1 : Fin 3) = 2 :=
    h.reporter hrun hlast ⟨true, false, rfl⟩ (q := ⟨2, [2]⟩) rfl
  exact absurd hreporter (by decide)

end System

end Cios.Policy
