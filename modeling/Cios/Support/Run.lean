import Mathlib.Logic.Basic

/-!
# Support — runs of a labelled transition system

A system is a relation `step s l s'` on states, with labels that say which step was taken.  `Run
step s ls s'` is a run from `s` to `s'` through the labels `ls`.  An invariant is proved once per
step and holds along every run (`Run.invariant`).  An invariant may also speak of the labels taken
so far (`Run.history`, `Run.history_of_run`), and a step-by-step simulation carries runs over
(`Run.simulate`).
-/

namespace Runs

variable {S L : Type} {step : S → L → S → Prop}

inductive Run (step : S → L → S → Prop) : S → List L → S → Prop where
  | refl (s : S) : Run step s [] s
  | more {s s₁ s' : S} {l : L} {ls : List L} (h : step s l s₁) (t : Run step s₁ ls s') :
      Run step s (l :: ls) s'

theorem Run.trans {s s₁ s₂ : S} {ls ls' : List L} (h : Run step s ls s₁)
    (t : Run step s₁ ls' s₂) : Run step s (ls ++ ls') s₂ := by
  induction h with
  | refl => exact t
  | more h _ ih => exact .more h (ih t)

theorem Run.split {s s₂ : S} {ls ls' : List L} (h : Run step s (ls ++ ls') s₂) :
    ∃ s₁, Run step s ls s₁ ∧ Run step s₁ ls' s₂ := by
  induction ls generalizing s with
  | nil => exact ⟨s, .refl s, h⟩
  | cons l ls ih =>
    cases h with
    | more h t =>
      obtain ⟨s₁, h₁, h₂⟩ := ih t
      exact ⟨s₁, .more h h₁, h₂⟩

theorem Run.invariant_of_labels {Inv : S → Prop} {G : L → Prop}
    (hstep : ∀ {s l s'}, Inv s → G l → step s l s' → Inv s') {s s' : S} {ls : List L}
    (h : Run step s ls s') (hg : ∀ l ∈ ls, G l) (hi : Inv s) : Inv s' := by
  induction h with
  | refl => exact hi
  | more h _ ih =>
    rw [List.forall_mem_cons] at hg
    exact ih hg.2 (hstep hi hg.1 h)

theorem Run.invariant {Inv : S → Prop} (hstep : ∀ {s l s'}, Inv s → step s l s' → Inv s')
    {s s' : S} {ls : List L} (h : Run step s ls s') (hi : Inv s) : Inv s' :=
  h.invariant_of_labels (G := fun _ => True) (fun hi _ h => hstep hi h) (fun _ _ => trivial) hi

/-- **History.**  A relation of the labels taken so far and the state. -/
theorem Run.history {I : List L → S → Prop}
    (hstep : ∀ {ls s l s'}, I ls s → step s l s' → I (ls ++ [l]) s') {s s' : S} {ls : List L}
    (h : Run step s ls s') (hi : I [] s) : I ls s' := by
  -- The induction carries the labels that came before the run.
  have key : ∀ pre, I pre s → I (pre ++ ls) s' := by
    clear hi
    induction h with
    | refl => intro pre hi; simpa using hi
    | more h _ ih => intro pre hi; simpa using ih _ (hstep hi h)
  exact key [] hi

theorem Run.snoc {s s₁ s' : S} {ls : List L} {l : L} (h : Run step s ls s₁) (hl : step s₁ l s') :
    Run step s (ls ++ [l]) s' :=
  h.trans (.more hl (.refl s'))

/-- A history whose steps are only taken from states that the run can reach. -/
theorem Run.history_of_run {I : List L → S → Prop} {s s' : S} {ls : List L}
    (hstep : ∀ {ls s₁ l s₂}, Run step s ls s₁ → I ls s₁ → step s₁ l s₂ → I (ls ++ [l]) s₂)
    (h : Run step s ls s') (hi : I [] s) : I ls s' := by
  have hboth : Run step s ls s' ∧ I ls s' := by
    refine h.history (I := fun ls s' => Run step s ls s' ∧ I ls s') ?_ ⟨.refl s, hi⟩
    rintro ls s₁ l s₂ ⟨hrun, hi⟩ hl
    exact ⟨hrun.snoc hl, hstep hrun hi hl⟩
  exact hboth.2

/-- What a label says of the labels before it, when the history gives it at each step. -/
theorem Run.label_of_history {I : List L → S → Prop} {P : List L → L → Prop}
    (hstep : ∀ {ls s l s'}, I ls s → step s l s' → I (ls ++ [l]) s')
    (hlabel : ∀ {ls s l s'}, I ls s → step s l s' → P ls l) {s s' : S} {pre post : List L} {l : L}
    (h : Run step s (pre ++ l :: post) s') (hi : I [] s) : P pre l := by
  obtain ⟨s₁, h₁, h₂⟩ := h.split
  cases h₂ with
  | more hl _ => exact hlabel (h₁.history hstep hi) hl

/-- **Simulation.**  Each step is one of the other system, under maps of states and labels. -/
theorem Run.simulate {S' L' : Type} {step' : S' → L' → S' → Prop} (f : S → S') (g : L → L')
    (hstep : ∀ {s l s'}, step s l s' → step' (f s) (g l) (f s')) {s s' : S} {ls : List L}
    (h : Run step s ls s') : Run step' (f s) (ls.map g) (f s') := by
  induction h with
  | refl => exact .refl _
  | more h _ ih => exact .more (hstep h) ih

end Runs
