import Cios.Support.Interleave

/-!
# Support — executions that are cut off

A crash stops a program between two calls.  `Prog.Path` has the executions up to any point, with
their events; one that comes to its end also has the value it ended with.  `Prog.Throughout` is the
condition that holds at every such point, read off the program.
-/

namespace Effect.Prog

variable {Op : Type} {Ret : Op → Type} {α β S : Type}
  {step : (op : Op) → S → Ret op → S → Prop}

/-- An execution up to some point: the events so far and the state; the value if it has ended. -/
inductive Path (step : (op : Op) → S → Ret op → S → Prop) :
    Prog Op Ret α → S → List (Event Op Ret) → Option α → S → Prop where
  | cut (p : Prog Op Ret α) (s : S) : Path step p s [] none s
  | done (a : α) (s : S) : Path step (.done a) s [] (some a) s
  | call {op : Op} {k : Ret op → Prog Op Ret α} {r : Ret op} {s s' s'' : S}
      {es : List (Event Op Ret)} {o : Option α} (h : step op s r s')
      (hk : Path step (k r) s' es o s'') : Path step (.call op k) s (⟨op, r⟩ :: es) o s''

variable {p : Prog Op Ret α}

theorem Steps.path {s s' : S} {a : α} (h : Steps step p s a s') :
    ∃ es, Path step p s es (some a) s' := by
  induction h with
  | done a s => exact ⟨[], .done a s⟩
  | call hs _ ih =>
    obtain ⟨es, hk⟩ := ih
    exact ⟨_, .call hs hk⟩

/-- The program against a state machine, cut off after `n` calls. -/
def cutAfter (answer : (op : Op) → S → Ret op × S) :
    Nat → Prog Op Ret α → S → List (Event Op Ret) × S
  | 0, _, s => ([], s)
  | _ + 1, .done _, s => ([], s)
  | n + 1, .call op k, s =>
    let rest := cutAfter answer n (k (answer op s).1) (answer op s).2
    (⟨op, (answer op s).1⟩ :: rest.1, rest.2)

theorem path_cutAfter {answer : (op : Op) → S → Ret op × S}
    (h : ∀ op s, step op s (answer op s).1 (answer op s).2) :
    ∀ (n : Nat) (p : Prog Op Ret α) (s : S),
      Path step p s (cutAfter answer n p s).1 none (cutAfter answer n p s).2
  | 0, p, s => .cut p s
  | _ + 1, .done a, s => .cut (.done a) s
  | n + 1, .call op k, s => .call (h op s) (path_cutAfter h n (k (answer op s).1) (answer op s).2)

/-- `Q` holds at every point of every execution, with the events `es` before. -/
def Throughout (step : (op : Op) → S → Ret op → S → Prop)
    (Q : List (Event Op Ret) → Option α → S → Prop) :
    List (Event Op Ret) → Prog Op Ret α → S → Prop
  | es, .done a, s => Q es none s ∧ Q es (some a) s
  | es, .call op k, s =>
    Q es none s ∧ ∀ r s', step op s r s' → Throughout step Q (es ++ [⟨op, r⟩]) (k r) s'

variable {Q Q' : List (Event Op Ret) → Option α → S → Prop} {es : List (Event Op Ret)} {s : S}

theorem Throughout.path {s' : S} {es' : List (Event Op Ret)} {o : Option α}
    (h : Throughout step Q es p s) (hp : Path step p s es' o s') : Q (es ++ es') o s' := by
  induction hp generalizing es with
  | cut p s =>
    rw [List.append_nil]
    cases p with
    | done a => exact h.1
    | call op k => exact h.1
  | done a s =>
    rw [List.append_nil]
    exact h.2
  | call hs _ ih =>
    have hnext := ih (h.2 _ _ hs)
    rwa [List.append_assoc] at hnext

theorem Throughout.mono (h : Throughout step Q es p s) (hQ : ∀ es o s', Q es o s' → Q' es o s') :
    Throughout step Q' es p s := by
  induction p generalizing es s with
  | done a => exact ⟨hQ _ _ _ h.1, hQ _ _ _ h.2⟩
  | call op k ih => exact ⟨hQ _ _ _ h.1, fun r s' hs => ih r (h.2 r s' hs)⟩

/-- A sequence: the first part throughout, and the second from where the first ended. -/
theorem Throughout.bind {Q : List (Event Op Ret) → Option β → S → Prop}
    {f : α → Prog Op Ret β}
    (h : Throughout step (fun es o s' => Q es none s' ∧
      ∀ a, o = some a → Throughout step Q es (f a) s') es p s) :
    Throughout step Q es (p >>= f) s := by
  induction p generalizing es s with
  | done a => exact h.2.2 a rfl
  | call op k ih => exact ⟨h.1.1, fun r s' hs => ih r (h.2 r s' hs)⟩

/-- What every call keeps holds throughout; the events are those before and the program's calls. -/
theorem Calls.throughout {P : Op → Prop} {I : S → Prop} {R : α → S → Prop}
    (hp : Calls P p) (hstep : ∀ op s r s', P op → I s → step op s r s' → I s') (hs : I s)
    (hend : Always step s R p) :
    Throughout step (fun es' o s' => (∃ more, es' = es ++ more ∧ ∀ e ∈ more, P e.op) ∧ I s' ∧
      ∀ a, o = some a → R a s') es p s := by
  induction p generalizing es s with
  | done a =>
    have hnil : ∃ more, es = es ++ more ∧ ∀ e ∈ more, P e.op := ⟨[], by simp⟩
    exact ⟨⟨hnil, hs, nofun⟩, hnil, hs, fun _ ha => Option.some.inj ha ▸ always_done.mp hend⟩
  | call op k ih =>
    refine ⟨⟨⟨[], by simp⟩, hs, nofun⟩, fun r s' h => ?_⟩
    refine (ih r (hp.2 r) (hstep op s r s' hp.1 hs h) (always_call.mp hend r s' h)).mono ?_
    rintro es' o s'' ⟨⟨more, rfl, hmore⟩, hrest⟩
    refine ⟨⟨⟨op, r⟩ :: more, by simp, ?_⟩, hrest⟩
    exact List.forall_mem_cons.mpr ⟨hp.1, hmore⟩

end Effect.Prog
