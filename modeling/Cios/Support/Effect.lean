import Mathlib.Logic.Basic

/-!
# Support — programs over an interface

A piece of code that talks to a component only through its interface is a tree of calls: at each
call it waits for an answer, and goes on as the answer says.  `Prog Op Ret α` is that tree, for
operations `Op` answered in `Ret op`, ending with a value of type `α`.

The tree says nothing of who answers.  `Prog.Runs` leaves the answers open; `Prog.exec` answers by a
state machine.  What a program may call is read off the tree (`Prog.Calls`), and bounds every run
(`Prog.Calls.of_runs`).  `Prog.Ends` is the postcondition of an execution, with one rule per
constructor.

Where the component answers out of several, `Prog.Steps` has every execution that a relation
permits, and `Prog.Always` is the postcondition of all of them; `Prog.Must` says that a call is made
in each, and `Prog.Under` what is done under an assumption on the answers.
-/

namespace Effect

variable {Op : Type} {Ret : Op → Type} {α β S : Type}

/-- A program that calls `Op` and ends with an `α`. -/
inductive Prog (Op : Type) (Ret : Op → Type) (α : Type) : Type where
  | done (a : α)
  | call (op : Op) (k : Ret op → Prog Op Ret α)

namespace Prog

def bind : Prog Op Ret α → (α → Prog Op Ret β) → Prog Op Ret β
  | done a, f => f a
  | call op k, f => call op fun r => (k r).bind f

instance : Monad (Prog Op Ret) where
  pure := done
  bind := bind

def perform (op : Op) : Prog Op Ret (Ret op) := call op done

/-- Go on with a value, or end without one. -/
def attempt (p : Prog Op Ret (Option α)) (f : α → Prog Op Ret (Option β)) :
    Prog Op Ret (Option β) :=
  p.bind fun
    | none => done none
    | some a => f a

@[simp] theorem pure_eq (a : α) : (pure a : Prog Op Ret α) = done a := rfl

@[simp] theorem call_bind (op : Op) (k : Ret op → Prog Op Ret α) (f : α → Prog Op Ret β) :
    (call op k >>= f) = call op fun r => k r >>= f := rfl

/-! ### Runs, whatever the answers -/

/-- The runs of a program: the operations called, in order, and the value it ends with. -/
inductive Runs : Prog Op Ret α → List Op → α → Prop where
  | done (a : α) : Runs (.done a) [] a
  | call {op : Op} {k : Ret op → Prog Op Ret α} {ops : List Op} {a : α} (r : Ret op)
      (h : Runs (k r) ops a) : Runs (.call op k) (op :: ops) a

/-- Every call of the program satisfies `P`, whatever the answers. -/
def Calls (P : Op → Prop) : Prog Op Ret α → Prop
  | done _ => True
  | call op k => P op ∧ ∀ r, (k r).Calls P

variable {P : Op → Prop}

theorem Calls.bind : ∀ {p : Prog Op Ret α} {f : α → Prog Op Ret β},
    Calls P p → (∀ a, Calls P (f a)) → Calls P (p >>= f)
  | .done a, _, _, hf => hf a
  | .call _ _, _, hp, hf => ⟨hp.1, fun r => Calls.bind (hp.2 r) hf⟩

theorem Calls.mono {Q : Op → Prop} (h : ∀ op, P op → Q op) :
    ∀ {p : Prog Op Ret α}, Calls P p → Calls Q p
  | .done _, _ => trivial
  | .call _ _, hp => ⟨h _ hp.1, fun r => Calls.mono h (hp.2 r)⟩

variable {p : Prog Op Ret α} {a : α} {answer : (op : Op) → S → Ret op × S} {op : Op}

theorem Calls.of_runs {ops : List Op} (hp : Calls P p) (h : Runs p ops a) : ∀ op ∈ ops, P op := by
  induction h with
  | done a => simp
  | call r _ ih => exact List.forall_mem_cons.mpr ⟨hp.1, ih (hp.2 r)⟩

/-! ### A larger interface -/

variable {Op' : Type} {Ret' : Op' → Type}

/-- The program over a larger interface: `ι` names each operation there, `ρ` reads its answer. -/
def embed (ι : Op → Op') (ρ : (op : Op) → Ret' (ι op) → Ret op) :
    Prog Op Ret α → Prog Op' Ret' α
  | done a => done a
  | call op k => call (ι op) fun r => (k (ρ op r)).embed ι ρ

theorem Calls.embed {ι : Op → Op'} {ρ : (op : Op) → Ret' (ι op) → Ret op} {P : Op' → Prop} :
    ∀ {p : Prog Op Ret α}, Calls (fun op => P (ι op)) p → Calls P (p.embed ι ρ)
  | .done _, _ => trivial
  | .call _ _, hp => ⟨hp.1, fun _ => Calls.embed (hp.2 _)⟩

/-! ### Answers from a state machine -/

/-- The program against a component with state `S`. -/
def exec (answer : (op : Op) → S → Ret op × S) : Prog Op Ret α → S → α × S
  | done a, s => (a, s)
  | call op k, s => (k (answer op s).1).exec answer (answer op s).2

@[simp] theorem exec_done (answer : (op : Op) → S → Ret op × S) (a : α) (s : S) :
    (done a : Prog Op Ret α).exec answer s = (a, s) := rfl

@[simp] theorem exec_call (answer : (op : Op) → S → Ret op × S) (op : Op)
    (k : Ret op → Prog Op Ret α) (s : S) :
    (call op k).exec answer s = (k (answer op s).1).exec answer (answer op s).2 := rfl

theorem exec_bind (answer : (op : Op) → S → Ret op × S) (f : α → Prog Op Ret β) :
    ∀ (p : Prog Op Ret α) (s : S), (p >>= f).exec answer s =
      (f (p.exec answer s).1).exec answer (p.exec answer s).2
  | done _, _ => rfl
  | call op k, s => exec_bind answer f (k (answer op s).1) (answer op s).2

/-- The execution from `s` ends with a value and a state in `Q`. -/
def Ends (answer : (op : Op) → S → Ret op × S) (s : S) (Q : α → S → Prop)
    (p : Prog Op Ret α) : Prop :=
  Q (p.exec answer s).1 (p.exec answer s).2

@[simp] theorem ends_done {s : S} {Q : α → S → Prop} : Ends answer s Q (done a) ↔ Q a s := Iff.rfl

variable {k : Ret op → Prog Op Ret α}

@[simp] theorem ends_call {answer : (op : Op) → S → Ret op × S} {s : S} {Q : α → S → Prop} :
    Ends answer s Q (call op k) ↔ Ends answer (answer op s).2 Q (k (answer op s).1) := Iff.rfl

/-- A relation on states that every permitted call keeps is kept by the whole execution. -/
theorem Calls.exec_rel {R : S → S → Prop} (hrefl : ∀ s, R s s)
    (htrans : ∀ {a b c}, R a b → R b c → R a c) (hstep : ∀ op s, P op → R s (answer op s).2) :
    ∀ {p : Prog Op Ret α}, Calls P p → ∀ s, R s (p.exec answer s).2
  | done _, _, s => hrefl s
  | call op _, hp, s =>
    htrans (hstep op s hp.1) (Calls.exec_rel hrefl htrans hstep (hp.2 _) _)

/-- At most one call satisfies `P`, and every other one `Q`. -/
def Once (P Q : Op → Prop) : Prog Op Ret α → Prop
  | done _ => True
  | call op k => (Q op ∧ ∀ r, (k r).Once P Q) ∨ (P op ∧ ∀ r, (k r).Calls Q)

variable {Q : Op → Prop}

theorem Calls.once : ∀ {p : Prog Op Ret α}, Calls Q p → Once P Q p
  | .done _, _ => trivial
  | .call _ _, hp => .inl ⟨hp.1, fun r => (hp.2 r).once⟩

theorem Once.calls : ∀ {p : Prog Op Ret α}, Once Q Q p → Calls Q p
  | .done _, _ => trivial
  | .call _ _, .inl hp => ⟨hp.1, fun r => (hp.2 r).calls⟩
  | .call _ _, .inr hp => ⟨hp.1, fun r => hp.2 r⟩

theorem Once.bind : ∀ {p : Prog Op Ret α} {f : α → Prog Op Ret β},
    Once P Q p → (∀ a, Calls Q (f a)) → Once P Q (p >>= f)
  | .done a, _, _, hf => (hf a).once
  | .call _ _, _, .inl hp, hf => .inl ⟨hp.1, fun r => (hp.2 r).bind hf⟩
  | .call _ _, _, .inr hp, hf => .inr ⟨hp.1, fun r => (hp.2 r).bind hf⟩

/-- What calls in `Q` leave alone and a call in `P` may change is changed at most once. -/
theorem Once.exec_cases {T : Type} {view : S → T} {g : T → T}
    (hQ : ∀ op s, Q op → view (answer op s).2 = view s)
    (hP : ∀ op s, P op → view (answer op s).2 = view s ∨
      view (answer op s).2 = g (view s)) :
    ∀ {p : Prog Op Ret α}, Once P Q p → ∀ s, view (p.exec answer s).2 = view s ∨
      view (p.exec answer s).2 = g (view s)
  | .done _, _, _ => .inl rfl
  | .call op _, .inl hp, s => by
    have h := Once.exec_cases hQ hP (hp.2 (answer op s).1) (answer op s).2
    rw [hQ op s hp.1] at h
    exact h
  | .call op _, .inr hp, s => by
    have h : view _ = view (answer op s).2 :=
      Calls.exec_rel (R := fun s s' => view s' = view s) (fun _ => rfl)
        (fun h₁ h₂ => h₂.trans h₁) (fun op s => hQ op s) (hp.2 (answer op s).1) (answer op s).2
    rw [exec_call, h]
    exact hP op s hp.1

/-- Whatever the answers, every call is allowed in the state it meets, and the end is in `Q`. -/
def Keeps (allowed : S → Op → Prop) (next : S → (op : Op) → Ret op → S) (Q : α → S → Prop) :
    Prog Op Ret α → S → Prop
  | done a, s => Q a s
  | call op k, s => allowed s op ∧ ∀ r, (k r).Keeps allowed next Q (next s op r)

section Keeps

variable {allowed : S → Op → Prop} {next : S → (op : Op) → Ret op → S} {Q : α → S → Prop}

theorem Keeps.bind {Q' : β → S → Prop} {f : α → Prog Op Ret β} : ∀ {p : Prog Op Ret α} {s : S},
    p.Keeps allowed next Q s → (∀ a s', Q a s' → (f a).Keeps allowed next Q' s') →
      (p >>= f).Keeps allowed next Q' s
  | .done _, _, hp, hf => hf _ _ hp
  | .call _ _, _, hp, hf => ⟨hp.1, fun r => Keeps.bind (hp.2 r) hf⟩

/-- What every call keeps holds at the end too. -/
theorem Keeps.frame {I : S → Prop} (hnext : ∀ s op r, I s → I (next s op r)) :
    ∀ {p : Prog Op Ret α} {s : S}, p.Keeps allowed next Q s → I s →
      p.Keeps allowed next (fun a s' => Q a s' ∧ I s') s
  | .done _, _, hp, hs => ⟨hp, hs⟩
  | .call _ _, _, hp, hs => ⟨hp.1, fun r => Keeps.frame hnext (hp.2 r) (hnext _ _ r hs)⟩

theorem Keeps.calls (h : ∀ s op, allowed s op → P op) : ∀ {p : Prog Op Ret α} {s : S},
    p.Keeps allowed next Q s → p.Calls P
  | .done _, _, _ => trivial
  | .call _ _, _, hp => ⟨h _ _ hp.1, fun r => Keeps.calls h (hp.2 r)⟩

theorem Calls.keeps {s : S} : ∀ {p : Prog Op Ret α},
    (p.Calls fun op => allowed s op ∧ ∀ r, next s op r = s) →
      p.Keeps allowed next (fun _ s' => s' = s) s
  | .done _, _ => rfl
  | .call _ _, hp => ⟨hp.1.1, fun r => (hp.1.2 r).symm ▸ Calls.keeps (hp.2 r)⟩

end Keeps

/-! ### Answers from a relation -/

variable {step : (op : Op) → S → Ret op → S → Prop}

/-- The executions against a component that answers and moves as `step` permits. -/
inductive Steps (step : (op : Op) → S → Ret op → S → Prop) : Prog Op Ret α → S → α → S → Prop where
  | done (a : α) (s : S) : Steps step (.done a) s a s
  | call {op : Op} {k : Ret op → Prog Op Ret α} {r : Ret op} {a : α} {s s' s'' : S}
      (h : step op s r s') (hk : Steps step (k r) s' a s'') : Steps step (.call op k) s a s''

/-- Every execution from `s` ends with a value and a state in `Q`. -/
def Always (step : (op : Op) → S → Ret op → S → Prop) (s : S) (Q : α → S → Prop)
    (p : Prog Op Ret α) : Prop :=
  ∀ a s', Steps step p s a s' → Q a s'

variable {s : S} {Q : α → S → Prop}

@[simp] theorem always_done : Always step s Q (done a) ↔ Q a s := by
  constructor
  · intro h
    exact h a s (.done a s)
  · rintro h _ _ ⟨⟩
    exact h

@[simp] theorem always_call :
    Always step s Q (call op k) ↔ ∀ r s', step op s r s' → Always step s' Q (k r) := by
  constructor
  · intro h r s' hs a s'' hk
    exact h a s'' (.call hs hk)
  · rintro h a s'' (_ | ⟨hs, hk⟩)
    exact h _ _ hs a s'' hk

theorem Steps.mono {step' : (op : Op) → S → Ret op → S → Prop} {s s' : S} (h : Steps step p s a s')
    (hstep : ∀ op s r s', step op s r s' → step' op s r s') : Steps step' p s a s' := by
  induction h with
  | done a s => exact .done a s
  | call hs _ ih => exact .call (hstep _ _ _ _ hs) ih

theorem Always.mono {Q' : α → S → Prop} (h : Always step s Q p) (hQ : ∀ a s', Q a s' → Q' a s') :
    Always step s Q' p :=
  fun a s' hp => hQ a s' (h a s' hp)

theorem Always.and {Q' : α → S → Prop} (h : Always step s Q p) (h' : Always step s Q' p) :
    Always step s (fun a s' => Q a s' ∧ Q' a s') p :=
  fun a s' hp => ⟨h a s' hp, h' a s' hp⟩

theorem Always.bind {Q' : β → S → Prop} {f : α → Prog Op Ret β} : ∀ {p : Prog Op Ret α} {s : S},
    Always step s Q p → (∀ a s', Q a s' → Always step s' Q' (f a)) → Always step s Q' (p >>= f)
  | .done _, _, hp, hf => hf _ _ (always_done.mp hp)
  | .call _ _, _, hp, hf =>
    always_call.mpr fun r s' hs => Always.bind (always_call.mp hp r s' hs) hf

/-- What every call keeps holds at the end. -/
theorem Calls.always {I : S → Prop} (hstep : ∀ op s r s', P op → I s → step op s r s' → I s') :
    ∀ {p : Prog Op Ret α} {s : S}, Calls P p → I s → Always step s (fun _ => I) p
  | .done _, _, _, hs => always_done.mpr hs
  | .call _ _, _, hp, hs =>
    always_call.mpr fun r _ h => Calls.always hstep (hp.2 r) (hstep _ _ _ _ hp.1 hs h)

/-- Every execution from `s` makes a call in `P`. -/
def Must (step : (op : Op) → S → Ret op → S → Prop) (P : Op → Prop) : Prog Op Ret α → S → Prop
  | done _, _ => False
  | call op k, s => P op ∨ ∀ r s', step op s r s' → (k r).Must step P s'

@[simp] theorem must_done : ¬ (done a : Prog Op Ret α).Must step P s := id

theorem steps_exec (h : ∀ op s, step op s (answer op s).1 (answer op s).2) :
    ∀ (p : Prog Op Ret α) (s : S), Steps step p s (p.exec answer s).1 (p.exec answer s).2
  | done a, s => .done a s
  | call op k, s => .call (h op s) (steps_exec h (k (answer op s).1) (answer op s).2)

/-! ### Assumptions on the answers -/

/-- As long as the answers are in `H`, every call is in `P`, and the value at the end is in `Q`. -/
def Under (H : (op : Op) → Ret op → Prop) (P : Op → Prop) (Q : α → Prop) : Prog Op Ret α → Prop
  | done a => Q a
  | call op k => P op ∧ ∀ r, H op r → (k r).Under H P Q

section Under

variable {H : (op : Op) → Ret op → Prop} {Q : α → Prop}

@[simp] theorem under_done {a : α} : (done a : Prog Op Ret α).Under H P Q ↔ Q a := Iff.rfl

theorem Under.bind {Q' : β → Prop} {f : α → Prog Op Ret β} : ∀ {p : Prog Op Ret α},
    p.Under H P Q → (∀ a, Q a → (f a).Under H P Q') → (p >>= f).Under H P Q'
  | .done _, hp, hf => hf _ hp
  | .call _ _, hp, hf => ⟨hp.1, fun r hr => Under.bind (hp.2 r hr) hf⟩

theorem Under.mono {Q' : α → Prop} (hQ : ∀ a, Q a → Q' a) : ∀ {p : Prog Op Ret α},
    p.Under H P Q → p.Under H P Q'
  | .done _, hp => hQ _ hp
  | .call _ _, hp => ⟨hp.1, fun r hr => Under.mono hQ (hp.2 r hr)⟩

theorem Under.embed {ι : Op → Op'} {ρ : (op : Op) → Ret' (ι op) → Ret op}
    {H' : (op : Op') → Ret' op → Prop} {P' : Op' → Prop}
    (hH : ∀ op r, H' (ι op) r → H op (ρ op r)) (hP : ∀ op, P op → P' (ι op)) :
    ∀ {p : Prog Op Ret α}, p.Under H P Q → (p.embed ι ρ).Under H' P' Q
  | .done _, hp => hp
  | .call _ _, hp => ⟨hP _ hp.1, fun r hr => Under.embed hH hP (hp.2 _ (hH _ r hr))⟩

end Under

end Prog

/-! ### Results -/

theorem mapError_eq_ok {ε ε' α : Type} {f : ε → ε'} {x : Except ε α} {a : α}
    (h : x.mapError f = .ok a) : x = .ok a := by
  cases x with
  | error e => cases h
  | ok b => exact congrArg Except.ok (Except.ok.inj h)

theorem bind_eq_ok {ε α β : Type} {x : Except ε α} {f : α → Except ε β} {b : β}
    (h : x.bind f = .ok b) : ∃ a, x = .ok a ∧ f a = .ok b := by
  cases x with
  | error e => cases h
  | ok a => exact ⟨a, rfl, h⟩

end Effect
