import Cios.Support.Effect
import Cios.Support.Run
import Mathlib.Logic.Function.Basic

/-!
# Support — programs side by side

Several programs over one component, one to a thread, take their calls in any order: a step of the
pool is one call of one thread, answered by the component (`Pool.Step`), and what holds of every run
of the pool holds of every interleaving.

What a thread does by itself is said as a `Protocol`: a state that follows the thread's own events,
the calls it may make there, and the values it may end with.  Whether a program obeys it is read off
the program (`Protocol.Obeys`), and then every thread of every run does (`Pool.obeys`).  Where the
program itself is short, its ends are told from its own events (`Pool.fed`).
-/

namespace Effect
open List Function

variable {ι Op : Type} {Ret : Op → Type} {α β S G : Type}

/-- A call and its answer. -/
structure Event (Op : Type) (Ret : Op → Type) where
  op : Op
  ret : Ret op

/-! ### Logs -/

/-- Whatever the answers, the value at the end and the events so far are in `Q`. -/
def Prog.Logged (Q : α → List (Event Op Ret) → Prop) :
    Prog Op Ret α → List (Event Op Ret) → Prop :=
  Keeps (fun _ _ => True) (fun log op r => log ++ [⟨op, r⟩]) Q

/-- A first part of which nothing is known. -/
theorem Prog.logged_bind {Q : β → List (Event Op Ret) → Prop} {f : α → Prog Op Ret β}
    (h : ∀ a log, (f a).Logged Q log) : ∀ {p : Prog Op Ret α} {log}, (p >>= f).Logged Q log
  | .done a, log => h a log
  | .call _ _, _ => ⟨trivial, fun _ => logged_bind h⟩

/-! ### Protocols -/

/-- What one thread may do: `next` follows its events, `permits` and `ends` say its calls and
values. -/
structure Protocol (Op : Type) (Ret : Op → Type) (α G : Type) where
  next : G → Event Op Ret → G
  permits : G → Op → Prop
  ends : G → α → Prop

namespace Protocol

variable (P : Protocol Op Ret α G)

def Obeys : G → Prog Op Ret α → Prop
  | g, .done a => P.ends g a
  | g, .call op k => P.permits g op ∧ ∀ r, Obeys (P.next g ⟨op, r⟩) (k r)

variable {P}

theorem Obeys.bind {P : Protocol Op Ret β G} {f : α → Prog Op Ret β} {p : Prog Op Ret α} :
    ∀ {g : G}, Obeys ⟨P.next, P.permits, fun g a => P.Obeys g (f a)⟩ g p →
      P.Obeys g (p >>= f) := by
  induction p with
  | done a => exact fun h => h
  | call op k ih => exact fun h => ⟨h.1, fun r => ih r (h.2 r)⟩

/-- Nothing is asked but a condition on each call. -/
def only (C : Op → Prop) : Protocol Op Ret α Unit := ⟨fun g _ => g, fun _ => C, fun _ _ => True⟩

theorem obeys_only {C : Op → Prop} : ∀ {p : Prog Op Ret α}, p.Calls C → (only C).Obeys () p
  | .done _, _ => trivial
  | .call _ _, h => ⟨h.1, fun r => obeys_only (h.2 r)⟩

end Protocol

/-! ### Pools -/

structure Pool (ι Op : Type) (Ret : Op → Type) (α S : Type) where
  shared : S
  prog : ι → Prog Op Ret α

/-- The thread of a step, and its event. -/
abbrev Label (ι Op : Type) (Ret : Op → Type) := ι × Event Op Ret

variable [DecidableEq ι]

/-- One thread takes its next call; the others stay where they are. -/
def Pool.Step (step : (op : Op) → S → Ret op → S → Prop) (c : Pool ι Op Ret α S)
    (l : Label ι Op Ret) (c' : Pool ι Op Ret α S) : Prop :=
  ∃ k, c.prog l.1 = .call l.2.op k ∧ step l.2.op c.shared l.2.ret c'.shared ∧
    c'.prog = Function.update c.prog l.1 (k l.2.ret)

variable {op : Op} {p q : Prog Op Ret α} {evs : List (Event Op Ret)} {a : α}
variable {step : (op : Op) → S → Ret op → S → Prop} {k : Ret op → Prog Op Ret α}

theorem Pool.step_call {c : Pool ι Op Ret α S} {i : ι} {r : Ret op} {s : S}
    (hk : c.prog i = .call op k) (h : step op c.shared r s) :
    Pool.Step step c (i, ⟨op, r⟩) ⟨s, update c.prog i (k r)⟩ :=
  ⟨k, hk, h, rfl⟩

/-- The state of a thread's protocol after the steps `ls`. -/
def Protocol.after (P : Protocol Op Ret α G) (start : ι → G) (ls : List (Label ι Op Ret)) (i : ι) :
    G :=
  ls.foldl (fun g l => if l.1 = i then P.next g l.2 else g) (start i)

section Run

variable {step : (op : Op) → S → Ret op → S → Prop} {P : Protocol Op Ret α G} {start : ι → G}
variable {c c' : Pool ι Op Ret α S} {ls : List (Label ι Op Ret)} {l : Label ι Op Ret}

theorem Protocol.after_snoc (i : ι) : P.after start (ls ++ [l]) i =
    if l.1 = i then P.next (P.after start ls i) l.2 else P.after start ls i := by
  simp [Protocol.after]

theorem Protocol.after_invariant {I : G → Prop} {i : ι} (hstart : I (start i))
    (hnext : ∀ g ev, I g → I (P.next g ev)) : I (P.after start ls i) := by
  unfold Protocol.after
  revert hstart
  generalize start i = g
  induction ls generalizing g with
  | nil => exact id
  | cons l ls ih =>
    intro hg
    rw [foldl_cons]
    refine ih _ ?_
    split
    · exact hnext g l.2 hg
    · exact hg

/-- **Every thread keeps to its protocol**, whatever the others do. -/
theorem Pool.obeys (hrun : Runs.Run (Pool.Step step) c ls c')
    (h : ∀ i, P.Obeys (start i) (c.prog i)) (i : ι) :
    P.Obeys (P.after start ls i) (c'.prog i) := by
  let I : List (Label ι Op Ret) → Pool ι Op Ret α S → Prop :=
    fun ls c => ∀ i, P.Obeys (P.after start ls i) (c.prog i)
  refine hrun.history (I := I) ?_ h i
  rintro ls c l c' hi ⟨k, hk, -, hprog⟩ i
  rw [Protocol.after_snoc, hprog]
  by_cases hli : l.1 = i
  · subst hli
    have hnow := hi l.1
    rw [hk] at hnow
    rw [if_pos rfl, update_self]
    exact hnow.2 l.2.ret
  · rw [if_neg hli, update_of_ne (Ne.symm hli)]
    exact hi i

theorem Pool.permits (hrun : Runs.Run (Pool.Step step) c ls c')
    (h : ∀ i, P.Obeys (start i) (c.prog i)) {c'' : Pool ι Op Ret α S}
    (hstep : Pool.Step step c' l c'') : P.permits (P.after start ls l.1) l.2.op := by
  obtain ⟨k, hk, -⟩ := hstep
  have hnow := Pool.obeys hrun h l.1
  rw [hk] at hnow
  exact hnow.1

/-- A condition on every call of every program is one on every step of the pool. -/
theorem Pool.calls {C : Op → Prop} (hrun : Runs.Run (Pool.Step step) c ls c')
    (h : ∀ i, (c.prog i).Calls C) {c'' : Pool ι Op Ret α S} (hstep : Pool.Step step c' l c'') :
    C l.2.op :=
  Pool.permits (P := .only C) hrun (fun i => Protocol.obeys_only (h i)) hstep

end Run

/-! ### One thread of a run -/

def own (i : ι) (ls : List (Label ι Op Ret)) : List (Event Op Ret) :=
  (ls.filter fun l => l.1 = i).map Prod.snd

section Own

variable {i : ι} {ls : List (Label ι Op Ret)}

theorem own_snoc (l : Label ι Op Ret) :
    own i (ls ++ [l]) = if l.1 = i then own i ls ++ [l.2] else own i ls := by
  by_cases h : l.1 = i <;> simp [own, h]

/-- The last event of a thread, with what came before it and nothing of the thread after. -/
theorem own_last {evs : List (Event Op Ret)} {ev : Event Op Ret} (h : own i ls = evs ++ [ev]) :
    ∃ pre post, ls = pre ++ (i, ev) :: post ∧ ∀ l ∈ post, l.1 ≠ i := by
  obtain ⟨as, bs, hfilter, -, hb⟩ := map_eq_append_iff.mp h
  obtain ⟨⟨j, ev'⟩, rest, rfl, rfl, hrest⟩ := map_eq_cons_iff.mp hb
  obtain rfl := map_eq_nil_iff.mp hrest
  obtain ⟨l₁, l₂, rfl, -, h₂⟩ := filter_eq_append_iff.mp hfilter
  obtain ⟨m₁, m₂, rfl, -, hj, hm₂⟩ := filter_eq_cons_iff.mp h₂
  obtain rfl : j = i := by simpa using hj
  refine ⟨l₁ ++ m₁, m₂, by simp, ?_⟩
  intro l hl hthread
  exact filter_eq_nil_iff.mp hm₂ l hl (by simpa using hthread)

end Own

/-- The program after events of its own. -/
inductive Prog.Fed : Prog Op Ret α → List (Event Op Ret) → Prog Op Ret α → Prop where
  | nil (p : Prog Op Ret α) : Fed p [] p
  | cons {op : Op} {k : Ret op → Prog Op Ret α} {r : Ret op} {evs : List (Event Op Ret)}
      {q : Prog Op Ret α} (h : Fed (k r) evs q) : Fed (.call op k) (⟨op, r⟩ :: evs) q

theorem Prog.Fed.snoc (h : p.Fed evs (.call op k)) (r : Ret op) :
    p.Fed (evs ++ [⟨op, r⟩]) (k r) := by
  generalize hq : call op k = q at h
  induction h with
  | nil p =>
    subst hq
    exact .cons (.nil _)
  | cons _ ih => exact .cons (ih hq)

theorem Prog.Fed.bind_done {f : α → Prog Op Ret β} :
    ∀ {evs : List (Event Op Ret)} {b : β}, (p >>= f).Fed evs (.done b) →
      ∃ evs₁ evs₂ a, evs = evs₁ ++ evs₂ ∧ p.Fed evs₁ (.done a) ∧ (f a).Fed evs₂ (.done b) := by
  induction p with
  | done a =>
    intro evs b h
    exact ⟨[], evs, a, rfl, .nil _, h⟩
  | call op k ih =>
    intro evs b h
    obtain - | @⟨_, _, r, evs, _, h⟩ := h
    obtain ⟨evs₁, evs₂, a, rfl, h₁, h₂⟩ := ih r h
    exact ⟨⟨op, r⟩ :: evs₁, evs₂, a, rfl, .cons h₁, h₂⟩

@[simp] theorem Prog.fed_done : (done a).Fed evs q ↔ evs = [] ∧ q = .done a := by
  constructor
  · rintro ⟨⟩
    exact ⟨rfl, rfl⟩
  · rintro ⟨rfl, rfl⟩
    exact .nil _

/-- What has ended takes no more events. -/
theorem Prog.Fed.stopped {rest : List (Event Op Ret)} (h : p.Fed evs (.done a))
    (h' : p.Fed (evs ++ rest) q) : rest = [] := by
  generalize hd : done a = d at h
  induction h with
  | nil p =>
    subst hd
    exact (fed_done.mp h').1
  | cons _ ih =>
    obtain - | ⟨h'⟩ := h'
    exact ih h' hd

theorem Prog.Fed.finished {b : α} (h : (done a).Fed evs (.done b)) : evs = [] ∧ b = a :=
  (fed_done.mp h).imp_right done.inj

theorem Prog.Fed.ended {b : α} (h : (done a).Fed evs (.done b)) : b = a := h.finished.2

/-- The last step only wraps the result. -/
theorem Prog.Fed.bind_wrap {f : α → β} {b : β}
    (h : (p >>= fun a => done (f a)).Fed evs (.done b)) : ∃ a, p.Fed evs (.done a) ∧ b = f a := by
  obtain ⟨evs₁, evs₂, a, rfl, h₁, h₂⟩ := Fed.bind_done h
  obtain ⟨rfl, he⟩ := fed_done.mp h₂
  rw [append_nil]
  exact ⟨a, h₁, done.inj he⟩

variable {f : α → Prog Op Ret (Option β)}

/-- An attempt that ends with a value: the first part did, and then the second. -/
theorem Prog.Fed.attempt {p : Prog Op Ret (Option α)} {b : β}
    (h : (p.attempt f).Fed evs (.done (some b))) :
    ∃ evs₁ evs₂ a, evs = evs₁ ++ evs₂ ∧ p.Fed evs₁ (.done (some a)) ∧
      (f a).Fed evs₂ (.done (some b)) := by
  obtain ⟨evs₁, evs₂, o, rfl, h₁, h₂⟩ := Fed.bind_done h
  cases o with
  | none => cases h₂
  | some a => exact ⟨evs₁, evs₂, a, rfl, h₁, h₂⟩

theorem Prog.Fed.attempt_some {p : Prog Op Ret (Option α)} {evs' : List (Event Op Ret)}
    {q : Prog Op Ret (Option β)} (h : p.Fed evs (.done (some a))) (hf : (f a).Fed evs' q) :
    (p.attempt f).Fed (evs ++ evs') q := by
  generalize hd : done (some a) = d at h
  induction h with
  | nil p =>
    subst hd
    exact hf
  | cons _ ih => exact .cons (ih hd)

/-- What a program does under an assumption, it has done when every answer kept to it. -/
theorem Prog.Under.fed {H : (op : Op) → Ret op → Prop} {P : Op → Prop} {Q : α → Prop}
    (hp : p.Under H P Q) (h : p.Fed evs q) (hH : ∀ ev ∈ evs, H ev.op ev.ret) :
    ∀ ev ∈ evs, P ev.op := by
  induction h with
  | nil => simp
  | cons _ ih =>
    rw [forall_mem_cons] at hH
    exact forall_mem_cons.mpr ⟨hp.1, ih (hp.2 _ hH.1) hH.2⟩

@[simp] theorem Prog.fed_call_done :
    (call op k).Fed evs (.done a) ↔
      ∃ r rest, evs = ⟨op, r⟩ :: rest ∧ (k r).Fed rest (.done a) := by
  constructor
  · rintro (_ | @⟨_, _, r, rest, _, h⟩)
    exact ⟨r, rest, rfl, h⟩
  · rintro ⟨r, rest, rfl, h⟩
    exact .cons h

theorem Prog.fed_single {r : Ret op} :
    (call op k).Fed [⟨op, r⟩] q ↔ k r = q := by
  constructor
  · rintro (_ | ⟨h⟩)
    generalize k r = p at h ⊢
    cases h
    rfl
  · rintro rfl
    exact .cons (.nil _)

/-- **A thread is its own events**: where it is in its program is what they have made of it. -/
theorem Pool.fed {c c' : Pool ι Op Ret α S} {ls : List (Label ι Op Ret)}
    (hrun : Runs.Run (Pool.Step step) c ls c') (i : ι) :
    (c.prog i).Fed (own i ls) (c'.prog i) := by
  refine hrun.history (I := fun ls c' => (c.prog i).Fed (own i ls) (c'.prog i)) ?_ (.nil _)
  rintro ls c₁ ⟨j, op, r⟩ c₂ hi ⟨k, hk, -, hprog⟩
  rw [own_snoc, hprog]
  by_cases hj : j = i
  · subst hj
    rw [if_pos rfl, update_self]
    rw [hk] at hi
    exact hi.snoc r
  · rw [if_neg hj, update_of_ne (Ne.symm hj)]
    exact hi

/-- A thread alone: what its program does by itself, the pool may do. -/
theorem Pool.run_alone {s s' : S} (h : q.Steps step s a s') {f : ι → Prog Op Ret α} {i : ι}
    (hq : f i = q) :
    ∃ ls, Runs.Run (Pool.Step step) ⟨s, f⟩ ls ⟨s', update f i (.done a)⟩ := by
  induction h generalizing f with
  | done a s =>
    refine ⟨[], ?_⟩
    rw [← hq, update_eq_self]
    exact .refl _
  | @call op k r a s s₁ s' hstep _ ih =>
    obtain ⟨ls, hrun⟩ := ih (f := update f i (k r)) (update_self ..)
    rw [update_idem] at hrun
    exact ⟨(i, ⟨op, r⟩) :: ls, .more (Pool.step_call hq hstep) hrun⟩

end Effect
