import Cios.Support.Interleave
import Cios.Support.Versioned

/-!
# Support — logs of a pool

A log of a pool has every call with its thread, its answer, and the shared state before and after it
(`Pool.Logged`).  Where the shared state keeps rows with versions, a log of the pool is one of
accesses to them: `act` says what a call does to the rows, `rows` what is stored.  Then what each
thread has read last is known of every log (`Pool.sees`).
-/

namespace Effect
open Runs (Run)
open Versioned (Act Access Sees lastRead)

variable {ι Op : Type} {Ret : Op → Type} {α S G K R : Type}

/-- A call of a thread, with the shared state before and after it. -/
structure Entry (ι Op : Type) (Ret : Op → Type) (S : Type) where
  thread : ι
  event : Event Op Ret
  before : S
  after : S

def Entry.label (e : Entry ι Op Ret S) : Label ι Op Ret := (e.thread, e.event)

/-- The call as an access to the rows. -/
def Entry.access (act : Entry ι Op Ret S → Act R) (rows : S → K → Option R)
    (e : Entry ι Op Ret S) : Access ι K R :=
  ⟨e.thread, act e, rows e.before, rows e.after⟩

variable [DecidableEq ι]

def Pool.Logged (step : (op : Op) → S → Ret op → S → Prop) (c : Pool ι Op Ret α S)
    (e : Entry ι Op Ret S) (c' : Pool ι Op Ret α S) : Prop :=
  Pool.Step step c e.label c' ∧ e.before = c.shared ∧ e.after = c'.shared

variable {step : (op : Op) → S → Ret op → S → Prop} {c c' c'' : Pool ι Op Ret α S}
variable {e : Entry ι Op Ret S} {log : List (Entry ι Op Ret S)}

theorem Pool.Logged.call (h : Pool.Logged step c e c') :
    step e.event.op e.before e.event.ret e.after := by
  obtain ⟨⟨k, -, hstep, -⟩, hbefore, hafter⟩ := h
  rw [hbefore, hafter]
  exact hstep

theorem Pool.logged_call {i : ι} {op : Op} {k : Ret op → Prog Op Ret α} {r : Ret op} {s : S}
    (hk : c.prog i = .call op k) (h : step op c.shared r s) :
    Pool.Logged step c ⟨i, ⟨op, r⟩, c.shared, s⟩ ⟨s, Function.update c.prog i (k r)⟩ :=
  ⟨Pool.step_call hk h, rfl, rfl⟩

theorem Pool.permits_logged {P : Protocol Op Ret α G} {start : ι → G}
    (hrun : Run (Pool.Logged step) c log c') (h : ∀ i, P.Obeys (start i) (c.prog i))
    (hl : Pool.Logged step c' e c'') :
    P.permits (P.after start (log.map Entry.label) e.thread) e.event.op :=
  Pool.permits (hrun.simulate id Entry.label fun hl => hl.1) h hl.1

section Rows

variable [DecidableEq K] {act : Entry ι Op Ret S → Act R} {rows : S → K → Option R}
variable {key : R → K} {version : R → Int}

/-- What a thread has read is stored still, unwritten since, or what is stored is later. -/
theorem Pool.sees
    (hvalid : ∀ {e : Entry ι Op Ret S}, step e.event.op e.before e.event.ret e.after →
      (e.access act rows).Valid key version)
    (h : Run (Pool.Logged step) c log c') (i : ι) :
    Sees key version (log.map (Entry.access act rows)) (rows c'.shared) i := by
  refine Versioned.sees_of_run (s := rows c.shared) ?_ i
  refine h.simulate (fun c => rows c.shared) (Entry.access act rows) ?_
  intro c e c' hl
  exact ⟨congrArg rows hl.2.1, congrArg rows hl.2.2, hvalid (Pool.Logged.call hl)⟩

omit [DecidableEq K] in
/-- A part of the protocol's state that follows what the thread reads is what it has read last. -/
theorem Protocol.after_lastRead {P : Protocol Op Ret α G} {start : ι → G} {f : G → Option R}
    (hstart : ∀ i, f (start i) = none)
    (hnext : ∀ g (e : Entry ι Op Ret S), f (P.next g e.event) = (act e).seen (f g)) (i : ι) :
    f (P.after start (log.map Entry.label) i) = lastRead i (log.map (Entry.access act rows)) := by
  unfold Protocol.after lastRead
  rw [List.foldl_map, List.foldl_map, ← hstart i]
  generalize start i = g
  induction log generalizing g with
  | nil => rfl
  | cons e log ih =>
    rw [List.foldl_cons, List.foldl_cons, ih]
    congr 1
    show f (if e.thread = i then _ else _) = if e.thread = i then _ else _
    split
    · exact hnext g e
    · rfl

end Rows

end Effect
