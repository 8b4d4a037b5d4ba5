import Cios.Support.Run
import Mathlib.Logic.Function.Basic

/-!
# Support — rows with versions

A store keeps rows by key, and a write gives a row the version after that of the row it replaces.
Threads read and write it in any order; a log has every access with its thread and with the rows
before and after.

What a thread has read last is the stored row still, and nobody has written it since, or the stored
row has a later version (`sees_of_run`).
-/

namespace Versioned

open Runs (Run)

/-- What an access does: it reads a row, writes one, or neither. -/
inductive Act (R : Type) where
  | read (row : R)
  | write (row : R)
  | other

structure Access (ι K R : Type) where
  thread : ι
  act : Act R
  before : K → Option R
  after : K → Option R

variable {ι K R : Type} [DecidableEq ι]

def Act.seen : Act R → Option R → Option R
  | .read row, _ => some row
  | _, last => last

def Act.isRead : Act R → Bool
  | .read _ => true
  | _ => false

def lastRead (i : ι) (log : List (Access ι K R)) : Option R :=
  log.foldl (fun last e => if e.thread = i then e.act.seen last else last) none

/-- The accesses since a thread has last read. -/
def sinceRead (i : ι) (log : List (Access ι K R)) : List (Access ι K R) :=
  log.foldl (fun since e => if e.thread = i ∧ e.act.isRead = true then [] else since ++ [e]) []

section Log

variable {i : ι} {log : List (Access ι K R)} {e : Access ι K R}

theorem lastRead_snoc : lastRead i (log ++ [e]) =
    if e.thread = i then e.act.seen (lastRead i log) else lastRead i log := by
  simp [lastRead]

theorem sinceRead_snoc : sinceRead i (log ++ [e]) =
    if e.thread = i ∧ e.act.isRead = true then [] else sinceRead i log ++ [e] := by
  simp [sinceRead]

theorem lastRead_read (log : List (Access ι K R)) {row : R} (hi : e.thread = i)
    (h : e.act = .read row) :
    lastRead i (log ++ [e]) = some row ∧ sinceRead i (log ++ [e]) = [] := by
  rw [lastRead_snoc, sinceRead_snoc, if_pos hi, if_pos ⟨hi, by rw [h]; rfl⟩, h]
  exact ⟨rfl, rfl⟩

theorem lastRead_other (log : List (Access ι K R)) (h : ¬ (e.thread = i ∧ e.act.isRead = true)) :
    lastRead i (log ++ [e]) = lastRead i log ∧
      sinceRead i (log ++ [e]) = sinceRead i log ++ [e] := by
  rw [lastRead_snoc, sinceRead_snoc, if_neg h]
  refine ⟨?_, rfl⟩
  split
  · rename_i hi
    cases ha : e.act with
    | read row => exact absurd ⟨hi, by rw [ha]; rfl⟩ h
    | write row => rfl
    | other => rfl
  · rfl

end Log

variable [DecidableEq K] (key : R → K) (version : R → Int)

/-- A read finds the stored row; a write puts its row, one version on. -/
def Access.Valid (e : Access ι K R) : Prop :=
  match e.act with
  | .read row => e.after = e.before ∧ e.before (key row) = some row
  | .write row => e.after = Function.update e.before (key row) (some row) ∧
      ∀ cur, e.before (key row) = some cur → version row = version cur + 1
  | .other => e.after = e.before

def Step (s : K → Option R) (e : Access ι K R) (s' : K → Option R) : Prop :=
  e.before = s ∧ e.after = s' ∧ e.Valid key version

/-- The access writes the row of a key. -/
def Access.Writes (e : Access ι K R) (k : K) : Prop := ∃ row, e.act = .write row ∧ key row = k

/-- The row a thread has read is the stored one, unwritten since, or the stored one is later. -/
def Sees (log : List (Access ι K R)) (s : K → Option R) (i : ι) : Prop :=
  ∀ row, lastRead i log = some row → ∃ cur, s (key row) = some cur ∧
    (cur = row ∧ (∀ e ∈ sinceRead i log, ¬ e.Writes key (key row)) ∨ version row < version cur)

variable {key version} {log : List (Access ι K R)} {s s' : K → Option R} {e : Access ι K R}

theorem Sees.step {i : ι} (h : Sees key version log s i) (hs : Step key version s e s') :
    Sees key version (log ++ [e]) s' i := by
  obtain ⟨rfl, rfl, hvalid⟩ := hs
  intro row hrow
  by_cases hread : e.thread = i ∧ e.act.isRead = true
  · obtain ⟨hi, hread⟩ := hread
    cases ha : e.act with
    | read row' =>
      obtain ⟨hlast, hsince⟩ := lastRead_read log hi ha
      obtain rfl : row' = row := Option.some.inj (hlast.symm.trans hrow)
      rw [Access.Valid, ha] at hvalid
      rw [hvalid.1, hsince]
      exact ⟨row', hvalid.2, .inl ⟨rfl, nofun⟩⟩
    | write row' => rw [ha] at hread; cases hread
    | other => rw [ha] at hread; cases hread
  · obtain ⟨hlast, hsince⟩ := lastRead_other log hread
    rw [hlast] at hrow
    obtain ⟨cur, hcur, hcase⟩ := h row hrow
    -- An access that does not write this row leaves what is known of it.
    have hkeep : e.after (key row) = e.before (key row) → ¬ e.Writes key (key row) →
        ∃ cur, e.after (key row) = some cur ∧ (cur = row ∧
          (∀ x ∈ sinceRead i (log ++ [e]), ¬ x.Writes key (key row)) ∨
            version row < version cur) := by
      intro hafter hw
      refine ⟨cur, hafter.trans hcur, hcase.imp_left fun hc => ⟨hc.1, fun x hx => ?_⟩⟩
      rw [hsince] at hx
      rcases List.mem_append.mp hx with hx | hx
      · exact hc.2 x hx
      · exact List.mem_singleton.mp hx ▸ hw
    rw [Access.Valid] at hvalid
    split at hvalid
    · rename_i row' ha
      exact hkeep (congrFun hvalid.1 _) fun ⟨x, hx, _⟩ => by cases ha.symm.trans hx
    · rename_i row' ha
      by_cases hk : key row' = key row
      · -- The row is written: its version goes up.
        refine ⟨row', by rw [hvalid.1, hk, Function.update_self], .inr ?_⟩
        have hup := hvalid.2 cur (hk ▸ hcur)
        rcases hcase with ⟨rfl, -⟩ | hlt
        · omega
        · omega
      · refine hkeep ?_ ?_
        · rw [hvalid.1, Function.update_of_ne (Ne.symm hk)]
        · rintro ⟨x, hx, hxk⟩
          cases ha.symm.trans hx
          exact hk hxk
    · rename_i ha
      exact hkeep (congrFun hvalid _) fun ⟨x, hx, _⟩ => by cases ha.symm.trans hx

/-- **What every thread has read**, after every log. -/
theorem sees_of_run (h : Run (Step key version) s log s') (i : ι) : Sees key version log s' i :=
  h.history (I := fun log s => Sees key version log s i) (fun hi hs => hi.step hs) nofun

end Versioned
