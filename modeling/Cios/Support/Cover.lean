import Mathlib.Data.List.Forall2

/-!
# Covering a list by consecutive runs

A pattern is a list of pieces, and a piece takes certain runs of elements.  `Covers T ps xs` says
that the pieces can be given consecutive runs that make up the whole list, each one that it takes.
A matcher peels pieces off either end: `covers_cons` from the front, `covers_snoc` from the back.
-/

namespace Cios.Cover

variable {P A : Type} {T : P → List A → Prop} {p : P} {ps : List P} {xs : List A}

def Covers (T : P → List A → Prop) (ps : List P) (xs : List A) : Prop :=
  ∃ runs, List.Forall₂ T ps runs ∧ runs.flatten = xs

@[simp] theorem covers_nil : Covers T [] xs ↔ xs = [] := by
  simp [Covers]

theorem covers_cons :
    Covers T (p :: ps) xs ↔ ∃ run rest, T p run ∧ Covers T ps rest ∧ run ++ rest = xs := by
  constructor
  · rintro ⟨runs, h, rfl⟩
    obtain ⟨run, runs, hrun, hruns, rfl⟩ := List.forall₂_cons_left_iff.mp h
    exact ⟨run, runs.flatten, hrun, ⟨runs, hruns, rfl⟩, rfl⟩
  · rintro ⟨run, rest, hrun, ⟨runs, hruns, rfl⟩, rfl⟩
    exact ⟨run :: runs, .cons hrun hruns, rfl⟩

theorem covers_snoc :
    Covers T (ps ++ [p]) xs ↔ ∃ init run, Covers T ps init ∧ T p run ∧ init ++ run = xs := by
  induction ps generalizing xs with
  | nil => simp [covers_cons]
  | cons q ps ih =>
    simp only [List.cons_append, covers_cons, ih]
    constructor
    · rintro ⟨r, rest, hr, ⟨init, run, hinit, hrun, rfl⟩, rfl⟩
      exact ⟨r ++ init, run, ⟨r, init, hr, hinit, rfl⟩, hrun, List.append_assoc ..⟩
    · rintro ⟨-, run, ⟨r, init, hr, hinit, rfl⟩, hrun, rfl⟩
      exact ⟨r, init ++ run, hr, ⟨init, run, hinit, hrun, rfl⟩, (List.append_assoc ..).symm⟩

/-- Pieces that take only themselves cover only their own list. -/
theorem covers_literal {ps : List A} {T : A → List A → Prop}
    (h : ∀ p ∈ ps, ∀ run, T p run ↔ run = [p]) : Covers T ps xs ↔ xs = ps := by
  induction ps generalizing xs with
  | nil => exact covers_nil
  | cons p ps ih =>
    rw [List.forall_mem_cons] at h
    simp [covers_cons, h.1, ih h.2, eq_comm]

end Cios.Cover
