import Mathlib.Data.List.Sort

/-!
# Support — updates and their undoing

A map that is changed at a key, and changed back from what was there before, is the map it was:
`restore_insert`, `restore_erase`, and `insertAll_eraseAll` for several keys at once.

A `Field` of a record is a part that can be read and replaced.  An update of a field is undone in
the record when it is undone in the field (`Field.undo`).
-/

namespace Undo
open Std List

/-! ### Maps -/

section Maps

variable {K α : Type} {cmp : K → K → Ordering} [TransCmp cmp] [LawfulEqCmp cmp]

theorem get_insert (m : ExtTreeMap K α cmp) (k x : K) (a : α) [Decidable (x = k)] :
    (m.insert k a)[x]? = if x = k then some a else m[x]? := by
  rw [ExtTreeMap.getElem?_insert]
  by_cases hx : x = k
  · subst hx
    rw [if_pos ReflCmp.compare_self, if_pos rfl]
  · rw [if_neg fun h => hx (LawfulEqCmp.compare_eq_iff_eq.mp h).symm, if_neg hx]

/-- Put back what was at the key. -/
def restore (m : ExtTreeMap K α cmp) (k : K) : Option α → ExtTreeMap K α cmp
  | some a => m.insert k a
  | none => m.erase k

variable {m : ExtTreeMap K α cmp} {k : K} {rows : List (K × α)}

theorem restore_eq {m' : ExtTreeMap K α cmp} (hoff : ∀ x, k ≠ x → m'[x]? = m[x]?) :
    restore m' k m[k]? = m := by
  ext1 x
  by_cases hx : k = x
  · subst hx
    cases h : m[k]? with
    | none => simp [restore]
    | some a => simp [restore]
  · have hcmp : cmp k x ≠ .eq := fun h => hx (LawfulEqCmp.compare_eq_iff_eq.mp h)
    rw [← hoff x hx]
    cases m[k]? with
    | none => rw [restore, ExtTreeMap.getElem?_erase, if_neg hcmp]
    | some a => rw [restore, ExtTreeMap.getElem?_insert, if_neg hcmp]

theorem restore_insert (m : ExtTreeMap K α cmp) (k : K) (a : α) :
    restore (m.insert k a) k m[k]? = m := by
  refine restore_eq fun x hx => ?_
  rw [ExtTreeMap.getElem?_insert, if_neg fun h => hx (LawfulEqCmp.compare_eq_iff_eq.mp h)]

theorem restore_erase (m : ExtTreeMap K α cmp) (k : K) : restore (m.erase k) k m[k]? = m := by
  refine restore_eq fun x hx => ?_
  rw [ExtTreeMap.getElem?_erase, if_neg fun h => hx (LawfulEqCmp.compare_eq_iff_eq.mp h)]

theorem insert_insert {b : α} (h : m[k]? = some b) (a : α) : (m.insert k a).insert k b = m := by
  have := restore_insert m k a
  rwa [h] at this

theorem erase_insert (h : m[k]? = none) (a : α) : (m.insert k a).erase k = m := by
  have := restore_insert m k a
  rwa [h] at this

theorem insert_erase {b : α} (h : m[k]? = some b) : (m.erase k).insert k b = m := by
  have := restore_erase m k
  rwa [h] at this

def eraseAll (m : ExtTreeMap K α cmp) (rows : List (K × α)) : ExtTreeMap K α cmp :=
  rows.foldl (fun m row => m.erase row.1) m

def insertAll (m : ExtTreeMap K α cmp) (rows : List (K × α)) : ExtTreeMap K α cmp :=
  rows.foldl (fun m row => m.insert row.1 row.2) m

theorem getElem?_eraseAll_of_not_mem {x : K} (m : ExtTreeMap K α cmp)
    (h : ∀ row ∈ rows, row.1 ≠ x) :
    (eraseAll m rows)[x]? = m[x]? := by
  induction rows generalizing m with
  | nil => rfl
  | cons row rows ih =>
    rw [forall_mem_cons] at h
    have hx : cmp row.1 x ≠ .eq := fun hx => h.1 (LawfulEqCmp.compare_eq_iff_eq.mp hx)
    have hrest := ih (m.erase row.1) h.2
    rw [ExtTreeMap.getElem?_erase, if_neg hx] at hrest
    exact hrest

theorem insertAll_eq (hin : ∀ row ∈ rows, m[row.1]? = some row.2) (m' : ExtTreeMap K α cmp)
    (hoff : ∀ x, (∀ row ∈ rows, row.1 ≠ x) → m'[x]? = m[x]?) : insertAll m' rows = m := by
  induction rows generalizing m' with
  | nil =>
    ext1 x
    exact hoff x (by simp)
  | cons row rows ih =>
    rw [forall_mem_cons] at hin
    refine ih hin.2 (m'.insert row.1 row.2) fun x hx => ?_
    rw [ExtTreeMap.getElem?_insert]
    by_cases hk : cmp row.1 x = .eq
    · obtain rfl := LawfulEqCmp.compare_eq_iff_eq.mp hk
      rw [if_pos hk, hin.1]
    · rw [if_neg hk]
      refine hoff x (forall_mem_cons.mpr ⟨?_, hx⟩)
      rintro rfl
      exact hk ReflCmp.compare_self

theorem insertAll_eraseAll (h : ∀ row ∈ rows, m[row.1]? = some row.2) :
    insertAll (eraseAll m rows) rows = m :=
  insertAll_eq h _ fun _ hx => getElem?_eraseAll_of_not_mem m hx

end Maps

/-! ### Lists -/

theorem reinsert_eraseIdx {α : Type} {l : List α} {i : Nat} {a : α} (h : l[i]? = some a) :
    (l.eraseIdx i).take i ++ a :: (l.eraseIdx i).drop i = l := by
  obtain ⟨hi, rfl⟩ := List.getElem?_eq_some_iff.mp h
  rw [eraseIdx_eq_take_drop_succ]
  have hlen : (l.take i).length = i := length_take_of_le (by omega)
  rw [take_append_of_le_length (by omega), take_of_length_le (by omega),
    drop_append_of_le_length (by omega), drop_of_length_le (by omega), nil_append,
    getElem_cons_drop, take_append_drop]

theorem set_set_getElem {α : Type} {l : List α} {i : Nat} {a b : α} (h : l[i]? = some a) :
    (l.set i b).set i a = l := by
  obtain ⟨hi, rfl⟩ := List.getElem?_eq_some_iff.mp h
  rw [set_set, set_getElem_self]

/-! ### Fields -/

/-- A part of a record, to read and to replace. -/
structure Field (S A : Type) where
  get : S → A
  set : S → A → S
  set_set : ∀ s a b, set (set s a) b = set s b
  get_set : ∀ s a, get (set s a) = a
  set_get : ∀ s, set s (get s) = s

/-- An update undone in the field is undone in the record. -/
theorem Field.undo {S A : Type} (F : Field S A) {s : S} {a : A} (back : A → A)
    (h : back a = F.get s) : F.set (F.set s a) (back (F.get (F.set s a))) = s := by
  rw [F.get_set, F.set_set, h, F.set_get]

end Undo
