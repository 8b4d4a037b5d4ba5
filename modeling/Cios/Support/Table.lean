import Cios.Support.Text
import Mathlib.Data.List.Sort

/-!
# Support — keyed tables and pages

A `Table` is the finite map of a store: rows that carry their own key, no key twice.  Its operations
are those of a map (`get`, `put`, `erase`), and each says which rows it leaves.

Listings sort the rows and answer one page at a time.  `exists_take_sorted` says what a page shows
in terms of the rows alone: a row is within the first `n` when fewer than `n` rows are below it.
-/

namespace Keyed
open List

variable {K α : Type} {key : α → K}

/-! ### Tables -/

/-- Rows with distinct keys. -/
structure Table (key : α → K) where
  rows : List α
  nodup : (rows.map key).Nodup

namespace Table

variable {t : Table key} {a b : α} {k : K}

def empty : Table key := ⟨[], by simp⟩

theorem eq_of_key_eq (ha : a ∈ t.rows) (hb : b ∈ t.rows) (h : key a = key b) : a = b :=
  inj_on_of_nodup_map t.nodup ha hb h

variable [DecidableEq K]

def get (t : Table key) (k : K) : Option α := t.rows.find? fun a => key a = k

def erase (t : Table key) (k : K) : Table key :=
  ⟨t.rows.filter fun a => key a ≠ k, t.nodup.sublist (filter_sublist.map key)⟩

/-- The row replaces the one of its key, if there is one. -/
def put (t : Table key) (a : α) : Table key :=
  ⟨(t.erase (key a)).rows ++ [a], by
    rw [map_append, map_singleton]
    refine (t.erase (key a)).nodup.append (by simp) ?_
    simp only [disjoint_singleton, mem_map, not_exists, not_and]
    intro b hb
    simpa [erase] using (mem_filter.mp hb).2⟩

@[simp] theorem mem_erase : b ∈ (t.erase k).rows ↔ b ∈ t.rows ∧ key b ≠ k := by
  simp [erase]

@[simp] theorem mem_put : b ∈ (t.put a).rows ↔ (b ∈ t.rows ∧ key b ≠ key a) ∨ b = a := by
  simp [put]

theorem exists_put (a : α) (h : ∃ b ∈ t.rows, key b = k) : ∃ b ∈ (t.put a).rows, key b = k := by
  obtain ⟨b, hb, rfl⟩ := h
  by_cases hk : key b = key a
  · exact ⟨a, mem_put.mpr (.inr rfl), hk.symm⟩
  · exact ⟨b, mem_put.mpr (.inl ⟨hb, hk⟩), rfl⟩

theorem get_eq_some : t.get k = some a ↔ a ∈ t.rows ∧ key a = k := by
  constructor
  · intro h
    exact ⟨mem_of_find?_eq_some h, by simpa using find?_some h⟩
  rintro ⟨ha, rfl⟩
  obtain ⟨b, hb⟩ : ∃ b, t.get (key a) = some b :=
    Option.isSome_iff_exists.mp (find?_isSome.mpr ⟨a, ha, by simp⟩)
  rw [hb]
  exact congrArg some (eq_of_key_eq (mem_of_find?_eq_some hb) ha
    (by simpa using find?_some hb))

theorem get_eq_none : t.get k = none ↔ ∀ a ∈ t.rows, key a ≠ k := by
  simp [get]

/-- The rows in any order have the same row first for a key. -/
theorem find_of_perm {l : List α} (h : l.Perm t.rows) :
    (l.find? fun a => key a = k) = t.get k := by
  have hnodup : (l.map key).Nodup := (h.map key).nodup_iff.mpr t.nodup
  have hl : (l.find? fun a => key a = k) = get ⟨l, hnodup⟩ k := rfl
  ext a
  rw [hl, get_eq_some, get_eq_some, h.mem_iff]

theorem mem_erase_of_get (h : t.get k = some a) : b ∈ (t.erase k).rows ↔ b ∈ t.rows ∧ a ≠ b := by
  obtain ⟨ha, rfl⟩ := get_eq_some.mp h
  rw [mem_erase]
  refine and_congr_right fun hb => not_congr ⟨fun hk => eq_of_key_eq ha hb hk.symm, ?_⟩
  rintro rfl
  rfl

theorem erase_rows_of_get_none (h : t.get k = none) : (t.erase k).rows = t.rows := by
  refine filter_eq_self.mpr ?_
  intro b hb
  simpa using get_eq_none.mp h b hb

theorem erase_of_get_none (h : t.get k = none) : t.erase k = t := by
  have hrows := erase_rows_of_get_none h
  revert hrows
  generalize t.erase k = t'
  cases t
  rintro ⟨⟩
  rfl

theorem get_put_self : (t.put a).get (key a) = some a :=
  get_eq_some.mpr ⟨by simp, rfl⟩

theorem get_put_other (h : k ≠ key a) : (t.put a).get k = t.get k := by
  ext b
  rw [get_eq_some, get_eq_some, mem_put]
  constructor
  · rintro ⟨⟨hb, -⟩ | rfl, hk⟩
    · exact ⟨hb, hk⟩
    · exact absurd hk.symm h
  · rintro ⟨hb, rfl⟩
    exact ⟨.inl ⟨hb, h⟩, rfl⟩

end Table

/-! ### Pages of a sorted listing -/

section Page

variable {r : α → α → Bool} {P : α → Prop}

/-- **What a page shows.**  For a property of the sort key, the first `n` rows of a sorted listing
have one with it exactly when some row has it and fewer than `n` are below that one. -/
theorem exists_take_sorted (hr : ∀ a, r a a = true) {s : List α}
    (hs : s.Pairwise fun a b => r a b = true)
    (hP : ∀ a ∈ s, ∀ b ∈ s, r a b = true → r b a = true → P a → P b) (n : Nat) :
    (∃ x ∈ s.take n, P x) ↔ ∃ x ∈ s, P x ∧ (s.filter fun y => !r x y).length < n := by
  induction s generalizing n with
  | nil => simp
  | cons a s ih =>
    obtain ⟨ha, hs⟩ := pairwise_cons.mp hs
    rw [forall_mem_cons] at hP
    cases n with
    | zero => simp
    | succ n =>
      rw [take_succ_cons, exists_mem_cons_iff, exists_mem_cons_iff,
        ih hs (fun x hx => (forall_mem_cons.mp (hP.2 x hx)).2) n]
      -- Nothing is below the first row, and it is below those that differ from it.
      have hfirst : ((a :: s).filter fun y => !r a y) = [] := by simpa [hr] using ha
      simp only [hfirst, length_nil, Nat.zero_lt_succ, and_true]
      refine or_congr_right' fun hPa => exists_congr fun x => and_congr_right fun hx =>
        and_congr_right fun hPx => ?_
      have hxa : r x a = false := by
        by_contra h
        exact hPa ((forall_mem_cons.mp (hP.2 x hx)).1 (by simpa using h) (ha x hx) hPx)
      simp [hxa]

theorem pairwise_insertionSort_of (htot : ∀ a b, r a b = true ∨ r b a = true)
    (htr : ∀ {a b c}, r a b = true → r b c = true → r a c = true) (l : List α) :
    (l.insertionSort fun a b => r a b = true).Pairwise fun a b => r a b = true :=
  haveI : Std.Total fun a b => r a b = true := ⟨htot⟩
  haveI : IsTrans α fun a b => r a b = true := ⟨fun _ _ _ => htr⟩
  pairwise_insertionSort _ l

/-- The head of a sorted listing is the row that no other is below. -/
theorem head_insertionSort_eq_some (htot : ∀ a b, r a b = true ∨ r b a = true)
    (htr : ∀ {a b c}, r a b = true → r b c = true → r a c = true) {l : List α}
    (hanti : ∀ a ∈ l, ∀ b ∈ l, r a b = true → r b a = true → a = b) {a : α} :
    (l.insertionSort fun a b => r a b = true).head? = some a ↔
      a ∈ l ∧ ∀ b ∈ l, r a b = true := by
  have hs := pairwise_insertionSort_of htot htr l
  have hperm := perm_insertionSort (fun a b => r a b = true) l
  cases h : l.insertionSort fun a b => r a b = true with
  | nil =>
    rw [h] at hperm
    simp [hperm.symm.eq_nil]
  | cons c rest =>
    rw [h] at hs hperm
    have hc : c ∈ l := hperm.mem_iff.mp (mem_cons_self ..)
    have hleast : ∀ b ∈ l, r c b = true := by
      intro b hb
      rcases mem_cons.mp (hperm.mem_iff.mpr hb) with rfl | hb
      · exact or_self_iff.mp (htot b b)
      · exact (pairwise_cons.mp hs).1 b hb
    rw [head?_cons, Option.some.injEq]
    constructor
    · rintro rfl
      exact ⟨hc, hleast⟩
    · rintro ⟨ha, hall⟩
      exact hanti c hc a ha (hleast a ha) (hall c hc)

theorem filter_unless {c : Prop} [Decidable c] (f : α → Bool) (l : List α) :
    (if c then l else l.filter f) = l.filter fun x => decide c || f x := by
  split <;> simp_all

/-- Among the rows that are kept, one with the property has fewer than `n` kept rows below it. -/
def ShownInPage (rows : List α) (keep : α → Bool) (r : α → α → Bool) (P : α → Prop) (n : Nat) :
    Prop :=
  ∃ x ∈ rows, keep x = true ∧ P x ∧ (rows.filter fun y => keep y && !r x y).length < n

/-- A sorted listing of the kept rows, cut to a page. -/
theorem exists_take_iff_shownInPage (hr : ∀ a, r a a = true) {s rows : List α} {keep : α → Bool}
    (hs : s.Pairwise fun a b => r a b = true) (hperm : s.Perm (rows.filter keep))
    (hP : ∀ a ∈ rows, ∀ b ∈ rows, r a b = true → r b a = true → P a → P b) (n : Nat) :
    (∃ x ∈ s.take n, P x) ↔ ShownInPage rows keep r P n := by
  have hmem : ∀ {x}, x ∈ s ↔ x ∈ rows.filter keep := hperm.mem_iff
  rw [exists_take_sorted hr hs fun a ha b hb =>
    hP a (mem_of_mem_filter (hmem.mp ha)) b (mem_of_mem_filter (hmem.mp hb))]
  simp only [hmem, (hperm.filter _).length_eq, mem_filter, filter_filter, ShownInPage, and_assoc,
    Bool.and_comm]

end Page

/-! ### Lexicographic orders -/

section Lex

variable {A B : Type} [DecidableEq A] {r₁ : A → A → Bool} {r₂ : B → B → Bool} {x y z : A × B}

/-- By the first component, and where that is the same by the second. -/
def lexLe (r₁ : A → A → Bool) (r₂ : B → B → Bool) (x y : A × B) : Bool :=
  if x.1 = y.1 then r₂ x.2 y.2 else r₁ x.1 y.1

theorem lexLe_total (h₁ : ∀ a b, a ≠ b → r₁ a b = true ∨ r₁ b a = true)
    (h₂ : ∀ a b, r₂ a b = true ∨ r₂ b a = true) (x y : A × B) :
    lexLe r₁ r₂ x y = true ∨ lexLe r₁ r₂ y x = true := by
  unfold lexLe
  by_cases h : x.1 = y.1
  · rw [if_pos h, if_pos h.symm]
    exact h₂ _ _
  · rw [if_neg h, if_neg (Ne.symm h)]
    exact h₁ _ _ h

theorem lexLe_antisymm (ha₁ : ∀ {a b}, r₁ a b = true → r₁ b a = true → a = b)
    (ha₂ : ∀ {a b}, r₂ a b = true → r₂ b a = true → a = b)
    (hxy : lexLe r₁ r₂ x y = true) (hyx : lexLe r₁ r₂ y x = true) : x = y := by
  unfold lexLe at hxy hyx
  by_cases h : x.1 = y.1
  · rw [if_pos h] at hxy
    rw [if_pos h.symm] at hyx
    exact Prod.ext h (ha₂ hxy hyx)
  · rw [if_neg h] at hxy
    rw [if_neg (Ne.symm h)] at hyx
    exact absurd (ha₁ hxy hyx) h

theorem lexLe_trans (ha₁ : ∀ {a b}, r₁ a b = true → r₁ b a = true → a = b)
    (ht₁ : ∀ {a b c}, r₁ a b = true → r₁ b c = true → r₁ a c = true)
    (ht₂ : ∀ {a b c}, r₂ a b = true → r₂ b c = true → r₂ a c = true)
    (hxy : lexLe r₁ r₂ x y = true) (hyz : lexLe r₁ r₂ y z = true) :
    lexLe r₁ r₂ x z = true := by
  unfold lexLe at hxy hyz ⊢
  split at hxy <;> split at hyz <;> rename_i h h'
  · rw [if_pos (h.trans h')]
    exact ht₂ hxy hyz
  · rwa [h, if_neg h']
  · rwa [← h', if_neg h]
  · rw [if_neg]
    · exact ht₁ hxy hyz
    · intro he
      exact h (ha₁ hxy (he ▸ hyz))

end Lex

end Keyed

/-! ### The order of byte strings -/

namespace Text

/-- Byte-wise lexicographic order. -/
def le : Bytes → Bytes → Bool
  | [], _ => true
  | _ :: _, [] => false
  | a :: s, b :: t => a < b || (a == b && le s t)

theorem le_iff : ∀ {s t : Bytes}, le s t = true ↔ s ≤ t
  | [], _ => by simp [le]
  | _ :: _, [] => by simp [le]
  | a :: s, b :: t => by simp [le, List.cons_le_cons_iff, le_iff (s := s) (t := t)]

variable {s t u : Bytes}

theorem le_refl (s : Bytes) : le s s = true := le_iff.mpr (List.le_refl s)

theorem le_total (s t : Bytes) : le s t = true ∨ le t s = true := by
  simpa only [le_iff] using List.le_total s t

theorem le_trans (h₁ : le s t = true) (h₂ : le t u = true) : le s u = true :=
  le_iff.mpr (List.le_trans (le_iff.mp h₁) (le_iff.mp h₂))

theorem le_antisymm (h₁ : le s t = true) (h₂ : le t s = true) : s = t :=
  List.le_antisymm (le_iff.mp h₁) (le_iff.mp h₂)

end Text
