import Cios.Support.Text

/-!
# Support — UTF-8

Which byte strings are UTF-8: a leading byte says in which ranges the bytes after it have to lie.  A
byte that begins no code point can be replaced by the replacement character (`coerce`), which leaves
UTF-8 as it is.
-/

namespace Utf8
open Text List

/-- A range of bytes, both ends included. -/
abbrev Range := UInt8 × UInt8

def tail : Range := (0x80, 0xBF)

/-- The ranges of the bytes that follow a leading byte. -/
def lead (c : UInt8) : Option (List Range) :=
  if c < 0x80 then some []
  else if c < 0xC2 then none
  else if c ≤ 0xDF then some [tail]
  else if c = 0xE0 then some [(0xA0, 0xBF), tail]
  else if c = 0xED then some [(0x80, 0x9F), tail]
  else if c ≤ 0xEF then some [tail, tail]
  else if c = 0xF0 then some [(0x90, 0xBF), tail, tail]
  else if c ≤ 0xF3 then some [tail, tail, tail]
  else if c = 0xF4 then some [(0x80, 0x8F), tail, tail]
  else none

/-- Whether the string goes on as the pending ranges ask, and is UTF-8 after them. -/
def goesOn : List Range → Bytes → Bool
  | [], [] => true
  | _ :: _, [] => false
  | [], c :: s =>
    match lead c with
    | some pending => goesOn pending s
    | none => false
  | r :: pending, c :: s => r.1 ≤ c && c ≤ r.2 && goesOn pending s

def valid (s : Bytes) : Bool := goesOn [] s

variable {s : Bytes}

theorem valid_ascii (h : ∀ c ∈ s, c < 0x80) : valid s = true := by
  induction s with
  | nil => rfl
  | cons c s ih =>
    rw [forall_mem_cons] at h
    rw [valid, goesOn, lead, if_pos h.1]
    exact ih h.2

/-! ### Replacing what is not UTF-8 -/

/-- Whether the string goes on as the pending ranges ask. -/
def fits : List Range → Bytes → Bool
  | [], _ => true
  | _ :: _, [] => false
  | r :: pending, c :: s => r.1 ≤ c && c ≤ r.2 && fits pending s

def replacement : Bytes := [0xEF, 0xBF, 0xBD]

/-- The string with each byte replaced that begins no code point. -/
def coerceFrom : Nat → Bytes → Bytes
  | _, [] => []
  | n + 1, c :: s => c :: coerceFrom n s
  | 0, c :: s =>
    match lead c with
    | some pending =>
      if fits pending s then c :: coerceFrom pending.length s
      else replacement ++ coerceFrom 0 s
    | none => replacement ++ coerceFrom 0 s

def coerce (s : Bytes) : Bytes := coerceFrom 0 s

theorem fits_of_goesOn {pending : List Range} (h : goesOn pending s = true) :
    fits pending s = true := by
  induction pending generalizing s with
  | nil => cases s <;> rfl
  | cons r pending ih =>
    cases s with
    | nil => cases h
    | cons c s =>
      simp only [goesOn, Bool.and_eq_true] at h
      simp only [fits, Bool.and_eq_true]
      exact ⟨h.1, ih h.2⟩

theorem coerceFrom_of_goesOn {pending : List Range} (h : goesOn pending s = true) :
    coerceFrom pending.length s = s := by
  induction s generalizing pending with
  | nil => cases pending <;> rfl
  | cons c s ih =>
    cases pending with
    | nil =>
      rw [goesOn] at h
      split at h
      · rename_i pending hlead
        rw [length_nil, coerceFrom, hlead]
        dsimp only
        rw [if_pos (fits_of_goesOn h), ih h]
      · cases h
    | cons r pending =>
      simp only [goesOn, Bool.and_eq_true] at h
      rw [length_cons, coerceFrom, ih h.2]

theorem coerce_valid (h : valid s = true) : coerce s = s := coerceFrom_of_goesOn h

@[simp] theorem coerce_nil : coerce [] = [] := rfl

theorem coerce_eq_nil : coerce s = [] ↔ s = [] := by
  constructor
  · intro h
    cases s with
    | nil => rfl
    | cons c s =>
      rw [coerce, coerceFrom] at h
      split at h
      · split at h
        · cases h
        · cases h
      · cases h
  · rintro rfl
    rfl

theorem coerce_ascii_cons {c : UInt8} (h : c < 0x80) (s : Bytes) :
    coerce (c :: s) = c :: coerce s := by
  rw [coerce, coerceFrom, lead, if_pos h]
  rfl

theorem head_coerce {c : UInt8} (hc : c < 0x80) (h : (coerce s).head? = some c) :
    s.head? = some c := by
  have hne : (0xEF : UInt8) ≠ c := by
    rintro rfl
    revert hc
    decide
  cases s with
  | nil => cases h
  | cons d s =>
    rw [coerce, coerceFrom] at h
    split at h
    · split at h
      · simpa using h
      · exact absurd (Option.some.inj h) hne
    · exact absurd (Option.some.inj h) hne

theorem coerce_eq_ascii {s t : Bytes} (ht : ∀ c ∈ t, c < 0x80) : coerce s = t ↔ s = t := by
  constructor
  · intro h
    induction t generalizing s with
    | nil => exact coerce_eq_nil.mp h
    | cons c t ih =>
      rw [forall_mem_cons] at ht
      have hhead : s.head? = some c := head_coerce ht.1 (by rw [h]; rfl)
      cases s with
      | nil => cases hhead
      | cons d s =>
        cases hhead
        rw [coerce_ascii_cons ht.1] at h
        rw [ih ht.2 (List.cons.inj h).2]
  · rintro rfl
    exact coerce_valid (valid_ascii ht)

end Utf8
