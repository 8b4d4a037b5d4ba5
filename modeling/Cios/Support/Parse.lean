import Cios.Support.Text

/-!
# Support — recursive descent

A parser reads a value off the front of a byte string and answers it with what is left.  `chained`
is the loop of a left-associative operator level: an operand, then operators and operands as long as
an operator comes next.  The loop runs on fuel, and answers a `stuck` error when it is out of it.

Three facts carry over from the operand to the level:

* what is left is a suffix of the input (`Sound`), so the loop never runs out of fuel
  (`chained_sound`);
* a map on values commutes with reading (`Image`);
* a second parser reads what the first one reads, in front of a tail (`Echoes`).
-/

namespace Parse
open Text List

variable {E F N M O : Type}

abbrev Parser (E N : Type) := Bytes → Except E (N × Bytes)

def isSpace (c : UInt8) : Bool := c == ' ' || c == '\t' || c == '\n' || c == '\r'

def trim (s : Bytes) : Bytes := s.dropWhile isSpace

/-- The loop after the first operand. -/
def chain (opOf : UInt8 → Option O) (mk : O → N → N → N) (operand : Parser E N) (stuck : E) :
    Nat → N → Parser E N
  | 0, _, _ => .error stuck
  | n + 1, lhs, s =>
    match trim s with
    | [] => .ok (lhs, [])
    | c :: rest =>
      match opOf c with
      | none => .ok (lhs, c :: rest)
      | some op =>
        match operand rest with
        | .error e => .error e
        | .ok (rhs, s') => chain opOf mk operand stuck n (mk op lhs rhs) s'

/-- An operator level.  Each round of the loop reads at least its operator. -/
def chained (opOf : UInt8 → Option O) (mk : O → N → N → N) (operand : Parser E N) (stuck : E) :
    Parser E N := fun s =>
  match operand s with
  | .error e => .error e
  | .ok (lhs, r) => chain opOf mk operand stuck (r.length + 1) lhs r

/-! ### Blanks -/

theorem trim_suffix (s : Bytes) : trim s <:+ s := dropWhile_suffix _

theorem trim_cons_of_space {c : UInt8} {s : Bytes} (h : isSpace c = true) :
    trim (c :: s) = trim s := dropWhile_cons_of_pos h

theorem trim_cons_of_not_space {c : UInt8} {s : Bytes} (h : isSpace c = false) :
    trim (c :: s) = c :: s := dropWhile_cons_of_neg (by simp [h])

theorem not_space_of_trim {c : UInt8} {s r : Bytes} (h : trim s = c :: r) : isSpace c = false := by
  have hstop := head?_dropWhile_not isSpace s
  rwa [← trim, h] at hstop

@[simp] theorem trim_trim (s : Bytes) : trim (trim s) = trim s := by
  cases h : trim s with
  | nil => rfl
  | cons c r => exact trim_cons_of_not_space (not_space_of_trim h)

/-- No blank at the front. -/
def Solid (s : Bytes) : Prop := trim s = s

theorem trim_append {tail : Bytes} (h : Solid tail) (s : Bytes) :
    trim (s ++ tail) = trim s ++ tail := by
  rw [trim, dropWhile_append, ← trim, ← trim, h]
  split <;> simp_all

/-! ### What is left, and fuel -/

section Level

variable {opOf : UInt8 → Option O} {mk : O → N → N → N} {operand : Parser E N} {stuck : E}

theorem chain_solid (n : Nat) : ∀ lhs s res r,
    chain opOf mk operand stuck n lhs s = .ok (res, r) → Solid r := by
  induction n with
  | zero =>
    intro lhs s res r h
    cases h
  | succ n ih =>
    intro lhs s res r h
    rw [chain] at h
    split at h
    · cases h
      rfl
    rename_i c rest hs
    split at h
    · cases h
      exact trim_cons_of_not_space (not_space_of_trim hs)
    · split at h
      · cases h
      · exact ih _ _ _ _ h

theorem chained_solid {s r : Bytes} {res : N} (h : chained opOf mk operand stuck s = .ok (res, r)) :
    Solid r := by
  unfold chained at h
  split at h
  · cases h
  · exact chain_solid _ _ _ _ _ h

/-- A parser leaves a suffix of `s`, and where `P` holds it does not get stuck. -/
def Sound (stuck : E) (P : Prop) (s : Bytes) : Except E (N × Bytes) → Prop
  | .ok a => a.2 <:+ s
  | .error e => P → e ≠ stuck

theorem Sound.mono {P Q : Prop} {s s' : Bytes} {x : Except E (N × Bytes)}
    (h : Sound stuck P s' x) (hs : s' <:+ s) (hP : Q → P) : Sound stuck Q s x := by
  cases x with
  | ok a => exact List.IsSuffix.trans h hs
  | error e => exact fun hq => h (hP hq)

/-- The two ways a sound parser can go. -/
@[elab_as_elim]
theorem Sound.elim {P : Prop} {s : Bytes} {x : Except E (N × Bytes)}
    {motive : Except E (N × Bytes) → Prop} (h : Sound stuck P s x)
    (error : ∀ e, (P → e ≠ stuck) → motive (.error e))
    (ok : ∀ a r, r <:+ s → motive (.ok (a, r))) : motive x := by
  cases x with
  | error e => exact error e h
  | ok a => exact ok a.1 a.2 h

/-- A loop is as sound as its operand, if it has a round for each byte and one more. -/
theorem chain_sound {P : Bytes → Prop} (hP : ∀ r s, r <:+ s → P s → P r)
    (hop : ∀ s, Sound stuck (P s) s (operand s)) (n : Nat) :
    ∀ lhs s, Sound stuck (s.length < n ∧ P s) s (chain opOf mk operand stuck n lhs s) := by
  induction n with
  | zero =>
    intro lhs s h
    exact absurd h.1 (Nat.not_lt_zero _)
  | succ n ih =>
    intro lhs s
    rw [chain]
    split
    · exact nil_suffix
    rename_i c rest htrim
    have hsuf : c :: rest <:+ s := htrim ▸ trim_suffix s
    have hrest : rest <:+ s := (suffix_cons c rest).trans hsuf
    split
    · exact hsuf
    refine Sound.elim (hop rest) (fun e he h => he (hP _ _ hrest h.2)) fun rhs s' hs' => ?_
    refine (ih _ s').mono (hs'.trans hrest) fun h => ⟨?_, hP _ _ (hs'.trans hrest) h.2⟩
    have h₁ := hs'.length_le
    have h₂ := hsuf.length_le
    rw [length_cons] at h₂
    omega

theorem chained_sound {P : Bytes → Prop} (hP : ∀ r s, r <:+ s → P s → P r)
    (hop : ∀ s, Sound stuck (P s) s (operand s)) (s : Bytes) :
    Sound stuck (P s) s (chained opOf mk operand stuck s) := by
  unfold chained
  refine Sound.elim (hop s) (fun _ he => he) fun lhs r hr => ?_
  exact (chain_sound hP hop _ lhs r).mono hr fun h => ⟨Nat.lt_succ_self _, hP _ _ hr h⟩

/-! ### Images -/

/-- The values of `q` are those of `p` under `f`. -/
def Image (f : N → M) (p : Parser E N) (q : Parser E M) : Prop :=
  ∀ s, q s = (p s).map fun a => (f a.1, a.2)

variable {mk' : O → M → M → M} {operand' : Parser E M} {f : N → M}

theorem chain_image (hmk : ∀ op a b, mk' op (f a) (f b) = f (mk op a b))
    (hop : Image f operand operand') (n : Nat) : ∀ lhs,
    Image f (chain opOf mk operand stuck n lhs) (chain opOf mk' operand' stuck n (f lhs)) := by
  induction n with
  | zero =>
    intro lhs s
    rfl
  | succ n ih =>
    intro lhs s
    rw [chain, chain]
    split
    · rfl
    rename_i c rest hs
    cases opOf c with
    | none => rfl
    | some op =>
      simp only [hop rest]
      cases operand rest with
      | error e => rfl
      | ok a =>
        obtain ⟨rhs, s'⟩ := a
        simp only [Except.map, hmk]
        exact ih _ s'

theorem chained_image (hmk : ∀ op a b, mk' op (f a) (f b) = f (mk op a b))
    (hop : Image f operand operand') :
    Image f (chained opOf mk operand stuck) (chained opOf mk' operand' stuck) := by
  intro s
  unfold chained
  rw [hop s]
  cases operand s with
  | error e => rfl
  | ok a => exact chain_image hmk hop _ a.1 a.2

end Level

/-! ### Echoes -/

section Echo

variable {jam : Bytes → Prop} {tail : Bytes}

/-- How a second parser answers to what a first read as `a`: it refuses, is jammed, or reads the
same and leaves the tail. -/
def Echo (jam : Bytes → Prop) (tail : Bytes) (a : N × Bytes) (x : Except F (N × Bytes)) : Prop :=
  (∃ e, x = .error e) ∨ (∃ n r, x = .ok (n, r) ∧ jam r) ∨ x = .ok (a.1, a.2 ++ tail)

def Echoes (jam : Bytes → Prop) (tail : Bytes) (p : Parser E N) (q : Parser F N) : Prop :=
  ∀ s a, p s = .ok a → Echo jam tail a (q (s ++ tail))

variable {opOf : UInt8 → Option O} {mk : O → N → N → N} {operand : Parser E N}
  {operand' : Parser F N} {stuck : E} {stuck' : F}

/-- A byte string at which a level stops: nothing, or neither a blank nor an operator. -/
def Stops (opOf : UInt8 → Option O) (s : Bytes) : Prop :=
  Solid s ∧ ∀ c r, s = c :: r → opOf c = none

theorem chain_stops {s : Bytes} (h : Stops opOf s) (n : Nat) (lhs : N) :
    chain opOf mk operand stuck (n + 1) lhs s = .ok (lhs, s) := by
  rw [chain, h.1]
  cases s with
  | nil => rfl
  | cons c r => simp [h.2 c r rfl]

variable (htail : Stops opOf tail) (hjam : ∀ s, jam s → Stops opOf s)
  (hop : Echoes jam tail operand operand')
include htail hjam hop

theorem chain_echoes (n : Nat) :
    ∀ m, n ≤ m → ∀ lhs, Echoes jam tail (chain opOf mk operand stuck n lhs)
      (chain opOf mk operand' stuck' m lhs) := by
  induction n with
  | zero =>
    intro m _ lhs s a h
    cases h
  | succ n ih =>
    intro m hm lhs s a h
    obtain ⟨m, rfl⟩ : ∃ k, m = k + 1 := ⟨m - 1, by omega⟩
    have hnm : n ≤ m := Nat.le_of_succ_le_succ hm
    rw [chain] at h
    split at h
    · -- The first loop has come to its end, the second to the tail.
      rename_i hs
      cases h
      have h' : trim (s ++ tail) = tail := by rw [trim_append htail.1, hs, nil_append]
      have hstop : chain opOf mk operand' stuck' (m + 1) lhs tail = .ok (lhs, tail) :=
        chain_stops htail m lhs
      rw [chain, htail.1] at hstop
      exact .inr (.inr (by rw [chain, h', hstop, nil_append]))
    · rename_i c rest hs
      have h' : trim (s ++ tail) = c :: (rest ++ tail) := by
        rw [trim_append htail.1, hs, cons_append]
      rw [chain, h']
      split at h
      · rename_i hc
        cases h
        exact .inr (.inr (by simp [hc]))
      rename_i op hc
      simp only [hc]
      split at h
      · cases h
      rename_i rhs s' hrhs
      rcases hop rest (rhs, s') hrhs with ⟨e, he⟩ | ⟨x, r, hx, hr⟩ | hx
      · exact .inl ⟨e, by rw [he]⟩
      · simp only [hx]
        cases m with
        | zero => exact .inl ⟨stuck', rfl⟩
        | succ m =>
          exact .inr (.inl ⟨mk op lhs x, r, chain_stops (hjam r hr) m _, hr⟩)
      · rw [hx]
        exact ih m hnm _ s' a h

theorem chained_echoes :
    Echoes jam tail (chained opOf mk operand stuck) (chained opOf mk operand' stuck') := by
  intro s a h
  unfold chained at h ⊢
  split at h
  · cases h
  rename_i lhs r hlhs
  rcases hop s (lhs, r) hlhs with ⟨e, he⟩ | ⟨x, r', hx, hr⟩ | hx
  · exact .inl ⟨e, by rw [he]⟩
  · refine .inr (.inl ⟨x, r', ?_, hr⟩)
    simp only [hx]
    exact chain_stops (hjam r' hr) _ x
  · simp only [hx]
    refine chain_echoes htail hjam hop _ _ ?_ lhs r a h
    simp

end Echo

end Parse
