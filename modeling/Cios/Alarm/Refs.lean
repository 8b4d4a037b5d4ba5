import Cios.Alarm.Expr

/-!
# Alarm — the points an expression reads

The points of an alarm expression are collected by one walk that carries along what it has seen
(`collectRefs`), those of a formula by another that merges the lists of the operands (`Node.refs`).
Both come to the same list, with each point once.  An evaluation looks at nothing else
(`refs_exact`).
-/

namespace Cios.Alarm
open Text List

variable {V : Type}

/-! ### The list -/

/-- One more point, if it is new. -/
def see (seen : List Bytes) (x : Bytes) : List Bytes :=
  if seen.contains x then seen else seen ++ [x]

/-- `Refs` of an operand (`pkg/arith`). -/
def Node.refs : Node V → List Bytes
  | .num _ => []
  | .ident name => [name]
  | .binOp _ l r => r.refs.foldl see l.refs
  | .logical _ xs => xs.collectRefs []

variable {seen xs : List Bytes} {x y : Bytes}

theorem see_of_mem (h : x ∈ seen) : see seen x = seen := by simp [see, h]

theorem see_of_not_mem (h : x ∉ seen) : see seen x = seen ++ [x] := by simp [see, h]

theorem mem_foldl_see (xs : List Bytes) : ∀ seen, y ∈ xs.foldl see seen ↔ y ∈ seen ∨ y ∈ xs := by
  induction xs with
  | nil => simp
  | cons x xs ih =>
    intro seen
    rw [foldl_cons, ih]
    by_cases h : x ∈ seen
    · rw [see_of_mem h, mem_cons]
      constructor
      · exact Or.imp_right .inr
      · rintro (h' | rfl | h')
        · exact .inl h'
        · exact .inl h
        · exact .inr h'
    · simp [see_of_not_mem h, or_assoc]

theorem nodup_foldl_see (xs : List Bytes) : ∀ seen, seen.Nodup → (xs.foldl see seen).Nodup := by
  induction xs with
  | nil => exact fun _ => id
  | cons x xs ih =>
    intro seen hseen
    refine ih _ ?_
    by_cases h : x ∈ seen
    · rwa [see_of_mem h]
    · rw [see_of_not_mem h]
      refine nodup_append.mpr ⟨hseen, by simp, fun y hy z hz e => h ?_⟩
      rwa [← mem_singleton.mp hz, ← e]

/-- Points can be added one list after the other, or the two merged first. -/
theorem foldl_foldl_see (ys : List Bytes) : ∀ xs,
    (ys.foldl see xs).foldl see seen = ys.foldl see (xs.foldl see seen) := by
  induction ys with
  | nil => exact fun _ => rfl
  | cons y ys ih =>
    intro xs
    rw [foldl_cons, foldl_cons, ih]
    by_cases h : y ∈ xs
    · rw [see_of_mem h, see_of_mem ((mem_foldl_see xs seen).mpr (.inr h))]
    · rw [see_of_not_mem h, foldl_append]
      rfl

mutual

/-- What is collected does not depend on what was seen before, but for what is left out. -/
theorem Node.collectRefs_eq : ∀ (n : Node V) (seen : List Bytes),
    n.collectRefs seen = (n.collectRefs []).foldl see seen
  | .num _, _ => rfl
  | .ident name, seen => by simp [Node.collectRefs, see]
  | .binOp _ l r, seen => by
    rw [Node.collectRefs, Node.collectRefs, r.collectRefs_eq (l.collectRefs seen),
      r.collectRefs_eq (l.collectRefs []), l.collectRefs_eq seen, foldl_foldl_see]
  | .logical _ xs, seen => xs.collectRefs_eq seen

theorem Clauses.collectRefs_eq : ∀ (cs : Clauses V) (seen : List Bytes),
    cs.collectRefs seen = (cs.collectRefs []).foldl see seen
  | .nil, _ => rfl
  | .cons _ l r rest, seen => by
    rw [Clauses.collectRefs, Clauses.collectRefs, rest.collectRefs_eq (r.collectRefs _),
      rest.collectRefs_eq (r.collectRefs (l.collectRefs [])), r.collectRefs_eq (l.collectRefs seen),
      r.collectRefs_eq (l.collectRefs []), l.collectRefs_eq seen, foldl_foldl_see, foldl_foldl_see]

end

theorem Node.mem_collectRefs (n : Node V) :
    x ∈ n.collectRefs seen ↔ x ∈ seen ∨ x ∈ n.collectRefs [] := by
  rw [n.collectRefs_eq, mem_foldl_see]

theorem Clauses.mem_collectRefs (cs : Clauses V) :
    x ∈ cs.collectRefs seen ↔ x ∈ seen ∨ x ∈ cs.collectRefs [] := by
  rw [cs.collectRefs_eq, mem_foldl_see]

theorem Clauses.nodup_collectRefs (cs : Clauses V) : (cs.collectRefs []).Nodup := by
  rw [cs.collectRefs_eq]
  exact nodup_foldl_see _ _ nodup_nil

theorem Node.refs_eq : ∀ n : Node V, n.refs = n.collectRefs []
  | .num _ => rfl
  | .ident _ => rfl
  | .binOp _ l r => by
    rw [Node.refs, l.refs_eq, r.refs_eq, ← r.collectRefs_eq]
    rfl
  | .logical _ _ => rfl

/-! ### What an evaluation reads -/

/-- The evaluation looks at these points alone. -/
structure Reads (f : Snapshot V → Except EvalError β) (xs : List Bytes) : Prop where
  agree : ∀ s s', (∀ x ∈ xs, s x = s' x) → f s = f s'
  missing : ∀ s, f s = .error .undefined → ∃ x ∈ xs, s x = none

theorem Reads.const {r : Except EvalError β} (h : r ≠ .error .undefined) :
    Reads (fun _ : Snapshot V => r) xs :=
  ⟨fun _ _ _ => rfl, fun _ he => absurd he h⟩

theorem Reads.bind {f : Snapshot V → Except EvalError β} {g : β → Snapshot V → Except EvalError γ}
    (hf : Reads f xs) (hg : ∀ a, Reads (g a) xs) : Reads (fun s => f s >>= fun a => g a s) xs where
  agree s s' h := by
    rw [hf.agree s s' h]
    cases f s' with
    | error e => rfl
    | ok a => exact (hg a).agree s s' h
  missing s h := by
    cases hs : f s with
    | error e =>
      rw [hs] at h
      exact hf.missing s (hs.trans (congrArg _ (Except.error.inj h)))
    | ok a =>
      rw [hs] at h
      exact (hg a).missing s h

variable [Num V]

theorem BinOp.apply_ne_undefined (op : BinOp) (a b : V) : op.apply a b ≠ .error .undefined := by
  cases op <;> simp only [BinOp.apply, ne_eq, reduceCtorEq, not_false_eq_true]
  split <;> simp

mutual

theorem Node.reads : ∀ (n : Node V), n.collectRefs [] ⊆ xs → Reads (fun s => n.eval s) xs
  | .num v, _ => .const (r := .ok v) (by simp)
  | .ident name, h => by
    have hname : name ∈ xs := h (by simp [Node.collectRefs])
    refine ⟨fun s s' hs => by simp [Node.eval, hs name hname], fun s he => ⟨name, hname, ?_⟩⟩
    cases hs : s name with
    | none => rfl
    | some v => simp [Node.eval, hs] at he
  | .binOp op l r, h => by
    have hmem : ∀ x, x ∈ l.collectRefs [] ∨ x ∈ r.collectRefs [] → x ∈ xs :=
      fun x hx => h (r.mem_collectRefs.mpr hx)
    have hl := l.reads fun x hx => hmem x (.inl hx)
    have hr := r.reads fun x hx => hmem x (.inr hx)
    simpa only [Node.eval] using
      hl.bind fun a => hr.bind fun b => .const (op.apply_ne_undefined a b)
  | .logical kind cs, h => by
    simpa only [Node.eval] using
      (cs.reads kind h).bind fun b => .const (r := .ok (boolToFloat b)) (by simp)

theorem Clauses.reads : ∀ (cs : Clauses V) (kind : Connective), cs.collectRefs [] ⊆ xs →
    Reads (fun s => cs.eval s kind) xs
  | .nil, kind, _ => .const (r := .ok (decide (kind = .and))) (by simp)
  | .cons op l r rest, kind, h => by
    have hmem : ∀ x, x ∈ l.collectRefs [] ∨ x ∈ r.collectRefs [] ∨ x ∈ rest.collectRefs [] →
        x ∈ xs := by
      intro x hx
      refine h (rest.mem_collectRefs.mpr ?_)
      rw [r.mem_collectRefs]
      exact or_assoc.mpr hx
    have hl := l.reads fun x hx => hmem x (.inl hx)
    have hr := r.reads fun x hx => hmem x (.inr (.inl hx))
    have hrest := rest.reads kind fun x hx => hmem x (.inr (.inr hx))
    refine hl.bind fun a => hr.bind fun b => ?_
    -- The comparison decides, or the rest does.
    cases kind <;> cases op.holds a b
    · exact .const (by simp)
    · exact hrest
    · exact hrest
    · exact .const (by simp)

end

/-- **The listed points are all that is read.**  The list of a formula or an alarm expression has
each point once, and an evaluation depends on nothing else. -/
theorem refs_exact :
    (∀ n : Node V, n.refs.Nodup ∧ Reads (fun s => n.eval s) n.refs) ∧
      ∀ e : Compiled V, e.refs.Nodup ∧ Reads e.eval e.refs := by
  refine ⟨fun n => ?_, fun e => ⟨e.xs.nodup_collectRefs, e.xs.reads e.kind (List.Subset.refl _)⟩⟩
  rw [n.refs_eq]
  refine ⟨?_, n.reads (List.Subset.refl _)⟩
  rw [n.collectRefs_eq]
  exact nodup_foldl_see _ _ nodup_nil

end Cios.Alarm
