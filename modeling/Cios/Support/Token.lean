import Cios.Support.Run
import Mathlib.Data.List.ReduceOption

/-!
# Support — single-use tokens

A token is drawn by one of any number of agents, who holds it until it is released; a released
token is live until it is consumed or dropped.  Draws are fresh: no token is drawn twice.  Then no
token is consumed twice (`consumed_nodup`), whatever the interleaving.
-/

namespace Token
open Runs List

variable {ι K : Type}

/-- The tokens drawn so far, those held by an agent, and the live ones. -/
structure State (ι K : Type) where
  drawn : Set K
  held : ι → Option K
  live : Set K

/-- One step, by the token consumed, if any.  Every step may also lose live or held tokens. -/
inductive Step : State ι K → Option K → State ι K → Prop where
  | lose {s s' : State ι K} (hd : s'.drawn = s.drawn)
      (hh : ∀ j k, s'.held j = some k → s.held j = some k) (hl : s'.live ⊆ s.live) :
      Step s none s'
  | draw {s s' : State ι K} (i : ι) (k : K) (hk : k ∉ s.drawn) (hd : s'.drawn = insert k s.drawn)
      (hh : ∀ j k', s'.held j = some k' → j = i ∧ k' = k ∨ s.held j = some k')
      (hl : s'.live ⊆ s.live) : Step s none s'
  | release {s s' : State ι K} (i : ι) (k : K) (hi : s.held i = some k) (hd : s'.drawn = s.drawn)
      (hh : ∀ j k', s'.held j = some k' → j ≠ i ∧ s.held j = some k')
      (hl : s'.live ⊆ insert k s.live) : Step s none s'
  | consume {s s' : State ι K} (k : K) (hk : k ∈ s.live) (hd : s'.drawn = s.drawn)
      (hh : ∀ j k', s'.held j = some k' → s.held j = some k') (hl : s'.live ⊆ s.live \ {k}) :
      Step s (some k) s'

/-- Nothing drawn yet. -/
def start : State ι K := ⟨∅, fun _ => none, ∅⟩

/-- Where a token can be. -/
inductive Place (ι : Type) where
  | held (i : ι)
  | live
  | consumed

def At (consumed : List K) (s : State ι K) (k : K) : Place ι → Prop
  | .held i => s.held i = some k
  | .live => k ∈ s.live
  | .consumed => k ∈ consumed

variable {consumed consumed' : List K} {s s' : State ι K} {k : K} {p : Place ι}

/-- A token is in at most one place, and in none before it is drawn. -/
structure Placed (consumed : List K) (s : State ι K) : Prop where
  nodup : consumed.Nodup
  drawn : ∀ {k p}, At consumed s k p → k ∈ s.drawn
  one : ∀ {k p q}, At consumed s k p → At consumed s k q → p = q

theorem Placed.start : Placed [] (start : State ι K) := by
  have hno : ∀ {k p}, ¬ At [] (Token.start : State ι K) k p := by
    rintro k (_ | _ | _) <;> exact nofun
  exact ⟨.nil, fun h => absurd h hno, fun h => absurd h hno⟩

/-- The token `k` comes to `p` and leaves where it was; no other token gets a place. -/
theorem Placed.move (h : Placed consumed s) (hnodup : consumed'.Nodup)
    (hd : s.drawn ⊆ s'.drawn) (hk : k ∈ s'.drawn)
    (hat : ∀ {k' q}, At consumed' s' k' q → At consumed s k' q ∧ k' ≠ k ∨ k' = k ∧ q = p) :
    Placed consumed' s' := by
  refine ⟨hnodup, fun h' => ?_, fun h₁ h₂ => ?_⟩
  · rcases hat h' with ⟨h', -⟩ | ⟨rfl, -⟩
    · exact hd (h.drawn h')
    · exact hk
  · rcases hat h₁ with ⟨h₁, hne⟩ | ⟨rfl, rfl⟩ <;> rcases hat h₂ with ⟨h₂, hne'⟩ | ⟨he, rfl⟩
    · exact h.one h₁ h₂
    · exact absurd he hne
    · exact absurd rfl hne'
    · rfl

theorem Placed.step {l : Option K} (h : Placed consumed s) (hs : Step s l s') :
    Placed (consumed ++ l.toList) s' := by
  -- The token of a place is not the one that another place has.
  have other : ∀ {k k' p}, At consumed s k p → ∀ q, q ≠ p → At consumed s k' q →
      At consumed s k' q ∧ k' ≠ k := by
    rintro k k' p hk q hq hk'
    refine ⟨hk', ?_⟩
    rintro rfl
    exact hq (h.one hk' hk)
  cases hs with
  | lose hd hh hl =>
    rw [Option.toList_none, append_nil]
    have hat : ∀ {k p}, At consumed s' k p → At consumed s k p := by
      rintro k (j | _ | _) h'
      · exact hh j k h'
      · exact hl h'
      · exact h'
    exact ⟨h.nodup, fun h' => hd ▸ h.drawn (hat h'), fun h₁ h₂ => h.one (hat h₁) (hat h₂)⟩
  | draw i k hk hd hh hl =>
    rw [Option.toList_none, append_nil]
    have fresh : ∀ {k'} q, At consumed s k' q → At consumed s k' q ∧ k' ≠ k := fun q h' =>
      ⟨h', fun he => hk (he ▸ h.drawn h')⟩
    refine h.move (k := k) (p := .held i) h.nodup (fun _ h' => hd ▸ .inr h') (hd ▸ .inl rfl) ?_
    rintro k' (j | _ | _) h'
    · rcases hh j k' h' with ⟨rfl, rfl⟩ | hj
      · exact .inr ⟨rfl, rfl⟩
      · exact .inl (fresh (.held j) hj)
    · exact .inl (fresh .live (hl h'))
    · exact .inl (fresh .consumed h')
  | release i k hi hd hh hl =>
    rw [Option.toList_none, append_nil]
    have hi' : At consumed s k (.held i) := hi
    refine h.move (k := k) (p := .live) h.nodup (fun _ h' => hd ▸ h') (hd ▸ h.drawn hi') ?_
    rintro k' (j | _ | _) h'
    · obtain ⟨hne, hj⟩ := hh j k' h'
      exact .inl (other hi' (.held j) (by simpa using hne) hj)
    · rcases hl h' with rfl | hk'
      · exact .inr ⟨rfl, rfl⟩
      · exact .inl (other hi' .live nofun hk')
    · exact .inl (other hi' .consumed nofun h')
  | consume k hk hd hh hl =>
    have hk' : At consumed s k .live := hk
    have hnew : ∀ k' ∈ consumed, k' ≠ k := fun k' hc => (other hk' .consumed nofun hc).2
    refine h.move (k := k) (p := .consumed) ?_ (fun _ h' => hd ▸ h') (hd ▸ h.drawn hk') ?_
    · exact nodup_append.mpr ⟨h.nodup, by simp, by simpa using hnew⟩
    rintro k' (j | _ | _) h'
    · exact .inl (other hk' (.held j) nofun (hh j k' h'))
    · exact .inl (hl h')
    · rcases mem_append.mp h' with h' | h'
      · exact .inl (other hk' .consumed nofun h')
      · exact .inr ⟨mem_singleton.mp h', rfl⟩

/-- **Single use.**  No run consumes a token twice. -/
theorem consumed_nodup {ls : List (Option K)} {s : State ι K} (h : Run Step start ls s) :
    ls.reduceOption.Nodup := by
  have hinv : Placed ls.reduceOption s := by
    refine h.history (I := fun ls s => Placed ls.reduceOption s) (fun {ls _ l _} hi hs => ?_)
      Placed.start
    have := hi.step hs
    cases l <;> simpa [reduceOption_append] using this
  exact hinv.nodup

end Token
