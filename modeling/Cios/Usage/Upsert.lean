import Cios.Usage.Billing

/-!
# Usage — one record for each fact

A usage record is upserted under a natural key: kind, asset, period and granularity, joined by bars
(`core/usage.go`).  The key determines them (`naturalKey_inj`), and a call without an id of its own
goes to the record of its key (`usages_keyed`).  A call that brings an id is stored under it
whatever the key is, so that a fact can have two records.
-/

namespace Cios.Usage
open Text List
open Runs (Run)
open Cios.Store

variable {V : Type}

abbrev Fact := UsageKind × Bytes × Int × Int × UsageGranularity

abbrev UsageCall (V : Type) := WorkAmbient × UsageRecord V

def factOf (u : UsageRecord V) : Fact :=
  (u.kind, u.assetPath, u.periodStart, u.periodEnd, u.granularity)

/-- A call of `UpsertUsage`.  Times are written by `fmt`, and a new id is no record's. -/
structure Upserted (fmt : Int → Bytes) (m : Memory V) (l : UsageCall V) (m' : Memory V) :
    Prop where
  format : l.1.rfc3339Nano = fmt
  visits : ∀ id u, m.usages[id]? = some u → id ∈ l.1.usageOrder
  fresh : l.1.newUsageID ≠ [] ∧ m.usages[l.1.newUsageID]? = none
  store : m' = ((m.upsertUsage l.1 l.2).outcome l.1 m).2

/-- The calls that have saved a record of the fact. -/
def savesOf (ls : List (UsageCall V)) (fact : Fact) : List (UsageCall V) :=
  ls.filter fun l => l.1.save = none ∧ factOf l.2 = fact

/-- The records are those of the facts, under the first save's id and as the last one has them. -/
def Keyed (ls : List (UsageCall V)) (m : Memory V) : Prop :=
  ∀ id u, m.usages[id]? = some u ↔ ∃ first last, (savesOf ls (factOf u)).head? = some first ∧
    (savesOf ls (factOf u)).getLast? = some last ∧ id = first.1.newUsageID ∧
    u = { last.2 with id := id }

section Runs

variable {fmt : Int → Bytes} {m m₀ m' : Memory V} {ls : List (UsageCall V)} {l : UsageCall V}

theorem savesOf_snoc {fact : Fact} : savesOf (ls ++ [l]) fact =
    savesOf ls fact ++ if l.1.save = none ∧ factOf l.2 = fact then [l] else [] := by
  rw [savesOf, filter_append, filter_singleton]
  simp [savesOf]

variable (hbars : ∀ t, ('|' : UInt8) ∉ fmt t) (hfmt : Function.Injective fmt)
include hbars hfmt

theorem naturalKey_iff {amb : WorkAmbient} (hamb : amb.rfc3339Nano = fmt) (u v : UsageRecord V) :
    Memory.usageNaturalKey amb u = Memory.usageNaturalKey amb v ↔ factOf u = factOf v := by
  subst hamb
  constructor
  · intro h
    obtain ⟨hkind, hpath, hstart, hend, hgran⟩ := naturalKey_inj hbars h
    have hkind' : u.kind = v.kind := by
      revert hkind
      cases u.kind <;> cases v.kind <;> decide
    have hgran' : u.granularity = v.granularity := by
      revert hgran
      cases u.granularity <;> cases v.granularity <;> decide
    rw [factOf, hkind', hpath, hfmt hstart, hfmt hend, hgran', factOf]
  · intro h
    simp only [factOf, Prod.mk.injEq] at h
    simp [Memory.usageNaturalKey, h]

/-- A record without an id is saved under the id of the first save of its fact. -/
theorem Keyed.first_id (hm : Keyed ls m) (h : Upserted fmt m l m') (hid : l.2.id = [])
    (hnew : ∀ l ∈ ls, l.1.newUsageID ≠ []) :
    ∃ first, (savesOf ls (factOf l.2) ++ [l]).head? = some first ∧
      m.usageID l.1 l.2 = first.1.newUsageID := by
  have hnil : m.usages[([] : Bytes)]? = none := by
    refine Option.eq_none_iff_forall_ne_some.mpr fun u hu => ?_
    obtain ⟨first, -, hhead, -, heq, -⟩ := (hm [] u).mp hu
    exact hnew first (mem_of_mem_filter (mem_of_mem_head? hhead)) heq.symm
  rcases usageID_cases hid with ⟨old, hold, hkey⟩ | ⟨hnew, hno⟩
  · obtain ⟨first, -, hhead, -, heq, -⟩ := (hm _ old).mp hold
    rw [(naturalKey_iff hbars hfmt h.format _ _).mp hkey] at hhead
    exact ⟨first, by simp [hhead], heq⟩
  rcases eq_nil_or_concat (savesOf ls (factOf l.2)) with hsaves | ⟨init, last, hsaves⟩
  · exact ⟨l, by rw [hsaves]; rfl, hnew⟩
  -- an earlier save has left a record, which is visited
  have hmem : last ∈ savesOf ls (factOf l.2) := by simp [hsaves]
  have hlast : factOf last.2 = factOf l.2 := (of_decide_eq_true (mem_filter.mp hmem).2).2
  obtain ⟨first, rest, hcons⟩ := exists_cons_of_ne_nil (ne_nil_of_mem hmem)
  rw [← hlast] at hcons hsaves
  have hold := (hm _ { last.2 with id := first.1.newUsageID }).mpr ⟨first, last,
    congrArg head? hcons, (congrArg getLast? hsaves).trans (by simp), rfl, rfl⟩
  have hkey := (naturalKey_iff hbars hfmt h.format _ l.2).mpr hlast
  exact (hno hnil _ (h.visits _ _ hold) _ hold hkey).elim

theorem Upserted.fact_of_stored {u : UsageRecord V} (h : Upserted fmt m l m') (hid : l.2.id = [])
    (hu : m.usages[m.usageID l.1 l.2]? = some u) : factOf l.2 = factOf u := by
  rcases usageID_cases hid with ⟨old, hold, hkey⟩ | ⟨hnew, -⟩
  · cases hu.symm.trans hold
    exact ((naturalKey_iff hbars hfmt h.format _ _).mp hkey).symm
  · rw [hnew, h.fresh.2] at hu
    cases hu

/-- **One call.** -/
theorem Keyed.step (hm : Keyed ls m) (h : Upserted fmt m l m') (hid : l.2.id = [])
    (hnew : ∀ l ∈ ls, l.1.newUsageID ≠ []) : Keyed (ls ++ [l]) m' := by
  intro id u
  rw [h.store]
  cases hsave : l.1.save with
  | some e =>
    obtain ⟨f, hf⟩ := @upsertUsage_failed _ m l.1 l.2 _ hsave
    rw [hf, savesOf_snoc, if_neg (by simp [hsave]), append_nil]
    exact hm id u
  | none =>
    obtain ⟨first, hhead, hfirst⟩ := Keyed.first_id hbars hfmt hm h hid hnew
    rw [upsertUsage_saved hsave]
    rw [Std.ExtTreeMap.getElem?_insert]
    simp only [Std.LawfulEqCmp.compare_eq_iff_eq]
    by_cases hfact : factOf l.2 = factOf u
    · have hsaves : savesOf (ls ++ [l]) (factOf u) = savesOf ls (factOf l.2) ++ [l] := by
        rw [savesOf_snoc, if_pos ⟨hsave, hfact⟩, hfact]
      rw [hsaves, hhead, getLast?_append]
      simp only [Option.some.injEq, hfirst]
      split_ifs with heq
      · subst heq
        simp [eq_comm]
      refine iff_of_false (fun hold => heq ?_) ?_
      · obtain ⟨first', -, hhead', -, heq', -⟩ := (hm id u).mp hold
        rw [← hfact] at hhead'
        rw [head?_append, hhead'] at hhead
        cases hhead
        exact heq'.symm
      · rintro ⟨_, _, rfl, -, rfl, -⟩
        exact heq rfl
    · have hsaves : savesOf (ls ++ [l]) (factOf u) = savesOf ls (factOf u) := by
        rw [savesOf_snoc, if_neg fun hsaved => hfact hsaved.2, append_nil]
      rw [hsaves, ← hm id u]
      split_ifs with heq
      · subst heq
        refine iff_of_false (fun hu => hfact ?_) fun hold => hfact ?_
        · cases hu
          rfl
        · exact h.fact_of_stored hbars hfmt hid hold
      · rfl

/-- **One record for each fact.**  The natural key determines the fact; and along calls without an
id of their own, every saved fact has one record, with the id of its first save and the fields of
its last. -/
theorem usages_keyed (hm₀ : m₀.usages = ∅) (hrun : Run (Upserted fmt) m₀ ls m)
    (hid : ∀ l ∈ ls, l.2.id = []) :
    (∀ amb : WorkAmbient, amb.rfc3339Nano = fmt → ∀ u v : UsageRecord V,
        Memory.usageNaturalKey amb u = Memory.usageNaturalKey amb v ↔ factOf u = factOf v) ∧
      Keyed ls m := by
  refine ⟨fun amb hamb => naturalKey_iff hbars hfmt hamb, ?_⟩
  have hall : (∀ l ∈ ls, l.2.id = []) → Keyed ls m ∧ ∀ l ∈ ls, l.1.newUsageID ≠ [] := by
    refine hrun.history (I := fun ls m => (∀ l ∈ ls, l.2.id = []) → Keyed ls m ∧
      ∀ l ∈ ls, l.1.newUsageID ≠ []) ?_ ?_
    · intro ls m l m' ih h hid
      rw [forall_mem_append] at hid
      obtain ⟨hkeyed, hnew⟩ := ih hid.1
      refine ⟨Keyed.step hbars hfmt hkeyed h (hid.2 l mem_cons_self) hnew, ?_⟩
      exact forall_mem_append.mpr ⟨hnew, forall_mem_singleton.mpr h.fresh.1⟩
    · intro _
      refine ⟨fun id u => ?_, by simp⟩
      simp [hm₀, savesOf]
  exact (hall hid).1

end Runs

def unary (t : Int) : Bytes := replicate t.toNat 0 ++ replicate (-t).toNat 1

theorem unary_injective : Function.Injective unary := by
  intro a b h
  have hzeros := congrArg (count 0) h
  have hones := congrArg (count 1) h
  simp [unary, count_replicate] at hzeros hones
  omega

theorem unary_bars (t : Int) : ('|' : UInt8) ∉ unary t := by
  have hbar : ('|' : UInt8) ≠ 0 ∧ ('|' : UInt8) ≠ 1 := by decide
  simp [unary, hbar]

def storing (id : Bytes) : UsageCall Nat :=
  ({ saving "us_1" [] with rfc3339Nano := unary }, { dayRecord "acme" with id := id })

def stored (m : Memory Nat) (l : UsageCall Nat) : Memory Nat :=
  ((m.upsertUsage l.1 l.2).outcome l.1 m).2

theorem usages_keyed_day : Keyed [storing []] (stored Memory.empty (storing [])) := by
  have hstep : Upserted unary Memory.empty (storing []) (stored Memory.empty _) :=
    ⟨rfl, by simp [Memory.empty], ⟨by decide, by decide⟩, rfl⟩
  exact (usages_keyed unary_bars unary_injective rfl (.more hstep (.refl _)) (by simp [storing])).2

/-- Two ids are brought for one fact, and it has two records. -/
theorem fact_recorded_twice :
    let m := stored (stored Memory.empty (storing "a")) (storing "b")
    m.usages[lit "a"]? = some { dayRecord "acme" with id := "a" } ∧
      m.usages[lit "b"]? = some { dayRecord "acme" with id := "b" } :=
  ⟨rfl, rfl⟩

end Cios.Usage
