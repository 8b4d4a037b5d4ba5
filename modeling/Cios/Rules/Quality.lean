import Cios.Rules.Samples

/-!
# Rules — the quality of derived samples

A tick stamps every sample it derives as good, and takes for each point of the formula the value of
the last series that comes back for it (`cmd/cios-rules/main.go`).  Nothing looks at the quality
label or at the age of a value (`derived_quality_iff`).
-/

namespace Cios.Rules
open Text Effect List
open Cios.Alarm (Num)
open Cios.Promproj (Labels)

variable {V : Type} {t : Tick V} {d : Derived V} {series : List (Series V)} {key : BucketKey}
variable (age : Series V → Int)

/-- The series that the value of a point in a bucket is taken from. -/
def takenFrom (t : Tick V) (refs : List Bytes) (series : List (Series V)) (key : BucketKey)
    (r : Bytes) : Option (Series V) :=
  (series.filter fun s => placeOf t refs s = some (key, r)).getLast?

/-- A good series of the point, and no other is more recent. -/
structure Sound (t : Tick V) (refs : List Bytes) (age : Series V → Int) (series : List (Series V))
    (key : BucketKey) (r : Bytes) (s : Series V) : Prop where
  good : s.labels "quality" = "good"
  latest : ∀ s' ∈ series, placeOf t refs s' = some (key, r) → age s ≤ age s'

theorem mem_of_takenFrom {r : Bytes} {s : Series V}
    (h : takenFrom t d.refs series key r = some s) :
    s ∈ series ∧ placeOf t d.refs s = some (key, r) := by
  simpa using mem_filter.mp (mem_of_getLast? h)

/-- What is returned last is taken. -/
theorem takenFrom_snoc {r : Bytes} {s : Series V} (h : placeOf t d.refs s = some (key, r)) :
    takenFrom t d.refs (series ++ [s]) key r = some s := by
  simp [takenFrom, h]

variable [Num V] {evs : List (Event VmOp (VmOp.Ret V))} {out : List (Sample V)} {smp : Sample V}

/-- **Quality of derived samples.**  A sample is the formula's value on the series the points are
taken from.  In every order of the returned series these are good, and the most recent of their
points, exactly when all series of the points are. -/
theorem derived_quality_iff (hrun : (processOne t d).Fed evs (.done (some out)))
    (hsmp : smp ∈ out) :
    (d.formula.eval fun r => (takenFrom t d.refs (returned evs) smp.key r).map (·.value)) =
        .ok smp.value ∧
      ((∀ order, order ~ returned evs → ∀ r ∈ d.refs, ∃ s,
          takenFrom t d.refs order smp.key r = some s ∧ Sound t d.refs age order smp.key r s) ↔
        ∀ r ∈ d.refs, ∀ s ∈ returned evs, placeOf t d.refs s = some (smp.key, r) →
          Sound t d.refs age (returned evs) smp.key r s) := by
  have heval := ((processOne_samples hrun smp.key smp.value).mp ⟨smp, hsmp, rfl, rfl⟩).2.1
  have hvalue : (bucketByPrefix t (returned evs) d.refs).value smp.key =
      fun r => (takenFrom t d.refs (returned evs) smp.key r).map (·.value) :=
    funext fun r => value_bucketByPrefix
  rw [hvalue] at heval
  refine ⟨heval, fun h r hr s hs hplace => ?_, fun h order hperm r hr => ?_⟩
  · obtain ⟨l, m, hlm⟩ := append_of_mem hs
    have hperm : l ++ m ++ [s] ~ returned evs := by
      rw [hlm, append_assoc]
      exact (perm_append_comm : m ++ [s] ~ [s] ++ m).append_left l
    obtain ⟨s', hs', hsound⟩ := h _ hperm r hr
    cases (takenFrom_snoc hplace).symm.trans hs'
    exact ⟨hsound.good, fun s' hmem => hsound.latest s' (hperm.mem_iff.mpr hmem)⟩
  · obtain ⟨x, hx⟩ := Formula.refs_present heval r hr
    obtain ⟨s, hs, -⟩ := Option.map_eq_some_iff.mp hx
    obtain ⟨hmem, hplace⟩ := mem_of_takenFrom hs
    have hin : s ∈ order.filter fun s => placeOf t d.refs s = some (smp.key, r) :=
      mem_filter.mpr ⟨hperm.mem_iff.mpr hmem, by simpa using hplace⟩
    obtain ⟨s', hs'⟩ := Option.isSome_iff_exists.mp (getLast?_isSome.mpr (ne_nil_of_mem hin))
    obtain ⟨hmem', hplace'⟩ := mem_of_takenFrom hs'
    have hsound := h r hr s' (hperm.mem_iff.mp hmem') hplace'
    exact ⟨s', hs', hsound.good, fun s'' hin => hsound.latest s'' (hperm.mem_iff.mp hin)⟩

def labelled (quality : Bytes) (row : Labels × Option Rat) : Labels × Option Rat :=
  (fun label => if label = "quality" then quality else row.1 label, row.2)

def goodTemps : List (Event VmOp (VmOp.Ret Rat)) :=
  askedTemps [labelled "good" (unitTemp "fws" "return" 30),
    labelled "good" (unitTemp "fws" "supply" 18)]

theorem derived_quality_iff_loop : ∃ out smp,
    (processOne coolantTick deltat).Fed goodTemps (.done (some out)) ∧ smp ∈ out ∧
    (deltat.formula.eval fun r =>
      (takenFrom coolantTick deltat.refs (returned goodTemps) smp.key r).map (·.value)) =
        .ok smp.value ∧
    ∀ order, order ~ returned goodTemps → ∀ r ∈ deltat.refs, ∃ s,
      takenFrom coolantTick deltat.refs order smp.key r = some s ∧
        Sound coolantTick deltat.refs (fun _ => 0) order smp.key r s := by
  have hrun : (processOne coolantTick deltat).Fed goodTemps (.done (some _)) := .cons <| .nil _
  obtain ⟨heval, hiff⟩ := derived_quality_iff (fun _ => 0) hrun mem_cons_self
  refine ⟨_, _, hrun, mem_cons_self, heval, hiff.mpr fun r _ s hs _ => ⟨?_, fun _ _ _ => le_rfl⟩⟩
  have hgood : ∀ s ∈ returned goodTemps, s.labels "quality" = "good" := by
    rw [show returned goodTemps = [_, _] from rfl]
    simp only [forall_mem_cons]
    exact ⟨rfl, rfl, by simp⟩
  exact hgood s hs

def twoSupplies : List (Event VmOp (VmOp.Ret Rat)) :=
  askedTemps [unitTemp "fws" "return" 30, unitTemp "fws" "supply" 18,
    labelled "suspect" (unitTemp "fws" "supply" 99)]

/-- The second series is suspect, and its value is used. -/
theorem suspect_supply_used : ∃ out, ∃ s : Series Rat,
    (processOne coolantTick deltat).Fed twoSupplies (.done (some out)) ∧
    out.map (·.value) = [30 - 99] ∧ s.labels "quality" = "suspect" ∧
    takenFrom coolantTick deltat.refs (returned twoSupplies) ⟨"sgp01.cdu000", "fws"⟩
      "supply.temp" = some s :=
  ⟨_, _, .cons <| .nil _, by decide +kernel, rfl, rfl⟩

end Cios.Rules
