import Cios.Usage.Scan

/-!
# Usage — metered energy

VictoriaMetrics evaluates `increase(…[24h])` over the window that ends when the query arrives, and
the scanner sends no time with it (`fetchVMScalar`).  So the record of a day holds what the counter
gained in the twenty-four hours before the tick asked (`energy_increase_iff`).
-/

namespace Cios.Usage
open Text Effect Prog Under Option
open Cios.Store
open Cios.Http.Core (Op)

variable {V Loc : Type}

/-! ### A counter -/

/-- The history of a counter: its samples, each by its time and by how much the counter grew. -/
abbrev History (V : Type) := List (Int × V)

section Counter

variable [AddCancelCommMonoid V]

/-- What the counter gained at the times in a set. -/
def gained (h : History V) (during : Int → Bool) : V :=
  ((h.filter fun x => during x.1).map (·.2)).sum

/-- `increase` over a window, evaluated at an instant: no answer without a sample. -/
def increase (h : History V) (window t : Int) : Option V :=
  let during := fun x => decide (t - window < x ∧ x ≤ t)
  if h.any fun x => during x.1 then some (gained h during) else none

/-- The gain at the times of one of two sets that have none in common. -/
theorem gained_split (h : History V) {I J K : Int → Bool} (hI : ∀ x, I x ↔ J x ∨ K x)
    (hdisj : ∀ x, J x → ¬K x) : gained h I = gained h J + gained h K := by
  induction h with
  | nil => simp [gained]
  | cons x h ih =>
    simp only [gained, List.filter_cons, hI x.1] at ih ⊢
    by_cases hJ : J x.1 = true
    · simp [hJ, hdisj _ hJ, ih, add_assoc]
    · by_cases hK : K x.1 = true
      · simp [hJ, hK, ih, add_left_comm]
      · simp [hJ, hK, ih]

/-- Two windows of one length hold the same gain exactly when what each has alone is the same. -/
theorem gained_shift (h : History V) {start stop t w : Int} (hpos : 0 ≤ w) (hw : stop = start + w)
    (ht : stop ≤ t) :
    gained h (fun x => decide (t - w < x ∧ x ≤ t)) =
      gained h (fun x => decide (start ≤ x ∧ x < stop))
      ↔ gained h (fun x => decide (start ≤ x ∧ x ≤ t - w)) =
        gained h (fun x => decide (stop ≤ x ∧ x ≤ t)) := by
  have hwindow : gained h (fun x => decide (start ≤ x ∧ x ≤ t)) =
      gained h (fun x => decide (start ≤ x ∧ x ≤ t - w)) +
        gained h (fun x => decide (t - w < x ∧ x ≤ t)) := by
    apply gained_split
    iterate 2
      · intro x
        simp only [decide_eq_true_eq]
        omega
  have hperiod : gained h (fun x => decide (start ≤ x ∧ x ≤ t)) =
      gained h (fun x => decide (stop ≤ x ∧ x ≤ t)) +
        gained h (fun x => decide (start ≤ x ∧ x < stop)) := by
    apply gained_split
    iterate 2
      · intro x
        simp only [decide_eq_true_eq]
        omega
  rw [hwindow] at hperiod
  constructor
  · intro heq
    rw [heq] at hperiod
    exact add_right_cancel hperiod
  · intro heq
    rw [heq] at hperiod
    exact add_left_cancel hperiod

end Counter

/-! ### A tick -/

section Tick

variable {s : Scanner V Loc} {evs : List (Event (ScanOp V) ScanOp.Ret)}
  {path : Bytes} {h : History V} {counter watts : Option V} {t now : Int}

/-- The energy of a day from what is answered: the increase, or else an estimate. -/
def reading (s : Scanner V Loc) (counter watts : Option V) : Option V :=
  match counter with
  | some kwh => some kwh
  | none => watts.map (s.estimate (s.num.hours day))

/-- The record of the asset's energy on the day before `now` has the reading. -/
def Metered (s : Scanner V Loc) (path : Bytes) (counter watts : Option V) (now : Int)
    (u : UsageRecord V) : Prop :=
  u.kind = .energy → u.granularity = .daily → u.assetPath = path →
    (u.periodStart, u.periodEnd) = previousUTCDay now ∧ reading s counter watts = some u.quantity

theorem Metered.enriched {u u' : UsageRecord V} (hu : Metered s path counter watts now u)
    {A : (op : Op V) → op.Ret → Prop} (he : Enriched A u u') :
    Metered s path counter watts now u' := by
  obtain ⟨_, _, rfl, -⟩ := he
  exact hu

theorem windowOf_day (stop : Int) : windowOf (stop - day) stop = "24h" := by
  have hlen : stop - (stop - day) = day := by omega
  rw [windowOf, hlen]
  decide

variable [AddCancelCommMonoid V]

/-- VictoriaMetrics' answers about an asset: its counter's increase at `t`, or nothing, and its
average power. -/
structure Answered (s : Scanner V Loc) (evs : List (Event (ScanOp V) ScanOp.Ret)) (path : Bytes)
    (h : History V) (counter watts : Option V) (t : Int) : Prop where
  energy : ∀ r, ⟨.core (.outside (.fetchVM (energyQuery path "24h"))), r⟩ ∈ evs →
    s.scalar r = counter
  power : ∀ r, ⟨.core (.outside (.fetchVM (powerQuery path "24h"))), r⟩ ∈ evs → s.scalar r = watts
  evaluated : ∀ kwh, counter = some kwh → increase h day t = some kwh

theorem fetchKWh_reading {R : UsageRecord V → Prop} (ha : Answered s evs path h counter watts t)
    (p : Bytes) :
    (s.fetchKWh p "24h" (s.num.hours day)).Under (fun op r => ⟨op, r⟩ ∈ evs) (Upserts R)
      fun r => ∀ kwh, r = some kwh → p = path → reading s counter watts = some kwh := by
  refine mono ?_ (fetchKWh_under (A := fun r => p = path → r = counter)
    (B := fun r => p = path → r = watts) ?_ ?_)
  · rintro r (⟨kwh, hk, rfl⟩ | ⟨hnone, w, hw, rfl⟩)
    · rintro kwh' ⟨⟩ hp
      rw [← hk hp]
      rfl
    · intro kwh hkwh hp
      rw [← hnone hp, ← hw hp]
      exact hkwh
  · intro r hr hp
    exact ha.energy r (hp ▸ hr)
  · intro r hr hp
    exact ha.power r (hp ▸ hr)

/-- **What a tick stores of an asset's energy is the reading.** -/
theorem scanUsageTick_metered {q : Scan V Unit} (hrun : (s.scanUsageTick now).Fed evs q)
    (ha : Answered s evs path h counter watts t) :
    ∀ ev ∈ evs, Upserts (Metered s path counter watts now) ev.op := by
  have hunder : (s.scanUsageTick now).Under (fun op r => ⟨op, r⟩ ∈ evs)
      (Upserts (Metered s path counter watts now)) fun _ => True := by
    refine scanUsageTick_under (C := Metered s path counter watts now) ?_ ?_ ?_
    · intro u hu
      refine mono ?_ (enrichUsage_under (fun _ => trivial) u)
      intro res hres u' hu'
      exact hu.enriched (hres u' hu')
    · intro assets
      have hlen : (previousUTCDay now).2 - (previousUTCDay now).1 = day := by
        simp only [previousUTCDay]
        omega
      refine mono ?_ (computeUsageWindow_under
        (F := fun p kwh => p = path → reading s counter watts = some kwh) ?_ assets)
      · intro us hus u hu hkind _ hpath
        obtain ⟨_, _, _, hform⟩ := (hus u hu).form
        refine ⟨?_, (hus u hu).energy hkind hpath⟩
        rw [hform]
        rfl
      · intro p
        rw [hlen, previousUTCDay, windowOf_day]
        exact fetchKWh_reading ha p
    · intro assets start stop
      refine mono ?_ (computeUsageWindow_under (F := fun _ _ => True) ?_ assets)
      · intro us hus u hu _ hdaily _
        obtain ⟨_, _, _, hform⟩ := (hus u hu).form
        rw [hform] at hdaily
        cases hdaily
      · intro p
        refine mono (fun _ _ _ _ => trivial)
          (fetchKWh_under (A := fun _ => True) (B := fun _ => True) ?_ ?_)
        iterate 2 exact fun _ _ => trivial
  exact hunder.fed hrun fun ev hev => hev

/-- The window holds as much as the day: the counter gained as much from the day's start to the
window's as from the day's end to the query.  Without an answer on the counter, the estimate has to
be right. -/
def Coincides (s : Scanner V Loc) (h : History V) (counter watts : Option V) (start stop t : Int) :
    Prop :=
  if counter.isSome then
    gained h (fun x => decide (start ≤ x ∧ x ≤ t - day)) =
      gained h (fun x => decide (stop ≤ x ∧ x ≤ t))
  else watts.map (s.estimate (s.num.hours day)) =
    some (gained h fun x => decide (start ≤ x ∧ x < stop))

theorem increase_eq_some {kwh : V} {w : Int} (hinc : increase h w t = some kwh) :
    kwh = gained h (fun x => decide (t - w < x ∧ x ≤ t)) := by
  simp only [increase] at hinc
  split_ifs at hinc
  exact (some.inj hinc).symm

theorem reading_eq_iff (hnow : now ≤ t) (ha : Answered s evs path h counter watts t) {kwh : V}
    (hread : reading s counter watts = some kwh) :
    kwh = gained h (fun x => decide ((previousUTCDay now).1 ≤ x ∧ x < (previousUTCDay now).2)) ↔
      Coincides s h counter watts (previousUTCDay now).1 (previousUTCDay now).2 t := by
  have hperiod : (previousUTCDay now).2 = (previousUTCDay now).1 + day ∧
      (previousUTCDay now).2 ≤ t := by
    have hmod : 0 ≤ now % day := Int.emod_nonneg _ (by decide)
    simp only [previousUTCDay]
    omega
  cases counter with
  | some v =>
    cases hread
    -- the window ends when the day does or later
    rw [Coincides, isSome_some, if_pos rfl, increase_eq_some (ha.evaluated kwh rfl)]
    exact gained_shift h (by decide) hperiod.1 hperiod.2
  | none =>
    have hest : watts.map (s.estimate (s.num.hours day)) = some kwh := hread
    rw [Coincides, isSome_none, if_neg (by simp), hest, some.injEq]

/-- **Metered energy, and the window of its query.**  An energy record that a tick at `now` stores
is of the last complete UTC day, and has what the asset's counter gained in that day exactly when
the window of the query, evaluated at `t`, coincides with the day. -/
theorem energy_increase_iff (s : Scanner V Loc) (now t : Int) (hnow : now ≤ t)
    (evs : List (Event (ScanOp V) ScanOp.Ret)) (q : Scan V Unit)
    (hrun : (s.scanUsageTick now).Fed evs q) (u : UsageRecord V)
    (hu : ∃ out, ⟨.core (.work (.upsertUsage u)), out⟩ ∈ evs) (hkind : u.kind = .energy)
    (hdaily : u.granularity = .daily) (h : History V) (counter watts : Option V)
    (ha : Answered s evs u.assetPath h counter watts t) :
    (u.periodStart, u.periodEnd) = previousUTCDay now ∧
      (u.quantity = gained h (fun x => decide (u.periodStart ≤ x ∧ x < u.periodEnd)) ↔
        Coincides s h counter watts u.periodStart u.periodEnd t) := by
  obtain ⟨out, hev⟩ := hu
  obtain ⟨hperiod, hread⟩ := scanUsageTick_metered hrun ha _ hev hkind hdaily rfl
  have hstart : u.periodStart = (previousUTCDay now).1 := congrArg Prod.fst hperiod
  have hstop : u.periodEnd = (previousUTCDay now).2 := congrArg Prod.snd hperiod
  refine ⟨hperiod, ?_⟩
  rw [hstart, hstop]
  exact reading_eq_iff hnow ha hread

end Tick

/-! ### A meter that is read at noon -/

def wholeNum : Num Nat where
  zero := 0
  add := (· + ·)
  mul := (· * ·)
  div := (· / ·)
  thousand := 1000
  nonPositive v := v = 0
  hours d := (d / hour).toNat
  parseFloat b := (atoi b).map Int.toNat
  zero_add v _ := Nat.zero_add v

def evenMonths : Calendar Unit where
  utc := ()
  loadLocation _ := some ()
  firstOfMonth _ t := t - t % (30 * day)
  addMonths _ t n := t + n * 30 * day

def meterScanner : Scanner Nat Unit where
  num := wholeNum
  calendar := evenMonths
  vmURL := "http://vm:8428"
  vmResponse body := some ("success", [[.null, .str body]])
  rangeOrder sids := sids
  rangeOrder_perm := .refl

def meter : Asset Nat := ⟨"sgp01.pdu001", 1, none, 0, 0⟩

def meterRecord (now : Int) (kwh : Nat) : UsageRecord Nat :=
  usageOf .energy (previousUTCDay now).1 (previousUTCDay now).2 .daily "sgp01.pdu001" kwh "kWh"

def meterTick (now : Int) (kwh : Nat) : List (Event (ScanOp Nat) ScanOp.Ret) :=
  [⟨.tryScannerLock, .ok true⟩, ⟨.core (.work .listAssets), .ok [meter]⟩,
    ⟨.core (.outside (.fetchVM (energyQuery "sgp01.pdu001" "24h"))), .ok (lit (toString kwh))⟩,
    ⟨.core (.outside (.fetchVM (energyQuery "sgp01.pdu001" "720h"))), .error []⟩,
    ⟨.core (.outside (.fetchVM (powerQuery "sgp01.pdu001" "720h"))), .error []⟩,
    ⟨.core (.tenancy (.getSiteOrg "sgp01")), .ok none⟩,
    ⟨.core (.work (.upsertUsage (meterRecord now kwh))), .ok (meterRecord now kwh)⟩,
    ⟨.onUsageUpserted (meterRecord now kwh), ()⟩, ⟨.release, ()⟩]

/-- The query that an operation sends. -/
def queryOf : ScanOp Nat → Option Bytes
  | .core (.outside (.fetchVM query)) => some query
  | _ => none

theorem meterTick_answered {now t : Int} {kwh : Nat} {h : History Nat}
    (hread : meterScanner.scalar (.ok (lit (toString kwh))) = some kwh)
    (hinc : increase h day t = some kwh) :
    Answered meterScanner (meterTick now kwh) "sgp01.pdu001" h (some kwh) none t := by
  have hmonth : energyQuery "sgp01.pdu001" "720h" ≠ energyQuery "sgp01.pdu001" "24h" ∧
      powerQuery "sgp01.pdu001" "720h" ≠ energyQuery "sgp01.pdu001" "24h" ∧
      energyQuery "sgp01.pdu001" "24h" ≠ powerQuery "sgp01.pdu001" "24h" ∧
      energyQuery "sgp01.pdu001" "720h" ≠ powerQuery "sgp01.pdu001" "24h" ∧
      powerQuery "sgp01.pdu001" "720h" ≠ powerQuery "sgp01.pdu001" "24h" := by decide
  refine ⟨?_, ?_, ?_⟩
  · intro r hr
    have hthird : ∀ ev ∈ meterTick now kwh,
      queryOf ev.op = some (energyQuery "sgp01.pdu001" "24h") →
        ev = ⟨.core (.outside (.fetchVM (energyQuery "sgp01.pdu001" "24h"))),
          .ok (lit (toString kwh))⟩ := by
      simp [meterTick, queryOf, hmonth]
    cases hthird _ hr rfl
    exact hread
  · intro r hr
    have hnone : ∀ ev ∈ meterTick now kwh,
        queryOf ev.op ≠ some (powerQuery "sgp01.pdu001" "24h") := by
      simp [meterTick, queryOf, hmonth]
    exact absurd rfl (hnone _ hr)
  · rintro _ ⟨⟩
    exact hinc

def midnight : Int := 100 * day

def noon : Int := midnight + 12 * hour

theorem noon_run : (meterScanner.scanUsageTick noon).Fed (meterTick noon 5) (.done ()) :=
  .cons <| .cons <| .cons <| .cons <| .cons <| .cons <| .cons <| .cons <| .cons <| .nil _

theorem midnight_run :
    (meterScanner.scanUsageTick midnight).Fed (meterTick midnight 1) (.done ()) :=
  .cons <| .cons <| .cons <| .cons <| .cons <| .cons <| .cons <| .cons <| .cons <| .nil _

/-- Five kilowatt-hours in the evening: a tick at noon has them in its window. -/
theorem evening_metered :
    ∃ u, (∃ out, ⟨.core (.work (.upsertUsage u)), out⟩ ∈ meterTick noon 5) ∧
      u.quantity = gained [(midnight - 6 * hour, 5)]
        (fun x => decide (u.periodStart ≤ x ∧ x < u.periodEnd)) := by
  have hu : ∃ out, ⟨.core (.work (.upsertUsage (meterRecord noon 5))), out⟩ ∈ meterTick noon 5 :=
    ⟨.ok (meterRecord noon 5), by simp [meterTick]⟩
  refine ⟨meterRecord noon 5, hu, ?_⟩
  refine (energy_increase_iff meterScanner noon noon le_rfl (meterTick noon 5) _ noon_run
    (meterRecord noon 5) hu rfl rfl [(midnight - 6 * hour, 5)] (some 5) none
    (meterTick_answered (by decide) (by decide))).2.mpr ?_
  rw [Coincides, if_pos (by decide)]
  decide

/-- One kilowatt-hour in the morning, five the morning after: for the day before, the tick at
midnight stores one, and the tick at noon five. -/
theorem noon_stores_other_day :
    ∃ h : History Nat, previousUTCDay noon = previousUTCDay midnight ∧
      (meterScanner.scanUsageTick midnight).Fed (meterTick midnight 1) (.done ()) ∧
      Answered meterScanner (meterTick midnight 1) "sgp01.pdu001" h (some 1) none midnight ∧
      (meterScanner.scanUsageTick noon).Fed (meterTick noon 5) (.done ()) ∧
      Answered meterScanner (meterTick noon 5) "sgp01.pdu001" h (some 5) none noon ∧
      (∃ out, ⟨.core (.work (.upsertUsage (meterRecord midnight 1))), out⟩ ∈ meterTick midnight 1) ∧
      (∃ out, ⟨.core (.work (.upsertUsage (meterRecord noon 5))), out⟩ ∈ meterTick noon 5) ∧
      gained h (fun x => decide ((previousUTCDay noon).1 ≤ x ∧ x < (previousUTCDay noon).2))
        = 1 := by
  refine ⟨[(midnight - 18 * hour, 1), (midnight + 6 * hour, 5)], by decide, midnight_run,
    meterTick_answered (by decide) (by decide), noon_run,
    meterTick_answered (by decide) (by decide), ?_, ?_, by decide⟩
  · exact ⟨.ok (meterRecord midnight 1), by simp [meterTick]⟩
  · exact ⟨.ok (meterRecord noon 5), by simp [meterTick]⟩

end Cios.Usage
