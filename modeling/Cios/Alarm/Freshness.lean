import Cios.Store.Memory

/-!
# Alarm — telemetry gaps

The watch of `cios-alarm` (`pkg/freshness/watch.go`) remembers one time per asset, that of the batch
handled last.  So a late batch can make a reporting asset look silent (`gaps_order_free_iff`).
-/

namespace Cios.Alarm
open Text List
open Std.ExtTreeMap (mem_toList_iff_getElem?_eq_some)

structure Watch where
  last : Store.Map Int
  staleAfter : Int

structure Gap where
  assetPath : Bytes
  lastSeen : Int
  age : Int
deriving DecidableEq, Repr

def newWatch (staleAfter : Int) : Watch :=
  ⟨∅, if staleAfter ≤ 0 then 600000000000 else staleAfter⟩

/-- The zero time stands for the clock. -/
def Watch.touch (w : Watch) (clock : Int) (path : Bytes) (t : Int) : Watch :=
  if path = [] then w else { w with last := w.last.insert path (if t = 0 then clock else t) }

/-- The map's entries are in the order of their paths. -/
def Watch.gaps (w : Watch) (now : Int) : List Gap :=
  (w.last.toList.filter fun s => w.staleAfter < now - s.2).map fun s => ⟨s.1, s.2, now - s.2⟩

/-- A delivery as the watch sees it: the assets of the batch, then those of its heartbeat lines. -/
structure Arrival where
  timestamp : Int
  clock : Int
  assets : List Bytes

def Arrival.time (x : Arrival) : Int := if x.timestamp = 0 then x.clock else x.timestamp

/-- What `makeHandler` does to the watch. -/
def Watch.arrive (w : Watch) (x : Arrival) : Watch :=
  x.assets.foldl (fun w path => w.touch x.clock path x.time) w

def Watch.after (d : Int) (l : List Arrival) : Watch := l.foldl Watch.arrive (newWatch d)

variable {w : Watch} {now d : Int} {a : Bytes} {l : List Arrival} {x : Arrival}

theorem touch_last (ha : a ≠ []) {p : Bytes} : (w.touch x.clock p x.time).last[a]? =
    if p = a then some x.time else w.last[a]? := by
  have htime : (if x.time = 0 then x.clock else x.time) = x.time := by grind [Arrival.time]
  unfold Watch.touch
  split
  · next hp => rw [if_neg (hp ▸ Ne.symm ha)]
  · simp [Std.ExtTreeMap.getElem?_insert, htime]

theorem arrive_last (ha : a ≠ []) :
    (w.arrive x).last[a]? = if a ∈ x.assets then some x.time else w.last[a]? := by
  unfold Watch.arrive
  induction x.assets generalizing w with
  | nil => simp
  | cons p ps ih =>
    rw [foldl_cons, ih, touch_last ha]
    grind

theorem arrive_staleAfter : (w.arrive x).staleAfter = w.staleAfter := by
  unfold Watch.arrive
  induction x.assets generalizing w with
  | nil => rfl
  | cons p ps ih => rw [foldl_cons, ih, Watch.touch]; split <;> rfl

theorem mem_gaps : (∃ g ∈ w.gaps now, g.assetPath = a) ↔
    ∃ t, w.last[a]? = some t ∧ w.staleAfter < now - t := by
  simp only [Watch.gaps, mem_map, mem_filter, decide_eq_true_eq]
  constructor
  · rintro ⟨_, ⟨s, ⟨hs, hstale⟩, rfl⟩, rfl⟩
    exact ⟨_, mem_toList_iff_getElem?_eq_some.mp hs, hstale⟩
  · rintro ⟨t, ht, hstale⟩
    exact ⟨_, ⟨(a, t), ⟨mem_toList_iff_getElem?_eq_some.mpr ht, hstale⟩, rfl⟩, rfl⟩

theorem after_append : Watch.after d (l ++ [x]) = (Watch.after d l).arrive x := foldl_append

theorem after_staleAfter : (Watch.after d l).staleAfter = (newWatch d).staleAfter := by
  induction l using reverseRecOn with
  | nil => rfl
  | append_singleton l x ih => rw [after_append, arrive_staleAfter, ih]

/-- What is remembered is the time of the last arrival that names the asset. -/
theorem after_last (ha : a ≠ []) :
    (Watch.after d l).last[a]? = (l.filter (a ∈ ·.assets)).getLast?.map Arrival.time := by
  induction l using reverseRecOn with
  | nil => simp [Watch.after, newWatch]
  | append_singleton l x ih =>
    rw [after_append, arrive_last ha, filter_append, ih]
    by_cases hx : a ∈ x.assets <;> simp [hx]

/-- The gaps are those of the newest batches, in whatever order, exactly when no asset has batches
on both sides of the threshold. -/
theorem gaps_order_free_iff (d now : Int) (l : List Arrival) :
    let since := now - (newWatch d).staleAfter
    (∀ l', l'.Perm l → ∀ a ≠ [], (∃ g ∈ (Watch.after d l').gaps now, g.assetPath = a) ↔
      (∃ x ∈ l, a ∈ x.assets) ∧ ∀ x ∈ l, a ∈ x.assets → x.time < since) ↔
    ∀ a ≠ [], ∀ x ∈ l, ∀ y ∈ l, a ∈ x.assets → a ∈ y.assets → x.time < since → y.time < since := by
  simp only [mem_gaps, after_staleAfter]
  constructor
  · intro hall a ha x hx y hy hxa hya hold
    -- The older batch may come last.
    obtain ⟨l₁, l₂, rfl⟩ := append_of_mem hx
    refine ((hall (l₁ ++ l₂ ++ [x]) ?_ a ha).mp ⟨x.time, ?_, by omega⟩).2 y hy hya
    · simpa using (@perm_append_comm _ l₂ [x]).append_left l₁
    · rw [after_append, arrive_last ha, if_pos hxa]
  intro hsides l' hperm a ha
  have hnamed {x : Arrival} : x ∈ l'.filter (a ∈ ·.assets) ↔ x ∈ l ∧ a ∈ x.assets := by
    simp [hperm.mem_iff]
  rw [after_last ha]
  cases hlast : (l'.filter (a ∈ ·.assets)).getLast? with
  | none =>
    grind
  | some z =>
    obtain ⟨hz, hza⟩ := hnamed.mp (mem_of_getLast? hlast)
    constructor
    · rintro ⟨t, ⟨⟩, hstale⟩
      exact ⟨⟨z, hz, hza⟩, fun y hy hya => hsides a ha z hz y hy hza hya (by omega)⟩
    · rintro ⟨-, hold⟩
      have := hold z hz hza
      exact ⟨z.time, rfl, by omega⟩

/-- A batch of minute 1 comes after that of minute 20. -/
theorem late_batch_opens_gap :
    let early : Arrival := ⟨60000000000, 0, ["site01.cdu000"]⟩
    let late : Arrival := ⟨1200000000000, 0, ["site01.cdu000"]⟩
    (Watch.after 0 [early, late]).gaps 1260000000000 = [] ∧
      (Watch.after 0 [late, early]).gaps 1260000000000 =
        [⟨"site01.cdu000", 60000000000, 1200000000000⟩] := by
  decide

end Cios.Alarm
