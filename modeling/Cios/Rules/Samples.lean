import Cios.Path.Promproj
import Cios.Rules.Formula
import Cios.Support.Interleave

/-!
# Rules — the samples of a tick

One tick of `cios-rules` for one derived quantity (`cmd/cios-rules/main.go`, `processOne`): the
series of the formula's quantities are asked of VictoriaMetrics, each is matched by its name against
the points of the formula (`matchRef`) and put into the bucket of its asset and of the location in
front of the matched point (`bucketByPrefix`), and every bucket on which the formula evaluates gives
a sample (`pkg/rules/compute.go`, `Compute`).

A series goes to the first point of the formula that its name ends with, and to no other.  So a
bucket can miss a series that the asset has (`derived_samples_iff`).
-/

namespace Cios.Rules
open Text Effect List Prog Option
open Cios.Cpath Cios.Promproj
open Cios.Alarm (Num Snapshot)

variable {V : Type}

/-- A row of an answer: the labels of a series and its value at the instant. -/
structure Series (V : Type) where
  labels : Labels
  value : V

/-- What the tick asks of VictoriaMetrics: the instant query of a selector. -/
inductive VmOp where
  | query (selector : Bytes)

/-- The rows of an answer, each with its value where it is a number; none for a failed request. -/
def VmOp.Ret (V : Type) : VmOp → Type
  | .query _ => Option (List (Labels × Option V))

structure BucketKey where
  assetPath : Bytes
  locPrefix : Bytes
deriving DecidableEq, Repr

abbrev Inputs (V : Type) := AList fun _ : Bytes => V

abbrev Buckets (V : Type) := AList fun _ : BucketKey => Inputs V

/-- What a tick is run with.  A `range` over the buckets takes them in any order. -/
structure Tick (V : Type) where
  dict : Dict
  site : Bytes
  now : Int
  formatFloat : V → Bytes
  rangeOrder : List (Sigma fun _ : BucketKey => Inputs V) →
    List (Sigma fun _ : BucketKey => Inputs V)
  rangeOrder_perm : ∀ l, (rangeOrder l).Perm l

/-! ### Discovery -/

def lastSegment (s : Bytes) : Bytes := ((split '.' s).getLast?).getD []

def uniqueQuantities (refs : List Bytes) : List Bytes :=
  (((refs.map lastSegment).filter (· ≠ [])).dedup).insertionSort fun a b => le a b = true

def buildSelector (metric hostFilter site : Bytes) : Bytes :=
  metric ++ lit "\x7basset_type=~\"" ++ hostFilter ++ lit "\"" ++
    (if site = [] then [] else lit ",site=\"" ++ site ++ lit "\"") ++ lit "\x7d"

/-- The rows whose value is a number. -/
def readRows (rows : List (Labels × Option V)) : List (Series V) :=
  rows.filterMap fun row => row.2.map fun v => ⟨row.1, v⟩

section Tick

variable (t : Tick V)

/-- One query per quantity that has a metric; `none` at the first one that fails. -/
def discoverInputs (hosts : List Bytes) : List Bytes →
    Prog VmOp (VmOp.Ret V) (Option (List (Series V)))
  | [] => .done (some [])
  | q :: qs =>
    match metricName t.dict q with
    | none => discoverInputs hosts qs
    | some metric =>
      .call (.query (buildSelector metric ((lit "|").intercalate hosts) t.site)) fun
        | none => .done none
        | some rows =>
          (discoverInputs hosts qs).attempt fun rest => .done (some (readRows rows ++ rest))

/-! ### Buckets -/

/-- The point of the formula that a name ends with, and the part in front; two empty strings for
none. -/
def matchRef (rel : Bytes) : List Bytes → Bytes × Bytes
  | [] => ([], [])
  | r :: refs =>
    if rel = r then (r, [])
    else
      match cutSuffix (lit "." ++ r) rel with
      | some loc => (r, loc)
      | none => matchRef rel refs

/-- Where a series goes: its bucket, and the point of the formula it is the value of. -/
def placeOf (refs : List Bytes) (s : Series V) : Option (BucketKey × Bytes) :=
  match relPoint t.dict s.labels with
  | none => none
  | some rel =>
    if s.labels "path" = [] then none
    else if (matchRef rel refs).1 = [] then none
    else some (⟨s.labels "path", (matchRef rel refs).2⟩, (matchRef rel refs).1)

/-- A later series of the same bucket and point replaces an earlier one. -/
def putSeries (refs : List Bytes) (out : Buckets V) (s : Series V) : Buckets V :=
  match placeOf t refs s with
  | none => out
  | some (key, ref) => out.insert key (((out.lookup key).getD ∅).insert ref s.value)

def bucketByPrefix (series : List (Series V)) (refs : List Bytes) : Buckets V :=
  series.foldl (putSeries t refs) ∅

/-! ### Samples -/

def pointPath (d : Derived V) (key : BucketKey) : Bytes :=
  (lit ".").intercalate
    ([key.assetPath] ++ (if key.locPrefix = [] then [] else [key.locPrefix]) ++ [d.name])

/-- A line of the import, with the bucket and the value it is made from. -/
structure Sample (V : Type) where
  key : BucketKey
  value : V
  line : Bytes

/-- The sample of a bucket, if the formula evaluates (`Compute`) and the address is a point's. -/
def sampleOf [Num V] (d : Derived V) (key : BucketKey) (inputs : Inputs V) : Option (Sample V) :=
  match d.formula.eval fun r => inputs.lookup r with
  | .error _ => none
  | .ok v =>
    match parsePoint t.dict (pointPath d key) with
    | .error _ => none
    | .ok p => (render t.dict p (t.formatFloat v) t.now "good").map fun line => ⟨key, v, line⟩

def processOne [Num V] (d : Derived V) : Prog VmOp (VmOp.Ret V) (Option (List (Sample V))) :=
  if uniqueQuantities d.refs = [] then .done (some [])
  else (discoverInputs t d.hosts (uniqueQuantities d.refs)).attempt fun series =>
    .done (some ((t.rangeOrder (bucketByPrefix t series d.refs).entries).filterMap
      fun b => sampleOf t d b.1 b.2))

end Tick

/-! ### Matching -/

def located (loc r : Bytes) : Bytes := if loc = [] then r else loc ++ lit "." ++ r

theorem dot_eq : lit "." = [('.' : UInt8)] := by decide

theorem matchRef_cons_of_ne {rel r : Bytes} {refs : List Bytes} (hne : rel ≠ r)
    (hcut : cutSuffix (lit "." ++ r) rel = none) :
    matchRef rel (r :: refs) = matchRef rel refs := by
  rw [matchRef, if_neg hne, hcut]

/-- A matched name is that of the point at the location, or the point itself behind a dot. -/
theorem matchRef_spec {rel r loc : Bytes} (hr : r ≠ []) : ∀ {refs : List Bytes},
    matchRef rel refs = (r, loc) →
      r ∈ refs ∧ (rel = located loc r ∨ loc = [] ∧ rel = ('.' : UInt8) :: r)
  | [], h => by
    cases h
    exact absurd rfl hr
  | r' :: refs, h => by
    by_cases heq : rel = r'
    · rw [matchRef, if_pos heq] at h
      cases h
      exact ⟨mem_cons_self, .inl heq⟩
    cases hcut : cutSuffix (lit "." ++ r') rel with
    | none =>
      rw [matchRef_cons_of_ne heq hcut] at h
      obtain ⟨hmem, hrel⟩ := matchRef_spec hr h
      exact ⟨mem_cons_of_mem _ hmem, hrel⟩
    | some loc' =>
      rw [matchRef, if_neg heq, hcut] at h
      cases h
      have hrel : rel = loc ++ (lit "." ++ r) := cutSuffix_eq_some.mp hcut
      refine ⟨mem_cons_self, ?_⟩
      by_cases hloc : loc = []
      · right
        refine ⟨hloc, ?_⟩
        rw [hrel, hloc, dot_eq]
        rfl
      · left
        rw [located, if_neg hloc, hrel, append_assoc]

/-- A point that is matched behind a dot is matched without it. -/
theorem matchRef_of_dot {r : Bytes} : ∀ {refs : List Bytes},
    matchRef (('.' : UInt8) :: r) refs = (r, []) → r ≠ [] → matchRef r refs = (r, [])
  | [], h, hr => absurd (congrArg Prod.fst h).symm hr
  | r' :: refs, h, hr => by
    by_cases heq : r = r'
    · rw [matchRef, if_pos heq, heq]
    have hne : ('.' : UInt8) :: r ≠ r' := by
      intro hr'
      rw [matchRef, if_pos hr'] at h
      exact heq (congrArg Prod.fst h).symm
    cases hcut : cutSuffix (lit "." ++ r') (('.' : UInt8) :: r) with
    | some loc' =>
      rw [matchRef, if_neg hne, hcut] at h
      exact absurd (congrArg Prod.fst h).symm heq
    | none =>
      rw [matchRef_cons_of_ne hne hcut] at h
      have hcut' : cutSuffix (lit "." ++ r') r = none := by
        cases hc : cutSuffix (lit "." ++ r') r with
        | none => rfl
        | some loc' =>
          have hlonger : cutSuffix (lit "." ++ r') (('.' : UInt8) :: r) =
              some (('.' : UInt8) :: loc') :=
            cutSuffix_eq_some.mpr (congrArg _ (cutSuffix_eq_some.mp hc))
          rw [hcut] at hlonger
          cases hlonger
      rw [matchRef_cons_of_ne heq hcut']
      exact matchRef_of_dot h hr

/-! ### What a bucket holds -/

section Buckets

variable {t : Tick V} {refs : List Bytes} {series : List (Series V)} {key : BucketKey} {r : Bytes}

/-- The value of a point of the formula in a bucket. -/
def Buckets.value (out : Buckets V) (key : BucketKey) : Snapshot V :=
  fun r => (out.lookup key).bind fun inputs => inputs.lookup r

theorem Buckets.value_of_lookup {out : Buckets V} {inputs : Inputs V}
    (h : out.lookup key = some inputs) : out.value key = fun r => inputs.lookup r := by
  funext r
  rw [Buckets.value, h, bind_some]

/-- The value of the last series that satisfies a condition. -/
def lastValue (P : Series V → Prop) [DecidablePred P] (series : List (Series V)) : Option V :=
  ((series.filter fun s => P s).getLast?).map (·.value)

theorem lastValue_snoc (P : Series V → Prop) [DecidablePred P] (series : List (Series V))
    (s : Series V) :
    lastValue P (series ++ [s]) = if P s then some s.value else lastValue P series := by
  by_cases hs : P s
  · simp [lastValue, hs]
  · simp [lastValue, hs]

theorem value_putSeries (out : Buckets V) (s : Series V) :
    (putSeries t refs out s).value key r =
      if placeOf t refs s = some (key, r) then some s.value else out.value key r := by
  rw [putSeries]
  cases hp : placeOf t refs s with
  | none => simp
  | some place =>
    obtain ⟨key', r'⟩ := place
    simp only [some.injEq, Prod.mk.injEq]
    by_cases hk : key = key'
    · subst hk
      rw [Buckets.value, AList.lookup_insert, bind_some]
      by_cases hr : r = r'
      · subst hr
        rw [AList.lookup_insert, if_pos ⟨rfl, rfl⟩]
      · rw [AList.lookup_insert_ne hr, if_neg fun h => hr h.2.symm, Buckets.value]
        cases out.lookup key with
        | none => rfl
        | some inputs => rfl
    · rw [Buckets.value, AList.lookup_insert_ne hk, if_neg fun h => hk h.1.symm, Buckets.value]

/-- A bucket holds for each point the last series that goes there. -/
theorem value_bucketByPrefix :
    (bucketByPrefix t series refs).value key r =
      lastValue (fun s => placeOf t refs s = some (key, r)) series := by
  induction series using List.reverseRecOn with
  | nil => rfl
  | append_singleton series s ih =>
    rw [bucketByPrefix, foldl_append, foldl_cons, foldl_nil, value_putSeries,
      lastValue_snoc]
    congr 1

theorem lastValue_congr {P Q : Series V → Prop} [DecidablePred P] [DecidablePred Q]
    (h : ∀ s ∈ series, P s ↔ Q s) : lastValue P series = lastValue Q series := by
  rw [lastValue, lastValue, filter_congr fun s hs => decide_eq_decide.mpr (h s hs)]

theorem lastValue_eq_none {P : Series V → Prop} [DecidablePred P] (h : ∀ s ∈ series, ¬ P s) :
    lastValue P series = none := by
  rw [lastValue, filter_eq_nil_iff.mpr (by simpa using h)]
  rfl

theorem exists_of_lastValue {P : Series V → Prop} [DecidablePred P] {v : V}
    (h : lastValue P series = some v) : ∃ s ∈ series, P s := by
  by_contra hnone
  push Not at hnone
  rw [lastValue_eq_none hnone] at h
  cases h

/-- The series is one of the asset, and has the given name. -/
def Series.Named (t : Tick V) (asset rel : Bytes) (s : Series V) : Prop :=
  relPoint t.dict s.labels = some rel ∧ s.labels "path" = asset

instance (asset rel : Bytes) (s : Series V) : Decidable (s.Named t asset rel) :=
  inferInstanceAs (Decidable (_ ∧ _))

theorem placeOf_eq_some {s : Series V} {asset loc : Bytes} :
    placeOf t refs s = some (⟨asset, loc⟩, r) ↔
      asset ≠ [] ∧ r ≠ [] ∧ ∃ rel, s.Named t asset rel ∧ matchRef rel refs = (r, loc) := by
  rw [placeOf]
  cases hrel : relPoint t.dict s.labels with
  | none => simp [Series.Named, hrel]
  | some rel =>
    by_cases hpath : s.labels "path" = []
    · simp only [hpath, ↓reduceIte, reduceCtorEq, Series.Named, hrel, false_iff]
      rintro ⟨hasset, -, rel', ⟨-, rfl⟩, -⟩
      exact hasset rfl
    by_cases hr : (matchRef rel refs).1 = []
    · simp only [hpath, hr, ↓reduceIte, reduceCtorEq, Series.Named, hrel, false_iff]
      rintro ⟨-, hne, rel', ⟨hrel', -⟩, hmatch⟩
      cases hrel'
      exact hne (by rw [← hr, hmatch])
    · simp only [hpath, hr, ↓reduceIte, some.injEq, Prod.mk.injEq,
        BucketKey.mk.injEq, Series.Named, hrel]
      constructor
      · rintro ⟨⟨rfl, rfl⟩, rfl⟩
        exact ⟨hpath, hr, rel, ⟨rfl, rfl⟩, rfl⟩
      · rintro ⟨-, -, rel', ⟨rfl, rfl⟩, hmatch⟩
        rw [hmatch]
        exact ⟨⟨rfl, rfl⟩, rfl⟩

end Buckets

/-! ### Names and buckets -/

section Names

variable {t : Tick V} {d : Derived V}

/-- Each point at the location is matched as itself, not as an earlier one its name also ends
with. -/
def Unshadowed (refs : List Bytes) (loc : Bytes) : Prop :=
  ∀ r ∈ refs, matchRef (located loc r) refs = (r, loc)

/-- Some series has the name of a point behind a dot: without a location, it is taken for the
point. -/
def Stray (t : Tick V) (d : Derived V) (series : List (Series V)) (asset loc : Bytes) : Prop :=
  loc = [] ∧ ∃ r ∈ d.refs, ∃ s ∈ series, s.Named t asset (('.' : UInt8) :: r)

variable {series : List (Series V)} {asset loc : Bytes}

theorem unshadowed_of_bound
    (h : ∀ r ∈ d.refs, ∃ x, (bucketByPrefix t series d.refs).value ⟨asset, loc⟩ r = some x) :
    Unshadowed d.refs loc := by
  intro r hr
  obtain ⟨x, hx⟩ := h r hr
  rw [value_bucketByPrefix] at hx
  obtain ⟨s, -, hs⟩ := exists_of_lastValue hx
  obtain ⟨-, hne, rel, -, hmatch⟩ := placeOf_eq_some.mp hs
  obtain ⟨-, rfl | ⟨rfl, rfl⟩⟩ := matchRef_spec hne hmatch
  · exact hmatch
  · exact matchRef_of_dot hmatch hne

/-- Without strays, a bucket has for each of its points the last series of that name. -/
theorem value_of_unshadowed (hasset : asset ≠ []) (hstray : ¬ Stray t d series asset loc)
    (hun : Unshadowed d.refs loc) {r : Bytes} (hr : r ∈ d.refs) :
    (bucketByPrefix t series d.refs).value ⟨asset, loc⟩ r =
      lastValue (Series.Named t asset (located loc r)) series := by
  rw [value_bucketByPrefix]
  refine lastValue_congr fun s hs => ?_
  rw [placeOf_eq_some]
  constructor
  · rintro ⟨-, hne, rel, hnamed, hmatch⟩
    obtain ⟨-, rfl | ⟨rfl, rfl⟩⟩ := matchRef_spec hne hmatch
    · exact hnamed
    · exact absurd ⟨rfl, r, hr, s, hs, hnamed⟩ hstray
  · intro hnamed
    exact ⟨hasset, Derived.ne_nil_of_mem_refs hr, _, hnamed, hun r hr⟩

theorem pointPath_nil_asset (t : Tick V) (d : Derived V) (loc : Bytes) :
    ∃ e, parsePoint t.dict (pointPath d ⟨[], loc⟩) = .error e := by
  have hdot : ∃ s, pointPath d ⟨[], loc⟩ = ('.' : UInt8) :: s := by
    by_cases hloc : loc = []
    · exact ⟨d.name, by simp [pointPath, hloc, dot_eq]⟩
    · exact ⟨loc ++ ('.' : UInt8) :: d.name, by simp [pointPath, hloc, dot_eq]⟩
  obtain ⟨s, hs⟩ := hdot
  rw [hs]
  exact parsePoint_dot s

end Names

/-! ### The samples of a run -/

section Run

variable {t : Tick V} {d : Derived V} {evs : List (Event VmOp (VmOp.Ret V))}

/-- The series that an answer of VictoriaMetrics has. -/
def answered : Event VmOp (VmOp.Ret V) → List (Series V)
  | ⟨.query _, some rows⟩ => readRows rows
  | ⟨.query _, none⟩ => []

/-- The series that VictoriaMetrics returned. -/
def returned (evs : List (Event VmOp (VmOp.Ret V))) : List (Series V) := evs.flatMap answered

theorem discoverInputs_fed {hosts : List Bytes} : ∀ {qs : List Bytes}
    {evs : List (Event VmOp (VmOp.Ret V))} {series : List (Series V)},
    (discoverInputs t hosts qs).Fed evs (.done (some series)) → series = returned evs
  | [], evs, series, h => by
    obtain ⟨rfl, ⟨⟩⟩ := h.finished
    rfl
  | q :: qs, evs, series, h => by
    rw [discoverInputs] at h
    cases hm : metricName t.dict q with
    | none =>
      rw [hm] at h
      exact discoverInputs_fed h
    | some metric =>
      rw [hm] at h
      obtain ⟨answer, rest, rfl, hrest⟩ := fed_call_done.mp h
      cases answer with
      | none => cases hrest.ended
      | some rows =>
        obtain ⟨evs₁, evs₂, more, rfl, h₁, h₂⟩ := Fed.attempt hrest
        obtain ⟨rfl, ⟨⟩⟩ := h₂.finished
        rw [discoverInputs_fed h₁, append_nil]
        rfl

theorem uniqueQuantities_nil : uniqueQuantities [] = [] := rfl

variable [Num V]

theorem sampleOf_eq_some {key : BucketKey} {inputs : Inputs V} {v : V} :
    (∃ smp, sampleOf t d key inputs = some smp ∧ smp.value = v) ↔
      (d.formula.eval fun r => inputs.lookup r) = .ok v ∧
        ∃ p, parsePoint t.dict (pointPath d key) = .ok p := by
  rw [sampleOf]
  cases he : d.formula.eval fun r => inputs.lookup r with
  | error e => simp
  | ok w =>
    cases hp : parsePoint t.dict (pointPath d key) with
    | error e => simp
    | ok p =>
      obtain ⟨line, hline⟩ := render_parsed hp (t.formatFloat w) t.now "good"
      simp [hline]

theorem sampleOf_key {key : BucketKey} {inputs : Inputs V} {smp : Sample V}
    (h : sampleOf t d key inputs = some smp) : smp.key = key := by
  rw [sampleOf] at h
  split at h
  · cases h
  · split at h
    · cases h
    · obtain ⟨line, -, rfl⟩ := map_eq_some_iff.mp h
      rfl

/-- The samples are those of the buckets on which the formula evaluates, at addresses of points. -/
theorem processOne_samples {out : List (Sample V)}
    (hrun : (processOne t d).Fed evs (.done (some out))) (key : BucketKey) (v : V) :
    (∃ smp ∈ out, smp.key = key ∧ smp.value = v) ↔
      d.refs ≠ [] ∧ d.formula.eval ((bucketByPrefix t (returned evs) d.refs).value key) = .ok v ∧
        ∃ p, parsePoint t.dict (pointPath d key) = .ok p := by
  rw [processOne] at hrun
  by_cases hq : uniqueQuantities d.refs = []
  · rw [if_pos hq] at hrun
    obtain ⟨rfl, ⟨⟩⟩ := hrun.finished
    -- nothing has been asked, so that no point of the formula has a value
    simp only [not_mem_nil, false_and, exists_false, false_iff]
    rintro ⟨hrefs, heval, -⟩
    obtain ⟨r, hr⟩ := exists_mem_of_ne_nil _ hrefs
    obtain ⟨x, hx⟩ := Formula.refs_present heval r hr
    rw [value_bucketByPrefix] at hx
    obtain ⟨s, hs, -⟩ := exists_of_lastValue hx
    cases hs
  · rw [if_neg hq] at hrun
    obtain ⟨evs₁, evs₂, series, rfl, h₁, h₂⟩ := Fed.attempt hrun
    obtain ⟨rfl, ⟨⟩⟩ := h₂.finished
    rw [append_nil, ← discoverInputs_fed h₁]
    have hrefs : d.refs ≠ [] := by
      intro hnil
      exact hq (by rw [hnil, uniqueQuantities_nil])
    simp only [mem_filterMap, (t.rangeOrder_perm _).mem_iff]
    constructor
    · rintro ⟨smp, ⟨⟨key', inputs⟩, hmem, hsmp⟩, rfl, rfl⟩
      have hlookup : (bucketByPrefix t series d.refs).lookup key' = some inputs :=
        AList.mem_lookup_iff.mpr hmem
      obtain ⟨heval, hp⟩ := sampleOf_eq_some.mp ⟨smp, hsmp, rfl⟩
      rw [sampleOf_key hsmp, Buckets.value_of_lookup hlookup]
      exact ⟨hrefs, heval, hp⟩
    · rintro ⟨-, heval, hp⟩
      obtain ⟨r, hr⟩ := exists_mem_of_ne_nil _ hrefs
      obtain ⟨x, hx⟩ := Formula.refs_present heval r hr
      cases hlookup : (bucketByPrefix t series d.refs).lookup key with
      | none => simp [Buckets.value, hlookup] at hx
      | some inputs =>
        rw [Buckets.value_of_lookup hlookup] at heval
        obtain ⟨smp, hsmp, hv⟩ := sampleOf_eq_some.mpr ⟨heval, hp⟩
        exact ⟨smp, ⟨⟨key, inputs⟩, AList.mem_lookup_iff.mp hlookup, hsmp⟩,
          sampleOf_key hsmp, hv⟩

/-! ### The samples that are due -/

/-- The formula's value on the series named after its points at the location, the last of each
name. -/
def Due (t : Tick V) (d : Derived V) (series : List (Series V)) (asset loc : Bytes) (v : V) :
    Prop :=
  (d.formula.eval fun r => lastValue (Series.Named t asset (located loc r)) series) = .ok v

/-- **Derived samples.**  In every run that ends with samples, those of a location of an asset are
the ones due on the returned series, exactly when: where one is due, the formula refers to a point,
the sample's address is a point's, and no point at the location is matched as an earlier one; and
where a series is named after a point behind a dot, the last values taken for the points give the
same. -/
theorem derived_samples_iff {out : List (Sample V)}
    (hrun : (processOne t d).Fed evs (.done (some out))) (asset loc : Bytes) :
    (∀ v, (∃ smp ∈ out, smp.key = ⟨asset, loc⟩ ∧ smp.value = v) ↔
        Due t d (returned evs) asset loc v) ↔
      ((∃ v, Due t d (returned evs) asset loc v) →
        d.refs ≠ [] ∧ (∃ p, parsePoint t.dict (pointPath d ⟨asset, loc⟩) = .ok p) ∧
          Unshadowed d.refs loc) ∧
      (Stray t d (returned evs) asset loc → d.refs ≠ [] →
        (∃ p, parsePoint t.dict (pointPath d ⟨asset, loc⟩) = .ok p) →
        ∀ v, (d.formula.eval fun r => lastValue
            (fun s => placeOf t d.refs s = some (⟨asset, loc⟩, r)) (returned evs)) = .ok v ↔
          Due t d (returned evs) asset loc v) := by
  simp only [processOne_samples hrun, ← value_bucketByPrefix]
  constructor
  · intro h
    refine ⟨?_, ?_⟩
    · rintro ⟨v, hv⟩
      obtain ⟨hrefs, heval, hp⟩ := (h v).mpr hv
      exact ⟨hrefs, hp, unshadowed_of_bound (Formula.refs_present heval)⟩
    · intro _ hrefs hp v
      rw [← h v]
      exact ⟨fun heval => ⟨hrefs, heval, hp⟩, fun hv => hv.2.1⟩
  · rintro ⟨hdue, hharmless⟩ v
    by_cases hstray : Stray t d (returned evs) asset loc
    · constructor
      · rintro ⟨hrefs, heval, hp⟩
        exact (hharmless hstray hrefs hp v).mp heval
      · intro hv
        obtain ⟨hrefs, hp, -⟩ := hdue ⟨v, hv⟩
        exact ⟨hrefs, (hharmless hstray hrefs hp v).mpr hv, hp⟩
    · -- the bucket and the names agree, so that the formula evaluates alike
      have hagree : asset ≠ [] → Unshadowed d.refs loc →
          (d.formula.eval ((bucketByPrefix t (returned evs) d.refs).value ⟨asset, loc⟩) = .ok v ↔
            Due t d (returned evs) asset loc v) := by
        intro hasset hun
        rw [Due, Formula.eval_congr fun r hr => value_of_unshadowed hasset hstray hun hr]
      have hne : (∃ p, parsePoint t.dict (pointPath d ⟨asset, loc⟩) = .ok p) → asset ≠ [] := by
        rintro ⟨p, hp⟩ rfl
        obtain ⟨e, he⟩ := pointPath_nil_asset t d loc
        rw [hp] at he
        cases he
      constructor
      · rintro ⟨-, heval, hp⟩
        exact (hagree (hne hp) (unshadowed_of_bound (Formula.refs_present heval))).mp heval
      · intro hv
        obtain ⟨hrefs, hp, hun⟩ := hdue ⟨v, hv⟩
        exact ⟨hrefs, (hagree (hne hp) hun).mpr hv, hp⟩

end Run

/-! ### A coolant unit -/

section Demo

def coolantDict : Dict where
  types name := if name = "cdu" then some ⟨[lit "site"], .device⟩ else none
  quantities := AList.singleton (lit "temp") ⟨lit "celsius", []⟩
  derived := AList.singleton (lit "deltat") ⟨lit "celsius", [lit "cdu"]⟩
  loops name := name = lit "fws"
  sides name := name = lit "supply" || name = lit "return"
  phases _ := false
  domains := ∅

def coolantTick : Tick Rat where
  dict := coolantDict
  site := []
  now := 0
  formatFloat _ := []
  rangeOrder l := l
  rangeOrder_perm := List.Perm.refl

def difference (l r : Bytes) : Formula Rat := ⟨.binOp .sub (.ident l) (.ident r), trivial, trivial⟩

def deltat : Derived Rat :=
  ⟨lit "deltat", [lit "cdu"], difference "return.temp" "supply.temp", by decide⟩

def tankDeltat : Derived Rat :=
  ⟨lit "deltat", [lit "cdu"], difference "temp" "return.temp", by decide⟩

def unitTemp (loop side : Bytes) (v : Rat) : Labels × Option Rat :=
  (fun label =>
    if label = "__name__" then "cios_temp_celsius" else
    if label = "path" then "sgp01.cdu000" else
    if label = "loop" then loop else if label = "side" then side else [], some v)

def askedTemps (rows : List (Labels × Option Rat)) : List (Event VmOp (VmOp.Ret Rat)) :=
  [⟨.query "cios_temp_celsius\x7basset_type=~\"cdu\"\x7d", some rows⟩]

/-- The unit's loop has both temperatures, and its difference is the sample of the loop. -/
theorem loop_deltat_due : ∃ out, (processOne coolantTick deltat).Fed
      (askedTemps [unitTemp "fws" "return" 30, unitTemp "fws" "supply" 18]) (.done (some out)) ∧
    ∀ v, (∃ smp ∈ out, smp.key = ⟨lit "sgp01.cdu000", lit "fws"⟩ ∧ smp.value = v) ↔
      Due coolantTick deltat
        (returned (askedTemps [unitTemp "fws" "return" 30, unitTemp "fws" "supply" 18]))
        "sgp01.cdu000" "fws" v := by
  have hun : Unshadowed deltat.refs "fws" := by
    unfold Unshadowed
    decide
  refine ⟨_, .cons <| .nil _, (derived_samples_iff ?_ _ _).mpr
    ⟨fun _ => ⟨by decide, ⟨_, rfl⟩, hun⟩, ?_⟩⟩
  · exact .cons <| .nil _
  rintro ⟨hloc, -⟩
  cases hloc

/-- The temperature of the return is taken for that at the location `return`: twelve degrees are
due, and there is no sample. -/
theorem tank_deltat_missed : loadDerived (fun _ => none) "deltat" [lit "cdu"] "temp - return.temp" =
      some tankDeltat ∧ ∃ out, (processOne coolantTick tankDeltat).Fed
      (askedTemps [unitTemp [] [] 30, unitTemp [] "return" 18]) (.done (some out)) ∧
    Due coolantTick tankDeltat
      (returned (askedTemps [unitTemp [] [] 30, unitTemp [] "return" 18])) "sgp01.cdu000" [] 12 ∧
    ¬ ∃ smp ∈ out, smp.key = ⟨lit "sgp01.cdu000", []⟩ := by
  refine ⟨rfl, [], .cons <| .nil _, ?_, by simp⟩
  unfold Due
  decide +kernel

end Demo

end Cios.Rules
