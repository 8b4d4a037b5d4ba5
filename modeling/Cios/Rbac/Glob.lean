import Cios.Support.Cover
import Cios.Support.Text

/-!
# RBAC — path globs

A scope of a principal names asset paths by a glob (`pkg/cpath/glob.go`): dot-separated segments
over `[a-z0-9*]`, where `*` stands for any run of `[a-z0-9]` inside one segment and a segment `**`
for any number of whole segments.  `Glob.matches` decides a path by the source's table over (pattern
segment, path segment).

The grammar is stated apart from the checks (`DotGlob`, `compileGlob_isSome`), and so is the
meaning, by runs of segments and of bytes (`SegTakes`, `ByteTakes`).  A row of the table marks the
prefixes of the path that the segments so far cover (`Reached`): matching is covering
(`matches_iff_covers`).
-/

namespace Cios.Rbac
open Text Cover List

/-- A compiled segment: `**`, or a segment in which `*` is any run of `[a-z0-9]`. -/
inductive Seg where
  | globstar
  | pat (src : Bytes)
deriving DecidableEq, Repr

/-- `globSegmentToRegexp` and its match: `k` decides what follows a `*`. -/
def starMatch (k : Bytes → Bool) : Bytes → Bool
  | [] => k []
  | c :: s => k (c :: s) || (isAlnum c && starMatch k s)

def segMatch : Bytes → Bytes → Bool
  | [], s => s.isEmpty
  | c :: p, s =>
    if c = '*' then starMatch (segMatch p) s
    else match s with
      | [] => false
      | d :: s => c == d && segMatch p s

def compileSeg (s : Bytes) : Option Seg :=
  if s = "**" then some .globstar
  else if contains "*" s && contains "**" s then none
  else some (.pat s)

def compileSegs : List Bytes → Option (List Seg)
  | [] => some []
  | s :: rest =>
    match compileSeg s, compileSegs rest with
    | some g, some gs => some (g :: gs)
    | _, _ => none

/-- A compiled glob.  Its segments are those of its pattern: parts that disagree cannot be built. -/
structure Glob where
  src : Bytes
  segs : List Seg
  isAll : Bool
  segs_eq : compileSegs (split '.' src) = some segs
  isAll_eq : isAll = decide (segs = [.globstar])

/-- `[a-z0-9.*]`. -/
def globPatternByte (c : UInt8) : Bool := isAlnum c || c == '.' || c == '*'

/-- `[a-z0-9.]`. -/
def globPathByte (c : UInt8) : Bool := isAlnum c || c == '.'

/-- No empty segment: no `..`, and no dot at either end. -/
def wholeSegments (s : Bytes) : Bool :=
  !(contains ".." s || s.head? == some ('.' : UInt8) || s.getLast? == some ('.' : UInt8))

def compileGlob (pattern : Bytes) : Option Glob :=
  if pattern = [] then none
  else if !pattern.all globPatternByte then none
  else if !wholeSegments pattern then none
  else match h : compileSegs (split '.' pattern) with
    | none => none
    | some segs => some ⟨pattern, segs, decide (segs = [.globstar]), h, rfl⟩

/-! ### Matching -/

/-- A row of the table after `**`: every position from the leftmost reached one on. -/
def globstarRow : Bool → List Bool → List Bool
  | _, [] => []
  | reached, b :: row => (reached || b) :: globstarRow (reached || b) row

/-- The next row: position `j + 1` is reached from `j` when the path's segment `j` matches. -/
def segRow (p : Bytes) (row : List Bool) (path : List Bytes) : List Bool :=
  false :: List.zipWith (fun b s => b && segMatch p s) row path

def nextRow (path : List Bytes) (row : List Bool) : Seg → List Bool
  | .globstar => globstarRow false row
  | .pat p => segRow p row path

/-- `Glob.Match`: one row per pattern segment, from the one that has reached position `0` alone. -/
def Glob.matches (g : Glob) (path : Bytes) : Bool :=
  if path = [] || !path.all globPathByte then false
  else if !wholeSegments path then false
  else if !contains "*" g.src then g.src == path
  else if g.isAll then true
  else
    let segs := split '.' path
    let row₀ := true :: segs.map fun _ => false
    (g.segs.foldl (nextRow segs) row₀).getLast? == some true

/-! ### The grammar -/

/-- A segment of a pattern: not empty, over `[a-z0-9*]`, and with `**` only as the whole
segment. -/
def GlobSeg (s : Bytes) : Prop :=
  s ≠ [] ∧ (∀ c ∈ s, isAlnum c ∨ c = '*') ∧ (s = "**" ∨ ¬ lit "**" <:+: s)

/-- A dotted pattern, as its segments. -/
def DotGlob (segs : List Bytes) : Prop := ∀ s ∈ segs, GlobSeg s

variable {s : Bytes}

theorem contains_star_of_contains_starstar (h : contains "**" s) :
    contains "*" s := by
  rw [contains_iff] at h ⊢
  exact List.IsInfix.trans ⟨[], lit "*", by decide⟩ h

theorem compileSeg_isSome :
    (compileSeg s).isSome ↔ s = "**" ∨ ¬ lit "**" <:+: s := by
  unfold compileSeg
  by_cases h : s = lit "**"
  · simp [h]
  · by_cases h2 : contains "**" s = true
    · simp [h2, contains_star_of_contains_starstar h2, contains_iff.mp h2]
    · simp [h, h2, mt contains_iff.mpr h2]

theorem compileSegs_isSome : ∀ {segs : List Bytes},
    (compileSegs segs).isSome ↔ ∀ s ∈ segs, s = "**" ∨ ¬ lit "**" <:+: s
  | [] => by simp [compileSegs]
  | s :: rest => by
    have hs := compileSeg_isSome (s := s)
    have ih := @compileSegs_isSome rest
    rw [forall_mem_cons, ← hs, ← ih, compileSegs]
    cases compileSeg s <;> cases compileSegs rest <;> simp

theorem wholeSegments_iff (hs : s ≠ []) :
    wholeSegments s = true ↔ [] ∉ split '.' s := by
  rw [nil_mem_splitOn]
  rw [wholeSegments, Bool.not_eq_true', ← Bool.not_eq_true]
  simp only [Bool.or_eq_true, contains_iff, beq_iff_eq]
  tauto

theorem forall_mem_split {P : UInt8 → Prop} :
    (∀ c ∈ s, P c ∨ c = '.') ↔ ∀ p ∈ split '.' s, ∀ c ∈ p, P c := by
  constructor
  · intro h p hp c hc
    have hne : c ≠ '.' := fun e => not_mem_of_mem_splitOn hp (by simpa [← e] using hc)
    exact (h c (mem_of_mem_splitOn hp hc)).resolve_right hne
  intro h c hc
  by_cases hd : c = '.'
  · exact .inr hd
  · obtain ⟨p, hp, hcp⟩ := exists_mem_splitOn hc hd
    exact .inl (h p hp c hcp)

theorem all_globPatternByte :
    s.all globPatternByte = true ↔ ∀ p ∈ split '.' s, ∀ c ∈ p, isAlnum c ∨ c = '*' := by
  rw [← forall_mem_split]
  simp only [all_eq_true, globPatternByte, Bool.or_eq_true, beq_iff_eq, or_right_comm]

theorem all_globPathByte :
    s.all globPathByte = true ↔ ∀ p ∈ split '.' s, ∀ c ∈ p, isAlnum c := by
  rw [← forall_mem_split]
  simp only [all_eq_true, globPathByte, Bool.or_eq_true, beq_iff_eq]

/-- **Compiling accepts the grammar**, and nothing else. -/
theorem compileGlob_isSome {pattern : Bytes} :
    (compileGlob pattern).isSome ↔ DotGlob (split '.' pattern) := by
  by_cases he : pattern = []
  · simp [compileGlob, he, DotGlob, GlobSeg]
  have hsplit : DotGlob (split '.' pattern) ↔ [] ∉ split '.' pattern ∧
      (∀ p ∈ split '.' pattern, ∀ c ∈ p, isAlnum c ∨ c = '*') ∧
        ∀ p ∈ split '.' pattern, p = "**" ∨ ¬ lit "**" <:+: p := by
    constructor
    · exact fun h => ⟨fun h0 => (h _ h0).1 rfl, fun p hp => (h p hp).2.1, fun p hp => (h p hp).2.2⟩
    · exact fun ⟨h0, h1, h2⟩ p hp => ⟨fun e => h0 (e ▸ hp), h1 p hp, h2 p hp⟩
  rw [hsplit, ← wholeSegments_iff he, ← all_globPatternByte, ← compileSegs_isSome, compileGlob,
    if_neg he]
  by_cases h1 : pattern.all globPatternByte = true
  · by_cases h2 : wholeSegments pattern = true
    · simp only [h1, h2, Bool.not_true, Bool.false_eq_true, if_false]
      split <;> simp_all
    · simp [h2]
  · simp [h1]

/-! ### The meaning -/

/-- In a segment, `*` takes any run of `[a-z0-9]` and any other byte itself. -/
def ByteTakes (c : UInt8) (run : Bytes) : Prop :=
  if c = '*' then ∀ d ∈ run, isAlnum d else run = [c]

/-- The segment `s` matches `p` as an in-segment glob. -/
def SegGlob (p s : Bytes) : Prop := Covers ByteTakes p s

/-- In a pattern, `**` takes any run of segments and any other segment one that it matches. -/
def SegTakes (p : Bytes) (run : List Bytes) : Prop := p = "**" ∨ ∃ s, run = [s] ∧ SegGlob p s

/-- A path: segments over `[a-z0-9]`, none of them empty. -/
def DotPath (s : Bytes) : Prop := ∀ seg ∈ split '.' s, seg ≠ [] ∧ ∀ c ∈ seg, isAlnum c

theorem starMatch_iff {k : Bytes → Bool} :
    starMatch k s = true ↔
      ∃ run rest, (∀ d ∈ run, isAlnum d) ∧ k rest = true ∧ run ++ rest = s := by
  induction s with
  | nil => simp [starMatch]
  | cons c s ih =>
    rw [starMatch, Bool.or_eq_true, Bool.and_eq_true, ih]
    constructor
    · rintro (h | ⟨hc, run, rest, hrun, hk, rfl⟩)
      · exact ⟨[], c :: s, by simp, h, rfl⟩
      · exact ⟨c :: run, rest, forall_mem_cons.mpr ⟨hc, hrun⟩, hk, rfl⟩
    rintro ⟨_ | ⟨d, run⟩, rest, hrun, hk, he⟩
    · exact .inl (he ▸ hk)
    · obtain ⟨rfl, rfl⟩ := List.cons.inj he
      rw [forall_mem_cons] at hrun
      exact .inr ⟨hrun.1, run, rest, hrun.2, hk, rfl⟩

theorem segMatch_iff {p s : Bytes} : segMatch p s = true ↔ SegGlob p s := by
  unfold SegGlob
  induction p generalizing s with
  | nil => simp [segMatch]
  | cons c p ih =>
    rw [segMatch.eq_def, covers_cons]
    by_cases hc : c = '*'
    · simp only [hc, if_true, starMatch_iff, ih, ByteTakes]
    cases s with
    | nil => simp [hc, ByteTakes]
    | cons d s =>
      simp only [hc, if_false, ByteTakes, Bool.and_eq_true, beq_iff_eq, ih]
      constructor
      · rintro ⟨rfl, h⟩
        exact ⟨[c], s, rfl, h, rfl⟩
      · rintro ⟨_, rest, rfl, h, he⟩
        obtain ⟨rfl, rfl⟩ := List.cons.inj he
        exact ⟨rfl, h⟩

theorem segGlob_literal {p s : Bytes} (h : ('*' : UInt8) ∉ p) : SegGlob p s ↔ s = p := by
  refine covers_literal fun c hc run => ?_
  rw [ByteTakes, if_neg]
  rintro rfl
  exact h hc

/-- The segment that a text compiles to, when it does. -/
def Seg.of (s : Bytes) : Seg := if s = "**" then .globstar else .pat s

theorem compileSegs_eq {raw : List Bytes} {segs : List Seg} (h : compileSegs raw = some segs) :
    segs = raw.map Seg.of := by
  induction raw generalizing segs with
  | nil => exact (Option.some.inj h).symm
  | cons s raw ih =>
    rw [compileSegs] at h
    split at h
    · rename_i g gs hg hgs
      cases h
      rw [map_cons, ← ih hgs]
      simp only [compileSeg] at hg
      split_ifs at hg with h₁ h₂
      · rw [← Option.some.inj hg, Seg.of, if_pos h₁]
      · rw [← Option.some.inj hg, Seg.of, if_neg h₁]
    · cases h

/-- A row of the table: the prefixes of the path that the segments so far cover. -/
structure Reached (done path : List Bytes) (row : List Bool) : Prop where
  length : row.length = path.length + 1
  iff : ∀ j ≤ path.length, row[j]? = some true ↔ Covers SegTakes done (path.take j)

theorem length_globstarRow (b : Bool) (row : List Bool) :
    (globstarRow b row).length = row.length := by
  induction row generalizing b with
  | nil => rfl
  | cons r row ih => simp [globstarRow, ih]

variable {row : List Bool}

theorem getElem_globstarRow {b : Bool} {k : Nat} (hk : k < row.length) :
    (globstarRow b row)[k]? = some true ↔ b = true ∨ ∃ j ≤ k, row[j]? = some true := by
  induction row generalizing b k with
  | nil => cases hk
  | cons r row ih =>
    cases k with
    | zero => simp [globstarRow]
    | succ k =>
      rw [globstarRow, getElem?_cons_succ, ih (Nat.lt_of_succ_lt_succ hk), Bool.or_eq_true,
        or_assoc]
      refine or_congr_right ⟨?_, ?_⟩
      · rintro (rfl | ⟨j, hj, h⟩)
        · exact ⟨0, Nat.zero_le _, rfl⟩
        · exact ⟨j + 1, Nat.succ_le_succ hj, h⟩
      · rintro ⟨_ | j, hj, h⟩
        · exact .inl (Option.some.inj h)
        · exact .inr ⟨j, Nat.le_of_succ_le_succ hj, h⟩

variable {done path : List Bytes}

theorem covers_globstar {k : Nat} (hk : k ≤ path.length) :
    Covers SegTakes (done ++ [lit "**"]) (path.take k) ↔
      ∃ j ≤ k, Covers SegTakes done (path.take j) := by
  rw [covers_snoc]
  constructor
  · rintro ⟨init, run, hinit, -, he⟩
    have hj : init.length ≤ k := by
      have := congrArg List.length he
      simp only [length_append, length_take] at this
      omega
    refine ⟨init.length, hj, ?_⟩
    have hpre : (path.take k).take init.length = init := by rw [← he, take_left]
    rw [take_take, Nat.min_eq_left hj] at hpre
    rwa [hpre]
  · rintro ⟨j, hj, h⟩
    refine ⟨_, (path.take k).drop j, h, .inl rfl, ?_⟩
    have hpre : path.take j = (path.take k).take j := by rw [take_take, Nat.min_eq_left hj]
    rw [hpre, take_append_drop]

theorem covers_segment {p : Bytes} (hp : p ≠ "**") {j : Nat} (hj : j < path.length) :
    Covers SegTakes (done ++ [p]) (path.take (j + 1)) ↔
      Covers SegTakes done (path.take j) ∧ SegGlob p path[j] := by
  rw [covers_snoc, take_succ_eq_append_getElem hj]
  constructor
  · rintro ⟨init, run, hinit, hrun, he⟩
    obtain ⟨s, rfl, hs⟩ := hrun.resolve_left hp
    obtain ⟨rfl, hlast⟩ := append_inj' he rfl
    cases hlast
    exact ⟨hinit, hs⟩
  · exact fun ⟨h, hs⟩ => ⟨_, _, h, .inr ⟨_, rfl, hs⟩, rfl⟩

theorem Reached.next (h : Reached done path row) (p : Bytes) :
    Reached (done ++ [p]) path (nextRow path row (Seg.of p)) := by
  by_cases hp : p = lit "**"
  · subst hp
    refine ⟨(length_globstarRow false row).trans h.length, fun k hk => ?_⟩
    rw [covers_globstar hk]
    refine (getElem_globstarRow (by rw [h.length]; omega)).trans ?_
    simp only [Bool.false_eq_true, false_or]
    exact exists_congr fun j => and_congr_right fun hj => h.iff j (hj.trans hk)
  · rw [Seg.of, if_neg hp]
    refine ⟨by simp [nextRow, segRow, h.length], fun k hk => ?_⟩
    cases k with
    | zero => simp [nextRow, segRow, covers_snoc, SegTakes, hp]
    | succ j =>
      rw [covers_segment hp hk, ← h.iff j (Nat.le_of_succ_le hk), ← segMatch_iff]
      have hrow : j < row.length := by rw [h.length]; omega
      simp [nextRow, segRow, getElem?_zipWith, getElem?_eq_getElem hrow,
        getElem?_eq_getElem (show j < path.length from hk)]

theorem Reached.foldl {path : List Bytes} (raw : List Bytes) {done : List Bytes}
    (h : Reached done path row) :
    Reached (done ++ raw) path ((raw.map Seg.of).foldl (nextRow path) row) := by
  induction raw generalizing done row with
  | nil => simpa using h
  | cons p raw ih => simpa using ih (h.next p)

theorem reached_start (path : List Bytes) :
    Reached [] path (true :: path.map fun _ => false) := by
  refine ⟨by simp, fun j hj => ?_⟩
  cases j with
  | zero => simp
  | succ j =>
    have hne : path.take (j + 1) ≠ [] := by
      rw [ne_eq, take_eq_nil_iff]
      rintro (h | rfl)
      · cases h
      · cases hj
    rw [getElem?_cons_succ, getElem?_map, covers_nil]
    cases path[j]? <;> simp [hne]

theorem table_iff {raw path : List Bytes} :
    ((raw.map Seg.of).foldl (nextRow path) (true :: path.map fun _ => false)).getLast? = some true ↔
      Covers SegTakes raw path := by
  have h := (reached_start path).foldl raw
  rw [getLast?_eq_getElem?, h.length, Nat.add_sub_cancel, h.iff _ le_rfl, take_length,
    nil_append]

theorem dotPath_iff :
    DotPath s ↔ s ≠ [] ∧ s.all globPathByte = true ∧ wholeSegments s = true := by
  by_cases hs : s = []
  · simp [hs, DotPath]
  · rw [all_globPathByte, wholeSegments_iff hs]
    constructor
    · exact fun h => ⟨hs, fun p hp => (h p hp).2, fun h0 => (h _ h0).1 rfl⟩
    · exact fun ⟨_, h, h0⟩ p hp => ⟨fun e => h0 (e ▸ hp), h p hp⟩

theorem exists_globstar :
    ∃ g, compileGlob "**" = some g ∧ ∀ s, g.matches s = true ↔ DotPath s := by
  refine ⟨_, rfl, fun s => ?_⟩
  have hall : (!contains "*" (lit "**")) = false := rfl
  rw [dotPath_iff, Glob.matches]
  by_cases h : s ≠ [] ∧ s.all globPathByte = true ∧ wholeSegments s = true
  · simp [h, hall]
  · simp only
    split_ifs <;> grind

theorem covers_plain {src s : Bytes} (h : contains "*" src = false) :
    Covers SegTakes (split '.' src) (split '.' s) ↔ src = s := by
  have hstar : ('*' : UInt8) ∉ src := by
    intro hin
    obtain ⟨l, r, rfl⟩ := append_of_mem hin
    refine Bool.false_ne_true (h.symm.trans (contains_iff.mpr ⟨l, r, ?_⟩))
    simp [show lit "*" = [('*' : UInt8)] by decide]
  rw [covers_literal fun p hp run => ?_]
  · constructor
    · intro he
      have := congrArg ([('.' : UInt8)].intercalate ·) he
      simpa using this.symm
    · rintro rfl
      rfl
  · have hp' : ('*' : UInt8) ∉ p := fun hin => hstar (mem_of_mem_splitOn hp hin)
    have hne : p ≠ lit "**" := by
      rintro rfl
      exact hp' (by decide)
    simp [SegTakes, hne, segGlob_literal hp']

/-- **A glob matches what it means**: the paths whose segments its own segments cover. -/
theorem matches_iff_covers {pattern : Bytes} {g : Glob} (hg : compileGlob pattern = some g)
    (s : Bytes) : g.matches s = true ↔
      DotPath s ∧ Covers SegTakes (split '.' pattern) (split '.' s) := by
  obtain rfl : g.src = pattern := by
    unfold compileGlob at hg
    split_ifs at hg
    split at hg <;> cases hg
    rfl
  have hsegs := compileSegs_eq g.segs_eq
  rw [dotPath_iff, Glob.matches]
  by_cases h₁ : s = [] ∨ s.all globPathByte = false
  · rw [if_pos (by simpa using h₁)]
    grind
  rw [if_neg (by simpa using h₁)]
  by_cases h₂ : wholeSegments s = true
  swap
  · simp [h₂]
  have hpath : s ≠ [] ∧ s.all globPathByte = true ∧ wholeSegments s = true := by grind
  rw [if_neg (by simp [h₂])]
  refine Iff.trans ?_ (and_iff_right hpath).symm
  by_cases h₃ : contains "*" g.src = true
  swap
  · rw [if_pos (by simp [h₃]), covers_plain (by simpa using h₃), beq_iff_eq]
  rw [if_neg (by simp [h₃])]
  by_cases h₄ : g.isAll = true
  · -- The pattern is `**` alone.
    have hone : (split '.' g.src).map Seg.of = [.globstar] := by
      rw [← hsegs]
      simpa [g.isAll_eq] using h₄
    obtain ⟨p, hp, hof⟩ := map_eq_singleton_iff.mp hone
    have hp' : p = lit "**" := by
      by_contra hne
      simp [Seg.of, hne] at hof
    rw [if_pos h₄, hp, covers_cons]
    simp [SegTakes, hp']
  · rw [if_neg h₄, beq_iff_eq, hsegs]
    exact table_iff

/-- A pattern with two `**` and a star inside a segment, on a path it covers. -/
theorem matches_iff_covers_pods : ∃ g, compileGlob "a.**.p*d.**" = some g ∧
    g.matches "a.x.pod.y.z" = true ∧
      Covers SegTakes (split '.' (lit "a.**.p*d.**")) (split '.' (lit "a.x.pod.y.z")) := by
  obtain ⟨g, hg⟩ := Option.isSome_iff_exists.mp
    (show (compileGlob (lit "a.**.p*d.**")).isSome = true by decide)
  have hm : g.matches (lit "a.x.pod.y.z") = true := by
    have h := show ((compileGlob (lit "a.**.p*d.**")).map (·.matches (lit "a.x.pod.y.z"))) =
      some true by decide
    simpa [hg] using h
  exact ⟨g, hg, hm, ((matches_iff_covers hg _).mp hm).2⟩

end Cios.Rbac
