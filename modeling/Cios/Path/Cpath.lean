import Cios.Support.Effect
import Cios.Support.Text
import Mathlib.Data.List.AList
import Mathlib.Data.Option.Basic

/-!
# Path — assets and points

The cascading paths that address assets and telemetry points (`pkg/cpath/cpath.go`), over the
dictionary of the deployment (`pkg/cpath/dict.go`): a site, a chain of typed nodes that each may
stand below the one before, and for a point an optional loop, side and phase, in that order, and a
quantity.
-/

namespace Cios.Cpath
open Text List
open Effect (bind_eq_ok)

inductive Level where
  | device
  | chip
  | other
deriving DecidableEq, Repr

structure TypeDef where
  parents : List Bytes
  level : Level
deriving DecidableEq

structure QuantityDef where
  unit : Bytes
  host : List Bytes
deriving DecidableEq

/-- A section that is also searched through: its entries by name, in the order of the search. -/
abbrev Section (α : Type) := AList fun _ : Bytes => α

structure Dict where
  types : Bytes → Option TypeDef
  quantities : Section QuantityDef
  derived : Section QuantityDef
  loops : Bytes → Bool
  sides : Bytes → Bool
  phases : Bytes → Bool
  domains : Section (List Bytes)

/-- A typed step of a path, with its index as it was written. -/
structure Node where
  type : Bytes
  index : Bytes
deriving DecidableEq, Repr

structure AssetPath where
  site : Bytes
  nodes : List Node
deriving DecidableEq, Repr

structure Point where
  asset : AssetPath
  loop : Bytes
  /-- `-1` for a loop without an index. -/
  loopIndex : Int
  side : Bytes
  phase : Bytes
  quantity : Bytes
deriving DecidableEq, Repr

/-- The errors of the source, with what their texts quote. -/
inductive PathError where
  | malformed (s : Bytes)
  | badSite (site : Bytes)
  | bareType (seg : Bytes)
  | unknownSegment (seg : Bytes)
  | badIndex (seg : Bytes) (level : Level)
  | badParent (typeName prevType : Bytes)
  | missingQuantity (s : Bytes)
  | siteLevel (q : Bytes)
  | missingSide (s : Bytes)
  | siteHost (q : Bytes)
  | host (q last : Bytes)
  | unknownQuantity (q : Bytes)
deriving DecidableEq, Repr

/-! ### The patterns -/

/-- `[a-z0-9.]`. -/
def isPathByte (c : UInt8) : Bool := isAlnum c || c == '.'

/-- `reOverall`. -/
def reOverall (s : Bytes) : Bool := s ≠ [] && s.all isPathByte

/-- `reSite`: two to eight letters and two digits. -/
def reSite (s : Bytes) : Bool :=
  let letters := s.takeWhile isLower
  let digits := s.dropWhile isLower
  2 ≤ letters.length && letters.length ≤ 8 && digits.length == 2 && digits.all isDigit

/-- `reNode` and its two groups: letters, then digits. -/
def reNode (seg : Bytes) : Option (Bytes × Bytes) :=
  let name := seg.takeWhile isLower
  let idx := seg.dropWhile isLower
  if name ≠ [] && idx ≠ [] && idx.all isDigit then some (name, idx) else none

/-- `reLoopName` and its two groups: letters, then at most one digit. -/
def reLoopName (seg : Bytes) : Option (Bytes × Bytes) :=
  let name := seg.takeWhile isLower
  let idx := seg.dropWhile isLower
  if name ≠ [] && idx.length ≤ 1 && idx.all isDigit then some (name, idx) else none

/-- `reChipIndex`: no leading zero, at most three digits. -/
def reChipIndex (idx : Bytes) : Bool :=
  idx == lit "0" ||
    (idx ≠ [] && idx.head? ≠ some ('0' : UInt8) && idx.length ≤ 3 && idx.all isDigit)

def checkIndex (ty : TypeDef) (idx seg : Bytes) : Except PathError Unit :=
  match ty.level with
  | .device => if idx.length ≠ 3 then .error (.badIndex seg .device) else .ok ()
  | .chip => if !reChipIndex idx then .error (.badIndex seg .chip) else .ok ()
  | .other => .error (.badIndex seg .other)

/-! ### Parsing -/

/-- What both parsers begin with: the site, and the segments below it. -/
def header (s : Bytes) : Except PathError (Bytes × List Bytes) :=
  if !reOverall s || contains ".." s then .error (.malformed s)
  else
    match split '.' s with
    | site :: rest =>
      if rest = [] || site = [] || rest.getLast? = some [] then .error (.malformed s)
      else if !reSite site || (lit "00").isSuffixOf site then .error (.badSite site)
      else .ok (site, rest)
    | [] => .error (.malformed s)

section Parse

variable (d : Dict)

/-- A node of a known type below a node of type `prev`. -/
def checkNode (ty : TypeDef) (prev name idx seg : Bytes) : Except PathError Node := do
  checkIndex ty idx seg
  if !ty.parents.contains prev then .error (.badParent name prev) else .ok ⟨name, idx⟩

/-- The nodes of an asset path, below a node of type `prev`: every segment is one. -/
def assetNodes : Bytes → List Bytes → Except PathError (List Node)
  | _, [] => .ok []
  | prev, seg :: rest =>
    match reNode seg with
    | none =>
      if (d.types seg).isSome then .error (.bareType seg) else .error (.unknownSegment seg)
    | some (name, idx) =>
      match d.types name with
      | none => .error (.unknownSegment seg)
      | some ty => do
        let node ← checkNode ty prev name idx seg
        let nodes ← assetNodes name rest
        .ok (node :: nodes)

def parseAssetPath (s : Bytes) : Except PathError AssetPath := do
  let (site, rest) ← header s
  let nodes ← assetNodes d "site" rest
  .ok ⟨site, nodes⟩

/-- The nodes of a point and what is left from the first segment that is no node of a known type. -/
def nodePass : Bytes → List Bytes → Except PathError (List Node × List Bytes)
  | _, [] => .ok ([], [])
  | prev, seg :: rest =>
    match reNode seg with
    | none =>
      if (d.types seg).isSome then .error (.bareType seg) else .ok ([], seg :: rest)
    | some (name, idx) =>
      match d.types name with
      | none => .ok ([], seg :: rest)
      | some ty => do
        let node ← checkNode ty prev name idx seg
        let (nodes, left) ← nodePass name rest
        .ok (node :: nodes, left)

/-- What the location pass has read, and the first category that may still follow. -/
structure Location where
  loop : Bytes := []
  loopIndex : Int := -1
  side : Bytes := []
  phase : Bytes := []
  stage : Nat := 0

/-- A segment of the location: its category, and the location with it. -/
def classify (l : Location) (seg : Bytes) : Option (Nat × Location) :=
  let loop :=
    match reLoopName seg with
    | some (name, idx) =>
      if d.loops name then
        some (0, { l with
          loop := name, loopIndex := if idx = [] then l.loopIndex else digits idx })
      else none
    | none => none
  loop <|> (if d.sides seg then some (1, { l with side := seg }) else none) <|>
    (if d.phases seg then some (2, { l with phase := seg }) else none)

def locationPass : Location → List Bytes → Except PathError Location
  | l, [] => .ok l
  | l, seg :: rest =>
    match classify d l seg with
    | none => .error (.unknownSegment seg)
    | some (cat, l') =>
      if cat < l.stage then .error (.unknownSegment seg)
      else locationPass { l' with stage := cat + 1 } rest

/-- The checks on the quantity of a point. -/
def checkQuantity (nodes : List Node) (l : Location) (s q : Bytes) : Except PathError Unit :=
  if nodes = [] && (d.derived.lookup q).isNone then .error (.siteLevel q)
  else if l.loop ≠ [] && l.side = [] && q = lit "temp" then .error (.missingSide s)
  else
    match d.quantities.lookup q, d.derived.lookup q with
    | some _, _ => .ok ()
    | none, none => .error (.unknownQuantity q)
    | none, some q' =>
      match nodes.getLast? with
      | none => if !q'.host.contains "site" then .error (.siteHost q) else .ok ()
      | some last => if !q'.host.contains last.type then .error (.host q last.type) else .ok ()

def parsePoint (s : Bytes) : Except PathError Point := do
  let (site, rest) ← header s
  let (nodes, left) ← nodePass d "site" rest
  let l ← locationPass d {} left.dropLast
  match left.getLast? with
  | none => .error (.missingQuantity s)
  | some q => do
    checkQuantity d nodes l s q
    .ok ⟨⟨site, nodes⟩, l.loop, l.loopIndex, l.side, l.phase, q⟩

end Parse

/-! ### Printing -/

def Node.text (n : Node) : Bytes := n.type ++ n.index

def AssetPath.text (p : AssetPath) : Bytes :=
  p.site ++ p.nodes.flatMap fun n => lit "." ++ n.text

/-- The loop of a point with its index. -/
def Point.loopText (p : Point) : Bytes :=
  p.loop ++ (if 0 ≤ p.loopIndex then lit (toString p.loopIndex) else [])

def Point.text (p : Point) : Bytes :=
  p.asset.text ++ (if p.loop = [] then [] else lit "." ++ p.loopText) ++
    (if p.side = [] then [] else lit "." ++ p.side) ++
    (if p.phase = [] then [] else lit "." ++ p.phase) ++ lit "." ++ p.quantity

/-! ### What is accepted -/

variable {d : Dict}

theorem header_ok {s site : Bytes} {rest : List Bytes} (h : header s = .ok (site, rest)) :
    split '.' s = site :: rest ∧ s.all isPathByte = true ∧ [] ∉ split '.' s := by
  unfold header at h
  split_ifs at h with hover
  simp only [reOverall, Bool.or_eq_true, Bool.not_eq_true', Bool.and_eq_false_iff, not_or,
    decide_eq_false_iff_not, not_not] at hover
  split at h
  · rename_i site' rest' hsplit
    split_ifs at h with hwhole
    cases h
    simp only [Bool.or_eq_true, decide_eq_true_eq, not_or] at hwhole
    refine ⟨hsplit, by simpa using hover.1.2, fun h0 => ?_⟩
    rcases nil_mem_splitOn.mp h0 with he | he | he | he
    · exact hover.1.1 he
    · obtain ⟨t, rfl⟩ := head?_eq_some_iff.mp he
      rw [splitOn_self] at hsplit
      exact hwhole.1.2 (cons.inj hsplit).1.symm
    · -- The separator at the end leaves an empty last segment.
      obtain ⟨t, rfl⟩ := getLast?_eq_some_iff.mp he
      rw [split_append_cons, show split '.' [] = [[]] from splitOn_nil ..] at hsplit
      have hlast := congrArg List.getLast? hsplit
      rw [getLast?_concat, getLast?_cons_of_ne_nil hwhole.1.1] at hlast
      exact hwhole.2 hlast.symm
    · exact hover.2 (contains_iff.mpr he)
  · cases h

theorem reNode_text {seg name idx : Bytes} (h : reNode seg = some (name, idx)) :
    name ++ idx = seg := by
  simp only [reNode] at h
  split_ifs at h
  cases h
  exact takeWhile_append_dropWhile

theorem checkNode_ok {ty : TypeDef} {prev name idx seg : Bytes} {node : Node}
    (h : checkNode ty prev name idx seg = .ok node) : node = ⟨name, idx⟩ := by
  obtain ⟨_, -, h⟩ := bind_eq_ok h
  split_ifs at h
  cases h
  rfl

/-- The nodes of a point and the segments left by the node pass are all its segments. -/
theorem nodePass_text : ∀ {segs : List Bytes} {prev : Bytes} {nodes : List Node}
    {left : List Bytes}, nodePass d prev segs = .ok (nodes, left) →
    nodes.map Node.text ++ left = segs
  | [], _, _, _, h => by
    cases h
    rfl
  | seg :: rest, prev, nodes, left, h => by
    simp only [nodePass] at h
    split at h
    · split_ifs at h
      cases h
      rfl
    rename_i name idx hnode
    split at h
    · cases h
      rfl
    obtain ⟨node, hcheck, h⟩ := bind_eq_ok h
    obtain ⟨⟨nodes', left'⟩, hr, h⟩ := bind_eq_ok h
    cases h
    rw [checkNode_ok hcheck, map_cons, cons_append, nodePass_text hr, Node.text,
      reNode_text hnode]

theorem checkQuantity_known {nodes : List Node} {l : Location} {s q : Bytes}
    (h : checkQuantity d nodes l s q = .ok ()) :
    (d.quantities.lookup q).isSome ∨ (d.derived.lookup q).isSome := by
  unfold checkQuantity at h
  split at h
  · cases h
  split at h
  · cases h
  split at h
  · rename_i hq
    exact .inl (by simp [hq])
  · cases h
  · rename_i hq
    exact .inr (by simp [hq])

/-- The quantity of a point that is accepted is not empty, and the dictionary has it. -/
theorem parsePoint_quantity {s : Bytes} {p : Point} (h : parsePoint d s = .ok p) :
    p.quantity ≠ [] ∧
      ((d.quantities.lookup p.quantity).isSome ∨ (d.derived.lookup p.quantity).isSome) := by
  obtain ⟨⟨site, rest⟩, hh, h⟩ := bind_eq_ok h
  obtain ⟨⟨nodes, left⟩, hn, h⟩ := bind_eq_ok h
  obtain ⟨l, -, h⟩ := bind_eq_ok h
  split at h
  · cases h
  rename_i q hq
  obtain ⟨_, hc, h⟩ := bind_eq_ok h
  cases h
  refine ⟨?_, checkQuantity_known hc⟩
  rintro rfl
  -- the last segment of all is also the last of those left by the node pass
  obtain ⟨hsplit, -, h0⟩ := header_ok hh
  refine h0 (hsplit ▸ mem_cons_of_mem _ ?_)
  rw [← nodePass_text hn]
  exact mem_append_right _ (mem_of_getLast? hq)

theorem parsePoint_dot (s : Bytes) : ∃ e, parsePoint d (('.' : UInt8) :: s) = .error e := by
  cases h : parsePoint d (('.' : UInt8) :: s) with
  | error e => exact ⟨e, rfl⟩
  | ok p =>
    obtain ⟨⟨site, rest⟩, hh, -⟩ := bind_eq_ok h
    obtain ⟨-, -, h0⟩ := header_ok hh
    exact absurd (splitOn_self '.' s ▸ mem_cons_self) h0

/-! ### Round trips -/

section RoundTrip

variable {s seg name idx prev : Bytes} {segs : List Bytes} {nodes : List Node} {l l' : Location}

theorem assetNodes_pass (h : assetNodes d prev segs = .ok nodes) :
    nodePass d prev segs = .ok (nodes, []) := by
  induction segs generalizing prev nodes with
  | nil =>
    cases h
    rfl
  | cons seg rest ih =>
    simp only [assetNodes] at h
    simp only [nodePass]
    cases hnode : reNode seg with
    | none =>
      simp only [hnode] at h
      split_ifs at h
    | some m =>
      simp only [hnode] at h ⊢
      cases hty : d.types m.1 with
      | none => simp [hty] at h
      | some ty =>
        simp only [hty] at h ⊢
        obtain ⟨node, hcheck, h⟩ := bind_eq_ok h
        obtain ⟨nodes', hr, h⟩ := bind_eq_ok h
        cases h
        rw [hcheck, ih hr]
        rfl

theorem digit_text : ∀ c : UInt8, isDigit c = true → lit (digits [c] : Int).repr = [c] :=
  forall_byte (by decide +kernel)

theorem reLoopName_text (h : reLoopName seg = some (name, idx)) :
    name ≠ [] ∧ name ++ idx = seg ∧ (idx = [] ∨ ∃ c, idx = [c] ∧ isDigit c = true) := by
  simp only [reLoopName] at h
  split_ifs at h with hre
  cases h
  simp only [Bool.and_eq_true, decide_eq_true_eq, all_eq_true] at hre
  refine ⟨hre.1.1, takeWhile_append_dropWhile, ?_⟩
  rcases hidx : List.dropWhile isLower seg with _ | ⟨c, _ | ⟨c', rest⟩⟩
  · exact .inl rfl
  · exact .inr ⟨c, rfl, hre.2 c (by simp [hidx])⟩
  · simp [hidx] at hre

def Location.text (l : Location) : List Bytes :=
  (if l.loop = [] then []
    else [l.loop ++ if 0 ≤ l.loopIndex then lit (toString l.loopIndex) else []]) ++
  (if l.side = [] then [] else [l.side]) ++ (if l.phase = [] then [] else [l.phase])

/-- Nothing of a category that may still follow has been read. -/
structure Location.Staged (l : Location) : Prop where
  loop : l.stage = 0 → l.loop = [] ∧ l.loopIndex = -1
  side : l.stage ≤ 1 → l.side = []
  phase : l.stage ≤ 2 → l.phase = []

/-- What a segment adds to a location, by its category. -/
theorem classify_cases {cat : Nat} (h : classify d l seg = some (cat, l')) :
    (∃ name idx, reLoopName seg = some (name, idx) ∧ cat = 0 ∧ l' = { l with
      loop := name, loopIndex := if idx = [] then l.loopIndex else digits idx }) ∨
    (cat = 1 ∧ l' = { l with side := seg }) ∨ (cat = 2 ∧ l' = { l with phase := seg }) := by
  rcases (Option.orElse_eq_some _ _ _).mp h with hloop | ⟨-, h⟩
  · split at hloop
    · rename_i name idx hre
      split at hloop
      · cases hloop
        exact .inl ⟨name, idx, hre, rfl, rfl⟩
      · cases hloop
    · cases hloop
  · rcases (Option.orElse_eq_some _ _ _).mp h with hside | ⟨-, hphase⟩
    · split_ifs at hside
      cases hside
      exact .inr (.inl ⟨rfl, rfl⟩)
    · split_ifs at hphase
      cases hphase
      exact .inr (.inr ⟨rfl, rfl⟩)

/-- A segment that is accepted is the next of the location's own. -/
theorem Location.Staged.classify {cat : Nat} (h : l.Staged) (hc : classify d l seg = some (cat, l'))
    (hcat : ¬ cat < l.stage) (hseg : seg ≠ []) :
    ({ l' with stage := cat + 1 } : Location).Staged ∧ l'.text = l.text ++ [seg] := by
  rcases classify_cases hc with ⟨name, idx, hre, rfl, rfl⟩ | ⟨rfl, rfl⟩ | ⟨rfl, rfl⟩
  · obtain ⟨hloop, hindex⟩ := h.loop (by omega)
    have hside := h.side (by omega)
    have hphase := h.phase (by omega)
    obtain ⟨hname, htext, hidx⟩ := reLoopName_text hre
    refine ⟨⟨by simp, fun _ => hside, fun _ => hphase⟩, ?_⟩
    rcases hidx with rfl | ⟨c, rfl, hdigit⟩
    · simp [Location.text, hloop, hindex, hside, hphase, hname, ← htext]
    · simp [Location.text, hloop, hside, hphase, hname, ← htext, digit_text c hdigit]
  · have hside := h.side (by omega)
    have hphase := h.phase (by omega)
    refine ⟨⟨by simp, by simp, fun _ => hphase⟩, ?_⟩
    simp [Location.text, hside, hphase, hseg]
  · have hphase := h.phase (by omega)
    refine ⟨⟨by simp, by simp, by simp⟩, ?_⟩
    simp [Location.text, hphase, hseg]

theorem locationPass_text (h : locationPass d l segs = .ok l') (hl : l.Staged) (h0 : [] ∉ segs) :
    l'.text = l.text ++ segs := by
  induction segs generalizing l with
  | nil =>
    cases h
    simp
  | cons seg rest ih =>
    rw [mem_cons, not_or] at h0
    simp only [locationPass] at h
    split at h
    · cases h
    rename_i cat l₁ hc
    split_ifs at h with hcat
    obtain ⟨hstaged, htext⟩ := hl.classify hc hcat (Ne.symm h0.1)
    rw [ih h hstaged h0.2, append_cons, ← htext]
    rfl

theorem text_of_segments {p : AssetPath} {m : List Bytes}
    (h : split '.' s = p.site :: (p.nodes.map Node.text ++ m)) :
    p.text ++ (m.map (('.' : UInt8) :: ·)).flatten = s := by
  have hjoin : [('.' : UInt8)].intercalate (split '.' s) = s := intercalate_splitOn _
  rw [h, ← join_segments] at hjoin
  rw [← hjoin, AssetPath.text]
  simp [flatMap_def, Function.comp_def, show lit "." = [('.' : UInt8)] by decide]

/-- **Addresses round trip.**  What either parser accepts is printed back as it was read, and read
again as itself; no text is both an asset and a point. -/
theorem addresses_round_trip (d : Dict) (s : Bytes) :
    (∀ p, parseAssetPath d s = .ok p → p.text = s ∧ parseAssetPath d p.text = .ok p) ∧
    (∀ p, parsePoint d s = .ok p → p.text = s ∧ parsePoint d p.text = .ok p) ∧
    ∀ p q, parseAssetPath d s = .ok p → parsePoint d s ≠ .ok q := by
  have hasset : ∀ p, parseAssetPath d s = .ok p → p.text = s := by
    intro p h
    obtain ⟨⟨site, rest⟩, hh, h⟩ := bind_eq_ok h
    obtain ⟨nodes, hn, h⟩ := bind_eq_ok h
    cases h
    have hsegs := nodePass_text (assetNodes_pass hn)
    simpa using text_of_segments (m := []) (by rw [hsegs]; exact (header_ok hh).1)
  have hpoint : ∀ p, parsePoint d s = .ok p → p.text = s := by
    intro p h
    obtain ⟨⟨site, rest⟩, hh, h⟩ := bind_eq_ok h
    obtain ⟨⟨nodes, left⟩, hn, h⟩ := bind_eq_ok h
    obtain ⟨l, hl, h⟩ := bind_eq_ok h
    obtain ⟨hsplit, -, h0⟩ := header_ok hh
    rw [← nodePass_text hn] at hsplit
    split at h
    · cases h
    rename_i q hq
    obtain ⟨_, -, h⟩ := bind_eq_ok h
    cases h
    have hleft : left.dropLast ++ [q] = left := dropLast_append_getLast? q hq
    have h0' : [] ∉ left.dropLast := fun hin => h0 (hsplit ▸
      mem_cons_of_mem _ (mem_append_right _ (mem_of_mem_dropLast hin)))
    have hloc := locationPass_text hl ⟨fun _ => ⟨rfl, rfl⟩, fun _ => rfl, fun _ => rfl⟩ h0'
    rw [← hleft, ← show l.text = left.dropLast by simpa [Location.text] using hloc] at hsplit
    rw [← text_of_segments (p := ⟨site, nodes⟩) hsplit, Point.text, Point.loopText, Location.text]
    split_ifs <;> simp_all [show lit "." = [('.' : UInt8)] by decide]
  refine ⟨fun p h => ?_, fun p h => ?_, fun p q hp hq => ?_⟩
  · rw [hasset p h]
    exact ⟨rfl, h⟩
  · rw [hpoint p h]
    exact ⟨rfl, h⟩
  -- The node pass of the point takes every segment, and leaves no quantity.
  obtain ⟨⟨site, rest⟩, hh, hp⟩ := bind_eq_ok hp
  obtain ⟨nodes, hn, -⟩ := bind_eq_ok hp
  obtain ⟨head, hh', hq⟩ := bind_eq_ok hq
  obtain rfl : (site, rest) = head := Except.ok.inj (hh.symm.trans hh')
  obtain ⟨pass, hpass, hq⟩ := bind_eq_ok hq
  obtain rfl : (nodes, []) = pass := Except.ok.inj ((assetNodes_pass hn).symm.trans hpass)
  cases hq

end RoundTrip

end Cios.Cpath
