import Cios.Driver.Modbus

/-!
# Gateway — point definitions and the pipeline of samples

A row of a point map (`pkg/pointmap`) says where a point is read and what its raw values mean.  From
it come the driver's binding (`pkg/modbusbind`) and the point's `Pipeline` (`gateway/pipeline.go`),
which turns each sample into a value in the standard unit: scale, vendor code, unit conversion, in
this order, and then the limits, which only lower the quality.

Numbers are exact rationals.  The two conversions of a `float64` to an integer, which out of range
depend on the machine, are left open (`Casts`).
-/

namespace Cios.Gateway
open Text
open Cios.Driver
open Cios.Modbus (Binding Table)

/-- `uint16(x)` and `int(x)` of a `float64`. -/
structure Casts where
  uint16 : Rat → UInt16
  int : Rat → Int

/-- Truncation, with the low bits of what does not fit, as on the 64-bit machines. -/
def truncating : Casts :=
  ⟨fun x => .ofInt (x.num.tdiv x.den), fun x => x.num.tdiv x.den⟩

/-! ### Point definitions -/

inductive Access where
  | ro
  | rw
deriving DecidableEq, Repr

structure Limits where
  min : Rat
  max : Rat

/-- A value under a key of the point map that the driver owns. -/
inductive ProtoValue where
  | int (n : Int)
  | float (x : Rat)
  | str (s : Bytes)
  | other

/-- `PointDef`, with the two protocol keys that are read.  A missing `enum_map` has no entry. -/
structure PointDef where
  point : Bytes
  access : Access
  unitIn : Bytes
  scale : Rat
  limits : Option Limits
  enumMap : Int → Option Int
  register : Option ProtoValue
  table : Option ProtoValue

inductive BindError where
  | missingRegister
  | register (s : Bytes)
  | registerType
  | table
deriving DecidableEq, Repr

def bindRegister (c : Casts) : Option ProtoValue → Except BindError UInt16
  | none => .error .missingRegister
  | some (.int n) => .ok (.ofInt n)
  | some (.float x) => .ok (c.uint16 x)
  | some (.str s) =>
    match parseUint (2 ^ 16) s with
    | some v => .ok (.ofNat v)
    | none => .error (.register s)
  | some .other => .error .registerType

def bindTable : Option ProtoValue → Except BindError Table
  | none => .ok .holding
  | some (.str s) =>
    if s = "holding" then .ok .holding else if s = "input" then .ok .input else .error .table
  | some _ => .error .table

def buildFromPointDef (c : Casts) (pd : PointDef) : Except BindError Binding := do
  let reg ← bindRegister c pd.register
  let table ← bindTable pd.table
  .ok ⟨pd.point, table, reg, pd.access = .rw⟩

/-! ### Pipelines -/

structure Conv where
  factor : Rat
  offset : Rat

/-- The conversions of `units.yaml`: standard unit, then vendor unit. -/
abbrev Units := Bytes → Bytes → Option Conv

def canConvert (u : Units) (std unitIn : Bytes) : Option Conv :=
  if std = unitIn then some ⟨1, 0⟩ else u std unitIn

/-- What a pipeline reads of a quantity: its unit and, for an enumeration, the standard codes. -/
structure QuantityDef where
  unit : Bytes
  enum : Option (List Int)

structure Pipeline where
  enum : Option (List Int)
  conv : Conv
  scale : Rat
  emap : Int → Option Int
  limits : Option Limits

/-- `newPipelineCore`, once the point's path is parsed and its quantity found. -/
def newPipelineCore (u : Units) (q : QuantityDef) (pd : PointDef) : Option Pipeline :=
  let conv := if pd.unitIn = [] then some ⟨1, 0⟩ else canConvert u q.unit pd.unitIn
  conv.map fun conv => ⟨q.enum, conv, pd.scale, pd.enumMap, pd.limits⟩

namespace Pipeline

/-- The vendor code of an enumeration, as the standard one where the map has it. -/
def standardCode (p : Pipeline) (c : Casts) (v : Rat) : Rat :=
  match p.emap (c.int v) with
  | some mapped => mapped
  | none => v

def convert (p : Pipeline) (c : Casts) (s : Sample) : Rat × Quality :=
  let v := s.value * p.scale
  let coded : Rat × Quality :=
    match p.enum with
    | none => (v, s.quality)
    | some codes =>
      let v := p.standardCode c v
      (v, if c.int v ∈ codes then s.quality else .suspect)
  let v := coded.1 * p.conv.factor + p.conv.offset
  match p.limits with
  | some l => (v, if v < l.min ∨ v > l.max then .suspect else coded.2)
  | none => (v, coded.2)

/-- The point's limits, where it has them. -/
def InLimits (p : Pipeline) (x : Rat) : Prop :=
  ∀ l, p.limits = some l → l.min ≤ x ∧ x ≤ l.max

/-! ### Good samples of an enumeration -/

variable {p : Pipeline} {c : Casts} {s : Sample} {codes : List Int}

theorem convert_good (henum : p.enum = some codes) (hgood : (p.convert c s).2 = .good) :
    let v := p.standardCode c (s.value * p.scale)
    c.int v ∈ codes ∧ (p.convert c s).1 = v * p.conv.factor + p.conv.offset := by
  intro v
  simp only [convert, henum] at hgood ⊢
  have hcode : (if c.int v ∈ codes then s.quality else .suspect) = .good := by
    cases hl : p.limits with
    | none => simpa only [hl] using hgood
    | some l =>
      simp only [hl] at hgood
      split at hgood
      · cases hgood
      · exact hgood
  refine ⟨?_, by split <;> rfl⟩
  by_contra hnot
  rw [if_neg hnot] at hcode
  cases hcode

/-- A good sample's value is a standard code, and the raw value's image where there is a map. -/
def Standard (p : Pipeline) (codes : List Int) (raw out : Rat) : Prop :=
  (∃ code ∈ codes, out = code) ∧
    ((∃ k, (p.emap k).isSome) → ∃ k m, p.emap k = some m ∧ raw = k ∧ out = m)

theorem standard_mapped (henum : p.enum = some codes)
    (hint : ∀ n, (p.emap n).isSome ∨ (∃ k, p.emap k = some n) → c.int n = n)
    (hgood : (p.convert c s).2 = .good) (hmapped : ∃ k, (p.emap k).isSome) :
    p.Standard codes (s.value * p.scale) (p.convert c s).1 ↔ ∃ k m, p.emap k = some m ∧
      s.value * p.scale = k ∧ m * p.conv.factor + p.conv.offset = m := by
  obtain ⟨hmem, hval⟩ := convert_good henum hgood
  -- a raw value that is a key is looked up as itself
  have hcode : ∀ {k m}, p.emap k = some m → s.value * p.scale = k →
      p.standardCode c (s.value * p.scale) = m := fun hk hraw => by
    rw [standardCode, hraw, hint _ (.inl (by simp [hk])), hk]
  constructor
  · rintro ⟨-, hmap⟩
    obtain ⟨k, m, hk, hraw, hout⟩ := hmap hmapped
    rw [hval, hcode hk hraw] at hout
    exact ⟨k, m, hk, hraw, hout⟩
  · rintro ⟨k, m, hk, hraw, hfixed⟩
    rw [hcode hk hraw] at hmem hval
    rw [hint m (.inr ⟨k, hk⟩)] at hmem
    rw [hfixed] at hval
    exact ⟨⟨m, hmem, hval⟩, fun _ => ⟨k, m, hk, hraw, hval⟩⟩

theorem standardCode_unmapped (h : ¬∃ k, (p.emap k).isSome) (raw : Rat) :
    p.standardCode c raw = raw := by
  cases hlook : p.emap (c.int raw) with
  | some m => exact absurd ⟨_, by rw [hlook]; rfl⟩ h
  | none => simp [standardCode, hlook]

theorem standard_unmapped (henum : p.enum = some codes) (hgood : (p.convert c s).2 = .good)
    (hmapped : ¬∃ k, (p.emap k).isSome) :
    p.Standard codes (s.value * p.scale) (p.convert c s).1 ↔
      ∃ code ∈ codes, s.value * p.scale * p.conv.factor + p.conv.offset = (code : Int) := by
  obtain ⟨-, hval⟩ := convert_good henum hgood
  rw [hval, standardCode_unmapped hmapped]
  exact and_iff_left fun h => absurd h hmapped

/-- **Good samples of an enumeration.**  A good sample's value is standard exactly when the map has
the raw value as a code, to one that the unit conversion leaves alone, or there is no map and the
raw value converts to a standard code.  With no unit to convert, this is that the raw value is an
integer the map has: the source cuts off a fraction first, and lets pass what the map lacks. -/
theorem standard_code_iff (henum : p.enum = some codes)
    (hint : ∀ n, n ∈ codes ∨ (p.emap n).isSome ∨ (∃ k, p.emap k = some n) → c.int n = n)
    (hgood : (p.convert c s).2 = .good) :
    let raw := s.value * p.scale
    let mapped := ∃ k, (p.emap k).isSome
    let kept := (mapped → ∃ k m, p.emap k = some m ∧ raw = k ∧
        m * p.conv.factor + p.conv.offset = m) ∧
      (¬mapped → ∃ code ∈ codes, raw * p.conv.factor + p.conv.offset = (code : Int))
    (p.Standard codes raw (p.convert c s).1 ↔ kept) ∧
      (p.conv = ⟨1, 0⟩ →
        (kept ↔ (c.int raw : Rat) = raw ∧ (mapped → (p.emap (c.int raw)).isSome))) := by
  intro raw mapped kept
  by_cases hmapped : mapped
  · have hkept : kept ↔ ∃ k m, p.emap k = some m ∧ raw = k ∧
        m * p.conv.factor + p.conv.offset = m := by simp only [kept, hmapped]; simp
    rw [hkept]
    refine ⟨standard_mapped henum (fun n h => hint n (.inr h)) hgood hmapped, fun hconv => ?_⟩
    simp only [hconv, mul_one, add_zero, and_true, hmapped, true_imp_iff]
    constructor
    · rintro ⟨k, m, hk, hraw⟩
      have hkey : c.int raw = k := by rw [hraw, hint k (.inr (.inl (by simp [hk])))]
      exact ⟨by rw [hkey, hraw], by rw [hkey, hk]; rfl⟩
    · rintro ⟨hraw, hsome⟩
      obtain ⟨m, hm⟩ := Option.isSome_iff_exists.mp hsome
      exact ⟨c.int raw, m, hm, hraw.symm⟩
  · have hkept : kept ↔ ∃ code ∈ codes, raw * p.conv.factor + p.conv.offset = (code : Int) := by
      simp only [kept, hmapped]; simp
    rw [hkept]
    refine ⟨standard_unmapped henum hgood hmapped, fun hconv => ?_⟩
    simp only [hconv, mul_one, add_zero, hmapped, false_imp_iff, and_true]
    constructor
    · rintro ⟨code, hin, hraw⟩
      rw [hraw, hint code (.inl hin)]
    · intro hraw
      obtain ⟨hmem, -⟩ := convert_good henum hgood
      rw [standardCode_unmapped hmapped] at hmem
      exact ⟨_, hmem, hraw.symm⟩

def switch (emap : Int → Option Int) : Pipeline := ⟨some [0, 1], ⟨1, 0⟩, 1, emap, none⟩

def vendorTen (n : Int) : Option Int := if n = 10 then some 1 else none

def ten : Sample := ⟨[], 10, 0, .good⟩

theorem standard_code_iff_ten :
    let p := switch vendorTen
    p.Standard [0, 1] (ten.value * p.scale) (p.convert truncating ten).1 := by
  have hint : ∀ n : Int, truncating.int n = n := by simp [truncating]
  exact (standard_code_iff (p := switch vendorTen) (s := ten) rfl (fun n _ => hint n)
    (by decide +kernel)).1.mpr
      ⟨fun _ => ⟨10, 1, rfl, by decide +kernel, by decide +kernel⟩, fun h => absurd ⟨10, rfl⟩ h⟩

/-- A value between two codes is good, and so is a code that the map does not have. -/
theorem fraction_is_good :
    (switch fun _ => none).convert truncating ⟨[], 3 / 2, 0, .good⟩ = (3 / 2, .good) ∧
      (switch vendorTen).convert truncating ⟨[], 1, 0, .good⟩ = (1, .good) := by
  decide +kernel

end Pipeline

end Cios.Gateway
