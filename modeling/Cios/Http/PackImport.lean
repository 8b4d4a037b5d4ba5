import Cios.Support.Run
import Cios.Support.Text

/-!
# Http — imports of model packs

`ImportUSDPack` (`core/modelpacks.go`) writes an upload to a staging file, has that file linted, and
renames it to the pack's own.  The staging file is named after the pack, so two imports of one pack
share it, and so does an import of a pack that is called like it (`promoted_own`).
-/

namespace Cios.Http
open Text Runs Function List

structure Upload where
  root : Bytes
  typ : Bytes
  model : Bytes
  ext : Bytes
  data : Bytes
  force : Bool

abbrev Files := Bytes → Option Bytes

namespace Upload

variable (u : Upload) (f : Files)

/-- `filepath.Join`, of segments without separators. -/
def join (segs : List Bytes) : Bytes := (lit "/").intercalate (segs.filter (· ≠ lit "."))

def dest : Bytes := join [u.root, u.typ, u.model ++ u.ext]

def stage : Bytes := join [u.root, u.typ, u.model ++ ".staging" ++ u.ext]

/-- The names `packFilePath` tries. -/
def names : List Bytes := [".usdc", ".usda"].map (join [u.root, u.typ, u.model] ++ ·)

def packFilePath : Option Bytes := u.names.find? fun p => (f p).isSome

/-- The files with the pack as it was removed: any for a forced import, then the target. -/
def cleared : Files :=
  update (if u.force then (u.packFilePath f).elim f (update f · none) else f) u.dest none

end Upload

inductive ImportPhase where
  | requested
  | admitted
  | staged
  /-- The lint has passed on these bytes. -/
  | linted (seen : Bytes)
  | placed (seen put : Bytes)
  | failed

variable (passes : Bytes → Prop)

/-- One step of an import.  Those that fail may leave anything where they were writing. -/
inductive Move (u : Upload) (f : Files) : ImportPhase → Files → ImportPhase → Prop where
  | enter (h : u.force = true ∨ f u.dest = none ∧ u.packFilePath f = none) :
      Move u f .requested f .admitted
  | refuse : Move u f .requested f .failed
  | write : Move u f .admitted (update f u.stage (some u.data)) .staged
  | breakOff {b : Option Bytes} : Move u f .admitted (update f u.stage b) .failed
  | pass {b : Bytes} (h : f u.stage = some b) (hpass : passes b) : Move u f .staged f (.linted b)
  | reject : Move u f .staged (update f u.stage none) .failed
  | promote {seen b : Bytes} (h : u.cleared f u.stage = some b) : Move u f (.linted seen)
      (update (update (u.cleared f) u.stage none) u.dest (some b)) (.placed seen b)
  | lose {seen : Bytes} {b : Option Bytes} : Move u f (.linted seen)
      (update (update (u.cleared f) u.dest b) u.stage none) .failed

structure Catalogue (ι : Type) where
  files : Files
  phase : ι → ImportPhase

variable {ι : Type} [DecidableEq ι] (ups : ι → Upload)

/-- Import `j` takes a step. -/
def Catalogue.step (c : Catalogue ι) (j : ι) (c' : Catalogue ι) : Prop :=
  ∃ f p, Move passes (ups j) c.files (c.phase j) f p ∧ c' = ⟨f, update c.phase j p⟩

/-- Where an import stands with its bytes. -/
def Upload.Holds (u : Upload) (f : Files) : ImportPhase → Prop
  | .staged => f u.stage = some u.data
  | .linted seen => f u.stage = some u.data ∧ seen = u.data ∧ passes u.data
  | .placed seen put => put = u.data ∧ seen = u.data ∧ passes u.data
  | _ => True

variable {passes ups} {u : Upload} {f f' : Files} {p p' : ImportPhase} {path : Bytes}

theorem cleared_other (h : path ∉ u.dest :: u.names) : u.cleared f path = f path := by
  rw [mem_cons, not_or] at h
  rw [Upload.cleared, update_of_ne h.1]
  split
  · cases hprev : u.packFilePath f with
    | none => rfl
    | some q =>
      refine update_of_ne ?_ ..
      rintro rfl
      exact h.2 (mem_of_find?_eq_some hprev)
  · rfl

/-- An import touches its staging file and its pack's. -/
theorem Move.other (h : Move passes u f p f' p') (hstage : path ≠ u.stage)
    (hpack : path ∉ u.dest :: u.names) : f' path = f path := by
  have hdest : path ≠ u.dest := fun e => hpack (e ▸ mem_cons_self)
  cases h <;> simp [hstage, hdest, cleared_other hpack]

theorem Move.holds (h : Move passes u f p f' p') (hown : u.stage ∉ u.dest :: u.names)
    (hp : u.Holds passes f p) : u.Holds passes f' p' := by
  cases h with
  | enter | refuse | breakOff | reject | lose => trivial
  | write => exact update_self ..
  | pass h hpass =>
    obtain rfl : _ = u.data := Option.some.inj (h.symm.trans hp)
    exact ⟨h, rfl, hpass⟩
  | promote h =>
    rw [cleared_other hown, hp.1] at h
    exact ⟨(Option.some.inj h).symm, hp.2⟩

variable {i : ι} (hstage : ∀ j ≠ i, (ups i).stage ≠ (ups j).stage)
  (hpack : ∀ j, (ups i).stage ∉ (ups j).dest :: (ups j).names)
include hstage hpack

theorem Catalogue.step_holds {c c' : Catalogue ι} {j : ι} (h : c.step passes ups j c')
    (hc : (ups i).Holds passes c.files (c.phase i)) :
    (ups i).Holds passes c'.files (c'.phase i) := by
  obtain ⟨f, p, hmove, rfl⟩ := h
  by_cases hj : j = i
  · subst hj
    simpa using hmove.holds (hpack j) hc
  · have hsame := hmove.other (hstage j hj) (hpack j)
    dsimp only
    rw [update_of_ne (Ne.symm hj)]
    cases hphase : c.phase i <;> simp_all [Upload.Holds]

/-- **Import.**  Where no other import touches its staging file, whatever the interleaving, one that
is done has placed the bytes of its upload, which passed its lint. -/
theorem promoted_own {c : Catalogue ι} {ls : List ι}
    (hrun : Run (Catalogue.step passes ups) ⟨f, fun _ => .requested⟩ ls c) {seen put : Bytes}
    (h : c.phase i = .placed seen put) :
    put = (ups i).data ∧ seen = (ups i).data ∧ passes (ups i).data := by
  have hinv := @Run.invariant _ _ _
    (fun c : Catalogue ι => (ups i).Holds passes c.files (c.phase i))
    (fun hc h => Catalogue.step_holds hstage hpack h hc) _ _ _ hrun trivial
  rw [h] at hinv
  exact hinv

omit hstage hpack

def cdu (data : Bytes) : Upload := ⟨"assets/usd", "cdu", "x1", ".usda", data, true⟩

theorem promoted_own_cdu : ∃ c : Catalogue Unit,
    Run (Catalogue.step (· = lit "ok") fun _ => cdu "ok") ⟨fun _ => none, fun _ => .requested⟩
      [(), (), (), ()] c ∧ c.phase () = .placed "ok" "ok" ∧ lit "ok" = (cdu "ok").data := by
  have hrun : Run (Catalogue.step (· = lit "ok") fun _ => cdu "ok")
      ⟨fun _ => none, fun _ => .requested⟩ [(), (), (), ()] _ :=
    .more ⟨_, _, .enter (.inl rfl), rfl⟩ <| .more ⟨_, _, .write, rfl⟩ <|
    .more ⟨_, _, .pass rfl rfl, rfl⟩ <| .more ⟨_, _, .promote rfl, rfl⟩ <| .refl _
  exact ⟨_, hrun, rfl, (promoted_own (i := ()) (by simp) (fun _ => by decide) hrun rfl).1⟩

/-- The second upload of the pack is written between the first one's lint and its promotion. -/
theorem unlinted_bytes_placed : ∃ c : Catalogue Bool,
    Run (Catalogue.step (· = lit "ok") fun b => cdu (if b then "ok" else "bad"))
      ⟨fun _ => none, fun _ => .requested⟩ [true, true, true, false, false, true] c ∧
      c.phase true = .placed "ok" "bad" :=
  ⟨_, .more ⟨_, _, .enter (.inl rfl), rfl⟩ <| .more ⟨_, _, .write, rfl⟩ <|
    .more ⟨_, _, .pass rfl rfl, rfl⟩ <| .more ⟨_, _, .enter (.inl rfl), rfl⟩ <|
    .more ⟨_, _, .write, rfl⟩ <| .more ⟨_, _, .promote rfl, rfl⟩ <| .refl _, rfl⟩

end Cios.Http
