import Cios.Http.Tickets

/-!
# Tickets — the checklist of an inspection

The checklist of an inspection and what is submitted for it share one text, line by line: the items,
and behind them lines that begin with `result:`, which are left out when the checklist is read again
(`core/inspection.go`, `core/inspection_form.go`, `checklist_survives_iff`).
-/

namespace Cios.Ticket
open Text List
open Cios.Http.Core

variable {V : Type} {items : List Bytes}

/-- The runbook of a ticket opened for a template with these items. -/
def encodeInspectionRunbook (items : List Bytes) : Bytes :=
  if items = [] then [] else inspectionFormPrefix ++ (lit "\n").intercalate items

/-- A form, or a photo, that is submitted for an inspection. -/
inductive Submission where
  | form (note : Bytes) (checked : List Int) (now : Int)
  | photo (relPath : Bytes)

/-- The runbook with a submission behind it. -/
def Submission.behind (env : Env V) (runbook : Bytes) : Submission → Bytes
  | .form note checked now => appendInspectionResult env runbook note checked now
  | .photo relPath => appendInspectionPhoto runbook relPath

/-- What the handlers leave: a submission for a ticket that is no inspection is refused. -/
def submit (env : Env V) (runbook : Bytes) (s : Submission) : Bytes :=
  if inspectionFormPrefix.isPrefixOf runbook then s.behind env runbook else runbook

/-- A line that is read as an item. -/
def isItem (line : Bytes) : Bool := line ≠ [] && !inspectionFormResultPrefix.isPrefixOf line

def readItems (s : Bytes) : List Bytes := (split '\n' s).filter isItem

theorem decode_prefixed (body : Bytes) :
    decodeInspectionRunbook (inspectionFormPrefix ++ body) = readItems body := by
  rfl

theorem readItems_line (s t : Bytes) :
    readItems (s ++ ('\n' : UInt8) :: t) = readItems s ++ readItems t := by
  rw [readItems, split_append_cons, filter_append]
  rfl

theorem readItems_intercalate : ∀ {items : List Bytes}, items ≠ [] →
    readItems ((lit "\n").intercalate items) = items.flatMap readItems
  | [item], _ => by simp
  | item :: next :: rest, _ => by
    have ih := @readItems_intercalate (next :: rest) (by simp)
    rw [intercalate_cons_cons, append_assoc, flatMap_cons, ← ih]
    exact readItems_line item _

/-- The text of a checklist with its last line ended. -/
theorem endLine_prefixed (body : Bytes) : ∃ b, readItems b = readItems body ∧
    endLine (inspectionFormPrefix ++ body) = inspectionFormPrefix ++ b ++ lit "\n" := by
  unfold endLine
  split_ifs with hend
  · exact ⟨body, rfl, rfl⟩
  rcases eq_nil_or_concat body with rfl | ⟨b, c, rfl⟩
  · exact absurd (by decide) hend
  obtain rfl : c = '\n' := by
    by_contra hc
    refine hend ⟨by simp, ?_⟩
    rw [Bool.not_eq_true', ← Bool.not_eq_true, isSuffixOf_iff_suffix, concat_eq_append,
      ← append_assoc]
    rintro ⟨t, ht⟩
    exact hc (singleton_inj.mp (append_inj' ht rfl).2.symm)
  refine ⟨b, ?_, by simp; rfl⟩
  rw [concat_eq_append, readItems_line]
  exact (append_nil _).symm

/-- Behind a checklist a submission adds its own lines. -/
theorem submit_prefixed (env : Env V) (body : Bytes) (s : Submission) :
    ∃ body', submit env (inspectionFormPrefix ++ body) s = inspectionFormPrefix ++ body' ∧
      readItems body' = readItems body ++ readItems (s.behind env []) := by
  obtain ⟨b, hb, hend⟩ := endLine_prefixed body
  have hbehind : s.behind env (inspectionFormPrefix ++ body) =
      inspectionFormPrefix ++ (b ++ ('\n' : UInt8) :: s.behind env []) := by
    cases s with
    | form note checked now =>
      rw [Submission.behind, appendInspectionResult, hend]
      simp [Submission.behind, appendInspectionResult]
      rfl
    | photo relPath =>
      rw [Submission.behind, appendInspectionPhoto, hend]
      simp
      rfl
  refine ⟨b ++ ('\n' : UInt8) :: s.behind env [], ?_, by rw [readItems_line, hb]⟩
  rw [submit, if_pos ( isPrefixOf_iff_prefix.mpr (prefix_append _ _)), hbehind]

theorem decode_submits (env : Env V) : ∀ (subs : List Submission) (body : Bytes),
    decodeInspectionRunbook (subs.foldl (submit env) (inspectionFormPrefix ++ body)) =
      readItems body ++ subs.flatMap fun s => readItems (s.behind env [])
  | [], body => by simp [decode_prefixed]
  | s :: subs, body => by
    obtain ⟨body', hs, hread⟩ := submit_prefixed env body s
    rw [foldl_cons, hs, decode_submits env subs body', hread, flatMap_cons, append_assoc]

/-- A text that is one line, and read as an item. -/
def IsLine (item : Bytes) : Prop := ('\n' : UInt8) ∉ item ∧ isItem item = true

theorem isLine_of_mem {s item : Bytes} (h : item ∈ readItems s) : IsLine item := by
  obtain ⟨hsplit, hitem⟩ := mem_filter.mp h
  exact ⟨not_mem_of_mem_splitOn hsplit, hitem⟩

theorem flatMap_readItems (h : ∀ item ∈ items, IsLine item) : items.flatMap readItems = items := by
  have hone : ∀ item ∈ items, readItems item = [item] := by
    intro item hitem
    rw [readItems, split, splitOn_eq_singleton (h item hitem).1]
    simp [(h item hitem).2]
  rw [flatMap_congr hone, flatMap_singleton']

/-- **Checklists and submissions.**  After any submissions an inspection's checklist is read as
written exactly when each item is one line and read as an item, and no submitted line is read as
one. -/
theorem checklist_survives_iff (env : Env V) (items : List Bytes) (subs : List Submission) :
    decodeInspectionRunbook (subs.foldl (submit env) (encodeInspectionRunbook items)) = items ↔
      (∀ item ∈ items, IsLine item) ∧
        (items ≠ [] → ∀ s ∈ subs, readItems (s.behind env []) = []) := by
  by_cases hne : items = []
  · subst hne
    have hrefused : subs.foldl (submit env) [] = [] := foldl_fixed' (fun _ => rfl) subs
    rw [encodeInspectionRunbook, if_pos rfl, hrefused]
    exact iff_of_true rfl ⟨by simp, fun h => absurd rfl h⟩
  · rw [encodeInspectionRunbook, if_neg hne, decode_submits, readItems_intercalate hne]
    constructor
    · intro h
      have hitems : ∀ item ∈ items, IsLine item := by
        intro item hitem
        rw [← h, mem_append, mem_flatMap, mem_flatMap] at hitem
        rcases hitem with ⟨_, -, hread⟩ | ⟨_, -, hread⟩
        iterate 2 exact isLine_of_mem hread
      rw [flatMap_readItems hitems, append_right_eq_self, flatMap_eq_nil_iff] at h
      exact ⟨hitems, fun _ => h⟩
    · rintro ⟨hitems, hsubs⟩
      rw [flatMap_readItems hitems, flatMap_eq_nil_iff.mpr (hsubs hne), append_nil]

/-- A note of two lines: the second is an item of the next form. -/
theorem note_becomes_item :
    decodeInspectionRunbook (submit Env.plain (encodeInspectionRunbook ["fans"])
      (.form "ok\nfan 2 is loud" [0] 0)) = [lit "fans", lit "fan 2 is loud"] := by
  decide

end Cios.Ticket
