import Cios.Support.Table

/-!
# Http — report retention

`pruneReports` (`core/report_gen.go`) takes every file with the reports' prefix for a report, so
that a note whose name begins alike is counted and deleted as a report would be
(`prune_retains_iff`).
-/

namespace Cios.Http
open Text List

inductive FileKind where
  | directory
  | regular
  | other
deriving DecidableEq, Repr

structure DirEntry where
  name : Bytes
  kind : FileKind
  modTime : Int
deriving DecidableEq, Repr

def reportFilePrefix : Bytes := "ops-"

def isCandidate (e : DirEntry) : Bool :=
  e.kind ≠ .directory && reportFilePrefix.isPrefixOf e.name

/-- An outcome of the sort, which leaves equal times in any order. -/
structure Sorts (dir order : List DirEntry) : Prop where
  perm : order.Perm (dir.filter isCandidate)
  newestFirst : order.Pairwise fun e e' => e'.modTime ≤ e.modTime

/-- The loop over the files to delete: what is left, and whether it came to the end. -/
def removeAll (fails : Bytes → Bool) : List DirEntry → List DirEntry → List DirEntry × Bool
  | [], dir => (dir, true)
  | e :: es, dir =>
    if fails e.name then (dir, false) else removeAll fails es (dir.filter (·.name ≠ e.name))

def pruneReports (keep : Int) (fails : Bytes → Bool) (order dir : List DirEntry) :
    List DirEntry × Bool :=
  if keep ≤ 0 then (dir, true)
  else if order.length ≤ keep then (dir, true)
  else removeAll fails (order.drop keep.toNat) dir

/-- The date of a report's name, a zero standing for any digit. -/
def datePattern : Bytes := "0000-00-00.html"

def isReportName (name : Bytes) : Bool :=
  let date := name.drop reportFilePrefix.length
  reportFilePrefix.isPrefixOf name && date.length = datePattern.length &&
    (datePattern.zip date).all fun c => if c.1 = '0' then isDigit c.2 else c.1 = c.2

def isReport (e : DirEntry) : Bool := e.kind = .regular && isReportName e.name

theorem isCandidate_of_isReport {e : DirEntry} (h : isReport e = true) : isCandidate e = true := by
  simp only [isReport, isReportName, Bool.and_eq_true, decide_eq_true_eq] at h
  simp [isCandidate, h.1, h.2.1.1]

theorem reports_sublist (l : List DirEntry) : (l.filter isReport).Sublist (l.filter isCandidate) :=
  monotone_filter_right l fun _ => isCandidate_of_isReport

variable {dir order : List DirEntry} {fails : Bytes → Bool} {keep : Nat}

theorem removeAll_eq (hfails : ∀ name, fails name = false) :
    removeAll fails order dir = (dir.filter (·.name ∉ order.map DirEntry.name), true) := by
  induction order generalizing dir with
  | nil => simp [removeAll]
  | cons e es ih =>
    rw [removeAll, hfails, if_neg (by simp), ih, filter_filter]
    exact congrArg (·, true) (filter_congr (by grind))

theorem prune_few (h : order.length ≤ keep) : pruneReports keep fails order dir = (dir, true) := by
  unfold pruneReports
  split_ifs
  any_goals rfl
  omega

theorem prune_eq (hkeep : 0 < keep) (hfails : ∀ name, fails name = false) :
    pruneReports keep fails order dir =
      (dir.filter (·.name ∉ (order.drop keep).map DirEntry.name), true) := by
  by_cases hfew : order.length ≤ keep
  · rw [prune_few hfew, drop_eq_nil_of_le hfew]
    simp
  · rw [pruneReports, if_neg (by omega), if_neg (by omega), removeAll_eq hfails]
    simp

theorem filter_front {front back : List DirEntry}
    (h : ((front ++ back).map DirEntry.name).Nodup) :
    (front ++ back).filter (·.name ∉ back.map DirEntry.name) = front := by
  rw [map_append, nodup_append] at h
  rw [filter_append, filter_eq_self.mpr, filter_eq_nil_iff.mpr, append_nil]
  · intro e he
    simpa using ⟨e, he, rfl⟩
  · intro e he
    simpa using fun e' he' heq => h.2.2 _ (mem_map_of_mem he) _ (mem_map_of_mem he') heq.symm

/-- The candidates left are those before the cut. -/
theorem left_perm (hnodup : (dir.map DirEntry.name).Nodup) (h : Sorts dir order) :
    ((dir.filter (·.name ∉ (order.drop keep).map DirEntry.name)).filter isCandidate).Perm
      (order.take keep) := by
  have hnames : (order.map DirEntry.name).Nodup :=
    (h.perm.map _).nodup_iff.mpr (hnodup.sublist (filter_sublist.map _))
  rw [← take_append_drop keep order] at hnames
  have hcut := filter_front hnames
  rw [take_append_drop] at hcut
  rw [filter_comm, ← hcut]
  exact (h.perm.filter _).symm

/-- Only reports are deleted, the newest `keep` of them stay, and a second run deletes nothing. -/
structure Retains (keep : Nat) (fails : Bytes → Bool) (dir left : List DirEntry) : Prop where
  sublist : left.Sublist dir
  deleted : ∀ e ∈ dir, e ∉ left → isReport e = true
  count : (left.filter isReport).length = min keep (dir.filter isReport).length
  newest : ∀ e ∈ left, isReport e = true → ∀ e' ∈ dir, e' ∉ left → e'.modTime ≤ e.modTime
  again : ∀ order', Sorts left order' → pruneReports keep fails order' left = (left, true)

theorem retains_few (h : Sorts dir order) (hfew : (dir.filter isCandidate).length ≤ keep) :
    Retains keep fails dir (pruneReports keep fails order dir).1 := by
  have hagain : ∀ order', Sorts dir order' → pruneReports keep fails order' dir = (dir, true) :=
    fun order' h' => prune_few (h'.perm.length_eq.trans_le hfew)
  rw [hagain order h]
  have hcount : (dir.filter isReport).length ≤ keep :=
    (reports_sublist dir).length_le.trans hfew
  exact ⟨.refl dir, fun e he hnot => absurd he hnot, (min_eq_right hcount).symm,
    fun _ _ _ e' he' hnot => absurd he' hnot, hagain⟩

section Prune
variable (hkeep : 0 < keep) (hnodup : (dir.map DirEntry.name).Nodup)
  (hfails : ∀ name, fails name = false) (h : Sorts dir order)
include hkeep hnodup hfails h

/-- What is deleted are the files behind the cut. -/
theorem not_mem_left {e : DirEntry} (he : e ∈ dir) :
    e ∉ (pruneReports keep fails order dir).1 ↔ e ∈ order.drop keep := by
  rw [prune_eq hkeep hfails, mem_filter, decide_eq_true_eq, not_and, not_not]
  constructor
  · intro hnot
    obtain ⟨e', he', hname⟩ := mem_map.mp (hnot he)
    have hdir := (mem_filter.mp (h.perm.mem_iff.mp (mem_of_mem_drop he'))).1
    rwa [inj_on_of_nodup_map hnodup he hdir hname.symm]
  · exact fun hback _ => mem_map_of_mem hback

theorem candidates_left : ((pruneReports keep fails order dir).1.filter isCandidate).Perm
    (order.take keep) := by
  rw [prune_eq hkeep hfails]
  exact left_perm hnodup h

theorem retains_reports (hreports : ∀ e ∈ dir, isCandidate e = true → isReport e = true) :
    Retains keep fails dir (pruneReports keep fails order dir).1 where
  sublist := by
    rw [prune_eq hkeep hfails]
    exact filter_sublist
  deleted := fun e he hnot => hreports e he (mem_filter.mp (h.perm.mem_iff.mp
    (mem_of_mem_drop ((not_mem_left hkeep hnodup hfails h he).mp hnot)))).2
  count := by
    have hsame {l : List DirEntry} (hl : l ⊆ dir) : l.filter isReport = l.filter isCandidate :=
      filter_congr fun e he => Bool.eq_iff_iff.mpr ⟨isCandidate_of_isReport, hreports e (hl he)⟩
    rw [hsame (by rw [prune_eq hkeep hfails]; exact filter_subset_self ..), hsame (fun _ => id),
      (candidates_left hkeep hnodup hfails h).length_eq, length_take, h.perm.length_eq]
  newest := by
    intro e he hrep e' he' hnot
    have hfront := (candidates_left hkeep hnodup hfails h).mem_iff.mp
      (mem_filter.mpr ⟨he, isCandidate_of_isReport hrep⟩)
    have hsorted := h.newestFirst
    rw [← take_append_drop keep order, pairwise_append] at hsorted
    exact hsorted.2.2 e hfront e' ((not_mem_left hkeep hnodup hfails h he').mp hnot)
  again := by
    intro order' h'
    refine prune_few ?_
    rw [h'.perm.length_eq, (candidates_left hkeep hnodup hfails h).length_eq, length_take]
    exact min_le_left _ _

/-- With too many candidates, a file that is no report is deleted or takes the place of one. -/
theorem not_retains {e : DirEntry} (he : e ∈ dir) (hcand : isCandidate e = true)
    (hnot : isReport e = false) (hmany : keep < (dir.filter isCandidate).length) :
    ¬Retains keep fails dir (pruneReports keep fails order dir).1 := by
  intro hret
  have hleft : e ∈ (pruneReports keep fails order dir).1 := by
    by_contra hgone
    rw [hret.deleted e he hgone] at hnot
    cases hnot
  -- one of the files that are kept is no report, so fewer reports than `keep` are left
  have hfewer : ((pruneReports keep fails order dir).1.filter isReport).length < keep := by
    have hlen := (candidates_left hkeep hnodup hfails h).length_eq
    rw [length_take, h.perm.length_eq, min_eq_left hmany.le] at hlen
    refine lt_of_le_of_ne ((reports_sublist _).length_le.trans_eq hlen) fun hsame => ?_
    have hmem := mem_filter.mpr ⟨hleft, hcand⟩
    rw [← (reports_sublist _).eq_of_length (hsame.trans hlen.symm), mem_filter, hnot] at hmem
    cases hmem.2
  -- so no report is deleted, although something is
  have hall : (pruneReports keep fails order dir).1.filter isReport = dir.filter isReport := by
    refine (hret.sublist.filter _).eq_of_length ?_
    have := hret.count
    omega
  obtain ⟨d, hd⟩ := exists_mem_of_length_pos (l := order.drop keep) (by
    rw [length_drop, h.perm.length_eq]
    omega)
  have hdir := (mem_filter.mp (h.perm.mem_iff.mp (mem_of_mem_drop hd))).1
  have hgone := (not_mem_left hkeep hnodup hfails h hdir).mpr hd
  have hmem : d ∈ dir.filter isReport := mem_filter.mpr ⟨hdir, hret.deleted d hdir hgone⟩
  rw [← hall] at hmem
  exact hgone (mem_filter.mp hmem).1

end Prune

/-- **Retention.**  Only reports are deleted and counted exactly when every candidate is one or
there are at most `keep`. -/
theorem prune_retains_iff (hkeep : 0 < keep) (hnodup : (dir.map DirEntry.name).Nodup)
    (hfails : ∀ name, fails name = false) (h : Sorts dir order) :
    Retains keep fails dir (pruneReports keep fails order dir).1 ↔
      (∀ e ∈ dir, isCandidate e = true → isReport e = true) ∨
        (dir.filter isCandidate).length ≤ keep := by
  constructor
  · intro hret
    by_contra! hno
    obtain ⟨⟨e, he, hcand, hnot⟩, hmany⟩ := hno
    exact not_retains hkeep hnodup hfails h he hcand (Bool.eq_false_iff.mpr hnot) hmany hret
  · rintro (hreports | hfew)
    · exact retains_reports hkeep hnodup hfails h hreports
    · exact retains_few h hfew

def reports : List DirEntry :=
  [⟨"ops-2026-01-02.html", .regular, 2⟩, ⟨"ops-2026-01-01.html", .regular, 1⟩]

def note (modTime : Int) : DirEntry := ⟨"ops-notes.txt", .regular, modTime⟩

theorem prune_retains_iff_reports :
    Retains 1 (fun _ => false) reports (pruneReports 1 (fun _ => false) reports reports).1 ∧
      Retains 3 (fun _ => false) (note 3 :: reports)
        (pruneReports 3 (fun _ => false) (note 3 :: reports) (note 3 :: reports)).1 :=
  ⟨(prune_retains_iff (by decide) (by decide) (fun _ => rfl) ⟨.refl _, by decide⟩).mpr
      (.inl (by decide)),
    (prune_retains_iff (by decide) (by decide) (fun _ => rfl) ⟨.refl _, by decide⟩).mpr
      (.inr (by decide))⟩

/-- A note older than two reports goes with the older one when one file is kept; a newer one takes
the place of both. -/
theorem note_takes_place :
    isReport (note 0) = false ∧ isReport (note 3) = false ∧
    Sorts (note 0 :: reports) (reports ++ [note 0]) ∧
    note 0 ∉ (pruneReports 1 (fun _ => false) (reports ++ [note 0]) (note 0 :: reports)).1 ∧
    Sorts (note 3 :: reports) (note 3 :: reports) ∧
    (pruneReports 1 (fun _ => false) (note 3 :: reports) (note 3 :: reports)).1 = [note 3] :=
  ⟨by decide, by decide, ⟨(perm_append_singleton ..), by decide⟩, by decide, ⟨.refl _, by decide⟩,
    by decide⟩

end Cios.Http
