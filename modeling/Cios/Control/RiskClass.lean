import Cios.Control.Policy
import Cios.Path.Cpath

/-!
# Control — risk classes by whole segments

The class of a point is looked up by text: an entry of the list is for a point whose path, without
its digits, ends in the entry or has it anywhere behind a dot.  What is meant is segments: those of
the entry are the last ones of the path (`Aligned`).  The text tests also find an entry at the end
of a longer segment, and one before the end of the path (`Occurs`, `class_aligned_iff`).
-/

namespace Cios.Control
open Text List Option
open Cios.Cpath

/-- The segments of a path, without instance digits. -/
def segments (path : Bytes) : List Bytes := split '.' (stripInstanceDigits path)

/-- The entry's segments are the last ones of the path; `.status` is for one under maintenance. -/
def Aligned (path stem : Bytes) : Prop :=
  stem = ".status" ∧ (segments path).getLast? = some (lit "status") ∧
      lit "maintenance" ∈ segments path ∨
    stem ≠ ".status" ∧ split '.' stem <:+ segments path

instance (path stem : Bytes) : Decidable (Aligned path stem) :=
  inferInstanceAs (Decidable (_ ∨ _))

structure LongestAligned (path : Bytes) (e : Bytes × RiskClass) : Prop where
  mem : e ∈ l108AllowList
  aligned : Aligned path e.1
  longest : ∀ e' ∈ l108AllowList, Aligned path e'.1 → e'.1.length ≤ e.1.length

/-- The stem's segments are the path's last, the first of them as the end of a longer one. -/
def AtEnd (segs : List Bytes) (stem : Bytes) : Prop :=
  ∃ x first rest, split '.' stem = first :: rest ∧ (x ++ first) :: rest <:+ segs

/-- The stem's segments follow one of the path, the last of them beginning a longer one. -/
def Inside (segs : List Bytes) (stem : Bytes) : Prop :=
  ∃ y init last pre post, split '.' stem = init ++ [last] ∧ pre ≠ [] ∧
    segs = pre ++ (init ++ (last ++ y) :: post)

/-- What the text tests ask of the segments of a path. -/
def Occurs (segs : List Bytes) (stem : Bytes) : Prop :=
  stem = ".status" ∧ (∃ pre, pre ≠ [] ∧ segs = pre ++ [lit "status"]) ∧
      (∃ s ∈ segs, lit "maintenance" <:+: s) ∨
    stem ≠ ".status" ∧ (AtEnd segs stem ∨ Inside segs stem)

/-- The entry is the longest that occurs in the path, and the first in the list of that length. -/
def Taken (path : Bytes) (e : Bytes × RiskClass) : Prop :=
  ∃ pre post, l108AllowList = pre ++ e :: post ∧ Occurs (segments path) e.1 ∧
    (∀ e' ∈ pre, Occurs (segments path) e'.1 → e'.1.length < e.1.length) ∧
    ∀ e' ∈ post, Occurs (segments path) e'.1 → e'.1.length ≤ e.1.length

/-! ### Segments and text -/

def join (segs : List Bytes) : Bytes := (lit ".").intercalate segs

theorem join_split (s : Bytes) : join (split '.' s) = s := intercalate_splitOn _

theorem split_join {segs : List Bytes} (hne : segs ≠ []) (h : ∀ s ∈ segs, ('.' : UInt8) ∉ s) :
    split '.' (join segs) = segs :=
  splitOn_intercalate _ h hne

theorem join_append {ys : List Bytes} (hys : ys ≠ []) : ∀ {xs : List Bytes}, xs ≠ [] →
    join (xs ++ ys) = join xs ++ lit "." ++ join ys
  | [], h => absurd rfl h
  | [x], _ => by simp [join, intercalate_cons_of_ne_nil hys]
  | x :: x' :: xs, _ => by
    have ih : join (x' :: xs ++ ys) = _ := join_append hys (cons_ne_nil x' xs)
    simp only [join, cons_append, intercalate_cons_cons, append_assoc] at ih ⊢
    rw [ih]

/-- Two texts run together share the segment where they meet. -/
theorem join_glue (x y : Bytes) (post : List Bytes) : ∀ pre : List Bytes,
    join (pre ++ (x ++ y) :: post) = join (pre ++ [x]) ++ join (y :: post)
  | [] => by
    cases post <;> simp [join]
  | p :: pre => by
    have hcons : ∀ {ys : List Bytes}, ys ≠ [] → join (p :: ys) = p ++ lit "." ++ join ys :=
      fun h => intercalate_cons_of_ne_nil h
    rw [cons_append, hcons (by simp), join_glue x y post pre, cons_append, hcons (by simp)]
    simp only [append_assoc]

theorem split_append (s t : Bytes) : ∃ pre x y post, split '.' s = pre ++ [x] ∧
    split '.' t = y :: post ∧ split '.' (s ++ t) = pre ++ (x ++ y) :: post := by
  obtain ⟨y, post, ht⟩ := exists_cons_of_ne_nil (splitOn_ne_nil ('.' : UInt8) t)
  obtain ⟨pre, x, hs⟩ : ∃ pre x, split '.' s = pre ++ [x] :=
    ⟨_, _, (dropLast_append_getLast (splitOn_ne_nil _ s)).symm⟩
  refine ⟨pre, x, y, post, hs, ht, ?_⟩
  have hfree : ∀ p ∈ pre ++ (x ++ y) :: post, ('.' : UInt8) ∉ p := by
    have hs' : ∀ p ∈ pre ++ [x], ('.' : UInt8) ∉ p := hs ▸ fun p => not_mem_of_mem_splitOn
    have ht' : ∀ p ∈ y :: post, ('.' : UInt8) ∉ p := ht ▸ fun p => not_mem_of_mem_splitOn
    simp only [mem_append, mem_cons, not_mem_nil, or_false] at hs' ht' ⊢
    rintro p (hp | rfl | hp)
    · exact hs' p (.inl hp)
    · simp [hs' x (.inr rfl), ht' y (.inl rfl)]
    · exact ht' p (.inr hp)
  rw [← split_join (by simp) hfree, join_glue, ← hs, ← ht, join_split, join_split]

variable {path stem p s : Bytes}

theorem suffix_iff_atEnd : stem <:+ s ↔ AtEnd (split '.' s) stem := by
  constructor
  · rintro ⟨u, rfl⟩
    obtain ⟨pre, x, first, rest, -, hstem, hsplit⟩ := split_append u stem
    exact ⟨x, first, rest, hstem, pre, hsplit.symm⟩
  · rintro ⟨x, first, rest, hstem, pre, hsegs⟩
    rw [← join_split s, ← hsegs, join_glue, ← hstem, join_split]
    exact suffix_append _ _

theorem infix_iff_inside : lit "." ++ stem <:+: s ↔ Inside (split '.' s) stem := by
  constructor
  · rintro ⟨u, v, rfl⟩
    obtain ⟨init, last, y, post, hstem, -, hsplit⟩ := split_append stem v
    refine ⟨y, init, last, split '.' u, post, hstem, splitOn_ne_nil _ _, ?_⟩
    rw [← hsplit, ← split_append_cons, show lit "." = [('.' : UInt8)] by decide]
    simp
  · rintro ⟨y, init, last, pre, post, hstem, hne, hsegs⟩
    rw [← join_split s, hsegs, join_append (by simp) hne, join_glue, ← hstem, join_split]
    exact ⟨join pre, join (y :: post), by simp⟩

theorem infix_iff_segment {m : Bytes} (hm : split '.' m = [m]) :
    m <:+: s ↔ ∃ seg ∈ split '.' s, m <:+: seg := by
  constructor
  · rintro ⟨u, v, rfl⟩
    obtain ⟨pre, x, y, post, -, hmy, hum⟩ := split_append u m
    obtain ⟨rfl, rfl⟩ : m = y ∧ [] = post := by simpa [hm] using hmy
    obtain ⟨pre', x', y', post', hum', -, h⟩ := split_append (u ++ m) v
    obtain ⟨-, rfl⟩ := append_inj' (hum.symm.trans hum') rfl
      |>.imp_right cons.inj |>.imp_right And.left
    exact ⟨_, h ▸ by simp, x, y', rfl⟩
  · rintro ⟨seg, hin, h⟩
    obtain ⟨pre, post, hsegs⟩ := append_of_mem hin
    refine h.trans ?_
    rw [← join_split s, hsegs, ← nil_append seg, join_glue]
    refine (IsPrefix.isInfix ?_).trans (suffix_append _ _).isInfix
    cases post <;> simp [join]

theorem status_iff : lit ".status" <:+ s ↔
    ∃ pre, pre ≠ [] ∧ split '.' s = pre ++ [lit "status"] := by
  have hdot : lit ".status" = ('.' : UInt8) :: lit "status" := by decide
  constructor
  · rintro ⟨u, rfl⟩
    refine ⟨split '.' u, splitOn_ne_nil _ _, ?_⟩
    rw [hdot, split_append_cons, show split '.' (lit "status") = [lit "status"] by decide]
  · rintro ⟨pre, hne, hsegs⟩
    rw [← join_split s, hsegs, join_append (by simp) hne, append_assoc]
    exact suffix_append _ _

/-- The text tests find the entries that occur.  The test on the path with digits adds nothing. -/
theorem entryMatches_iff (hstem : stripInstanceDigits stem = stem) :
    entryMatches path (stripInstanceDigits path) stem = true ↔ Occurs (segments path) stem := by
  unfold entryMatches Occurs segments
  split
  · rename_i h
    rw [Bool.and_eq_true, isSuffixOf_iff_suffix, contains_iff, status_iff,
      infix_iff_segment (by decide)]
    simp [h]
  · rename_i h
    have hdigits : stem <:+ path → stem <:+ stripInstanceDigits path := by
      rintro ⟨u, rfl⟩
      rw [stripInstanceDigits, filter_append, ← stripInstanceDigits, ← stripInstanceDigits, hstem]
      exact suffix_append _ _
    rw [Bool.or_eq_true, Bool.or_eq_true, isSuffixOf_iff_suffix, isSuffixOf_iff_suffix,
      contains_iff, infix_iff_inside, or_iff_left_of_imp fun hp => .inl (hdigits hp),
      suffix_iff_atEnd]
    simp [h]

/-- Whole segments at the end are a case of the text test. -/
theorem atEnd_of_suffix {segs : List Bytes} (h : split '.' stem <:+ segs) : AtEnd segs stem := by
  obtain ⟨first, rest, hsplit⟩ := exists_cons_of_ne_nil (splitOn_ne_nil ('.' : UInt8) stem)
  exact ⟨[], first, rest, hsplit, hsplit ▸ h⟩

theorem Aligned.occurs (h : Aligned path stem) : Occurs (segments path) stem := by
  rcases h with ⟨rfl, hlast, hin⟩ | ⟨hne, h⟩
  · -- the maintenance segment stands before the last one
    obtain ⟨pre, hpre⟩ := getLast?_eq_some_iff.mp hlast
    refine .inl ⟨rfl, ⟨pre, ?_, hpre⟩, _, hin, infix_refl _⟩
    rintro rfl
    rw [hpre] at hin
    exact absurd hin (by decide)
  · exact .inr ⟨hne, .inl (atEnd_of_suffix h)⟩

theorem Aligned.suffix (h : Aligned path stem) : stem <:+ stripInstanceDigits path := by
  rcases h.occurs with ⟨rfl, hend, -⟩ | ⟨hne, -⟩
  · exact status_iff.mpr hend
  · exact suffix_iff_atEnd.mpr (atEnd_of_suffix (h.resolve_left fun h' => hne h'.1).2)

/-! ### The lookup -/

section Lookup

variable {norm : Bytes} {table : List (Bytes × RiskClass)} {best : Option (Bytes × RiskClass)}
  {e : Bytes × RiskClass}

theorem longestEntry_isSome {x : Bytes × RiskClass}
    (h : best = some x ∨ x ∈ table ∧ entryMatches p norm x.1 = true) :
    (longestEntry p norm table best).isSome = true := by
  induction table generalizing best x with
  | nil => simpa [longestEntry] using h.resolve_right (by simp) ▸ rfl
  | cons y table ih =>
    rw [longestEntry]
    split
    · exact ih (.inl rfl)
    · -- an entry that is not kept gives way to one that was kept before
      cases best with
      | some b => exact ih (.inl rfl)
      | none => exact ih (x := x) (by grind)

/-- By induction on the list: the entry kept so far stays, or a later one is longer. -/
theorem longestEntry_some (h : longestEntry p norm table best = some e) :
    (best = some e ∧ ∀ e' ∈ table, entryMatches p norm e'.1 = true → e'.1.length ≤ e.1.length) ∨
    ∃ pre post, table = pre ++ e :: post ∧ entryMatches p norm e.1 = true ∧
      (∀ b, best = some b → b.1.length < e.1.length) ∧
      (∀ e' ∈ pre, entryMatches p norm e'.1 = true → e'.1.length < e.1.length) ∧
      ∀ e' ∈ post, entryMatches p norm e'.1 = true → e'.1.length ≤ e.1.length := by
  induction table generalizing best with
  | nil => exact .inl ⟨h, by simp⟩
  | cons y table ih =>
    rw [longestEntry] at h
    split at h
    · rename_i hy
      obtain ⟨hmatch, hbest⟩ := Bool.and_eq_true_iff.mp hy
      rcases ih h with ⟨he, hall⟩ | ⟨pre, post, rfl, hm, hb, hpre, hpost⟩
      · obtain rfl := some.inj he
        exact .inr ⟨[], table, rfl, hmatch, by rintro b rfl; simpa using hbest, by simp, hall⟩
      · have hlt := hb y rfl
        refine .inr ⟨y :: pre, post, rfl, hm, ?_, by grind, hpost⟩
        rintro b rfl
        exact lt_trans (by simpa using hbest) hlt
    · rename_i hy
      rcases ih h with ⟨rfl, hall⟩ | ⟨pre, post, rfl, hm, hb, hpre, hpost⟩
      · exact .inl ⟨rfl, by grind⟩
      · refine .inr ⟨y :: pre, post, rfl, hm, hb, ?_, hpost⟩
        cases best <;> grind

end Lookup

theorem taken_unique {e e' : Bytes × RiskClass} (h : Taken path e) (h' : Taken path e') :
    e = e' := by
  obtain ⟨pre, post, htable, hocc, hpre, hpost⟩ := h
  obtain ⟨pre', post', htable', hocc', hpre', hpost'⟩ := h'
  rcases append_eq_append_iff.mp (htable.symm.trans htable') with ⟨as, rfl, has⟩ | ⟨as, rfl, has⟩
  all_goals
    cases as with
    | nil => simp_all
    | cons a as =>
      obtain ⟨rfl, rfl⟩ := cons.inj has
      grind

/-- No entry has a digit. -/
theorem stripped_stem : ∀ e ∈ l108AllowList, stripInstanceDigits e.1 = e.1 := by decide

theorem taken_of_longestEntry {e : Bytes × RiskClass}
    (h : longestEntry path (stripInstanceDigits path) l108AllowList none = some e) :
    Taken path e := by
  obtain ⟨pre, post, htable, hm, -, hpre, hpost⟩ := (longestEntry_some h).resolve_left (by simp)
  have hocc : ∀ e' ∈ pre ++ e :: post, entryMatches path (stripInstanceDigits path) e'.1 = true ↔
      Occurs (segments path) e'.1 := fun e' hin =>
    entryMatches_iff (stripped_stem e' (htable ▸ hin))
  refine ⟨pre, post, htable, (hocc e (by simp)).mp hm, fun e' hin h => ?_, fun e' hin h => ?_⟩
  · exact hpre e' hin ((hocc e' (by simp [hin])).mpr h)
  · exact hpost e' hin ((hocc e' (by simp [hin])).mpr h)

theorem exists_taken {e : Bytes × RiskClass} (hin : e ∈ l108AllowList)
    (hocc : Occurs (segments path) e.1) :
    ∃ e', longestEntry path (stripInstanceDigits path) l108AllowList none = some e' :=
  isSome_iff_exists.mp (longestEntry_isSome
    (.inr ⟨hin, (entryMatches_iff (stripped_stem e hin)).mpr hocc⟩))

theorem longestEntry_eq_some {e : Bytes × RiskClass} :
    longestEntry path (stripInstanceDigits path) l108AllowList none = some e ↔ Taken path e := by
  refine ⟨taken_of_longestEntry, fun h => ?_⟩
  have ⟨pre, post, htable, hocc, _⟩ := h
  obtain ⟨e₁, he₁⟩ := exists_taken (htable ▸ by simp) hocc
  rw [he₁, taken_unique (taken_of_longestEntry he₁) h]

/-- Two aligned entries of one length are the same end of the path. -/
theorem LongestAligned.unique {e e' : Bytes × RiskClass} (h : LongestAligned path e)
    (h' : LongestAligned path e') : e = e' := by
  have hle := h'.longest e h.mem h.aligned
  have hstem : e.1 = e'.1 := (suffix_of_suffix_length_le h.aligned.suffix h'.aligned.suffix
    hle).eq_of_length (le_antisymm hle (h.longest e' h'.mem h'.aligned))
  have hkeys : (l108AllowList.map Prod.fst).Nodup := by decide
  exact inj_on_of_nodup_map hkeys h.mem h'.mem hstem

theorem stripAll_path {parts : List Bytes} {n : Nat}
    (hparts : ∀ w ∈ parts, w.head?.any (fun c => !isPathByte c) = true)
    (h : ∀ c ∈ path, isPathByte c = true) : stripAll parts n path = path := by
  cases n with
  | zero => rfl
  | succ n =>
    have hnone : (parts.findSome? fun w => cutPrefix w path) = none := by
      refine findSome?_eq_none_iff.mpr fun w hw => eq_none_iff_forall_ne_some.mpr ?_
      intro r hcut
      obtain ⟨c, hc, hno⟩ := (any_eq_true _ _).mp (hparts w hw)
      have hin : c ∈ path := by
        rw [cutPrefix_eq_some.mp hcut]
        exact mem_append_left _ (mem_of_head? hc)
      simp [h c hin] at hno
    rw [stripAll, hnone]

theorem trimSpace_path (h : path.all isPathByte = true) : trimSpace path = path := by
  have hall := all_eq_true.mp h
  rw [trimSpace, stripAll_path (by decide) hall, stripAll_path (by decide) (by simpa using hall),
    reverse_reverse]

/-- **Risk classes.**  An accepted point has exactly the class of its longest aligned entry if and
only if the entry taken for it, where one is, has that class. -/
theorem class_aligned_iff (letters : Letters) (d : Dict) (path : Bytes) (pt : Point)
    (hp : parsePoint d path = .ok pt) :
    (∀ cls, lookupRiskClass letters path = some cls ↔ ∃ e, LongestAligned path e ∧ e.2 = cls) ↔
      ∀ e, Taken path e → ∃ e', LongestAligned path e' ∧ e'.2 = e.2 := by
  have hne : path ≠ [] := by
    rintro rfl
    cases hp
  obtain ⟨head, hhead, -⟩ := Effect.bind_eq_ok hp
  have hall := (header_ok hhead).2.1
  have hbyte : ∀ c, isPathByte c = true → c < 0x80 ∧ isUpper c = false :=
    forall_byte (by decide +kernel)
  have hlower : letters.toLower path = path :=
    Letters.toLower_eq_self fun c hc => hbyte c (all_eq_true.mp hall c hc)
  have hlookup : ∀ cls, lookupRiskClass letters path = some cls ↔
      ∃ e, Taken path e ∧ e.2 = cls := by
    intro cls
    rw [lookupRiskClass, trimSpace_path hall, hlower, if_neg hne, map_eq_some_iff]
    simp only [longestEntry_eq_some]
  simp only [hlookup]
  constructor
  · intro h e he
    exact (h e.2).mp ⟨e, he, rfl⟩
  · intro h cls
    constructor
    · rintro ⟨e, he, rfl⟩
      exact h e he
    · rintro ⟨e, he, rfl⟩
      -- an aligned entry occurs, so that one is taken
      obtain ⟨e₁, he₁⟩ := exists_taken he.mem he.aligned.occurs
      have htaken := taken_of_longestEntry he₁
      obtain ⟨e', he', hcls⟩ := h e₁ htaken
      exact ⟨e₁, htaken, by rw [← hcls, he'.unique he]⟩

def plantDict : Dict where
  types name := if name = "pump" then some ⟨[lit "cdu"], .device⟩
    else if name = "rpm" then some ⟨[lit "pump"], .device⟩
    else if name = "ups" then some ⟨[lit "rpm"], .device⟩
    else if name = "cdu" ∨ name = "xups" then some ⟨[lit "site"], .device⟩ else none
  quantities := ((AList.singleton (lit "status") ⟨[], []⟩).insert (lit "rpm") ⟨[], []⟩).insert
    (lit "rpmset") ⟨[], []⟩
  derived := ∅
  loops _ := false
  sides _ := false
  phases _ := false
  domains := ∅

/-- The entry taken is `cdu.pump.rpm`, not aligned but of the class of the aligned `ups.status`. -/
theorem class_aligned_iff_ups :
    (∃ pt, parsePoint plantDict "site01.cdu000.pump000.rpm000.ups000.status" = .ok pt) ∧ ∀ cls,
      lookupRiskClass .none "site01.cdu000.pump000.rpm000.ups000.status" = some cls ↔
        ∃ e, LongestAligned "site01.cdu000.pump000.rpm000.ups000.status" e ∧ e.2 = cls := by
  refine ⟨⟨_, rfl⟩, (class_aligned_iff .none plantDict _ _ rfl).mpr fun e he => ?_⟩
  have htaken := longestEntry_eq_some.mpr he
  rw [show longestEntry _ _ _ _ = some (lit "cdu.pump.rpm", RiskClass.a) by decide] at htaken
  cases htaken
  exact ⟨(lit "ups.status", .a), ⟨by decide, by decide, by decide⟩, rfl⟩

/-- `ups.status` is found in `xups.status`, and `cdu.pump.rpm` in `cdu.pump.rpmset`: both points are
of class A, and of no entry. -/
theorem misaligned_entries :
    (∃ pt, parsePoint plantDict "site01.cdu000.pump000.rpmset" = .ok pt) ∧
      [lit "site01.cdu000.pump000.rpmset", lit "site01.xups000.status"].map
        (lookupRiskClass .none) =
        [some .a, some .a] ∧
      ∀ e ∈ l108AllowList, ¬ Aligned "site01.cdu000.pump000.rpmset" e.1 ∧
        ¬ Aligned "site01.xups000.status" e.1 :=
  ⟨⟨_, rfl⟩, rfl, by decide⟩

end Cios.Control
