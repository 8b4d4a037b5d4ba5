import Cios.Support.Table

/-!
# Store — maintenance windows

Which window covers an alarming path is decided in three places: `fileStore.ActiveWindowFor`
(`core/store.go`), the query of `pgStore.ActiveWindowFor` (`core/pg_store.go`), and the probe in the
statement that `alarm.Store.OpenTicket` runs (`pkg/alarm/store.go`).  The comments of all three ask
for the windows on the path itself or on one of its ancestors.

The two queries compare the other way round, `asset_path LIKE $1 || '.%'`, and so take the windows
on the path's descendants (`activeWindow_agree_iff`).
-/

namespace Cios.Store
open Text List
open Keyed (Table)

structure MaintenanceWindow where
  id : Bytes
  assetPath : Bytes
  startsAt : Int
  endsAt : Int
  reason : Bytes
deriving DecidableEq, Repr

/-! ### The file store -/

def MaintenanceWindow.le (a b : MaintenanceWindow) : Bool :=
  Keyed.lexLe (fun s t => s < t) Text.le (a.startsAt, a.id) (b.startsAt, b.id)

variable (windows : List MaintenanceWindow)

def FileStore.activeWindowFor (assetPath : Bytes) (now : Int) :
    Option MaintenanceWindow :=
  let candidates := windows.filter fun m =>
    !(now < m.startsAt || !(now < m.endsAt)) &&
      !(m.assetPath != assetPath && !(m.assetPath ++ lit ".").isPrefixOf assetPath)
  (candidates.insertionSort fun a b => a.le b = true).head?

/-! ### The queries -/

/-- The parts of a `LIKE` pattern. -/
inductive LikePart where
  | any
  | one
  | byte (c : UInt8)
deriving DecidableEq, Repr

def likePart (c : UInt8) : LikePart := if c = '%' then .any else if c = '_' then .one else .byte c

/-- A backslash takes the character after it for itself. -/
def likeParts : Bytes → List LikePart
  | [] => []
  | [c] => [likePart c]
  | c :: d :: p => if c = '\\' then .byte d :: likeParts p else likePart c :: likeParts (d :: p)

def likeMatch : List LikePart → Bytes → Bool
  | [], s => s.isEmpty
  | .any :: p, s => s.tails.any (likeMatch p)
  | _ :: _, [] => false
  | .one :: p, _ :: s => likeMatch p s
  | .byte c :: p, b :: s => c == b && likeMatch p s

/-- SQL's `s LIKE pattern`. -/
def like (pattern s : Bytes) : Bool := likeMatch (likeParts pattern) s

/-- `WHERE starts_at <= $2 AND ends_at > $2 AND (asset_path = $1 OR asset_path LIKE $1 || '.%')
ORDER BY starts_at ASC, id ASC`. -/
def probeRows (assetPath : Bytes) (now : Int) :
    List MaintenanceWindow :=
  let rows := windows.filter fun m =>
    m.startsAt ≤ now && m.endsAt > now &&
      (m.assetPath = assetPath || like (assetPath ++ lit ".%") m.assetPath)
  rows.insertionSort fun a b => a.le b = true

def PgStore.activeWindowFor (assetPath : Bytes) (now : Int) :
    Option MaintenanceWindow :=
  ((probeRows windows assetPath now).take 1).head?

/-- A ticket, as far as the statement of `OpenTicket` looks at it. -/
structure AlarmTicket where
  alarmID : Bytes
  closed : Bool
deriving DecidableEq, Repr

/-- The row the statement of `OpenTicket` answers with. -/
inductive OpenTicketKind where
  | existing
  | mw (id : Bytes)
  | inserted
deriving DecidableEq, Repr

/-- `OpenTicket`: an open ticket of the alarm wins over a window, a window over a new ticket. -/
def AlarmStore.openTicket (tickets : List AlarmTicket) (windows : List MaintenanceWindow)
    (alarmID assetPath : Bytes) (now : Int) : OpenTicketKind :=
  if tickets.any fun tk => tk.alarmID = alarmID && !tk.closed then .existing
  else match ((probeRows windows assetPath now).take 1).map MaintenanceWindow.id with
    | id :: _ => .mw id
    | [] => .inserted

/-! ### What each selects -/

/-- The window is open at the instant: its start is included, its end is not. -/
def MaintenanceWindow.Open (now : Int) (w : MaintenanceWindow) : Prop :=
  w.startsAt ≤ now ∧ now < w.endsAt

/-- A dot-bounded ancestor. -/
def Ancestor (a b : Bytes) : Prop := (a ++ lit ".") <+: b

theorem Ancestor.length_lt {a b : Bytes} (h : Ancestor a b) : a.length < b.length := by
  have := h.length_le
  simp only [length_append] at this
  exact this

/-- `w` is the first window with the property. -/
def First (P : MaintenanceWindow → Prop)
    (w : MaintenanceWindow) : Prop :=
  w ∈ windows ∧ P w ∧ ∀ w' ∈ windows, P w' → w.le w' = true

theorem MaintenanceWindow.le_total (a b : MaintenanceWindow) : a.le b = true ∨ b.le a = true :=
  Keyed.lexLe_total (by simp) Text.le_total _ _

theorem MaintenanceWindow.le_trans {a b c : MaintenanceWindow} (hab : a.le b = true)
    (hbc : b.le c = true) : a.le c = true := by
  refine Keyed.lexLe_trans ?_ ?_ Text.le_trans hab hbc
  all_goals
    simp only [decide_eq_true_eq]
    omega

theorem MaintenanceWindow.id_eq_of_le {a b : MaintenanceWindow} (hab : a.le b = true)
    (hba : b.le a = true) : a.id = b.id := by
  refine congrArg Prod.snd (Keyed.lexLe_antisymm ?_ Text.le_antisymm hab hba)
  simp only [decide_eq_true_eq]
  omega

section Selection

variable {ws : Table MaintenanceWindow.id} {w : MaintenanceWindow} {path : Bytes} {now : Int}

theorem head_filter_eq_some {keep : MaintenanceWindow → Bool} :
    ((ws.rows.filter keep).insertionSort fun a b => a.le b = true).head? = some w ↔
      First ws.rows (fun w => keep w = true) w := by
  rw [Keyed.head_insertionSort_eq_some MaintenanceWindow.le_total MaintenanceWindow.le_trans]
  · simp only [mem_filter, First, and_assoc, and_imp]
  · intro a ha b hb hab hba
    exact Table.eq_of_key_eq (mem_of_mem_filter ha) (mem_of_mem_filter hb)
      (MaintenanceWindow.id_eq_of_le hab hba)

theorem fileStore_eq_some : FileStore.activeWindowFor ws.rows path now = some w ↔
    First ws.rows (fun w => w.Open now ∧ (w.assetPath = path ∨ Ancestor w.assetPath path)) w := by
  rw [FileStore.activeWindowFor, head_filter_eq_some]
  simp only [MaintenanceWindow.Open, Ancestor, Bool.and_eq_true, Bool.not_eq_true',
    Bool.or_eq_false_iff, Bool.not_eq_false', Bool.and_eq_false_iff, decide_eq_true_eq,
    decide_eq_false_iff_not, not_lt, bne_eq_false_iff_eq, isPrefixOf_iff_prefix]

/-- No character of a `LIKE` pattern that stands for anything but itself. -/
def Plain (p : Bytes) : Prop := ∀ c ∈ p, c ≠ '%' ∧ c ≠ '_' ∧ c ≠ '\\'

theorem likeParts_append_percent : ∀ {p : Bytes}, Plain p →
    likeParts (p ++ lit "%") = p.map .byte ++ [.any]
  | [], _ => rfl
  | c :: p, h => by
    obtain ⟨⟨h₁, h₂, h₃⟩, hrest⟩ := forall_mem_cons.mp h
    have ih := likeParts_append_percent hrest
    obtain ⟨d, q, hq⟩ : ∃ d q, p ++ lit "%" = d :: q := by
      cases p with
      | nil => exact ⟨_, _, rfl⟩
      | cons d q => exact ⟨_, _, rfl⟩
    rw [cons_append, hq, likeParts, if_neg h₃, ← hq, ih, likePart, if_neg h₁, if_neg h₂]
    rfl

theorem likeMatch_bytes_any : ∀ {p s : Bytes},
    likeMatch (p.map .byte ++ [.any]) s = true ↔ p <+: s
  | [], s => by
    have h : likeMatch [.any] s = s.tails.any List.isEmpty := rfl
    simp [h]
  | c :: p, [] => by simp [likeMatch]
  | c :: p, b :: s => by
    simp [likeMatch, likeMatch_bytes_any, cons_prefix_cons]

/-- A plain text, then anything: what starts with it. -/
theorem like_append_percent {p s : Bytes} (h : Plain p) :
    like (p ++ lit "%") s = true ↔ p <+: s := by
  rw [like, likeParts_append_percent h, likeMatch_bytes_any]

/-- The paths of the asset model. -/
def AssetPath (path : Bytes) : Prop := ∀ c ∈ path, isAlnum c = true ∨ c = '.'

theorem AssetPath.plain (h : AssetPath path) : Plain (path ++ lit ".") := by
  intro c hc
  have hdot : c = '.' ∨ isAlnum c = true := by
    rcases mem_append.mp hc with hc | hc
    · exact (h c hc).symm
    · exact .inl (mem_singleton.mp hc)
  rcases hdot with rfl | hc
  · decide
  · refine ⟨?_, ?_, ?_⟩ <;> rintro rfl <;> revert hc <;> decide

theorem pgStore_eq_some (hpath : AssetPath path) :
    PgStore.activeWindowFor ws.rows path now = some w ↔
      First ws.rows (fun w => w.Open now ∧ (w.assetPath = path ∨ Ancestor path w.assetPath)) w := by
  have hlike : ∀ s, like (path ++ lit ".%") s = true ↔ Ancestor path s := fun s => by
    have happ : path ++ lit ".%" = path ++ lit "." ++ lit "%" := by
      rw [append_assoc]
      rfl
    rw [happ, like_append_percent hpath.plain, Ancestor]
  rw [PgStore.activeWindowFor, head?_take, if_neg Nat.one_ne_zero, probeRows, head_filter_eq_some]
  simp only [MaintenanceWindow.Open, Bool.and_eq_true, Bool.or_eq_true, decide_eq_true_eq, hlike,
    gt_iff_lt]

/-- What the statement of `OpenTicket` answers, given what the probe selects. -/
def kindOf (existing : Bool) (window : Option MaintenanceWindow) : OpenTicketKind :=
  if existing then .existing
  else match window with
    | some w => .mw w.id
    | none => .inserted

theorem openTicket_eq (tickets : List AlarmTicket) (windows : List MaintenanceWindow)
    (alarmID path : Bytes) (now : Int) :
    AlarmStore.openTicket tickets windows alarmID path now =
      kindOf (tickets.any fun tk => tk.alarmID = alarmID && !tk.closed)
        (PgStore.activeWindowFor windows path now) := by
  unfold AlarmStore.openTicket kindOf PgStore.activeWindowFor
  cases probeRows windows path now <;> rfl

/-! ### Agreement -/

/-- The window is on the path, on an ancestor of it or on a descendant. -/
def Related (path : Bytes) (w : MaintenanceWindow) : Prop :=
  w.assetPath = path ∨ Ancestor w.assetPath path ∨ Ancestor path w.assetPath

/-- The first open window among those related to the path is on the path itself. -/
def FirstIsOwn (ws : Table MaintenanceWindow.id) (path : Bytes) (now : Int) : Prop :=
  ∀ w, First ws.rows (fun w => w.Open now ∧ Related path w) w → w.assetPath = path

theorem First.mono {windows : List MaintenanceWindow} {P Q : MaintenanceWindow → Prop}
    (h : First windows P w) (hQ : Q w) (hQP : ∀ w, Q w → P w) : First windows Q w :=
  ⟨h.1, hQ, fun w' hw' hq => h.2.2 w' hw' (hQP w' hq)⟩

theorem exists_first {P : MaintenanceWindow → Prop} (hw : w ∈ ws.rows) (hP : P w) :
    ∃ w, First ws.rows P w := by
  classical
  cases hf : ((ws.rows.filter fun w => P w).insertionSort fun a b => a.le b = true).head? with
  | some w => exact ⟨w, by simpa using head_filter_eq_some.mp hf⟩
  | none =>
    have hnil := head?_eq_none_iff.mp hf
    have hperm := perm_insertionSort (fun a b : MaintenanceWindow => a.le b = true)
      (ws.rows.filter fun w => P w)
    rw [hnil] at hperm
    have hmem : w ∈ ws.rows.filter fun w => P w := mem_filter.mpr ⟨hw, by simpa using hP⟩
    rw [hperm.symm.eq_nil] at hmem
    exact nomatch hmem

/-- Where the first related window is the path's own, both selections are that window. -/
theorem agree_of_firstIsOwn (hpath : AssetPath path) (h : FirstIsOwn ws path now) :
    PgStore.activeWindowFor ws.rows path now = FileStore.activeWindowFor ws.rows path now := by
  by_cases hex : ∃ w ∈ ws.rows, w.Open now ∧ Related path w
  · obtain ⟨w, hw, hP⟩ := hex
    obtain ⟨m, hm⟩ := exists_first (P := fun w => w.Open now ∧ Related path w) hw hP
    have hown := h m hm
    rw [(pgStore_eq_some hpath).mpr (hm.mono ⟨hm.2.1.1, .inl hown⟩ fun w hw =>
        ⟨hw.1, hw.2.imp id .inr⟩),
      fileStore_eq_some.mpr (hm.mono ⟨hm.2.1.1, .inl hown⟩ fun w hw =>
        ⟨hw.1, hw.2.imp id .inl⟩)]
  · have hpg : PgStore.activeWindowFor ws.rows path now = none := by
      refine Option.eq_none_iff_forall_ne_some.mpr fun w hw => hex ?_
      obtain ⟨hin, ⟨hopen, hrel⟩, -⟩ := (pgStore_eq_some hpath).mp hw
      exact ⟨w, hin, hopen, hrel.imp id .inr⟩
    have hfile : FileStore.activeWindowFor ws.rows path now = none := by
      refine Option.eq_none_iff_forall_ne_some.mpr fun w hw => hex ?_
      obtain ⟨hin, ⟨hopen, hrel⟩, -⟩ := fileStore_eq_some.mp hw
      exact ⟨w, hin, hopen, hrel.imp id .inl⟩
    rw [hpg, hfile]

/-- A window that both select is the path's own: no path is above and below another. -/
theorem own_of_agree (hpath : AssetPath path)
    (h : PgStore.activeWindowFor ws.rows path now = FileStore.activeWindowFor ws.rows path now) :
    FirstIsOwn ws path now := by
  intro w hw
  have hboth : (w.assetPath = path ∨ Ancestor w.assetPath path) ∧
      (w.assetPath = path ∨ Ancestor path w.assetPath) := by
    rcases hw.2.1.2 with hrel | hrel | hrel
    · exact ⟨.inl hrel, .inl hrel⟩
    · have hfile := fileStore_eq_some.mpr (hw.mono ⟨hw.2.1.1, .inr hrel⟩ fun w hw =>
        ⟨hw.1, hw.2.imp id .inl⟩)
      exact ⟨.inr hrel, ((pgStore_eq_some hpath).mp (h.trans hfile)).2.1.2⟩
    · have hpg := (pgStore_eq_some hpath).mpr (hw.mono ⟨hw.2.1.1, .inr hrel⟩ fun w hw =>
        ⟨hw.1, hw.2.imp id .inr⟩)
      exact ⟨(fileStore_eq_some.mp (h.symm.trans hpg)).2.1.2, .inr hrel⟩
  rcases hboth with ⟨hown | habove, hown | hbelow⟩
  iterate 3 exact hown
  · exact absurd habove.length_lt (Nat.not_lt.mpr hbelow.length_lt.le)

end Selection

/-- **The three selections.**  Both queries select what the file store selects exactly when the
first open window that is on the path, above it or below it is on the path itself. -/
theorem activeWindow_agree_iff (ws : Table MaintenanceWindow.id) (path : Bytes) (now : Int)
    (hpath : AssetPath path) :
    (PgStore.activeWindowFor ws.rows path now = FileStore.activeWindowFor ws.rows path now ∧
      ∀ tickets alarmID, AlarmStore.openTicket tickets ws.rows alarmID path now =
        kindOf (tickets.any fun tk => tk.alarmID = alarmID && !tk.closed)
          (FileStore.activeWindowFor ws.rows path now)) ↔
      FirstIsOwn ws path now := by
  constructor
  · rintro ⟨h, -⟩
    exact own_of_agree hpath h
  · intro h
    have hagree := agree_of_firstIsOwn hpath h
    refine ⟨hagree, fun tickets alarmID => ?_⟩
    rw [openTicket_eq, hagree]

def windowOn (path : Bytes) : Table MaintenanceWindow.id :=
  .put .empty ⟨"mw_1", path, 0, 10, []⟩

theorem activeWindow_agree_iff_pod : let path : Bytes := "site01.pod002"
    (PgStore.activeWindowFor (windowOn path).rows path 5 =
        FileStore.activeWindowFor (windowOn path).rows path 5 ∧
      ∀ tickets alarmID, AlarmStore.openTicket tickets (windowOn path).rows alarmID path 5 =
        kindOf (tickets.any fun tk => tk.alarmID = alarmID && !tk.closed)
          (FileStore.activeWindowFor (windowOn path).rows path 5)) ↔
      FirstIsOwn (windowOn path) path 5 :=
  activeWindow_agree_iff (windowOn "site01.pod002") "site01.pod002" 5
    (forall_mem_of_all (by decide))

/-- A window on `site01` covers an alarm on `site01.pod002` for the file store only; one on the pod
covers an alarm on the site for the queries only. -/
theorem pg_misses_ancestor_window :
    (FileStore.activeWindowFor (windowOn "site01").rows "site01.pod002" 5 =
          some ⟨"mw_1", "site01", 0, 10, []⟩ ∧
        PgStore.activeWindowFor (windowOn "site01").rows "site01.pod002" 5 = none ∧
        AlarmStore.openTicket [] (windowOn "site01").rows "a1" "site01.pod002" 5 = .inserted) ∧
      FileStore.activeWindowFor (windowOn "site01.pod002").rows "site01" 5 = none ∧
        AlarmStore.openTicket [] (windowOn "site01.pod002").rows "a1" "site01" 5 = .mw "mw_1" := by
  decide

end Cios.Store
