import Cios.Ticket.Active

/-!
# Tickets — the two stores

`PutTicket` and `GetTicket` of the database store (`core/pg_store.go`) next to those of the file
store.  A put at version 0 is an upsert on the id, which leaves the opening time of a ticket that is
there; at any other version it is an update of the row that has it.  The schema (`migrations/002` to
`013`) has a list of severities and one of states, and an index with one active ticket an alarm,
which only the upsert knows by its name.

A client sees the class of an error, or a ticket (`Seen`, `stores_agree_iff`).  No save and no
connection fails here.
-/

namespace Cios.Ticket
open Text Function
open Cios.Store

variable {V : Type}

/-! ### The database -/

/-- What the database makes of parameters: the texts it takes, the times it keeps, its error
messages. -/
structure Dialect where
  text : Bytes → Bool
  time : Int → Int
  message : Bytes → Bytes

/-- `pgconn.PgError`, as far as it is read. -/
structure PgError where
  code : Bytes
  constraintName : Bytes
  text : Bytes

inductive ScanError where
  | noRows
  | pg (e : PgError)

namespace Dialect

variable (d : Dialect) (rows : Store.Map Ticket) (t : Ticket)

def error (code constraintName : Bytes) : PgError := ⟨code, constraintName, d.message code⟩

def binds : Bool :=
  [t.id, t.alarmID, t.assetPath, t.title, t.severity, t.state, t.assignee, t.runbook].all d.text

def row : Ticket :=
  { t with
    openedAt := d.time t.openedAt
    ackedAt := t.ackedAt.map d.time
    resolvedAt := t.resolvedAt.map d.time
    closedAt := t.closedAt.map d.time
    escalatedAt := t.escalatedAt.map d.time }

/-- What refuses a row: the checks come before the index. -/
def violation : Option PgError :=
  if t.severity ∉ [lit "critical", lit "major", lit "minor", lit "info"] then
    some (d.error "23514" "tickets_severity_check")
  else if t.state ∉ [lit "open", lit "acknowledged", lit "resolved", lit "closed"] then
    some (d.error "23514" "tickets_state_check")
  else if t.alarmID ≠ [] ∧ t.state ≠ "closed" ∧ (rows.toList.any fun kv =>
      kv.1 ≠ t.id && kv.2.alarmID = t.alarmID && kv.2.state ≠ "closed") then
    some (d.error "23505" "tickets_alarm_id_active_uniq")
  else none

def write : Except ScanError (Int × Store.Map Ticket) :=
  match d.violation rows t with
  | some e => .error (.pg e)
  | none => .ok (t.resourceVersion, rows.insert t.id t)

/-- `INSERT … ON CONFLICT (id) DO UPDATE`, which does not set `opened_at`. -/
def upsert : Except ScanError (Int × Store.Map Ticket) :=
  if !d.binds t then .error (.pg (d.error "22021" []))
  else d.write rows <|
    match rows[t.id]? with
    | none => { d.row t with resourceVersion := 1 }
    | some cur => { d.row t with
        openedAt := cur.openedAt, resourceVersion := cur.resourceVersion + 1 }

/-- `UPDATE … WHERE id = $1 AND resource_version = $14`. -/
def update (v : Int) : Except ScanError (Int × Store.Map Ticket) :=
  if !d.binds t then .error (.pg (d.error "22021" []))
  else match rows[t.id]? with
    | none => .error .noRows
    | some cur =>
      if cur.resourceVersion = v then d.write rows { d.row t with resourceVersion := v + 1 }
      else .error .noRows

/-! ### The store -/

def getTicket (id : Bytes) : Except StoreError (Option Ticket) :=
  if !d.text id then .error (.plain (lit "core: pg store: get ticket: " ++ d.message "22021"))
  else .ok rows[id]?

def putError (e : Bytes) : Answer Ticket × Store.Map Ticket :=
  (refuse (.plain (lit "core: pg store: put ticket: " ++ e)), rows)

def putTicket (expectVersion : Int) : Answer Ticket × Store.Map Ticket :=
  if expectVersion = 0 then
    match d.upsert rows t with
    | .ok (v, rows') => (.ok { t with resourceVersion := v }, rows')
    | .error (.pg e) =>
      if e.code = "23505" ∧ e.constraintName = "tickets_alarm_id_active_uniq" then
        (refuse Sentinel.duplicateActiveTicket, rows)
      else putError rows e.text
    | .error .noRows => putError rows "no rows in result set"
  else
    match d.update rows t expectVersion with
    | .ok (v, rows') => (.ok { t with resourceVersion := v }, rows')
    | .error .noRows =>
      match d.getTicket rows t.id with
      | .error _ => (refuse Sentinel.versionConflict, rows)
      | .ok cur => (.error ⟨Sentinel.versionConflict, cur⟩, rows)
    | .error (.pg e) => putError rows e.text

end Dialect

/-! ### What a client sees -/

inductive ErrorClass where
  | notFound
  | conflict
  | duplicate
  | other
deriving DecidableEq, Repr

inductive Seen where
  | failed (c : ErrorClass)
  | done
  | found (t : Ticket)
deriving DecidableEq, Repr

def classOf (e : StoreError) : ErrorClass :=
  match e.sentinel with
  | some .versionConflict => .conflict
  | some .duplicateActiveTicket => .duplicate
  | _ => .other

def seenPut : Answer Ticket → Seen
  | .ok _ => .done
  | .error f => .failed (classOf f.error)

def seenGet : Except StoreError (Option Ticket) → Seen
  | .ok (some t) => .found t
  | .ok none => .failed .notFound
  | .error e => .failed (classOf e)

inductive TicketCall where
  | put (t : Ticket) (expectVersion : Int)
  | get (id : Bytes)

def fileCall (m : Memory V) : TicketCall → Seen × Memory V
  | .put t v => ((m.putTicket t v).run none m).map seenPut id
  | .get id => (seenGet (.ok m.tickets[id]?), m)

def pgCall (d : Dialect) (rows : Store.Map Ticket) : TicketCall → Seen × Store.Map Ticket
  | .put t v => (d.putTicket rows t v).map seenPut id
  | .get id => (seenGet (d.getTicket rows id), rows)

def answers {S : Type} (call : S → TicketCall → Seen × S) : S → List TicketCall → List Seen
  | _, [] => []
  | s, c :: cs => (call s c).1 :: answers call (call s c).2 cs

/-! ### When they are alike -/

/-- The file store, and the opening time that was last given to each row of the database. -/
structure Filed (V : Type) where
  file : Memory V
  opened : Bytes → Int

def AtVersion (rows : Store.Map Ticket) (id : Bytes) (v : Int) : Prop :=
  ∃ cur, rows[id]? = some cur ∧ cur.resourceVersion = v

/-- After a call.  An upsert of a ticket that is there leaves its opening time. -/
def Filed.after (k : Filed V) (c : TicketCall) : Filed V where
  file := (fileCall k.file c).2
  opened :=
    match c with
    | .put t v =>
      if (fileCall k.file c).1 = .done ∧ (0 < v ∨ k.file.tickets[t.id]? = none) then
        Function.update k.opened t.id t.openedAt
      else k.opened
    | .get _ => k.opened

/-- The row has a severity and a state of the schema's lists. -/
def Listed (t : Ticket) : Prop :=
  t.severity ∈ [lit "critical", lit "major", lit "minor", lit "info"] ∧
    t.state ∈ [lit "open", lit "acknowledged", lit "resolved", lit "closed"]

/-- Both stores answer alike.  A put has no negative version and texts the database takes, a listed
severity and state where it comes to a row, and at a positive version no other active ticket of its
alarm.  A read finds the database's times. -/
def Alike (d : Dialect) (k : Filed V) : TicketCall → Prop
  | .put t v => 0 ≤ v ∧ d.binds t = true ∧
      (v = 0 ∨ AtVersion k.file.tickets t.id v → Listed t) ∧
      (0 < v → ¬ Contested k.file.tickets t)
  | .get id => d.text id = true ∧ ∀ t, k.file.tickets[id]? = some t →
      { d.row t with openedAt := d.time (k.opened id) } = t

/-- Each call is alike, after those before it. -/
def AllAlike (d : Dialect) : Filed V → List TicketCall → Prop
  | _, [] => True
  | k, c :: cs => Alike d k c ∧ AllAlike d (k.after c) cs

/-! ### A put of each store -/

section Puts

variable {d : Dialect} {rows : Store.Map Ticket} {t : Ticket} {v : Int}

theorem write_cases (d : Dialect) (rows : Store.Map Ticket) (t : Ticket) :
    (¬ Listed t ∧ ∃ name, d.write rows t = .error (.pg (d.error "23514" name))) ∨
      Listed t ∧ ((Contested rows t ∧
        d.write rows t = .error (.pg (d.error "23505" "tickets_alarm_id_active_uniq"))) ∨
      (¬ Contested rows t ∧ d.write rows t = .ok (t.resourceVersion, rows.insert t.id t))) := by
  unfold Dialect.write Dialect.violation
  by_cases hsev : t.severity ∈ [lit "critical", lit "major", lit "minor", lit "info"]
  · rw [if_neg (not_not.mpr hsev)]
    by_cases hstate : t.state ∈ [lit "open", lit "acknowledged", lit "resolved", lit "closed"]
    · rw [if_neg (not_not.mpr hstate)]
      refine .inr ⟨⟨hsev, hstate⟩, ?_⟩
      by_cases hcont : Contested rows t
      · rw [if_pos (contested_iff.mpr hcont)]
        exact .inl ⟨hcont, rfl⟩
      · rw [if_neg fun h => hcont (contested_iff.mp h)]
        exact .inr ⟨hcont, rfl⟩
    · rw [if_pos hstate]
      exact .inl ⟨fun h => hstate h.2, _, rfl⟩
  · rw [if_pos hsev]
    exact .inl ⟨fun h => hsev h.1, _, rfl⟩

theorem pgPut_force_error {code name : Bytes}
    (h : d.upsert rows t = .error (.pg (d.error code name))) :
    pgCall d rows (.put t 0) =
      (.failed (if code = "23505" ∧ name = "tickets_alarm_id_active_uniq" then .duplicate
        else .other), rows) := by
  rw [pgCall, Dialect.putTicket, if_pos rfl, h]
  dsimp only [Dialect.error]
  split <;> rfl

theorem pgPut_error (hv : v ≠ 0) {e : PgError} (h : d.update rows t v = .error (.pg e)) :
    pgCall d rows (.put t v) = (.failed .other, rows) := by
  rw [pgCall, Dialect.putTicket, if_neg hv, h]
  rfl

theorem pgPut_unbound (h : d.binds t = false) :
    pgCall d rows (.put t v) = (.failed .other, rows) := by
  by_cases hv : v = 0
  · subst hv
    have hup : d.upsert rows t = .error (.pg (d.error "22021" [])) := by rw [Dialect.upsert, h]; rfl
    rw [pgPut_force_error hup, if_neg (by decide)]
  · have hup : d.update rows t v = .error (.pg (d.error "22021" [])) := by
      rw [Dialect.update, h]
      rfl
    exact pgPut_error hv hup

/-- The row of an upsert. -/
def Dialect.upserted (d : Dialect) (rows : Store.Map Ticket) (t : Ticket) : Ticket :=
  { d.row t with
    openedAt := rows[t.id]?.elim (d.time t.openedAt) Ticket.openedAt
    resourceVersion := rows[t.id]?.elim 0 Ticket.resourceVersion + 1 }

/-- **An upsert**, past its parameters. -/
theorem pgPut_force (h : d.binds t = true) :
    (¬ Listed t ∧ pgCall d rows (.put t 0) = (.failed .other, rows)) ∨
      Listed t ∧ ((Contested rows t ∧ pgCall d rows (.put t 0) = (.failed .duplicate, rows)) ∨
      (¬ Contested rows t ∧
        pgCall d rows (.put t 0) = (.done, rows.insert t.id (d.upserted rows t)))) := by
  have hup : d.upsert rows t = d.write rows (d.upserted rows t) := by
    rw [Dialect.upsert, Dialect.upserted, h]
    cases rows[t.id]? <;> rfl
  rcases write_cases d rows (d.upserted rows t) with
    ⟨hlist, name, hw⟩ | ⟨hlist, ⟨hcont, hw⟩ | ⟨hcont, hw⟩⟩
  · rw [pgPut_force_error (hup.trans hw), if_neg fun h => absurd h.1 (by decide)]
    exact .inl ⟨hlist, rfl⟩
  · rw [pgPut_force_error (hup.trans hw), if_pos ⟨rfl, rfl⟩]
    exact .inr ⟨hlist, .inl ⟨hcont, rfl⟩⟩
  · refine .inr ⟨hlist, .inr ⟨hcont, ?_⟩⟩
    rw [pgCall, Dialect.putTicket, if_pos rfl, hup.trans hw]
    rfl

/-- **An update** of the row that is at its version. -/
theorem pgPut_at (h : d.binds t = true) (hv : v ≠ 0) (hat : AtVersion rows t.id v) :
    (¬ (Listed t ∧ ¬ Contested rows t) ∧ pgCall d rows (.put t v) = (.failed .other, rows)) ∨
      ((Listed t ∧ ¬ Contested rows t) ∧ pgCall d rows (.put t v) =
        (.done, rows.insert t.id { d.row t with resourceVersion := v + 1 })) := by
  have hup : d.update rows t v = d.write rows { d.row t with resourceVersion := v + 1 } := by
    obtain ⟨cur, hcur, hversion⟩ := hat
    rw [Dialect.update, h, hcur]
    exact if_pos hversion
  rcases write_cases d rows { d.row t with resourceVersion := v + 1 } with
    ⟨hlist, name, hw⟩ | ⟨hlist, ⟨hcont, hw⟩ | ⟨hcont, hw⟩⟩
  · exact .inl ⟨fun h => hlist h.1, pgPut_error hv (hup.trans hw)⟩
  · exact .inl ⟨fun h => h.2 hcont, pgPut_error hv (hup.trans hw)⟩
  · refine .inr ⟨⟨hlist, hcont⟩, ?_⟩
    rw [pgCall, Dialect.putTicket, if_neg hv, hup.trans hw]
    rfl

theorem pgPut_stale (h : d.binds t = true) (hv : v ≠ 0) (hat : ¬ AtVersion rows t.id v) :
    pgCall d rows (.put t v) = (.failed .conflict, rows) := by
  have hup : d.update rows t v = .error .noRows := by
    rw [Dialect.update, h]
    cases hcur : rows[t.id]? with
    | none => rfl
    | some cur => exact if_neg fun hversion => hat ⟨cur, hcur, hversion⟩
  rw [pgCall, Dialect.putTicket, if_neg hv, hup]
  cases d.getTicket rows t.id <;> rfl

/-- **A put of the file store.** -/
theorem filePut_cases (m : Memory V) (t : Ticket) (v : Int) :
    (Contested m.tickets t ∧ fileCall m (.put t v) = (.failed .duplicate, m)) ∨
      ¬ Contested m.tickets t ∧
        ((0 < v ∧ ¬ AtVersion m.tickets t.id v ∧ fileCall m (.put t v) = (.failed .conflict, m)) ∨
        ((0 < v → AtVersion m.tickets t.id v) ∧ fileCall m (.put t v) =
          (.done, { m with tickets := m.tickets.insert t.id { t with
            resourceVersion := m.tickets[t.id]?.elim 0 Ticket.resourceVersion + 1 } }))) := by
  rcases putTicket_cases m t v with ⟨hcont, h⟩ |
    ⟨hcont, ⟨value, h, hv, hat⟩ | ⟨hat, undo, failed, h⟩⟩
  · refine .inl ⟨hcont, ?_⟩
    rw [fileCall, h]
    rfl
  · refine .inr ⟨hcont, .inl ⟨hv, ?_, ?_⟩⟩
    · rintro ⟨cur, hcur, hversion⟩
      exact hat cur hcur hversion
    · rw [fileCall, h]
      rfl
  · refine .inr ⟨hcont, .inr ⟨hat, ?_⟩⟩
    rw [fileCall, h]
    rfl

theorem filePut_ne_other (m : Memory V) (t : Ticket) (v : Int) :
    (fileCall m (.put t v)).1 ≠ .failed .other := by
  rcases filePut_cases m t v with ⟨-, h⟩ | ⟨-, ⟨-, -, h⟩ | ⟨-, h⟩⟩
  iterate 3 simp [h]

theorem Filed.after_failed {k : Filed V} {c : TicketCall} {e : ErrorClass}
    (h : fileCall k.file c = (.failed e, k.file)) : k.after c = k := by
  cases c with
  | put t v => simp [Filed.after, h]
  | get id => rfl

end Puts

/-! ### Side by side -/

/-- The rows of the database are the tickets of the file store, with the times it keeps. -/
structure Mirrors (d : Dialect) (k : Filed V) (rows : Store.Map Ticket) : Prop where
  row : ∀ id : Bytes, rows[id]? = k.file.tickets[id]?.map fun t =>
    { d.row t with openedAt := d.time (k.opened id) }
  version : ∀ (id : Bytes) (t : Ticket), k.file.tickets[id]? = some t → 0 < t.resourceVersion

section Mirrors

variable {d : Dialect} {k : Filed V} {rows : Store.Map Ticket}

/-- Both answers and both stores, after a call. -/
structure InStep (d : Dialect) (k : Filed V) (rows : Store.Map Ticket) (c : TicketCall) : Prop where
  seen : (fileCall k.file c).1 = (pgCall d rows c).1 ↔ Alike d k c
  mirrors : Alike d k c → Mirrors d (k.after c) (pgCall d rows c).2

theorem InStep.apart {c : TicketCall} (hseen : (fileCall k.file c).1 ≠ (pgCall d rows c).1)
    (hno : ¬ Alike d k c) : InStep d k rows c :=
  ⟨iff_of_false hseen hno, fun ha => absurd ha hno⟩

variable (h : Mirrors d k rows)
include h

theorem Mirrors.contested (t : Ticket) :
    Contested rows t ↔ Contested k.file.tickets t := by
  refine and_congr_right fun _ => exists_congr fun id => ?_
  rw [h.row id]
  cases k.file.tickets[id]? with
  | none => simp
  | some cur => simp [Dialect.row]

theorem Mirrors.atVersion (id : Bytes) (v : Int) :
    AtVersion rows id v ↔ AtVersion k.file.tickets id v := by
  rw [AtVersion, AtVersion, h.row id]
  cases k.file.tickets[id]? with
  | none => simp
  | some cur => simp [Dialect.row]

theorem Mirrors.insert {k' : Filed V} {id : Bytes} {row t : Ticket}
    (hfile : k'.file.tickets = k.file.tickets.insert id t) (hversion : 0 < t.resourceVersion)
    (hother : ∀ x, x ≠ id → k'.opened x = k.opened x)
    (hrow : row = { d.row t with openedAt := d.time (k'.opened id) }) :
    Mirrors d k' (rows.insert id row) where
  row x := by
    rw [hfile, Undo.get_insert, Undo.get_insert]
    split
    · rename_i hx
      rw [hx, hrow]
      rfl
    · rename_i hx
      rw [h.row x, hother x hx]
  version x t' ht' := by
    rw [hfile, Undo.get_insert] at ht'
    split at ht'
    · cases ht'
      exact hversion
    · exact h.version x t' ht'

theorem Mirrors.refused {c : TicketCall} {e : ErrorClass}
    (hfile : fileCall k.file c = (.failed e, k.file)) (hpg : pgCall d rows c = (.failed e, rows))
    (ha : Alike d k c) : InStep d k rows c := by
  refine ⟨iff_of_true (by rw [hfile, hpg]) ha, fun _ => ?_⟩
  rw [Filed.after_failed hfile, hpg]
  exact h

section Put

variable {t : Ticket} {v : Int}

theorem Mirrors.stored {row : Ticket} {n : Int} (hn : 0 < n)
    (hfile : fileCall k.file (.put t v) = (.done, { k.file with
      tickets := k.file.tickets.insert t.id { t with resourceVersion := n } }))
    (hpg : pgCall d rows (.put t v) = (.done, rows.insert t.id row))
    (hrow : row = { d.row t with
      resourceVersion := n
      openedAt := d.time (if 0 < v ∨ k.file.tickets[t.id]? = none then t.openedAt
        else k.opened t.id) })
    (ha : Alike d k (.put t v)) : InStep d k rows (.put t v) := by
  have hopened : (k.after (.put t v)).opened =
      if 0 < v ∨ k.file.tickets[t.id]? = none then update k.opened t.id t.openedAt
      else k.opened := by
    simp only [Filed.after, hfile, true_and]
  refine ⟨iff_of_true (by rw [hfile, hpg]) ha, fun _ => ?_⟩
  rw [hpg]
  refine h.insert (t := { t with resourceVersion := n }) ?_ hn (fun x hx => ?_) ?_
  · rw [Filed.after, hfile]
  · rw [hopened]
    split
    · exact update_of_ne hx _ _
    · rfl
  · rw [hopened, hrow]
    split
    · rw [update_self]
      rfl
    · rfl

theorem Mirrors.negative (hbinds : d.binds t = true) (hv : v < 0) :
    InStep d k rows (.put t v) := by
  have hstale : ¬ AtVersion rows t.id v := by
    rw [h.atVersion]
    rintro ⟨cur, hcur, rfl⟩
    exact absurd (h.version _ cur hcur) (not_lt.mpr hv.le)
  refine .apart ?_ fun ha => absurd ha.1 (not_le.mpr hv)
  rw [pgPut_stale hbinds hv.ne hstale]
  rcases filePut_cases k.file t v with ⟨-, hfile⟩ | ⟨-, ⟨hpos, -⟩ | ⟨-, hfile⟩⟩
  · simp [hfile]
  · exact absurd hpos (not_lt.mpr hv.le)
  · simp [hfile]

theorem Mirrors.force (hbinds : d.binds t = true) :
    InStep d k rows (.put t 0) := by
  have halike : Alike d k (.put t 0) ↔ Listed t := by simp [Alike, hbinds]
  rcases @pgPut_force d rows t hbinds with
    ⟨hlist, hpg⟩ | ⟨hlist, ⟨hcont, hpg⟩ | ⟨hcont, hpg⟩⟩
  · refine .apart ?_ (halike.not.mpr hlist)
    rw [hpg]
    exact filePut_ne_other k.file t 0
  · rcases filePut_cases k.file t 0 with ⟨-, hfile⟩ | ⟨hno, -⟩
    · exact h.refused hfile hpg (halike.mpr hlist)
    · exact absurd ((h.contested t).mp hcont) hno
  rcases filePut_cases k.file t 0 with ⟨hyes, -⟩ | ⟨-, ⟨hpos, -⟩ | ⟨-, hfile⟩⟩
  · exact absurd ((h.contested t).mpr hyes) hcont
  · exact absurd hpos (lt_irrefl 0)
  refine h.stored ?_ hfile hpg ?_ (halike.mpr hlist)
  · cases hcur : k.file.tickets[t.id]? with
    | none => decide
    | some cur => exact Int.add_pos_of_pos_of_nonneg (h.version _ cur hcur) (by decide)
  · rw [Dialect.upserted, h.row t.id]
    cases k.file.tickets[t.id]? with
    | none => rfl
    | some cur => rfl

theorem Mirrors.positive (hbinds : d.binds t = true) (hv : 0 < v) :
    InStep d k rows (.put t v) := by
  have halike : Alike d k (.put t v) ↔
      (AtVersion rows t.id v → Listed t) ∧ ¬ Contested rows t := by
    simp [Alike, hbinds, hv, hv.le, hv.ne', h.atVersion, h.contested]
  by_cases hat : AtVersion rows t.id v
  · rcases pgPut_at hbinds hv.ne' hat with ⟨hno, hpg⟩ | ⟨⟨hlist, hcont⟩, hpg⟩
    · refine .apart ?_ fun ha => hno ⟨(halike.mp ha).1 hat, (halike.mp ha).2⟩
      rw [hpg]
      exact filePut_ne_other k.file t v
    rcases filePut_cases k.file t v with ⟨hyes, -⟩ | ⟨-, ⟨-, hstale, -⟩ | ⟨-, hfile⟩⟩
    · exact absurd ((h.contested t).mpr hyes) hcont
    · exact absurd ((h.atVersion t.id v).mp hat) hstale
    obtain ⟨cur, hcur, rfl⟩ := (h.atVersion t.id v).mp hat
    rw [hcur, Option.elim_some] at hfile
    refine h.stored (by omega) hfile hpg ?_ (halike.mpr ⟨fun _ => hlist, hcont⟩)
    rw [if_pos (.inl hv)]
    rfl
  · have hpg := pgPut_stale hbinds hv.ne' hat
    rcases filePut_cases k.file t v with ⟨hcont, hfile⟩ | ⟨hcont, ⟨-, -, hfile⟩ | ⟨hat', -⟩⟩
    · refine .apart (by rw [hfile, hpg]; nofun) fun ha => (halike.mp ha).2 ?_
      exact (h.contested t).mpr hcont
    · refine h.refused hfile hpg (halike.mpr ⟨fun h => absurd h hat, fun hyes => hcont ?_⟩)
      exact (h.contested t).mp hyes
    · exact absurd ((h.atVersion t.id v).mpr (hat' hv)) hat

end Put

theorem Mirrors.get (id : Bytes) : InStep d k rows (.get id) := by
  refine ⟨?_, fun _ => h⟩
  show seenGet (.ok k.file.tickets[id]?) = seenGet (d.getTicket rows id) ↔ _
  rw [Dialect.getTicket, h.row id]
  cases htext : d.text id with
  | false =>
    refine iff_of_false ?_ fun ha => by simpa [htext] using ha.1
    cases k.file.tickets[id]? <;> nofun
  | true =>
    cases hcur : k.file.tickets[id]? with
    | none => simp [Alike, htext, hcur]
    | some t => simp [Alike, htext, hcur, seenGet, eq_comm]

/-- **One call** on both stores. -/
theorem Mirrors.step (c : TicketCall) : InStep d k rows c := by
  cases c with
  | get id => exact h.get id
  | put t v =>
    cases hbinds : d.binds t with
    | false =>
      refine .apart ?_ fun ha => by simpa [hbinds] using ha.2.1
      rw [pgPut_unbound hbinds]
      exact filePut_ne_other k.file t v
    | true =>
      rcases lt_trichotomy v 0 with hv | rfl | hv
      · exact h.negative hbinds hv
      · exact h.force hbinds
      · exact h.positive hbinds hv

omit h in
/-- Along a sequence: up to the first call that is not alike the stores mirror each other. -/
theorem Mirrors.answers_iff {cs : List TicketCall} : ∀ {k : Filed V} {rows : Store.Map Ticket},
    Mirrors d k rows →
      (answers fileCall k.file cs = answers (pgCall d) rows cs ↔ AllAlike d k cs) := by
  induction cs with
  | nil =>
    intro k rows _
    exact iff_of_true rfl trivial
  | cons c cs ih =>
    intro k rows h
    have hstep := h.step c
    rw [answers, answers, List.cons_eq_cons, hstep.seen, AllAlike]
    exact and_congr_right fun ha => ih (hstep.mirrors ha)

end Mirrors

/-- **When the two stores agree.**  From empty stores, the calls see the same errors and tickets
exactly when each of them is alike after those before it. -/
theorem stores_agree_iff (d : Dialect) (cs : List TicketCall) :
    answers fileCall (Memory.empty : Memory V) cs = answers (pgCall d) ∅ cs ↔
      AllAlike d ⟨(Memory.empty : Memory V), fun _ => 0⟩ cs := by
  refine Mirrors.answers_iff (k := ⟨Memory.empty, fun _ => 0⟩) ⟨fun id => ?_, fun id t ht => ?_⟩
  · simp [Memory.empty]
  · simp [Memory.empty] at ht

def lossless : Dialect := ⟨fun _ => true, id, id⟩

def openedTicket (id alarm : Bytes) (openedAt : Int) : Ticket :=
  { alarmTicket id alarm "open" with openedAt := openedAt }

/-- Put again without a version, a ticket has its first opening time in the database.  A second
ticket pointed at its alarm, at its own version, gets a database error that is not recognised. -/
theorem stores_disagree :
    let again := [.put (openedTicket "t1" "a1" 10) 0, .put (openedTicket "t1" "a1" 20) 0, .get "t1"]
    let second := [.put (openedTicket "t1" "a1" 10) 0, .put (openedTicket "t2" "a2" 10) 0,
      .put (openedTicket "t2" "a1" 10) 1]
    (answers fileCall (Memory.empty : Memory Unit) again =
        [.done, .done, .found { openedTicket "t1" "a1" 20 with resourceVersion := 2 }] ∧
      answers (pgCall lossless) ∅ again =
        [.done, .done, .found { openedTicket "t1" "a1" 10 with resourceVersion := 2 }]) ∧
    answers fileCall (Memory.empty : Memory Unit) second =
        [.done, .done, .failed .duplicate] ∧
      answers (pgCall lossless) ∅ second = [.done, .done, .failed .other] := by
  decide +kernel

end Cios.Ticket
