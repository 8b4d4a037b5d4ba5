import Cios.Store.Rollback
import Cios.Support.Log
import Cios.Ticket.Sla

/-!
# Tickets — histories of concurrent writers

Five writers read a ticket, change it and put it back, each call of the store being a step of its
own: the transition, the assignment, the inspection form, its photos, and the ticks of the SLA
scanner.  Any number of them run side by side over the file store (`Desk`).

Each writer puts a revision of the ticket it has read: along an edge of `allowedTransition` and with
the mark of the escalation kept (`Writer.obeys`).  The form and the photos put without a version,
over a ticket that may have changed since (`history_consistent_iff`, `photo_reopens`).
-/

namespace Cios.Ticket
open Text Effect List Pool Function
open Cios.Store
open Cios.Http Cios.Http.Core
open Runs (Run)
open Versioned (Act Access lastRead sinceRead Sees)

variable {V : Type}

/-! ### The store -/

/-- The file store, each ticket under its own id: `load` and every put have them there. -/
structure Desk (V : Type) where
  memory : Memory V
  keyed : ∀ (id : Bytes) (t : Ticket), memory.tickets[id]? = some t → t.id = id

def Desk.row (d : Desk V) (id : Bytes) : Option Ticket := d.memory.tickets[id]?

/-- What a call answers and leaves.  A save may fail; tickets are listed by their opening, the
latest first, in any order among equals. -/
def Desk.Step : (op : Op V) → Desk V → Op.Ret op → Desk V → Prop
  | .work (.getTicket id), d, r, d' => r = .ok (d.row id) ∧ d' = d
  | .work .listTickets, d, r, d' => d' = d ∧ ∃ ts, r = .ok ts ∧
      ts.Perm (d.memory.tickets.toList.map Prod.snd) ∧
      ts.Pairwise fun t t' => t'.openedAt ≤ t.openedAt
  | .work (.putTicket t v), d, r, d' => ∃ save a,
      (d.memory.putTicket t v).run save d.memory = (a, d'.memory) ∧ r = a.plain
  | .work (.appendTicketAudit row), d, r, d' => ∃ save a,
      (d.memory.appendTicketAudit row).run save d.memory = (a, d'.memory) ∧ r = a.plain
  | _, d, _, d' => d'.memory.tickets = d.memory.tickets

/-- A put that went through: over the ticket at the version asked for, where one was. -/
structure Put (t : Ticket) (v : Int) (row : Ticket) (d d' : Desk V) : Prop where
  row_eq : row = { t with resourceVersion := row.resourceVersion }
  rows : d'.row = Function.update d.row t.id (some row)
  version : ∀ cur, d.row t.id = some cur → row.resourceVersion = cur.resourceVersion + 1
  guard : ∀ cur, d.row t.id = some cur → v ≤ 0 ∨ cur.resourceVersion = v

variable {d d' : Desk V} {t : Ticket} {v : Int}

theorem row_insert {id : Bytes} {row : Ticket}
    (h : d'.memory.tickets = d.memory.tickets.insert id row) :
    d'.row = update d.row id (some row) := by
  funext k
  rw [Desk.row, h, Undo.get_insert, update_apply]
  rfl

theorem putTicket_run (m : Memory V) (t : Ticket) (v : Int) :
    (∃ f, m.putTicket t v = .done (.error f)) ∨
      (m.putTicket t v).saves = true ∧ ∃ row : Ticket,
        (m.putTicket t v).run none m = (.ok row, { m with tickets := m.tickets.insert t.id row }) ∧
        row = { t with resourceVersion := row.resourceVersion } ∧
        ∀ cur, m.tickets[t.id]? = some cur →
          row.resourceVersion = cur.resourceVersion + 1 ∧ (v ≤ 0 ∨ cur.resourceVersion = v) := by
  unfold Memory.putTicket
  split
  · exact .inl ⟨_, rfl⟩
  cases hcur : m.tickets[t.id]? with
  | some cur =>
    dsimp only
    split
    · exact .inl ⟨_, rfl⟩
    · rename_i hguard
      refine .inr ⟨rfl, _, rfl, rfl, ?_⟩
      rintro cur' ⟨⟩
      exact ⟨rfl, by omega⟩
  | none =>
    dsimp only
    split
    · exact .inl ⟨_, rfl⟩
    · exact .inr ⟨rfl, _, rfl, rfl, nofun⟩

theorem row_congr (h : d'.memory.tickets = d.memory.tickets) : d'.row = d.row := by
  funext id
  rw [Desk.row, Desk.row, h]

theorem step_putTicket {r : Except StoreError Ticket}
    (h : Desk.Step (.work (.putTicket t v)) d r d') :
    (∃ e, r = .error e ∧ d'.row = d.row) ∨ ∃ row, r = .ok row ∧ Put t v row d d' := by
  obtain ⟨save, a, hrun, rfl⟩ := h
  rcases putTicket_run d.memory t v with ⟨f, hf⟩ | ⟨hsaves, row, hok, hrow, hcur⟩
  · rw [hf] at hrun
    obtain ⟨rfl, hm⟩ := Prod.mk.inj hrun
    exact .inl ⟨f.error, rfl, row_congr (by rw [hm])⟩
  cases save with
  | some e =>
    -- The save fails, and the put is undone.
    obtain ⟨f, hf⟩ := d.memory.putTicket_atomic t v e hsaves
    rw [hf] at hrun
    obtain ⟨rfl, hm⟩ := Prod.mk.inj hrun
    exact .inl ⟨f.error, rfl, row_congr (by rw [hm])⟩
  | none =>
    rw [hok] at hrun
    obtain ⟨rfl, hm⟩ := Prod.mk.inj hrun
    refine .inr ⟨row, rfl, hrow, row_insert (by rw [← hm]), ?_, ?_⟩
    · exact fun cur h => (hcur cur h).1
    · exact fun cur h => (hcur cur h).2

/-! ### The writers -/

/-- A request for one of the four handlers, or a tick of the scanner. -/
inductive Writer where
  | transition (r : Request) (c : Ctx) (id : Bytes)
  | assign (r : Request) (c : Ctx) (id : Bytes)
  | form (r : Request) (c : Ctx) (id : Bytes)
  | photo (r : Request) (c : Ctx) (id : Bytes)
  | sla (lock : Except StoreError Bool) (now : Int)

/-- A writer's program; a tick answers nobody. -/
def Writer.prog (env : Env V) : Writer → Prog (Op V) Op.Ret (Option (Reply (Body V)))
  | .transition r c id => some <$> serveTicketTransition env r c id
  | .assign r c id => some <$> serveTicketAssign env r c id
  | .form r c id => some <$> serveInspectionFormPost env r c id
  | .photo r c id => some <$> servePhotoUpload env r c id
  | .sla lock now => (fun _ => none) <$> scanSLATick lock now

/-- What a call does to the tickets. -/
def act : Event (Op V) Op.Ret → Act Ticket
  | ⟨.work (.getTicket _), .ok (some t)⟩ => .read t
  | ⟨.work (.putTicket _ _), .ok row⟩ => .write row
  | _ => .other

/-- **A call** reads a stored ticket, or puts one, or leaves the tickets. -/
theorem step_cases {ev : Event (Op V) Op.Ret} (h : Desk.Step ev.op d ev.ret d') :
    (∃ t, act ev = .read t ∧ d.row t.id = some t ∧ d'.row = d.row) ∨
      (∃ t v row, ev = ⟨.work (.putTicket t v), .ok row⟩ ∧ Put t v row d d') ∨
      act ev = .other ∧ d'.row = d.row := by
  obtain ⟨op, ret⟩ := ev
  cases op with
  | tenancy c => exact .inr (.inr ⟨rfl, row_congr h⟩)
  | outside o => exact .inr (.inr ⟨rfl, row_congr h⟩)
  | work c =>
    cases c with
    | getTicket id =>
      obtain ⟨hret, rfl⟩ := h
      subst hret
      cases hrow : d'.row id with
      | none => exact .inr (.inr ⟨rfl, rfl⟩)
      | some t => exact .inl ⟨t, rfl, (d'.keyed id t hrow).symm ▸ hrow, rfl⟩
    | listTickets =>
      obtain ⟨rfl, ts, hret, -⟩ := h
      exact .inr (.inr ⟨rfl, rfl⟩)
    | putTicket t v =>
      rcases step_putTicket h with ⟨e, hret, hrow⟩ | ⟨row, hret, hput⟩
      · dsimp only at ret hret
        subst hret
        exact .inr (.inr ⟨rfl, hrow⟩)
      · dsimp only at ret hret
        subst hret
        exact .inr (.inl ⟨t, v, row, rfl, hput⟩)
    | appendTicketAudit row =>
      obtain ⟨save, a, hrun, -⟩ := h
      refine .inr (.inr ⟨rfl, row_congr ?_⟩)
      cases save with
      | none => rw [← (Prod.mk.inj hrun).2]; rfl
      | some e => rw [← (Prod.mk.inj hrun).2]; rfl
    | _ => exact .inr (.inr ⟨rfl, row_congr h⟩)

/-- What a writer may put after it has read `t`, and at which version. -/
structure Revises (t t' : Ticket) (v : Int) : Prop where
  id : t'.id = t.id
  state : t'.state = t.state ∨ allowedTransition t.state t'.state = true
  escalatedAt : t.escalatedAt.isSome = true → t'.escalatedAt = t.escalatedAt
  version : v ≤ 0 ∨ v = t.resourceVersion

/-- A writer follows the ticket it has read last, and puts revisions of it alone. -/
def reviser (V α : Type) : Protocol (Op V) Op.Ret α (Option Ticket) where
  next g e := (act e).seen g
  permits g op :=
    match op with
    | .work (.putTicket t' v) => ∃ t, g = some t ∧ Revises t t' v
    | _ => True
  ends _ _ := True

section Obeys

variable {α : Type} {g : Option Ticket} {t t' : Ticket}

theorem obeys_ite {b : Prop} [Decidable b] {h h' : Handler V} (hb : b → (reviser V _).Obeys g h)
    (hn : ¬ b → (reviser V _).Obeys g h') : (reviser V _).Obeys g (if b then h else h') := by
  split
  · exact hb ‹_›
  · exact hn ‹_›

theorem obeys_orElse {ε : Type} {x : Except ε α} {no : ε → Handler V} {k : α → Handler V}
    (hno : ∀ e, (reviser V _).Obeys g (no e)) (hk : ∀ a, (reviser V _).Obeys g (k a)) :
    (reviser V _).Obeys g (orElse x no k) := by
  cases x with
  | error e => exact hno e
  | ok a => exact hk a

theorem obeys_decodeBody {limit : Nat} {decode : Bytes → Except Bytes α} {r : Request}
    {k : α → Handler V} (hk : ∀ a, (reviser V _).Obeys g (k a)) :
    (reviser V _).Obeys g (decodeBody limit decode r k) :=
  obeys_orElse (fun _ => trivial) fun _ => obeys_orElse (fun _ => trivial) hk

theorem obeys_checkScope {env : Env V} {c : Ctx} {action : Rbac.Action} {path : Bytes}
    {k : Handler V} (hk : (reviser V _).Obeys g k) :
    (reviser V _).Obeys g (checkScope env c action path k) :=
  obeys_ite (fun _ => hk) fun _ => trivial

variable {k : Ticket → Handler V} {now : Int}

theorem obeys_withTicket {id : Bytes} (hk : ∀ t, (reviser V _).Obeys (some t) (k t)) :
    (reviser V _).Obeys g (withTicket id k) := by
  refine ⟨trivial, fun found => ?_⟩
  cases found with
  | error e => trivial
  | ok row =>
    cases row with
    | none => trivial
    | some t => exact hk t

theorem obeys_putTicketAt (h : Revises t t' t'.resourceVersion)
    (hk : ∀ out, (reviser V _).Obeys (some t) (k out)) :
    (reviser V _).Obeys (some t) (putTicketAt t' k) := by
  refine ⟨⟨t, rfl, h⟩, fun res => ?_⟩
  cases res with
  | ok out => exact hk out
  | error e => exact obeys_ite (fun _ => trivial) fun _ => trivial

theorem obeys_appendTicketAudit {c : Ctx} {id op source target : Bytes} {k : Handler V}
    (hk : (reviser V _).Obeys g k) :
    (reviser V _).Obeys g (appendTicketAudit c id op source target k) :=
  ⟨trivial, fun _ => ⟨trivial, fun _ => ⟨trivial, fun _ => hk⟩⟩⟩

theorem moveTicket_revises {target : Bytes} (h : allowedTransition t.state target = true) :
    Revises t (moveTicket t target now) (moveTicket t target now).resourceVersion := by
  unfold moveTicket
  iterate 2
    split
    · exact ⟨rfl, .inr h, fun _ => rfl, .inr rfl⟩
  · split
    iterate 2 exact ⟨rfl, .inr h, fun _ => rfl, .inr rfl⟩

variable {env : Env V} {r : Request} {c : Ctx} {id : Bytes}

theorem serveTicketTransition_obeys :
    (reviser V _).Obeys g (serveTicketTransition env r c id) := by
  refine obeys_decodeBody fun target => obeys_ite (fun _ => trivial) fun _ => ?_
  refine obeys_withTicket fun t => obeys_ite (fun _ => trivial) fun hedge => ?_
  refine obeys_checkScope ⟨trivial, fun now => ?_⟩
  refine obeys_putTicketAt (moveTicket_revises (by simpa using hedge)) fun out => ?_
  exact obeys_appendTicketAudit trivial

theorem serveTicketAssign_obeys : (reviser V _).Obeys g (serveTicketAssign env r c id) := by
  refine obeys_decodeBody fun assignee => obeys_withTicket fun t => obeys_checkScope ?_
  refine obeys_putTicketAt ⟨rfl, .inl rfl, fun _ => rfl, .inr rfl⟩ fun out => ?_
  exact obeys_appendTicketAudit trivial

theorem obeys_loadInspectionFormTicket {action : Rbac.Action}
    (hk : ∀ t, (reviser V _).Obeys (some t) (k t)) :
    (reviser V _).Obeys g (loadInspectionFormTicket env c id action k) :=
  obeys_withTicket fun t => obeys_ite (fun _ => trivial) fun _ => obeys_checkScope (hk t)

theorem obeys_putTicket (h : Revises t t' 0) (hk : ∀ out, (reviser V _).Obeys (some t) (k out)) :
    (reviser V _).Obeys (some t) (work (.putTicket t' 0) <| onOk k) := by
  refine ⟨⟨t, rfl, h⟩, fun res => ?_⟩
  cases res with
  | ok out => exact hk out
  | error e => trivial

theorem serveInspectionFormPost_obeys :
    (reviser V _).Obeys g (serveInspectionFormPost env r c id) := by
  refine obeys_loadInspectionFormTicket fun t => ?_
  refine obeys_orElse (fun _ => trivial) fun form => obeys_ite (fun _ => trivial) fun _ => ?_
  refine obeys_ite (fun _ => trivial) fun hedge => ⟨trivial, fun now => ?_⟩
  have hedge : allowedTransition t.state "resolved" = true := by simpa using hedge
  exact obeys_putTicket ⟨rfl, .inr hedge, fun _ => rfl, .inl le_rfl⟩ fun _ => trivial

theorem servePhotoUpload_obeys : (reviser V _).Obeys g (servePhotoUpload env r c id) := by
  refine obeys_loadInspectionFormTicket fun t => obeys_ite (fun _ => trivial) fun _ => ?_
  refine ⟨trivial, fun saved => obeys_orElse (fun _ => trivial) fun photo => ?_⟩
  exact obeys_putTicket ⟨rfl, .inl rfl, fun _ => rfl, .inl le_rfl⟩ fun _ => trivial

theorem escalate_obeys (ts : List Ticket) :
    ∀ {g : Option Ticket}, (reviser V _).Obeys g (escalate now ts) := by
  induction ts with
  | nil => exact trivial
  | cons t ts ih =>
    refine ⟨trivial, fun found => ?_⟩
    cases found with
    | error e => exact ih
    | ok row =>
      cases row with
      | none => exact ih
      | some cur =>
        show (reviser V _).Obeys (some cur) (if _ then _ else _)
        split
        · exact ih
        · rename_i hopen
          -- Only a ticket without the mark gets it.
          have hnone : cur.escalatedAt.isSome = true → False := by simp_all
          exact ⟨⟨cur, rfl, rfl, .inl rfl, fun h => (hnone h).elim, .inr rfl⟩, fun _ => ih⟩

theorem scanSLATick_obeys {lock : Except StoreError Bool} :
    (reviser V _).Obeys g (scanSLATick lock now) := by
  unfold scanSLATick
  split
  · trivial
  · trivial
  · refine ⟨trivial, fun listed => ?_⟩
    cases listed with
    | error e => trivial
    | ok all => exact Protocol.Obeys.bind (escalate_obeys _)

/-- **Every writer puts revisions of what it has read.** -/
theorem Writer.obeys (w : Writer) : (reviser V _).Obeys g (w.prog env) := by
  cases w with
  | transition r c id => exact Protocol.Obeys.bind serveTicketTransition_obeys
  | assign r c id => exact Protocol.Obeys.bind serveTicketAssign_obeys
  | form r c id => exact Protocol.Obeys.bind serveInspectionFormPost_obeys
  | photo r c id => exact Protocol.Obeys.bind servePhotoUpload_obeys
  | sla lock now => exact Protocol.Obeys.bind scanSLATick_obeys

end Obeys

/-! ### Histories -/

/-- A call of a thread, with the store before and after it. -/
abbrev Entry (ι V : Type) := Effect.Entry ι (Op V) Op.Ret (Desk V)

variable {ι : Type}

/-- A call as an access to the tickets. -/
def Entry.access (e : Entry ι V) : Access ι Bytes Ticket :=
  Effect.Entry.access (fun e => act e.event) Desk.row e

theorem Entry.valid {e : Entry ι V} (h : Desk.Step e.event.op e.before e.event.ret e.after) :
    e.access.Valid Ticket.id Ticket.resourceVersion := by
  rcases step_cases h with ⟨t, ha, hrow, hafter⟩ | ⟨t, v, row, hev, hput⟩ | ⟨ha, hafter⟩
  · have hact : e.access.act = .read t := ha
    rw [Access.Valid, hact]
    exact ⟨hafter, hrow⟩
  · have hact : e.access.act = .write row := by
      show act e.event = _
      rw [hev]
      rfl
    have hid : row.id = t.id := by rw [hput.row_eq]
    rw [Access.Valid, hact]
    exact ⟨hid ▸ hput.rows, fun cur hcur => hput.version cur (hid ▸ hcur)⟩
  · have hact : e.access.act = .other := ha
    rw [Access.Valid, hact]
    exact hafter

abbrev Office (ι V : Type) := Pool ι (Op V) Op.Ret (Option (Reply (Body V))) (Desk V)

/-- Writers that have yet to start, one to a thread. -/
def Office.start (env : Env V) (d : Desk V) (w : ι → Writer) : Office ι V :=
  ⟨d, fun i => (w i).prog env⟩

def is2xx {β : Type} : Reply β → Bool
  | .json status _ => 200 ≤ status && status < 300
  | .noContent => true
  | .problem _ => false

/-- The thread has answered its client with a success. -/
def Office.Acked (c : Office ι V) (i : ι) : Prop := ∃ a, c.prog i = .done (some a) ∧ is2xx a = true

variable [DecidableEq ι]

/-- A step of one thread, logged. -/
abbrev Logged (c : Office ι V) (e : Entry ι V) (c' : Office ι V) : Prop :=
  Pool.Logged Desk.Step c e c'

/-- The ticket a thread has read last, and the calls since. -/
def readBy (i : ι) (log : List (Entry ι V)) : Option Ticket := lastRead i (log.map Entry.access)

def sinceReadBy (i : ι) (log : List (Entry ι V)) : List (Access ι Bytes Ticket) :=
  sinceRead i (log.map Entry.access)

/-- The call puts a ticket over an acknowledged change that its thread has not read. -/
def Overwrites (acked : ι → Prop) (pre : List (Entry ι V)) (e : Entry ι V) : Prop :=
  ∃ row, act e.event = .write row ∧
    ∃ x ∈ sinceReadBy e.thread pre, x.Writes Ticket.id row.id ∧ acked x.thread

/-- The call moves tickets only along edges, keeps escalation marks, and overwrites nothing. -/
structure Entry.Ok (acked : ι → Prop) (pre : List (Entry ι V)) (e : Entry ι V) : Prop where
  kept : ∀ id t, e.before.row id = some t → ∃ t', e.after.row id = some t' ∧
    (t'.state = t.state ∨ allowedTransition t.state t'.state = true) ∧
    (t.escalatedAt.isSome = true → t'.escalatedAt = t.escalatedAt)
  fresh : ¬ Overwrites acked pre e

def Consistent (acked : ι → Prop) (log : List (Entry ι V)) : Prop :=
  ∀ pre e post, log = pre ++ e :: post → e.Ok acked pre

/-- A put without a version, over a ticket that is not the one its thread has read. -/
def StalePut (pre : List (Entry ι V)) (e : Entry ι V) : Prop :=
  ∃ t v row, e.event = ⟨.work (.putTicket t v), .ok row⟩ ∧ v ≤ 0 ∧
    e.before.row t.id ≠ readBy e.thread pre

variable {c c' : Office ι V} {log pre : List (Entry ι V)} {e : Entry ι V} {env : Env V}

theorem permits_of_logged {w : ι → Writer} (h : Run Logged (.start env d w) log c)
    (hl : Logged c e c') :
    (reviser V (Option (Reply (Body V)))).permits (readBy e.thread log) e.event.op := by
  have hread : (reviser V (Option (Reply (Body V)))).after (fun _ => none)
      (log.map Effect.Entry.label) e.thread = readBy e.thread log :=
    Protocol.after_lastRead (f := id) (fun _ => rfl) (fun _ _ => rfl) e.thread
  rw [← hread]
  exact permits_logged h (fun i => (w i).obeys) hl

/-- A put that is not stale goes over the ticket that was read, unwritten since. -/
theorem put_over_read {row : Ticket} {acked : ι → Prop}
    (hsees : Sees Ticket.id Ticket.resourceVersion (pre.map Entry.access) e.before.row e.thread)
    (hev : e.event = ⟨.work (.putTicket t v), .ok row⟩) (hput : Put t v row e.before e.after)
    {cur : Ticket} (hread : readBy e.thread pre = some cur) (hrev : Revises cur t v)
    (hstale : ¬ StalePut pre e) : e.before.row t.id = some cur ∧ ¬ Overwrites acked pre e := by
  obtain ⟨now, hnow, hcase⟩ := hsees cur hread
  rw [← hrev.id] at hnow hcase
  rcases hcase with ⟨rfl, hquiet⟩ | hlater
  · refine ⟨hnow, ?_⟩
    rintro ⟨row', hact, x, hx, hwrites, -⟩
    rw [hev] at hact
    cases hact
    rw [hput.row_eq] at hwrites
    exact hquiet x hx hwrites
  · -- The stored ticket has a later version, so the put had none to ask for.
    have hv : v ≤ 0 := by
      rcases hput.guard now hnow with hv | hv
      · exact hv
      · rcases hrev.version with hv' | hv'
        · exact hv'
        · omega
    refine absurd ⟨t, v, row, hev, hv, ?_⟩ hstale
    rw [hnow, hread]
    rintro ⟨⟩
    omega

/-- Every call but a stale put is in order. -/
theorem ok_of_not_stale {w : ι → Writer} {acked : ι → Prop} (h : Run Logged (.start env d w) pre c)
    (hl : Logged c e c') (hstale : ¬ StalePut pre e) : e.Ok acked pre := by
  have hleave : e.after.row = e.before.row → (∀ row, act e.event ≠ .write row) →
      e.Ok acked pre := by
    intro hrow hact
    refine ⟨fun id t ht => ⟨t, hrow ▸ ht, .inl rfl, fun _ => rfl⟩, ?_⟩
    rintro ⟨row, hrow, -⟩
    exact hact row hrow
  rcases step_cases (Logged.call hl) with ⟨t, ha, -, hrow⟩ | ⟨t, v, row, hev, hput⟩ | ⟨ha, hrow⟩
  · exact hleave hrow (by simp [ha])
  · have hperm := permits_of_logged h hl
    rw [hev] at hperm
    obtain ⟨cur, hread, hrev⟩ := hperm
    have hsees := sees (fun hs => Entry.valid hs) h e.thread
    rw [← hl.2.1] at hsees
    obtain ⟨hcur, hfresh⟩ := put_over_read hsees hev hput hread hrev hstale
    refine ⟨fun id x hx => ?_, hfresh⟩
    rw [hput.rows]
    by_cases hid : id = t.id
    · subst hid
      obtain rfl : cur = x := Option.some.inj (hcur.symm.trans hx)
      refine ⟨row, update_self .., ?_, ?_⟩
      · rw [hput.row_eq]
        exact hrev.state
      · rw [hput.row_eq]
        exact hrev.escalatedAt
    · exact ⟨x, by rw [update_of_ne hid]; exact hx, .inl rfl, fun _ => rfl⟩
  · exact hleave hrow (by simp [ha])

section Histories
variable {d : Desk V} {w : ι → Writer} (h : Run Logged (.start env d w) log c')
include h

theorem consistent_of_stale
    (hall : ∀ pre e post, log = pre ++ e :: post → StalePut pre e → e.Ok c'.Acked pre) :
    Consistent c'.Acked log := by
  intro pre e post hlog
  by_cases hstale : StalePut pre e
  · exact hall pre e post hlog hstale
  · subst hlog
    obtain ⟨c, hpre, hpost⟩ := h.split
    cases hpost with
    | more hl _ => exact ok_of_not_stale hpre hl hstale

/-- A run without such puts is in order. -/
theorem consistent_of_no_stale (hno : ∀ pre e post, log = pre ++ e :: post → ¬StalePut pre e) :
    Consistent c'.Acked log :=
  consistent_of_stale h fun pre e post hlog hstale => absurd hstale (hno pre e post hlog)

end Histories

/-- **Histories.**  Whatever the interleaving, the history is consistent exactly when the puts
without a version over a ticket changed since it was read are in order. -/
theorem history_consistent_iff {d : Desk V} {w : ι → Writer}
    (h : Run Logged (.start env d w) log c') :
    Consistent c'.Acked log ↔
      ∀ pre e post, log = pre ++ e :: post → StalePut pre e → e.Ok c'.Acked pre :=
  ⟨fun hall pre e post hlog _ => hall pre e post hlog, consistent_of_stale h⟩

/-! ### A photo of an inspection that is acknowledged meanwhile -/

def officeEnv : Env Nat := { Env.plain with ticketTo := .ok }

def inspectionTicket : Ticket where
  id := "tk_AAAAAAAAAAAAAAAA"
  alarmID := []
  assetPath := "site01.cdu000"
  title := "inspect the pump"
  severity := "minor"
  state := "open"
  assignee := []
  openedAt := 0
  ackedAt := none
  resolvedAt := none
  closedAt := none
  escalatedAt := none
  resourceVersion := 1
  runbook := "inspection:filter\n"

def deskOf (t : Ticket) (auds : List TicketAudit) : Desk Nat where
  memory := { Memory.empty with tickets := (∅ : Map Ticket).insert t.id t, ticketAuds := auds }
  keyed := by
    intro id x h
    rw [Undo.get_insert] at h
    split at h
    · rename_i hk
      obtain rfl := Option.some.inj h
      exact hk.symm
    · simp at h

theorem deskOf_row {auds : List TicketAudit} : (deskOf t auds).row t.id = some t := by
  simp [deskOf, Desk.row]

theorem deskOf_put {t' : Ticket} {auds : List TicketAudit} (hid : t'.id = t.id)
    (halarm : t'.alarmID = []) (hv : v ≤ 0 ∨ t.resourceVersion = v) :
    Desk.Step (.work (.putTicket t' v)) (deskOf t auds)
      (.ok { t' with resourceVersion := t.resourceVersion + 1 })
      (deskOf { t' with resourceVersion := t.resourceVersion + 1 } auds) := by
  refine ⟨none, .ok { t' with resourceVersion := t.resourceVersion + 1 }, ?_, rfl⟩
  have hcur : (deskOf t auds).memory.tickets[t'.id]? = some t := hid ▸ deskOf_row
  have hguard : ¬ (v > 0 ∧ t.resourceVersion ≠ v) := by omega
  unfold Memory.putTicket
  rw [if_neg (fun h => h.1 halarm), hcur]
  dsimp only
  rw [if_neg hguard]
  simp only [Attempt.run, deskOf, hid, Prod.mk.injEq, true_and]
  congr 1
  refine Std.ExtTreeMap.ext_getElem? fun k => ?_
  simp only [Std.ExtTreeMap.getElem?_insert]
  split
  · rfl
  · rfl

def inspectionPost (body : Bytes) : Request :=
  ⟨.post, "/v1/inspections", [], [], [], [], [], .ok body⟩

def photoAndAck : Bool → Writer
  | false => .photo (inspectionPost []) ⟨none, none⟩ inspectionTicket.id
  | true => .transition (inspectionPost "acknowledged") ⟨none, none⟩ inspectionTicket.id

def ackedTicket : Ticket :=
  { moveTicket inspectionTicket "acknowledged" 5 with resourceVersion := 2 }

def ackAudit : TicketAudit :=
  ⟨"ta_1", inspectionTicket.id, "transitioned", "open", "acknowledged", "anonymous", 6⟩

def photoTicket : Ticket :=
  { inspectionTicket with
    runbook := appendInspectionPhoto inspectionTicket.runbook "photos/1.jpg"
    resourceVersion := 3 }

def ackPut : Entry Bool Nat :=
  ⟨true, ⟨.work (.putTicket (moveTicket inspectionTicket "acknowledged" 5) 1), .ok ackedTicket⟩,
    deskOf inspectionTicket [], deskOf ackedTicket []⟩

def ackLog : List (Entry Bool Nat) :=
  let d := deskOf inspectionTicket []
  let d' := deskOf ackedTicket []
  let found : Event (Op Nat) Op.Ret :=
    ⟨.work (.getTicket inspectionTicket.id), .ok (some inspectionTicket)⟩
  [⟨false, found, d, d⟩, ⟨true, found, d, d⟩, ⟨true, ⟨.outside .now, (5 : Int)⟩, d, d⟩, ackPut,
    ⟨true, ⟨.outside (.newID "ta_"), lit "ta_1"⟩, d', d'⟩,
    ⟨true, ⟨.outside .now, (6 : Int)⟩, d', d'⟩,
    ⟨true, ⟨.work (.appendTicketAudit ackAudit), .ok ()⟩, d', deskOf ackedTicket [ackAudit]⟩]

def photoSaved : Entry Bool Nat :=
  ⟨false, ⟨.outside (.savePhoto inspectionTicket.id (inspectionPost [])),
    .ok ⟨"photos/1.jpg", "1.jpg", 9⟩⟩, deskOf ackedTicket [ackAudit], deskOf ackedTicket [ackAudit]⟩

def photoPut : Entry Bool Nat :=
  ⟨false, ⟨.work (.putTicket { photoTicket with resourceVersion := 1 } 0), .ok photoTicket⟩,
    deskOf ackedTicket [ackAudit], deskOf photoTicket [ackAudit]⟩

theorem photo_run : ∃ c, Run Logged (.start officeEnv (deskOf inspectionTicket []) photoAndAck)
    (ackLog ++ [photoSaved, photoPut]) c ∧ c.Acked true := by
  have hread : Desk.Step (V := Nat) (.work (.getTicket inspectionTicket.id))
      (deskOf inspectionTicket []) (.ok (some inspectionTicket)) (deskOf inspectionTicket []) :=
    ⟨congrArg Except.ok deskOf_row.symm, rfl⟩
  refine ⟨_, .more (logged_call rfl hread) <| .more (logged_call rfl hread) <|
    .more (logged_call rfl rfl) <| .more (logged_call rfl ?_) <| .more (logged_call rfl rfl) <|
    .more (logged_call rfl rfl) <| .more (logged_call rfl ?_) <| .more (logged_call rfl rfl) <|
    .more (logged_call rfl ?_) (.refl _), ⟨_, rfl, rfl⟩⟩
  · exact deskOf_put rfl rfl (.inr rfl)
  · exact ⟨none, .ok (), rfl, rfl⟩
  · exact deskOf_put (t := ackedTicket) rfl rfl (.inl le_rfl)

/-- Up to the photo's put every put names a version. -/
theorem ackLog_consistent : ∃ c, Run Logged
    (.start officeEnv (deskOf inspectionTicket []) photoAndAck) ackLog c ∧
      Consistent c.Acked ackLog := by
  obtain ⟨_, hrun, -⟩ := photo_run
  obtain ⟨c, hrun, -⟩ := hrun.split
  refine ⟨c, hrun, (history_consistent_iff hrun).mpr ?_⟩
  rintro pre e post hlog ⟨t, v, row, hev, hv, -⟩
  have hmem : e ∈ ackLog := hlog ▸ mem_append_right _ (mem_cons_self ..)
  simp only [ackLog, mem_cons, not_mem_nil, or_false] at hmem
  rcases hmem with rfl | rfl | rfl | rfl | rfl | rfl | rfl
  all_goals cases hev
  exact absurd hv (by decide)

/-- **A lost acknowledgement.**  The photo read the open ticket, and its put opens it again after
the client was told that it is acknowledged. -/
theorem photo_reopens : ∃ c, Run Logged
    (.start officeEnv (deskOf inspectionTicket []) photoAndAck)
      (ackLog ++ [photoSaved, photoPut]) c ∧
    photoPut.before.row inspectionTicket.id = some ackedTicket ∧
    photoPut.after.row inspectionTicket.id = some photoTicket ∧
    allowedTransition ackedTicket.state photoTicket.state = false ∧
    Overwrites c.Acked (ackLog ++ [photoSaved]) photoPut ∧
    ¬ Consistent c.Acked (ackLog ++ [photoSaved, photoPut]) := by
  obtain ⟨c, hrun, hacked⟩ := photo_run
  have hover : Overwrites c.Acked (ackLog ++ [photoSaved]) photoPut := by
    have hsince : sinceReadBy false (ackLog ++ [photoSaved]) =
        (ackLog.tail ++ [photoSaved]).map Entry.access := rfl
    refine ⟨photoTicket, rfl, ackPut.access, ?_, ⟨ackedTicket, rfl, rfl⟩, hacked⟩
    rw [show photoPut.thread = false from rfl, hsince]
    exact mem_map_of_mem (mem_append_left _ (mem_of_getElem? (i := 2) rfl))
  refine ⟨c, hrun, deskOf_row, deskOf_row, by decide, hover, fun h => ?_⟩
  exact (h (ackLog ++ [photoSaved]) photoPut [] (by simp)).fresh hover

end Cios.Ticket
