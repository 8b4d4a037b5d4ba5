import Cios.Store.Rollback

/-!
# Tickets — one active ticket for an alarm

A ticket is active for its alarm while it is not closed.  `PutTicket` refuses a ticket that would be
active for an alarm next to another one (`Contested`), `UpdateTicketAssignee` leaves both the alarm
and the state, and a failed save takes its change back (`one_active_ticket`).
-/

namespace Cios.Ticket
open Text Std.ExtTreeMap
open Cios.Store

variable {V : Type}

def Active (t : Ticket) : Prop := t.alarmID ≠ [] ∧ t.state ≠ "closed"

/-- Another ticket is active for the alarm that this one would be active for. -/
def Contested (rows : Store.Map Ticket) (t : Ticket) : Prop :=
  Active t ∧ ∃ (id : Bytes) (cur : Ticket), rows[id]? = some cur ∧ id ≠ t.id ∧
    cur.alarmID = t.alarmID ∧ cur.state ≠ "closed"

theorem contested_iff {rows : Store.Map Ticket} {t : Ticket} :
    (t.alarmID ≠ [] ∧ t.state ≠ "closed" ∧ (rows.toList.any fun kv =>
      kv.1 ≠ t.id && kv.2.alarmID = t.alarmID && kv.2.state ≠ "closed") = true) ↔
      Contested rows t := by
  rw [Contested, Active, List.any_eq_true, and_assoc]
  refine and_congr_right fun _ => and_congr_right fun _ => ?_
  constructor
  · rintro ⟨⟨id, cur⟩, hmem, hcur⟩
    rw [mem_toList_iff_getElem?_eq_some] at hmem
    exact ⟨id, cur, hmem, by simpa [and_assoc] using hcur⟩
  · rintro ⟨id, cur, hget, hcur⟩
    exact ⟨(id, cur), mem_toList_iff_getElem?_eq_some.mpr hget,
      by simpa [and_assoc] using hcur⟩

/-- **A put** is refused for another active ticket or its version, or saves the ticket under its id
with the next version. -/
theorem putTicket_cases (m : Memory V) (t : Ticket) (v : Int) :
    (Contested m.tickets t ∧ m.putTicket t v = .done (refuse Sentinel.duplicateActiveTicket)) ∨
      ¬ Contested m.tickets t ∧
        ((∃ value, m.putTicket t v = .done (.error ⟨Sentinel.versionConflict, value⟩) ∧ v > 0 ∧
          ∀ cur, m.tickets[t.id]? = some cur → cur.resourceVersion ≠ v) ∨
        (v > 0 → ∃ cur, m.tickets[t.id]? = some cur ∧ cur.resourceVersion = v) ∧
        let row := { t with
          resourceVersion := (m.tickets[t.id]?.elim 0 Ticket.resourceVersion) + 1 }
        ∃ undo failed, m.putTicket t v =
          .save { m with tickets := m.tickets.insert t.id row } (.ok row) undo failed) := by
  unfold Memory.putTicket
  split
  · rename_i hcont
    exact .inl ⟨contested_iff.mp hcont, rfl⟩
  rename_i hcont
  refine .inr ⟨fun h => hcont (contested_iff.mpr h), ?_⟩
  cases hcur : m.tickets[t.id]? with
  | some cur =>
    dsimp only
    split
    · rename_i hv
      refine .inl ⟨_, rfl, hv.1, ?_⟩
      rintro cur' ⟨⟩
      exact hv.2
    · rename_i hv
      exact .inr ⟨fun hpos => ⟨cur, rfl, by_contra fun hne => hv ⟨hpos, hne⟩⟩, _, _, rfl⟩
  | none =>
    dsimp only
    split
    · rename_i hv
      exact .inl ⟨_, rfl, hv, nofun⟩
    · rename_i hv
      exact .inr ⟨fun hpos => absurd hpos hv, _, _, rfl⟩

/-! ### The operations -/

/-- A call on the tickets, and the error of its save if it fails. -/
inductive TicketOp where
  | put (t : Ticket) (expectVersion : Int) (save : Option Bytes)
  | assign (id assignee : Bytes) (save : Option Bytes)

def TicketOp.apply (m : Memory V) : TicketOp → Memory V
  | .put t v save => ((m.putTicket t v).run save m).2
  | .assign id assignee save => ((m.updateTicketAssignee id assignee).run save m).2

/-- What an operation leaves: the tickets, or one of them put under its id. -/
inductive Touches (rows : Store.Map Ticket) : Store.Map Ticket → Prop where
  | none : Touches rows rows
  | put {t : Ticket} (h : ¬ Contested rows t) (v : Int) :
      Touches rows (rows.insert t.id { t with resourceVersion := v })
  | assign {id : Bytes} {cur : Ticket} (h : rows[id]? = some cur) (assignee : Bytes) :
      Touches rows (rows.insert id { cur with assignee := assignee })

theorem TicketOp.touches (m : Memory V) (op : TicketOp) :
    Touches m.tickets (op.apply m).tickets := by
  cases op with
  | put t v save =>
    rw [TicketOp.apply]
    rcases putTicket_cases m t v with ⟨-, h⟩ | ⟨hcont, ⟨value, h, -⟩ | ⟨-, undo, failed, h⟩⟩
    · rw [h]
      exact .none
    · rw [h]
      exact .none
    cases save with
    | none =>
      rw [h]
      exact .put hcont _
    | some e =>
      -- The save fails, and the put is undone.
      obtain ⟨f, hf⟩ := m.putTicket_atomic t v e (by rw [h]; rfl)
      rw [hf]
      exact .none
  | assign id assignee save =>
    rw [TicketOp.apply]
    cases hcur : m.tickets[id]? with
    | none =>
      have h : m.updateTicketAssignee id assignee = .done (.ok none) := by
        rw [Memory.updateTicketAssignee, hcur]
      rw [h]
      exact .none
    | some cur =>
      cases save with
      | none =>
        have h : ((m.updateTicketAssignee id assignee).run none m).2 =
            { m with tickets := m.tickets.insert id { cur with assignee := assignee } } := by
          rw [Memory.updateTicketAssignee, hcur]
          rfl
        rw [h]
        exact .assign hcur assignee
      | some e =>
        obtain ⟨f, hf⟩ := m.updateTicketAssignee_atomic id assignee e
          (by rw [Memory.updateTicketAssignee, hcur]; rfl)
        rw [hf]
        exact .none

/-! ### The invariant -/

/-- No alarm has two active tickets. -/
def OneActive (rows : Store.Map Ticket) : Prop :=
  ∀ (id id' : Bytes) (t t' : Ticket), rows[id]? = some t → rows[id']? = some t' →
    Active t → Active t' → t.alarmID = t'.alarmID → id = id'

theorem OneActive.insert {rows : Store.Map Ticket} (hi : OneActive rows) {id : Bytes} {row : Ticket}
    (h : Active row → ∀ (k : Bytes) (cur : Ticket), rows[k]? = some cur → k ≠ id → Active cur →
      cur.alarmID ≠ row.alarmID) : OneActive (rows.insert id row) := by
  intro k k' t t' ht ht' hact hact' heq
  rw [Undo.get_insert] at ht ht'
  by_cases hk : k = id
  · rw [if_pos hk] at ht
    cases ht
    by_cases hk' : k' = id
    · rw [hk, hk']
    · rw [if_neg hk'] at ht'
      exact absurd heq.symm (h hact k' t' ht' hk' hact')
  · rw [if_neg hk] at ht
    by_cases hk' : k' = id
    · rw [if_pos hk'] at ht'
      cases ht'
      exact absurd heq (h hact' k t ht hk hact)
    · rw [if_neg hk'] at ht'
      exact hi k k' t t' ht ht' hact hact' heq

theorem Touches.oneActive {rows rows' : Store.Map Ticket} (h : Touches rows rows')
    (hi : OneActive rows) : OneActive rows' := by
  cases h with
  | none => exact hi
  | @put t hcont v =>
    refine hi.insert fun hact k cur hk hne hcur heq => hcont ⟨hact, k, cur, hk, hne, heq, hcur.2⟩
  | @assign id cur hcur assignee =>
    -- The ticket that is assigned was the only active one of its alarm.
    refine hi.insert fun hact k other hk hne hother heq => hne ?_
    exact hi k id other cur hk hcur hother hact heq

/-- **One active ticket.**  Whatever calls lead from a store without tickets to another, with saves
failing or not, at most one ticket of an alarm is not closed. -/
theorem one_active_ticket {m₀ : Memory V} (h₀ : m₀.tickets = ∅) (ops : List TicketOp)
    {id id' : Bytes} {t t' : Ticket} (ht : (ops.foldl TicketOp.apply m₀).tickets[id]? = some t)
    (ht' : (ops.foldl TicketOp.apply m₀).tickets[id']? = some t') (halarm : t.alarmID ≠ [])
    (heq : t.alarmID = t'.alarmID) (hstate : t.state ≠ "closed") (hstate' : t'.state ≠ "closed") :
    id = id' := by
  have hinv : ∀ m : Memory V, OneActive m.tickets →
      OneActive (ops.foldl TicketOp.apply m).tickets := by
    clear ht ht'
    induction ops with
    | nil => exact fun m hi => hi
    | cons op ops ih => exact fun m hi => ih _ ((op.touches m).oneActive hi)
  have hempty : OneActive m₀.tickets := by
    intro k k' a a' ha
    rw [h₀] at ha
    simp at ha
  exact hinv m₀ hempty id id' t t' ht ht' ⟨halarm, hstate⟩ ⟨heq ▸ halarm, hstate'⟩ heq

def alarmTicket (id alarm state : Bytes) : Ticket :=
  ⟨id, alarm, "hel01.h1", "fault", "major", state, [], 0, none, none, none, none, 0, []⟩

def reopening : List TicketOp :=
  [.put (alarmTicket "t1" "a1" "open") 0 none, .put (alarmTicket "t1" "a1" "closed") 1 none,
    .put (alarmTicket "t2" "a1" "open") 0 none, .put (alarmTicket "t1" "a1" "open") 0 none]

def reopened : Memory Unit := reopening.foldl TicketOp.apply Memory.empty

theorem one_active_ticket_reopened :
    (reopened.tickets[lit "t1"]?.map Ticket.state = some (lit "closed") ∧
      reopened.tickets[lit "t2"]? =
        some { alarmTicket "t2" "a1" "open" with resourceVersion := 1 }) ∧
      ∀ (id : Bytes) (t : Ticket), reopened.tickets[id]? = some t → t.alarmID = "a1" →
        t.state ≠ "closed" → id = "t2" := by
  have hget : reopened.tickets[lit "t2"]? =
      some { alarmTicket "t2" "a1" "open" with resourceVersion := 1 } := by decide +kernel
  refine ⟨⟨by decide +kernel, hget⟩, fun id t ht halarm hstate => ?_⟩
  exact one_active_ticket rfl reopening ht hget (by rw [halarm]; decide) halarm hstate (by decide)

end Cios.Ticket
