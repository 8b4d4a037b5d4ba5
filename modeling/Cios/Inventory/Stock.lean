import Cios.Http.Upkeep
import Cios.Store.Rollback
import Cios.Support.Interleave

/-!
# Stock — the ledger of spare parts

Requests to `/v1/spares` create spares and adjust their stock, any number of them side by side over
the file store; a call of the store is one step.  What the store has acknowledged so far is in the
events of the run: the spares created (`created`) and the movements of stock (`moved`).  Against
these the store is a ledger (`Ledger`).

A sum beyond the range of `int` wraps around to a negative number, which is refused for an
overdraft.
-/

namespace Cios.Stock
open Text Effect List Std.ExtTreeMap Prog Undo
open Cios.Store
open Cios.Http Cios.Http.Core
open Runs (Run)

variable {V : Type}

/-! ### The store -/

/-- What a call answers and leaves.  A save may fail; the other calls leave the spares. -/
def Step : (op : Op V) → Memory V → Op.Ret op → Memory V → Prop
  | .work (.putSpare sp), m, r, m' => ∃ amb, (m.putSpare sp).outcome amb m = (r, m')
  | .work (.adjustSpare id delta ticketID time), m, r, m' =>
    ∃ amb, (m.adjustSpare amb id delta ticketID time).outcome amb m = (r, m')
  | .work (.getSpare id), m, r, m' => r = .ok m.spares[id]? ∧ m' = m
  | _, m, _, m' => m'.spares = m.spares ∧ m'.spareTxns = m.spareTxns

/-- A movement of stock, as it is asked for. -/
structure Movement where
  spareID : Bytes
  delta : Int
  ticketID : Bytes
  time : Int
deriving DecidableEq, Repr

def movementOf (t : SpareTxn) : Movement := ⟨t.spareID, t.delta, t.ticketID, t.time⟩

/-- The spare that an acknowledged call created. -/
def created : Event (Op V) Op.Ret → Option SparePart
  | ⟨.work (.putSpare sp), .ok ()⟩ => some sp
  | _ => none

/-- The movement that an acknowledged call made. -/
def moved : Event (Op V) Op.Ret → Option Movement
  | ⟨.work (.adjustSpare id delta ticketID time), .ok _⟩ => some ⟨id, delta, ticketID, time⟩
  | _ => none

/-- What a call does to the spares. -/
inductive Does (m : Memory V) (ev : Event (Op V) Op.Ret) (m' : Memory V) : Prop where
  | none (hc : created ev = none) (hm : moved ev = none) (hspares : m'.spares = m.spares)
      (htxns : m'.spareTxns = m.spareTxns)
  | create {sp : SparePart} (hc : created ev = some sp) (hm : moved ev = none)
      (hop : ev.op = .work (.putSpare sp))
      (hsku : ∀ (id : Bytes) (other : SparePart), m.spares[id]? = some other → id ≠ sp.id →
        other.sku ≠ sp.sku)
      (hspares : m'.spares = m.spares.insert sp.id sp) (htxns : m'.spareTxns = m.spareTxns)
  | move {mv : Movement} {sp : SparePart} {txn : SpareTxn} (hc : created ev = none)
      (hm : moved ev = some mv)
      (hop : ev.op = .work (.adjustSpare mv.spareID mv.delta mv.ticketID mv.time))
      (hget : m.spares[mv.spareID]? = some sp) (hqty : 0 ≤ (sp.qty + mv.delta).bmod (2 ^ 64))
      (hspares : m'.spares = m.spares.insert mv.spareID
        { sp with qty := (sp.qty + mv.delta).bmod (2 ^ 64) })
      (htxn : movementOf txn = mv) (htxns : m'.spareTxns = m.spareTxns ++ [txn])

theorem sku_taken_iff {rows : Store.Map SparePart} {sp : SparePart} :
    (rows.toList.any fun kv => kv.1 ≠ sp.id && kv.2.sku = sp.sku) = true ↔
      ∃ (id : Bytes) (other : SparePart), rows[id]? = some other ∧ id ≠ sp.id ∧
        other.sku = sp.sku := by
  rw [any_eq_true]
  constructor
  · rintro ⟨⟨id, other⟩, hmem, hsku⟩
    rw [mem_toList_iff_getElem?_eq_some] at hmem
    exact ⟨id, other, hmem, by simpa using hsku⟩
  · rintro ⟨id, other, hget, hsku⟩
    exact ⟨(id, other), mem_toList_iff_getElem?_eq_some.mpr hget,
      by simpa using hsku⟩

variable {m m' : Memory V}

theorem putSpare_does {sp : SparePart} {amb : WorkAmbient} {r : Except StoreError Unit}
    (h : (m.putSpare sp).outcome amb m = (r, m')) :
    Does m ⟨.work (.putSpare sp), r⟩ m' := by
  by_cases htaken : (m.spares.toList.any fun kv => kv.1 ≠ sp.id && kv.2.sku = sp.sku) = true
  · rw [Memory.putSpare, if_pos htaken] at h
    obtain ⟨rfl, rfl⟩ := Prod.mk.inj h
    exact .none rfl rfl rfl rfl
  cases hs : amb.save with
  | some e =>
    -- The save fails, and the put is undone.
    obtain ⟨f, hf⟩ := m.putSpare_atomic sp e (by rw [Memory.putSpare, if_neg htaken]; rfl)
    rw [Attempt.outcome, hs, hf] at h
    obtain ⟨rfl, rfl⟩ := Prod.mk.inj h
    exact .none rfl rfl rfl rfl
  | none =>
    rw [Attempt.outcome, hs, Memory.putSpare, if_neg htaken] at h
    obtain ⟨rfl, rfl⟩ := Prod.mk.inj h
    exact .create rfl rfl rfl
      (fun id other hget hne hsku => htaken (sku_taken_iff.mpr ⟨id, other, hget, hne, hsku⟩))
      rfl rfl

theorem adjustSpare_does {id ticketID : Bytes} {delta time : Int} {amb : WorkAmbient}
    {r : Except StoreError (SparePart × SpareTxn)}
    (h : (m.adjustSpare amb id delta ticketID time).outcome amb m = (r, m')) :
    Does m ⟨.work (.adjustSpare id delta ticketID time), r⟩ m' := by
  have hrefused : ∀ e, m.adjustSpare amb id delta ticketID time = .done (Store.refuse e) →
      Does m ⟨.work (.adjustSpare id delta ticketID time), r⟩ m' := by
    intro e he
    rw [he] at h
    obtain ⟨rfl, rfl⟩ := Prod.mk.inj h
    exact .none rfl rfl rfl rfl
  cases hget : m.spares[id]? with
  | none => exact hrefused _ (by rw [Memory.adjustSpare, hget])
  | some sp =>
    by_cases hzero : delta = 0
    · exact hrefused _ (by rw [Memory.adjustSpare, hget]; exact if_pos hzero)
    by_cases hneg : (sp.qty + delta).bmod (2 ^ 64) < 0
    · refine hrefused Sentinel.insufficientStock ?_
      rw [Memory.adjustSpare, hget]
      dsimp only
      rw [if_neg hzero, if_pos hneg]
    · have hrun : (m.adjustSpare amb id delta ticketID time).saves = true := by
        rw [Memory.adjustSpare, hget]
        dsimp only
        rw [if_neg hzero, if_neg hneg]
        rfl
      cases hs : amb.save with
      | some e =>
        obtain ⟨f, hf⟩ := m.adjustSpare_atomic amb id delta ticketID time e hrun
        rw [Attempt.outcome, hs, hf] at h
        obtain ⟨rfl, rfl⟩ := Prod.mk.inj h
        exact .none rfl rfl rfl rfl
      | none =>
        rw [Attempt.outcome, hs, Memory.adjustSpare, hget] at h
        dsimp only at h
        rw [if_neg hzero, if_neg hneg] at h
        obtain ⟨rfl, rfl⟩ := Prod.mk.inj h
        exact .move rfl rfl rfl hget (not_lt.mp hneg) rfl rfl rfl

/-- **Every call** does one of these. -/
theorem does_of_step {ev : Event (Op V) Op.Ret} (h : Step ev.op m ev.ret m') :
    Does m ev m' := by
  obtain ⟨op, ret⟩ := ev
  cases op with
  | tenancy c => exact .none rfl rfl h.1 h.2
  | outside o => exact .none rfl rfl h.1 h.2
  | work c =>
    cases c with
    | putSpare sp =>
      obtain ⟨amb, h⟩ := h
      exact putSpare_does h
    | adjustSpare id delta ticketID time =>
      obtain ⟨amb, h⟩ := h
      exact adjustSpare_does h
    | getSpare id =>
      obtain ⟨-, rfl⟩ := h
      exact .none rfl rfl rfl rfl
    | _ => exact .none rfl rfl h.1 h.2

/-! ### The ledger -/

/-- The spare was created in the course of the events. -/
def CreatedIn (id : Bytes) (evs : List (Event (Op V) Op.Ret)) : Prop :=
  ∃ ev ∈ evs, ∃ sp, created ev = some sp ∧ sp.id = id

def deltas (id : Bytes) (evs : List (Event (Op V) Op.Ret)) : List Int :=
  (evs.filterMap moved).filterMap fun mv => if mv.spareID = id then some mv.delta else none

section Events

variable {id : Bytes} {evs : List (Event (Op V) Op.Ret)} {ev : Event (Op V) Op.Ret}

theorem deltas_append (evs' : List (Event (Op V) Op.Ret)) :
    deltas id (evs ++ evs') = deltas id evs ++ deltas id evs' := by
  simp [deltas]

theorem deltas_unmoved (h : moved ev = none) : deltas id [ev] = [] := by
  simp [deltas, h]

theorem deltas_moved {mv : Movement} (h : moved ev = some mv) :
    deltas id [ev] = if mv.spareID = id then [mv.delta] else [] := by
  by_cases hid : mv.spareID = id <;> simp [deltas, h, hid]

theorem createdIn_append {evs' : List (Event (Op V) Op.Ret)} :
    CreatedIn id (evs ++ evs') ↔ CreatedIn id evs ∨ CreatedIn id evs' := by
  simp only [CreatedIn, mem_append, or_and_right, exists_or]

theorem not_createdIn_single (h : ∀ sp, created ev = some sp → sp.id ≠ id) :
    ¬ CreatedIn id [ev] := by
  rintro ⟨ev', hev', sp, hsp, hid⟩
  rw [mem_singleton.mp hev'] at hsp
  exact h sp hsp hid

end Events

/-- A spare's quantity: what it was created with, and all that was moved since. -/
def Balance (evs : List (Event (Op V) Op.Ret)) (id : Bytes) (qty : Int) : Prop :=
  ∃ pre ev post sp₀, evs = pre ++ ev :: post ∧ created ev = some sp₀ ∧ sp₀.id = id ∧
    ¬ CreatedIn id post ∧ qty = sp₀.qty + (deltas id post).sum ∧
    (¬ CreatedIn id pre → deltas id evs = deltas id post)

/-- The store against what it has acknowledged. -/
structure Ledger (evs : List (Event (Op V) Op.Ret)) (m : Memory V) : Prop where
  balance : ∀ (id : Bytes) (sp : SparePart), m.spares[id]? = some sp → Balance evs id sp.qty
  range : ∀ (id : Bytes) (sp : SparePart), m.spares[id]? = some sp → 0 ≤ sp.qty ∧ sp.qty < 2 ^ 63
  recorded : m.spareTxns.map movementOf = evs.filterMap moved
  sku : ∀ (id id' : Bytes) (sp sp' : SparePart), m.spares[id]? = some sp →
    m.spares[id']? = some sp' → sp.sku = sp'.sku → id = id'
  known : ∀ id, ¬ CreatedIn id evs → m.spares[id]? = none ∧ deltas id evs = []

/-- What the handlers pass on: quantities and movements of 64 bits, no quantity negative. -/
def Permitted : Op V → Prop
  | .work (.putSpare sp) => 0 ≤ sp.qty ∧ sp.qty < 2 ^ 63
  | .work (.adjustSpare _ delta _ _) => -2 ^ 63 ≤ delta ∧ delta < 2 ^ 63
  | _ => True

/-- A sum that wraps around is negative. -/
theorem sum_of_bmod_nonneg {q d : Int} (hq : 0 ≤ q ∧ q < 2 ^ 63) (hd : -2 ^ 63 ≤ d ∧ d < 2 ^ 63)
    (h : 0 ≤ (q + d).bmod (2 ^ 64)) : (q + d).bmod (2 ^ 64) = q + d ∧ q + d < 2 ^ 63 := by
  rw [Int.bmod_def] at h ⊢
  split_ifs at h ⊢ <;> omega

section Steps

variable {id : Bytes} {evs : List (Event (Op V) Op.Ret)} {ev : Event (Op V) Op.Ret}
variable {m m' : Memory V} {q : Int}

theorem Balance.snoc (h : Balance evs id q) (ev : Event (Op V) Op.Ret)
    (hc : ∀ sp, created ev = some sp → sp.id ≠ id) :
    Balance (evs ++ [ev]) id (q + (deltas id [ev]).sum) := by
  obtain ⟨pre, ev₀, post, sp₀, rfl, hcreated, hid, hpost, rfl, hall⟩ := h
  refine ⟨pre, ev₀, post ++ [ev], sp₀, by simp, hcreated, hid, ?_, ?_, fun hpre => ?_⟩
  · rw [createdIn_append]
    exact not_or.mpr ⟨hpost, not_createdIn_single hc⟩
  · rw [deltas_append, sum_append, Int.add_assoc]
  · rw [deltas_append, hall hpre, deltas_append]

variable {sp : SparePart}

theorem Ledger.balance_created (h : Ledger evs m) (hc : created ev = some sp)
    (hm : moved ev = none) : Balance (evs ++ [ev]) sp.id sp.qty := by
  refine ⟨evs, ev, [], sp, rfl, hc, rfl, ?_, by simp [deltas], fun hpre => ?_⟩
  · rintro ⟨_, hmem, -⟩
    cases hmem
  · rw [deltas_append, deltas_unmoved hm, (h.known sp.id hpre).2]
    rfl

theorem Ledger.step_none (h : Ledger evs m) (hc : created ev = none) (hm : moved ev = none)
    (hspares : m'.spares = m.spares) (htxns : m'.spareTxns = m.spareTxns) :
    Ledger (evs ++ [ev]) m' where
  balance id sp hget := by
    have := (h.balance id sp (hspares ▸ hget)).snoc ev (by simp [hc])
    simpa [deltas_unmoved hm] using this
  range id sp hget := h.range id sp (hspares ▸ hget)
  recorded := by rw [htxns, h.recorded, filterMap_append]; simp [hm]
  sku id id' sp sp' hget hget' := h.sku id id' sp sp' (hspares ▸ hget) (hspares ▸ hget')
  known id hid := by
    rw [createdIn_append, not_or] at hid
    rw [hspares, deltas_append, deltas_unmoved hm, append_nil]
    exact h.known id hid.1

/-- A spare is written at an id of the events; the event is none of another spare. -/
theorem Ledger.insert (h : Ledger evs m) (hid : CreatedIn id (evs ++ [ev]))
    (hother : ∀ id', id' ≠ id → deltas id' [ev] = [] ∧ ∀ x, created ev = some x → x.id ≠ id')
    (hbalance : Balance (evs ++ [ev]) id sp.qty) (hqty : 0 ≤ sp.qty ∧ sp.qty < 2 ^ 63)
    (hsku : ∀ (id' : Bytes) (x : SparePart), m.spares[id']? = some x → id' ≠ id → x.sku ≠ sp.sku)
    (hspares : m'.spares = m.spares.insert id sp)
    (htxns : m'.spareTxns.map movementOf = (evs ++ [ev]).filterMap moved) :
    Ledger (evs ++ [ev]) m' where
  balance id' x hget := by
    rw [hspares, get_insert] at hget
    split at hget
    · cases hget
      subst id'
      exact hbalance
    · obtain ⟨hzero, hc⟩ := hother id' ‹_›
      have := (h.balance id' x hget).snoc ev hc
      simpa [hzero] using this
  range id' x hget := by
    rw [hspares, get_insert] at hget
    split at hget
    · cases hget
      exact hqty
    · exact h.range id' x hget
  recorded := htxns
  sku id₁ id₂ x y hx hy heq := by
    rw [hspares, get_insert] at hx hy
    split_ifs at hx hy with h₁ h₂ h₂
    · rw [h₁, h₂]
    · cases hx
      exact absurd heq.symm (hsku id₂ y hy h₂)
    · cases hy
      exact absurd heq (hsku id₁ x hx h₁)
    · exact h.sku id₁ id₂ x y hx hy heq
  known id' hid' := by
    have hne : id' ≠ id := by
      rintro rfl
      exact hid' hid
    rw [createdIn_append, not_or] at hid'
    rw [hspares, get_insert, if_neg hne, deltas_append, (hother id' hne).1, append_nil]
    exact h.known id' hid'.1

theorem Ledger.step_create (h : Ledger evs m) (hc : created ev = some sp) (hm : moved ev = none)
    (hqty : 0 ≤ sp.qty ∧ sp.qty < 2 ^ 63)
    (hsku : ∀ (id : Bytes) (other : SparePart), m.spares[id]? = some other → id ≠ sp.id →
      other.sku ≠ sp.sku)
    (hspares : m'.spares = m.spares.insert sp.id sp) (htxns : m'.spareTxns = m.spareTxns) :
    Ledger (evs ++ [ev]) m' := by
  refine h.insert ⟨ev, by simp, sp, hc, rfl⟩ (fun id hid => ⟨deltas_unmoved hm, ?_⟩)
    (h.balance_created hc hm) hqty hsku hspares ?_
  · rintro x hx rfl
    cases hc.symm.trans hx
    exact hid rfl
  · rw [htxns, h.recorded, filterMap_append]
    simp [hm]

theorem Ledger.step_move (h : Ledger evs m) {mv : Movement} {txn : SpareTxn}
    (hc : created ev = none) (hm : moved ev = some mv)
    (hdelta : -2 ^ 63 ≤ mv.delta ∧ mv.delta < 2 ^ 63) (hget : m.spares[mv.spareID]? = some sp)
    (hqty : 0 ≤ (sp.qty + mv.delta).bmod (2 ^ 64))
    (hspares : m'.spares = m.spares.insert mv.spareID
      { sp with qty := (sp.qty + mv.delta).bmod (2 ^ 64) })
    (htxn : movementOf txn = mv) (htxns : m'.spareTxns = m.spareTxns ++ [txn]) :
    Ledger (evs ++ [ev]) m' := by
  obtain ⟨hsum, hlt⟩ := sum_of_bmod_nonneg (h.range _ sp hget) hdelta hqty
  rw [hsum] at hqty hspares
  refine h.insert ?_ (fun id hid => ⟨?_, by simp [hc]⟩) ?_ ⟨hqty, hlt⟩ ?_ hspares ?_
  · refine createdIn_append.mpr (.inl ?_)
    by_contra hno
    cases hget.symm.trans (h.known _ hno).1
  · rw [deltas_moved hm, if_neg (Ne.symm hid)]
  · have := (h.balance _ sp hget).snoc ev (by simp [hc])
    simpa [deltas_moved hm] using this
  · -- The spare keeps its SKU.
    exact fun id x hx hne heq => hne (h.sku id _ x sp hx hget heq)
  · rw [htxns, map_append, h.recorded, filterMap_append]
    simp [hm, htxn]

/-- **One call** keeps the ledger. -/
theorem Ledger.step (h : Ledger evs m) (hstep : Step ev.op m ev.ret m') (hp : Permitted ev.op) :
    Ledger (evs ++ [ev]) m' := by
  cases does_of_step hstep with
  | none hc hm hspares htxns => exact h.step_none hc hm hspares htxns
  | create hc hm hop hsku hspares htxns =>
    rw [hop] at hp
    exact h.step_create hc hm hp hsku hspares htxns
  | move hc hm hop hget hqty hspares htxn htxns =>
    rw [hop] at hp
    exact h.step_move hc hm hp hget hqty hspares htxn htxns

end Steps

/-! ### The requests -/

/-- A request to `/v1/spares`, or to a path below it. -/
inductive SpareRequest where
  | collection (r : Request)
  | item (r : Request)

def SpareRequest.prog (env : Env V) : SpareRequest → Handler V
  | .collection r => serveSpares env r
  | .item r => serveSpare env r

/-- The decoded quantities and movements are `int`s. -/
structure Ints (env : Env V) : Prop where
  qty : ∀ b req, env.spareCreate b = .ok req → req.qty < 2 ^ 63
  delta : ∀ b req, env.spareAdjust b = .ok req → -2 ^ 63 ≤ req.delta ∧ req.delta < 2 ^ 63

theorem permitted_of_not_mutates {op : Op V} (h : op.mutates = false) : Permitted op := by
  cases op with
  | tenancy c => trivial
  | outside o => trivial
  | work c =>
    cases c with
    | putSpare sp => cases h
    | adjustSpare id delta ticketID time => cases h
    | _ => trivial

section Handlers

variable {env : Env V} {r : Request}

/-- The handler refuses, or draws from outside, makes one call and answers by it; `f` tells whether
it is acknowledged. -/
def OneCall {β : Type} (f : Event (Op V) Op.Ret → Option β) (h : Handler V) : Prop :=
  (∃ p, h = Core.refuse p) ∨ ∃ (o : Outside V) (k : o.Ret → Handler V), h = outside o k ∧
    ∀ a, ∃ (c : WorkCall V) (j : c.Ret → Handler V), k a = work c j ∧ Permitted (.work c : Op V) ∧
      ∀ res, ∃ out, j res = .done out ∧ out.accepted = (f ⟨.work c, res⟩).isSome

section OneCall

variable {β : Type} {f : Event (Op V) Op.Ret → Option β} {h : Handler V}

theorem OneCall.permitted (hone : OneCall f h) : h.Calls Permitted := by
  rcases hone with ⟨p, rfl⟩ | ⟨o, k, rfl, hk⟩
  · trivial
  refine ⟨trivial, fun a => ?_⟩
  obtain ⟨c, j, hc, hp, hj⟩ := hk a
  rw [hc]
  refine ⟨hp, fun res => ?_⟩
  obtain ⟨out, hout, -⟩ := hj res
  rw [hout]
  trivial

/-- An answer of success has one acknowledged call behind it, any other none. -/
theorem OneCall.answered (hone : OneCall f h)
    (hf : ∀ (o : Outside V) (a : o.Ret), f ⟨.outside o, a⟩ = none)
    {evs : List (Event (Op V) Op.Ret)} {out : Reply (Body V)} (hfed : h.Fed evs (.done out)) :
    (evs.filterMap f).length = if out.accepted then 1 else 0 := by
  rcases hone with ⟨p, rfl⟩ | ⟨o, k, rfl, hk⟩
  · obtain ⟨rfl, hout⟩ := fed_done.mp hfed
    cases hout
    rfl
  obtain ⟨a, _, rfl, hcall⟩ := fed_call_done.mp hfed
  obtain ⟨c, j, hc, -, hj⟩ := hk a
  rw [hc] at hcall
  obtain ⟨res, _, rfl, hend⟩ := fed_call_done.mp hcall
  obtain ⟨out', hout', haccepted⟩ := hj res
  rw [hout'] at hend
  obtain ⟨rfl, hout⟩ := fed_done.mp hend
  cases hout
  rw [haccepted, filterMap_cons_none (hf o a)]
  cases hres : f ⟨.work c, res⟩ <;> simp [hres]

theorem OneCall.decodeBody {α : Type} {limit : Nat} {decode : Bytes → Except Bytes α}
    {k : α → Handler V} (hk : ∀ b req, decode b = .ok req → OneCall f (k req)) :
    OneCall f (Core.decodeBody limit decode r k) := by
  unfold Core.decodeBody Core.readBody
  cases r.body with
  | error e => exact .inl ⟨_, rfl⟩
  | ok b =>
    dsimp only [orElse]
    cases hreq : decode (b.take limit) with
    | error e => exact .inl ⟨_, rfl⟩
    | ok req => exact hk _ req hreq

end OneCall

variable (hints : Ints env)
include hints

theorem serveSparesCreate_oneCall (r : Request) :
    OneCall created (serveSparesCreate env r) := by
  refine .decodeBody fun b req hreq => ?_
  split_ifs with hsku hname hqty hmin
  iterate 4 exact .inl ⟨_, rfl⟩
  refine .inr ⟨_, _, rfl, fun id => ⟨_, _, rfl,
    ⟨not_lt.mp hqty, hints.qty _ req hreq⟩, fun res => ?_⟩⟩
  cases res with
  | ok _ => exact ⟨_, rfl, rfl⟩
  | error e =>
    dsimp only
    split <;> exact ⟨_, rfl, rfl⟩

theorem serveSpareAdjust_oneCall (r : Request) (id : Bytes) :
    OneCall moved (serveSpareAdjust env r id) := by
  refine .decodeBody fun b req hreq => ?_
  split_ifs with hzero hticket
  iterate 2 exact .inl ⟨_, rfl⟩
  refine .inr ⟨_, _, rfl, fun now => ⟨_, _, rfl, hints.delta _ req hreq, fun res => ?_⟩⟩
  cases res with
  | ok out => exact ⟨_, rfl, rfl⟩
  | error e =>
    dsimp only
    split <;> exact ⟨_, rfl, rfl⟩

theorem serveSpare_oneCall (hpost : r.method = .post) :
    OneCall moved (serveSpare env r) := by
  unfold serveSpare
  dsimp only
  split_ifs with hrest hid hpattern
  iterate 3 exact .inl ⟨_, rfl⟩
  · rw [hpost]
    cases cutSuffix ":adjust" (below "/v1/spares/" r) with
    | none => exact .inl ⟨_, rfl⟩
    | some id => exact serveSpareAdjust_oneCall hints r id

theorem serveSpares_oneCall (hpost : r.method = .post) :
    OneCall created (serveSpares env r) := by
  rw [serveSpares, hpost]
  exact serveSparesCreate_oneCall hints r

theorem SpareRequest.permitted (q : SpareRequest) :
    (q.prog env).Calls Permitted := by
  cases q with
  | collection r =>
    by_cases hpost : r.method = .post
    · exact (serveSpares_oneCall hints hpost).permitted
    · exact (serveSpares_readOnly hpost).mono fun _ => permitted_of_not_mutates
  | item r =>
    by_cases hpost : r.method = .post
    · exact (serveSpare_oneCall hints hpost).permitted
    · exact (serveSpare_readOnly (absurd · hpost)).mono fun _ => permitted_of_not_mutates

/-- The request asks to create a spare or to move stock, and what was done for it. -/
def SpareRequest.Answered (evs : List (Event (Op V) Op.Ret)) (out : Reply (Body V)) :
    SpareRequest → Prop
  | .collection r => r.method = .post →
      (evs.filterMap created).length = if out.accepted then 1 else 0
  | .item r => r.method = .post →
      (evs.filterMap moved).length = if out.accepted then 1 else 0

/-- **Acknowledged**: a request answered with success has been made once, a refused one not at
all. -/
theorem SpareRequest.answered {q : SpareRequest}
    {evs : List (Event (Op V) Op.Ret)} {out : Reply (Body V)}
    (h : (q.prog env).Fed evs (.done out)) : q.Answered evs out := by
  cases q with
  | collection r =>
    intro hpost
    exact (serveSpares_oneCall hints hpost).answered (fun _ _ => rfl) h
  | item r =>
    intro hpost
    exact (serveSpare_oneCall hints hpost).answered (fun _ _ => rfl) h

end Handlers

/-! ### Every run -/

section Runs

variable {ι : Type} [DecidableEq ι] {env : Env V} {reqs : ι → SpareRequest} {m₀ : Memory V}
variable {ls : List (Label ι (Op V) Op.Ret)} {c : Pool ι (Op V) Op.Ret (Reply (Body V)) (Memory V)}

theorem Ledger.nil (hspares : m₀.spares = ∅) (htxns : m₀.spareTxns = []) :
    Ledger [] m₀ where
  balance id sp hget := by simp [hspares] at hget
  range id sp hget := by simp [hspares] at hget
  recorded := by rw [htxns]; rfl
  sku id id' sp sp' hget := by simp [hspares] at hget
  known id _ := by simp [hspares, deltas]

variable (hints : Ints env) (hspares : m₀.spares = ∅) (htxns : m₀.spareTxns = [])
  (hrun : Run (Pool.Step Step) ⟨m₀, fun i => (reqs i).prog env⟩ ls c)
include hints hspares htxns hrun

theorem ledger : Ledger (ls.map Prod.snd) c.shared := by
  refine hrun.history_of_run (I := fun ls c => Ledger (ls.map Prod.snd) c.shared) ?_
    (.nil hspares htxns)
  intro ls c₁ l c₂ hrun hledger hstep
  have hpermitted : Permitted l.2.op :=
    Pool.calls hrun (fun i => (reqs i).permitted hints) hstep
  obtain ⟨k, -, hstore, -⟩ := hstep
  rw [map_append]
  exact hledger.step hstore hpermitted

/-- **The ledger of spare stock.**  Requests run side by side from a store without spares.  At every
point each spare has the quantity it was created with and all that was moved since, and none is
negative; the transactions are the acknowledged movements, once each and in order; no two spares
have one SKU.  A request answered with success was done once, a refused one not. -/
theorem stock_ledger :
    (∀ (id : Bytes) (sp : SparePart), c.shared.spares[id]? = some sp →
      Balance (ls.map Prod.snd) id sp.qty ∧ 0 ≤ sp.qty) ∧
    c.shared.spareTxns.map movementOf = (ls.map Prod.snd).filterMap moved ∧
    (∀ (id id' : Bytes) (sp sp' : SparePart), c.shared.spares[id]? = some sp →
      c.shared.spares[id']? = some sp' → sp.sku = sp'.sku → id = id') ∧
    ∀ i out, c.prog i = .done out → (reqs i).Answered (own i ls) out := by
  have hledger := ledger hints hspares htxns hrun
  refine ⟨fun id sp hget => ⟨hledger.balance id sp hget, (hledger.range id sp hget).1⟩,
    hledger.recorded, hledger.sku, fun i out hdone => ?_⟩
  have hfed := Pool.fed hrun i
  rw [hdone] at hfed
  exact SpareRequest.answered hints hfed

end Runs

def fanEnv : Env Nat :=
  { Env.plain with
    spareCreate := fun _ => .ok ⟨"FAN-80", "rack fan", 2, 1, "store room"⟩
    spareAdjust := fun _ => .ok ⟨-1, []⟩ }

def takeFan : Request :=
  ⟨.post, "/v1/spares/sp_AAAAAAAAAAAAAAAA:adjust", [], [], [], [], [], .ok []⟩

def fanRequests : Bool → SpareRequest
  | false => .collection ⟨.post, "/v1/spares", [], [], [], [], [], .ok []⟩
  | true => .item takeFan

def fans : SparePart :=
  ⟨"sp_AAAAAAAAAAAAAAAA", "FAN-80", "rack fan", 2, 1, "store room"⟩

def saved : WorkAmbient := { diskFull with save := none }

def fansStored : Memory Nat := ((Memory.empty.putSpare fans).outcome saved .empty).2

def fanTaken : Memory Nat :=
  ((fansStored.adjustSpare saved fans.id (-1) [] 5).outcome saved fansStored).2

/-- A fan is taken while two are being created; one is left. -/
theorem stock_ledger_fans : ∃ (ls : List (Label Bool (Op Nat) Op.Ret))
    (c : Pool Bool (Op Nat) Op.Ret (Reply (Body Nat)) (Memory Nat)),
    Run (Pool.Step Step) ⟨Memory.empty, fun i => (fanRequests i).prog fanEnv⟩ ls c ∧
      c.shared.spares[fans.id]? = some { fans with qty := 1 } ∧
      Balance (ls.map Prod.snd) fans.id 1 := by
  have hints : Ints fanEnv := by
    constructor
    iterate 2
      · rintro b req ⟨⟩
        decide
  have hprog : serveSpare fanEnv takeFan = serveSpareAdjust fanEnv takeFan fans.id := by
    show (if !idPattern "sp_" fans.id then badRequest "bad spare id" fans.id
      else serveSpareAdjust fanEnv takeFan fans.id) = _
    rfl
  have hrun : Run (Pool.Step Step) ⟨Memory.empty, fun i => (fanRequests i).prog fanEnv⟩ _ _ :=
    .more (Pool.step_call (i := false) (r := fans.id) (s := .empty) rfl ⟨rfl, rfl⟩) <|
    .more (Pool.step_call (i := true) (r := (5 : Int)) (s := .empty) hprog ⟨rfl, rfl⟩) <|
    .more (Pool.step_call (i := false) (s := fansStored) rfl ⟨saved, rfl⟩) <|
    .more (Pool.step_call (i := true) (s := fanTaken) rfl ⟨saved, rfl⟩) <| .refl _
  have hget : fanTaken.spares[fans.id]? = some { fans with qty := 1 } := by decide +kernel
  exact ⟨_, _, hrun, hget, ((stock_ledger hints rfl rfl hrun).1 fans.id _ hget).1⟩

end Cios.Stock
