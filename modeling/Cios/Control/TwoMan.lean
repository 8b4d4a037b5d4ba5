import Cios.Control.Policy
import Cios.Support.Table
import Cios.Support.Token

/-!
# Control — the two-man rule

A class-A write is parked until a second principal approves it.  Any number of calls run at once and
share the table of parked writes, the audit log and the clock.  Each is a thread that goes through
its critical sections one at a time, interleaved with the others and the clock (`Step`).  An
approval reads the clock before its first critical section, so that the write may expire in between
(`expired_when_looked_up`).

Two results meet in `two_man_rule`: what a thread carries is backed by the events before it
(`Ruled`), and the ids of parked writes are single-use tokens (`Step.tokens`).
-/

namespace Cios.Control
open Text List Function
open Cios.Rbac (Principal authorize)
open Cios.Http
open Keyed Runs

variable {V : Type}

/-! ### Parked writes -/

/-- `pendingControl`; times in nanoseconds. -/
structure PendingControl (V : Type) where
  id : Bytes
  path : Bytes
  cls : RiskClass
  req : SetRequest V
  requester : Bytes
  createdAt : Int
  expiresAt : Int

/-- `time.Duration(ttl) * time.Second`, in 64 bits. -/
def ttlDuration (ttlSeconds : Int) : Int := (ttlSeconds * 1000000000).bmod (2 ^ 64)

def newPending (p : Principal) (path : Bytes) (req : SetRequest V) (now : Int) (id : Bytes) :
    PendingControl V where
  id := id
  path := path
  cls := .a
  req := req
  requester := p.subject
  createdAt := now
  expiresAt := now + ttlDuration req.ttlSeconds

abbrev Pending (V : Type) := Table (PendingControl.id (V := V))

/-- Drops the entries that have expired. -/
def sweep (t : Pending V) (now : Int) : Pending V :=
  ⟨t.rows.filter fun pc => !decide (pc.expiresAt < now),
    t.nodup.sublist (filter_sublist.map _)⟩

/-- The critical section of `serveSetPending`. -/
def insertPending (t : Pending V) (now : Int) (pend : PendingControl V) : Pending V :=
  (sweep t now).put pend

def noSuchPending (id : Bytes) : Problem :=
  ⟨404, "not-found", "no such pending control write", id⟩

/-- The first critical section of `serveControlApprove`: the table left, and the entry or
refusal. -/
def lookUp (t : Pending V) (now : Int) (id : Bytes) :
    Pending V × Except Problem (PendingControl V) :=
  match t.get id with
  | none => (t, .error (noSuchPending id))
  | some pend =>
    if pend.expiresAt < now then
      (t.erase id, .error ⟨410, "pending-expired", "pending control write expired", id⟩)
    else (t, .ok pend)

/-- The checks of `serveControlApprove` between its critical sections. -/
def approveChecks (env : Env V) (approver : Principal) (pend : PendingControl V) :
    Except Problem Unit :=
  if env.letters.equalFold approver.subject pend.requester then
    .error ⟨403, "set-denied", "approver must differ from requester (two-man rule)", []⟩
  else match authorize env.closed approver .controlWrite pend.path with
    | .error _ => .error ⟨403, "forbidden", "approver lacks control:write on the target path",
        "core: forbidden"⟩
    | .ok () => .ok ()

/-- The second critical section: the entry must still be there, and goes. -/
def consume (t : Pending V) (id : Bytes) : Option (Pending V) :=
  match t.get id with
  | none => none
  | some _ => some (t.erase id)

/-! ### Executions -/

/-- The arguments of one `executeSet`; `pid` is the parked write it comes from, if any. -/
structure Execution (V : Type) where
  path : Bytes
  cls : RiskClass
  req : SetRequest V
  actor : Bytes
  second : Bytes
  pid : Option Bytes

def approved (approver : Principal) (pend : PendingControl V) : Execution V where
  path := pend.path
  cls := pend.cls
  req := pend.req
  actor := pend.requester
  second := approver.subject
  pid := some pend.id

/-- A row of the audit log; the request id is left out. -/
structure SetAudit (V : Type) where
  id : Bytes
  path : Bytes
  cls : RiskClass
  value : V
  actor : Bytes
  second : Bytes
  time : Int
  readback : Bool
  note : Bytes

def pendingAudit (pend : PendingControl V) : SetAudit V where
  id := pend.id
  path := pend.path
  cls := .a
  value := pend.req.value
  actor := pend.requester
  second := []
  time := pend.createdAt
  readback := true
  note := "pending dual approval"

def executionAudit (x : Execution V) (id : Bytes) (now : Int) : SetAudit V where
  id := id
  path := x.path
  cls := x.cls
  value := x.req.value
  actor := x.actor
  second := x.second
  time := now
  readback := x.req.requireReadback || x.cls = .a || x.cls = .b
  note := x.req.note

/-- What the sink says of a dispatch; the value read back is left out. -/
structure ControlResult where
  accepted : Bool
  detail : Bytes

inductive Answer (V : Type) where
  | pending (pend : PendingControl V)
  | accepted (audit : SetAudit V) (dispatched : Bool) (note : Bytes)

def storeError (e : Bytes) : Problem := ⟨500, "bad-request", "store error", e⟩

/-- The answer of `executeSet`, without a sink or after the sink's own answer. -/
def executeReply (audit : SetAudit V) : Option (Except Bytes ControlResult) → Reply (Answer V)
  | none => .json 202 (.accepted audit false "policy gate only; no control sink wired")
  | some (.error e) => .problem ⟨502, "upstream-unavailable", "control dispatch failed", e⟩
  | some (.ok res) =>
    .json 202 (.accepted audit res.accepted
      (if res.detail ≠ [] then res.detail
        else if res.accepted then "dispatched southbound" else "sink refused write"))

/-! ### Threads and their interleaving -/

/-- A call that comes in, with the context the middleware gave it. -/
inductive Arrival where
  | point (r : Request) (c : Ctx)
  | approve (r : Request) (c : Ctx)

/-- Where a thread is. -/
inductive Local (V : Type) where
  | idle
  | arrived (a : Arrival)
  | parking (p : Principal) (path : Bytes) (req : SetRequest V)
  | inserting (pend : PendingControl V)
  | looking (approver : Principal) (id : Bytes) (now : Int)
  | checking (approver : Principal) (pend : PendingControl V)
  | consuming (approver : Principal) (pend : PendingControl V)
  | executing (x : Execution V)
  | dispatching (x : Execution V) (audit : SetAudit V)
  | reading (path : Bytes)
  | done (reply : Reply (Answer V))

/-- What a step shows; `timed` is the clock that an approval has read. -/
inductive Event (V : Type) where
  | internal
  | arrived (i : Nat) (a : Arrival)
  | opened (i : Nat) (pend : PendingControl V)
  | timed (i : Nat) (now : Int)
  | lookedUp (i : Nat) (pend : PendingControl V)
  | executes (i : Nat) (x : Execution V)
  | dispatched (i : Nat) (x : Execution V)

structure World (V : Type) where
  pending : Pending V
  audits : List (SetAudit V)
  clock : Int
  /-- The ids of parked writes drawn so far. -/
  drawn : List Bytes
  threads : Nat → Local V

def World.start (audits : List (SetAudit V)) (clock : Int) : World V :=
  ⟨.empty, audits, clock, [], fun _ => .idle⟩

def World.move (w : World V) (i : Nat) (l : Local V) : World V :=
  { w with threads := Function.update w.threads i l }

/-- One step of a thread or the clock.  The store may refuse an audit row, the sink may answer
anything, and ids are drawn fresh. -/
inductive Step (env : Env V) (sinkWired : Bool) : World V → Event V → World V → Prop where
  | tick (w) (now : Int) : Step env sinkWired w .internal { w with clock := now }
  | arrive (w) (i) (a : Arrival) (h : w.threads i = .idle) :
      Step env sinkWired w (.arrived i a) (w.move i (.arrived a))
  -- servePoint
  | pointAnswer (w) (i r c p) (h : w.threads i = .arrived (.point r c))
      (hs : servePoint env r c = .answer p) :
      Step env sinkWired w .internal (w.move i (.done (.problem p)))
  | pointRead (w) (i r c path) (h : w.threads i = .arrived (.point r c))
      (hs : servePoint env r c = .read path) :
      Step env sinkWired w .internal (w.move i (.reading path))
  | pointPark (w) (i r c p path req) (h : w.threads i = .arrived (.point r c))
      (hs : servePoint env r c = .park p path req) :
      Step env sinkWired w .internal (w.move i (.parking p path req))
  | pointExecute (w) (i r c path cls req actor second) (h : w.threads i = .arrived (.point r c))
      (hs : servePoint env r c = .execute path cls req actor second) :
      Step env sinkWired w (.executes i ⟨path, cls, req, actor, second, none⟩)
        (w.move i (.executing ⟨path, cls, req, actor, second, none⟩))
  -- serveSetPending
  | parkFails (w) (i p path req) (e : Bytes) (h : w.threads i = .parking p path req) :
      Step env sinkWired w .internal (w.move i (.done (.problem (storeError e))))
  | park (w) (i p path req id) (h : w.threads i = .parking p path req) (hid : id ∉ w.drawn) :
      Step env sinkWired w .internal
        (({ w with drawn := id :: w.drawn,
                   audits := w.audits ++ [pendingAudit (newPending p path req w.clock id)] }).move
          i (.inserting (newPending p path req w.clock id)))
  | insert (w) (i pend) (h : w.threads i = .inserting pend) :
      Step env sinkWired w (.opened i pend)
        (({ w with pending := insertPending w.pending pend.createdAt pend }).move
          i (.done (.json 202 (.pending pend))))
  -- serveControlApprove
  | approveAnswer (w) (i r c p) (h : w.threads i = .arrived (.approve r c))
      (hs : approveRequest r c = .error p) :
      Step env sinkWired w .internal (w.move i (.done (.problem p)))
  | approve (w) (i r c approver id) (h : w.threads i = .arrived (.approve r c))
      (hs : approveRequest r c = .ok (approver, id)) :
      Step env sinkWired w (.timed i w.clock) (w.move i (.looking approver id w.clock))
  | lookUpFails (w) (i approver id now t p) (h : w.threads i = .looking approver id now)
      (hs : lookUp w.pending now id = (t, .error p)) :
      Step env sinkWired w .internal (({ w with pending := t }).move i (.done (.problem p)))
  | lookUp (w) (i approver id now t pend) (h : w.threads i = .looking approver id now)
      (hs : lookUp w.pending now id = (t, .ok pend)) :
      Step env sinkWired w (.lookedUp i pend)
        (({ w with pending := t }).move i (.checking approver pend))
  | checkFails (w) (i approver pend p) (h : w.threads i = .checking approver pend)
      (hs : approveChecks env approver pend = .error p) :
      Step env sinkWired w .internal (w.move i (.done (.problem p)))
  | check (w) (i approver pend) (h : w.threads i = .checking approver pend)
      (hs : approveChecks env approver pend = .ok ()) :
      Step env sinkWired w .internal (w.move i (.consuming approver pend))
  | consumeFails (w) (i approver pend) (h : w.threads i = .consuming approver pend)
      (hs : consume w.pending pend.id = none) :
      Step env sinkWired w .internal (w.move i (.done (.problem (noSuchPending pend.id))))
  | consume (w) (i approver pend t) (h : w.threads i = .consuming approver pend)
      (hs : consume w.pending pend.id = some t) :
      Step env sinkWired w (.executes i (approved approver pend))
        (({ w with pending := t }).move i (.executing (approved approver pend)))
  -- executeSet
  | executeFails (w) (i x) (e : Bytes) (h : w.threads i = .executing x) :
      Step env sinkWired w .internal (w.move i (.done (.problem (storeError e))))
  | execute (w) (i x id) (h : w.threads i = .executing x) :
      Step env sinkWired w .internal
        (({ w with audits := w.audits ++ [executionAudit x id w.clock] }).move
          i (.dispatching x (executionAudit x id w.clock)))
  | noSink (w) (i x audit) (h : w.threads i = .dispatching x audit) (hs : sinkWired = false) :
      Step env sinkWired w .internal (w.move i (.done (executeReply audit none)))
  | dispatch (w) (i x audit) (res : Except Bytes ControlResult)
      (h : w.threads i = .dispatching x audit) (hs : sinkWired = true) :
      Step env sinkWired w (.dispatched i x) (w.move i (.done (executeReply audit (some res))))

/-! ### The critical sections -/

variable {t t' : Pending V} {now : Int} {pend : PendingControl V} {id : Bytes} {i : Nat}
  {l : Local V} {w : World V}

theorem mem_insertPending {p : PendingControl V} (h : p ∈ (insertPending t now pend).rows) :
    p ∈ t.rows ∨ p = pend := by
  rw [insertPending, Table.mem_put] at h
  exact h.imp_left fun h => mem_of_mem_filter h.1

theorem lookUp_rows {res : Except Problem (PendingControl V)} (h : lookUp t now id = (t', res)) :
    ∀ p ∈ t'.rows, p ∈ t.rows := by
  intro p hp
  unfold lookUp at h
  split at h
  · cases h
    exact hp
  · split at h <;> cases h
    · exact (Table.mem_erase.mp hp).1
    · exact hp

theorem lookUp_ok (h : lookUp t now id = (t', .ok pend)) :
    pend ∈ t.rows ∧ now ≤ pend.expiresAt := by
  unfold lookUp at h
  split at h
  · cases h
  rename_i hget
  split at h
  · cases h
  · rename_i hexp
    cases h
    exact ⟨(Table.get_eq_some.mp hget).1, Int.not_lt.mp hexp⟩

theorem consume_some (h : consume t id = some t') :
    (∃ p ∈ t.rows, p.id = id) ∧ ∀ p ∈ t'.rows, p ∈ t.rows ∧ p.id ≠ id := by
  unfold consume at h
  split at h
  · cases h
  · rename_i p hget
    cases h
    exact ⟨⟨p, Table.get_eq_some.mp hget⟩, fun p hp => Table.mem_erase.mp hp⟩

theorem approveChecks_ok {env : Env V} {approver : Principal}
    (h : approveChecks env approver pend = .ok ()) :
    env.letters.equalFold approver.subject pend.requester = false ∧
      authorize env.closed approver .controlWrite pend.path = .ok () := by
  unfold approveChecks at h
  split at h
  · cases h
  · rename_i hne
    split at h
    · cases h
    · exact ⟨by simpa using hne, by assumption⟩

/-! ### Ids are single-use tokens -/

def Local.held : Local V → Option Bytes
  | .inserting pend => some pend.id
  | _ => none

def World.tokens (w : World V) : Token.State Nat Bytes where
  drawn := {id | id ∈ w.drawn}
  held i := (w.threads i).held
  live := {id | ∃ p ∈ w.pending.rows, p.id = id}

def Event.executedId : Event V → Option Bytes
  | .executes _ x => x.pid
  | _ => none

theorem held_update {f : Nat → Local V} {j : Nat} {k : Bytes}
    (h : (update f i l j).held = some k) :
    j = i ∧ l.held = some k ∨ j ≠ i ∧ (f j).held = some k := by
  by_cases hj : j = i
  · subst hj
    exact .inl ⟨rfl, by simpa using h⟩
  · exact .inr ⟨hj, by simpa [update_of_ne hj] using h⟩

theorem held_update_of_none {f : Nat → Local V} {j : Nat} {k : Bytes} (hl : l.held = none)
    (h : (update f i l j).held = some k) : j ≠ i ∧ (f j).held = some k := by
  rcases held_update h with ⟨-, h⟩ | h
  · rw [hl] at h
    cases h
  · exact h

/-- A thread that moves on without an id, while the table gains nothing. -/
theorem tokens_lose {w' : World V} (hl : l.held = none)
    (ht : w'.threads = update w.threads i l) (hd : w'.drawn = w.drawn)
    (hp : ∀ p ∈ w'.pending.rows, p ∈ w.pending.rows) : Token.Step w.tokens none w'.tokens := by
  refine .lose (congrArg (fun d : List Bytes => {id | id ∈ d}) hd) (fun j k hj => ?_) ?_
  · rw [World.tokens, ht] at hj
    exact (held_update_of_none hl hj).2
  · rintro _ ⟨p, hp', rfl⟩
    exact ⟨p, hp p hp', rfl⟩

theorem tokens_move (hl : l.held = none) : Token.Step w.tokens none (w.move i l).tokens :=
  tokens_lose hl rfl rfl fun _ hp => hp

/-- **Tokens.**  Each step is a step of single-use tokens, which consumes the id it executes. -/
theorem Step.tokens {env : Env V} {sinkWired : Bool} {w' : World V} {e : Event V}
    (h : Step env sinkWired w e w') : Token.Step w.tokens e.executedId w'.tokens := by
  cases h with
  | tick now => exact .lose rfl (fun _ _ h => h) (Set.Subset.refl _)
  | arrive | pointAnswer | pointRead | pointPark | pointExecute | parkFails | approveAnswer
  | approve | checkFails | check | consumeFails | executeFails | noSink | dispatch =>
    exact tokens_move rfl
  | park i p path req id h hid =>
    refine .draw i id hid ?_ (fun j k hj => ?_) (Set.Subset.refl _)
    · ext k
      simp [World.tokens, World.move]
    · rcases held_update hj with ⟨rfl, hk⟩ | ⟨-, hj⟩
      · exact .inl ⟨rfl, (Option.some.inj hk).symm⟩
      · exact .inr hj
  | insert i pend h =>
    refine .release i pend.id ?_ rfl (fun j k hj => held_update_of_none rfl hj) ?_
    · simp [World.tokens, h, Local.held]
    · rintro _ ⟨p, hp, rfl⟩
      rcases mem_insertPending hp with hp | rfl
      · exact .inr ⟨p, hp, rfl⟩
      · exact .inl rfl
  | lookUpFails | lookUp =>
    rename_i hs
    exact tokens_lose rfl rfl rfl (lookUp_rows hs)
  | consume i approver pend t h hs =>
    obtain ⟨hlive, hrest⟩ := consume_some hs
    refine .consume pend.id hlive rfl (fun j k hj => (held_update_of_none rfl hj).2) ?_
    rintro _ ⟨p, hp, rfl⟩
    exact ⟨⟨p, (hrest p hp).1, rfl⟩, (hrest p hp).2⟩
  | execute => exact tokens_lose rfl rfl rfl fun _ hp => hp

theorem tokens_start (audits : List (SetAudit V)) (clock : Int) :
    (World.start audits clock).tokens = Token.start := by
  simp [World.tokens, World.start, Token.start, Local.held, Table.empty]

/-! ### What a thread carries is backed by what happened -/

/-- `pend` was opened by the call `i` of the authenticated `R`. -/
def OpenedBy (before : List (Event V)) (i : Nat) (R : Principal) (pend : PendingControl V) : Prop :=
  pend.requester = R.subject ∧
    ∃ r c, c.principal = some R ∧ [.arrived i (.point r c), .opened i pend].Sublist before

/-- `pend` was opened by the call `i` of `R`, and then looked up by the approve call `j` of `S`,
which had read the clock at `now`, in time. -/
structure Approval (before : List (Event V)) (i j : Nat) (R S : Principal)
    (pend : PendingControl V) (now : Int) : Prop where
  requester : pend.requester = R.subject
  requested : ∃ r c, c.principal = some R ∧
    [.arrived i (.point r c), .opened i pend, .lookedUp j pend].Sublist before
  approves : ∃ r c, c.principal = some S ∧
    [.arrived j (.approve r c), .timed j now, .lookedUp j pend].Sublist before
  in_time : now ≤ pend.expiresAt

/-- **Two men.**  A write some `R` opened is executed, approved by an `S` who is not `R` and may
write the point. -/
def TwoMan (env : Env V) (before : List (Event V)) (j : Nat) (x : Execution V) : Prop :=
  ∃ i R S pend now, Approval before i j R S pend now ∧
    x.pid = some pend.id ∧ x.path = pend.path ∧ x.req = pend.req ∧
    env.letters.equalFold S.subject R.subject = false ∧
    authorize env.closed S .controlWrite x.path = .ok ()

/-- What the events before it say of the place a thread is at. -/
def Local.Backed (env : Env V) (ls : List (Event V)) (i : Nat) : Local V → Prop
  | .idle | .reading _ | .done _ => True
  | .arrived a => .arrived i a ∈ ls
  | .parking p _ _ => ∃ r c, c.principal = some p ∧ .arrived i (.point r c) ∈ ls
  | .inserting pend => ∃ p, pend.requester = p.subject ∧
      ∃ r c, c.principal = some p ∧ .arrived i (.point r c) ∈ ls
  | .looking S _ now => ∃ r c, c.principal = some S ∧
      [.arrived i (.approve r c), .timed i now].Sublist ls
  | .checking S pend => ∃ k R now, Approval ls k i R S pend now
  | .consuming S pend => approveChecks env S pend = .ok () ∧ ∃ k R now, Approval ls k i R S pend now
  | .executing x => .executes i x ∈ ls
  | .dispatching x _ => .executes i x ∈ ls

section Backed

variable {env : Env V} {ls : List (Event V)} {e : Event V} {i j : Nat} {R S : Principal}
  {pend : PendingControl V} {now : Int}

theorem called_later {P : Request → Ctx → Prop} {f : Request → Ctx → List (Event V)}
    (h : ∃ r c, P r c ∧ (f r c).Sublist ls) : ∃ r c, P r c ∧ (f r c).Sublist (ls ++ [e]) := by
  obtain ⟨r, c, hc, hsub⟩ := h
  exact ⟨r, c, hc, hsub.trans (sublist_append_left ls [e])⟩

theorem OpenedBy.later (h : OpenedBy ls i R pend) : OpenedBy (ls ++ [e]) i R pend :=
  ⟨h.1, called_later h.2⟩

theorem Approval.later (h : Approval ls i j R S pend now) :
    Approval (ls ++ [e]) i j R S pend now where
  requester := h.requester
  requested := called_later h.requested
  approves := called_later h.approves
  in_time := h.in_time

theorem Local.Backed.later {l : Local V} (h : l.Backed env ls i) : l.Backed env (ls ++ [e]) i := by
  cases l with
  | idle | reading | done => trivial
  | arrived | executing | dispatching => exact mem_append_left _ h
  | parking =>
    obtain ⟨r, c, hc, hmem⟩ := h
    exact ⟨r, c, hc, mem_append_left _ hmem⟩
  | looking => exact called_later h
  | inserting pend =>
    obtain ⟨p, hp, r, c, hc, hmem⟩ := h
    exact ⟨p, hp, r, c, hc, mem_append_left _ hmem⟩
  | checking =>
    obtain ⟨k, R, now, h⟩ := h
    exact ⟨k, R, now, h.later⟩
  | consuming =>
    obtain ⟨hok, k, R, now, h⟩ := h
    exact ⟨hok, k, R, now, h.later⟩

theorem sublist_concat_of_mem {e₁ : Event V} (h : e₁ ∈ ls) : [e₁, e].Sublist (ls ++ [e]) :=
  (singleton_sublist.mpr h).append (.refl [e])

end Backed

/-- The threads and parked writes are backed by the history, and a call that has dispatched is
done. -/
structure Ruled (env : Env V) (ls : List (Event V)) (w : World V) : Prop where
  threads : ∀ i, (w.threads i).Backed env ls i
  pending : ∀ p ∈ w.pending.rows, ∃ i R, OpenedBy ls i R p
  dispatched : ∀ {i x}, .dispatched i x ∈ ls → ∃ reply, w.threads i = .done reply

section Ruled

variable {env : Env V} {sinkWired : Bool} {ls : List (Event V)} {w w' : World V} {e : Event V}

theorem Ruled.start (audits : List (SetAudit V)) (clock : Int) :
    Ruled env [] (World.start audits clock) where
  threads _ := trivial
  pending := nofun
  dispatched := nofun

/-- One thread goes on to `l'`, which is backed, as are the parked writes it adds. -/
theorem Ruled.move {i : Nat} {l' : Local V} (h : Ruled env ls w)
    (hrun : ∀ reply, w.threads i ≠ .done reply)
    (ht : w'.threads = update w.threads i l') (hl' : l'.Backed env (ls ++ [e]) i)
    (hp : ∀ p ∈ w'.pending.rows, p ∈ w.pending.rows ∨ ∃ k R, OpenedBy (ls ++ [e]) k R p)
    (hd : ∀ {k x}, e = .dispatched k x → k = i ∧ ∃ reply, l' = .done reply) :
    Ruled env (ls ++ [e]) w' where
  threads k := by
    rw [ht]
    by_cases hk : k = i
    · subst hk
      simpa using hl'
    · rw [update_of_ne hk]
      exact (h.threads k).later
  pending p hmem := by
    rcases hp p hmem with hold | hnew
    · obtain ⟨k, R, hopen⟩ := h.pending p hold
      exact ⟨k, R, hopen.later⟩
    · exact hnew
  dispatched {k x} hmem := by
    rw [ht]
    rcases mem_append.mp hmem with hmem | hmem
    · obtain ⟨reply, hdone⟩ := h.dispatched hmem
      have hk : k ≠ i := by
        rintro rfl
        exact hrun reply hdone
      exact ⟨reply, by rw [update_of_ne hk, hdone]⟩
    · obtain ⟨rfl, reply, rfl⟩ := hd (mem_singleton.mp hmem).symm
      exact ⟨reply, by simp⟩

theorem Ruled.go {i : Nat} {l l' : Local V} (h : Ruled env ls w) (hi : w.threads i = l)
    (hrun : ∀ reply, l ≠ .done reply) (ht : w'.threads = update w.threads i l')
    (hl' : l'.Backed env (ls ++ [e]) i) (hp : ∀ p ∈ w'.pending.rows, p ∈ w.pending.rows)
    (hd : ∀ {k x}, e = .dispatched k x → k = i ∧ ∃ reply, l' = .done reply) :
    Ruled env (ls ++ [e]) w' :=
  h.move (hi ▸ hrun) ht hl' (fun p hmem => .inl (hp p hmem)) hd

/-- The backing of a thread, at the place it is at. -/
theorem Ruled.back {i : Nat} {l : Local V} (h : Ruled env ls w) (hi : w.threads i = l) :
    l.Backed env ls i := hi ▸ h.threads i

/-- **One step** keeps the history. -/
theorem Ruled.step (h : Ruled env ls w) (hs : Step env sinkWired w e w') :
    Ruled env (ls ++ [e]) w' := by
  have keep : ∀ p ∈ w.pending.rows, p ∈ w.pending.rows := fun _ hp => hp
  cases hs with
  | tick now =>
    exact ⟨fun i => (h.threads i).later,
      fun p hp => by
        obtain ⟨k, R, hopen⟩ := h.pending p hp
        exact ⟨k, R, hopen.later⟩,
      fun hmem => h.dispatched (by simpa using hmem)⟩
  | pointAnswer | pointRead | parkFails | approveAnswer | checkFails | consumeFails | executeFails
  | noSink =>
    have hi := ‹w.threads _ = _›
    exact h.go hi nofun rfl trivial keep nofun
  | arrive i a hi => exact h.go hi nofun rfl (by simp [Local.Backed]) keep nofun
  | pointPark i r c p path req hi hsv =>
    have hfits : (PointOutcome.park p path req).Fits c := hsv ▸ servePoint_fits
    exact h.go hi nofun rfl ⟨r, c, hfits, mem_append_left _ (h.back hi)⟩ keep nofun
  | pointExecute i r c path cls req actor second hi hsv =>
    exact h.go hi nofun rfl (by simp [Local.Backed]) keep nofun
  | park i p path req id hi hid =>
    obtain ⟨r, c, hc, hmem⟩ := h.back hi
    exact h.go hi nofun rfl ⟨p, rfl, r, c, hc, mem_append_left _ hmem⟩ keep nofun
  | insert i pend hi =>
    obtain ⟨p, hp, r, c, hc, hmem⟩ := h.back hi
    refine h.move (by simp [hi]) rfl trivial (fun q hq => ?_) nofun
    refine (mem_insertPending hq).imp_right ?_
    rintro rfl
    exact ⟨i, p, hp, r, c, hc, sublist_concat_of_mem hmem⟩
  | approve i r c approver id hi hsv =>
    exact h.go hi nofun rfl
      ⟨r, c, approveRequest_ok hsv, sublist_concat_of_mem (h.back hi)⟩ keep nofun
  | lookUpFails i approver id now t p hi hl =>
    exact h.go hi nofun rfl trivial (lookUp_rows hl) nofun
  | lookUp i approver id now t pend hi hl =>
    obtain ⟨hmem, hexp⟩ := lookUp_ok hl
    obtain ⟨k, R, hreq, r, c, hc, hsub⟩ := h.pending pend hmem
    obtain ⟨r', c', hc', hsub'⟩ := h.back hi
    have happroval : Approval (ls ++ [.lookedUp i pend]) k i R approver pend now :=
      ⟨hreq, ⟨r, c, hc, hsub.append (.refl [_])⟩, ⟨r', c', hc', hsub'.append (.refl [_])⟩, hexp⟩
    exact h.go hi nofun rfl ⟨k, R, now, happroval⟩ (lookUp_rows hl) nofun
  | check i approver pend hi hck =>
    obtain ⟨k, R, now, happroval⟩ := h.back hi
    exact h.go hi nofun rfl ⟨hck, k, R, now, happroval.later⟩ keep nofun
  | consume i approver pend t hi hcs =>
    exact h.go hi nofun rfl (by simp [Local.Backed])
      (fun p hp => ((consume_some hcs).2 p hp).1) nofun
  | execute i x id hi =>
    exact h.go hi nofun rfl (mem_append_left _ (h.back hi)) keep nofun
  | dispatch i x audit res hi hyes =>
    refine h.go hi nofun rfl trivial keep fun he => ?_
    cases he
    exact ⟨rfl, _, rfl⟩

/-- An execution of class A comes from a thread that consumed a parked write. -/
theorem Ruled.executes {j : Nat} {x : Execution V} (h : Ruled env ls w)
    (hs : Step env sinkWired w (.executes j x) w') (hx : x.cls = .a) : TwoMan env ls j x := by
  cases hs with
  | pointExecute _ r c path cls req actor second hi hsv =>
    have hfits : (PointOutcome.execute path cls req actor second).Fits c := hsv ▸ servePoint_fits
    exact absurd hx hfits
  | consume _ approver pend t hi hcs =>
    obtain ⟨hok, i, R, now, happroval⟩ := h.back hi
    obtain ⟨hne, hauth⟩ := approveChecks_ok hok
    exact ⟨i, R, approver, pend, now, happroval, rfl, rfl, rfl, happroval.requester ▸ hne, hauth⟩

/-- A dispatch is that of the call's own execution, and its first. -/
theorem Ruled.dispatches {j : Nat} {x : Execution V} (h : Ruled env ls w)
    (hs : Step env sinkWired w (.dispatched j x) w') :
    .executes j x ∈ ls ∧ ∀ x', .dispatched j x' ∉ ls := by
  cases hs with
  | dispatch _ _ audit res hi hyes =>
    refine ⟨h.back hi, fun x' hmem => ?_⟩
    obtain ⟨reply, hdone⟩ := h.dispatched hmem
    rw [hi] at hdone
    cases hdone

end Ruled

/-- **The two-man rule.**  Along every interleaving, an execution of class A has two men before it,
a dispatch is that of an execution before it and the call's only one, and no parked write is
executed twice. -/
theorem two_man_rule {env : Env V} {sinkWired : Bool} {audits : List (SetAudit V)} {clock : Int}
    {ls : List (Event V)} {w : World V}
    (h : Run (Step env sinkWired) (World.start audits clock) ls w) :
    (∀ pre j x post, ls = pre ++ .executes j x :: post → x.cls = .a → TwoMan env pre j x) ∧
    (∀ pre j x post, ls = pre ++ .dispatched j x :: post →
      .executes j x ∈ pre ∧ ∀ x', .dispatched j x' ∉ pre) ∧
    (ls.map Event.executedId).reduceOption.Nodup := by
  refine ⟨?_, ?_, ?_⟩
  · rintro pre j x post rfl hx
    exact h.label_of_history
      (P := fun pre e => ∀ j x, e = .executes j x → x.cls = .a → TwoMan env pre j x)
      Ruled.step (fun hr hs j x he => hr.executes (he ▸ hs)) (Ruled.start audits clock) j x rfl hx
  · rintro pre j x post rfl
    exact h.label_of_history
      (P := fun pre e => ∀ j x, e = .dispatched j x →
        .executes j x ∈ pre ∧ ∀ x', .dispatched j x' ∉ pre)
      Ruled.step (fun hr hs j x he => hr.dispatches (he ▸ hs)) (Ruled.start audits clock) j x rfl
  · have hrun := h.simulate World.tokens Event.executedId Step.tokens
    rw [tokens_start] at hrun
    exact Token.consumed_nodup hrun

/-! ### A pump speed, requested and approved -/

def pumpEnv : Env Nat where
  letters := .none
  parsePoint _ := .ok ()
  decodeSet _ := .ok ⟨1200, 60, [], true, []⟩
  closed := true

def pumpCall (method : Method) (path : Bytes) : Request :=
  ⟨method, path, [], [], [], [], [], .ok []⟩

def admin (subject : Bytes) : Principal := ⟨subject, .admin, [], none⟩

def pumpPending : PendingControl Nat :=
  newPending (admin "alice") "site01.cdu000.pump.rpm" ⟨1200, 60, [], true, []⟩ 0 "us_1"

/-- The pump's write is parked, and its approval has read the clock. -/
def pumpTimed : List (Event Nat) :=
  [.arrived 0 (.point (pumpCall .put "/v1/points/site01.cdu000.pump.rpm:set")
      ⟨some (admin "alice"), none⟩), .internal, .internal, .opened 0 pumpPending,
    .arrived 1 (.approve (pumpCall .post "/v1/control/us_1:approve") ⟨some (admin "bob"), none⟩),
    .timed 1 0]

def pumpEvents : List (Event Nat) := pumpTimed ++ [.internal, .lookedUp 1 pumpPending, .internal]

/-- The clock goes on by two minutes after the approval has read it; the write lives for one. -/
theorem pump_run : ∃ w w' w'',
    Run (Step pumpEnv true) (World.start [] 0) (pumpTimed ++ [.internal]) w ∧
    pumpPending.expiresAt < w.clock ∧ Step pumpEnv true w (.lookedUp 1 pumpPending) w' ∧
    Run (Step pumpEnv true) w' [.internal, .executes 1 (approved (admin "bob") pumpPending)] w'' :=
  ⟨_, _, _, .more (.arrive _ 0 _ rfl) <| .more (.pointPark _ 0 _ _ (admin "alice") _ _ rfl rfl) <|
    .more (.park _ 0 _ _ _ "us_1" rfl (by decide)) <| .more (.insert _ 0 _ rfl) <|
    .more (.arrive _ 1 _ rfl) <| .more (.approve _ 1 _ _ (admin "bob") "us_1" rfl rfl) <|
    .more (.tick _ 120000000000) (.refl _), by decide,
    .lookUp _ 1 (admin "bob") "us_1" 0 _ _ rfl rfl,
    .more (.check _ 1 (admin "bob") _ rfl rfl) <|
    .more (.consume _ 1 (admin "bob") _ _ rfl rfl) (.refl _)⟩

theorem two_man_rule_pump :
    TwoMan pumpEnv pumpEvents 1 (approved (admin "bob") pumpPending) := by
  obtain ⟨w, w', w'', hbefore, -, hlook, hafter⟩ := pump_run
  exact (two_man_rule (hbefore.trans (.more hlook hafter))).1 pumpEvents 1 _ [] rfl rfl

/-- A write that has expired when it is looked up is executed. -/
theorem expired_when_looked_up : ∃ w w' w'' : World Nat,
    (∃ ls, Run (Step pumpEnv true) (World.start [] 0) ls w) ∧
      Step pumpEnv true w (.lookedUp 1 pumpPending) w' ∧ pumpPending.expiresAt < w.clock ∧
      Run (Step pumpEnv true) w'
        [.internal, .executes 1 (approved (admin "bob") pumpPending)] w'' := by
  obtain ⟨w, w', w'', hbefore, hlate, hlook, hafter⟩ := pump_run
  exact ⟨w, w', w'', ⟨_, hbefore⟩, hlook, hlate, hafter⟩

end Cios.Control
