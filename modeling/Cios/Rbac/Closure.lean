import Cios.Rbac.Authorize
import Cios.Support.Letters

/-!
# RBAC — closing the legacy window

`legacyScopeClosed` (`core/rbac.go`) is the flag that ends the use of v1.0 scopes.  Its comment has
it "read from the boot env at process start"; what reads `CIOS_LEGACY_CLOSED` is
`initLegacyScopeClosed`, behind a `sync.Once` that only `LegacyScopeClosed` triggers, and the one
caller of that is `ReportLegacyUse` (`core/migrate_v11.go`).  The decision loads the flag itself.

So until the first report the flag is open whatever the environment says (`run_of_no_report`,
`run_of_report`, `legacy_closed_iff`).
-/

namespace Cios.Rbac
open Text List

/-- The variable `CIOS_LEGACY_CLOSED`, empty when it is not set, and Unicode's tables. -/
structure BootEnv where
  legacyClosed : Bytes
  letters : Letters

/-- The values that `initLegacyScopeClosed` takes for closed. -/
def BootEnv.closes (env : BootEnv) : Bool :=
  let v := env.letters.toLower (trimSpace env.legacyClosed)
  v = "1" || v = "true" || v = "yes" || v = "on"

/-- The package's variables: the flag, its `sync.Once`, and the count of legacy matches. -/
structure LegacyVars where
  legacyScopeClosed : Bool
  once : Bool
  legacyScopeUses : Nat
deriving DecidableEq, Repr

def LegacyVars.start : LegacyVars := ⟨false, false, 0⟩

variable (env : BootEnv) (s : LegacyVars)

def initLegacyScopeClosed : LegacyVars :=
  { s with legacyScopeClosed := env.closes }

/-- `LegacyScopeClosed`: the flag, initialised on the first call. -/
def legacyScopeClosed : Bool × LegacyVars :=
  let s' := if s.once then s else { initLegacyScopeClosed env s with once := true }
  (s'.legacyScopeClosed, s')

/-- The scope whose match decides, for a principal that is decided by its scopes. -/
def Principal.decidedBy (p : Principal) (action : Action) (path : Bytes) : Option ScopeGlob :=
  if roleAllows p action = .ok () ∧ p.role ≠ .admin then
    p.scopeGlobs.find? (·.matches action path)
  else none

/-- The decision turns on a v1.0 scope. -/
def Principal.LegacyMatch (p : Principal) (action : Action) (path : Bytes) : Prop :=
  ∃ sg, p.decidedBy action path = some sg ∧ sg.origin = .legacy

instance (p : Principal) (action : Action) (path : Bytes) :
    Decidable (p.LegacyMatch action path) :=
  match h : p.decidedBy action path with
  | none => .isFalse fun ⟨_, hs, _⟩ => by simp [h] at hs
  | some sg =>
    if ho : sg.origin = .legacy then .isTrue ⟨sg, h, ho⟩
    else .isFalse fun ⟨_, hs, ho'⟩ => ho (by rw [h] at hs; cases hs; exact ho')

structure ClosureReport where
  daysRequested : Int
  legacyScopeUsesNow : Nat
  closureFlagOpen : Bool
  closureReady : Bool
  historicalEvidence : Bool
deriving DecidableEq, Repr

def reportLegacyUse (days : Int) (s : LegacyVars) : ClosureReport × LegacyVars :=
  let days := if days ≤ 0 then 30 else days
  let uses := s.legacyScopeUses
  let (closed, s') := legacyScopeClosed env s
  (⟨days, uses, !closed, uses = 0, false⟩, s')

/-! ### A process -/

/-- The calls that touch the flag, with their arguments. -/
inductive FlagCall where
  | authorizeTenant (p : Principal) (action : Action) (path requestTenant : Bytes)
  | reportLegacyUse (days : Int)

/-- The variables after a call.  A legacy match is counted unless the flag refuses it. -/
def FlagCall.after : FlagCall → LegacyVars
  | .authorizeTenant p action path _ =>
    if p.LegacyMatch action path ∧ s.legacyScopeClosed = false then
      { s with legacyScopeUses := s.legacyScopeUses + 1 }
    else s
  | .reportLegacyUse days => (Rbac.reportLegacyUse env days s).2

/-- The variables after the calls, from the start of the process. -/
def run (calls : List FlagCall) : LegacyVars := calls.foldl (FlagCall.after env) .start

/-- A call that is allowed because of a v1.0 scope, with the flag as it stands. -/
def FlagCall.LegacyGrant : FlagCall → Prop
  | .authorizeTenant p action path requestTenant =>
    Rbac.authorizeTenant s.legacyScopeClosed p action path requestTenant = .ok () ∧
      p.LegacyMatch action path
  | .reportLegacyUse _ => False

/-! ### The flag along a run -/

section Flag

variable {env : BootEnv} {s : LegacyVars}

def FlagCall.isReport : FlagCall → Bool
  | .authorizeTenant _ _ _ _ => false
  | .reportLegacyUse _ => true

theorem FlagCall.after_of_not_report (env : BootEnv) (s : LegacyVars) {c : FlagCall}
    (h : c.isReport = false) :
    (c.after env s).legacyScopeClosed = s.legacyScopeClosed ∧ (c.after env s).once = s.once := by
  cases c with
  | authorizeTenant p action path t =>
    rw [FlagCall.after]
    split <;> exact ⟨rfl, rfl⟩
  | reportLegacyUse days => cases h

theorem run_of_no_report : ∀ {calls : List FlagCall}, (∀ c ∈ calls, c.isReport = false) →
    (run env calls).legacyScopeClosed = false ∧ (run env calls).once = false := by
  intro calls
  induction calls using reverseRecOn with
  | nil => exact fun _ => ⟨rfl, rfl⟩
  | append_singleton calls c ih =>
    intro h
    obtain ⟨hcalls, hc⟩ := forall_mem_append.mp h
    obtain ⟨hclosed, honce⟩ := ih hcalls
    obtain ⟨hclosed', honce'⟩ :=
      FlagCall.after_of_not_report env (run env calls) (hc c (by simp))
    rw [run, foldl_append]
    exact ⟨hclosed'.trans hclosed, honce'.trans honce⟩

theorem run_of_report {calls : List FlagCall} (h : ∃ c ∈ calls, c.isReport = true) :
    (run env calls).legacyScopeClosed = env.closes ∧ (run env calls).once = true := by
  induction calls using reverseRecOn with
  | nil => simp at h
  | append_singleton calls c ih =>
    rw [run, foldl_append]
    cases c with
    | authorizeTenant p action path t =>
      obtain ⟨hclosed, honce⟩ := ih (by simpa [FlagCall.isReport, or_and_right, exists_or] using h)
      obtain ⟨hclosed', honce'⟩ := FlagCall.after_of_not_report env
        (run env calls) (c := .authorizeTenant p action path t) rfl
      exact ⟨hclosed'.trans hclosed, honce'.trans honce⟩
    | reportLegacyUse days =>
      change (legacyScopeClosed env (run env calls)).2.legacyScopeClosed = env.closes ∧
        (legacyScopeClosed env (run env calls)).2.once = true
      by_cases hcalls : ∃ c ∈ calls, c.isReport = true
      · -- the initialisation is over: no call changes the flag any more
        simp [legacyScopeClosed, ih hcalls]
      · have hno : ∀ c ∈ calls, c.isReport = false := by simpa using hcalls
        simp [legacyScopeClosed, initLegacyScopeClosed, (run_of_no_report hno).2]

/-- A v1.0 scope that matches first allows exactly while the window is open. -/
theorem FlagCall.legacyGrant_iff {p : Principal} {action : Action} {path t : Bytes} :
    (FlagCall.authorizeTenant p action path t).LegacyGrant s ↔
      p.LegacyMatch action path ∧ s.legacyScopeClosed = false := by
  constructor
  · rintro ⟨hok, sg, hd, ho⟩
    refine ⟨⟨sg, hd, ho⟩, ?_⟩
    unfold Principal.decidedBy at hd
    split at hd
    · rename_i hr
      rw [authorizeTenant_of_role hr.1 hr.2, authorizeScopes_ok_iff] at hok
      obtain ⟨sg', hf, ha⟩ := hok
      obtain rfl : sg = sg' := Option.some.inj (hd.symm.trans hf)
      simpa [ho] using ha.2
    · cases hd
  · rintro ⟨⟨sg, hd, ho⟩, hopen⟩
    refine ⟨?_, sg, hd, ho⟩
    unfold Principal.decidedBy at hd
    split at hd
    · rename_i hr
      rw [authorizeTenant_of_role hr.1 hr.2, authorizeScopes_ok_iff]
      exact ⟨sg, hd, fun hc => by simp [ho] at hc, fun hc => by simp [hopen] at hc⟩
    · cases hd

end Flag

/-- **The closure over whole runs.**  In a process started with a closing environment, no decision
is allowed because of a v1.0 scope exactly when none that turns on one comes before the first
report; decisions never close the window. -/
theorem legacy_closed_iff (env : BootEnv) (henv : env.closes = true) (calls : List FlagCall) :
    (∀ pre c post, calls = pre ++ c :: post → ¬ c.LegacyGrant (run env pre)) ↔
      ∀ pre p action path t post, calls = pre ++ .authorizeTenant p action path t :: post →
        (∀ c ∈ pre, c.isReport = false) → ¬ p.LegacyMatch action path := by
  constructor
  · intro h pre p action path t post e hpre hm
    exact h pre _ post e (FlagCall.legacyGrant_iff.mpr ⟨hm, (run_of_no_report hpre).1⟩)
  rintro h pre c post e hg
  cases c with
  | reportLegacyUse days => exact hg
  | authorizeTenant p action path t =>
    obtain ⟨hm, hopen⟩ := FlagCall.legacyGrant_iff.mp hg
    refine h pre p action path t post e (fun c hc => ?_) hm
    by_contra hr
    rw [(run_of_report ⟨c, hc, by simpa using hr⟩).1, henv] at hopen
    cases hopen

def closedEnv : BootEnv := ⟨"1", .none⟩

/-- After a report the viewer's v1.0 scope is refused. -/
theorem legacy_closed_iff_after_report :
    let calls := [FlagCall.reportLegacyUse 30,
      .authorizeTenant (viewerOf ["site01"]) .read "site01" []]
    ∀ pre c post, calls = pre ++ c :: post → ¬ c.LegacyGrant (run closedEnv pre) := by
  refine (legacy_closed_iff closedEnv (by decide) _).mpr ?_
  intro pre p action path t post e hpre
  cases pre with
  | nil => simp at e
  | cons c pre =>
    obtain ⟨rfl, -⟩ := cons.inj e
    simp [FlagCall.isReport] at hpre

/-- With `CIOS_LEGACY_CLOSED=1` the first decision still allows by a v1.0 scope, and leaves the
window open. -/
theorem first_legacy_match_allowed :
    let call := FlagCall.authorizeTenant (viewerOf ["site01"]) .read "site01" []
    closedEnv.closes = true ∧ call.LegacyGrant (run closedEnv []) ∧
      (run closedEnv [call]).legacyScopeClosed = false ∧
        (run closedEnv [call]).legacyScopeUses = 1 :=
  ⟨by decide, FlagCall.legacyGrant_iff.mpr ⟨by decide, by decide⟩, by decide, by decide⟩

end Cios.Rbac
