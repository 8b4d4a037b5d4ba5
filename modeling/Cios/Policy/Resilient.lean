import Cios.Support.Interleave
import Cios.Support.Text

/-!
# Policy — the resilient PDP

`resilientPDP` (`pkg/policy/resilient_pdp.go`) puts a bounded retry and a circuit breaker in front
of an inner PDP.  `Decision` asks the breaker (`beforeCall`), then the inner PDP until it answers or
the attempts are used up, and reports the outcome to the breaker (`afterCall`).

A decision is a program over what it touches (`PdpOp`): the breaker, which all calls share behind
its mutex, and its own context, timer and inner PDP.  The two critical sections are single calls.
-/

namespace Cios.Policy
open Text
open Effect

/-! ### The breaker -/

structure RetryConfig where
  maxAttempts : Int
  baseBackoff : Int
  maxBackoff : Int
  failureThresh : Int
  openCooldown : Int
deriving DecidableEq, Repr

inductive BreakerState where
  | breakerClosed
  | breakerOpen
  | breakerHalfOpen
deriving DecidableEq, Repr

/-- The fields under the mutex. -/
structure Breaker where
  state : BreakerState
  consecFail : Int
  openedAt : Int
  halfOpenIn : Bool
deriving DecidableEq, Repr

def Breaker.new : Breaker := ⟨.breakerClosed, 0, 0, false⟩

inductive PdpError where
  | errCircuitOpen
  | ctx (text : Bytes)
  | inner (text : Bytes)
deriving DecidableEq, Repr

variable (cfg : RetryConfig)

def beforeCall (now : Int) (r : Breaker) : Except PdpError Bool × Breaker :=
  match r.state with
  | .breakerClosed => (.ok false, r)
  | .breakerOpen =>
    if now - r.openedAt < cfg.openCooldown then (.error .errCircuitOpen, r)
    else (.ok true, { r with state := .breakerHalfOpen, halfOpenIn := true })
  | .breakerHalfOpen =>
    if r.halfOpenIn then (.error .errCircuitOpen, r)
    else (.ok false, { r with halfOpenIn := true })

theorem beforeCall_cases {cfg : RetryConfig} {now : Int} {b b' : Breaker}
    {r : Except PdpError Bool} (h : beforeCall cfg now b = (r, b')) :
    (b.state = .breakerClosed ∧ r = .ok false ∧ b' = b) ∨
    (b.state = .breakerOpen ∧ now - b.openedAt < cfg.openCooldown ∧
      r = .error .errCircuitOpen ∧ b' = b) ∨
    (b.state = .breakerOpen ∧ cfg.openCooldown ≤ now - b.openedAt ∧ r = .ok true ∧
      b' = { b with state := .breakerHalfOpen, halfOpenIn := true }) ∨
    (b.state = .breakerHalfOpen ∧ b.halfOpenIn = true ∧ r = .error .errCircuitOpen ∧ b' = b) ∨
    (b.state = .breakerHalfOpen ∧ b.halfOpenIn = false ∧ r = .ok false ∧
      b' = { b with halfOpenIn := true }) := by
  unfold beforeCall at h
  split at h
  · cases h
    exact .inl ⟨by assumption, rfl, rfl⟩
  · rename_i hopen
    split at h
    · cases h
      exact .inr (.inl ⟨hopen, by assumption, rfl, rfl⟩)
    · rename_i hcool
      cases h
      exact .inr (.inr (.inl ⟨hopen, Int.not_lt.mp hcool, rfl, rfl⟩))
  · rename_i hhalf
    split at h
    · rename_i hin
      cases h
      exact .inr (.inr (.inr (.inl ⟨hhalf, hin, rfl, rfl⟩)))
    · rename_i hin
      cases h
      exact .inr (.inr (.inr (.inr ⟨hhalf, by simpa using hin, rfl, rfl⟩)))

/-- The argument `probe` of the source is not read. -/
def afterCall (now : Int) (success : Bool) (r : Breaker) : Breaker :=
  match r.state with
  | .breakerClosed =>
    if success then { r with consecFail := 0 }
    else if r.consecFail + 1 ≥ cfg.failureThresh then
      { r with state := .breakerOpen, openedAt := now, consecFail := 0 }
    else { r with consecFail := r.consecFail + 1 }
  | .breakerHalfOpen =>
    if success then { r with halfOpenIn := false, state := .breakerClosed, consecFail := 0 }
    else { r with
      halfOpenIn := false, state := .breakerOpen, openedAt := now, consecFail := 0 }
  | .breakerOpen => r

/-- A report ends a half-open period, and gives the probe's slot back. -/
theorem afterCall_state {cfg : RetryConfig} {now : Int} {success : Bool} {b : Breaker}
    (h : b.state ≠ .breakerHalfOpen → b.halfOpenIn = false) :
    (afterCall cfg now success b).state ≠ .breakerHalfOpen ∧
      (afterCall cfg now success b).halfOpenIn = false := by
  unfold afterCall
  split
  · rename_i hs
    have hin := h (by rw [hs]; nofun)
    split
    · exact ⟨by rw [hs]; nofun, hin⟩
    · split
      · exact ⟨nofun, hin⟩
      · exact ⟨by rw [hs]; nofun, hin⟩
  · split
    iterate 2 exact ⟨nofun, rfl⟩
  · rename_i hs
    exact ⟨by rw [hs]; nofun, h (by rw [hs]; nofun)⟩

/-- The base of the backoff, which is also the bound of the jitter. -/
def backoffBase : Int := if cfg.baseBackoff ≤ 0 then 1000000 else cfg.baseBackoff

/-- The gap after an attempt; the shift wraps at 64 bits. -/
def backoff (attempt : Nat) (jitter : Int) : Int :=
  let d := (backoffBase cfg * 2 ^ min (attempt - 1) 30).bmod (2 ^ 64)
  (if d ≤ 0 ∨ d > cfg.maxBackoff then cfg.maxBackoff else d) + jitter

/-! ### A decision -/

inductive PdpOp where
  | beforeCall
  | ctxErr
  | innerDecision
  | afterCall (success probe : Bool)
  | jitter
  | sleep (d : Int)
deriving DecidableEq, Repr

/-- What a call answers.  A sleep answers the context's error when it was cut short. -/
abbrev PdpOp.Ret : PdpOp → Type
  | .beforeCall => Except PdpError Bool
  | .ctxErr => Option Bytes
  | .innerDecision => Except Bytes Bool
  | .afterCall _ _ => Unit
  | .jitter => Int
  | .sleep _ => Option Bytes

/-- Go's `(allow, err)`. -/
abbrev Verdict := Bool × Option PdpError

abbrev Decision := Prog PdpOp PdpOp.Ret Verdict

/-- The loop, with `left` attempts to go. -/
def attempts (probe : Bool) : (left attempt : Nat) → (lastErr : Option PdpError) → Decision
  | 0, _, lastErr => .done (false, lastErr)
  | left + 1, attempt, _ =>
    .call .ctxErr fun
      | some e => .done (false, some (.ctx e))
      | none =>
        .call .innerDecision fun
          | .ok allow => .call (.afterCall true probe) fun _ => .done (allow, none)
          | .error e =>
            if (attempt : Int) = cfg.maxAttempts then
              .call (.afterCall false probe) fun _ => .done (false, some (.inner e))
            else
              .call .jitter fun j => .call (.sleep (backoff cfg attempt j)) fun
                | some e => .done (false, some (.ctx e))
                | none => attempts probe left (attempt + 1) (some (.inner e))

def decision : Decision :=
  .call .beforeCall fun
    | .error e => .done (false, some e)
    | .ok probe => attempts cfg probe cfg.maxAttempts.toNat 1 none

/-- The breaker answers under its mutex, at some time of the clock; the rest may answer anything. -/
def step : (op : PdpOp) → Breaker → op.Ret → Breaker → Prop
  | .beforeCall, b, r, b' => ∃ now, beforeCall cfg now b = (r, b')
  | .afterCall success _, b, _, b' => ∃ now, afterCall cfg now success b = b'
  | .jitter, b, j, b' => 0 ≤ j ∧ j < backoffBase cfg ∧ b' = b
  | .ctxErr, b, _, b' | .innerDecision, b, _, b' | .sleep _, b, _, b' => b' = b

end Cios.Policy
