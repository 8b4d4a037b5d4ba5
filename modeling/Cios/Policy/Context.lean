import Cios.Http.Request

/-!
# Policy — the context policy

The input of a policy decision (`pkg/policy/input.go`, `pdp.go`) and the policy the gateway ships
with (`policy/rego/context.rego`).  An input that names no target site is not confined to the sites
of the token, and its write with a second factor passes at any hour (`write_restricted_iff`).
-/

namespace Cios.Policy
open Text
open Cios.Http (Method)

/-- `policy.Input`.  The last three are left out of the JSON when empty, the same to the policy. -/
structure Input where
  realm : Bytes
  action : Bytes
  method : Method
  path : Bytes
  mfa : Bool
  time : Int
  scope : List Bytes
  org : Bytes
  sites : List Bytes
  targetSite : Bytes
deriving DecidableEq, Repr

/-! ### `package cios.authz` -/

def sensitiveActions : List Bytes := ["write"]

def orgOrSiteContextActive (i : Input) : Bool := i.targetSite ≠ []

def siteAllowed (i : Input) : Bool := i.targetSite ≠ [] && i.sites.contains i.targetSite

variable (hour : Int → Nat)

/-- The hour of the input's time is the engine's. -/
def offHours (t : Int) : Bool := hour t < 8 || 20 ≤ hour t

/-- The five rules of `allow`, in the order of the file. -/
def allow (i : Input) : Bool :=
  (sensitiveActions.contains i.action && i.mfa && !orgOrSiteContextActive i) ||
  (i.action = "read" && i.realm ≠ [] && !orgOrSiteContextActive i) ||
  (i.action = "write" && i.mfa && !offHours hour i.time && !orgOrSiteContextActive i) ||
  (i.action = "read" && i.realm ≠ [] && i.org ≠ [] && siteAllowed i) ||
  (i.action = "write" && i.mfa && i.org ≠ [] && siteAllowed i && !offHours hour i.time)

/-- A write needs the second factor; the hour counts only when a target site is named. -/
theorem allow_write_iff {i : Input} (h : i.action = "write") : allow hour i = true ↔
    i.mfa = true ∧ (i.targetSite = [] ∨
      (i.org ≠ [] ∧ i.targetSite ∈ i.sites) ∧ 8 ≤ hour i.time ∧ hour i.time < 20) := by
  have hwrite : (lit "write" = lit "read") = False := by decide
  have hsensitive : lit "write" ∈ sensitiveActions := by decide
  by_cases htarget : i.targetSite = []
  · simp only [allow, h, hwrite, orgOrSiteContextActive, htarget]
    simp only [hsensitive, List.contains_eq_mem]
    cases i.mfa <;> simp
  · simp [allow, h, hwrite, orgOrSiteContextActive, siteAllowed, htarget, and_assoc,
      offHours]

/-- What holds of every write that is allowed, and when the hour is among it. -/
theorem write_restricted_iff {i : Input} (h : i.action = "write") :
    (allow hour i = true → i.mfa = true ∧ (8 ≤ hour i.time ∧ hour i.time < 20) ∧
      (i.targetSite = [] ∨ i.targetSite ∈ i.sites ∧ i.org ≠ [])) ↔
    (i.mfa = true → i.targetSite = [] → 8 ≤ hour i.time ∧ hour i.time < 20) := by
  rw [allow_write_iff hour h]
  constructor
  · intro hall hmfa htarget
    exact (hall ⟨hmfa, Or.inl htarget⟩).2.1
  · rintro hnone ⟨hmfa, htarget | ⟨⟨horg, hsite⟩, hhour⟩⟩
    · exact ⟨hmfa, hnone hmfa htarget, Or.inl htarget⟩
    · exact ⟨hmfa, hhour, Or.inr ⟨hsite, horg⟩⟩

def plainWrite : Input := ⟨"acme", "write", .post, "/v1/assets", true, 0, [], [], [], []⟩

theorem write_restricted_iff_plainWrite :
    plainWrite.mfa = true ∧ (8 ≤ 12 ∧ 12 < 20) ∧ (plainWrite.targetSite = [] ∨
      plainWrite.targetSite ∈ plainWrite.sites ∧ plainWrite.org ≠ []) :=
  (write_restricted_iff (fun _ => 12) rfl).mpr (fun _ _ => by decide) (by decide)

theorem plainWrite_at_night :
    allow (fun _ => 3) plainWrite = true ∧ offHours (fun _ => 3) plainWrite.time = true := by
  decide

end Cios.Policy
