import Cios.Rbac.Boot

/-!
# RBAC — what a principal reaches

With no request tenant and the legacy window open, neither the tenant nor the origin of a scope
counts: a principal is allowed what its role admits on the paths that the dotted globs of its scopes
cover (`authorize_open`).  Nothing else of the scopes counts (`authorize_open_congr`).
-/

namespace Cios.Rbac
open Text List

def dottedOf (s : Bytes) : Option Bytes :=
  match scopeParts s with
  | .ok (_, _, dotPath) => some dotPath
  | .error _ => none

/-- A dotted glob covers a request: it matches the path, or for a read something above it. -/
def covers (dotPath : Bytes) (action : Action) (path : Bytes) : Bool :=
  match compileGlob dotPath, compileGlob (dotPath ++ ".**") with
  | some exact, some subtree => exact.matches path || (action == .read && subtree.matches path)
  | _, _ => false

def Reach (scopes : List Bytes) (dotPath : Bytes) : Prop :=
  ∃ s ∈ scopes, dottedOf s = some dotPath

theorem dottedOf_legacy {s : Bytes} (h : crnPrefix.isPrefixOf s = false) : dottedOf s = some s := by
  simp [dottedOf, scopeParts, h, legacyToCRN_dotPath]

theorem dottedOf_crn {s : Bytes} {c : Crn} (hp : crnPrefix.isPrefixOf s = true)
    (h : parseCRN s = .ok c) : dottedOf s = some c.dotPath := by
  simp [dottedOf, scopeParts, hp, h]

/-! ### Compiled scopes -/

theorem compileScopeGlob_covers {s : Bytes} {sg : ScopeGlob} (h : compileScopeGlob s = .ok sg) :
    ∃ d, dottedOf s = some d ∧ ∀ action path, sg.matches action path = covers d action path := by
  unfold compileScopeGlob at h
  split at h
  · cases h
  rename_i origin tid d hparts
  split at h
  · cases h
  rename_i exact hexact
  split at h
  · cases h
  · rename_i subtree hsubtree
    cases h
    refine ⟨d, by simp [dottedOf, hparts], fun action path => ?_⟩
    simp [ScopeGlob.matches, covers, hexact, hsubtree]

theorem compileScopeGlobs_covers (action : Action) (path : Bytes) :
    ∀ {scopes : List Bytes} {sgs : List ScopeGlob}, compileScopeGlobs scopes = .ok sgs →
      ((∃ sg ∈ sgs, sg.matches action path = true) ↔
        ∃ d, Reach scopes d ∧ covers d action path = true)
  | [], sgs, h => by
    cases h
    simp [Reach]
  | s :: rest, sgs, h => by
    rw [compileScopeGlobs] at h
    split at h
    · cases h
    rename_i sg hsg
    split at h
    · cases h
    rename_i sgs' hsgs
    cases h
    obtain ⟨d, hd, hm⟩ := compileScopeGlob_covers hsg
    have ih := compileScopeGlobs_covers action path hsgs
    constructor
    · rintro ⟨x, hx, hxm⟩
      rcases mem_cons.mp hx with rfl | hx
      · exact ⟨d, ⟨s, by simp, hd⟩, by rw [← hm]; exact hxm⟩
      · obtain ⟨d', ⟨s', hs', hd'⟩, hc⟩ := ih.mp ⟨x, hx, hxm⟩
        exact ⟨d', ⟨s', mem_cons_of_mem s hs', hd'⟩, hc⟩
    · rintro ⟨d', ⟨s', hs', hd'⟩, hc⟩
      rcases mem_cons.mp hs' with rfl | hs'
      · obtain rfl : d = d' := Option.some.inj (hd.symm.trans hd')
        exact ⟨sg, by simp, by rw [hm]; exact hc⟩
      · obtain ⟨x, hx, hxm⟩ := ih.mpr ⟨d', ⟨s', hs', hd'⟩, hc⟩
        exact ⟨x, mem_cons_of_mem sg hx, hxm⟩

/-! ### The decision -/

theorem ScopeGlob.admissible_open (sg : ScopeGlob) : sg.Admissible false [] :=
  ⟨fun h => h.2.1 rfl, fun h => by cases h.2⟩

theorem authorize_open {p ready : Principal} (h : compilePrincipalScopes p = .ok ready)
    {action : Action} {path : Bytes} :
    authorizeTenant false ready action path [] = .ok () ↔ roleAllows p action = .ok () ∧
      (p.role = .admin ∨ ∃ d, Reach p.scopes d ∧ covers d action path = true) := by
  unfold compilePrincipalScopes at h
  split at h
  · cases h
  rename_i sgs hsgs
  cases h
  have hopen : ¬ Principal.Shadowed false ⟨p.subject, p.role, p.scopes, some sgs⟩
      action path [] := by
    rintro ⟨-, -, pre, sg, post, -, -, -, hadm, -⟩
    exact hadm sg.admissible_open
  rw [← compileScopeGlobs_covers action path hsgs]
  constructor
  · intro hok
    obtain ⟨hr, hg⟩ := granted_of_authorizeTenant hok
    exact ⟨hr, hg.imp_right fun ⟨sg, hin, hm, _⟩ => ⟨sg, hin, hm⟩⟩
  · rintro ⟨hr, hg⟩
    exact authorizeTenant_of_granted
      ⟨hr, hg.imp_right fun ⟨sg, hin, hm⟩ => ⟨sg, hin, hm, sg.admissible_open⟩⟩ hopen

/-- **Equal reach, equal decisions.** -/
theorem authorize_open_congr {p q p' q' : Principal} (hp : compilePrincipalScopes p = .ok p')
    (hq : compilePrincipalScopes q = .ok q') (hrole : q.role = p.role)
    (hreach : ∀ d, Reach q.scopes d ↔ Reach p.scopes d) (action : Action) (path : Bytes) :
    authorizeTenant false q' action path [] = authorizeTenant false p' action path [] := by
  have hiff : authorizeTenant false q' action path [] = .ok () ↔
      authorizeTenant false p' action path [] = .ok () := by
    rw [authorize_open hq, authorize_open hp]
    simp [hreach, hrole, roleAllows]
  rcases ha : authorizeTenant false q' action path [] with ⟨⟨⟩⟩ | ⟨⟩
  · rcases hb : authorizeTenant false p' action path [] with ⟨⟨⟩⟩ | ⟨⟩
    · rfl
    · exact absurd (hiff.mpr hb) (by simp [ha])
  · exact (hiff.mp ha).symm

end Cios.Rbac
