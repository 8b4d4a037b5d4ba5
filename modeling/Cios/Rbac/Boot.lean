import Cios.Rbac.Authorize
import Cios.Store.FileStore

/-!
# RBAC — loading role bindings at boot

At boot the core reads its token table, adds to each principal the scopes of its stored role
bindings (`LoadRoleBindingsInto`, `core/auth.go`), and compiles every scope
(`NewStaticTokenVerifier`); one scope that does not compile stops the boot.

Which scopes compile is stated as a grammar apart from the parsers (`ScopeForm`,
`newStaticTokenVerifier_isOk`).
-/

namespace Cios.Rbac
open Text List
open Cios.Store (RoleBinding StoreError)

/-! ### The loader -/

abbrev Tokens := List (Bytes × Principal)

/-- The stored scopes of a subject, in listing order. -/
def rowScopes (rows : List RoleBinding) (subject : Bytes) : List Bytes :=
  (rows.filter fun rb => rb.subject ≠ [] && rb.scope ≠ [] && rb.subject = subject).map
    RoleBinding.scope

def loadRoleBindingsInto (rows : Except StoreError (List RoleBinding)) (seed : Tokens) :
    Except StoreError Tokens :=
  match rows with
  | .error e => .error (.plain (lit "core: load role bindings: list: " ++ e.text))
  | .ok rows => .ok <| seed.map fun hp =>
    (hp.1, ⟨hp.2.subject, hp.2.role, hp.2.scopes ++ rowScopes rows hp.2.subject, none⟩)

/-- Every principal compiled, or the first error. -/
def newStaticTokenVerifier : Tokens → Except ScopeError Tokens
  | [] => .ok []
  | (h, p) :: rest =>
    match compilePrincipalScopes p with
    | .error e => .error e
    | .ok ready =>
      match newStaticTokenVerifier rest with
      | .error e => .error e
      | .ok byHash => .ok ((h, ready) :: byHash)

/-! ### Scopes that compile -/

/-- A well-formed scope: a dotted glob, or a tenant-bound name whose site and nodes make one. -/
def ScopeForm (s : Bytes) : Prop :=
  if crnPrefix.isPrefixOf s then
    ∃ tid oid sid : Bytes, ∃ nodes : List Bytes, split '/' (s.drop crnPrefix.length) =
        lit "tenant" :: tid :: lit "org" :: oid :: lit "site" :: sid :: nodes ∧
      crnIsTidOrOid tid = true ∧ crnIsTidOrOid oid = true ∧
      DotGlob (sid :: (nodes.map (split '.')).flatten)
  else DotGlob (split '.' s)

theorem split_append_globstar (s : Bytes) :
    split '.' (s ++ lit ".**") = split '.' s ++ [lit "**"] := by
  rw [show lit ".**" = ('.' : UInt8) :: lit "**" by decide, split_append_cons]
  rfl

theorem globSeg_globstar : GlobSeg (lit "**") :=
  ⟨by decide, forall_mem_of_all (by decide), .inl rfl⟩

theorem compileGlob_subtree {s : Bytes} (h : DotGlob (split '.' s)) :
    (compileGlob (s ++ lit ".**")).isSome := by
  rw [compileGlob_isSome, split_append_globstar]
  intro p hp
  rcases mem_append.mp hp with hp | hp
  · exact h p hp
  · obtain rfl : p = lit "**" := by simpa using hp
    exact globSeg_globstar

theorem compileScopeGlob_isOk_of_parts {s tid dotPath : Bytes} {origin : ScopeOrigin}
    (h : scopeParts s = .ok (origin, tid, dotPath)) :
    (compileScopeGlob s).isOk = true ↔ DotGlob (split '.' dotPath) := by
  have hg := @compileGlob_isSome dotPath
  unfold compileScopeGlob
  rw [h]
  cases he : compileGlob dotPath with
  | none => simpa [he, Except.toBool] using hg
  | some exact =>
    have hdot : DotGlob (split '.' dotPath) := hg.mp (by simp [he])
    obtain ⟨sub, hs⟩ := Option.isSome_iff_exists.mp (compileGlob_subtree hdot)
    simp [he, hs, hdot, Except.toBool]

theorem split_dotPath_of_parse {s : Bytes} {c : Crn} (h : parseCRN s = .ok c) :
    split '.' c.dotPath = c.sid :: c.tail := by
  obtain ⟨nodes, -, -, -, hs, ht⟩ := parseCRN_ok h
  refine Crn.split_dotPath ?_ ?_
  · intro hd
    simp only [crnSiteRe, Bool.and_eq_true, all_eq_true] at hs
    exact absurd (hs.2 _ hd) (by decide)
  intro p hp
  rw [crnTail_ok ht, mem_flatten] at hp
  obtain ⟨l, hl, hpl⟩ := hp
  obtain ⟨n, -, rfl⟩ := mem_map.mp hl
  exact not_mem_of_mem_splitOn hpl

/-- **Which scopes compile.**  The compiler accepts exactly the well-formed scopes. -/
theorem compileScopeGlob_isOk {s : Bytes} : (compileScopeGlob s).isOk = true ↔ ScopeForm s := by
  unfold ScopeForm
  by_cases hp : crnPrefix.isPrefixOf s = true
  · rw [if_pos hp]
    constructor
    · intro hok
      cases hc : parseCRN s with
      | error e => simp [compileScopeGlob, scopeParts, hp, hc, Except.toBool] at hok
      | ok c =>
        have hparts : scopeParts s = .ok (.crn, c.tid, c.dotPath) := by
          simp [scopeParts, hp, hc]
        rw [compileScopeGlob_isOk_of_parts hparts, split_dotPath_of_parse hc] at hok
        obtain ⟨nodes, hsplit, ht, ho, -, htail⟩ := parseCRN_ok hc
        exact ⟨c.tid, c.oid, c.sid, nodes, hsplit, ht, ho, crnTail_ok htail ▸ hok⟩
    · rintro ⟨tid, oid, sid, nodes, hsplit, ht, ho, hdot⟩
      have hnodes : ∀ n ∈ nodes, DotGlob (split '.' n) := fun n hn p hpn =>
        hdot p (mem_cons_of_mem _ (mem_flatten.mpr
          ⟨_, mem_map.mpr ⟨n, hn, rfl⟩, hpn⟩))
      have hc := parseCRN_eq_ok hp hsplit ht ho
        (crnSiteRe_of_globSeg (hdot sid (by simp))) (crnTail_of_dotGlob hnodes)
      have hparts : scopeParts s =
          .ok (.crn, tid, (Crn.mk tid oid sid (nodes.map (split '.')).flatten).dotPath) := by
        simp [scopeParts, hp, hc]
      rw [compileScopeGlob_isOk_of_parts hparts, split_dotPath_of_parse hc]
      exact hdot
  · rw [if_neg hp]
    have hparts : scopeParts s =
        .ok (.legacy, (legacyToCRN s transitionTenantSentinel).tid, s) := by
      simp [scopeParts, hp, legacyToCRN_dotPath]
    exact compileScopeGlob_isOk_of_parts hparts

/-! ### Tables that load -/

theorem compileScopeGlobs_isOk : ∀ {scopes : List Bytes},
    (compileScopeGlobs scopes).isOk = true ↔ ∀ s ∈ scopes, ScopeForm s
  | [] => by simp [compileScopeGlobs, Except.isOk, Except.toBool]
  | s :: rest => by
    have hs := @compileScopeGlob_isOk s
    have ih := @compileScopeGlobs_isOk rest
    rw [forall_mem_cons, ← hs, ← ih, compileScopeGlobs]
    cases compileScopeGlob s <;> cases compileScopeGlobs rest <;>
      simp [Except.isOk, Except.toBool]

theorem newStaticTokenVerifier_isOk : ∀ {tokens : Tokens},
    (newStaticTokenVerifier tokens).isOk = true ↔
      ∀ hp ∈ tokens, ∀ s ∈ hp.2.scopes, ScopeForm s
  | [] => by simp [newStaticTokenVerifier, Except.isOk, Except.toBool]
  | (h, p) :: rest => by
    have hs := @compileScopeGlobs_isOk p.scopes
    have ih := @newStaticTokenVerifier_isOk rest
    rw [forall_mem_cons, ← hs, ← ih, newStaticTokenVerifier, compilePrincipalScopes]
    cases compileScopeGlobs p.scopes <;> cases newStaticTokenVerifier rest <;>
      simp [Except.isOk, Except.toBool]

end Cios.Rbac
