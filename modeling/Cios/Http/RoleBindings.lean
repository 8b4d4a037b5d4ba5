import Cios.Http.Admin
import Cios.Rbac.Boot
import Cios.Support.Run

/-!
# HTTP — accepted role bindings and the next boot

`POST /v1/role-bindings` stores the scope it is given, once trimmed and not empty; the next boot
compiles it, and stops when it does not compile.  `Bootable` is what must not be lost: every token
table that loads on its own still loads with the stored bindings added.  A store is bootable exactly
when its grants are well formed (`bootable_iff`, `accepted_posts_bootable_iff`).
-/

namespace Cios.Http.Admin
open Text Effect Runs List
open Cios.Rbac
open Cios.Store

/-! ### Grants -/

def grants (st : FileStore) : List (Bytes × Bytes) := st.roleBindings.rows.map RoleBinding.grant

variable {st st' : FileStore} {g : Bytes × Bytes} {amb : Ambient} {x : Exchange}

theorem mem_grants :
    g ∈ grants st ↔ ∃ rb ∈ st.roleBindings.rows, rb.grant = g := mem_map

theorem mem_map_key_put {t : Keyed.Table RoleBinding.grant} {rb : RoleBinding} :
    (∃ x ∈ (t.put rb).rows, x.grant = g) ↔
      (∃ x ∈ t.rows, x.grant = g) ∨ g = rb.grant := by
  simp only [Keyed.Table.mem_put]
  constructor
  · rintro ⟨x, ⟨hx, -⟩ | rfl, rfl⟩
    · exact .inl ⟨x, hx, rfl⟩
    · exact .inr rfl
  rintro (⟨x, hx, rfl⟩ | rfl)
  · by_cases he : x.grant = rb.grant
    · exact ⟨rb, .inr rfl, he.symm⟩
    · exact ⟨x, .inl ⟨hx, he⟩, rfl⟩
  · exact ⟨rb, .inr rfl, rfl⟩

theorem putRoleBinding_ok {rb : RoleBinding} (hs : rb.subject ≠ []) (hc : rb.scope ≠ [])
    (h : (st.putRoleBinding amb rb).1 = .ok ()) :
    g ∈ grants (st.putRoleBinding amb rb).2 ↔ g ∈ grants st ∨ g = rb.grant := by
  rcases FileStore.putRoleBinding_cases amb st rb hs hc with ⟨row, hrow, -, hput⟩ | ⟨e, hput, -⟩
  · rw [hput, mem_grants, mem_grants, mem_map_key_put, hrow]
  · rw [hput] at h
    cases h

theorem deleteRoleBinding_grants {subject scope : Bytes} :
    grants (st.deleteRoleBinding amb subject scope).2 ⊆ grants st := by
  unfold FileStore.deleteRoleBinding
  split
  · exact List.Subset.refl _
  split
  · cases hs : amb.save with
    | none =>
      rw [FileStore.commit_saved hs]
      exact (filter_sublist.map _).subset
    | some e =>
      rw [FileStore.commit_failed hs]
      exact List.Subset.refl _
  · exact List.Subset.refl _

/-! ### Stores that boot -/

/-- The core boots from the store: every token table that loads alone loads with its bindings. -/
def Bootable (st : FileStore) : Prop :=
  ∀ seed, (newStaticTokenVerifier seed).isOk = true →
    ∃ tokens, loadRoleBindingsInto (.ok st.listAllRoleBindings) seed = .ok tokens ∧
      (newStaticTokenVerifier tokens).isOk = true

theorem mem_rowScopes {subject scope : Bytes} :
    scope ∈ rowScopes st.listAllRoleBindings subject ↔
      (subject, scope) ∈ grants st ∧ subject ≠ [] ∧ scope ≠ [] := by
  have hmem : ∀ rb, rb ∈ st.listAllRoleBindings ↔ rb ∈ st.roleBindings.rows :=
    fun rb => (perm_insertionSort _ _).mem_iff
  simp only [rowScopes, grants, mem_map, mem_filter, hmem, Bool.and_eq_true,
    decide_eq_true_eq, RoleBinding.grant, Prod.mk.injEq]
  constructor
  · rintro ⟨rb, ⟨hin, ⟨hs, hc⟩, rfl⟩, rfl⟩
    exact ⟨⟨rb, hin, rfl, rfl⟩, by simpa using hs, by simpa using hc⟩
  · rintro ⟨⟨rb, hin, rfl, rfl⟩, hs, hc⟩
    exact ⟨rb, ⟨hin, ⟨by simpa using hs, by simpa using hc⟩, rfl⟩, rfl⟩

/-- **Which stores boot**: those whose grants are all well formed. -/
theorem bootable_iff : Bootable st ↔ ∀ g ∈ grants st, g.1 ≠ [] → g.2 ≠ [] → ScopeForm g.2 := by
  constructor
  · intro h g hg hs hc
    -- A token for the grant's subject that has no scope of its own.
    obtain ⟨tokens, hl, hok⟩ := h [("h", ⟨g.1, .viewer, [], none⟩)] rfl
    cases hl
    rw [newStaticTokenVerifier_isOk] at hok
    refine hok _ (mem_singleton.mpr rfl) g.2 ?_
    simpa using mem_rowScopes.mpr ⟨hg, hs, hc⟩
  · intro h seed hseed
    refine ⟨_, rfl, ?_⟩
    rw [newStaticTokenVerifier_isOk] at hseed ⊢
    intro hp hin s hs
    obtain ⟨hp₀, hin₀, rfl⟩ := mem_map.mp hin
    rcases mem_append.mp hs with hs | hs
    · exact hseed hp₀ hin₀ s hs
    · obtain ⟨hg, hne, hne'⟩ := mem_rowScopes.mp hs
      exact h _ hg hne hne'

/-! ### Accepted requests -/

/-- One request to `/v1/role-bindings`, with the library and the surroundings it finds. -/
structure Exchange where
  std : Std
  req : Request
  ctx : Ctx
  amb : Ambient

def Exchange.run (x : Exchange) (st : FileStore) : Reply Body × FileStore :=
  (serveRoleBindings x.std x.req x.ctx).exec (FileStore.answer x.amb) st

/-- An accepted `POST` or `DELETE`. -/
def Exchange.step (st : FileStore) (x : Exchange) (st' : FileStore) : Prop :=
  (x.req.method = .post ∨ x.req.method = .delete) ∧ (x.run st).1.accepted = true ∧
    st' = (x.run st).2

def Exchange.posts (x : Exchange) (w : RoleBindingWriteRequest) : Prop :=
  x.req.method = .post ∧ Sent x.std.roleBindingWrite x.req w

/-- What an accepted `POST` has been through, and what it did to the grants. -/
theorem put_accepted {std : Std} {r : Request} {c : Ctx} :
    (serveRoleBindingsPut std r c).Ends (FileStore.answer amb) st fun reply st' =>
      reply.accepted = true → ∃ w, Sent std.roleBindingWrite r w ∧
        trimSpace w.subject ≠ [] ∧ trimSpace w.scope ≠ [] ∧
        ∀ g, g ∈ grants st' ↔ g ∈ grants st ∨ g = (trimSpace w.subject, trimSpace w.scope) := by
  refine ends_requireOrgAdmin (fun _ _ => nofun) fun p _ _ => ?_
  refine ends_decodeBody (fun _ _ => nofun) fun w hw => ?_
  dsimp only
  split
  · exact nofun
  rename_i hne
  rw [not_or] at hne
  generalize (if trimSpace w.origin = [] then lit "legacy" else trimSpace w.origin) = origin
  split
  · exact nofun
  rw [Prog.ends_call, FileStore.answer]
  split
  · exact nofun
  rename_i hput
  have hg := fun g => putRoleBinding_ok hne.1 hne.2 hput (g := g)
  -- The row is read back, which changes nothing.
  rw [Prog.ends_call, FileStore.answer, onOk]
  split <;> exact fun _ => ⟨w, hw, hne.1, hne.2, hg⟩

theorem delete_grants {r : Request} {c : Ctx} :
    (serveRoleBindingsDelete r c).Ends (FileStore.answer amb) st fun _ st' =>
      grants st' ⊆ grants st := by
  refine ends_requireOrgAdmin (fun _ _ => List.Subset.refl _) fun p _ _ => ?_
  dsimp only
  split
  · exact List.Subset.refl _
  · rw [Prog.ends_call, FileStore.answer]
    split <;> exact deleteRoleBinding_grants

theorem Exchange.step_cases (h : Exchange.step st x st') :
    (∃ w, x.posts w ∧ trimSpace w.subject ≠ [] ∧ trimSpace w.scope ≠ [] ∧
      ∀ g, g ∈ grants st' ↔ g ∈ grants st ∨ g = (trimSpace w.subject, trimSpace w.scope)) ∨
    ((∀ w, ¬ x.posts w) ∧ grants st' ⊆ grants st) := by
  obtain ⟨hm, hacc, rfl⟩ := h
  rcases hm with hm | hm
  · left
    rw [Exchange.run, serveRoleBindings, hm] at hacc ⊢
    obtain ⟨w, hw, hs, hc, hg⟩ := put_accepted hacc
    exact ⟨w, ⟨hm, hw⟩, hs, hc, hg⟩
  · right
    refine ⟨fun w hw => ?_, ?_⟩
    · rw [Exchange.posts, hm] at hw
      exact absurd hw.1 (by decide)
    · rw [Exchange.run, serveRoleBindings, hm]
      exact delete_grants

/-! ### Runs -/

def Exchange.PostsWellFormed (x : Exchange) : Prop :=
  ∀ w, x.posts w → ScopeForm (trimSpace w.scope)

def GrantsWellFormed (st : FileStore) : Prop := ∀ g ∈ grants st, ScopeForm g.2

theorem GrantsWellFormed.step (hi : GrantsWellFormed st) (hx : x.PostsWellFormed)
    (h : Exchange.step st x st') : GrantsWellFormed st' := by
  rcases Exchange.step_cases h with ⟨w, hw, -, -, hg⟩ | ⟨-, hsub⟩
  · intro g hgin
    rcases (hg g).mp hgin with hold | rfl
    · exact hi g hold
    · exact hx w hw
  · exact fun g hgin => hi g (hsub hgin)

theorem GrantsWellFormed.bootable (h : GrantsWellFormed st) : Bootable st :=
  bootable_iff.mpr fun g hg _ _ => h g hg

/-- A malformed scope that is accepted leaves a store that does not boot. -/
theorem Exchange.not_bootable (h : Exchange.step st x st') (hx : ¬ x.PostsWellFormed) :
    ¬ Bootable st' := by
  rw [Exchange.PostsWellFormed] at hx
  push Not at hx
  obtain ⟨w, hw, hbad⟩ := hx
  rcases Exchange.step_cases h with ⟨w', hw', hs, hc, hg⟩ | ⟨hno, -⟩
  · obtain rfl := hw.2.unique hw'.2
    intro hboot
    exact hbad (bootable_iff.mp hboot _ ((hg _).mpr (.inr rfl)) hs hc)
  · exact absurd hw (hno w)

/-- **Accepted role bindings and the next boot.**  From the empty table, the core boots from every
state of a run of accepted requests exactly when every posted scope was well formed. -/
theorem accepted_posts_bootable_iff {xs : List Exchange} {st : FileStore}
    (h : Run Exchange.step FileStore.empty xs st) :
    (∀ ys zs st', xs = ys ++ zs → Run Exchange.step FileStore.empty ys st' → Bootable st') ↔
      ∀ x ∈ xs, x.PostsWellFormed := by
  constructor
  · intro hboot x hx
    by_contra hbad
    obtain ⟨ys, zs, rfl⟩ := append_of_mem hx
    obtain ⟨s₁, hys, hrest⟩ := h.split
    cases hrest with
    | more hstep _ =>
      refine Exchange.not_bootable hstep hbad (hboot (ys ++ [x]) zs _ (by simp) ?_)
      exact hys.trans (.more hstep (.refl _))
  · rintro hall ys zs st' rfl hys
    have hinit : GrantsWellFormed FileStore.empty := nofun
    have hinv : GrantsWellFormed st' :=
      hys.invariant_of_labels (G := Exchange.PostsWellFormed) (fun hi hx h => hi.step hx h)
        (fun x hx => hall x (mem_append_left _ hx)) hinit
    exact hinv.bootable

def postScope (scope : Bytes) : Exchange where
  std := { Std.plain with roleBindingWrite := fun _ => .ok ⟨"svc:x", scope, []⟩ }
  req := ⟨.post, "/v1/role-bindings", [], [], [], [], [], .ok []⟩
  ctx := ⟨some ⟨"svc:admin", .admin, [], none⟩, none⟩
  amb := ⟨1, [], [], [], "rb_1", none⟩

theorem accepted_posts_bootable_iff_site01 :
    (∀ ys zs st', [postScope "site01.**"] = ys ++ zs →
        Run Exchange.step FileStore.empty ys st' → Bootable st') ↔
      ∀ x ∈ [postScope "site01.**"], x.PostsWellFormed :=
  accepted_posts_bootable_iff (.more ⟨.inl rfl, by decide, rfl⟩ (.refl _))

/-- `POST` with scope `Foo` is accepted, and leaves a store from which the core does not boot. -/
theorem post_foo_stops_boot :
    ∃ st, Run Exchange.step FileStore.empty [postScope "Foo"] st ∧ ¬ Bootable st := by
  have hstep : Exchange.step FileStore.empty (postScope "Foo")
      ((postScope "Foo").run FileStore.empty).2 := ⟨.inl rfl, by decide, rfl⟩
  refine ⟨_, .more hstep (.refl _), Exchange.not_bootable hstep fun h => ?_⟩
  have hform := h ⟨"svc:x", "Foo", []⟩ ⟨rfl, [], rfl, rfl⟩
  exact absurd (compileScopeGlob_isOk.mpr hform) (by decide)

end Cios.Http.Admin
