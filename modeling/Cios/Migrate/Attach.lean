import Cios.Migrate.Decisions
import Mathlib.Algebra.Order.BigOperators.Group.List
import Mathlib.Algebra.Order.Group.Nat

/-!
# Migration — attachments, and a second run

Pass 2 attaches every attributed site to the organisation `default` of its tenant, whether or not
the site is already attached to another one (`attachments_kept_iff`).  After a run that comes to its
end nothing is left to do (`Settled`), and a further run changes nothing at all, even if it fails on
the way (`Settled.run`).
-/

namespace Cios.Migrate
open Text List Backend Option
open Cios.Store
open Effect.Prog
open Keyed (Table)

variable {w v v₁ v' w' : Holding} {b : Backend}

/-! ### Fresh ids -/

/-- The drawn id is new: no organisation has it, and no site refers to it. -/
def Outside.Fresh (out : Outside) (w : Holding) : Prop :=
  (∀ o ∈ w.store.orgs.rows, o.id ≠ out.newOrgID) ∧
    ∀ so ∈ w.store.siteOrgs.rows, so.orgID ≠ out.newOrgID

def Backend.freshStep (b : Backend) (op : MigrateOp) (w : Holding) (r : op.Ret) (w' : Holding) :
    Prop :=
  ∃ out : Outside, out.Fresh w ∧ b.answer out op w = (r, w')

theorem Backend.freshStep.step {op : MigrateOp} {r : op.Ret} (h : b.freshStep op w r w') :
    b.step op w r w' := by
  obtain ⟨out, -, h⟩ := h
  exact ⟨out, h⟩

theorem always_fresh {α : Type} {p : Migration α} {Q : α → Holding → Prop}
    (h : Always b.step w Q p) : Always b.freshStep w Q p :=
  fun a w' hs => h a w' (hs.mono fun _ _ _ _ => freshStep.step)

/-! ### Default organisations -/

variable {t d principal site : Bytes} {sites : Names}

theorem defaultOrg_eq_none : defaultOrg w t = none ↔
    ∀ o ∈ w.store.orgs.rows, ¬ (o.tenantID = t ∧ o.name = defaultOrgName) := by
  simp only [defaultOrg, map_eq_none_iff, find?_eq_none, mem_listOrgs,
    decide_eq_true_eq]
  exact ⟨fun h o ho ht => h o ⟨ho, ht.1⟩ ht.2, fun h o ho hn => h o ho.1 ⟨ho.2, hn⟩⟩

theorem defaultOrg_mem (h : defaultOrg w t = some d) :
    ∃ o ∈ w.store.orgs.rows, o.id = d ∧ o.tenantID = t := by
  obtain ⟨o, ho, rfl⟩ := map_eq_some_iff.mp h
  obtain ⟨hin, ht⟩ := mem_listOrgs.mp (mem_of_find?_eq_some ho)
  exact ⟨o, hin, rfl, ht⟩

theorem defaultOrg_put {o : Org} (hname : o.name = defaultOrgName)
    (hnone : defaultOrg v o.tenantID = none) (hfresh : ∀ x ∈ v.store.orgs.rows, x.id ≠ o.id)
    (horgs : v'.store.orgs = v.store.orgs.put o) (t : Bytes) :
    defaultOrg v' t = if t = o.tenantID then some o.id else defaultOrg v t := by
  split
  · rename_i ht
    subst ht
    have hmem : o ∈ v'.store.orgs.rows := by
      rw [horgs]
      exact Table.mem_put.mpr (.inr rfl)
    cases hd : defaultOrg v' o.tenantID with
    | none => exact absurd ⟨rfl, hname⟩ (defaultOrg_eq_none.mp hd o hmem)
    | some d =>
      obtain ⟨x, hx, rfl⟩ := map_eq_some_iff.mp hd
      obtain ⟨hin, ht⟩ := mem_listOrgs.mp (mem_of_find?_eq_some hx)
      rw [horgs] at hin
      rcases Table.mem_put.mp hin with ⟨hin, -⟩ | rfl
      · refine absurd ⟨ht, ?_⟩ (defaultOrg_eq_none.mp hnone x hin)
        simpa using find?_some hx
      · rfl
  · rename_i ht
    have hrows : v'.store.orgs.rows = v.store.orgs.rows ++ [o] := by
      rw [horgs]
      change (v.store.orgs.erase o.id).rows ++ [o] = _
      rw [Table.erase_rows_of_get_none (Table.get_eq_none.mpr hfresh)]
    have hlist : v'.store.listOrgs t = v.store.listOrgs t := by
      rw [FileStore.listOrgs, hrows, filter_append, filter_singleton]
      simp [Ne.symm ht, FileStore.listOrgs]
    rw [defaultOrg, hlist]
    rfl

/-! ### Pass 1 -/

/-- The default of a tenant afterwards: the one it had, or a new one that no site refers to. -/
def DefaultFrom (w : Holding) (t d : Bytes) : Prop :=
  defaultOrg w t = some d ∨
    defaultOrg w t = none ∧ ∀ so ∈ w.store.siteOrgs.rows, so.orgID ≠ d

/-- From `w` to `v` only default organisations have come in, for tenants that had none. -/
structure Ensured (w v : Holding) : Prop where
  tenants : v.store.tenants = w.store.tenants
  siteOrgs : v.store.siteOrgs = w.store.siteOrgs
  assets : v.assets = w.assets
  orgs : ∀ so ∈ w.store.siteOrgs.rows, v.store.orgs.get so.orgID = w.store.orgs.get so.orgID
  kept : ∀ t d, defaultOrg w t = some d → defaultOrg v t = some d
  added : ∀ t d, defaultOrg v t = some d → DefaultFrom w t d

theorem Ensured.refl (w : Holding) : Ensured w w :=
  ⟨rfl, rfl, rfl, fun _ _ => rfl, fun _ _ => id, fun _ _ => .inl⟩

/-- A call of pass 1: the defaults so far stay, and one that is answered is there. -/
theorem Ensured.createOrg {p : Bytes} {r : Except StoreError Org} (h : Ensured w v)
    (hstep : b.freshStep (.createOrg t defaultOrgName p) v r v') :
    Ensured w v' ∧ (∀ t d, defaultOrg v t = some d → defaultOrg v' t = some d) ∧
      ∀ org, r = .ok org → defaultOrg v' t = some org.id := by
  obtain ⟨out, hfresh, hstep⟩ := hstep
  rcases answer_createOrg hstep with ⟨rfl, e, rfl, -⟩ | ⟨hno, ⟨auds, hm⟩, hok⟩
  · exact ⟨h, fun _ _ => id, nofun⟩
  have hnone : defaultOrg v t = none := defaultOrg_eq_none.mpr hno
  have hput : ∀ t', defaultOrg v' t' = if t' = t then some out.newOrgID else defaultOrg v t' :=
    defaultOrg_put (o := ⟨out.newOrgID, t, defaultOrgName, out.now⟩) rfl hnone hfresh.1
      (by rw [hm.store])
  have hstays : ∀ t' d, defaultOrg v t' = some d → defaultOrg v' t' = some d := by
    intro t' d hd
    rw [hput t', if_neg]
    · exact hd
    · rintro rfl
      cases hnone.symm.trans hd
  refine ⟨⟨?_, ?_, ?_, fun so hso => ?_, fun t' d hd => hstays t' d (h.kept t' d hd), ?_⟩, hstays,
    fun org horg => ?_⟩
  · rw [hm.store]
    exact h.tenants
  · rw [hm.store]
    exact h.siteOrgs
  · exact hm.assets.trans h.assets
  · have hne : so.orgID ≠ out.newOrgID := hfresh.2 so (h.siteOrgs ▸ hso)
    rw [hm.store, ← h.orgs so hso]
    exact Table.get_put_other hne
  · intro t' d hd
    rw [hput t'] at hd
    split at hd
    · rename_i ht
      cases hd
      subst ht
      refine .inr ⟨?_, fun so hso => hfresh.2 so (h.siteOrgs ▸ hso)⟩
      cases hw : defaultOrg w t' with
      | none => rfl
      | some d => cases hnone.symm.trans (h.kept t' d hw)
    · exact h.added t' d hd
  · rw [hok org horg, hput t, if_pos rfl]

/-- The collected ids are those of default organisations. -/
def Defaults (v : Holding) (ids : Names) : Prop :=
  ∀ t d, ids.find t = some d → defaultOrg v t = some d

/-- What pass 1 comes to from the ids it has, over these tenants. -/
def Collected (w : Holding) (ids : Names) (tenants : List Tenant)
    (r : MigrateReport × Except MigrateError Names) (v : Holding) : Prop :=
  Ensured w v ∧ ∀ ids', r.2 = .ok ids' → Defaults v ids' ∧
    ∀ t, (ids.find t).isSome = true ∨ t ∈ tenants.map Tenant.id → (ids'.find t).isSome = true

/-- Pass 1, by induction over the tenants: the ids it collects are those of the defaults. -/
theorem ensureDefaultOrgs_ensured {orgs : OrgsByTenant} (horgs : ListsAll w orgs) :
    ∀ {tenants : List Tenant} {rep : MigrateReport} {ids : Names}
      {v : Holding}, (∀ t ∈ tenants, t ∈ w.store.tenants.rows) → Ensured w v → Defaults v ids →
      Always b.freshStep v (Collected w ids tenants)
        (ensureDefaultOrgs principal orgs tenants rep ids)
  | [], _, ids, v, _, hv, hids => by
    refine always_done.mpr ⟨hv, fun ids' h => ?_⟩
    cases h
    exact ⟨hids, fun t ht => ht.resolve_right not_mem_nil⟩
  | t :: rest, rep, ids, v, ht, hv, hids => by
    rw [forall_mem_cons] at ht
    rw [ensureDefaultOrgs, always_call]
    intro r v₁ hstep
    obtain ⟨hv₁, hstays, hok⟩ := hv.createOrg hstep
    -- Both ways of going on put the id of the tenant's default.
    have hnext : ∀ {rep : MigrateReport} {d : Bytes}, defaultOrg v₁ t.id = some d →
        Always b.freshStep v₁ (Collected w ids (t :: rest))
          (ensureDefaultOrgs principal orgs rest rep (ids.put (t.id, d))) := by
      intro rep d hd
      refine (ensureDefaultOrgs_ensured horgs ht.2 hv₁ ?_).mono ?_
      · intro x d' hx
        rw [Names.find_put] at hx
        split at hx
        · rename_i hxt
          cases hx
          exact hxt ▸ hd
        · exact hstays x d' (hids x d' hx)
      · rintro r v' ⟨hv', hr⟩
        refine ⟨hv', fun ids' hids' => ⟨(hr ids' hids').1, fun x hx => ?_⟩⟩
        refine (hr ids' hids').2 x ?_
        rw [Names.find_put]
        split
        · exact .inl rfl
        · rename_i hxt
          rw [map_cons, mem_cons] at hx
          exact hx.imp_right fun h => h.resolve_left hxt
    rcases r with e | org
    · simp only
      split
      · split
        · rename_i org hfind
          refine hnext (hv₁.kept t.id org.id ?_)
          rw [horgs.orgs ht.1] at hfind
          rw [defaultOrg, hfind]
          rfl
        · exact always_done.mpr ⟨hv₁, by rintro _ ⟨⟩⟩
      · exact always_done.mpr ⟨hv₁, by rintro _ ⟨⟩⟩
    · exact hnext (hok org rfl)

/-! ### Pass 2 -/

theorem orgOf_eq_some : orgOf w site = some d ↔
    ∃ so ∈ w.store.siteOrgs.rows, so.site = site ∧ so.orgID = d := by
  simp only [orgOf, map_eq_some_iff, Table.get_eq_some, and_assoc]

theorem orgOf_congr (h : v.store.siteOrgs = w.store.siteOrgs) (site : Bytes) :
    orgOf v site = orgOf w site := by
  rw [orgOf, orgOf, h]

/-- From `v₁` to `v` only attachments have changed. -/
structure Attaching (v₁ v : Holding) : Prop where
  tenants : v.store.tenants = v₁.store.tenants
  orgs : v.store.orgs = v₁.store.orgs
  assets : v.assets = v₁.assets

theorem Attaching.refl (v : Holding) : Attaching v v := ⟨rfl, rfl, rfl⟩

theorem Attaching.trans (h : Attaching v₁ v) (h' : Attaching v v') : Attaching v₁ v' :=
  ⟨h'.tenants.trans h.tenants, h'.orgs.trans h.orgs, h'.assets.trans h.assets⟩

theorem step_attachSiteToOrg {p : Bytes} {r : Except StoreError Unit}
    (h : b.step (.attachSiteToOrg site d p) v r v') :
    Attaching v v' ∧ (∀ s, orgOf v' s = orgOf v s ∨ s = site ∧ orgOf v' s = some d) ∧
      (r = .ok () → orgOf v' site = some d) := by
  obtain ⟨out, h⟩ := h
  rcases answer_attachSiteToOrg h with ⟨rfl, hok⟩ | ⟨-, c, u, auds, hm⟩
  · exact ⟨.refl _, fun _ => .inl rfl, fun hr => orgOf_eq_some.mpr (hok hr).2⟩
  have hself : orgOf v' site = some d := by
    rw [orgOf, hm.store]
    exact congrArg (Option.map SiteOrg.orgID) Table.get_put_self
  refine ⟨⟨?_, ?_, hm.assets⟩, fun s => ?_, fun _ => hself⟩
  · rw [hm.store]
  · rw [hm.store]
  by_cases hs : s = site
  · exact .inr ⟨hs, hs ▸ hself⟩
  · refine .inl ?_
    rw [orgOf, hm.store]
    exact congrArg (Option.map SiteOrg.orgID) (Table.get_put_other hs)

/-- Where pass 2 puts a site. -/
def Target (w v₁ : Holding) (site d : Bytes) : Prop :=
  ∃ t, attribution w site = some t ∧ defaultOrg v₁ t = some d

theorem Target.unique {d' : Bytes} (h : Target w v₁ site d) (h' : Target w v₁ site d') :
    d = d' := by
  obtain ⟨x, hx, hd⟩ := h
  obtain ⟨y, hy, hd'⟩ := h'
  cases hx.symm.trans hy
  exact some.inj (hd.symm.trans hd')

def AtTarget (w v₁ v : Holding) (site : Bytes) : Prop :=
  ∃ d, Target w v₁ site d ∧ orgOf v site = some d

/-- Pass 2 leaves each attachment or moves it to its target, and in the end all of `order` are
there. -/
structure Targeted (w v₁ v : Holding) (order : List Bytes) (done : Prop) (v' : Holding) : Prop where
  attaching : Attaching v v'
  moved : ∀ site, orgOf v' site = orgOf v site ∨ AtTarget w v₁ v' site
  all : done → ∀ site ∈ order, AtTarget w v₁ v' site

/-- A site that is at its target stays there. -/
theorem Targeted.cons {v₂ : Holding} {rest : List Bytes} {done : Prop} (hat : Attaching v v₂)
    (hmoved : ∀ s, orgOf v₂ s = orgOf v s ∨ AtTarget w v₁ v₂ s) (hhere : AtTarget w v₁ v₂ site)
    (h : Targeted w v₁ v₂ rest done v') : Targeted w v₁ v (site :: rest) done v' where
  attaching := hat.trans h.attaching
  moved s := by
    rcases h.moved s with hs | hs
    · rw [AtTarget, hs]
      exact hmoved s
    · exact .inr hs
  all hdone := by
    refine forall_mem_cons.mpr ⟨?_, h.all hdone⟩
    rcases h.moved site with hs | hs
    · rw [AtTarget, hs]
      exact hhere
    · exact hs

/-- Pass 2, by induction over the sites. -/
theorem attachSites_targets {ids : Names} {siteOrgs : List SiteOrg}
    (hsites : ∀ site, sites.find site = attribution w site) (hids : Defaults v₁ ids)
    (hso : siteOrgs.Perm w.store.siteOrgs.rows) :
    ∀ {order : List Bytes} {rep : MigrateReport} {v : Holding},
      (∀ site ∈ order, (attribution w site).isSome = true) →
      (∀ site, orgOf v site = orgOf w site ∨ AtTarget w v₁ v site) →
      Always b.step v (fun r v' => Targeted w v₁ v order (r.2 = .ok ()) v')
        (attachSites principal sites ids siteOrgs order rep)
  | [], _, v, _, _ => always_done.mpr ⟨.refl v, fun _ => .inl rfl, by simp⟩
  | site :: rest, rep, v, hattr, hv => by
    rw [forall_mem_cons] at hattr
    obtain ⟨t, ht⟩ := isSome_iff_exists.mp hattr.1
    have hrest : ∀ {rep : MigrateReport} {v₂ : Holding}, Attaching v v₂ →
        (∀ s, orgOf v₂ s = orgOf v s ∨ AtTarget w v₁ v₂ s) → AtTarget w v₁ v₂ site →
        Always b.step v₂ (fun r v' => Targeted w v₁ v (site :: rest) (r.2 = .ok ()) v')
          (attachSites principal sites ids siteOrgs rest rep) := by
      intro rep v₂ hat hmoved hhere
      refine (attachSites_targets hsites hids hso hattr.2 fun s => ?_).mono fun _ _ =>
        .cons hat hmoved hhere
      rcases hmoved s with h | h
      · rw [AtTarget, h]
        exact hv s
      · exact .inr h
    rw [attachSites, hsites, ht]
    simp only [getD_some]
    split
    · exact always_done.mpr ⟨.refl v, fun _ => .inl rfl, by rintro ⟨⟩⟩
    rename_i d hd
    have htarget : Target w v₁ site d := ⟨t, ht, hids t d hd⟩
    split
    · rename_i hany
      refine hrest (.refl v) (fun _ => .inl rfl) ⟨d, htarget, ?_⟩
      obtain ⟨so, hin, hsod⟩ := any_eq_true.mp hany
      rw [Bool.and_eq_true, decide_eq_true_eq, decide_eq_true_eq] at hsod
      have hw : orgOf w site = some d :=
        orgOf_eq_some.mpr ⟨so, hso.mem_iff.mp hin, hsod.1, hsod.2⟩
      rcases hv site with h | ⟨d', htarget', h⟩
      · exact h.trans hw
      · rw [h, htarget'.unique htarget]
    · rw [always_call]
      intro r v₂ hstep
      obtain ⟨hat, hmoved, hok⟩ := step_attachSiteToOrg hstep
      have hmoved' : ∀ s, orgOf v₂ s = orgOf v s ∨ AtTarget w v₁ v₂ s := by
        intro s
        refine (hmoved s).imp_right ?_
        rintro ⟨rfl, h⟩
        exact ⟨d, htarget, h⟩
      rcases r with e | ⟨⟩
      · exact always_done.mpr ⟨hat, hmoved', by rintro ⟨⟩⟩
      · exact hrest hat hmoved' ⟨d, htarget, hok rfl⟩

/-! ### Pass 3 -/

/-- The tenants, organisations, attachments and assets are as they were. -/
structure Beside (v v' : Holding) : Prop extends Attaching v v' where
  siteOrgs : v'.store.siteOrgs = v.store.siteOrgs

theorem Beside.refl (v : Holding) : Beside v v := ⟨.refl v, rfl⟩

theorem Beside.of_moved {st : FileStore} (h : v.Moved st v') (ht : st.tenants = v.store.tenants)
    (ho : st.orgs = v.store.orgs) (hs : st.siteOrgs = v.store.siteOrgs) : Beside v v' :=
  ⟨⟨h.store ▸ ht, h.store ▸ ho, h.assets⟩, h.store ▸ hs⟩

theorem Beside.trans {v'' : Holding} (h : Beside v v') (h' : Beside v' v'') : Beside v v'' :=
  ⟨h.toAttaching.trans h'.toAttaching, h'.siteOrgs.trans h.siteOrgs⟩

/-- No row of the plan is left to be rewritten, but for those still to come. -/
def Pending (sites : Names) (rows : List RoleBinding) (v : Holding) : Prop :=
  ∀ row ∈ v.store.roleBindings.rows,
    (∀ newScope, planFor sites row ≠ .rewrite newScope) ∨ row ∈ rows

theorem planFor_crn {row : RoleBinding} (h : row.origin = "crn") (newScope : Bytes) :
    planFor sites row ≠ .rewrite newScope := by
  rw [planFor, if_pos h]
  nofun

theorem planFor_congr {sites' : Names} (h : ∀ site, sites.find site = sites'.find site)
    (row : RoleBinding) : planFor sites row = planFor sites' row := by
  have hfind : sites.find = sites'.find := funext h
  rw [planFor, planFor, hfind]

theorem rewriteRow_pending {rb : RoleBinding} {rest : List RoleBinding} {newScope : Bytes}
    (h : Pending sites (rb :: rest) v) :
    Always b.step v (fun r v' => Beside v v' ∧ ∀ d, r = .ok d → Pending sites rest v')
      (rewriteRow rb newScope) := by
  refine (rewriteRow_always (fun v' => Beside v v' ∧ Pending sites (rb :: rest) v')
    (fun v' => Beside v v' ∧ Pending sites rest v') ?_ ?_ ?_).mono ?_
  · -- The row that goes in is of the other origin.
    intro row v' _ ho hm
    refine ⟨.of_moved hm rfl rfl rfl, fun x hx => ?_⟩
    rw [hm.store] at hx
    rcases Table.mem_put.mp hx with ⟨hx, -⟩ | rfl
    · exact h x hx
    · exact .inl (planFor_crn ho)
  · rintro v' v'' ⟨hb, hp⟩ hm
    refine ⟨hb.trans (.of_moved hm rfl rfl rfl), fun x hx => ?_⟩
    rw [hm.store] at hx
    obtain ⟨hx, hne⟩ := Table.mem_erase.mp hx
    refine (hp x hx).imp_right fun hin => (mem_cons.mp hin).resolve_left ?_
    rintro rfl
    exact hne rfl
  · exact fun _ hv => ⟨hv.1.trans ⟨⟨rfl, rfl, rfl⟩, rfl⟩, hv.2⟩
  · rintro r v' ⟨rfl | hv | hv, hd⟩
    · exact ⟨.refl _, fun d hr => (hd d hr).2⟩
    · exact ⟨hv.1, fun d hr => (hd d hr).2⟩
    · exact ⟨hv.1, fun _ _ => hv.2⟩

theorem rewriteRows_pending : ∀ {rows : List RoleBinding} {rep : MigrateReport}
    {v : Holding}, Pending sites rows v →
    Always b.step v (fun r v' => Beside v v' ∧ (r.2 = .ok () → Pending sites [] v'))
      (rewriteRows sites rows rep)
  | [], _, v, h => always_done.mpr ⟨.refl v, fun _ => h⟩
  | rb :: rest, rep, v, h => by
    -- A row that is passed over has no plan to rewrite it.
    have hskip : (∀ newScope, planFor sites rb ≠ .rewrite newScope) → Pending sites rest v := by
      intro hrb x hx
      rcases h x hx with hx | hx
      · exact .inl hx
      · rcases mem_cons.mp hx with rfl | hx
        · exact .inl hrb
        · exact .inr hx
    rw [rewriteRows]
    split
    iterate 3 next hplan => exact rewriteRows_pending (hskip fun _ => by simp [hplan])
    · refine Always.bind (rewriteRow_pending h) ?_
      rintro (e | d) v' ⟨hb, hp⟩
      · exact always_done.mpr ⟨hb, by rintro ⟨⟩⟩
      · exact (rewriteRows_pending (hp d rfl)).mono fun r v'' hr => ⟨hb.trans hr.1, hr.2⟩

/-! ### The attribution afterwards -/

theorem attribution_eq : attribution w site =
    ((orgOf w site).bind (orgTenant w)).or (fromAssets w.store.tenants.rows w.assets site) := by
  rw [attribution, orgOf, bind_map]
  rfl

theorem orgTenant_congr {orgID : Bytes} (ht : v.store.tenants = w.store.tenants)
    (ho : v.store.orgs.get orgID = w.store.orgs.get orgID) :
    orgTenant v orgID = orgTenant w orgID := by
  rw [orgTenant, orgTenant, ht, ho]

/-- **The attribution is stable.**  Once attributed sites are at their targets, all stay
attributed. -/
theorem attribution_stable (hv₁ : Ensured w v₁) (hat : Attaching v₁ w')
    (hmoved : ∀ site, orgOf w' site = orgOf w site ∨ AtTarget w v₁ w' site)
    (hall : ∀ site, (attribution w site).isSome = true → AtTarget w v₁ w' site) (site : Bytes) :
    attribution w' site = attribution w site := by
  have htenants : w'.store.tenants = w.store.tenants := hat.tenants.trans hv₁.tenants
  have hassets : w'.assets = w.assets := hat.assets.trans hv₁.assets
  rw [attribution_eq, htenants, hassets]
  cases hw : attribution w site with
  | none =>
    have hsame : orgOf w' site = orgOf w site := by
      rcases hmoved site with h | ⟨d, ⟨t, ht, -⟩, -⟩
      · exact h
      · cases hw.symm.trans ht
    rw [attribution_eq] at hw
    rw [hsame, ← hw]
    congr 1
    cases horg : orgOf w site with
    | none => rfl
    | some d =>
      obtain ⟨so, hso, -, rfl⟩ := orgOf_eq_some.mp horg
      exact orgTenant_congr htenants (by rw [hat.orgs, hv₁.orgs so hso])
  | some t =>
    obtain ⟨d, ⟨t', ht', hd⟩, horg⟩ := hall site (by rw [hw]; rfl)
    cases hw.symm.trans ht'
    obtain ⟨o, ho, hid, hot⟩ := defaultOrg_mem hd
    rw [horg]
    by_cases hne : t = []
    · -- The empty id is attributed through an asset only, before and after.
      have hnone : ∀ (x : Holding) (y : Bytes), orgTenant x y ≠ some t := fun x y h =>
        (orgTenant_eq_some.mp h).1 hne
      rw [attribution_eq, or_eq_some_iff] at hw
      rcases hw with hw | ⟨-, hw⟩
      · obtain ⟨y, -, hy⟩ := bind_eq_some_iff.mp hw
        exact absurd hy (hnone w y)
      rw [hw, bind_some]
      cases hy : orgTenant w' d with
      | none => rfl
      | some t' =>
        obtain ⟨hne', -, o', ho', hid', hot'⟩ := orgTenant_eq_some.mp hy
        rw [hat.orgs] at ho'
        obtain rfl : o' = o := Table.eq_of_key_eq ho' ho (hid'.trans hid.symm)
        exact absurd (hot'.symm.trans (hot.trans hne)) hne'
    · have horgT : orgTenant w' d = some t := by
        rw [orgTenant_eq_some, htenants, hat.orgs]
        exact ⟨hne, attribution_tenant ht', o, ho, hid, hot⟩
      rw [bind_some, horgT]
      rfl

/-! ### A settled store -/

/-- Nothing is left for the migration to do. -/
structure Settled (w : Holding) : Prop where
  defaults : ∀ t ∈ w.store.tenants.rows, (defaultOrg w t.id).isSome = true
  attached : ∀ site t, attribution w site = some t →
    ∃ d, defaultOrg w t = some d ∧ orgOf w site = some d
  rewritten : ∀ sites : Names, (∀ site, sites.find site = attribution w site) →
    Pending sites [] w

theorem Settled.ensureDefaultOrgs (h : Settled w) {orgs : OrgsByTenant} (horgs : ListsAll w orgs) :
    ∀ {tenants : List Tenant} {rep : MigrateReport} {ids : Names},
      (∀ t ∈ tenants, t ∈ w.store.tenants.rows) → Defaults w ids →
      Always b.step w (fun r w' => w = w' ∧ ∀ ids', r.2 = .ok ids' → Defaults w ids')
        (ensureDefaultOrgs principal orgs tenants rep ids)
  | [], _, ids, _, hids => always_done.mpr ⟨rfl, fun _ h => Except.ok.inj h ▸ hids⟩
  | t :: rest, rep, ids, ht, hids => by
    rw [forall_mem_cons] at ht
    rw [Migrate.ensureDefaultOrgs, always_call]
    rintro r w₁ ⟨out, hstep⟩
    obtain ⟨d, hd⟩ := isSome_iff_exists.mp (h.defaults t ht.1)
    rcases answer_createOrg hstep with ⟨hw, e, rfl, -⟩ | ⟨hno, -⟩
    · obtain rfl : w = w₁ := hw.symm
      simp only
      split
      · split
        · rename_i org hfind
          refine Settled.ensureDefaultOrgs h horgs ht.2 fun x d' hx => ?_
          rw [Names.find_put] at hx
          split at hx
          · rename_i hxt
            cases hx
            rw [horgs.orgs ht.1] at hfind
            rw [hxt, defaultOrg, hfind]
            rfl
          · exact hids x d' hx
        · exact always_done.mpr ⟨rfl, by rintro _ ⟨⟩⟩
      · exact always_done.mpr ⟨rfl, by rintro _ ⟨⟩⟩
    · -- The tenant has its default, so none is created.
      cases hd.symm.trans (defaultOrg_eq_none.mpr hno)

theorem Settled.attachSites (h : Settled w) {ids : Names} {siteOrgs : List SiteOrg}
    (hsites : ∀ site, sites.find site = attribution w site) (hids : Defaults w ids)
    (hso : siteOrgs.Perm w.store.siteOrgs.rows) :
    ∀ {order : List Bytes} {rep : MigrateReport},
      (∀ site ∈ order, (attribution w site).isSome = true) →
      Always b.step w (fun _ w' => w = w') (attachSites principal sites ids siteOrgs order rep)
  | [], _, _ => always_done.mpr rfl
  | site :: rest, rep, hattr => by
    rw [forall_mem_cons] at hattr
    obtain ⟨t, ht⟩ := isSome_iff_exists.mp hattr.1
    obtain ⟨d, hd, horg⟩ := h.attached site t ht
    obtain ⟨so, hin, hsite, hsod⟩ := orgOf_eq_some.mp horg
    rw [Migrate.attachSites, hsites, ht]
    simp only [getD_some]
    split
    · exact always_done.mpr rfl
    rename_i d' hd'
    obtain rfl : d = d' := some.inj (hd.symm.trans (hids t d' hd'))
    rw [if_pos]
    · exact Settled.attachSites h hsites hids hso hattr.2
    · exact any_eq_true.mpr ⟨so, hso.mem_iff.mpr hin, by simp [hsite, hsod]⟩

theorem rewriteRows_unplanned :
    ∀ {rows : List RoleBinding} {rep : MigrateReport},
      (∀ row ∈ rows, ∀ newScope, planFor sites row ≠ .rewrite newScope) →
      Always b.step w (fun _ w' => w = w') (rewriteRows sites rows rep)
  | [], _, _ => always_done.mpr rfl
  | rb :: rest, rep, h => by
    rw [forall_mem_cons] at h
    rw [rewriteRows]
    split
    iterate 3 exact rewriteRows_unplanned h.2
    · rename_i newScope hplan
      exact absurd hplan (h.1 newScope)

/-- **A settled store stays as it is**, whatever comes of the run. -/
theorem Settled.run (h : Settled w) (sinkGiven : Bool) (principal : Bytes) :
    Always b.step w (fun _ w' => w = w') (migrateV11 sinkGiven principal) := by
  unfold migrateV11
  split
  · exact always_done.mpr rfl
  refine Always.bind takeSnapshot_exact ?_
  rintro ⟨rep, e | sn⟩ w₁ ⟨rfl, hsn⟩
  · exact always_done.mpr rfl
  have hsn := hsn sn rfl
  refine Always.bind (h.ensureDefaultOrgs hsn.orgs (fun t => hsn.tenants.mem_iff.mp) nofun) ?_
  rintro ⟨rep, e | ids⟩ w₂ ⟨rfl, hids⟩
  · exact always_done.mpr rfl
  refine always_call.mpr ?_
  rintro order w₃ ⟨out, horder⟩
  cases horder
  refine Always.bind (h.attachSites hsn.sites (hids ids rfl) hsn.siteOrgs fun site =>
    (hsn.mem_range out).mp) ?_
  rintro ⟨rep, e | ⟨⟩⟩ w₄ rfl
  · exact always_done.mpr rfl
  refine always_call.mpr ?_
  rintro r w₅ ⟨out', hr⟩
  obtain ⟨rfl, hl⟩ := read_eq hr
  rcases r with e | bindings
  · exact always_done.mpr rfl
  refine rewriteRows_unplanned fun row hrow => ?_
  rw [hl bindings rfl] at hrow
  have hin := (perm_insertionSort _ _).mem_iff.mp hrow
  exact (h.rewritten sn.sites hsn.sites row hin).resolve_right nofun

/-! ### The whole -/

/-- A site stays, or goes to the default organisation of its tenant; after a run without an error
every attributed site is there, and the store is settled. -/
structure Attachments (w : Holding) (r : MigrateReport × Except MigrateError Unit) (w' : Holding) :
    Prop where
  moved : ∀ site, orgOf w' site = orgOf w site ∨ ∃ t d, attribution w site = some t ∧
    DefaultFrom w t d ∧ orgOf w' site = some d
  done : r.2 = .ok () → Settled w' ∧ ∀ site t, attribution w site = some t →
    ∃ d, DefaultFrom w t d ∧ orgOf w' site = some d

theorem migrateV11_attachments (sinkGiven : Bool) (principal : Bytes) :
    Always b.freshStep w (Attachments w) (migrateV11 sinkGiven principal) := by
  have hstop : ∀ {v : Holding} {rep : MigrateReport} {e : MigrateError},
      v.store.siteOrgs = w.store.siteOrgs → Attachments w (rep, .error e) v := by
    intro v rep e hv
    exact ⟨fun site => .inl (orgOf_congr hv site), nofun⟩
  unfold migrateV11
  split
  · exact always_done.mpr (hstop rfl)
  refine Always.bind (always_fresh takeSnapshot_exact) ?_
  rintro ⟨rep, e | sn⟩ w₁ ⟨rfl, hsn⟩
  · exact always_done.mpr (hstop rfl)
  have hsn := hsn sn rfl
  refine Always.bind (ensureDefaultOrgs_ensured hsn.orgs (fun t => hsn.tenants.mem_iff.mp)
    (.refl w) nofun) ?_
  rintro ⟨rep, e | ids⟩ v₁ ⟨hv₁, hids⟩
  · exact always_done.mpr (hstop hv₁.siteOrgs)
  obtain ⟨hids, hsome⟩ := hids ids rfl
  refine always_call.mpr ?_
  rintro order v₂ ⟨out, -, horder⟩
  cases horder
  have hstart := orgOf_congr hv₁.siteOrgs
  refine Always.bind (always_fresh (attachSites_targets hsn.sites hids hsn.siteOrgs
    (fun site => (hsn.mem_range out).mp) fun site => .inl (hstart site))) ?_
  rintro ⟨rep, res⟩ v₂ ⟨hat, hmoved, hok⟩
  have hfrom : ∀ {site d}, Target w v₁ site d → ∃ t, attribution w site = some t ∧
      DefaultFrom w t d := by
    rintro site d ⟨t, ht, hd⟩
    exact ⟨t, ht, hv₁.added t d hd⟩
  have hsites : ∀ site, orgOf v₂ site = orgOf w site ∨ ∃ t d, attribution w site = some t ∧
      DefaultFrom w t d ∧ orgOf v₂ site = some d := by
    intro site
    rcases hmoved site with h | ⟨d, htarget, h⟩
    · exact .inl (h.trans (hstart site))
    · obtain ⟨t, ht, hd⟩ := hfrom htarget
      exact .inr ⟨t, d, ht, hd, h⟩
  rcases res with e | ⟨⟩
  · exact always_done.mpr ⟨hsites, nofun⟩
  refine always_call.mpr ?_
  rintro r v₃ ⟨out', -, hr⟩
  obtain ⟨rfl, hl⟩ := read_eq hr
  rcases r with e | bindings
  · exact always_done.mpr ⟨hsites, nofun⟩
  have hpending : Pending sn.sites bindings v₂ := by
    intro row hrow
    rw [hl bindings rfl]
    exact .inr ((perm_insertionSort _ _).mem_iff.mpr hrow)
  refine (always_fresh (rewriteRows_pending hpending)).mono fun res w' hend => ?_
  obtain ⟨hb, hdone⟩ := hend
  have horg := orgOf_congr hb.siteOrgs
  have hat' : Attaching v₁ w' := hat.trans hb.toAttaching
  have hdefault : ∀ t, defaultOrg w' t = defaultOrg v₁ t := fun t => by
    rw [defaultOrg, FileStore.listOrgs, hat'.orgs]
    rfl
  have hall : ∀ site, (attribution w site).isSome = true → AtTarget w v₁ w' site := by
    intro site hs
    rw [AtTarget, horg]
    exact hok rfl site ((hsn.mem_range out).mpr hs)
  have hstable := attribution_stable hv₁ hat'
    (fun site => by rw [AtTarget, horg, ← hstart]; exact hmoved site) hall
  refine ⟨fun site => by rw [horg]; exact hsites site, fun hres => ⟨⟨?_, ?_, ?_⟩, ?_⟩⟩
  · intro t ht
    rw [hat'.tenants, hv₁.tenants] at ht
    have hid := hsome t.id (.inr (mem_map_of_mem (hsn.tenants.mem_iff.mpr ht)))
    obtain ⟨d, hd⟩ := isSome_iff_exists.mp hid
    rw [hdefault, hids t.id d hd]
    rfl
  · intro site t ht
    rw [hstable] at ht
    obtain ⟨d, ⟨t', ht', hd⟩, h⟩ := hall site (by rw [ht]; rfl)
    cases ht.symm.trans ht'
    exact ⟨d, (hdefault t).trans hd, h⟩
  · intro sites hfind row hrow
    have hplan : planFor sites row = planFor sn.sites row :=
      planFor_congr (fun site => by rw [hfind, hstable, hsn.sites]) row
    rw [hplan]
    exact hdone hres row hrow
  · intro site t ht
    obtain ⟨d, htarget, h⟩ := hall site (by rw [ht]; rfl)
    obtain ⟨t', ht', hd⟩ := hfrom htarget
    cases ht.symm.trans ht'
    exact ⟨d, hd, h⟩

/-- Every attached site is where the migration would put it, or is not attributed. -/
def Undisturbed (w : Holding) : Prop :=
  ∀ so ∈ w.store.siteOrgs.rows, ∀ t, attribution w so.site = some t →
    defaultOrg w t = some so.orgID

/-- The sites that were attached are attached to the same organisations. -/
def KeptAttachments (w w' : Holding) : Prop :=
  ∀ so ∈ w.store.siteOrgs.rows, orgOf w' so.site = some so.orgID

/-- **Attachments and a second run.**  A run of the migration leaves the attachments alone if they
were all to the default organisations of their tenants, and if it ends without an error, only then;
and after such a run any further one changes neither the store nor the sink. -/
theorem attachments_kept_iff {sinkGiven : Bool} {principal : Bytes}
    {res : MigrateReport × Except MigrateError Unit}
    (hrun : Steps b.freshStep (migrateV11 sinkGiven principal) w res w') :
    (Undisturbed w → KeptAttachments w w') ∧
      (res.2 = .ok () → (KeptAttachments w w' ↔ Undisturbed w) ∧
        ∀ sinkGiven' principal' res' w'',
          Steps b.step (migrateV11 sinkGiven' principal') w' res' w'' → w'' = w') := by
  obtain ⟨hsites, hok⟩ := migrateV11_attachments sinkGiven principal res w' hrun
  have hself : ∀ so ∈ w.store.siteOrgs.rows, orgOf w so.site = some so.orgID := fun so hso =>
    orgOf_eq_some.mpr ⟨so, hso, rfl, rfl⟩
  have hkept : Undisturbed w → KeptAttachments w w' := by
    intro hun so hso
    rcases hsites so.site with h | ⟨t, d, ht, hd, h⟩
    · exact h.trans (hself so hso)
    · rw [h]
      rcases hd with hd | ⟨hd, -⟩
      · exact hd.symm.trans (hun so hso t ht)
      · cases hd.symm.trans (hun so hso t ht)
  refine ⟨hkept, fun hres => ⟨⟨fun hk so hso t ht => ?_, hkept⟩, ?_⟩⟩
  · obtain ⟨d, hd, h⟩ := (hok hres).2 so.site t ht
    obtain rfl : d = so.orgID := some.inj (h.symm.trans (hk so hso))
    rcases hd with hd | ⟨-, hnew⟩
    · exact hd
    · exact absurd rfl (hnew so hso)
  · intro sinkGiven' principal' res' w'' hrun'
    exact ((hok hres).1.run sinkGiven' principal' res' w'' hrun').symm

def freshQuiet (w : Holding) : Outside :=
  { quiet with
    newOrgID := List.replicate ((w.store.orgs.rows.map fun o => o.id.length).sum +
      (w.store.siteOrgs.rows.map fun so => so.orgID.length).sum + 1) 'x' }

theorem freshQuiet_fresh (w : Holding) : (freshQuiet w).Fresh w := by
  refine ⟨fun o ho he => ?_, fun so hso he => ?_⟩
  · have hlen := congrArg List.length he
    have hle := le_sum_of_mem (mem_map_of_mem (f := fun o : Org => o.id.length) ho)
    simp only [freshQuiet, length_replicate] at hlen
    omega
  · have hlen := congrArg List.length he
    have hle := le_sum_of_mem
      (mem_map_of_mem (f := fun so : SiteOrg => so.orgID.length) hso)
    simp only [freshQuiet, length_replicate] at hlen
    omega

theorem Backend.freshSteps {α : Type} (b : Backend) (p : Migration α) (w : Holding) :
    p.Steps b.freshStep w (p.exec (fun op w => b.answer (freshQuiet w) op w) w).1
      (p.exec (fun op w => b.answer (freshQuiet w) op w) w).2 :=
  steps_exec (fun _ w => ⟨freshQuiet w, freshQuiet_fresh w, rfl⟩) p w

def siteAt (orgID : Bytes) : Holding where
  store := { FileStore.empty with
    tenants := Table.empty.put ⟨"acme", "Acme", "label", "active", 0, 0⟩
    orgs := (Table.empty.put ⟨"og_default", "acme", "default", 0⟩).put
      ⟨"og_north", "acme", "north", 0⟩
    siteOrgs := Table.empty.put ⟨"fra01", orgID, 0, 0⟩ }
  assets := ["fra01.pod002"]
  sink := []
  sites_valid := by simp [Table.empty, Table.put, Table.erase]; decide

/-- A site of the default organisation stays there. -/
theorem attachment_to_default_kept :
    let w' := ((migrateV11 true "op").exec
      (fun op w => pg.answer (freshQuiet w) op w) (siteAt "og_default")).2
    Undisturbed (siteAt "og_default") ∧ KeptAttachments (siteAt "og_default") w' := by
  have hun : Undisturbed (siteAt "og_default") := by
    intro so hso t ht
    obtain rfl := mem_singleton.mp hso
    have hacme : attribution (siteAt "og_default") "fra01" = some (lit "acme") := by decide
    cases hacme.symm.trans ht
    decide
  exact ⟨hun, (attachments_kept_iff
    (pg.freshSteps (migrateV11 true "op") (siteAt "og_default"))).1 hun⟩

/-- A site of another organisation of the same tenant is moved to the default one. -/
theorem attachment_moved : ∃ (res : MigrateReport × Except MigrateError Unit) (w' : Holding),
    Steps Backend.file.freshStep (migrateV11 true "op") (siteAt "og_north") res w' ∧
      res.2 = .ok () ∧ orgOf (siteAt "og_north") "fra01" = some (lit "og_north") ∧
      orgOf w' "fra01" = some (lit "og_default") :=
  ⟨_, _, file.freshSteps (migrateV11 true "op") (siteAt "og_north"), by decide, by decide,
    by decide⟩

end Cios.Migrate
