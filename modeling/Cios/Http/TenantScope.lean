import Cios.Http.Admin
import Cios.Http.Mux
import Cios.Store.FileStore

/-!
# HTTP — tenant-scoped admins

An admin whose request carries a tenant is meant to stay inside it.  Each handler checks that on its
own, and some not at all.

`Crosses` is what a scoped request must not do: return a record of another tenant, or take one away,
or leave one behind.  The handlers of `/v1/orgs` and of `/v1/tenants` never do.  The tier action,
`/v1/site-orgs` and `/v1/role-bindings` have no tenant check; `Strays` says exactly when that
matters (`admin_stays_in_tenant_iff`).
-/

namespace Cios.Http.Admin
open Text Effect Keyed List
open Cios.Rbac (Principal parseCRN)
open Cios.Store
open Cios.Store.FileStore (answer commit_cases perm_sortBy pairwise_sortBy grantLe)
open Table (eq_of_key_eq get_eq_some get_put_self)
open Prog (ends_call ends_done)

/-! ### Whose record it is -/

inductive Record where
  | tenant (t : Tenant)
  | org (o : Org)
  | siteOrg (so : SiteOrg)
  | roleBinding (rb : RoleBinding)
deriving DecidableEq, Repr

/-- The tenant that a scope names, when it is a tenant-bound name. -/
def crnTenant (scope : Bytes) : Option Bytes :=
  match parseCRN scope with
  | .ok c => some c.tid
  | .error _ => none

/-- The tenant a record belongs to; a site belongs to its organisation's. -/
def owner (st : FileStore) : Record → Option Bytes
  | .tenant t => some t.id
  | .org o => some o.tenantID
  | .siteOrg so => (st.orgs.get so.orgID).map Org.tenantID
  | .roleBinding rb => crnTenant rb.scope

def Holds (st : FileStore) : Record → Prop
  | .tenant t => t ∈ st.tenants.rows
  | .org o => o ∈ st.orgs.rows
  | .siteOrg so => so ∈ st.siteOrgs.rows
  | .roleBinding rb => rb ∈ st.roleBindings.rows

/-- The record belongs to a tenant other than `t`. -/
def Foreign (t : Bytes) (st : FileStore) (x : Record) : Prop := ∃ u, owner st x = some u ∧ u ≠ t

def TenantListItem.records (i : TenantListItem) : List Record :=
  .tenant i.tenant :: (i.orgs ++ i.defaultOrg.toList).map .org

def Body.records : Body → List Record
  | .tenant t => [.tenant t]
  | .tenantCreated t o => [.tenant t, .org o]
  | .tenants items _ => items.flatMap TenantListItem.records
  | .org o => [.org o]
  | .orgs items _ => items.map .org
  | .siteOrg so => [.siteOrg so]
  | .siteOrgs items _ => items.map .siteOrg
  | .roleBinding rb => [.roleBinding rb]
  | .roleBindings items _ => items.map .roleBinding

/-- The records an answer returns. -/
def returned : Reply Body → List Record
  | .json _ b => b.records
  | .problem _ => []
  | .noContent => []

/-- The exchange returns a record of another tenant, or one is gone, or one is new. -/
def Crosses (t : Bytes) (st : FileStore) (reply : Reply Body) (st' : FileStore) : Prop :=
  (∃ x ∈ returned reply, Foreign t st x ∨ Foreign t st' x) ∨
    (∃ x, Holds st x ∧ Foreign t st x ∧ ¬ Holds st' x) ∨
    ∃ x, Holds st' x ∧ Foreign t st' x ∧ ¬ Holds st x

/-! ### The surface -/

/-- The handler of a request to the administration surface, `none` for any other. -/
def adminSurface (std : Std) (r : Request) (c : Ctx) : Option Handler :=
  match mux r.path with
  | some .tenants => some (serveTenants std r c)
  | some .tenantTier => some (serveTenantTier std r c)
  | some .orgs => some (serveOrgs std r c)
  | some .org => some (serveOrg std r c)
  | some .siteOrgs => some (serveSiteOrgs std r c)
  | some .roleBindings => some (serveRoleBindings std r c)
  | _ => none

/-- The tier of a stored tenant may be set to `target`. -/
def TierSettable (amb : Ambient) (tn : Tenant) (target : Bytes) : Prop :=
  ∃ n m, tenantTierRank target = some n ∧ tenantTierRank tn.isolationTier = some m ∧
    (n = m ∨ m < n ∧ amb.save = none)

section Conditions

variable (std : Std) (amb : Ambient) (r : Request) (t : Bytes) (st : FileStore)

/-- The tier of another tenant is asked for, and is what it has or a higher one. -/
def TierStrays (id : Bytes) : Prop :=
  id ≠ t ∧ r.body ≠ .ok [] ∧ ∃ w tn, Sent std.tenantTier r w ∧ st.tenants.get id = some tn ∧
    TierSettable amb tn w.isolationTier

/-- What the site listing keeps: the filters of the query, and what is after the cursor. -/
def siteListed (cursor : Option Bytes) (so : SiteOrg) : Bool :=
  (r.queryGet "org_id" = [] || so.orgID = r.queryGet "org_id") &&
    (trimSpace (r.queryGet "q") = [] ||
      contains (std.letters.toLower (trimSpace (r.queryGet "q"))) (std.letters.toLower so.site)) &&
    afterKey cursor so.site

/-- The page of the site listing reaches a site of another tenant. -/
def SiteListStrays : Prop :=
  ∃ n cursor, parseAdminPageSize (r.queryGet "page_size") = some n ∧
    pageCursor std.decodePageToken r = some cursor ∧
    ShownInPage st.siteOrgs.rows (siteListed std r cursor) (fun a b => le a.site b.site)
      (fun so => Foreign t st (.siteOrg so)) n

/-- The site goes to an organisation of another tenant, or is taken from one. -/
def AttachStraysTo (site orgID : Bytes) : Prop :=
  orgID ≠ [] ∧ validSiteSlug site = true ∧ ∃ o, st.orgs.get orgID = some o ∧
    match st.siteOrgs.get site with
    | none => amb.save = none ∧ o.tenantID ≠ t
    | some cur =>
      if cur.orgID = orgID then o.tenantID ≠ t
      else amb.save = none ∧ (o.tenantID ≠ t ∨ Foreign t st (.siteOrg cur))

def AttachStrays : Prop :=
  ∃ w, Sent std.siteOrgAttach r w ∧
    AttachStraysTo amb t st (trimSpace w.site) (trimSpace w.orgID)

def DetachStrays : Prop :=
  amb.save = none ∧ trimSpace (r.queryGet "site") ≠ [] ∧
    ∃ cur, st.siteOrgs.get (trimSpace (r.queryGet "site")) = some cur ∧
      Foreign t st (.siteOrg cur)

/-- The page reaches a binding of another tenant.  The bindings of one subject are paged by scope,
all of them by subject and scope. -/
def BindingListStrays : Prop :=
  let subject := trimSpace (r.queryGet "subject")
  let q := trimSpace (r.queryGet "q")
  let foreign := fun rb => Foreign t st (.roleBinding rb)
  ∃ n, parseAdminPageSize (r.queryGet "page_size") = some n ∧
    if subject ≠ [] then
      ∃ cursor, pageCursor std.decodePageToken r = some cursor ∧
        ShownInPage st.roleBindings.rows
          (fun rb => rb.subject = subject && afterKey cursor rb.scope)
          (fun a b => le a.scope b.scope) foreign n
    else
      ∃ cursor, pageCursor std.decodePageTokenPair r = some cursor ∧
        ShownInPage st.roleBindings.rows
          (fun rb => (q = [] || contains (std.letters.toLower q)
            (std.letters.toLower rb.subject)) &&
            afterPair cursor rb) grantLe foreign n

/-- A binding whose scope names another tenant is put. -/
def PutStraysOf (subject scope origin : Bytes) : Prop :=
  subject ≠ [] ∧ scope ≠ [] ∧ (origin = [] ∨ origin = lit "legacy" ∨ origin = lit "crn") ∧
    amb.save = none ∧ ∃ u, crnTenant scope = some u ∧ u ≠ t

def PutStrays : Prop :=
  ∃ w, Sent std.roleBindingWrite r w ∧
    PutStraysOf amb t (trimSpace w.subject) (trimSpace w.scope) (trimSpace w.origin)

def DeleteStrays : Prop :=
  let subject := trimSpace (r.queryGet "subject")
  let scope := trimSpace (r.queryGet "scope")
  amb.save = none ∧ subject ≠ [] ∧ scope ≠ [] ∧
    ∃ rb, st.roleBindings.get (subject, scope) = some rb ∧ Foreign t st (.roleBinding rb)

def TierRouteStrays : Prop :=
  r.method = .post ∧ ∃ id, cutSuffix ":tier" ((cutPrefix "/v1/tenants/" r.path).getD r.path) =
    some id ∧ id ≠ [] ∧ TierStrays std amb r t st id

def SiteOrgsStrays : Prop :=
  match r.method with
  | .get => SiteListStrays std r t st
  | .post => AttachStrays std amb r t st
  | .delete => DetachStrays amb r t st
  | _ => False

def RoleBindingsStrays : Prop :=
  match r.method with
  | .get => BindingListStrays std r t st
  | .post => PutStrays std amb r t
  | .delete => DeleteStrays amb r t st
  | _ => False

/-- The requests that reach past tenant `t`. -/
def Strays : Prop :=
  match mux r.path with
  | some .tenantTier => TierRouteStrays std amb r t st
  | some .siteOrgs => SiteOrgsStrays std amb r t st
  | some .roleBindings => RoleBindingsStrays std amb r t st
  | _ => False

end Conditions

/-! ### What does not cross -/

section Quiet

variable {t : Bytes} {st st' : FileStore} {reply : Reply Body} {C : Prop}

/-- `st'` holds the records of `st` without `gone`, and `fresh`. -/
def Swaps (st st' : FileStore) (gone fresh : Option Record) : Prop :=
  ∀ x, Holds st' x ↔ Holds st x ∧ gone ≠ some x ∨ some x = fresh

variable {gone fresh : Option Record}

/-- A swap crosses only by what is returned, what is taken away or what is left. -/
theorem Swaps.of_crosses (h : Swaps st st' gone fresh) (hc : Crosses t st reply st') :
    (∃ x ∈ returned reply, Foreign t st x ∨ Foreign t st' x) ∨
      (∃ x, gone = some x ∧ Foreign t st x) ∨ ∃ x, some x = fresh ∧ Foreign t st' x := by
  rcases hc with hx | ⟨x, hx, hf, hn⟩ | ⟨x, hx, hf, hn⟩
  · exact .inl hx
  · refine .inr (.inl ⟨x, ?_, hf⟩)
    by_contra hne
    exact hn ((h x).mpr (.inl ⟨hx, hne⟩))
  · refine .inr (.inr ⟨x, ?_, hf⟩)
    exact ((h x).mp hx).resolve_left fun hx => hn hx.1

theorem Swaps.crosses {x : Record} (h : Swaps st st' (some x) fresh) (hne : some x ≠ fresh)
    (hx : Holds st x) (hf : Foreign t st x) : Crosses t st reply st' := by
  refine .inr (.inl ⟨x, hx, hf, fun hx' => ?_⟩)
  exact ((h x).mp hx').elim (fun h => h.2 rfl) hne

/-- An exchange that takes one record away and returns nothing crosses by that record. -/
theorem Swaps.removes {x : Record} (h : Swaps st st' (some x) none) (hx : Holds st x) :
    Crosses t st .noContent st' ↔ Foreign t st x :=
  ⟨fun hc => by simpa [returned] using h.of_crosses hc, h.crosses nofun hx⟩

/-- No record of another tenant is touched. -/
structure KeepsForeign (t : Bytes) (st st' : FileStore) : Prop where
  gone : ∀ x, Holds st x → Foreign t st x → Holds st' x
  fresh : ∀ x, Holds st' x → Foreign t st' x → Holds st x

theorem KeepsForeign.refl : KeepsForeign t st st := ⟨fun _ h _ => h, fun _ h _ => h⟩

theorem Swaps.keepsForeign (h : Swaps st st' gone fresh)
    (hgone : ∀ x, gone = some x → ¬ Foreign t st x)
    (hfresh : ∀ x, some x = fresh → ¬ Foreign t st' x) : KeepsForeign t st st' where
  gone x hx hf := (h x).mpr (.inl ⟨hx, fun he => hgone x he hf⟩)
  fresh x hx hf := ((h x).mp hx).elim And.left fun he => absurd hf (hfresh x he)

theorem KeepsForeign.not_crosses (h : KeepsForeign t st st')
    (hr : ∀ x ∈ returned reply, ¬ Foreign t st x ∧ ¬ Foreign t st' x) :
    ¬ Crosses t st reply st' := by
  rintro (⟨x, hx, hf⟩ | ⟨x, hx, hf, hn⟩ | ⟨x, hx, hf, hn⟩)
  · exact hf.elim (hr x hx).1 (hr x hx).2
  · exact hn (h.gone x hx hf)
  · exact hn (h.fresh x hx hf)

/-- An exchange that changes nothing crosses by what it returns. -/
theorem crosses_self : Crosses t st reply st ↔ ∃ x ∈ returned reply, Foreign t st x := by
  constructor
  · intro hc
    simpa using @Swaps.of_crosses _ _ _ _ none none (by simp [Swaps]) hc
  · rintro ⟨x, hx, hf⟩
    exact .inl ⟨x, hx, .inl hf⟩

theorem not_crosses_problem {pr : Problem} : ¬ Crosses t st (.problem pr) st := by
  exact nofun

theorem crosses_problem_iff {pr : Problem} (h : ¬ C) : Crosses t st (.problem pr) st ↔ C :=
  iff_of_false not_crosses_problem h

theorem not_foreign_tenant {tn : Tenant} (h : tn.id = t) : ¬ Foreign t st (.tenant tn) := by
  simp [Foreign, owner, h]

theorem not_foreign_org {o : Org} (h : o.tenantID = t) : ¬ Foreign t st (.org o) := by
  simp [Foreign, owner, h]

variable {auds : List TenantAudit}

/-- An organisation of `t` is written where there was none, or one of `t`. -/
theorem keepsForeign_put_org {o : Org} (ho : o.tenantID = t)
    (hprev : ∀ prev, st.orgs.get o.id = some prev → prev.tenantID = t) :
    KeepsForeign t st { st with orgs := st.orgs.put o, tenantAuds := auds } := by
  refine @Swaps.keepsForeign _ _ _ ((st.orgs.get o.id).map .org) (some (.org o)) (fun x => ?_)
    (fun x hx => ?_) ?_
  · cases x <;> simp [Holds, get_eq_some]
    tauto
  · obtain ⟨prev, hget, rfl⟩ := Option.map_eq_some_iff.mp hx
    exact not_foreign_org (hprev prev hget)
  · rintro _ ⟨rfl⟩
    exact not_foreign_org ho

end Quiet

/-! ### Tenants and organisations -/

section Handlers

variable {std : Std} {amb : Ambient} {r : Request} {p : Principal} {t : Bytes} {st : FileStore}

/-- An admin's request that carries `t` crosses exactly when `C`. -/
def CrossesIff (amb : Ambient) (t : Bytes) (st : FileStore) (h : Ctx → Handler) (C : Prop) : Prop :=
  ∀ p : Principal, p.role = .admin → (h ⟨some p, some t⟩).Ends (answer amb) st
    fun reply st' => Crosses t st reply st' ↔ C

theorem requireOrgAdmin_admin {tenant : Option Bytes} {k : Principal → Handler}
    (hp : p.role = .admin) : requireOrgAdmin ⟨some p, tenant⟩ k = k p := by
  simp [requireOrgAdmin, hp]

theorem mem_listOrgs {u : Bytes} {o : Org} :
    o ∈ st.listOrgs u ↔ o ∈ st.orgs.rows ∧ o.tenantID = u := by
  simp [FileStore.listOrgs, FileStore.sortBy]

theorem serveTenants_quiet : CrossesIff amb t st (serveTenants std r) False := by
  intro p hp
  simp only [iff_false]
  unfold serveTenants
  split
  · rw [serveTenantsList, requireOrgAdmin_admin hp, ends_call, answer, onOk]
    cases hget : st.getTenant t with
    | none =>
      rw [ends_done, crosses_self]
      exact nofun
    | some tn =>
      rw [ends_call, answer, onOk, ends_done, crosses_self]
      have hid : tn.id = t := (get_eq_some.mp hget).2
      have horgs : ∀ o ∈ st.listOrgs tn.id, ¬ Foreign t st (.org o) := fun o ho =>
        not_foreign_org ((mem_listOrgs.mp ho).2.trans hid)
      rintro ⟨x, hx, hf⟩
      simp only [returned, Body.records, TenantListItem.records, buildTenantListItem,
        flatMap_cons, flatMap_nil, append_nil, mem_cons, mem_map,
        mem_append, Option.mem_toList] at hx
      rcases hx with rfl | ⟨o, ho | ho, rfl⟩
      · exact not_foreign_tenant hid hf
      · exact horgs o ho hf
      · exact horgs o (mem_of_find?_eq_some ho) hf
  · rw [serveTenantsCreate, requireOrgAdmin_admin hp]
    exact not_crosses_problem
  · exact not_crosses_problem

theorem serveOrgsList_quiet : CrossesIff amb t st (serveOrgsList std r) False := by
  intro p hp
  simp only [iff_false]
  rw [serveOrgsList, requireOrgAdmin_admin hp]
  dsimp only
  split
  · exact not_crosses_problem
  unfold serveOrgsList.list
  iterate 2
    split
    · exact not_crosses_problem
    rw [ends_call, answer, onOk]
  refine ends_withPageSize (fun _ _ => not_crosses_problem) fun n _ => ?_
  refine ends_withPageToken (fun _ _ => not_crosses_problem) fun cursor _ => ?_
  rw [ends_done, crosses_self]
  rintro ⟨x, hx, hf⟩
  obtain ⟨o, ho, rfl⟩ := mem_map.mp hx
  have ho' : o ∈ st.listOrgs t := mem_of_mem_filter (mem_of_mem_take ho)
  exact not_foreign_org (mem_listOrgs.mp ho').2 hf

/-- A created organisation is one of `t`, at an id not in use. -/
theorem createOrg_keepsForeign {name principal : Bytes}
    (hfresh : st.orgs.get amb.newOrgID = none) :
    KeepsForeign t st (st.createOrg amb t name principal).2 ∧
      ∀ o, (st.createOrg amb t name principal).1 = .ok o → o.tenantID = t := by
  unfold FileStore.createOrg
  split_ifs
  any_goals exact ⟨.refl, nofun⟩
  rcases commit_cases amb st _ _ _ with ⟨h, -⟩ | ⟨e, h, -⟩
  · rw [h]
    refine ⟨keepsForeign_put_org rfl ?_, ?_⟩
    · intro prev hprev
      rw [hfresh] at hprev
      cases hprev
    · rintro o ⟨rfl⟩
      rfl
  · rw [h]
    exact ⟨.refl, nofun⟩

theorem renameOrg_keepsForeign {id name principal : Bytes} {prev : Org}
    (hget : st.orgs.get id = some prev) (hprev : prev.tenantID = t) :
    KeepsForeign t st (st.renameOrg amb id name principal).2 ∧
      ∃ o, (st.renameOrg amb id name principal).2.orgs.get id = some o ∧ o.tenantID = t := by
  rw [FileStore.renameOrg, hget]
  dsimp only
  split_ifs
  any_goals exact ⟨.refl, prev, hget, hprev⟩
  rcases commit_cases amb st _ _ _ with ⟨h, -⟩ | ⟨e, h, -⟩
  · rw [h]
    obtain ⟨-, rfl⟩ := get_eq_some.mp hget
    refine ⟨keepsForeign_put_org hprev fun x hx => ?_, _, get_put_self, hprev⟩
    obtain rfl := Option.some.inj (hget.symm.trans hx)
    exact hprev
  · rw [h]
    exact ⟨.refl, prev, hget, hprev⟩

theorem deleteOrg_keepsForeign {id principal : Bytes} {prev : Org}
    (hget : st.orgs.get id = some prev) (hprev : prev.tenantID = t) :
    KeepsForeign t st (st.deleteOrg amb id principal).2 := by
  unfold FileStore.deleteOrg
  rw [hget]
  dsimp only
  split
  · exact .refl
  rcases commit_cases amb st _ _ _ with ⟨h, -⟩ | ⟨e, h, -⟩
  · rw [h]
    refine @Swaps.keepsForeign _ _ _ (some (.org prev)) none (fun x => ?_) ?_ nofun
    · cases x <;> simp [Holds, Table.mem_erase_of_get hget]
    · rintro _ ⟨rfl⟩
      exact not_foreign_org hprev
  · rw [h]
    exact .refl

theorem ends_withOwnOrg {id : Bytes} {k : Org → Handler}
    {Q : Reply Body → FileStore → Prop} (hbad : ∀ pr, Q (.problem pr) st)
    (hk : ∀ o, st.orgs.get id = some o → o.tenantID = t → (k o).Ends (answer amb) st Q) :
    (withOwnOrg ⟨some p, some t⟩ id k).Ends (answer amb) st Q := by
  rw [withOwnOrg, ends_call, answer, onOk]
  cases hget : st.getOrg id with
  | none => exact hbad _
  | some o =>
    dsimp only
    split
    · exact hbad _
    · rename_i hown
      have hown' : t = o.tenantID := by simpa using hown
      exact hk o hget hown'.symm

theorem serveOrgs_quiet (hfresh : st.orgs.get amb.newOrgID = none) :
    CrossesIff amb t st (serveOrgs std r) False := by
  intro p hp
  simp only [iff_false]
  unfold serveOrgs
  split
  · simpa using serveOrgsList_quiet p hp
  · rw [serveOrgsCreate, requireOrgAdmin_admin hp]
    refine ends_decodeBody (fun _ _ => not_crosses_problem) fun w _ => ?_
    split_ifs with _ _ _ hown
    any_goals exact not_crosses_problem
    obtain rfl : t = w.tenantID := by simpa using hown
    obtain ⟨hkeep, hok⟩ := @createOrg_keepsForeign amb w.tenantID st w.name p.subject hfresh
    rw [ends_call, answer]
    split
    · rename_i o ho
      refine hkeep.not_crosses fun x hx => ?_
      obtain rfl := mem_singleton.mp hx
      exact ⟨not_foreign_org (hok o ho), not_foreign_org (hok o ho)⟩
    · split_ifs
      all_goals exact hkeep.not_crosses nofun
  · exact not_crosses_problem

theorem serveOrg_quiet : CrossesIff amb t st (serveOrg std r) False := by
  intro p hp
  simp only [iff_false]
  unfold serveOrg
  dsimp only
  generalize (cutPrefix "/v1/orgs/" r.path).getD r.path = rest
  generalize (cutSuffix ":rename" rest).getD rest = id
  split_ifs
  any_goals exact not_crosses_problem
  split
  · rw [serveOrgRename, requireOrgAdmin_admin hp]
    refine ends_withOwnOrg (fun _ => not_crosses_problem) fun prev hget hprev => ?_
    refine ends_decodeBody (fun _ _ => not_crosses_problem) fun w _ => ?_
    split_ifs
    any_goals exact not_crosses_problem
    obtain ⟨hkeep, o, ho, hown⟩ := @renameOrg_keepsForeign amb t st id w.name p.subject _ hget hprev
    rw [ends_call, answer]
    split
    · rw [ends_call, answer, onOk, FileStore.getOrg, ho]
      refine hkeep.not_crosses fun x hx => ?_
      obtain rfl := mem_singleton.mp hx
      exact ⟨not_foreign_org hown, not_foreign_org hown⟩
    · split_ifs
      all_goals exact hkeep.not_crosses nofun
  · rw [serveOrgGet, requireOrgAdmin_admin hp]
    refine ends_withOwnOrg (fun _ => not_crosses_problem) fun o _ ho => ?_
    rw [ends_done, crosses_self]
    rintro ⟨x, hx, hf⟩
    obtain rfl := mem_singleton.mp hx
    exact not_foreign_org ho hf
  · rw [serveOrgDelete, requireOrgAdmin_admin hp]
    refine ends_withOwnOrg (fun _ => not_crosses_problem) fun prev hget hprev => ?_
    have hkeep := @deleteOrg_keepsForeign amb t st id p.subject _ hget hprev
    rw [ends_call, answer]
    split
    · exact hkeep.not_crosses nofun
    · split_ifs
      all_goals exact hkeep.not_crosses nofun
  · exact not_crosses_problem

/-! ### The tier action -/

/-- A tier that may be set leaves the tenant in place; one that may not changes no record. -/
theorem updateTenantTier_cases {id target principal : Bytes} {tn : Tenant}
    (hget : st.tenants.get id = some tn) :
    let res := st.updateTenantTier amb id target principal
    (res.1 = .ok () ∧ TierSettable amb tn target ∧ (id = t → KeepsForeign t st res.2) ∧
        ∃ tn', res.2.tenants.get id = some tn') ∨
      (∃ e, res.1 = .error e) ∧ ¬ TierSettable amb tn target ∧ KeepsForeign t st res.2 := by
  unfold FileStore.updateTenantTier
  cases hn : tenantTierRank target with
  | none =>
    refine .inr ⟨⟨_, rfl⟩, ?_, .refl⟩
    rintro ⟨n, m, h, -⟩
    rw [hn] at h
    cases h
  | some n =>
    rw [hget]
    dsimp only
    cases hm : tenantTierRank tn.isolationTier with
    | none =>
      refine .inr ⟨⟨_, rfl⟩, ?_, .refl⟩
      rintro ⟨n, m, -, h, -⟩
      rw [hm] at h
      cases h
    | some m =>
      have hset : TierSettable amb tn target ↔ n = m ∨ m < n ∧ amb.save = none := by
        simp [TierSettable, hn, hm]
      rw [hset]
      dsimp only
      split
      · exact .inl ⟨rfl, .inl ‹_›, fun _ => .refl, tn, hget⟩
      split
      · right
        split
        · exact ⟨⟨_, rfl⟩, by omega, fun _ h _ => h, fun _ h _ => h⟩
        · exact ⟨⟨_, rfl⟩, by omega, .refl⟩
      · obtain ⟨-, rfl⟩ := get_eq_some.mp hget
        cases hs : amb.save with
        | none =>
          rw [FileStore.commit_saved hs]
          refine .inl ⟨rfl, .inr ⟨by omega, rfl⟩, fun hid => ?_, _, get_put_self⟩
          refine @Swaps.keepsForeign _ _ _ ((st.tenants.get tn.id).map .tenant)
            (some (.tenant { tn with isolationTier := target, updatedAt := amb.now }))
            (fun x => ?_) ?_ ?_
          · cases x <;> simp [Holds, get_eq_some]
            tauto
          · simp [hget, not_foreign_tenant hid]
          · rintro _ ⟨rfl⟩
            exact not_foreign_tenant hid
        | some e =>
          rw [FileStore.commit_failed hs]
          refine .inr ⟨⟨_, rfl⟩, ?_, .refl⟩
          rintro (rfl | ⟨-, h⟩)
          · contradiction
          · cases h

theorem serveTenantTierPost_crosses {id : Bytes} :
    CrossesIff amb t st (fun c => serveTenantTierPost std r c id)
      (TierStrays std amb r t st id) := by
  intro p hp
  beta_reduce
  rw [serveTenantTierPost, requireOrgAdmin_admin hp]
  refine ends_readBody (fun hb _ => crosses_problem_iff ?_) fun b hb => ?_
  · rintro ⟨-, -, w, tn, ⟨b, hb', -⟩, -⟩
    exact hb b hb'
  refine ends_ite (fun he => crosses_problem_iff ?_) fun hne => ?_
  · rintro ⟨-, hbody, -⟩
    obtain rfl : b = [] := by simpa using he
    exact hbody hb
  have hbody : r.body ≠ .ok [] := by
    rw [hb]
    rintro ⟨rfl⟩
    exact hne rfl
  split
  · rename_i hd
    refine crosses_problem_iff ?_
    rintro ⟨-, -, w, tn, ⟨b', hb', hd'⟩, -⟩
    obtain rfl := Except.ok.inj (hb.symm.trans hb')
    exact nomatch hd.symm.trans hd'
  · rename_i w hd
    have hw : Sent std.tenantTier r w := ⟨b, hb, hd⟩
    refine ends_ite (fun he => crosses_problem_iff ?_) fun _ => ?_
    · rintro ⟨-, -, w', tn, hw', -, n, m, hn, -⟩
      obtain rfl := hw.unique hw'
      rw [he, show tenantTierRank [] = none from rfl] at hn
      cases hn
    rw [ends_call, answer, onOk, FileStore.getTenant]
    cases hget : st.tenants.get id with
    | none =>
      refine crosses_problem_iff ?_
      rintro ⟨-, -, w', tn, -, hget', -⟩
      exact nomatch hget.symm.trans hget'
    | some tn =>
      have hiff : TierStrays std amb r t st id ↔
          id ≠ t ∧ TierSettable amb tn w.isolationTier := by
        constructor
        · rintro ⟨hid, -, w', tn', hw', hget', hset⟩
          obtain rfl := hw.unique hw'
          obtain rfl := Option.some.inj (hget.symm.trans hget')
          exact ⟨hid, hset⟩
        · rintro ⟨hid, hset⟩
          exact ⟨hid, hbody, w, tn, hw, hget, hset⟩
      rw [ends_call, answer]
      rcases @updateTenantTier_cases amb t st id w.isolationTier p.subject tn hget with
        ⟨hok, hset, hkeep, tn', hget'⟩ | ⟨⟨e, he⟩, hset, hkeep⟩
      · rw [hok]
        rw [ends_call, answer, onOk, FileStore.getTenant, hget', ends_done,
          hiff]
        have hid' : tn'.id = id := (get_eq_some.mp hget').2
        constructor
        · intro hc
          refine ⟨?_, hset⟩
          rintro rfl
          refine (hkeep rfl).not_crosses (fun x hx => ?_) hc
          obtain rfl := mem_singleton.mp hx
          exact ⟨not_foreign_tenant hid', not_foreign_tenant hid'⟩
        · rintro ⟨hid, -⟩
          refine .inl ⟨.tenant tn', mem_singleton.mpr rfl, .inl ⟨_, rfl, ?_⟩⟩
          rwa [hid']
      · rw [he]
        have hquiet : ∀ pr, (Crosses t st (.problem pr)
            (st.updateTenantTier amb id w.isolationTier p.subject).2 ↔
              TierStrays std amb r t st id) := fun pr =>
          iff_of_false (hkeep.not_crosses nofun) fun h => hset (hiff.mp h).2
        refine ends_ite (fun _ => hquiet _) fun _ => ends_ite (fun _ => hquiet _) fun _ =>
          ends_ite (fun _ => hquiet _) fun _ => hquiet _

/-! ### Sites -/

theorem crosses_siteOrgs {items : List SiteOrg} {token : Bytes} :
    Crosses t st (.json 200 (.siteOrgs items token)) st ↔
      ∃ so ∈ items, Foreign t st (.siteOrg so) := by
  simp [crosses_self, returned, Body.records]

theorem serveSiteOrgsList_crosses :
    CrossesIff amb t st (serveSiteOrgsList std r) (SiteListStrays std r t st) := by
  intro p hp
  rw [serveSiteOrgsList, requireOrgAdmin_admin hp, ends_call, answer, onOk]
  refine ends_withPageSize (fun hn _ => crosses_problem_iff ?_) fun n hn => ?_
  · rintro ⟨n, cursor, hn', -⟩
    exact nomatch hn.symm.trans hn'
  refine ends_withPageToken (fun hc _ => crosses_problem_iff ?_) fun cursor hc => ?_
  · rintro ⟨n, cursor, -, hc', -⟩
    exact nomatch hc.symm.trans hc'
  have hiff : SiteListStrays std r t st ↔
      ShownInPage st.siteOrgs.rows (siteListed std r cursor) (fun a b => le a.site b.site)
        (fun so => Foreign t st (.siteOrg so)) n := by
    simp [SiteListStrays, hn, hc]
  rw [ends_done, crosses_siteOrgs, hiff]
  refine exists_take_iff_shownInPage (fun a => Text.le_refl a.site) ?_ ?_ ?_ n
  · exact (pairwise_sortBy SiteOrg.site _).filter _
  · refine ((perm_sortBy SiteOrg.site _).filter _).trans ?_
    rw [filter_unless, filter_unless, filter_filter, filter_filter]
    refine ((perm_sortBy SiteOrg.site _).filter _).trans (.of_eq ?_)
    refine filter_congr fun so _ => ?_
    rw [siteListed]
    ac_rfl
  · intro a ha b hb hab hba hf
    rwa [← eq_of_key_eq ha hb (Text.le_antisymm hab hba)]

/-- A site's new mapping crosses exactly when it or the one taken away is another tenant's. -/
theorem crosses_put_siteOrg {auds : List TenantAudit} {so : SiteOrg} {status : Nat}
    (hne : ∀ cur, st.siteOrgs.get so.site = some cur → cur ≠ so) :
    Crosses t st (.json status (.siteOrg so))
        { st with siteOrgs := st.siteOrgs.put so, tenantAuds := auds } ↔
      Foreign t st (.siteOrg so) ∨
        ∃ cur, st.siteOrgs.get so.site = some cur ∧ Foreign t st (.siteOrg cur) := by
  have hswap : Swaps st { st with siteOrgs := st.siteOrgs.put so, tenantAuds := auds }
      ((st.siteOrgs.get so.site).map .siteOrg) (some (.siteOrg so)) := by
    intro x
    cases x <;> simp [Holds, get_eq_some]
    tauto
  constructor
  · intro hc
    rcases hswap.of_crosses hc with ⟨x, hx, hf⟩ | ⟨x, hx, hf⟩ | ⟨x, ⟨rfl⟩, hf⟩
    · obtain rfl := mem_singleton.mp hx
      exact .inl (or_self_iff.mp hf)
    · obtain ⟨cur, hget, rfl⟩ := Option.map_eq_some_iff.mp hx
      exact .inr ⟨cur, hget, hf⟩
    · exact .inl hf
  · rintro (hf | ⟨cur, hget, hf⟩)
    · exact .inl ⟨_, mem_singleton.mpr rfl, .inl hf⟩
    · rw [hget] at hswap
      exact hswap.crosses (by simpa using hne cur hget) (get_eq_some.mp hget).1 hf

theorem foreign_siteOrg_iff {so : SiteOrg} {o : Org} (h : st.orgs.get so.orgID = some o) :
    Foreign t st (.siteOrg so) ↔ o.tenantID ≠ t := by
  simp [Foreign, owner, h]

/-- Attaching a site does nothing when it is there, writes, or fails with a reason. -/
theorem attachSiteToOrg_cases (site orgID principal : Bytes) :
    let res := st.attachSiteToOrg amb site orgID principal
    let moves := ∀ cur, st.siteOrgs.get site = some cur → cur.orgID ≠ orgID
    (∃ o cur, res = (.ok (), st) ∧ validSiteSlug site = true ∧ st.orgs.get orgID = some o ∧
        st.siteOrgs.get site = some cur ∧ cur.orgID = orgID) ∨
      (∃ o created auds, res = (.ok (), { st with
          siteOrgs := st.siteOrgs.put ⟨site, orgID, created, amb.now⟩, tenantAuds := auds }) ∧
        validSiteSlug site = true ∧ st.orgs.get orgID = some o ∧ moves ∧ amb.save = none) ∨
      ∃ e, res = (.error e, st) ∧ (validSiteSlug site = false ∨ st.orgs.get orgID = none ∨
        moves ∧ amb.save ≠ none) := by
  unfold FileStore.attachSiteToOrg
  cases hslug : validSiteSlug site with
  | false => exact .inr (.inr ⟨_, rfl, .inl rfl⟩)
  | true =>
    cases horg : st.orgs.get orgID with
    | none => exact .inr (.inr ⟨_, rfl, .inr (.inl rfl)⟩)
    | some o =>
      cases hsite : st.siteOrgs.get site with
      | none =>
        rcases commit_cases amb st _ [] () with ⟨h, hs⟩ | ⟨e, h, hs⟩
        · exact .inr (.inl ⟨o, _, _, h, rfl, rfl, nofun, hs⟩)
        · exact .inr (.inr ⟨e, h, .inr (.inr ⟨nofun, hs⟩)⟩)
      | some cur =>
        by_cases hcur : cur.orgID = orgID
        · exact .inl ⟨o, cur, by simp [hcur], rfl, rfl, rfl, hcur⟩
        have hmoves : ∀ x, some cur = some x → x.orgID ≠ orgID := by
          rintro x ⟨rfl⟩
          exact hcur
        simp only [Bool.not_true, Bool.false_eq_true, if_false, hcur]
        rcases commit_cases amb st _ [] () with ⟨h, hs⟩ | ⟨e, h, hs⟩
        · exact .inr (.inl ⟨o, _, _, h, trivial, rfl, hmoves, hs⟩)
        · exact .inr (.inr ⟨e, h, .inr (.inr ⟨hmoves, hs⟩)⟩)

theorem serveSiteOrgsAttach_crosses :
    CrossesIff amb t st (serveSiteOrgsAttach std r) (AttachStrays std amb r t st) := by
  intro p hp
  rw [serveSiteOrgsAttach, requireOrgAdmin_admin hp]
  refine ends_decodeBody (fun hno _ => crosses_problem_iff ?_) fun w hw => ?_
  · rintro ⟨w, hw, -⟩
    exact hno w hw
  have hiff : AttachStrays std amb r t st ↔
      AttachStraysTo amb t st (trimSpace w.site) (trimSpace w.orgID) :=
    ⟨fun ⟨w', hw', h⟩ => hw.unique hw' ▸ h, fun h => ⟨w, hw, h⟩⟩
  rw [hiff]
  generalize trimSpace w.site = site
  generalize trimSpace w.orgID = orgID
  refine ends_ite (fun he => crosses_problem_iff ?_) fun hne => ?_
  · rintro ⟨horg, hslug, -⟩
    rcases he with rfl | rfl
    · exact absurd hslug (by decide)
    · exact horg rfl
  rw [not_or] at hne
  rw [ends_call, answer]
  rcases @attachSiteToOrg_cases amb st site orgID p.subject with
    ⟨o, cur, h, hslug, horg, hsite, rfl⟩ | ⟨o, created, auds, h, hslug, horg, hmoves, hs⟩ |
      ⟨e, h, hwhy⟩
  · rw [h]
    rw [ends_call, answer, FileStore.getSiteOrg, hsite]
    refine crosses_self.trans ?_
    simp [AttachStraysTo, returned, Body.records, foreign_siteOrg_iff horg, hslug, horg, hsite,
      hne.2]
  · let so : SiteOrg := ⟨site, orgID, created, amb.now⟩
    have hget : (st.siteOrgs.put so).get site = some so := get_put_self
    have hso : Foreign t st (.siteOrg so) ↔ o.tenantID ≠ t := foreign_siteOrg_iff horg
    rw [h]
    rw [ends_call, answer, FileStore.getSiteOrg, hget]
    refine (crosses_put_siteOrg ?_).trans ?_
    · rintro cur hcur rfl
      exact hmoves so hcur rfl
    · rw [hso, AttachStraysTo]
      cases hsite : st.siteOrgs.get site with
      | none => simp [hslug, horg, hne.2, hs]
      | some cur => simp [hslug, horg, hne.2, hs, hmoves cur hsite]
  · have hno : ¬ AttachStraysTo amb t st site orgID := by
      rintro ⟨-, hslug, o, horg, hrest⟩
      rcases hwhy with h | h | ⟨hmoves, hs⟩
      · exact nomatch hslug.symm.trans h
      · exact nomatch horg.symm.trans h
      · split at hrest
        · exact hs hrest.1
        · rw [if_neg (hmoves _ ‹_›)] at hrest
          exact hs hrest.1
    rw [h]
    exact ends_ite (fun _ => crosses_problem_iff hno) fun _ =>
      ends_ite (fun _ => crosses_problem_iff hno) fun _ => crosses_problem_iff hno

theorem serveSiteOrgsDetach_crosses :
    CrossesIff amb t st (serveSiteOrgsDetach r) (DetachStrays amb r t st) := by
  intro p hp
  rw [serveSiteOrgsDetach, requireOrgAdmin_admin hp]
  unfold DetachStrays
  generalize trimSpace (r.queryGet "site") = site
  refine ends_ite (fun he => crosses_problem_iff fun h => h.2.1 he) fun hne => ?_
  have hproblem : ∀ {e : StoreError} {Q : Reply Body → FileStore → Prop},
      (∀ pr, Q (.problem pr) st) →
      Prog.Ends (answer amb) st Q
        (if contains "core: detach site from org: not found" e.text then
          notFound "site not found" site else storeError) := fun hQ =>
    ends_ite (fun _ => hQ _) fun _ => hQ _
  rw [ends_call, answer, FileStore.detachSiteFromOrg]
  cases hsite : st.siteOrgs.get site with
  | none => exact hproblem fun pr => crosses_problem_iff (by simp)
  | some cur =>
    dsimp only
    rcases commit_cases amb st _ "core: detach site from org: save: " () with
      ⟨h, hs⟩ | ⟨e, h, hs⟩
    · rw [h]
      refine (@Swaps.removes t st _ (.siteOrg cur) (fun x => ?_) (get_eq_some.mp hsite).1).trans ?_
      · cases x <;> simp [Holds, Table.mem_erase_of_get hsite]
      · simp [hs, hne]
    · rw [h]
      exact hproblem fun pr => crosses_problem_iff fun h => hs h.1

/-! ### Role bindings -/

theorem crosses_roleBindings {items : List RoleBinding} {token : Bytes} :
    Crosses t st (.json 200 (.roleBindings items token)) st ↔
      ∃ rb ∈ items, Foreign t st (.roleBinding rb) := by
  simp [crosses_self, returned, Body.records]

theorem serveRoleBindingsList_crosses :
    CrossesIff amb t st (serveRoleBindingsList std r) (BindingListStrays std r t st) := by
  intro p hp
  rw [serveRoleBindingsList, requireOrgAdmin_admin hp]
  unfold BindingListStrays
  generalize trimSpace (r.queryGet "subject") = subject
  generalize trimSpace (r.queryGet "q") = q
  refine ends_ite (fun hs => ?_) fun hs => ?_
  all_goals
    rw [ends_call, answer, onOk]
    refine ends_withPageSize (fun hn _ => crosses_problem_iff (by simp [hn])) fun n hn => ?_
    refine ends_withPageToken (fun hc _ => crosses_problem_iff (by simp [hs, hc]))
      fun cursor hc => ?_
  · simp only [hn, hs, hc, Option.some.injEq, exists_eq_left', if_true, ne_eq, not_false_eq_true]
    refine crosses_roleBindings.trans
      (exists_take_iff_shownInPage (fun a => Text.le_refl a.scope) ?_ ?_ ?_ n)
    · exact (pairwise_sortBy RoleBinding.scope _).filter _
    · refine ((perm_sortBy RoleBinding.scope _).filter _).trans (.of_eq ?_)
      rw [filter_filter]
      simp only [Bool.and_comm]
    · intro a _ b _ hab hba hf
      simpa only [Foreign, owner, Text.le_antisymm hab hba] using hf
  · simp only [hn, hs, hc, Option.some.injEq, exists_eq_left', if_false]
    refine crosses_roleBindings.trans (exists_take_iff_shownInPage
      (fun a => or_self_iff.mp (FileStore.grantLe_total a a)) ?_ ?_ ?_ n)
    · rw [filter_unless]
      exact ((pairwise_insertionSort_of FileStore.grantLe_total FileStore.grantLe_trans _).filter
        _).filter _
    · rw [filter_unless, filter_filter]
      refine ((perm_insertionSort _ _).filter _).trans (.of_eq ?_)
      simp only [Bool.and_comm]
    · intro a ha b hb hab hba hf
      rwa [← eq_of_key_eq ha hb (FileStore.grantLe_antisymm hab hba)]

/-- A put binding crosses by its scope: every row it touches or returns has that scope. -/
theorem crosses_put_roleBinding {row shown : RoleBinding} {scope : Bytes} {status : Nat}
    (hrow : row.scope = scope) (hshown : shown.scope = scope) :
    Crosses t st (.json status (.roleBinding shown))
        { st with roleBindings := st.roleBindings.put row } ↔
      ∃ u, crnTenant scope = some u ∧ u ≠ t := by
  have hscope : ∀ (rb : RoleBinding) (s : FileStore), rb.scope = scope →
      (Foreign t s (.roleBinding rb) ↔ ∃ u, crnTenant scope = some u ∧ u ≠ t) := by
    rintro rb s rfl
    rfl
  have hswap : Swaps st { st with roleBindings := st.roleBindings.put row }
      ((st.roleBindings.get row.grant).map .roleBinding) (some (.roleBinding row)) := by
    intro x
    cases x <;> simp [Holds, get_eq_some]
    tauto
  constructor
  · intro hc
    rcases hswap.of_crosses hc with ⟨x, hx, hf⟩ | ⟨x, hx, hf⟩ | ⟨x, ⟨rfl⟩, hf⟩
    · obtain rfl := mem_singleton.mp hx
      exact hf.elim (hscope _ _ hshown).mp (hscope _ _ hshown).mp
    · obtain ⟨cur, hget, rfl⟩ := Option.map_eq_some_iff.mp hx
      have hgrant := (get_eq_some.mp hget).2
      exact (hscope cur st ((Prod.ext_iff.mp hgrant).2.trans hrow)).mp hf
    · exact (hscope row _ hrow).mp hf
  · intro h
    exact .inl ⟨_, mem_singleton.mpr rfl, .inl ((hscope shown st hshown).mpr h)⟩

theorem serveRoleBindingsPut_crosses :
    CrossesIff amb t st (serveRoleBindingsPut std r) (PutStrays std amb r t) := by
  intro p hp
  rw [serveRoleBindingsPut, requireOrgAdmin_admin hp]
  refine ends_decodeBody (fun hno _ => crosses_problem_iff ?_) fun w hw => ?_
  · rintro ⟨w, hw, -⟩
    exact hno w hw
  have hiff : PutStrays std amb r t ↔
      PutStraysOf amb t (trimSpace w.subject) (trimSpace w.scope) (trimSpace w.origin) :=
    ⟨fun ⟨w', hw', h⟩ => hw.unique hw' ▸ h, fun h => ⟨w, hw, h⟩⟩
  rw [hiff]
  generalize trimSpace w.subject = subject
  generalize trimSpace w.scope = scope
  generalize trimSpace w.origin = asked
  refine ends_ite (fun he => crosses_problem_iff fun h => he.elim h.1 h.2.1) fun hne => ?_
  rw [not_or] at hne
  have horigin : (asked = [] ∨ asked = lit "legacy" ∨ asked = lit "crn") ↔
      ¬ ((if asked = [] then lit "legacy" else asked) ≠ lit "legacy" ∧
        (if asked = [] then lit "legacy" else asked) ≠ lit "crn") := by
    split <;> simp_all [imp_iff_not_or]
  rw [PutStraysOf, horigin]
  generalize (if asked = [] then lit "legacy" else asked) = origin
  refine ends_ite (fun he => crosses_problem_iff fun h => h.2.2.1 he) fun ho => ?_
  rw [ends_call, answer]
  rcases FileStore.putRoleBinding_cases amb st
      ⟨std.newRoleBindingID, subject, scope, origin, std.now, std.now⟩ hne.1 hne.2 with
    ⟨row, hrow, hs, hput⟩ | ⟨e, hput, hs⟩
  · rw [hput]
    rw [ends_call, answer, onOk]
    have hscope : row.scope = scope := (Prod.ext_iff.mp hrow).2
    have hcond : (subject ≠ [] ∧ scope ≠ [] ∧ ¬ (origin ≠ lit "legacy" ∧ origin ≠ lit "crn") ∧
        amb.save = none ∧ ∃ u, crnTenant scope = some u ∧ u ≠ t) ↔
          ∃ u, crnTenant scope = some u ∧ u ≠ t :=
      ⟨fun h => h.2.2.2.2, fun h => ⟨hne.1, hne.2, ho, hs, h⟩⟩
    rw [hcond]
    split
    · rename_i shown hfind
      exact crosses_put_roleBinding hscope (by simpa using find?_some hfind)
    · exact crosses_put_roleBinding hscope rfl
  · rw [hput]
    exact crosses_problem_iff fun h => hs h.2.2.2.1

theorem serveRoleBindingsDelete_crosses :
    CrossesIff amb t st (serveRoleBindingsDelete r) (DeleteStrays amb r t st) := by
  intro p hp
  rw [serveRoleBindingsDelete, requireOrgAdmin_admin hp]
  unfold DeleteStrays
  dsimp only
  generalize trimSpace (r.queryGet "subject") = subject
  generalize trimSpace (r.queryGet "scope") = scope
  refine ends_ite (fun he => crosses_problem_iff fun h => he.elim h.2.1 h.2.2.1) fun hne => ?_
  rw [not_or] at hne
  rw [ends_call, answer, FileStore.deleteRoleBinding, if_neg (by simpa using hne)]
  cases hget : st.roleBindings.get (subject, scope) with
  | none => exact iff_of_false (by simp [crosses_self, returned]) (by simp)
  | some rb =>
    rcases commit_cases amb st _ [] () with ⟨h, hs⟩ | ⟨e, h, hs⟩
    · rw [h]
      refine (@Swaps.removes t st _ (.roleBinding rb) (fun x => ?_)
        (get_eq_some.mp hget).1).trans ?_
      · cases x <;> simp [Holds, Table.mem_erase_of_get hget]
      · simp [hs, hne]
    · rw [h]
      exact crosses_problem_iff fun h => hs h.1

/-! ### The surface as a whole -/

theorem serveTenantTier_crosses :
    CrossesIff amb t st (serveTenantTier std r) (TierRouteStrays std amb r t st) := by
  intro p hp
  unfold serveTenantTier TierRouteStrays
  generalize (cutPrefix "/v1/tenants/" r.path).getD r.path = rest
  refine ends_ite (fun he => crosses_problem_iff ?_) fun _ => ?_
  · rintro ⟨-, id, hid, hne, -⟩
    rw [he] at hid
    exact nomatch hid
  refine ends_ite (fun hm => ?_) fun _ => ?_
  · have hno : ¬ ((r.method = .post) ∧ ∃ id, cutSuffix ":tier" rest = some id ∧ id ≠ [] ∧
        TierStrays std amb r t st id) := by
      rw [hm]
      exact fun h => nomatch h.1
    refine ends_ite (fun _ => crosses_problem_iff hno) fun _ => ?_
    rw [serveTenantDelete, requireOrgAdmin_admin hp]
    exact crosses_problem_iff hno
  refine ends_ite (fun hm => crosses_problem_iff fun h => hm h.1) fun hm => ?_
  rw [ne_eq, not_not] at hm
  cases hid : cutSuffix (lit ":tier") rest with
  | none => exact crosses_problem_iff (by simp)
  | some id =>
    refine ends_ite (fun he => crosses_problem_iff (by simp [he])) fun hne => ?_
    simpa [hm, hne] using serveTenantTierPost_crosses p hp

theorem serveSiteOrgs_crosses :
    CrossesIff amb t st (serveSiteOrgs std r) (SiteOrgsStrays std amb r t st) := by
  intro p hp
  unfold serveSiteOrgs SiteOrgsStrays
  cases r.method with
  | get => exact serveSiteOrgsList_crosses p hp
  | post => exact serveSiteOrgsAttach_crosses p hp
  | delete => exact serveSiteOrgsDetach_crosses p hp
  | put | other _ => exact crosses_problem_iff id

theorem serveRoleBindings_crosses :
    CrossesIff amb t st (serveRoleBindings std r) (RoleBindingsStrays std amb r t st) := by
  intro p hp
  unfold serveRoleBindings RoleBindingsStrays
  cases r.method with
  | get => exact serveRoleBindingsList_crosses p hp
  | post => exact serveRoleBindingsPut_crosses p hp
  | delete => exact serveRoleBindingsDelete_crosses p hp
  | put | other _ => exact crosses_problem_iff id

/-- **Tenant-scoped admins.**  On the whole administration surface, an admin's request that carries
`t` touches no record of another tenant exactly when it does not stray. -/
theorem admin_stays_in_tenant_iff {h : Handler} (hp : p.role = .admin)
    (hfresh : st.orgs.get amb.newOrgID = none)
    (hh : adminSurface std r ⟨some p, some t⟩ = some h) :
    ¬ Crosses t st (h.exec (answer amb) st).1 (h.exec (answer amb) st).2 ↔
      ¬ Strays std amb r t st := by
  refine not_congr ?_
  unfold Strays
  unfold adminSurface at hh
  split at hh
  all_goals first | cases hh; done | obtain rfl := Option.some.inj hh
  all_goals rename_i hroute; rw [hroute]
  · exact serveTenants_quiet p hp
  · exact serveTenantTier_crosses p hp
  · exact serveOrgs_quiet hfresh p hp
  · exact serveOrg_quiet p hp
  · exact serveSiteOrgs_crosses p hp
  · exact serveRoleBindings_crosses p hp

end Handlers

def otherStore : FileStore :=
  { FileStore.empty with tenants := .put .empty ⟨"other", "Other", "label", "active", 0, 0⟩ }

def raiseOther : Request :=
  ⟨.post, "/v1/tenants/other:tier", [], [], [], [], [], .ok "row"⟩

def rowStd : Std := { Std.plain with tenantTier := fun b => .ok ⟨b⟩ }

def acmeAdmin : Principal := ⟨"svc:admin", .admin, [], none⟩

def quietAmbient : Ambient := ⟨1, "og_1", "ta_1", "ta_2", "rb_1", none⟩

theorem admin_stays_in_tenant_iff_raiseOther :
    let h := serveTenantTier rowStd raiseOther ⟨some acmeAdmin, some (lit "acme")⟩
    ¬ Crosses "acme" otherStore (h.exec (answer quietAmbient) otherStore).1
        (h.exec (answer quietAmbient) otherStore).2 ↔
      ¬ Strays rowStd quietAmbient raiseOther "acme" otherStore :=
  admin_stays_in_tenant_iff rfl (by decide) rfl

/-- The admin of `acme` raises the tier of `other`, and is answered with its record. -/
theorem admin_of_acme_raises_other :
    let h := serveTenantTier rowStd raiseOther ⟨some acmeAdmin, some (lit "acme")⟩
    adminSurface rowStd raiseOther ⟨some acmeAdmin, some (lit "acme")⟩ = some h ∧
      Crosses "acme" otherStore (h.exec (answer quietAmbient) otherStore).1
        (h.exec (answer quietAmbient) otherStore).2 :=
  ⟨rfl, .inl ⟨.tenant ⟨"other", "Other", "row", "active", 0, 1⟩, by decide, .inl ⟨"other", rfl,
    by decide⟩⟩⟩

end Cios.Http.Admin
