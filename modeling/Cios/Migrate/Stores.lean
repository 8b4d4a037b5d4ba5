import Cios.Migrate.V11
import Cios.Http.RoleBindings
import Cios.Store.PgTenancy

/-!
# Migration — what it runs against

The migration's calls are answered by one of the two stores (`Backend`), by its audit sink, and by
what lies outside the program: the clock, drawn ids, faults of the disk or the database, and the
order of map ranges (`Outside`, sampled anew at each call).  `step` relates the state before a call,
its answer and the state after.

Sites enter `site_orgs` only through `AttachSiteToOrg`, which checks them at the store boundary;
`Holding` carries that check, and both stores keep it.
-/

namespace Cios.Migrate
open Text Keyed.Table
open Cios.Store

/-- The implementations of the `Store` interface. -/
inductive Backend where
  | file
  | pg
deriving DecidableEq, Repr

/-- What a call finds outside. -/
structure Outside extends Ambient where
  fault : Option Fault
  constraint : Bytes
  sinkErr : Option Bytes
  range : List Bytes → List Bytes
  range_perm : ∀ keys, (range keys).Perm keys

/-- The store, the paths of its assets as listed, and the lines of the audit sink. -/
structure Holding where
  store : FileStore
  assets : List Bytes
  sink : List (Bytes × Bytes × Bytes)
  sites_valid : ∀ so ∈ store.siteOrgs.rows, validSiteSlug so.site = true

/-! ### The two stores -/

namespace Backend

variable (b : Backend) (out : Outside) (st : FileStore)

def read {α : Type} (a : α) : Except StoreError α :=
  match b with
  | file => .ok a
  | pg => PgStore.read out.fault a

variable (tenantID name principal : Bytes)

def createOrg : Except StoreError Org × FileStore :=
  match b with
  | file => st.createOrg out.toAmbient tenantID name principal
  | pg => PgStore.createOrg out.toAmbient out.fault out.constraint st tenantID name principal

variable (site orgID principal : Bytes)

def attachSiteToOrg : Except StoreError Unit × FileStore :=
  match b with
  | file => st.attachSiteToOrg out.toAmbient site orgID principal
  | pg => PgStore.attachSiteToOrg out.toAmbient out.fault out.constraint st site orgID principal

def putRoleBinding (rb : RoleBinding) : Except StoreError Unit × FileStore :=
  match b with
  | file => st.putRoleBinding out.toAmbient rb
  | pg => PgStore.putRoleBinding out.toAmbient out.fault out.constraint st rb

def deleteRoleBinding (subject scope : Bytes) : Except StoreError Unit × FileStore :=
  match b with
  | file => st.deleteRoleBinding out.toAmbient subject scope
  | pg => PgStore.deleteRoleBinding out.fault st subject scope

/-! ### What each call leaves alone -/

variable {st}

theorem commit_ind {α : Type} {amb : Ambient} {text : Bytes} {a : α} {st' : FileStore}
    {P : Except StoreError α × FileStore → Prop} (h : P (.ok a, st'))
    (h₀ : ∀ text, P (.error (.plain text), st)) : P (FileStore.commit amb st text a st') := by
  unfold FileStore.commit
  split
  · exact h
  · exact h₀ _

/-- A new organisation goes in, or the store stays; a conflict names a row that is in the way. -/
def OrgCreated (st : FileStore) (tenantID name : Bytes)
    (r : Except StoreError Org × FileStore) : Prop :=
  (∃ e, r = (.error e, st) ∧ (e.sentinel = some .orgNameConflict →
      ∃ o ∈ st.orgs.rows, o.id = out.newOrgID ∨ o.tenantID = tenantID ∧ o.name = name)) ∨
  (∀ o ∈ st.orgs.rows, ¬ (o.tenantID = tenantID ∧ o.name = name)) ∧
    ∃ auds, r.2 = { st with
        orgs := st.orgs.put ⟨out.newOrgID, tenantID, name, out.now⟩
        tenantAuds := auds } ∧
      ∀ org, r.1 = .ok org → org = ⟨out.newOrgID, tenantID, name, out.now⟩

variable (st) in
theorem createOrg_result :
    OrgCreated out st tenantID name (b.createOrg out st tenantID name principal) := by
  have hst : ∀ text, OrgCreated out st tenantID name (.error (.plain text), st) := fun text =>
    .inl ⟨_, rfl, by rintro ⟨⟩⟩
  cases b with
  | file =>
    simp only [createOrg, FileStore.createOrg]
    repeat' split
    · exact hst _
    · exact hst _
    · rename_i hany
      obtain ⟨o, ho, h⟩ := List.any_eq_true.mp hany
      exact .inl ⟨_, rfl, fun _ => ⟨o, ho, .inr (by simpa using h)⟩⟩
    · rename_i hany
      have hnone : ∀ o ∈ st.orgs.rows, ¬ (o.tenantID = tenantID ∧ o.name = name) := by
        simpa using hany
      exact commit_ind (.inr ⟨hnone, _, rfl, fun _ h => (Except.ok.inj h).symm⟩) hst
  | pg =>
    simp only [createOrg, PgStore.createOrg]
    split
    · exact hst _
    refine PgStore.begin_ind _ _ hst ?_
    repeat' split
    · rename_i hany
      obtain ⟨o, ho, h⟩ := List.any_eq_true.mp hany
      exact .inl ⟨_, rfl, fun _ => ⟨o, ho, by simpa using h⟩⟩
    · exact hst _
    rename_i hany _
    have hnone : ∀ o ∈ st.orgs.rows, ¬ (o.tenantID = tenantID ∧ o.name = name) := by
      intro o ho h
      exact hany (List.any_eq_true.mpr ⟨o, ho, by simp [h]⟩)
    exact PgStore.appendTenantAudit_ind _ _ _ hst
      (fun auds => .inr ⟨hnone, auds, rfl, fun _ h => (Except.ok.inj h).symm⟩)
      fun auds _ => .inr ⟨hnone, auds, rfl, by rintro _ ⟨⟩⟩

theorem createOrg_siteOrgs :
    (b.createOrg out st tenantID name principal).2.siteOrgs = st.siteOrgs := by
  rcases b.createOrg_result out st tenantID name principal with ⟨e, h, -⟩ | ⟨-, auds, h, -⟩
  iterate 2 rw [h]

/-- An attachment puts its site's row, of a valid name, or leaves the store; it succeeds
attached. -/
def SiteAttached (st : FileStore) (site orgID : Bytes)
    (r : Except StoreError Unit × FileStore) : Prop :=
  r.2 = st ∧ (r.1 = .ok () → validSiteSlug site = true ∧
      ∃ so ∈ st.siteOrgs.rows, so.site = site ∧ so.orgID = orgID) ∨
  validSiteSlug site = true ∧ ∃ createdAt updatedAt auds, r.2 = { st with
      siteOrgs := st.siteOrgs.put ⟨site, orgID, createdAt, updatedAt⟩
      tenantAuds := auds }

variable (st) in
theorem attachSiteToOrg_result :
    SiteAttached st site orgID (b.attachSiteToOrg out st site orgID principal) := by
  have hst : ∀ e, SiteAttached st site orgID (.error e, st) := fun _ => .inl ⟨rfl, nofun⟩
  by_cases hv : validSiteSlug site = true
  · have hkeep : ∀ cur : SiteOrg, st.siteOrgs.get site = some cur → cur.orgID = orgID →
        SiteAttached st site orgID (.ok (), st) := fun cur hcur horg =>
      have hin := get_eq_some.mp hcur
      .inl ⟨rfl, fun _ => ⟨hv, cur, hin.1, hin.2, horg⟩⟩
    have hput : ∀ r createdAt updatedAt auds, SiteAttached st site orgID (r, { st with
        siteOrgs := st.siteOrgs.put ⟨site, orgID, createdAt, updatedAt⟩
        tenantAuds := auds }) := fun _ _ _ _ => .inr ⟨hv, _, _, _, rfl⟩
    cases b with
    | file =>
      simp only [attachSiteToOrg, FileStore.attachSiteToOrg, hv]
      repeat' split
      · contradiction
      · exact hst _
      · exact hkeep _ (by assumption) (by assumption)
      iterate 2 exact commit_ind (hput _ _ _ _) fun _ => hst _
    | pg =>
      simp only [attachSiteToOrg, PgStore.attachSiteToOrg, hv]
      split
      · contradiction
      refine PgStore.begin_ind _ _ (fun _ => hst _) ?_
      repeat' split
      · exact hst _
      · exact PgStore.write_ind _ _ (hkeep _ (by assumption) (by assumption)) (fun _ => hst _)
          fun _ => hst _
      iterate 2
        · exact PgStore.appendTenantAudit_ind _ _ _ (fun _ => hst _) (fun _ => hput _ _ _ _)
            fun _ _ => hput _ _ _ _
  · have hbad : validSiteSlug site = false := by simpa using hv
    cases b <;> simpa [attachSiteToOrg, FileStore.attachSiteToOrg, PgStore.attachSiteToOrg, hbad]
      using hst _

theorem attachSiteToOrg_siteOrgs {so : SiteOrg}
    (hso : so ∈ (b.attachSiteToOrg out st site orgID principal).2.siteOrgs.rows) :
    so ∈ st.siteOrgs.rows ∨ validSiteSlug so.site = true := by
  rcases b.attachSiteToOrg_result out st site orgID principal with ⟨h, -⟩ | ⟨hv, _, _, _, h⟩
  · exact .inl (h ▸ hso)
  rw [h] at hso
  rcases mem_put.mp hso with ⟨hso, -⟩ | rfl
  · exact .inl hso
  · exact .inr hv

/-- A put writes a row of its grant and origin; when it fails it may have done so. -/
def BindingPut (st : FileStore) (rb : RoleBinding)
    (r : Except StoreError Unit × FileStore) : Prop :=
  r.1 ≠ .ok () ∧ r.2 = st ∨
  ∃ row : RoleBinding, row.grant = rb.grant ∧
    row.origin = (if rb.origin = [] then lit "legacy" else rb.origin) ∧
    r.2 = { st with roleBindings := st.roleBindings.put row }

variable (st) in
theorem putRoleBinding_result (rb : RoleBinding) :
    BindingPut st rb (b.putRoleBinding out st rb) := by
  have hst : ∀ e, BindingPut st rb (.error e, st) := fun _ => .inl ⟨nofun, rfl⟩
  have hput : ∀ r (row : RoleBinding), row.grant = rb.grant →
      row.origin = (if rb.origin = [] then lit "legacy" else rb.origin) →
      BindingPut st rb (r, { st with roleBindings := st.roleBindings.put row }) :=
    fun _ row hg ho => .inr ⟨row, hg, ho, rfl⟩
  cases b with
  | file =>
    simp only [putRoleBinding, FileStore.putRoleBinding]
    split
    · exact hst _
    refine commit_ind (hput _ _ ?_ ?_) fun _ => hst _
    · split
      · rename_i existing hget
        exact (get_eq_some.mp hget).2
      · rfl
    · split <;> rfl
  | pg =>
    simp only [putRoleBinding, PgStore.putRoleBinding]
    generalize (if rb.origin = [] then lit "legacy" else rb.origin) = origin at hput ⊢
    generalize (if rb.id = [] then out.newRoleBindingID else rb.id) = id
    split
    · exact hst _
    refine PgStore.begin_ind _ _ (fun _ => hst _) ?_
    split
    · exact hst _
    split
    · rename_i existing hget
      have hg : existing.grant = rb.grant := (get_eq_some.mp hget).2
      exact PgStore.write_ind _ _ (hput _ _ hg rfl) (fun _ => hst _) fun _ => hput _ _ hg rfl
    · split
      · exact hst _
      · exact PgStore.write_ind _ _ (hput _ _ rfl rfl) (fun _ => hst _)
          fun _ => hput _ _ rfl rfl

/-- A delete takes out the row of its grant; when it fails it may have done so. -/
def BindingDeleted (st : FileStore) (g : Bytes × Bytes) (r : Except StoreError Unit × FileStore) :
    Prop :=
  r.1 ≠ .ok () ∧ r.2 = st ∨ r.2 = { st with roleBindings := st.roleBindings.erase g }

variable (st) in
theorem deleteRoleBinding_result (subject scope : Bytes) :
    BindingDeleted st (subject, scope) (b.deleteRoleBinding out st subject scope) := by
  have hst : ∀ e, BindingDeleted st (subject, scope) (.error e, st) := fun _ => .inl ⟨nofun, rfl⟩
  cases b with
  | file =>
    simp only [deleteRoleBinding, FileStore.deleteRoleBinding]
    split
    · exact hst _
    split
    · exact commit_ind (.inr rfl) fun _ => hst _
    · rename_i hget
      refine .inr ?_
      rw [erase_of_get_none hget]
  | pg =>
    simp only [deleteRoleBinding, PgStore.deleteRoleBinding]
    split
    · exact hst _
    · exact PgStore.write_ind _ _ (.inr rfl) (fun _ => hst _) fun _ => .inr rfl

def grants (st : FileStore) : Set (Bytes × Bytes) := {g | g ∈ Http.Admin.grants st}

theorem mem_grants {g : Bytes × Bytes} :
    g ∈ grants st ↔ ∃ rb ∈ st.roleBindings.rows, rb.grant = g := Http.Admin.mem_grants

theorem grants_put {row : RoleBinding} :
    grants { st with roleBindings := st.roleBindings.put row } = insert row.grant (grants st) := by
  ext g
  rw [mem_grants, Http.Admin.mem_map_key_put, Set.mem_insert_iff, mem_grants]
  exact or_comm

theorem grants_erase {g₀ : Bytes × Bytes} :
    grants { st with roleBindings := st.roleBindings.erase g₀ } = grants st \ {g₀} := by
  ext g
  simp only [mem_grants, Set.mem_sdiff, mem_erase]
  constructor
  · rintro ⟨rb, ⟨hrb, hne⟩, rfl⟩
    exact ⟨⟨rb, hrb, rfl⟩, hne⟩
  · rintro ⟨⟨rb, hrb, rfl⟩, hne⟩
    exact ⟨rb, ⟨hrb, hne⟩, rfl⟩

theorem putRoleBinding_siteOrgs (rb : RoleBinding) :
    (b.putRoleBinding out st rb).2.siteOrgs = st.siteOrgs := by
  rcases b.putRoleBinding_result out st rb with ⟨-, h⟩ | ⟨row, -, -, h⟩
  iterate 2 rw [h]

theorem deleteRoleBinding_siteOrgs (subject scope : Bytes) :
    (b.deleteRoleBinding out st subject scope).2.siteOrgs = st.siteOrgs := by
  rcases b.deleteRoleBinding_result out st subject scope with ⟨-, h⟩ | h
  iterate 2 rw [h]

end Backend

/-! ### The relation -/

namespace Holding

def move (w : Holding) (st : FileStore)
    (h : ∀ so ∈ st.siteOrgs.rows, validSiteSlug so.site = true) : Holding :=
  { w with store := st, sites_valid := h }

def grants (w : Holding) : Set (Bytes × Bytes) := Backend.grants w.store

instance (w : Holding) (g : Bytes × Bytes) : Decidable (g ∈ w.grants) :=
  inferInstanceAs (Decidable (g ∈ Http.Admin.grants w.store))

end Holding

def Backend.answer (b : Backend) (out : Outside) : (op : MigrateOp) → Holding → op.Ret × Holding
  | .listTenants, w => (b.read out w.store.listTenants, w)
  | .listOrgs t, w => (b.read out (w.store.listOrgs t), w)
  | .listAssets, w => (b.read out w.assets, w)
  | .listSiteOrgs, w => (b.read out w.store.listSiteOrgs, w)
  | .createOrg t name p, w =>
    ((b.createOrg out w.store t name p).1, w.move (b.createOrg out w.store t name p).2 (by
      rw [b.createOrg_siteOrgs out t name p]
      exact w.sites_valid))
  | .attachSiteToOrg site org p, w =>
    ((b.attachSiteToOrg out w.store site org p).1,
      w.move (b.attachSiteToOrg out w.store site org p).2 fun so hso =>
        (b.attachSiteToOrg_siteOrgs out site org p hso).elim (w.sites_valid so) id)
  | .listAllRoleBindings, w => (b.read out w.store.listAllRoleBindings, w)
  | .putRoleBinding rb, w =>
    ((b.putRoleBinding out w.store rb).1, w.move (b.putRoleBinding out w.store rb).2 (by
      rw [b.putRoleBinding_siteOrgs out rb]
      exact w.sites_valid))
  | .deleteRoleBinding s sc, w =>
    ((b.deleteRoleBinding out w.store s sc).1,
      w.move (b.deleteRoleBinding out w.store s sc).2 (by
        rw [b.deleteRoleBinding_siteOrgs out s sc]
        exact w.sites_valid))
  | .recordRewrite s old new, w =>
    match out.sinkErr with
    | none => (.ok (), { w with sink := w.sink ++ [(s, old, new)] })
    | some e => (.error e, w)
  | .newRoleBindingID, w => (out.newRoleBindingID, w)
  | .now, w => (out.now, w)
  | .rangeMap keys, w => (out.range keys, w)

/-! ### What an answer leaves behind -/

section Answer

variable {b : Backend} {out : Outside} {w w' : Holding}

/-- Another state of the store, with the assets and the sink as they were. -/
structure Holding.Moved (w : Holding) (st : FileStore) (w' : Holding) : Prop where
  store : w'.store = st
  assets : w'.assets = w.assets
  sink : w'.sink = w.sink

theorem Holding.move_self {st : FileStore}
    {h : ∀ so ∈ st.siteOrgs.rows, validSiteSlug so.site = true} (e : st = w.store) :
    w.move st h = w := by
  subst e
  rfl

theorem answer_createOrg {t name p : Bytes} {r : Except StoreError Org}
    (h : b.answer out (.createOrg t name p) w = (r, w')) :
    (w' = w ∧ ∃ e, r = .error e ∧ (e.sentinel = some .orgNameConflict →
      ∃ o ∈ w.store.orgs.rows, o.id = out.newOrgID ∨ o.tenantID = t ∧ o.name = name)) ∨
    (∀ o ∈ w.store.orgs.rows, ¬ (o.tenantID = t ∧ o.name = name)) ∧
      (∃ auds, w.Moved { w.store with
        orgs := w.store.orgs.put ⟨out.newOrgID, t, name, out.now⟩
        tenantAuds := auds } w') ∧
      ∀ org, r = .ok org → org = ⟨out.newOrgID, t, name, out.now⟩ := by
  cases h
  rcases b.createOrg_result out w.store t name p with ⟨e, h, hc⟩ | ⟨hn, auds, h, hok⟩
  · exact .inl ⟨Holding.move_self (congrArg Prod.snd h), e, congrArg Prod.fst h, hc⟩
  · exact .inr ⟨hn, ⟨auds, h, rfl, rfl⟩, hok⟩

variable {r : Except StoreError Unit}

theorem answer_attachSiteToOrg {site org p : Bytes}
    (h : b.answer out (.attachSiteToOrg site org p) w = (r, w')) :
    w' = w ∧ (r = .ok () → validSiteSlug site = true ∧
      ∃ so ∈ w.store.siteOrgs.rows, so.site = site ∧ so.orgID = org) ∨
    validSiteSlug site = true ∧ ∃ createdAt updatedAt auds, w.Moved { w.store with
      siteOrgs := w.store.siteOrgs.put ⟨site, org, createdAt, updatedAt⟩
      tenantAuds := auds } w' := by
  cases h
  rcases b.attachSiteToOrg_result out w.store site org p with ⟨h, hok⟩ | ⟨hv, c, u, auds, h⟩
  · exact .inl ⟨Holding.move_self h, hok⟩
  · exact .inr ⟨hv, c, u, auds, h, rfl, rfl⟩

theorem answer_putRoleBinding {rb : RoleBinding}
    (h : b.answer out (.putRoleBinding rb) w = (r, w')) :
    r ≠ .ok () ∧ w' = w ∨ ∃ row : RoleBinding, row.grant = rb.grant ∧
      row.origin = (if rb.origin = [] then lit "legacy" else rb.origin) ∧
      w.Moved { w.store with roleBindings := w.store.roleBindings.put row } w' := by
  cases h
  rcases b.putRoleBinding_result out w.store rb with ⟨hr, h⟩ | ⟨row, hg, ho, h⟩
  · exact .inl ⟨hr, Holding.move_self h⟩
  · exact .inr ⟨row, hg, ho, h, rfl, rfl⟩

theorem answer_deleteRoleBinding {subject scope : Bytes}
    (h : b.answer out (.deleteRoleBinding subject scope) w = (r, w')) :
    r ≠ .ok () ∧ w' = w ∨
      w.Moved { w.store with roleBindings := w.store.roleBindings.erase (subject, scope) } w' := by
  cases h
  rcases b.deleteRoleBinding_result out w.store subject scope with ⟨hr, h⟩ | h
  · exact .inl ⟨hr, Holding.move_self h⟩
  · exact .inr ⟨h, rfl, rfl⟩

theorem answer_recordRewrite {s old new : Bytes} {r : Except Bytes Unit}
    (h : b.answer out (.recordRewrite s old new) w = (r, w')) :
    (∃ e, r = .error e) ∧ w' = w ∨
      r = .ok () ∧ w' = { w with sink := w.sink ++ [(s, old, new)] } := by
  cases hs : out.sinkErr with
  | none =>
    simp only [Backend.answer, hs] at h
    cases h
    exact .inr ⟨rfl, rfl⟩
  | some e =>
    simp only [Backend.answer, hs] at h
    cases h
    exact .inl ⟨⟨e, rfl⟩, rfl⟩

end Answer

/-- A call, its answer and the states before and after it, for some sample of the outside. -/
def Backend.step (b : Backend) (op : MigrateOp) (w : Holding) (r : op.Ret) (w' : Holding) : Prop :=
  ∃ out, b.answer out op w = (r, w')

theorem Backend.steps_answer {α : Type} (b : Backend) (out : Outside) (p : Migration α)
    (w : Holding) : p.Steps b.step w (p.exec (b.answer out) w).1 (p.exec (b.answer out) w).2 :=
  Effect.Prog.steps_exec (fun _ _ => ⟨out, rfl⟩) p w

end Cios.Migrate
