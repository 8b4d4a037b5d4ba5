import Cios.Migrate.Attribution
import Cios.Rbac.Reach

/-!
# Migration — decisions are kept

A rewritten role binding is read back with the dotted glob it had before, under a tenant
(`legacyToCRN_rewritten`).  The new row goes in before the old one is taken out, so at every point,
aborted or not, each subject reaches the dotted globs it reached at the start (`Kept`).  With no
request tenant and the legacy window open nothing else counts (`migrateV11_keeps_decisions`).
-/

namespace Cios.Migrate
open Text List Backend Bool
open Cios.Rbac
open Cios.Store
open Effect.Prog

/-! ### A rewritten scope -/

variable {tid scope site subject : Bytes} {sites : Names} {rb : RoleBinding}

theorem validTenantSlug_crn (h : validTenantSlug tid = true) : crnIsTidOrOid tid = true := by
  have hre : crnTidOidRe tid = true := by
    cases tid with
    | nil => cases h
    | cons c s =>
      simp only [validTenantSlug, and_eq_true] at h
      simp [crnTidOidRe, h]
  simp [crnIsTidOrOid, hre]

theorem validTenantSlug_no_slash (h : validTenantSlug tid = true) : ('/' : UInt8) ∉ tid := by
  cases tid with
  | nil => simp
  | cons c s =>
    simp only [validTenantSlug, and_eq_true, all_eq_true] at h
    intro hin
    rcases mem_cons.mp hin with rfl | hin
    · exact absurd h.1.2 (by decide)
    · exact absurd (h.2 _ hin) (by decide)

theorem validSiteSlug_alnum {s : Bytes} (h : validSiteSlug s = true) :
    4 ≤ s.length ∧ ∀ c ∈ s, isAlnum c = true := by
  simp only [validSiteSlug, and_eq_true, decide_eq_true_eq, all_eq_true] at h
  obtain ⟨⟨hlen, -⟩, ⟨hdig, -⟩, hlow⟩ := h
  refine ⟨hlen, fun c hc => ?_⟩
  rw [← take_append_drop (s.length - 2) s] at hc
  rcases mem_append.mp hc with hc | hc
  · simp [isAlnum, hlow c hc]
  · simp [isAlnum, hdig c hc]

theorem not_crn_of_site (h : legacyScopeSite scope = some site) (hv : validSiteSlug site = true) :
    crnPrefix.isPrefixOf scope = false := by
  obtain ⟨hlen, hal⟩ := validSiteSlug_alnum hv
  have hsite : site <+: scope := by
    simp only [legacyScopeSite] at h
    split at h
    · cases h
    · cases h
      exact takeWhile_prefix _
  by_contra hne
  have hcrn : crnPrefix <+: scope := by simpa using hne
  -- Both are prefixes of the scope, so the scheme with its colon would lie within the site.
  have hin : crnPrefix <+: site := prefix_of_prefix_length_le hcrn hsite hlen
  exact absurd (hal ':' (hin.subset (by decide))) (by decide)

/-- **A rewritten scope** is well formed, and its dotted glob is the old scope. -/
theorem legacyToCRN_rewritten (hs : DotGlob (split '.' scope)) (ht : validTenantSlug tid = true) :
    ScopeForm (legacyToCRN scope tid).toString ∧
      dottedOf (legacyToCRN scope tid).toString = some scope := by
  have hne : scope ≠ [] := by
    rintro rfl
    exact (hs [] (by simp [splitOn_nil])).1 rfl
  obtain ⟨sid, tail, (e : split '.' scope = sid :: tail)⟩ :=
    exists_cons_of_ne_nil (splitOn_ne_nil ('.' : UInt8) scope)
  have hc : legacyToCRN scope tid = ⟨tid, "default", sid, tail⟩ := by
    simp [legacyToCRN, hne, e]
  rw [e] at hs
  have hparse : parseCRN (legacyToCRN scope tid).toString = .ok (legacyToCRN scope tid) := by
    rw [hc]
    have hdefault : crnIsTidOrOid (lit "default") = true ∧
        ('/' : UInt8) ∉ lit "default" := by decide
    exact parseCRN_toString (validTenantSlug_crn ht) hdefault.1 (validTenantSlug_no_slash ht)
      hdefault.2 (hs sid (by simp)) fun p hp => hs p (mem_cons_of_mem _ hp)
  have hprefix : crnPrefix.isPrefixOf (legacyToCRN scope tid).toString = true := by
    rw [Crn.toString_eq, isPrefixOf_iff_prefix]
    exact prefix_append _ _
  have hdot := dottedOf_crn hprefix hparse
  rw [legacyToCRN_dotPath] at hdot
  refine ⟨?_, hdot⟩
  have hparts : scopeParts (legacyToCRN scope tid).toString =
      .ok (.crn, (legacyToCRN scope tid).tid, scope) := by
    simp [scopeParts, hprefix, hparse, legacyToCRN_dotPath]
  rw [← compileScopeGlob_isOk, compileScopeGlob_isOk_of_parts hparts, e]
  exact hs

/-! ### What the migration keeps -/

def Loads (G : Set (Bytes × Bytes)) (subject scope : Bytes) : Prop :=
  (subject, scope) ∈ G ∧ subject ≠ [] ∧ scope ≠ []

def Dots (G : Set (Bytes × Bytes)) (subject d : Bytes) : Prop :=
  ∃ scope, Loads G subject scope ∧ dottedOf scope = some d

/-- From the grants `G₀` to `G`: a subject with well-formed scopes still has such, with the same
dotted globs, and a scope that `stays` is still granted. -/
structure Kept (stays : Bytes → Prop) (G₀ G : Set (Bytes × Bytes)) : Prop where
  form : ∀ subject, (∀ scope, Loads G₀ subject scope → ScopeForm scope) →
    ∀ scope, Loads G subject scope → ScopeForm scope
  dots : ∀ subject, (∀ scope, Loads G₀ subject scope → ScopeForm scope) →
    ∀ d, Dots G subject d ↔ Dots G₀ subject d
  left : ∀ subject scope, stays scope → (subject, scope) ∈ G₀ → (subject, scope) ∈ G

variable {stays : Bytes → Prop} {G₀ G : Set (Bytes × Bytes)}

theorem Kept.refl (stays : Bytes → Prop) (G : Set (Bytes × Bytes)) : Kept stays G G :=
  ⟨fun _ h => h, fun _ _ _ => Iff.rfl, fun _ _ _ h => h⟩

section Rewrite

variable {old new : Bytes} (h : Kept stays G₀ G) (hold : (subject, old) ∈ G₀) (hne : old ≠ [])
  (hdot : dottedOf old = some old)
include h hold hne hdot

/-- Granting a scope with the dotted glob of one that was granted at the start. -/
theorem Kept.insert
    (hnew : ScopeForm old → ScopeForm new ∧ dottedOf new = some old) :
    Kept stays G₀ (Insert.insert (subject, new) G) := by
  refine ⟨fun s hs scope hl => ?_, fun s hs d => ⟨?_, ?_⟩, fun s scope hst hin => ?_⟩
  · obtain ⟨heq | hin, hse, hsc⟩ := hl
    · cases heq
      exact (hnew (hs old ⟨hold, hse, hne⟩)).1
    · exact h.form s hs scope ⟨hin, hse, hsc⟩
  · rintro ⟨scope, ⟨heq | hin, hse, hsc⟩, hd⟩
    · cases heq
      rw [(hnew (hs old ⟨hold, hse, hne⟩)).2] at hd
      exact ⟨old, ⟨hold, hse, hne⟩, hdot.trans hd⟩
    · exact (h.dots s hs d).mp ⟨scope, ⟨hin, hse, hsc⟩, hd⟩
  · intro hd
    obtain ⟨scope, ⟨hin, hse, hsc⟩, hd⟩ := (h.dots s hs d).mpr hd
    exact ⟨scope, ⟨.inr hin, hse, hsc⟩, hd⟩
  · exact .inr (h.left s scope hst hin)

theorem Kept.erase (hstays : ¬ stays old)
    (hnew : ScopeForm old → new ≠ [] ∧ dottedOf new = some old) (hin : (subject, new) ∈ G)
    (hdiff : old ≠ new) : Kept stays G₀ (G \ {(subject, old)}) := by
  refine ⟨fun s hs scope hl => ?_, fun s hs d => ⟨?_, ?_⟩, fun s scope hst hin₀ => ?_⟩
  · exact h.form s hs scope ⟨hl.1.1, hl.2⟩
  · rintro ⟨scope, ⟨⟨hin, -⟩, he⟩, hd⟩
    exact (h.dots s hs d).mp ⟨scope, ⟨hin, he⟩, hd⟩
  · intro hd
    obtain ⟨scope, ⟨hin', hse, hsc⟩, hd⟩ := (h.dots s hs d).mpr hd
    by_cases heq : (s, scope) = (subject, old)
    · -- The glob of the scope that goes is that of the new one.
      cases heq
      obtain ⟨hn, hdn⟩ := hnew (hs old ⟨hold, hse, hne⟩)
      refine ⟨new, ⟨⟨hin, fun e => hdiff (congrArg Prod.snd e).symm⟩, hse, hn⟩, ?_⟩
      rw [hdn, ← hdot, hd]
    · exact ⟨scope, ⟨⟨hin', heq⟩, hse, hsc⟩, hd⟩
  · refine ⟨h.left s scope hst hin₀, ?_⟩
    rintro heq
    cases heq
    exact hstays hst

end Rewrite

/-! ### Calls beside the role bindings -/

/-- The parts of a holding that the fates are about. -/
structure Same (v v' : Holding) : Prop where
  tenants : v'.store.tenants = v.store.tenants
  roleBindings : v'.store.roleBindings = v.store.roleBindings
  sink : v'.sink = v.sink

variable {b : Backend} {u v v' w w' : Holding}

theorem Same.grants (h : Same v v') : v'.grants = v.grants := by
  ext g
  exact mem_grants.trans (h.roleBindings ▸ mem_grants.symm)

theorem Same.trans (h : Same u v) (h' : Same v v') : Same u v' :=
  ⟨h'.tenants.trans h.tenants, h'.roleBindings.trans h.roleBindings, h'.sink.trans h.sink⟩

/-- Calls that touch neither the role bindings nor the sink. -/
def Quiet : MigrateOp → Prop
  | .putRoleBinding _ | .deleteRoleBinding _ _ | .recordRewrite _ _ _ => False
  | _ => True

theorem Same.of_moved {st : FileStore} (h : v.Moved st v') (ht : st.tenants = v.store.tenants)
    (hr : st.roleBindings = v.store.roleBindings) : Same v v' :=
  ⟨h.store ▸ ht, h.store ▸ hr, h.sink⟩

theorem step_same {op : MigrateOp} {r : op.Ret} (h : b.step op w r w') (hq : Quiet op) :
    Same w w' := by
  have hself : Same w w := ⟨rfl, rfl, rfl⟩
  obtain ⟨out, h⟩ := h
  cases op with
  | putRoleBinding rb => cases hq
  | deleteRoleBinding s sc => cases hq
  | recordRewrite s old new => cases hq
  | createOrg t name p =>
    rcases answer_createOrg h with ⟨rfl, -⟩ | ⟨-, ⟨auds, hm⟩, -⟩
    · exact hself
    · exact .of_moved hm rfl rfl
  | attachSiteToOrg site org p =>
    rcases answer_attachSiteToOrg h with ⟨rfl, -⟩ | ⟨-, _, _, _, hm⟩
    · exact hself
    · exact .of_moved hm rfl rfl
  | _ =>
    cases h
    exact hself

theorem Quiet.same {α : Type} {p : Migration α} (hp : Calls Quiet p) :
    Always b.step w (fun _ => Same w) p :=
  hp.always (fun _ _ _ _ hq hs hstep => hs.trans (step_same hstep hq)) ⟨rfl, rfl, rfl⟩

/-! ### Pass 3 -/

/-- A site that the attribution knows: both slugs are valid, and no scope under it stays. -/
def GoodSites (stays : Bytes → Prop) (sites : Names) : Prop :=
  ∀ site tid, sites.find site = some tid → validSiteSlug site = true ∧ validTenantSlug tid = true ∧
    ∀ scope, legacyScopeSite scope = some site → ¬ stays scope

theorem planFor_rewrite {newScope : Bytes} (h : planFor sites rb = .rewrite newScope) :
    ∃ site tid, legacyScopeSite rb.scope = some site ∧ sites.find site = some tid ∧
      newScope = (legacyToCRN rb.scope tid).toString ∧ rb.scope ≠ newScope := by
  unfold planFor at h
  split at h
  · cases h
  split at h
  · cases h
  rename_i tid htid
  obtain ⟨site, hsite, hfind⟩ := Option.bind_eq_some_iff.mp htid
  simp only at h
  split at h
  · cases h
  · rename_i hne
    cases h
    exact ⟨site, tid, hsite, hfind, rfl, hne⟩

theorem legacyScopeSite_ne_nil (h : legacyScopeSite scope = some site) : scope ≠ [] := by
  rintro rfl
  cases h

/-- The rewriting of one row, by what holds after its put and after its delete; stopped before the
put, it leaves the store. -/
theorem rewriteRow_always (between after : Holding → Prop) {newScope : Bytes}
    (hput : ∀ {row : RoleBinding} {v}, row.grant = (rb.subject, newScope) → row.origin = "crn" →
      w.Moved { w.store with roleBindings := w.store.roleBindings.put row } v → between v)
    (hdel : ∀ {v v'}, between v →
      v.Moved { v.store with roleBindings := v.store.roleBindings.erase rb.grant } v' → after v')
    (hrec : ∀ {v : Holding} sink, after v → after { v with sink }) :
    Always b.step w (fun r v => (v = w ∨ between v ∨ after v) ∧ ∀ d, r = .ok d → after v)
      (rewriteRow rb newScope) := by
  unfold rewriteRow
  simp only [always_call]
  rintro id v₁ ⟨_, h₁⟩ now v₂ ⟨_, h₂⟩ r v₃ ⟨_, h₃⟩
  cases h₁
  cases h₂
  rcases answer_putRoleBinding h₃ with ⟨hr, rfl⟩ | ⟨row, hg, ho, hm⟩
  · rcases r with e | ⟨⟩
    · exact always_done.mpr ⟨.inl rfl, by rintro _ ⟨⟩⟩
    · exact absurd rfl hr
  -- A put that fails may still have gone in, and so may a delete.
  have hbetween := hput hg ho hm
  rcases r with e | ⟨⟩
  · exact always_done.mpr ⟨.inr (.inl hbetween), by rintro _ ⟨⟩⟩
  rw [always_call]
  rintro r v₄ ⟨_, h₄⟩
  rcases answer_deleteRoleBinding h₄ with ⟨hr, rfl⟩ | hm
  · rcases r with e | ⟨⟩
    · exact always_done.mpr ⟨.inr (.inl hbetween), by rintro _ ⟨⟩⟩
    · exact absurd rfl hr
  have hafter := hdel hbetween hm
  rcases r with e | ⟨⟩
  · exact always_done.mpr ⟨.inr (.inr hafter), by rintro _ ⟨⟩⟩
  rw [always_call]
  rintro r v₅ ⟨_, h₅⟩
  have hend : after v₅ := by
    rcases answer_recordRewrite h₅ with ⟨-, rfl⟩ | ⟨-, rfl⟩
    · exact hafter
    · exact hrec _ hafter
  rcases r with e | ⟨⟩
  · exact always_done.mpr ⟨.inr (.inr hend), fun _ _ => hend⟩
  rw [always_call]
  rintro ts v₆ ⟨_, h₆⟩
  cases h₆
  exact always_done.mpr ⟨.inr (.inr hend), fun _ _ => hend⟩

/-- The rewriting of one row, at every point it can stop. -/
theorem rewriteRow_kept {newScope : Bytes} (hgood : GoodSites stays sites)
    (hplan : planFor sites rb = .rewrite newScope) (hin : rb.grant ∈ G₀)
    (hw : Kept stays G₀ w.grants) :
    Always b.step w (fun _ w' => Kept stays G₀ w'.grants) (rewriteRow rb newScope) := by
  obtain ⟨site, tid, hsite, hfind, rfl, hdiff⟩ := planFor_rewrite hplan
  obtain ⟨hsv, htv, hstays⟩ := hgood site tid hfind
  have hne := legacyScopeSite_ne_nil hsite
  have hlegacy := not_crn_of_site hsite hsv
  have hdot := dottedOf_legacy hlegacy
  have hform : ScopeForm rb.scope → ScopeForm (legacyToCRN rb.scope tid).toString ∧
      dottedOf (legacyToCRN rb.scope tid).toString = some rb.scope := by
    intro hf
    rw [ScopeForm, hlegacy] at hf
    exact legacyToCRN_rewritten hf htv
  have hne' : (legacyToCRN rb.scope tid).toString ≠ [] := by
    rw [Crn.toString_eq]
    exact append_ne_nil_of_left_ne_nil (by decide) _
  refine (rewriteRow_always (fun v => Kept stays G₀ v.grants ∧
    (rb.subject, (legacyToCRN rb.scope tid).toString) ∈ v.grants)
    (fun v => Kept stays G₀ v.grants) ?_ ?_ fun _ h => h).mono ?_
  · intro row v hg _ hm
    rw [Holding.grants, hm.store, grants_put, hg]
    exact ⟨hw.insert hin hne hdot hform, .inl rfl⟩
  · rintro v v' ⟨hv, hnew⟩ hm
    rw [Holding.grants, hm.store, grants_erase]
    exact hv.erase hin hne hdot (hstays _ hsite) (fun hf => ⟨hne', (hform hf).2⟩) hnew hdiff
  · rintro _ v ⟨rfl | h | h, -⟩
    · exact hw
    · exact h.1
    · exact h

/-- Pass 3, by induction over the rows it has listed. -/
theorem rewriteRows_kept (hgood : GoodSites stays sites) :
    ∀ {rows : List RoleBinding} {rep : MigrateReport} {w : Holding},
      (∀ rb ∈ rows, rb.grant ∈ G₀) → Kept stays G₀ w.grants →
      Always b.step w (fun _ w' => Kept stays G₀ w'.grants) (rewriteRows sites rows rep)
  | [], _, _, _, hw => always_done.mpr hw
  | rb :: rest, rep, w, hin, hw => by
    have hrest : ∀ x ∈ rest, x.grant ∈ G₀ := fun x hx => hin x (mem_cons_of_mem _ hx)
    rw [rewriteRows]
    split
    iterate 3 exact rewriteRows_kept hgood hrest hw
    rename_i newScope hplan
    refine Always.bind (rewriteRow_kept hgood hplan (hin rb (by simp)) hw) fun r w' hw' => ?_
    rcases r with e | d
    · exact always_done.mpr hw'
    · exact rewriteRows_kept hgood hrest hw'

/-! ### The attribution -/

/-- The site is attached to an organisation of a tenant, or has an asset and there is one tenant
only. -/
def HasTenant (w : Holding) (site : Bytes) : Prop :=
  (∃ so ∈ w.store.siteOrgs.rows, so.site = site ∧ ∃ t ∈ w.store.tenants.rows,
    ∃ o ∈ w.store.orgs.rows, o.tenantID = t.id ∧ o.id = so.orgID) ∨
  (∃ t, w.store.tenants.rows = [t]) ∧ ∃ path ∈ w.assets, firstPathSegment path = site

/-- A role binding whose scope begins with such a site. -/
def Attributable (w : Holding) (scope : Bytes) : Prop :=
  ∃ site, legacyScopeSite scope = some site ∧ HasTenant w site

theorem attribution_hasTenant {t : Bytes} (h : attribution w site = some t) : HasTenant w site := by
  rw [attribution, Option.or_eq_some_iff] at h
  rcases h with h | ⟨-, h⟩
  · obtain ⟨so, hso, horg⟩ := Option.bind_eq_some_iff.mp h
    obtain ⟨hin, hsite⟩ := Keyed.Table.get_eq_some.mp hso
    obtain ⟨-, ⟨x, hx, hxt⟩, o, ho, hid, hot⟩ := orgTenant_eq_some.mp horg
    exact .inl ⟨so, hin, hsite, x, hx, o, ho, hot.trans hxt.symm, hid⟩
  · rw [fromAssets] at h
    split at h
    · rename_i hsite
      obtain ⟨x, hx, -⟩ := Option.map_eq_some_iff.mp h
      exact .inr ⟨⟨x, soleTenant_eq hx⟩, mem_map.mp hsite.2⟩
    · cases h

/-! ### Passes 1 and 2 -/

theorem ensureDefaultOrgs_quiet {principal : Bytes} {orgs : OrgsByTenant} :
    ∀ {tenants : List Tenant} {rep : MigrateReport} {ids : Names},
      Calls Quiet (ensureDefaultOrgs principal orgs tenants rep ids)
  | [], _, _ => trivial
  | t :: rest, rep, ids => by
    refine ⟨trivial, ?_⟩
    rintro (e | org)
    · simp only
      repeat' split
      · exact ensureDefaultOrgs_quiet
      · trivial
      · trivial
    · exact ensureDefaultOrgs_quiet

theorem attachSites_quiet {principal : Bytes} {ids : Names} {siteOrgs : List SiteOrg} :
    ∀ {order : List Bytes} {rep : MigrateReport},
      Calls Quiet (attachSites principal sites ids siteOrgs order rep)
  | [], _ => trivial
  | site :: rest, rep => by
    rw [attachSites]
    repeat' split
    · trivial
    · exact attachSites_quiet
    · refine ⟨trivial, ?_⟩
      rintro (e | ⟨⟩)
      · trivial
      · exact attachSites_quiet

/-- A pass that comes to its end has attached every site, so each has a valid name. -/
theorem attachSites_valid {principal : Bytes} {ids : Names} {siteOrgs : List SiteOrg}
    (hso : ∀ so ∈ siteOrgs, validSiteSlug so.site = true) :
    ∀ {order : List Bytes} {rep : MigrateReport} {w : Holding},
      Always b.step w (fun r _ => r.2 = .ok () → ∀ site ∈ order, validSiteSlug site = true)
        (attachSites principal sites ids siteOrgs order rep)
  | [], _, _ => always_done.mpr nofun
  | site :: rest, rep, w => by
    rw [attachSites]
    split
    · exact always_done.mpr nofun
    split
    · rename_i hany
      obtain ⟨so, hin, heq⟩ := any_eq_true.mp hany
      have hv : validSiteSlug site = true := by
        simp only [and_eq_true, decide_eq_true_eq] at heq
        exact heq.1 ▸ hso so hin
      exact (attachSites_valid hso).mono fun r w' h hr => forall_mem_cons.mpr ⟨hv, h hr⟩
    · rw [always_call]
      rintro r w₁ ⟨out, h⟩
      rcases r with e | ⟨⟩
      · exact always_done.mpr nofun
      have hv : validSiteSlug site = true := by
        rcases answer_attachSiteToOrg h with ⟨-, hok⟩ | ⟨hv, -⟩
        · exact (hok rfl).1
        · exact hv
      exact (attachSites_valid hso).mono fun r w' h hr => forall_mem_cons.mpr ⟨hv, h hr⟩

/-! ### The whole -/

theorem migrateV11_kept (sinkGiven : Bool) (principal : Bytes)
    (hslug : ∀ t ∈ w.store.tenants.rows, validTenantSlug t.id = true) :
    Always b.step w (fun _ w' => Kept (fun scope => ¬ Attributable w scope) w.grants w'.grants)
      (migrateV11 sinkGiven principal) := by
  have hsame : ∀ {w' : Holding}, Same w w' →
      Kept (fun scope => ¬ Attributable w scope) w.grants w'.grants := fun h =>
    h.grants ▸ .refl _ _
  unfold migrateV11
  split
  · exact always_done.mpr (hsame ⟨rfl, rfl, rfl⟩)
  refine Always.bind takeSnapshot_exact ?_
  rintro ⟨rep, e | sn⟩ w₁ ⟨rfl, hsn⟩
  · exact always_done.mpr (hsame ⟨rfl, rfl, rfl⟩)
  have hof := hsn sn rfl
  have hvalid : ∀ so ∈ sn.siteOrgs, validSiteSlug so.site = true := fun so hso =>
    w.sites_valid so (hof.siteOrgs.mem_iff.mp hso)
  refine Always.bind (Quiet.same ensureDefaultOrgs_quiet) ?_
  rintro ⟨rep, e | ids⟩ w₂ h₂
  · exact always_done.mpr (hsame h₂)
  refine always_call.mpr ?_
  rintro order w₃ ⟨out, h⟩
  cases h
  refine Always.bind ((Quiet.same attachSites_quiet).and (attachSites_valid hvalid)) ?_
  rintro ⟨rep, e | ⟨⟩⟩ w₄ ⟨h₄, hattached⟩
  · exact always_done.mpr (hsame (h₂.trans h₄))
  -- Pass 3 runs only when every attributed site has been attached.
  have hgood : GoodSites (fun scope => ¬ Attributable w scope) sn.sites := by
    intro site tid hfind
    rw [hof.sites] at hfind
    obtain ⟨t, ht, rfl⟩ := attribution_tenant hfind
    refine ⟨hattached rfl site ((hof.mem_range out).mpr (by rw [hfind]; rfl)), hslug t ht, ?_⟩
    exact fun scope hs hn => hn ⟨site, hs, attribution_hasTenant hfind⟩
  refine always_call.mpr ?_
  rintro r w₅ ⟨out', h⟩
  obtain ⟨rfl, hl⟩ := read_eq h
  rcases r with e | bindings
  · exact always_done.mpr (hsame (h₂.trans h₄))
  refine rewriteRows_kept hgood (fun rb hrb => ?_) (hsame (h₂.trans h₄))
  rw [hl bindings rfl] at hrb
  rw [← (h₂.trans h₄).grants]
  exact mem_grants.mpr ⟨rb, (perm_insertionSort _ _).mem_iff.mp hrb, rfl⟩

/-! ### Principals -/

/-- The principals of a boot on the store, if all scopes of the table and the bindings compile. -/
def principals (w : Holding) (seed : Tokens) : Option Tokens :=
  match loadRoleBindingsInto (.ok w.store.listAllRoleBindings) seed with
  | .error _ => none
  | .ok tokens => (newStaticTokenVerifier tokens).toOption

/-- A principal of the token table with the role bindings of its subject. -/
def withBindings (w : Holding) (p : Principal) : Principal :=
  ⟨p.subject, p.role, p.scopes ++ rowScopes w.store.listAllRoleBindings p.subject, none⟩

theorem principals_eq_some {seed tokens : Tokens} : principals w seed = some tokens ↔
    newStaticTokenVerifier (seed.map fun hp => (hp.1, withBindings w hp.2)) = .ok tokens := by
  change (newStaticTokenVerifier (seed.map fun hp => (hp.1, withBindings w hp.2))).toOption = _ ↔ _
  cases newStaticTokenVerifier (seed.map fun hp => (hp.1, withBindings w hp.2)) <;>
    simp [Except.toOption]

theorem compilePrincipalScopes_subject {p ready : Principal}
    (h : compilePrincipalScopes p = .ok ready) : ready.subject = p.subject := by
  unfold compilePrincipalScopes at h
  split at h <;> cases h
  rfl

theorem loads_iff :
    Loads w.grants subject scope ↔ scope ∈ rowScopes w.store.listAllRoleBindings subject :=
  Http.Admin.mem_rowScopes.symm

theorem reach_withBindings {p : Principal} {d : Bytes} :
    Reach (withBindings w p).scopes d ↔ Reach p.scopes d ∨ Dots w.grants p.subject d := by
  simp only [Reach, Dots, withBindings, mem_append, loads_iff]
  constructor
  · rintro ⟨s, hs | hs, hd⟩
    · exact .inl ⟨s, hs, hd⟩
    · exact .inr ⟨s, hs, hd⟩
  · rintro (⟨s, hs, hd⟩ | ⟨s, hs, hd⟩)
    · exact ⟨s, .inl hs, hd⟩
    · exact ⟨s, .inr hs, hd⟩

theorem verified_pair {f g : Principal → Principal} {R : Principal → Principal → Prop} :
    ∀ {seed before after : Tokens},
      (∀ hp ∈ seed, ∀ x y, compilePrincipalScopes (f hp.2) = .ok x →
        compilePrincipalScopes (g hp.2) = .ok y → R x y) →
      newStaticTokenVerifier (seed.map fun hp => (hp.1, f hp.2)) = .ok before →
      newStaticTokenVerifier (seed.map fun hp => (hp.1, g hp.2)) = .ok after →
      List.Forall₂ (fun x y => x.1 = y.1 ∧ R x.2 y.2) before after
  | [], before, after, _, hb, ha => by
    cases hb
    cases ha
    exact .nil
  | (h, p) :: rest, before, after, hR, hb, ha => by
    simp only [map_cons, newStaticTokenVerifier] at hb ha
    cases hx : compilePrincipalScopes (f p) with
    | error e => simp [hx] at hb
    | ok x =>
      cases hy : compilePrincipalScopes (g p) with
      | error e => simp [hy] at ha
      | ok y =>
        simp only [hx] at hb
        simp only [hy] at ha
        split at hb
        · cases hb
        rename_i before' hb'
        split at ha
        · cases ha
        rename_i after' ha'
        cases hb
        cases ha
        exact .cons ⟨rfl, hR (h, p) (by simp) x y hx hy⟩ <|
          verified_pair (fun hp hin => hR hp (mem_cons_of_mem _ hin)) hb' ha'

/-- **The migration preserves authorization.**  As long as all scopes compile: after any run of the
migration, failed or not, the same table loads, and with no request tenant and the legacy window
open each of its principals is allowed exactly what it was.  Role bindings that cannot be attributed
to a site are still granted. -/
theorem migrateV11_keeps_decisions {sinkGiven : Bool} {principal : Bytes}
    {res : MigrateReport × Except MigrateError Unit} {seed before : Tokens}
    (hslug : ∀ t ∈ w.store.tenants.rows, validTenantSlug t.id = true)
    (hload : principals w seed = some before)
    (hrun : Steps b.step (migrateV11 sinkGiven principal) w res w') :
    (∃ after, principals w' seed = some after ∧
      List.Forall₂ (fun x y => x.1 = y.1 ∧ x.2.subject = y.2.subject ∧ ∀ action path,
        authorizeTenant false y.2 action path [] = authorizeTenant false x.2 action path [])
        before after) ∧
      ∀ rb ∈ w.store.roleBindings.rows, ¬ Attributable w rb.scope →
        ∃ rb' ∈ w'.store.roleBindings.rows, rb'.grant = rb.grant := by
  have hkept := migrateV11_kept sinkGiven principal hslug res w' hrun
  refine ⟨?_, fun rb hrb hn => ?_⟩
  · rw [principals_eq_some] at hload
    have hok : ∀ hp ∈ seed, ∀ s ∈ (withBindings w hp.2).scopes, ScopeForm s := by
      intro hp hin
      have := newStaticTokenVerifier_isOk.mp (by rw [hload]; rfl)
      exact this _ (mem_map.mpr ⟨hp, hin, rfl⟩)
    have hforms : ∀ hp ∈ seed, ∀ scope, Loads w.grants hp.2.subject scope → ScopeForm scope :=
      fun hp hin scope hl => hok hp hin scope (mem_append_right _ (loads_iff.mp hl))
    have hok' : (newStaticTokenVerifier
        (seed.map fun hp => (hp.1, withBindings w' hp.2))).isOk = true := by
      rw [newStaticTokenVerifier_isOk]
      intro hp' hin'
      obtain ⟨hp, hin, rfl⟩ := mem_map.mp hin'
      intro s hs
      rcases mem_append.mp hs with hs | hs
      · exact hok hp hin s (mem_append_left _ hs)
      · exact hkept.form _ (hforms hp hin) s (loads_iff.mpr hs)
    cases hafter : newStaticTokenVerifier (seed.map fun hp => (hp.1, withBindings w' hp.2)) with
    | error e => simp [hafter, Except.isOk, Except.toBool] at hok'
    | ok after =>
      refine ⟨after, principals_eq_some.mpr hafter, ?_⟩
      refine verified_pair (R := fun x y => x.subject = y.subject ∧ ∀ action path,
        authorizeTenant false y action path [] = authorizeTenant false x action path []) ?_
        hload hafter
      intro hp hin x y hx hy
      refine ⟨?_, authorize_open_congr hx hy rfl fun d => ?_⟩
      · exact (compilePrincipalScopes_subject hx).trans (compilePrincipalScopes_subject hy).symm
      · rw [reach_withBindings, reach_withBindings, hkept.dots _ (hforms hp hin) d]
  · exact mem_grants.mp
      (hkept.left _ _ hn (mem_grants.mpr ⟨rb, hrb, rfl⟩))

def quiet : Outside where
  now := 1
  newOrgID := "og_1"
  newTenantAuditID := "ta_1"
  newTenantAuditID' := "ta_2"
  newRoleBindingID := "rb_1"
  save := none
  fault := none
  constraint := []
  sinkErr := none
  range := id
  range_perm := fun _ => .refl _

def acmeHolding : Holding where
  store := { FileStore.empty with
    tenants := Keyed.Table.empty.put ⟨"acme", "Acme", "label", "active", 0, 0⟩
    roleBindings := (Keyed.Table.empty.put ⟨"rb_a", "alice", "fra01.pod*", "legacy", 0, 0⟩).put
      ⟨"rb_b", "alice", "zrh01.**", "legacy", 0, 0⟩ }
  assets := ["fra01.pod002"]
  sink := []
  sites_valid := by simp [FileStore.empty, Keyed.Table.empty]

def aliceTable : Tokens := [("h", ⟨"alice", .viewer, [], none⟩)]

/-- The migration rewrites the first role binding of alice and leaves the second. -/
theorem migrateV11_keeps_decisions_acme :
    let w' := ((migrateV11 true "op").exec (Backend.file.answer quiet) acmeHolding).2
    w'.store.roleBindings.rows.map RoleBinding.scope =
        ["zrh01.**", "crn:tenant/acme/org/default/site/fra01/pod*"] ∧
      (principals w' aliceTable).isSome = true ∧
      ∃ rb ∈ w'.store.roleBindings.rows, rb.grant = (lit "alice", lit "zrh01.**") := by
  have hsome : (principals acmeHolding aliceTable).isSome = true := by decide
  have hunknown : ¬ Attributable acmeHolding "zrh01.**" := by
    rintro ⟨site, hsite, ⟨so, hso, -⟩ | ⟨-, path, hpath, hseg⟩⟩
    · cases hso
    · obtain rfl := mem_singleton.mp hpath
      rw [← hseg] at hsite
      revert hsite
      decide
  have h := migrateV11_keeps_decisions (by decide) (Option.some_get hsome).symm
    (file.steps_answer quiet (migrateV11 true "op") acmeHolding)
  obtain ⟨⟨after, hafter, -⟩, hleft⟩ := h
  refine ⟨by decide, by rw [hafter]; rfl, ?_⟩
  exact hleft ⟨"rb_b", "alice", "zrh01.**", "legacy", 0, 0⟩ (by decide) hunknown

end Cios.Migrate
