import Cios.Migrate.Decisions
import Cios.Support.Crash

/-!
# Migration — the audit of the rewrites

Pass 3 takes three steps for a row: the replacement goes in, the old row is taken out, and the
rewriting is recorded.  `Fates` says what a run has made of each grant at any point it may be cut; a
grant whose run stopped between the last two steps is never recorded (`recorded_once_iff`).
-/

namespace Cios.Migrate
open Text List Backend Keyed.Table
open Cios.Rbac
open Cios.Store
open Effect (Event)
open Effect.Prog

/-! ### Records and replacements -/

/-- What the sink has on the rewriting of a grant: subject, old scope and new scope. -/
def Holding.records (w : Holding) (g : Bytes × Bytes) : List (Bytes × Bytes × Bytes) :=
  w.sink.filter fun x => (x.1, x.2.1) = g

def Legacy (g : Bytes × Bytes) : Prop := crnPrefix.isPrefixOf g.2 = false

/-- A `crn` row of the same subject, with the grant's scope under one of the tenants. -/
def Replaced (w : Holding) (g : Bytes × Bytes) (newScope : Bytes) : Prop :=
  (∃ t ∈ w.store.tenants.rows, newScope = (legacyToCRN g.2 t.id).toString) ∧
    ∃ row ∈ w.store.roleBindings.rows, row.grant = (g.1, newScope) ∧ row.origin = "crn"

/-- Taken out and recorded, once. -/
def Recorded (u v : Holding) (g : Bytes × Bytes) : Prop :=
  Legacy g ∧ g ∉ v.grants ∧ ∃ newScope, Replaced v g newScope ∧
    v.records g = u.records g ++ [(g.1, g.2, newScope)]

def Lost (u v : Holding) (g : Bytes × Bytes) : Prop :=
  Legacy g ∧ g ∉ v.grants ∧ (∃ newScope, Replaced v g newScope) ∧ v.records g = u.records g

/-- From `u` to `v`: what has become of each grant, with at most one that is `torn`. -/
structure Fates (torn : Option (Bytes × Bytes)) (u v : Holding) : Prop where
  tenants : v.store.tenants = u.store.tenants
  replaced : ∀ {g newScope}, Replaced u g newScope → Replaced v g newScope
  held : ∀ g ∈ u.grants, g ∈ v.grants ∧ v.records g = u.records g ∨
    torn ≠ some g ∧ Recorded u v g ∨ torn = some g ∧ Lost u v g
  absent : ∀ g ∉ u.grants, Legacy g → g ∉ v.grants ∧ v.records g = u.records g

theorem crnPrefix_toString (c : Crn) : crnPrefix.isPrefixOf c.toString = true := by
  rw [Crn.toString_eq, isPrefixOf_iff_prefix]
  exact prefix_append _ _

variable {g : Bytes × Bytes} {es : Events} {sites : Names}

theorem Replaced.ne {w : Holding} {g₀ : Bytes × Bytes} {newScope : Bytes}
    (h : Replaced w g newScope) (hg₀ : Legacy g₀) : (g.1, newScope) ≠ g₀ := by
  rintro rfl
  obtain ⟨⟨t, -, rfl⟩, -⟩ := h
  exact absurd (hg₀.symm.trans (crnPrefix_toString _)) (by decide)

/-! ### The steps -/

variable {u v v' w w' : Holding} {b : Backend} {g₀ : Bytes × Bytes} {newScope : Bytes}
variable {torn : Option (Bytes × Bytes)}

theorem Same.records (h : Same v v') (g : Bytes × Bytes) : v'.records g = v.records g :=
  congrArg _ h.sink

theorem Same.replaced (h : Same v v') : Replaced v' g newScope ↔ Replaced v g newScope := by
  rw [Replaced, Replaced, h.tenants, h.roleBindings]

theorem Fates.refl (u : Holding) : Fates none u u where
  tenants := rfl
  replaced := id
  held := fun _ hg => .inl ⟨hg, rfl⟩
  absent := fun _ hg _ => ⟨hg, rfl⟩

theorem Fates.same (h : Fates torn u v) (hs : Same v v') : Fates torn u v' where
  tenants := hs.tenants.trans h.tenants
  replaced := fun hr => hs.replaced.mpr (h.replaced hr)
  held := by
    intro g hg
    simpa only [Recorded, Lost, hs.grants, hs.records, hs.replaced] using h.held g hg
  absent := by
    intro g hg hl
    simpa only [hs.grants, hs.records] using h.absent g hg hl

/-- While nothing is recorded, the torn grant is the only one whose fate changes. -/
theorem Fates.unrecorded (h : Fates none u v) (htenants : v'.store.tenants = v.store.tenants)
    (hsink : v'.sink = v.sink)
    (hreplaced : ∀ {g newScope}, Replaced v g newScope → Replaced v' g newScope)
    (hin : ∀ g ∈ v.grants, torn ≠ some g → g ∈ v'.grants)
    (hout : ∀ g ∉ v.grants, Legacy g → g ∉ v'.grants)
    (hlost : ∀ g, torn = some g → Lost u v' g) : Fates torn u v' where
  tenants := htenants.trans h.tenants
  replaced := fun hr => hreplaced (h.replaced hr)
  held := by
    intro g hg
    by_cases hgg : torn = some g
    · exact .inr (.inr ⟨hgg, hlost g hgg⟩)
    have hrecords : v'.records g = v.records g := congrArg _ hsink
    rcases h.held g hg with ⟨hv, hrec⟩ | ⟨-, hl, hn, newScope, hr, hrec⟩ | ⟨hnone, -⟩
    · exact .inl ⟨hin g hv hgg, hrecords.trans hrec⟩
    · exact .inr (.inl ⟨hgg, hl, hout g hn hl, newScope, hreplaced hr, hrecords.trans hrec⟩)
    · cases hnone
  absent := by
    intro g hg hl
    obtain ⟨hn, hrec⟩ := h.absent g hg hl
    exact ⟨hout g hn hl, (congrArg _ hsink).trans hrec⟩

theorem Fates.put {row : RoleBinding} (h : Fates none u v)
    (hcrn : crnPrefix.isPrefixOf row.scope = true) (horigin : row.origin = "crn")
    (hstore : v'.store = { v.store with roleBindings := v.store.roleBindings.put row })
    (hsink : v'.sink = v.sink) : Fates none u v' := by
  have hgrants : v'.grants = insert row.grant v.grants := by
    rw [Holding.grants, hstore]
    exact grants_put
  refine h.unrecorded (by rw [hstore]) hsink ?_ (fun g hg _ => hgrants ▸ .inr hg) ?_
    (by rintro _ ⟨⟩)
  · rintro g newScope ⟨ht, old, hold, hg, ho⟩
    rw [Replaced, hstore]
    refine ⟨ht, ?_⟩
    -- A replacement of the same grant is itself replaced by one of the same origin.
    by_cases he : old.grant = row.grant
    · exact ⟨row, mem_put.mpr (.inr rfl), he ▸ hg, horigin⟩
    · exact ⟨old, mem_put.mpr (.inl ⟨hold, he⟩), hg, ho⟩
  · rintro g hg hl hin
    rw [hgrants] at hin
    rcases hin with rfl | hin
    · exact absurd (hl.symm.trans hcrn) (by decide)
    · exact hg hin

theorem Fates.delete (h : Fates none u v) (hu : g₀ ∈ u.grants) (hv : g₀ ∈ v.grants)
    (hl₀ : Legacy g₀) (hr₀ : Replaced v g₀ newScope)
    (hstore : v'.store = { v.store with roleBindings := v.store.roleBindings.erase g₀ })
    (hsink : v'.sink = v.sink) :
    Fates (some g₀) u v' ∧ Lost u v' g₀ ∧ Replaced v' g₀ newScope := by
  have hgrants : v'.grants = v.grants \ {g₀} := by
    rw [Holding.grants, hstore]
    exact grants_erase
  have hreplaced : ∀ {g newScope}, Replaced v g newScope → Replaced v' g newScope := by
    intro g newScope hr
    have hne := hr.ne hl₀
    obtain ⟨ht, row, hrow, hg, ho⟩ := hr
    rw [Replaced, hstore]
    exact ⟨ht, row, mem_erase.mpr ⟨hrow, hg ▸ hne⟩, hg, ho⟩
  have hlost : Lost u v' g₀ := by
    refine ⟨hl₀, ?_, ⟨newScope, hreplaced hr₀⟩, ?_⟩
    · rw [hgrants]
      exact fun hin => hin.2 rfl
    · rcases h.held g₀ hu with ⟨-, hrec⟩ | ⟨-, -, hn, -⟩ | ⟨hnone, -⟩
      · exact (congrArg _ hsink).trans hrec
      · exact absurd hv hn
      · cases hnone
  refine ⟨h.unrecorded (by rw [hstore]) hsink hreplaced ?_ ?_ ?_, hlost, hreplaced hr₀⟩
  · exact fun g hg hgg => hgrants ▸ ⟨hg, fun he => hgg (congrArg some he.symm)⟩
  · intro g hg _ hin
    rw [hgrants] at hin
    exact hg hin.1
  · rintro g ⟨rfl⟩
    exact hlost

theorem Fates.record (h : Fates (some g₀) u v) (hu : g₀ ∈ u.grants) (hlost : Lost u v g₀)
    (hr₀ : Replaced v g₀ newScope) (hstore : v'.store = v.store)
    (hsink : v'.sink = v.sink ++ [(g₀.1, g₀.2, newScope)]) : Fates none u v' := by
  have hgrants : v'.grants = v.grants := congrArg grants hstore
  have hself : v'.records g₀ = v.records g₀ ++ [(g₀.1, g₀.2, newScope)] := by
    simp [Holding.records, hsink, filter_append]
  have hother : ∀ g, g ≠ g₀ → v'.records g = v.records g := by
    intro g hg
    simp [Holding.records, hsink, Ne.symm hg]
  have hreplaced : ∀ {g newScope}, Replaced v g newScope → Replaced v' g newScope := by
    intro g newScope hr
    rwa [Replaced, hstore]
  refine ⟨?_, fun hr => hreplaced (h.replaced hr), fun g hg => ?_, fun g hg hl => ?_⟩
  · rw [hstore]
    exact h.tenants
  · rw [Recorded, hgrants]
    by_cases hgg : g = g₀
    · subst hgg
      obtain ⟨hl, hn, -, hrec⟩ := hlost
      exact .inr (.inl ⟨nofun, hl, hn, newScope, hreplaced hr₀, hself.trans (hrec ▸ rfl)⟩)
    rw [hother g hgg]
    rcases h.held g hg with hin | ⟨-, hl, hn, newScope, hr, hrec⟩ | ⟨htorn, -⟩
    · exact .inl hin
    · exact .inr (.inl ⟨nofun, hl, hn, newScope, hreplaced hr, hrec⟩)
    · exact absurd (Option.some.inj htorn).symm hgg
  · rw [hgrants, hother g]
    · exact h.absent g hg hl
    · rintro rfl
      exact hg hu

/-! ### A run that is cut -/

abbrev Events := List (Event MigrateOp MigrateOp.Ret)

/-- The grant whose rewriting stands between its delete and its record after the event. -/
def inside : Event MigrateOp MigrateOp.Ret → Option (Bytes × Bytes)
  | ⟨.deleteRoleBinding subject scope, _⟩ => some (subject, scope)
  | ⟨.recordRewrite subject oldScope _, .error _⟩ => some (subject, oldScope)
  | _ => none

/-- And after the events so far. -/
def insideOf (es : Events) : Option (Bytes × Bytes) := es.getLast?.bind inside

variable {e : Event MigrateOp MigrateOp.Ret}

@[simp] theorem insideOf_snoc :
    insideOf (es ++ [e]) = inside e := by
  simp [insideOf]

theorem insideOf_quiet {more : Events} (hes : insideOf es = none) (hmore : ∀ e ∈ more, Quiet e.op) :
    insideOf (es ++ more) = none := by
  cases hlast : more.getLast? with
  | none =>
    rw [getLast?_eq_none_iff.mp hlast, append_nil]
    exact hes
  | some e =>
    have hq := hmore e (mem_of_getLast? hlast)
    rw [insideOf, getLast?_append_of_ne_nil _ (by rintro rfl; cases hlast), hlast]
    obtain ⟨op, r⟩ := e
    cases op <;> first | rfl | cases hq

/-- The fates at a point of a run: the torn grant is that whose rewriting ends there. -/
def CutAt (u : Holding) (es : Events) (v : Holding) : Prop :=
  ∃ torn, Fates torn u v ∧
    ∀ g ∈ u.grants, g ∉ v.grants → (torn = some g ↔ insideOf es = some g)

theorem Fates.cutAt (h : Fates none u v) (hes : insideOf es = none) : CutAt u es v :=
  ⟨none, h, fun g _ _ => by rw [hes]⟩

theorem Fates.cutAt_snoc (h : Fates none u v) (he : inside e = none) : CutAt u (es ++ [e]) v :=
  h.cutAt (insideOf_snoc.trans he)

theorem Fates.step_put {rb : RoleBinding} {r : Except StoreError Unit} (h : Fates none u v)
    (horigin : rb.origin = "crn") (hcrn : crnPrefix.isPrefixOf rb.scope = true)
    (hstep : b.step (.putRoleBinding rb) v r v') :
    Fates none u v' ∧ (r = .ok () → v'.grants = insert rb.grant v.grants ∧
      ∃ row ∈ v'.store.roleBindings.rows, row.grant = rb.grant ∧ row.origin = "crn") := by
  obtain ⟨out, hstep⟩ := hstep
  rcases answer_putRoleBinding hstep with ⟨hr, rfl⟩ | ⟨row, hg, ho, hm⟩
  · exact ⟨h, fun hok => absurd hok hr⟩
  rw [horigin] at ho
  have hscope : row.scope = rb.scope := congrArg Prod.snd hg
  refine ⟨h.put (hscope ▸ hcrn) ho hm.store hm.sink, fun _ => ⟨?_, row, ?_, hg, ho⟩⟩
  · rw [Holding.grants, hm.store, grants_put, hg]
    rfl
  · rw [hm.store]
    exact mem_put.mpr (.inr rfl)

theorem Fates.step_delete {r : Except StoreError Unit} (h : Fates none u v) (hu : g₀ ∈ u.grants)
    (hv : g₀ ∈ v.grants) (hl₀ : Legacy g₀) (hr₀ : Replaced v g₀ newScope)
    (hstep : b.step (.deleteRoleBinding g₀.1 g₀.2) v r v') (es : Events) :
    CutAt u (es ++ [⟨.deleteRoleBinding g₀.1 g₀.2, r⟩]) v' ∧
      (r = .ok () → Fates (some g₀) u v' ∧ Lost u v' g₀ ∧ Replaced v' g₀ newScope ∧
        v'.grants = v.grants \ {g₀}) := by
  obtain ⟨out, hstep⟩ := hstep
  rcases answer_deleteRoleBinding hstep with ⟨hr, rfl⟩ | hm
  · refine ⟨⟨none, h, fun g _ hg => ?_⟩, fun hok => absurd hok hr⟩
    -- The row is still there, so its grant is not one that is gone.
    rw [insideOf_snoc]
    exact ⟨nofun, fun he => absurd (Option.some.inj he ▸ hv) hg⟩
  · obtain ⟨hf, hlost, hr'⟩ := h.delete hu hv hl₀ hr₀ hm.store hm.sink
    refine ⟨⟨_, hf, fun g _ _ => by rw [insideOf_snoc]; rfl⟩, fun _ => ⟨hf, hlost, hr', ?_⟩⟩
    rw [Holding.grants, hm.store]
    exact grants_erase

theorem Fates.step_record {r : Except Bytes Unit} (h : Fates (some g₀) u v) (hu : g₀ ∈ u.grants)
    (hlost : Lost u v g₀) (hr₀ : Replaced v g₀ newScope)
    (hstep : b.step (.recordRewrite g₀.1 g₀.2 newScope) v r v') (es : Events) :
    CutAt u (es ++ [⟨.recordRewrite g₀.1 g₀.2 newScope, r⟩]) v' ∧
      (r = .ok () → Fates none u v' ∧ v'.grants = v.grants) := by
  obtain ⟨out, hstep⟩ := hstep
  rcases answer_recordRewrite hstep with ⟨⟨e, rfl⟩, rfl⟩ | ⟨rfl, rfl⟩
  · exact ⟨⟨_, h, fun g _ _ => by rw [insideOf_snoc]; rfl⟩, nofun⟩
  · have hf : Fates none u { v with sink := v.sink ++ [(g₀.1, g₀.2, newScope)] } :=
      h.record hu hlost hr₀ rfl rfl
    exact ⟨hf.cutAt_snoc rfl, fun _ => ⟨hf, rfl⟩⟩

/-- The sites of the attribution have valid names and belong to tenants. -/
def Attributed (u : Holding) (sites : Names) : Prop :=
  ∀ site tid, sites.find site = some tid →
    validSiteSlug site = true ∧ ∃ t ∈ u.store.tenants.rows, t.id = tid

/-- The rewriting of a row, at every point it can be cut; in the end the other grants are there. -/
theorem rewriteRow_cut {rb : RoleBinding} (hsites : Attributed u sites)
    (hplan : planFor sites rb = .rewrite newScope) (hu : rb.grant ∈ u.grants)
    (hv : rb.grant ∈ v.grants) (h : Fates none u v) (hes : insideOf es = none) :
    Throughout b.step (fun es o v' => CutAt u es v' ∧ ∀ d, o = some (.ok d) →
      insideOf es = none ∧ Fates none u v' ∧ ∀ g ∈ v.grants, g ≠ rb.grant → g ∈ v'.grants) es
      (rewriteRow rb newScope) v := by
  obtain ⟨site, tid, hsite, hfind, rfl, -⟩ := planFor_rewrite hplan
  obtain ⟨hvalid, t, ht, rfl⟩ := hsites site tid hfind
  have hlegacy : Legacy rb.grant := not_crn_of_site hsite hvalid
  refine ⟨⟨h.cutAt hes, nofun⟩, fun id v₁ h₁ => ?_⟩
  have hs₁ := step_same h₁ trivial
  refine ⟨⟨(h.same hs₁).cutAt_snoc rfl, nofun⟩, fun now v₂ h₂ => ?_⟩
  have hs₂ := hs₁.trans (step_same h₂ trivial)
  refine ⟨⟨(h.same hs₂).cutAt_snoc rfl, nofun⟩, fun r v₃ h₃ => ?_⟩
  obtain ⟨hf₃, hput⟩ := (h.same hs₂).step_put rfl (crnPrefix_toString _) h₃
  rcases r with e | ⟨⟩
  · exact ⟨⟨hf₃.cutAt_snoc rfl, nofun⟩, hf₃.cutAt_snoc rfl, nofun⟩
  obtain ⟨hg₃, row, hrow, hrg, hro⟩ := hput rfl
  have hr₃ : Replaced v₃ rb.grant (legacyToCRN rb.scope t.id).toString :=
    ⟨⟨t, hf₃.tenants ▸ ht, rfl⟩, row, hrow, hrg, hro⟩
  rw [hs₂.grants] at hg₃
  have hv₃ : rb.grant ∈ v₃.grants := hg₃ ▸ .inr hv
  refine ⟨⟨hf₃.cutAt_snoc rfl, nofun⟩, fun r v₄ h₄ => ?_⟩
  -- From here to the record the grant is torn.
  obtain ⟨hcut₄, hdel⟩ := hf₃.step_delete hu hv₃ hlegacy hr₃ h₄ _
  rcases r with e | ⟨⟩
  · exact ⟨⟨hcut₄, nofun⟩, hcut₄, nofun⟩
  obtain ⟨hf₄, hlost, hr₄, hg₄⟩ := hdel rfl
  refine ⟨⟨hcut₄, nofun⟩, fun r v₅ h₅ => ?_⟩
  obtain ⟨hcut₅, hrec⟩ := hf₄.step_record hu hlost hr₄ h₅ _
  rcases r with e | ⟨⟩
  · exact ⟨⟨hcut₅, nofun⟩, hcut₅, nofun⟩
  obtain ⟨hf₅, hg₅⟩ := hrec rfl
  refine ⟨⟨hcut₅, nofun⟩, fun ts v₆ h₆ => ?_⟩
  have hs₆ := step_same h₆ trivial
  have hf₆ := hf₅.same hs₆
  refine ⟨⟨hf₆.cutAt_snoc rfl, nofun⟩, hf₆.cutAt_snoc rfl, fun _ _ =>
    ⟨insideOf_snoc, hf₆, fun g hg hne => ?_⟩⟩
  rw [hs₆.grants, hg₅, hg₄, hg₃]
  exact ⟨.inr hg, hne⟩

/-- The fates at a point of a run, which cannot end without an error inside a rewriting. -/
def RunAt (u : Holding) (es : Events) (o : Option (MigrateReport × Except MigrateError Unit))
    (v : Holding) : Prop :=
  CutAt u es v ∧ ∀ rep, o = some (rep, .ok ()) → insideOf es = none

theorem Fates.runAt {o : Option (MigrateReport × Except MigrateError Unit)} (h : Fates none u v)
    (hes : insideOf es = none) : RunAt u es o v :=
  ⟨h.cutAt hes, fun _ _ => hes⟩

/-- Pass 3, by induction over the rows it has listed: those still to come are still there. -/
theorem rewriteRows_cut (hsites : Attributed u sites) :
    ∀ {rows : List RoleBinding} {rep : MigrateReport} {v : Holding} {es : Events},
      (rows.map RoleBinding.grant).Nodup → (∀ rb ∈ rows, rb.grant ∈ u.grants) →
      (∀ rb ∈ rows, rb.grant ∈ v.grants) → Fates none u v → insideOf es = none →
      Throughout b.step (RunAt u) es (rewriteRows sites rows rep) v
  | [], _, _, _, _, _, _, h, hes => ⟨h.runAt hes, h.runAt hes⟩
  | rb :: rest, rep, v, es, hnodup, hu, hv, h, hes => by
    rw [map_cons, nodup_cons] at hnodup
    rw [forall_mem_cons] at hu hv
    rw [rewriteRows]
    split
    iterate 3 exact rewriteRows_cut hsites hnodup.2 hu.2 hv.2 h hes
    · rename_i newScope hplan
      refine Throughout.bind ((rewriteRow_cut hsites hplan hu.1 hv.1 h hes).mono ?_)
      rintro es o v' ⟨hcut, hdone⟩
      refine ⟨⟨hcut, by rintro _ ⟨⟩⟩, ?_⟩
      rintro (e | d) rfl
      · exact ⟨⟨hcut, by rintro _ ⟨⟩⟩, hcut, by rintro _ ⟨⟩⟩
      · obtain ⟨hes', hf, hleft⟩ := hdone d rfl
        refine rewriteRows_cut hsites hnodup.2 hu.2 (fun x hx => ?_) hf hes'
        refine hleft x.grant (hv.2 x hx) fun he => hnodup.1 ?_
        exact he ▸ mem_map_of_mem hx

/-! ### The passes before -/

theorem listOrgsOf_quiet : ∀ {tenants : List Tenant} {m : OrgsByTenant},
    Calls Quiet (listOrgsOf tenants m)
  | [], _ => trivial
  | _ :: _, _ => ⟨trivial, fun
      | .error _ => trivial
      | .ok _ => listOrgsOf_quiet⟩

theorem attributeSiteOrgs_quiet {orgs : OrgsByTenant} : ∀ {siteOrgs : List SiteOrg} {m : Names},
    Calls Quiet (attributeSiteOrgs orgs siteOrgs m)
  | [], _ => trivial
  | _ :: _, _ => ⟨trivial, fun _ => attributeSiteOrgs_quiet⟩

theorem takeSnapshot_quiet : Calls Quiet takeSnapshot := by
  refine ⟨trivial, ?_⟩
  rintro (e | tenants)
  · trivial
  refine Calls.bind listOrgsOf_quiet ?_
  rintro (e | orgs)
  · trivial
  refine ⟨trivial, ?_⟩
  rintro (e | assets)
  · trivial
  refine ⟨trivial, ?_⟩
  rintro (e | siteOrgs)
  · trivial
  refine Calls.bind (Calls.bind attributeSiteOrgs_quiet fun _ => trivial) ?_
  rintro (e | sites)
  · trivial
  · trivial

theorem Quiet.throughout {α : Type} {p : Migration α} {R : α → Holding → Prop} (hp : Calls Quiet p)
    (hs : Same u v) (hes : insideOf es = none) (hend : Always b.step v R p) :
    Throughout b.step (fun es' o v' => insideOf es' = none ∧ Same u v' ∧
      ∀ a, o = some a → R a v') es p v := by
  have hkeep : ∀ (op : MigrateOp) (v : Holding) (r : op.Ret) (v' : Holding), Quiet op →
      Same u v → b.step op v r v' → Same u v' :=
    fun _ _ _ _ hq hs hstep => hs.trans (step_same hstep hq)
  refine (hp.throughout hkeep hs hend).mono ?_
  rintro es' o v' ⟨⟨more, rfl, hmore⟩, hrest⟩
  exact ⟨insideOf_quiet hes hmore, hrest⟩

theorem migrateV11_cut (sinkGiven : Bool) (principal : Bytes) :
    Throughout b.step (RunAt u) [] (migrateV11 sinkGiven principal) u := by
  have hsame : ∀ {v : Holding} {es : Events}
      {o : Option (MigrateReport × Except MigrateError Unit)}, Same u v → insideOf es = none →
      RunAt u es o v := fun hs hes => ((Fates.refl u).same hs).runAt hes
  have hu : Same u u := ⟨rfl, rfl, rfl⟩
  unfold migrateV11
  split
  · exact ⟨hsame hu rfl, hsame hu rfl⟩
  refine Throughout.bind ((Quiet.throughout takeSnapshot_quiet hu rfl takeSnapshot_exact).mono ?_)
  rintro es o v ⟨hes, hs, hsn⟩
  refine ⟨hsame hs hes, ?_⟩
  rintro ⟨rep, e | sn⟩ rfl
  · exact ⟨hsame hs hes, hsame hs hes⟩
  obtain ⟨rfl, hof⟩ := hsn _ rfl
  have hof := hof sn rfl
  have hvalid : ∀ so ∈ sn.siteOrgs, validSiteSlug so.site = true := fun so hso =>
    u.sites_valid so (hof.siteOrgs.mem_iff.mp hso)
  refine Throughout.bind ((Quiet.throughout ensureDefaultOrgs_quiet hs hes
    (Quiet.same ensureDefaultOrgs_quiet)).mono ?_)
  rintro es o v ⟨hes, hs, -⟩
  refine ⟨hsame hs hes, ?_⟩
  rintro ⟨rep, e | ids⟩ rfl
  · exact ⟨hsame hs hes, hsame hs hes⟩
  refine ⟨hsame hs hes, ?_⟩
  rintro order v₁ ⟨out, horder⟩
  cases horder
  refine Throughout.bind ((Quiet.throughout attachSites_quiet hs insideOf_snoc
    (attachSites_valid hvalid)).mono ?_)
  rintro es o v₂ ⟨hes₂, hs₂, hattached⟩
  refine ⟨hsame hs₂ hes₂, ?_⟩
  rintro ⟨rep, e | ⟨⟩⟩ rfl
  · exact ⟨hsame hs₂ hes₂, hsame hs₂ hes₂⟩
  -- Pass 3 runs only when every attributed site has been attached.
  have hsites : Attributed u sn.sites := by
    intro site tid hfind
    rw [hof.sites] at hfind
    refine ⟨hattached _ rfl rfl site ?_, attribution_tenant hfind⟩
    exact (hof.mem_range out).mpr (by rw [hfind]; rfl)
  refine ⟨hsame hs₂ hes₂, ?_⟩
  rintro r v₃ ⟨out', h⟩
  obtain ⟨rfl, hl⟩ := read_eq h
  rcases r with e | bindings
  · exact ⟨hsame hs₂ insideOf_snoc, hsame hs₂ insideOf_snoc⟩
  have hperm : bindings.Perm v₂.store.roleBindings.rows := by
    rw [hl bindings rfl]
    exact perm_insertionSort _ _
  have hin : ∀ rb ∈ bindings, rb.grant ∈ v₂.grants := fun rb hrb =>
    mem_grants.mpr ⟨rb, hperm.mem_iff.mp hrb, rfl⟩
  refine rewriteRows_cut hsites ?_ (fun rb hrb => ?_) hin ((Fates.refl u).same hs₂) insideOf_snoc
  · exact (hperm.map _).nodup_iff.mpr v₂.store.roleBindings.nodup
  · rw [← hs₂.grants]
    exact hin rb hrb

/-! ### Sequences of runs -/

/-- A run, cut or ended: where it began, its events, and where it stopped. -/
structure RunLog where
  before : Holding
  events : Events
  after : Holding

/-- The run of a log, with some principal. -/
def Backend.Reruns (b : Backend) (w : Holding) (l : RunLog) (w' : Holding) : Prop :=
  l.before = w ∧ l.after = w' ∧ ∃ sinkGiven principal o,
    Path b.step (migrateV11 sinkGiven principal) w l.events o w'

/-- The run took out the row of `g` and stopped before that was recorded. -/
def RunLog.Inside (l : RunLog) (g : Bytes × Bytes) : Prop :=
  g ∈ l.before.grants ∧ g ∉ l.after.grants ∧ insideOf l.events = some g

theorem Backend.Reruns.fates {l : RunLog} (h : b.Reruns w l w') :
    ∃ torn, Fates torn w w' ∧ ∀ g ∈ w.grants, g ∉ w'.grants → (torn = some g ↔ l.Inside g) := by
  obtain ⟨rfl, rfl, sinkGiven, principal, o, hpath⟩ := h
  obtain ⟨torn, hf, htorn⟩ := ((migrateV11_cut sinkGiven principal).path hpath).1
  refine ⟨torn, hf, fun g hg hn => (htorn g hg hn).trans ?_⟩
  exact ⟨fun he => ⟨hg, hn, he⟩, fun he => he.2.2⟩

/-- Over a sequence of runs, a grant still there was not recorded, and one that is gone was recorded
once, unless the run that took it out stopped there. -/
structure Account (w : Holding) (g : Bytes × Bytes) (runs : List RunLog) (w' : Holding) : Prop where
  there : g ∈ w'.grants → w'.records g = w.records g ∧ ∀ l ∈ runs, ¬ l.Inside g
  gone : g ∉ w'.grants → Legacy g ∧ ∃ newScope, Replaced w' g newScope ∧
    ((∀ l ∈ runs, ¬ l.Inside g) ∧ w'.records g = w.records g ++ [(g.1, g.2, newScope)] ∨
      (∃ l ∈ runs, l.Inside g) ∧ w'.records g = w.records g)

theorem Account.step {runs : List RunLog} {l : RunLog} (h : Account w g runs v)
    (hl : b.Reruns v l v') : Account w g (runs ++ [l]) v' := by
  have hbefore := hl.1
  have hafter := hl.2.1
  obtain ⟨torn, hf, htorn⟩ := hl.fates
  have hall : ∀ P : RunLog → Prop, (∀ x ∈ runs ++ [l], P x) ↔ (∀ x ∈ runs, P x) ∧ P l := by
    intro P
    rw [forall_mem_append, forall_mem_singleton]
  by_cases hg : g ∈ v.grants
  · obtain ⟨hrec, hout⟩ := h.there hg
    refine ⟨fun hin => ?_, fun hn => ?_⟩
    · rcases hf.held g hg with ⟨-, hsame⟩ | ⟨-, -, hn, -⟩ | ⟨-, -, hn, -⟩
      · refine ⟨hsame.trans hrec, (hall _).mpr ⟨hout, fun hi => ?_⟩⟩
        exact hi.2.1 (hafter ▸ hin)
      iterate 2 exact absurd hin hn
    · rcases hf.held g hg with ⟨hin, -⟩ | ⟨hne, hleg, -, newScope, hr, hadd⟩ |
        ⟨he, hleg, -, ⟨newScope, hr⟩, hsame⟩
      · exact absurd hin hn
      · refine ⟨hleg, newScope, hr, .inl ⟨(hall _).mpr ⟨hout, ?_⟩, hrec ▸ hadd⟩⟩
        exact fun hi => hne ((htorn g hg hn).mpr hi)
      · refine ⟨hleg, newScope, hr, .inr ⟨⟨l, by simp, (htorn g hg hn).mp he⟩, ?_⟩⟩
        exact hsame.trans hrec
  · -- A grant that was gone before stays so, and the run does not record it.
    obtain ⟨hleg, newScope, hr, hcases⟩ := h.gone hg
    obtain ⟨hn, hsame⟩ := hf.absent g hg hleg
    refine ⟨fun hin => absurd hin hn, fun _ => ⟨hleg, newScope, hf.replaced hr, ?_⟩⟩
    rcases hcases with ⟨hout, hrec⟩ | ⟨⟨x, hx, hi⟩, hrec⟩
    · refine .inl ⟨(hall _).mpr ⟨hout, fun hi => hg (hbefore ▸ hi.1)⟩, hsame.trans hrec⟩
    · exact .inr ⟨⟨x, mem_append_left _ hx, hi⟩, hsame.trans hrec⟩

/-- **Records across crashes.**  After any number of runs, cut anywhere, and a last one that has
come to its end, a role binding that is gone has its replacement.  It was recorded at most once, and
exactly once if and only if no run stopped between taking it out and recording that; a last run
without an error did not. -/
theorem recorded_once_iff {runs : List RunLog} {es : Events} {sinkGiven : Bool} {principal : Bytes}
    {res : MigrateReport × Except MigrateError Unit} {g : Bytes × Bytes}
    (hruns : Runs.Run b.Reruns w runs v)
    (hlast : Path b.step (migrateV11 sinkGiven principal) v es (some res) w')
    (hg : g ∈ w.grants) (hgone : g ∉ w'.grants) :
    (∃ newScope, Replaced w' g newScope ∧
      (w'.records g = w.records g ∨ w'.records g = w.records g ++ [(g.1, g.2, newScope)])) ∧
    ((w'.records g).length = (w.records g).length + 1 ↔
      ∀ l ∈ runs ++ [⟨v, es, w'⟩], ¬ l.Inside g) ∧
    (res.2 = .ok () → ¬ RunLog.Inside ⟨v, es, w'⟩ g) := by
  have hstart : Account w g [] w :=
    ⟨fun _ => ⟨rfl, nofun⟩, fun hn => absurd hg hn⟩
  have hv : Account w g runs v :=
    hruns.history (I := Account w g) (fun h hl => h.step hl) hstart
  have hw' : Account w g (runs ++ [⟨v, es, w'⟩]) w' :=
    hv.step ⟨rfl, rfl, sinkGiven, principal, _, hlast⟩
  obtain ⟨-, newScope, hr, hcases⟩ := hw'.gone hgone
  refine ⟨⟨newScope, hr, ?_⟩, ?_, fun hok hi => ?_⟩
  · exact (hcases.symm).imp And.right And.right
  · rcases hcases with ⟨hout, hrec⟩ | ⟨⟨l, hl, hi⟩, hrec⟩
    · rw [hrec]
      exact ⟨fun _ => hout, fun _ => by simp⟩
    · rw [hrec]
      exact ⟨fun he => by omega, fun hout => absurd hi (hout l hl)⟩
  · obtain ⟨rep, r⟩ := res
    obtain rfl : r = .ok () := hok
    have hend := ((migrateV11_cut sinkGiven principal).path hlast).2 rep rfl
    rw [nil_append] at hend
    rw [RunLog.Inside, hend] at hi
    cases hi.2.2

def alicePod : Bytes × Bytes := ("alice", "fra01.pod*")

/-- A run that is cut after so many calls. -/
def cutRun (calls : Nat) : Events × Holding :=
  cutAfter (Backend.file.answer quiet) calls (migrateV11 true "op") acmeHolding

theorem path_cutRun (calls : Nat) : Path Backend.file.step (migrateV11 true "op") acmeHolding
    (cutRun calls).1 none (cutRun calls).2 :=
  path_cutAfter (fun _ _ => ⟨quiet, rfl⟩) calls _ _

/-- The first run is cut before it takes out the grant; the next one has recorded the rewriting. -/
theorem recorded_once_acme :
    let w' := ((migrateV11 true "op").exec (Backend.file.answer quiet) (cutRun 5).2).2
    alicePod ∈ acmeHolding.grants ∧ alicePod ∉ w'.grants ∧ (w'.records alicePod).length = 1 := by
  have hin : alicePod ∈ acmeHolding.grants := by decide
  have hkept : alicePod ∈ (cutRun 5).2.grants := by decide
  have hgone : alicePod ∉
      ((migrateV11 true "op").exec (file.answer quiet) (cutRun 5).2).2.grants := by decide
  have hcut : Runs.Run file.Reruns acmeHolding [⟨acmeHolding, (cutRun 5).1, (cutRun 5).2⟩]
      (cutRun 5).2 := .more ⟨rfl, rfl, true, lit "op", _, path_cutRun 5⟩ (.refl _)
  obtain ⟨es, hpath⟩ := (file.steps_answer quiet (migrateV11 true "op") (cutRun 5).2).path
  obtain ⟨-, hiff, hlast⟩ := recorded_once_iff hcut hpath hin hgone
  refine ⟨hin, hgone, hiff.mpr ?_⟩
  rw [singleton_append, forall_mem_cons, forall_mem_singleton]
  exact ⟨fun hinside => hinside.2.1 hkept, hlast (by decide)⟩

/-- The first run is cut when it has taken out the grant; the next one finds nothing to record. -/
theorem record_lost_by_crash :
    ∃ (events : Events) (w v : Holding) (res : MigrateReport × Except MigrateError Unit),
      Path Backend.file.step (migrateV11 true "op") acmeHolding events none w ∧
      Steps Backend.file.step (migrateV11 true "op") w res v ∧ res.2 = .ok () ∧
      alicePod ∈ acmeHolding.grants ∧ alicePod ∉ v.grants ∧ v.records alicePod = [] :=
  ⟨(cutRun 12).1, (cutRun 12).2, ((migrateV11 true "op").exec (file.answer quiet) (cutRun 12).2).2,
    ((migrateV11 true "op").exec (file.answer quiet) (cutRun 12).2).1, path_cutRun 12,
    file.steps_answer quiet _ _, by decide, by decide, by decide, by decide⟩

end Cios.Migrate
