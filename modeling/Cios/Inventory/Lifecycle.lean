import Cios.Inventory.Endpoints

/-!
# Inventory — histories of the lifecycle

Any number of requests to the three endpoints run side by side, each read and write of the store,
and of a map that the store holds, being a step of its own.

`PUT` puts the lifecycle it is sent.  The writeback puts the one it has read, without a version.
And `:lifecycle` checks the edge, then assigns to the map it was given, which in the file store is
the stored one, and puts at the version it has read.  Every step is legal, but for four kinds
(`Loose`, `lifecycle_legal_iff`); two of them revive a retired asset (`retired_revived`).
-/

namespace Cios.Inventory
open Text Effect List Function Option
open Cios.Store
open Cios.Http Cios.Http.Core
open Runs (Run)
open Versioned (Act Access lastRead Sees)
open Pool (logged_call)

variable {V : Type} {b : Backend} {ι : Type}

/-! ### The log -/

/-- A call of a request, with the shelf before and after it. -/
abbrev Entry (ι V : Type) (b : Backend) := Effect.Entry ι (ShelfOp V) ShelfOp.Ret (Shelf V b)

/-- The row a put has stored; a put that did not leaves the version. -/
def storedRow (s s' : Shelf V b) (p : Bytes) : Act (Row V) :=
  match s'.rows p with
  | none => .other
  | some row =>
    if (s.rows p).map Row.resourceVersion = some row.resourceVersion then .other else .write row

/-- What a call does to the rows. -/
def act (e : Entry ι V b) : Act (Row V) :=
  match e.event with
  | ⟨.getAsset _, .ok (some row)⟩ => .read row
  | ⟨.putAsset p _ _, _⟩ => storedRow e.before e.after p
  | _ => .other

variable {p lc : Bytes} {m : Option (SpecMap V)} {v now version updatedAt : Int} {s : Shelf V b}
  {e : Entry ι V b} {ref : Nat} {heap : Heap Nat}

theorem step_put {s' : Shelf V b} {r : Asset V × Option StoreError}
    (h : Shelf.Step (.putAsset p m v) s r s') :
    s' = s ∨ ¬ s.Conflict p v ∧ ∃ now, s.Stores p m now s' := by
  rcases h with ⟨-, hs, -⟩ | ⟨hfree, now, hstores, -⟩ | ⟨e, -, -, hs | ⟨-, hfree, now, hstores⟩⟩
  iterate 2
    · exact .inl hs
    · exact .inr ⟨hfree, now, hstores⟩

theorem nextRow_path : (nextRow (s.rows p) p m now).path = p := by
  cases hcur : s.rows p with
  | none => rfl
  | some cur => exact s.keyed p cur hcur

theorem storedRow_self (s : Shelf V b) (p : Bytes) : storedRow s s p = .other := by
  unfold storedRow
  cases s.rows p with
  | none => rfl
  | some row => exact if_pos rfl

theorem storedRow_stores {s' : Shelf V b} (h : s.Stores p m now s') :
    ∃ row, storedRow s s' p = .write row ∧ row.path = p ∧
      s'.rows = update s.rows p (some row) ∧
      ∀ cur, s.rows p = some cur → row.resourceVersion = cur.resourceVersion + 1 := by
  obtain ⟨m', -, hrows⟩ := h
  refine ⟨_, ?_, nextRow_path, hrows, ?_⟩
  · rw [storedRow, hrows, update_self]
    refine if_neg ?_
    cases hcur : s.rows p with
    | none => nofun
    | some cur =>
      intro hsame
      have := some.inj hsame
      simp only [nextRow] at this
      omega
  · intro cur hcur
    rw [hcur]
    rfl

theorem valid (h : Shelf.Step e.event.op e.before e.event.ret e.after) :
    (e.access act Shelf.rows).Valid Row.path Row.resourceVersion := by
  obtain ⟨i, ⟨op, ret⟩, s, s'⟩ := e
  dsimp only at h
  cases op with
  | getAsset p =>
    obtain ⟨rfl, rfl | ⟨-, err, rfl⟩⟩ := h
    · cases hrow : s'.rows p with
      | none => rfl
      | some row => exact ⟨rfl, (s'.keyed p row hrow).symm ▸ hrow⟩
    · rfl
  | putAsset p m v =>
    rcases step_put h with rfl | ⟨-, now, hstores⟩
    · have hact : act ⟨i, ⟨.putAsset p m v, ret⟩, s', s'⟩ = .other := storedRow_self s' p
      rw [Access.Valid, Effect.Entry.access, hact]
    obtain ⟨row, hwrite, hpath, hrows, hversion⟩ := storedRow_stores hstores
    have hact : act ⟨i, ⟨.putAsset p m v, ret⟩, s, s'⟩ = .write row := hwrite
    rw [Access.Valid, Effect.Entry.access, hact]
    subst hpath
    exact ⟨hrows, hversion⟩
  | readSpec ref =>
    obtain ⟨rfl, -⟩ := h
    rfl
  | assign ref key v => exact h.1
  | rest op => exact congrArg Shelf.rows h

/-- The step moves every asset along an edge of its lifecycle, or not at all. -/
def Legal (e : Entry ι V b) : Prop :=
  ∀ p a, e.before.asset p = some a → ∃ a', e.after.asset p = some a' ∧
    (lifecycleOf a' = lifecycleOf a ∨
      allowedLifecycleTransition (lifecycleOf a) (lifecycleOf a') = true)

theorem legal_of_asset_eq (h : e.after.asset = e.before.asset) : Legal e :=
  fun p a ha => ⟨a, by rw [h]; exact ha, .inl rfl⟩

theorem legal_assign {cur target : Bytes} (hrows : e.after.rows = e.before.rows)
    (hheap : e.after.heap = update e.before.heap ref
      (Spec.set (e.before.heap ref) (lit "lifecycle") (.str target)))
    (hcur : specLifecycle (e.before.heap ref) = cur)
    (hedge : allowedLifecycleTransition cur target = true) : Legal e := by
  intro p a ha
  obtain ⟨row, hrow, rfl⟩ := map_eq_some_iff.mp ha
  refine ⟨row.asset (contents e.after.heap row.spec), ?_, ?_⟩
  · rw [Shelf.asset, hrows, hrow, map_some]
  rw [lifecycleOf_asset, lifecycleOf_asset]
  have hother : contents e.after.heap row.spec = contents e.before.heap row.spec ∨
      row.spec = some (.shared ref) := by
    cases hm : row.spec with
    | none => exact .inl rfl
    | some m =>
      cases m with
      | own fields => exact .inl rfl
      | shared ref' =>
        by_cases href : ref' = ref
        · exact .inr (by rw [href])
        · refine .inl ?_
          rw [contents, contents, hheap, update_of_ne href]
  rcases hother with hsame | hshared
  · exact .inl (by rw [hsame])
  · refine .inr ?_
    rw [hshared, contents, contents, hheap, update_self, hcur,
      specLifecycle_set (allowedLifecycleTransition_ne hedge)]
    exact hedge

theorem legal_put (h : e.before.Stores p m now e.after) (hmove : ∀ row, e.before.rows p = some row →
      specLifecycle (contents e.before.heap m) = specLifecycle (contents e.before.heap row.spec) ∨
      allowedLifecycleTransition (specLifecycle (contents e.before.heap row.spec))
        (specLifecycle (contents e.before.heap m)) = true) : Legal e := by
  intro q a ha
  rw [h.asset]
  by_cases hq : q = p
  · subst hq
    obtain ⟨row, hrow, rfl⟩ := map_eq_some_iff.mp ha
    exact ⟨_, update_self .., hmove row hrow⟩
  · exact ⟨a, by rw [update_of_ne hq]; exact ha, .inl rfl⟩

/-- The step takes a retired asset back to `active`. -/
def Revives (e : Entry ι V b) : Prop :=
  ∃ p a a', e.before.asset p = some a ∧ lifecycleOf a = "retired" ∧
    e.after.asset p = some a' ∧ lifecycleOf a' = "active"

theorem Revives.not_legal (h : Revives e) : ¬ Legal e := by
  obtain ⟨p, a, a', hbefore, hretired, hafter, hactive⟩ := h
  intro hlegal
  obtain ⟨x, hx, hedge⟩ := hlegal p a hbefore
  obtain rfl := some.inj (hafter.symm.trans hx)
  rw [hretired, hactive] at hedge
  exact absurd hedge (by decide)

abbrev Site (ι V : Type) (b : Backend) :=
  Pool ι (ShelfOp V) ShelfOp.Ret (Reply (Body V)) (Shelf V b)

/-- Requests that have yet to start, one to a thread. -/
def Site.start (env : Env V) (s : Shelf V b) (w : ι → Endpoint) : Site ι V b :=
  ⟨s, fun i => (w i).prog env⟩

variable [DecidableEq ι] (w : ι → Endpoint) (log : List (Entry ι V b))

/-- What a request has read. -/
def basis (i : ι) : Basis V :=
  (keeper V).after (fun i => ⟨(w i).kind, none, none⟩) (log.map Effect.Entry.label) i

/-- The steps that no check stands behind: a `PUT`; a writeback over another lifecycle than it has
seen; an assignment over another than was checked; and a put of `:lifecycle` without a version, over
another row than it has read. -/
def Loose (pre : List (Entry ι V b)) (e : Entry ι V b) : Prop :=
  match (w e.thread).kind, e.event.op with
  | .put, .putAsset _ _ _ => True
  | .writeback, .putAsset p _ _ =>
    (e.before.asset p).map lifecycleOf ≠ (basis w pre e.thread).seen
  | .lifecycle, .assign ref _ _ =>
    some (specLifecycle (e.before.heap ref)) ≠ (basis w pre e.thread).seen
  | .lifecycle, .putAsset p _ v =>
    b.guards v = false ∧ e.before.rows p ≠ (basis w pre e.thread).row
  | _, _ => False

theorem basis_kind (i : ι) :
    (basis w log i).kind = (w i).kind := by
  refine Protocol.after_invariant (I := fun g : Basis V => g.kind = (w i).kind) rfl ?_
  rintro g ⟨op, ret⟩ hg
  rw [← hg]
  unfold keeper
  dsimp only
  split
  · rfl
  · rfl
  · rfl
  · rfl

theorem basis_row (i : ι) :
    (basis w log i).row = lastRead i (log.map (Effect.Entry.access act Shelf.rows)) := by
  refine Protocol.after_lastRead (f := Basis.row) (fun _ => rfl) ?_ i
  rintro g ⟨j, ⟨op, ret⟩, s, s'⟩
  cases op with
  | getAsset p =>
    cases ret with
    | error e => rfl
    | ok found =>
      cases found with
      | none => rfl
      | some row => rfl
  | putAsset p m v =>
    -- A put is no read.
    show g.row = (storedRow s s' p).seen g.row
    unfold storedRow
    split
    · rfl
    · split
      · rfl
      · rfl
  | readSpec ref => rfl
  | assign ref key v => rfl
  | rest op => rfl

variable {env : Env V} {w : ι → Endpoint} {s : Shelf V b} {c c' : Site ι V b}
variable {log pre : List (Entry ι V b)} {e : Entry ι V b}

abbrev Logged (c : Site ι V b) (e : Entry ι V b) (c' : Site ι V b) : Prop :=
  Pool.Logged Shelf.Step c e c'

theorem permits_of_logged (h : Run Logged (.start env s w) log c) (hl : Logged c e c') :
    (keeper V).permits (basis w log e.thread) e.event.op :=
  Pool.permits_logged h (fun i => (w i).obeys) hl

/-- A put of `:lifecycle` that asks for its version goes over the row that was read. -/
theorem put_over_row {i : ι} {row : Row V}
    (hsees : Sees Row.path Row.resourceVersion (pre.map (Effect.Entry.access act Shelf.rows))
      s.rows i) (hread : (basis w pre i).row = some row) (hp : p = row.path)
    (hv : v = row.resourceVersion) (hfree : ¬ s.Conflict p v)
    (hloose : ¬ (b.guards v = false ∧ s.rows p ≠ (basis w pre i).row)) : s.rows p = some row := by
  rw [basis_row] at hread hloose
  obtain ⟨cur, hcur, hcase⟩ := hsees row hread
  subst hp hv
  rcases hcase with ⟨rfl, -⟩ | hlater
  · exact hcur
  exfalso
  cases hg : b.guards row.resourceVersion with
  | false =>
    refine hloose ⟨hg, ?_⟩
    rw [hcur, hread]
    rintro ⟨⟩
    omega
  | true =>
    refine hfree ⟨hg, fun cur' hcur' => ?_⟩
    obtain rfl := some.inj (hcur.symm.trans hcur')
    omega

theorem legal_of_not_loose (h : Run Logged (.start env s w) pre c) (hl : Logged c e c')
    (hloose : ¬ Loose w pre e) : Legal e := by
  have hperm := permits_of_logged h hl
  have hsees := Pool.sees (fun hs => valid hs) h e.thread
  rw [← hl.2.1] at hsees
  have hstep := Pool.Logged.call hl
  have hkind := basis_kind w pre e.thread
  obtain ⟨i, ⟨op, ret⟩, s₀, s'⟩ := e
  dsimp only at hperm hsees hstep hkind
  cases op with
  | getAsset p => exact legal_of_asset_eq (congrArg Shelf.asset hstep.1)
  | readSpec ref => exact legal_of_asset_eq (congrArg Shelf.asset hstep.1)
  | rest op => exact legal_of_asset_eq (congrArg Shelf.asset hstep)
  | assign ref key v =>
    cases hw : (w i).kind with
    | put =>
      simp only [keeper, hkind, hw] at hperm
    | writeback =>
      simp only [keeper, hkind, hw] at hperm
    | lifecycle =>
      simp only [keeper, hkind, hw] at hperm
      obtain ⟨cur, target, hseen, rfl, rfl, hedge⟩ := hperm
      simp only [Loose, hw, hseen, not_not] at hloose
      exact legal_assign hstep.1 hstep.2 (some.inj hloose) hedge
  | putAsset p m v =>
    rcases step_put hstep with rfl | ⟨hfree, now, hstores⟩
    · exact legal_of_asset_eq rfl
    cases hw : (w i).kind with
    | put =>
      simp only [Loose, hw] at hloose
      exact absurd trivial hloose
    | writeback =>
      simp only [keeper, hkind, hw] at hperm
      simp only [Loose, hw, not_not] at hloose
      refine legal_put hstores fun row hrow => .inl ?_
      refine hperm _ _ ?_
      rw [← hloose, Shelf.asset, hrow]
      rfl
    | lifecycle =>
      simp only [keeper, hkind, hw] at hperm
      simp only [Loose, hw] at hloose
      obtain ⟨row, hread, hp, hv, hmoves⟩ := hperm
      have hrow := put_over_row hsees hread hp hv hfree hloose
      refine legal_put hstores fun row' hrow' => ?_
      obtain rfl := some.inj (hrow.symm.trans hrow')
      rcases hmoves with rfl | hedge
      · exact .inl rfl
      · exact .inr (hedge _)

theorem legal_of_loose (h : Run Logged (.start env s w) log c')
    (hall : ∀ pre e post, log = pre ++ e :: post → Loose w pre e → Legal e) :
    ∀ e ∈ log, Legal e := by
  intro e he
  obtain ⟨pre, post, rfl⟩ := append_of_mem he
  by_cases hloose : Loose w pre e
  · exact hall pre e post rfl hloose
  · obtain ⟨c, hpre, hpost⟩ := h.split
    cases hpost with
    | more hl _ => exact legal_of_not_loose hpre hl hloose

/-- A run in which a check stands behind every change is in order. -/
theorem legal_of_no_loose (h : Run Logged (.start env s w) log c')
    (hno : ∀ pre e post, log = pre ++ e :: post → ¬Loose w pre e) : ∀ e ∈ log, Legal e :=
  legal_of_loose h fun pre e post hlog hloose => absurd hloose (hno pre e post hlog)

/-- **Lifecycles.**  Whatever the interleaving, every change is an edge exactly when those are that
no check stands behind. -/
theorem lifecycle_legal_iff (h : Run Logged (.start env s w) log c') :
    (∀ e ∈ log, Legal e) ↔
      ∀ pre e post, log = pre ++ e :: post → Loose w pre e → Legal e :=
  ⟨fun hall _ e _ hlog _ => hall e (hlog ▸ mem_append_right _ (mem_cons_self ..)), legal_of_loose h⟩

/-! ### A cooling unit, retired -/

def cduPath : Bytes := "site01.cdu000"

def cduFields (lc : Bytes) : Fields Nat := [("lifecycle", .str lc), ("type", .str "cdu")]

def oneMap (lc : Bytes) : Heap Nat := Function.update (fun _ => none) 0 (some (cduFields lc))

def oneRow (heap : Heap Nat) (ref : Nat) (version updatedAt : Int)
    (h : (heap ref).isSome = true) : Shelf Nat .file where
  heap := heap
  rows := Function.update (fun _ => none) cduPath
    (some ⟨cduPath, version, some (.shared ref), 1, updatedAt⟩)
  keyed := by
    intro p row hrow
    rw [Function.update_apply] at hrow
    split at hrow
    · rename_i hp
      cases hrow
      exact hp.symm
    · cases hrow
  kept := by
    intro p row m hrow hm
    rw [Function.update_apply] at hrow
    split at hrow
    · cases hrow
      cases hm
      exact ⟨ref, rfl, h⟩
    · cases hrow

theorem oneMap_isSome (lc : Bytes) : (oneMap lc 0).isSome = true := by simp [oneMap]

def cduShelf (lc : Bytes) (version updatedAt : Int) : Shelf Nat .file :=
  oneRow (oneMap lc) 0 version updatedAt (oneMap_isSome lc)

variable {h : (heap ref).isSome = true}

theorem oneRow_rows :
    (oneRow heap ref version updatedAt h).rows cduPath =
      some ⟨cduPath, version, some (.shared ref), 1, updatedAt⟩ := by
  simp [oneRow]

theorem oneRow_stores {heap' : Heap Nat} {ref' : Nat} {h' : (heap' ref').isSome = true}
    {m : Option (SpecMap Nat)} (htakes : Takes .file heap m (some (.shared ref')) heap') :
    (oneRow heap ref version updatedAt h).Stores cduPath m now
      (oneRow heap' ref' (version + 1) now h') := by
  refine ⟨some (.shared ref'), htakes, ?_⟩
  exact (update_idem ..).symm

theorem cdu_rows :
    (cduShelf lc version updatedAt).rows cduPath =
      some ⟨cduPath, version, some (.shared 0), 1, updatedAt⟩ := oneRow_rows

theorem cdu_get :
    Shelf.Step (.getAsset cduPath) (cduShelf lc version updatedAt)
      (.ok (some ⟨cduPath, version, some (.shared 0), 1, updatedAt⟩))
      (cduShelf lc version updatedAt) :=
  ⟨rfl, .inl (congrArg Except.ok cdu_rows.symm)⟩

theorem cdu_read :
    Shelf.Step (.readSpec 0) (cduShelf lc version updatedAt) (some (cduFields lc))
      (cduShelf lc version updatedAt) :=
  ⟨rfl, rfl⟩

theorem cdu_assign {lc' : Bytes} :
    Shelf.Step (.assign 0 (lit "lifecycle") (.str lc')) (cduShelf lc version updatedAt) ()
      (cduShelf lc' version updatedAt) :=
  ⟨rfl, (update_idem ..).symm⟩

theorem cdu_stores :
    (cduShelf lc version updatedAt).Stores cduPath (some (.shared 0)) now
      (cduShelf lc (version + 1) now) :=
  oneRow_stores (.hold _ 0 (oneMap_isSome lc))

theorem cdu_put (now : Int) :
    Shelf.Step (.putAsset cduPath (some (.shared 0)) version) (cduShelf lc version updatedAt)
      (⟨cduPath, version + 1, some (cduFields lc), 1, now⟩, none)
      (cduShelf lc (version + 1) now) := by
  exact .inr (.inl ⟨fun h => h.2 _ cdu_rows rfl, now, cdu_stores, rfl⟩)

theorem cdu_conflict {m : Option (SpecMap Nat)} (hv : 0 < v) (hne : version ≠ v) :
    Shelf.Step (.putAsset cduPath m v) (cduShelf lc version updatedAt)
      (⟨cduPath, version, some (cduFields lc), 1, updatedAt⟩,
        some (Sentinel.versionConflict : StoreError)) (cduShelf lc version updatedAt) := by
  refine .inl ⟨⟨decide_eq_true hv, ?_⟩, rfl, rfl⟩
  intro cur hcur
  obtain rfl := some.inj (cdu_rows.symm.trans hcur)
  exact hne

def inventoryEnv : Env Nat :=
  { Env.plain with
    parseAssetPath := fun _ => .ok "cdu"
    lifecycleTo := .ok
    putAsset := fun _ => .ok ⟨some (cduFields "active"), 0, []⟩ }

def inventoryPost (body : Bytes) : Request :=
  ⟨.post, "/v1/assets", [], [], [], [], [], .ok body⟩

def retireOrRevive : Bool → Endpoint
  | true => .lifecycle (inventoryPost "retired") ⟨none, none⟩ cduPath
  | false => .lifecycle (inventoryPost "active") ⟨none, none⟩ cduPath

def cduRow : Row Nat := ⟨cduPath, 3, some (.shared 0), 1, 2⟩

def retireAudit : AssetAudit :=
  ⟨"au_1", 6, "anonymous", cduPath, "lifecycle", "maintenance→retired"⟩

def retireLog : List (Entry Bool Nat .file) :=
  let s := cduShelf "maintenance" 3 2
  let s' := cduShelf "retired" 4 5
  let found : Event (ShelfOp Nat) ShelfOp.Ret := ⟨.getAsset cduPath, .ok (some cduRow)⟩
  let spec : Event (ShelfOp Nat) ShelfOp.Ret := ⟨.readSpec 0, some (cduFields "maintenance")⟩
  [⟨false, found, s, s⟩, ⟨false, spec, s, s⟩, ⟨true, found, s, s⟩, ⟨true, spec, s, s⟩,
    ⟨true, ⟨.assign 0 "lifecycle" (.str "retired"), ()⟩, s, cduShelf "retired" 3 2⟩,
    ⟨true, ⟨.putAsset cduPath (some (.shared 0)) 3,
      (⟨cduPath, 4, some (cduFields "retired"), 1, 5⟩, none)⟩, cduShelf "retired" 3 2, s'⟩,
    ⟨true, ⟨.rest (.outside (.newID "au_")), lit "au_1"⟩, s', s'⟩,
    ⟨true, ⟨.rest (.outside .now), (6 : Int)⟩, s', s'⟩,
    ⟨true, ⟨.rest (.work (.appendAssetAudit retireAudit)), .ok ()⟩, s', s'⟩]

def revive : Entry Bool Nat .file :=
  ⟨false, ⟨.assign 0 "lifecycle" (.str "active"), ()⟩, cduShelf "retired" 4 5,
    cduShelf "active" 4 5⟩

def revivePut : Entry Bool Nat .file :=
  ⟨false, ⟨.putAsset cduPath (some (.shared 0)) 3,
    (⟨cduPath, 4, some (cduFields "active"), 1, 5⟩, some (Sentinel.versionConflict : StoreError))⟩,
    cduShelf "active" 4 5, cduShelf "active" 4 5⟩

theorem revive_run : ∃ c, Run Logged
    (.start inventoryEnv (cduShelf "maintenance" 3 2) retireOrRevive)
      (retireLog ++ [revive, revivePut]) c ∧
    (∃ a, c.prog true = .done (.json 200 a)) ∧
    ∃ p, c.prog false = .done (.problem p) ∧ p.status = 409 := by
  refine ⟨_, .more (logged_call rfl cdu_get) <| .more (logged_call rfl cdu_read) <|
    .more (logged_call rfl cdu_get) <| .more (logged_call rfl cdu_read) <|
    .more (logged_call rfl cdu_assign) <| .more (logged_call rfl (cdu_put 5)) <|
    .more (logged_call rfl rfl) <| .more (logged_call rfl rfl) <|
    .more (logged_call rfl rfl) <| .more (logged_call rfl cdu_assign) <|
    .more (logged_call rfl (cdu_conflict (by decide) (by decide))) (.refl _), ?_, ?_⟩
  · exact ⟨_, rfl⟩
  · exact ⟨_, rfl, rfl⟩

/-- Up to the other one's assignment the log is legal. -/
theorem retireLog_legal : ∃ c, Run Logged
    (.start inventoryEnv (cduShelf "maintenance" 3 2) retireOrRevive) retireLog c ∧
      ∀ e ∈ retireLog, Legal e := by
  obtain ⟨_, hrun, -⟩ := revive_run
  obtain ⟨c, hrun, -⟩ := hrun.split
  refine ⟨c, hrun, (lifecycle_legal_iff hrun).mpr ?_⟩
  intro pre e post hlog hloose
  have hmem : e ∈ retireLog := hlog ▸ mem_append_right _ (mem_cons_self ..)
  simp only [retireLog, mem_cons, not_mem_nil, or_false] at hmem
  rcases hmem with rfl | rfl | rfl | rfl | rfl | rfl | rfl | rfl | rfl
  -- the edge is assigned, and the put is of the same map
  case inr.inr.inr.inr.inl =>
    have hedge : allowedLifecycleTransition "maintenance" "retired" = true := rfl
    exact legal_assign cdu_assign.1 cdu_assign.2 rfl hedge
  case inr.inr.inr.inr.inr.inl =>
    have hstores : (cduShelf "retired" 3 2).Stores cduPath (some (.shared 0)) 5
        (cduShelf "retired" 4 5) := cdu_stores
    refine legal_put hstores fun row hrow => .inl ?_
    obtain rfl := some.inj (cdu_rows.symm.trans hrow)
    rfl
  all_goals exact hloose.elim

def putActive : Endpoint :=
  .put ⟨.put, "/v1/assets/site01.cdu000", [], [], [], [], [], .ok "x"⟩ ⟨none, none⟩ cduPath

def putShelf : Shelf Nat .file :=
  oneRow (Function.update (oneMap "retired") 1 (some (cduFields "active"))) 1 4 5 (by simp)

theorem cdu_overwrite : Shelf.Step (.putAsset cduPath (some (.own (cduFields "active"))) 0)
    (cduShelf "retired" 3 2) (⟨cduPath, 4, some (cduFields "active"), 1, 5⟩, none) putShelf := by
  have hfresh : oneMap "retired" 1 = none := by simp [oneMap]
  exact .inr (.inl ⟨fun h => absurd h.1 (by decide), 5, oneRow_stores (.share _ _ 1 hfresh), rfl⟩)

def putOver : Entry Unit Nat .file :=
  ⟨(), ⟨.putAsset cduPath (some (.own (cduFields "active"))) 0,
    (⟨cduPath, 4, some (cduFields "active"), 1, 5⟩, none)⟩, cduShelf "retired" 3 2, putShelf⟩

def putLog : List (Entry Unit Nat .file) :=
  let s := cduShelf "retired" 3 2
  [⟨(), ⟨.getAsset cduPath, .ok (some cduRow)⟩, s, s⟩,
    ⟨(), ⟨.readSpec 0, some (cduFields "retired")⟩, s, s⟩, putOver,
    ⟨(), ⟨.rest (.outside (.newID "au_")), lit "au_2"⟩, putShelf, putShelf⟩,
    ⟨(), ⟨.rest (.outside .now), (6 : Int)⟩, putShelf, putShelf⟩,
    ⟨(), ⟨.rest (.work (.appendAssetAudit
      ⟨"au_2", 6, "anonymous", cduPath, "put", auditPutDetail true 4⟩)), .ok ()⟩,
      putShelf, putShelf⟩]

theorem put_run : ∃ c, Run Logged
    (.start inventoryEnv (cduShelf "retired" 3 2) fun _ : Unit => putActive) putLog c ∧
      ∃ a, c.prog () = .done (.json 200 a) := by
  refine ⟨_, .more (logged_call rfl cdu_get) <| .more (logged_call rfl cdu_read) <|
    .more (logged_call rfl cdu_overwrite) <| .more (logged_call rfl rfl) <|
    .more (logged_call rfl rfl) <| .more (logged_call rfl rfl) (.refl _), ?_⟩
  exact ⟨_, rfl⟩

/-- **A retired asset is active again**: by a `PUT`, and by a `:lifecycle` whose put is refused
after its assignment has changed the stored map. -/
theorem retired_revived :
    (∃ log c, Run Logged
      (.start inventoryEnv (cduShelf "retired" 3 2) fun _ : Unit => putActive) log c ∧
        (∃ a, c.prog () = .done (.json 200 a)) ∧ ∃ e ∈ log, Revives e ∧ ¬ Legal e) ∧
    ∃ log c, Run Logged
      (.start inventoryEnv (cduShelf "maintenance" 3 2) retireOrRevive) log c ∧
        (∃ a, c.prog true = .done (.json 200 a)) ∧
        (∃ p, c.prog false = .done (.problem p) ∧ p.status = 409) ∧
        ∃ e ∈ log, Revives e ∧ ¬ Legal e := by
  constructor
  · obtain ⟨c, hrun, hok⟩ := put_run
    have hrevives : Revives putOver := ⟨cduPath, _, _, rfl, rfl, rfl, rfl⟩
    refine ⟨_, c, hrun, hok, putOver, ?_, hrevives, hrevives.not_legal⟩
    simp [putLog]
  · obtain ⟨c, hrun, hok, hrefused⟩ := revive_run
    have hrevives : Revives revive := ⟨cduPath, _, _, rfl, rfl, rfl, rfl⟩
    refine ⟨_, c, hrun, hok, hrefused, revive, ?_, hrevives, hrevives.not_legal⟩
    exact mem_append_right _ (mem_cons_self ..)

end Cios.Inventory
