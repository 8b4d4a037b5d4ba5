import Cios.Inventory.Shelf

/-!
# Inventory — the endpoints that write a lifecycle

`PUT`, `:lifecycle` and the writeback of a site layout, as programs over the shelf.  The first and
the last put maps of their own making, so they are the handlers by value, with a read of the map
where it is shared (`share`).  `:lifecycle` assigns to the map it was given, which on a shared map
is a step of its own.
-/

namespace Cios.Inventory
open Text Effect Option
open Cios.Store
open Cios.Http Cios.Http.Core

variable {V : Type}

abbrev Program (V : Type) := Prog (ShelfOp V) ShelfOp.Ret (Reply (Body V))

/-! ### The endpoints -/

/-- The contents of a map, read where it is shared. -/
def withSpec (m : Option (SpecMap V)) (k : Spec V → Program V) : Program V :=
  match m with
  | none => k none
  | some (.own fields) => k (some fields)
  | some (.shared ref) => .call (.readSpec ref) k

/-- `m[key] = v`, where the nil map is replaced by a new one. -/
def withAssigned (m : Option (SpecMap V)) (key : Bytes) (v : Json V) (k : SpecMap V → Program V) :
    Program V :=
  match m with
  | none => k (.own [(key, v)])
  | some (.own fields) => k (.own ((Spec.set (some fields) key v).fields))
  | some (.shared ref) => .call (.assign ref key v) fun _ => k (.shared ref)

def withAsset (found : Except StoreError (Option (Row V)))
    (k : Except StoreError (Option (Asset V)) → Program V) : Program V :=
  match found with
  | .error e => k (.error e)
  | .ok none => k (.ok none)
  | .ok (some row) => withSpec row.spec fun spec => k (.ok (some (row.asset spec)))

/-- A handler that reads a spec as it gets the asset, and puts maps of its own making. -/
def share : Handler V → Program V
  | .done a => .done a
  | .call (.work (.getAsset p)) k =>
    .call (.getAsset p) fun found => withAsset found fun found => share (k found)
  | .call (.work (.putAsset a v)) k =>
    .call (.putAsset a.path (a.spec.map .own) v) fun out => share (k out)
  | .call op k => .call (.rest op) fun r => share (k r)

section Lifecycle

variable (env : Env V) (r : Request) (c : Ctx)

/-- What `:lifecycle` checks of a request before it reads the asset. -/
def lifecycleRequest (path : Bytes) : Except Problem Bytes :=
  match env.parseAssetPath path with
  | .error e => .error ⟨400, "bad-path", "bad asset path", e⟩
  | .ok _ => match r.body with
    | .error e => .error ⟨400, "bad-request", "read body", e⟩
    | .ok b =>
      let decoded := if b.take (2 ^ 16) = [] then .ok [] else env.lifecycleTo (b.take (2 ^ 16))
      match decoded with
      | .error e => .error ⟨400, "bad-request", "bad json", e⟩
      | .ok target =>
        if !allowedLifecycle target then
          .error ⟨422, "invalid-transition", "invalid lifecycle value", target⟩
        else .ok target

/-- The answer to a put of `:lifecycle`. -/
def lifecycleAnswer (path cur target : Bytes) (out : Asset V × Option StoreError) : Handler V :=
  match out.2 with
  | some e => putRefused out.1 e
  | none =>
    appendAudit c path "lifecycle" (cur ++ lit "→" ++ target) <| respond 200 (.asset out.1)

def illegalTransition (cur target : Bytes) : Handler V :=
  problem 422 "invalid-transition" "illegal lifecycle transition" (cur ++ lit "->" ++ target)

/-- `:lifecycle` on the row it has read: it assigns to the row's own map. -/
def moveRow (path target : Bytes) (row : Row V) : Program V :=
  withSpec row.spec fun spec =>
    let cur := lifecycleOf (row.asset spec)
    if !allowedLifecycleTransition cur target then share (illegalTransition cur target)
    else withAssigned row.spec "lifecycle" (.str target) fun m =>
      .call (.putAsset row.path (some m) row.resourceVersion) fun out =>
        share (lifecycleAnswer c path cur target out)

def serveAssetLifecycle (path : Bytes) : Program V :=
  match lifecycleRequest env r path with
  | .error p => .done (.problem p)
  | .ok target => .call (.getAsset path) fun found =>
    match found with
    | .error e => share (storeError e)
    | .ok none => share (notFound "asset path not found" path)
    | .ok (some row) => moveRow c path target row

end Lifecycle

inductive Endpoint where
  | put (r : Request) (c : Ctx) (path : Bytes)
  | lifecycle (r : Request) (c : Ctx) (path : Bytes)
  | writeback (r : Request) (c : Ctx) (site : Bytes)

def Endpoint.prog (env : Env V) : Endpoint → Program V
  | .put r c path => share (putAsset env r c path)
  | .lifecycle r c path => serveAssetLifecycle env r c path
  | .writeback r c site => share (serveSiteLayoutWriteback env r c site)

/-! ### What a request has read -/

def specLifecycle (spec : Spec V) : Bytes :=
  if spec.getStr "lifecycle" = [] then defaultLifecycle else spec.getStr "lifecycle"

theorem lifecycleOf_asset (row : Row V) (spec : Spec V) :
    lifecycleOf (row.asset spec) = specLifecycle spec := rfl

inductive Kind where
  | put
  | lifecycle
  | writeback
deriving DecidableEq, Repr

def Endpoint.kind : Endpoint → Kind
  | .put _ _ _ => .put
  | .lifecycle _ _ _ => .lifecycle
  | .writeback _ _ _ => .writeback

/-- The row a request has read last, and the lifecycle it knows of it. -/
structure Basis (V : Type) where
  kind : Kind
  row : Option (Row V)
  seen : Option Bytes

def Row.seen (row : Row V) : Option Bytes :=
  match row.spec with
  | none => some (specLifecycle (none : Spec V))
  | some (.own fields) => some (specLifecycle (some fields))
  | some (.shared _) => none

/-- A put of the map `m` for the row is a move along an edge, if it is a move at all. -/
def Moves (row : Row V) (m : Option (SpecMap V)) : Prop :=
  m = row.spec ∨ ∀ heap, allowedLifecycleTransition (specLifecycle (contents heap row.spec))
    (specLifecycle (contents heap m)) = true

/-- `:lifecycle` assigns along an edge from what it has seen, and puts a move of its row; the
writeback puts the lifecycle it has seen. -/
def keeper (V : Type) : Protocol (ShelfOp V) ShelfOp.Ret (Reply (Body V)) (Basis V) where
  next g e :=
    match e with
    | ⟨.getAsset _, .ok (some row)⟩ => { g with row := some row, seen := row.seen }
    | ⟨.getAsset _, _⟩ => { g with seen := none }
    | ⟨.readSpec _, spec⟩ => { g with seen := some (specLifecycle spec) }
    | _ => g
  permits g op :=
    match g.kind, op with
    | .lifecycle, .assign _ key v => ∃ cur target, g.seen = some cur ∧ key = lit "lifecycle" ∧
        v = .str target ∧ allowedLifecycleTransition cur target = true
    | _, .assign _ _ _ => False
    | .lifecycle, .putAsset p m v => ∃ row, g.row = some row ∧ p = row.path ∧
        v = row.resourceVersion ∧ Moves row m
    | .writeback, .putAsset _ m _ => ∀ cur heap, g.seen = some cur →
        specLifecycle (contents heap m) = cur
    | _, _ => True
  ends _ _ := True

section Obeys

variable {kind : Kind} {last : Option (Row V)} {seen : Option Bytes} {row : Row V}

theorem obeys_getAsset {p : Bytes} {k : Except StoreError (Option (Row V)) → Program V}
    (hrow : ∀ row : Row V, (keeper V).Obeys ⟨kind, some row, row.seen⟩ (k (.ok (some row))))
    (hnone : (keeper V).Obeys ⟨kind, last, none⟩ (k (.ok none)))
    (herror : ∀ e, (keeper V).Obeys ⟨kind, last, none⟩ (k (.error e))) :
    (keeper V).Obeys ⟨kind, last, seen⟩ (.call (.getAsset p) k) := by
  refine ⟨?_, fun found => ?_⟩
  · cases kind <;> trivial
  cases found with
  | error e => exact herror e
  | ok found =>
    cases found with
    | none => exact hnone
    | some row => exact hrow row

theorem obeys_withSpec {k : Spec V → Program V}
    (hk : ∀ spec, (row.spec = spec.map .own ∨ ∃ ref, row.spec = some (.shared ref)) →
      (keeper V).Obeys ⟨kind, some row, some (specLifecycle spec)⟩ (k spec)) :
    (keeper V).Obeys ⟨kind, some row, row.seen⟩ (withSpec row.spec k) := by
  unfold withSpec Row.seen
  cases hm : row.spec with
  | none => exact hk none (.inl hm)
  | some m =>
    cases m with
    | own fields => exact hk (some fields) (.inl hm)
    | shared ref =>
      refine ⟨?_, fun spec => hk spec (.inr ⟨ref, hm⟩)⟩
      cases kind <;> trivial

theorem obeys_share_getAsset {p : Bytes} {k : Except StoreError (Option (Asset V)) → Handler V}
    (hrow : ∀ (row : Row V) (spec : Spec V),
      (keeper V).Obeys ⟨kind, some row, some (specLifecycle spec)⟩
        (share (k (.ok (some (row.asset spec))))))
    (hnone : (keeper V).Obeys ⟨kind, last, none⟩ (share (k (.ok none))))
    (herror : ∀ e, (keeper V).Obeys ⟨kind, last, none⟩ (share (k (.error e)))) :
    (keeper V).Obeys ⟨kind, last, seen⟩ (share (work (.getAsset p) k)) := by
  exact obeys_getAsset (fun row => obeys_withSpec fun spec _ => hrow row spec) hnone herror

theorem obeys_rest {op : Op V} {k : op.Ret → Program V}
    (hk : ∀ a, (keeper V).Obeys ⟨kind, last, seen⟩ (k a)) :
    (keeper V).Obeys ⟨kind, last, seen⟩ (.call (.rest op) k) := by
  refine ⟨?_, hk⟩
  cases kind <;> trivial

/-- A `PUT` may put anything, and assigns to nothing. -/
theorem share_obeys_put (h : Handler V) : ∀ {last : Option (Row V)} {seen : Option Bytes},
    (keeper V).Obeys ⟨.put, last, seen⟩ (share h) := by
  induction h with
  | done a => exact trivial
  | call op k ih =>
    cases op with
    | tenancy call => exact obeys_rest fun a => ih a
    | outside o => exact obeys_rest fun a => ih a
    | work call =>
      cases call with
      | getAsset p =>
        refine obeys_share_getAsset ?_ ?_ ?_
        · exact fun row spec => ih _
        · exact ih _
        · exact fun e => ih _
      | putAsset a v => exact ⟨trivial, fun out => ih out⟩
      | _ => exact obeys_rest fun a => ih a

/-! #### The writeback -/

section Spec

variable {spec : Spec V} {key : Bytes} {v : Json V}

theorem find_filter_ne {fields : Fields V} {key' : Bytes} (h : key ≠ key') :
    (fields.filter fun kv => kv.1 ≠ key').find? (fun kv => kv.1 = key) =
      fields.find? fun kv => kv.1 = key := by
  induction fields with
  | nil => rfl
  | cons kv fields ih =>
    by_cases hkv : kv.1 = key
    · simp [hkv, h]
    · by_cases hkv' : kv.1 = key'
      · simpa [hkv', h.symm] using ih
      · simpa [hkv] using ih

theorem get_erase_of_ne {key' : Bytes} (h : key ≠ key') :
    (spec.erase key').get key = spec.get key := by
  unfold Spec.get Spec.erase
  rw [Spec.fields, getD_some, find_filter_ne h]

theorem get_set_of_ne {key' : Bytes} (h : key ≠ key') :
    (spec.set key' v).get key = spec.get key := by
  refine Eq.trans ?_ (get_erase_of_ne h)
  show ((key', v) :: (spec.erase key').fields |>.find? _).map _ = _
  rw [List.find?_cons_of_neg (by simpa using h.symm)]
  rfl

theorem specLifecycle_congr {spec' : Spec V} (h : spec'.get "lifecycle" = spec.get "lifecycle") :
    specLifecycle spec' = specLifecycle spec := by
  rw [specLifecycle, specLifecycle, Spec.getStr, Spec.getStr, h]

end Spec

/-- The writeback of an asset keeps its lifecycle. -/
theorem layoutSpec_lifecycle (lay : SiteLayout V) (inst : LayoutInstance V) (a : Asset V) :
    specLifecycle (layoutSpec lay inst (some a)) = specLifecycle a.spec := by
  -- None of the layout's own keys is the lifecycle's.
  have hset : ∀ (spec : Spec V) (key : Bytes) (v : Json V), key ≠ lit "lifecycle" →
      specLifecycle (spec.set key v) = specLifecycle spec :=
    fun _ _ _ h => specLifecycle_congr (get_set_of_ne h.symm)
  have herase : ∀ (spec : Spec V) (key : Bytes), key ≠ lit "lifecycle" →
      specLifecycle (spec.erase key) = specLifecycle spec :=
    fun _ _ h => specLifecycle_congr (get_erase_of_ne h.symm)
  have hite : ∀ (p : Prop) [Decidable p] (spec spec' : Spec V),
      specLifecycle (if p then spec else spec') =
        if p then specLifecycle spec else specLifecycle spec' := fun p _ _ _ => apply_ite _ p _ _
  unfold layoutSpec
  simp (disch := decide) only [hite, hset, herase, isSome_some, bind_some, ite_self,
    if_true]
  -- The type is set or not; below it stands the asset's spec, or the one it is made with.
  cases a.spec with
  | none =>
    split
    iterate 2 exact hset _ _ _ (by decide)
    · rfl
  | some fields =>
    split
    iterate 2 exact hset _ _ _ (by decide)
    · rfl

variable {env : Env V} {r : Request} {c : Ctx}
variable {lay : SiteLayout V}

theorem writebackInstances_obeys {k : LayoutWritebackResult → Handler V}
    (hk : ∀ {last : Option (Row V)} {seen : Option Bytes} (res : LayoutWritebackResult),
      (keeper V).Obeys ⟨.writeback, last, seen⟩ (share (k res)))
    (insts : List (LayoutInstance V)) : ∀ {last : Option (Row V)} {seen : Option Bytes}
      {res : LayoutWritebackResult},
      (keeper V).Obeys ⟨.writeback, last, seen⟩ (share (writebackInstances lay k insts res)) := by
  induction insts with
  | nil =>
    intro last seen res
    exact hk res
  | cons inst insts ih =>
    intro last seen res
    rw [writebackInstances]
    split
    · exact ih
    -- The put goes on with the loop, whatever it is answered.
    have hput : ∀ {last : Option (Row V)} {seen : Option Bytes} (existing : Option (Asset V)),
        (∀ cur, seen = some cur → specLifecycle (layoutSpec lay inst existing) = cur) →
        ∀ {next}, (∀ {last : Option (Row V)} {seen : Option Bytes} (out),
          (keeper V).Obeys ⟨.writeback, last, seen⟩ (share (next out))) →
        (keeper V).Obeys ⟨.writeback, last, seen⟩ (share (work
          (.putAsset ⟨inst.path, 0, layoutSpec lay inst existing, 0, 0⟩ 0) next)) := by
      intro last seen existing hseen next hnext
      refine ⟨?_, fun out => hnext out⟩
      intro cur heap hcur
      rw [← hseen cur hcur]
      cases layoutSpec lay inst existing with
      | none => rfl
      | some fields => rfl
    refine obeys_share_getAsset ?_ ?_ ?_
    · exact fun row spec => hput (some (row.asset spec)) (fun cur hcur =>
        (layoutSpec_lifecycle ..).trans (some.inj hcur)) fun out => by
          rcases out with ⟨_, _ | e⟩
          · exact ih
          · exact ih
    · refine hput none (by rintro _ ⟨⟩) fun out => ?_
      rcases out with ⟨_, _ | e⟩
      · exact ih
      · exact ih
    · exact fun e => ih

theorem obeys_outside {o : Outside V} {k : o.Ret → Handler V}
    (hk : ∀ a, (keeper V).Obeys ⟨kind, last, seen⟩ (share (k a))) :
    (keeper V).Obeys ⟨kind, last, seen⟩ (share (outside o k)) := obeys_rest hk

variable {g : Basis V}

theorem obeys_share_done {a : Reply (Body V)} :
    (keeper V).Obeys g (share (.done a)) := trivial

theorem obeys_share_orElse {ε α : Type} {x : Except ε α} {no : ε → Handler V} {k : α → Handler V}
    (hno : ∀ e, (keeper V).Obeys g (share (no e))) (hk : ∀ a, (keeper V).Obeys g (share (k a))) :
    (keeper V).Obeys g (share (orElse x no k)) := by
  cases x with
  | error e => exact hno e
  | ok a => exact hk a

theorem obeys_share_ite {b : Prop} [Decidable b] {h h' : Handler V}
    (hb : (keeper V).Obeys g (share h)) (hn : (keeper V).Obeys g (share h')) :
    (keeper V).Obeys g (share (if b then h else h')) := by
  split
  · exact hb
  · exact hn

theorem writebackSiteLayout_obeys {actor : Bytes}
    {k : SiteLayout V → LayoutWritebackResult → Handler V}
    (hk : ∀ lay res {last : Option (Row V)} {seen : Option Bytes},
      (keeper V).Obeys ⟨.writeback, last, seen⟩ (share (k lay res))) :
    (keeper V).Obeys ⟨.writeback, last, seen⟩ (share (writebackSiteLayout env lay actor k)) := by
  refine obeys_outside fun now => obeys_share_orElse (fun _ => obeys_share_done) fun lay => ?_
  refine writebackInstances_obeys (fun res => ?_) lay.instances
  refine obeys_outside fun saved => obeys_share_orElse (fun _ => obeys_share_done) fun saved => ?_
  exact hk saved _

theorem withOverride_obeys {site actor : Bytes} {k : SiteLayout V → Handler V}
    (hk : ∀ lay, (keeper V).Obeys ⟨kind, last, seen⟩ (share (k lay))) :
    (keeper V).Obeys ⟨kind, last, seen⟩ (share (withOverride env r site actor lay k)) := by
  refine obeys_share_ite (hk lay) ?_
  refine obeys_share_orElse (fun _ => obeys_share_done) fun override => ?_
  exact obeys_outside fun saved => obeys_share_orElse (fun _ => obeys_share_done) hk

theorem serveSiteLayoutWriteback_obeys {site : Bytes} :
    (keeper V).Obeys ⟨.writeback, last, seen⟩ (share (serveSiteLayoutWriteback env r c site)) := by
  unfold serveSiteLayoutWriteback requireOrgAdmin
  split
  · refine obeys_share_ite ?_ obeys_share_done
    refine obeys_outside fun loaded => obeys_share_orElse (fun _ => obeys_share_done) fun lay => ?_
    refine withOverride_obeys fun lay => writebackSiteLayout_obeys fun saved res _ _ => ?_
    exact obeys_share_ite (obeys_outside fun job => obeys_share_done) obeys_share_done
  · exact obeys_share_done

/-! #### The lifecycle endpoint -/

theorem allowedLifecycleTransition_ne {cur target : Bytes}
    (h : allowedLifecycleTransition cur target = true) : target ≠ [] := by
  rintro rfl
  unfold allowedLifecycleTransition at h
  split_ifs at h
  all_goals exact absurd h (by decide)

theorem specLifecycle_set {spec : Spec V} {target : Bytes} (h : target ≠ []) :
    specLifecycle (spec.set "lifecycle" (.str target)) = target := by
  exact if_neg h

theorem lifecycleAnswer_obeys {path cur target : Bytes} (out : Asset V × Option StoreError) :
    (keeper V).Obeys g (share (lifecycleAnswer c path cur target out)) := by
  unfold lifecycleAnswer
  split
  · exact obeys_share_ite obeys_share_done obeys_share_done
  · exact obeys_outside fun id => obeys_outside fun ts => obeys_rest fun _ => obeys_share_done

/-- `:lifecycle` moves along edges. -/
theorem serveAssetLifecycle_obeys {path : Bytes} :
    (keeper V).Obeys ⟨.lifecycle, last, seen⟩ (serveAssetLifecycle env r c path) := by
  unfold serveAssetLifecycle
  split
  · exact trivial
  rename_i target _
  refine obeys_getAsset (fun row => ?_) obeys_share_done fun e => obeys_share_done
  refine obeys_withSpec fun spec hspec => ?_
  dsimp only
  split
  · exact obeys_share_done
  rename_i hedge
  have hedge : allowedLifecycleTransition (specLifecycle spec) target = true := by
    simpa [lifecycleOf_asset] using hedge
  have hput : ∀ m, Moves row (some m) → (keeper V).Obeys
      ⟨.lifecycle, some row, some (specLifecycle spec)⟩
      (.call (.putAsset row.path (some m) row.resourceVersion) fun out =>
        share (lifecycleAnswer c path (lifecycleOf (row.asset spec)) target out)) :=
    fun m hm => ⟨⟨row, rfl, rfl, rfl, hm⟩, lifecycleAnswer_obeys⟩
  rcases hspec with hspec | ⟨ref, hspec⟩
  · -- A map of its own: what it puts has the new lifecycle.
    have hmoves : ∀ fields, some fields = spec.set "lifecycle" (.str target) →
        Moves row (some (.own fields)) := by
      intro fields hfields
      refine .inr fun heap => ?_
      have hrow : contents heap row.spec = spec := by
        rw [hspec]
        cases spec with
        | none => rfl
        | some fields => rfl
      rw [hrow, contents, hfields, specLifecycle_set (allowedLifecycleTransition_ne hedge)]
      exact hedge
    rw [hspec]
    cases spec with
    | none => exact hput _ (hmoves _ rfl)
    | some fields => exact hput _ (hmoves _ rfl)
  · rw [hspec]
    refine ⟨⟨_, target, rfl, rfl, rfl, hedge⟩, fun _ => ?_⟩
    exact hput _ (.inl hspec.symm)

/-- **Every request keeps to its protocol.** -/
theorem Endpoint.obeys (w : Endpoint) : (keeper V).Obeys ⟨w.kind, none, none⟩ (w.prog env) := by
  cases w with
  | put r c path => exact share_obeys_put _
  | lifecycle r c path => exact serveAssetLifecycle_obeys
  | writeback r c site => exact serveSiteLayoutWriteback_obeys

end Obeys

end Cios.Inventory
