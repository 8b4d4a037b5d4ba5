import Cios.Store.Memory

/-!
# Store — failed saves

A mutator of the file store whose save fails has to answer an error and to leave the memory as it
was: `Attempt.Atomic`.  Each mutator undoes its own change by hand, over one, two or three
collections, and every one of them gets it right but for four (`Mutation.Leaks`): `SeedAlarms` and
`AckAlarm` undo nothing, and `CreateTenant` and `CreateOrg` delete the row under the id they drew,
which takes an organisation along if the id was in use.
-/

namespace Cios.Store
open Text List Std.ExtTreeMap Memory
open Undo (Field restore)

variable {V α : Type}

def Answer.plain (r : Answer α) : Except StoreError α := r.mapError Failure.error

/-- What an attempt answers, and the store it leaves. -/
def Attempt.outcome (a : Attempt V α) (amb : WorkAmbient) (m : Memory V) :
    Except StoreError α × Memory V :=
  (Answer.plain (a.run amb.save m).1, (a.run amb.save m).2)

/-! ### Atomic attempts -/

/-- If the save fails, the answer is an error and the memory is what it was. -/
def Attempt.Atomic (a : Attempt V α) (m : Memory V) : Prop :=
  ∀ e, a.saves = true → ∃ f, a.run (some e) m = (.error f, m)

variable {m : Memory V}

theorem Attempt.atomic_done (r : Answer α) : (Attempt.done r : Attempt V α).Atomic m :=
  fun _ h => nomatch h

/-- An attempt that answers a failed save with an error is atomic if it undoes its change. -/
theorem Attempt.atomic_save {next : Memory V} {ok : Answer α} {undo : Memory V → Memory V}
    {failed : Bytes → Answer α} (hf : ∀ e, ∃ f, failed e = .error f) :
    (Attempt.save next ok undo failed).Atomic m ↔ undo next = m := by
  constructor
  · intro h
    obtain ⟨f, hrun⟩ := h [] rfl
    exact (Prod.mk.inj hrun).2
  · intro h e _
    obtain ⟨f, hf⟩ := hf e
    exact ⟨f, Prod.ext hf h⟩

theorem saveError_eq (text e : Bytes) : ∃ f, (saveError text e : Answer α) = .error f := ⟨_, rfl⟩

theorem Attempt.atomic_saveError {next : Memory V} {ok : Answer α} {undo : Memory V → Memory V}
    {text : Bytes} : (Attempt.save next ok undo (saveError text)).Atomic m ↔ undo next = m :=
  Attempt.atomic_save fun e => saveError_eq text e

theorem Attempt.atomic_check {c : Prop} [Decidable c] {r : Answer α} {a : Attempt V α}
    (h : a.Atomic m) : (if c then .done r else a).Atomic m := by
  split
  · exact atomic_done r
  · exact h

theorem Attempt.atomic_check_iff {c P : Prop} [Decidable c] {r : Answer α} {a : Attempt V α}
    (h : a.Atomic m ↔ ¬ (a.saves = true ∧ P)) :
    (if c then .done r else a).Atomic m ↔ ¬ ((if c then .done r else a).saves = true ∧ P) := by
  split
  · exact iff_of_true (atomic_done r) (by simp [saves])
  · exact h

/-! ### Assets -/

namespace AssetMap

variable {assets : AssetMap V} {a b : Asset V}

theorem ext_rows {x y : AssetMap V} (h : x.rows = y.rows) : x = y := by
  cases x
  cases h
  rfl

theorem put_put (h : assets.get a.path = some a) (hb : b.path = a.path) :
    (assets.put b).put a = assets := by
  apply ext_rows
  simp only [put, hb]
  exact Undo.insert_insert h b

theorem erase_put {p : Bytes} (h : assets.get p = none) (ha : a.path = p) :
    (assets.put a).erase p = assets := by
  apply ext_rows
  simp only [put, ha]
  exact Undo.erase_insert h a

def pairs (as : List (Asset V)) : List (Bytes × Asset V) := as.map fun a => (a.path, a)

theorem rows_putAll (as : List (Asset V)) :
    (assets.putAll as).rows = Undo.insertAll assets.rows (pairs as) := by
  induction as generalizing assets with
  | nil => rfl
  | cons a as ih => exact ih

theorem rows_eraseAll (as : List (Asset V)) :
    (assets.eraseAll as).rows = Undo.eraseAll assets.rows (pairs as) := by
  induction as generalizing assets with
  | nil => rfl
  | cons a as ih => exact ih

theorem putAll_eraseAll {as : List (Asset V)} (h : ∀ a ∈ as, assets.get a.path = some a) :
    (assets.eraseAll as).putAll as = assets := by
  apply ext_rows
  rw [rows_putAll, rows_eraseAll]
  refine Undo.insertAll_eraseAll fun row hrow => ?_
  obtain ⟨a, ha, rfl⟩ := mem_map.mp hrow
  exact h a ha

end AssetMap

namespace Memory
open Attempt (atomic_done atomic_save atomic_saveError atomic_check atomic_check_iff)

theorem upsertIn_atomic {β : Type} (F : Field (Memory V) (Map α)) (m : Memory V) (id : Bytes)
    (row : α) (ok : β) : (upsertIn F m id row ok).Atomic m := by
  refine atomic_saveError.mpr ?_
  exact F.undo (fun x => restore x id (F.get m)[id]?) (Undo.restore_insert _ _ _)

theorem appendTo_atomic (F : Field (Memory V) (List α)) (m : Memory V) (row : α) :
    (appendTo F m row).Atomic m := by
  refine atomic_saveError.mpr ?_
  exact F.undo (fun x => x.take (F.get m).length) (take_left ..)

/-! ### Mutator by mutator -/

variable (amb : WorkAmbient) (m : Memory V)

@[simp] theorem putAsset_atomic (a : Asset V) (v : Int) : (m.putAsset amb a v).Atomic m := by
  unfold putAsset
  cases h : m.assets.get a.path with
  | some cur =>
    refine atomic_check (atomic_saveError.mpr ?_)
    have hcur : m.assets.get cur.path = some cur := by
      rwa [m.assets.keyed a.path cur h]
    simp only [AssetMap.put_put hcur]
  | none =>
    refine atomic_check (atomic_saveError.mpr ?_)
    simp only [AssetMap.erase_put h]

theorem get_of_mem_hasChildren {path : Bytes} {k : Asset V} (h : k ∈ m.hasChildren path) :
    m.assets.get k.path = some k := by
  obtain ⟨kv, hkv, rfl⟩ := mem_map.mp ((FileStore.perm_sortBy _ _).mem_iff.mp h)
  have hget := mem_toList_iff_getElem?_eq_some.mp (mem_of_mem_filter hkv)
  rwa [← m.assets.keyed kv.1 kv.2 hget] at hget

@[simp] theorem deleteAsset_atomic (path : Bytes) (cascade : Bool) :
    (m.deleteAsset path cascade).Atomic m := by
  refine atomic_check (atomic_check (atomic_saveError.mpr ?_))
  have hrows : ∀ a ∈ (m.assets.get path).toList ++ m.hasChildren path,
      m.assets.get a.path = some a := by
    intro a ha
    rcases mem_append.mp ha with ha | ha
    · have hget : m.assets.get path = some a := by simpa using ha
      rwa [m.assets.keyed path a hget]
    · exact m.get_of_mem_hasChildren ha
  simp only [AssetMap.putAll_eraseAll hrows]

@[simp] theorem putTicket_atomic (t : Ticket) (v : Int) : (m.putTicket t v).Atomic m := by
  refine atomic_check ?_
  cases h : m.tickets[t.id]? with
  | some cur =>
    refine atomic_check (atomic_saveError.mpr ?_)
    simp only [Undo.insert_insert h]
  | none =>
    refine atomic_check (atomic_saveError.mpr ?_)
    simp only [Undo.erase_insert h]

@[simp] theorem updateTicketAssignee_atomic (id assignee : Bytes) :
    (m.updateTicketAssignee id assignee).Atomic m := by
  unfold updateTicketAssignee
  cases h : m.tickets[id]? with
  | none => exact atomic_done _
  | some cur =>
    refine atomic_saveError.mpr ?_
    simp only [Undo.insert_insert h]

@[simp] theorem putSpare_atomic (sp : SparePart) : (m.putSpare sp).Atomic m := by
  exact atomic_check (upsertIn_atomic sparesF m sp.id sp ())

@[simp] theorem adjustSpare_atomic (id : Bytes) (delta : Int) (ticketID : Bytes) (time : Int) :
    (m.adjustSpare amb id delta ticketID time).Atomic m := by
  unfold adjustSpare
  cases h : m.spares[id]? with
  | none => exact atomic_done _
  | some sp =>
    refine atomic_check (atomic_check (atomic_saveError.mpr ?_))
    simp only [Undo.insert_insert h, take_left]

@[simp] theorem deleteMaintenanceWindow_atomic (id : Bytes) :
    (m.deleteMaintenanceWindow id).Atomic m := by
  unfold deleteMaintenanceWindow
  cases h : m.mwWindows[id]? with
  | none => exact atomic_done _
  | some prev =>
    refine atomic_saveError.mpr ?_
    simp only [Undo.insert_erase h]

@[simp] theorem renameOrg_atomic (id newName principal : Bytes) :
    (m.renameOrg amb id newName principal).Atomic m := by
  refine atomic_check ?_
  cases h : m.orgs[id]? with
  | none => exact atomic_done _
  | some prev =>
    refine atomic_check (atomic_check (atomic_saveError.mpr ?_))
    simp only [Undo.insert_insert h, take_left]

@[simp] theorem deleteOrg_atomic (id principal : Bytes) :
    (m.deleteOrg amb id principal).Atomic m := by
  unfold deleteOrg
  cases h : m.orgs[id]? with
  | none => exact atomic_done _
  | some prev =>
    refine atomic_check (atomic_saveError.mpr ?_)
    simp only [Undo.insert_erase h, take_left]

@[simp] theorem updateTenantTier_atomic (id target principal : Bytes) :
    (m.updateTenantTier amb id target principal).Atomic m := by
  unfold updateTenantTier
  cases tenantTierRank target with
  | none => exact atomic_done _
  | some targetRank =>
    cases h : m.tenants[id]? with
    | none => exact atomic_done _
    | some t =>
      dsimp only
      cases tenantTierRank t.isolationTier with
      | none => exact atomic_done _
      | some curRank =>
        refine atomic_check ?_
        split
        · refine atomic_saveError.mpr ?_
          simp only [take_left]
        · refine atomic_saveError.mpr ?_
          simp only [Undo.insert_insert h, take_left]

@[simp] theorem attachSiteToOrg_atomic (site orgID principal : Bytes) :
    (m.attachSiteToOrg amb site orgID principal).Atomic m := by
  refine atomic_check ?_
  cases m.orgs[orgID]? with
  | none => exact atomic_done _
  | some o =>
    dsimp only
    split
    · refine atomic_check (atomic_saveError.mpr ?_)
      simp only [Undo.restore_insert, take_left]
    · refine atomic_saveError.mpr ?_
      simp only [Undo.restore_insert, take_left]

@[simp] theorem detachSiteFromOrg_atomic (site principal : Bytes) :
    (m.detachSiteFromOrg amb site principal).Atomic m := by
  unfold detachSiteFromOrg
  cases h : m.siteOrgs[site]? with
  | none => exact atomic_done _
  | some cur =>
    refine atomic_saveError.mpr ?_
    simp only [Undo.insert_erase h, take_left]

@[simp] theorem deleteTenant_atomic (id principal : Bytes) :
    (m.deleteTenant amb id principal).Atomic m := by
  unfold deleteTenant
  cases h : m.tenants[id]? with
  | none => exact atomic_done _
  | some prev =>
    refine atomic_check (atomic_saveError.mpr ?_)
    simp only [Undo.insert_erase h, take_left]

theorem getElem?_of_findRoleBinding {subject scope : Bytes} {row : RoleBinding} {i : Nat}
    (h : m.findRoleBinding subject scope = some (row, i)) : m.roleBindings[i]? = some row :=
  mem_zipIdx_iff_getElem?.mp (mem_of_find?_eq_some h)

@[simp] theorem putRoleBinding_atomic (rb : RoleBinding) : (m.putRoleBinding amb rb).Atomic m := by
  refine atomic_check ?_
  cases h : m.findRoleBinding rb.subject rb.scope with
  | some row =>
    refine atomic_saveError.mpr ?_
    simp only [Undo.set_set_getElem (m.getElem?_of_findRoleBinding h)]
  | none =>
    refine atomic_saveError.mpr ?_
    simp only [take_left]

@[simp] theorem deleteRoleBinding_atomic (subject scope : Bytes) :
    (m.deleteRoleBinding subject scope).Atomic m := by
  refine atomic_check ?_
  cases h : m.findRoleBinding subject scope with
  | some row =>
    refine atomic_saveError.mpr ?_
    simp only [Undo.reinsert_eraseIdx (m.getElem?_of_findRoleBinding h)]
  | none => exact atomic_done _

/-! ### The mutators that leak -/

theorem seedAlarms_atomic_iff (rows : List Alarm) :
    (m.seedAlarms rows).Atomic m ↔ rows.foldl seedAlarm m.alarms = m.alarms := by
  unfold seedAlarms
  rw [atomic_saveError]
  constructor
  · intro h
    exact congrArg alarms h
  · intro h
    simp only [h, id]

theorem ackAlarm_atomic_iff (id actor : Bytes) :
    (m.ackAlarm amb id actor).Atomic m ↔ ¬ ∃ a, m.alarms[id]? = some a ∧ a.state = "firing" := by
  unfold ackAlarm
  cases h : m.alarms[id]? with
  | none => exact iff_of_true (atomic_done _) (by simp)
  | some a =>
    dsimp only
    split
    · rename_i hstate
      refine iff_of_true (atomic_done _) ?_
      rintro ⟨b, hb, hfiring⟩
      obtain rfl := Option.some.inj hb
      exact hstate hfiring
    · rename_i hstate
      refine iff_of_false ?_ ?_
      · rw [atomic_save fun e => ⟨_, rfl⟩]
        intro heq
        have halarm := congrArg (fun m : Memory V => m.alarms[id]?) heq
        simp only [getElem?_insert_self, h, Option.some.injEq] at halarm
        have hacked := congrArg Alarm.state halarm
        rw [not_not.mp hstate] at hacked
        have hne : lit "acked" ≠ lit "firing" := by decide
        exact hne hacked
      · exact fun hno => hno ⟨a, rfl, not_not.mp hstate⟩

/-- Deleting the row under a drawn id restores the map when the id was not in use, and only then. -/
theorem erase_insert_iff {orgs : Map Org} {id : Bytes} {o : Org} :
    (orgs.insert id o).erase id = orgs ↔ orgs[id]? = none := by
  constructor
  · intro h
    rw [← h]
    simp
  · exact fun h => Undo.erase_insert h o

theorem createOrg_atomic_iff (tenantID name principal : Bytes) :
    (m.createOrg amb tenantID name principal).Atomic m ↔
      ¬ ((m.createOrg amb tenantID name principal).saves = true ∧
        m.orgs[amb.newOrgID]? ≠ none) := by
  refine atomic_check_iff (atomic_check_iff (atomic_check_iff ?_))
  rw [atomic_saveError]
  simp only [Attempt.saves, true_and, not_not, take_left]
  rw [← erase_insert_iff]
  constructor
  · intro h
    exact congrArg orgs h
  · intro h
    simp only [h]

theorem createTenant_atomic_iff (id displayName principal : Bytes) :
    (m.createTenant amb id displayName principal).Atomic m ↔
      ¬ ((m.createTenant amb id displayName principal).saves = true ∧
        m.orgs[amb.newOrgID]? ≠ none) := by
  refine atomic_check_iff (atomic_check_iff ?_)
  split
  · exact iff_of_true (atomic_done _) (by simp [Attempt.saves])
  rename_i hnew
  have htenant : m.tenants[trimSpace id]? = none := by
    simpa using hnew
  rw [atomic_saveError]
  simp only [Attempt.saves, true_and, not_not, take_left, Undo.erase_insert htenant]
  rw [← erase_insert_iff]
  constructor
  · intro h
    exact congrArg orgs h
  · intro h
    simp only [h]

end Memory

/-! ### Every mutator -/

/-- The calls that a failed save leaves a trace of. -/
def Mutation.Leaks (amb : WorkAmbient) (m : Memory V) : Mutation V → Prop
  | .seedAlarms rows => rows.foldl Memory.seedAlarm m.alarms ≠ m.alarms
  | .ackAlarm id _ => ∃ a, m.alarms[id]? = some a ∧ a.state = "firing"
  | .createTenant id name p =>
    (m.createTenant amb id name p).saves = true ∧ m.orgs[amb.newOrgID]? ≠ none
  | .createOrg t name p => (m.createOrg amb t name p).saves = true ∧ m.orgs[amb.newOrgID]? ≠ none
  | _ => False

/-- **Failed saves.**  A mutator whose save fails answers an error and leaves the memory as it was,
unless it is a `SeedAlarms` that changes an alarm, an `AckAlarm` of a firing alarm, or a
`CreateTenant` or `CreateOrg` that draws the id of an existing organisation. -/
theorem atomic_iff (amb : WorkAmbient) (m : Memory V) (c : Mutation V) :
    (m.perform amb c).Atomic m ↔ ¬ c.Leaks amb m := by
  cases c with
  | seedAlarms rows => exact (m.seedAlarms_atomic_iff rows).trans not_not.symm
  | ackAlarm id actor => exact m.ackAlarm_atomic_iff amb id actor
  | createTenant id name p => exact m.createTenant_atomic_iff amb id name p
  | createOrg t name p => exact m.createOrg_atomic_iff amb t name p
  | appendTicketNote | appendTicketAudit | appendAssetAudit | appendSetAudit | appendTenantAudit =>
    exact iff_of_true (appendTo_atomic _ m _) id
  | putPMSchedule | putInspectionTemplate | putMaintenanceWindow | upsertUsage =>
    exact iff_of_true (upsertIn_atomic _ m _ _ _) id
  -- The lemmas of the others are in the simp set.
  | _ => simp [perform, Mutation.Leaks]

def oneAlarm : Memory Rat :=
  { Memory.empty with
    alarms := (∅ : Map Alarm).insert (lit "al_1")
      ⟨lit "al_1", lit "site01.cdu000", lit "critical", lit "firing", lit
        "CDU fault", 1, [], none⟩ }

def diskFull : WorkAmbient where
  now := 7
  newOrgID := lit "og_1"
  newTenantAuditID := lit "ta_1"
  newTenantAuditID' := lit "ta_2"
  newRoleBindingID := lit "rb_1"
  save := some (lit "no space left on device")
  newSpareTxnID := lit "st_1"
  newUsageID := lit "us_1"
  usageOrder := []
  rfc3339Nano := fun _ => []

/-- The save of an acknowledgement fails and its error is answered; in memory the alarm is
acknowledged. -/
theorem ack_survives_failed_save :
    let r := (oneAlarm.perform diskFull (.ackAlarm (lit "al_1") (lit "op"))).run diskFull.save
      oneAlarm
    r.1.isOk = false ∧
      (oneAlarm.alarms[lit "al_1"]?.map Alarm.state) = some (lit "firing") ∧
      (r.2.alarms[lit "al_1"]?.map Alarm.state) = some (lit "acked") := by
  refine ⟨rfl, by decide, by decide⟩

end Cios.Store
