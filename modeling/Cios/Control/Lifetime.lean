import Cios.Control.TwoMan
import Cios.Gateway.Control

/-!
# Control — how long a write lives

The lifetime of a control write comes in seconds and is computed with in nanoseconds, three times:
when a class-A write is parked, when a write is dispatched, and by the gateway, which is sent whole
seconds again.  Each product is taken in 64 bits, which hold some 292 years, and the handler accepts
any positive number of seconds (`lives_exactly_iff`).
-/

namespace Cios.Control
open Text
open Cios.Rbac (Principal)
open Keyed

variable {V : Type}

/-- The `ttl_seconds` that `HTTPControlSink` sends for a dispatch. -/
def sentSeconds (ttl : Int) : Int := ttl.tdiv 1000000000

def parkAll (t : Pending V) (others : List (PendingControl V)) : Pending V :=
  others.foldl (fun t o => insertPending t o.createdAt o) t

/-- A write lives for exactly its `ttl_seconds`: parked at `opened` it can be approved until then
and no longer, and it is dispatched to the gateway, and taken there, with that lifetime. -/
def LivesExactly (opened : Int) (req : SetRequest V) : Prop :=
  let lifetime := req.ttlSeconds * 1000000000
  (∀ (t : Pending V) (p : Principal) (path id : Bytes) (others : List (PendingControl V))
    (now : Int),
      (∀ o ∈ others, o.id ≠ id ∧ o.createdAt ≤ now) →
      let pend := newPending p path req opened id
      ((lookUp (parkAll (insertPending t opened pend) others) now id).2 = .ok pend ↔
        now ≤ opened + lifetime)) ∧
    ttlDuration req.ttlSeconds = lifetime ∧
    Gateway.ttlOf (sentSeconds (ttlDuration req.ttlSeconds)) = lifetime

theorem mem_parkAll {pend : PendingControl V} :
    ∀ {others : List (PendingControl V)} {t : Pending V},
    pend ∈ t.rows → (∀ o ∈ others, o.id ≠ pend.id ∧ o.createdAt ≤ pend.expiresAt) →
    pend ∈ (parkAll t others).rows
  | [], _, hin, _ => hin
  | o :: others, t, hin, h => by
    rw [List.forall_mem_cons] at h
    have hkept : pend ∈ (sweep t o.createdAt).rows :=
      List.mem_filter.mpr ⟨hin, by simpa using h.1.2⟩
    have hput : pend ∈ (insertPending t o.createdAt o).rows :=
      Table.mem_put.mpr (.inl ⟨hkept, h.1.1.symm⟩)
    exact (mem_parkAll hput h.2 : pend ∈ (parkAll _ others).rows)

/-- **Time to live.**  Of every number of seconds the handler accepts, the write lives for exactly
that long if and only if the nanoseconds fit a duration. -/
theorem lives_exactly_iff (opened : Int) (req : SetRequest V) (hpos : 0 < req.ttlSeconds)
    (hint : req.ttlSeconds < 2 ^ 63) :
    LivesExactly opened req ↔ req.ttlSeconds * 1000000000 < 2 ^ 63 := by
  constructor
  · rintro ⟨-, hdur, -⟩
    rw [← hdur]
    exact Int.bmod_lt (by decide)
  intro hfits
  have hdur : ttlDuration req.ttlSeconds = req.ttlSeconds * 1000000000 :=
    Int.bmod_eq_of_le (by omega) (by omega)
  refine ⟨fun t p path id others now hothers => ⟨fun h => ?_, fun h => ?_⟩, hdur, ?_⟩
  · have hexp := (lookUp_ok (Prod.ext rfl h)).2
    rwa [newPending, hdur] at hexp
  · have hexp : now ≤ (newPending p path req opened id).expiresAt := by
      rwa [newPending, hdur]
    have hput : newPending p path req opened id ∈
        (insertPending t opened (newPending p path req opened id)).rows :=
      Table.mem_put.mpr (.inr rfl)
    have hin := mem_parkAll hput fun o ho => ⟨(hothers o ho).1, (hothers o ho).2.trans hexp⟩
    have hget := Table.get_eq_some.mpr ⟨hin, (rfl : _ = id)⟩
    simp only [lookUp, hget, if_neg (Int.not_lt.mpr hexp)]
  · rw [hdur, sentSeconds, Int.mul_tdiv_cancel _ (by decide), Gateway.ttlOf]
    change (if ttlDuration req.ttlSeconds ≤ 0 then _ else ttlDuration req.ttlSeconds) = _
    rw [if_neg (by omega), hdur]

/-- A minute is a minute. -/
theorem lives_exactly_minute : LivesExactly 0 (⟨(), 60, [], true, []⟩ : SetRequest Unit) :=
  (lives_exactly_iff 0 ⟨(), 60, [], true, []⟩ (by decide) (by decide)).mpr (by decide)

/-- A write for 293 years has expired a second after it was parked; the gateway takes it for half a
minute. -/
theorem expired_at_once :
    let req : SetRequest Unit := ⟨(), 9223372037, [], true, []⟩
    let pend := newPending ⟨"alice", .operator, [], none⟩ "cdu.pump.rpm" req 0 "p1"
    ((lookUp (insertPending .empty 0 pend) 1000000000 "p1").2.isOk = false) ∧
      Gateway.ttlOf (sentSeconds (ttlDuration req.ttlSeconds)) = 30000000000 := by
  decide

end Cios.Control
