import Cios.Gateway.Control
import Cios.Http.Assets
import Cios.Support.Interleave

/-!
# Gateway — the cache of retired assets

The gateway skips the devices whose assets are retired.  On every tick of a poll it asks core for
`GET /v1/assets?lifecycle=retired` and replaces its cache by the paths of the answer
(`refreshRetiredCache` of `gateway/run.go`).  The answer is one page (`retired_cache_iff`).
-/

namespace Cios.Gateway
open Text Effect List
open Cios.Store (Asset)
open Cios.Http (Request)
open Cios.Http.Core
open Cios.Rbac (DotPath exists_globstar)
open Keyed (Table)

variable {V : Type}

/-! ### The cache -/

structure RetiredCache where
  paths : List Bytes

def RetiredCache.contains (cache : RetiredCache) (asset : Bytes) : Bool :=
  cache.paths.contains asset

/-- What comes of the request: no answer, or a status and the items' paths, if the body decodes. -/
inductive Fetch where
  | failed
  | answered (status : Nat) (items : Option (List Bytes))

def refreshRetiredCache (cache : RetiredCache) : Fetch → RetiredCache
  | .failed => cache
  | .answered status items =>
    if status / 100 ≠ 2 then cache
    else match items with
      | none => cache
      | some paths => ⟨paths.filter (· ≠ [])⟩

/-- The devices that `postBatch` and `publishBatch` collect from. -/
def polled (cache : RetiredCache) (devs : List GatewayDevice) : List GatewayDevice :=
  devs.filter fun d => !cache.contains d.asset

/-! ### The listing of core -/

def retiredList : Request :=
  ⟨.get, "/v1/assets", [("lifecycle", "retired")], [], [], [], [], .ok []⟩

/-- A refresh that core answers from these assets, without credentials, as the request has none. -/
def Refreshed (env : Env V) (assets : Table (Asset.path (V := V))) (cache cache' : RetiredCache) :
    Prop :=
  ∃ all shown next, all.Perm assets.rows ∧
    (listAssets env retiredList ⟨none, none⟩).Fed [⟨.work .listAssets, .ok all⟩]
      (.done (.json 200 (.assets shown next))) ∧
    cache' = refreshRetiredCache cache (.answered 200 (some (shown.map Asset.path)))

def retired (all : List (Asset V)) : List (Asset V) := all.filter fun a => lifecycleOf a = "retired"

/-- The paths of the retired assets of core. -/
def Retired (assets : Table (Asset.path (V := V))) (path : Bytes) : Prop :=
  ∃ a ∈ retired assets.rows, a.path = path

section Refresh

variable {env : Env V} {assets : Table (Asset.path (V := V))} {cache cache' : RetiredCache}
  {g : Rbac.Glob}

theorem listAssets_retiredList (hg : Rbac.compileGlob "**" = some g) :
    listAssets env retiredList ⟨none, none⟩ = work .listAssets (onOk fun all =>
      let page := keyPage (fun a => env.encodePageToken a.path) defaultPageSize
        ((retired all).filter fun a => g.matches a.path)
      respond 200 (.assets page.1 page.2)) := by
  have hlisted : ∀ all : List (Asset V), all.filter (listed env retiredList ⟨none, none⟩ g []) =
      (retired all).filter fun a => g.matches a.path := by
    intro all
    rw [retired, filter_filter]
    refine filter_congr fun a _ => ?_
    have htype : retiredList.queryGet "type" = [] := rfl
    have hstate : retiredList.queryGet "lifecycle" = lit "retired" := rfl
    have hbelow : retiredList.queryGet "prefix" = [] := rfl
    have hne : lit "retired" ≠ [] := by decide
    simp [listed, htype, hstate, hbelow, hne, allowed, Bool.and_comm]
  simp only [listAssets, withPageToken, withGlob, hg, withSome, hlisted]
  rfl

theorem exists_refreshed (env : Env V) (assets : Table (Asset.path (V := V)))
    (cache : RetiredCache) : ∃ cache', Refreshed env assets cache cache' := by
  obtain ⟨g, hg, -⟩ := exists_globstar
  let page := keyPage (fun a => env.encodePageToken a.path) defaultPageSize
    ((retired assets.rows).filter fun a => g.matches a.path)
  refine ⟨_, assets.rows, page.1, page.2, .refl _, ?_, rfl⟩
  rw [listAssets_retiredList hg]
  exact Prog.fed_single.mpr rfl

/-- The cache has the first of the retired assets that the default filter admits. -/
theorem Refreshed.contains_iff (h : Refreshed env assets cache cache')
    (hg : Rbac.compileGlob "**" = some g) : ∃ all : List (Asset V), all.Perm assets.rows ∧
      ∀ p, cache'.contains p = true ↔ p ≠ [] ∧
        ∃ a ∈ ((retired all).filter fun a => g.matches a.path).take defaultPageSize,
          a.path = p := by
  obtain ⟨all, shown, next, hperm, hfed, rfl⟩ := h
  rw [listAssets_retiredList hg, work, Prog.fed_single] at hfed
  cases hfed
  refine ⟨all, hperm, fun p => ?_⟩
  simp only [refreshRetiredCache, RetiredCache.contains, keyPage, contains_iff_mem]
  rw [if_neg (by decide), mem_filter, mem_map, decide_eq_true_eq, and_comm]

theorem retired_perm {all : List (Asset V)} (h : all.Perm assets.rows) {a : Asset V} :
    a ∈ retired all ↔ a ∈ retired assets.rows :=
  (h.filter _).mem_iff

theorem Refreshed.sound (h : Refreshed env assets cache cache') {p : Bytes}
    (hp : cache'.contains p = true) : Retired assets p ∧ DotPath p := by
  obtain ⟨g, hg, hmatches⟩ := exists_globstar
  obtain ⟨all, hperm, hiff⟩ := h.contains_iff hg
  obtain ⟨-, a, ha, rfl⟩ := (hiff p).mp hp
  obtain ⟨ha, hmatch⟩ := mem_filter.mp (mem_of_mem_take ha)
  exact ⟨⟨a, (retired_perm hperm).mp ha, rfl⟩, (hmatches _).mp hmatch⟩

theorem Refreshed.length_le (h : Refreshed env assets cache cache')
    (hall : ∀ p, Retired assets p → cache'.contains p = true) :
    (retired assets.rows).length ≤ defaultPageSize := by
  obtain ⟨g, hg, -⟩ := exists_globstar
  obtain ⟨all, -, hiff⟩ := h.contains_iff hg
  have hnodup : ((retired assets.rows).map Asset.path).Nodup :=
    assets.nodup.sublist (filter_sublist.map _)
  have hsub : (retired assets.rows).map Asset.path ⊆
      (((retired all).filter fun a => g.matches a.path).take defaultPageSize).map
        Asset.path := by
    intro p hp
    obtain ⟨a, ha, rfl⟩ := mem_map.mp hp
    exact mem_map.mpr ((hiff _).mp (hall _ ⟨a, ha, rfl⟩)).2
  have hle := (subperm_of_subset hnodup hsub).length_le
  simp only [length_map, length_take] at hle
  exact hle.trans (min_le_left _ _)

theorem Refreshed.contains_of_retired (h : Refreshed env assets cache cache')
    (hpath : ∀ p, Retired assets p → DotPath p)
    (hlen : (retired assets.rows).length ≤ defaultPageSize) {p : Bytes}
    (hp : Retired assets p) : cache'.contains p = true := by
  obtain ⟨g, hg, hmatches⟩ := exists_globstar
  obtain ⟨all, hperm, hiff⟩ := h.contains_iff hg
  obtain ⟨a, ha, rfl⟩ := hp
  refine (hiff _).mpr ⟨(Rbac.dotPath_iff.mp (hpath _ ⟨a, ha, rfl⟩)).1, a, ?_, rfl⟩
  have hshort : ((retired all).filter fun a => g.matches a.path).length ≤ defaultPageSize :=
    (length_filter_le _ _).trans ((hperm.filter _).length_eq.trans_le hlen)
  rw [take_of_length_le hshort]
  exact mem_filter.mpr
    ⟨(retired_perm hperm).mpr ha, (hmatches _).mpr (hpath _ ⟨a, ha, rfl⟩)⟩

/-- **The cache of a refresh** is the set of the retired assets, and the devices polled are the
others', exactly when the default filter admits every retired asset and there are at most
`defaultPageSize`. -/
theorem retired_cache_iff (h : Refreshed env assets cache cache') :
    ((∀ p, cache'.contains p = true ↔ Retired assets p) ∧
      ∀ devs, ∀ d ∈ devs, d ∈ polled cache' devs ↔ ¬ Retired assets d.asset) ↔
      (∀ p, Retired assets p → DotPath p) ∧
        (retired assets.rows).length ≤ defaultPageSize := by
  constructor
  · rintro ⟨hset, -⟩
    exact ⟨fun p hp => (h.sound ((hset p).mpr hp)).2, h.length_le fun p => (hset p).mpr⟩
  rintro ⟨hpath, hlen⟩
  have hset : ∀ p, cache'.contains p = true ↔ Retired assets p := fun p =>
    ⟨fun hp => (h.sound hp).1, h.contains_of_retired hpath hlen⟩
  refine ⟨hset, fun devs d hd => ?_⟩
  rw [polled, mem_filter, ← hset, Bool.not_eq_true', Bool.not_eq_true]
  exact and_iff_right hd

end Refresh

def retiredUnit (n : Nat) : Asset Nat :=
  ⟨lit "sgp01.cdu" ++ [n / 100, n / 10 % 10, n % 10].map fun d => 48 + UInt8.ofNat d, 1,
    some [("lifecycle", .str "retired")], 0, 0⟩

def liveUnit : Asset Nat := ⟨"sgp01.pod002", 1, some [("lifecycle", .str "active")], 0, 0⟩

def twoRetired : Table (Asset.path (V := Nat)) :=
  ⟨[retiredUnit 0, liveUnit, retiredUnit 1], by decide⟩

theorem retired_cache_iff_two : ∃ cache, Refreshed Env.plain twoRetired ⟨[]⟩ cache ∧
    ∀ p, cache.contains p = true ↔ Retired twoRetired p := by
  obtain ⟨cache, h⟩ := exists_refreshed Env.plain twoRetired ⟨[]⟩
  refine ⟨cache, h, ((retired_cache_iff h).mpr ⟨?_, by decide⟩).1⟩
  rintro _ ⟨a, ha, rfl⟩
  have hall : ∀ a ∈ twoRetired.rows, DotPath a.path := by
    simp only [Rbac.dotPath_iff]
    decide
  exact hall a (mem_of_mem_filter ha)

def fleet : Table (Asset.path (V := Nat)) :=
  ⟨(List.range 101).map retiredUnit, by decide +kernel⟩

/-- Of 101 retired units one is still polled after a refresh. -/
theorem retired_unit_polled : ∃ cache, Refreshed Env.plain fleet ⟨[]⟩ cache ∧
    ∃ p, Retired fleet p ∧ cache.contains p = false := by
  obtain ⟨cache, h⟩ := exists_refreshed Env.plain fleet ⟨[]⟩
  refine ⟨cache, h, ?_⟩
  by_contra hnot
  simp only [not_exists, not_and, Bool.not_eq_false] at hnot
  have hle := h.length_le hnot
  exact absurd hle (by decide)

end Cios.Gateway
