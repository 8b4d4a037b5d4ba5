import Cios.Http.Assets
import Cios.Http.Studio
import Cios.Store.Rollback
import Cios.Support.Log

/-!
# Inventory — assets whose specs are maps

A spec is a map, and the code passes maps by reference.  The database decodes a new one for every
read; the file store hands out the very map it holds, and takes the one it is given.  So a handler
that assigns to the spec of an asset it has read changes the stored asset, before any put.

A map is carried by value as long as one handler alone has it (`SpecMap.own`), and by reference once
the store has it too (`SpecMap.shared`).
-/

namespace Cios.Inventory
open Text Function
open Cios.Store
open Cios.Http.Core (Op)

variable {V : Type}

abbrev Fields (V : Type) := List (Bytes × Json V)

inductive SpecMap (V : Type) where
  | own (fields : Fields V)
  | shared (ref : Nat)

abbrev Heap (V : Type) := Nat → Option (Fields V)

structure Row (V : Type) where
  path : Bytes
  resourceVersion : Int
  spec : Option (SpecMap V)
  createdAt : Int
  updatedAt : Int

def Row.asset (row : Row V) (spec : Spec V) : Asset V :=
  ⟨row.path, row.resourceVersion, spec, row.createdAt, row.updatedAt⟩

def contents (heap : Heap V) : Option (SpecMap V) → Spec V
  | none => none
  | some (.own fields) => some fields
  | some (.shared ref) => heap ref

inductive Backend where
  | file
  | pg
deriving DecidableEq, Repr

/-- Whether a put at this version asks for the version of the stored row. -/
def Backend.guards : Backend → Int → Bool
  | .file, v => 0 < v
  | .pg, v => v ≠ 0

/-- A map as a backend has it in a row: the file store by reference, the database by value. -/
def Backend.Keeps (heap : Heap V) : Backend → SpecMap V → Prop
  | .file, m => ∃ ref, m = .shared ref ∧ (heap ref).isSome = true
  | .pg, m => ∃ fields, m = .own fields

structure Shelf (V : Type) (b : Backend) where
  heap : Heap V
  rows : Bytes → Option (Row V)
  keyed : ∀ p row, rows p = some row → row.path = p
  kept : ∀ p row m, rows p = some row → row.spec = some m → b.Keeps heap m

variable {b : Backend}

def Shelf.asset (s : Shelf V b) (p : Bytes) : Option (Asset V) :=
  (s.rows p).map fun row => row.asset (contents s.heap row.spec)

/-! ### The store's methods, and the maps' -/

inductive ShelfOp (V : Type) where
  | getAsset (path : Bytes)
  | putAsset (path : Bytes) (spec : Option (SpecMap V)) (expectVersion : Int)
  | readSpec (ref : Nat)
  | assign (ref : Nat) (key : Bytes) (v : Json V)
  | rest (op : Op V)

abbrev ShelfOp.Ret : ShelfOp V → Type
  | .getAsset _ => Except StoreError (Option (Row V))
  | .putAsset _ _ _ => Asset V × Option StoreError
  | .readSpec _ => Spec V
  | .assign _ _ _ => Unit
  | .rest op => op.Ret

/-- How a backend takes a map: the file store keeps it shared, or shares a new one; the database
keeps what it says. -/
inductive Takes : Backend → Heap V → Option (SpecMap V) → Option (SpecMap V) → Heap V → Prop where
  | nil (b : Backend) (heap : Heap V) : Takes b heap none none heap
  | hold (heap : Heap V) (ref : Nat) (h : (heap ref).isSome = true) :
      Takes .file heap (some (.shared ref)) (some (.shared ref)) heap
  | share (heap : Heap V) (fields : Fields V) (ref : Nat) (h : heap ref = none) :
      Takes .file heap (some (.own fields)) (some (.shared ref))
        (Function.update heap ref (some fields))
  | copy (heap : Heap V) (m : SpecMap V) :
      Takes .pg heap (some m) ((contents heap (some m)).map .own) heap

/-- The row a put leaves: over the one that is there, or a new one. -/
def nextRow (cur : Option (Row V)) (p : Bytes) (spec : Option (SpecMap V)) (now : Int) : Row V :=
  match cur with
  | some cur => { cur with
      spec := spec, resourceVersion := cur.resourceVersion + 1, updatedAt := now }
  | none => ⟨p, 1, spec, now, now⟩

def Shelf.Stores (s : Shelf V b) (p : Bytes) (m : Option (SpecMap V)) (now : Int) (s' : Shelf V b) :
    Prop :=
  ∃ m', Takes b s.heap m m' s'.heap ∧
    s'.rows = Function.update s.rows p (some (nextRow (s.rows p) p m' now))

/-- The put asks for a version that is not the stored one. -/
def Shelf.Conflict (s : Shelf V b) (p : Bytes) (v : Int) : Prop :=
  b.guards v = true ∧ ∀ cur, s.rows p = some cur → cur.resourceVersion ≠ v

def zeroAsset : Asset V := ⟨[], 0, none, 0, 0⟩

/-- What a call answers and leaves.  A failed save leaves the rows; after a database error the put
may be committed. -/
def Shelf.Step : (op : ShelfOp V) → Shelf V b → ShelfOp.Ret op → Shelf V b → Prop
  | .getAsset p, s, r, s' => s' = s ∧ (r = .ok (s.rows p) ∨ b = .pg ∧ ∃ e, r = .error e)
  | .putAsset p m v, s, r, s' =>
    s.Conflict p v ∧ s' = s ∧
      r = ((s.asset p).getD zeroAsset, some (Sentinel.versionConflict : StoreError)) ∨
    ¬ s.Conflict p v ∧ (∃ now, s.Stores p m now s' ∧
      r = ((s'.asset p).getD zeroAsset, none)) ∨
    (∃ e, r = (zeroAsset, some (.plain e)) ∧ (b = .file → ¬ s.Conflict p v) ∧
      (s' = s ∨ b = .pg ∧ ¬ s.Conflict p v ∧ ∃ now, s.Stores p m now s'))
  | .readSpec ref, s, r, s' => s' = s ∧ r = s.heap ref
  | .assign ref key v, s, _, s' => s'.rows = s.rows ∧
      s'.heap = Function.update s.heap ref (Spec.set (s.heap ref) key v)
  | .rest _, s, _, s' => s' = s

/-! ### What a put leaves -/

variable {m : Option (SpecMap V)}

theorem Takes.contents {heap heap' : Heap V} {m' : Option (SpecMap V)}
    (h : Takes b heap m m' heap') :
    contents heap' m' = contents heap m := by
  cases h with
  | nil => rfl
  | hold => rfl
  | share _ fields ref h => simp [Inventory.contents]
  | copy _ m =>
    cases Inventory.contents heap (some m) with
    | none => rfl
    | some fields => rfl

theorem Takes.frame {heap heap' : Heap V} {m' : Option (SpecMap V)} (h : Takes b heap m m' heap')
    {ref : Nat} (href : (heap ref).isSome = true) : heap' ref = heap ref := by
  cases h with
  | nil => rfl
  | hold => rfl
  | share _ fields new hnew =>
    refine update_of_ne ?_ _ _
    rintro rfl
    rw [hnew] at href
    cases href
  | copy => rfl

theorem Shelf.Stores.asset {s s' : Shelf V b} {p : Bytes} {now : Int} (h : s.Stores p m now s') :
    s'.asset = update s.asset p
      (some ((nextRow (s.rows p) p none now).asset (contents s.heap m))) := by
  obtain ⟨m', htakes, hrows⟩ := h
  funext q
  by_cases hq : q = p
  · subst hq
    rw [update_self, Shelf.asset, hrows, update_self, Option.map_some]
    cases hcur : s.rows q with
    | none => rw [← htakes.contents]; rfl
    | some cur => rw [← htakes.contents]; rfl
  · rw [update_of_ne hq, Shelf.asset, hrows, update_of_ne hq, Shelf.asset]
    cases hrow : s.rows q with
    | none => rfl
    | some row =>
      -- The map of another row is in the heap already.
      have hsame : contents s'.heap row.spec = contents s.heap row.spec := by
        cases hm : row.spec with
        | none => rfl
        | some m =>
          have hkept := s.kept q row m hrow hm
          cases b with
          | file =>
            obtain ⟨ref, rfl, href⟩ := hkept
            exact htakes.frame href
          | pg =>
            obtain ⟨fields, rfl⟩ := hkept
            rfl
      rw [Option.map_some, Option.map_some, hsame]

end Cios.Inventory
