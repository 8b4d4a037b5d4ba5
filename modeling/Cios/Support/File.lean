import Cios.Support.Text

/-!
# Support — files

A file is its bytes and a position.  Reading and writing go on from the position; `seek` sets it and
`truncate` leaves it.  A write may fail after any part of its bytes, unknown to the caller;
`Outcome` says how it went.
-/

namespace Disk
open Text List

structure File where
  data : Bytes
  pos : Nat
deriving DecidableEq, Repr

inductive ReadError where
  | eof
  | unexpectedEOF
deriving DecidableEq, Repr

/-- How a write goes. -/
inductive Outcome where
  | ok
  | failed (written : Nat)
deriving DecidableEq, Repr

namespace File

variable (f : File)

def size : Nat := f.data.length

def seek (off : Nat) : File := { f with pos := off }

def skip (n : Nat) : File := { f with pos := f.pos + n }

def seekEnd : File := { f with pos := f.size }

def readFull (n : Nat) : Except ReadError Bytes × File :=
  let rest := f.data.drop f.pos
  if n ≤ rest.length then (.ok (rest.take n), f.skip n)
  else if rest = [] then (.error .eof, f)
  else (.error .unexpectedEOF, f.skip rest.length)

/-- The bytes replace those at the position; a gap before it is filled with zeros. -/
def put (bs : Bytes) : File where
  data := f.data.take f.pos ++ List.replicate (f.pos - f.size) 0 ++ bs ++
    f.data.drop (f.pos + bs.length)
  pos := f.pos + bs.length

def write (bs : Bytes) : Outcome → Bool × File
  | .ok => (true, f.put bs)
  | .failed n => (false, f.put (bs.take n))

def truncate (sz : Nat) : File :=
  { f with data := f.data.take sz ++ List.replicate (sz - f.size) 0 }

@[simp] theorem data_skip (n : Nat) : (f.skip n).data = f.data := rfl

@[simp] theorem pos_skip (n : Nat) : (f.skip n).pos = f.pos + n := rfl

theorem put_end (data bs : Bytes) :
    (⟨data, data.length⟩ : File).put bs = ⟨data ++ bs, (data ++ bs).length⟩ := by
  simp [put, size]

theorem truncate_append (data bs : Bytes) (pos : Nat) :
    (⟨data ++ bs, pos⟩ : File).truncate data.length = ⟨data, pos⟩ := by
  simp [truncate, size]

theorem truncate_zero : f.truncate 0 = ⟨[], f.pos⟩ := by
  simp [truncate]

/-! ### Reading at a position between two parts -/

theorem readFull_ok (pre bs rest : Bytes) :
    (⟨pre ++ (bs ++ rest), pre.length⟩ : File).readFull bs.length =
      (.ok bs, ⟨pre ++ (bs ++ rest), pre.length + bs.length⟩) := by
  simp [readFull, skip]

theorem readFull_eof (data : Bytes) {n : Nat} (hn : 0 < n) :
    (⟨data, data.length⟩ : File).readFull n = (.error .eof, ⟨data, data.length⟩) := by
  simp only [readFull, drop_length, length_nil]
  rw [if_neg (by omega), if_pos trivial]

theorem readFull_short (pre : Bytes) {rest : Bytes} {n : Nat} (hne : rest ≠ [])
    (hn : rest.length < n) :
    (⟨pre ++ rest, pre.length⟩ : File).readFull n =
      (.error .unexpectedEOF, ⟨pre ++ rest, pre.length + rest.length⟩) := by
  simp only [readFull, drop_left, skip]
  rw [if_neg (by omega), if_neg hne]

/-- The bytes from the position on. -/
def remaining : Nat := f.data.length - f.pos

theorem remaining_skip (n : Nat) : (f.skip n).remaining ≤ f.remaining := by
  simp only [remaining, data_skip, pos_skip]
  omega

theorem remaining_readFull {f f' : File} {n : Nat} {bs : Bytes}
    (h : f.readFull n = (.ok bs, f')) : f'.remaining + n = f.remaining := by
  unfold readFull at h
  dsimp only at h
  split at h
  · rename_i hn
    obtain ⟨-, rfl⟩ := Prod.mk.inj h
    rw [length_drop] at hn
    simp only [remaining, data_skip, pos_skip]
    omega
  · split at h
    iterate 2 cases (Prod.mk.inj h).1

end File

end Disk
