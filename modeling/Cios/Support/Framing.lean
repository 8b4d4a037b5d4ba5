import Cios.Support.Text

/-!
# Support — length-prefixed frames

A frame is a payload behind its length, in four big-endian bytes; `wire` is the concatenation of the
frames of a list of payloads.  `next` reads one frame off the front of a byte string, when it is
there whole, and `scan` reads as many as there are, up to one that is incomplete or whose length is
not admitted.

A payload of `2 ^ 32` bytes or more does not fit its length field, so the results are about `Short`
payloads.
-/

namespace Framing
open Text List Option

/-! ### Four-byte lengths -/

/-- The low 32 bits, most significant byte first. -/
def be32 (n : Nat) : Bytes :=
  [.ofNat (n / 2 ^ 24), .ofNat (n / 2 ^ 16), .ofNat (n / 2 ^ 8), .ofNat n]

def readBe32 : Bytes → Nat
  | [a, b, c, d] => a.toNat * 2 ^ 24 + b.toNat * 2 ^ 16 + c.toNat * 2 ^ 8 + d.toNat
  | _ => 0

@[simp] theorem length_be32 (n : Nat) : (be32 n).length = 4 := rfl

theorem readBe32_be32 (n : Nat) : readBe32 (be32 n) = n % 2 ^ 32 := by
  simp only [be32, readBe32, UInt8.toNat_ofNat']
  omega

theorem readBe32_lt (h : Bytes) : readBe32 h < 2 ^ 32 := by
  unfold readBe32
  split
  · rename_i a b c d
    have := a.toNat_lt
    have := b.toNat_lt
    have := c.toNat_lt
    have := d.toNat_lt
    omega
  · decide

theorem be32_readBe32 {h : Bytes} (hlen : h.length = 4) : be32 (readBe32 h) = h := by
  match h, hlen with
  | [a, b, c, d], _ =>
    have := a.toNat_lt
    have := b.toNat_lt
    have := c.toNat_lt
    have := d.toNat_lt
    simp only [be32, readBe32, List.cons.injEq, and_true, ← UInt8.toNat_inj,
      UInt8.toNat_ofNat']
    omega

/-! ### Two-byte words -/

def be16 (v : UInt16) : Bytes := [.ofNat (v.toNat / 2 ^ 8), .ofNat v.toNat]

def readBe16 : Bytes → UInt16
  | [a, b] => .ofNat (a.toNat * 2 ^ 8 + b.toNat)
  | _ => 0

@[simp] theorem length_be16 (v : UInt16) : (be16 v).length = 2 := rfl

@[simp] theorem readBe16_be16 (v : UInt16) : readBe16 (be16 v) = v := by
  have := v.toNat_lt
  simp only [be16, readBe16, ← UInt16.toNat_inj, UInt16.toNat_ofNat', UInt8.toNat_ofNat']
  omega

/-! ### Frames -/

def frame (p : Bytes) : Bytes := be32 p.length ++ p

def wire (ps : List Bytes) : Bytes := ps.flatMap frame

/-- The payload fits the length field. -/
def Short (p : Bytes) : Prop := p.length < 2 ^ 32

@[simp] theorem length_frame (p : Bytes) : (frame p).length = 4 + p.length := by
  simp [frame]

@[simp] theorem wire_nil : wire [] = [] := rfl

@[simp] theorem wire_cons (p : Bytes) (ps : List Bytes) : wire (p :: ps) = frame p ++ wire ps := rfl

@[simp] theorem wire_append (ps qs : List Bytes) : wire (ps ++ qs) = wire ps ++ wire qs := by
  simp [wire]

variable {ps : List Bytes} {p s r : Bytes}

theorem wire_eq_nil : wire ps = [] ↔ ps = [] := by
  cases ps with
  | nil => simp
  | cons p ps => simp [frame, be32]

theorem take_frame_append (p r : Bytes) : (frame p ++ r).take 4 = be32 p.length := by
  simp [frame, take_append]

theorem readBe32_frame (hp : Short p) (r : Bytes) :
    readBe32 ((frame p ++ r).take 4) = p.length := by
  rw [take_frame_append, readBe32_be32, Nat.mod_eq_of_lt hp]

/-- The first frame, when it is there whole, and what follows it. -/
def next (s : Bytes) : Option (Bytes × Bytes) :=
  let n := readBe32 (s.take 4)
  if 4 + n ≤ s.length then some ((s.drop 4).take n, (s.drop 4).drop n) else none

theorem next_frame (hp : Short p) (r : Bytes) : next (frame p ++ r) = some (p, r) := by
  have hdrop : (frame p ++ r).drop 4 = p ++ r := by
    simp [frame, drop_append]
  rw [next, readBe32_frame hp, if_pos (by simp), hdrop, take_left, drop_left]

theorem next_eq_some : next s = some (p, r) ↔ s = frame p ++ r ∧ Short p := by
  refine ⟨fun h => ?_, fun ⟨h, hp⟩ => h ▸ next_frame hp r⟩
  rw [next] at h
  split at h
  · rename_i hlen
    obtain ⟨rfl, rfl⟩ := Prod.mk.inj (some.inj h)
    have hn := readBe32_lt (s.take 4)
    have hp : ((s.drop 4).take (readBe32 (s.take 4))).length = readBe32 (s.take 4) := by
      rw [length_take, length_drop]
      omega
    refine ⟨?_, by rw [Short, hp]; exact hn⟩
    have hhead : (s.take 4).length = 4 := by
      rw [length_take]
      omega
    rw [frame, hp, be32_readBe32 hhead, append_assoc, take_append_drop,
      take_append_drop]
  · cases h

theorem length_of_next (h : next s = some (p, r)) : r.length < s.length := by
  obtain ⟨rfl, -⟩ := next_eq_some.mp h
  rw [length_append, length_frame]
  omega

/-! ### Reading frame by frame -/

/-- The frames at the front, up to one that is not whole or not admitted, and what remains. -/
def scan (fits : Nat → Bool) (s : Bytes) : List Bytes × Bytes :=
  match h : next s with
  | some (p, r) =>
    if fits p.length then
      have := length_of_next h
      (p :: (scan fits r).1, (scan fits r).2)
    else ([], s)
  | none => ([], s)
termination_by s.length

def frames (s : Bytes) : List Bytes := (scan (fun _ => true) s).1

variable {fits : Nat → Bool}

theorem scan_eq (fits : Nat → Bool) (s : Bytes) : scan fits s = match next s with
    | some (p, r) => if fits p.length then (p :: (scan fits r).1, (scan fits r).2) else ([], s)
    | none => ([], s) := by
  rw [scan]
  split <;> next h => simp only [h]

theorem scan_of_none (h : next s = none) : scan fits s = ([], s) := by
  rw [scan_eq, h]

theorem scan_of_unfit (h : next s = some (p, r)) (hp : fits p.length = false) :
    scan fits s = ([], s) := by
  simp [scan_eq fits s, h, hp]

theorem scan_of_some (h : next s = some (p, r)) (hp : fits p.length = true) :
    scan fits s = (p :: (scan fits r).1, (scan fits r).2) := by
  rw [scan_eq fits s, h]
  simp [hp]

/-- **Reading frame by frame.**  The three ways `scan` can go. -/
theorem scan_induction (fits : Nat → Bool) {motive : Bytes → Prop}
    (incomplete : ∀ s, next s = none → motive s)
    (unfit : ∀ s p r, next s = some (p, r) → fits p.length = false → motive s)
    (more : ∀ p r, Short p → fits p.length = true → motive r → motive (frame p ++ r))
    (s : Bytes) : motive s := by
  generalize hn : s.length = n
  induction n using Nat.strong_induction_on generalizing s with
  | _ n ih =>
    cases h : next s with
    | none => exact incomplete s h
    | some q =>
      obtain ⟨p, r⟩ := q
      cases hp : fits p.length with
      | false => exact unfit s p r h hp
      | true =>
        have hr : motive r := ih r.length (hn ▸ length_of_next h) r rfl
        obtain ⟨rfl, hshort⟩ := next_eq_some.mp h
        exact more p r hshort hp hr

theorem scan_wire_append (hs : ∀ p ∈ ps, Short p) (hp : ∀ p ∈ ps, fits p.length = true)
    (r : Bytes) :
    scan fits (wire ps ++ r) = (ps ++ (scan fits r).1, (scan fits r).2) := by
  induction ps with
  | nil => simp
  | cons p ps ih =>
    rw [forall_mem_cons] at hs hp
    rw [wire_cons, append_assoc, scan_of_some (next_frame hs.1 _) hp.1, ih hs.2 hp.2]
    rfl

theorem next_nil : next [] = none := rfl

theorem scan_wire (hs : ∀ p ∈ ps, Short p) (hp : ∀ p ∈ ps, fits p.length = true) :
    scan fits (wire ps) = (ps, []) := by
  simpa [scan_of_none next_nil] using scan_wire_append hs hp []

theorem frames_wire (hs : ∀ p ∈ ps, Short p) : frames (wire ps) = ps := by
  rw [frames, scan_wire hs fun _ _ => rfl]

/-- A payload too long for its length field spoils the concatenation of frames. -/
theorem length_ne_of_not_short {qs : List Bytes} (hp : ¬ Short p) (hps : ∀ q ∈ ps, Short q)
    (hqs : ∀ q ∈ qs, Short q) (h : wire qs = wire ps ++ frame p) : qs.length ≠ ps.length + 1 := by
  intro hlen
  have hframes : qs = ps ++ frames (frame p) := by
    rw [← frames_wire hqs, h, frames, scan_wire_append hps fun _ _ => rfl]
    rfl
  obtain ⟨q, hq⟩ : ∃ q, frames (frame p) = [q] := by
    rw [hframes, length_append] at hlen
    exact length_eq_one_iff.mp (by omega)
  have hshort : Short q := hqs q (by simp [hframes, hq])
  have hwire : frame p = frame q := by
    rw [hframes, hq, wire_append] at h
    simpa using (append_cancel_left h).symm
  have hlen := congrArg List.length hwire
  simp only [length_frame] at hlen
  exact hp (by unfold Short at hshort ⊢; omega)

theorem mem_scan (s : Bytes) : ∀ p ∈ (scan fits s).1, Short p ∧ fits p.length = true := by
  induction s using scan_induction fits with
  | incomplete s h => simp [scan_of_none h]
  | unfit s p r h hp => simp [scan_of_unfit h hp]
  | more p r hs hp ih =>
    rw [scan_of_some (next_frame hs r) hp]
    exact forall_mem_cons.mpr ⟨⟨hs, hp⟩, ih⟩

theorem wire_scan_prefix (s : Bytes) : wire (scan fits s).1 <+: s := by
  induction s using scan_induction fits with
  | incomplete s h => simp [scan_of_none h]
  | unfit s p r h hp => simp [scan_of_unfit h hp]
  | more p r hs hp ih =>
    rw [scan_of_some (next_frame hs r) hp, wire_cons]
    exact (prefix_append_right_inj _).mpr ih

/-! ### A cut -/

/-- How many of the frames lie whole in the first `k` bytes of their concatenation. -/
def whole : List Bytes → Nat → Nat
  | [], _ => 0
  | p :: ps, k => if (frame p).length ≤ k then 1 + whole ps (k - (frame p).length) else 0

theorem whole_le (ps : List Bytes) (k : Nat) : whole ps k ≤ ps.length := by
  induction ps generalizing k with
  | nil => simp [whole]
  | cons p ps ih =>
    rw [whole, length_cons]
    split
    · have := ih (k - (frame p).length)
      omega
    · omega

theorem next_take_frame (hp : Short p) {k : Nat} (hk : k < (frame p).length) :
    next ((frame p).take k) = none := by
  cases h : next ((frame p).take k) with
  | none => rfl
  | some q =>
    obtain ⟨q, r⟩ := q
    obtain ⟨heq, hq⟩ := next_eq_some.mp h
    -- both begin with the same four bytes, and so declare the same length
    have happ : frame p = frame q ++ (r ++ (frame p).drop k) := by
      rw [← append_assoc, ← heq, take_append_drop]
    have hpq : q = p := by
      have hn := next_frame hp []
      rw [append_nil, happ, next_frame hq] at hn
      exact (Prod.mk.inj (some.inj hn)).1
    have hlen := congrArg List.length heq
    simp only [length_take, length_append, hpq] at hlen
    omega

/-- **A cut at any byte** leaves the frames whole before the cut, and then less than a frame. -/
theorem take_wire (hs : ∀ p ∈ ps, Short p) (k : Nat) :
    ∃ r, (wire ps).take k = wire (ps.take (whole ps k)) ++ r ∧ next r = none := by
  induction ps generalizing k with
  | nil => exact ⟨[], by simp, next_nil⟩
  | cons p ps ih =>
    rw [forall_mem_cons] at hs
    by_cases hk : (frame p).length ≤ k
    · obtain ⟨r, hr, hnext⟩ := ih hs.2 (k - (frame p).length)
      refine ⟨r, ?_, hnext⟩
      rw [whole, if_pos hk, Nat.add_comm, take_succ_cons, wire_cons, wire_cons,
        take_append, take_of_length_le hk, hr, append_assoc]
    · refine ⟨(frame p).take k, ?_, next_take_frame hs.1 (by omega)⟩
      rw [whole, if_neg hk, take_zero, wire_nil, nil_append, wire_cons,
        take_append_of_le_length (by omega)]

end Framing
