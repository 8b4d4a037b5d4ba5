import Cios.Support.File
import Cios.Support.Framing

/-!
# The write-ahead log

`pkg/wal`: an append-only file of frames, each the gzip of a payload behind its length, that the
gateway's publisher buffers telemetry in.  The model follows the file operations of the source:
seeks, full reads, writes that may be short, syncs that may fail.

`WAL.Holds w cs` says that the file is the concatenation of the frames `cs` and the cached length
their number.  Opening reads such a queue off any bytes, a write appends to it or changes nothing,
and a replay walks it.
-/

namespace Cios.Wal
open Text Framing Disk List

/-- `gzipFrame` and `gunzipFrame`. -/
structure Codec where
  gzip : Bytes → Option Bytes
  gunzip : Bytes → Option Bytes

/-- Decompression inverts compression. -/
def Codec.Lawful (K : Codec) : Prop := ∀ p c, K.gzip p = some c → K.gunzip c = some p

def MaxSize : Nat := 2 ^ 30

structure WAL where
  f : File
  cachedLen : Nat
  maxSize : Nat
deriving DecidableEq, Repr

/-! ### Opening -/

def WAL.truncateTo (w : WAL) (sz : Nat) : WAL := { w with f := (w.f.truncate sz).seek sz }

/-- The loop of `recoverTail`, from the offset of a frame. -/
def WAL.recoverLoop (w : WAL) (off : Nat) : WAL :=
  match h : w.f.readFull 4 with
  | (.error .eof, f) => { w with f := f }
  | (.error .unexpectedEOF, f) => { w with f := f }.truncateTo off
  | (.ok hdr, f) =>
    let n := readBe32 hdr
    if n > w.maxSize then { w with f := f }.truncateTo off
    else if f.pos + n > f.size then { w with f := f }.truncateTo off
    else
      have := File.remaining_readFull h
      have := f.remaining_skip (readBe32 hdr)
      WAL.recoverLoop { w with f := f.skip n, cachedLen := w.cachedLen + 1 } (off + 4 + n)
termination_by w.f.remaining

def WAL.recoverTail (w : WAL) : WAL :=
  WAL.recoverLoop { w with f := w.f.seek 0, cachedLen := 0 } 0

/-- The cap that `OpenWithMaxSize` gives the log. -/
def capOf (maxBytes : Int) : Nat := if maxBytes ≤ 0 then MaxSize else maxBytes.toNat

/-- `OpenWithMaxSize`, over a file with these bytes. -/
def openWithMaxSize (data : Bytes) (maxBytes : Int) : WAL :=
  WAL.recoverTail ⟨⟨data, 0⟩, 0, capOf maxBytes⟩

/-! ### Writing -/

inductive WriteError where
  | gzip
  | walFull
  | header
  | payload
  | sync
deriving DecidableEq, Repr

/-- How the file operations of a `Write` go. -/
structure WriteFaults where
  header : Outcome
  payload : Outcome
  sync : Bool
deriving DecidableEq, Repr

def noFaults : WriteFaults := ⟨.ok, .ok, true⟩

def WAL.rollback (w : WAL) (off : Nat) : WAL := { w with f := (w.f.truncate off).seek off }

def WAL.write (K : Codec) (w : WAL) (frame : Bytes) (φ : WriteFaults) : Option WriteError × WAL :=
  match K.gzip frame with
  | none => (some .gzip, w)
  | some comp =>
    if w.f.size + (4 + comp.length) > w.maxSize then (some .walFull, w)
    else
      let start := w.f.size
      let hdr := w.f.seekEnd.write (be32 comp.length) φ.header
      if hdr.1 = false then (some .header, { w with f := hdr.2 }.rollback start)
      else
        let body := hdr.2.write comp φ.payload
        if body.1 = false then (some .payload, { w with f := body.2 }.rollback start)
        else if φ.sync = false then (some .sync, { w with f := body.2 }.rollback start)
        else (none, { w with f := body.2, cachedLen := w.cachedLen + 1 })

def WAL.len (w : WAL) : Nat := w.cachedLen

/-! ### Replaying -/

inductive ReplayError (ε : Type) where
  | header
  | tooLong (n : Nat)
  | payload
  | gunzip
  | callback (e : ε)
  | sync
deriving DecidableEq, Repr

section Replay

variable {σ ε : Type}

/-- The loop of `Replay`.  The callback works on an environment of its own, and may fail. -/
def WAL.replayLoop (K : Codec) (fn : Bytes → σ → Option ε × σ) (w : WAL) (ρ : σ) :
    Option (ReplayError ε) × WAL × σ :=
  match h : w.f.readFull 4 with
  | (.error .eof, f) => (none, { w with f := f }, ρ)
  | (.error .unexpectedEOF, f) => (some .header, { w with f := f }, ρ)
  | (.ok hdr, f) =>
    let n := readBe32 hdr
    if n > w.maxSize then (some (.tooLong n), { w with f := f }, ρ)
    else match h' : f.readFull n with
      | (.error _, f') => (some .payload, { w with f := f' }, ρ)
      | (.ok buf, f') =>
        match K.gunzip buf with
        | none => (some .gunzip, { w with f := f' }, ρ)
        | some raw =>
          match fn raw ρ with
          | (some e, ρ') => (some (.callback e), { w with f := f' }, ρ')
          | (none, ρ') =>
            have := File.remaining_readFull h
            have := File.remaining_readFull h'
            WAL.replayLoop K fn { w with f := f' } ρ'
termination_by w.f.remaining

/-- `Replay`; `synced` is how the sync after the truncation goes. -/
def WAL.replay (K : Codec) (fn : Bytes → σ → Option ε × σ) (w : WAL) (ρ : σ) (synced : Bool) :
    Option (ReplayError ε) × WAL × σ :=
  match WAL.replayLoop K fn { w with f := w.f.seek 0 } ρ with
  | (some e, w, ρ) => (some e, w, ρ)
  | (none, w, ρ) =>
    let f := (w.f.truncate 0).seek 0
    if synced then (none, { w with f := f, cachedLen := 0 }, ρ)
    else (some .sync, { w with f := f }, ρ)

end Replay

/-! ### The queue of frames -/

/-- The file is the concatenation of these frames, and the cached length their number. -/
structure WAL.Holds (w : WAL) (cs : List Bytes) : Prop where
  data : w.f.data = wire cs
  len : w.cachedLen = cs.length
  short : ∀ c ∈ cs, Short c

theorem WAL.Holds.snoc {w : WAL} {cs : List Bytes} {c : Bytes} (h : w.Holds cs) (hc : Short c) :
    Holds ⟨⟨w.f.data ++ frame c, (w.f.data ++ frame c).length⟩, w.cachedLen + 1, w.maxSize⟩
      (cs ++ [c]) :=
  ⟨by simp [h.data], by simp [h.len], forall_mem_append.mpr ⟨h.short, by simpa using hc⟩⟩

/-! #### Opening -/

theorem readFull_header (pre : Bytes) {s : Bytes} (hs : 4 ≤ s.length) :
    (⟨pre ++ s, pre.length⟩ : File).readFull 4 =
      (.ok (s.take 4), ⟨pre ++ s, pre.length + 4⟩) := by
  have h := File.readFull_ok pre (s.take 4) (s.drop 4)
  rwa [take_append_drop, length_take, Nat.min_eq_left hs] at h

theorem WAL.recoverLoop_eof {w : WAL} {off : Nat} {f : File}
    (h : w.f.readFull 4 = (.error .eof, f)) : w.recoverLoop off = { w with f := f } := by
  rw [WAL.recoverLoop]
  split <;> simp_all

theorem WAL.recoverLoop_short {w : WAL} {off : Nat} {f : File}
    (h : w.f.readFull 4 = (.error .unexpectedEOF, f)) :
    w.recoverLoop off = { w with f := f }.truncateTo off := by
  rw [WAL.recoverLoop]
  split <;> simp_all

theorem WAL.recoverLoop_header {w : WAL} {off : Nat} {hdr : Bytes} {f : File}
    (h : w.f.readFull 4 = (.ok hdr, f)) :
    w.recoverLoop off =
      if readBe32 hdr > w.maxSize then { w with f := f }.truncateTo off
      else if f.pos + readBe32 hdr > f.size then { w with f := f }.truncateTo off
      else WAL.recoverLoop { w with f := f.skip (readBe32 hdr), cachedLen := w.cachedLen + 1 }
        (off + 4 + readBe32 hdr) := by
  rw [WAL.recoverLoop]
  split <;> simp_all

theorem WAL.truncateTo_boundary (pre s : Bytes) (pos n cap : Nat) :
    (⟨⟨pre ++ s, pos⟩, n, cap⟩ : WAL).truncateTo pre.length =
      ⟨⟨pre, pre.length⟩, n, cap⟩ := by
  rw [WAL.truncateTo, File.truncate_append]
  rfl

/-- **Recovery.**  The complete frames within the cap are kept and counted, up to the first that is
none; the rest is cut. -/
theorem WAL.recoverLoop_scan (cap : Nat) (rest : Bytes) : ∀ (pre : Bytes) (n : Nat),
    (⟨⟨pre ++ rest, pre.length⟩, n, cap⟩ : WAL).recoverLoop pre.length =
      let cs := (scan (fun k => decide (k ≤ cap)) rest).1
      ⟨⟨pre ++ wire cs, (pre ++ wire cs).length⟩, n + cs.length, cap⟩ := by
  induction rest using scan_induction fun k => decide (k ≤ cap) with
  | incomplete s hnext =>
    intro pre n
    rw [scan_of_none hnext]
    simp only [wire_nil, append_nil, length_nil, Nat.add_zero]
    by_cases hnil : s = []
    · subst hnil
      rw [append_nil, WAL.recoverLoop_eof (File.readFull_eof pre (by decide))]
    by_cases hlen : s.length < 4
    · rw [WAL.recoverLoop_short (File.readFull_short pre hnil hlen), WAL.truncateTo_boundary]
    rw [WAL.recoverLoop_header (readFull_header pre (by omega))]
    -- the declared length overruns the file
    have hover : s.length < 4 + readBe32 (s.take 4) := by
      by_contra hle
      rw [Framing.next, if_pos (by omega)] at hnext
      cases hnext
    split
    · exact WAL.truncateTo_boundary ..
    · rw [if_pos (by simp [File.size]; omega)]
      exact WAL.truncateTo_boundary ..
  | unfit s p r hnext hp =>
    intro pre n
    rw [scan_of_unfit hnext hp]
    obtain ⟨rfl, hshort⟩ := next_eq_some.mp hnext
    simp only [wire_nil, append_nil]
    rw [WAL.recoverLoop_header (readFull_header pre (by simp; omega))]
    have hcap : cap < p.length := by simpa using hp
    rw [readBe32_frame hshort, if_pos hcap]
    exact WAL.truncateTo_boundary ..
  | more p r hshort hp ih =>
    intro pre n
    rw [scan_of_some (next_frame hshort r) hp]
    rw [WAL.recoverLoop_header (readFull_header pre (by simp; omega))]
    have hcap : p.length ≤ cap := by simpa using hp
    rw [readBe32_frame hshort, if_neg (Nat.not_lt.mpr hcap),
      if_neg (by simp [File.size]; omega)]
    -- the next boundary is past this frame
    have hoff : pre.length + 4 + p.length = (pre ++ frame p).length := by
      simp
      omega
    have hnext := ih (pre ++ frame p) (n + 1)
    simp only [append_assoc] at hnext
    simp only [File.skip, hoff, hnext, length_cons]
    congr 1
    omega

/-- **Opening.**  The log holds the complete frames within the cap, up to the first that is none. -/
theorem openWithMaxSize_eq (data : Bytes) (maxBytes : Int) :
    openWithMaxSize data maxBytes =
      let cs := (scan (fun k => decide (k ≤ capOf maxBytes)) data).1
      ⟨⟨wire cs, (wire cs).length⟩, cs.length, capOf maxBytes⟩ := by
  have h := WAL.recoverLoop_scan (capOf maxBytes) data [] 0
  simp only [Nat.zero_add] at h
  exact h

theorem openWithMaxSize_nil (maxBytes : Int) :
    openWithMaxSize [] maxBytes = ⟨⟨[], 0⟩, 0, capOf maxBytes⟩ := by
  rw [openWithMaxSize_eq, scan_of_none next_nil]
  rfl

theorem holds_open (data : Bytes) (maxBytes : Int) :
    (openWithMaxSize data maxBytes).Holds
      (scan (fun k => decide (k ≤ capOf maxBytes)) data).1 := by
  rw [openWithMaxSize_eq]
  exact ⟨rfl, rfl, fun c hc => (mem_scan data c hc).1⟩

/-! #### Writing -/

theorem WAL.rollback_append (data bs : Bytes) (pos n cap : Nat) :
    (⟨⟨data ++ bs, pos⟩, n, cap⟩ : WAL).rollback data.length = ⟨⟨data, data.length⟩, n, cap⟩ := by
  rw [WAL.rollback, File.truncate_append]
  rfl

/-- What a write at the end of the file leaves: the bytes appended, or a part of them. -/
theorem write_end (data bs : Bytes) (o : Outcome) :
    ∃ part, (⟨data, data.length⟩ : File).write bs o =
        (decide (o = .ok), ⟨data ++ part, (data ++ part).length⟩) ∧ (o = .ok → part = bs) := by
  cases o with
  | ok => exact ⟨bs, by simp [File.write, File.put_end], fun _ => rfl⟩
  | failed n => exact ⟨bs.take n, by simp [File.write, File.put_end], nofun⟩

/-- **One write.**  An error leaves the file and the length; otherwise the compressed payload's
frame, which fits under the cap, is appended. -/
theorem WAL.write_cases (K : Codec) (w : WAL) (frame : Bytes) (φ : WriteFaults) :
    ((w.write K frame φ).1 ≠ none ∧ (w.write K frame φ).2.f.data = w.f.data ∧
        (w.write K frame φ).2.cachedLen = w.cachedLen ∧
        (w.write K frame φ).2.maxSize = w.maxSize) ∨
      ∃ comp, K.gzip frame = some comp ∧ w.f.size + (4 + comp.length) ≤ w.maxSize ∧
        w.write K frame φ = (none, ⟨⟨w.f.data ++ Framing.frame comp,
          (w.f.data ++ Framing.frame comp).length⟩, w.cachedLen + 1, w.maxSize⟩) := by
  obtain ⟨⟨data, pos⟩, n, cap⟩ := w
  unfold WAL.write
  cases hz : K.gzip frame with
  | none => exact .inl ⟨by simp, rfl, rfl, rfl⟩
  | some comp =>
    dsimp only
    split
    · exact .inl ⟨by simp, rfl, rfl, rfl⟩
    rename_i hfits
    have hend : (⟨data, pos⟩ : File).seekEnd = ⟨data, data.length⟩ := rfl
    obtain ⟨part, hhdr, hpart⟩ := write_end data (be32 comp.length) φ.header
    rw [hend, hhdr]
    split
    · refine .inl ⟨by simp, ?_, rfl, rfl⟩
      rw [File.size, WAL.rollback_append]
    rename_i hok
    obtain rfl := hpart (by simpa using hok)
    obtain ⟨part', hbody, hpart'⟩ := write_end (data ++ be32 comp.length) comp φ.payload
    rw [hbody]
    split
    · refine .inl ⟨by simp, ?_, rfl, rfl⟩
      rw [File.size, append_assoc, WAL.rollback_append]
    rename_i hok'
    obtain rfl := hpart' (by simpa using hok')
    split
    · refine .inl ⟨by simp, ?_, rfl, rfl⟩
      rw [File.size, append_assoc, WAL.rollback_append]
    · refine .inr ⟨part', rfl, by simpa using hfits, ?_⟩
      simp [Framing.frame]

theorem WAL.write_failed {K : Codec} {w : WAL} {frame : Bytes} {φ : WriteFaults}
    (h : (w.write K frame φ).1 ≠ none) :
    (w.write K frame φ).2.f.data = w.f.data ∧ (w.write K frame φ).2.cachedLen = w.cachedLen := by
  rcases w.write_cases K frame φ with ⟨-, hdata, hlen, -⟩ | ⟨comp, -, -, hok⟩
  · exact ⟨hdata, hlen⟩
  · rw [hok] at h
    exact absurd rfl h

/-! #### Replaying -/

section Replay

variable {σ ε : Type} {K : Codec} {fn : Bytes → σ → Option ε × σ}

/-- What `Replay` does with a queue: each frame is decompressed and handed on, up to a failure. -/
def deliver (K : Codec) (fn : Bytes → σ → Option ε × σ) (cap : Nat) :
    List Bytes → σ → Option (ReplayError ε) × σ
  | [], ρ => (none, ρ)
  | c :: cs, ρ =>
    if c.length > cap then (some (.tooLong c.length), ρ)
    else match K.gunzip c with
      | none => (some .gunzip, ρ)
      | some raw =>
        match fn raw ρ with
        | (some e, ρ') => (some (.callback e), ρ')
        | (none, ρ') => deliver K fn cap cs ρ'

variable {cs : List Bytes}

theorem deliver_cons_ok {cap : Nat} {c raw : Bytes} {ρ ρ' : σ} (hcap : c.length ≤ cap)
    (hraw : K.gunzip c = some raw) (hfn : fn raw ρ = (none, ρ')) :
    deliver K fn cap (c :: cs) ρ = deliver K fn cap cs ρ' := by
  rw [deliver, if_neg (Nat.not_lt.mpr hcap), hraw]
  dsimp only
  rw [hfn]

theorem WAL.replayLoop_eof {w : WAL} {ρ : σ} {f : File} (h : w.f.readFull 4 = (.error .eof, f)) :
    w.replayLoop K fn ρ = (none, { w with f := f }, ρ) := by
  rw [WAL.replayLoop]
  split <;> simp_all

theorem WAL.replayLoop_frame {w : WAL} {ρ : σ} {hdr c : Bytes} {f f' : File}
    (h : w.f.readFull 4 = (.ok hdr, f)) (hn : readBe32 hdr = c.length)
    (h' : f.readFull c.length = (.ok c, f')) :
    w.replayLoop K fn ρ =
      if c.length > w.maxSize then (some (.tooLong c.length), { w with f := f }, ρ)
      else match K.gunzip c with
        | none => (some .gunzip, { w with f := f' }, ρ)
        | some raw =>
          match fn raw ρ with
          | (some e, ρ') => (some (.callback e), { w with f := f' }, ρ')
          | (none, ρ') => WAL.replayLoop K fn { w with f := f' } ρ' := by
  rw [WAL.replayLoop]
  split
  · simp_all
  · simp_all
  rename_i hdr' f₁ h₁
  obtain ⟨he, rfl⟩ := Prod.mk.inj (h.symm.trans h₁)
  obtain rfl := Except.ok.inj he
  dsimp only
  rw [hn]
  split
  · rfl
  split
  · rename_i h₂
    rw [h'] at h₂
    cases (Prod.mk.inj h₂).1
  rename_i h₂
  rw [h'] at h₂
  obtain ⟨he, rfl⟩ := Prod.mk.inj h₂
  obtain rfl := Except.ok.inj he
  rfl

/-- **Replay walks the queue**: it delivers the frames from a boundary on and leaves the bytes. -/
theorem WAL.replayLoop_wire (K : Codec) (fn : Bytes → σ → Option ε × σ) (hs : ∀ c ∈ cs, Short c) :
    ∀ (pre : Bytes) (n cap : Nat) (ρ : σ), ∃ pos,
      (⟨⟨pre ++ wire cs, pre.length⟩, n, cap⟩ : WAL).replayLoop K fn ρ =
        ((deliver K fn cap cs ρ).1, ⟨⟨pre ++ wire cs, pos⟩, n, cap⟩,
          (deliver K fn cap cs ρ).2) := by
  induction cs with
  | nil =>
    intro pre n cap ρ
    refine ⟨pre.length, ?_⟩
    rw [wire_nil, append_nil, WAL.replayLoop_eof (File.readFull_eof pre (by decide))]
    rfl
  | cons c cs ih =>
    intro pre n cap ρ
    rw [forall_mem_cons] at hs
    have hhead := readFull_header pre (s := frame c ++ wire cs) (by simp; omega)
    have hbody := File.readFull_ok (pre ++ be32 c.length) c (wire cs)
    rw [WAL.replayLoop_frame hhead (readBe32_frame hs.1 _) (by simpa [frame] using hbody), deliver]
    split
    · exact ⟨_, rfl⟩
    cases K.gunzip c with
    | none => exact ⟨_, rfl⟩
    | some raw =>
      dsimp only
      obtain ⟨e | _, ρ'⟩ := fn raw ρ
      · obtain ⟨pos, hpos⟩ := ih hs.2 (pre ++ frame c) n cap ρ'
        refine ⟨pos, ?_⟩
        simpa [frame, Nat.add_assoc] using hpos
      · exact ⟨_, rfl⟩

/-- A failed delivery leaves the log; otherwise its file is empty, and its length reset if the sync
succeeded. -/
theorem WAL.Holds.replay (K : Codec) (fn : Bytes → σ → Option ε × σ) {w : WAL} (h : w.Holds cs)
    (ρ : σ) (synced : Bool) :
    (∃ e w', (deliver K fn w.maxSize cs ρ).1 = some e ∧ w'.Holds cs ∧ w'.maxSize = w.maxSize ∧
        w.replay K fn ρ synced = (some e, w', (deliver K fn w.maxSize cs ρ).2)) ∨
      (deliver K fn w.maxSize cs ρ).1 = none ∧
        w.replay K fn ρ synced =
          if synced then (none, ⟨⟨[], 0⟩, 0, w.maxSize⟩, (deliver K fn w.maxSize cs ρ).2)
          else (some .sync, ⟨⟨[], 0⟩, w.cachedLen, w.maxSize⟩,
            (deliver K fn w.maxSize cs ρ).2) := by
  obtain ⟨⟨data, pos⟩, n, cap⟩ := w
  obtain ⟨rfl, rfl, hs⟩ := h
  obtain ⟨pos', hloop⟩ := WAL.replayLoop_wire K fn hs [] cs.length cap ρ
  simp only [nil_append, length_nil] at hloop
  unfold WAL.replay
  simp only [File.seek, hloop]
  cases hd : (deliver K fn cap cs ρ).1 with
  | some e => exact .inl ⟨e, _, rfl, ⟨rfl, rfl, hs⟩, rfl, rfl⟩
  | none =>
    refine .inr ⟨rfl, ?_⟩
    simp only [File.truncate_zero]

end Replay

end Cios.Wal
