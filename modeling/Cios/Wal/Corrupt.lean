import Cios.Wal.Publisher

/-!
# The publisher — corrupt logs

What the first `Publish` makes of a log opened over arbitrary bytes, when JetStream takes every
message.  Three layers judge a frame: opening cuts the file at one that is incomplete or over the
cap, the replay stops at one that does not decompress, and the publisher's callback skips one that
does not decode.  Only the last lets the others through (`unwedged_iff`).
-/

namespace Cios.Wal
open Text Framing List Publisher Option

section Corrupt

variable {K : Codec} {J : Json}

/-- What a frame is published as: it decompresses, and decodes to a batch. -/
def message (K : Codec) (J : Json) (c : Bytes) : Option Msg := do
  let raw ← K.gunzip c
  let b ← J.unmarshal raw
  some ⟨b.subject, raw⟩

def messages (K : Codec) (J : Json) (cs : List Bytes) : List Msg := cs.filterMap (message K J)

/-- JetStream takes every message. -/
def JetStream.Accepting (js : JetStream) : Prop := ∀ k, js.accepts k = true

variable {js : JetStream}

theorem JetStream.Accepting.publish (h : js.Accepting) (m : Msg) :
    js.publish m = (true, ⟨js.accepts, js.sent + 1, js.published ++ [m]⟩) := by
  simp [JetStream.publish, h js.sent]

theorem replayFrame_accepting (h : js.Accepting) {c raw : Bytes} (hraw : K.gunzip c = some raw) :
    (replayFrame J raw js).1 = none ∧ (replayFrame J raw js).2.Accepting ∧
      (replayFrame J raw js).2.published = js.published ++ messages K J [c] := by
  unfold replayFrame
  cases hb : J.unmarshal raw with
  | none => exact ⟨rfl, h, by simp [messages, message, hraw, hb]⟩
  | some b =>
    simp only [h.publish]
    exact ⟨rfl, h, by simp [messages, message, hraw, hb]⟩

/-- When every frame decompresses, all that decode are published. -/
theorem deliver_messages {cap : Nat} : ∀ {cs : List Bytes} {js : JetStream}, js.Accepting →
    (∀ c ∈ cs, c.length ≤ cap) → (∀ c ∈ cs, K.gunzip c ≠ none) →
    let d := deliver K (replayFrame J) cap cs js
    d.1 = none ∧ d.2.Accepting ∧ d.2.published = js.published ++ messages K J cs
  | [], js, h, _, _ => ⟨rfl, h, by simp [messages, deliver]⟩
  | c :: cs, js, h, hcap, hz => by
    rw [forall_mem_cons] at hcap hz
    obtain ⟨raw, hraw⟩ := ne_none_iff_exists'.mp hz.1
    obtain ⟨hnone, hacc, hpub⟩ := replayFrame_accepting (J := J) h hraw
    rw [deliver_cons_ok hcap.1 hraw (Prod.ext hnone rfl)]
    obtain ⟨h₁, h₂, h₃⟩ := deliver_messages hacc hcap.2 hz.2
    refine ⟨h₁, h₂, ?_⟩
    rw [h₃, hpub, append_assoc]
    congr 1
    exact filterMap_append.symm

/-- The complete frames of the file, up to the first over the cap: what a log opened on it holds. -/
def recovered (data : Bytes) (maxBytes : Int) : List Bytes :=
  (scan (fun k => decide (k ≤ capOf maxBytes)) data).1

/-- Draining a log just opened, while JetStream takes everything: it is emptied and its frames
published when all decompress, and left otherwise. -/
theorem drain_open (data : Bytes) (maxBytes : Int) (h : js.Accepting) :
    let d := drain K J (openWithMaxSize data maxBytes) js
    (∀ c ∈ recovered data maxBytes, K.gunzip c ≠ none) ∧ d.1.f.data = [] ∧ d.2.Accepting ∧
        d.2.published = js.published ++ messages K J (recovered data maxBytes) ∨
      (∃ c ∈ recovered data maxBytes, K.gunzip c = none) ∧ d.1.f.data ≠ [] := by
  intro d
  have hopen : (openWithMaxSize data maxBytes).Holds (recovered data maxBytes) :=
    holds_open data maxBytes
  have hcap : (openWithMaxSize data maxBytes).maxSize = capOf maxBytes := by
    rw [openWithMaxSize_eq]
  have hle : ∀ c ∈ recovered data maxBytes, c.length ≤ capOf maxBytes := fun c hc => by
    simpa using (mem_scan data c hc).2
  by_cases hz : ∀ c ∈ recovered data maxBytes, K.gunzip c ≠ none
  · refine .inl ⟨hz, ?_⟩
    obtain ⟨hnone, hacc, hpub⟩ := deliver_messages (J := J) h hle hz
    unfold d drain
    split
    · rcases hopen.replay K (replayFrame J) js true with ⟨e, w', he, -⟩ | ⟨-, heq⟩
      · rw [hcap, hnone] at he
        cases he
      · rw [heq, hcap]
        exact ⟨rfl, hacc, hpub⟩
    · -- nothing was recovered
      rename_i hlen
      have hnil : recovered data maxBytes = [] := by
        rw [WAL.len, hopen.len] at hlen
        exact eq_nil_of_length_eq_zero (by omega)
      refine ⟨by rw [hopen.data, hnil]; rfl, h, ?_⟩
      rw [hnil]
      simp [messages]
  · push Not at hz
    obtain ⟨c, hc, hbad⟩ := hz
    refine .inr ⟨⟨c, hc, hbad⟩, ?_⟩
    have hne : recovered data maxBytes ≠ [] := ne_nil_of_mem hc
    unfold d drain
    rw [if_pos (by rw [WAL.len, hopen.len]; exact length_pos_iff.mpr hne)]
    rcases hopen.replay K (replayFrame J) js true with ⟨e, w', -, hw', -, heq⟩ | ⟨hnone, -⟩
    · rw [heq, hw'.data, ne_eq, wire_eq_nil]
      exact hne
    · obtain ⟨raw, hraw, -⟩ := deliver_complete _ _ _ hnone c hc
      rw [hbad] at hraw
      cases hraw

variable {b : TelemetryBatch}

theorem Publisher.publish_reaches {w : WAL} {payload : Bytes} (hp : J.marshal b = some payload) :
    (⟨some js, some w⟩ : Publisher).publish K J false b =
      ((live K b payload (drain K J w js)).1, ⟨some (live K b payload (drain K J w js)).2.2,
        some (live K b payload (drain K J w js)).2.1⟩) := by
  simp [publish, hp]

theorem Publisher.publish_idle {p : Publisher} {cancelled : Bool}
    (h : cancelled = true ∨ J.marshal b = none) : (p.publish K J cancelled b).2 = p := by
  unfold publish
  cases p.js with
  | none => rfl
  | some js =>
    dsimp only
    split
    · rfl
    · rename_i hc
      rw [h.resolve_left hc]

/-- The live batch takes nothing off the log. -/
theorem live_data_ne_nil {payload : Bytes} {s : WAL × JetStream} (h : s.1.f.data ≠ []) :
    (live K b payload s).2.1.f.data ≠ [] := by
  unfold live
  dsimp only
  split
  · exact h
  · rcases s.1.write_cases K payload noFaults with ⟨-, hdata, -⟩ | ⟨c, -, -, hok⟩
    · rwa [hdata]
    · rw [hok]
      simp [h]

/-- **A corrupt log.**  A log is opened over arbitrary bytes, and JetStream takes every message.
After the first `Publish` it is empty, and every complete frame that decompresses and decodes is
published on its batch's subject, exactly when: nothing was recovered, or the call gets to the
replay and every recovered frame decompresses; and the frames cut, from the first over the cap on,
say nothing that is not published anyway. -/
theorem unwedged_iff (K : Codec) (J : Json) (data : Bytes) (maxBytes : Int) (cancelled : Bool)
    (b : TelemetryBatch) :
    (∃ w js, ((⟨some ⟨fun _ => true, 0, []⟩, some (openWithMaxSize data maxBytes)⟩ :
          Publisher).publish K J cancelled b).2 = ⟨some js, some w⟩ ∧
        w.f.data = [] ∧ ∀ m ∈ messages K J (frames data), m ∈ js.published) ↔
      (recovered data maxBytes = [] ∨
          (cancelled = false ∧ J.marshal b ≠ none) ∧
            ∀ c ∈ recovered data maxBytes, K.gunzip c ≠ none) ∧
        ∀ m ∈ messages K J (frames data), m ∈ messages K J (recovered data maxBytes) ∨
          cancelled = false ∧ ∃ payload, J.marshal b = some payload ∧ m = ⟨b.subject, payload⟩ := by
  have hacc : (⟨fun _ => true, 0, []⟩ : JetStream).Accepting := fun _ => rfl
  by_cases hreach : cancelled = false ∧ J.marshal b ≠ none
  · obtain ⟨rfl, hp⟩ := hreach
    obtain ⟨payload, hp⟩ := ne_none_iff_exists'.mp hp
    rw [publish_reaches hp]
    rcases drain_open (K := K) (J := J) data maxBytes hacc with
      ⟨hz, hdata, hacc', hpub⟩ | ⟨⟨c, hc, hbad⟩, hdata⟩
    · -- the log is drained, and the live batch published after its frames
      simp only [live, hacc'.publish, hpub, hp]
      simp only [mk.injEq, some.injEq]
      constructor
      · rintro ⟨w, js, ⟨rfl, rfl⟩, -, hall⟩
        exact ⟨.inr ⟨by simp, hz⟩, fun m hm => by simpa using hall m hm⟩
      · rintro ⟨-, hall⟩
        exact ⟨_, _, ⟨rfl, rfl⟩, hdata, fun m hm => by simpa using hall m hm⟩
    · -- a frame that does not decompress stays, with all the others
      refine iff_of_false ?_ ?_
      · rintro ⟨w, js, heq, hnil, -⟩
        obtain ⟨-, hw⟩ := mk.inj heq
        obtain rfl := some.inj hw
        exact live_data_ne_nil hdata hnil
      · rintro ⟨hnil | ⟨-, hz⟩, -⟩
        · exact ne_nil_of_mem hc hnil
        · exact hz c hc hbad
  · -- the call returns before the replay
    have hidle : cancelled = true ∨ J.marshal b = none := by
      cases cancelled with
      | true => exact .inl rfl
      | false => exact .inr (by_contra fun hp => hreach ⟨rfl, hp⟩)
    have hopen : (openWithMaxSize data maxBytes).Holds (recovered data maxBytes) :=
      holds_open data maxBytes
    have hlive : ∀ m : Msg, ¬ (cancelled = false ∧ ∃ payload, J.marshal b = some payload ∧
        m = ⟨b.subject, payload⟩) := by
      rintro m ⟨hc, payload, hp, -⟩
      exact hreach ⟨hc, by simp [hp]⟩
    rw [publish_idle hidle]
    constructor
    · rintro ⟨w, js, heq, hnil, hall⟩
      obtain ⟨hjs, hw⟩ := mk.inj heq
      obtain rfl := some.inj hw
      obtain rfl := some.inj hjs
      rw [hopen.data, wire_eq_nil] at hnil
      exact ⟨.inl hnil, fun m hm => absurd (hall m hm) (by simp)⟩
    · rintro ⟨hnil | ⟨hr, -⟩, hall⟩
      · refine ⟨_, _, rfl, by rw [hopen.data, hnil]; rfl, fun m hm => ?_⟩
        rcases hall m hm with hin | hin
        · rw [hnil] at hin
          simp [messages] at hin
        · exact absurd hin (hlive m)
      · exact absurd hr hreach

end Corrupt

/-- With a whole frame that does not decompress, `Publish` returns nil and the frame stays. -/
theorem bad_frame_stays :
    let r := (⟨some ⟨fun _ => true, 0, []⟩, some (openWithMaxSize (wire [[7]]) 0)⟩ :
      Publisher).publish tagged oneBatch false emptyBatch
    r.1 = none ∧ ∃ w js, r.2 = ⟨some js, some w⟩ ∧ w.f.data = wire [[7]] := by
  have hopen : (openWithMaxSize (wire [[7]]) 0).Holds [[7]] := by
    have h := holds_open (wire [[7]]) 0
    rwa [scan_wire (by simp [Short]) (by simp [capOf, MaxSize])] at h
  have hp : oneBatch.marshal emptyBatch = some [1] := rfl
  rw [publish_reaches hp]
  rcases hopen.replay tagged (replayFrame oneBatch) ⟨fun _ => true, 0, []⟩ true with
    ⟨e, w', he, hw', -, heq⟩ | ⟨hnone, -⟩
  · have hcap : (openWithMaxSize (wire [[7]]) 0).maxSize = MaxSize := by
      rw [openWithMaxSize_eq]
      rfl
    rw [hcap] at heq
    rw [drain, if_pos (by rw [WAL.len, hopen.len]; decide), heq]
    exact ⟨rfl, w', _, rfl, hw'.data⟩
  · rw [openWithMaxSize_eq] at hnone
    cases hnone

end Cios.Wal
