import Cios.Wal.Log

/-!
# The publisher

`pkg/natspub`: telemetry batches go to JetStream as JSON, each on the subject of its asset, and to
the write-ahead log when JetStream refuses them.  Every `Publish` first replays the log, and the
frames it holds go to their own subjects.

`Safe` is the invariant: the log is in order, and every batch acknowledged so far is published or in
it (`Safe.publish`, `at_least_once_iff`).
-/

namespace Cios.Wal
open Text Framing Disk List

/-! ### Batches -/

structure TelemetryBatch where
  site : Bytes
  topAsset : Bytes
  timestamp : Int
  encoding : Bytes
  lines : List Bytes
deriving DecidableEq, Repr

def TelemetryBatch.subject (b : TelemetryBatch) : Bytes :=
  lit "cios.tlm." ++ b.site ++ lit "." ++ b.topAsset

def Utf8 (s : Bytes) : Prop := ∃ t : String, s = lit t

/-- Every string of the batch is valid UTF-8. -/
structure TelemetryBatch.Valid (b : TelemetryBatch) : Prop where
  site : Utf8 b.site
  topAsset : Utf8 b.topAsset
  encoding : Utf8 b.encoding
  lines : ∀ l ∈ b.lines, Utf8 l

/-- `json.Marshal` and `json.Unmarshal` of a batch. -/
structure Json where
  marshal : TelemetryBatch → Option Bytes
  unmarshal : Bytes → Option TelemetryBatch

/-- Decoding inverts encoding, for batches of valid UTF-8. -/
def Json.Lawful (J : Json) : Prop :=
  ∀ b p, b.Valid → J.marshal b = some p → J.unmarshal p = some b

/-! ### JetStream -/

structure Msg where
  subject : Bytes
  data : Bytes
deriving DecidableEq, Repr

/-- `accepts k` says whether the `k`-th message is taken; `published` are those that were. -/
structure JetStream where
  accepts : Nat → Bool
  sent : Nat
  published : List Msg

def JetStream.publish (js : JetStream) (m : Msg) : Bool × JetStream :=
  if js.accepts js.sent then
    (true, { js with sent := js.sent + 1, published := js.published ++ [m] })
  else (false, { js with sent := js.sent + 1 })

/-! ### Publishing -/

/-- The callback of the replay: a frame goes to its own subject; undecodable ones are skipped. -/
def replayFrame (J : Json) (frame : Bytes) (js : JetStream) : Option Unit × JetStream :=
  match J.unmarshal frame with
  | none => (none, js)
  | some parsed =>
    let r := js.publish ⟨parsed.subject, frame⟩
    (if r.1 then none else some (), r.2)

/-- Step 1: drain the log.  An error of the replay is only logged. -/
def drain (K : Codec) (J : Json) (w : WAL) (js : JetStream) : WAL × JetStream :=
  if w.len > 0 then (w.replay K (replayFrame J) js true).2 else (w, js)

inductive PublishError where
  | nilJetStream
  | cancelled
  | marshal
  | publish
  | both (e : WriteError)
deriving DecidableEq, Repr

/-- Steps 2 and 3: publish the batch; when it is refused, write it to the log. -/
def live (K : Codec) (b : TelemetryBatch) (payload : Bytes) (s : WAL × JetStream) :
    Option PublishError × WAL × JetStream :=
  let r := s.2.publish ⟨b.subject, payload⟩
  if r.1 then (none, s.1, r.2)
  else
    let wr := s.1.write K payload noFaults
    (wr.1.map .both, wr.2, r.2)

structure Publisher where
  js : Option JetStream
  wal : Option WAL

/-- `Publish`; `cancelled` says that the context is done. -/
def Publisher.publish (K : Codec) (J : Json) (p : Publisher) (cancelled : Bool)
    (b : TelemetryBatch) : Option PublishError × Publisher :=
  match p.js with
  | none => (some .nilJetStream, p)
  | some js =>
    if cancelled then (some .cancelled, p)
    else match J.marshal b with
      | none => (some .marshal, p)
      | some payload =>
        match p.wal with
        | none =>
          let r := js.publish ⟨b.subject, payload⟩
          (if r.1 then none else some .publish, { p with js := some r.2 })
        | some w =>
          let r := live K b payload (drain K J w js)
          (r.1, ⟨some r.2.2, some r.2.1⟩)

/-! ### What the replay publishes -/

section Delivery

variable {K : Codec} {J : Json}

theorem JetStream.publish_subset (js : JetStream) (m : Msg) :
    js.published ⊆ (js.publish m).2.published := by
  unfold JetStream.publish
  split
  · exact subset_append_left _ _
  · exact List.Subset.refl _

theorem JetStream.mem_publish {js : JetStream} {m : Msg} (h : (js.publish m).1 = true) :
    m ∈ (js.publish m).2.published := by
  unfold JetStream.publish at h ⊢
  split at h
  · rename_i hok
    simp [hok]
  · cases h

theorem replayFrame_subset (J : Json) (raw : Bytes) (js : JetStream) :
    js.published ⊆ (replayFrame J raw js).2.published := by
  unfold replayFrame
  cases J.unmarshal raw with
  | none => exact List.Subset.refl _
  | some parsed => exact js.publish_subset _

/-- A frame that the callback accepts is published on its own subject, if it decodes. -/
theorem mem_replayFrame {raw : Bytes} {js : JetStream} {b : TelemetryBatch}
    (hb : J.unmarshal raw = some b) (h : (replayFrame J raw js).1 = none) :
    ⟨b.subject, raw⟩ ∈ (replayFrame J raw js).2.published := by
  unfold replayFrame at h ⊢
  rw [hb] at h ⊢
  apply JetStream.mem_publish
  by_contra hno
  simp [hno] at h

theorem deliver_subset (cap : Nat) : ∀ (cs : List Bytes) (js : JetStream),
    js.published ⊆ (deliver K (replayFrame J) cap cs js).2.published
  | [], _ => List.Subset.refl _
  | c :: cs, js => by
    rw [deliver]
    split
    · exact List.Subset.refl _
    cases K.gunzip c with
    | none => exact List.Subset.refl _
    | some raw =>
      have hsub := replayFrame_subset J raw js
      dsimp only
      rcases hr : replayFrame J raw js with ⟨_ | e, js'⟩
      · rw [hr] at hsub
        exact List.Subset.trans hsub (deliver_subset cap cs js')
      · rw [hr] at hsub
        exact hsub

/-- A delivery without an error has decompressed every frame, and published those that decode. -/
theorem deliver_complete (cap : Nat) : ∀ (cs : List Bytes) (js : JetStream),
    (deliver K (replayFrame J) cap cs js).1 = none → ∀ c ∈ cs, ∃ raw, K.gunzip c = some raw ∧
      ∀ b, J.unmarshal raw = some b →
        ⟨b.subject, raw⟩ ∈ (deliver K (replayFrame J) cap cs js).2.published
  | [], _, _ => by simp
  | c :: cs, js, h => by
    rw [deliver] at h ⊢
    split at h
    · cases h
    rename_i hcap
    rw [if_neg hcap]
    cases hraw : K.gunzip c with
    | none => simp [hraw] at h
    | some raw =>
      simp only [hraw] at h ⊢
      rcases hr : replayFrame J raw js with ⟨_ | e, js'⟩
      · simp only [hr] at h ⊢
        refine forall_mem_cons.mpr ⟨⟨raw, hraw, fun b hb => ?_⟩, ?_⟩
        · have hmem := mem_replayFrame hb (congrArg Prod.fst hr)
          rw [hr] at hmem
          exact deliver_subset cap cs js' hmem
        · exact deliver_complete cap cs js' h
      · simp [hr] at h

end Delivery

/-! ### At least once -/

section AtLeastOnce

variable {K : Codec} {J : Json}

/-- The batch is published on its subject, or its payload is a frame of the log. -/
def Kept (K : Codec) (J : Json) (w : WAL) (js : JetStream) (b : TelemetryBatch) : Prop :=
  ∃ payload, J.marshal b = some payload ∧
    (⟨b.subject, payload⟩ ∈ js.published ∨
      ∃ c, K.gzip payload = some c ∧ c ∈ frames w.f.data)

/-- `Kept`, of a publisher with a log. -/
def Publisher.Keeps (K : Codec) (J : Json) (p : Publisher) (b : TelemetryBatch) : Prop :=
  ∃ w js, p = ⟨some js, some w⟩ ∧ Kept K J w js b

structure PublishCall where
  cancelled : Bool
  batch : TelemetryBatch

/-- Calls one after another: the batches whose `Publish` returned nil, and the publisher. -/
def Publisher.publishAll (K : Codec) (J : Json) (p : Publisher) :
    List PublishCall → List TelemetryBatch × Publisher
  | [] => ([], p)
  | c :: cs =>
    let r := p.publish K J c.cancelled c.batch
    let rest := r.2.publishAll K J cs
    (if r.1 = none then c.batch :: rest.1 else rest.1, rest.2)

/-- The publisher in the middle of a call: the log is drained, the batch not yet published. -/
def Publisher.drained (K : Codec) (J : Json) (p : Publisher) : Publisher :=
  match p.js, p.wal with
  | some js, some w => ⟨some (drain K J w js).2, some (drain K J w js).1⟩
  | _, _ => p

/-- The log is in order, and these batches are kept. -/
structure Safe (K : Codec) (J : Json) (cap : Nat) (acked : List TelemetryBatch) (w : WAL)
    (js : JetStream) : Prop where
  good : ∃ cs, w.Holds cs
  cap : w.maxSize = cap
  kept : ∀ b ∈ acked, b.Valid ∧ Kept K J w js b

variable {cap : Nat} {acked : List TelemetryBatch} {w : WAL} {js : JetStream}

/-- Where nothing published and no frame is lost, the batches are kept. -/
theorem Safe.grow {w' : WAL} {js' : JetStream} (h : Safe K J cap acked w js)
    (hgood : ∃ cs, w'.Holds cs)
    (hcap : w'.maxSize = w.maxSize) (hpub : js.published ⊆ js'.published)
    (hframes : frames w.f.data ⊆ frames w'.f.data) : Safe K J cap acked w' js' := by
  refine ⟨hgood, hcap.trans h.cap, fun b hb => ?_⟩
  obtain ⟨hvalid, payload, hp, hin⟩ := h.kept b hb
  exact ⟨hvalid, payload, hp, hin.imp (fun hin => hpub hin)
    fun ⟨c, hc, hin⟩ => ⟨c, hc, hframes hin⟩⟩

/-- Draining keeps every batch: a frame leaves only with all others, each published on its
subject. -/
theorem Safe.drain (hK : K.Lawful) (hJ : J.Lawful) (h : Safe K J cap acked w js) :
    Safe K J cap acked (drain K J w js).1 (drain K J w js).2 := by
  obtain ⟨cs, hcs⟩ := h.good
  unfold Wal.drain
  split
  · have hsub := deliver_subset (K := K) (J := J) w.maxSize cs js
    rcases hcs.replay K (replayFrame J) js true with ⟨e, w', -, hw', hcap', heq⟩ | ⟨hnone, heq⟩
    · -- the replay failed, and the log is as it was
      rw [heq]
      exact h.grow ⟨cs, hw'⟩ hcap' hsub (by simp [hw'.data, hcs.data])
    · rw [heq, if_pos rfl]
      refine ⟨⟨[], rfl, rfl, by simp⟩, h.cap, fun b hb => ?_⟩
      obtain ⟨hvalid, payload, hp, hin⟩ := h.kept b hb
      refine ⟨hvalid, payload, hp, .inl ?_⟩
      rcases hin with hin | ⟨c, hc, hin⟩
      · exact hsub hin
      · rw [hcs.data, frames_wire hcs.short] at hin
        obtain ⟨raw, hraw, hpub⟩ := deliver_complete w.maxSize cs js hnone c hin
        obtain rfl : raw = payload := by simpa [hK payload c hc] using hraw.symm
        exact hpub b (hJ b raw hvalid hp)
  · exact h

variable {b : TelemetryBatch}

/-- The live batch: every other is still kept, and this one is if the call returns nil. -/
theorem Safe.live {payload : Bytes} (h : Safe K J cap acked w js) (hvalid : b.Valid)
    (hp : J.marshal b = some payload)
    (hshort : ∀ comp, K.gzip payload = some comp → 4 + comp.length ≤ cap → Short comp) :
    let r := Wal.live K b payload (w, js)
    Safe K J cap (if r.1 = none then b :: acked else acked) r.2.1 r.2.2 := by
  obtain ⟨cs, hcs⟩ := h.good
  have hsub := js.publish_subset ⟨b.subject, payload⟩
  unfold Wal.live
  dsimp only
  split
  · rename_i hok
    obtain ⟨hgood, hcap, hkept⟩ := h.grow h.good rfl hsub (Subset.refl _)
    exact ⟨hgood, hcap, forall_mem_cons.mpr
      ⟨⟨hvalid, payload, hp, .inl (JetStream.mem_publish hok)⟩, hkept⟩⟩
  · rcases w.write_cases K payload noFaults with ⟨herr, hdata, hlen, hcap⟩ | ⟨c, hc, hfits, hok⟩
    · rw [if_neg (by simpa using herr)]
      exact h.grow ⟨cs, hdata.trans hcs.data, hlen.trans hcs.len, hcs.short⟩ hcap hsub
        (by simp [hdata])
    · rw [hok]
      have hcs' := hcs.snoc (hshort c hc (by rw [← h.cap]; omega))
      have hdata : w.f.data ++ frame c = wire (cs ++ [c]) := hcs'.data
      have hframes : frames (w.f.data ++ frame c) = frames w.f.data ++ [c] := by
        rw [hdata, hcs.data, frames_wire hcs'.short, frames_wire hcs.short]
      obtain ⟨hgood, hcap, hkept⟩ := h.grow ⟨_, hcs'⟩ rfl hsub (by simp [hframes])
      exact ⟨hgood, hcap, forall_mem_cons.mpr
        ⟨⟨hvalid, payload, hp, .inr ⟨c, hc, by simp [hframes]⟩⟩, hkept⟩⟩

/-- If it fits under the cap, the batch compresses to a frame that its length field can tell. -/
def FrameFits (K : Codec) (J : Json) (cap : Nat) (b : TelemetryBatch) : Prop :=
  ∀ payload comp, J.marshal b = some payload → K.gzip payload = some comp →
    4 + comp.length ≤ cap → Short comp

/-- Every batch does. -/
def FramesFit (K : Codec) (J : Json) (cap : Nat) : Prop := ∀ b, b.Valid → FrameFits K J cap b

/-- **One call** keeps every batch acknowledged so far, and its own if it returns nil. -/
theorem Safe.publish (hK : K.Lawful) (hJ : J.Lawful) (hfit : FrameFits K J cap b)
    (h : Safe K J cap acked w js) (hvalid : b.Valid) (cancelled : Bool) :
    let r := (⟨some js, some w⟩ : Publisher).publish K J cancelled b
    ∃ w' js', r.2 = ⟨some js', some w'⟩ ∧
      Safe K J cap (if r.1 = none then b :: acked else acked) w' js' := by
  unfold Publisher.publish
  dsimp only
  split
  · exact ⟨w, js, rfl, by simpa using h⟩
  cases hp : J.marshal b with
  | none => exact ⟨w, js, rfl, by simpa using h⟩
  | some payload =>
    refine ⟨_, _, rfl, ?_⟩
    exact (h.drain hK hJ).live hvalid hp fun comp hcomp => hfit payload comp hp hcomp

/-- **The run lemma.** -/
theorem Safe.publishAll (hK : K.Lawful) (hJ : J.Lawful) :
    ∀ {calls : List PublishCall} {acked : List TelemetryBatch} {w : WAL} {js : JetStream},
      Safe K J cap acked w js → (∀ c ∈ calls, c.batch.Valid) →
      (∀ c ∈ calls, FrameFits K J cap c.batch) →
      let r := (⟨some js, some w⟩ : Publisher).publishAll K J calls
      ∃ w' js' acked', r.2 = ⟨some js', some w'⟩ ∧ Safe K J cap acked' w' js' ∧
        acked ⊆ acked' ∧ r.1 ⊆ acked'
  | [], acked, w, js, h, _, _ => ⟨w, js, acked, rfl, h, List.Subset.refl _, nil_subset _⟩
  | c :: calls, acked, w, js, h, hvalid, hfit => by
    rw [forall_mem_cons] at hvalid hfit
    obtain ⟨w₁, js₁, hr, h₁⟩ := h.publish hK hJ hfit.1 hvalid.1 c.cancelled
    obtain ⟨w', js', acked', hrest, h', hsub, hacked⟩ := h₁.publishAll hK hJ hvalid.2 hfit.2
    rw [Publisher.publishAll]
    dsimp only
    rw [hr]
    split at hsub
    · rename_i hnil
      rw [if_pos hnil]
      obtain ⟨hb, hsub⟩ := cons_subset.mp hsub
      exact ⟨w', js', acked', hrest, h', hsub, cons_subset.mpr ⟨hb, hacked⟩⟩
    · rename_i herr
      rw [if_neg herr]
      exact ⟨w', js', acked', hrest, h', hsub, hacked⟩

/-- A frame too long for its length field is lost: JetStream refuses the batch, the log takes it,
and no frame of the file is its payload. -/
theorem lost_of_not_short {p c : Bytes} {maxBytes : Int} (hp : J.marshal b = some p)
    (hc : K.gzip p = some c) (hcap : 4 + c.length ≤ capOf maxBytes) (hlong : ¬ Short c) :
    let r := (⟨some ⟨fun _ => false, 0, []⟩, some (openWithMaxSize [] maxBytes)⟩ :
      Publisher).publish
      K J false b
    r.1 = none ∧ ¬ r.2.Keeps K J b := by
  rw [openWithMaxSize_nil]
  have hwrite : (⟨⟨[], 0⟩, 0, capOf maxBytes⟩ : WAL).write K p noFaults =
      (none, ⟨⟨frame c, (frame c).length⟩, 1, capOf maxBytes⟩) := by
    rcases (⟨⟨[], 0⟩, 0, capOf maxBytes⟩ : WAL).write_cases K p noFaults with
      ⟨herr, -⟩ | ⟨c', hc', -, hok⟩
    · refine absurd ?_ herr
      simp only [WAL.write, hc, File.size, length_nil, Nat.zero_add]
      rw [if_neg (by omega)]
      rfl
    · obtain rfl : c = c' := by simpa [hc] using hc'
      simpa using hok
  have hpublish : (⟨some ⟨fun _ => false, 0, []⟩, some ⟨⟨[], 0⟩, 0, capOf maxBytes⟩⟩ :
      Publisher).publish K J false b = (none, ⟨some ⟨fun _ => false, 1, []⟩,
        some ⟨⟨frame c, (frame c).length⟩, 1, capOf maxBytes⟩⟩) := by
    simp [Publisher.publish, hp, drain, WAL.len, live, JetStream.publish, hwrite]
  rw [hpublish]
  refine ⟨rfl, ?_⟩
  rintro ⟨w', js', heq, p', hp', hin⟩
  obtain ⟨rfl, rfl⟩ : js' = _ ∧ w' = _ := by
    simpa [eq_comm] using heq
  rcases hin with hin | ⟨c', hc', hin⟩
  · simp at hin
  · obtain rfl : p = p' := by simpa [hp] using hp'
    obtain rfl : c = c' := by simpa [hc] using hc'
    exact hlong (mem_scan _ c hin).1

/-- A run of batches that fit keeps every batch whose `Publish` returned nil. -/
theorem keeps_of_fit (hK : K.Lawful) (hJ : J.Lawful) {maxBytes : Int} {data : Bytes}
    {accepts : Nat → Bool} {calls : List PublishCall} (hvalid : ∀ c ∈ calls, c.batch.Valid)
    (hfit : ∀ c ∈ calls, FrameFits K J (capOf maxBytes) c.batch) :
    let r := (⟨some ⟨accepts, 0, []⟩, some (openWithMaxSize data maxBytes)⟩ :
      Publisher).publishAll K J calls
    ∀ b ∈ r.1, r.2.Keeps K J b ∧ (r.2.drained K J).Keeps K J b := by
  intro r b hb
  have hstart : Safe K J (capOf maxBytes) [] (openWithMaxSize data maxBytes)
      ⟨accepts, 0, []⟩ := by
    refine ⟨⟨_, holds_open data maxBytes⟩, ?_, by simp⟩
    rw [openWithMaxSize_eq]
  obtain ⟨w, js, acked, hr, hsafe, -, hacked⟩ := hstart.publishAll hK hJ hvalid hfit
  have hmid := hsafe.drain hK hJ
  refine ⟨⟨w, js, hr, (hsafe.kept b (hacked hb)).2⟩, ?_⟩
  refine ⟨_, _, ?_, (hmid.kept b (hacked hb)).2⟩
  simp only [r, hr, Publisher.drained]

/-- **At-least-once publishing.**  Whatever the file held and whatever JetStream takes: at every
point, between calls and when a call has drained the log, every batch whose `Publish` returned nil
is published on its own subject or in the log, exactly when no batch that fits under the cap
compresses to `2 ^ 32` bytes or more. -/
theorem at_least_once_iff (K : Codec) (hK : K.Lawful) (J : Json) (hJ : J.Lawful)
    (maxBytes : Int) :
    (∀ data accepts calls, (∀ c ∈ calls, c.batch.Valid) →
        let r := (⟨some ⟨accepts, 0, []⟩, some (openWithMaxSize data maxBytes)⟩ :
          Publisher).publishAll K J calls
        ∀ b ∈ r.1, r.2.Keeps K J b ∧ (r.2.drained K J).Keeps K J b) ↔
      FramesFit K J (capOf maxBytes) := by
  constructor
  · intro h b hvalid payload comp hp hc hcap
    by_contra hlong
    obtain ⟨hnil, hlost⟩ := lost_of_not_short (K := K) hp hc hcap hlong
    have hrun := h [] (fun _ => false) [⟨false, b⟩] (by simpa using hvalid) b
    rw [Publisher.publishAll] at hrun
    exact hlost (hrun (by simp [hnil])).1
  · intro hfit data accepts calls hvalid
    exact keeps_of_fit hK hJ hvalid fun c hc => hfit _ (hvalid c hc)

end AtLeastOnce

def emptyBatch : TelemetryBatch := ⟨lit "sgp01", lit "sgp01.pod002", 0, lit "promtext", []⟩

theorem emptyBatch_valid : emptyBatch.Valid :=
  ⟨⟨_, rfl⟩, ⟨_, rfl⟩, ⟨_, rfl⟩, by simp [emptyBatch]⟩

def oneBatch : Json where
  marshal b := if b = emptyBatch then some [1] else none
  unmarshal p := if p = [1] then some emptyBatch else none

theorem oneBatch_lawful : oneBatch.Lawful := by
  intro b p _ h
  simp only [oneBatch, Option.ite_none_right_eq_some, Option.some.injEq] at h ⊢
  exact ⟨h.2.symm, h.1.symm⟩

def tagged : Codec where
  gzip p := some (31 :: p)
  gunzip
    | 31 :: p => some p
    | _ => none

theorem tagged_lawful : tagged.Lawful := by
  intro p c h
  obtain rfl : 31 :: p = c := by simpa [tagged] using h
  rfl

/-- Under the default cap, a batch that JetStream refuses is acknowledged and kept. -/
theorem at_least_once_iff_default_cap :
    let r := (⟨some ⟨fun _ => false, 0, []⟩, some (openWithMaxSize [] 0)⟩ :
      Publisher).publishAll tagged oneBatch [⟨false, emptyBatch⟩]
    r.1 = [emptyBatch] ∧ r.2.Keeps tagged oneBatch emptyBatch := by
  intro r
  have hfit : FramesFit tagged oneBatch (capOf 0) := by
    intro b _ payload comp _ _ hcap
    have hdefault : capOf 0 = 2 ^ 30 := rfl
    unfold Short
    omega
  have hacked : r.1 = [emptyBatch] := by
    simp only [r, openWithMaxSize_nil]
    rfl
  refine ⟨hacked, ?_⟩
  refine ((at_least_once_iff tagged tagged_lawful oneBatch oneBatch_lawful 0).mpr hfit []
    (fun _ => false) [⟨false, emptyBatch⟩] ?_ emptyBatch ?_).1
  · simpa using emptyBatch_valid
  · exact hacked ▸ mem_singleton_self _

def bulky (n : Nat) : Codec where
  gzip p := some (List.replicate n 0 ++ p)
  gunzip c := some (c.drop n)

theorem bulky_lawful (n : Nat) : (bulky n).Lawful := by
  intro p c h
  obtain rfl : List.replicate n 0 ++ p = c := Option.some.inj h
  exact congrArg some (drop_left' length_replicate)

theorem bulky_lost {n : Nat} (hn : 2 ^ 32 ≤ n) {maxBytes : Int} (hcap : n + 5 ≤ capOf maxBytes) :
    let r := (⟨some ⟨fun _ => false, 0, []⟩, some (openWithMaxSize [] maxBytes)⟩ :
      Publisher).publish (bulky n) oneBatch false emptyBatch
    r.1 = none ∧ ¬ r.2.Keeps (bulky n) oneBatch emptyBatch := by
  have hlen : (List.replicate n 0 ++ [1] : Bytes).length = n + 1 := by simp
  refine lost_of_not_short (K := bulky n) (J := oneBatch) (b := emptyBatch) (p := [1])
    (c := List.replicate n 0 ++ [1]) rfl rfl ?_ ?_
  · rw [hlen]
    omega
  · unfold Short
    omega

/-- Under a cap of 8 GiB, a batch that compresses to more than 4 GiB is acknowledged, and neither
published nor in the log. -/
theorem acknowledged_batch_lost :
    (bulky (2 ^ 32)).Lawful ∧
      let r := (⟨some ⟨fun _ => false, 0, []⟩, some (openWithMaxSize [] (2 ^ 33))⟩ :
        Publisher).publish (bulky (2 ^ 32)) oneBatch false emptyBatch
      r.1 = none ∧ ¬ r.2.Keeps (bulky (2 ^ 32)) oneBatch emptyBatch :=
  ⟨bulky_lawful _, bulky_lost (Nat.le_refl _) (by decide)⟩

end Cios.Wal
