import Cios.Wal.Log

/-!
# The write-ahead log — damage, crashes and faults

`opens_any_file`: whatever bytes are found, opening leaves the longest part of them that later
replays can read.  `recovers_prefix`: after a crash at any byte the log holds the payloads whose
frames were written whole, and no others.  `bookkeeping_iff`: with writes cut short and syncs
failing at will, the file stays a concatenation of frames and `Len` their number, but for two calls
(`LogCall.Spoils`).
-/

namespace Cios.Wal
open Text Framing List WAL

/-- The payloads written one after another, each successfully. -/
def WAL.writeAll (K : Codec) (w : WAL) : List Bytes → Option WAL
  | [] => some w
  | p :: ps =>
    match w.write K p noFaults with
    | (none, w') => WAL.writeAll K w' ps
    | (some _, _) => none

/-- Successful writes leave the frames of the compressed payloads, in order, within the cap. -/
theorem WAL.Holds.writeAll {K : Codec} {w' : WAL} : ∀ {ps cs : List Bytes} {w : WAL}, w.Holds cs →
    (∀ p ∈ ps, ∀ c, K.gzip p = some c → Short c) → w.writeAll K ps = some w' →
    ∃ ds, ps.map K.gzip = ds.map some ∧ w'.Holds (cs ++ ds) ∧ w'.maxSize = w.maxSize ∧
      ∀ d ∈ ds, d.length ≤ w.maxSize
  | [], cs, w, h, _, hw => by
    obtain rfl : w = w' := by simpa [WAL.writeAll] using hw
    exact ⟨[], rfl, by simpa using h, rfl, by simp⟩
  | p :: ps, cs, w, h, hs, hw => by
    rw [forall_mem_cons] at hs
    rw [WAL.writeAll] at hw
    rcases w.write_cases K p noFaults with ⟨herr, -⟩ | ⟨c, hc, hfits, hok⟩
    · split at hw
      · rename_i heq
        rw [heq] at herr
        exact absurd rfl herr
      · cases hw
    · rw [hok] at hw
      obtain ⟨ds, hmap, hheld, hcap, hlen⟩ := (h.snoc (hs.1 c hc)).writeAll hs.2 hw
      refine ⟨c :: ds, by simp [hc, hmap], by simpa using hheld, hcap, ?_⟩
      exact forall_mem_cons.mpr ⟨by omega, hlen⟩

section Delivery

variable {σ ε : Type} {K : Codec} {fn : Bytes → σ → Option ε × σ}

theorem deliver_error {cap : Nat} {e : ReplayError ε} : ∀ {cs : List Bytes} {ρ : σ},
    (deliver K fn cap cs ρ).1 = some e →
    (∃ c ∈ cs, cap < c.length ∧ e = .tooLong c.length) ∨ e = .gunzip ∨ ∃ x, e = .callback x
  | [], _, h => by cases h
  | c :: cs, ρ, h => by
    rw [deliver] at h
    split at h
    · rename_i hlong
      cases h
      exact .inl ⟨c, mem_cons_self, hlong, rfl⟩
    cases hraw : K.gunzip c with
    | none =>
      rw [hraw] at h
      cases h
      exact .inr (.inl rfl)
    | some raw =>
      rcases hfn : fn raw ρ with ⟨_ | x, ρ'⟩ <;> simp only [hraw, hfn] at h
      · refine (deliver_error h).imp_left ?_
        rintro ⟨d, hd, hrest⟩
        exact ⟨d, mem_cons_of_mem c hd, hrest⟩
      · cases h
        exact .inr (.inr ⟨x, rfl⟩)

/-! ### Opening any file -/

/-- The errors of a replay that finds its file damaged. -/
def ReplayError.Torn : ReplayError ε → Prop
  | .header | .tooLong _ | .payload => True
  | .gunzip | .callback _ | .sync => False

/-- Replays one after another, with these callbacks. -/
def WAL.replays (K : Codec) (fns : List (Bytes → σ → Option ε × σ)) (s : WAL × σ) : WAL × σ :=
  fns.foldl (fun s fn => (s.1.replay K fn s.2 true).2) s

/-- A replay of frames under the cap finds them undamaged, and leaves them or none. -/
theorem WAL.Holds.replay_clean {w : WAL} {cs : List Bytes} (h : w.Holds cs)
    (hcap : ∀ c ∈ cs, c.length ≤ w.maxSize) (fn : Bytes → σ → Option ε × σ) (ρ : σ) :
    (∀ e, (w.replay K fn ρ true).1 = some e → ¬ e.Torn) ∧
      ∃ ds, (w.replay K fn ρ true).2.1.Holds ds ∧
        ∀ c ∈ ds, c.length ≤ (w.replay K fn ρ true).2.1.maxSize := by
  rcases h.replay K fn ρ true with ⟨e, w', he, hw', hsize, heq⟩ | ⟨-, heq⟩
  · rw [heq]
    refine ⟨?_, cs, hw', fun c hc => hsize ▸ hcap c hc⟩
    rintro _ ⟨⟩
    rcases deliver_error he with ⟨c, hc, hlong, -⟩ | rfl | ⟨x, rfl⟩
    · exact absurd (hcap c hc) (Nat.not_le.mpr hlong)
    · exact id
    · exact id
  · rw [heq]
    exact ⟨by rintro _ ⟨⟩, [], ⟨rfl, rfl, by simp⟩, by simp⟩

theorem WAL.Holds.replays_clean (K : Codec) (fn : Bytes → σ → Option ε × σ) {e : ReplayError ε} :
    ∀ (fns : List (Bytes → σ → Option ε × σ)) {w : WAL} {cs : List Bytes} {ρ : σ}, w.Holds cs →
      (∀ c ∈ cs, c.length ≤ w.maxSize) →
      ((replays K fns (w, ρ)).1.replay K fn (replays K fns (w, ρ)).2 true).1 = some e →
      ¬ e.Torn
  | [], _, _, ρ, h, hcap => (h.replay_clean hcap fn ρ).1 e
  | fn' :: fns, _, _, ρ, h, hcap => by
    obtain ⟨ds, hds, hle⟩ := (h.replay_clean hcap fn' ρ).2
    exact Holds.replays_clean K fn fns hds hle

/-- **Opening tolerates any file.**  Whatever the bytes and the cap, the file is left as its longest
prefix of frames within the cap, `Len` is their number, and no later replay finds the file
damaged. -/
theorem opens_any_file (K : Codec) (data : Bytes) (maxBytes : Int) :
    let w := openWithMaxSize data maxBytes
    let Admitted (cs : List Bytes) := ∀ c ∈ cs, Short c ∧ c.length ≤ capOf maxBytes
    ∃ cs, w.f.data = wire cs ∧ w.len = cs.length ∧ Admitted cs ∧ wire cs <+: data ∧
      (∀ ds, Admitted ds → wire ds <+: data → wire ds <+: wire cs) ∧
      ∀ (fns : List (Bytes → σ → Option ε × σ)) (ρ : σ) (fn : Bytes → σ → Option ε × σ) (e),
        ((replays K fns (w, ρ)).1.replay K fn (replays K fns (w, ρ)).2 true).1 = some e →
        ¬ e.Torn := by
  intro w Admitted
  have hopen := holds_open data maxBytes
  have hcap : ∀ c ∈ (scan (fun k => decide (k ≤ capOf maxBytes)) data).1,
      c.length ≤ capOf maxBytes := fun c hc => by simpa using (mem_scan data c hc).2
  refine ⟨_, hopen.data, hopen.len, fun c hc => ⟨hopen.short c hc, hcap c hc⟩,
    wire_scan_prefix data, ?_, fun fns ρ fn e => Holds.replays_clean K fn fns hopen ?_⟩
  · rintro ds hds ⟨r, rfl⟩
    -- the scan reads these frames first
    rw [scan_wire_append (fun c hc => (hds c hc).1) (fun c hc => by simpa using (hds c hc).2),
      wire_append]
    exact prefix_append ..
  · rwa [show w = _ from openWithMaxSize_eq data maxBytes]


/-! ### Crash recovery -/

theorem deliver_accepting (hK : K.Lawful) (haccept : ∀ raw ρ, (fn raw ρ).1 = none) {cap : Nat} :
    ∀ {ps cs : List Bytes} (ρ : σ), ps.map K.gzip = cs.map some → (∀ c ∈ cs, c.length ≤ cap) →
      deliver K fn cap cs ρ = (none, ps.foldl (fun ρ raw => (fn raw ρ).2) ρ)
  | [], [], _, _, _ => rfl
  | p :: ps, c :: cs, ρ, hmap, hcap => by
    rw [forall_mem_cons] at hcap
    rw [map_cons, map_cons, List.cons.injEq] at hmap
    have hfn : fn p ρ = (none, (fn p ρ).2) := Prod.ext (haccept p ρ) rfl
    rw [deliver_cons_ok hcap.1 (hK p c hmap.1) hfn]
    exact deliver_accepting hK haccept _ hmap.2 hcap.2

/-- **Crash recovery yields an exact prefix.**  Payloads are written to a fresh log, the file is cut
at any byte and opened with the same cap.  Then the length is the number of frames whole before the
cut, and a replay hands exactly so many first payloads to its callback, once each and in order, and
leaves the file empty. -/
theorem recovers_prefix (K : Codec) (hK : K.Lawful) (maxBytes : Int) (payloads : List Bytes)
    (w : WAL) (hw : (openWithMaxSize [] maxBytes).writeAll K payloads = some w)
    (hshort : ∀ p ∈ payloads, ∀ c, K.gzip p = some c → Short c) (k : Nat)
    (fn : Bytes → σ → Option ε × σ) (haccept : ∀ raw ρ, (fn raw ρ).1 = none) (ρ : σ) :
    ∃ cs, payloads.map K.gzip = cs.map some ∧ w.f.data = wire cs ∧
      let w' := openWithMaxSize (w.f.data.take k) maxBytes
      let n := whole cs k
      w'.len = n ∧
        ∃ w'', w'.replay K fn ρ true =
            (none, w'', (payloads.take n).foldl (fun ρ raw => (fn raw ρ).2) ρ) ∧
          w''.f.data = [] ∧ w''.len = 0 := by
  have hfresh : (openWithMaxSize [] maxBytes).Holds [] := by
    rw [openWithMaxSize_nil]
    exact ⟨rfl, rfl, by simp⟩
  obtain ⟨cs, hmap, hheld, -, hcap⟩ := hfresh.writeAll hshort hw
  rw [nil_append] at hheld
  rw [openWithMaxSize_nil] at hcap
  refine ⟨cs, hmap, hheld.data, ?_⟩
  -- the reopened log holds the frames before the cut
  obtain ⟨r, hr, hnext⟩ := take_wire hheld.short k
  have htake : ∀ c ∈ cs.take (whole cs k), c ∈ cs := fun c hc => mem_of_mem_take hc
  have hscan : (scan (fun j => decide (j ≤ capOf maxBytes)) (w.f.data.take k)).1 =
      cs.take (whole cs k) := by
    rw [hheld.data, hr, scan_wire_append (fun c hc => hheld.short c (htake c hc))
      (fun c hc => by simpa using hcap c (htake c hc)), scan_of_none hnext, append_nil]
  have hopen := holds_open (w.f.data.take k) maxBytes
  rw [hscan] at hopen
  have hwhole : whole cs k ≤ cs.length := whole_le cs k
  refine ⟨?_, ?_⟩
  · rw [len, hopen.len, length_take, Nat.min_eq_left hwhole]
  have hgzip : (payloads.take (whole cs k)).map K.gzip = (cs.take (whole cs k)).map some := by
    rw [map_take, map_take, hmap]
  have hcapOpen : (openWithMaxSize (w.f.data.take k) maxBytes).maxSize = capOf maxBytes := by
    rw [openWithMaxSize_eq]
  have hdeliver := deliver_accepting hK haccept ρ hgzip fun c hc => hcap c (htake c hc)
  rcases hopen.replay K fn ρ true with ⟨e, w'', he, -⟩ | ⟨-, hreplay⟩
  · rw [hcapOpen, hdeliver] at he
    cases he
  · rw [hreplay, hcapOpen, hdeliver]
    exact ⟨_, rfl, rfl, rfl⟩

end Delivery

def plain : Codec := ⟨some, some⟩

theorem plain_lawful : plain.Lawful := by
  intro p c h
  simpa [plain, eq_comm] using h

/-- Two payloads, of frames of five and six bytes, cut at the sixth byte: the first is recovered. -/
theorem recovers_prefix_cut :
    ∃ w'', (openWithMaxSize ((wire [[1], [2, 3]]).take 6) 0).replay (ε := Unit) plain
        (fun raw ρ => (none, ρ ++ [raw])) [] true = (none, w'', [[1]]) ∧ w''.f.data = [] := by
  have hw : (openWithMaxSize [] 0).writeAll plain [[1], [2, 3]] =
      some ⟨⟨wire [[1], [2, 3]], 11⟩, 2, MaxSize⟩ := by
    rw [openWithMaxSize_nil]
    rfl
  obtain ⟨cs, hmap, -, -, w'', hreplay, hdata, -⟩ := recovers_prefix (ε := Unit) plain
    plain_lawful 0 [[1], [2, 3]] _ hw (by simp [plain, Short]) 6 (fun raw ρ => (none, ρ ++ [raw]))
    (fun _ _ => rfl) []
  obtain rfl : cs = [[1], [2, 3]] :=
    (map_inj_right fun _ _ => Option.some.inj).mp hmap.symm
  exact ⟨w'', hreplay, hdata⟩

/-! ### Bookkeeping under faults -/

section Calls

variable {σ ε : Type}

/-- The calls on an opened log, with how their file operations go. -/
inductive LogCall (σ ε : Type) where
  | write (frame : Bytes) (φ : WriteFaults)
  | replay (fn : Bytes → σ → Option ε × σ) (synced : Bool)
  | len

def LogCall.after (K : Codec) : LogCall σ ε → WAL × σ → WAL × σ
  | .write frame φ, s => ((s.1.write K frame φ).2, s.2)
  | .replay fn synced, s => (s.1.replay K fn s.2 synced).2
  | .len, s => s

def afterCalls (K : Codec) (calls : List (LogCall σ ε)) (s : WAL × σ) : WAL × σ :=
  calls.foldl (fun s c => c.after K s) s

/-- The file is a concatenation of complete frames, and `Len` is their number. -/
def WAL.Good (w : WAL) : Prop := ∃ cs, w.Holds cs

/-- A replay of a log with frames whose last sync fails, or a write of a frame too long for its
length field. -/
def LogCall.Spoils (K : Codec) : LogCall σ ε → WAL × σ → Prop
  | .write frame φ, s =>
    (s.1.write K frame φ).1 = none ∧ ∃ comp, K.gzip frame = some comp ∧ ¬ Short comp
  | .replay fn synced, s => (s.1.replay K fn s.2 synced).1 = some .sync ∧ s.1.len ≠ 0
  | .len, _ => False

variable {K : Codec} {fn : Bytes → σ → Option ε × σ}

/-- A write keeps the bookkeeping, unless the frame does not fit its length field. -/
theorem WAL.Holds.good_write {w : WAL} {cs : List Bytes} (h : w.Holds cs) (frame : Bytes)
    (φ : WriteFaults) (ρ : σ) :
    (w.write K frame φ).2.Good ↔ ¬ (LogCall.write frame φ : LogCall σ ε).Spoils K (w, ρ) := by
  rcases w.write_cases K frame φ with ⟨herr, hdata, hlen, -⟩ | ⟨comp, hcomp, -, hok⟩
  · refine iff_of_true ⟨cs, hdata.trans h.data, hlen.trans h.len, h.short⟩ ?_
    rintro ⟨hnone, -⟩
    exact herr hnone
  simp only [LogCall.Spoils, hok, hcomp, Option.some.injEq, exists_eq_left', true_and, not_not]
  constructor
  · rintro ⟨ds, hdata, hlen, hs⟩
    by_contra hlong
    refine length_ne_of_not_short hlong h.short hs (hdata.symm.trans (by rw [h.data])) ?_
    rw [← hlen, h.len]
  · intro hshort
    exact ⟨cs ++ [comp], h.snoc hshort⟩

/-- A replay keeps the bookkeeping, unless its last sync fails and there were frames. -/
theorem WAL.Holds.good_replay {w : WAL} {cs : List Bytes} (h : w.Holds cs) (ρ : σ)
    (synced : Bool) :
    (w.replay K fn ρ synced).2.1.Good ↔ ¬ (LogCall.replay fn synced).Spoils K (w, ρ) := by
  rcases h.replay K fn ρ synced with ⟨e, w', he, hw', -, heq⟩ | ⟨-, heq⟩
  · simp only [LogCall.Spoils, heq]
    refine iff_of_true ⟨cs, hw'⟩ ?_
    rintro ⟨hsync, -⟩
    rcases deliver_error (he.trans hsync) with ⟨c, -, -, ⟨⟩⟩ | ⟨⟨⟩⟩ | ⟨_, ⟨⟩⟩
  · simp only [LogCall.Spoils, heq]
    cases synced with
    | true => exact iff_of_true ⟨[], rfl, rfl, by simp⟩ (by simp)
    | false =>
      simp only [Bool.false_eq_true, if_false, true_and, not_not]
      constructor
      · rintro ⟨ds, hdata, hlen, -⟩
        obtain rfl := wire_eq_nil.mp hdata.symm
        exact hlen
      · intro hzero
        exact ⟨[], rfl, hzero, by simp⟩

/-- **One call** keeps the bookkeeping exactly when it is not one of those that break it. -/
theorem WAL.Good.after {s : WAL × σ} (h : s.1.Good) (c : LogCall σ ε) :
    (c.after K s).1.Good ↔ ¬ c.Spoils K s := by
  obtain ⟨cs, hcs⟩ := h
  cases c with
  | write frame φ => exact hcs.good_write frame φ s.2
  | replay fn synced => exact hcs.good_replay s.2 synced
  | len => exact iff_of_true ⟨cs, hcs⟩ id

/-- **Bookkeeping under faults.**  Over any calls on an opened log, with writes cut short and syncs
failing: every state is a concatenation of frames with `Len` their number, and failed writes leave
the log alone, exactly when no replay of a log with frames fails in its last sync and no frame too
long for its length field is written. -/
theorem bookkeeping_iff (K : Codec) (data : Bytes) (maxBytes : Int) (ρ : σ)
    (calls : List (LogCall σ ε)) :
    let state (pre : List (LogCall σ ε)) := afterCalls K pre (openWithMaxSize data maxBytes, ρ)
    ((∀ pre post, calls = pre ++ post → (state pre).1.Good) ∧
        ∀ pre frame φ post, calls = pre ++ .write frame φ :: post →
          ((state pre).1.write K frame φ).1 ≠ none →
          ((state pre).1.write K frame φ).2.f.data = (state pre).1.f.data ∧
            ((state pre).1.write K frame φ).2.len = (state pre).1.len) ↔
      ∀ pre c post, calls = pre ++ c :: post → ¬ c.Spoils K (state pre) := by
  intro state
  have hsnoc : ∀ pre c, state (pre ++ [c]) = c.after K (state pre) := by
    simp [state, afterCalls]
  constructor
  · rintro ⟨hgood, -⟩ pre c post hcalls
    have hnext := hgood (pre ++ [c]) post (by simp [hcalls])
    rw [hsnoc] at hnext
    exact ((hgood pre (c :: post) hcalls).after c).mp hnext
  · intro hcond
    refine ⟨fun pre => ?_, fun pre frame φ post _ herr => write_failed herr⟩
    induction pre using List.reverseRecOn with
    | nil => exact fun _ _ => ⟨_, holds_open data maxBytes⟩
    | append_singleton pre c ih =>
      intro post hcalls
      rw [append_assoc] at hcalls
      rw [hsnoc]
      exact ((ih _ hcalls).after c).mpr (hcond pre c post hcalls)

end Calls

/-- One frame is written and replayed, and the last sync fails: the file is empty, and `Len` still
1. -/
theorem len_after_failed_sync :
    let calls : List (LogCall Unit Unit) :=
      [.write [1] noFaults, .replay (fun _ ρ => (none, ρ)) false]
    let s := afterCalls plain calls (openWithMaxSize [] 0, ())
    s.1.f.data = [] ∧ s.1.len = 1 ∧ ¬ s.1.Good := by
  have hholds : Holds ⟨⟨wire [[1]], 5⟩, 1, MaxSize⟩ [[1]] := ⟨rfl, rfl, by simp [Short]⟩
  have hwrite : (openWithMaxSize [] 0).write plain [1] noFaults =
      (none, ⟨⟨wire [[1]], 5⟩, 1, MaxSize⟩) := by
    rw [openWithMaxSize_nil]
    rfl
  obtain ⟨e, w', he, -⟩ | ⟨-, hreplay⟩ :=
    hholds.replay plain (fun _ ρ => ((none : Option Unit), ρ)) () false
  · cases he
  intro calls s
  have hs : s.1 = ⟨⟨[], 0⟩, 1, MaxSize⟩ := by
    simp only [s, calls, afterCalls, foldl_cons, foldl_nil, LogCall.after, hwrite,
      hreplay, Bool.false_eq_true, if_false]
  rw [hs]
  refine ⟨rfl, rfl, ?_⟩
  rintro ⟨cs, hdata, hlen, -⟩
  obtain rfl := wire_eq_nil.mp hdata.symm
  cases hlen

end Cios.Wal
