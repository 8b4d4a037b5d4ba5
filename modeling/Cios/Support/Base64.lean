import Cios.Support.Text

/-!
# Support — base64url

The unpadded base64url encoding and a decoder that accepts more than the encoder writes: it skips
carriage returns and line feeds, and does not look at the bits of the last digit that no byte needs.
What is encoded is read back (`decode_encode`), and a string that is read is the encoding of what it
is read as exactly when it is spelled canonically (`encode_eq_iff`).
-/

namespace Base64
open Text List Option

/-! ### Digits -/

def alphabet : Bytes := "ABCDEFGHIJKLMNOPQRSTUVWXYZabcdefghijklmnopqrstuvwxyz0123456789-_"

def digit (n : Nat) : UInt8 := alphabet.getD n 0

def value (c : UInt8) : Option Nat := alphabet.idxOf? c

variable {n : Nat}

theorem value_digit (h : n < 64) : value (digit n) = some n := by
  have hall : ∀ i : Fin 64, value (digit i) = some i.1 := by decide +kernel
  exact hall ⟨n, h⟩

theorem digit_value {c : UInt8} (h : value c = some n) : n < 64 ∧ digit n = c := by
  obtain ⟨hn, hc, -⟩ := findIdx?_eq_some_iff_getElem.mp h
  refine ⟨hn, ?_⟩
  rw [digit, getD_eq_getElem?_getD, getElem?_eq_getElem hn, getD_some]
  exact eq_of_beq hc

/-- A line break, which the decoder skips. -/
def lineBreak (c : UInt8) : Bool := c = '\r' || c = '\n'

theorem digit_ne (h : n < 64) : lineBreak (digit n) = false ∧ digit n ≠ '.' := by
  have hall : ∀ i : Fin 64, lineBreak (digit i) = false ∧ digit i ≠ '.' := by decide +kernel
  exact hall ⟨n, h⟩

/-! ### Bytes -/

/-- Four digits to three bytes; two or three digits at the end make one or two. -/
def pack : List Nat → Option Bytes
  | [] => some []
  | [_] => none
  | [a, b] => some [.ofNat (a * 4 + b / 16)]
  | [a, b, c] => some [.ofNat (a * 4 + b / 16), .ofNat (b % 16 * 16 + c / 4)]
  | a :: b :: c :: d :: rest => (pack rest).map fun bytes =>
    .ofNat (a * 4 + b / 16) :: .ofNat (b % 16 * 16 + c / 4) :: .ofNat (c % 4 * 64 + d) :: bytes

def unpack : Bytes → List Nat
  | [] => []
  | [x] => [x.toNat / 4, x.toNat % 4 * 16]
  | [x, y] => [x.toNat / 4, x.toNat % 4 * 16 + y.toNat / 16, y.toNat % 16 * 4]
  | x :: y :: z :: rest => x.toNat / 4 :: (x.toNat % 4 * 16 + y.toNat / 16) ::
      (y.toNat % 16 * 4 + z.toNat / 64) :: z.toNat % 64 :: unpack rest

/-- The bits that no byte needs are zero. -/
def spare : List Nat → Bool
  | [_, b] => b % 16 = 0
  | [_, _, c] => c % 4 = 0
  | _ :: _ :: _ :: _ :: rest => spare rest
  | _ => true

variable (bytes : Bytes)

theorem unpack_lt : ∀ n ∈ unpack bytes, n < 64 := by
  induction bytes using unpack.induct with
  | case1 => simp [unpack]
  | case2 x =>
    have hx := x.toNat_lt
    simp only [unpack, forall_mem_cons]
    exact ⟨by omega, by omega, by simp⟩
  | case3 x y =>
    have hx := x.toNat_lt
    have hy := y.toNat_lt
    simp only [unpack, forall_mem_cons]
    exact ⟨by omega, by omega, by omega, by simp⟩
  | case4 x y z rest ih =>
    have hx := x.toNat_lt
    have hy := y.toNat_lt
    have hz := z.toNat_lt
    simp only [unpack, forall_mem_cons]
    exact ⟨by omega, by omega, by omega, by omega, ih⟩

theorem ofNat_eq {x : UInt8} (h : n = x.toNat) : UInt8.ofNat n = x := by
  rw [h, UInt8.ofNat_toNat]

theorem pack_unpack : pack (unpack bytes) = some bytes := by
  induction bytes using unpack.induct with
  | case1 => rfl
  | case2 x =>
    simp only [unpack, pack, some.injEq, List.cons.injEq, and_true]
    exact ofNat_eq (by omega)
  | case3 x y =>
    have hy := y.toNat_lt
    simp only [unpack, pack, some.injEq, List.cons.injEq, and_true]
    exact ⟨ofNat_eq (by omega), ofNat_eq (by omega)⟩
  | case4 x y z rest ih =>
    have hy := y.toNat_lt
    have hz := z.toNat_lt
    simp only [unpack, pack, ih, map_some, some.injEq, List.cons.injEq, and_true]
    exact ⟨ofNat_eq (by omega), ofNat_eq (by omega), ofNat_eq (by omega)⟩

theorem toNat_ofNat (h : n < 256) : (UInt8.ofNat n).toNat = n := by
  rw [UInt8.toNat_ofNat', Nat.mod_eq_of_lt h]

variable {ns : List Nat}

theorem unpack_eq_iff {bytes : Bytes} (h : pack ns = some bytes) (hlt : ∀ n ∈ ns, n < 64) :
    unpack bytes = ns ↔ spare ns = true := by
  induction ns using pack.induct generalizing bytes with
  | case1 =>
    cases h
    simp [unpack, spare]
  | case2 a => cases h
  | case3 a b =>
    cases h
    have ha := hlt a (by simp)
    have hb := hlt b (by simp)
    simp only [unpack, spare, List.cons.injEq, and_true, decide_eq_true_eq]
    rw [toNat_ofNat (by omega)]
    omega
  | case4 a b c =>
    cases h
    have ha := hlt a (by simp)
    have hb := hlt b (by simp)
    have hc := hlt c (by simp)
    simp only [unpack, spare, List.cons.injEq, and_true, decide_eq_true_eq]
    rw [toNat_ofNat (by omega), toNat_ofNat (by omega)]
    omega
  | case5 a b c d rest ih =>
    obtain ⟨more, hmore, rfl⟩ := map_eq_some_iff.mp h
    have ha := hlt a (by simp)
    have hb := hlt b (by simp)
    have hc := hlt c (by simp)
    have hd := hlt d (by simp)
    have hrest := ih hmore fun n hn => hlt n (by simp [hn])
    simp only [unpack, spare, List.cons.injEq]
    rw [toNat_ofNat (by omega), toNat_ofNat (by omega), toNat_ofNat (by omega), hrest]
    have h₁ : (a * 4 + b / 16) / 4 = a := by omega
    have h₂ : (a * 4 + b / 16) % 4 * 16 + (b % 16 * 16 + c / 4) / 16 = b := by omega
    have h₃ : (b % 16 * 16 + c / 4) % 16 * 4 + (c % 4 * 64 + d) / 64 = c := by omega
    have h₄ : (c % 4 * 64 + d) % 64 = d := by omega
    simp only [h₁, h₂, h₃, h₄, true_and]

/-! ### Strings -/

def encode : Bytes := (unpack bytes).map digit

def decode (s : Bytes) : Option Bytes := ((s.filter (!lineBreak ·)).mapM value).bind pack

theorem dot_not_mem_encode : ('.' : UInt8) ∉ encode bytes := by
  intro h
  obtain ⟨n, hn, e⟩ := mem_map.mp h
  exact (digit_ne (unpack_lt bytes n hn)).2 e

theorem mapM_value_digit (h : ∀ n ∈ ns, n < 64) :
    (ns.map digit).mapM value = some ns := by
  induction ns with
  | nil => rfl
  | cons n ns ih =>
    rw [forall_mem_cons] at h
    simp [value_digit h.1, ih h.2]

theorem filter_encode : (encode bytes).filter (!lineBreak ·) = encode bytes := by
  rw [filter_eq_self]
  intro c hc
  obtain ⟨n, hn, rfl⟩ := mem_map.mp hc
  rw [(digit_ne (unpack_lt bytes n hn)).1]
  rfl

theorem decode_encode : decode (encode bytes) = some bytes := by
  rw [decode, filter_encode, encode, mapM_value_digit (unpack_lt bytes), bind_some,
    pack_unpack]

theorem decode_append_lineBreak {s : Bytes} {c : UInt8} (h : lineBreak c = true) :
    decode (s ++ [c]) = decode s := by
  simp [decode, h]

/-- Spelled as the encoder does: without line breaks or anything in the bits no byte needs. -/
def Canonical (s : Bytes) : Prop :=
  (∀ c ∈ s, lineBreak c = false) ∧ spare (s.filterMap value) = true

theorem mapM_value {s : Bytes} (h : s.mapM value = some ns) :
    s = ns.map digit ∧ s.filterMap value = ns ∧ ∀ n ∈ ns, n < 64 := by
  induction s generalizing ns with
  | nil =>
    cases h
    simp
  | cons c s ih =>
    rw [mapM_cons] at h
    obtain ⟨n, hn, h⟩ := bind_eq_some_iff.mp h
    obtain ⟨rest, hrest, h⟩ := bind_eq_some_iff.mp h
    cases h
    obtain ⟨hs, hf, hlt⟩ := ih hrest
    obtain ⟨hn', hc⟩ := digit_value hn
    refine ⟨by rw [map_cons, hc, ← hs], ?_, forall_mem_cons.mpr ⟨hn', hlt⟩⟩
    rw [filterMap_cons_some hn, hf]

theorem encode_eq_iff {s bytes : Bytes} (h : decode s = some bytes) :
    encode bytes = s ↔ Canonical s := by
  obtain ⟨ns, hns, hpack⟩ := bind_eq_some_iff.mp h
  constructor
  · rintro rfl
    rw [filter_encode] at hns
    obtain ⟨-, hf, hlt⟩ := mapM_value hns
    refine ⟨?_, ?_⟩
    · intro c hc
      rw [← filter_encode] at hc
      simpa using (mem_filter.mp hc).2
    · rw [hf, ← unpack_eq_iff hpack hlt]
      have hdigits := mapM_value_digit (unpack_lt bytes)
      rw [← encode, hns] at hdigits
      exact (some.inj hdigits).symm
  · rintro ⟨hbreak, hspare⟩
    have hfilter : s.filter (!lineBreak ·) = s := by
      rw [filter_eq_self]
      intro c hc
      rw [hbreak c hc]
      rfl
    rw [hfilter] at hns
    obtain ⟨hs, hf, hlt⟩ := mapM_value hns
    rw [hf] at hspare
    rw [encode, (unpack_eq_iff hpack hlt).mpr hspare, ← hs]

end Base64
