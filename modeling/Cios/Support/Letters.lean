import Cios.Support.Text

/-!
# Support — letter case

`strings.ToLower` and `strings.EqualFold` of the Go library over byte strings.  The tables of
Unicode that they read are left open (`Letters`); text in ASCII does not reach them.
-/

namespace Text
open List

/-- The lower case of a byte in ASCII. -/
def lowerByte (c : UInt8) : UInt8 := if isUpper c then c + 32 else c

def asciiLower (s : Bytes) : Bytes := s.map lowerByte

def isASCII (s : Bytes) : Bool := s.all (· < 0x80)

/-- The code points of a string; a byte that begins none stands for `U+FFFD`. -/
def runesFrom : Nat → Bytes → List Char
  | _, [] => []
  | n + 1, _ :: s => runesFrom n s
  | 0, c :: s =>
    match (ByteArray.mk (c :: s).toArray).utf8DecodeChar? 0 with
    | some r => r :: runesFrom (r.utf8Size - 1) s
    | none => '\uFFFD' :: runesFrom 0 s

/-- Unicode's tables: the lower case of a code point, and the next one that folds to the same. -/
structure Letters where
  lower : Char → Char
  simpleFold : Char → Char

namespace Letters

/-- Tables that no text in ASCII is looked up in. -/
def none : Letters := ⟨id, id⟩

variable (u : Letters)

/-- `strings.ToLower`. -/
def toLower (s : Bytes) : Bytes :=
  if isASCII s then asciiLower s
  else (runesFrom 0 s).flatMap fun r => String.utf8EncodeChar (u.lower r)

/-- Whether `t` is met on the way along the table from `r`, before `t` is passed or `s` met. -/
def meets (s t : Char) : Nat → Char → Bool
  | 0, r => r = t
  | n + 1, r => if r ≠ s ∧ r < t then meets s t n (u.simpleFold r) else r = t

/-- The comparison of two code points in `strings.EqualFold`. -/
def sameFold (a b : Char) : Bool :=
  let s := if a < b then a else b
  let t := if a < b then b else a
  s = t || if t < '\u0080' then s.isUpper && t.toNat = s.toNat + 32
    else u.meets s t t.toNat (u.simpleFold s)

/-- `strings.EqualFold`. -/
def equalFold (s t : Bytes) : Bool :=
  if isASCII s && isASCII t then asciiLower s = asciiLower t
  else (runesFrom 0 s).isEqv (runesFrom 0 t) u.sameFold

variable {u} {s : Bytes}

theorem toLower_eq_self (h : ∀ c ∈ s, c < 0x80 ∧ isUpper c = false) : u.toLower s = s := by
  have hascii : isASCII s = true := by
    rw [isASCII, all_eq_true]
    exact fun c hc => decide_eq_true (h c hc).1
  rw [toLower, if_pos hascii, asciiLower, map_congr_left fun c hc => ?_, map_id']
  rw [lowerByte, (h c hc).2]
  rfl

end Letters

end Text
