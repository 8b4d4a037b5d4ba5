import Mathlib.Algebra.Ring.Int.Defs
import Mathlib.Algebra.Ring.Nat
import Mathlib.Data.List.Infix
import Mathlib.Data.List.Lex
import Mathlib.Data.List.TakeWhile

/-!
# Support — byte strings

A string of the program under study is a sequence of bytes, and its comparisons, splits and trims
work byte by byte.  `Bytes` is that sequence as a list; a literal is read as its UTF-8 encoding
(`lit`, inserted as a coercion), so that a definition reads like the text it follows.

The searches used by parsers are here with the lemmas their users need.
-/

namespace Text
open List

abbrev Bytes := List UInt8

def lit (s : String) : Bytes := s.toUTF8.data.toList

instance coeString : Coe String Bytes := ⟨lit⟩

instance coeChar : Coe Char UInt8 := ⟨Char.toUInt8⟩

instance lawfulBEq : LawfulBEq Bytes := inferInstance

/-! ### Bytes -/

def isLower (c : UInt8) : Bool := ('a' : UInt8) ≤ c && c ≤ 'z'

def isUpper (c : UInt8) : Bool := ('A' : UInt8) ≤ c && c ≤ 'Z'

def isDigit (c : UInt8) : Bool := ('0' : UInt8) ≤ c && c ≤ '9'

theorem forall_byte {P : UInt8 → Prop} (h : ∀ i : Fin 256, P (.ofFin i)) (c : UInt8) : P c := by
  simpa using h c.toFin

def isAlnum (c : UInt8) : Bool := isLower c || isDigit c

/-! ### Search -/

def contains (sub : Bytes) : Bytes → Bool
  | [] => sub.isEmpty
  | c :: s => sub.isPrefixOf (c :: s) || contains sub s

theorem contains_iff {sub : Bytes} : ∀ {s : Bytes}, contains sub s = true ↔ sub <:+: s
  | [] => by cases sub <;> simp [contains]
  | c :: s => by
    simp only [contains, Bool.or_eq_true, isPrefixOf_iff_prefix, contains_iff (s := s),
      infix_cons_iff]

def cutSuffix (suf s : Bytes) : Option Bytes :=
  if suf.isSuffixOf s then some (s.take (s.length - suf.length)) else none

def cutPrefix (pre s : Bytes) : Option Bytes :=
  if pre.isPrefixOf s then some (s.drop pre.length) else none

theorem cutPrefix_eq_some {pre s r : Bytes} : cutPrefix pre s = some r ↔ s = pre ++ r := by
  simp only [cutPrefix, isPrefixOf_iff_prefix]
  constructor
  · intro h
    split at h
    · rename_i hp
      obtain ⟨t, rfl⟩ := hp
      simpa using h
    · cases h
  · rintro rfl
    simp

theorem cutSuffix_eq_some {suf s loc : Bytes} : cutSuffix suf s = some loc ↔ s = loc ++ suf := by
  simp only [cutSuffix, isSuffixOf_iff_suffix]
  constructor
  · intro h
    split at h
    · rename_i hs
      obtain ⟨u, rfl⟩ := hs
      simpa using h
    · cases h
  · rintro rfl
    simp

theorem forall_mem_of_all {P : UInt8 → Prop} [DecidablePred P] {l : Bytes}
    (h : (l.all fun c => decide (P c)) = true) : ∀ c ∈ l, P c := by
  simpa using h

theorem takeWhile_append_stop {p : UInt8 → Bool} {r : Bytes}
    (hr : ∀ c, r.head? = some c → p c = false) (l : Bytes) :
    (l ++ r).takeWhile p = l.takeWhile p ∧ (l ++ r).dropWhile p = l.dropWhile p ++ r := by
  induction l with
  | nil =>
    cases r with
    | nil => simp
    | cons c r => simp [hr c rfl]
  | cons d l ih => cases hd : p d <;> simp [hd, ih]

theorem takeWhile_run {p : UInt8 → Bool} {l r : Bytes} (hl : ∀ c ∈ l, p c = true)
    (hr : ∀ c, r.head? = some c → p c = false) :
    (l ++ r).takeWhile p = l ∧ (l ++ r).dropWhile p = r := by
  obtain ⟨h₁, h₂⟩ := takeWhile_append_stop hr l
  rw [h₁, h₂, takeWhile_eq_self_iff.mpr hl, dropWhile_eq_nil_iff.mpr hl]
  simp

/-! ### Numbers -/

def digits (s : Bytes) : Nat := s.foldl (fun n d => n * 10 + (d.toNat - 48)) 0

/-- A signed decimal that fits in 64 bits. -/
def atoi (s : Bytes) : Option Int :=
  let ds := if s.head? = some ('-' : UInt8) ∨ s.head? = some ('+' : UInt8) then s.tail else s
  if ds = [] ∨ !ds.all isDigit then none
  else if s.head? = some ('-' : UInt8) then
    if digits ds ≤ 2 ^ 63 then some (-(digits ds : Int)) else none
  else if digits ds < 2 ^ 63 then some (digits ds) else none

/-- An unsigned decimal below a bound. -/
def parseUint (bound : Nat) (s : Bytes) : Option Nat :=
  if s = [] ∨ !s.all isDigit then none
  else if digits s < bound then some (digits s) else none

/-! ### Trimming -/

/-- The white space of Unicode, as encoded: the ASCII ones, next line, no-break, ogham, en quad to
hair space, line and paragraph separators, narrow no-break, medium mathematical and ideographic
space. -/
def whiteSpace : List Bytes :=
  [[9], [10], [11], [12], [13], [32], [0xC2, 0x85], [0xC2, 0xA0], [0xE1, 0x9A, 0x80]] ++
  ([0x80, 0x81, 0x82, 0x83, 0x84, 0x85, 0x86, 0x87, 0x88, 0x89, 0x8A, 0xA8, 0xA9, 0xAF].map
    fun c => [0xE2, 0x80, c]) ++ [[0xE2, 0x81, 0x9F], [0xE3, 0x80, 0x80]]

/-- The string without the given leading parts, as long as it has one; at most `n` of them. -/
def stripAll (parts : List Bytes) : Nat → Bytes → Bytes
  | 0, s => s
  | n + 1, s =>
    match parts.findSome? fun w => cutPrefix w s with
    | some r => stripAll parts n r
    | none => s

/-- The string without leading and trailing white space. -/
def trimSpace (s : Bytes) : Bytes :=
  let l := stripAll whiteSpace s.length s
  (stripAll (whiteSpace.map List.reverse) l.length l.reverse).reverse

/-- The words of a string between its white space, after the word read so far; of at most `n`
bytes. -/
def fieldsFrom : Nat → Bytes → Bytes → List Bytes
  | 0, word, _ => if word = [] then [] else [word]
  | _ + 1, word, [] => if word = [] then [] else [word]
  | n + 1, word, c :: s =>
    match whiteSpace.findSome? fun w => cutPrefix w (c :: s) with
    | some r => (if word = [] then [] else [word]) ++ fieldsFrom n [] r
    | none => fieldsFrom n (word ++ [c]) s

def fields (s : Bytes) : List Bytes := fieldsFrom s.length [] s

example : fields (lit " viewer\t operator ") = [lit "viewer", lit "operator"] := by decide

/-! ### Splitting at a separator -/

/-- The pieces of a string between the occurrences of a separator byte. -/
abbrev split (sep : UInt8) (s : Bytes) : List Bytes := s.splitOn sep

theorem splitOn_self (a : UInt8) (s : Bytes) : split a (a :: s) = [] :: split a s :=
  splitOn_append_cons_self [] s

theorem split_append_cons (a : UInt8) (t s : Bytes) :
    split a (s ++ a :: t) = split a s ++ split a t :=
  splitOn_append_cons_self s t

/-- Induction along a split: a separator begins a piece, any other byte goes to the first one. -/
theorem split_induction {a : UInt8} {P : Bytes → List Bytes → Prop} (nil : P [] [[]])
    (sep : ∀ s ps, P s ps → P (a :: s) ([] :: ps))
    (other : ∀ c s p ps, c ≠ a → P s (p :: ps) → P (c :: s) ((c :: p) :: ps)) :
    ∀ s, P s (split a s)
  | [] => nil
  | c :: s => by
    have ih := split_induction nil sep other s
    obtain ⟨p, ps, e⟩ := exists_cons_of_ne_nil (splitOn_ne_nil a s)
    rw [split, splitOn_cons_eq_if_modifyHead, e]
    rw [split, e] at ih
    split
    · next h => exact eq_of_beq h ▸ sep s _ ih
    · next h => exact other c s p ps (by simpa using h) ih

theorem not_mem_of_mem_splitOn {a : UInt8} {s p : Bytes} (h : p ∈ split a s) : a ∉ p := by
  refine split_induction (P := fun _ ps => ∀ p ∈ ps, a ∉ p) ?_ ?_ ?_ s p h
  · simp
  · simp
  · simp +contextual [eq_comm]

theorem mem_of_mem_splitOn {a : UInt8} {s p : Bytes} (h : p ∈ split a s) : p ⊆ s := by
  refine split_induction (P := fun s ps => ∀ p ∈ ps, p ⊆ s) ?_ ?_ ?_ s p h
  · simp
  · intro s ps
    simpa using fun h p hp => subset_cons_of_subset a (h p hp)
  · intro c s p ps _
    simpa using fun h hs =>
      ⟨subset_cons_of_subset c h, fun p hp => subset_cons_of_subset c (hs p hp)⟩

theorem exists_mem_splitOn {a b : UInt8} {s : Bytes} (h : b ∈ s) (hb : b ≠ a) :
    ∃ p ∈ split a s, b ∈ p := by
  refine split_induction (P := fun s ps => b ∈ s → ∃ p ∈ ps, b ∈ p) ?_ ?_ ?_ s h
  · simp
  · simp [hb]
  · intro c s p ps _ ih
    simpa [or_assoc] using Or.imp_right (a := b = c) (by simpa using ih)

theorem join_segments (sep : UInt8) (first : Bytes) : ∀ rest : List Bytes,
    first ++ (rest.map (sep :: ·)).flatten = [sep].intercalate (first :: rest)
  | [] => by simp
  | s :: rest => by
    rw [intercalate_cons_cons, ← join_segments sep s rest]
    simp

/-- What stands before the first separator, and what after it. -/
theorem append_sep_inj {a : UInt8} {s s' t t' : Bytes} (hs : a ∉ s) (hs' : a ∉ s')
    (h : s ++ [a] ++ t = s' ++ [a] ++ t') : s = s' ∧ t = t' := by
  rw [append_assoc, append_assoc] at h
  have hsplit := congrArg (split a) h
  rw [split, split, singleton_append, singleton_append, splitOn_append_cons_self_of_not_mem hs,
    splitOn_append_cons_self_of_not_mem hs'] at hsplit
  obtain rfl := (cons.inj hsplit).1
  exact ⟨rfl, (cons.inj (append_cancel_left h)).2⟩

/-- **Empty pieces.**  A split has one exactly when the string is empty, begins or ends with the
separator, or has it twice in a row. -/
theorem nil_mem_splitOn {a : UInt8} {s : Bytes} :
    [] ∈ split a s ↔ s = [] ∨ s.head? = some a ∨ s.getLast? = some a ∨ [a, a] <:+: s := by
  -- Of the pieces after the first one the same holds, without the first two cases.
  refine (split_induction (P := fun s ps =>
    ([] ∈ ps ↔ s = [] ∨ s.head? = some a ∨ s.getLast? = some a ∨ [a, a] <:+: s) ∧
      ([] ∈ ps.tail ↔ s.getLast? = some a ∨ [a, a] <:+: s)) ?_ ?_ ?_ s).1
  · simp
  · rintro s ps ⟨hall, -⟩
    refine ⟨by simp, ?_⟩
    rw [tail_cons, hall, infix_cons_iff]
    cases s with
    | nil => simp
    | cons d s => simp [getLast?_cons_cons, eq_comm, or_left_comm]
  · rintro c s p ps hc ⟨-, htail⟩
    have hlast : (c :: s).getLast? = some a ↔ s.getLast? = some a := by
      cases s <;> simp [hc]
    rw [tail_cons] at htail
    simp [infix_cons_iff, htail, hlast, hc, Ne.symm hc]

end Text
