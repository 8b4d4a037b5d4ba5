import Cios.Support.Text

/-!
# Support — query strings

The query strings of URLs, as the library reads and writes them: pairs between ampersands, escaped
byte by byte.  A pair with a semicolon or a bad escape is dropped.  What is written reads back
(`parseQuery_encode`).
-/

namespace Url
open Text List

/-! ### Escapes -/

def hexValue (c : UInt8) : Option UInt8 :=
  if isDigit c then some (c - '0')
  else if ('a' : UInt8) ≤ c ∧ c ≤ 'f' then some (c - 'a' + 10)
  else if ('A' : UInt8) ≤ c ∧ c ≤ 'F' then some (c - 'A' + 10)
  else none

def hexByte (a b : UInt8) : Option UInt8 :=
  match hexValue a, hexValue b with
  | some x, some y => some (x * 16 + y)
  | _, _ => none

/-- In a query component, a plus is a space. -/
def unescape (plus : Bool) : Bytes → Option Bytes
  | [] => some []
  | c :: s =>
    if c = '%' then
      match s with
      | a :: b :: r =>
        match hexByte a b with
        | some x => (unescape plus r).map (x :: ·)
        | none => none
      | _ => none
    else (unescape plus s).map ((if c = '+' && plus then (' ' : UInt8) else c) :: ·)

def isUnreserved (c : UInt8) : Bool :=
  isLower c || isUpper c || isDigit c || c = '-' || c = '_' || c = '.' || c = '~'

def hexDigit (n : UInt8) : UInt8 := if n < 10 then n + '0' else n - 10 + 'A'

def escapeByte (c : UInt8) : Bytes :=
  if isUnreserved c then [c]
  else if c = ' ' then "+"
  else [('%' : UInt8), hexDigit (c / 16), hexDigit (c % 16)]

def escape (s : Bytes) : Bytes := s.flatMap escapeByte

/-! ### Pairs -/

/-- The text before a separator and the text after it. -/
def cut (sep : UInt8) (s : Bytes) : Bytes × Bytes :=
  (s.takeWhile (· != sep), (s.dropWhile (· != sep)).drop 1)

def parsePair (s : Bytes) : Option (Bytes × Bytes) :=
  if s = [] ∨ (';' : UInt8) ∈ s then none
  else match unescape true (cut '=' s).1, unescape true (cut '=' s).2 with
    | some k, some v => some (k, v)
    | _, _ => none

/-- The pairs of a query string. -/
def parseQuery (s : Bytes) : List (Bytes × Bytes) := (split '&' s).filterMap parsePair

variable (kvs : List (Bytes × Bytes))

def get (key : Bytes) : Bytes :=
  match kvs.find? fun kv => kv.1 = key with
  | some kv => kv.2
  | none => []

theorem get_filterMap {f : Bytes → Bytes} {p : Bytes → Bool} (key : Bytes) (keys : List Bytes) :
    get (keys.filterMap fun k => if p k then some (k, f k) else none) key =
      if key ∈ keys ∧ p key = true then f key else [] := by
  induction keys with
  | nil => simp [get]
  | cons k keys ih =>
    by_cases hk : k = key
    · subst hk
      cases hp : p k <;> simp_all [get]
    · cases hp : p k <;> simp_all [get, Ne.symm hk]

def encodePair (kv : Bytes × Bytes) : Bytes := escape kv.1 ++ ('=' : UInt8) :: escape kv.2

def encode : Bytes :=
  [('&' : UInt8)].intercalate (kvs.map encodePair)

/-! ### What is written reads back -/

theorem unescape_hex {plus : Bool} {a b x : UInt8} (h : hexByte a b = some x) (r : Bytes) :
    unescape plus (('%' : UInt8) :: a :: b :: r) = (unescape plus r).map (x :: ·) := by
  rw [unescape.eq_def]
  simp [h]

theorem unescape_other {plus : Bool} {c : UInt8} (h : c ≠ '%') (r : Bytes) :
    unescape plus (c :: r) =
      (unescape plus r).map ((if c = '+' && plus then (' ' : UInt8) else c) :: ·) := by
  rw [unescape.eq_def]
  simp [h]

theorem hexByte_hexDigit : ∀ c : UInt8, hexByte (hexDigit (c / 16)) (hexDigit (c % 16)) = some c :=
  forall_byte (by decide +kernel)

theorem isUnreserved_facts : ∀ c : UInt8, isUnreserved c = true → c ≠ '%' ∧ c ≠ '+' :=
  forall_byte (by decide +kernel)

theorem unescape_escapeByte (c : UInt8) (r : Bytes) :
    unescape true (escapeByte c ++ r) = (unescape true r).map (c :: ·) := by
  rw [escapeByte]
  split_ifs with hu hs
  · obtain ⟨hp, hplus⟩ := isUnreserved_facts c hu
    rw [singleton_append, unescape_other hp]
    simp [hplus]
  · subst hs
    exact unescape_other (by decide) r
  · exact unescape_hex (hexByte_hexDigit c) r

theorem unescape_escape (s : Bytes) : unescape true (escape s) = some s := by
  induction s with
  | nil => rfl
  | cons c s ih => rw [escape, flatMap_cons, unescape_escapeByte, ← escape, ih]; rfl

theorem escapeByte_clean : ∀ c : UInt8,
    (escapeByte c).all (fun d => d != '&' && d != '=' && d != ';') = true :=
  forall_byte (by decide +kernel)

theorem escape_clean {s : Bytes} {d : UInt8} (h : d ∈ escape s) : d ≠ '&' ∧ d ≠ '=' ∧ d ≠ ';' := by
  obtain ⟨c, -, hd⟩ := mem_flatMap.mp h
  have := all_eq_true.mp (escapeByte_clean c) d hd
  simpa [and_assoc] using this

theorem cut_encodePair (kv : Bytes × Bytes) :
    cut '=' (encodePair kv) = (escape kv.1, escape kv.2) := by
  obtain ⟨h₁, h₂⟩ := takeWhile_run (p := (· != ('=' : UInt8))) (l := escape kv.1)
    (r := ('=' : UInt8) :: escape kv.2) (fun d hd => by simpa using (escape_clean hd).2.1)
    (fun d hd => by cases hd; decide)
  rw [cut, encodePair, h₁, h₂]
  rfl

theorem encodePair_clean {kv : Bytes × Bytes} {d : UInt8} (h : d ∈ encodePair kv) :
    d ≠ '&' ∧ d ≠ ';' := by
  rcases mem_append.mp h with h | h
  · exact ⟨(escape_clean h).1, (escape_clean h).2.2⟩
  rcases mem_cons.mp h with rfl | h
  · decide
  · exact ⟨(escape_clean h).1, (escape_clean h).2.2⟩

theorem parsePair_encodePair (kv : Bytes × Bytes) : parsePair (encodePair kv) = some kv := by
  have hclean : ¬(encodePair kv = [] ∨ (';' : UInt8) ∈ encodePair kv) := by
    rintro (h | h)
    · simp [encodePair] at h
    · exact (encodePair_clean h).2 rfl
  rw [parsePair, if_neg hclean, cut_encodePair, unescape_escape, unescape_escape]

theorem parseQuery_encode : parseQuery (encode kvs) = kvs := by
  cases kvs with
  | nil => rfl
  | cons kv kvs =>
    have hamp : ∀ p ∈ (kv :: kvs).map encodePair, ('&' : UInt8) ∉ p := by
      intro p hp h
      obtain ⟨kv', -, rfl⟩ := mem_map.mp hp
      exact (encodePair_clean h).1 rfl
    rw [parseQuery, encode, split, splitOn_intercalate _ hamp (by simp), filterMap_map]
    simp [parsePair_encodePair]

end Url
