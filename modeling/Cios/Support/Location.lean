import Cios.Support.UrlParse
import Mathlib.Data.List.DropRight

/-!
# Support — locations

What becomes of a URL that a server redirects to: the library cleans its path if it is relative
(`redirect`) and writes it into a header (`headerValue`); the browser strips and parses it by the
URL standard against the page's own URL (`originOf`).  The standard reads a backslash as a slash and
drops tabs and line breaks; the library does neither.
-/

namespace Location
open Text Url List

/-! ### Cleaning a path -/

/-- One segment of a path, on those before it, the last one first. -/
def pushSegment (rooted : Bool) (stack : List Bytes) (seg : Bytes) : List Bytes :=
  if seg = [] ∨ seg = "." then stack
  else if seg = ".." then
    match stack with
    | [] => if rooted then [] else [seg]
    | top :: rest => if top = ".." then seg :: stack else rest
  else seg :: stack

def cleanSegments (rooted : Bool) (p : Bytes) : List Bytes :=
  ((split '/' p).foldl (pushSegment rooted) []).reverse

def clean (p : Bytes) : Bytes :=
  let rooted := p.head? = some ('/' : UInt8)
  let body := (lit "/").intercalate (cleanSegments rooted p)
  if rooted then ('/' : UInt8) :: body else if body = [] then "." else body

example : clean (lit "/a/./../\\evil//b/") = lit "/\\evil/b" := by decide

/-! ### The server -/

def dirOf (p : Bytes) : Bytes := p.rdropWhile (· != ('/' : UInt8))

/-- The text from a separator on. -/
def fromByte (sep : UInt8) (s : Bytes) : Bytes := s.dropWhile (· != sep)

def endsInSlash (s : Bytes) : Bool := s.getLast? = some ('/' : UInt8)

def cleanKeepingSlash (p : Bytes) : Bytes :=
  if endsInSlash p && !endsInSlash (clean p) then clean p ++ lit "/" else clean p

def lowerHex (n : UInt8) : UInt8 := if n < 10 then n + '0' else n - 10 + 'a'

def hexEscapeNonASCII (s : Bytes) : Bytes :=
  s.flatMap fun c => if c < 0x80 then [c] else [('%' : UInt8), lowerHex (c / 16), lowerHex (c % 16)]

variable (authority : Bytes → Option Bytes)

/-- Whether a URL parses and has neither a scheme nor a host. -/
def isRelative (url : Bytes) : Bool :=
  match Url.parse authority url with
  | none => false
  | some u => u.scheme = [] && u.host = []

/-- A relative URL from a request's path: the path is cleaned, and the query is left as it is. -/
def cleanLocation (requestPath url : Bytes) : Bytes :=
  let dir := if requestPath = [] then lit "/" else dirOf requestPath
  let url := if url.head? = some ('/' : UInt8) then url else dir ++ url
  cleanKeepingSlash (cut '?' url).1 ++ fromByte '?' url

/-- What `http.Redirect` sets as the location. -/
def redirect (requestPath url : Bytes) : Bytes :=
  hexEscapeNonASCII (if isRelative authority url then cleanLocation requestPath url else url)

def isASCIISpace (c : UInt8) : Bool := c = ' ' || c = '\t' || c = '\n' || c = '\r'

/-- A header value as it is written: line breaks are spaces, and spaces at the ends are gone. -/
def headerValue (v : Bytes) : Bytes :=
  ((v.map fun c : UInt8 => if c = '\n' || c = '\r' then (' ' : UInt8) else c).dropWhile
    isASCIISpace).rdropWhile isASCIISpace

/-! ### The browser -/

def isSlash (c : UInt8) : Bool := c = '/' || c = '\\'

def isC0OrSpace (c : UInt8) : Bool := c ≤ 0x20

def isTabOrNewline (c : UInt8) : Bool := c = '\t' || c = '\n' || c = '\r'

/-- What is parsed of an input. -/
def stripped (s : Bytes) : Bytes :=
  ((s.dropWhile isC0OrSpace).rdropWhile isC0OrSpace).filter (!isTabOrNewline ·)

def hasScheme (s : Bytes) : Bool :=
  match s with
  | [] => false
  | c :: _ =>
    (isLower c || isUpper c) && (s.dropWhile schemeByte).head? = some (':' : UInt8)

/-- The authority behind two slashes of either kind, and all that follow them. -/
def authorityOf (rest : Bytes) : Bytes :=
  (rest.dropWhile isSlash).takeWhile fun c => !isSlash c && c != '?' && c != '#'

/-- The origin a location leads to from a page at `own`. -/
def originOf {O : Type} (own : O) (authority absolute : Bytes → Option O) (input : Bytes) :
    Option O :=
  let s := stripped input
  if hasScheme s then absolute s
  else match s with
    | c :: d :: rest => if isSlash c && isSlash d then authority (authorityOf rest) else some own
    | _ => some own

/-- The location that is sent for a redirect. -/
def location (requestPath url : Bytes) : Bytes :=
  headerValue (redirect authority requestPath url)

/-! ### Staying at the origin -/

theorem rdropWhile_cons_neg {p : UInt8 → Bool} {a : UInt8} (h : p a = false) (t : Bytes) :
    (a :: t).rdropWhile p = a :: t.rdropWhile p := by
  rw [rdropWhile, rdropWhile, reverse_cons, dropWhile_append]
  split <;> simp_all

theorem stripped_slash (t : Bytes) : stripped (('/' : UInt8) :: t) =
    ('/' : UInt8) :: (t.rdropWhile isC0OrSpace).filter (!isTabOrNewline ·) := by
  have hdrop : (('/' : UInt8) :: t).dropWhile isC0OrSpace = ('/' : UInt8) :: t := by
    simp [show isC0OrSpace '/' = false by decide]
  rw [stripped, hdrop, rdropWhile_cons_neg (by decide),
    filter_cons_of_pos (p := (!isTabOrNewline ·)) (by decide)]

/-- What `http.Redirect` makes of a rooted URL: one that parses is cleaned up to its query. -/
def sentFor (url : Bytes) : Bytes :=
  if isRelative authority url then cleanKeepingSlash (cut '?' url).1 ++ fromByte '?' url else url

def notTab (c : UInt8) : Bool := c ≠ '\t'

/-- Whether the first byte behind the slash, tabs apart, is a slash or a backslash. -/
def escapes (url : Bytes) : Bool := ((sentFor authority url).tail.find? notTab).any isSlash

/-- The authority that is read in a URL that escapes. -/
def authorityIn (url : Bytes) : Bytes :=
  authorityOf ((stripped (location authority [] url)).drop 2)

section First
variable {d : UInt8}

theorem find_rdropWhile {p q : UInt8 → Bool} (hd : p d = false) (t : Bytes) :
    (t.rdropWhile p).find? q = some d ↔ t.find? q = some d := by
  induction t using reverseRecOn with
  | nil => simp
  | append_singleton t a ih =>
    by_cases ha : p a = true
    · -- what is dropped is not `d`
      have hlast : [a].find? q ≠ some d := by
        intro h
        rw [mem_singleton.mp (mem_of_find?_eq_some h), ha] at hd
        cases hd
      rw [rdropWhile_concat_pos p t a ha, ih, find?_append]
      cases t.find? q with
      | none => simpa using hlast
      | some c => simp
    · rw [rdropWhile_concat_neg p t a ha]

theorem slash_visible : ∀ d : UInt8, isSlash d = true →
    d < 0x80 ∧ isC0OrSpace d = false ∧ isASCIISpace d = false ∧ d ≠ '%' ∧ d ≠ ' ' :=
  forall_byte (by decide +kernel)

theorem find_hexEscape (hd : isSlash d = true) (t : Bytes) :
    (hexEscapeNonASCII t).find? notTab = some d ↔ t.find? notTab = some d := by
  obtain ⟨hascii, -, -, hpercent, -⟩ := slash_visible d hd
  induction t with
  | nil => rfl
  | cons c t ih =>
    rw [hexEscapeNonASCII, flatMap_cons]
    by_cases hc : c < 0x80
    · rw [if_pos hc, singleton_append, find?_cons, find?_cons]
      cases notTab c with
      | true => rfl
      | false => exact ih
    · have htab : notTab c = true := by
        rw [notTab, decide_eq_true_eq]
        rintro rfl
        exact hc (by decide)
      have hne : c ≠ d := fun e => hc (e ▸ hascii)
      simp [hc, htab, hne, hpercent.symm, show notTab '%' = true by decide]

theorem find_breaks (hd : isSlash d = true) (t : Bytes) :
    (t.map fun c : UInt8 => if c = '\n' || c = '\r' then (' ' : UInt8) else c).find?
      (!isTabOrNewline ·) = some d ↔ t.find? notTab = some d := by
  obtain ⟨-, -, -, -, hspace⟩ := slash_visible d hd
  induction t with
  | nil => rfl
  | cons c t ih =>
    rw [map_cons, find?_cons, find?_cons]
    by_cases hbreak : (c = '\n' || c = '\r') = true
    · have htab : notTab c = true := by
        rcases Bool.or_eq_true_iff.mp hbreak with h | h <;> rw [of_decide_eq_true h] <;> decide
      have hne : c ≠ d := by
        rintro rfl
        rcases Bool.or_eq_true_iff.mp hbreak with h | h <;> rw [of_decide_eq_true h] at hd <;>
          exact absurd hd (by decide)
      simp [hbreak, htab, hne, hspace.symm, show isTabOrNewline ' ' = false by decide]
    · have htab : (!isTabOrNewline c) = notTab c := by
        obtain ⟨hn, hr⟩ : c ≠ '\n' ∧ c ≠ '\r' := by simpa using hbreak
        simp [isTabOrNewline, notTab, hn, hr]
      rw [if_neg hbreak, htab]
      cases notTab c with
      | true => rfl
      | false => exact ih

/-- The browser's second byte is the first one behind the slash that is no tab. -/
theorem second_slash (hd : isSlash d = true) (t : Bytes) :
    ∃ rest, stripped (headerValue (hexEscapeNonASCII (('/' : UInt8) :: t))) =
      ('/' : UInt8) :: rest ∧
      (rest.head? = some d ↔ t.find? notTab = some d) := by
  obtain ⟨-, hc0, hspace, -, -⟩ := slash_visible d hd
  have hvalue : headerValue (hexEscapeNonASCII (('/' : UInt8) :: t)) = ('/' : UInt8) ::
      ((hexEscapeNonASCII t).map fun c : UInt8 =>
        if c = '\n' || c = '\r' then (' ' : UInt8) else c).rdropWhile isASCIISpace :=
    rdropWhile_cons_neg (by decide) _
  rw [hvalue, stripped_slash]
  refine ⟨_, rfl, ?_⟩
  rw [head?_filter, find_rdropWhile hc0, find_rdropWhile hspace, find_breaks hd, find_hexEscape hd]

end First

theorem sentFor_slash (t : Bytes) :
    ∃ t', sentFor authority (('/' : UInt8) :: t) = ('/' : UInt8) :: t' := by
  have hcut : (cut '?' (('/' : UInt8) :: t)).1.head? = some ('/' : UInt8) := rfl
  unfold sentFor cleanKeepingSlash clean
  rw [hcut]
  split_ifs <;> exact ⟨_, rfl⟩

theorem location_slash (requestPath t : Bytes) :
    location authority requestPath (('/' : UInt8) :: t) =
    headerValue (hexEscapeNonASCII (sentFor authority (('/' : UInt8) :: t))) := by
  simp [location, redirect, sentFor, cleanLocation]

/-- **A rooted URL leads elsewhere only by the authority in it, if it escapes.** -/
theorem originOf_location {O : Type} {own : O} {browser absolute : Bytes → Option O}
    (requestPath t : Bytes) :
    originOf own browser absolute (location authority requestPath (('/' : UInt8) :: t)) = some own ↔
      (escapes authority (('/' : UInt8) :: t) = true →
        browser (authorityIn authority (('/' : UInt8) :: t)) = some own) := by
  obtain ⟨t', ht⟩ := sentFor_slash authority t
  rw [authorityIn, location_slash, location_slash, escapes, ht, tail_cons]
  obtain ⟨rest, hrest, -⟩ := second_slash (d := '/') (by decide) t'
  have hsecond {d : UInt8} (hd : isSlash d = true) :
      rest.head? = some d ↔ t'.find? notTab = some d := by
    obtain ⟨rest', hrest', hfirst⟩ := second_slash hd t'
    rw [hrest] at hrest'
    cases hrest'
    exact hfirst
  have hscheme : hasScheme (('/' : UInt8) :: rest) = false := by
    simp [hasScheme, show isLower '/' = false by decide, show isUpper '/' = false by decide]
  rw [originOf, hrest, hscheme]
  by_cases hslash : ∃ d, rest.head? = some d ∧ isSlash d = true
  · obtain ⟨d, hhead, hd⟩ := hslash
    rw [(hsecond hd).mp hhead]
    cases rest with
    | nil => cases hhead
    | cons _ rest =>
      cases hhead
      simp [hd, show isSlash '/' = true by decide]
  · have hnone : (t'.find? notTab).any isSlash = false := by
      rw [Bool.eq_false_iff, ne_eq, Option.any_eq_true]
      rintro ⟨d, hfind, hd⟩
      exact hslash ⟨d, (hsecond hd).mpr hfind, hd⟩
    cases rest with
    | nil => simp [hnone]
    | cons d rest =>
      have hd : isSlash d = false := Bool.eq_false_iff.mpr fun hd => hslash ⟨d, rfl, hd⟩
      simp [hnone, hd]

end Location
