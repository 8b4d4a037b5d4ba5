import Cios.Support.Url

/-!
# Support — parsing URLs

A URL as the library parses it: the fragment is cut off first, then the scheme, then the query, and
what is left is an authority with a path behind it, a path, or neither (`parse`).  How an authority
is read is a parameter.

A text that is appended to a URL that ends in its path stays in that path up to the first `?` or `#`
(`parse_append`), and reads back as itself if it has no escapes (`unescape_eq_self`).
-/

namespace Url
open Text List Option

/-- A control byte, which a URL may not have. -/
def isCTL (c : UInt8) : Bool := c < 0x20 || c = 0x7F

structure Parsed where
  scheme : Bytes
  rootless : Bytes
  host : Bytes
  path : Bytes
  /-- The path as it is written. -/
  rawPath : Bytes
  /-- `none` without a question mark. -/
  rawQuery : Option Bytes
  fragment : Bytes
deriving DecidableEq, Repr

def schemeByte (c : UInt8) : Bool :=
  isLower c || isUpper c || isDigit c || c = '+' || c = '-' || c = '.'

/-- The scheme and the rest: none behind a digit or a sign, an error for a leading colon. -/
def getScheme (s : Bytes) : Option (Bytes × Bytes) :=
  match s.dropWhile schemeByte with
  | c :: rest =>
    if c ≠ ':' then some ([], s)
    else match s.takeWhile schemeByte with
      | [] => none
      | d :: _ =>
        if isLower d || isUpper d then some (s.takeWhile schemeByte, rest) else some ([], s)
  | [] => some ([], s)

def lower (c : UInt8) : UInt8 := if isUpper c then c + 32 else c

section Parse

variable (authority : Bytes → Option Bytes)

/-- The authority and the path of what stands between the scheme and the query, the path escaped. -/
def hierarchy (scheme rest : Bytes) : Option (Bytes × Bytes) :=
  if (lit "//").isPrefixOf rest && (scheme ≠ [] || !(lit "///").isPrefixOf rest) then
    (authority ((rest.drop 2).takeWhile (· != '/'))).map fun host =>
      (host, (rest.drop 2).dropWhile (· != '/'))
  else if rest.head? ≠ some ('/' : UInt8) && (cut '/' rest).1.contains ':' then none
  else some ([], rest)

/-- The URL without its fragment. -/
def parseNoFragment (u : Bytes) : Option Parsed :=
  if u.any isCTL then none
  else if u = "*" then some ⟨[], [], [], "*", "*", none, []⟩
  else do
    let (scheme, rest) ← getScheme u
    let scheme := scheme.map lower
    let query := if rest.contains '?' then some (cut '?' rest).2 else none
    let rest := (cut '?' rest).1
    if rest.head? ≠ some ('/' : UInt8) && scheme ≠ [] then
      some ⟨scheme, rest, [], [], [], query, []⟩
    else
      let (host, rawPath) ← hierarchy authority scheme rest
      let path ← unescape false rawPath
      some ⟨scheme, [], host, path, rawPath, query, []⟩

def parse (raw : Bytes) : Option Parsed := do
  let u ← parseNoFragment authority (cut '#' raw).1
  let fragment ← unescape false (cut '#' raw).2
  some { u with fragment := fragment }

end Parse

/-! ### Escapes shorten -/

variable {s : Bytes}

theorem unescape_plain (h : ('%' : UInt8) ∉ s) (r : Bytes) :
    unescape false (s ++ r) = (unescape false r).map (s ++ ·) := by
  induction s with
  | nil => simp
  | cons c s ih =>
    obtain ⟨hc, hs⟩ := not_or.mp (fun hm => h (mem_cons.mpr hm))
    rw [cons_append, unescape_other (Ne.symm hc), ih hs, Option.map_map]
    simp [Function.comp_def]

theorem unescape_eq_self (h : ('%' : UInt8) ∉ s) : unescape false s = some s := by
  simpa [unescape] using unescape_plain h []

theorem unescape_percent {s t : Bytes} (h : unescape false (('%' : UInt8) :: s) = some t) :
    ∃ a b r x t', s = a :: b :: r ∧ t = x :: t' ∧ unescape false r = some t' := by
  rw [unescape.eq_def] at h
  simp only [if_true] at h
  split at h
  · next a b r =>
      split at h
      · next x hx =>
          obtain ⟨t', ht', rfl⟩ := map_eq_some_iff.mp h
          exact ⟨a, b, r, x, t', rfl, rfl, ht'⟩
      · cases h
  · cases h

theorem unescape_length : ∀ {s t : Bytes}, unescape false s = some t →
    t.length ≤ s.length ∧ (('%' : UInt8) ∈ s → t.length < s.length)
  | [], t, h => by
    cases h
    simp
  | c :: s, t, h => by
    by_cases hc : c = '%'
    · subst hc
      obtain ⟨a, b, r, x, t', rfl, rfl, ht'⟩ := unescape_percent h
      have := (unescape_length ht').1
      simp only [length_cons]
      omega
    · rw [unescape_other hc] at h
      obtain ⟨t', ht', rfl⟩ := map_eq_some_iff.mp h
      simpa [Ne.symm hc] using unescape_length ht'

/-! ### A text behind a directory -/

theorem cut_append {sep : UInt8} {a : Bytes} (h : sep ∉ a) (b : Bytes) :
    cut sep (a ++ b) = (a ++ (cut sep b).1, (cut sep b).2) := by
  have ha : ∀ c ∈ a, (c != sep) = true := fun c hc => by
    simpa using fun e : c = sep => h (e ▸ hc)
  rw [cut, cut, takeWhile_append_of_pos ha, dropWhile_append_of_pos ha]

theorem cut_fst_eq_self {sep : UInt8} (h : (cut sep s).1 = s) : sep ∉ s := by
  intro hm
  have := takeWhile_eq_self_iff.mp h sep hm
  simp at this

theorem cut_of_not_mem {sep : UInt8} (h : sep ∉ s) : cut sep s = (s, []) := by
  have := cut_append h []
  simpa [cut] using this

/-- A text put into a path is read as itself exactly when it has none of the URL's three bytes. -/
theorem unescape_front_eq_iff :
    unescape false (cut '?' (cut '#' s).1).1 = some s ↔
      ('?' : UInt8) ∉ s ∧ ('#' : UInt8) ∉ s ∧ ('%' : UInt8) ∉ s := by
  constructor
  · intro h
    -- what is cut off is not longer, nor is what is read of the rest
    have h₁ : (cut '#' s).1 <+: s := takeWhile_prefix _
    have h₂ : (cut '?' (cut '#' s).1).1 <+: (cut '#' s).1 := takeWhile_prefix _
    have hlen := (unescape_length h).1
    have e₁ : (cut '#' s).1 = s := h₁.eq_of_length (le_antisymm h₁.length_le
      (hlen.trans h₂.length_le))
    rw [e₁] at h h₂ hlen
    have e₂ : (cut '?' s).1 = s := h₂.eq_of_length (le_antisymm h₂.length_le hlen)
    rw [e₂] at h
    exact ⟨cut_fst_eq_self e₂, cut_fst_eq_self e₁, fun hm => lt_irrefl _ ((unescape_length h).2 hm)⟩
  · rintro ⟨hq, hh, hp⟩
    rw [cut_of_not_mem hh, cut_of_not_mem hq, unescape_eq_self hp]

/-- A byte that stands for itself wherever it is in the authority or the path of a URL. -/
def plain (c : UInt8) : Bool := !isCTL c && c != '#' && c != '?' && c != '%'

section Origin

variable (authority : Bytes → Option Bytes)

/-- A scheme and an authority, without a path. -/
structure Origin where
  scheme : Bytes
  host : Bytes
  scheme_ne : scheme ≠ []
  scheme_lower : ∀ c ∈ scheme, isLower c = true
  host_ne : host ≠ []
  host_plain : ∀ c ∈ host, plain c = true ∧ c ≠ '/'
  host_ok : authority host = some host

variable {authority} (o : Origin authority)

def Origin.text : Bytes := o.scheme ++ lit "://" ++ o.host

theorem isLower_facts : ∀ c : UInt8, isLower c = true →
    schemeByte c = true ∧ lower c = c ∧ plain c = true :=
  forall_byte (by decide +kernel)

theorem plain_facts {c : UInt8} (h : plain c = true) :
    isCTL c = false ∧ c ≠ '#' ∧ c ≠ '?' ∧ c ≠ '%' := by
  simpa [plain, and_assoc] using h

theorem Origin.getScheme (rest : Bytes) :
    Url.getScheme (o.scheme ++ (':' : UInt8) :: rest) = some (o.scheme, rest) := by
  obtain ⟨d, ds, hd⟩ := exists_cons_of_ne_nil o.scheme_ne
  obtain ⟨h₁, h₂⟩ := takeWhile_run (p := schemeByte) (l := o.scheme) (r := (':' : UInt8) :: rest)
    (fun c hc => (isLower_facts c (o.scheme_lower c hc)).1) (fun c hc => by cases hc; decide)
  have hl : isLower d = true := o.scheme_lower d (by simp [hd])
  rw [Url.getScheme, h₁, h₂]
  simp [hd, hl]

theorem Origin.plain_append {dir : Bytes} (hplain : ∀ c ∈ dir, plain c = true) :
    ∀ c ∈ o.text ++ dir, plain c = true := by
  have hlit : ∀ c ∈ lit "://", plain c = true := forall_mem_of_all (by decide)
  simp only [Origin.text, forall_mem_append]
  exact ⟨⟨⟨fun c hc => (isLower_facts c (o.scheme_lower c hc)).2.2, hlit⟩,
    fun c hc => (o.host_plain c hc).1⟩, hplain⟩

theorem Origin.hierarchy (path : Bytes) :
    Url.hierarchy authority o.scheme (lit "//" ++ (o.host ++ ('/' : UInt8) :: path)) =
      some (o.host, ('/' : UInt8) :: path) := by
  obtain ⟨h₁, h₂⟩ := takeWhile_run (p := (· != ('/' : UInt8))) (l := o.host)
    (r := ('/' : UInt8) :: path) (fun c hc => by simpa using (o.host_plain c hc).2)
    (fun c hc => by cases hc; decide)
  have hdrop : (lit "//" ++ (o.host ++ ('/' : UInt8) :: path)).drop 2 =
      o.host ++ ('/' : UInt8) :: path := rfl
  rw [Url.hierarchy, if_pos (by simp [o.scheme_ne]), hdrop, h₁, h₂, o.host_ok]
  rfl

/-- Behind an origin and a directory: what stands before the first `?` is in the path. -/
theorem parseNoFragment_append {dir : Bytes}
    (hplain : ∀ c ∈ dir, plain c = true) (front : Bytes) :
    parseNoFragment authority (o.text ++ (('/' : UInt8) :: dir) ++ front) =
      if front.any isCTL then none
      else (unescape false (cut '?' front).1).map fun p =>
        ⟨o.scheme, [], o.host, ('/' : UInt8) :: dir ++ p, ('/' : UInt8) :: dir ++ (cut '?' front).1,
          if front.contains '?' then some (cut '?' front).2 else none, []⟩ := by
  have hslash : ∀ c ∈ ('/' : UInt8) :: dir, plain c = true := by
    simpa using ⟨by decide, hplain⟩
  have hbefore : o.text ++ (('/' : UInt8) :: dir) =
      o.scheme ++ (':' : UInt8) :: (lit "//" ++ (o.host ++ ('/' : UInt8) :: dir)) := by
    have : lit "://" = (':' : UInt8) :: lit "//" := by decide
    simp [Origin.text, this]
  have htext := o.plain_append hslash
  have hctl : (o.text ++ (('/' : UInt8) :: dir)).any isCTL = false :=
    any_eq_false.mpr fun c hc => by simp [(plain_facts (htext c hc)).1]
  rw [hbefore] at htext
  have hq : ('?' : UInt8) ∉ lit "//" ++ (o.host ++ ('/' : UInt8) :: dir) := fun hm =>
    (plain_facts (htext _ (mem_append_right _ (mem_cons_of_mem _ hm)))).2.2.1 rfl
  have hpct : ('%' : UInt8) ∉ ('/' : UInt8) :: dir :=
    fun hm => (plain_facts (hslash _ hm)).2.2.2 rfl
  have htext : o.text ++ (('/' : UInt8) :: dir) ++ front =
      o.scheme ++ (':' : UInt8) :: (lit "//" ++ (o.host ++ ('/' : UInt8) :: dir) ++ front) := by
    simp [hbefore]
  have hstar : o.text ++ (('/' : UInt8) :: dir) ++ front ≠ lit "*" := by
    obtain ⟨d, ds, hd⟩ := exists_cons_of_ne_nil o.scheme_ne
    intro h
    rw [htext, hd] at h
    have hstar : d = '*' := (List.cons.inj h).1
    have hl : isLower d = true := o.scheme_lower d (by simp [hd])
    rw [hstar] at hl
    revert hl
    decide
  have hcut : cut '?' (lit "//" ++ (o.host ++ ('/' : UInt8) :: dir) ++ front) =
      (lit "//" ++ (o.host ++ ('/' : UInt8) :: (dir ++ (cut '?' front).1)), (cut '?' front).2) := by
    rw [cut_append hq]
    simp
  have hcontains : (lit "//" ++ (o.host ++ ('/' : UInt8) :: dir) ++ front).contains '?' =
      front.contains '?' := by
    simp only [contains_eq_mem, mem_append (s := lit "//" ++ _), hq, false_or]
  have hlower : o.scheme.map lower = o.scheme :=
    map_congr_left (fun c hc => (isLower_facts c (o.scheme_lower c hc)).2.1)
      |>.trans (map_id' o.scheme)
  rw [parseNoFragment, any_append, hctl, Bool.false_or]
  by_cases hctl : front.any isCTL = true
  · rw [if_pos hctl, if_pos hctl]
  · rw [if_neg hctl, if_neg hctl, if_neg hstar, htext, o.getScheme]
    simp only [bind_eq_bind, bind_some, hlower, hcut, hcontains, o.hierarchy]
    rw [← cons_append, unescape_plain hpct]
    cases unescape false (cut '?' front).1 <;> rfl

theorem parse_append {dir : Bytes} (hplain : ∀ c ∈ dir, plain c = true)
    {tail : Bytes} {u : Parsed}
    (h : parse authority (o.text ++ (('/' : UInt8) :: dir) ++ tail) = some u) :
    let front := (cut '#' tail).1
    ∃ p, unescape false (cut '?' front).1 = some p ∧
      front.any isCTL = false ∧
      unescape false (cut '#' tail).2 = some u.fragment ∧
      u.rawPath = ('/' : UInt8) :: dir ++ (cut '?' front).1 ∧
      u.path = ('/' : UInt8) :: dir ++ p ∧
      u.host = o.host ∧
      u.rawQuery = if front.contains '?' then some (cut '?' front).2 else none := by
  have hslash : ∀ c ∈ ('/' : UInt8) :: dir, plain c = true := by
    simpa using ⟨by decide, hplain⟩
  have hhash : ('#' : UInt8) ∉ o.text ++ (('/' : UInt8) :: dir) := fun hm =>
    (plain_facts (o.plain_append hslash _ hm)).2.1 rfl
  intro front
  rw [parse, cut_append hhash, parseNoFragment_append o hplain] at h
  by_cases hctl : front.any isCTL = true
  · simp [front, hctl] at h
  obtain ⟨u₀, hu₀, h₁⟩ := bind_eq_some_iff.mp h
  obtain ⟨f, hf, h₂⟩ := bind_eq_some_iff.mp h₁
  rw [if_neg hctl] at hu₀
  obtain ⟨p, hp, rfl⟩ := map_eq_some_iff.mp hu₀
  cases h₂
  exact ⟨p, hp, by simpa using hctl, hf, rfl, rfl, rfl, rfl⟩

end Origin

end Url
