import Cios.Rbac.Glob

/-!
# RBAC — tenant-bound scope names

A scope is either a v1.0 dotted glob or a name of the form
`crn:tenant/<tid>/org/<oid>/site/<sid>(/<node>)*` (`core/crn.go`).  `parseCRN` reads the second
form; `Crn.dotPath` is the dotted glob under its site, which is what is compiled for matching;
`legacyToCRN` reads the first form as the second under an unbound tenant.
-/

namespace Cios.Rbac
open Text List

structure Crn where
  tid : Bytes
  oid : Bytes
  sid : Bytes
  tail : List Bytes
deriving DecidableEq, Repr

/-- What `ErrCRNSyntax` is wrapped with; each text also quotes the whole name. -/
inductive CrnError where
  | missingScheme
  | emptyBody
  | tooFewSegments
  | expectedTenant (got : Bytes)
  | expectedOrg (got : Bytes)
  | expectedSite (got : Bytes)
  | badTid (got : Bytes)
  | badOid (got : Bytes)
  | missingSite
  | badSite (got : Bytes)
  | badTail (seg : Bytes)
deriving DecidableEq, Repr

def crnPrefix : Bytes := "crn:"

/-- `^[a-z][a-z0-9-]{1,30}$`. -/
def crnTidOidRe : Bytes → Bool
  | [] => false
  | c :: s => isLower c && s.all (fun d => isAlnum d || d == '-') && 1 ≤ s.length && s.length ≤ 30

/-- `[a-z0-9*]`. -/
def globByte (c : UInt8) : Bool := isAlnum c || c == '*'

/-- `^[a-z0-9*]+$`. -/
def crnSiteRe (s : Bytes) : Bool := !s.isEmpty && s.all globByte

/-- `^[a-z0-9*]*\*[a-z0-9*]*$`. -/
def crnGlobSegRe (s : Bytes) : Bool := s.all globByte && contains "*" s

def crnIsGlobSeg (seg : Bytes) : Bool :=
  match seg with
  | [] => false
  | c :: rest =>
    if seg = "*" || seg = "**" then true
    else if c != '*' && !isLower c && !isDigit c then false
    else if contains "**" seg then false
    else rest.all globByte

def crnIsTidOrOid (s : Bytes) : Bool := crnIsGlobSeg s || crnTidOidRe s

/-- One dot-separated piece of a node, in `crnValidNode`. -/
def crnValidPiece (piece : Bytes) : Bool :=
  if piece = "*" || piece = "**" then true
  else if piece.all isAlnum then true
  else crnGlobSegRe piece && !contains "**" piece

def crnValidNode (seg : Bytes) : Bool :=
  if seg = [] then false
  else if seg = "*" || seg = "**" then true
  else (split '.' seg).all crnValidPiece

/-- The loop over the segments after the site. -/
def crnTail : List Bytes → Except CrnError (List Bytes)
  | [] => .ok []
  | seg :: rest =>
    if crnValidNode seg then
      match crnTail rest with
      | .ok tail => .ok (split '.' seg ++ tail)
      | .error e => .error e
    else .error (.badTail seg)

def parseCRN (s : Bytes) : Except CrnError Crn :=
  match cutPrefix crnPrefix s with
  | none => .error .missingScheme
  | some rest =>
    if rest = [] then .error .emptyBody
    else match split '/' rest with
      | p₀ :: tid :: p₂ :: oid :: p₄ :: more =>
        if p₀ ≠ "tenant" then .error (.expectedTenant p₀)
        else if p₂ ≠ "org" then .error (.expectedOrg p₂)
        else if p₄ ≠ "site" then .error (.expectedSite p₄)
        else if !crnIsTidOrOid tid then .error (.badTid tid)
        else if !crnIsTidOrOid oid then .error (.badOid oid)
        else match more with
          | [] => .error .missingSite
          | sid :: nodes =>
            if !crnSiteRe sid then .error (.badSite sid)
            else match crnTail nodes with
              | .ok tail => .ok ⟨tid, oid, sid, tail⟩
              | .error e => .error e
      | _ => .error .tooFewSegments

def Crn.dotPath (c : Crn) : Bytes := c.sid ++ (c.tail.map (('.' : UInt8) :: ·)).flatten

/-- `String`: the name again, with one node for each piece of the tail. -/
def Crn.toString (c : Crn) : Bytes :=
  crnPrefix ++ lit "tenant/" ++ c.tid ++ lit "/org/" ++ c.oid ++ lit "/site/" ++ c.sid ++
    (c.tail.map (('/' : UInt8) :: ·)).flatten

def legacyToCRN (dotGlob tokenTenant : Bytes) : Crn :=
  if dotGlob = [] then ⟨[], [], [], []⟩
  else match split '.' dotGlob with
    | [] => ⟨[], [], [], []⟩
    | sid :: tail => ⟨tokenTenant, "default", sid, tail⟩

/-! ### What is read -/

theorem Crn.split_dotPath {c : Crn} (hs : ('.' : UInt8) ∉ c.sid)
    (ht : ∀ p ∈ c.tail, ('.' : UInt8) ∉ p) : split '.' c.dotPath = c.sid :: c.tail := by
  rw [Crn.dotPath, join_segments]
  refine splitOn_intercalate _ ?_ (by simp)
  rintro p hp
  rcases mem_cons.mp hp with rfl | hp
  · exact hs
  · exact ht p hp

/-- A legacy scope's dotted glob is the scope itself. -/
theorem legacyToCRN_dotPath (s t : Bytes) : (legacyToCRN s t).dotPath = s := by
  by_cases hs : s = []
  · simp [legacyToCRN, hs, Crn.dotPath]
  · obtain ⟨p, ps, e⟩ := exists_cons_of_ne_nil (splitOn_ne_nil ('.' : UInt8) s)
    have hj : [('.' : UInt8)].intercalate (p :: ps) = s := e ▸ intercalate_splitOn _
    rw [← join_segments] at hj
    simp [legacyToCRN, hs, e, Crn.dotPath, hj]

variable {p : Bytes}

theorem crnValidPiece_of_globSeg (h : GlobSeg p) : crnValidPiece p = true := by
  obtain ⟨-, hb, hs⟩ := h
  unfold crnValidPiece
  split
  · rfl
  rename_i hne
  split
  · rfl
  rename_i hlit
  simp only [Bool.or_eq_true, decide_eq_true_eq, not_or] at hne
  obtain ⟨c, hc, hca⟩ : ∃ c ∈ p, ¬ isAlnum c = true := by simpa using hlit
  have hstar : contains "*" p = true := by
    rw [contains_iff]
    obtain rfl : c = '*' := (hb c hc).resolve_left hca
    obtain ⟨l, r, rfl⟩ := append_of_mem hc
    exact ⟨l, r, by simp [show lit "*" = [('*' : UInt8)] by decide]⟩
  have hss : contains "**" p = false := by
    rw [← Bool.not_eq_true, contains_iff]
    exact hs.resolve_left hne.2
  have hall : p.all globByte = true := by
    simpa [globByte] using hb
  simp [crnGlobSegRe, hall, hstar, hss]

theorem crnSiteRe_of_globSeg (h : GlobSeg p) : crnSiteRe p = true := by
  obtain ⟨hne, hb, -⟩ := h
  have hall : p.all globByte = true := by simpa [globByte] using hb
  simp [crnSiteRe, hne, hall]

theorem crnValidNode_of_dotGlob {seg : Bytes} (h : DotGlob (split '.' seg)) :
    crnValidNode seg = true := by
  have hne : seg ≠ [] := by
    rintro rfl
    exact (h [] (by simp)).1 rfl
  have hall : (split '.' seg).all crnValidPiece = true :=
    all_eq_true.mpr fun p hp => crnValidPiece_of_globSeg (h p hp)
  simp [crnValidNode, hne, hall]

theorem crnTail_of_dotGlob : ∀ {nodes : List Bytes}, (∀ n ∈ nodes, DotGlob (split '.' n)) →
    crnTail nodes = .ok (nodes.map (split '.')).flatten
  | [], _ => rfl
  | n :: nodes, h => by
    have hn := crnValidNode_of_dotGlob (h n (by simp))
    have ih := @crnTail_of_dotGlob nodes fun m hm => h m (mem_cons_of_mem n hm)
    simp [crnTail, hn, ih]

theorem crnTail_ok : ∀ {nodes tail : List Bytes}, crnTail nodes = .ok tail →
    tail = (nodes.map (split '.')).flatten
  | [], tail, h => by cases h; rfl
  | n :: nodes, tail, h => by
    rw [crnTail] at h
    split at h
    · split at h
      · rename_i t ht
        cases h
        simp [crnTail_ok ht]
      · cases h
    · cases h

theorem parseCRN_ok {s : Bytes} {c : Crn} (h : parseCRN s = .ok c) :
    ∃ nodes : List Bytes, split '/' (s.drop crnPrefix.length) =
        lit "tenant" :: c.tid :: lit "org" :: c.oid :: lit "site" :: c.sid :: nodes ∧
      crnIsTidOrOid c.tid = true ∧ crnIsTidOrOid c.oid = true ∧ crnSiteRe c.sid = true ∧
      crnTail nodes = .ok c.tail := by
  unfold parseCRN at h
  split at h
  · cases h
  rename_i rest hrest
  rw [cutPrefix_eq_some] at hrest
  subst hrest
  rw [drop_left]
  repeat' split at h
  all_goals cases h
  rename_i h₀ h₂ h₄ ht ho _ sid nodes hsplit hs _ tail htail
  simp only [not_not, Bool.not_eq_true', Bool.not_eq_false] at h₀ h₂ h₄ ht ho hs
  exact ⟨nodes, by rw [hsplit, h₀, h₂, h₄], ht, ho, hs, htail⟩

theorem parseCRN_eq_ok {s tid oid sid : Bytes} {nodes tail : List Bytes}
    (hp : crnPrefix.isPrefixOf s = true)
    (hsplit : split '/' (s.drop crnPrefix.length) =
      lit "tenant" :: tid :: lit "org" :: oid :: lit "site" :: sid :: nodes)
    (ht : crnIsTidOrOid tid = true) (ho : crnIsTidOrOid oid = true) (hs : crnSiteRe sid = true)
    (htail : crnTail nodes = .ok tail) : parseCRN s = .ok ⟨tid, oid, sid, tail⟩ := by
  have hne : s.drop crnPrefix.length ≠ [] := by
    intro e
    rw [e] at hsplit
    simp at hsplit
  simp [parseCRN, cutPrefix, hp, hne, hsplit, ht, ho, hs, htail]

/-! ### What is written -/

theorem globSeg_no_dot (h : GlobSeg p) : ('.' : UInt8) ∉ p :=
  fun hd => (h.2.1 _ hd).elim (by decide) (by decide)

theorem globSeg_no_slash (h : GlobSeg p) : ('/' : UInt8) ∉ p :=
  fun hd => (h.2.1 _ hd).elim (by decide) (by decide)

theorem Crn.toString_eq (c : Crn) : c.toString = crnPrefix ++ [('/' : UInt8)].intercalate
    (lit "tenant" :: c.tid :: lit "org" :: c.oid :: lit "site" :: c.sid :: c.tail) := by
  rw [← join_segments, Crn.toString, show lit "tenant/" = lit "tenant" ++ [('/' : UInt8)] by decide,
    show lit "/org/" = ('/' : UInt8) :: lit "org" ++ [('/' : UInt8)] by decide,
    show lit "/site/" = ('/' : UInt8) :: lit "site" ++ [('/' : UInt8)] by decide]
  simp

theorem Crn.split_toString {c : Crn} (ht : ('/' : UInt8) ∉ c.tid) (ho : ('/' : UInt8) ∉ c.oid)
    (hs : ('/' : UInt8) ∉ c.sid) (htail : ∀ p ∈ c.tail, ('/' : UInt8) ∉ p) :
    split '/' (c.toString.drop crnPrefix.length) =
      lit "tenant" :: c.tid :: lit "org" :: c.oid :: lit "site" :: c.sid :: c.tail := by
  rw [Crn.toString_eq, drop_left]
  refine splitOn_intercalate _ ?_ (by simp)
  simp only [forall_mem_cons]
  exact ⟨by decide, ht, by decide, ho, by decide, hs, htail⟩

theorem Crn.isPrefixOf_toString (c : Crn) : crnPrefix.isPrefixOf c.toString = true := by
  rw [Crn.toString_eq, isPrefixOf_iff_prefix]
  exact prefix_append _ _

theorem crnTail_pieces {tail : List Bytes} (h : ∀ p ∈ tail, GlobSeg p) :
    crnTail tail = .ok tail := by
  have hone : ∀ p ∈ tail, split '.' p = [p] := fun p hp =>
    splitOn_eq_singleton (globSeg_no_dot (h p hp))
  have hpieces : (tail.map (split '.')).flatten = tail := by
    have hmap : tail.map (split '.') = tail.map fun p => [p] := map_congr_left hone
    simp [hmap, ← flatMap_def]
  rw [crnTail_of_dotGlob, hpieces]
  intro p hp q hq
  rw [hone p hp] at hq
  obtain rfl := mem_singleton.mp hq
  exact h q hp

/-- **Names are read back as written**, if the site and the pieces of the tail are single globs. -/
theorem parseCRN_toString {c : Crn} (ht : crnIsTidOrOid c.tid = true)
    (ho : crnIsTidOrOid c.oid = true) (hts : ('/' : UInt8) ∉ c.tid) (hos : ('/' : UInt8) ∉ c.oid)
    (hs : GlobSeg c.sid) (htail : ∀ p ∈ c.tail, GlobSeg p) : parseCRN c.toString = .ok c :=
  parseCRN_eq_ok c.isPrefixOf_toString
    (Crn.split_toString hts hos (globSeg_no_slash hs) fun p hp => globSeg_no_slash (htail p hp))
    ht ho (crnSiteRe_of_globSeg hs) (crnTail_pieces htail)

end Cios.Rbac
