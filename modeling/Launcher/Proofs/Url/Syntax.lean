import Launcher.Proofs.Url.Address
import Launcher.Proofs.Url.Parsing

/-! HTTP and HTTPS URLs by the generic syntax of URLs: with a host, and without user information. -/
namespace Launcher.Url

def isUnreserved (c : Char) : Bool := c.isAlphanum || "-._~".toList.contains c

def isSubDelimiter (c : Char) : Bool := "!$&'()*+,;=".toList.contains c

/-- Characters that may stand in the name of a host. -/
def isNameChar (c : Char) : Bool := isUnreserved c || isSubDelimiter c

/-- Characters that may stand in a segment of a path. -/
def isPathChar (c : Char) : Bool := isNameChar c || c = ':' || c = '@'

/-- Characters that may stand in a query or a fragment. -/
def isQueryChar (c : Char) : Bool := isPathChar c || c = '/' || c = '?'

/-- Whether a text has characters of a kind, and bytes of two hexadecimal digits behind percent
signs. -/
def isSpelled (plain : Char → Bool) : List Char → Bool
  | [] => true
  | '%' :: a :: b :: rest => isHexDigit a && isHexDigit b && isSpelled plain rest
  | c :: rest => plain c && isSpelled plain rest

/-- A host: a name, or an address in brackets. -/
inductive WebHost
  | name (text : List Char) (some : text ≠ []) (spelled : isSpelled isNameChar text = true)
  | address (text : List Char) (valid : Address6 text)
  /-- An address of a form to come. -/
  | future (mark : Char) (version place : List Char) (marks : mark = 'v' ∨ mark = 'V')
      (versioned : version ≠ [] ∧ ∀ c ∈ version, isHexDigit c = true)
      (placed : place ≠ [] ∧ ∀ c ∈ place, isNameChar c = true ∨ c = ':')

/-- A host without the brackets of an address. -/
def WebHost.bare : WebHost → List Char
  | name text _ _ => text
  | address text _ => text
  | future mark version place _ _ _ => mark :: (version ++ '.' :: place)

def WebHost.text (host : WebHost) : List Char :=
  match host with
  | name text _ _ => text
  | _ => '[' :: (host.bare ++ [']'])

/-- The segments of a path, each behind its slash. -/
def pathText (segments : List (List Char)) : List Char := segments.flatMap ('/' :: ·)

structure WebUrl where
  scheme : List Char
  host : WebHost
  port : Option (List Char)
  segments : List (List Char)
  query : Option (List Char)
  fragment : Option (List Char)
  web : scheme.map Char.toLower = "http".toList ∨ scheme.map Char.toLower = "https".toList
  decimal : ∀ digits ∈ port, ∀ c ∈ digits, Number.isDigit c = true
  plain : ∀ segment ∈ segments, isSpelled isPathChar segment = true
  queried : ∀ text ∈ query, isSpelled isQueryChar text = true
  fragmented : ∀ text ∈ fragment, isSpelled isQueryChar text = true

namespace WebUrl
variable (u : WebUrl)

def authority : List Char := u.host.text ++ marked ':' u.port

/-- What stands behind the authority. -/
def rest : List Char := pathText u.segments ++ marked '?' u.query ++ marked '#' u.fragment

def text : List Char := u.scheme ++ ':' :: '/' :: '/' :: (u.authority ++ u.rest)

end WebUrl

section Chars
variable {c d : Char}

theorem ne_of_class {plain : Char → Bool} (inside : plain c = true) (outside : plain d = false) :
    c ≠ d := by
  rintro rfl
  rw [inside] at outside
  contradiction

/-- All characters that URLs are made of. -/
def isUrlChar (c : Char) : Bool := isQueryChar c || "%#[]".toList.contains c

theorem isAlphanum_range (letter : c.isAlphanum = true) : 0x20 < c.toNat ∧ c.toNat < 0x80 := by
  rw [isAlphanum_iff] at letter
  omega

theorem isUrlChar_range (inside : isUrlChar c = true) : 0x20 < c.toNat ∧ c.toNat < 0x80 := by
  simp only [isUrlChar, isQueryChar, isPathChar, isNameChar, isUnreserved, isSubDelimiter,
    Bool.or_eq_true, decide_eq_true_eq, List.contains_iff_mem] at inside
  have listed {text : List Char} (ascii : text.all (fun d => 0x20 < d.toNat ∧ d.toNat < 0x80))
      (member : c ∈ text) : 0x20 < c.toNat ∧ c.toNat < 0x80 :=
    of_decide_eq_true (List.all_eq_true.mp ascii c member)
  rcases inside with (((((((letter | mark) | mark) | rfl) | rfl) | rfl) | rfl) | mark)
  · exact isAlphanum_range letter
  · exact listed (by decide) mark
  · exact listed (by decide) mark
  · decide
  · decide
  · decide
  · decide
  · exact listed (by decide) mark

theorem isAlphanum_of_isHexDigit (digit : isHexDigit c = true) : c.isAlphanum = true := by
  have between {low high : Char} (range : (low ≤ c && c ≤ high) = true) :
      low.toNat ≤ c.toNat ∧ c.toNat ≤ high.toNat := by
    simpa [Char.le_def, UInt32.le_iff_toNat_le] using range
  rw [isAlphanum_iff]
  unfold isHexDigit Number.hexValue? at digit
  split at digit
  · have range := between ‹_›
    exact .inr range
  · split at digit
    · obtain ⟨low, high⟩ := between ‹_›
      exact .inl (.inr ⟨low, Nat.le_trans high (by decide)⟩)
    · split at digit
      · obtain ⟨low, high⟩ := between ‹_›
        exact .inl (.inl ⟨low, Nat.le_trans high (by decide)⟩)
      · contradiction

theorem isNameChar_of_isHexDigit (digit : isHexDigit c = true) : isNameChar c = true := by
  simp [isNameChar, isUnreserved, isAlphanum_of_isHexDigit digit]

theorem isPathChar_of_isNameChar (inside : isNameChar c = true) : isPathChar c = true := by
  simp [isPathChar, inside]

theorem isQueryChar_of_isPathChar (inside : isPathChar c = true) : isQueryChar c = true := by
  simp [isQueryChar, inside]

theorem isUrlChar_of_isQueryChar (inside : isQueryChar c = true) : isUrlChar c = true := by
  simp [isUrlChar, inside]

theorem isUrlChar_of_isPathChar (inside : isPathChar c = true) : isUrlChar c = true :=
  isUrlChar_of_isQueryChar (isQueryChar_of_isPathChar inside)

theorem isUrlChar_of_isNameChar (inside : isNameChar c = true) : isUrlChar c = true :=
  isUrlChar_of_isPathChar (isPathChar_of_isNameChar inside)

theorem mem_of_isSpelled {plain : Char → Bool}
    (wide : ∀ {d}, isNameChar d = true → plain d = true) {text : List Char}
    (spelled : isSpelled plain text = true) (member : c ∈ text) : plain c = true ∨ c = '%' := by
  induction text using isSpelled.induct with
  | case1 => simp at member
  | case2 a b rest ih =>
    simp only [isSpelled, Bool.and_eq_true] at spelled
    obtain ⟨⟨first, second⟩, spelled⟩ := spelled
    simp only [List.mem_cons] at member
    rcases member with percent | rfl | rfl | later
    · exact .inr percent
    · exact .inl (wide (isNameChar_of_isHexDigit first))
    · exact .inl (wide (isNameChar_of_isHexDigit second))
    · exact ih spelled later
  | case3 d rest other ih =>
    rw [isSpelled, Bool.and_eq_true] at spelled
    · rcases List.mem_cons.mp member with rfl | later
      · exact .inl spelled.1
      · exact ih spelled.2 later
    · exact other

theorem isAlpha_of_toLower (lower : c.toLower ∈ "https".toList) : c.isAlpha = true := by
  unfold Char.toLower at lower
  split at lower
  · rename_i upper
    exact Bool.or_eq_true_iff.mpr (.inl (decide_eq_true upper))
  · have letters : "https".toList.all Char.isAlpha := by decide
    exact List.all_eq_true.mp letters c lower

end Chars

/-- Characters of an authority without user information. -/
def isHostChar (c : Char) : Bool := isNameChar c || "%:[]".toList.contains c

theorem isUrlChar_of_isHostChar {c : Char} (inside : isHostChar c = true) : isUrlChar c = true := by
  simp only [isHostChar, Bool.or_eq_true, List.contains_iff_mem] at inside
  rcases inside with plain | mark
  · exact isUrlChar_of_isNameChar plain
  · have marks : "%:[]".toList.all isUrlChar := by decide
    exact List.all_eq_true.mp marks c mark

namespace WebHost
variable {host : WebHost} {c : Char}

theorem bare_ne_nil (host : WebHost) : host.bare ≠ [] := by
  cases host with
  | name text some _ => exact some
  | address text valid =>
    rintro rfl
    exact absurd valid.isAddress6 (by decide)
  | future => exact List.cons_ne_nil _ _

theorem mem_bare (member : c ∈ host.bare) : isNameChar c = true ∨ c = '%' ∨ c = ':' := by
  cases host with
  | name text _ spelled => exact (mem_of_isSpelled id spelled member).imp_right .inl
  | address text valid =>
    rcases valid.mem member with digit | rfl | colon
    · exact .inl (isNameChar_of_isHexDigit digit)
    · exact .inl (by decide)
    · exact .inr (.inr colon)
  | future mark version place marks versioned placed =>
    simp only [bare, List.mem_cons, List.mem_append] at member
    rcases member with rfl | digit | rfl | inside
    · rcases marks with rfl | rfl <;> exact .inl (by decide)
    · exact .inl (isNameChar_of_isHexDigit (versioned.2 c digit))
    · exact .inl (by decide)
    · exact (placed.2 c inside).imp_right .inr

theorem not_mem_bare (other : isNameChar c = false) (percent : c ≠ '%') (colon : c ≠ ':') :
    c ∉ host.bare := by
  intro member
  rcases mem_bare member with inside | same | same
  · exact ne_of_class inside other rfl
  · exact percent same
  · exact colon same

theorem isHostChar_of_mem (member : c ∈ host.text) : isHostChar c = true := by
  have inner (member : c ∈ host.bare) : isHostChar c = true := by
    rcases mem_bare member with inside | rfl | rfl
    · simp [isHostChar, inside]
    · decide
    · decide
  have bracketed (member : c ∈ '[' :: (host.bare ++ [']'])) : isHostChar c = true := by
    simp only [List.mem_cons, List.mem_append, List.not_mem_nil, or_false] at member
    rcases member with rfl | inside | rfl
    · decide
    · exact inner inside
    · decide
  cases host with
  | name => exact inner member
  | address => exact bracketed member
  | future => exact bracketed member

end WebHost

namespace WebUrl
variable (u : WebUrl)

theorem isHostChar_of_mem {c : Char} (member : c ∈ u.authority) : isHostChar c = true := by
  rcases List.mem_append.mp member with inside | behind
  · exact WebHost.isHostChar_of_mem inside
  · cases port : u.port with
    | none => simp [port, marked] at behind
    | some digits =>
      rw [port, marked, List.mem_cons] at behind
      rcases behind with rfl | digit
      · decide
      · have hex := isHexDigit_of_isDigit (u.decimal digits port c digit)
        simp [isHostChar, isNameChar_of_isHexDigit hex]

theorem mem_query {text : List Char} (spelled : isSpelled isQueryChar text = true) {c : Char}
    (member : c ∈ text) : isQueryChar c = true ∨ c = '%' :=
  mem_of_isSpelled (isQueryChar_of_isPathChar <| isPathChar_of_isNameChar ·) spelled member

theorem mem_segment {segment : List Char} (listed : segment ∈ u.segments) {c : Char}
    (member : c ∈ segment) : isPathChar c = true ∨ c = '%' :=
  mem_of_isSpelled isPathChar_of_isNameChar (u.plain segment listed) member

theorem isUrlChar_of_mem_rest {c : Char} (member : c ∈ u.rest) : isUrlChar c = true := by
  have part {mark : Char} {text : Option (List Char)} (known : isUrlChar mark = true)
      (right : ∀ t ∈ text, isSpelled isQueryChar t = true) (member : c ∈ marked mark text) :
      isUrlChar c = true := by
    cases text with
    | none => simp [marked] at member
    | some text =>
      rcases List.mem_cons.mp member with rfl | inside
      · exact known
      · rcases mem_query (right text rfl) inside with plain | rfl
        · exact isUrlChar_of_isQueryChar plain
        · decide
  simp only [rest, pathText, List.mem_append, List.mem_flatMap, List.mem_cons] at member
  rcases member with (⟨segment, listed, rfl | inside⟩ | query) | fragment
  · decide
  · rcases u.mem_segment listed inside with plain | rfl
    · exact isUrlChar_of_isPathChar plain
    · decide
  · exact part (by decide) u.queried query
  · exact part (by decide) u.fragmented fragment

theorem scheme_letters : u.scheme ≠ [] ∧ ∀ c ∈ u.scheme, c.isAlpha = true := by
  constructor
  · intro none
    have web := u.web
    rw [none] at web
    exact absurd web (by decide)
  · intro c member
    apply isAlpha_of_toLower
    have lower : c.toLower ∈ u.scheme.map Char.toLower := List.mem_map_of_mem member
    have letters : "http".toList ⊆ "https".toList := List.subset_append_left _ ['s']
    rcases u.web with web | web
    · exact letters (web ▸ lower)
    · exact web ▸ lower

theorem parts : Parts u.scheme u.authority u.rest where
  letter := by
    obtain ⟨some, letters⟩ := u.scheme_letters
    obtain ⟨c, rest, same⟩ := List.exists_cons_of_ne_nil some
    rw [same]
    exact letters c (same ▸ List.mem_cons_self)
  scheme := by
    refine List.all_eq_true.mpr fun c member => ?_
    simp [isSchemeChar, Char.isAlphanum, u.scheme_letters.2 c member]
  authority c member := by
    have inside := u.isHostChar_of_mem member
    exact ⟨ne_of_class inside (by decide), ne_of_class inside (by decide),
      ne_of_class inside (by decide),
      isKept_of_visible (isUrlChar_range (isUrlChar_of_isHostChar inside)).1⟩
  rest := by
    apply head_of_marked
    cases u.segments with
    | nil => simp [pathText]
    | cons segment segments => exact fun c first => (Option.some.inj first).symm

theorem not_mem_segment {c : Char} (other : isPathChar c = false) (percent : c ≠ '%') :
    ∀ segment ∈ u.segments, c ∉ segment := by
  intro segment listed member
  rcases u.mem_segment listed member with inside | same
  · exact ne_of_class inside other rfl
  · exact percent same

theorem not_mem_path {c : Char} (other : isPathChar c = false) (percent : c ≠ '%')
    (slash : c ≠ '/') : c ∉ pathText u.segments := by
  intro member
  simp only [pathText, List.mem_flatMap, List.mem_cons] at member
  obtain ⟨segment, listed, same | inside⟩ := member
  · exact slash same
  · exact u.not_mem_segment other percent segment listed inside

theorem hash_not_mem_query : '#' ∉ marked '?' u.query := by
  cases query : u.query with
  | none => exact List.not_mem_nil
  | some text =>
    intro member
    rcases List.mem_cons.mp member with mark | inside
    · exact absurd mark (by decide)
    · rcases mem_query (u.queried text query) inside with plain | percent
      · exact ne_of_class plain (show isQueryChar '#' = false by decide) rfl
      · exact absurd percent (by decide)

end WebUrl

theorem pathText_concat (segments : List (List Char)) (last : List Char) :
    pathText (segments ++ [last]) = pathText segments ++ '/' :: last := by
  simp [pathText]

/-- The segments of a path, the last one up to its first semicolon. -/
def bareSegments (segments : List (List Char)) : List (List Char) :=
  match segments.getLast? with
  | none => []
  | some last => segments.dropLast ++ [(cut ';' last).1]

theorem splitParameters_pathText {segments : List (List Char)}
    (free : ∀ segment ∈ segments, '/' ∉ segment) :
    (splitParameters (pathText segments)).1 = pathText (bareSegments segments) := by
  rcases List.eq_nil_or_concat segments with rfl | ⟨before, last, rfl⟩
  · rfl
  · have free' : '/' ∉ last := free last (by simp)
    simp only [List.concat_eq_append, pathText_concat, splitParameters_append _ free',
      bareSegments, List.getLast?_concat, List.dropLast_concat]

namespace WebUrl
variable (u : WebUrl)

theorem foldsToDelimiter_authority : u.authority.any foldsToDelimiter = false := by
  rw [List.any_eq_false]
  intro c member folds
  have ascii := (isUrlChar_range (isUrlChar_of_isHostChar (u.isHostChar_of_mem member))).2
  simp only [foldsToDelimiter, List.contains_iff_mem] at folds
  have beyond : ∀ n ∈ [0x2047, 0x2048, 0x2049, 0x2100, 0x2101, 0x2105, 0x2106, 0x2A74, 0xFE13,
      0xFE16, 0xFE55, 0xFE56, 0xFE5F, 0xFE6B, 0xFF03, 0xFF0F, 0xFF1A, 0xFF1F, 0xFF20],
      0x80 ≤ n := by decide
  exact absurd (beyond _ folds) (Nat.not_le.mpr ascii)

/-- A URL is split where the syntax has its parts, but for the parameters of its last segment. -/
theorem parse_text : parse u.text = (checkAuthority u.authority).map fun _ =>
    { scheme := u.scheme.map Char.toLower
      authority := u.authority
      path := pathText (bareSegments u.segments)
      parameters := (splitParameters (pathText u.segments)).2
      query := u.query.getD []
      fragment := u.fragment.getD [] } := by
  have kept : u.rest.filter isKept = u.rest :=
    List.filter_eq_self.mpr fun c member =>
      isKept_of_visible (isUrlChar_range (u.isUrlChar_of_mem_rest member)).1
  have hash : '#' ∉ pathText u.segments ++ marked '?' u.query := by
    rw [List.mem_append, not_or]
    exact ⟨u.not_mem_path (by decide) (by decide) (by decide), u.hash_not_mem_query⟩
  have mark : '?' ∉ pathText u.segments := u.not_mem_path (by decide) (by decide) (by decide)
  have takes : takesParameters (u.scheme.map Char.toLower) = true := by
    rcases u.web with web | web <;> rw [web] <;> decide
  have path := splitParameters_pathText (u.not_mem_segment (c := '/') (by decide) (by decide))
  unfold parse text
  rw [u.parts.parseUnder, kept]
  simp only [rest, cut_marked hash, cut_marked mark, u.foldsToDelimiter_authority, takes, if_true,
    Bool.false_eq_true, if_false, ← path]
  cases checkAuthority u.authority <;> rfl

end WebUrl
end Launcher.Url
