import Launcher.Url.Basic
import Mathlib.Data.List.TakeDrop
import Mathlib.Data.List.TakeWhile

/-! How a URL is taken apart: a text that has a scheme, an authority and a rest behind it is split
at just these places. -/
namespace Launcher.Url

/-- What cleaning leaves of a text that starts with a visible character. -/
def isKept (c : Char) : Bool := c ≠ '\t' && c ≠ '\n' && c ≠ '\r'

theorem clean_of_head {text : List Char} (visible : ∀ c ∈ text.head?, 0x20 < c.toNat) :
    clean text = text.filter isKept := by
  cases text with
  | nil => rfl
  | cons c rest =>
    have first : ¬ c.toNat ≤ 0x20 := Nat.not_le.mpr (visible c rfl)
    rw [clean, List.dropWhile_cons_of_neg (by simpa using first)]
    rfl

section Cut
variable {c : Char} {before last : List Char}

theorem span_append {p : Char → Bool} {rest : List Char} (inside : ∀ d ∈ before, p d = true)
    (outside : ∀ d ∈ rest.head?, p d = false) : (before ++ rest).span p = (before, rest) := by
  have stops : rest.takeWhile p = [] ∧ rest.dropWhile p = rest := by
    cases rest with
    | nil => exact ⟨rfl, rfl⟩
    | cons d rest => simp [outside d rfl]
  rw [List.span_eq_takeWhile_dropWhile, List.takeWhile_append_of_pos inside,
    List.dropWhile_append_of_pos inside, stops.1, stops.2, List.append_nil]

/-- A part behind the character that starts it. Without the part there is no character. -/
def marked (c : Char) : Option (List Char) → List Char
  | none => []
  | some part => c :: part

theorem cut_marked (free : c ∉ before) (part : Option (List Char)) :
    cut c (before ++ marked c part) = (before, part.getD []) := by
  have split : (before ++ marked c part).span (· ≠ c) = (before, marked c part) := by
    refine span_append (fun d member => ?_) fun d first => ?_
    · simpa using ne_of_mem_of_not_mem member free
    · cases part with
      | none => contradiction
      | some part => simp_all [marked]
  unfold cut
  rw [split]
  cases part <;> rfl

/-- A query or a fragment stands behind a path that is empty or starts with a slash. -/
theorem head_of_marked {path : List Char} (slash : ∀ c ∈ path.head?, c = '/')
    (query fragment : Option (List Char)) :
    ∀ c ∈ (path ++ marked '?' query ++ marked '#' fragment).head?, c = '/' ∨ c = '?' ∨ c = '#' := by
  intro c first
  cases path with
  | cons d path => exact .inl (slash c first)
  | nil =>
    cases query with
    | some query => exact .inr (.inl (Option.some.inj first).symm)
    | none =>
      cases fragment with
      | some fragment => exact .inr (.inr (Option.some.inj first).symm)
      | none => simp [marked] at first

theorem cut_of_free (free : c ∉ before) : cut c before = (before, []) := by
  simpa [marked] using cut_marked free none

theorem afterLast_append (before : List Char) (free : c ∉ last) :
    afterLast c (before ++ c :: last) = last := by
  have inside : ∀ d ∈ last.reverse, (decide (d ≠ c)) = true := fun d member => by
    simpa using ne_of_mem_of_not_mem (List.mem_reverse.mp member) free
  unfold afterLast
  rw [List.reverse_append, List.reverse_cons, List.append_assoc,
    List.takeWhile_append_of_pos inside]
  simp

theorem afterLast_of_free (free : c ∉ last) : afterLast c last = last := by
  unfold afterLast
  have whole : last.reverse.takeWhile (· ≠ c) = last.reverse :=
    List.takeWhile_eq_self_iff.mpr fun d member => by
      simpa using ne_of_mem_of_not_mem (List.mem_reverse.mp member) free
  rw [whole, List.reverse_reverse]

/-- Only the last segment of a path is cut. -/
theorem splitParameters_append (before : List Char) (free : '/' ∉ last) :
    splitParameters (before ++ '/' :: last) =
      (before ++ '/' :: (cut ';' last).1, (cut ';' last).2) := by
  have first : (before ++ '/' :: last).take ((before ++ '/' :: last).length - last.length) =
      before ++ ['/'] := by
    have whole : before ++ '/' :: last = before ++ ['/'] ++ last := by simp
    rw [whole, List.length_append, Nat.add_sub_cancel, List.take_left]
  unfold splitParameters
  simp only [afterLast_append before free, first, List.append_assoc, List.singleton_append]

end Cut

section Parse
variable {scheme authority rest : List Char}

/-- These are the parts of a URL as they are spelled. -/
structure Parts (scheme authority rest : List Char) : Prop where
  letter : (scheme.head?.map Char.isAlpha).getD false = true
  scheme : scheme.all isSchemeChar = true
  authority : ∀ c ∈ authority, c ≠ '/' ∧ c ≠ '?' ∧ c ≠ '#' ∧ isKept c = true
  rest : ∀ c ∈ rest.head?, c = '/' ∨ c = '?' ∨ c = '#'

theorem isAlphanum_iff {c : Char} : c.isAlphanum = true ↔
    ((65 ≤ c.toNat ∧ c.toNat ≤ 90) ∨ (97 ≤ c.toNat ∧ c.toNat ≤ 122)) ∨
      (48 ≤ c.toNat ∧ c.toNat ≤ 57) := by
  have upper : c.isUpper = true ↔ 65 ≤ c.toNat ∧ c.toNat ≤ 90 := decide_eq_true_iff
  have lower : c.isLower = true ↔ 97 ≤ c.toNat ∧ c.toNat ≤ 122 :=
    (Bool.and_eq_true_iff).trans (and_congr decide_eq_true_iff decide_eq_true_iff)
  have digit : c.isDigit = true ↔ 48 ≤ c.toNat ∧ c.toNat ≤ 57 :=
    (Bool.and_eq_true_iff).trans (and_congr decide_eq_true_iff decide_eq_true_iff)
  have split : c.isAlphanum = (c.isUpper || c.isLower || c.isDigit) := rfl
  rw [split, Bool.or_eq_true, Bool.or_eq_true, upper, lower, digit]

theorem visible_of_isSchemeChar {c : Char} (letter : isSchemeChar c = true) :
    0x2A < c.toNat ∧ c ≠ ':' := by
  simp only [isSchemeChar, Bool.or_eq_true, decide_eq_true_eq, isAlphanum_iff] at letter
  have colon : c.toNat ≠ 58 → c ≠ ':' := by
    rintro other rfl
    exact other rfl
  rcases letter with ((letter | rfl) | rfl) | rfl
  · exact ⟨by omega, colon (by omega)⟩
  · decide
  · decide
  · decide

theorem isKept_of_visible {c : Char} (visible : 0x20 < c.toNat) : isKept c = true := by
  have other {d : Char} (control : d.toNat ≤ 0x20) : c ≠ d := by
    rintro rfl
    omega
  simp [isKept, other (d := '\t') (by decide), other (d := '\n') (by decide),
    other (d := '\r') (by decide)]

namespace Parts

theorem clean (parts : Parts scheme authority rest) :
    Url.clean (scheme ++ ':' :: '/' :: '/' :: (authority ++ rest)) =
      scheme ++ ':' :: '/' :: '/' :: (authority ++ rest.filter isKept) := by
  have visible : ∀ c ∈ scheme, 0x20 < c.toNat := fun c member =>
    Nat.lt_trans (by decide) (visible_of_isSchemeChar (List.all_eq_true.mp parts.scheme c member)).1
  have head : ∀ c ∈ (scheme ++ ':' :: '/' :: '/' :: (authority ++ rest)).head?, 0x20 < c.toNat := by
    cases scheme with
    | nil => exact fun c first => by cases first; decide
    | cons d scheme => exact fun c first => by cases first; exact visible d List.mem_cons_self
  have kept : scheme.filter isKept = scheme :=
    List.filter_eq_self.mpr fun c member => isKept_of_visible (visible c member)
  have kept' : authority.filter isKept = authority :=
    List.filter_eq_self.mpr fun c member => (parts.authority c member).2.2.2
  rw [clean_of_head head]
  simp only [List.filter_append, kept, kept', List.filter_cons]
  rfl

theorem splitScheme? (parts : Parts scheme authority rest) (after : List Char) :
    Url.splitScheme? (scheme ++ ':' :: after) = some (scheme.map Char.toLower, after) := by
  have split : (scheme ++ ':' :: after).span (· ≠ ':') = (scheme, ':' :: after) := by
    refine span_append (fun c member => ?_) fun c first => ?_
    · simpa using (visible_of_isSchemeChar (List.all_eq_true.mp parts.scheme c member)).2
    · cases first
      rfl
  unfold Url.splitScheme?
  rw [split]
  simp only [parts.letter, parts.scheme, Bool.and_self, if_true]

theorem splitAuthority (parts : Parts scheme authority rest) :
    Url.splitAuthority ('/' :: '/' :: (authority ++ rest)) = (authority, rest) := by
  refine span_append (fun c member => ?_) fun c first => ?_
  · obtain ⟨slash, mark, hash, _⟩ := parts.authority c member
    simp [slash, mark, hash]
  · rcases parts.rest c first with rfl | rfl | rfl <;> rfl

theorem kept (parts : Parts scheme authority rest) :
    Parts scheme authority (rest.filter isKept) where
  letter := parts.letter
  scheme := parts.scheme
  authority := parts.authority
  rest := by
    have ends := parts.rest
    cases rest with
    | nil => exact fun c first => nomatch first
    | cons d rest =>
      have delimits := ends d rfl
      have stays : isKept d = true := by rcases delimits with rfl | rfl | rfl <;> rfl
      rw [List.filter_cons_of_pos stays]
      rintro c ⟨⟩
      exact delimits

/-- What is read of a text depends on its parts alone. -/
theorem parseUnder (parts : Parts scheme authority rest) (base : List Char) :
    Url.parseUnder base (scheme ++ ':' :: '/' :: '/' :: (authority ++ rest)) = (do
      checkAuthority authority
      let (rest, fragment) := cut '#' (rest.filter isKept)
      let (path, query) := cut '?' rest
      if authority.any foldsToDelimiter then
        throw (.compatibilityCharacters (String.ofList authority))
      let scheme := scheme.map Char.toLower
      let (path, parameters) :=
        if takesParameters scheme then splitParameters path else (path, [])
      return { scheme, authority, path, parameters, query, fragment }) := by
  unfold Url.parseUnder
  simp only [parts.clean, parts.splitScheme?, Option.getD_some, parts.kept.splitAuthority]

/-- The scheme and the authority that are read of a text. -/
theorem place {base : List Char} {v : Url} (parts : Parts scheme authority rest)
    (parsed : Url.parseUnder base (scheme ++ ':' :: '/' :: '/' :: (authority ++ rest)) = .ok v) :
    v.scheme = scheme.map Char.toLower ∧ v.authority = authority := by
  rw [parts.parseUnder] at parsed
  rcases checked : checkAuthority authority with e | _
  · rw [checked] at parsed
    contradiction
  · rw [checked] at parsed
    cases plain : authority.any foldsToDelimiter with
    | true =>
      simp only [plain, if_true] at parsed
      contradiction
    | false =>
      simp only [plain, Bool.false_eq_true, if_false] at parsed
      obtain rfl := Except.ok.inj parsed
      exact ⟨rfl, rfl⟩

end Parts

end Parse
end Launcher.Url
