import Launcher.Download.Entry
import Launcher.Proofs.Url.Syntax

/-! What is requested of a URL. Its scheme, its host and its port are those that the syntax finds,
and so are its path and its query, but for what stands behind a semicolon in the last segment of the
path. -/
namespace Launcher
open Url

namespace Url

/-- The forms of addresses to come are known by a small letter alone. -/
def WebHost.IsRead : WebHost → Prop
  | .future mark _ _ _ _ _ => mark = 'v'
  | _ => True

instance (host : WebHost) : Decidable host.IsRead :=
  match host with
  | .future _ _ _ _ _ _ => inferInstanceAs (Decidable (_ = _))
  | .name _ _ _ => inferInstanceAs (Decidable True)
  | .address _ _ => inferInstanceAs (Decidable True)

/-- A host as it is given out: in lower case up to its first percent sign. -/
def WebHost.lowered (host : WebHost) : List Char :=
  (host.bare.takeWhile (· ≠ '%')).map Char.toLower ++ host.bare.dropWhile (· ≠ '%')

/-- The number of a port; an empty one is none. -/
def WebUrl.number? (u : WebUrl) : Option Nat :=
  u.port.bind fun digits => if digits = [] then none else some (Number.digitsValue digits)

/-- The number of a port is one of 16 bits, and it is not too long. -/
def WebUrl.IsPortRead (u : WebUrl) : Prop :=
  ∀ digits ∈ u.port, digits.length ≤ Number.maxDigits ∧ Number.digitsValue digits ≤ 65535

instance (u : WebUrl) : Decidable u.IsPortRead :=
  inferInstanceAs (Decidable (∀ digits ∈ u.port, _))

/-- The scheme is one of those that are downloaded from. -/
def IsWeb (v : Url) : Prop := v.scheme = "http".toList ∨ v.scheme = "https".toList

/-- What is requested for a path and a query. -/
def resource (path query : List Char) : List Char :=
  (if path = [] then ['/'] else path) ++ (if query = [] then [] else '?' :: query)

section Host
variable (u : WebUrl)

theorem WebUrl.afterLast_authority : afterLast '@' u.authority = u.authority := by
  refine afterLast_of_free fun member => ?_
  exact ne_of_class (u.isHostChar_of_mem member) (show isHostChar '@' = false by decide) rfl

theorem WebUrl.bracket_not_mem_port {c : Char} (colon : c ≠ ':')
    (other : Number.isDigit c = false) : c ∉ marked ':' u.port := by
  cases port : u.port with
  | none => exact List.not_mem_nil
  | some digits =>
    intro member
    rcases List.mem_cons.mp member with same | digit
    · exact colon same
    · exact ne_of_class (u.decimal digits port c digit) other rfl

/-- A host with brackets is what stands between them. -/
theorem cut_brackets {bare : List Char} (free : ']' ∉ bare) (behind : List Char) :
    cut ']' (cut '[' ('[' :: (bare ++ [']']) ++ behind)).2 = (bare, behind) := by
  have first := cut_marked (c := '[') List.not_mem_nil (some (bare ++ ']' :: behind))
  have second := cut_marked free (some behind)
  simp only [List.nil_append, marked, Option.getD_some] at first second
  simp [first, second]

/-- A host stands as it is, with a colon behind it at most, or in brackets. -/
theorem WebHost.text_cases (host : WebHost) :
    (∃ text some spelled, host = .name text some spelled) ∨
      host.text = '[' :: (host.bare ++ [']']) := by
  cases host with
  | name text some spelled => exact .inl ⟨text, some, spelled, rfl⟩
  | address => exact .inr rfl
  | future => exact .inr rfl

theorem WebHost.brackets_not_mem (host : WebHost) : '[' ∉ host.bare ∧ ']' ∉ host.bare :=
  ⟨not_mem_bare (by decide) (by decide) (by decide),
    not_mem_bare (by decide) (by decide) (by decide)⟩

/-- The brackets of an authority are those of its host. -/
theorem WebUrl.bracket_not_mem {text : List Char} {some : text ≠ []}
    {spelled : isSpelled isNameChar text = true} (named : u.host = .name text some spelled) :
    u.authority = text ++ marked ':' u.port ∧ '[' ∉ u.authority ∧ ']' ∉ u.authority := by
  have whole : u.authority = text ++ marked ':' u.port := by rw [WebUrl.authority, named]; rfl
  have free := named ▸ u.host.brackets_not_mem
  rw [whole, List.mem_append, List.mem_append, not_or, not_or]
  exact ⟨rfl, ⟨free.1, u.bracket_not_mem_port (by decide) (by decide)⟩, free.2,
    u.bracket_not_mem_port (by decide) (by decide)⟩

theorem WebUrl.hostAndPort_authority {v : Url} (same : v.authority = u.authority) :
    v.hostAndPort = (u.host.bare, u.port.getD []) := by
  unfold hostAndPort
  simp only [same, u.afterLast_authority]
  rcases u.host.text_cases with ⟨text, some, spelled, named⟩ | bracketed
  · obtain ⟨whole, free, _⟩ := u.bracket_not_mem named
    have colonless : ':' ∉ text := fun member => by
      rcases mem_of_isSpelled id spelled member with name | percent
      · exact ne_of_class name (show isNameChar ':' = false by decide) rfl
      · contradiction
    rw [if_neg (by simpa using free), whole, cut_marked colonless, named]
    rfl
  · have whole : u.authority = '[' :: (u.host.bare ++ [']']) ++ marked ':' u.port := by
      rw [WebUrl.authority, bracketed]
    have behind := cut_marked (c := ':') List.not_mem_nil u.port
    rw [List.nil_append] at behind
    rw [if_pos (by simp [whole]), whole, cut_brackets u.host.brackets_not_mem.2, behind]

theorem splitHost_brackets {bare : List Char} (free : ']' ∉ bare) (port : Option (List Char)) :
    splitHost ('[' :: (bare ++ [']']) ++ marked ':' port) = .ok bare := by
  have split : ('[' :: (bare ++ [']']) ++ marked ':' port).span (· ≠ '[') =
      ([], '[' :: (bare ++ [']']) ++ marked ':' port) := rfl
  have cut := cut_marked free (some (marked ':' port))
  rw [marked, Option.getD_some] at cut
  unfold splitHost
  rw [split]
  simp only [List.cons_append, List.append_assoc, List.nil_append, cut]
  cases port <;> rfl

/-- Between brackets stands an address that is read. -/
theorem WebUrl.checkAuthority_brackets (bracketed : u.host.text = '[' :: (u.host.bare ++ [']'])) :
    checkAuthority u.authority = .ok () ↔
      (if u.host.bare.head? = some 'v' then isFutureAddress u.host.bare
        else !isAddress4 u.host.bare && isAddress6 u.host.bare) = true := by
  have whole : u.authority = '[' :: (u.host.bare ++ [']']) ++ marked ':' u.port := by
    rw [WebUrl.authority, bracketed]
  have opened : u.authority.contains '[' = true := by simp [whole]
  have closed : u.authority.contains ']' = true := by simp [whole]
  have host : splitHost u.authority = .ok u.host.bare := by
    rw [whole]
    exact splitHost_brackets u.host.brackets_not_mem.2 u.port
  unfold checkAuthority
  simp only [opened, closed, u.afterLast_authority, host, bne_self_eq_false, Bool.false_eq_true,
    if_false, if_true]
  show (if u.host.bare.head? = some 'v' then _ else _) = _ ↔ _
  by_cases mark : u.host.bare.head? = some 'v'
  · rw [if_pos mark, if_pos mark]
    cases isFutureAddress u.host.bare <;>
      simp [throw, throwThe, MonadExceptOf.throw, pure, Except.pure]
  · rw [if_neg mark, if_neg mark]
    cases isAddress4 u.host.bare
    · cases isAddress6 u.host.bare <;>
        simp [throw, throwThe, MonadExceptOf.throw, pure, Except.pure]
    · simp [throw, throwThe, MonadExceptOf.throw]

theorem isFutureAddress_of_parts {version place : List Char}
    (versioned : version ≠ [] ∧ ∀ c ∈ version, isHexDigit c = true)
    (placed : place ≠ [] ∧ ∀ c ∈ place, isNameChar c = true ∨ c = ':') :
    isFutureAddress ('v' :: (version ++ '.' :: place)) = true := by
  have split : (version ++ '.' :: place).span isHexDigit = (version, '.' :: place) :=
    span_append versioned.2 fun c first => by cases first; decide
  have line : '\n' ∉ place := fun member => by
    rcases placed.2 _ member with name | colon
    · exact absurd name (by decide)
    · contradiction
  unfold isFutureAddress
  simp only [split]
  simpa [versioned.1, placed.1] using line

/-- An authority is refused for an address of a form to come whose letter is a capital. -/
theorem WebUrl.checkAuthority_ok_iff : checkAuthority u.authority = .ok () ↔ u.host.IsRead := by
  cases host : u.host with
  | name text some spelled =>
    obtain ⟨_, opened, closed⟩ := u.bracket_not_mem host
    have open' : u.authority.contains '[' = false := by simpa using opened
    have closed' : u.authority.contains ']' = false := by simpa using closed
    refine iff_of_true ?_ trivial
    simp only [checkAuthority, open', closed', bne_self_eq_false, Bool.false_eq_true, if_false]
    rfl
  | address text valid =>
    have bare : u.host.bare = text := by rw [host]; rfl
    rw [u.checkAuthority_brackets (by rw [host]; rfl), bare]
    refine iff_of_true ?_ trivial
    have mark : text.head? ≠ some 'v' := fun first => by
      rcases valid.mem (List.mem_of_head? first) with digit | same | same
      · exact absurd digit (by decide)
      · contradiction
      · contradiction
    rw [if_neg mark, valid.isAddress6, valid.not_isAddress4]
    rfl
  | future mark version place marks versioned placed =>
    have bare : u.host.bare = mark :: (version ++ '.' :: place) := by rw [host]; rfl
    rw [u.checkAuthority_brackets (by rw [host]; rfl), bare]
    rcases marks with rfl | rfl
    · refine iff_of_true ?_ rfl
      rw [List.head?_cons, if_pos rfl]
      exact isFutureAddress_of_parts versioned placed
    · have capital : ¬ ('V' = 'v') := by decide
      refine iff_of_false (fun read => ?_) capital
      rw [List.head?_cons, if_neg (by decide), Bool.and_eq_true] at read
      rcases head_of_isAddress6 read.2 (by decide) with digit | colon
      · exact absurd digit (by decide)
      · contradiction

theorem lower_of_ascii {text : List Char} (ascii : ∀ c ∈ text, c.toNat < 0x80) :
    Text.lower text = text.map Char.toLower := by
  have each (afterCased : Bool) : Text.lowerFrom afterCased text = text.map Char.toLower := by
    induction text generalizing afterCased with
    | nil => rfl
    | cons c text ih =>
      have first : c.toNat < 0x80 := ascii c List.mem_cons_self
      have other : c ≠ 'Σ' := by
        rintro rfl
        exact absurd first (by decide)
      have low : Text.lowerChar c = [c.toLower] := if_pos first
      rw [Text.lowerFrom, ih fun d member => ascii d (List.mem_cons_of_mem _ member)]
      simp [other, low]
  exact each false

theorem WebUrl.host_authority {v : Url} (same : v.authority = u.authority) :
    v.host = u.host.lowered := by
  have ascii : ∀ c ∈ u.host.bare.takeWhile (· ≠ '%'), c.toNat < 0x80 := by
    intro c member
    rcases WebHost.mem_bare (List.takeWhile_subset _ member) with name | rfl | rfl
    · exact (isUrlChar_range (isUrlChar_of_isNameChar name)).2
    · decide
    · decide
  unfold Url.host WebHost.lowered
  rw [u.hostAndPort_authority same, List.span_eq_takeWhile_dropWhile]
  simp only [lower_of_ascii ascii]

theorem WebHost.lowered_ne_nil (host : WebHost) : host.lowered ≠ [] := by
  intro none
  have both := List.append_eq_nil_iff.mp none
  apply host.bare_ne_nil
  rw [← List.takeWhile_append_dropWhile (p := (· ≠ '%')) (l := host.bare), both.2,
    List.map_eq_nil_iff.mp both.1]
  rfl

theorem WebUrl.port_authority {v : Url} (same : v.authority = u.authority) :
    (v.port = .ok u.number? ∧ u.IsPortRead) ∨ ((∃ e, v.port = .error e) ∧ ¬ u.IsPortRead) := by
  unfold Url.port WebUrl.number? WebUrl.IsPortRead
  rw [u.hostAndPort_authority same]
  cases port : u.port with
  | none => exact .inl ⟨rfl, nofun⟩
  | some digits =>
    have decimal : digits.all Number.isDigit = true := List.all_eq_true.mpr (u.decimal digits port)
    by_cases none : digits = []
    · subst none
      exact .inl ⟨rfl, by simp [Number.digitsValue]⟩
    · simp only [Option.getD_some, List.isEmpty_iff, none, if_false, decimal, if_true,
        Option.bind_some, Option.mem_def, Option.some.injEq, forall_eq']
      split
      · exact .inr ⟨⟨_, rfl⟩, by omega⟩
      · split
        · exact .inl ⟨rfl, by omega⟩
        · exact .inr ⟨⟨_, rfl⟩, by omega⟩

end Host

end Url

namespace DownloadTarget

theorem isWeb_iff {v : Url} : v.IsWeb ↔
    ¬ (String.ofList v.scheme ≠ "http" ∧ String.ofList v.scheme ≠ "https") := by
  have spelled (text : String) : v.scheme = text.toList ↔ String.ofList v.scheme = text := by
    rw [← String.toList_inj, String.toList_ofList]
  rw [IsWeb, spelled, spelled, not_and_or, not_not, not_not]

/-- The target of a URL that was parsed, if its port is read. -/
theorem ofUrl_of_parse {url : String} {v : Url} (parsed : parse url.toList = .ok v)
    (web : v.IsWeb) (named : v.host ≠ []) :
    ofUrl url = v.port.map fun port => ⟨v.scheme = "https".toList, String.ofList v.host, port,
      String.ofList (resource v.path v.query)⟩ := by
  have https : decide (String.ofList v.scheme = "https") = decide (v.scheme = "https".toList) := by
    rcases web with web | web <;> rw [web] <;> decide
  have target : (if v.query.isEmpty then (if v.path.isEmpty then ['/'] else v.path)
      else (if v.path.isEmpty then ['/'] else v.path) ++ '?' :: v.query) =
      resource v.path v.query := by
    simp only [resource, List.isEmpty_iff]
    split <;> simp
  have some : v.host.isEmpty = false := by simpa using named
  unfold ofUrl
  rw [parsed]
  simp only [bind, Except.bind, if_neg (isWeb_iff.mp web), some, Bool.false_eq_true, if_false,
    target, https]
  cases v.port <;> rfl

/-- A URL is read if it is parsed, its scheme is that of the web, and it has a host and no wrong
port. -/
theorem ofUrl_iff {url : String} {t : DownloadTarget} :
    ofUrl url = .ok t ↔ ∃ v port, parse url.toList = .ok v ∧ v.IsWeb ∧ v.host ≠ [] ∧
      v.port = .ok port ∧ t = ⟨v.scheme = "https".toList, String.ofList v.host, port,
        String.ofList (resource v.path v.query)⟩ := by
  constructor
  · intro read
    rcases parsed : parse url.toList with e | v
    · rw [ofUrl, parsed] at read
      contradiction
    by_cases web : v.IsWeb
    · by_cases named : v.host = []
      · rw [ofUrl, parsed] at read
        simp only [bind, Except.bind, if_neg (isWeb_iff.mp web), named] at read
        contradiction
      · rw [ofUrl_of_parse parsed web named] at read
        rcases ported : v.port with e | port
        · rw [ported] at read
          contradiction
        · rw [ported] at read
          exact ⟨v, port, rfl, web, named, ported, (Except.ok.inj read).symm⟩
    · rw [ofUrl, parsed] at read
      simp only [bind, Except.bind, if_pos (not_not.mp (mt isWeb_iff.mpr web))] at read
      contradiction
  · rintro ⟨v, port, parsed, web, named, ported, rfl⟩
    rw [ofUrl_of_parse parsed web named, ported]
    rfl

section Syntax
variable (u : WebUrl)

/-- The target of a URL that is read. -/
def ofWebUrl (u : WebUrl) : DownloadTarget where
  https := u.scheme.map Char.toLower = "https".toList
  host := String.ofList u.host.lowered
  port := u.number?
  target := String.ofList (resource (pathText (bareSegments u.segments)) (u.query.getD []))

/-- A URL is read as the syntax has it, unless its host or its port is not. -/
theorem ofUrl_text :
    (ofUrl (String.ofList u.text) = .ok (ofWebUrl u) ∧ u.host.IsRead ∧ u.IsPortRead) ∨
      ((∃ e, ofUrl (String.ofList u.text) = .error e) ∧ ¬ (u.host.IsRead ∧ u.IsPortRead)) := by
  have parsed := u.parse_text
  rcases checked : checkAuthority u.authority with e | _
  · right
    rw [checked] at parsed
    have unread : ¬ u.host.IsRead := by
      rw [← u.checkAuthority_ok_iff, checked]
      exact nofun
    refine ⟨⟨e, ?_⟩, fun read => unread read.1⟩
    rw [ofUrl, String.toList_ofList, parsed]
    rfl
  · have read : u.host.IsRead := u.checkAuthority_ok_iff.mp checked
    rw [checked, ← String.toList_ofList (l := u.text)] at parsed
    have whole := ofUrl_of_parse parsed u.web (by
      rw [u.host_authority rfl]
      exact u.host.lowered_ne_nil)
    rw [whole, u.host_authority rfl]
    rcases u.port_authority (v := ⟨_, u.authority, _, _, _, _⟩) rfl with
      ⟨port, inside⟩ | ⟨⟨e, port⟩, outside⟩
    · left
      rw [port]
      exact ⟨rfl, read, inside⟩
    · right
      rw [port]
      exact ⟨⟨e, rfl⟩, fun both => outside both.2⟩

theorem cut_length_lt {c : Char} {text : List Char} (member : c ∈ text) :
    (cut c text).1.length < text.length := by
  have shorter := (List.takeWhile_prefix (p := (· ≠ c)) (l := text)).length_le
  unfold cut
  rw [List.span_eq_takeWhile_dropWhile]
  refine Nat.lt_of_le_of_ne shorter fun same => ?_
  have whole := (List.takeWhile_prefix (p := (· ≠ c)) (l := text)).eq_of_length same
  simpa using List.takeWhile_eq_self_iff.mp whole c member

/-- What is requested is shorter than the URL has it if the last segment has a semicolon. -/
theorem resource_bareSegments (segments : List (List Char)) (query : List Char) :
    resource (pathText (bareSegments segments)) query = resource (pathText segments) query ↔
      ∀ last ∈ segments.getLast?, ';' ∉ last := by
  rcases List.eq_nil_or_concat segments with rfl | ⟨before, last, rfl⟩
  · exact iff_of_true rfl nofun
  simp only [bareSegments, List.concat_eq_append, List.getLast?_concat, List.dropLast_concat,
    resource, pathText_concat, List.append_eq_nil_iff, List.cons_ne_nil, and_false, if_false,
    List.append_cancel_right_eq, List.append_cancel_left_eq, List.cons.injEq, true_and,
    Option.mem_def, Option.some.injEq, forall_eq']
  constructor
  · intro same member
    exact absurd (congrArg List.length same) (Nat.ne_of_lt (cut_length_lt member))
  · intro free
    rw [cut_of_free free]

/-- A host is given out in lower case but for capitals behind a percent sign. -/
theorem lowered_eq (host : WebHost) : host.lowered = host.bare.map Char.toLower ↔
    ∀ c ∈ host.bare.dropWhile (· ≠ '%'), c.toLower = c := by
  have whole : host.bare.map Char.toLower =
      (host.bare.takeWhile (· ≠ '%')).map Char.toLower ++
        (host.bare.dropWhile (· ≠ '%')).map Char.toLower := by
    rw [← List.map_append, List.takeWhile_append_dropWhile]
  rw [whole, WebHost.lowered, List.append_cancel_left_eq, eq_comm]
  nth_rewrite 2 [← List.map_id (host.bare.dropWhile (· ≠ '%'))]
  rw [List.map_inj_left]
  rfl

/-- The target of a URL is made of what the syntax finds in it. Nothing of the URL is lost but what
stands behind a semicolon in the last segment of its path, and no target is made if the number of
its port is not one of 16 bits, or if a capital marks the form of its address. -/
theorem ofUrl_webUrl (u : WebUrl) :
    ((∃ target, ofUrl (String.ofList u.text) = .ok target) ↔ u.host.IsRead ∧ u.IsPortRead) ∧
    ∀ target, ofUrl (String.ofList u.text) = .ok target →
      (target.https = true ↔ u.scheme.map Char.toLower = "https".toList) ∧
      target.port = u.number? ∧
      target.host = String.ofList u.host.lowered ∧
      (target.host = String.ofList (u.host.bare.map Char.toLower) ↔
        ∀ c ∈ u.host.bare.dropWhile (· ≠ '%'), c.toLower = c) ∧
      target.target =
        String.ofList (resource (pathText (bareSegments u.segments)) (u.query.getD [])) ∧
      (target.target = String.ofList (resource (pathText u.segments) (u.query.getD [])) ↔
        ∀ last ∈ u.segments.getLast?, ';' ∉ last) := by
  rcases ofUrl_text u with ⟨read, host, port⟩ | ⟨⟨e, refused⟩, unread⟩
  · refine ⟨iff_of_true ⟨_, read⟩ ⟨host, port⟩, fun target same => ?_⟩
    rw [read] at same
    obtain rfl := Except.ok.inj same
    refine ⟨decide_eq_true_iff, rfl, rfl, ?_, rfl, ?_⟩
    · rw [← lowered_eq]
      exact String.ofList_inj
    · rw [← resource_bareSegments _ (u.query.getD [])]
      exact String.ofList_inj
  · constructor
    · refine iff_of_false (fun ⟨target, read⟩ => ?_) unread
      rw [refused] at read
      contradiction
    · intro target read
      rw [refused] at read
      contradiction

/-- A URL with segments of dots, and with a question mark in its query. -/
def dotsUrl : WebUrl where
  scheme := "HTTP".toList
  host := .name "Ex%41.org".toList (by decide) (by decide)
  port := some "8080".toList
  segments := ["a".toList, "..".toList, "b%20;".toList, "".toList]
  query := some "c=?/".toList
  fragment := some "d".toList
  web := by decide
  decimal := by simp [Number.isDigit]
  plain := by decide
  queried := by decide
  fragmented := by decide

theorem ofUrl_webUrl_dots : ∃ target,
    ofUrl "HTTP://Ex%41.org:8080/a/../b%20;/?c=?/#d" = .ok target ∧ target.https = false ∧
      target.host = "ex%41.org" ∧ target.port = some 8080 ∧
      target.target = "/a/../b%20;/?c=?/" := by
  have text : String.ofList dotsUrl.text = "HTTP://Ex%41.org:8080/a/../b%20;/?c=?/#d" := by decide
  obtain ⟨reads, pieces⟩ := ofUrl_webUrl dotsUrl
  rw [text] at reads pieces
  obtain ⟨target, read⟩ := reads.mpr ⟨by decide, by decide⟩
  obtain ⟨https, port, _, host, _, whole⟩ := pieces target read
  refine ⟨target, read, ?_, ?_, port.trans (by decide), ?_⟩
  · exact Bool.eq_false_iff.mpr fun secure => absurd (https.mp secure) (by decide)
  · exact (host.mpr (by simp [dotsUrl, WebHost.bare])).trans (by decide)
  · exact (whole.mpr (by decide)).trans (by decide)

end Syntax

/-- A URL whose last segment has parameters. -/
def parametersUrl : WebUrl where
  scheme := "http".toList
  host := .name "h".toList (by decide) (by decide)
  port := none
  segments := ["a;b".toList]
  query := some "c".toList
  fragment := none
  web := by decide
  decimal := by decide
  plain := by decide
  queried := by decide
  fragmented := by decide

/-- The parameters of the last segment are not requested. -/
theorem parameters_dropped :
    String.ofList parametersUrl.text = "http://h/a;b?c" ∧
      resource (pathText parametersUrl.segments) (parametersUrl.query.getD []) =
        "/a;b?c".toList ∧
      ofUrl "http://h/a;b?c" = .ok ⟨false, "h", none, "/a?c"⟩ := by
  refine ⟨by decide, by decide, by decide⟩

end DownloadTarget
end Launcher
