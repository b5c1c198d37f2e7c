import Launcher.Download.Worker
import Launcher.Proofs.Url.Target

/-! References resolved against the URL of a download. A reference with a scheme and an authority of
its own leads to one target whatever it is resolved against, and one without an authority stays at
the origin of its base. -/
namespace Launcher.Url

section Cut
variable {c d : Char} {text : List Char}

theorem cut_eq (c : Char) (text : List Char) :
    cut c text = (text.takeWhile (· ≠ c), (text.dropWhile (· ≠ c)).drop 1) := by
  unfold cut
  rw [List.span_eq_takeWhile_dropWhile]

theorem mem_cut_before (member : d ∈ (cut c text).1) : d ∈ text ∧ d ≠ c := by
  rw [cut_eq] at member
  exact ⟨List.takeWhile_subset _ member, by simpa using List.mem_takeWhile_imp member⟩

theorem mem_cut_after (member : d ∈ (cut c text).2) : d ∈ text := by
  rw [cut_eq] at member
  exact List.dropWhile_subset _ (List.mem_of_mem_drop member)

theorem head_of_cut (first : (cut c text).1.head? = some d) : text.head? = some d ∧ d ≠ c := by
  rw [cut_eq] at first
  cases text with
  | nil => contradiction
  | cons e rest =>
    by_cases stop : e = c
    · simp [stop] at first
    · simp only [ne_eq, stop, not_false_eq_true, decide_true, List.takeWhile_cons_of_pos,
        List.head?_cons, Option.some.injEq] at first ⊢
      exact ⟨first, first ▸ stop⟩

end Cut

/-- What is read of a text, by the places where it is split. -/
structure Splits (base text : List Char) (v : Url) (after rest : List Char) : Prop where
  scheme : (splitScheme? (clean text)).getD (base, clean text) = (v.scheme, after)
  authority : splitAuthority after = (v.authority, rest)
  checked : checkAuthority v.authority = .ok ()
  plain : v.authority.any foldsToDelimiter = false
  path : (v.path, v.parameters) =
    if takesParameters v.scheme then splitParameters (cut '?' (cut '#' rest).1).1
    else ((cut '?' (cut '#' rest).1).1, [])
  query : v.query = (cut '?' (cut '#' rest).1).2
  fragment : v.fragment = (cut '#' rest).2

section Splits
variable {base text after rest : List Char} {v : Url}

theorem splits_of_parseUnder (parsed : parseUnder base text = .ok v) :
    ∃ after rest, Splits base text v after rest := by
  unfold parseUnder at parsed
  rcases first : (splitScheme? (clean text)).getD (base, clean text) with ⟨scheme, after⟩
  rcases second : splitAuthority after with ⟨authority, rest⟩
  simp only [first, second] at parsed
  rcases checked : checkAuthority authority with e | _
  · rw [checked] at parsed
    contradiction
  · cases plain : authority.any foldsToDelimiter with
    | true =>
      rw [checked] at parsed
      simp only [plain, if_true] at parsed
      contradiction
    | false =>
      rw [checked] at parsed
      simp only [plain, Bool.false_eq_true, if_false] at parsed
      obtain rfl := Except.ok.inj parsed
      exact ⟨after, rest, first, second, checked, plain, rfl, rfl, rfl⟩

theorem splitScheme?_some {scheme : List Char} (split : splitScheme? text = some (scheme, after)) :
    ∃ raw, text = raw ++ ':' :: after ∧ (raw.head?.map Char.isAlpha).getD false = true ∧
      raw.all isSchemeChar = true ∧ scheme = raw.map Char.toLower := by
  unfold splitScheme? at split
  rw [List.span_eq_takeWhile_dropWhile] at split
  simp only at split
  split at split
  · rename_i behind
    split at split
    · rename_i letters
      rw [Bool.and_eq_true] at letters
      obtain ⟨rfl, rfl⟩ := Prod.mk.inj (Option.some.inj split)
      exact ⟨_, by rw [← behind, List.takeWhile_append_dropWhile], letters.1, letters.2, rfl⟩
    · contradiction
  · contradiction

/-- What is left of a text when its authority is taken off. -/
theorem splitAuthority_eq {authority : List Char}
    (split : splitAuthority after = (authority, rest)) :
    (∀ c ∈ authority, c ∈ after ∧ c ≠ '/' ∧ c ≠ '?' ∧ c ≠ '#') ∧ (∀ c ∈ rest, c ∈ after) ∧
      (authority ≠ [] → ∀ c ∈ rest.head?, c = '/' ∨ c = '?' ∨ c = '#') := by
  unfold splitAuthority at split
  split at split
  · rename_i behind
    rw [List.span_eq_takeWhile_dropWhile] at split
    obtain ⟨rfl, rfl⟩ := Prod.mk.inj split
    refine ⟨fun c member => ⟨?_, ?_⟩, fun c member => ?_, fun _ c first => ?_⟩
    · exact List.mem_cons_of_mem _ (List.mem_cons_of_mem _ (List.takeWhile_subset _ member))
    · simpa [and_assoc] using List.mem_takeWhile_imp member
    · exact List.mem_cons_of_mem _ (List.mem_cons_of_mem _ (List.dropWhile_subset _ member))
    · have stops := List.head?_dropWhile_not (fun c => c ≠ '/' && c ≠ '?' && c ≠ '#') behind
      rw [show (behind.dropWhile _).head? = some c from first] at stops
      by_contra other
      simp only [not_or] at other
      simp [other] at stops
  · obtain ⟨rfl, rfl⟩ := Prod.mk.inj split
    exact ⟨fun c none => absurd none List.not_mem_nil, fun _ => id, absurd rfl⟩

namespace Splits

theorem kept (splits : Splits base text v after rest) : ∀ c ∈ after, isKept c = true := by
  have cleaned : ∀ c ∈ clean text, isKept c = true := fun c member => (List.mem_filter.mp member).2
  have scheme := splits.scheme
  cases split : splitScheme? (clean text) with
  | none =>
    rw [split] at scheme
    rwa [← (Prod.mk.inj scheme).2]
  | some parts =>
    rw [split, Option.getD_some] at scheme
    obtain ⟨raw, whole, _⟩ := splitScheme?_some (split.trans (congrArg some scheme))
    intro c member
    exact cleaned c (by simp [whole, member])

theorem authority_chars (splits : Splits base text v after rest) :
    ∀ c ∈ v.authority, c ≠ '/' ∧ c ≠ '?' ∧ c ≠ '#' ∧ isKept c = true := by
  intro c member
  obtain ⟨inside, slash, mark, hash⟩ := (splitAuthority_eq splits.authority).1 c member
  exact ⟨slash, mark, hash, splits.kept c inside⟩

end Splits
end Splits

/-- A part that is left out if it is empty. -/
def present (part : List Char) : Option (List Char) := if part = [] then none else some part

theorem getD_present (part : List Char) : (present part).getD [] = part := by
  unfold present
  split
  · simp [*]
  · rfl

theorem marked_present (c : Char) (part : List Char) :
    marked c (present part) = if part.isEmpty then [] else c :: part := by
  cases part <;> rfl

/-- A path as it stands behind an authority. -/
def rooted (path : List Char) : List Char :=
  if !path.isEmpty && path.head? ≠ some '/' then '/' :: path else path

theorem rooted_head (path : List Char) : ∀ c ∈ (rooted path).head?, c = '/' := by
  unfold rooted
  intro c first
  split at first
  · exact (Option.some.inj first).symm
  · rename_i slash
    cases path with
    | nil => contradiction
    | cons d path =>
      obtain rfl := Option.some.inj first
      simpa using slash

/-- Behind an authority every part has its place. -/
theorem text_eq (u : Url) (schemed : u.scheme ≠ []) (named : u.authority ≠ []) :
    u.text = u.scheme ++ ':' :: '/' :: '/' :: (u.authority ++
      (rooted (u.path ++ marked ';' (present u.parameters)) ++ marked '?' (present u.query) ++
        marked '#' (present u.fragment))) := by
  have path : (if u.parameters.isEmpty then u.path else u.path ++ ';' :: u.parameters) =
      u.path ++ marked ';' (present u.parameters) := by
    rw [marked_present]
    split <;> simp
  have scheme : u.scheme.isEmpty = false := by simpa using schemed
  have authority : u.authority.isEmpty = false := by simpa using named
  unfold text
  simp only [path, scheme, authority, Bool.not_false, Bool.true_or, if_true, Bool.false_eq_true,
    if_false, ← marked_present, List.append_assoc, List.cons_append, List.nil_append, rooted]

/-- Parameters that are put behind a path are found there again. -/
theorem splitParameters_rejoin {whole path parameters : List Char}
    (slash : ∀ c ∈ whole.head?, c = '/') (split : splitParameters whole = (path, parameters)) :
    rooted (path ++ marked ';' (present parameters)) = path ++ marked ';' (present parameters) ∧
      splitParameters (path ++ marked ';' (present parameters)) = (path, parameters) ∧
      ∀ c ∈ path ++ marked ';' (present parameters), c ∈ whole ∨ c = ';' := by
  by_cases none : whole = []
  · subst none
    obtain ⟨rfl, rfl⟩ := Prod.mk.inj split
    exact ⟨rfl, rfl, by simp [present, marked]⟩
  have slashed : '/' ∈ whole := by
    obtain ⟨c, rest, rfl⟩ := List.exists_cons_of_ne_nil none
    rw [slash c rfl]
    exact List.mem_cons_self
  obtain ⟨before, last, rfl, free⟩ : ∃ before last, whole = before ++ '/' :: last ∧ '/' ∉ last := by
    obtain ⟨last, before, same, free⟩ := List.eq_append_cons_of_mem (List.mem_reverse.mpr slashed)
    refine ⟨before.reverse, last.reverse, ?_, by simpa using free⟩
    rw [← List.reverse_reverse whole, same]
    simp
  rw [splitParameters_append before free] at split
  obtain ⟨rfl, rfl⟩ := Prod.mk.inj split
  have apart : ';' ∉ (cut ';' last).1 := fun member => (mem_cut_before member).2 rfl
  have behind : ∀ c ∈ (cut ';' last).1 ++ marked ';' (present (cut ';' last).2),
      c ∈ last ∨ c = ';' := by
    intro c member
    rw [marked_present, List.mem_append] at member
    rcases member with first | second
    · exact .inl (mem_cut_before first).1
    · split at second
      · contradiction
      · exact (List.mem_cons.mp second).symm.imp_left mem_cut_after
  have slashless : '/' ∉ (cut ';' last).1 ++ marked ';' (present (cut ';' last).2) := by
    intro member
    rcases behind _ member with inside | mark
    · exact free inside
    · contradiction
  rw [List.append_assoc, List.cons_append]
  refine ⟨?_, ?_, fun c member => ?_⟩
  · have first : (before ++ '/' :: ((cut ';' last).1 ++
        marked ';' (present (cut ';' last).2))).head? = some '/' := by
      cases before with
      | nil => rfl
      | cons c before => exact congrArg some (slash c rfl)
    exact if_neg (by simp [first])
  · rw [splitParameters_append before slashless, cut_marked apart, getD_present]
  · simp only [List.mem_append, List.mem_cons] at member ⊢
    rcases member with inside | same | later
    · exact .inl (.inl inside)
    · exact .inl (.inr (.inl same))
    · exact (behind c (List.mem_append.mpr later)).imp_left fun inside => .inr (.inr inside)

theorem IsWeb.letters {v : Url} (web : v.IsWeb) :
    (v.scheme.head?.map Char.isAlpha).getD false = true ∧ v.scheme.all isSchemeChar = true ∧
      v.scheme.map Char.toLower = v.scheme ∧ v.scheme ≠ [] ∧ takesParameters v.scheme = true := by
  rcases web with web | web <;> rw [web] <;> decide

theorem parts_of_text {u : Url} (web : u.IsWeb)
    (plain : ∀ c ∈ u.authority, c ≠ '/' ∧ c ≠ '?' ∧ c ≠ '#' ∧ isKept c = true) :
    Parts u.scheme u.authority (rooted (u.path ++ marked ';' (present u.parameters)) ++
      marked '?' (present u.query) ++ marked '#' (present u.fragment)) where
  letter := web.letters.1
  scheme := web.letters.2.1
  authority := plain
  rest := head_of_marked (rooted_head _) _ _

section Text
variable {base text after rest : List Char} {u v w : Url}

/-- The text of a URL is read with its scheme and its authority. -/
theorem place_of_parse_text (web : u.IsWeb) (named : u.authority ≠ [])
    (plain : ∀ c ∈ u.authority, c ≠ '/' ∧ c ≠ '?' ∧ c ≠ '#' ∧ isKept c = true)
    (parsed : parse u.text = .ok w) : w.scheme = u.scheme ∧ w.authority = u.authority := by
  rw [text_eq u web.letters.2.2.2.1 named] at parsed
  obtain ⟨scheme, authority⟩ := (parts_of_text web plain).place parsed
  exact ⟨scheme.trans web.letters.2.2.1, authority⟩

/-- What was read of a text with an authority is read of its own text. -/
theorem Splits.parse_text (splits : Splits base text v after rest) (web : v.IsWeb)
    (named : v.authority ≠ []) : parse v.text = .ok v := by
  obtain ⟨_, inside, delimited⟩ := splitAuthority_eq splits.authority
  have slash : ∀ c ∈ (cut '?' (cut '#' rest).1).1.head?, c = '/' := by
    intro c first
    obtain ⟨first, mark⟩ := head_of_cut first
    obtain ⟨first, hash⟩ := head_of_cut first
    exact (delimited named c first).resolve_right (not_or.mpr ⟨mark, hash⟩)
  obtain ⟨same, split, chars⟩ := splitParameters_rejoin slash
    (by rw [splits.path, if_pos web.letters.2.2.2.2])
  -- No part has a character at which it would be cut, so that each of them ends where it did.
  have mark : '?' ∉ v.path ++ marked ';' (present v.parameters) := fun member => by
    rcases chars _ member with whole | other
    · exact (mem_cut_before whole).2 rfl
    · contradiction
  have before : ∀ c ∈ v.path ++ marked ';' (present v.parameters) ++ marked '?' (present v.query),
      c ∈ (cut '#' rest).1 ∨ c = ';' ∨ c = '?' := by
    intro c member
    rw [marked_present '?', List.mem_append] at member
    rcases member with path | query
    · exact (chars c path).imp (fun whole => (mem_cut_before whole).1) .inl
    · split at query
      · contradiction
      · rcases List.mem_cons.mp query with rfl | query
        · exact .inr (.inr rfl)
        · exact .inl (mem_cut_after (splits.query ▸ query))
  have hash : '#' ∉ v.path ++ marked ';' (present v.parameters) ++ marked '?' (present v.query) :=
    fun member => by
      rcases before _ member with whole | other | other
      · exact (mem_cut_before whole).2 rfl
      · contradiction
      · contradiction
  have kept : (v.path ++ marked ';' (present v.parameters) ++ marked '?' (present v.query) ++
      marked '#' (present v.fragment)).filter isKept =
      v.path ++ marked ';' (present v.parameters) ++ marked '?' (present v.query) ++
        marked '#' (present v.fragment) := by
    have original (c : Char) (member : c ∈ rest) : isKept c = true :=
      splits.kept c (inside c member)
    refine List.filter_eq_self.mpr fun c member => ?_
    rcases List.mem_append.mp member with member | fragment
    · rcases before c member with whole | rfl | rfl
      · exact original c (mem_cut_before whole).1
      · rfl
      · rfl
    · rw [marked_present] at fragment
      split at fragment
      · contradiction
      · rcases List.mem_cons.mp fragment with rfl | fragment
        · rfl
        · exact original c (mem_cut_after (splits.fragment ▸ fragment))
  have parts := parts_of_text web splits.authority_chars
  rw [same] at parts
  rw [text_eq v web.letters.2.2.2.1 named, same, parse, parts.parseUnder, kept]
  simp only [splits.checked, cut_marked hash, cut_marked mark, splits.plain, getD_present,
    web.letters.2.2.1, web.letters.2.2.2.2, split, if_true, Bool.false_eq_true, if_false]
  rfl

end Text
section Join
variable {base base' reference : List Char} {b r : Url} {t t₀ t₁ : DownloadTarget}

/-- A URL with the authority of a base, and with more of it if it has no path. -/
def inherit (b r : Url) : Url :=
  if r.path.isEmpty && r.parameters.isEmpty then
    { r with
      authority := b.authority
      path := b.path
      parameters := b.parameters
      query := if r.query.isEmpty then b.query else r.query }
  else { r with authority := b.authority, path := mergePaths b.path r.path }

theorem inherit_place (b r : Url) :
    (inherit b r).scheme = r.scheme ∧ (inherit b r).authority = b.authority := by
  unfold inherit
  split <;> exact ⟨rfl, rfl⟩

/-- What a reference is joined to, by its scheme and its authority. -/
theorem join_of_web (parsed : parse base = .ok b) (web : b.IsWeb) (some : reference ≠ []) :
    join base reference = (parseUnder b.scheme reference).map fun r =>
      if r.scheme ≠ b.scheme then reference
      else if r.authority ≠ [] then r.text
      else (inherit b r).text := by
  have base' : base.isEmpty = false := by
    cases base with
    | nil =>
      obtain rfl := Except.ok.inj parsed
      rcases web with web | web <;> exact absurd web (by decide)
    | cons => rfl
  have reference' : reference.isEmpty = false := by simpa using some
  have takes : takesAuthority b.scheme = true ∧ isRelative b.scheme = true := by
    rcases web with web | web <;> rw [web] <;> decide
  unfold join
  simp only [parsed, base', reference', Bool.false_eq_true, if_false, bind, Except.bind]
  cases parseUnder b.scheme reference with
  | error e => rfl
  | ok r =>
    by_cases same : r.scheme = b.scheme
    · by_cases named : r.authority = []
      · simp only [same, takes, named, inherit, Except.map, ne_eq, not_true_eq_false, decide_false,
          Bool.not_true, Bool.or_self, Bool.false_eq_true, if_false, List.isEmpty_nil,
          Bool.and_false, if_true]
        split <;> simp [pure, Except.pure]
      · simp [same, takes, named, Except.map, pure, Except.pure]
    · simp [same, Except.map, pure, Except.pure]

/-- A reference leads from a base to a target. -/
def Leads (base reference : List Char) (target : DownloadTarget) : Prop :=
  ∃ url, join base reference = .ok url ∧ DownloadTarget.ofUrl (String.ofList url) = .ok target

/-- The scheme of a target. -/
def schemeOf (target : DownloadTarget) : List Char :=
  if target.https then "https".toList else "http".toList

/-- A reference with a scheme and an authority of its own. -/
def IsAbsolute (reference : List Char) : Prop :=
  ∃ r, parse reference = .ok r ∧ r.scheme ≠ [] ∧ r.authority ≠ []

/-- A reference has an authority where the scheme is known. -/
def NamesAuthority (scheme reference : List Char) : Prop :=
  ∃ r, parseUnder scheme reference = .ok r ∧ r.authority ≠ []

/-- A reference has the scheme of its base and no authority. -/
def IsRelativeTo (scheme reference : List Char) : Prop :=
  ∃ r, parseUnder scheme reference = .ok r ∧ r.scheme = scheme ∧ r.authority = []

theorem host_of_unnamed {v : Url} (unnamed : v.authority = []) : v.host = [] := by
  obtain ⟨_, _, _, _, _, _⟩ := v
  subst unnamed
  rfl

/-- The host and the port of a URL stand in its authority. -/
theorem host_congr {v w : Url} (same : v.authority = w.authority) :
    v.host = w.host ∧ v.port = w.port := by
  unfold host port hostAndPort
  rw [same]
  exact ⟨rfl, rfl⟩

theorem schemeOf_inj (same : schemeOf t = schemeOf t₀) : t.https = t₀.https := by
  unfold schemeOf at same
  cases first : t.https <;> cases second : t₀.https <;> simp [first, second] at same ⊢

/-- A URL that has a target was parsed, and the origin of the target is its own. -/
theorem parse_of_ofUrl {url : List Char}
    (read : DownloadTarget.ofUrl (String.ofList url) = .ok t) :
    ∃ v, parse url = .ok v ∧ v.IsWeb ∧ v.authority ≠ [] ∧ v.scheme = schemeOf t ∧
      v.host = t.host.toList ∧ v.port = .ok t.port := by
  obtain ⟨v, port, parsed, web, named, ported, rfl⟩ := DownloadTarget.ofUrl_iff.mp read
  rw [String.toList_ofList] at parsed
  refine ⟨v, parsed, web, fun none => named (host_of_unnamed none), ?_,
    String.toList_ofList.symm, ported⟩
  rcases web with web | web <;> simp [schemeOf, web]

/-- With a scheme of its own a reference is read without a base. -/
theorem parseUnder_of_scheme (parsed : parse reference = .ok r) (schemed : r.scheme ≠ [])
    (scheme : List Char) : parseUnder scheme reference = .ok r := by
  obtain ⟨after, rest, splits⟩ := splits_of_parseUnder parsed
  have first := splits.scheme
  cases split : splitScheme? (clean reference) with
  | none =>
    rw [split] at first
    exact absurd (Prod.mk.inj first).1.symm schemed
  | some parts =>
    rw [← parsed]
    unfold parse parseUnder
    simp only [split, Option.getD_some]

/-- Two URLs that are parsed to the same one have the same target. -/
theorem ofUrl_congr {url url' : List Char} (same : parse url = parse url') :
    DownloadTarget.ofUrl (String.ofList url) = .ok t ↔
      DownloadTarget.ofUrl (String.ofList url') = .ok t := by
  simp only [DownloadTarget.ofUrl_iff, String.toList_ofList, same]

/-- A reference with a scheme and an authority leads to its own target, whatever the base is. -/
theorem leads_of_absolute (read : DownloadTarget.ofUrl (String.ofList base) = .ok t₀)
    (absolute : IsAbsolute reference) :
    Leads base reference t ↔ DownloadTarget.ofUrl (String.ofList reference) = .ok t := by
  obtain ⟨b, parsed, web, _⟩ := parse_of_ofUrl read
  obtain ⟨r, own, schemed, named⟩ := absolute
  have some : reference ≠ [] := by
    rintro rfl
    obtain rfl := Except.ok.inj own
    exact schemed rfl
  have joined := join_of_web parsed web some
  rw [parseUnder_of_scheme own schemed b.scheme] at joined
  by_cases same : r.scheme = b.scheme
  · have whole : join base reference = .ok r.text := by
      rw [joined]
      simp [Except.map, same, named]
    obtain ⟨after, rest, splits⟩ := splits_of_parseUnder own
    have web' : r.IsWeb := by unfold IsWeb; rwa [same]
    have again : parse r.text = parse reference := by rw [splits.parse_text web' named, own]
    simp only [Leads, whole, Except.ok.injEq, exists_eq_left']
    exact ofUrl_congr again
  · have whole : join base reference = .ok reference := by
      rw [joined]
      simp [Except.map, same]
    simp only [Leads, whole, Except.ok.injEq, exists_eq_left']

/-- A reference with an authority leads to one target from all bases of one scheme. -/
theorem leads_of_authority (read : DownloadTarget.ofUrl (String.ofList base) = .ok t₀)
    (read' : DownloadTarget.ofUrl (String.ofList base') = .ok t₁) (secure : t₀.https = t₁.https)
    (names : NamesAuthority (schemeOf t₀) reference) :
    Leads base reference t ↔ Leads base' reference t := by
  obtain ⟨b, parsed, web, _, scheme, _⟩ := parse_of_ofUrl read
  obtain ⟨b', parsed', web', _, scheme', _⟩ := parse_of_ofUrl read'
  obtain ⟨r, own, named⟩ := names
  have same : b.scheme = b'.scheme := by rw [scheme, scheme', schemeOf, schemeOf, secure]
  have some : reference ≠ [] := by
    rintro rfl
    obtain rfl := Except.ok.inj own
    exact named rfl
  have joined := join_of_web parsed web some
  have joined' := join_of_web parsed' web' some
  rw [← same, scheme, own] at joined'
  rw [scheme, own] at joined
  simp only [Except.map, named, ne_eq, not_false_eq_true, if_true] at joined joined'
  simp only [Leads, joined, joined']

/-- A reference without an authority stays at the origin of its base. -/
theorem origin_of_relative (read : DownloadTarget.ofUrl (String.ofList base) = .ok t₀)
    (relative : IsRelativeTo (schemeOf t₀) reference) (leads : Leads base reference t) :
    t.origin = t₀.origin := by
  obtain ⟨b, parsed, web, named, scheme, host, port⟩ := parse_of_ofUrl read
  obtain ⟨url, joined, aimed⟩ := leads
  obtain ⟨r, own, stays, unnamed⟩ := relative
  by_cases none : reference = []
  · have whole : join base reference = .ok base := by
      subst none
      unfold join
      cases base <;> rfl
    rw [whole] at joined
    obtain rfl := Except.ok.inj joined
    rw [read] at aimed
    rw [Except.ok.inj aimed]
  · rw [join_of_web parsed web none, scheme, own] at joined
    simp only [Except.map, stays, unnamed, ne_eq, not_true_eq_false, if_false,
      Except.ok.injEq] at joined
    subst joined
    obtain ⟨sameScheme, sameAuthority⟩ := inherit_place b r
    obtain ⟨w, parsed', _, _, scheme', host', port'⟩ := parse_of_ofUrl aimed
    obtain ⟨after, rest, splits⟩ := splits_of_parseUnder parsed
    have web' : (inherit b r).IsWeb := by
      unfold IsWeb
      rwa [sameScheme, stays, ← scheme]
    obtain ⟨kept, kept'⟩ := place_of_parse_text web' (by rwa [sameAuthority])
      (by rw [sameAuthority]; exact splits.authority_chars) parsed'
    obtain ⟨hosts, ports⟩ := host_congr (kept'.trans sameAuthority)
    have secure : t.https = t₀.https :=
      schemeOf_inj (by rw [← scheme', kept, sameScheme, stays])
    have there : t.host = t₀.host :=
      String.toList_inj.mp (by rw [← host', hosts, host])
    have through : t.port = t₀.port :=
      Except.ok.inj (by rw [← port', ports, port])
    simp only [DownloadTarget.origin, secure, there, through]

end Join
end Launcher.Url
