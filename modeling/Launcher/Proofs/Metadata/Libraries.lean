import Launcher.Proofs.Metadata.Artifacts
import Mathlib.Data.List.Forall2

/-! The libraries of a document: what is read from a library for a platform, from the first to the
last, and where the first one stands that cannot be read. -/
namespace Launcher.Library

/-- What stands at the head of a library: its name, its rules and its downloads. -/
structure Heads (members : Members) (name : String) (rules : List Rule) (downloads : Members) :
    Prop where
  name : members.getD "name" = .string name
  rules : ∀ place, Rule.parseList ((members.get? "rules").getD (.list [])) place = .ok rules
  downloads : (members.get? "downloads").getD (.object []) = .object downloads

/-- What is read from a library for a platform: nothing, if natives are mapped but not for the
system or if the artifact that is taken is null, or else all that this artifact tells. -/
inductive Reads (platform : Platform) : Json → Option Library → Prop
  | foreign {members downloads : Members} {name : String} {rules : List Rule}
      (heads : Heads members name rules downloads) (foreign : IsForeign platform members) :
      Reads platform (.object members) none
  | bare {members downloads : Members} {name : String} {rules : List Rule} {steps : List Step}
      {isNative : Bool} (heads : Heads members name rules downloads)
      (chosen : Chosen platform members downloads steps .null isNative) :
      Reads platform (.object members) none
  | file {members downloads : Members} {library : Library} {steps : List Step} {artifact : Members}
      (heads : Heads members library.name library.rules downloads)
      (chosen : Chosen platform members downloads steps (.object artifact) library.isNative)
      (file : library.ComesFrom artifact) : Reads platform (.object members) (some library)

/-- The first place of a library that is not as it must be, and what must be there. -/
inductive Fault (platform : Platform) : Json → List Step → Need → Prop
  | object {v : Json} (other : ∀ members, v ≠ .object members) : Fault platform v [] .object
  | name {members : Members} (other : ¬ (members.getD "name").IsText) :
      Fault platform (.object members) [.member "name"] .string
  | rules {members : Members} {v : Json} {steps : List Step} {need : Need}
      (name : (members.getD "name").IsText) (given : members.get? "rules" = some v)
      (fault : Rule.ListFault v steps need) :
      Fault platform (.object members) (.member "rules" :: steps) need
  | downloads {members : Members} {v : Json} (name : (members.getD "name").IsText)
      (rules : ∀ v, members.get? "rules" = some v → Rule.AreForms v)
      (given : members.get? "downloads" = some v) (other : ∀ downloads, v ≠ .object downloads) :
      Fault platform (.object members) [.member "downloads"] .object
  | choice {members downloads : Members} {name : String} {rules : List Rule} {steps : List Step}
      {need : Need} (heads : Heads members name rules downloads)
      (fault : ChoiceFault platform members downloads steps need) :
      Fault platform (.object members) steps need
  | artifact {members downloads : Members} {name : String} {rules : List Rule}
      {steps more : List Step} {v : Json} {isNative : Bool} {need : Need}
      (heads : Heads members name rules downloads)
      (chosen : Chosen platform members downloads steps v isNative) (held : v ≠ .null)
      (fault : ArtifactFault v more need) : Fault platform (.object members) (steps ++ more) need

section Parsing
variable {platform : Platform} {members downloads : Members} {name : String} {rules : List Rule}
  {steps : List Step} {v : Json} {isNative : Bool} {need : Need} {result : Option Library}

theorem parse_of_heads (heads : Heads members name rules downloads) (place : Place) :
    parse platform (.object members) place = (do
      match ← selectArtifact platform members place downloads with
      | none => return none
      | some (⟨.null, _⟩, _) => return none
      | some (⟨artifact, place⟩, isNative) =>
        return some (← readArtifact name rules isNative artifact place)) := by
  obtain ⟨named, ruled, given⟩ := heads
  simp only [parse, readArtifact, object_bind, named, string_bind, ruled, given, bind_assoc,
    pure_bind]
  rfl

theorem Reads.parse (reads : Reads platform v result) (place : Place) :
    parse platform v place = .ok result := by
  cases reads with
  | foreign heads foreign =>
    rw [parse_of_heads heads, select_foreign foreign]
    rfl
  | bare heads chosen =>
    rw [parse_of_heads heads, select_chosen chosen]
    rfl
  | file heads chosen file =>
    rw [parse_of_heads heads, select_chosen chosen]
    exact congrArg (some <$> ·) (readArtifact_of_comesFrom file _)

theorem Fault.parse (fault : Fault platform v steps need) (place : Place) :
    parse platform v place = .error ⟨place.along steps, need⟩ := by
  cases fault with
  | object other =>
    rw [Library.parse, Json.asObject_error other, Place.along_nil]
    rfl
  | name other =>
    rw [Library.parse, object_bind, Json.asString_error other]
    rfl
  | rules name given fault =>
    obtain ⟨text, named⟩ := name
    simp only [Library.parse, object_bind, named, string_bind, given, Option.getD_some,
      Rule.parseList_keepsTo.refuses fault, Place.member_along, error_bind]
  | downloads name rules given other =>
    obtain ⟨text, named⟩ := name
    obtain ⟨list, ruled⟩ := Rule.parseList_member rules
    simp only [Library.parse, object_bind, named, string_bind, ruled, given, Option.getD_some,
      Json.asObject_error other]
    rfl
  | choice heads fault =>
    rw [parse_of_heads heads, select_fault fault]
    rfl
  | @artifact members downloads name rules steps more v isNative need heads chosen held fault =>
    have refused := (readArtifact_keepsTo name rules isNative).refuses fault (place.along steps)
    have ended : (readArtifact name rules isNative v (place.along steps) >>= fun library =>
        pure (some library)) = .error ⟨place.along (steps ++ more), need⟩ := by
      rw [refused, error_bind, Place.along_along]
    rw [parse_of_heads heads, select_chosen chosen]
    cases v with
    | null => contradiction
    | _ => exact ended

/-- Either a library is read in some way, or it has a fault. -/
theorem reads_or_fault (platform : Platform) (v : Json) :
    (∃ result, Reads platform v result) ∨ ∃ steps need, Fault platform v steps need := by
  by_cases object : ∃ members, v = .object members
  swap
  · exact .inr ⟨_, _, .object fun members same => object ⟨members, same⟩⟩
  obtain ⟨members, rfl⟩ := object
  by_cases name : (Members.getD members "name").IsText
  swap
  · exact .inr ⟨_, _, .name name⟩
  by_cases rules : ∀ v, Members.get? members "rules" = some v → Rule.AreForms v
  swap
  · obtain ⟨w, unformed⟩ := Classical.not_forall.mp rules
    obtain ⟨given, other⟩ := Classical.not_imp.mp unformed
    obtain ⟨_, _, fault⟩ := (Rule.parseList_keepsTo.decides w).resolve_left other
    exact .inr ⟨_, _, .rules name given fault⟩
  by_cases downloads : ∃ downloads,
      (Members.get? members "downloads").getD (.object []) = .object downloads
  swap
  · cases given : Members.get? members "downloads" with
    | none => exact absurd ⟨[], by rw [given]; rfl⟩ downloads
    | some w =>
      refine .inr ⟨_, _, .downloads name rules given ?_⟩
      rintro inner rfl
      exact downloads ⟨inner, by rw [given]; rfl⟩
  obtain ⟨text, named⟩ := name
  obtain ⟨list, ruled⟩ := Rule.parseList_member rules
  obtain ⟨downloads, given⟩ := downloads
  have heads : Heads members text list downloads := ⟨named, ruled, given⟩
  rcases choice_decides platform members downloads with
    foreign | ⟨steps, v, isNative, chosen⟩ | ⟨_, _, fault⟩
  · exact .inl ⟨_, .foreign heads foreign⟩
  · by_cases held : v = .null
    · subst held
      exact .inl ⟨_, .bare heads chosen⟩
    · have keeps := readArtifact_keepsTo text list isNative
      rcases keeps.decides v with form | ⟨_, _, fault⟩
      · obtain ⟨library, read⟩ := keeps.accepts form
        obtain ⟨rfl, rfl, rfl, artifact, rfl, file⟩ := readArtifact_ok (read ⟨"", []⟩)
        exact .inl ⟨_, .file heads chosen file⟩
      · exact .inr ⟨_, _, .artifact heads chosen held fault⟩
  · exact .inr ⟨_, _, .choice heads fault⟩

theorem ChoiceFault.amiss (fault : ChoiceFault platform members downloads steps need)
    (given : (members.get? "downloads").getD (.object []) = .object downloads) :
    (Json.object members).IsAmiss steps need := by
  cases fault with
  | mapping _ other => exact .getD (Need.object_unmet other)
  | @entry natives os v mapped _ listed _ other =>
    exact ((Json.IsAmiss.here (Json.not_isMet_string other)).member
      (Members.mem_of_get? listed)).member (Members.mem_of_getD_object mapped)
  | classifiers _ other =>
    cases found : downloads.get? "classifiers" with
    | none => exact absurd (by simp [OffersClassifiers, found]) (other [])
    | some w =>
      have there : members.get? "downloads" = some (.object downloads) :=
        Members.get?_of_getD_object given (by rintro rfl; contradiction)
      have unmet : Need.object.isMet w = false := Need.object_unmet fun inner same =>
        other inner (by simp [OffersClassifiers, found, same])
      exact ((Json.IsAmiss.here unmet).member (Members.mem_of_get? found)).member
        (Members.mem_of_get? there)

theorem Fault.amiss (fault : Fault platform v steps need) : v.IsAmiss steps need := by
  cases fault with
  | object other => exact .here (Need.object_unmet other)
  | name other => exact .getD (Json.not_isMet_string other)
  | rules _ given fault =>
    exact (Rule.parseList_keepsTo.amiss fault).member (Members.mem_of_get? given)
  | downloads _ _ given other =>
    exact (Json.IsAmiss.here (Need.object_unmet other)).member (Members.mem_of_get? given)
  | choice heads fault => exact fault.amiss heads.downloads
  | @artifact _ _ name rules _ _ _ isNative _ heads chosen held fault =>
    exact (chosen.leads heads.downloads held).amiss
      ((readArtifact_keepsTo name rules isNative).amiss fault)

/-- The reader of libraries keeps to this grammar. -/
theorem parse_keepsTo (platform : Platform) : KeepsTo (parse platform)
    (fun v => ∃ result, Reads platform v result) (Fault platform) where
  accepts := fun ⟨result, reads⟩ => ⟨result, reads.parse⟩
  refuses := Fault.parse
  decides := reads_or_fault platform
  amiss := Fault.amiss

/-- What is read from a library is what the grammar says. -/
theorem parse_eq_ok {place : Place} : parse platform v place = .ok result ↔
    Reads platform v result := by
  constructor
  · intro read
    obtain ⟨other, reads⟩ := (parse_keepsTo platform).ok_iff.mp ⟨result, read⟩
    have same : result = other := Except.ok.inj (read.symm.trans (reads.parse place))
    exact same ▸ reads
  · intro reads
    exact reads.parse place

end Parsing

section Items
variable {α : Type} {read : Json → Place → Except Malformed α} {place : Place}

theorem forall₂_of_readItems {i : Nat} {items : List Json} {all : List α}
    (ended : readItems read place i items = .ok all) :
    List.Forall₂ (fun v a => ∃ place, read v place = .ok a) items all := by
  induction items generalizing i all with
  | nil =>
    obtain rfl := Except.ok.inj ended
    exact .nil
  | cons v rest ih =>
    obtain ⟨a, first, ended⟩ := bind_ok ended
    obtain ⟨others, later, ended⟩ := bind_ok ended
    obtain rfl := Except.ok.inj ended
    exact .cons ⟨_, first⟩ (ih later)

theorem readItems_of_forall₂ {items : List Json} {all : List α}
    (each : List.Forall₂ (fun v a => ∀ place, read v place = .ok a) items all) (i : Nat) :
    readItems read place i items = .ok all := by
  induction each generalizing i with
  | nil => rfl
  | cons first _ ih =>
    rw [readItems, first, ih]
    rfl

theorem parseItems_eq (platform : Platform) (place : Place) (i : Nat) (items : List Json) :
    parseItems platform place i items =
      (readItems (parse platform) place i items).map List.reduceOption := by
  induction items generalizing i with
  | nil => rfl
  | cons v rest ih =>
    rw [parseItems, readItems, ih]
    cases parse platform v (place.item i) with
    | error e => rfl
    | ok result =>
      cases readItems (parse platform) place (i + 1) rest with
      | error e => rfl
      | ok others => cases result <;> rfl

end Items

section All
variable {platform : Platform} {metadata : Members} {items : List Json}

/-- Where the libraries of a document stand. -/
def librariesPlace : Place := metadataPlace.member "libraries"

theorem parseAll_eq (given : (metadata.get? "libraries").getD (.list []) = .list items) :
    parseAll platform metadata =
      (readItems (parse platform) librariesPlace 0 items).map List.reduceOption := by
  rw [← parseItems_eq, parseAll, given]
  rfl

theorem parseAll_eq_ok (given : (metadata.get? "libraries").getD (.list []) = .list items)
    {libraries : List Library} : parseAll platform metadata = .ok libraries ↔
      ∃ results, List.Forall₂ (Reads platform) items results ∧
        libraries = results.reduceOption := by
  rw [parseAll_eq given]
  constructor
  · intro ended
    cases read : readItems (parse platform) librariesPlace 0 items with
    | error e =>
      rw [read] at ended
      contradiction
    | ok results =>
      rw [read] at ended
      refine ⟨results, (forall₂_of_readItems read).imp fun v result => ?_,
        (Except.ok.inj ended).symm⟩
      rintro ⟨place, ended⟩
      exact parse_eq_ok.mp ended
  · rintro ⟨results, each, rfl⟩
    rw [readItems_of_forall₂ (each.imp fun v result => Reads.parse)]
    rfl

theorem parseAll_eq_error (given : (metadata.get? "libraries").getD (.list []) = .list items)
    {e : Malformed} : parseAll platform metadata = .error e ↔
      ∃ before v after steps need, items = before ++ v :: after ∧
        (∀ w ∈ before, ∃ result, Reads platform w result) ∧ Fault platform v steps need ∧
        e = ⟨librariesPlace.along (.item before.length :: steps), need⟩ := by
  have refused {before after : List Json} {v : Json} {steps : List Step} {need : Need}
      (passed : ∀ w ∈ before, ∃ result, Reads platform w result)
      (fault : Fault platform v steps need) :
      (readItems (parse platform) librariesPlace 0 (before ++ v :: after)).map List.reduceOption =
        .error ⟨librariesPlace.along (.item before.length :: steps), need⟩ := by
    rw [readItems_error (fun w member => (parse_keepsTo platform).accepts (passed w member))
      fault.parse, Nat.zero_add]
    rfl
  rw [parseAll_eq given]
  constructor
  · intro ended
    rcases forall_or_first (fun v => ∃ result, Reads platform v result) items with
      each | ⟨before, v, after, rfl, passed, other⟩
    · obtain ⟨results, read⟩ := readItems_ok fun v member =>
        (parse_keepsTo platform).accepts (each v member)
      rw [read] at ended
      contradiction
    · obtain ⟨steps, need, fault⟩ := (reads_or_fault platform v).resolve_left other
      rw [refused passed fault] at ended
      exact ⟨before, v, after, steps, need, rfl, passed, fault, (Except.error.inj ended).symm⟩
  · rintro ⟨before, v, after, steps, need, rfl, passed, fault, rfl⟩
    exact refused passed fault

end All

/-- What is read from a library, and from all of a document. Nothing comes of a library whose
natives are mapped but not for the system, or whose chosen artifact is null; else all that is known
of its file comes from that one artifact, and it is native if natives are mapped. The libraries of
a document come in their order, unless one of them is malformed: the error tells the first. -/
theorem parse_libraries (platform : Platform) :
    (∀ v place result, parse platform v place = .ok result → ∃ members downloads : Members,
      v = .object members ∧ (members.get? "downloads").getD (.object []) = .object downloads ∧
      (result = none ↔ IsForeign platform members ∨
        ∃ steps isNative, Chosen platform members downloads steps .null isNative) ∧
      ∀ library ∈ result, ∃ steps artifact,
        Chosen platform members downloads steps (.object artifact) library.isNative ∧
        v.Leads steps (some (.object artifact)) ∧ library.ComesFrom artifact ∧
        (library.isNative ↔ members.getD "natives" ≠ .null)) ∧
    ∀ metadata,
      (∀ items, (metadata.get? "libraries").getD (.list []) = .list items →
        (∀ libraries, parseAll platform metadata = .ok libraries ↔
          ∃ results, List.Forall₂ (Reads platform) items results ∧
            libraries = results.reduceOption) ∧
        ∀ e, parseAll platform metadata = .error e ↔
          ∃ before v after steps need, items = before ++ v :: after ∧
            (∀ w ∈ before, ∃ result, Reads platform w result) ∧ Fault platform v steps need ∧
            e = ⟨librariesPlace.along (.item before.length :: steps), need⟩) ∧
      ∀ v, metadata.get? "libraries" = some v → (∀ items, v ≠ .list items) →
        parseAll platform metadata = .error ⟨librariesPlace, .list⟩ := by
  refine ⟨fun v place result read => ?_, fun metadata => ⟨fun items given =>
    ⟨fun _ => parseAll_eq_ok given, fun _ => parseAll_eq_error given⟩, fun v given other => ?_⟩⟩
  · cases parse_eq_ok.mp read with
    | foreign heads foreign =>
      exact ⟨_, _, rfl, heads.downloads, iff_of_true rfl (.inl foreign), nofun⟩
    | bare heads chosen =>
      exact ⟨_, _, rfl, heads.downloads, iff_of_true rfl (.inr ⟨_, _, chosen⟩), nofun⟩
    | file heads chosen file =>
      refine ⟨_, _, rfl, heads.downloads, iff_of_false nofun ?_, ?_⟩
      · rintro (foreign | ⟨steps, isNative, other⟩)
        · exact chosen.not_foreign foreign
        · exact absurd (other.unique chosen).2.1 nofun
      · rintro _ ⟨⟩
        exact ⟨_, _, chosen, chosen.leads heads.downloads nofun, file, chosen.isNative_iff⟩
  · rw [parseAll, given, Option.getD_some, Json.asList_error other]
    rfl

/-- A platform on which pointers have 64 bits. -/
def linux : Platform := ⟨some "linux", some "x86_64", some 64, "5"⟩

/-- Natives by a classifier that is filled in; those of another system before them are left out. -/
theorem parse_libraries_classified :
    let foreign : Json :=
      .object [("name", .string "f"), ("natives", .object [("osx", .string "x")])]
    let artifact : Members := [("url", .string "http://h/n"), ("path", .string "n")]
    let native : Json := .object [("name", .string "n"),
      ("natives", .object [("linux", .string "natives-$\x7barch\x7d")]),
      ("downloads", .object [("classifiers", .object [("natives-64", .object artifact)])])]
    let library : Library := ⟨"n", "n", "http://h/n", none, none, true, []⟩
    (∃ steps artifact, native.Leads steps (some (.object artifact)) ∧
      library.ComesFrom artifact) ∧
    parseAll linux [("libraries", .list [foreign, native])] = .ok [library] ∧
    ¬ ∃ e, parseAll linux [("libraries", .list [foreign, native])] = .error e := by
  intro foreign artifact native library
  obtain ⟨one, all⟩ := parse_libraries linux
  have left (place : Place) : parse linux foreign place = .ok none := by
    cases place
    rfl
  have read : parse linux native ⟨"", []⟩ = .ok (some library) := by decide +kernel
  obtain ⟨_, _, _, _, _, taken⟩ := one native _ _ read
  obtain ⟨steps, found, _, leads, file, _⟩ := taken library rfl
  have listed :=
    ((all [("libraries", .list [foreign, native])]).1 [foreign, native] rfl).1 [library]
  have ended := listed.mpr ⟨[none, some library],
    .cons (parse_eq_ok.mp (left ⟨"", []⟩)) (.cons (parse_eq_ok.mp read) .nil), rfl⟩
  refine ⟨⟨steps, found, leads, file⟩, ended, ?_⟩
  rintro ⟨e, refused⟩
  rw [ended] at refused
  contradiction

/-- Libraries that are no list are refused though none of them is malformed, and a mapping that has
null for the system is taken for one that has nothing for it. -/
theorem libraries_of_object_refused :
    let metadata : Members := [("libraries", .object [])]
    let library : Json := .object [("name", .string "n"),
      ("natives", .object [("linux", .null)]), ("downloads", .object [("artifact", .object
        [("url", .string "http://h/n"), ("path", .string "n")])])]
    (∀ items, metadata.get? "libraries" ≠ some (.list items)) ∧
      parseAll linux metadata = .error ⟨librariesPlace, .list⟩ ∧
      parse linux library librariesPlace = .ok none := by
  intro metadata library
  exact ⟨nofun, rfl, by decide +kernel⟩

end Launcher.Library
