import Launcher.Metadata.Library
import Launcher.Proofs.Action
import Launcher.Proofs.Metadata.Rules
import Mathlib.Data.List.Infix

/-! The artifact that is taken from a library for a platform: the one of a classifier that is filled
in from the platform, or the common one. All that is read of a file is read from one artifact. -/
namespace Launcher

namespace Json
variable {v w : Json} {steps more : List Step} {found : Option Json} {need : Need}

theorem asString_of_isText (text : v.IsText) :
    ∃ given, ∀ place, v.asString place = .ok given := by
  obtain ⟨text, rfl⟩ := text
  exact ⟨text, fun _ => rfl⟩

theorem asString_error (other : ¬ v.IsText) (place : Place) :
    v.asString place = .error ⟨place, .string⟩ := by
  cases v with
  | string text => exact absurd ⟨text, rfl⟩ other
  | _ => rfl

theorem not_isMet_string (other : ¬ v.IsText) : Need.string.isMet v = false := by
  cases v with
  | string text => exact absurd ⟨text, rfl⟩ other
  | _ => rfl

/-- A whole number, or null, which also stands for a member that is missing. -/
def IsWholeOrNull (v : Json) : Prop := v = .null ∨ Need.integer.isMet v = true

theorem asWhole?_ok (whole : v.IsWholeOrNull) : ∃ size, ∀ place, v.asWhole? place = .ok size := by
  cases v with
  | null => exact ⟨none, fun _ => rfl⟩
  | int n => exact ⟨some (.number n), fun _ => rfl⟩
  | bool b => exact ⟨some (.truth b), fun _ => rfl⟩
  | _ => rcases whole with null | met <;> contradiction

theorem asWhole?_error (other : ¬ v.IsWholeOrNull) (place : Place) :
    v.asWhole? place = .error ⟨place, .integer⟩ := by
  cases v with
  | null => exact absurd (.inl rfl) other
  | int | bool => exact absurd (.inr rfl) other
  | _ => rfl

/-- A digest, or null, which also stands for a member that is missing. -/
def IsDigestOrNull (v : Json) : Prop := v = .null ∨ Need.digest.isMet v = true

theorem parseSha1_ok (digest : v.IsDigestOrNull) :
    ∃ sha1, ∀ place, DownloadEntry.parseSha1 v place = .ok sha1 := by
  cases v with
  | null => exact ⟨none, fun _ => rfl⟩
  | string text =>
    have met : isSha1 text = true := digest.resolve_left nofun
    exact ⟨some text, fun place => if_pos met⟩
  | _ => rcases digest with null | met <;> contradiction

theorem parseSha1_error (other : ¬ v.IsDigestOrNull) (place : Place) :
    DownloadEntry.parseSha1 v place = .error ⟨place, .digest⟩ := by
  cases v with
  | null => exact absurd (.inl rfl) other
  | string text => exact if_neg fun met => other (.inr met)
  | _ => rfl

theorem Leads.trans (first : Leads v steps (some w)) (second : Leads w more found) :
    Leads v (steps ++ more) found := by
  generalize reached : some w = middle at first
  induction first with
  | here v =>
    obtain rfl := Option.some.inj reached
    exact second
  | member inside _ ih => exact .member inside (ih reached)
  | absent _ => contradiction
  | item inside _ ih => exact .item inside (ih reached)

theorem Leads.amiss (leads : Leads v steps (some w)) (amiss : w.IsAmiss more need) :
    v.IsAmiss (steps ++ more) need := by
  obtain ⟨found, on, unmet⟩ := amiss
  exact ⟨found, leads.trans on, unmet⟩

end Json

/-- An object that would be empty if it were missing is there if it has members. -/
theorem Members.get?_of_getD_object {members inner : Members} {name : String}
    (given : (members.get? name).getD (.object []) = .object inner) (held : inner ≠ []) :
    members.get? name = some (.object inner) := by
  cases found : members.get? name with
  | none =>
    rw [found] at given
    exact absurd (Json.object.inj given).symm held
  | some v =>
    rw [found] at given
    exact congrArg some given

theorem Members.mem_of_getD_object {members inner : Members} {name : String}
    (given : members.getD name = .object inner) : (name, .object inner) ∈ members := by
  have held : members.getD name ≠ .null := by simp [given]
  exact Members.mem_of_get? (given ▸ Members.get?_of_getD held)

theorem Place.along_along (place : Place) (steps more : List Step) :
    (place.along steps).along more = place.along (steps ++ more) := by
  simp [along]

namespace Library

section Filling
variable {bits text filled piece rest : List Char} {c : Char}

/-- What stands in a classifier for the width of pointers. -/
def mark : List Char := ['$', '\x7b', 'a', 'r', 'c', 'h', '\x7d']

/-- A text with something in the place of every mark: the pieces between the marks are the same. -/
def IsFilled (bits text filled : List Char) : Prop :=
  ∃ pieces : List (List Char), pieces ≠ [] ∧ (∀ piece ∈ pieces, ¬ mark <:+: piece) ∧
    text = mark.intercalate pieces ∧ filled = bits.intercalate pieces

theorem replaceArch_mark (bits rest : List Char) :
    replaceArch bits (mark ++ rest) = bits ++ replaceArch bits rest := by
  simp [mark, replaceArch]

theorem replaceArch_cons (other : ¬ mark <+: c :: rest) :
    replaceArch bits (c :: rest) = c :: replaceArch bits rest := by
  rw [replaceArch]
  rintro rest' rfl rfl
  exact other ⟨rest', rfl⟩

/-- The first character of the mark comes only once in it, so that a mark that begins in a piece and
goes on behind it would lie in the piece. -/
theorem mark_isPrefix_piece (some : piece ≠ []) (begins : mark <+: piece ++ (mark ++ rest)) :
    mark <+: piece := by
  rcases List.prefix_or_prefix_of_prefix begins (List.prefix_append piece _) with within | short
  · exact within
  · obtain ⟨tail, split⟩ := short
    have alone : ∀ tail ∈ mark.tails, tail.head? = Option.some '$' → tail = mark := by decide
    obtain ⟨behind, same⟩ := begins
    have whole : piece ++ (tail ++ behind) = piece ++ (mark ++ rest) := by
      rw [← List.append_assoc, split, same]
    have same := List.append_cancel_left whole
    cases tail with
    | nil => exact ⟨[], by simpa using split.symm⟩
    | cons d tail =>
      have first : d = '$' := (List.cons.inj same).1
      have whole := alone (d :: tail) ((List.mem_tails _ _).mpr ⟨piece, split⟩) (by rw [first]; rfl)
      have long := congrArg List.length split
      rw [whole, List.length_append] at long
      exact absurd (List.length_eq_zero_iff.mp (by omega)) some

theorem replaceArch_free (free : ¬ mark <:+: piece) : replaceArch bits piece = piece := by
  induction piece with
  | nil => rfl
  | cons c piece ih =>
    rw [replaceArch_cons fun begins => free begins.isInfix,
      ih fun inside => free (List.infix_cons inside)]

theorem replaceArch_piece (free : ¬ mark <:+: piece) (rest : List Char) :
    replaceArch bits (piece ++ (mark ++ rest)) = piece ++ (bits ++ replaceArch bits rest) := by
  induction piece with
  | nil => exact replaceArch_mark bits rest
  | cons c piece ih =>
    have other : ¬ mark <+: c :: (piece ++ (mark ++ rest)) := fun begins =>
      free (mark_isPrefix_piece (List.cons_ne_nil c piece) begins).isInfix
    rw [List.cons_append, replaceArch_cons other, ih fun inside => free (List.infix_cons inside)]
    rfl

theorem replaceArch_intercalate {pieces : List (List Char)} (some : pieces ≠ [])
    (free : ∀ piece ∈ pieces, ¬ mark <:+: piece) :
    replaceArch bits (mark.intercalate pieces) = bits.intercalate pieces := by
  induction pieces with
  | nil => contradiction
  | cons piece pieces ih =>
    rw [List.forall_mem_cons] at free
    cases pieces with
    | nil => simpa using replaceArch_free free.1
    | cons next pieces =>
      rw [List.intercalate_cons_cons, List.intercalate_cons_cons, List.append_assoc,
        replaceArch_piece free.1, ih (List.cons_ne_nil next pieces) free.2, List.append_assoc]

/-- Every text has pieces between its marks. -/
theorem exists_pieces (text : List Char) : ∃ pieces : List (List Char), pieces ≠ [] ∧
    (∀ piece ∈ pieces, ¬ mark <:+: piece) ∧ text = mark.intercalate pieces := by
  induction text using replaceArch.induct with
  | case1 => exact ⟨[[]], by decide, by decide, rfl⟩
  | case2 rest ih =>
    obtain ⟨pieces, some, free, rfl⟩ := ih
    obtain ⟨first, others, rfl⟩ := List.exists_cons_of_ne_nil some
    refine ⟨[] :: first :: others, by simp, ?_, by rw [List.intercalate_cons_cons]; rfl⟩
    rw [List.forall_mem_cons]
    exact ⟨by decide, free⟩
  | case3 c rest other ih =>
    obtain ⟨pieces, some, free, rfl⟩ := ih
    obtain ⟨first, others, rfl⟩ := List.exists_cons_of_ne_nil some
    rw [List.forall_mem_cons] at free
    have grown : mark.intercalate ((c :: first) :: others) =
        c :: mark.intercalate (first :: others) := by
      cases others <;> simp [List.intercalate_cons_cons]
    refine ⟨(c :: first) :: others, by simp, List.forall_mem_cons.mpr ⟨?_, free.2⟩, grown.symm⟩
    intro inside
    rcases List.infix_cons_iff.mp inside with begins | later
    · have whole : c :: first <+: mark.intercalate ((c :: first) :: others) := by
        cases others <;> simp [List.intercalate_cons_cons]
      obtain ⟨tail, same⟩ := begins.trans whole
      rw [grown] at same
      obtain ⟨rfl, split⟩ := List.cons.inj same
      exact other tail rfl split.symm
    · exact free.1 later

/-- A text is filled in one way, which is how the reader does it. -/
theorem isFilled_iff : IsFilled bits text filled ↔ filled = replaceArch bits text := by
  constructor
  · rintro ⟨pieces, some, free, rfl, rfl⟩
    rw [replaceArch_intercalate some free]
  · rintro rfl
    obtain ⟨pieces, some, free, rfl⟩ := exists_pieces text
    exact ⟨pieces, some, free, rfl, replaceArch_intercalate some free⟩

end Filling

/-- A size as documents have it. -/
def sizeJson (size : Option Whole) : Json :=
  match size with
  | none => .null
  | some (.number n) => .int n
  | some (.truth b) => .bool b

/-- All that is known of the file of a library comes from one artifact. -/
structure ComesFrom (library : Library) (artifact : Members) : Prop where
  url : artifact.getD "url" = .string library.url
  path : artifact.getD "path" = .string library.path
  sha1 : artifact.getD "sha1" = (library.sha1.map .string).getD .null
  digest : ∀ sha1 ∈ library.sha1, isSha1 sha1
  size : artifact.getD "size" = sizeJson library.size

inductive IsArtifact : Json → Prop
  | object {artifact : Members} (url : (artifact.getD "url").IsText)
      (path : (artifact.getD "path").IsText) (sha1 : (artifact.getD "sha1").IsDigestOrNull)
      (size : (artifact.getD "size").IsWholeOrNull) : IsArtifact (.object artifact)

/-- The first place of an artifact that is not as it must be, and what must be there. -/
inductive ArtifactFault : Json → List Step → Need → Prop
  | object {v : Json} (other : ∀ artifact, v ≠ .object artifact) : ArtifactFault v [] .object
  | url {artifact : Members} (other : ¬ (artifact.getD "url").IsText) :
      ArtifactFault (.object artifact) [.member "url"] .string
  | path {artifact : Members} (url : (artifact.getD "url").IsText)
      (other : ¬ (artifact.getD "path").IsText) :
      ArtifactFault (.object artifact) [.member "path"] .string
  | sha1 {artifact : Members} (url : (artifact.getD "url").IsText)
      (path : (artifact.getD "path").IsText) (other : ¬ (artifact.getD "sha1").IsDigestOrNull) :
      ArtifactFault (.object artifact) [.member "sha1"] .digest
  | size {artifact : Members} (url : (artifact.getD "url").IsText)
      (path : (artifact.getD "path").IsText) (sha1 : (artifact.getD "sha1").IsDigestOrNull)
      (other : ¬ (artifact.getD "size").IsWholeOrNull) :
      ArtifactFault (.object artifact) [.member "size"] .integer

/-- Reads the artifact of a library. -/
def readArtifact (name : String) (rules : List Rule) (isNative : Bool) (v : Json) (place : Place) :
    Except Malformed Library := do
  let artifact ← v.asObject place
  let url ← (artifact.getD "url").asString (place.member "url")
  let path ← (artifact.getD "path").asString (place.member "path")
  let sha1 ← DownloadEntry.parseSha1 (artifact.getD "sha1") (place.member "sha1")
  let size ← (artifact.getD "size").asWhole? (place.member "size")
  return { name, path, url, sha1, size, isNative, rules }

section Artifact
variable {name : String} {rules : List Rule} {isNative : Bool} {natives : Members}

theorem object_bind {β : Type} (place : Place) (next : Members → Except Malformed β) :
    (Json.object natives).asObject place >>= next = next natives := rfl

theorem string_bind {β : Type} (text : String) (place : Place)
    (next : String → Except Malformed β) : (Json.string text).asString place >>= next = next text := rfl

theorem ok_bind {α β : Type} (a : α) (next : α → Except Malformed β) :
    (Except.ok a >>= next) = next a := rfl

theorem error_bind {α β : Type} (e : Malformed) (next : α → Except Malformed β) :
    (Except.error e >>= next) = .error e := rfl

theorem readArtifact_keepsTo (name : String) (rules : List Rule) (isNative : Bool) :
    KeepsTo (readArtifact name rules isNative) IsArtifact ArtifactFault where
  accepts := by
    rintro _ @⟨artifact, url, path, sha1, size⟩
    obtain ⟨u, url⟩ := Json.asString_of_isText url
    obtain ⟨p, path⟩ := Json.asString_of_isText path
    obtain ⟨d, sha1⟩ := Json.parseSha1_ok sha1
    obtain ⟨n, size⟩ := Json.asWhole?_ok size
    refine ⟨⟨name, p, u, d, n, isNative, rules⟩, fun place => ?_⟩
    rw [readArtifact, object_bind, url, ok_bind, path, ok_bind, sha1, ok_bind, size]
    rfl
  refuses := by
    rintro _ _ _ (other | other | ⟨url, other⟩ | ⟨url, path, other⟩ | ⟨url, path, sha1, other⟩)
      place
    · rw [readArtifact, Json.asObject_error other, Place.along_nil]
      rfl
    · rw [readArtifact, object_bind, Json.asString_error other]
      rfl
    · obtain ⟨u, url⟩ := Json.asString_of_isText url
      rw [readArtifact, object_bind, url, ok_bind, Json.asString_error other]
      rfl
    · obtain ⟨u, url⟩ := Json.asString_of_isText url
      obtain ⟨p, path⟩ := Json.asString_of_isText path
      rw [readArtifact, object_bind, url, ok_bind, path, ok_bind, Json.parseSha1_error other]
      rfl
    · obtain ⟨u, url⟩ := Json.asString_of_isText url
      obtain ⟨p, path⟩ := Json.asString_of_isText path
      obtain ⟨d, sha1⟩ := Json.parseSha1_ok sha1
      rw [readArtifact, object_bind, url, ok_bind, path, ok_bind, sha1, ok_bind,
        Json.asWhole?_error other]
      rfl
  decides v := by
    cases v with
    | object artifact =>
      by_cases url : (Members.getD artifact "url").IsText
      · by_cases path : (Members.getD artifact "path").IsText
        · by_cases sha1 : (Members.getD artifact "sha1").IsDigestOrNull
          · by_cases size : (Members.getD artifact "size").IsWholeOrNull
            · exact .inl (.object url path sha1 size)
            · exact .inr ⟨_, _, .size url path sha1 size⟩
          · exact .inr ⟨_, _, .sha1 url path sha1⟩
        · exact .inr ⟨_, _, .path url path⟩
      · exact .inr ⟨_, _, .url url⟩
    | _ => exact .inr ⟨_, _, .object (by rintro _ ⟨⟩)⟩
  amiss := by
    rintro _ _ _ (other | other | ⟨_, other⟩ | ⟨_, _, other⟩ | ⟨_, _, _, other⟩)
    · exact .here (Need.object_unmet other)
    · exact .getD (Json.not_isMet_string other)
    · exact .getD (Json.not_isMet_string other)
    · exact .getD (by simpa using fun met => other (.inr met))
    · exact .getD (by simpa using fun met => other (.inr met))

theorem parseSha1_eq_ok {v : Json} {place : Place} {sha1 : Option String}
    (read : DownloadEntry.parseSha1 v place = .ok sha1) :
    v = (sha1.map .string).getD .null ∧ ∀ digest ∈ sha1, isSha1 digest := by
  unfold DownloadEntry.parseSha1 at read
  split at read
  · obtain rfl := Except.ok.inj read
    exact ⟨rfl, nofun⟩
  · split at read
    · rename_i met
      obtain rfl := Except.ok.inj read
      exact ⟨rfl, by rintro _ ⟨⟩; exact met⟩
    · contradiction
  · contradiction

theorem asWhole?_eq_ok {v : Json} {place : Place} {size : Option Whole}
    (read : v.asWhole? place = .ok size) : v = sizeJson size := by
  unfold Json.asWhole? at read
  split at read
  · obtain rfl := Except.ok.inj read
    rfl
  · obtain rfl := Except.ok.inj read
    rfl
  · obtain rfl := Except.ok.inj read
    rfl
  · contradiction

theorem readArtifact_ok {v : Json} {place : Place} {library : Library}
    (read : readArtifact name rules isNative v place = .ok library) :
    library.name = name ∧ library.rules = rules ∧ library.isNative = isNative ∧
      ∃ artifact, v = .object artifact ∧ library.ComesFrom artifact := by
  unfold readArtifact at read
  obtain ⟨artifact, opened, read⟩ := bind_ok read
  obtain ⟨url, first, read⟩ := bind_ok read
  obtain ⟨path, second, read⟩ := bind_ok read
  obtain ⟨sha1, third, read⟩ := bind_ok read
  obtain ⟨size, fourth, read⟩ := bind_ok read
  obtain rfl := Except.ok.inj read
  obtain ⟨sha1, digest⟩ := parseSha1_eq_ok third
  exact ⟨rfl, rfl, rfl, artifact, Json.asObject_ok.mp opened, Json.asString_ok.mp first,
    Json.asString_ok.mp second, sha1, digest, asWhole?_eq_ok fourth⟩

theorem readArtifact_of_comesFrom {library : Library} {artifact : Members}
    (file : library.ComesFrom artifact) (place : Place) :
    readArtifact library.name library.rules library.isNative (.object artifact) place =
      .ok library := by
  obtain ⟨url, path, sha1, digest, size⟩ := file
  have hashed (place : Place) :
      DownloadEntry.parseSha1 ((library.sha1.map Json.string).getD .null) place =
        .ok library.sha1 := by
    cases given : library.sha1 with
    | none => rfl
    | some text => exact if_pos (digest text given)
  have sized (place : Place) : (sizeJson library.size).asWhole? place = .ok library.size := by
    rcases library.size with _ | _ | _ <;> rfl
  simp only [readArtifact, object_bind, url, path, sha1, size, string_bind, hashed, sized]
  rfl

end Artifact

/-- What a mapping of natives has for the system; null if there is nothing, or the system is not
known. -/
def systemEntry (platform : Platform) (natives : Members) : Json :=
  (platform.os.bind natives.get?).getD .null

/-- Natives are mapped, but not for the system. -/
def IsForeign (platform : Platform) (members : Members) : Prop :=
  ∃ natives, members.getD "natives" = .object natives ∧ systemEntry platform natives = .null

/-- Natives are mapped for the system, to this classifier. -/
def Classifies (platform : Platform) (members : Members) (classifier : String) : Prop :=
  ∃ natives text, members.getD "natives" = .object natives ∧
    systemEntry platform natives = .string text ∧
    IsFilled (bitsText platform).toList text.toList classifier.toList

/-- Classifiers are offered by the downloads of a library, none if they are not named. -/
def OffersClassifiers (downloads classifiers : Members) : Prop :=
  (downloads.get? "classifiers").getD (.object []) = .object classifiers

/-- The artifact that is taken for a platform, where it stands in the library, and whether it is
native: the one for the classifier, if natives are mapped and it is offered, or else the common
one. -/
inductive Chosen (platform : Platform) (members downloads : Members) :
    List Step → Json → Bool → Prop
  | common (unmapped : members.getD "natives" = .null) :
      Chosen platform members downloads [.member "downloads", .member "artifact"]
        (downloads.getD "artifact") false
  | classified {classifier : String} {classifiers : Members} {v : Json}
      (mapped : Classifies platform members classifier)
      (offers : OffersClassifiers downloads classifiers)
      (offered : classifiers.get? classifier = some v) :
      Chosen platform members downloads
        [.member "downloads", .member "classifiers", .member classifier] v true
  | fallback {classifier : String} {classifiers : Members}
      (mapped : Classifies platform members classifier)
      (offers : OffersClassifiers downloads classifiers)
      (missing : classifiers.get? classifier = none) :
      Chosen platform members downloads [.member "downloads", .member "artifact"]
        (downloads.getD "artifact") true

/-- Why there is no choice: the first place that is not as it must be, and what must be there. -/
inductive ChoiceFault (platform : Platform) (members downloads : Members) :
    List Step → Need → Prop
  | mapping (given : members.getD "natives" ≠ .null)
      (other : ∀ natives, members.getD "natives" ≠ .object natives) :
      ChoiceFault platform members downloads [.member "natives"] .object
  | entry {natives : Members} {os : String} {v : Json}
      (mapped : members.getD "natives" = .object natives) (system : platform.os = some os)
      (listed : natives.get? os = some v) (given : v ≠ .null) (other : ¬ v.IsText) :
      ChoiceFault platform members downloads [.member "natives", .member os] .string
  | classifiers {classifier : String} (mapped : Classifies platform members classifier)
      (other : ∀ classifiers, ¬ OffersClassifiers downloads classifiers) :
      ChoiceFault platform members downloads [.member "downloads", .member "classifiers"] .object

section Choice
variable {platform : Platform} {members downloads natives : Members} {steps : List Step} {v : Json}
  {isNative : Bool} {need : Need}

theorem select_common (unmapped : members.getD "natives" = .null) (place : Place) :
    selectArtifact platform members place downloads = .ok (some (⟨downloads.getD "artifact",
      place.along [.member "downloads", .member "artifact"]⟩, false)) := by
  simp [selectArtifact, unmapped, Place.along, Place.member, pure, Except.pure]

theorem select_foreign (foreign : IsForeign platform members) (place : Place) :
    selectArtifact platform members place downloads = .ok none := by
  obtain ⟨natives, mapped, unlisted⟩ := foreign
  rw [systemEntry] at unlisted
  simp [selectArtifact, mapped, unlisted, Json.asObject, bind, Except.bind, pure, Except.pure]

/-- Takes the artifact for a classifier, or else the common one. -/
def takeClassified (downloads : Members) (classifier : String) (place : Place) :
    Except Malformed (Option (Artifact × Bool)) := do
  let classifiersPlace := place.along [.member "downloads", .member "classifiers"]
  let classifiers ← ((downloads.get? "classifiers").getD (.object [])).asObject classifiersPlace
  match classifiers.get? classifier with
  | some value => return some (⟨value, classifiersPlace.member classifier⟩, true)
  | none => return some (⟨downloads.getD "artifact",
      place.along [.member "downloads", .member "artifact"]⟩, true)

/-- Where natives are mapped, the classifiers decide. -/
theorem select_mapped {classifier : String} (mapped : Classifies platform members classifier)
    (place : Place) :
    selectArtifact platform members place downloads = takeClassified downloads classifier place := by
  obtain ⟨natives, text, mapped, listed, filled⟩ := mapped
  have same : String.ofList (replaceArch (bitsText platform).toList text.toList) = classifier := by
    rw [← isFilled_iff.mp filled, String.ofList_toList]
  rw [systemEntry] at listed
  have inside (name : String) : (place.member "downloads").member name =
      place.along [.member "downloads", .member name] := by
    simp [Place.along, Place.member]
  simp only [selectArtifact, mapped, object_bind, listed, string_bind, same, inside]
  rfl

theorem select_chosen (chosen : Chosen platform members downloads steps v isNative)
    (place : Place) : selectArtifact platform members place downloads =
      .ok (some (⟨v, place.along steps⟩, isNative)) := by
  cases chosen with
  | common unmapped => exact select_common unmapped place
  | classified mapped offers offered =>
    rw [select_mapped mapped, takeClassified, show _ = Json.object _ from offers]
    simp [object_bind, offered, pure, Except.pure, Place.along, Place.member]
  | fallback mapped offers missing =>
    rw [select_mapped mapped, takeClassified, show _ = Json.object _ from offers]
    simp [object_bind, missing, pure, Except.pure]

theorem select_fault (fault : ChoiceFault platform members downloads steps need) (place : Place) :
    selectArtifact platform members place downloads = .error ⟨place.along steps, need⟩ := by
  cases fault with
  | mapping given other =>
    simp only [selectArtifact, Json.asObject_error other, error_bind]
    rfl
  | @entry natives os v mapped system listed given other =>
    simp only [selectArtifact, mapped, object_bind, system, Option.bind_some, listed,
      Option.getD_some, Json.asString_error other, error_bind]
    simp [Place.along, Place.member]
  | classifiers mapped other =>
    simp [select_mapped mapped, takeClassified, Json.asObject_error other, bind, Except.bind]

theorem choice_decides (platform : Platform) (members downloads : Members) :
    IsForeign platform members ∨
      (∃ steps v native, Chosen platform members downloads steps v native) ∨
      ∃ steps need, ChoiceFault platform members downloads steps need := by
  by_cases unmapped : members.getD "natives" = .null
  · exact .inr (.inl ⟨_, _, _, .common unmapped⟩)
  by_cases mapping : ∃ natives, members.getD "natives" = .object natives
  swap
  · exact .inr (.inr ⟨_, _, .mapping unmapped fun natives same => mapping ⟨natives, same⟩⟩)
  obtain ⟨natives, mapped⟩ := mapping
  by_cases unlisted : systemEntry platform natives = .null
  · exact .inl ⟨natives, mapped, unlisted⟩
  by_cases text : (systemEntry platform natives).IsText
  swap
  · cases system : platform.os with
    | none => simp [systemEntry, system] at unlisted
    | some os =>
      cases listed : Members.get? natives os with
      | none => simp [systemEntry, system, listed] at unlisted
      | some v =>
        simp only [systemEntry, system, Option.bind_some, listed, Option.getD_some] at unlisted text
        exact .inr (.inr ⟨_, _, .entry mapped system listed unlisted text⟩)
  obtain ⟨text, listed⟩ := text
  have classifies : Classifies platform members
      (String.ofList (replaceArch (bitsText platform).toList text.toList)) :=
    ⟨natives, text, mapped, listed, isFilled_iff.mpr String.toList_ofList⟩
  by_cases offers : ∃ classifiers, OffersClassifiers downloads classifiers
  · obtain ⟨classifiers, offers⟩ := offers
    cases offered : classifiers.get? _ with
    | some v => exact .inr (.inl ⟨_, _, _, .classified classifies offers offered⟩)
    | none => exact .inr (.inl ⟨_, _, _, .fallback classifies offers offered⟩)
  · exact .inr (.inr ⟨_, _, .classifiers classifies fun c other => offers ⟨c, other⟩⟩)

/-- There is one choice at most. -/
theorem Chosen.unique {steps' : List Step} {v' : Json} {isNative' : Bool}
    (chosen : Chosen platform members downloads steps v isNative)
    (chosen' : Chosen platform members downloads steps' v' isNative') :
    steps' = steps ∧ v' = v ∧ isNative' = isNative := by
  have same := (select_chosen chosen' ⟨"", []⟩).symm.trans (select_chosen chosen ⟨"", []⟩)
  simp only [Except.ok.injEq, Option.some.injEq, Prod.mk.injEq, Artifact.mk.injEq, Place.along,
    Place.mk.injEq, List.nil_append, true_and] at same
  exact ⟨same.1.2, same.1.1, same.2⟩

theorem Chosen.not_foreign (chosen : Chosen platform members downloads steps v isNative) :
    ¬ IsForeign platform members := by
  intro foreign
  have same := (select_foreign foreign ⟨"", []⟩).symm.trans (select_chosen chosen ⟨"", []⟩)
  cases same

theorem Chosen.isNative_iff (chosen : Chosen platform members downloads steps v isNative) :
    isNative ↔ members.getD "natives" ≠ .null := by
  cases chosen with
  | common unmapped => exact iff_of_false Bool.false_ne_true (not_not.mpr unmapped)
  | classified mapped | fallback mapped =>
    obtain ⟨natives, _, mapped, _⟩ := mapped
    exact iff_of_true rfl (by simp [mapped])

/-- An artifact is found where it is said to stand. -/
theorem Chosen.leads (chosen : Chosen platform members downloads steps v isNative)
    (given : (members.get? "downloads").getD (.object []) = .object downloads)
    (held : v ≠ .null) : (Json.object members).Leads steps (some v) := by
  have inside {name : String} {w : Json} (found : downloads.get? name = some w) :
      ("downloads", Json.object downloads) ∈ members := by
    refine Members.mem_of_get? (Members.get?_of_getD_object given ?_)
    rintro rfl
    contradiction
  have common (held : downloads.getD "artifact" ≠ .null) : (Json.object members).Leads
      [.member "downloads", .member "artifact"] (some (downloads.getD "artifact")) := by
    have found := Members.get?_of_getD held
    exact .member (inside found) (.member (Members.mem_of_get? found) (.here _))
  cases chosen with
  | common => exact common held
  | fallback => exact common held
  | classified mapped offers offered =>
    have listed := Members.get?_of_getD_object offers (by rintro rfl; contradiction)
    exact .member (inside listed) (.member (Members.mem_of_get? listed)
      (.member (Members.mem_of_get? offered) (.here _)))

end Choice

end Library
end Launcher
