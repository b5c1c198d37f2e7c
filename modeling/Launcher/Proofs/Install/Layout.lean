import Launcher.Install.Steps
import Launcher.Proofs.Files.Presence

/-! Where the files of an installation lie. The metadata and the assets index of a version are
documents that no other step writes over: libraries, archives, objects, copies of assets and the
program have other places, whatever the version, the paths and the identifiers are called. -/
namespace Launcher

namespace Path

theorem leadsDown_of_free {name : String} (slash : '/' ∉ name.toList) (dot : '.' ∉ name.toList) :
    LeadsDown name := by
  obtain ⟨relative, none | one⟩ := ofText_of_slashless slash
  · exact ⟨relative, by simp [IsPlain, none]⟩
  · refine ⟨relative, ?_⟩
    rw [IsPlain, one, List.mem_singleton]
    rintro rfl
    exact dot (by decide)

theorem isSha1_free {text : String} (digest : isSha1 text) :
    '/' ∉ text.toList ∧ '.' ∉ text.toList := by
  have digits {c : Char} (member : c ∈ text.toList) : isHexLower c ∨ c = '\n' := by
    simp only [isSha1, Bool.and_eq_true, List.all_eq_true] at digest
    split at digest
    · rename_i ended
      obtain ⟨front, whole⟩ := List.getLast?_eq_some_iff.mp ended
      rw [whole, List.dropLast_concat] at digest
      rw [whole, List.mem_append, List.mem_singleton] at member
      exact member.imp_left (digest.2 c)
    · exact .inl (digest.2 c member)
  constructor
  · intro member
    rcases digits member with hex | ending
    · contradiction
    · contradiction
  · intro member
    rcases digits member with hex | ending
    · contradiction
    · contradiction

/-- The name of a document: the last part of a name with an ending is longer by it. -/
theorem parts_json (name : String) :
    ∃ above last, (ofText (name ++ ".json")).parts = above ++ [last ++ ".json"] ∧
      ((ofText name).parts = above ∨ (ofText name).parts = above ++ [last]) := by
  obtain ⟨pieces, last, cut, cut'⟩ :=
    Text.splitOn_append name.toList (show '/' ∉ ".json".toList by decide)
  refine ⟨(pieces.filter fun piece => piece ≠ [] && piece ≠ ['.']).map String.ofList,
    String.ofList last, ?_, ?_⟩
  · have long : last ++ ".json".toList ≠ [] ∧ last ++ ".json".toList ≠ ['.'] := by
      constructor
      · intro same
        simpa using congrArg List.length same
      · intro same
        have length := congrArg List.length same
        simp at length
    rw [parts_ofText, partsOf, String.toList_append, cut', List.filter_append, List.map_append,
      List.filter_cons, if_pos (by simpa using long)]
    simp
  · rw [parts_ofText, partsOf, cut, List.filter_append, List.map_append, List.filter_cons]
    split
    · exact .inr (by simp)
    · exact .inl (by simp)

theorem LeadsDown.json {name : String} (down : LeadsDown name) : LeadsDown (name ++ ".json") := by
  obtain ⟨above, last, parts, parts'⟩ := parts_json name
  constructor
  · rw [anchor_ofText, String.toList_append]
    have first := anchor_ofText.mp down.1
    rcases chars : name.toList with _ | ⟨c, rest⟩
    · decide
    · simpa [chars] using first
  · rw [IsPlain, parts]
    intro member
    rcases List.mem_append.mp member with member | member
    · refine down.2 ?_
      rcases parts' with same | same
      · rwa [same]
      · rw [same]
        exact List.mem_append_left _ member
    · have length := congrArg String.length (List.mem_singleton.mp member)
      rw [String.length_append, show "..".length = 2 from rfl,
        show ".json".length = 5 from rfl] at length
      omega

end Path

namespace Directories
variable (d : Directories) {version : String}

open Launcher.Path (LeadsDown ofText)

theorem assets_location (name : String) (down : LeadsDown name) :
    (d.assets / name).location = d.main.location ++ "assets" :: (ofText name).parts := by
  rw [down.location, assets, (show LeadsDown "assets" by decide).location]
  simp [show (ofText "assets").parts = ["assets"] by decide]

theorem libraries_location {path : String} (down : LeadsDown path) :
    (d.libraries / path).location = d.main.location ++ "libraries" :: (ofText path).parts := by
  rw [down.location, libraries, (show LeadsDown "libraries" by decide).location]
  simp [show (ofText "libraries").parts = ["libraries"] by decide]

theorem natives_location (down : LeadsDown version) :
    (d.natives version).location =
      d.main.location ++ "versions" :: (ofText version).parts ++ ["natives"] := by
  rw [natives, (show LeadsDown "natives" by decide).location, down.location, versions,
    (show LeadsDown "versions" by decide).location]
  simp [show (ofText "versions").parts = ["versions"] by decide,
    show (ofText "natives").parts = ["natives"] by decide]

theorem metadataFile_location (down : LeadsDown version) :
    (d.metadataFile version).location =
      d.main.location ++ "versions" :: (ofText (version ++ ".json")).parts := by
  rw [metadataFile, down.json.location, versions, (show LeadsDown "versions" by decide).location]
  simp [show (ofText "versions").parts = ["versions"] by decide]

end Directories

/-- An object lies on its shelf, and its shelf below that of all objects. -/
theorem InstallPlan.AssetObject.leadsDown (object : AssetObject) (digest : isSha1 object.hash) :
    Path.LeadsDown object.shelf ∧ Path.LeadsDown object.hash := by
  obtain ⟨slash, dot⟩ := Path.isSha1_free digest
  refine ⟨?_, Path.leadsDown_of_free slash dot⟩
  unfold AssetObject.shelf
  refine Path.leadsDown_of_free ?_ ?_
  all_goals
    rw [String.toList_ofList]
    intro member
    have inside := List.mem_of_mem_take member
    contradiction

namespace InstallSettings
variable {s : InstallSettings}

open Launcher.Path (LeadsDown ofText)

/-- The file of the assets index. -/
def assetsIndex (s : InstallSettings) : Path :=
  s.directories.assets / "indexes" / (s.version ++ ".json")

/-- The metadata and the assets index of the version lie here. -/
def IsDocument (s : InstallSettings) (l : Location) : Prop :=
  l = (s.directories.metadataFile s.version).location ∨ l = s.assetsIndex.location

/-- Where the archives of native libraries lie, and what is extracted from them. -/
def natives (s : InstallSettings) : Path := s.directories.natives s.version

/-- Where assets are copied to for a version that wants that. -/
def virtual (s : InstallSettings) : Path := s.directories.assets / "virtual" / s.version

variable (down : LeadsDown s.version)
include down

theorem assetsIndex_location :
    s.assetsIndex.location =
      s.directories.main.location ++
        "assets" :: "indexes" :: (ofText (s.version ++ ".json")).parts := by
  rw [assetsIndex, down.json.location, Directories.assets_location _ _ (by decide)]
  simp [show (ofText "indexes").parts = ["indexes"] by decide]

theorem virtual_location {id : String} (inside : LeadsDown id) :
    (s.virtual / id).location = s.directories.main.location ++
      "assets" :: "virtual" :: ((ofText s.version).parts ++ (ofText id).parts) := by
  rw [inside.location, virtual, down.location, Directories.assets_location _ _ (by decide)]
  simp [show (ofText "virtual").parts = ["virtual"] by decide]

/-- A document has a name of its own kind. -/
theorem IsDocument.name {l : Location} (document : s.IsDocument l) :
    ∃ above last, l = above ++ [last ++ ".json"] := by
  obtain ⟨above, last, parts, _⟩ := Path.parts_json s.version
  rcases document with rfl | rfl
  · rw [Directories.metadataFile_location _ down, parts]
    exact ⟨s.directories.main.location ++ "versions" :: above, last, by simp⟩
  · rw [assetsIndex_location down, parts]
    exact ⟨s.directories.main.location ++ "assets" :: "indexes" :: above, last, by simp⟩

theorem not_isDocument_of_name {l : Location} {name : String}
    (other : ¬ ".json".toList <:+ name.toList) : ¬ s.IsDocument (l ++ [name]) := by
  intro document
  obtain ⟨above, last, same⟩ := document.name down
  refine other ⟨last.toList, ?_⟩
  rw [(List.append_inj' same rfl).2 |> List.singleton_inj.mp, String.toList_append]

theorem jar_not_isDocument : ¬ s.IsDocument s.jar.location := by
  unfold jar
  cases s.kind with
  | client =>
    simp only [Directories.clientJar]
    rw [(show LeadsDown "client.jar" by decide).location,
      show (ofText "client.jar").parts = ["client.jar"] by decide]
    exact not_isDocument_of_name down (by decide)
  | server =>
    simp only
    rw [(show LeadsDown "server.jar" by decide).location,
      show (ofText "server.jar").parts = ["server.jar"] by decide]
    exact not_isDocument_of_name down (by decide)

theorem library_not_isDocument {path : String} (inside : LeadsDown path) :
    ¬ s.IsDocument (s.directories.libraries / path).location := by
  rw [Directories.libraries_location _ inside]
  rintro (same | same)
  · rw [Directories.metadataFile_location _ down] at same
    simpa using List.append_cancel_left same
  · rw [assetsIndex_location down] at same
    simpa using List.append_cancel_left same

/-- What lies below the directory of natives is no document, and neither is what lies above it. -/
theorem native_not_isDocument (names : List String) :
    ¬ s.IsDocument (s.natives.location ++ names) ∧ ¬ s.IsDocument s.natives.location.dropLast := by
  obtain ⟨above, last, parts, version⟩ := Path.parts_json s.version
  have longer : last ++ ".json" ≠ last := by
    intro same
    have length := congrArg String.length same
    rw [String.length_append, show ".json".length = 5 from rfl] at length
    omega
  have other : "natives" ≠ last ++ ".json" := by
    intro same
    have chars := congrArg String.toList same
    rw [String.toList_append] at chars
    exact absurd ⟨last.toList, chars.symm⟩ (show ¬ ".json".toList <:+ "natives".toList by decide)
  rw [natives, Directories.natives_location _ down, List.dropLast_concat]
  unfold IsDocument
  rw [assetsIndex_location down, Directories.metadataFile_location _ down, parts]
  rcases version with version | version
  all_goals
    rw [version]
    simp only [List.append_assoc, List.append_cancel_left_eq, List.cons_append, List.cons.injEq,
      List.nil_append, true_and, not_or]
    refine ⟨⟨?_, by simp⟩, ⟨?_, by simp⟩⟩
  · simp [other]
  · simp
  · simp
  · simp [longer.symm]

theorem object_not_isDocument {object : InstallPlan.AssetObject} (digest : isSha1 object.hash) :
    ¬ s.IsDocument
      (s.directories.assets / "objects" / object.shelf / object.hash).location := by
  obtain ⟨shelf, hash⟩ := object.leadsDown digest
  rw [hash.location, shelf.location, Directories.assets_location _ _ (by decide)]
  rintro (same | same)
  · rw [Directories.metadataFile_location _ down] at same
    simp at same
  · rw [assetsIndex_location down] at same
    simp [show (ofText "objects").parts = ["objects"] by decide] at same

theorem virtual_not_isDocument {id : String} (inside : LeadsDown id) :
    ¬ s.IsDocument (s.virtual / id).location := by
  rw [virtual_location down inside]
  rintro (same | same)
  · rw [Directories.metadataFile_location _ down] at same
    simp at same
  · rw [assetsIndex_location down] at same
    simp at same

/-- No asset is copied to where archives are. -/
theorem virtual_ne_native {id path : String} (inside : LeadsDown id) (inside' : LeadsDown path) :
    (s.virtual / id).location ≠ (s.natives / path).location := by
  rw [virtual_location down inside, inside'.location, natives, Directories.natives_location _ down]
  simp

/-- The licence of a server is no document. -/
theorem eula_not_isDocument (directory : Path) :
    ¬ s.IsDocument (directory / "eula.txt").location := by
  rw [(show LeadsDown "eula.txt" by decide).location,
    show (ofText "eula.txt").parts = ["eula.txt"] by decide]
  exact not_isDocument_of_name down (by decide)

/-- What is extracted under another name than an archive has is put beside it. -/
theorem extracted_ne_native {name path : String} {tree : FileTree} (slashless : '/' ∉ name.toList)
    (inside : LeadsDown path) (other : (s.natives / path).name ≠ name)
    (housed : tree.isDirectory s.natives = .ok true) (present : tree.HasFile (s.natives / path)) :
    (s.natives / name).location ≠ (s.natives / path).location := by
  have here : ¬ tree.IsFileAt s.natives.location := by
    rintro ⟨content, file⟩
    simp [(FileTree.isDirectory_iff.mp housed).2.2] at file
  have there := (FileTree.hasFile_iff.mp present).2.2
  rw [inside.location] at there ⊢
  rcases Path.leadsDown_of_slashless slashless s.natives with above | beside
  · rw [above, natives, Directories.natives_location _ down, List.dropLast_concat]
    simp
  · rw [beside.location]
    intro same
    have same := List.append_cancel_left same
    rcases (Path.ofText_of_slashless slashless).2 with none | one
    · rw [← same, none, List.append_nil] at there
      exact here there
    · refine other ?_
      rw [Path.name, Path.join_parts_of_relative _ _ inside.1, ← same, one]
      simp

/-- What is extracted is no document. -/
theorem extracted_not_isDocument {name : String} (slashless : '/' ∉ name.toList) :
    ¬ s.IsDocument (s.natives / name).location := by
  obtain ⟨below, above⟩ := native_not_isDocument down (ofText name).parts
  rcases Path.leadsDown_of_slashless slashless s.natives with up | beside
  · rw [up]
    exact above
  · rw [beside.location]
    exact below

end InstallSettings
end Launcher
