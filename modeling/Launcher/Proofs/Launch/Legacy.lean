import Launcher.Proofs.Launch.Grammar
import Launcher.Proofs.Launch.Layout
import Launcher.Proofs.Text.Pieces

/-! Metadata without argument trees. Their place is taken by arguments of the virtual machine that
are built in, and by the words of one text: it starts the game as if the metadata had both. -/
namespace Launcher.CommandLine
variable {metadata : Members} {text : String}

/-- The metadata that has the arguments written out which stand for a text of the game's. -/
def withArguments (metadata : Members) (text : String) : Members :=
  metadata.insert "arguments"
    (.object [("jvm", legacyJvm), ("game", .list ((legacyPieces text).map .string))])

theorem jsonItems_literals (texts : List String) :
    Argument.jsonItems (texts.map .literal) = texts.map .string := by
  induction texts with
  | nil => rfl
  | cons text rest ih => simp [Argument.jsonItems, Argument.json, ih]

theorem parse_texts (texts : List String) (place : Place) :
    Argument.parse (.list (texts.map .string)) place = .ok (.list (texts.map .literal)) := by
  rw [← jsonItems_literals, ← Argument.json, Argument.parse_json]

theorem legacyJvm_isForm : Argument.IsForm legacyJvm :=
  Argument.parse_keepsTo.ok_iff.mp
    (⟨_, rfl⟩ : ∃ a, Argument.parse legacyJvm (.ofText "") = .ok a)

theorem parseArguments_withArguments (absent : metadata.getD "arguments" = .null)
    (given : (metadata.get? "minecraftArguments").getD (.string "") = .string text) :
    parseArguments metadata = parseArguments (withArguments metadata text) := by
  obtain ⟨jvm, read⟩ := Argument.accepts legacyJvm_isForm
  have old : parseArguments metadata = .ok (jvm, .list ((legacyPieces text).map .literal)) := by
    rw [parseArguments, absent, given, read]
    rfl
  have tree : (withArguments metadata text).getD "arguments" =
      .object [("jvm", legacyJvm), ("game", .list ((legacyPieces text).map .string))] := by
    rw [Members.getD, withArguments, Members.get?_insert]
    rfl
  rw [old, parseArguments, tree]
  simp [Json.asObject, Members.get?, read, parse_texts, bind, Except.bind, pure, Except.pure]

theorem legacyPieces_clean (text : String) :
    ∀ piece ∈ legacyPieces text, piece ≠ "" ∧ ' ' ∉ piece.toList := by
  intro piece inside
  obtain ⟨letters, cut, rfl⟩ := List.mem_map.mp inside
  obtain ⟨given, some⟩ := List.mem_filter.mp cut
  refine ⟨fun empty => ?_, by simpa using Text.not_mem_of_mem_splitOn given⟩
  have none : letters = [] := by simpa using congrArg String.toList empty
  simp [none] at some

theorem intercalate_legacyPieces (text : String) :
    " ".intercalate (legacyPieces text) = String.ofList (Text.squeeze ' ' text.toList) := by
  apply String.toList_injective
  have letters : (legacyPieces text).map String.toList =
      (Text.splitOn ' ' text.toList).filter (· ≠ []) := by
    simp [legacyPieces, Function.comp_def]
  rw [String.toList_intercalate, letters, Text.squeeze_eq, Text.joinWith_eq_intercalate,
    String.toList_ofList, String.toList_ofList]

/-- Metadata without argument trees lead to the same command line, or to the same error, as those in
which the trees are written out: the built-in one for the virtual machine, and the words of the text
for the game. Put together again, the words are the text without needless spaces. -/
theorem build_withArguments (absent : metadata.getD "arguments" = .null)
    (given : (metadata.get? "minecraftArguments").getD (.string "") = .string text)
    (platform : Platform) (s : LaunchSettings) :
    build platform metadata s = build platform (withArguments metadata text) s ∧
    (∀ piece ∈ legacyPieces text, piece ≠ "" ∧ ' ' ∉ piece.toList) ∧
    " ".intercalate (legacyPieces text) = String.ofList (Text.squeeze ' ' text.toList) := by
  refine ⟨?_, legacyPieces_clean text, intercalate_legacyPieces text⟩
  have mainClass : (withArguments metadata text).getD "mainClass" = metadata.getD "mainClass" := by
    rw [Members.getD, withArguments, Members.get?_insert_of_ne (by decide), ← Members.getD]
  rw [build, build, mainClass, parseArguments_withArguments absent given]

/-- Metadata whose text for the game has needless spaces. -/
def spacedOut : Members :=
  [("arguments", .null), ("mainClass", .string "Main"),
    ("minecraftArguments", .string "  --name ${auth_player_name}   --version  1 ")]

theorem spacedOut_withArguments :
    let platform : Platform := ⟨some "linux", none, none, ""⟩
    let text := "  --name ${auth_player_name}   --version  1 "
    spacedOut.getD "arguments" = .null ∧
      (spacedOut.get? "minecraftArguments").getD (.string "") = .string text ∧
      build platform (withArguments spacedOut text) ownArguments = .ok ["-Djava.library.path=natives",
        "-Dminecraft.launcher.brand=launchcraft", "-Dminecraft.launcher.version=0.3.0", "-cp",
        "a.jar", "${classpath}", "-Xms0M", "-Dorg.lwjgl.util.DebugLoader=true", "Main",
        "--name", "--version", "1", "", "${unknown}"] ∧
      build platform spacedOut ownArguments =
        build platform (withArguments spacedOut text) ownArguments ∧
      " ".intercalate (legacyPieces text) = "--name ${auth_player_name} --version 1" := by
  intro platform text
  have absent : spacedOut.getD "arguments" = .null := rfl
  obtain ⟨same, -, joined⟩ := build_withArguments absent rfl platform ownArguments
  exact ⟨absent, rfl, by decide +kernel, same, joined.trans (by decide)⟩

end Launcher.CommandLine
