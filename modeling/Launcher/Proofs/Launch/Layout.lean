import Launcher.Launch.CommandLine
import Launcher.Proofs.Action
import Launcher.Proofs.Launch.Evaluation

/-! The layout of the command line. The literals for the virtual machine come first, each as one
argument, and the user's arguments stand as they are behind those of the metadata. The class path is
always given before the main class, by a literal or by an option. -/
namespace Launcher

namespace Template

theorem fillAll_contains {table : Replacements} {name value : String}
    (known : table.get? name = some value) {pieces : List TemplatePiece}
    (named : .placeholder name ∈ pieces) {filled : List Char}
    (full : fillAll table pieces = .ok filled) : value.toList <:+: filled := by
  induction pieces generalizing filled with
  | nil => cases named
  | cons piece rest ih =>
    rw [fillAll] at full
    split at full
    · cases full
    · rename_i text one
      rcases others : fillAll table rest with e | tail
      · rw [others] at full
        cases full
      · rw [others] at full
        cases full
        rcases List.mem_cons.mp named with rfl | later
        · simp only [fill, known] at one
          cases one
          exact (List.prefix_append _ _).isInfix
        · exact (ih later others).trans (List.suffix_append _ _).isInfix

/-- The value of a placeholder stands in each text that names it. -/
theorem substitute_contains {table : Replacements} {name value text filled : String}
    (known : table.get? name = some value) (named : name ∈ names text)
    (full : substitute text table = .ok filled) : value.toList <:+: filled.toList := by
  unfold substitute at full
  split at full
  · rename_i chars filledAll
    cases full
    obtain ⟨piece, member, isName⟩ := List.mem_filterMap.mp named
    cases piece with
    | char c => cases isName
    | placeholder other =>
      cases isName
      rw [String.toList_ofList]
      exact fillAll_contains known member filledAll
  · cases full

end Template

namespace LaunchSettings

theorem jvmReplacements_classpath (s : LaunchSettings) :
    s.jvmReplacements.get? "classpath" = some s.classpath := by
  simp [jvmReplacements, Replacements.get?]

end LaunchSettings

namespace CommandLine

/-- What metadata put into a command line: the literals that are included for the virtual machine
and for the game, with what they give, and the main class. -/
structure Parts where
  jvmTexts : List String
  jvmValues : List String
  mainClass : String
  gameTexts : List String
  gameItems : List (Option String)

namespace Parts

/-- The parts are those of metadata, with the values of the settings. -/
structure IsOf (parts : Parts) (platform : Platform) (metadata : Members) (s : LaunchSettings) :
    Prop where
  mainClass : metadata.getD "mainClass" = .string parts.mainClass
  texts : ∃ jvm game, parseArguments metadata = .ok (jvm, game) ∧
    (jvmPhase platform s).Reaches jvm parts.jvmTexts ∧
    (gamePhase platform s).Reaches game parts.gameTexts
  jvmValues : parts.jvmTexts.Forall₂ (Template.substitute · s.jvmReplacements = .ok ·)
    parts.jvmValues
  gameItems : (gamePhase platform s).Yields parts.gameTexts parts.gameItems

/-- Whether an included literal for the virtual machine names the class path. -/
def namesClasspath (parts : Parts) : Bool :=
  parts.jvmTexts.any fun text => (Template.names text).contains "classpath"

/-- What stands before the main class. -/
def front (parts : Parts) (s : LaunchSettings) : List String :=
  parts.jvmValues ++ s.jvmArgs ++ (s.initMem.map fun size => s!"-Xms{size}M").toList ++
    (s.maxMem.map fun size => s!"-Xmx{size}M").toList ++ ["-Dorg.lwjgl.util.DebugLoader=true"] ++
    if parts.namesClasspath then [] else ["-cp", s.classpath]

def commandLine (parts : Parts) (s : LaunchSettings) : List String :=
  parts.front s ++ [parts.mainClass] ++ Evaluation.collapse parts.gameItems ++ s.gameArgs

variable {parts : Parts} {platform : Platform} {metadata : Members} {s : LaunchSettings}

/-- The class path is in an argument before the main class. -/
theorem IsOf.front_contains (given : parts.IsOf platform metadata s) :
    ∃ argument ∈ parts.front s, s.classpath.toList <:+: argument.toList := by
  by_cases named : parts.namesClasspath = true
  · obtain ⟨text, member, names⟩ := List.any_eq_true.mp named
    have names : "classpath" ∈ Template.names text := by simpa using names
    obtain ⟨i, inside, rfl⟩ := List.getElem_of_mem member
    have inside' : i < parts.jvmValues.length := given.jvmValues.length_eq ▸ inside
    refine ⟨parts.jvmValues[i], ?_, ?_⟩
    · have value : parts.jvmValues[i] ∈ parts.jvmValues := List.getElem_mem inside'
      simp [front, value]
    · apply Template.substitute_contains s.jvmReplacements_classpath names
      exact given.jvmValues.get inside inside'
  · refine ⟨s.classpath, ?_, List.infix_refl _⟩
    simp [front, named]

end Parts

variable {platform : Platform} {metadata : Members} {s : LaunchSettings} {args : List String}

/-- What the trees of metadata give, and whether they name the class path. -/
theorem arguments_jvmPhase_ok_iff {jvm : Argument} {values : List String}
    {evaluation : Evaluation} : (jvmPhase platform s).arguments jvm = (.ok values, evaluation) ↔
      ∃ texts, (jvmPhase platform s).Reaches jvm texts ∧
        texts.Forall₂ (Template.substitute · s.jvmReplacements = .ok ·) values ∧
        evaluation = ⟨values.map some, texts.flatMap Template.names⟩ := by
  rw [Phase.arguments_ok_iff]
  constructor
  · rintro ⟨texts, items, reached, given, rfl, rfl⟩
    obtain ⟨values, rfl, filled⟩ := (Phase.yields_iff_of_undropped rfl).mp given
    rw [Evaluation.collapse_map_some]
    exact ⟨texts, reached, filled, by simp [Evaluation.add, Evaluation.empty]⟩
  · rintro ⟨texts, reached, filled, rfl⟩
    refine ⟨texts, values.map some, reached, ?_, ?_, ?_⟩
    · exact (Phase.yields_iff_of_undropped rfl).mpr ⟨values, rfl, filled⟩
    · simp [Evaluation.add, Evaluation.empty]
    · rw [Evaluation.collapse_map_some]

theorem Parts.namesClasspath_eq (parts : Parts) :
    (parts.jvmTexts.flatMap Template.names).contains "classpath" = parts.namesClasspath := by
  rw [Bool.eq_iff_iff, Parts.namesClasspath]
  simp

theorem jvmOptions_eq (s : LaunchSettings) : jvmOptions s.jvmArgs s.initMem s.maxMem =
    s.jvmArgs ++ (s.initMem.map fun size => s!"-Xms{size}M").toList ++
      (s.maxMem.map fun size => s!"-Xmx{size}M").toList := by
  rw [jvmOptions, memoryOptions, Option.map_map, Option.map_map, List.append_assoc]
  rfl

/-- A command line that can be built consists of parts of the metadata, and all such parts can be
put together. -/
theorem build_ok_iff : build platform metadata s = .ok args ↔
    ∃ parts : Parts, parts.IsOf platform metadata s ∧ args = parts.commandLine s := by
  constructor
  · intro built
    obtain ⟨mainClass, isText, built⟩ := bind_ok built
    obtain ⟨⟨jvm, game⟩, parsed, built⟩ := bind_ok built
    rcases ranJvm : (jvmPhase platform s).arguments jvm with ⟨jvmResult, evaluation⟩
    rcases ranGame : (gamePhase platform s).arguments game with ⟨gameResult, evaluation'⟩
    simp only [ranJvm, ranGame] at built
    obtain ⟨jvmValues, jvmOk, built⟩ := bind_ok built
    obtain ⟨gameArgs, gameOk, built⟩ := bind_ok built
    cases mapError_ok_iff.mp jvmOk
    cases mapError_ok_iff.mp gameOk
    obtain ⟨jvmTexts, jvmReached, filled, rfl⟩ := arguments_jvmPhase_ok_iff.mp ranJvm
    obtain ⟨gameTexts, gameItems, gameReached, given, rfl, rfl⟩ :=
      Phase.arguments_ok_iff.mp ranGame
    let parts : Parts := ⟨jvmTexts, jvmValues, mainClass, gameTexts, gameItems⟩
    refine ⟨parts, ⟨?_, ⟨jvm, game, ?_, jvmReached, gameReached⟩, filled, given⟩, ?_⟩
    · exact Json.asString_ok.mp (mapError_ok_iff.mp isText)
    · exact mapError_ok_iff.mp parsed
    · cases built
      rw [parts.namesClasspath_eq, jvmOptions_eq]
      simp [Parts.commandLine, Parts.front, parts, debugLoaderArgument]
  · rintro ⟨parts, ⟨mainClass, ⟨jvm, game, parsed, jvmReached, gameReached⟩, filled, given⟩, rfl⟩
    have isText := (@Json.asString_ok _ (metadataPlace.member "mainClass") _).mpr mainClass
    have ranJvm := arguments_jvmPhase_ok_iff.mpr ⟨_, jvmReached, filled, rfl⟩
    have ranGame := Phase.arguments_ok_iff.mpr ⟨_, _, gameReached, given, rfl, rfl⟩
    rw [build, isText]
    simp only [Except.mapError, bind, Except.bind, parsed, ranJvm, ranGame]
    rw [parts.namesClasspath_eq, jvmOptions_eq]
    simp [Parts.commandLine, Parts.front, debugLoaderArgument, pure, Except.pure]

/-- A command line is the literals for the virtual machine that are included, with their values put
in and each as one argument, the user's options as they are, the class path unless one of these
literals names it, the main class, what the game's literals leave, and the user's arguments for the
game as they are. So the class path is in an argument before the main class. -/
theorem build_layout : build platform metadata s = .ok args ↔
    ∃ parts : Parts, parts.IsOf platform metadata s ∧
      args = parts.front s ++ [parts.mainClass] ++ Evaluation.collapse parts.gameItems ++
        s.gameArgs ∧
      ∃ argument ∈ parts.front s, s.classpath.toList <:+: argument.toList := by
  rw [build_ok_iff]
  constructor
  · rintro ⟨parts, given, rfl⟩
    exact ⟨parts, given, rfl, given.front_contains⟩
  · rintro ⟨parts, given, rfl, _⟩
    exact ⟨parts, given, rfl⟩

/-- Metadata that name the class path in literals that are left out. -/
def leftOut : Members :=
  let literals (texts : List String) : Json := .list (texts.map .string)
  [("mainClass", .string "Main"), ("arguments", .object [
    ("jvm", .list [.string "-Dv=$\x7bversion_name\x7d", .object [
      ("rules", .list [.object [("action", .string "disallow")]]),
      ("value", literals ["-cp", "$\x7bclasspath\x7d"])]]),
    ("game", literals ["--name", "$\x7bauth_player_name\x7d"])])]

def ownArguments : LaunchSettings where
  version := "1"
  classpath := "a.jar"
  gameDir := .ofText "game"
  assetsDir := .ofText "assets"
  nativesDir := .ofText "natives"
  session := .offline false
  librariesDir := none
  assetsIndexName := none
  versionType := "release"
  assetsVirtualDir := none
  jvmArgs := ["$\x7bclasspath\x7d"]
  gameArgs := ["", "$\x7bunknown\x7d"]
  initMem := some 0
  maxMem := none

theorem leftOut_layout :
    let platform : Platform := ⟨some "linux", none, none, ""⟩
    let args := ["-Dv=1", "$\x7bclasspath\x7d", "-Xms0M", "-Dorg.lwjgl.util.DebugLoader=true",
      "-cp", "a.jar", "Main", "--name", "", "$\x7bunknown\x7d"]
    build platform leftOut ownArguments = .ok args ∧
      ∃ parts : Parts, parts.IsOf platform leftOut ownArguments ∧
        args = parts.front ownArguments ++ [parts.mainClass] ++
          Evaluation.collapse parts.gameItems ++ ["", "$\x7bunknown\x7d"] ∧
        ∃ argument ∈ parts.front ownArguments, "a.jar".toList <:+: argument.toList := by
  intro platform args
  have built : build platform leftOut ownArguments = .ok args := by decide +kernel
  obtain ⟨parts, given, same, contained⟩ := build_layout.mp built
  exact ⟨built, parts, given, same, contained⟩

end CommandLine
end Launcher
