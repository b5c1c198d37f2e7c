import Launcher.Files.Path
import Launcher.Identity
import Launcher.Launch.Phase
import Launcher.Launch.Session
import Launcher.Text.Pieces

/-! The command line that starts the game: arguments of the virtual machine, the main class, and
arguments of the game. -/
namespace Launcher

/-- What a started game is told: its version, its directories, the player, and the further
arguments and memory sizes, in MiB, that the user wants. -/
structure LaunchSettings where
  version : String
  classpath : String
  gameDir : Path
  assetsDir : Path
  nativesDir : Path
  session : Session
  librariesDir : Option Path
  /-- The version, if no name is given. -/
  assetsIndexName : Option String
  versionType : String
  assetsVirtualDir : Option Path
  jvmArgs : List String
  gameArgs : List String
  initMem : Option Int
  maxMem : Option Int
  deriving Repr

inductive LaunchError
  | malformed (error : Malformed)
  | evaluation (error : EvaluationError)
  deriving DecidableEq, Repr

namespace LaunchSettings

def jvmReplacements (s : LaunchSettings) : Replacements :=
  [("launcher_name", launcherName), ("launcher_version", launcherVersion),
    ("classpath", s.classpath), ("classpath_separator", ":"),
    ("natives_directory", s.nativesDir.text), ("version_name", s.version)] ++
  (match s.librariesDir with
    | some dir => [("library_directory", dir.text)]
    | none => [])

/-- The values for the game's arguments; an offline player has no name, identifier and token. -/
def gameReplacements (s : LaunchSettings) : Replacements :=
  [("version_name", s.version), ("version_type", s.versionType),
    ("game_directory", s.gameDir.text), ("assets_root", s.assetsDir.text),
    ("assets_index_name", s.assetsIndexName.getD s.version),
    ("game_assets", (s.assetsVirtualDir.getD s.assetsDir).text),
    ("user_type", s.session.userType), ("user_properties", "\x7b\x7d"),
    ("clientid", s.session.clientId), ("auth_xuid", s.session.xuid),
    ("auth_session", s.session.legacyToken)] ++
  (if s.session.isOffline then []
    else [("auth_player_name", s.session.username), ("auth_uuid", s.session.uuid),
      ("auth_access_token", s.session.token)])

end LaunchSettings

namespace CommandLine

def identityPlaceholders : List String := ["auth_player_name", "auth_access_token", "auth_uuid"]

/-- The options for memory sizes, which are in MiB. -/
def memoryOptions (initMem maxMem : Option String) : List String :=
  (initMem.map fun size => s!"-Xms{size}M").toList ++
    (maxMem.map fun size => s!"-Xmx{size}M").toList

/-- The user's options for the virtual machine, the memory sizes last. -/
def jvmOptions (jvmArgs : List String) (initMem maxMem : Option Int) : List String :=
  jvmArgs ++ memoryOptions (initMem.map toString) (maxMem.map toString)

def rulesOnly (os : List (String × Json)) : Json :=
  .list [.object [("action", .string "disallow")],
    .object [("action", .string "allow"), ("os", .object os)]]

/-- The arguments of the virtual machine for metadata that has none. Those of one system stand
after a rule that disallows them everywhere. -/
def legacyJvm : Json := .list [
  .object [("rules", rulesOnly [("name", .string "osx")]),
    ("value", .list [.string "-XstartOnFirstThread"])],
  .object [("rules", rulesOnly [("name", .string "windows")]),
    ("value", .string ("-XX:HeapDumpPath=MojangTricksIntelDriversForPerformance_javaw.exe_" ++
      "minecraft.exe.heapdump"))],
  .object [("rules", rulesOnly [("name", .string "windows"), ("version", .string "^10\\.")]),
    ("value", .list [.string "-Dos.name=Windows 10", .string "-Dos.version=10.0"])],
  .string "-Djava.library.path=$\x7bnatives_directory\x7d",
  .string "-Dminecraft.launcher.brand=$\x7blauncher_name\x7d",
  .string "-Dminecraft.launcher.version=$\x7blauncher_version\x7d",
  .string "-cp",
  .string "$\x7bclasspath\x7d"]

def legacyPieces (text : String) : List String :=
  ((Text.splitOn ' ' text.toList).filter (· ≠ [])).map String.ofList

/-- The argument trees of metadata, for the virtual machine and for the game. -/
def parseArguments (metadata : Members) : Except Malformed (Argument × Argument) :=
  match metadata.getD "arguments" with
  | .null => do
    let jvm ← Argument.parse legacyJvm (.ofText "<legacy_jvm_args>")
    let text ← ((metadata.get? "minecraftArguments").getD (.string "")).asString
      (metadataPlace.member "minecraftArguments")
    return (jvm, .list ((legacyPieces text).map .literal))
  | arguments => do
    let place := metadataPlace.member "arguments"
    let arguments ← arguments.asObject place
    let jvm ← Argument.parse ((arguments.get? "jvm").getD (.list [])) (place.member "jvm")
    let game ← Argument.parse ((arguments.get? "game").getD (.list [])) (place.member "game")
    return (jvm, game)

def jvmPhase (platform : Platform) (s : LaunchSettings) : Phase :=
  ⟨platform, s.jvmReplacements, s.session.features, []⟩

/-- An offline player's arguments that name the player are dropped. -/
def gamePhase (platform : Platform) (s : LaunchSettings) : Phase :=
  ⟨platform, s.gameReplacements, s.session.features,
    if s.session.isOffline then identityPlaceholders else []⟩

def debugLoaderArgument : String := "-Dorg.lwjgl.util.DebugLoader=true"

/-- The arguments of the command line, without the program. The class path is given by an option
unless an argument of the metadata names it. -/
def build (platform : Platform) (metadata : Members) (s : LaunchSettings) :
    Except LaunchError (List String) := do
  let mainClass ← ((metadata.getD "mainClass").asString (metadataPlace.member "mainClass")).mapError
    .malformed
  let (jvm, game) ← (parseArguments metadata).mapError .malformed
  let (jvmArgs, evaluation) := (jvmPhase platform s).arguments jvm
  let jvmArgs ← jvmArgs.mapError .evaluation
  let classpath := if evaluation.names.contains "classpath" then [] else ["-cp", s.classpath]
  let gameArgs ← ((gamePhase platform s).arguments game).1.mapError .evaluation
  return jvmArgs ++ jvmOptions s.jvmArgs s.initMem s.maxMem ++ [debugLoaderArgument] ++ classpath ++
    [mainClass] ++ gameArgs ++ s.gameArgs

/-- Whether an argument is quoted in a line: it has a space or is empty. -/
def needsQuotes (argument : String) : Bool := argument = "" || argument.toList.contains ' '

/-- The arguments in one line, those with spaces and empty ones between double quotes. -/
def line (arguments : List String) : String :=
  " ".intercalate (arguments.map fun a => if needsQuotes a then "\"" ++ a ++ "\"" else a)

end CommandLine
end Launcher
