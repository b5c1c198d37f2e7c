import Launcher.Json.Printer

/-! The messages of the launcher. A message is known by a key and has fields that values fill; a key
without a message, and a message with a field that has no value, show the key. -/
namespace Launcher

/-- A piece of a message: text, or the place of a value that is filled up with blanks on the left
to a width, if one is given. -/
inductive MessagePiece
  | text (content : List Char)
  | field (name : String) (width : Option Nat)
  deriving DecidableEq, Repr

/-- Why a message cannot be shown: the value of a field with a width is nothing that has one. -/
inductive MessageError
  | unalignable
  deriving DecidableEq, Repr

namespace Message

def all : List (String × String) := [
  ("args", "Launchcraft installs and starts Minecraft versions from the official " ++
    "Mojang's manifest, verifying every downloaded file."),
  ("args.main_dir", "Set the main directory where versions, libraries and assets are " ++
    "stored (default to a directory in your user's data)."),
  ("args.work_dir", "Set the instance directory where the game's JAR is stored and " ++
    "the game is run (default to the main directory)."),
  ("args.timeout", "Set a global timeout (in decimal seconds) for network requests."),
  ("args.output", "Set the output format of the launcher."),
  ("args.verbose", "Enable verbose output, repeat for more."),
  ("args.search", "Search for versions in the official manifest."),
  ("args.search.input", "Filter versions containing this text, or an alias."),
  ("args.install", "Install a version without starting it."),
  ("args.start", "Install and start a version."),
  ("args.start.dry", "Simulate the game starting, print the command line."),
  ("args.start.demo", "Start the game in demo mode."),
  ("args.start.jvm", "Set a custom JVM 'java' executable path."),
  ("args.start.jvm_args", "Additional JVM arguments, separated by spaces."),
  ("args.start.game_args", "Additional game arguments, separated by spaces."),
  ("args.start.init_mem", "Initial memory of the JVM, in MiB."),
  ("args.start.max_mem", "Maximum memory of the JVM, in MiB."),
  ("args.common.server", "Install the server instead of the client."),
  ("args.common.version",
    "Version identifier, or 'release'/'snapshot' for the latest one."),
  ("echo", "\x7becho\x7d"),
  ("cancelled", "Cancelled."),
  ("error.os", "An unexpected operating system error happened:"),
  ("error.socket", "This operation requires an internet connection:"),
  ("error.http", "HTTP request failed: \x7bmessage\x7d"),
  ("error.parse", "Malformed metadata: \x7bmessage\x7d"),
  ("error.integrity", "Corrupted file: \x7bmessage\x7d"),
  ("search.type", "Type"),
  ("search.name", "Identifier"),
  ("search.flags", "Flags"),
  ("search.flags.local", "local"),
  ("start.version.not_found", "Version \x7bversion\x7d not found."),
  ("start.version.alias", "Latest \x7balias\x7d is \x7bversion\x7d"),
  ("start.version.loading", "Loading version \x7bversion\x7d..."),
  ("start.version.loaded", "Loaded version \x7bversion\x7d"),
  ("start.jar.found", "Version JAR found: \x7bpath\x7d"),
  ("start.jar.not_found", "No \x7bkind\x7d JAR file found for this version."),
  ("start.libraries.resolving", "Resolving libraries..."),
  ("start.libraries.resolved", "Resolved \x7bclass_libs_count\x7d class libraries and " ++
    "\x7bnative_libs_count\x7d native libraries"),
  ("start.assets.resolved", "Resolved \x7bcount\x7d assets for index \x7bindex_version\x7d"),
  ("start.natives.installed", "Installed \x7bcount\x7d native libraries"),
  ("start.natives.error", "Failed to extract \x7barchive\x7d: \x7bmessage\x7d"),
  ("start.eula.written", "EULA accepted in \x7bpath\x7d"),
  ("start.installed", "Version \x7bversion\x7d installed"),
  ("start.dry", "Dry run, command line:"),
  ("start.starting", "Starting the game..."),
  ("start.exited", "Game exited with code \x7bcode\x7d"),
  ("download.threads_count", "Download threads count: \x7bcount\x7d"),
  ("download.start", "Download starting..."),
  ("download.progress", "Download: \x7bcount\x7d/\x7btotal_count\x7d \x7bsize:>8\x7d"),
  ("download.error", "\x7bname\x7d: \x7bmessage\x7d"),
  ("download.error.connection", "Connection error"),
  ("download.error.not_found", "Not found"),
  ("download.error.invalid_size", "Invalid size"),
  ("download.error.invalid_sha1", "Invalid SHA1")]

/-- The pieces of a message as it is written: a field stands in braces, its width after `:>`. -/
def pieces : List Char → List MessagePiece
  | [] => []
  | '\x7b' :: rest =>
    let field := rest.takeWhile (· ≠ '\x7d')
    let name := field.takeWhile (· ≠ ':')
    let width := (field.drop name.length).drop 2
    .field (String.ofList name) (if width.isEmpty then none
      else some (width.foldl (fun n c => 10 * n + (c.toNat - 48)) 0)) ::
      pieces ((rest.dropWhile (· ≠ '\x7d')).drop 1)
  | c :: rest => .text [c] :: pieces rest
termination_by text => text.length
decreasing_by
  · have := (List.dropWhile_suffix (l := rest) (· ≠ '\x7d')).length_le
    simp only [List.length_drop, List.length_cons]
    omega
  · simp

/-- A value at the right end of a place of some width. The truth values count as numbers there, and
only texts and numbers have a place. -/
def aligned (width : Nat) (v : Json) : Except MessageError (List Char) :=
  let place (text : List Char) : Except MessageError (List Char) :=
    .ok (List.replicate (width - text.length) ' ' ++ text)
  match v with
  | .string s => place s.toList
  | .bool b => place [if b then '1' else '0']
  | .int n => place (Json.intText n).toList
  | .float x => place (Number.text x).toList
  | _ => .error .unalignable

def fill (values : Members) : List MessagePiece → Except MessageError (Option (List Char))
  | [] => .ok (some [])
  | .text content :: rest => do
    return (← fill values rest).map (content ++ ·)
  | .field name width :: rest =>
    match values.get? name, width with
    | none, _ => .ok none
    | some v, none => do
      return (← fill values rest).map (v.display.toList ++ ·)
    | some v, some width => do
      let text ← aligned width v
      return (← fill values rest).map (text ++ ·)

def text (key : String) (values : Members) : Except MessageError String :=
  match all.lookup key with
  | none => .ok key
  | some template => do
    match ← fill values (pieces template.toList) with
    | some filled => return String.ofList filled
    | none => return key

def plain (key : String) : String := (all.lookup key).getD key

end Message
end Launcher
