import Launcher.Files.Path
import Launcher.Identity
import Launcher.Number.Reading
import Launcher.Options.Reading
import Launcher.Terminal.Message
import Launcher.Terminal.Output

/-! The commands of the launcher with their options. -/
namespace Launcher

structure Target where
  isServer : Bool
  version : String
  deriving DecidableEq, Repr

structure StartOptions where
  target : Target
  isDry : Bool
  isDemo : Bool
  jvm : Setting String
  jvmArgs : Setting String
  gameArgs : Setting String
  /-- How much memory to take at first and at most, in MiB. -/
  initMem : Setting Int
  maxMem : Setting Int
  deriving DecidableEq, Repr

inductive Command
  | search (filter : Option String)
  | install (target : Target)
  | start (options : StartOptions)
  deriving DecidableEq, Repr

structure Options where
  mainDir : Setting Path
  workDir : Setting Path
  /-- How long to wait for the network, in seconds. -/
  timeout : Setting Binary64
  output : Setting OutputKind
  verbosity : Nat
  command : Option Command
  deriving DecidableEq, Repr

namespace Options

def flag {σ : Type} (name key : String) (set : σ → σ) : OptionSpec σ :=
  ⟨[name], .change set, Message.plain key⟩

def valued {σ α : Type} (name placeholder key : String) (read : String → Except ValueFault α)
    (set : Setting α → σ → σ) : OptionSpec σ :=
  let setValue (text : String) (s : σ) := (read text).map fun value => set (.given value) s
  ⟨[name], .value placeholder setValue (set .cleared), Message.plain key⟩

/-- An option that takes a text. -/
def textual {σ : Type} (name placeholder key : String) (set : Setting String → σ → σ) :
    OptionSpec σ :=
  valued name placeholder key .ok set

def readPath (text : String) : Except ValueFault Path := .ok (.ofText text)

def readReal (text : String) : Except ValueFault Binary64 :=
  match Number.readReal? text with
  | some x => .ok x
  | none => .error (.notReal text)

def readInt (text : String) : Except ValueFault Int :=
  match Number.readInt? text with
  | some n => .ok n
  | none => .error (.notInteger text)

def outputKinds : List String := OutputKind.all.map OutputKind.text

def readOutput (text : String) : Except ValueFault OutputKind :=
  match OutputKind.ofText? text with
  | some kind => .ok kind
  | none => .error (.notChoice text outputKinds)

def program : String := launcherName

def searchName : String := "search"
def installName : String := "install"
def startName : String := "start"

def commands : List (String × String) :=
  [(searchName, Message.plain "args.search"), (installName, Message.plain "args.install"),
    (startName, Message.plain "args.start")]

def mainSpec : CommandSpec Options where
  program := program
  description := some (Message.plain "args")
  options := [
    .help,
    valued "--main-dir" "MAIN_DIR" "args.main_dir" readPath
      fun mainDir s => { s with mainDir },
    valued "--work-dir" "WORK_DIR" "args.work_dir" readPath
      fun workDir s => { s with workDir },
    valued "--timeout" "TIMEOUT" "args.timeout" readReal fun timeout s => { s with timeout },
    valued "--output" (choiceText outputKinds) "args.output" readOutput
      fun output s => { s with output },
    flag "-v" "args.verbose" fun s => { s with verbosity := s.verbosity + 1 }]
  abbreviates := false
  operands := .command "subcommands" commands

def searchSpec : CommandSpec (Option String) where
  program := program ++ " " ++ searchName
  description := none
  options := [.help]
  abbreviates := true
  operands := .single "input" (Message.plain "args.search.input") fun text _ => some text

def serverOption {σ : Type} (change : (Target → Target) → σ → σ) : OptionSpec σ :=
  flag "--server" "args.common.server" (change fun t => { t with isServer := true })

def versionOperand {σ : Type} (change : (Target → Target) → σ → σ) : OperandSpec σ :=
  .single "version" (Message.plain "args.common.version")
    fun text => change fun t => { t with version := text }

def installSpec : CommandSpec Target where
  program := program ++ " " ++ installName
  description := none
  options := [.help, serverOption id]
  abbreviates := true
  operands := versionOperand id

def changeTarget (change : Target → Target) (s : StartOptions) : StartOptions :=
  { s with target := change s.target }

def startSpec : CommandSpec StartOptions where
  program := program ++ " " ++ startName
  description := none
  options := [
    .help,
    flag "--dry" "args.start.dry" fun s => { s with isDry := true },
    flag "--demo" "args.start.demo" fun s => { s with isDemo := true },
    textual "--jvm" "JVM" "args.start.jvm" fun jvm s => { s with jvm },
    textual "--jvm-args" "ARGS" "args.start.jvm_args" fun jvmArgs s => { s with jvmArgs },
    textual "--game-args" "ARGS" "args.start.game_args" fun gameArgs s => { s with gameArgs },
    valued "--xms" "MIB" "args.start.init_mem" readInt fun initMem s => { s with initMem },
    valued "--xmx" "MIB" "args.start.max_mem" readInt fun maxMem s => { s with maxMem },
    serverOption changeTarget]
  abbreviates := true
  operands := versionOperand changeTarget

/-- Without options: the latest release of the client, and no command. -/
def defaultTarget : Target := ⟨false, "release"⟩

def defaultStart : StartOptions :=
  ⟨defaultTarget, false, false, .unset, .unset, .unset, .unset, .unset⟩

def defaultOutput : OutputKind := .colored

def default : Options := ⟨.unset, .unset, .unset, .given defaultOutput, 0, none⟩

/-- Reads the arguments of a command: the command, and what it does not know. -/
def readAs {σ : Type} (c : CommandSpec σ) (settings : σ) (command : σ → Command)
    (arguments : List String) : Except Refusal (Command × List String) :=
  (c.read settings arguments).map fun r => (command r.settings, r.unrecognized)

def readCommand (name : String) (arguments : List String) :
    Except Refusal (Command × List String) :=
  if name = searchName then readAs searchSpec none .search arguments
  else if name = installName then readAs installSpec defaultTarget .install arguments
  else if name = startName then readAs startSpec defaultStart .start arguments
  else .error (mainSpec.refuse (.badValue "subcommand" (.notChoice name (commands.map Prod.fst))))

/-- Reads the arguments of the launcher. What neither it nor its command knows is refused in the
end. -/
def read (arguments : List String) : Except Refusal Options := do
  let r ← mainSpec.read default arguments
  let (command, unrecognized) ← match r.command with
    | [] => pure (none, [])
    | name :: rest =>
      let (command, unrecognized) ← readCommand name rest
      pure (some command, unrecognized)
  let unrecognized := r.unrecognized ++ unrecognized
  if unrecognized.isEmpty then return { r.settings with command }
  else throw (mainSpec.refuse (.unrecognized unrecognized))

end Options

def misuseLine (program : String) (misuse : Misuse) : String :=
  program ++ ": error: " ++ misuse.message

end Launcher
