import Launcher.Commands.Search
import Launcher.Commands.Start
import Launcher.Network.Timeout

/-! Carrying out a command line: the options are read, the index of versions is taken from its file
in the main directory, and the command is performed. A fault is told and gives the code of a
failure. -/
namespace Launcher

structure Surroundings where
  machine : Machine
  /-- The main directory if none is given; nothing without a home directory. -/
  launcherDirectory : Option Path
  columns : Nat
  process : ProcessScript
  deriving Repr

inductive Escape
  | fault (fault : Fault)
  | timeout (error : TimeoutError)
  deriving Repr

/-- What all commands need. -/
structure Preparation where
  output : OutputKind
  mainDir : Path
  timeout : Option Binary64
  deriving Repr

namespace Preparation

/-- The main directory: the one that is given, else the launcher's. -/
def mainDirOf (s : Surroundings) (given : Option Path) : Except Fault Path :=
  match given.or s.launcherDirectory with
  | some directory => .ok directory
  | none => .error .homeless

/-- Prepares what options ask for, the output first and the timeout last. -/
def ofOptions (s : Surroundings) (options : Options) : Except Escape Preparation := do
  let escape (option : NeededOption) : Escape := .fault (.cleared option)
  let output ← (options.output.needed .output).mapError escape
  let given ← (options.mainDir.needed .mainDir).mapError escape
  let mainDir ← (mainDirOf s given).mapError .fault
  let timeout ← (options.timeout.needed .timeout).mapError escape
  let timeout ← (timeout.mapM Timeout.seconds).mapError .timeout
  return { output := output.getD Options.defaultOutput, mainDir, timeout }

end Preparation

structure Execution where
  result : Except Escape Int
  shown : String
  misuse : Option String
  /-- How long the network is waited for, in seconds; for ever if nothing is told. -/
  timeout : Option Binary64
  processes : List ProcessEvent
  deriving Repr

namespace Command

/-- The codes of success and failure, and the one for wrong arguments. -/
def exitOk : Int := 0
def exitFailure : Int := 1
def exitMisuse : Int := 2

def perform (c : CommandSettings) : Command → CommandAction Int
  | .search filter => c.search filter
  | .install target => c.install target
  | .start options => c.start options

/-- The code of a command that ended so, and what is shown of a fault. -/
def conclude (result : Except Fault Int) : Except Fault Int × List Display :=
  match result with
  | .ok code => (.ok code, [])
  | .error fault =>
    match fault.report? with
    | some displays => (.ok exitFailure, displays)
    | none => (.error fault, [])

end Command

namespace Execution

def quiet (code : Int) (shown : String) (misuse : Option String) (timeout : Option Binary64) :
    Execution := ⟨.ok code, shown, misuse, timeout, []⟩

def ofCommand (s : Surroundings) (options : Options) (p : Preparation) (command : Command)
    (w : World) : Execution × World :=
  let c : CommandSettings := ⟨s.machine, Directories.ofMain p.mainDir options.workDir.value?,
    !options.workDir.isCleared, options.verbosity ≠ 0, s.process⟩
  let w := { w with index := .unknown (some c.directories.indexFile) VersionIndex.officialUrl }
  let (result, state) := (command.perform c).run.run ⟨w, [], []⟩
  let (result, displays) := Command.conclude result
  let (shown, _) := (Output.ofKind p.output).writeAll s.columns (state.shown ++ displays)
  (⟨result.mapError .fault, shown, none, p.timeout, state.processes⟩, state.world)

/-- Carries out what options ask for; without a command, help is shown. -/
def ofOptions (s : Surroundings) (options : Options) (w : World) : Execution × World :=
  match Preparation.ofOptions s options with
  | .error escape => (⟨.error escape, "", none, none, []⟩, w)
  | .ok p =>
    match options.command with
    | none =>
      (quiet Command.exitFailure (Options.mainSpec.usage.help s.columns) none p.timeout, w)
    | some command => ofCommand s options p command w

end Execution

def execute (s : Surroundings) (arguments : List String) (w : World) : Execution × World :=
  match Options.read arguments with
  | .error (.help usage) => (.quiet Command.exitOk (usage.help s.columns) none none, w)
  | .error (.misuse program misuse) =>
    (.quiet Command.exitMisuse "" (some (misuseLine program misuse)) none, w)
  | .ok options => Execution.ofOptions s options w

end Launcher
