import Launcher.World

/-! Running the game as a process of its own and waiting for its end. The process is looked at once
a second; an interruption kills it. -/
namespace Launcher

/-- How a process behaves: it is found running some times and has then ended with a code, unless it
cannot be created; and at which wait an interruption comes, counted from one. -/
structure ProcessScript where
  polls : Nat
  code : Int
  interruptAt : Option Nat
  isMissing : Bool
  deriving Repr

inductive ProcessEvent
  | create (arguments : List String) (directory : Path)
  | poll
  | sleep (seconds : Nat)
  | kill
  | wait
  deriving DecidableEq, Repr

structure Environment where
  arguments : List String
  directory : Path
  deriving DecidableEq, Repr

namespace ProcessScript

/-- Looks at a process that will be found running `left` times, after `slept` waits: what is done
with it until it ends or an interruption comes, and whether one came. -/
def watch (interruptAt : Option Nat) : (left slept : Nat) → List ProcessEvent × Bool
  | 0, _ => ([.poll], false)
  | left + 1, slept =>
    if interruptAt = some (slept + 1) then ([.poll, .sleep 1, .kill], true)
    else
      let (events, interrupted) := watch interruptAt left (slept + 1)
      (.poll :: .sleep 1 :: events, interrupted)

def start (script : ProcessScript) (e : Environment) : Except Fault Int × List ProcessEvent :=
  let create := ProcessEvent.create e.arguments e.directory
  if script.isMissing then
    (.error (.system (.noProgram (e.arguments.headD ""))), [create])
  else
    let (events, interrupted) := watch script.interruptAt script.polls 0
    (if interrupted then .error .interrupted else .ok script.code, create :: events ++ [.wait])

end ProcessScript

/-- Runs a game in its directory, which is made if it is missing: the code with which it ends, and
what was done. -/
def Environment.run (e : Environment) (script : ProcessScript) (files : FileTree) :
    Except Fault Int × List ProcessEvent × FileTree :=
  match (FileTree.makeDirectories e.directory).run.run files with
  | (.error fault, files) => (.error (.ofAccess fault), [], files)
  | (.ok (), files) =>
    let (result, events) := script.start e
    (result, events, files)

end Launcher
