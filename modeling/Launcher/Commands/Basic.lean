import Launcher.Commands.Report
import Launcher.Install.Steps

/-! A command at work: it changes the world, shows what it does, and may create a process. A fault
ends it and leaves what was done before. -/
namespace Launcher

structure CommandState where
  world : World
  shown : List Display
  processes : List ProcessEvent

abbrev CommandAction (α : Type) := ExceptT Fault (StateM CommandState) α

structure CommandSettings where
  machine : Machine
  directories : Directories
  /-- Whether there is a directory to work in. -/
  hasWorkDir : Bool
  isVerbose : Bool
  process : ProcessScript
  deriving Repr

namespace CommandAction

def tell (displays : List Display) : CommandAction Unit :=
  modify fun s => { s with shown := s.shown ++ displays }

def ofExcept {α : Type} (result : Except Fault α) : CommandAction α :=
  match result with
  | .ok value => pure value
  | .error fault => throw fault

def onWorld {α : Type} (action : Action α) : CommandAction α := do
  let s ← get
  let (result, world) := action.run.run s.world
  set { s with world }
  ofExcept result

def onInstallation (c : CommandSettings) (settings : InstallSettings) :
    CommandAction Environment := do
  let s ← get
  let steps :=
    if c.hasWorkDir then Installation.steps c.machine settings
    else Installation.stepsNowhere settings
  let (result, i) := steps.run.run (.start s.world)
  set { s with world := i.world }
  tell (InstallEvent.reportAll c.isVerbose ⟨0, 0⟩ i.events)
  ofExcept result

def onProcess (c : CommandSettings) (e : Environment) : CommandAction Int := do
  let s ← get
  let (result, events, files) := e.run c.process s.world.files
  set { s with
    world := { s.world with files }
    processes := s.processes ++ events }
  ofExcept result

end CommandAction
end Launcher
