import Launcher.Commands.Basic
import Launcher.Options.Commands

/-! The installation of a version, and the start of the game after it. -/
namespace Launcher.CommandSettings

def resolveVersion (version : String) : CommandAction Json := do
  let (id, isAlias) ← CommandAction.onWorld (VersionIndex.latest version)
  if isAlias then
    CommandAction.tell (Display.line (some "INFO") "start.version.alias"
      [("alias", .string version), ("version", id)])
  return id

/-- The name of a version that can be looked for. A latest version that is no text is none of the
index, as the index shows. -/
def versionName (id : Json) : CommandAction String := do
  match id with
  | .string id => return id
  | id =>
    CommandAction.tell [.progress (some "..") "start.version.loading" [("version", id)]]
    let _ ← CommandAction.onWorld VersionIndex.entries
    throw (.versionNotFound id)

def installSettings (c : CommandSettings) (target : Target) (version : String) :
    InstallSettings where
  version := version
  kind := if target.isServer then .server else .client
  directories := c.directories
  session := .offline false
  jvm := .ofText "java"
  threads := none
  resources := InstallPlan.officialResources
  jvmArgs := []
  gameArgs := []
  initMem := none
  maxMem := none

def install (c : CommandSettings) (target : Target) : CommandAction Int := do
  let version ← versionName (← resolveVersion target.version)
  let _ ← CommandAction.onInstallation c (installSettings c target version)
  CommandAction.tell (Display.line (some "OK") "start.installed" [("version", .string version)])
  return 0

/-- The arguments in a text, none in no text. -/
def wordsOf (text : Option String) : List String :=
  match text with
  | none => []
  | some text => (Text.words text.toList).map String.ofList

/-- A memory size as options tell it; one that was cleared is an empty list. -/
def memoryText? : Setting Int → Option String
  | .unset => none
  | .cleared => some "[]"
  | .given size => some (toString size)

def startChanges (s : StartOptions) :
    Except NeededOption (InstallSettings → InstallSettings) := do
  let jvm ← s.jvm.needed .jvm
  let jvmArgs ← s.jvmArgs.needed .jvmArgs
  let gameArgs ← s.gameArgs.needed .gameArgs
  return fun settings => { settings with
    session := .offline s.isDemo
    jvm := (jvm.map Path.ofText).getD settings.jvm
    jvmArgs := wordsOf jvmArgs ++
      CommandLine.memoryOptions (memoryText? s.initMem) (memoryText? s.maxMem)
    gameArgs := wordsOf gameArgs }

def runGame (c : CommandSettings) (e : Environment) : CommandAction Int := do
  CommandAction.tell (Display.line (some "OK") "start.starting" [])
  if c.isVerbose then CommandAction.tell [.print (CommandLine.line e.arguments)]
  let code ← CommandAction.onProcess c e
  CommandAction.tell (Display.line (some (if code = 0 then "OK" else "FAILED")) "start.exited"
    [("code", .int code)])
  return code

/-- Installs a version and runs it, or shows its command line in a dry run. -/
def start (c : CommandSettings) (s : StartOptions) : CommandAction Int := do
  let id ← resolveVersion s.target.version
  let change ← CommandAction.ofExcept ((startChanges s).mapError .cleared)
  let version ← versionName id
  let e ← CommandAction.onInstallation c (change (installSettings c s.target version))
  if s.isDry then
    CommandAction.tell (Display.line (some "INFO") "start.dry" [] ++
      [.print (CommandLine.line e.arguments)])
    return 0
  else runGame c e

end Launcher.CommandSettings
