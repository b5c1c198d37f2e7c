import Launcher.Install.Event
import Launcher.Install.Plan
import Launcher.Launch.Process
import Launcher.Metadata.Machine
import Launcher.Versions.Loading

/-! The installation of a version: its metadata, its program, the plan of its files, their download,
the extraction of native libraries, assets under their names, and the command line. Each step
begins when the one before has ended well. A server is its program alone. -/
namespace Launcher

structure InstallSettings where
  version : String
  kind : JarKind
  directories : Directories
  session : Session
  jvm : Path
  /-- The number of download threads; by default it follows from the number of entries. -/
  threads : Option Int
  resources : String
  jvmArgs : List String
  gameArgs : List String
  initMem : Option Int
  maxMem : Option Int
  deriving Repr

/-- An installation under way: the world, the plan so far, and what was told of it. -/
structure Installation where
  world : World
  plan : InstallPlan
  events : List InstallEvent

def Installation.start (world : World) : Installation := ⟨world, .ofJobs .empty, []⟩

abbrev InstallAction (α : Type) := ExceptT Fault (StateM Installation) α

namespace InstallSettings

def jar (s : InstallSettings) : Path :=
  match s.kind with
  | .client => s.directories.clientJar
  | .server => s.directories.server / "server.jar"

end InstallSettings

namespace Installation

def tell (event : InstallEvent) : InstallAction Unit :=
  modify fun s => { s with events := s.events ++ [event] }

def onWorld {α : Type} (action : Action α) : InstallAction α := do
  let s ← get
  let (result, world) := action.run.run s.world
  set { s with world }
  match result with
  | .ok value => pure value
  | .error e => throw e

def onPlan (action : PlanAction Unit) : InstallAction Unit := do
  let s ← get
  let (result, planning) := action.run.run ⟨s.world, s.plan⟩
  set { s with world := planning.world, plan := planning.plan }
  match result with
  | .ok () => pure ()
  | .error e => throw e

def ofExcept {ε α : Type} (fault : ε → Fault) (result : Except ε α) : InstallAction α :=
  match result with
  | .ok value => pure value
  | .error e => throw (fault e)

def loadMetadata (s : InstallSettings) : InstallAction Members := do
  tell (.versionLoading s.version)
  let metadata ← onWorld
    (VersionIndex.metadata s.version (s.directories.metadataFile s.version))
  tell (.versionLoaded s.version)
  return metadata

def jarEntry (kind : JarKind) (jar : Path) (metadata : Members) :
    Except Malformed (Option DownloadEntry) := do
  match metadata.getD "downloads" with
  | .null => return none
  | downloads =>
    let place := metadataPlace.member "downloads"
    match (← downloads.asObject place).getD kind.text with
    | .null => return none
    | v => return some (← DownloadEntry.parse v jar (place.member kind.text))

/-- Plans the program. One that is not offered must be there already. -/
def planJar (kind : JarKind) (jar : Path) (metadata : Members) : InstallAction Unit := do
  match ← ofExcept .malformed (jarEntry kind jar metadata) with
  | some entry => onPlan (InstallPlan.require entry)
  | none =>
    let isThere ← onWorld (Action.inspect Fault.system fun files => files.isFile jar)
    if !isThere then throw (.noJar kind)
  tell (.jarFound jar)

/-- Plans libraries and assets. The downloads planned before are kept if that fails. -/
def planFiles (machine : Machine) (s : InstallSettings) (metadata : Members) :
    InstallAction Unit := do
  tell .librariesResolving
  onPlan (InstallPlan.planAll machine.platform s.session.features metadata s.directories s.version
    s.resources)
  let plan := (← get).plan
  tell (.librariesResolved plan.libraries.length plan.natives.length)
  match plan.indexName with
  | some index => tell (.assetsResolved index plan.assets.length)
  | none => pure ()

/-- The number of threads for so many entries; zero is no wish. -/
def threadsFor (machine : Machine) (s : InstallSettings) (entries : Nat) : Int :=
  match s.threads with
  | some threads => if threads = 0 then defaultThreads machine.processors entries else threads
  | none => defaultThreads machine.processors entries

def tellResults (batch : Batch) : InstallAction Unit :=
  modify fun s => { s with events := s.events ++
    (batch.delivered.map fun (count, result) => .downloadProgress count result) }

/-- What follows from a batch: a fault or failed downloads end the installation, and otherwise there
is nothing left to download. -/
def settle (batch : Batch) : InstallAction Unit :=
  match batch.error with
  | some e => throw (.batch e)
  | none => do
    let failed := batch.results.filter (·.isFailure)
    if failed = [] then
      modify fun state => { state with plan := { state.plan with jobs := .empty } }
      tell .downloadCompleted
    else throw (.downloads failed)

/-- Downloads what is planned. -/
def download (machine : Machine) (s : InstallSettings) : InstallAction Unit := do
  let state ← get
  let jobs := state.plan.jobs
  if jobs.count = 0 then return
  let threads := threadsFor machine s jobs.count
  tell (.downloadStarted threads jobs.count jobs.size)
  let batch := jobs.download threads state.world.files state.world.network
  modify fun state => { state with
    world := { state.world with files := batch.files, network := batch.network }
    plan := { state.plan with jobs := batch.list } }
  tellResults batch
  settle batch

def installNatives (s : InstallSettings) : InstallAction Unit := do
  let state ← get
  let archives := state.plan.natives
  if archives = [] then return
  let (result, files) :=
    Natives.install state.world.files archives (s.directories.natives s.version)
  modify fun state => { state with world := { state.world with files } }
  let errors ← ofExcept Fault.ofExtraction result
  tell (.nativesInstalled archives.length errors)

def copyAssets (directory : Path) : List (String × Path) → Action Unit
  | [] => pure ()
  | (id, file) :: rest => do
    Action.makeDirectories (directory / id).parent
    Action.changeFiles fun files => files.copy file (directory / id)
    copyAssets directory rest

def placeAssets : InstallAction Unit := do
  let plan := (← get).plan
  match plan.virtualDir with
  | some directory => onWorld (copyAssets directory plan.assets)
  | none => pure ()

/-- The type of the version for the command line. -/
def versionType (metadata : Members) : Except Malformed String :=
  ((metadata.get? "type").getD (.string "release")).asString (metadataPlace.member "type")

def classpath (paths : List Path) : String := ":".intercalate (paths.map Path.text)

def clientEnvironment (machine : Machine) (s : InstallSettings) (metadata : Members) :
    InstallAction Environment := do
  let directories := s.directories
  onWorld (Action.makeDirectories directories.game)
  let plan := (← get).plan
  let versionType ← ofExcept .malformed (versionType metadata)
  let launch : LaunchSettings := {
    version := s.version
    classpath := classpath (plan.libraries ++ [s.jar])
    gameDir := directories.game
    assetsDir := directories.assets
    nativesDir := directories.natives s.version
    session := s.session
    librariesDir := some directories.libraries
    assetsIndexName := plan.indexName
    versionType
    assetsVirtualDir := plan.virtualDir
    jvmArgs := s.jvmArgs
    gameArgs := s.gameArgs
    initMem := s.initMem
    maxMem := s.maxMem }
  let arguments ← ofExcept Fault.ofLaunch (CommandLine.build machine.platform metadata launch)
  return ⟨s.jvm.text :: arguments, directories.game⟩

/-- The command line of a server, and its directory, where the licence is accepted. -/
def serverEnvironment (s : InstallSettings) : InstallAction Environment := do
  let directory := s.jar.parent
  let eula := directory / "eula.txt"
  onWorld (Action.writeBelow eula (Bytes.ofText "eula = true\n"))
  tell (.eulaWritten eula)
  return ⟨s.jvm.text :: (CommandLine.jvmOptions s.jvmArgs s.initMem s.maxMem ++
    ["-jar", s.jar.name, "nogui"] ++ s.gameArgs), directory⟩

/-- What comes before the downloads: the metadata of the version, and the plan. -/
def prepare (machine : Machine) (s : InstallSettings) : InstallAction Members := do
  let metadata ← loadMetadata s
  planJar s.kind s.jar metadata
  match s.kind with
  | .client => planFiles machine s metadata
  | .server => pure ()
  return metadata

/-- What comes after the downloads: the command line is built when all files are in place. -/
def finish (machine : Machine) (s : InstallSettings) (metadata : Members) :
    InstallAction Environment := do
  installNatives s
  placeAssets
  match s.kind with
  | .client => clientEnvironment machine s metadata
  | .server => serverEnvironment s

def steps (machine : Machine) (s : InstallSettings) : InstallAction Environment := do
  let metadata ← prepare machine s
  download machine s
  finish machine s metadata

/-- The steps of an installation without a directory to work in: the program has no place. -/
def stepsNowhere (s : InstallSettings) : InstallAction Environment := do
  let _ ← loadMetadata s
  throw (.cleared .workDir)

end Installation

/-- Installs a version with an empty plan: how to start it, and the installation with all that was
told. -/
def install (machine : Machine) (s : InstallSettings) (world : World) :
    Except Fault Environment × Installation :=
  (Installation.steps machine s).run.run (.start world)

end Launcher
