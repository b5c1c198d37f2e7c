import Launcher.Commands.Execution

/-! The command line on this machine: the files of the main and the working directory are read, the
command is carried out on them, and what it changed is written back. There is no network here, and
no process can be created. -/
namespace Launcher.Main

/-- Puts what is at a path, with all that is below it, into a file tree. -/
partial def load (path : Path) (tree : FileTree) : IO FileTree := do
  try
    let directory ← IO.FS.realPath path.text
    if ← directory.isDir then
      let mut tree := ((FileTree.makeDirectories path).run.run tree).2
      for entry in ← directory.readDir do
        tree ← load (path / entry.fileName) tree
      return tree
    else
      let tree := ((FileTree.makeDirectories path.parent).run.run tree).2
      let content ← IO.FS.readBinFile directory
      return (tree.write path content.toList).toOption.getD tree
  catch _ => return tree

def pathOf (location : Location) : Path :=
  if FileTree.workingDirectory.isPrefixOf location then
    ⟨.relative, location.drop FileTree.workingDirectory.length⟩
  else ⟨.root, location⟩

def save (old new : FileTree) : IO Unit := do
  for (location, entry) in new.entries do
    if old.get? location ≠ some entry then
      match entry with
      | .directory => IO.FS.createDirAll (pathOf location).text
      | .file content =>
        IO.FS.createDirAll (pathOf location).parent.text
        IO.FS.writeBinFile (pathOf location).text (ByteArray.mk content.toArray)
  for (location, entry) in old.entries do
    if entry ≠ .directory && (new.get? location).isNone then
      IO.FS.removeFile (pathOf location).text

def fact (file : String) : IO String := do
  try return String.ofList (Text.strip (← IO.FS.readFile file).toList)
  catch _ => return ""

def platform : IO Platform := do
  let system ← fact "/proc/sys/kernel/ostype"
  let architecture ← fact "/proc/sys/kernel/arch"
  let version ← fact "/proc/sys/kernel/version"
  return { os := Platform.osOf system, arch := Platform.archOf (Text.lower architecture.toList)
           bits := some 64, version }

def columns : IO Nat := do
  let told := ((← IO.getEnv "COLUMNS").bind Number.readInt?).getD 0
  return if told ≤ 0 then 80 else told.toNat

def surroundings : IO Surroundings := do
  let home := (← IO.getEnv "HOME").getD "."
  return { machine := { platform := ← platform, processors := none }
           launcherDirectory := (Directories.home? home).map
             (Directories.launcherDirectory (some "Linux"))
           columns := ← columns
           process := { polls := 0, code := 0, interruptAt := none, isMissing := true } }

def directoriesOf (s : Surroundings) (arguments : List String) : List Path :=
  match Options.read arguments with
  | .ok options =>
    (options.mainDir.value?.or s.launcherDirectory).toList ++ options.workDir.value?.toList
  | .error _ => []

/-- A network on which the index of versions cannot be reached and nothing else is found. -/
def network : Network :=
  { Network.empty with routes := [(VersionIndex.officialUrl, [.failure .unknownHost])] }

def escapeText : Escape → String
  | .fault fault => fault.message
  | .timeout e => e.message

def run (arguments : List String) : IO UInt32 := do
  let s ← surroundings
  let mut files := FileTree.empty
  for directory in directoriesOf s arguments do
    files ← load directory files
  let world : World := ⟨files, network, .unknown none VersionIndex.officialUrl⟩
  let (e, world) := execute s arguments world
  save files world.files
  IO.print e.shown
  match e.misuse with
  | some text => IO.eprintln text
  | none => pure ()
  match e.result with
  | .ok code => return (code % 256).toNat.toUInt32
  | .error escape =>
    IO.eprintln (escapeText escape)
    return 1

end Launcher.Main

def main (arguments : List String) : IO UInt32 := Launcher.Main.run arguments
