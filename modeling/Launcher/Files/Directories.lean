import Launcher.Files.Path

/-! Where an installation keeps its files: a main directory that all versions share, and a working
directory from which the game runs. -/
namespace Launcher

structure Directories where
  main : Path
  work : Path
  deriving DecidableEq, Repr

namespace Directories

/-- The home directory that a text names, slashes at its end aside; nothing but slashes name the
root. A tilde in front would stand for a home directory itself, so there is none then. -/
def home? (text : String) : Option Path :=
  match (text.toList.reverse.dropWhile (· = '/')).reverse with
  | [] => some (.ofText "/")
  | '~' :: _ => none
  | text => some (.ofText (String.ofList text))

def launcherDirectory (system : Option String) (home : Path) : Path :=
  match system with
  | some "Windows" => home / "AppData" / "Roaming" / ".launchcraft"
  | some "Darwin" => home / "Library" / "Application Support" / "launchcraft"
  | _ => home / ".launchcraft"

/-- The working directory is the main one if none is given. -/
def ofMain (main : Path) (work : Option Path) : Directories := ⟨main, work.getD main⟩

def versions (d : Directories) : Path := d.main / "versions"
def assets (d : Directories) : Path := d.main / "assets"
def libraries (d : Directories) : Path := d.main / "libraries"

def indexFile (d : Directories) : Path := d.main / "version_manifest.json"

def metadataFile (d : Directories) (version : String) : Path := d.versions / (version ++ ".json")

/-- Where the native libraries of a version are downloaded and extracted. -/
def natives (d : Directories) (version : String) : Path := d.versions / version / "natives"

def game (d : Directories) : Path := d.work / ".minecraft"
def clientJar (d : Directories) : Path := d.work / "client.jar"
def server (d : Directories) : Path := d.work / "server"

def shown (d : Directories) : String := s!"<Context {d.main.text} work_dir={d.work.text}>"

end Directories
end Launcher
