import Launcher.Archive.Reading

/-! Extraction of the archives of native libraries into one directory, without the directories
inside the archives. -/
namespace Launcher

structure ExtractionError where
  archive : Path
  origin : Archive.Failure
  deriving Repr

def ExtractionError.message (e : ExtractionError) : String :=
  e.archive.text ++ ": " ++ e.origin.message

namespace Natives

/-- Extracts members in turn; one without a base name, such as a directory, is passed over, but one
without any name ends the extraction. -/
def extractMembers (directory : Path) : List Archive.Member → Archive.Reader (List String)
  | [] => return []
  | m :: rest => do
    if m.name = [] then throw (.crashed .nameless)
    if m.isDirectory || m.baseName = [] then return ← extractMembers directory rest
    let name := String.ofList m.baseName
    let content ← Archive.openMember m
    let location ← Archive.create (directory / name)
    Archive.copyContent location (m.size + 1) content []
    return name :: (← extractMembers directory rest)

/-- Extracts one archive into a directory. The names of the files that were written, in order. -/
def extract (tree : FileTree) (archive directory : Path) :
    Except Archive.ArchiveError (List String) × FileTree :=
  match tree.openFile archive with
  | .error e => (.error (.ofAccess e), tree)
  | .ok (location, _) =>
    let (result, s) := (Archive.members >>= extractMembers directory).run.run
      ⟨location, .start, tree⟩
    (result, s.tree)

/-- Extracts archives in turn. The archives that failed, unless extraction was given up. -/
def extractEach (directory : Path) : List Path → FileTree →
    Except Archive.Crash (List ExtractionError) × FileTree
  | [], tree => (.ok [], tree)
  | archive :: rest, tree =>
    match extract tree archive directory with
    | (.error (.crashed crash), tree) => (.error crash, tree)
    | (.error (.failed origin), tree) =>
      let (errors, tree) := extractEach directory rest tree
      (errors.map (⟨archive, origin⟩ :: ·), tree)
    | (.ok _, tree) => extractEach directory rest tree

inductive InstallError
  | access (error : AccessError)
  | crash (crash : Archive.Crash)
  deriving Repr

/-- Extracts archives into a directory, which is made if it is missing. -/
def install (tree : FileTree) (archives : List Path) (directory : Path) :
    Except InstallError (List ExtractionError) × FileTree :=
  match (FileTree.makeDirectories directory).run.run tree with
  | (.error e, tree) => (.error (.access e), tree)
  | (.ok (), tree) =>
    let (result, tree) := extractEach directory archives tree
    (result.mapError .crash, tree)

end Natives
end Launcher
