import Launcher.Bytes
import Launcher.Files.Path

/-! The file tree: what every location holds, and how a path leads to a location. A location is a
list of names from the root, so two paths name one file exactly if they lead to one location. -/
namespace Launcher

/-- Names from the root down. -/
abbrev Location := List String

inductive FileEntry
  | file (content : Bytes)
  | directory
  deriving DecidableEq, Repr

/-- Why a path leads nowhere, or not to what an operation needs. -/
inductive FileCause
  | notFound
  | exists
  | notDirectory
  | isDirectory
  | nameTooLong
  deriving DecidableEq, Repr

/-- The entries of all locations but the root, which is a directory. -/
structure FileTree where
  entries : List (Location × FileEntry)
  deriving Repr

namespace FileTree

/-- The working directory, below eight directories without a name. -/
def workingDirectory : Location := List.replicate 8 ""

def empty : FileTree :=
  ⟨(List.range 8).map fun n => (List.replicate (n + 1) "", .directory)⟩

def get? (tree : FileTree) (location : Location) : Option FileEntry :=
  if location = [] then some .directory
  else (tree.entries.find? fun entry => entry.1 == location).map (·.2)

def insert (tree : FileTree) (location : Location) (entry : FileEntry) : FileTree :=
  ⟨tree.entries.filter (fun e => e.1 != location) ++ [(location, entry)]⟩

def erase (tree : FileTree) (location : Location) : FileTree :=
  ⟨tree.entries.filter fun e => e.1 != location⟩

def eraseAll (tree : FileTree) (location : Location) : FileTree :=
  ⟨tree.entries.filter fun e => !location.isPrefixOf e.1⟩

theorem get?_insert (tree : FileTree) (location other : Location) (entry : FileEntry)
    (h : location ≠ []) :
    (tree.insert location entry).get? other =
      if other = location then some entry else tree.get? other := by
  unfold get? insert
  by_cases ho : other = []
  · subst ho; simp [Ne.symm h]
  · by_cases he : other = location
    · subst he
      have none :
          (tree.entries.filter fun e => e.1 != other).find? (fun e => e.1 == other) = none := by
        simp [List.find?_eq_none]
      simp [ho, List.find?_append, none]
    · have same : (tree.entries.filter fun e => e.1 != location).find? (fun e => e.1 == other) =
          tree.entries.find? fun e => e.1 == other := by
        rw [List.find?_filter]
        congr 1
        funext e
        by_cases h1 : e.1 = other <;> simp [h1, he]
      simp [ho, he, List.find?_append, same, Ne.symm he]

/-- The location that a list of names leads to from a location. Each name but two dots must be
looked up in a directory and have at most 255 bytes; the last one need not be there. -/
def walk (tree : FileTree) (start : Location) : List String → Except FileCause Location
  | [] => .ok start
  | name :: rest =>
    match tree.get? start with
    | none => .error .notFound
    | some (.file _) => .error .notDirectory
    | some .directory =>
      if name = ".." then tree.walk start.dropLast rest
      else if 255 < (Bytes.ofText name).length then .error .nameTooLong
      else tree.walk (start ++ [name]) rest

/-- The location that a path leads to; the name of a path has fewer than 4096 bytes. -/
def resolve (tree : FileTree) (p : Path) : Except FileCause Location :=
  if 4096 ≤ (Bytes.ofText p.text).length then .error .nameTooLong
  else tree.walk (if p.anchor = .relative then workingDirectory else []) p.parts

def lookup (tree : FileTree) (p : Path) : Except FileCause FileEntry := do
  let location ← tree.resolve p
  match tree.get? location with
  | some entry => .ok entry
  | none => .error .notFound

/-- The entries below the working directory by their names from there, directories with a slash
at the end, in the order of code points. -/
def listing (tree : FileTree) : List (String × FileEntry) :=
  let below := tree.entries.filterMap fun (location, entry) =>
    if workingDirectory.isPrefixOf location && location ≠ workingDirectory then
      let name := "/".intercalate (location.drop workingDirectory.length)
      some (if entry = .directory then name ++ "/" else name, entry)
    else none
  below.mergeSort fun a b => decide (a.1 ≤ b.1)

end FileTree
end Launcher
