import Launcher.Files.SystemError

/-! Reading and changing the file tree through paths. -/
namespace Launcher.FileTree

/-- A change of the file tree that may fail, what it did before failing being kept. -/
abbrev Change (α : Type) := ExceptT AccessError (StateM FileTree) α

def hasNul (p : Path) : Bool := p.parts.any fun part => part.toList.contains '\x00'

def fail (cause : FileCause) (p : Path) : AccessError := .system (.file cause p)

/-- Whether a path leads to an entry of a kind. A path that leads nowhere does not, and one with a
NUL does not; too long a name is a fault. -/
def isKind (tree : FileTree) (kind : FileEntry → Bool) (p : Path) : Except SystemError Bool :=
  if hasNul p then .ok false
  else match tree.lookup p with
    | .ok entry => .ok (kind entry)
    | .error .nameTooLong => .error (.file .nameTooLong p)
    | .error _ => .ok false

def isFile (tree : FileTree) (p : Path) : Except SystemError Bool :=
  tree.isKind (fun entry => entry ≠ .directory) p

def isDirectory (tree : FileTree) (p : Path) : Except SystemError Bool :=
  tree.isKind (fun entry => entry = .directory) p

def openFile (tree : FileTree) (p : Path) : Except AccessError (Location × Bytes) :=
  if hasNul p then .error .embeddedNul
  else match tree.resolve p with
    | .error cause => .error (fail cause p)
    | .ok location =>
      match tree.get? location with
      | none => .error (fail .notFound p)
      | some .directory => .error (fail .isDirectory p)
      | some (.file content) => .ok (location, content)

def read (tree : FileTree) (p : Path) : Except AccessError Bytes := (tree.openFile p).map (·.2)

def target (tree : FileTree) (p : Path) : Except AccessError Location :=
  if hasNul p then .error .embeddedNul
  else match tree.resolve p with
    | .error cause => .error (fail cause p)
    | .ok location =>
      match tree.get? location with
      | some .directory => .error (fail .isDirectory p)
      | _ => .ok location

/-- The file at a path gets a new content, whether it was there or not. -/
def write (tree : FileTree) (p : Path) (content : Bytes) : Except AccessError FileTree :=
  (tree.target p).map fun location => tree.insert location (.file content)

def unlink (tree : FileTree) (p : Path) : Except AccessError FileTree :=
  if hasNul p then .error .embeddedNul
  else match tree.resolve p with
    | .error cause => .error (fail cause p)
    | .ok location =>
      match tree.get? location with
      | none => .error (fail .notFound p)
      | some .directory => .error (fail .isDirectory p)
      | some (.file _) => .ok (tree.erase location)

/-- Makes one directory, whose parent must be there. -/
def makeDirectory (tree : FileTree) (p : Path) : Except FileCause FileTree := do
  let location ← tree.resolve p
  if (tree.get? location).isSome then .error .exists else .ok (tree.insert location .directory)

/-- Makes a directory unless it is there, its parents first if they are missing. -/
def makeDirectories (p : Path) : Change Unit := do
  let tree ← get
  if hasNul p then throw .embeddedNul
  match tree.makeDirectory p with
  | .ok tree => set tree
  | .error .notFound =>
    if p.parts = [] then throw (fail .notFound p)
    else
      makeDirectories p.parent
      let tree ← get
      match tree.makeDirectory p with
      | .ok tree => set tree
      | .error cause => tolerate cause tree
  | .error cause => tolerate cause tree
termination_by p.parts.length
decreasing_by
  simp only [Path.parent, List.length_dropLast]
  have := List.length_pos_iff.mpr ‹p.parts ≠ []›
  omega
where
  /-- A directory that is there already is no fault. -/
  tolerate (cause : FileCause) (tree : FileTree) : Change Unit :=
    if cause = .notFound then throw (fail cause p)
    else match tree.isDirectory p with
      | .ok true => pure ()
      | _ => throw (fail cause p)

def copy (tree : FileTree) (source dest : Path) : Except AccessError FileTree := do
  if hasNul source || hasNul dest then throw .embeddedNul
  match tree.resolve source, tree.resolve dest with
  | .ok a, .ok b =>
    if a = b && (tree.get? a).isSome then throw (.system (.sameFile source dest))
  | _, _ => pure ()
  let content ← tree.read source
  tree.write dest content

end Launcher.FileTree
