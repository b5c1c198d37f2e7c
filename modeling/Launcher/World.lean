import Launcher.Fault
import Launcher.Versions.Index

/-! What the launcher works on: the file tree, the network and the index of versions, and the
actions that change them. An action that fails leaves what it did before. -/
namespace Launcher

structure World where
  files : FileTree
  network : Network
  index : VersionIndex

abbrev Action (α : Type) := ExceptT Fault (StateM World) α

namespace Action

def ofExcept {ε α : Type} (fault : ε → Fault) (result : Except ε α) : Action α :=
  match result with
  | .ok value => pure value
  | .error e => throw (fault e)

def inspect {ε α : Type} (fault : ε → Fault) (look : FileTree → Except ε α) : Action α := do
  ofExcept fault (look (← get).files)

def changeFiles (change : FileTree → Except AccessError FileTree) : Action Unit := do
  let files ← inspect Fault.ofAccess change
  modify fun w => { w with files }

def makeDirectories (p : Path) : Action Unit := do
  let w ← get
  let (result, files) := (FileTree.makeDirectories p).run.run w.files
  set { w with files }
  ofExcept Fault.ofAccess result

def writeBelow (p : Path) (content : Bytes) : Action Unit := do
  makeDirectories p.parent
  changeFiles fun files => files.write p content

def tryFetch (url : String) (headers : List (String × Json)) (accept sha1 : Option String) :
    Action (Except FetchError Response) := do
  let w ← get
  let (result, network) := w.network.fetch url headers accept sha1
  set { w with network }
  return result

def fetch (url : String) (headers : List (String × Json)) (accept sha1 : Option String) :
    Action Response := do
  ofExcept Fault.ofFetch (← tryFetch url headers accept sha1)

end Action

def jsonType : String := "application/json"

/-- Reads the bytes of a document, which must be an object. -/
def readDocument (name : String) (bytes : Bytes) : Except Fault Members :=
  match Json.parse bytes with
  | .error (.integerTooLong digits) => .error (.integerTooLong digits)
  | .error e => .error (.document (.unreadable name e))
  | .ok (.object members) => .ok members
  | .ok _ => .error (.document (.notObject name))

end Launcher
