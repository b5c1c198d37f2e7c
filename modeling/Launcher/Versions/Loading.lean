import Launcher.Json.Printer
import Launcher.World

/-! Loading the index of versions, and finding versions and their metadata. The index is asked for
once; what was kept of it serves when the server cannot be reached or has nothing newer. -/
namespace Launcher
namespace VersionIndex

/-- The index that was kept in a file, nothing if it is no object. -/
def ofKept (bytes : Bytes) : Except Fault (Option Members) :=
  match Encoding.utf8.decode false 0 bytes with
  | .error e => .error (.undecodable bytes e)
  | .ok text =>
    match Json.parseText text with
    | .ok (.object members) => .ok (some members)
    | .error (.integerTooLong digits) => .error (.integerTooLong digits)
    | _ => .ok none

/-- The kept index, if there is one. A file that cannot be opened counts as none. -/
def kept : Action (Option Members) := do
  match (← get).index.cache with
  | none => return none
  | some file =>
    match (← get).files.read file with
    | .ok bytes => Action.ofExcept id (ofKept bytes)
    | .error (.system _) => return none
    | .error .embeddedNul => throw .embeddedNul

/-- The member in which the index keeps when the server last changed it. -/
def changedMember : String := "last_modified"

/-- The header that asks for an index only if it is newer than the kept one. -/
def conditions (kept : Option Members) : List (String × Json) :=
  match kept.bind (Members.get? · changedMember) with
  | some value => [("If-Modified-Since", value)]
  | none => []

/-- The index in a response, with the time of its last change if the server tells it. -/
def ofResponse (response : Response) : Except Fault Members := do
  let data ← readDocument documentName response.data
  match response.headers.lookup "Last-Modified" with
  | some time => return data.insert changedMember (.string time)
  | none => return data

def keep (data : Members) : Action Unit := do
  match (← get).index.cache with
  | none => pure ()
  | some file =>
    Action.writeBelow file (Bytes.ofText (String.ofList (Json.render (.object data))))

def learn (data : Members) : Action Members := do
  modify fun w => { w with index := { w.index with data := some data } }
  return data

/-- Whether a request failed in a way for which the kept index makes up. -/
def isExcused (e : HttpError) : Bool := e.status = 0 || e.status = 304

/-- The content of the index, which is loaded unless it is known. -/
def load : Action Members := do
  match (← get).index.data with
  | some data => return data
  | none =>
    let old ← kept
    match ← Action.tryFetch (← get).index.url (conditions old) jsonType none with
    | .ok response =>
      let data ← Action.ofExcept id (ofResponse response)
      keep data
      learn data
    | .error (.http e) =>
      match old with
      | some data => if isExcused e then learn data else throw (.http e)
      | none => throw (.http e)
    | .error e => throw (.ofFetch e)

/-- The version that a name stands for, and whether it is the latest of a kind. -/
def latest (version : String) : Action (Json × Bool) := do
  if !isAlias version then return (.string version, false)
  match ((← load).get? "latest").getD (.object []) with
  | .object names =>
    match Members.getD names version with
    | .null => return (.string version, false)
    | name => return (name, true)
  | _ => throw .latestNotObject

def entries : Action (List VersionEntry) := do
  Action.ofExcept (fun e => .document (.malformed e)) (entriesOf (← load))

def find? (version : String) : Action (Option VersionEntry) := do
  return (← entries).find? (·.id == version)

/-- The metadata in a file whose digest is as the entry tells. A file that cannot be read counts as
none. -/
def keptMetadata (entry : VersionEntry) (name : String) (file : Path) :
    Action (Option Members) := do
  match entry.sha1 with
  | none => return none
  | some sha1 =>
    match (← get).files.read file with
    | .error (.system _) => return none
    | .error .embeddedNul => throw .embeddedNul
    | .ok bytes =>
      if fileSha1Hex bytes = sha1 then
        return some (← Action.ofExcept id (readDocument name bytes))
      else return none

/-- The metadata of a version. They are taken from the file if its digest is right, else fetched,
and then put into the file. -/
def metadata (version : String) (file : Path) : Action Members := do
  match ← find? version with
  | none => throw (.versionNotFound (.string version))
  | some entry =>
    let name := s!"version {version}"
    match ← keptMetadata entry name file with
    | some data => return data
    | none =>
      let response ← Action.fetch entry.url [] jsonType entry.sha1
      let data ← Action.ofExcept id (readDocument name response.data)
      Action.writeBelow file response.data
      return data

end VersionIndex
end Launcher
