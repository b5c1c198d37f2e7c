import Launcher.Download.Entry

/-! The index of versions as it is known: where it comes from, where it is kept, and its content
once it was loaded, which has an entry for each version. -/
namespace Launcher

/-- A version of the index: where its metadata is, and the digest of them if it is known. -/
structure VersionEntry where
  id : String
  url : String
  sha1 : Option String
  type : Json
  deriving Repr

namespace VersionEntry

def parse (v : Json) (place : Place) : Except Malformed VersionEntry := do
  let members ← v.asObject place
  let id ← (members.getD "id").asString (place.member "id")
  let url ← (members.getD "url").asString (place.member "url")
  let sha1 ← DownloadEntry.parseSha1 (members.getD "sha1") (place.member "sha1")
  return { id, url, sha1, type := (members.get? "type").getD (.string "release") }

def parseItems (place : Place) (index : Nat) : List Json → Except Malformed (List VersionEntry)
  | [] => .ok []
  | v :: rest => do
    let entry ← parse v (place.item index)
    let entries ← parseItems place (index + 1) rest
    return entry :: entries

def shown (e : VersionEntry) : String := s!"<VersionIndexEntry {e.id}>"

end VersionEntry

structure VersionIndex where
  cache : Option Path
  url : String
  data : Option Members
  deriving Repr

namespace VersionIndex

def officialUrl : String :=
  "https://piston-meta.mojang.com/mc/game/version_manifest_v2.json"

def documentName : String := "version manifest"

def unknown (cache : Option Path) (url : String) : VersionIndex := ⟨cache, url, none⟩

/-- Whether a name stands for the latest version of a kind. -/
def isAlias (version : String) : Bool := version = "release" || version = "snapshot"

def place : Place := .ofText (documentName ++ ": ")

def entriesOf (data : Members) : Except Malformed (List VersionEntry) := do
  let versions ← (data.getD "versions").asList (place.member "versions")
  VersionEntry.parseItems (place.member "versions") 0 versions

end VersionIndex
end Launcher
