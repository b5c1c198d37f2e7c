import Launcher.Download.Entry
import Launcher.Metadata.Rule
import Launcher.Text.Pieces

/-! The libraries of a version's metadata. A library that is only named for the platform, without
a file to download, is left out. -/
namespace Launcher

structure Library where
  name : String
  /-- The path of its file below the directory of libraries, or of natives. -/
  path : String
  url : String
  sha1 : Option String
  size : Option Whole
  isNative : Bool
  rules : List Rule
  deriving DecidableEq, Repr

namespace Library

/-- The text with every occurrence of `${arch}` replaced, from left to right. -/
def replaceArch (bits : List Char) : List Char → List Char
  | [] => []
  | '$' :: '\x7b' :: 'a' :: 'r' :: 'c' :: 'h' :: '\x7d' :: rest => bits ++ replaceArch bits rest
  | c :: rest => c :: replaceArch bits rest

def bitsText (platform : Platform) : String :=
  match platform.bits with
  | some bits => toString bits
  | none => "None"

/-- The file that a library offers and where it stands in the metadata. -/
structure Artifact where
  value : Json
  place : Place

/-- The artifact for a platform, and whether it is native; none if natives are mapped but not for
the system. A classifier that is not offered leaves the common artifact. -/
def selectArtifact (platform : Platform) (members : Members) (place : Place) (downloads : Members) :
    Except Malformed (Option (Artifact × Bool)) := do
  let downloadsPlace := place.member "downloads"
  let common : Artifact := ⟨downloads.getD "artifact", downloadsPlace.member "artifact"⟩
  match members.getD "natives" with
  | .null => return some (common, false)
  | natives =>
    let nativesPlace := place.member "natives"
    let natives ← natives.asObject nativesPlace
    match (platform.os.bind natives.get?).getD .null with
    | .null => return none
    | classifier =>
      let classifier ← classifier.asString (nativesPlace.member (platform.os.getD "None"))
      let classifier := String.ofList (replaceArch (bitsText platform).toList classifier.toList)
      let classifiersPlace := downloadsPlace.member "classifiers"
      let classifiers ← ((downloads.get? "classifiers").getD (.object [])).asObject classifiersPlace
      match classifiers.get? classifier with
      | some value => return some (⟨value, classifiersPlace.member classifier⟩, true)
      | none => return some (common, true)

/-- Reads a library; none if it has no file for the platform. -/
def parse (platform : Platform) (v : Json) (place : Place) : Except Malformed (Option Library) := do
  let members ← v.asObject place
  let name ← (members.getD "name").asString (place.member "name")
  let rules ← Rule.parseList ((members.get? "rules").getD (.list [])) (place.member "rules")
  let downloads ← ((members.get? "downloads").getD (.object [])).asObject (place.member "downloads")
  match ← selectArtifact platform members place downloads with
  | none => return none
  | some (⟨.null, _⟩, _) => return none
  | some (⟨artifact, place⟩, isNative) =>
    let artifact ← artifact.asObject place
    let url ← (artifact.getD "url").asString (place.member "url")
    let path ← (artifact.getD "path").asString (place.member "path")
    let sha1 ← DownloadEntry.parseSha1 (artifact.getD "sha1") (place.member "sha1")
    let size ← (artifact.getD "size").asWhole? (place.member "size")
    return some { name, path, url, sha1, size, isNative, rules }

/-- Reads libraries, the first of which is item `index` of the place. -/
def parseItems (platform : Platform) (place : Place) (index : Nat) :
    List Json → Except Malformed (List Library)
  | [] => .ok []
  | v :: rest => do
    let library ← parse platform v (place.item index)
    let libraries ← parseItems platform place (index + 1) rest
    return library.toList ++ libraries

def parseAll (platform : Platform) (metadata : Members) : Except Malformed (List Library) := do
  let place := metadataPlace.member "libraries"
  parseItems platform place 0 (← ((metadata.get? "libraries").getD (.list [])).asList place)

def shown (l : Library) : String := s!"<LibraryDescriptor {l.name}>"

end Library
end Launcher
