import Launcher.Digest.Integrity
import Launcher.Files.Path
import Launcher.Metadata.Place
import Launcher.Url.Basic

/-! What is to be downloaded: a URL, the file it goes to, and what is known of its content. -/
namespace Launcher

structure DownloadEntry where
  url : String
  destination : Path
  size : Option Whole
  sha1 : Option String
  name : String
  deriving DecidableEq, Repr

namespace DownloadEntry

/-- Two entries are the same download if all but their names agree, sizes by their value. -/
def same (a b : DownloadEntry) : Bool :=
  a.url = b.url && a.destination = b.destination &&
    a.size.map Whole.value = b.size.map Whole.value && a.sha1 = b.sha1

def shown (e : DownloadEntry) : String := s!"<DownloadEntry {e.name}>"

def parseSha1 (v : Json) (place : Place) : Except Malformed (Option String) :=
  match v with
  | .null => .ok none
  | .string s => if isSha1 s then .ok (some s) else .error ⟨place, .digest⟩
  | _ => .error ⟨place, .digest⟩

def parse (v : Json) (destination : Path) (place : Place) : Except Malformed DownloadEntry := do
  let members ← v.asObject place
  let url ← (members.getD "url").asString (place.member "url")
  let size ← (members.getD "size").asWhole? (place.member "size")
  let sha1 ← parseSha1 (members.getD "sha1") (place.member "sha1")
  return { url, destination, size, sha1, name := destination.name }

/-- The size by which entries are ordered: entries without one are taken for a megabyte. -/
def weight (e : DownloadEntry) : Int :=
  match e.size with
  | some size => if size.value = 0 then 1048576 else size.value
  | none => 1048576

end DownloadEntry

structure DownloadTarget where
  https : Bool
  host : String
  port : Option Nat
  target : String
  deriving DecidableEq, Repr

namespace DownloadTarget

/-- Splits the URL of a download, which is an HTTP or HTTPS one with a host. -/
def ofUrl (url : String) : Except UrlError DownloadTarget := do
  let u ← Url.parse url.toList
  let scheme := String.ofList u.scheme
  if scheme ≠ "http" ∧ scheme ≠ "https" then throw (.unsupportedScheme scheme url)
  if u.host.isEmpty then throw (.missingHost url)
  let path := if u.path.isEmpty then ['/'] else u.path
  let port ← u.port
  return {
    https := scheme = "https"
    host := String.ofList u.host
    port
    target := String.ofList (if u.query.isEmpty then path else path ++ '?' :: u.query) }

def url (t : DownloadTarget) : String :=
  (if t.https then "https://" else "http://") ++ t.host ++
    (match t.port with
      | some port => ":" ++ toString port
      | none => "") ++ t.target

end DownloadTarget
end Launcher
