import Launcher.Download.Queue
import Launcher.Network.Basic
import Launcher.Text.Unencodable

/-! What came for a download, and what became of it. A body is read through a buffer, and what a
read gives is counted, taken into the digest if the entry declares one, and written. -/
namespace Launcher

/-- A fault that ends one download. -/
inductive TransferError
  | system (error : SystemError)
  | exchange (error : ExchangeError)
  deriving DecidableEq, Repr

inductive DownloadFailure
  | connection (error : TransferError)
  | notFound
  | invalidSize (error : IntegrityError)
  | invalidSha1 (error : IntegrityError)
  deriving DecidableEq, Repr

def DownloadFailure.code : DownloadFailure → String
  | .connection _ => "connection"
  | .notFound => "not_found"
  | .invalidSize _ => "invalid_size"
  | .invalidSha1 _ => "invalid_sha1"

inductive DownloadOutcome
  | success (size : Nat)
  | failure (failure : DownloadFailure)
  deriving DecidableEq, Repr

structure DownloadResult where
  entry : DownloadEntry
  outcome : DownloadOutcome
  deriving DecidableEq, Repr

namespace DownloadResult

def shown (r : DownloadResult) : String :=
  match r.outcome with
  | .success _ => s!"<DownloadResultSuccess {r.entry.name}>"
  | .failure f => s!"<DownloadResultError {r.entry.name}: {f.code}>"

def isFailure (r : DownloadResult) : Bool :=
  match r.outcome with
  | .success _ => false
  | .failure _ => true

end DownloadResult

/-- What a worker has of a body. The digest is none if the entry declares none. -/
structure Receipt where
  size : Nat
  sha1 : Option Sha1
  written : Bytes

namespace Receipt

def start (entry : DownloadEntry) : Receipt := ⟨0, entry.sha1.map fun _ => .initial, []⟩

def add (r : Receipt) (chunk : Bytes) : Receipt :=
  ⟨r.size + chunk.length, r.sha1.map (·.update chunk), r.written ++ chunk⟩

def bufferLength : Nat := 65536

def ofStream (entry : DownloadEntry) (body : InputStream) : Receipt :=
  body.fold add (start entry) (.ofCapacity bufferLength)

/-- What a body that came to its end is found to be, by its size first. -/
def verdict (r : Receipt) (entry : DownloadEntry) : DownloadOutcome :=
  let file := entry.destination.text
  match entry.size with
  | some size =>
    if (r.size : Int) ≠ size.value then
      .failure (.invalidSize ⟨file, .size, size.text, toString r.size⟩)
    else digestVerdict file
  | none => digestVerdict file
where
  digestVerdict (file : String) : DownloadOutcome :=
    match r.sha1, entry.sha1 with
    | some state, some expected =>
      let actual := state.hexDigest
      if actual ≠ expected then .failure (.invalidSha1 ⟨file, .sha1, expected, actual⟩)
      else .success r.size
    | _, _ => .success r.size

end Receipt

/-- A fault that ends the whole batch. -/
inductive CrashCause
  | interrupted
  | embeddedNul
  | exchange (error : ExchangeError)
  | url (error : UrlError)
  | encoding (error : EncodingError)
  deriving DecidableEq, Repr

end Launcher
