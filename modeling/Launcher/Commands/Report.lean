import Launcher.Install.Event
import Launcher.Fault
import Launcher.Number.Amount
import Launcher.Terminal.Display

/-! How the progress of an installation and the faults of a command are told. -/
namespace Launcher

structure DownloadProgress where
  entries : Nat
  size : Nat
  deriving DecidableEq, Repr

namespace DownloadProgress

def add (p : DownloadProgress) (result : DownloadResult) : DownloadProgress :=
  match result.outcome with
  | .success size => { p with size := p.size + size }
  | .failure _ => p

/-- A count with blanks in front, as wide as the count of all entries. -/
def countText (p : DownloadProgress) (count : Nat) : String :=
  let blanks := (toString p.entries).length - (toString count).length
  String.ofList (List.replicate blanks ' ') ++ toString count

def sizeText (p : DownloadProgress) : String :=
  ((Amount.whole p.size).text.toOption.getD "") ++ "o"

def display (p : DownloadProgress) (count : Nat) : Display :=
  .progress (some "..") "download.progress" [("count", .string (p.countText count)),
    ("total_count", .string (toString p.entries)), ("size", .string p.sizeText)]

end DownloadProgress

namespace InstallEvent

def begun (key : String) (values : Members) : List Display := [.progress (some "..") key values]

def done (key : String) (values : Members) : List Display :=
  Display.line (some "OK") key values

/-- Tells the number of archives that were extracted, and of every other one why it was not. -/
def nativesReport (count : Nat) (errors : List ExtractionError) : List Display :=
  if errors.isEmpty then done "start.natives.installed" [("count", .int count)]
  else
    Display.line (some "WARN") "start.natives.installed"
      [("count", .int ((count : Int) - errors.length))] ++
    errors.flatMap fun e => Display.line none "start.natives.error"
      [("archive", .string e.archive.name), ("message", .string e.origin.message)]

/-- Tells an event, the progress of the download being as it was before. -/
def report (verbose : Bool) (p : DownloadProgress) : InstallEvent → List Display × DownloadProgress
  | .versionLoading version => (begun "start.version.loading" [("version", .string version)], p)
  | .versionLoaded version => (done "start.version.loaded" [("version", .string version)], p)
  | .jarFound path => (done "start.jar.found" [("path", .string path.text)], p)
  | .librariesResolving => (begun "start.libraries.resolving" [], p)
  | .librariesResolved libraries natives =>
    (done "start.libraries.resolved"
      [("class_libs_count", .int libraries), ("native_libs_count", .int natives)], p)
  | .assetsResolved index count =>
    (done "start.assets.resolved" [("index_version", .string index), ("count", .int count)], p)
  | .downloadStarted threads entries _ =>
    let threadsLine :=
      if verbose then Display.line (some "INFO") "download.threads_count" [("count", .int threads)]
      else []
    (threadsLine ++ begun "download.start" [], ⟨entries, 0⟩)
  | .downloadProgress count result => ([(p.add result).display count], p.add result)
  | .downloadCompleted => ([.task (some "OK") "", .finish], p)
  | .nativesInstalled count errors => (nativesReport count errors, p)
  | .eulaWritten path => (done "start.eula.written" [("path", .string path.text)], p)

def reportAll (verbose : Bool) : DownloadProgress → List InstallEvent → List Display
  | _, [] => []
  | p, event :: rest =>
    let (shown, p) := event.report verbose p
    shown ++ reportAll verbose p rest

end InstallEvent

namespace Fault

def failed : Display := .task (some "FAILED") ""

def named (key : String) (values : Members) : List Display :=
  Display.line (some "FAILED") key values

def echo (texts : List String) : List Display :=
  texts.flatMap fun text => Display.line none "echo" [("echo", .string text)]

def parts : Fault → List String
  | .undecodable bytes e =>
    [e.encoding.name, Text.quotedBytes bytes, toString e.start, toString e.stop, e.cause.text]
  | .encoding e => [e.codec, e.text, toString e.start, toString e.stop, e.reason]
  | .batch (.crashed cause) =>
    [(BatchError.crashed cause).message, (ofCrashCause cause).message]
  | fault => [fault.message]

def downloadReport (r : DownloadResult) : List Display :=
  match r.outcome with
  | .success _ => []
  | .failure f => Display.line none "download.error" [("name", .string r.entry.name),
      ("message", .string (Message.plain s!"download.error.{f.code}"))]

def systemReport (e : SystemError) : List Display :=
  let key := match e with
    | .timedOut => "error.socket"
    | .unknownHost => "error.socket"
    | _ => "error.os"
  [failed, .finish] ++ Display.line none key [] ++ echo [e.message]

/-- Tells a fault that ends a command; nothing for one that ends the launcher itself. -/
def report? : Fault → Option (List Display)
  | .versionNotFound version => some (named "start.version.not_found" [("version", version)])
  | .noJar kind => some (named "start.jar.not_found" [("kind", .string kind.text)])
  | .downloads results => some ([failed, .finish] ++ results.flatMap downloadReport)
  | .integrity e => some (named "error.integrity" [("message", .string e.message)])
  | .document e => some (named "error.parse" [("message", .string e.message)])
  | .http e => some (named "error.http" [("message", .string e.message)])
  | .interrupted => some (.finish :: Display.line (some "HALT") "cancelled" [])
  | .system e => some (systemReport e)
  | .evaluation (.unresolved _) => none
  | .evaluation (.pattern ⟨_, .malformed⟩) => none
  | .evaluation (.pattern ⟨_, .countTooLarge⟩) => none
  | .latestNotObject => none
  | .exchange _ => none
  | .namelessMember => none
  | .rangeCoder _ => none
  | .cleared _ => none
  | .homeless => none
  | fault => some ([failed, .finish] ++ echo fault.parts)

end Fault
end Launcher
