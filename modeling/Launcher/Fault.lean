import Launcher.Archive.Natives
import Launcher.Download.Worker
import Launcher.Json.Printer
import Launcher.Launch.CommandLine
import Launcher.Metadata.Document
import Launcher.Network.Fetch
import Launcher.Options.Setting

/-! Everything that can end an operation of the launcher early, and the texts that say so. -/
namespace Launcher

inductive JarKind
  | client
  | server
  deriving DecidableEq, Repr

def JarKind.text : JarKind → String
  | .client => "client"
  | .server => "server"

inductive Fault
  | malformed (error : Malformed)
  | document (error : DocumentError)
  | integerTooLong (digits : Nat)
  | undecodable (bytes : Bytes) (error : DecodingError)
  | evaluation (error : EvaluationError)
  | versionNotFound (version : Json)
  | latestNotObject
  | noJar (kind : JarKind)
  | downloads (failed : List DownloadResult)
  | batch (error : BatchError)
  | http (error : HttpError)
  | integrity (error : IntegrityError)
  | url (error : UrlError)
  | encoding (error : EncodingError)
  | system (error : SystemError)
  | exchange (error : ExchangeError)
  | embeddedNul
  | seekTooFar
  | namelessMember
  | rangeCoder (fault : Lzma.Fault)
  | cleared (option : NeededOption)
  /-- No home directory is known. -/
  | homeless
  | interrupted
  deriving Repr

namespace Fault

def ofAccess : AccessError → Fault
  | .system e => .system e
  | .embeddedNul => .embeddedNul

def ofConnection : ConnectionFault → Fault
  | .system e => .system e
  | .exchange e => .exchange e
  | .interrupted => .interrupted

def ofFetch : FetchError → Fault
  | .http e => .http e
  | .connection fault => ofConnection fault
  | .url e => .url e
  | .encoding e => .encoding e
  | .integrity e => .integrity e

def ofAdd : AddError → Fault
  | .url e => .url e
  | .system e => .system e

def ofLaunch : LaunchError → Fault
  | .malformed e => .malformed e
  | .evaluation e => .evaluation e

def ofCrash : Archive.Crash → Fault
  | .embeddedNul => .embeddedNul
  | .undecodable bytes e => .undecodable bytes e
  | .tooFar => .seekTooFar
  | .nameless => .namelessMember
  | .rangeCoder fault => .rangeCoder fault

def ofExtraction : Natives.InstallError → Fault
  | .access e => ofAccess e
  | .crash e => ofCrash e

def ofCrashCause : CrashCause → Fault
  | .interrupted => .interrupted
  | .embeddedNul => .embeddedNul
  | .exchange e => .exchange e
  | .url e => .url e
  | .encoding e => .encoding e

end Fault

def EvaluationError.message : EvaluationError → String
  | .unresolved e => e.message
  | .pattern e => e.fault.message

def BatchError.message : BatchError → String
  | .noThread entries => s!"at least one thread is needed to download {entries} entries"
  | .crashed _ => "unexpected crash from thread 0"
  | .unending => ""

def Fault.message : Fault → String
  | .malformed e => e.message
  | .document e => e.message
  | .integerTooLong digits => (Json.ReadError.integerTooLong digits).message
  | .undecodable _ e => e.message
  | .evaluation e => e.message
  | .versionNotFound version => String.ofList version.shown
  | .latestNotObject => ""
  | .noJar kind => kind.text
  | .downloads failed => ", ".intercalate (failed.map failureText)
  | .batch e => e.message
  | .http e => e.message
  | .integrity e => e.message
  | .url e => e.message
  | .encoding e => e.message
  | .system e => e.message
  | .exchange e => e.message
  | .embeddedNul => "embedded null byte"
  | .seekTooFar => "cannot fit 'int' into an offset-sized integer"
  | .namelessMember => "string index out of range"
  | .rangeCoder fault => fault.text
  | .cleared _ => ""
  | .homeless => ""
  | .interrupted => ""
where
  failureText (r : DownloadResult) : String :=
    match r.outcome with
    | .failure f => s!"{r.entry.name} ({f.code})"
    | .success _ => r.entry.name

end Launcher
