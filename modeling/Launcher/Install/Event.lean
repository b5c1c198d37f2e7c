import Launcher.Archive.Natives
import Launcher.Download.Result

/-! What an installation tells of its progress. -/
namespace Launcher

inductive InstallEvent
  | versionLoading (version : String)
  | versionLoaded (version : String)
  | jarFound (path : Path)
  | librariesResolving
  | librariesResolved (libraries natives : Nat)
  | assetsResolved (index : String) (count : Nat)
  | downloadStarted (threads : Int) (entries : Nat) (size : Int)
  | downloadProgress (count : Nat) (result : DownloadResult)
  | downloadCompleted
  | nativesInstalled (count : Nat) (errors : List ExtractionError)
  | eulaWritten (path : Path)
  deriving Repr

end Launcher
