import Launcher.Files.Tree

/-! Faults that the operating system reports, of files and of connections, and their texts. -/
namespace Launcher

inductive SystemError
  | file (cause : FileCause) (path : Path)
  | sameFile (source target : Path)
  | noProgram (name : String)
  | invalidSeek
  | refused
  | reset
  | timedOut
  | unknownHost
  deriving DecidableEq, Repr

def FileCause.number : FileCause → Nat
  | .notFound => 2
  | .exists => 17
  | .notDirectory => 20
  | .isDirectory => 21
  | .nameTooLong => 36

def FileCause.text : FileCause → String
  | .notFound => "No such file or directory"
  | .exists => "File exists"
  | .notDirectory => "Not a directory"
  | .isDirectory => "Is a directory"
  | .nameTooLong => "File name too long"

def SystemError.message : SystemError → String
  | .file cause path => s!"[Errno {cause.number}] {cause.text}: {path.quoted}"
  | .sameFile source target => s!"{source.quoted} and {target.quoted} are the same file"
  | .noProgram name => "[Errno 2] No such file or directory: " ++ Text.quoted name
  | .invalidSeek => "[Errno 22] Invalid argument"
  | .refused => "[Errno 111] Connection refused"
  | .reset => "[Errno 104] Connection reset by peer"
  | .timedOut => "timed out"
  | .unknownHost => "[Errno -2] Name or service not known"

/-- Why a path cannot be used: a fault of the system, or a NUL in its name. -/
inductive AccessError
  | system (error : SystemError)
  | embeddedNul
  deriving DecidableEq, Repr

end Launcher
