import Launcher.Download.Entry
import Launcher.Files.Access

/-! The list of downloads of a batch. No two of its entries have one destination: the first one
added stays. -/
namespace Launcher

/-- An entry and the target it is requested from, which redirections change. -/
structure DownloadJob where
  target : DownloadTarget
  entry : DownloadEntry
  deriving DecidableEq, Repr

structure DownloadList where
  jobs : List DownloadJob
  count : Nat
  /-- The sum of the sizes that are known. -/
  size : Int
  destinations : List Path
  deriving DecidableEq, Repr

inductive AddError
  | url (error : UrlError)
  | system (error : SystemError)
  deriving DecidableEq, Repr

namespace DownloadList

def empty : DownloadList := ⟨[], 0, 0, []⟩

def put (list : DownloadList) (job : DownloadJob) : DownloadList where
  jobs := list.jobs ++ [job]
  count := list.count + 1
  size := list.size + (match job.entry.size with
    | some size => size.value
    | none => 0)
  destinations := list.destinations ++ [job.entry.destination]

/-- Whether the destination of an entry is a file, which is looked at if `verify` is set. -/
def isPresent (files : FileTree) (entry : DownloadEntry) (verify : Bool) :
    Except SystemError Bool :=
  if verify then files.isFile entry.destination else .ok false

/-- Adds an entry unless its destination is taken or, if `verify` is set, is a file already. The
answer tells whether it was added. -/
def add (list : DownloadList) (files : FileTree) (entry : DownloadEntry) (verify : Bool) :
    Except AddError (Bool × DownloadList) :=
  if list.destinations.contains entry.destination then .ok (false, list)
  else match isPresent files entry verify with
    | .error e => .error (.system e)
    | .ok true => .ok (false, list)
    | .ok false =>
      match DownloadTarget.ofUrl entry.url with
      | .error e => .error (.url e)
      | .ok target => .ok (true, list.put ⟨target, entry⟩)

/-- Big files come first, and entries of one weight in the order in which they were added. -/
def sorted (list : DownloadList) : DownloadList :=
  { list with jobs := list.jobs.mergeSort fun a b => decide (b.entry.weight ≤ a.entry.weight) }

end DownloadList
end Launcher
