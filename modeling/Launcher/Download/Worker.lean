import Launcher.Download.Result
import Launcher.Number.Reading
import Launcher.Url.Join

/-! The download of a batch. A worker takes jobs from the front of a queue and keeps one connection
for each scheme, host and port. A redirected job goes to the end of the queue, resolved against
the URL of its entry. A connection on which a job fails is closed. -/
namespace Launcher

/-- Scheme, host and port. -/
abbrev Origin := Bool × String × Option Nat

def DownloadTarget.origin (t : DownloadTarget) : Origin := (t.https, t.host, t.port)

structure Worker where
  queue : List DownloadJob
  connections : List (Origin × Nat)
  results : List DownloadResult
  files : FileTree
  network : Network
  deriving Repr

inductive JobEnd
  | finished (outcome : DownloadOutcome)
  | redirected (target : DownloadTarget)
  | crashed (cause : CrashCause)
  deriving DecidableEq, Repr

namespace Worker

def connection? (w : Worker) (origin : Origin) : Option Nat :=
  (w.connections.find? (·.1 == origin)).map (·.2)

/-- A target may hold neither control characters nor a space, and no more may a host. -/
def controlChar? (text : String) : Option ExchangeError :=
  (text.toList.find? fun c => c.toNat ≤ 0x20 || c.toNat = 0x7F).map (.controlChar text)

/-- Why no connection is made to a host. Without a port beside it, what follows its last colon is
one. -/
def hostFault? (target : DownloadTarget) : Option ExchangeError :=
  let host := target.host.toList
  if target.port.isSome || !host.contains ':' then controlChar? target.host
  else
    let port := String.ofList (Url.afterLast ':' host)
    if port ≠ "" && (Number.readInt? port).isNone then some (.portNotNumber port)
    else controlChar? (String.ofList (host.take (host.length - port.length - 1)))

/-- The connection for a target, a new one if there is none. -/
def connect (w : Worker) (target : DownloadTarget) : Except ExchangeError (Nat × Worker) :=
  match w.connection? target.origin, hostFault? target with
  | some number, _ => .ok (number, w)
  | none, some fault => .error fault
  | none, none =>
    let number := w.network.connections
    .ok (number, { w with
      connections := w.connections ++ [(target.origin, number)]
      network := { w.network with connections := number + 1 } })

/-- A failed job closes its connection. -/
def failed (w : Worker) (origin : Origin) (number : Nat) (error : TransferError) :
    JobEnd × Worker :=
  (.finished (.failure (.connection error)), { w with
    connections := w.connections.filter fun c => c.1 != origin
    network := w.network.record (.close number) })

/-- The target that a redirection leads to. -/
def redirect (entry : DownloadEntry) (headers : Headers) : Except UrlError DownloadTarget := do
  let location := (headers.find? "location").getD ""
  let url ← Url.join entry.url.toList location.toList
  DownloadTarget.ofUrl (String.ofList url)

/-- The redirections that a download follows. -/
def isRedirection (status : Nat) : Bool := [301, 302, 307, 308].contains status

/-- The end of a job that a connection's fault gives; `w` is left as it is by an interruption. -/
def broken (w : Worker) (origin : Origin) (number : Nat) (fault : ConnectionFault) :
    JobEnd × Worker :=
  match fault with
  | .system e => w.failed origin number (.system e)
  | .exchange e => w.failed origin number (.exchange e)
  | .interrupted => (.crashed .interrupted, w)

def denied (w : Worker) (origin : Origin) (number : Nat) (error : AccessError) :
    JobEnd × Worker :=
  match error with
  | .system e => w.failed origin number (.system e)
  | .embeddedNul => (.crashed .embeddedNul, w)

/-- Writes the body of a response to the destination as it comes. A body that is cut off leaves no
file, unless by an interruption. -/
def store (w : Worker) (job : DownloadJob) (number : Nat) (body : Bytes)
    (cut : Option ConnectionFailure) : JobEnd × Worker :=
  let origin := job.target.origin
  let received := Receipt.ofStream job.entry (.ofBytes body)
  match w.files.write job.entry.destination received.written with
  | .error e => w.denied origin number e
  | .ok files =>
    let w' := { w with files }
    match cut with
    | none => (.finished (received.verdict job.entry), w')
    | some failure =>
      match failure.fault with
      | .interrupted => (.crashed .interrupted, w')
      | fault =>
        let files := (files.unlink job.entry.destination).toOption.getD files
        { w' with files }.broken origin number fault

/-- What the reply to the request of a job leads to. -/
def respond (w : Worker) (number : Nat) (job : DownloadJob) (reply : Reply) : JobEnd × Worker :=
  let origin := job.target.origin
  match reply with
  | .failure failure => w.broken origin number failure.fault
  | .response status headers body cut =>
    if status = 200 then w.store job number body cut
    else match cut with
      | some failure => w.broken origin number failure.fault
      | none =>
        if isRedirection status then
          match redirect job.entry headers with
          | .ok target => (.redirected target, w)
          | .error e => (.crashed (.url e), w)
        else (.finished (.failure .notFound), w)

/-- Requests the target of a job, unless it cannot stand in a request. -/
def request (w : Worker) (number : Nat) (job : DownloadJob) : JobEnd × Worker :=
  let target := job.target.target
  match controlChar? target with
  | some fault => w.failed job.target.origin number (.exchange fault)
  | none =>
    match EncodingError.first? "ascii" 128 ("GET " ++ target ++ " HTTP/1.1").toList with
    | some e => (.crashed (.encoding e), w)
    | none =>
      let url := job.target.url
      let (reply, network) := (w.network.record (.request number url)).answer url
      { w with network }.respond number job reply

/-- The processing of one job on a connection. The directory of its destination is made first. -/
def processOn (w : Worker) (number : Nat) (job : DownloadJob) : JobEnd × Worker :=
  match (FileTree.makeDirectories job.entry.destination.parent).run.run w.files with
  | (.error e, files) => { w with files }.denied job.target.origin number e
  | (.ok (), files) => { w with files }.request number job

def process (w : Worker) (job : DownloadJob) : JobEnd × Worker :=
  match w.connect job.target with
  | .ok (number, w) => w.processOn number job
  | .error fault => (.crashed (.exchange fault), w)

/-- Works until the queue is empty or a job crashes; none if `fuel` jobs were not enough. -/
def run : (fuel : Nat) → Worker → Option (Option CrashCause × Worker)
  | 0, w => if w.queue = [] then some (none, w) else none
  | fuel + 1, w =>
    match w.queue with
    | [] => some (none, w)
    | job :: rest =>
      match { w with queue := rest }.process job with
      | (.finished outcome, w) => run fuel { w with results := w.results ++ [⟨job.entry, outcome⟩] }
      | (.redirected target, w) => run fuel { w with queue := w.queue ++ [⟨target, job.entry⟩] }
      | (.crashed cause, w) => some (some cause, w)

/-- A batch that ends does so within this many jobs. Between two replies that do not repeat, each
entry can be redirected to no more URLs than there are replies before it goes in a circle. -/
def bound (network : Network) (jobs : Nat) : Nat :=
  let replies := network.routes.foldl (fun n route => n + route.2.length) 0
  (replies + 1) * jobs * (replies + 3)

end Worker

inductive BatchError
  | noThread (entries : Nat)
  | crashed (cause : CrashCause)
  | unending
  deriving DecidableEq, Repr

/-- What a batch leaves: the results in the order in which they came, and the fault that ended it
early. -/
structure Batch where
  list : DownloadList
  results : List DownloadResult
  error : Option BatchError
  files : FileTree
  network : Network

/-- The results as they are given out, each with its number. -/
def Batch.delivered (b : Batch) : List (Nat × DownloadResult) :=
  b.results.zipIdx.map fun (result, i) => (i + 1, result)

/-- The threads for so many entries: four for each processor and two at least, but never more than
entries. -/
def defaultThreads (processors : Option Int) (entries : Int) : Int :=
  let processors := match processors with
    | none => 1
    | some n => if n = 0 then 1 else n
  min entries (max 2 (processors * 4))

def DownloadList.download (list : DownloadList) (threads : Int) (files : FileTree)
    (network : Network) : Batch :=
  let list := list.sorted
  if list.jobs = [] then ⟨list, [], none, files, network⟩
  else if threads < 1 then ⟨list, [], some (.noThread list.jobs.length), files, network⟩
  else
    let bound := Worker.bound network list.jobs.length
    match Worker.run bound ⟨list.jobs, [], [], files, network⟩ with
    | none => ⟨list, [], some .unending, files, network⟩
    | some (crash, w) => ⟨list, w.results, crash.map .crashed, w.files, w.network⟩

end Launcher
