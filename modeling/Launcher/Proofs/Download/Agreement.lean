import Launcher.Proofs.Download.Redirection
import Launcher.Proofs.Download.Truncation
import Launcher.Proofs.Files.Making

/-! One download in two file trees. If they differ only in directories that were made, it comes to
one end in both, and they have the same at its destination after it. A fault of too long a name may
name two directories. -/
namespace Launcher

/-- A download that failed because a directory could not be made, a name above being too long. -/
def DownloadEntry.tooLong (entry : DownloadEntry) (n : Nat) : DownloadOutcome :=
  .failure (.connection (.system (.file .nameTooLong (entry.destination.parent.ancestor n))))

/-- The directories that a fault of too long a name may name: all down to the destination, or those
down to the name itself. -/
def Path.MayName (directory : Path) (n : Nat) : Prop :=
  n = directory.parts.length ∨ n = directory.longName + 1

/-- Outcomes of a download that differ at most in the directory that could not be made, and not at
all if the file system allows the names of all directories above the destination. -/
inductive DownloadEntry.Agree (entry : DownloadEntry) : DownloadOutcome → DownloadOutcome → Prop
  | same (outcome : DownloadOutcome) : Agree entry outcome outcome
  | tooLong {n m : Nat} : entry.destination.parent.longName < entry.destination.parent.parts.length →
      entry.destination.parent.MayName n → entry.destination.parent.MayName m →
      Agree entry (entry.tooLong n) (entry.tooLong m)

/-- Ends of a job for an entry that agree. -/
inductive DownloadEntry.EndsAgree (entry : DownloadEntry) : JobEnd → JobEnd → Prop
  | same (ending : JobEnd) : EndsAgree entry ending ending
  | finished {a b : DownloadOutcome} : entry.Agree a b →
      EndsAgree entry (.finished a) (.finished b)

namespace FileTree
variable {p : Path} {start files files' : FileTree}

/-- A tree in which the download to a path can begin. -/
structure Hosts (start : FileTree) (p : Path) : Prop where
  plain : p.IsPlain
  rooted : start.IsRooted
  origin : start.get? p.origin = some .directory

/-- The way to a destination is as it was at the start, but for directories that were made. -/
structure Stands (p : Path) (start files : FileTree) : Prop where
  directories : start.KeepsDirectories files
  above : ∀ l, l <+: p.location → (files.IsFileAt l ↔ start.IsFileAt l)
  destination : files.get? p.location = start.get? p.location

namespace Stands

theorem refl (p : Path) (start : FileTree) : Stands p start start :=
  ⟨.refl start, fun _ _ => .rfl, rfl⟩

theorem isRootedTo (stands : Stands p start files) (rooted : start.IsRooted) {l : Location}
    (inside : l <+: p.location) : files.IsRootedTo l := by
  intro above below under named file
  have old := (stands.above _ (under.trans inside)).mp file
  exact stands.directories _ (rooted.to l above below under named old)

theorem obstacle? (stands : Stands p start files) (plain : p.IsPlain) :
    files.obstacle? p.parent.origin p.parent.parts =
      start.obstacle? p.parent.origin p.parent.parts := by
  refine obstacle?_congr fun n => stands.above _ ?_
  have inside := Path.ancestor_prefix plain n
  rwa [Path.location_ancestor plain.parent] at inside

theorem grows (stands : Stands p start files) (hosts : start.Hosts p)
    (grows : Grows p.parent files files') : Stands p start files' := by
  refine ⟨stands.directories.trans grows.keepsDirectories, ?_, ?_⟩
  · intro l inside
    rw [grows.isFileAt, stands.above l inside]
  · by_cases named : p.parts = []
    · have here : p.location = p.origin := by
        rw [Path.location_of_plain hosts.plain, named, List.append_nil]
      have directory := hosts.origin
      rw [← here] at directory
      rw [directory]
      exact grows.keepsDirectories _ (stands.directories _ directory)
    · rcases grows p.location with same | ⟨_, _, n, above⟩
      · rw [same, stands.destination]
      · exact absurd above.symm (Path.ancestor_ne hosts.plain named n)

/-- The job of another entry leaves the way to a destination as it is. -/
theorem other {entry : DownloadEntry} {reply : Reply} {ending : JobEnd}
    (stands : Stands p start files) (effect : Worker.Effect entry reply files ending files')
    (plain : entry.destination.IsPlain)
    (apart : Location.Apart p.location entry.destination.location) : Stands p start files' := by
  refine ⟨stands.directories.trans effect.keepsDirectories, ?_, ?_⟩
  · intro l inside
    have other : l ≠ entry.destination.location := by
      rintro rfl
      exact apart.2 inside
    rw [← stands.above l inside]
    unfold IsFileAt
    rcases effect.get?_other other with same | ⟨absent, made, _⟩
    · rw [same]
    · simp [absent, made]
  · rw [effect.get?_apart plain apart.1, stands.destination]

end Stands

/-- Directories are made in both trees or in neither, and the faults are the same but for the
directory that they name. -/
theorem Makes.agrees {a b : Except AccessError Unit}
    (same : files.obstacle? p.origin p.parts = files'.obstacle? p.origin p.parts)
    (makes : Makes files p a) (makes' : Makes files' p b) :
    a = b ∨ p.longName < p.parts.length ∧ ∃ n m, p.MayName n ∧ p.MayName m ∧
      a = .error (fail .nameTooLong (p.ancestor n)) ∧
      b = .error (fail .nameTooLong (p.ancestor m)) := by
  -- All pairs but those of too long a name are of one fault, or have different obstacles.
  cases makes <;> cases makes' <;> simp_all
  · rename_i long _
    exact .inr ⟨longName_lt long, _, .inl rfl, _, .inr rfl, by rw [p.ancestor_self], rfl⟩
  · rename_i long _
    exact .inr ⟨longName_lt long, _, .inr rfl, _, .inl rfl, rfl, by rw [p.ancestor_self]⟩

theorem resolve_congr (plain : p.IsPlain) (housed : files.isDirectory p.parent = .ok true)
    (housed' : files'.isDirectory p.parent = .ok true) : files.resolve p = files'.resolve p := by
  by_cases short : p.IsShort
  · by_cases named : p.parts = []
    · rw [resolve_of_short short, resolve_of_short short, named]
      rfl
    · obtain ⟨name, parts⟩ := Path.parts_of_parent named
      rw [resolve_of_isDirectory short plain parts housed,
        resolve_of_isDirectory short plain parts housed']
  · have long := Nat.not_lt.mp short
    rw [resolve, resolve, if_pos long, if_pos long]

/-- A file is written in both trees or in neither, for one reason. -/
theorem target_congr (plain : p.IsPlain) (housed : files.isDirectory p.parent = .ok true)
    (housed' : files'.isDirectory p.parent = .ok true)
    (same : files.get? p.location = files'.get? p.location) : files.target p = files'.target p := by
  unfold target
  rw [resolve_congr plain housed housed']
  rcases way : files'.resolve p with cause | l
  · rfl
  · obtain rfl := resolve_location way
    simp only [same]

theorem write_congr (plain : p.IsPlain) (housed : files.isDirectory p.parent = .ok true)
    (housed' : files'.isDirectory p.parent = .ok true)
    (same : files.get? p.location = files'.get? p.location) (content : Bytes) :
    (∃ e, files.write p content = .error e ∧ files'.write p content = .error e) ∨
      ∃ written written', files.write p content = .ok written ∧
        files'.write p content = .ok written' := by
  have aim := target_congr plain housed housed' same
  unfold write
  rw [aim]
  rcases files'.target p with e | l
  · exact .inl ⟨e, rfl, rfl⟩
  · exact .inr ⟨_, _, rfl, rfl⟩

end FileTree

namespace Worker
variable {w v : Worker} {job : DownloadJob}

/-- A job comes to one end with two workers, and they have the same at its destination after it. -/
structure Agrees (entry : DownloadEntry) (a b : JobEnd × Worker) : Prop where
  ends : entry.EndsAgree a.1 b.1
  files : a.2.files.get? entry.destination.location = b.2.files.get? entry.destination.location

theorem Agrees.of_eq {entry : DownloadEntry} {a b : JobEnd × Worker} (same : a.1 = b.1)
    (files : a.2.files.get? entry.destination.location =
      b.2.files.get? entry.destination.location) : Agrees entry a b :=
  ⟨same ▸ .same _, files⟩

section Agrees
variable {entry : DownloadEntry} {origin : Origin} {n m : Nat}
variable (same : w.files.get? entry.destination.location = v.files.get? entry.destination.location)
include same

theorem failed_agrees (error : TransferError) :
    Agrees entry (w.failed origin n error) (v.failed origin m error) := .of_eq rfl same

theorem denied_agrees (error : AccessError) :
    Agrees entry (w.denied origin n error) (v.denied origin m error) := by
  cases error with
  | system e => exact failed_agrees same _
  | embeddedNul => exact .of_eq rfl same

theorem broken_agrees (fault : ConnectionFault) :
    Agrees entry (w.broken origin n fault) (v.broken origin m fault) := by
  cases fault with
  | interrupted => exact .of_eq rfl same
  | _ => exact failed_agrees same _

end Agrees

/-- The parent of the destination is a directory for both workers, and the destination is the
same for both. -/
structure Housed (p : Path) (w v : Worker) : Prop where
  plain : p.IsPlain
  first : w.files.isDirectory p.parent = .ok true
  second : v.files.isDirectory p.parent = .ok true
  destination : w.files.get? p.location = v.files.get? p.location

theorem store_agrees (housed : Housed job.entry.destination w v) (n m : Nat) (body : Bytes)
    (cut : Option ConnectionFailure) :
    Agrees job.entry (w.store job n body cut) (v.store job m body cut) := by
  rw [store_eq, store_eq]
  rcases FileTree.write_congr housed.plain housed.first housed.second housed.destination body with
    ⟨e, wrote, wrote'⟩ | ⟨files, files', wrote, wrote'⟩
  · simp only [wrote, wrote']
    exact denied_agrees housed.destination e
  · simp only [wrote, wrote']
    have written : files.get? job.entry.destination.location =
        files'.get? job.entry.destination.location := by
      rw [FileTree.get?_write wrote, FileTree.get?_write wrote', if_pos rfl, if_pos rfl]
    cases cut with
    | none => exact .of_eq rfl written
    | some failure =>
      obtain ⟨left, taken⟩ := FileTree.unlink_write wrote
      obtain ⟨left', taken'⟩ := FileTree.unlink_write wrote'
      simp only [taken, taken']
      split
      · exact .of_eq rfl written
      · refine broken_agrees ?_ _
        show left.get? _ = left'.get? _
        rw [FileTree.get?_unlink taken, FileTree.get?_unlink taken', if_pos rfl, if_pos rfl]

theorem respond_agrees (housed : Housed job.entry.destination w v) (n m : Nat) (reply : Reply) :
    Agrees job.entry (w.respond n job reply) (v.respond m job reply) := by
  unfold respond
  cases reply with
  | failure failure => exact broken_agrees housed.destination _
  | response status headers body cut =>
    simp only
    split
    · exact store_agrees housed n m body cut
    · split
      · exact broken_agrees housed.destination _
      · split
        · split <;> exact .of_eq rfl housed.destination
        · exact .of_eq rfl housed.destination

theorem request_agrees (housed : Housed job.entry.destination w v) (n m : Nat)
    (reply : (w.network.answer job.target.url).1 = (v.network.answer job.target.url).1) :
    Agrees job.entry (w.request n job) (v.request m job) := by
  unfold request
  simp only
  split
  · exact failed_agrees housed.destination _
  · split
    · exact .of_eq rfl housed.destination
    · let sent := w.network.record (.request n job.target.url)
      let sent' := v.network.record (.request m job.target.url)
      have asked : (sent.answer job.target.url).1 = (sent'.answer job.target.url).1 := by
        rw [answer_congr (show sent.script = w.network.script from rfl),
          answer_congr (show sent'.script = v.network.script from rfl), reply]
      rw [asked]
      exact respond_agrees (w := { w with network := (sent.answer job.target.url).2 })
        (v := { v with network := (sent'.answer job.target.url).2 })
        ⟨housed.plain, housed.first, housed.second, housed.destination⟩ n m _

theorem processOn_agrees {start : FileTree} (hosts : start.Hosts job.entry.destination)
    (stands : FileTree.Stands job.entry.destination start w.files)
    (stands' : FileTree.Stands job.entry.destination start v.files)
    (reply : (w.network.answer job.target.url).1 = (v.network.answer job.target.url).1)
    (n m : Nat) : Agrees job.entry (w.processOn n job) (v.processOn m job) := by
  have above := Path.parent_isPrefix hosts.plain
  have makes := FileTree.makeDirectories_makes _ w.files hosts.plain.parent
    (stands.isRootedTo hosts.rooted above)
  have makes' := FileTree.makeDirectories_makes _ v.files hosts.plain.parent
    (stands'.isRootedTo hosts.rooted above)
  have agree := makes.agrees
    ((stands.obstacle? hosts.plain).trans (stands'.obstacle? hosts.plain).symm) makes'
  have left := stands.grows hosts (FileTree.makeDirectories_grows _ _)
  have left' := stands'.grows hosts (FileTree.makeDirectories_grows _ _)
  have there := left.destination.trans left'.destination.symm
  unfold processOn
  rcases ran : (FileTree.makeDirectories job.entry.destination.parent).run.run w.files
    with ⟨result, made⟩
  rcases ran' : (FileTree.makeDirectories job.entry.destination.parent).run.run v.files
    with ⟨result', made'⟩
  rw [ran, ran'] at agree there
  rcases agree with same | ⟨long, k, k', names, names', failed, failed'⟩
  · obtain rfl : result = result' := same
    cases result with
    | error e =>
      exact denied_agrees (w := { w with files := made }) (v := { v with files := made' }) there e
    | ok _ =>
      exact request_agrees (w := { w with files := made }) (v := { v with files := made' })
        ⟨hosts.plain, FileTree.isDirectory_of_makeDirectories ran,
          FileTree.isDirectory_of_makeDirectories ran', there⟩ n m reply
  · obtain rfl : result = _ := failed
    obtain rfl : result' = _ := failed'
    exact ⟨.finished (.tooLong long names names'), there⟩

theorem process_agrees {start : FileTree} (hosts : start.Hosts job.entry.destination)
    (connected : w.IsConnected) (connected' : v.IsConnected)
    (stands : FileTree.Stands job.entry.destination start w.files)
    (stands' : FileTree.Stands job.entry.destination start v.files)
    (reply : (w.network.answer job.target.url).1 = (v.network.answer job.target.url).1) :
    Agrees job.entry (w.process job) (v.process job) := by
  unfold process
  cases reachable : hostFault? job.target with
  | some fault =>
    rw [connect_of_fault connected reachable, connect_of_fault connected' reachable]
    exact .of_eq rfl (stands.destination.trans stands'.destination.symm)
  | none =>
    obtain ⟨n, w₁, reached⟩ := connect_of_hostFault? w reachable
    obtain ⟨m, v₁, reached'⟩ := connect_of_hostFault? v reachable
    obtain ⟨sends, files⟩ := connect_sends reached
    obtain ⟨sends', files'⟩ := connect_sends reached'
    rw [← answer_congr sends.script, ← answer_congr sends'.script] at reply
    rw [← files] at stands
    rw [← files'] at stands'
    rw [reached, reached']
    exact processOn_agrees hosts stands stands' reply n m

end Worker

end Launcher
