import Launcher.Proofs.Download.Crash

/-! What becomes of one download by the answer it gets. The code of its result tells at which point
it failed, and its destination holds the body if that came to its end, nothing if it broke off, and
else what was there before. -/
namespace Launcher

/-- A body has the size that an entry declares, if it declares one. -/
def DownloadEntry.HasSize (entry : DownloadEntry) (body : Bytes) : Prop :=
  ∀ declared ∈ entry.size, (body.length : Int) = declared.value

/-- A body has the digest that an entry declares, if it declares one. -/
def DownloadEntry.HasDigest (entry : DownloadEntry) (body : Bytes) : Prop :=
  ∀ digest ∈ entry.sha1, sha1Hex body = digest

/-- A reply after which an entry is not requested again. -/
def Reply.IsFinal : Reply → Prop
  | .failure _ => True
  | .response status _ _ _ => Worker.isRedirection status = false

instance (reply : Reply) : Decidable reply.IsFinal :=
  match reply with
  | .failure _ => inferInstanceAs (Decidable True)
  | .response _ _ _ _ => inferInstanceAs (Decidable (_ = _))

theorem EncodingError.first?_eq_none {codec : String} {limit : Nat} {text : List Char}
    (within : ∀ c ∈ text, c.toNat < limit) : first? codec limit text = none := by
  have nowhere : text.findIdx? (fun c => decide (limit ≤ c.toNat)) = none := by
    rw [List.findIdx?_eq_none_iff]
    intro c member
    simpa using within c member
  simp only [first?, nowhere]

/-- No file can be written at a path: it or its last name is too long, or a directory is there. -/
def FileTree.Blocks (tree : FileTree) (p : Path) : Prop :=
  tree.resolve p = .error .nameTooLong ∨ tree.get? p.location = some .directory

namespace FileTree
variable {tree : FileTree} {p : Path}

/-- A path whose directory is there leads to its place, unless it or its last name is too long. -/
theorem resolve_of_housed (housed : tree.isDirectory p.parent = .ok true) :
    tree.resolve p = .ok p.location ∨ tree.resolve p = .error .nameTooLong := by
  by_cases named : p.parts = []
  · have same : p.parent = p := by
      obtain ⟨anchor, parts⟩ := p
      subst named
      rfl
    exact .inl (isDirectory_iff.mp (same ▸ housed)).2.1
  by_cases short : p.IsShort
  · obtain ⟨name, parts⟩ := Path.parts_of_parent named
    obtain ⟨_, way, directory⟩ := isDirectory_iff.mp housed
    rw [resolve_of_short short.parent] at way
    have on : tree.resolve p = tree.walk p.parent.location [name] := by
      rw [resolve_of_short short, parts, walk_append]
      rw [show p.parent.origin = p.origin from rfl] at way
      rw [way]
    have next : ∃ l, tree.resolve p = .ok l ∨ tree.resolve p = .error .nameTooLong := by
      rw [on, walk, directory]
      simp only
      split
      · exact ⟨_, .inl rfl⟩
      · split
        · exact ⟨[], .inr rfl⟩
        · exact ⟨_, .inl rfl⟩
    obtain ⟨l, reached | long⟩ := next
    · exact .inl (resolve_location reached ▸ reached)
    · exact .inr long
  · exact .inr (by rw [resolve, if_pos (Nat.not_lt.mp short)])

theorem lookup_ne_of_absent (absent : tree.get? p.location = none) (entry : FileEntry) :
    tree.lookup p ≠ .ok entry := by
  unfold lookup
  cases way : tree.resolve p with
  | error cause => simp [bind, Except.bind]
  | ok l => simp [bind, Except.bind, resolve_location way, absent]

/-- Writing below a directory that is there fails only by the name. -/
theorem write_cases (housed : tree.isDirectory p.parent = .ok true) (content : Bytes) :
    (hasNul p = true ∧ tree.write p content = .error .embeddedNul) ∨
    (hasNul p = false ∧ tree.Blocks p ∧ ∃ e, tree.write p content = .error (.system e)) ∨
    (¬ tree.Blocks p ∧ ∃ written, tree.write p content = .ok written) := by
  unfold write target Blocks
  cases nul : hasNul p with
  | true => exact .inl ⟨rfl, rfl⟩
  | false =>
    right
    rcases resolve_of_housed housed with way | long
    · by_cases directory : tree.get? p.location = some .directory
      · left
        simp only [way, directory]
        exact ⟨trivial, .inr trivial, _, rfl⟩
      · right
        simp only [way, directory]
        refine ⟨by simp, ?_⟩
        cases held : tree.get? p.location with
        | none => exact ⟨_, rfl⟩
        | some entry =>
          cases entry with
          | file content => exact ⟨_, rfl⟩
          | directory => exact absurd held directory
    · left
      simp only [long]
      exact ⟨trivial, .inl trivial, _, rfl⟩

end FileTree

namespace Worker
variable (entry : DownloadEntry) (body : Bytes)

theorem verifySha1_cases (file : String) :
    (entry.HasDigest body ∧ verify.verifySha1 entry body file = .success body.length) ∨
    (¬ entry.HasDigest body ∧
      ∃ e, verify.verifySha1 entry body file = .failure (.invalidSha1 e)) := by
  unfold verify.verifySha1 DownloadEntry.HasDigest
  cases entry.sha1 with
  | none => exact .inl ⟨nofun, rfl⟩
  | some expected =>
    by_cases same : sha1Hex body = expected
    · refine .inl ⟨?_, if_neg (not_not.mpr same)⟩
      rintro _ ⟨⟩
      exact same
    · exact .inr ⟨fun holds => same (holds expected rfl), _, if_pos same⟩

/-- The content of a file is found to be as declared, of another size, or else of another digest. -/
theorem verify_cases :
    (entry.HasSize body ∧ entry.HasDigest body ∧ verify entry body = .success body.length) ∨
    (¬ entry.HasSize body ∧ ∃ e, verify entry body = .failure (.invalidSize e)) ∨
    (entry.HasSize body ∧ ¬ entry.HasDigest body ∧
      ∃ e, verify entry body = .failure (.invalidSha1 e)) := by
  have digests := verifySha1_cases entry body entry.destination.text
  unfold verify
  rcases declared : entry.size with _ | size
  · have sized : entry.HasSize body := by simp [DownloadEntry.HasSize, declared]
    rcases digests with ⟨same, good⟩ | ⟨other, e, bad⟩
    · exact .inl ⟨sized, same, good⟩
    · exact .inr (.inr ⟨sized, other, e, bad⟩)
  · by_cases fits : (body.length : Int) = size.value
    · have sized : entry.HasSize body := by simpa [DownloadEntry.HasSize, declared] using fits
      simp only [ne_eq, fits, not_true_eq_false, if_false]
      rcases digests with ⟨same, good⟩ | ⟨other, e, bad⟩
      · exact .inl ⟨sized, same, good⟩
      · exact .inr (.inr ⟨sized, other, e, bad⟩)
    · have unsized : ¬ entry.HasSize body := by simpa [DownloadEntry.HasSize, declared] using fits
      exact .inr (.inl ⟨unsized, _, if_pos fits⟩)

theorem verify_eq_success {n : Nat} : verify entry body = .success n ↔
    entry.HasSize body ∧ entry.HasDigest body ∧ n = body.length := by
  rcases verify_cases entry body with ⟨sized, same, good⟩ | ⟨unsized, e, bad⟩ | ⟨_, other, e, bad⟩
  · simp [good, sized, same, eq_comm]
  · simp [bad, unsized]
  · simp [bad, other]

theorem verify_invalidSize :
    (∃ e, verify entry body = .failure (.invalidSize e)) ↔ ¬ entry.HasSize body := by
  rcases verify_cases entry body with ⟨sized, _, good⟩ | ⟨unsized, e, bad⟩ | ⟨sized, _, e, bad⟩
  · simp [good, sized]
  · simp [bad, unsized]
  · simp [bad, sized]

theorem verify_invalidSha1 : (∃ e, verify entry body = .failure (.invalidSha1 e)) ↔
    entry.HasSize body ∧ ¬ entry.HasDigest body := by
  rcases verify_cases entry body with ⟨_, same, good⟩ | ⟨unsized, e, bad⟩ | ⟨sized, other, e, bad⟩
  · simp [good, same]
  · simp [bad, unsized]
  · simp [bad, sized, other]

/-- A body that came to its end was neither cut off nor missing. -/
theorem verify_received : (∀ e, verify entry body ≠ .failure (.connection e)) ∧
    verify entry body ≠ .failure .notFound := by
  rcases verify_cases entry body with ⟨_, _, good⟩ | ⟨_, e, bad⟩ | ⟨_, _, e, bad⟩
  · simp [good]
  · simp [bad]
  · simp [bad]

end Worker

namespace Turn

/-- The response to a job has the status 200, for a request that can be sent. -/
def Arrives (t : Turn) : Prop :=
  Worker.controlChar? t.job.target.target = none ∧
    ∃ headers body cut, t.reply = .response 200 headers body cut

/-- Something fails on the way of a body to its destination, whose directory is there in `made`. -/
inductive Fails (t : Turn) (made : FileTree) : Prop
  /-- The target has a character that cannot stand in a request. -/
  | unsendable {fault : ExchangeError} :
      Worker.controlChar? t.job.target.target = some fault → Fails t made
  | unanswered {failure : ConnectionFailure} : t.reply = .failure failure → Fails t made
  /-- The body of a response breaks off, whether it is wanted or not. -/
  | broken {status : Nat} {headers : Headers} {body : Bytes} {failure : ConnectionFailure} :
      t.reply = .response status headers body (some failure) → Fails t made
  /-- No file can be opened for the body. -/
  | unopened : t.Arrives → made.Blocks t.job.entry.destination → Fails t made

/-- The body comes to its destination. -/
def Receives (t : Turn) (made : FileTree) (body : Bytes) : Prop :=
  t.reply.IsComplete body ∧ ¬ t.Fails made

/-- How a turn goes whose job is not redirected, by the point it comes to. -/
inductive Course (t : Turn) (made : FileTree) : JobEnd → FileTree → Prop
  /-- The request cannot be sent, or it has no response of status 200 that comes to its end. -/
  | unreached {error : TransferError} : t.Fails made → ¬ t.Arrives →
      Course t made (.finished (.failure (.connection error))) made
  | refused : ¬ t.Fails made → ¬ t.Arrives → Course t made (.finished (.failure .notFound)) made
  | crashed : t.Arrives → FileTree.hasNul t.job.entry.destination = true →
      Course t made (.crashed .embeddedNul) made
  | unopened {error : TransferError} : t.Arrives → made.Blocks t.job.entry.destination →
      FileTree.hasNul t.job.entry.destination = false →
      Course t made (.finished (.failure (.connection error))) made
  /-- The body breaks off, and what came of it is taken away again. -/
  | dropped {body : Bytes} {error : TransferError} {written left : FileTree} : t.Arrives →
      t.Fails made → made.write t.job.entry.destination body = .ok written →
      written.unlink t.job.entry.destination = .ok left →
      Course t made (.finished (.failure (.connection error))) left
  | stored {body : Bytes} {left : FileTree} : t.Arrives → t.Receives made body →
      made.write t.job.entry.destination body = .ok left →
      Course t made (.finished (Worker.verify t.job.entry body)) left

variable {t : Turn} {made : FileTree} {w : Worker} {number : Nat}

theorem not_arrives_of_failure {failure : ConnectionFailure} (failed : t.reply = .failure failure) :
    ¬ t.Arrives := by
  rintro ⟨_, headers, body, cut, arrived⟩
  rw [failed] at arrived
  contradiction

theorem not_arrives_of_status {status : Nat} {headers : Headers} {body : Bytes}
    {cut : Option ConnectionFailure} (answered : t.reply = .response status headers body cut)
    (other : status ≠ 200) : ¬ t.Arrives := by
  rintro ⟨_, headers', body', cut', arrived⟩
  rw [answered] at arrived
  exact other (Reply.response.inj arrived).1

theorem not_fails {status : Nat} {headers : Headers} {body : Bytes}
    (sendable : Worker.controlChar? t.job.target.target = none)
    (answered : t.reply = .response status headers body none)
    (opened : t.Arrives → ¬ made.Blocks t.job.entry.destination) : ¬ t.Fails made := by
  intro fails
  cases fails with
  | unsendable fault =>
    rw [sendable] at fault
    contradiction
  | unanswered failed =>
    rw [answered] at failed
    contradiction
  | broken broke =>
    rw [answered] at broke
    cases broke
  | unopened arrives blocks => exact opened arrives blocks

/-- The fault of a connection that nothing interrupts is the fault of the download. -/
theorem broken_connection {failure : ConnectionFailure} (calm : failure ≠ .interrupted) (w : Worker)
    (origin : Origin) (number : Nat) :
    ∃ error, w.broken origin number failure.fault = w.failed origin number error := by
  cases failure with
  | interrupted => exact absurd rfl calm
  | _ => exact ⟨_, rfl⟩

theorem store_course {headers : Headers} {body : Bytes} {cut : Option ConnectionFailure}
    (files : w.files = made) (housed : made.isDirectory t.job.entry.destination.parent = .ok true)
    (sendable : Worker.controlChar? t.job.target.target = none)
    (answered : t.reply = .response 200 headers body cut) (calm : ¬ t.reply.IsInterrupted) :
    t.Course made (w.store t.job number body cut).1 (w.store t.job number body cut).2.files := by
  subst files
  have arrives : t.Arrives := ⟨sendable, headers, body, cut, answered⟩
  rw [Worker.store_eq]
  rcases FileTree.write_cases housed body with ⟨nul, wrote⟩ | ⟨nul, blocks, e, wrote⟩ |
    ⟨opened, written, wrote⟩
  · rw [wrote]
    exact .crashed arrives nul
  · rw [wrote]
    exact .unopened arrives blocks nul
  · rw [wrote]
    cases cut with
    | none =>
      exact .stored arrives ⟨⟨headers, answered⟩, not_fails sendable answered fun _ => opened⟩ wrote
    | some failure =>
      have undisturbed : failure ≠ .interrupted := by
        rintro rfl
        exact calm (by rw [answered]; rfl)
      obtain ⟨left, taken⟩ := FileTree.unlink_write wrote
      simp only [taken]
      split
      · rename_i interrupted
        exact absurd (Worker.fault_eq_interrupted interrupted) undisturbed
      · obtain ⟨error, same⟩ := broken_connection undisturbed { w with files := left }
          t.job.target.origin number
        have kept : (Except.ok left : Except AccessError FileTree).toOption.getD written = left :=
          rfl
        rw [kept, same]
        exact .dropped arrives (.broken answered) wrote taken

theorem respond_course (files : w.files = made)
    (housed : made.isDirectory t.job.entry.destination.parent = .ok true)
    (sendable : Worker.controlChar? t.job.target.target = none)
    (final : t.reply.IsFinal) (calm : ¬ t.reply.IsInterrupted) :
    t.Course made (w.respond number t.job t.reply).1
      (w.respond number t.job t.reply).2.files := by
  unfold Worker.respond
  cases answered : t.reply with
  | failure failure =>
    have undisturbed : failure ≠ .interrupted := fun same => calm (by rw [answered]; exact same)
    obtain ⟨error, same⟩ := broken_connection undisturbed w t.job.target.origin number
    simp only [same]
    exact files ▸ .unreached (.unanswered answered) (not_arrives_of_failure answered)
  | response status headers body cut =>
    by_cases found : status = 200
    · subst found
      simp only [if_true]
      exact store_course files housed sendable answered calm
    · have unwanted := not_arrives_of_status answered found
      simp only [if_neg found]
      cases cut with
      | some failure =>
        have undisturbed : failure ≠ .interrupted := by
          rintro rfl
          exact calm (by rw [answered]; rfl)
        obtain ⟨error, same⟩ := broken_connection undisturbed w t.job.target.origin number
        simp only [same]
        exact files ▸ .unreached (.broken answered) unwanted
      | none =>
        have last : Worker.isRedirection status = false := by
          rw [answered] at final
          exact final
        simp only [last, Bool.false_eq_true, if_false]
        exact files ▸ .refused (not_fails sendable answered (absurd · unwanted)) unwanted

/-- A turn with a host to connect to, whose reply is final. -/
theorem course (host : Worker.hostFault? t.job.target = none)
    (ascii : ∀ c ∈ t.job.target.target.toList, c.toNat < 128)
    (makes : (FileTree.makeDirectories t.job.entry.destination.parent).run.run t.worker.files =
      (.ok (), made))
    (final : t.reply.IsFinal) (calm : ¬ t.reply.IsInterrupted) :
    t.Course made t.ending t.after.files := by
  have housed := FileTree.isDirectory_of_makeDirectories makes
  obtain ⟨number, w, reached⟩ := Worker.connect_of_hostFault? t.worker host
  obtain ⟨sends, files⟩ := Worker.connect_sends reached
  unfold ending after Worker.process
  simp only [reached, Worker.processOn, files, makes, Worker.request]
  cases sendable : Worker.controlChar? t.job.target.target with
  | some fault =>
    refine .unreached (.unsendable sendable) ?_
    rintro ⟨plain, _⟩
    rw [sendable] at plain
    contradiction
  | none =>
    have whole : ∀ c ∈ ("GET " ++ t.job.target.target ++ " HTTP/1.1").toList, c.toNat < 128 := by
      simp only [String.toList_append, List.forall_mem_append]
      exact ⟨⟨by simp, ascii⟩, by simp⟩
    simp only [EncodingError.first?_eq_none whole]
    let sent := w.network.record (.request number t.job.target.url)
    have same : sent.script = t.worker.network.script := sends.script
    have asked : (sent.answer t.job.target.url).1 = t.reply := Worker.answer_congr same _
    rw [asked]
    exact respond_course rfl housed sendable final calm

/-- An outcome tells what became of the body. -/
structure Judges (t : Turn) (made : FileTree) (outcome : DownloadOutcome) : Prop where
  success (n : Nat) : outcome = .success n ↔ ∃ body, t.Receives made body ∧
    t.job.entry.HasSize body ∧ t.job.entry.HasDigest body ∧ n = body.length
  invalidSize : (∃ e, outcome = .failure (.invalidSize e)) ↔
    ∃ body, t.Receives made body ∧ ¬ t.job.entry.HasSize body
  invalidSha1 : (∃ e, outcome = .failure (.invalidSha1 e)) ↔
    ∃ body, t.Receives made body ∧ t.job.entry.HasSize body ∧ ¬ t.job.entry.HasDigest body
  connection : (∃ e, outcome = .failure (.connection e)) ↔ t.Fails made
  notFound : outcome = .failure .notFound ↔ ¬ t.Fails made ∧ ∀ body, ¬ t.reply.IsComplete body

/-- What stands at a destination when the turn is over. A directory that stands there is no
destination. -/
structure Leaves (t : Turn) (made after : FileTree) : Prop where
  stored (body : Bytes) : t.Receives made body → after.read t.job.entry.destination = .ok body
  absent : t.Arrives → t.Fails made →
    made.get? t.job.entry.destination.location ≠ some .directory →
    ∀ entry, after.lookup t.job.entry.destination ≠ .ok entry
  unchanged : ¬ t.Arrives → made.get? t.job.entry.destination.location ≠ some .directory →
    after.get? t.job.entry.destination.location =
      t.worker.files.get? t.job.entry.destination.location

theorem Receives.unique {body body' : Bytes} (receives : t.Receives made body)
    (receives' : t.Receives made body') : body' = body := by
  obtain ⟨_, complete⟩ := receives.1
  obtain ⟨_, complete'⟩ := receives'.1
  rw [complete] at complete'
  exact (Reply.response.inj complete').2.2.1.symm

theorem Receives.arrives {body : Bytes} (receives : t.Receives made body) : t.Arrives := by
  obtain ⟨⟨headers, complete⟩, sound⟩ := receives
  refine ⟨?_, headers, body, none, complete⟩
  cases sendable : Worker.controlChar? t.job.target.target with
  | none => rfl
  | some fault => exact absurd (.unsendable sendable) sound

theorem judges_of_fails {error : TransferError} (fails : t.Fails made) :
    t.Judges made (.failure (.connection error)) where
  success _ := iff_of_false nofun fun ⟨_, receives, _⟩ => receives.2 fails
  invalidSize := iff_of_false nofun fun ⟨_, receives, _⟩ => receives.2 fails
  invalidSha1 := iff_of_false nofun fun ⟨_, receives, _⟩ => receives.2 fails
  connection := iff_of_true ⟨error, rfl⟩ fails
  notFound := iff_of_false nofun fun absent => absent.1 fails

theorem judges_of_refused (sound : ¬ t.Fails made) (unwanted : ¬ t.Arrives) :
    t.Judges made (.failure .notFound) where
  success _ := iff_of_false nofun fun ⟨_, receives, _⟩ => unwanted receives.arrives
  invalidSize := iff_of_false nofun fun ⟨_, receives, _⟩ => unwanted receives.arrives
  invalidSha1 := iff_of_false nofun fun ⟨_, receives, _⟩ => unwanted receives.arrives
  connection := iff_of_false nofun sound
  notFound := iff_of_true rfl
    ⟨sound, fun _ complete => unwanted (Receives.arrives ⟨complete, sound⟩)⟩

theorem judges_of_receives {body : Bytes} (receives : t.Receives made body) :
    t.Judges made (Worker.verify t.job.entry body) := by
  have alone {p : Bytes → Prop} : (∃ b, t.Receives made b ∧ p b) ↔ p body := by
    constructor
    · rintro ⟨b, other, holds⟩
      rwa [← receives.unique other]
    · intro holds
      exact ⟨body, receives, holds⟩
  obtain ⟨unbroken, wanted⟩ := Worker.verify_received t.job.entry body
  constructor
  case success =>
    intro n
    rw [Worker.verify_eq_success, alone]
  case invalidSize => rw [Worker.verify_invalidSize, alone]
  case invalidSha1 => rw [Worker.verify_invalidSha1, alone]
  case connection => exact iff_of_false (fun ⟨e, broken⟩ => unbroken e broken) receives.2
  case notFound => exact iff_of_false wanted fun absent => absent.2 body receives.1

theorem Course.judges {outcome : DownloadOutcome} {after : FileTree}
    (course : t.Course made (.finished outcome) after) : t.Judges made outcome := by
  cases course with
  | unreached fails _ => exact judges_of_fails fails
  | refused sound unwanted => exact judges_of_refused sound unwanted
  | unopened arrives blocks _ => exact judges_of_fails (.unopened arrives blocks)
  | dropped _ fails _ _ => exact judges_of_fails fails
  | stored _ receives _ => exact judges_of_receives receives

theorem Course.leaves {outcome : DownloadOutcome} {after : FileTree}
    (course : t.Course made (.finished outcome) after)
    (grows : FileTree.Grows t.job.entry.destination.parent t.worker.files made) :
    t.Leaves made after := by
  have kept (free : made.get? t.job.entry.destination.location ≠ some .directory) :
      made.get? t.job.entry.destination.location =
        t.worker.files.get? t.job.entry.destination.location := by
    rcases grows t.job.entry.destination.location with same | ⟨_, directory, _⟩
    · exact same
    · exact absurd directory free
  have untouched (unwanted : ¬ t.Arrives) : t.Leaves made made :=
    { stored := fun _ receives => absurd receives.arrives unwanted
      absent := fun arrives => absurd arrives unwanted
      unchanged := fun _ => kept }
  cases course with
  | unreached _ unwanted => exact untouched unwanted
  | refused _ unwanted => exact untouched unwanted
  | unopened arrives blocks _ =>
    refine ⟨fun _ receives => absurd (.unopened arrives blocks) receives.2, ?_, absurd arrives⟩
    intro _ _ free entry there
    rcases blocks with long | directory
    · simp [FileTree.lookup, long, bind, Except.bind] at there
    · exact free directory
  | dropped arrives fails wrote taken =>
    refine ⟨fun _ receives => absurd fails receives.2, ?_, absurd arrives⟩
    intro _ _ _
    apply FileTree.lookup_ne_of_absent
    rw [FileTree.get?_unlink taken, if_pos rfl]
  | stored arrives receives wrote =>
    refine ⟨fun body same => ?_, fun _ fails => absurd fails receives.2, absurd arrives⟩
    rw [receives.unique same]
    exact FileTree.read_write wrote

/-- Only the name of the file that a body goes to keeps a turn from an outcome. -/
theorem Course.finished_iff {ending : JobEnd} {after : FileTree}
    (course : t.Course made ending after) :
    (∃ outcome, ending = .finished outcome) ↔
      ¬ (t.Arrives ∧ FileTree.hasNul t.job.entry.destination = true) := by
  cases course with
  | unreached _ unwanted => exact iff_of_true ⟨_, rfl⟩ fun crash => unwanted crash.1
  | refused _ unwanted => exact iff_of_true ⟨_, rfl⟩ fun crash => unwanted crash.1
  | crashed arrives nul => exact iff_of_false nofun fun sound => sound ⟨arrives, nul⟩
  | unopened _ _ nul => exact iff_of_true ⟨_, rfl⟩ (by simp [nul])
  | dropped _ _ wrote _ => exact iff_of_true ⟨_, rfl⟩ (by simp [(FileTree.write_ok wrote).1])
  | stored _ _ wrote => exact iff_of_true ⟨_, rfl⟩ (by simp [(FileTree.write_ok wrote).1])

/-- A worker goes on with connections that could be made again. -/
theorem isConnected_next {w : Worker} (onward : t.next? = some w)
    (connected : t.worker.IsConnected) : w.IsConnected := by
  obtain ⟨sent, _, sends⟩ := t.sends
  have kept := sends.isConnected connected
  unfold next? at onward
  split at onward
  · cases onward
    exact kept
  · cases onward
    exact kept
  · contradiction

end Turn

theorem Worker.isConnected_turns {fuel : Nat} {w : Worker} (connected : w.IsConnected) :
    ∀ t ∈ w.turns fuel, t.worker.IsConnected := by
  induction fuel generalizing w with
  | zero => exact fun _ member => nomatch member
  | succ fuel ih =>
    intro t member
    unfold Worker.turns at member
    cases taken : w.turn? with
    | none => simp [taken] at member
    | some first =>
      have mine := isConnected_of_turn? taken connected
      rw [taken] at member
      rcases List.mem_cons.mp member with rfl | later
      · exact mine
      · cases onward : first.next? with
        | none => simp [onward] at later
        | some next =>
          rw [onward] at later
          exact ih (first.isConnected_next onward mine) t later

namespace DownloadList
variable {list : DownloadList} {threads : Int} {files : FileTree} {network : Network} {t : Turn}

theorem isConnected_turns (member : t ∈ list.turns threads files network) :
    t.worker.IsConnected := by
  unfold turns at member
  split at member
  · contradiction
  · exact Worker.isConnected_turns (fun _ none => absurd none List.not_mem_nil) t member

/-- The first job of a batch has its turn with the files as they are. -/
theorem head_mem_turns {job : DownloadJob} {rest : List DownloadJob} (positive : 1 ≤ threads)
    (jobs : list.sorted.jobs = job :: rest) :
    ⟨⟨rest, [], [], files, network⟩, job⟩ ∈ list.turns threads files network := by
  have some : ∃ fuel, Worker.bound network list.sorted.jobs.length = fuel + 1 := by
    refine Nat.exists_eq_add_one_of_ne_zero ?_
    simp [Worker.bound, jobs]
  obtain ⟨fuel, same⟩ := some
  rw [turns, if_neg (Int.not_lt.mpr positive), same, worker, jobs, Worker.turns]
  exact List.mem_cons_self

/-- What a turn of a batch finishes with is among the results, if the batch comes to its end. -/
theorem result_mem {outcome : DownloadOutcome} (member : t ∈ list.turns threads files network)
    (ends : (list.download threads files network).error ≠ some .unending)
    (finished : t.ending = .finished outcome) :
    ⟨t.job.entry, outcome⟩ ∈ (list.download threads files network).results := by
  rcases list.download_cases threads files network with
    ⟨crash, w, runs, same⟩ | ⟨error, unending | ⟨_, none, _⟩, same⟩
  · rw [same]
    show _ ∈ w.results
    rw [runs.results]
    refine List.mem_append_right _ (List.mem_filterMap.mpr ⟨t, member, ?_⟩)
    rw [Turn.result?, finished]
  · rw [same, unending] at ends
    contradiction
  · rw [none] at member
    contradiction

end DownloadList
end Launcher
