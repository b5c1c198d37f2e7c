import Launcher.Proofs.Install.Call

/-! Calls of the installation one after the other, each of which finds what the others left. They
share nothing but files, so the file at a path must tell what became of the last download to it. -/
namespace Launcher

theorem DownloadResult.not_lost {result : DownloadResult} (success : result.isFailure = false) :
    ¬ result.outcome.IsLost := by
  unfold isFailure at success
  split at success
  · rename_i same
    rw [same]
    exact id
  · cases success

namespace InstallCall

/-- A call that writes to a path by its download alone, and whose downloads are not interrupted.
What follows them may write to a path that is planned: then there is a file already. -/
structure Spares (c : InstallCall) (files : FileTree) (p : Path) : Prop where
  documents : ∀ q ∈ c.documents, q.location ≠ p.location
  downloads : ∀ q ∈ c.scheduled files, q.location = p.location → q = p
  calm : (c.run files).1 ≠ .error (.batch (.crashed .interrupted))
  after : p ∈ c.planned files ∨ ((c.run files).2.world.files.IsFileAt p.location →
    (c.fetched files).2.world.files.IsFileAt p.location)

/-- Calls in turn: the files that they leave, and all results that they told. -/
def history : List InstallCall → FileTree → FileTree × List DownloadResult
  | [], files => (files, [])
  | c :: rest, files =>
    let i := (c.run files).2
    let (files, results) := history rest i.world.files
    (files, i.results ++ results)

theorem history_singleton (c : InstallCall) (files : FileTree) :
    history [c] files = ((c.run files).2.world.files, (c.run files).2.results) := by
  simp [history]

/-- Each of some calls in turn spares a path. -/
def AllSpare (p : Path) : List InstallCall → FileTree → Prop
  | [], _ => True
  | c :: rest, files => c.Spares files p ∧ AllSpare p rest (c.run files).2.world.files

variable {c : InstallCall} {files : FileTree} {p : Path}

theorem documents_elsewhere (documents : ∀ q ∈ c.documents, q.location ≠ p.location) :
    ¬ c.places p.location := by
  rintro ⟨q, member, same⟩
  exact documents q member same

theorem prepared_tells (documents : ∀ q ∈ c.documents, q.location ≠ p.location)
    (opens : files.Opens p) : FileTree.Tells p files [] (c.prepared files).2.world.files := by
  have advances := (c.prepared_spec files).1.sound.world.files
  have elsewhere := documents_elsewhere documents
  exact .same (advances.opens opens elsewhere) (advances.hasFile_iff opens elsewhere) rfl

/-- A path is scheduled exactly if it is planned and there is no file at it. -/
theorem scheduled_iff (documents : ∀ q ∈ c.documents, q.location ≠ p.location)
    (opens : files.Opens p) (planned : p ∈ c.planned files) :
    p ∈ c.scheduled files ↔ ¬ files.HasFile p := by
  obtain ⟨_, _, ready⟩ := c.prepared_spec files
  unfold InstallCall.planned at planned
  unfold scheduled
  rcases preparation : c.prepared files with ⟨e | metadata, i⟩
  · rw [preparation] at planned
    contradiction
  · rw [preparation] at planned
    have sound := (ready metadata i preparation).sound
    refine ⟨sound.missing p, fun absent => ?_⟩
    have needed : p ∈ [c.settings.jar] ∨ p ∈ i.plan.files :=
      (List.mem_cons.mp planned).imp_left List.mem_singleton.mpr
    refine (sound.covered p needed).resolve_right fun present => absent ?_
    exact (sound.world.files.hasFile_iff opens (documents_elsewhere documents)).mp present

section Batch
variable {metadata : Members} {i : Installation} {threads : Int}
  (preparation : c.prepared files = (.ok metadata, i))
  (documents : ∀ q ∈ c.documents, q.location ≠ p.location)
  (own : ∀ q ∈ c.scheduled files, q.location = p.location → q = p)

include preparation in
theorem scheduled_eq : c.scheduled files = i.plan.jobs.destinations := by
  rw [scheduled, preparation]

include preparation in
theorem sound_of_prepared :
    Planning.Sound c.places (c.world files) [c.settings.jar] ⟨i.world, i.plan⟩ :=
  ((c.prepared_spec files).2.2 metadata i preparation).sound

include preparation documents own

theorem downloads_tell (opens : files.Opens p)
    (calm : (i.plan.jobs.download threads i.world.files i.world.network).error ≠
      some (.crashed .interrupted)) :
    FileTree.Tells p files (i.plan.jobs.download threads i.world.files i.world.network).results
      (i.plan.jobs.download threads i.world.files i.world.network).files := by
  have sound := sound_of_prepared preparation
  have before := prepared_tells documents opens
  rw [preparation] at before
  rw [scheduled_eq preparation] at own
  refine before.trans (DownloadList.download_tells _ _ _ sound.built calm own before.opens ?_)
  intro member present
  exact sound.missing p member ((before.of_none rfl).mp present)

/-- Every planned path has a file when all downloads succeeded. -/
theorem downloads_hasFile (opens : files.Opens p) (planned : p ∈ c.planned files)
    (fine : (i.plan.jobs.download threads i.world.files i.world.network).verdict = .ok ()) :
    (i.plan.jobs.download threads i.world.files i.world.network).files.HasFile p := by
  have sound := sound_of_prepared preparation
  obtain ⟨none, successes⟩ := Batch.verdict_ok fine
  have tells := downloads_tell preparation documents own opens
    (fun interrupted => nomatch none.symm.trans interrupted)
  obtain ⟨inside, all⟩ :=
    DownloadList.download_results threads i.world.files i.world.network sound.built
  have scheduled := scheduled_iff documents opens planned
  rw [scheduled_eq preparation] at scheduled
  by_cases listed : p ∈ i.plan.jobs.destinations
  · obtain ⟨result, member, rfl⟩ := all none p listed
    have last := lastOutcome_of_mem (DownloadList.nodup_results _ _ _ sound.built) member
    exact (tells.of_some last).mpr (DownloadResult.not_lost (successes result member))
  · refine (tells.of_none (lastOutcome_eq_none.mpr ?_)).mpr (not_not.mp (mt scheduled.mpr listed))
    intro result member mine
    exact listed (mine ▸ inside result member)

end Batch

/-- The files that a call leaves tell of its downloads, and a planned file is there if it
returns. -/
theorem run_tells (spares : c.Spares files p) (opens : files.Opens p) :
    FileTree.Tells p files (c.run files).2.results (c.run files).2.world.files ∧
      (p ∈ c.planned files → ∀ environment, (c.run files).1 = .ok environment →
        (c.run files).2.world.files.HasFile p) := by
  rcases c.run_cases files with ⟨e, i, preparation, ran⟩ |
    ⟨metadata, i, threads, i', preparation, left, told, fetched, ending⟩
  · have quiet := (c.prepared_spec files).1.quiet
    have tells := prepared_tells spares.documents opens
    rw [preparation] at quiet tells
    rw [ran, quiet]
    exact ⟨tells, fun _ environment returned => nomatch returned⟩
  · have tells :
        (i.plan.jobs.download threads i.world.files i.world.network).error ≠
          some (.crashed .interrupted) → FileTree.Tells p files i'.results i'.world.files := by
      rw [left, told]
      exact downloads_tell preparation spares.documents spares.downloads opens
    rcases ending with ⟨e, failed, ran⟩ | ⟨fine, ran⟩
    · rw [ran]
      refine ⟨tells ?_, fun _ environment returned => nomatch returned⟩
      intro interrupted
      rw [Batch.verdict_of_error interrupted] at failed
      cases failed
      exact spares.calm (congrArg Prod.fst ran)
    · have present (planned : p ∈ c.planned files) := downloads_hasFile preparation
        spares.documents spares.downloads opens planned fine
      have none := (Batch.verdict_ok fine).1
      have tells := tells fun interrupted => nomatch none.symm.trans interrupted
      obtain ⟨⟨advances, same⟩, _⟩ := Installation.finish_completes c.machine c.settings metadata
        i' ⟨.refl _ _, rfl⟩
      have after := spares.after
      rw [← left] at present
      rw [fetched, ran] at after
      rw [ran, same]
      refine ⟨?_, fun planned _ _ => advances.hasFile (present planned)⟩
      -- A planned file is there by now, and no step takes it away; other paths are left alone.
      rcases after with planned | untouched
      · have stays := advances.hasFile (present planned)
        exact tells.after stays.opens (iff_of_true stays (present planned))
      · exact tells.after (tells.opens.mono advances.directories untouched)
          ⟨.of_mono tells.opens advances.directories untouched, advances.hasFile⟩

theorem history_tells {calls : List InstallCall} (spared : AllSpare p calls files)
    (opens : files.Opens p) :
    FileTree.Tells p files (history calls files).2 (history calls files).1 := by
  induction calls generalizing files with
  | nil => exact .same opens .rfl rfl
  | cons c rest ih =>
    obtain ⟨first, others⟩ := spared
    have tells := (run_tells first opens).1
    exact tells.trans (ih others tells.opens)

/-- A call tells one result for a path at most. If nothing ends its batch, there is one for each
scheduled path, and failed downloads are raised as they are told. -/
theorem run_results (c : InstallCall) (files : FileTree) :
    ((c.run files).2.results.map (·.entry.destination)).Nodup ∧
      ((∀ e, (c.run files).1 ≠ .error (.batch e)) → ∀ q ∈ c.scheduled files,
        ∃ result ∈ (c.run files).2.results, result.entry.destination = q) ∧
      (∀ failed, (c.run files).1 = .error (.downloads failed) →
        failed = (c.run files).2.results.filter (·.isFailure)) := by
  rcases c.run_cases files with ⟨e, i, preparation, ran⟩ |
    ⟨metadata, i, threads, i', preparation, left, told, _, ending⟩
  · obtain ⟨⟨_, quiet⟩, kind, _⟩ := c.prepared_spec files
    rw [preparation] at quiet kind
    rw [ran, quiet, scheduled, preparation]
    refine ⟨.nil, ?_, ?_⟩
    · rintro _ q member
      cases member
    · rintro failed raised
      cases raised
      exact absurd trivial (kind _ rfl)
  · have sound := sound_of_prepared preparation
    have distinct :=
      DownloadList.nodup_results threads i.world.files i.world.network sound.built
    obtain ⟨_, all⟩ :=
      DownloadList.download_results threads i.world.files i.world.network sound.built
    rw [scheduled_eq preparation]
    rw [← told] at distinct all
    rcases ending with ⟨e, failed, ran⟩ | ⟨fine, ran⟩
    · rw [ran]
      refine ⟨distinct, fun unbroken => all ?_, fun raised same => ?_⟩
      · cases broken : (i.plan.jobs.download threads i.world.files i.world.network).error with
        | none => rfl
        | some cause =>
          rw [Batch.verdict_of_error broken] at failed
          cases failed
          exact absurd rfl (unbroken cause)
      · cases same
        rw [told]
        exact Batch.verdict_downloads failed
    · obtain ⟨⟨_, same⟩, kind⟩ := Installation.finish_completes c.machine c.settings metadata
        i' ⟨.refl _ _, rfl⟩
      rw [ran, same]
      exact ⟨distinct, fun _ => all (Batch.verdict_ok fine).1,
        fun raised failed => absurd trivial (kind _ failed)⟩

variable {calls : List InstallCall}

def raised? : Except Fault Environment → Option (List DownloadResult)
  | .error (.downloads failed) => some failed
  | _ => none

theorem raised?_some {ending : Except Fault Environment} {failed : List DownloadResult}
    (h : raised? ending = some failed) : ending = .error (.downloads failed) := by
  unfold raised? at h
  split at h
  · cases h
    rfl
  · cases h

/-- A program of one byte. -/
def oneByte : DownloadEntry :=
  ⟨"http://h/c", ⟨.relative, ["main", "client.jar"]⟩, some (.number 1), none, "client.jar"⟩

/-- The installation of a version that is this program, with a reply to its download. -/
def ofReply (reply : Reply) : InstallCall where
  machine := ⟨⟨some "linux", some "x86_64", some 64, ""⟩, some 1⟩
  settings := {
    version := "v", kind := .client, directories := .ofMain (.ofText "main") none
    session := .offline false, jvm := .ofText "java", threads := none, resources := ""
    jvmArgs := [], gameArgs := [], initMem := none, maxMem := none }
  network := ⟨[(oneByte.url, [reply]), ("http://h/v", [.response 200 [] (Bytes.ofText
    ("\x7b\"downloads\":\x7b\"client\":\x7b\"url\":\"http://h/c\",\"size\":1\x7d\x7d," ++
      "\"mainClass\":\"M\",\"minecraftArguments\":\"\"\x7d")) none])], [], 0⟩
  index := ⟨none, "http://h/m", some [("versions",
    .list [.object [("id", .string "v"), ("url", .string "http://h/v")]])]⟩

/-- The program is missing, it is as it is to be, and it is too long. -/
def missing : InstallCall := ofReply .notFound
def whole : InstallCall := ofReply (.response 200 [] [1] none)
def tooLong : InstallCall := ofReply (.response 200 [] [1, 2] none)

set_option maxRecDepth 100000 in
theorem missing_run :
    raised? (missing.run .empty).1 = some [⟨oneByte, .failure .notFound⟩] ∧
      (missing.run .empty).2.results = [⟨oneByte, .failure .notFound⟩] ∧
      missing.planned .empty = [oneByte.destination] ∧
      missing.scheduled .empty = [oneByte.destination] := by
  decide +kernel

set_option maxRecDepth 100000 in
theorem whole_run :
    (whole.run (missing.run .empty).2.world.files).1.toBool ∧
      whole.planned (missing.run .empty).2.world.files = [oneByte.destination] ∧
      whole.scheduled (missing.run .empty).2.world.files = [oneByte.destination] := by
  decide +kernel

set_option maxRecDepth 100000 in
theorem tooLong_run :
    raised? (tooLong.run .empty).1 = some [⟨oneByte,
      .failure (.invalidSize ⟨"main/client.jar", .size, "1", "2"⟩)⟩] ∧
    (tooLong.run .empty).2.results = [⟨oneByte,
      .failure (.invalidSize ⟨"main/client.jar", .size, "1", "2"⟩)⟩] := by
  decide +kernel

set_option maxRecDepth 100000 in
theorem tooLong_again :
    (tooLong.run (tooLong.run .empty).2.world.files).1.toBool ∧
      tooLong.planned (tooLong.run .empty).2.world.files = [oneByte.destination] ∧
      tooLong.scheduled (tooLong.run .empty).2.world.files = [] ∧
      (tooLong.run (tooLong.run .empty).2.world.files).2.results = [] := by
  decide +kernel

end InstallCall
end Launcher
