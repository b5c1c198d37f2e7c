import Launcher.Proofs.Archive.Extraction
import Launcher.Proofs.Download.Outcome
import Launcher.Proofs.Files.Retention
import Launcher.Proofs.Install.Preparation

/-! A call of the installation on files that calls before may have left. It is prepared, then its
downloads are made, and only when they all succeed it goes on: archives are extracted and assets
copied, but no file is taken away and no result of a download is told any more. -/
namespace Launcher

namespace Installation

section Completion

/-- An installation that goes on from a file tree and has told these results. -/
structure Continues (files : FileTree) (results : List DownloadResult) (i : Installation) :
    Prop where
  files : files.Advances (fun _ => True) i.world.files
  results : i.results = results

/-- A step that only adds to the file tree, and does not fail as downloads do. -/
def Completes {α : Type} (files : FileTree) (results : List DownloadResult)
    (step : InstallAction α) : Prop :=
  Safe (Continues files results) (fun e => ¬ e.IsDownloads) step

variable {files : FileTree} {results : List DownloadResult} {α : Type}

theorem tell_completes {event : InstallEvent} (silent : event.result? = none) :
    Completes files results (tell event) := by
  refine .modify fun i continues => ⟨continues.files, ?_⟩
  rw [results_append, ← continues.results]
  simp [silent]

theorem onWorld_completes {action : Action α}
    (within : ∀ w, Action.Within (fun _ => True) w action) :
    Completes files results (onWorld action) := by
  refine onWorld_safe fun i continues => ?_
  obtain ⟨derives, kind⟩ := within i.world i.world (.refl _ _)
  exact ⟨⟨continues.files.trans derives.files, continues.results⟩, kind⟩

theorem copy_advances {places : Location → Prop} {tree copied : FileTree} {source dest : Path}
    (place : places dest.location) (h : tree.copy source dest = .ok copied) :
    tree.Advances places copied := by
  obtain ⟨_, content, _, wrote⟩ := FileTree.copy_ok_iff.mp h
  exact .write wrote place

theorem copyAssets_within {places : Location → Prop} {start : World} {directory : Path}
    (into : ∀ id : String, places (directory / id).location) (assets : List (String × Path)) :
    Action.Within places start (copyAssets directory assets) := by
  induction assets with
  | nil => exact .pure _
  | cons asset rest ih =>
    obtain ⟨id, file⟩ := asset
    refine .bind (Action.makeDirectories_within _) fun _ => .bind ?_ fun _ => ih
    exact Action.changeFiles_within fun _ _ copied => copy_advances (into id) copied

theorem installNatives_completes (s : InstallSettings) :
    Completes files results (installNatives s) := by
  refine .get_bind fun i continues => ?_
  simp only
  split
  · exact ⟨continues, fun e failed => nomatch failed⟩
  · have extracted : i.world.files.Advances (fun _ => True) (Natives.install i.world.files
        i.plan.natives (s.directories.natives s.version)).2 :=
      Natives.install_advances (fun _ => trivial) _
    have after : Completes files results (do
        let errors ← ofExcept Fault.ofExtraction (Natives.install i.world.files i.plan.natives
          (s.directories.natives s.version)).1
        tell (.nativesInstalled i.plan.natives.length errors)) :=
      .bind (ofExcept_safe Fault.not_isDownloads_ofExtraction) fun _ => tell_completes rfl
    rw [run_bind, run_modify]
    exact after _ ⟨continues.files.trans extracted, continues.results⟩

theorem placeAssets_completes : Completes files results placeAssets := by
  refine .bind .get fun i => ?_
  simp only
  split
  · exact onWorld_completes fun w => copyAssets_within (fun _ => trivial) _
  · exact .pure _

theorem clientEnvironment_completes (machine : Machine) (s : InstallSettings)
    (metadata : Members) : Completes files results (clientEnvironment machine s metadata) := by
  refine .bind (onWorld_completes fun w => Action.makeDirectories_within _) fun _ =>
    .bind .get fun i => .bind (ofExcept_safe fun _ => id) fun versionType =>
    .bind (ofExcept_safe fun _ => Fault.not_isDownloads_ofLaunch _) fun arguments => .pure _

theorem serverEnvironment_completes (s : InstallSettings) :
    Completes files results (serverEnvironment s) := by
  refine .bind (onWorld_completes fun w => Action.writeBelow_within _ trivial) fun _ =>
    .bind (tell_completes rfl) fun _ => .pure _

theorem finish_completes (machine : Machine) (s : InstallSettings) (metadata : Members) :
    Completes files results (finish machine s metadata) := by
  refine .bind (installNatives_completes s) fun _ => .bind placeAssets_completes fun _ => ?_
  cases s.kind with
  | client => exact clientEnvironment_completes machine s metadata
  | server => exact serverEnvironment_completes s

end Completion
end Installation

/-- How a batch ends the installation it belongs to, if it does. -/
def Batch.verdict (b : Batch) : Except Fault Unit :=
  match b.error with
  | some e => .error (.batch e)
  | none => if b.results.filter (·.isFailure) = [] then .ok ()
    else .error (.downloads (b.results.filter (·.isFailure)))

namespace Batch
variable {b : Batch}

theorem verdict_of_error {e : BatchError} (h : b.error = some e) :
    b.verdict = .error (.batch e) := by
  simp [verdict, h]

theorem verdict_ok (h : b.verdict = .ok ()) :
    b.error = none ∧ ∀ result ∈ b.results, result.isFailure = false := by
  unfold verdict at h
  split at h
  · cases h
  · rename_i none
    split at h
    · rename_i empty
      exact ⟨none, by simpa [List.filter_eq_nil_iff] using empty⟩
    · cases h

theorem verdict_downloads {failed : List DownloadResult}
    (h : b.verdict = .error (.downloads failed)) : failed = b.results.filter (·.isFailure) := by
  unfold verdict at h
  split at h
  · cases h
  · split at h
    · cases h
    · cases h
      rfl

end Batch

namespace Installation

theorem filterMap_progress (delivered : List (Nat × DownloadResult)) :
    (delivered.map fun (count, result) => InstallEvent.downloadProgress count result).filterMap
      InstallEvent.result? = delivered.map (·.2) := by
  induction delivered with
  | nil => rfl
  | cons first rest ih => simpa [InstallEvent.result?] using ih

theorem settle_spec (batch : Batch) (i : Installation) :
    ((settle batch).run.run i).1 = batch.verdict ∧
      ((settle batch).run.run i).2.world.files = i.world.files ∧
      ((settle batch).run.run i).2.results = i.results := by
  unfold settle Batch.verdict
  cases batch.error with
  | some e => exact ⟨rfl, rfl, rfl⟩
  | none =>
    simp only
    split
    · rw [run_bind, run_modify]
      exact ⟨rfl, rfl, (results_append _ _).trans (List.append_nil _)⟩
    · exact ⟨rfl, rfl, rfl⟩

/-- Downloading leaves what the batch of the planned jobs leaves, tells its results, and ends as
they say. -/
theorem download_spec (machine : Machine) (s : InstallSettings) {i : Installation}
    (built : i.plan.jobs.Built) :
    ∃ threads, let batch := i.plan.jobs.download threads i.world.files i.world.network
      ((download machine s).run.run i).1 = batch.verdict ∧
      ((download machine s).run.run i).2.world.files = batch.files ∧
      ((download machine s).run.run i).2.results = i.results ++ batch.results := by
  refine ⟨threadsFor machine s i.plan.jobs.count, ?_⟩
  intro batch
  rw [download, run_bind, run_get]
  simp only
  split
  · rename_i empty
    have none : i.plan.jobs.jobs = [] := by
      rw [built.count] at empty
      exact List.map_eq_nil_iff.mp (List.length_eq_zero_iff.mp empty)
    have idle : batch = ⟨i.plan.jobs.sorted, [], .none, i.world.files, i.world.network⟩ := by
      simp [batch, DownloadList.download, DownloadList.sorted, none]
    rw [idle]
    exact ⟨rfl, rfl, (List.append_nil _).symm⟩
  · simp only [tell, tellResults, run_bind, run_modify]
    obtain ⟨ended, files, told⟩ := settle_spec batch _
    refine ⟨ended, files.trans rfl, told.trans ?_⟩
    simp only [results, List.filterMap_append, filterMap_progress, Batch.delivered_results]
    simp [InstallEvent.result?, batch]

end Installation

/-- A call of the installation: everything that it depends on but the files. -/
structure InstallCall where
  machine : Machine
  settings : InstallSettings
  network : Network
  index : VersionIndex

namespace InstallCall
variable (c : InstallCall) (files : FileTree)

def world : World := ⟨files, c.network, c.index⟩

/-- What comes of a call, and the installation that it leaves. -/
def run : Except Fault Environment × Installation := install c.machine c.settings (c.world files)

/-- The call as far as its preparation. -/
def prepared : Except Fault Members × Installation :=
  (Installation.prepare c.machine c.settings).run.run (.start (c.world files))

/-- The call as far as its downloads. -/
def fetched : Except Fault Members × Installation :=
  (Installation.prepare c.machine c.settings >>= fun metadata =>
    Installation.download c.machine c.settings >>= fun _ =>
      pure metadata).run.run (.start (c.world files))

/-- The paths to which something is to be downloaded when the preparation has ended well. -/
def scheduled : List Path :=
  match c.prepared files with
  | (.ok _, i) => i.plan.jobs.destinations
  | (.error _, _) => []

/-- The program, the libraries, the archives and the assets that the version consists of, if the
preparation finds them out. -/
def planned : List Path :=
  match c.prepared files with
  | (.ok _, i) => c.settings.jar :: i.plan.files
  | (.error _, _) => []

/-- The files beside the downloads that the preparation may write. -/
def documents : List Path := c.settings.documents c.index

/-- The places of those files. -/
def places (l : Location) : Prop := ∃ q ∈ c.documents, q.location = l

theorem start_prepared (places : Location → Prop) :
    Installation.Prepared places (c.world files) [] (.start (c.world files)) := by
  refine ⟨⟨.refl _ _, .empty, (fun _ member => nomatch member), ?_⟩, rfl⟩
  rintro p (member | member)
  · cases member
  · cases member

/-- A preparation leaves a sound plan, which covers the program if it ends well. -/
theorem prepared_spec :
    Installation.Prepared c.places (c.world files) [] (c.prepared files).2 ∧
      (∀ e, (c.prepared files).1 = .error e → ¬ e.IsDownloads) ∧
      ∀ metadata i, c.prepared files = (.ok metadata, i) →
        Installation.Prepared c.places (c.world files) [c.settings.jar] i := by
  have written : ∀ file ∈ c.settings.documents (c.world files).index, c.places file.location :=
    fun file member => ⟨file, member, rfl⟩
  have start := c.start_prepared files c.places
  have prepares : Installation.Prepares c.places (c.world files) []
      (Installation.prepare c.machine c.settings) := Installation.prepare_prepares written
  exact ⟨(prepares _ start).1, (prepares _ start).2, Installation.prepare_gives written _ start⟩

/-- A call fails in its preparation, or it makes its downloads and goes on if they succeed. -/
theorem run_cases :
    (∃ e i, c.prepared files = (.error e, i) ∧ c.run files = (.error e, i)) ∨
      ∃ metadata i threads i', c.prepared files = (.ok metadata, i) ∧
        let batch := i.plan.jobs.download threads i.world.files i.world.network
        i'.world.files = batch.files ∧ i'.results = batch.results ∧ (c.fetched files).2 = i' ∧
        ((∃ e, batch.verdict = .error e ∧ c.run files = (.error e, i')) ∨
          (batch.verdict = .ok () ∧ c.run files =
            (Installation.finish c.machine c.settings metadata).run.run i')) := by
  obtain ⟨_, _, ready⟩ := c.prepared_spec files
  unfold run install Installation.steps fetched
  simp only [run_bind]
  rw [show (Installation.prepare c.machine c.settings).run.run (.start (c.world files)) =
    c.prepared files from rfl]
  rcases preparation : c.prepared files with ⟨e | metadata, i⟩
  · exact .inl ⟨e, i, rfl, rfl⟩
  · have prepared := ready metadata i preparation
    obtain ⟨threads, ended, left, told⟩ :=
      Installation.download_spec c.machine c.settings prepared.sound.built
    rw [prepared.quiet, List.nil_append] at told
    refine .inr ⟨metadata, i, threads, ((Installation.download c.machine c.settings).run.run i).2,
      rfl, left, told, ?_⟩
    simp only
    generalize (Installation.download c.machine c.settings).run.run i = outcome at ended ⊢
    obtain ⟨e | _, i'⟩ := outcome
    · exact ⟨rfl, .inl ⟨e, ended.symm, rfl⟩⟩
    · exact ⟨rfl, .inr ⟨ended.symm, rfl⟩⟩

/-- A call that returns has made its downloads without a failure, and has gone on from there. -/
theorem returned_ok {c : InstallCall} {files : FileTree} {environment : Environment}
    (returned : (c.run files).1 = .ok environment) :
    ∃ metadata i threads, c.prepared files = (.ok metadata, i) ∧
      let batch := i.plan.jobs.download threads i.world.files i.world.network
      batch.error = none ∧ (∀ result ∈ batch.results, result.isFailure = false) ∧
      (c.fetched files).2.world.files = batch.files ∧
      (Installation.finish c.machine c.settings metadata).run.run (c.fetched files).2 =
        (.ok environment, (c.run files).2) := by
  rcases c.run_cases files with ⟨e, i, _, ran⟩ |
    ⟨metadata, i, threads, i', preparation, left, _, fetched, ⟨e, _, ran⟩ | ⟨fine, ran⟩⟩
  · rw [ran] at returned
    cases returned
  · rw [ran] at returned
    cases returned
  · obtain ⟨none, successes⟩ := Batch.verdict_ok fine
    refine ⟨metadata, i, threads, preparation, none, successes, fetched ▸ left, ?_⟩
    rw [fetched, ← ran, ← returned]

end InstallCall

end Launcher
