import Launcher.Proofs.Download.Likeness
import Launcher.Proofs.Install.Confinement
import Launcher.Proofs.Versions.Likeness

/-! Two installations of a server that learned of its program from different metadata. What the
metadata say beside the downloads is not looked at, so that from then on both do the same. -/
namespace Launcher

namespace Action
variable {loose : Location → Prop} {w v : World}

/-- A file is written below new directories in both trees, or in neither for one reason. -/
theorem writeBelow_like (alike : w.files.Alike loose v.files) (p : Path) (content : Bytes) :
    ((writeBelow p content).run.run v).1 = ((writeBelow p content).run.run w).1 ∧
      ((writeBelow p content).run.run w).2.files.Alike loose
        ((writeBelow p content).run.run v).2.files := by
  rw [writeBelow_run, writeBelow_run]
  obtain ⟨result, housed⟩ := alike.makeDirectories p.parent
  generalize (FileTree.makeDirectories p.parent).run.run w.files = made at result housed ⊢
  generalize (FileTree.makeDirectories p.parent).run.run v.files = made' at result housed ⊢
  obtain ⟨outcome, files⟩ := made
  obtain ⟨outcome', files'⟩ := made'
  obtain rfl : outcome' = outcome := result
  cases outcome' with
  | error e => exact ⟨rfl, housed⟩
  | ok =>
    simp only at housed ⊢
    have wrote := housed.write p content
    generalize files.write p content = written at wrote ⊢
    generalize files'.write p content = written' at wrote ⊢
    cases wrote with
    | error e => exact ⟨rfl, housed⟩
    | ok alike' => exact ⟨rfl, alike'⟩

end Action

namespace Batch.Like
variable {d : Difference} {a b : Batch}

theorem verdict (like : a.Like d b) : b.verdict = a.verdict := by
  rw [Batch.verdict, Batch.verdict, like.error, like.results]

theorem succeeds_iff (like : a.Like d b) : b.Succeeds ↔ a.Succeeds := by
  rw [Batch.Succeeds, Batch.Succeeds, like.error, like.results]

theorem fetching (like : a.Like d b) (s : InstallSettings) (machine : Machine)
    (jobs : DownloadList) : s.fetching machine jobs b = s.fetching machine jobs a := by
  simp only [InstallSettings.fetching, Batch.delivered, like.results, like.succeeds_iff]

end Batch.Like

namespace Installation

/-- Two installations under way with one plan that told the same. -/
structure Like (d : Difference) (i j : Installation) : Prop where
  plan : j.plan = i.plan
  events : j.events = i.events
  files : i.world.files.Alike d.loose j.world.files
  network : i.world.network.Like d j.world.network

/-- Two steps have the same result, and leave installations that are alike. -/
def Agree {α : Type} (d : Difference) (f g : InstallAction α) : Prop :=
  ∀ i j, i.Like d j → (g.run.run j).1 = (f.run.run i).1 ∧ (f.run.run i).2.Like d (g.run.run j).2

namespace Agree
variable {α β : Type} {d : Difference}

theorem pure (value : α) : Agree d (pure value : InstallAction α) (pure value) :=
  fun _ _ like => ⟨rfl, like⟩

theorem throw (e : Fault) : Agree d (throw e : InstallAction α) (throw e) :=
  fun _ _ like => ⟨rfl, like⟩

theorem ofExcept {ε : Type} (fault : ε → Fault) (result : Except ε α) :
    Agree d (ofExcept fault result) (ofExcept fault result) := by
  cases result with
  | ok value => exact .pure value
  | error e => exact .throw (fault e)

theorem tell (event : InstallEvent) : Agree d (tell event) (tell event) := by
  intro i j like
  exact ⟨rfl, like.plan, congrArg (· ++ [event]) like.events, like.files, like.network⟩

theorem bind {f g : InstallAction α} {next next' : α → InstallAction β} (first : Agree d f g)
    (second : ∀ value, Agree d (next value) (next' value)) :
    Agree d (f >>= next) (g >>= next') := by
  intro i j like
  rw [run_bind, run_bind]
  obtain ⟨result, after⟩ := first i j like
  generalize f.run.run i = outcome at result after ⊢
  generalize g.run.run j = outcome' at result after ⊢
  obtain ⟨value, i'⟩ := outcome
  obtain ⟨value', j'⟩ := outcome'
  obtain rfl : value' = value := result
  cases value' with
  | error e => exact ⟨rfl, after⟩
  | ok value => exact second value i' j' after

theorem isFile (p : Path) :
    Agree d (onWorld (Action.inspect Fault.system fun files => files.isFile p))
      (onWorld (Action.inspect Fault.system fun files => files.isFile p)) := by
  intro i j like
  rw [inspect_run, inspect_run, like.files.isFile_congr]
  exact ⟨rfl, like⟩

theorem require (entry : DownloadEntry) :
    Agree d (onPlan (InstallPlan.require entry)) (onPlan (InstallPlan.require entry)) := by
  intro i j like
  have same : i.plan.jobs.add j.world.files entry true =
      i.plan.jobs.add i.world.files entry true := by
    rw [DownloadList.add, DownloadList.add, DownloadList.isPresent, DownloadList.isPresent,
      like.files.isFile_congr]
  rw [onPlan_run, onPlan_run, InstallPlan.require_run, InstallPlan.require_run]
  simp only [like.plan, same]
  cases i.plan.jobs.add i.world.files entry true with
  | error e => exact ⟨rfl, rfl, like.events, like.files, like.network⟩
  | ok added => exact ⟨rfl, rfl, like.events, like.files, like.network⟩

theorem writeBelow (p : Path) (content : Bytes) :
    Agree d (onWorld (Action.writeBelow p content)) (onWorld (Action.writeBelow p content)) := by
  intro i j like
  rw [onWorld_run, onWorld_run]
  obtain ⟨result, alike⟩ := Action.writeBelow_like like.files p content
  rcases ran : (Action.writeBelow p content).run.run i.world with ⟨outcome, w⟩
  rcases ran' : (Action.writeBelow p content).run.run j.world with ⟨outcome', v⟩
  rw [ran, ran'] at result alike
  refine ⟨result, like.plan, like.events, alike, ?_⟩
  simp only [(Action.writeBelow_leaves ran).1, (Action.writeBelow_leaves ran').1]
  exact like.network

end Agree

variable {d : Difference} {s : InstallSettings} {machine : Machine} {metadata metadata' : Members}

theorem loadMetadata_events {w : World} {i : Installation}
    (h : (loadMetadata s).run.run (.start w) = (.ok metadata, i)) :
    i.events = [.versionLoading s.version, .versionLoaded s.version] := by
  obtain ⟨_, i₁, told, h⟩ := run_bind_ok h
  cases told
  obtain ⟨data, i₂, found, h⟩ := run_bind_ok h
  obtain ⟨_, i₃, told, h⟩ := run_bind_ok h
  cases told
  cases h
  rw [onWorld_run] at found
  generalize (VersionIndex.metadata _ _).run.run _ = outcome at found
  obtain ⟨result, left⟩ := outcome
  cases found
  rfl

/-- Of the metadata the plan of the program reads the downloads only. -/
theorem planJar_agree (kind : JarKind) (jar : Path)
    (same : metadata'.getD "downloads" = metadata.getD "downloads") :
    Agree d (planJar kind jar metadata) (planJar kind jar metadata') := by
  have offers : jarEntry kind jar metadata' = jarEntry kind jar metadata := by
    rw [jarEntry, jarEntry, same]
  unfold planJar
  rw [offers]
  refine .bind (.ofExcept _ _) fun offered => ?_
  cases offered with
  | some entry => exact .bind (.require entry) fun _ => .tell _
  | none =>
    refine .bind (.isFile jar) fun isThere => ?_
    cases isThere with
    | true => exact .tell _
    | false => exact .bind (.throw _) fun _ => .tell _

theorem serverEnvironment_agree : Agree d (serverEnvironment s) (serverEnvironment s) :=
  .bind (.writeBelow _ _) fun _ => .bind (.tell _) fun _ => .pure _

/-- A server has nothing to extract or to copy. -/
theorem finish_server {i : Installation} (server : s.kind = .server)
    (plan : i.plan = .ofJobs i.plan.jobs) :
    (finish machine s metadata).run.run i = (serverEnvironment s).run.run i := by
  have natives : i.plan.natives = [] := by rw [plan]; rfl
  have copies : i.plan.virtualDir = none := by rw [plan]; rfl
  rw [finish, run_bind, installNatives_run, if_pos natives]
  simp only
  rw [run_bind, placeAssets, run_bind, run_get]
  simp only [copies, run_pure, server]

end Installation

namespace InstallCall
variable (c : InstallCall) (files : FileTree)

/-- The call as far as the metadata of its version. -/
def loaded : Except Fault Members × Installation :=
  (Installation.loadMetadata c.settings).run.run (.start (c.world files))

/-- The worker that makes the downloads of a call. -/
def worker : Worker :=
  let i := (c.prepared files).2
  i.plan.jobs.worker i.world.files i.world.network

/-- The downloads of a call come to a URL. -/
def Downloads (url : String) : Prop :=
  ∃ fuel, ∃ t ∈ (c.worker files).turns fuel, t.job.target.url = url

/-- Where a call keeps what it learned of versions. -/
def Keeps (l : Location) : Prop :=
  l = (c.settings.directories.metadataFile c.settings.version).location ∨
    ∃ file ∈ c.index.cache, l = file.location

variable {c files} {c' : InstallCall} {files' : FileTree} {d : Difference}
  {metadata metadata' : Members} {i i' : Installation}

/-- A server is prepared when its program is planned. -/
theorem prepared_server (server : c.settings.kind = .server)
    (loaded : c.loaded files = (.ok metadata, i)) :
    c.prepared files =
      match (Installation.planJar .server c.settings.jar metadata).run.run i with
      | (.error e, i) => (.error e, i)
      | (.ok (), i) => (.ok metadata, i) := by
  have began : (Installation.loadMetadata c.settings).run.run (.start (c.world files)) =
    (.ok metadata, i) := loaded
  rw [prepared, Installation.prepare, run_bind, began]
  simp only [server, run_bind]
  rcases (Installation.planJar .server c.settings.jar metadata).run.run i with ⟨_ | _, _⟩ <;> rfl

/-- The metadata of one version that two calls learned leave them alike. -/
theorem loaded_like (settings : c'.settings = c.settings)
    (loaded : c.loaded files = (.ok metadata, i)) (loaded' : c'.loaded files' = (.ok metadata', i'))
    (alike : files.Alike c.Keeps files') (cache : c'.index.cache = c.index.cache)
    (known : c'.index.data.isSome = c.index.data.isSome)
    (connections : c'.network.connections = c.network.connections) :
    i.Like ⟨c.Keeps, fun url => i'.world.network.script url ≠ i.world.network.script url,
      i.world.network.log, i'.world.network.log⟩ i' := by
  obtain ⟨plan, found⟩ := Installation.loadMetadata_ok loaded
  obtain ⟨plan', found'⟩ := Installation.loadMetadata_ok loaded'
  obtain ⟨_, _, inquires⟩ := VersionIndex.metadata_pursues c.settings.version
    (c.settings.directories.metadataFile c.settings.version) (c.world files)
  obtain ⟨_, _, inquires'⟩ := VersionIndex.metadata_pursues c'.settings.version
    (c'.settings.directories.metadataFile c'.settings.version) (c'.world files')
  have count := inquires.connections
  have count' := inquires'.connections
  have told := Installation.loadMetadata_events loaded
  have told' := Installation.loadMetadata_events loaded'
  simp only [Installation.start] at found found' count count'
  rw [found] at count
  rw [found'] at count'
  rw [settings] at found' told'
  refine ⟨plan'.trans plan.symm, told'.trans told.symm, ?_, ⟨[], ?_, ?_⟩, ?_, ?_⟩
  · exact VersionIndex.metadata_alike found found' alike cache known
      (fun file kept => .inr ⟨file, kept, rfl⟩) (.inl rfl)
  · exact (List.append_nil _).symm
  · exact (List.append_nil _).symm
  · exact count'.trans (connections.trans count.symm)
  · exact fun url same => Classical.not_not.mp same

/-- When the downloads of a server are over its plan has nothing else. -/
theorem downloaded_plan (server : c.settings.kind = .server)
    (preparation : c.prepared files = (.ok metadata, i)) :
    (c.downloaded files).plan = .ofJobs (c.downloaded files).plan.jobs := by
  obtain ⟨_, _, _, _, _, _, _, plan⟩ := Installation.prepare_ok_server server preparation
  rw [downloaded, preparation]
  simp only
  rw [plan]
  rfl

/-- A server whose downloads succeed needs nothing but its licence. -/
theorem run_server (server : c.settings.kind = .server)
    (preparation : c.prepared files = (.ok metadata, i)) :
    c.run files = match (c.batch files).verdict with
      | .error e => (.error e, c.downloaded files)
      | .ok () => (Installation.serverEnvironment c.settings).run.run (c.downloaded files) := by
  rw [run_prepared preparation]
  cases (c.batch files).verdict with
  | error e => rfl
  | ok => exact Installation.finish_server server (downloaded_plan server preparation)

/-- The batches of two calls with one plan are alike, and so is what they leave. -/
theorem downloaded_like (machine : c'.machine = c.machine) (settings : c'.settings = c.settings)
    (preparation : c.prepared files = (.ok metadata, i))
    (preparation' : c'.prepared files' = (.ok metadata', i')) (like : i.Like d i')
    (avoids : (c.worker files).Avoids d.apart) :
    (c.batch files).Like d (c'.batch files') ∧
      (c.downloaded files).Like d (c'.downloaded files') := by
  have batches : (c.batch files).Like d (c'.batch files') := by
    rw [worker, preparation] at avoids
    rw [batch, batch, preparation, preparation', machine, settings]
    simp only [like.plan]
    exact DownloadList.download_like _ _ like.files like.network avoids
  refine ⟨batches, ?_, ?_, ?_, ?_⟩
  · simp only [downloaded, preparation, preparation', like.plan, batches.succeeds_iff,
      batches.list]
  · simp only [downloaded, preparation, preparation', like.plan, machine, settings,
      batches.fetching]
  · exact batches.files
  · exact batches.network

/-- Two calls for a server end alike once they learned of one program, unless the downloads come to
a URL with other replies left. -/
theorem run_like (server : c.settings.kind = .server) (machine : c'.machine = c.machine)
    (settings : c'.settings = c.settings) (loaded : c.loaded files = (.ok metadata, i))
    (loaded' : c'.loaded files' = (.ok metadata', i')) (like : i.Like d i')
    (same : metadata'.getD "downloads" = metadata.getD "downloads")
    (avoids : (c.worker files).Avoids d.apart) :
    (c'.run files').1 = (c.run files).1 ∧ (c.run files).2.Like d (c'.run files').2 := by
  obtain ⟨result, planned⟩ := Installation.planJar_agree .server c.settings.jar same i i' like
  have preparation := prepared_server server loaded
  have preparation' := prepared_server (settings ▸ server) loaded'
  rw [settings] at preparation'
  generalize (Installation.planJar .server c.settings.jar metadata).run.run i = outcome
    at preparation result planned
  generalize (Installation.planJar .server c.settings.jar metadata').run.run i' = outcome'
    at preparation' result planned
  obtain ⟨ended, j⟩ := outcome
  obtain ⟨ended', j'⟩ := outcome'
  obtain rfl : ended' = ended := result
  cases ended' with
  | error e =>
    rw [run_unprepared preparation, run_unprepared preparation']
    exact ⟨rfl, planned⟩
  | ok =>
    obtain ⟨batches, downloads⟩ :=
      downloaded_like machine settings preparation preparation' planned avoids
    have finished := Installation.serverEnvironment_agree (s := c.settings) _ _ downloads
    have ran := run_server server preparation
    have ran' := run_server (settings ▸ server) preparation'
    rw [batches.verdict, settings] at ran'
    cases verdict : (c.batch files).verdict with
    | error e =>
      simp only [verdict] at ran ran'
      rw [ran, ran']
      exact ⟨rfl, downloads⟩
    | ok =>
      -- The matches are reduced here, before the kernel is left to unfold what they are applied to.
      simp only [verdict] at ran ran'
      rw [ran, ran']
      exact finished

end InstallCall
end Launcher
