import Launcher.Proofs.Install.Postcondition
import Mathlib.Algebra.BigOperators.Group.List.Basic

/-! What an installation tells, and in what order. The events of a run are the first of a list that
is known from its plan and from the batch of its downloads, and a run that returns tells all of
them. A batch with a failure is the last thing that happens. -/
namespace Launcher

/-- Nothing ended a batch early, and none of its downloads failed. -/
def Batch.Succeeds (b : Batch) : Prop :=
  b.error = none ∧ ∀ result ∈ b.results, result.isFailure = false

instance (b : Batch) : Decidable b.Succeeds := inferInstanceAs (Decidable (_ ∧ _))

namespace Batch
variable {b : Batch}

theorem succeeds_iff : b.Succeeds ↔ b.verdict = .ok () := by
  refine ⟨fun ⟨unended, successes⟩ => ?_, verdict_ok⟩
  have empty : b.results.filter (·.isFailure) = [] := by
    simpa [List.filter_eq_nil_iff] using successes
  rw [verdict, unended]
  exact if_pos empty

theorem verdict_eq_downloads {failed : List DownloadResult} :
    b.verdict = .error (.downloads failed) ↔
      b.error = none ∧ failed = b.results.filter (·.isFailure) ∧ failed ≠ [] := by
  unfold verdict
  cases b.error with
  | some e => simp
  | none =>
    simp only [true_and]
    split
    · rename_i empty
      simp [empty]
    · rename_i some
      constructor
      · rintro ⟨⟩
        exact ⟨rfl, some⟩
      · rintro ⟨rfl, -⟩
        rfl

end Batch

namespace DownloadList

/-- The sum of the sizes that the entries of a list have. -/
def knownSize (list : DownloadList) : Int :=
  ((list.entries.filterMap (·.size)).map Whole.value).sum

theorem put_size (list : DownloadList) (job : DownloadJob) :
    (list.put job).size = list.size + ((job.entry.size.map Whole.value).getD 0) := by
  cases size : job.entry.size <;> simp [put, size]

theorem Built.size {list : DownloadList} (built : list.Built) : list.size = list.knownSize := by
  induction built with
  | empty => rfl
  | @add list _ _ entry _ _ _ added ih =>
    rcases add_cases added with ⟨rfl, _⟩ | ⟨_, _, target, rfl⟩
    · exact ih
    · rw [put_size, ih, knownSize, knownSize, put_entries, List.filterMap_append, List.map_append,
        List.sum_append]
      cases size : entry.size <;> simp [size]
  | @sorted list _ ih =>
    have same : (list.sorted.entries.filterMap (·.size)).Perm (list.entries.filterMap (·.size)) :=
      (sorted_entries list).filterMap _
    rw [knownSize, (same.map _).sum_eq, ← knownSize, ← ih]
    rfl

/-- A batch that nothing ended early has a result for every entry. -/
theorem download_results_perm {list : DownloadList} {threads : Int} {files : FileTree}
    {network : Network} (unended : (list.download threads files network).error = none) :
    ((list.download threads files network).results.map (·.entry)).Perm list.entries := by
  obtain ⟨turns, w, runs, -, results⟩ := download_finished unended
  obtain ⟨left, same, complete⟩ := runs.results_perm
  rw [complete rfl, List.append_nil] at same
  rw [results]
  exact same.trans (list.worker_entries files network)

end DownloadList

/-- What is told of a plan when it is made. -/
def InstallPlan.resolved (plan : InstallPlan) : List InstallEvent :=
  .librariesResolved plan.libraries.length plan.natives.length ::
    plan.indexName.toList.map fun index => .assetsResolved index plan.assets.length

namespace InstallSettings

/-- What is told before the downloads of a plan. -/
def opening (s : InstallSettings) (plan : InstallPlan) : List InstallEvent :=
  [.versionLoading s.version, .versionLoaded s.version, .jarFound s.jar] ++
    match s.kind with
    | .client => .librariesResolving :: plan.resolved
    | .server => []

/-- What is told of downloads: nothing if there are none. -/
def fetching (s : InstallSettings) (machine : Machine) (jobs : DownloadList) (batch : Batch) :
    List InstallEvent :=
  if jobs.entries = [] then []
  else .downloadStarted (Installation.threadsFor machine s jobs.entries.length) jobs.entries.length
      jobs.knownSize ::
    (batch.delivered.map fun (count, result) => .downloadProgress count result) ++
    if batch.Succeeds then [.downloadCompleted] else []

/-- What is told of archives: nothing if there are none. -/
def extracting (s : InstallSettings) (natives : List Path) (files : FileTree) :
    List InstallEvent :=
  if natives = [] then []
  else match (Natives.install files natives (s.directories.natives s.version)).1 with
    | .ok errors => [.nativesInstalled natives.length errors]
    | .error _ => []

/-- What is told when the downloads are over. Of a server it is told that its licence is
accepted. -/
def closing (s : InstallSettings) (natives : List Path) (files : FileTree) : List InstallEvent :=
  s.extracting natives files ++
    match s.kind with
    | .client => []
    | .server => [.eulaWritten (s.jar.parent / "eula.txt")]

end InstallSettings

namespace Installation

section Tells
variable {α β : Type} {first : List InstallEvent} {script : InstallPlan → List InstallEvent}
  {i : Installation}

/-- A step that tells some events from an installation on, or only the first of them if it fails.
The events may follow from the plan that it leaves. -/
def Tells (script : InstallPlan → List InstallEvent) (i : Installation) (step : InstallAction α) :
    Prop :=
  ∃ told, (step.run.run i).2.events = i.events ++ told ∧ told <+: script (step.run.run i).2.plan ∧
    ∀ value, (step.run.run i).1 = .ok value → told = script (step.run.run i).2.plan

theorem tells_silent {step : InstallAction α} (same : (step.run.run i).2.events = i.events) :
    Tells (fun _ => []) i step :=
  ⟨[], by rw [same, List.append_nil], List.nil_prefix, fun _ _ => rfl⟩

theorem tells_pure (value : α) : Tells (fun _ => []) i (pure value) := tells_silent rfl

theorem tells_event (event : InstallEvent) : Tells (fun _ => [event]) i (tell event) :=
  ⟨[event], rfl, List.prefix_rfl, fun _ _ => rfl⟩

theorem tells_of_run {step : InstallAction α} {value : α} {told : List InstallEvent}
    (ran : step.run.run i = (.ok value, { i with events := i.events ++ told }))
    (same : told = script i.plan) : Tells script i step := by
  rw [Tells, ran]
  subst same
  exact ⟨_, rfl, List.prefix_rfl, fun _ _ => rfl⟩

/-- A step that fails may have told anything that comes first. -/
theorem Tells.bind {step : InstallAction α} {next : α → InstallAction β}
    (tells : Tells (fun _ => first) i step)
    (onward : ∀ value i', step.run.run i = (.ok value, i') → Tells script i' (next value)) :
    Tells (fun plan => first ++ script plan) i (step >>= next) := by
  obtain ⟨told, events, begun, all⟩ := tells
  rw [Tells, run_bind]
  rcases ran : step.run.run i with ⟨e | value, i'⟩
  · rw [ran] at events
    exact ⟨told, events, begun.trans (List.prefix_append _ _), fun _ fine => nomatch fine⟩
  · rw [ran] at events all
    obtain rfl := all value rfl
    obtain ⟨later, events', begun', all'⟩ := onward value i' ran
    refine ⟨told ++ later, ?_, (List.prefix_append_right_inj told).mpr begun', ?_⟩
    · rw [events', events, List.append_assoc]
    · exact fun value' fine => congrArg (told ++ ·) (all' value' fine)

theorem Tells.bind_silent {step : InstallAction α} {next : α → InstallAction β}
    (silent : Tells (fun _ => []) i step)
    (onward : ∀ value i', step.run.run i = (.ok value, i') → Tells script i' (next value)) :
    Tells script i (step >>= next) :=
  silent.bind onward

theorem Tells.returning {step : InstallAction α} (tells : Tells script i step) (value : β) :
    Tells script i (step >>= fun _ => pure value) := by
  rw [Tells, run_bind]
  obtain ⟨told, events, begun, all⟩ := tells
  rcases ran : step.run.run i with ⟨e | _, i'⟩
  · rw [ran] at events begun
    exact ⟨told, events, begun, fun _ fine => nomatch fine⟩
  · rw [ran] at events begun all
    exact ⟨told, events, begun, fun _ _ => all _ rfl⟩

theorem tells_onWorld (action : Action α) : Tells (fun _ => []) i (onWorld action) := by
  refine tells_silent ?_
  rw [onWorld, run_bind, run_get]
  simp only
  rcases action.run.run i.world with ⟨e | value, w⟩ <;> rfl

theorem tells_onPlan (action : PlanAction Unit) : Tells (fun _ => []) i (onPlan action) := by
  refine tells_silent ?_
  rw [onPlan_run]
  rfl

theorem tells_ofExcept {ε : Type} (fault : ε → Fault) (result : Except ε α) :
    Tells (fun _ => []) i (ofExcept fault result) := by
  refine tells_silent ?_
  cases result <;> rfl

end Tells

variable {machine : Machine} {s : InstallSettings}

theorem loadMetadata_tells (i : Installation) :
    Tells (fun _ => [.versionLoading s.version, .versionLoaded s.version]) i (loadMetadata s) := by
  refine (tells_event (.versionLoading s.version)).bind fun _ _ _ => ?_
  refine (tells_onWorld _).bind_silent fun metadata _ _ => ?_
  exact (tells_event (.versionLoaded s.version)).bind fun _ _ _ => tells_pure metadata

theorem planJar_tells (kind : JarKind) (jar : Path) (metadata : Members) (i : Installation) :
    Tells (fun _ => [.jarFound jar]) i (planJar kind jar metadata) := by
  refine (tells_ofExcept _ _).bind_silent fun offered i' _ => ?_
  cases offered with
  | some entry => exact (tells_onPlan _).bind_silent fun _ _ _ => tells_event _
  | none =>
    refine (tells_onWorld _).bind_silent fun isThere i'' _ => ?_
    split
    · exact ⟨[], (List.append_nil _).symm, List.nil_prefix, fun _ fine => nomatch fine⟩
    · exact tells_event _

theorem planFiles_tells (metadata : Members) (i : Installation) :
    Tells (fun plan => .librariesResolving :: plan.resolved) i (planFiles machine s metadata) := by
  refine (tells_event .librariesResolving).bind fun _ _ _ => ?_
  refine (tells_onPlan _).bind_silent fun _ i' _ => ?_
  refine @tells_of_run _ _ i' _ () i'.plan.resolved ?_ rfl
  simp only [run_bind, run_get, tell, run_modify, InstallPlan.resolved]
  cases i'.plan.indexName with
  | none => rfl
  | some index => exact congrArg (fun events => (_, { i' with events })) (List.append_assoc _ _ _)

theorem prepare_tells (i : Installation) : Tells s.opening i (prepare machine s) := by
  refine (loadMetadata_tells i).bind fun metadata _ _ => ?_
  refine (planJar_tells _ _ _ _).bind fun _ i' _ => ?_
  cases s.kind with
  | client => exact (planFiles_tells metadata i').returning metadata
  | server => exact (tells_pure ()).returning metadata

theorem settle_run (batch : Batch) (i : Installation) :
    (settle batch).run.run i = (batch.verdict,
      if batch.Succeeds then { i with
        plan := { i.plan with jobs := .empty }
        events := i.events ++ [.downloadCompleted] }
      else i) := by
  by_cases succeeds : batch.Succeeds
  · have empty : batch.results.filter (·.isFailure) = [] := by
      simpa [List.filter_eq_nil_iff] using succeeds.2
    rw [if_pos succeeds, Batch.succeeds_iff.mp succeeds, settle, succeeds.1]
    simp only [if_pos empty]
    rfl
  · rw [if_neg succeeds]
    refine Prod.ext (settle_spec batch i).1 ?_
    unfold settle
    cases ended : batch.error with
    | some e => rfl
    | none =>
      have some : batch.results.filter (·.isFailure) ≠ [] := by
        intro empty
        exact succeeds ⟨ended, by simpa [List.filter_eq_nil_iff] using empty⟩
      simp only [if_neg some]
      rfl

/-- Downloads tell of every result that their batch delivers, and then that they are complete if
they are. They change nothing that their batch does not. -/
theorem download_run {i : Installation} (built : i.plan.jobs.Built) :
    let batch := i.plan.jobs.download (threadsFor machine s i.plan.jobs.entries.length)
      i.world.files i.world.network
    (download machine s).run.run i = (batch.verdict,
      { world := { i.world with files := batch.files, network := batch.network }
        plan := { i.plan with jobs := if batch.Succeeds ∧ i.plan.jobs.entries ≠ []
          then .empty else batch.list }
        events := i.events ++ s.fetching machine i.plan.jobs batch }) := by
  intro batch
  rw [download, run_bind, run_get]
  simp only [built.count]
  by_cases idle : i.plan.jobs.entries = []
  · have empty : i.plan.jobs.jobs = [] := List.map_eq_nil_iff.mp idle
    have same : i.plan.jobs.sorted = i.plan.jobs := DownloadList.sorted_eq (by simp [empty])
    have whole : batch = ⟨i.plan.jobs, [], none, i.world.files, i.world.network⟩ := by
      simp [batch, DownloadList.download, same, empty]
    rw [if_pos (by rw [idle]; rfl), if_neg fun nonempty => nonempty.2 idle, whole,
      InstallSettings.fetching, if_pos idle, List.append_nil]
    rfl
  · rw [if_neg (by simpa using idle)]
    simp only [tell, tellResults, run_bind, run_modify, settle_run, InstallSettings.fetching,
      if_neg idle, ← built.size]
    by_cases succeeds : batch.Succeeds
    · rw [if_pos succeeds, if_pos ⟨succeeds, idle⟩, if_pos succeeds]
      simp [batch]
    · rw [if_neg succeeds, if_neg fun both => succeeds both.1, if_neg succeeds]
      simp [batch]

theorem installNatives_tells (i : Installation) :
    Tells (fun _ => s.extracting i.plan.natives i.world.files) i (installNatives s) := by
  rw [Tells, installNatives, run_bind, run_get, InstallSettings.extracting]
  simp only
  by_cases none : i.plan.natives = []
  · rw [if_pos none, if_pos none]
    exact tells_pure ()
  · rw [if_neg none, if_neg none, run_bind, run_modify]
    cases (Natives.install i.world.files i.plan.natives (s.directories.natives s.version)).1 with
    | ok errors => exact ⟨_, rfl, List.prefix_rfl, fun _ _ => rfl⟩
    | error e =>
      refine ⟨[], (List.append_nil _).symm, List.nil_prefix, ?_⟩
      rintro _ ⟨⟩

theorem placeAssets_tells {i : Installation} : Tells (fun _ => []) i placeAssets := by
  refine (tells_silent rfl).bind_silent fun got i' _ => ?_
  simp only
  split
  · exact tells_onWorld _
  · exact tells_pure _

theorem clientEnvironment_tells {i : Installation} (metadata : Members) :
    Tells (fun _ => []) i (clientEnvironment machine s metadata) := by
  refine (tells_onWorld _).bind_silent fun _ i₁ _ => ?_
  refine (tells_silent rfl).bind_silent fun _ i₂ _ => ?_
  refine (tells_ofExcept _ _).bind_silent fun versionType i₃ _ => ?_
  exact (tells_ofExcept _ _).bind_silent fun arguments i₄ _ => tells_pure _

theorem serverEnvironment_tells {i : Installation} :
    Tells (fun _ => [.eulaWritten (s.jar.parent / "eula.txt")]) i (serverEnvironment s) := by
  refine (tells_onWorld _).bind_silent fun _ i₁ _ => ?_
  exact (tells_event _).returning _

/-- What follows the downloads tells of the archives, if their extraction is not cut short. -/
theorem finish_tells (metadata : Members) (i : Installation) :
    Tells (fun _ => s.closing i.plan.natives i.world.files) i (finish machine s metadata) := by
  refine (installNatives_tells i).bind fun _ _ _ => ?_
  refine placeAssets_tells.bind_silent fun _ _ _ => ?_
  cases s.kind with
  | client => exact clientEnvironment_tells metadata
  | server => exact serverEnvironment_tells

end Installation

namespace InstallCall
variable (c : InstallCall) (files : FileTree)

/-- The batch of the downloads that are planned. -/
def batch : Batch :=
  let i := (c.prepared files).2
  i.plan.jobs.download (Installation.threadsFor c.machine c.settings i.plan.jobs.entries.length)
    i.world.files i.world.network

/-- All that a call may tell. When its batch fails there is nothing left to tell. -/
def protocol : List InstallEvent :=
  let plan := (c.prepared files).2.plan
  let batch := c.batch files
  c.settings.opening plan ++ c.settings.fetching c.machine plan.jobs batch ++
    if batch.Succeeds then c.settings.closing plan.natives batch.files else []

/-- The installation when its batch is over. -/
def downloaded : Installation :=
  let i := (c.prepared files).2
  let batch := c.batch files
  { world := { i.world with files := batch.files, network := batch.network }
    plan := { i.plan with jobs := if batch.Succeeds ∧ i.plan.jobs.entries ≠ []
      then .empty else batch.list }
    events := c.settings.opening i.plan ++ c.settings.fetching c.machine i.plan.jobs batch }

variable {c files} {metadata : Members} {i : Installation}

theorem prepared_events : (c.prepared files).2.events <+: c.settings.opening
      (c.prepared files).2.plan ∧
    ∀ metadata, (c.prepared files).1 = .ok metadata →
      (c.prepared files).2.events = c.settings.opening (c.prepared files).2.plan := by
  have tells : Installation.Tells c.settings.opening (.start (c.world files))
    (Installation.prepare c.machine c.settings) := Installation.prepare_tells _
  obtain ⟨told, events, begun, all⟩ := tells
  have same : (c.prepared files).2.events = told := events.trans (List.nil_append _)
  rw [same]
  exact ⟨begun, all⟩

/-- A call that is prepared ends with its batch, or goes on if that succeeds. -/
theorem run_prepared (preparation : c.prepared files = (.ok metadata, i)) :
    c.run files = match (c.batch files).verdict with
      | .error e => (.error e, c.downloaded files)
      | .ok () => (Installation.finish c.machine c.settings metadata).run.run
          (c.downloaded files) := by
  have prepared : (Installation.prepare c.machine c.settings).run.run (.start (c.world files)) =
    (.ok metadata, i) := preparation
  have built : i.plan.jobs.Built := (sound_of_prepared preparation).built
  have opened : i.events = c.settings.opening i.plan := by
    have all := (@prepared_events c files).2
    rw [preparation] at all
    exact all metadata rfl
  have downloaded : (Installation.download c.machine c.settings).run.run i =
      ((c.batch files).verdict, c.downloaded files) := by
    rw [Installation.download_run built, InstallCall.downloaded, batch, preparation, opened]
  unfold run install Installation.steps
  rw [run_bind, prepared]
  simp only
  rw [run_bind, downloaded]
  cases (c.batch files).verdict <;> rfl

theorem run_unprepared {e : Fault} (preparation : c.prepared files = (.error e, i)) :
    c.run files = (.error e, i) := by
  rcases c.run_cases files with ⟨e', i', same, ran⟩ | ⟨metadata, i', threads, i'', same, _⟩
  · rw [same] at preparation
    cases preparation
    exact ran
  · cases preparation.symm.trans same

theorem run_events :
    (c.run files).2.events <+: c.protocol files ∧
      ∀ environment, (c.run files).1 = .ok environment →
        (c.run files).2.events = c.protocol files := by
  rcases preparation : c.prepared files with ⟨e | metadata, i⟩
  · obtain ⟨begun, -⟩ := @prepared_events c files
    rw [run_unprepared preparation, protocol, List.append_assoc]
    rw [preparation] at begun ⊢
    exact ⟨begun.trans (List.prefix_append _ _), fun _ fine => nomatch fine⟩
  · rw [run_prepared preparation, protocol]
    by_cases succeeds : (c.batch files).Succeeds
    · rw [Batch.succeeds_iff.mp succeeds, if_pos succeeds]
      have tells : Installation.Tells
          (fun _ => c.settings.closing (c.downloaded files).plan.natives
            (c.downloaded files).world.files) (c.downloaded files)
          (Installation.finish c.machine c.settings metadata) := Installation.finish_tells _ _
      obtain ⟨told, events, begun, all⟩ := tells
      simp only [events]
      refine ⟨(List.prefix_append_right_inj _).mpr begun, fun environment fine => ?_⟩
      rw [all environment fine]
      rfl
    · rw [if_neg succeeds, List.append_nil]
      cases verdict : (c.batch files).verdict with
      | ok => exact absurd (Batch.succeeds_iff.mpr verdict) succeeds
      | error e => exact ⟨List.prefix_rfl, fun _ fine => nomatch fine⟩

theorem run_downloads_iff {failed : List DownloadResult} :
    (c.run files).1 = .error (.downloads failed) ↔
      (∃ metadata, (c.prepared files).1 = .ok metadata) ∧ (c.batch files).error = none ∧
        failed = (c.batch files).results.filter (·.isFailure) ∧ failed ≠ [] := by
  rw [← Batch.verdict_eq_downloads]
  rcases preparation : c.prepared files with ⟨e | metadata, i⟩
  · rw [run_unprepared preparation]
    have other := (c.prepared_spec files).2.1 e (by rw [preparation])
    constructor
    · rintro ⟨⟩
      exact absurd trivial other
    · rintro ⟨⟨_, ⟨⟩⟩, _⟩
  · rw [run_prepared preparation]
    cases verdict : (c.batch files).verdict with
    | error e =>
      constructor
      · rintro ⟨⟩
        exact ⟨⟨metadata, rfl⟩, rfl⟩
      · rintro ⟨_, ⟨⟩⟩
        rfl
    | ok =>
      refine iff_of_false (fun failing => ?_) fun ⟨_, same⟩ => nomatch same
      have completes : Installation.Completes (c.downloaded files).world.files
          (c.downloaded files).results (Installation.finish c.machine c.settings metadata) :=
        Installation.finish_completes _ _ _
      exact (completes (c.downloaded files) ⟨.refl _ _, rfl⟩).2 _ failing trivial

/-- The plan of a client has an assets index exactly if the metadata name one. -/
theorem indexName_eq_none (client : c.settings.kind = .client)
    (preparation : c.prepared files = (.ok metadata, i)) :
    i.plan.indexName = none ↔ metadata.getD "assetIndex" = .null := by
  obtain ⟨_, inventory, _, _, _, listed, _, plan⟩ :=
    Installation.prepare_ok client preparation
  have assets := listed.assets
  rw [plan, Inventory.record]
  cases named : inventory.assets with
  | none =>
    rw [named] at assets
    exact iff_of_true (by simp [InstallPlan.ofJobs]) assets
  | some list =>
    rw [named] at assets
    obtain ⟨⟨info, object⟩, -⟩ := assets
    exact iff_of_false (by simp) (by simp [object])

/-- A call tells the first events of its protocol, and all of them if it returns. It fails with the
failed downloads of its batch, in the order of their results, exactly if there are some and nothing
else ended the batch, which otherwise has a result for every entry. After a batch that failed in
any way there is nothing but what it left: no archive is extracted, no asset copied, and no command
line given. -/
theorem run_follows_protocol (c : InstallCall) (files : FileTree) :
    let i := (c.prepared files).2
    let batch := c.batch files
    ((c.run files).2.events <+: c.protocol files ∧
      ∀ environment, (c.run files).1 = .ok environment →
        (c.run files).2.events = c.protocol files) ∧
    (batch.delivered.map (·.1) = List.range' 1 batch.results.length ∧
      batch.delivered.map (·.2) = batch.results ∧
      (batch.error = none → (batch.results.map (·.entry)).Perm i.plan.jobs.entries)) ∧
    (∀ failed, (c.run files).1 = .error (.downloads failed) ↔
      (∃ metadata, (c.prepared files).1 = .ok metadata) ∧ batch.error = none ∧
        failed = batch.results.filter (·.isFailure) ∧ failed ≠ []) ∧
    ∀ metadata, (c.prepared files).1 = .ok metadata →
      (c.settings.kind = .client →
        (i.plan.indexName = none ↔ metadata.getD "assetIndex" = .null)) ∧
      (batch.error ≠ none ∨ (∃ result ∈ batch.results, result.isFailure) →
        ∃ e, c.run files = (.error e,
          { world := { i.world with files := batch.files, network := batch.network }
            plan := { i.plan with jobs := batch.list }
            events := c.settings.opening i.plan ++
              c.settings.fetching c.machine i.plan.jobs batch })) := by
  intro i batch
  refine ⟨run_events, ⟨batch.delivered_numbers, batch.delivered_results, ?_⟩,
    fun failed => run_downloads_iff, fun metadata fine => ⟨fun client => ?_, fun failing => ?_⟩⟩
  · exact DownloadList.download_results_perm
  · exact indexName_eq_none client (Prod.ext fine rfl)
  · have fails : ¬ batch.Succeeds := by
      rintro ⟨none, successes⟩
      rcases failing with some | ⟨result, member, failed⟩
      · exact some none
      · exact Bool.false_ne_true ((successes result member).symm.trans failed)
    rw [run_prepared (Prod.ext fine rfl)]
    cases verdict : (c.batch files).verdict with
    | ok => exact absurd (Batch.succeeds_iff.mpr verdict) fails
    | error e =>
      refine ⟨e, ?_⟩
      simp only [downloaded]
      rw [if_neg fun both => fails both.1]

end InstallCall
end Launcher
