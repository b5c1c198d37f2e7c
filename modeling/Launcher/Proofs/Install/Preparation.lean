import Launcher.Install.Steps
import Launcher.Proofs.Install.Planning
import Launcher.Proofs.World

/-! What an installation has come to before its downloads begin: a sound plan that covers the
program of the version as well. -/
namespace Launcher

/-- The result that an event tells. -/
def InstallEvent.result? : InstallEvent → Option DownloadResult
  | .downloadProgress _ result => some result
  | _ => none

/-- The results of downloads that were told, in order. -/
def Installation.results (i : Installation) : List DownloadResult :=
  i.events.filterMap InstallEvent.result?

/-- The files that planning may write: those of the index of versions, of the metadata and of the
assets index. -/
def InstallSettings.documents (s : InstallSettings) (index : VersionIndex) : List Path :=
  index.cache.toList ++ [s.directories.metadataFile s.version,
    s.directories.assets / "indexes" / (s.version ++ ".json")]

namespace Installation
variable {places : Location → Prop} {start : World} {needed : List Path} {α : Type}

/-- An installation with a sound plan that has told no result. -/
structure Prepared (places : Location → Prop) (start : World) (needed : List Path)
    (i : Installation) : Prop where
  sound : Planning.Sound places start needed ⟨i.world, i.plan⟩
  quiet : i.results = []

/-- A step that leaves sound plans, and does not fail as downloads do. -/
def Prepares (places : Location → Prop) (start : World) (needed : List Path)
    (step : InstallAction α) : Prop :=
  Safe (Prepared places start needed) (fun e => ¬ e.IsDownloads) step

theorem results_append (i : Installation) (events : List InstallEvent) :
    results { i with events := i.events ++ events } =
      i.results ++ events.filterMap InstallEvent.result? :=
  List.filterMap_append

theorem tell_prepares {event : InstallEvent} (silent : event.result? = none) :
    Prepares places start needed (tell event) := by
  refine .modify fun i prepared => ⟨prepared.sound, ?_⟩
  rw [results_append, prepared.quiet]
  simp [silent]

/-- An action on the world is as safe for the installation as it is for the world. -/
theorem onWorld_safe {P : Installation → Prop} {E : Fault → Prop} {action : Action α}
    (safe : ∀ i, P i → P { i with world := (action.run.run i.world).2 } ∧
      ∀ e, (action.run.run i.world).1 = .error e → E e) : Safe P E (onWorld action) := by
  refine .get_bind fun i before => ?_
  obtain ⟨kept, kind⟩ := safe i before
  generalize action.run.run i.world = outcome at kept kind ⊢
  obtain ⟨result, world⟩ := outcome
  simp only [run_bind, run_set]
  rcases result with e | value
  · exact ⟨kept, fun e' failed => by cases failed; exact kind _ rfl⟩
  · exact ⟨kept, fun e failed => nomatch failed⟩

theorem onWorld_prepares {action : Action α}
    (within : ∀ w, w.index.cache = start.index.cache → Action.Within places w action) :
    Prepares places start needed (onWorld action) := by
  refine onWorld_safe fun i prepared => ?_
  obtain ⟨derives, kind⟩ := within i.world prepared.sound.world.cache i.world (.refl places _)
  exact ⟨⟨prepared.sound.onWorld derives, prepared.quiet⟩, kind⟩

theorem onPlan_run (action : PlanAction Unit) (i : Installation) :
    (onPlan action).run.run i =
      match action.run.run ⟨i.world, i.plan⟩ with
      | (result, planning) =>
        (result, { i with world := planning.world, plan := planning.plan }) := by
  rw [onPlan, run_bind, run_get]
  simp only
  rcases action.run.run ⟨i.world, i.plan⟩ with ⟨e | value, planning⟩ <;> rfl

theorem onPlan_prepares {action : PlanAction Unit}
    (plans : InstallPlan.Plans places start needed action) :
    Prepares places start needed (onPlan action) := by
  intro i prepared
  obtain ⟨sound, kind⟩ := plans ⟨i.world, i.plan⟩ prepared.sound
  rw [onPlan_run]
  exact ⟨⟨sound, prepared.quiet⟩, kind⟩

theorem ofExcept_safe {P : Installation → Prop} {E : Fault → Prop} {ε : Type} {fault : ε → Fault}
    {result : Except ε α} (kind : ∀ e, E (fault e)) : Safe P E (ofExcept fault result) := by
  cases result with
  | ok value => exact .pure value
  | error e => exact .throw (kind e)

theorem parse_destination {v : Json} {destination : Path} {place : Place} {entry : DownloadEntry}
    (h : DownloadEntry.parse v destination place = .ok entry) :
    entry.destination = destination := by
  obtain ⟨members, _, h⟩ := bind_ok h
  obtain ⟨url, _, h⟩ := bind_ok h
  obtain ⟨size, _, h⟩ := bind_ok h
  obtain ⟨sha1, _, h⟩ := bind_ok h
  cases h
  rfl

theorem jarEntry_destination {kind : JarKind} {jar : Path} {metadata : Members}
    {entry : DownloadEntry} (h : jarEntry kind jar metadata = .ok (some entry)) :
    entry.destination = jar := by
  unfold jarEntry at h
  split at h
  · cases h
  · obtain ⟨downloads, _, h⟩ := bind_ok h
    split at h
    · cases h
    · obtain ⟨parsed, read, h⟩ := bind_ok h
      cases h
      exact parse_destination read

theorem planJar_prepares (kind : JarKind) (jar : Path) (metadata : Members) :
    Prepares places start needed (planJar kind jar metadata) := by
  refine .bind (ofExcept_safe fun _ => id) fun found => ?_
  split
  · exact .bind (onPlan_prepares (InstallPlan.require_plans _)) fun _ => tell_prepares rfl
  · refine .bind (onWorld_prepares fun w _ => Action.inspect_within _ fun _ => id) fun isThere => ?_
    split
    · exact .bind (.throw id) fun _ => tell_prepares rfl
    · exact tell_prepares rfl

theorem inspect_run {ε : Type} (fault : ε → Fault) (look : FileTree → Except ε α)
    (i : Installation) :
    (onWorld (Action.inspect fault look)).run.run i =
      ((look i.world.files).mapError fault, i) := by
  rw [onWorld, run_bind, run_get]
  simp only [Action.inspect, run_bind, run_get]
  cases look i.world.files <;> rfl

theorem require_gives (entry : DownloadEntry) :
    Gives (Prepared places start needed) (onPlan (InstallPlan.require entry))
      fun _ => Prepared places start (entry.destination :: needed) := by
  intro i prepared value i' ended
  rw [onPlan_run, InstallPlan.require_run] at ended
  rcases added : i.plan.jobs.add i.world.files entry true with e | ⟨new, jobs⟩
  · simp only [added] at ended
    cases ended
  · simp only [added] at ended
    cases ended
    exact ⟨prepared.sound.add added, prepared.quiet⟩

theorem inspect_gives {ε : Type} (fault : ε → Fault) (look : FileTree → Except ε α) :
    Gives (Prepared places start needed) (onWorld (Action.inspect fault look))
      fun value i => Prepared places start needed i ∧ look i.world.files = .ok value := by
  intro i prepared value i' ended
  rw [inspect_run] at ended
  cases looked : look i.world.files with
  | error e =>
    rw [looked] at ended
    cases ended
  | ok seen =>
    rw [looked] at ended
    cases ended
    exact ⟨prepared, looked⟩

theorem planJar_gives (kind : JarKind) (jar : Path) (metadata : Members) :
    Gives (Prepared places start needed) (planJar kind jar metadata)
      fun _ => Prepared places start (jar :: needed) := by
  rw [planJar]
  rcases offered : jarEntry kind jar metadata with e | _ | entry
  · rintro i _ value i' ended
    cases ended
  · rw [ofExcept, pure_bind]
    refine .bind (inspect_gives Fault.system _) fun isThere => ?_
    split
    · rintro i _ value i' ended
      cases ended
    · rename_i there
      rintro i ⟨prepared, looked⟩
      have present : i.world.files.HasFile jar := looked.trans (by simpa using there)
      exact (tell_prepares rfl).gives i ⟨prepared.sound.cover (.inr present), prepared.quiet⟩
  · have goes := jarEntry_destination offered
    rw [ofExcept, pure_bind]
    refine .bind (require_gives entry) fun _ => ?_
    rw [goes]
    exact (tell_prepares rfl).gives

section Prepare
variable {machine : Machine} {s : InstallSettings}

variable (written : ∀ file ∈ s.documents start.index, places file.location)
include written

theorem loadMetadata_prepares : Prepares places start needed (loadMetadata s) := by
  refine .bind (tell_prepares rfl) fun _ => .bind (onWorld_prepares fun w same => ?_) fun data =>
    .bind (tell_prepares rfl) fun _ => .pure _
  refine VersionIndex.metadata_within ?_ _ (written _ (by simp [InstallSettings.documents]))
  intro file kept
  exact written file (by simp [InstallSettings.documents, ← same, Option.mem_def.mp kept])

theorem planFiles_prepares (metadata : Members) :
    Prepares places start needed (planFiles machine s metadata) := by
  refine .bind (tell_prepares rfl) fun _ => .bind (onPlan_prepares ?_) fun _ => .bind .get fun i =>
    .bind (tell_prepares rfl) fun _ => ?_
  · exact InstallPlan.planAll_plans _ _ _ _ (written _ (by simp [InstallSettings.documents]))
  · split
    · exact tell_prepares rfl
    · exact .pure _

theorem prepare_prepares : Prepares places start needed (prepare machine s) := by
  refine .bind (loadMetadata_prepares written) fun metadata => ?_
  refine .bind (planJar_prepares _ _ _) fun _ => ?_
  cases s.kind with
  | client => exact .bind (planFiles_prepares written metadata) fun _ => .pure _
  | server => exact .pure _

/-- The program is covered when the preparation has ended well. -/
theorem prepare_gives : Gives (Prepared places start needed) (prepare machine s)
    fun _ => Prepared places start (s.jar :: needed) := by
  refine .bind (loadMetadata_prepares written).gives fun metadata => ?_
  refine .bind (planJar_gives _ _ _) fun _ => ?_
  cases s.kind with
  | client => exact .bind (planFiles_prepares written metadata).gives fun _ => .pure fun _ => id
  | server => exact .pure fun _ => id

end Prepare
end Installation
end Launcher
