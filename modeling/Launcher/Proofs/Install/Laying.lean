import Launcher.Proofs.Install.Layout
import Launcher.Proofs.Install.Preparation

/-! Where the files of a plan lie. Downloads go to no document of the version, archives lie below
the directory of natives, and assets are copied below one directory, if at all. -/
namespace Launcher

open Launcher.Path (LeadsDown)

/-- The places of what is planned so far. -/
structure Planning.Laid (settings : InstallSettings) (s : Planning) : Prop where
  destinations : ∀ p ∈ s.plan.jobs.destinations, ¬ settings.IsDocument p.location
  natives : ∀ p ∈ s.plan.natives,
    settings.kind = .client ∧ ∃ path, LeadsDown path ∧ p = settings.natives / path
  virtualDir : ∀ directory ∈ s.plan.virtualDir, directory = settings.virtual

namespace InstallPlan
variable {α : Type} {settings : InstallSettings}

/-- A planning action that keeps the places. -/
def Lays (settings : InstallSettings) (action : PlanAction α) : Prop :=
  Safe (Planning.Laid settings) (fun _ => True) action

theorem require_lays {entry : DownloadEntry}
    (free : ¬ settings.IsDocument entry.destination.location) : Lays settings (require entry) := by
  intro s laid
  rw [require_run]
  rcases added : s.plan.jobs.add s.world.files entry true with e | ⟨new, jobs⟩
  · exact ⟨laid, fun _ _ => trivial⟩
  · refine ⟨⟨?_, laid.natives, laid.virtualDir⟩, fun _ _ => trivial⟩
    rcases DownloadList.add_cases added with ⟨rfl, _⟩ | ⟨_, _, target, rfl⟩
    · exact laid.destinations
    · intro p member
      rcases List.mem_append.mp member with old | new
      · exact laid.destinations p old
      · rwa [List.mem_singleton.mp new]

theorem onWorld_lays (action : Action α) : Lays settings (onWorld action) := by
  refine .get_bind fun s laid => ?_
  obtain ⟨result, world⟩ := action.run.run s.world
  simp only [run_bind, run_set]
  cases result with
  | error e => exact ⟨⟨laid.destinations, laid.natives, laid.virtualDir⟩, fun _ _ => trivial⟩
  | ok value => exact ⟨⟨laid.destinations, laid.natives, laid.virtualDir⟩, fun _ _ => trivial⟩

theorem AssetObject.parse_ok {v : Json} {place : Place} {object : AssetObject}
    (parsed : AssetObject.parse v place = .ok object) : isSha1 object.hash := by
  obtain ⟨members, _, parsed⟩ := bind_ok parsed
  simp only at parsed
  split at parsed
  · split at parsed
    · rename_i digest
      obtain ⟨hash, same, parsed⟩ := bind_ok parsed
      obtain ⟨size, _, parsed⟩ := bind_ok parsed
      cases same
      cases parsed
      exact digest
    · obtain ⟨_, fault, _⟩ := bind_ok parsed
      cases fault
  · obtain ⟨_, fault, _⟩ := bind_ok parsed
    cases fault

variable (down : LeadsDown settings.version)
include down

theorem planLibrary_lays (client : settings.kind = .client) {library : Library}
    (inside : LeadsDown library.path) :
    Lays settings (planLibrary settings.directories.libraries settings.natives library) := by
  refine .bind (require_lays ?_) fun _ => .modify fun s laid => ?_
  · simp only
    split
    · rw [inside.location]
      exact (InstallSettings.native_not_isDocument down _).1
    · exact InstallSettings.library_not_isDocument down inside
  · simp only
    split
    · refine ⟨laid.destinations, fun p member => ?_, laid.virtualDir⟩
      rcases mem_list member with rfl | old
      · exact ⟨client, library.path, inside, rfl⟩
      · exact laid.natives p old
    · exact ⟨laid.destinations, laid.natives, laid.virtualDir⟩

theorem planAllowed_lays (client : settings.kind = .client) (platform : Platform)
    (features : Features) {libraries : List Library}
    (inside : ∀ library ∈ libraries, LeadsDown library.path) :
    Lays settings (planAllowed platform features settings.directories.libraries settings.natives
      libraries) := by
  induction libraries with
  | nil => exact .pure _
  | cons library rest ih =>
    have others := ih fun other listed => inside other (List.mem_cons_of_mem _ listed)
    unfold planAllowed
    split
    · exact .throw_bind trivial
    · exact .bind (planLibrary_lays down client (inside library List.mem_cons_self)) fun _ => others
    · exact others

theorem planObjects_lays (resources : String) (place : Place) (objects : List (String × Json)) :
    Lays settings (planObjects (settings.directories.assets / "objects") resources place
      objects) := by
  induction objects with
  | nil => exact .pure _
  | cons object rest ih =>
    obtain ⟨id, v⟩ := object
    unfold planObjects
    split
    · exact .throw_bind trivial
    · rename_i object parsed
      refine .bind (require_lays ?_) fun _ => .bind (.modify fun s laid => ?_) fun _ => ih
      · exact InstallSettings.object_not_isDocument down (AssetObject.parse_ok parsed)
      · exact ⟨laid.destinations, laid.natives, laid.virtualDir⟩

theorem planAssets_lays (metadata : Members) (resources : String) :
    Lays settings
      (planAssets metadata settings.directories.assets settings.version resources) := by
  unfold planAssets
  split
  · exact .pure _
  · split
    · exact .throw trivial
    · refine .bind (onWorld_lays _) fun index => ?_
      simp only
      split
      · exact .throw trivial
      · refine .bind (planObjects_lays down _ _ _) fun _ => .modify fun s laid => ?_
        refine ⟨laid.destinations, laid.natives, fun directory member => ?_⟩
        simp only at member
        split at member
        · cases member
          rfl
        · exact laid.virtualDir directory member

/-- Planning keeps the places if libraries have paths that lead down. -/
theorem planAll_lays (client : settings.kind = .client) (platform : Platform)
    (features : Features) {metadata : Members} (resources : String)
    (inside : ∀ libraries, Library.parseAll platform metadata = .ok libraries →
      ∀ library ∈ libraries, LeadsDown library.path) :
    Lays settings (planAll platform features metadata settings.directories settings.version
      resources) := by
  refine .bind ?_ fun _ => planAssets_lays down _ _
  unfold planLibraries
  split
  · exact .throw trivial
  · exact planAllowed_lays down client _ _ (inside _ ‹_›)

end InstallPlan

namespace Installation
variable {settings : InstallSettings} {machine : Machine}

/-- A step that keeps the places. -/
def Lays {α : Type} (settings : InstallSettings) (step : InstallAction α) : Prop :=
  Safe (fun i => Planning.Laid settings ⟨i.world, i.plan⟩) (fun _ => True) step

theorem tell_lays (event : InstallEvent) : Lays settings (tell event) :=
  .modify fun _ laid => laid

theorem onPlan_lays {action : PlanAction Unit} (lays : InstallPlan.Lays settings action) :
    Lays settings (onPlan action) := by
  intro i laid
  rw [onPlan_run]
  exact lays ⟨i.world, i.plan⟩ laid

theorem onWorld_lays {α : Type} (action : Action α) : Lays settings (onWorld action) :=
  onWorld_safe fun _ laid =>
    ⟨⟨laid.destinations, laid.natives, laid.virtualDir⟩, fun _ _ => trivial⟩

variable (down : LeadsDown settings.version)
include down

theorem planJar_lays (metadata : Members) :
    Lays settings (planJar settings.kind settings.jar metadata) := by
  rw [planJar]
  rcases offered : jarEntry settings.kind settings.jar metadata with e | _ | entry
  · exact .throw_bind trivial
  · rw [ofExcept, pure_bind]
    refine .bind (onWorld_lays _) fun isThere => ?_
    split
    · exact .throw_bind trivial
    · exact tell_lays _
  · rw [ofExcept, pure_bind]
    refine .bind (onPlan_lays (InstallPlan.require_lays ?_)) fun _ => tell_lays _
    rw [jarEntry_destination offered]
    exact InstallSettings.jar_not_isDocument down

theorem planFiles_lays (client : settings.kind = .client) {metadata : Members}
    (inside : ∀ libraries, Library.parseAll machine.platform metadata = .ok libraries →
      ∀ library ∈ libraries, LeadsDown library.path) :
    Lays settings (planFiles machine settings metadata) := by
  refine .bind (tell_lays _) fun _ => .bind (onPlan_lays ?_) fun _ => .bind .get fun i =>
    .bind (tell_lays _) fun _ => ?_
  · exact InstallPlan.planAll_lays down client _ _ _ inside
  · split
    · exact tell_lays _
    · exact .pure _

end Installation
end Launcher
