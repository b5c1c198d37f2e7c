import Launcher.Proofs.Archive.Repetition
import Launcher.Proofs.Install.Placement
import Launcher.Proofs.Install.Replanning

/-! What becomes of the files when the downloads are over. Archives are extracted and assets are
copied beside the files that were downloaded, and of the copies that go to one place the last one
stays. Where all of this was done before it is done again without a fault, and the command line is
the same. -/
namespace Launcher

namespace Installation

section Again
variable {α : Type} {kept : Location → Prop} {later : World} {i : Installation}

/-- A step after the downloads goes as before in a world that has what it came to. -/
def Refinishes (kept : Location → Prop) (later : World) (step : InstallAction α)
    (i : Installation) : Prop :=
  Repeats (fun _ => False) (fun i => i.world.LeadsTo kept later)
    (Resembles (World.GoesOn kept later)) step i

theorem tell_refinishes {event : InstallEvent} (silent : ¬ event.StartsDownload) :
    Refinishes kept later (tell event) i :=
  .modify id fun _ _ resembles => resembles.tell silent

theorem onWorld_run (action : Action α) (i : Installation) :
    (onWorld action).run.run i = match action.run.run i.world with
      | (result, world) => (result, { i with world }) := by
  rw [onWorld, run_bind, run_get]
  simp only
  obtain ⟨result, world⟩ := action.run.run i.world
  cases result <;> rfl

theorem onWorld_ok {action : Action α} {i' : Installation} {value : α}
    (h : (onWorld action).run.run i = (.ok value, i')) :
    action.run.run i.world = (.ok value, i'.world) ∧ i'.plan = i.plan := by
  rw [onWorld_run] at h
  rcases acted : action.run.run i.world with ⟨result, world⟩
  rw [acted] at h
  cases h
  exact ⟨rfl, rfl⟩

theorem onWorld_refinishes {action : Action α}
    (redoes : Action.Redoes kept later action i.world) :
    Refinishes kept later (onWorld action) i := by
  have ran := onWorld_run action i
  rcases acted : action.run.run i.world with ⟨result, world⟩
  rw [acted] at ran
  rw [Refinishes, Repeats.iff_of_run ran]
  intro fine before
  obtain ⟨began, again⟩ := (Repeats.iff_of_run acted).mp redoes fine before
  refine ⟨began, ?_⟩
  intro j resembles
  obtain ⟨w, acted', goes⟩ := again j.world resembles.world
  exact ⟨{ j with world := w }, by rw [onWorld_run, acted'], goes, resembles.plan, resembles.quiet⟩

theorem copyAssets_redoes {directory : Path} {assets : List (String × Path)}
    (free : ∀ asset ∈ assets, ¬ kept (directory / asset.1).location) {w : World} :
    Action.Redoes kept later (copyAssets directory assets) w := by
  induction assets generalizing w with
  | nil => exact .pure _
  | cons asset rest ih =>
    obtain ⟨id, file⟩ := asset
    have place : ¬ kept (directory / id).location := free (id, file) List.mem_cons_self
    refine .bind (Action.makeDirectories_redoes _) fun _ _ _ =>
      .bind (Action.copy_redoes place) fun _ _ _ => ?_
    exact ih fun asset listed => free asset (List.mem_cons_of_mem _ listed)

theorem placeAssets_refinishes
    (free : ∀ directory ∈ i.plan.virtualDir, ∀ asset ∈ i.plan.assets,
      ¬ kept (directory / asset.1).location) : Refinishes kept later placeAssets i := by
  refine .get_bind (fun j resembles => by rw [resembles.plan]) ?_
  simp only
  split
  · exact onWorld_refinishes (copyAssets_redoes (free _ ‹_›))
  · exact .pure _

theorem clientEnvironment_refinishes (machine : Machine) (s : InstallSettings)
    (metadata : Members) :
    Refinishes kept later (clientEnvironment machine s metadata) i := by
  refine .bind (onWorld_refinishes (Action.makeDirectories_redoes _)) fun _ _ _ => ?_
  refine .get_bind (fun j resembles => by rw [resembles.plan]) ?_
  exact .bind (ofExcept_repeats _ _) fun _ _ _ => .bind (ofExcept_repeats _ _) fun _ _ _ =>
    .pure _

theorem serverEnvironment_refinishes {s : InstallSettings}
    (free : ¬ kept (s.jar.parent / "eula.txt").location) :
    Refinishes kept later (serverEnvironment s) i :=
  .bind (onWorld_refinishes (Action.writeBelow_redoes _ free)) fun _ _ _ =>
    .bind (tell_refinishes id) fun _ _ _ => .pure _

theorem installNatives_run (s : InstallSettings) (i : Installation) :
    (installNatives s).run.run i = if i.plan.natives = [] then (.ok (), i)
      else match Natives.install i.world.files i.plan.natives s.natives with
        | (.ok errors, files) => (.ok (), { i with
            world := { i.world with files }
            events := i.events ++ [.nativesInstalled i.plan.natives.length errors] })
        | (.error e, files) =>
          (.error (.ofExtraction e), { i with world := { i.world with files } }) := by
  rw [installNatives, run_bind, run_get]
  simp only
  split
  · rfl
  · rw [run_bind, run_modify, InstallSettings.natives]
    obtain ⟨e | errors, files⟩ :=
      Natives.install i.world.files i.plan.natives (s.directories.natives s.version) <;> rfl

theorem installNatives_refinishes {s : InstallSettings}
    (present : ∀ archive ∈ i.plan.natives, i.world.files.HasFile archive ∧ kept archive.location)
    (apart : ∀ name, Natives.Extracts i.world.files i.plan.natives s.natives name →
      ¬ kept (s.natives / name).location) :
    Refinishes kept later (installNatives s) i := by
  have ran := installNatives_run s i
  split at ran
  · rename_i none
    rw [Refinishes, Repeats.iff_of_run ran]
    refine fun _ before => ⟨before, fun j resembles => ⟨j, ?_, resembles⟩⟩
    rw [installNatives_run, resembles.plan, if_pos none]
  · rename_i some
    rcases ended : Natives.install i.world.files i.plan.natives s.natives with ⟨e | errors, files⟩
    · rw [ended] at ran
      exact .of_fault (by rw [ran]) id
    · rw [ended] at ran
      rw [Refinishes, Repeats.iff_of_run ran]
      intro _ before
      obtain ⟨began, again⟩ := Natives.install_again present apart ended before.files
      refine ⟨⟨began, before.index⟩, ?_⟩
      intro j resembles
      obtain ⟨files', ended', follows⟩ := again j.world.files resembles.world.files
      let event := InstallEvent.nativesInstalled i.plan.natives.length errors
      have silent : ¬ event.StartsDownload := id
      refine ⟨{ j with world := { j.world with files := files' }, events := j.events ++ [event] },
        ?_, ⟨follows, resembles.world.network⟩, resembles.plan, (resembles.tell silent).quiet⟩
      rw [installNatives_run, resembles.plan, if_neg some, ended']

/-- What follows the downloads goes as before where its files are there, if no archive and nothing
else that is to be kept is written over. -/
theorem finish_refinishes (machine : Machine) {s : InstallSettings} (metadata : Members)
    (present : ∀ archive ∈ i.plan.natives, i.world.files.HasFile archive ∧ kept archive.location)
    (apart : ∀ name, Natives.Extracts i.world.files i.plan.natives s.natives name →
      ¬ kept (s.natives / name).location)
    (copies : ∀ directory ∈ i.plan.virtualDir, ∀ asset ∈ i.plan.assets,
      ¬ kept (directory / asset.1).location)
    (licence : s.kind = .server → ¬ kept (s.jar.parent / "eula.txt").location) :
    Refinishes kept later (finish machine s metadata) i := by
  refine .bind (installNatives_refinishes present apart) fun _ i₁ ran => ?_
  have plan : i₁.plan = i.plan := by
    rw [installNatives_run] at ran
    split at ran
    · cases ran
      rfl
    · split at ran
      · cases ran
        rfl
      · cases ran
  rw [← plan] at copies
  refine .bind (placeAssets_refinishes copies) fun _ _ _ => ?_
  cases kind : s.kind with
  | client => exact clientEnvironment_refinishes machine s metadata
  | server => exact serverEnvironment_refinishes (licence kind)

end Again
end Installation

open Launcher.Path (LeadsDown)

/-- At the path of each asset in a directory there is a copy of an object: of that of the last asset
that has this path. -/
def FileTree.HoldsCopies (tree : FileTree) (directory : Path) (assets : List (String × Path)) :
    Prop :=
  ∀ asset ∈ assets, ∃ last content,
    assets.reverse.find? (fun other => directory / other.1 == directory / asset.1) = some last ∧
      tree.read last.2 = .ok content ∧ tree.read (directory / asset.1) = .ok content

theorem FileTree.HoldsCopies.mono {a b : FileTree} {directory : Path}
    {assets : List (String × Path)} (holds : a.HoldsCopies directory assets)
    (retains : a.Retains (fun _ => True) b) : b.HoldsCopies directory assets := by
  intro asset member
  obtain ⟨last, content, found, source, copy⟩ := holds asset member
  exact ⟨last, content, found, retains.read trivial source, retains.read trivial copy⟩

namespace Installation

section Copying
variable {directory : Path} {w w' : World}

/-- The first asset is copied, and then the others. -/
theorem copyAssets_cons_ok {id : String} {file : Path} {rest : List (String × Path)}
    (h : (copyAssets directory ((id, file) :: rest)).run.run w = (.ok (), w')) :
    ∃ content w₁, w₁.files.read file = .ok content ∧
      w₁.files.read (directory / id) = .ok content ∧
      (∀ kept : Location → Prop, ¬ kept (directory / id).location →
        w.files.Retains kept w₁.files) ∧
      (copyAssets directory rest).run.run w₁ = (.ok (), w') := by
  obtain ⟨_, w₁, began, h⟩ := run_bind_ok h
  obtain ⟨made, parents, rfl⟩ := Action.makeDirectories_ok began
  obtain ⟨_, w₂, changed, h⟩ := run_bind_ok h
  rw [Action.changeFiles_run] at changed
  rcases copied : made.copy file (directory / id) with e | files
  · simp only [copied] at changed
    cases changed
  · simp only [copied] at changed
    cases changed
    obtain ⟨apart, content, read, wrote⟩ := FileTree.copy_ok_iff.mp copied
    have stays (kept : Location → Prop) (free : ¬ kept (directory / id).location) :
        made.Retains kept files := .write wrote fun member => absurd member free
    refine ⟨content, _, ?_, FileTree.read_write wrote, ?_, h⟩
    · exact (stays (· = file.location) apart.symm).read rfl read
    · intro kept free
      exact (FileTree.Retains.ofMakeDirectories kept parents).trans (stays kept free)

theorem copyAssets_retains {kept : Location → Prop} {assets : List (String × Path)}
    (free : ∀ asset ∈ assets, ¬ kept (directory / asset.1).location)
    (h : (copyAssets directory assets).run.run w = (.ok (), w')) :
    w.files.Retains kept w'.files := by
  induction assets generalizing w with
  | nil =>
    cases h
    exact .refl _ _
  | cons asset rest ih =>
    obtain ⟨content, w₁, _, _, first, onward⟩ := copyAssets_cons_ok h
    have later := ih (fun other member => free other (List.mem_cons_of_mem _ member)) onward
    exact (first kept (free asset List.mem_cons_self)).trans later

/-- Assets are copied one after another. No copy goes to where an object is, so each of them stays
until another one goes to its place. -/
theorem copyAssets_copies {assets : List (String × Path)}
    (apart : ∀ asset ∈ assets, ∀ other ∈ assets,
      asset.2.location ≠ (directory / other.1).location)
    (own : ∀ asset ∈ assets, ∀ other ∈ assets,
      (directory / asset.1).location = (directory / other.1).location →
        directory / asset.1 = directory / other.1)
    (h : (copyAssets directory assets).run.run w = (.ok (), w')) :
    w'.files.HoldsCopies directory assets := by
  induction assets generalizing w with
  | nil => exact nofun
  | cons first rest ih =>
    obtain ⟨content, w₁, source, copy, _, onward⟩ := copyAssets_cons_ok h
    have inside {asset : String × Path} (member : asset ∈ rest) : asset ∈ first :: rest :=
      List.mem_cons_of_mem _ member
    have later := ih
      (fun asset member other member' => apart asset (inside member) other (inside member'))
      (fun asset member other member' => own asset (inside member) other (inside member')) onward
    intro asset member
    by_cases again : ∃ other ∈ rest, directory / other.1 = directory / asset.1
    · obtain ⟨other, listed, same⟩ := again
      obtain ⟨last, content', found, source', copy'⟩ := later other listed
      rw [same] at found copy'
      refine ⟨last, content', ?_, source', copy'⟩
      rw [List.reverse_cons, List.find?_append, found, Option.some_or]
    · obtain rfl : asset = first := by
        refine (List.mem_cons.mp member).resolve_right fun listed => ?_
        exact again ⟨asset, listed, rfl⟩
      have none : rest.reverse.find? (fun other => directory / other.1 == directory / asset.1) =
          none := by
        rw [List.find?_eq_none]
        intro other listed same
        exact again ⟨other, List.mem_reverse.mp listed, beq_iff_eq.mp same⟩
      let kept (l : Location) : Prop := l = asset.2.location ∨ l = (directory / asset.1).location
      have free : ∀ other ∈ rest, ¬ kept (directory / other.1).location := by
        rintro other listed (same | same)
        · exact apart asset member other (inside listed) same.symm
        · exact again ⟨other, listed, own other (inside listed) asset member same⟩
      have stays : w₁.files.Retains kept w'.files := copyAssets_retains free onward
      refine ⟨asset, content, ?_, stays.read (.inl rfl) source, stays.read (.inr rfl) copy⟩
      rw [List.reverse_cons, List.find?_append, none, Option.none_or]
      simp

end Copying

section Steps
variable {machine : Machine} {s : InstallSettings} {metadata : Members} {i i' : Installation}
  {environment : Environment}

theorem installNatives_retains {kept : Location → Prop}
    (apart : ∀ name : String, '/' ∉ name.toList → ¬ kept (s.natives / name).location)
    (h : (installNatives s).run.run i = (.ok (), i')) :
    i'.plan = i.plan ∧ i.world.files.Retains kept i'.world.files := by
  rw [installNatives_run] at h
  split at h
  · cases h
    exact ⟨rfl, .refl _ _⟩
  · have extracted : i.world.files.Retains kept
        (Natives.install i.world.files i.plan.natives s.natives).2 :=
      Natives.install_retains apart _
    generalize Natives.install i.world.files i.plan.natives s.natives = outcome at h extracted
    obtain ⟨e | errors, files⟩ := outcome
    · cases h
    · cases h
      exact ⟨rfl, extracted⟩

/-- Assets are copied if the plan says where to. -/
theorem placeAssets_ok (h : placeAssets.run.run i = (.ok (), i')) :
    i'.plan = i.plan ∧
      match i.plan.virtualDir with
      | some directory =>
        (copyAssets directory i.plan.assets).run.run i.world = (.ok (), i'.world)
      | none => i'.world = i.world := by
  obtain ⟨_, _, got, h⟩ := run_bind_ok h
  cases got
  simp only at h
  cases chosen : i.plan.virtualDir with
  | some directory =>
    rw [chosen] at h
    obtain ⟨copied, plan⟩ := onWorld_ok h
    exact ⟨plan, copied⟩
  | none =>
    rw [chosen] at h
    cases h
    exact ⟨rfl, rfl⟩

/-- Building the command line leaves all files as they are. -/
theorem clientEnvironment_retains
    (h : (clientEnvironment machine s metadata).run.run i = (.ok environment, i')) :
    i'.plan = i.plan ∧ i.world.files.Retains (fun _ => True) i'.world.files := by
  have still {ε α : Type} {fault : ε → Fault} {result : Except ε α} {value : α}
      {j j' : Installation} (h : (ofExcept fault result).run.run j = (.ok value, j')) : j' = j := by
    cases result with
    | ok value => cases h; rfl
    | error e => cases h
  obtain ⟨_, i₁, began, h⟩ := run_bind_ok h
  obtain ⟨began, plan⟩ := onWorld_ok began
  obtain ⟨files, made, world⟩ := Action.makeDirectories_ok began
  obtain ⟨_, _, got, h⟩ := run_bind_ok h
  cases got
  obtain ⟨type, i₂, typed, h⟩ := run_bind_ok h
  cases still typed
  obtain ⟨arguments, i₃, built, h⟩ := run_bind_ok h
  cases still built
  cases h
  rw [world]
  exact ⟨plan, .ofMakeDirectories _ made⟩

/-- Finishing keeps the files of the version, and copies the assets if they are to be copied. -/
theorem finish_ok (client : s.kind = .client) (down : LeadsDown s.version)
    (wanted : ∀ directory ∈ i.plan.virtualDir, directory = s.virtual)
    (inside : ∀ asset ∈ i.plan.assets, LeadsDown asset.1)
    (sources : ∀ asset ∈ i.plan.assets, s.Keeps asset.2.location)
    (h : (finish machine s metadata).run.run i = (.ok environment, i')) :
    i'.plan = i.plan ∧ i.world.files.Retains s.Keeps i'.world.files ∧
      ∀ directory ∈ i.plan.virtualDir, i'.world.files.HoldsCopies directory i.plan.assets := by
  obtain ⟨_, i₁, extracted, h⟩ := run_bind_ok h
  obtain ⟨plan₁, first⟩ := installNatives_retains
    (fun _ slashless => InstallSettings.extracted_not_keeps down slashless) extracted
  obtain ⟨_, i₂, placed, h⟩ := run_bind_ok h
  obtain ⟨plan₂, copied⟩ := placeAssets_ok placed
  simp only [client] at h
  obtain ⟨plan₃, last⟩ := clientEnvironment_retains h
  rw [plan₁] at plan₂ copied
  rw [plan₂] at plan₃
  have elsewhere : ∀ asset ∈ i.plan.assets, ¬ s.Keeps (s.virtual / asset.1).location :=
    fun asset member => InstallSettings.copied_not_keeps down (inside asset member)
  have rest : i₂.world.files.Retains s.Keeps i'.world.files := last.weaken fun _ _ => trivial
  rcases chosen : i.plan.virtualDir with _ | directory
  · rw [chosen] at copied
    rw [copied] at rest
    exact ⟨plan₃, first.trans rest, nofun⟩
  · obtain rfl := wanted directory chosen
    rw [chosen] at copied
    refine ⟨plan₃, first.trans ((copyAssets_retains elsewhere copied).trans rest), ?_⟩
    rintro _ ⟨⟩
    refine (copyAssets_copies ?_ ?_ copied).mono last
    · intro asset member other member' same
      exact elsewhere other member' (same ▸ sources asset member)
    · intro asset member other member' same
      exact ((inside asset member).below _).eq_of_location ((inside other member').below _) same

end Steps
end Installation

end Launcher
