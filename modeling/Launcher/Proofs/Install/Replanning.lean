import Launcher.Proofs.Install.Layout
import Launcher.Proofs.Install.Preparation
import Launcher.Proofs.World.Repetition

/-! Planning an installation again when all its files are there. The plan is the same but for the
downloads, of which there are none, and the world stays as it is. -/
namespace Launcher

/-- The same plan in another world, with nothing to download. -/
def Planning.settled (s : Planning) (world : World) : Planning :=
  ⟨world, { s.plan with jobs := .empty }⟩

/-- A later world has what planning came to: the files, the documents as they are, a file for each
download, and the index as it is known. -/
structure Planning.Provided (documents : List Path) (later : World) (s : Planning) : Prop where
  files : ∀ p, s.world.files.HasFile p → later.files.HasFile p
  documents : ∀ p ∈ documents, ∀ bytes, s.world.files.read p = .ok bytes →
    later.files.read p = .ok bytes
  downloads : ∀ p ∈ s.plan.jobs.destinations, later.files.HasFile p
  index : s.world.index = later.index

namespace InstallPlan

/-- Planning goes as before in a world that has what it came to. -/
def Replans {α : Type} (documents : List Path) (world : World) (action : PlanAction α)
    (s : Planning) : Prop :=
  Repeats (fun _ => False) (Planning.Provided documents world)
    (fun s t => t = s.settled world) action s

section Replans
variable {α : Type} {documents : List Path} {world : World} {s : Planning}

/-- What becomes of the plan apart from its downloads becomes of it again. -/
theorem modify_replans {change : Planning → Planning} (same : (change s).world = s.world)
    (jobs : (change s).plan.jobs = s.plan.jobs)
    (again : change (s.settled world) = (change s).settled world) :
    Replans documents world (modify change) s := by
  refine .modify (fun provided => ?_) ?_
  · obtain ⟨files, kept, downloads, index⟩ := provided
    rw [same] at files kept index
    rw [jobs] at downloads
    exact ⟨files, kept, downloads, index⟩
  · rintro _ t rfl
    exact again

theorem require_replans (entry : DownloadEntry) : Replans documents world (require entry) s := by
  have ran := require_run entry s
  rcases added : s.plan.jobs.add s.world.files entry true with e | ⟨new, jobs⟩
  · rw [added] at ran
    exact .of_fault (by rw [ran]) id
  · rw [added] at ran
    rw [Replans, Repeats.iff_of_run ran]
    rintro _ ⟨files, kept, downloads, index⟩
    simp only at files kept downloads index
    have before : (∀ p ∈ s.plan.jobs.destinations, world.files.HasFile p) ∧
        world.files.HasFile entry.destination := by
      rcases DownloadList.add_cases added with ⟨rfl, taken | present⟩ | ⟨_, _, target, rfl⟩
      · exact ⟨downloads, downloads _ taken⟩
      · exact ⟨downloads, files _ present⟩
      · constructor
        · intro p member
          exact downloads p (List.mem_append_left _ member)
        · exact downloads _ (List.mem_append_right _ List.mem_cons_self)
    refine ⟨⟨files, kept, before.1, index⟩, ?_⟩
    rintro t rfl
    have present : DownloadList.isPresent world.files entry true = .ok true := before.2
    have idle : DownloadList.empty.add world.files entry true = .ok (false, .empty) := by
      simp [DownloadList.add, DownloadList.empty, present]
    refine ⟨_, ?_, rfl⟩
    rw [require_run, Planning.settled, idle]
    rfl

theorem planLibrary_replans (librariesDir nativesDir : Path) (library : Library) :
    Replans documents world (planLibrary librariesDir nativesDir library) s := by
  refine .bind (require_replans _) fun _ s₁ _ => modify_replans rfl ?_ ?_
  · simp only
    split <;> rfl
  · simp only [Planning.settled]
    split <;> rfl

theorem planAllowed_replans (platform : Platform) (features : Features)
    (librariesDir nativesDir : Path) (libraries : List Library) :
    Replans documents world
      (planAllowed platform features librariesDir nativesDir libraries) s := by
  induction libraries generalizing s with
  | nil => exact .pure _
  | cons library rest ih =>
    unfold planAllowed
    split
    · exact .throw_bind _
    · exact .bind (planLibrary_replans _ _ _) fun _ _ _ => ih
    · exact ih

theorem planLibraries_replans (platform : Platform) (features : Features) (metadata : Members)
    (librariesDir nativesDir : Path) :
    Replans documents world
      (planLibraries platform features metadata librariesDir nativesDir) s := by
  unfold planLibraries
  split
  · exact .throw _
  · exact planAllowed_replans _ _ _ _ _

theorem planObjects_replans (objectsDir : Path) (resources : String) (place : Place)
    (objects : List (String × Json)) :
    Replans documents world (planObjects objectsDir resources place objects) s := by
  induction objects generalizing s with
  | nil => exact .pure _
  | cons object rest ih =>
    obtain ⟨id, v⟩ := object
    unfold planObjects
    split
    · exact .throw_bind _
    · exact .bind (require_replans _) fun _ _ _ =>
        .bind (modify_replans rfl rfl rfl) fun _ _ _ => ih

theorem onWorld_run (action : Action α) (s : Planning) :
    (onWorld action).run.run s = match action.run.run s.world with
      | (result, world) => (result, { s with world }) := by
  rw [onWorld, run_bind, run_get]
  simp only
  obtain ⟨result, world⟩ := action.run.run s.world
  cases result <;> rfl

variable {info : Members} {version : String} {file : Path} {w w' : World} {index : Members}

/-- Where an assets index comes from, it is in its file afterwards, and other documents are left
alone. -/
theorem assetsIndex_ok (h : (assetsIndex info version file).run.run w = (.ok index, w')) :
    (∃ bytes, w'.files.read file = .ok bytes ∧
        readDocument (documentName version) bytes = .ok index) ∧
      (∀ kept : Location → Prop, (kept file.location → w.files.HasFile file) →
        w.files.Retains kept w'.files) ∧ w'.index = w.index := by
  obtain ⟨_, _, got, onward⟩ := run_bind_ok h
  cases got
  split at onward
  · rename_i bytes read
    obtain ⟨parsed, rfl⟩ := Action.ofExcept_ok onward
    exact ⟨⟨bytes, read, parsed⟩, fun kept _ => .refl kept _, rfl⟩
  · rename_i missing
    obtain ⟨url, _, onward⟩ := Action.ofExcept_bind_ok onward
    obtain ⟨sha1, _, onward⟩ := Action.ofExcept_bind_ok onward
    obtain ⟨response, w₁, fetched, onward⟩ := run_bind_ok onward
    obtain ⟨_, same, index⟩ := Action.fetch_ok fetched
    obtain ⟨data, parsed, onward⟩ := Action.ofExcept_bind_ok onward
    obtain ⟨_, w₂, put, onward⟩ := run_bind_ok onward
    cases onward
    obtain ⟨read, index', retains⟩ := Action.writeBelow_retains put
    refine ⟨⟨_, read, parsed⟩, ?_, index'.trans index⟩
    intro kept held
    have absent : ¬ w.files.HasFile file := by
      intro present
      obtain ⟨_, there⟩ := present.read
      rw [there] at missing
      cases missing
    rw [← same]
    exact retains kept (mt held absent)
  · cases onward

/-- An assets index in its file is read from there. -/
theorem assetsIndex_again {bytes : Bytes} (read : w.files.read file = .ok bytes)
    (parsed : readDocument (documentName version) bytes = .ok index) :
    (assetsIndex info version file).run.run w = (.ok index, w) := by
  rw [assetsIndex, run_bind, run_get]
  simp only [read, Action.ofExcept_run, parsed]
  rfl

theorem assetsIndex_replans (listed : file ∈ documents)
    (own : ∀ p ∈ documents, p.location = file.location → p = file) :
    Replans documents world (onWorld (assetsIndex info version file)) s := by
  have ran := onWorld_run (assetsIndex info version file) s
  rcases found : (assetsIndex info version file).run.run s.world with ⟨e | index, w⟩
  · rw [found] at ran
    exact .of_fault (by rw [ran]) id
  · rw [found] at ran
    rw [Replans, Repeats.iff_of_run ran]
    rintro _ ⟨files, kept, downloads, known⟩
    obtain ⟨⟨bytes, read, parsed⟩, retains, index⟩ := assetsIndex_ok found
    refine ⟨⟨?_, ?_, downloads, index.symm.trans known⟩, ?_⟩
    · intro p present
      exact files p ((retains (fun _ => False) nofun).hasFile present)
    · intro p member bytes there
      refine kept p member bytes ((retains (· = p.location) ?_).read rfl there)
      intro same
      rw [← own p member same.symm]
      exact FileTree.hasFile_of_read there
    · rintro t rfl
      refine ⟨_, ?_, rfl⟩
      rw [onWorld_run, Planning.settled]
      simp only [assetsIndex_again (kept file listed bytes read) parsed]
      rfl

variable {assetsDir : Path}

theorem planAssets_replans (metadata : Members) (resources : String)
    (listed : assetsDir / "indexes" / (version ++ ".json") ∈ documents)
    (own : ∀ p ∈ documents, p.location = (assetsDir / "indexes" / (version ++ ".json")).location →
      p = assetsDir / "indexes" / (version ++ ".json")) :
    Replans documents world (planAssets metadata assetsDir version resources) s := by
  unfold planAssets
  split
  · exact .pure _
  · split
    · exact .throw _
    · refine .bind (assetsIndex_replans listed own) fun index _ _ => ?_
      simp only
      split
      · exact .throw _
      · exact .bind (planObjects_replans _ _ _ _) fun _ _ _ => modify_replans rfl rfl rfl

/-- Planning goes as before where its files are there. -/
theorem planAll_replans (platform : Platform) (features : Features) (metadata : Members)
    {directories : Directories} (resources : String)
    (listed : directories.assets / "indexes" / (version ++ ".json") ∈ documents)
    (own : ∀ p ∈ documents, p.location =
      (directories.assets / "indexes" / (version ++ ".json")).location →
        p = directories.assets / "indexes" / (version ++ ".json")) :
    Replans documents world (planAll platform features metadata directories version resources) s :=
  .bind (planLibraries_replans _ _ _ _ _) fun _ _ _ => planAssets_replans _ _ listed own

end Replans
end InstallPlan

/-- Whether an event tells that downloads begin. -/
def InstallEvent.StartsDownload : InstallEvent → Prop
  | .downloadStarted _ _ _ => True
  | _ => False

namespace Installation
variable {α : Type} {documents : List Path} {world : World} {i : Installation}

/-- An installation with the same plan in a world as described, but with nothing to download. No
downloads have begun there. -/
structure Resembles (there : World → Prop) (i j : Installation) : Prop where
  world : there j.world
  plan : j.plan = { i.plan with jobs := .empty }
  quiet : ∀ event ∈ j.events, ¬ event.StartsDownload

theorem Resembles.tell {there : World → Prop} {j : Installation}
    (resembles : Resembles there i j) {event : InstallEvent} (silent : ¬ event.StartsDownload) :
    Resembles there { i with events := i.events ++ [event] }
      { j with events := j.events ++ [event] } := by
  refine ⟨resembles.world, resembles.plan, ?_⟩
  intro event' member
  rcases List.mem_append.mp member with old | new
  · exact resembles.quiet event' old
  · rwa [List.mem_singleton.mp new]

theorem ofExcept_repeats {ε : Type} {Recurs : Fault → Prop} {Before : Installation → Prop}
    {Related : Installation → Installation → Prop} (fault : ε → Fault) (result : Except ε α) :
    Repeats Recurs Before Related (ofExcept fault result) i := by
  cases result with
  | ok value => exact .pure value
  | error e => exact .throw _

/-- A step of the preparation goes as before in a world that has what it came to. -/
def Reprepares (documents : List Path) (world : World) (step : InstallAction α)
    (i : Installation) : Prop :=
  Repeats (fun _ => False) (fun i => Planning.Provided documents world ⟨i.world, i.plan⟩)
    (Resembles (· = world)) step i

theorem tell_reprepares {event : InstallEvent} (silent : ¬ event.StartsDownload) :
    Reprepares documents world (tell event) i :=
  .modify id fun _ _ resembles => resembles.tell silent

theorem onPlan_reprepares {action : PlanAction Unit}
    (replans : InstallPlan.Replans documents world action ⟨i.world, i.plan⟩) :
    Reprepares documents world (onPlan action) i := by
  have ran := onPlan_run action i
  rcases planned : action.run.run ⟨i.world, i.plan⟩ with ⟨result, planning⟩
  rw [planned] at ran
  rw [Reprepares, Repeats.iff_of_run ran]
  intro fine provided
  obtain ⟨began, again⟩ := (Repeats.iff_of_run planned).mp replans fine provided
  refine ⟨began, ?_⟩
  intro j resembles
  obtain ⟨_, ran', rfl⟩ := again _ rfl
  refine ⟨{ j with world, plan := { planning.plan with jobs := .empty } }, ?_, rfl, rfl,
    resembles.quiet⟩
  rw [onPlan_run, resembles.world, resembles.plan]
  rw [Planning.settled] at ran'
  rw [ran']
  rfl

/-- A file that was there when it was looked for is there again. -/
theorem inspect_reprepares {p : Path} (present : i.world.files.HasFile p) :
    Reprepares documents world
      (onWorld (Action.inspect Fault.system fun files => files.isFile p)) i := by
  have ran := inspect_run Fault.system (fun files => files.isFile p) i
  rw [show i.world.files.isFile p = .ok true from present] at ran
  rw [Reprepares, Repeats.iff_of_run ran]
  refine fun _ provided => ⟨provided, fun j resembles => ⟨j, ?_, resembles⟩⟩
  have still : j.world.files.isFile p = .ok true := resembles.world ▸ provided.files p present
  rw [inspect_run, still]

theorem planJar_reprepares (kind : JarKind) (jar : Path) (metadata : Members) :
    Reprepares documents world (planJar kind jar metadata) i := by
  refine .bind (ofExcept_repeats _ _) fun found i₁ _ => ?_
  split
  · exact .bind (onPlan_reprepares (InstallPlan.require_replans _)) fun _ _ _ => tell_reprepares id
  · have looked := inspect_run Fault.system (fun files => files.isFile jar) i₁
    rcases there : i₁.world.files.isFile jar with e | _ | _
    · exact .of_fault (by rw [run_bind, looked, there]; rfl) id
    · exact .of_fault (by rw [run_bind, looked, there]; rfl) id
    · refine .bind (inspect_reprepares there) fun isThere _ _ => ?_
      split
      · exact .throw_bind _
      · exact tell_reprepares id

section Prepare
variable {machine : Machine} {s : InstallSettings}

theorem planFiles_reprepares (metadata : Members) (listed : s.assetsIndex ∈ documents)
    (own : ∀ p ∈ documents, p.location = s.assetsIndex.location → p = s.assetsIndex) :
    Reprepares documents world (planFiles machine s metadata) i := by
  refine .bind (tell_reprepares id) fun _ _ _ =>
    .bind (onPlan_reprepares (InstallPlan.planAll_replans _ _ _ _ listed own)) fun _ _ _ => ?_
  refine .get_bind (fun j resembles => by rw [resembles.plan])
    (.bind (tell_reprepares id) fun _ _ _ => ?_)
  split
  · exact tell_reprepares id
  · exact .pure _

end Prepare
end Installation
end Launcher
