import Launcher.Install.Plan
import Launcher.Proofs.Download.Listing
import Launcher.Proofs.World

/-! What planning an installation comes to. Every file of the plan is there or is on the list of
downloads, and nothing is on that list that was there when planning began. -/
namespace Launcher

/-- The libraries, archives and assets of a plan. -/
def InstallPlan.files (plan : InstallPlan) : List Path :=
  plan.libraries ++ plan.natives ++ plan.assets.map (·.2)

/-- A plan in the making, in a world that comes from `start`. The files in `needed` are to be there
in the end beside those of the plan. -/
structure Planning.Sound (places : Location → Prop) (start : World) (needed : List Path)
    (s : Planning) : Prop where
  world : World.Derives places start s.world
  built : s.plan.jobs.Built
  missing : ∀ p ∈ s.plan.jobs.destinations, ¬ start.files.HasFile p
  covered : ∀ p, p ∈ needed ∨ p ∈ s.plan.files →
    p ∈ s.plan.jobs.destinations ∨ s.world.files.HasFile p

namespace Planning.Sound
variable {places : Location → Prop} {start : World} {needed : List Path} {s : Planning}

theorem cover (sound : Sound places start needed s) {p : Path}
    (taken : p ∈ s.plan.jobs.destinations ∨ s.world.files.HasFile p) :
    Sound places start (p :: needed) s := by
  obtain ⟨world, built, missing, covered⟩ := sound
  refine ⟨world, built, missing, ?_⟩
  rintro q (member | member)
  · rcases List.mem_cons.mp member with rfl | member
    · exact taken
    · exact covered q (.inl member)
  · exact covered q (.inr member)

theorem add (sound : Sound places start needed s) {entry : DownloadEntry} {added : Bool}
    {jobs : DownloadList} (h : s.plan.jobs.add s.world.files entry true = .ok (added, jobs)) :
    Sound places start (entry.destination :: needed)
      { s with plan := { s.plan with jobs } } := by
  rcases DownloadList.add_cases h with ⟨rfl, taken⟩ | ⟨_, absent, target, rfl⟩
  · exact sound.cover taken
  · obtain ⟨world, built, missing, covered⟩ := sound
    refine ⟨world, built.add h, ?_, ?_⟩
    · intro p member present
      rcases List.mem_append.mp member with member | member
      · exact missing p member present
      · obtain rfl := List.mem_singleton.mp member
        have still := world.files.hasFile present
        rw [FileTree.HasFile, show FileTree.isFile _ _ = .ok false from absent] at still
        cases still
    · rintro p (member | member)
      · rcases List.mem_cons.mp member with rfl | member
        · exact .inl (List.mem_append_right _ List.mem_cons_self)
        · exact (covered p (.inl member)).imp_left (List.mem_append_left _)
      · exact (covered p (.inr member)).imp_left (List.mem_append_left _)

/-- The world may go on while jobs and files stay. -/
theorem onWorld (sound : Sound places start needed s) {w : World}
    (derives : World.Derives places s.world w) :
    Sound places start needed { s with world := w } := by
  obtain ⟨world, built, missing, covered⟩ := sound
  refine ⟨⟨world.files.trans derives.files, derives.cache.trans world.cache⟩, built, missing, ?_⟩
  intro p member
  exact (covered p member).imp_right derives.files.hasFile

theorem replan (sound : Sound places start needed s) {needed' : List Path} {plan : InstallPlan}
    (jobs : plan.jobs = s.plan.jobs)
    (files : ∀ p, p ∈ needed' ∨ p ∈ plan.files → p ∈ needed ∨ p ∈ s.plan.files) :
    Sound places start needed' { s with plan } := by
  obtain ⟨world, built, missing, covered⟩ := sound
  refine ⟨world, jobs ▸ built, jobs ▸ missing, ?_⟩
  intro p member
  rw [show ({ s with plan } : Planning).plan.jobs = s.plan.jobs from jobs]
  exact covered p (files p member)

end Planning.Sound

namespace InstallPlan
variable {places : Location → Prop} {start : World} {needed : List Path} {α : Type}

/-- A planning action leaves sound plans, and does not fail as downloads do. -/
def Plans (places : Location → Prop) (start : World) (needed : List Path)
    (action : PlanAction α) : Prop :=
  Safe (Planning.Sound places start needed) (fun e => ¬ e.IsDownloads) action

theorem onWorld_plans {action : Action α} (within : ∀ w, Action.Within places w action) :
    Plans places start needed (onWorld action) := by
  refine .get_bind fun s sound => ?_
  obtain ⟨derives, kind⟩ := within s.world s.world (.refl places _)
  generalize action.run.run s.world = outcome at derives kind ⊢
  obtain ⟨result, world⟩ := outcome
  simp only [run_bind, run_set]
  rcases result with e | value
  · exact ⟨sound.onWorld derives, fun e' failed => by cases failed; exact kind _ rfl⟩
  · exact ⟨sound.onWorld derives, fun e failed => nomatch failed⟩

theorem require_run (entry : DownloadEntry) (s : Planning) :
    (require entry).run.run s =
      match s.plan.jobs.add s.world.files entry true with
      | .ok (_, jobs) => (.ok (), { s with plan := { s.plan with jobs } })
      | .error e => (.error (.ofAdd e), s) := by
  rw [require, run_bind, run_get]
  simp only
  rcases s.plan.jobs.add s.world.files entry true with e | ⟨new, jobs⟩ <;> rfl

theorem require_plans (entry : DownloadEntry) : Plans places start needed (require entry) := by
  intro s sound
  rw [require_run]
  rcases added : s.plan.jobs.add s.world.files entry true with e | ⟨new, jobs⟩
  · exact ⟨sound, fun e' failed => by cases failed; exact Fault.not_isDownloads_ofAdd e⟩
  · refine ⟨(sound.add added).replan rfl ?_, fun e failed => nomatch failed⟩
    exact fun p member => member.imp_left (List.mem_cons_of_mem _)

/-- What is required may be put into the plan. -/
theorem require_bind_plans (entry : DownloadEntry) {change : Planning → InstallPlan}
    (jobs : ∀ s, (change s).jobs = s.plan.jobs)
    (files : ∀ s, ∀ p ∈ (change s).files, p = entry.destination ∨ p ∈ s.plan.files) :
    Plans places start needed
      (require entry >>= fun _ => modify fun s => { s with plan := change s }) := by
  refine Safe.bind_of (require_plans entry)
    (Q := fun _ => Planning.Sound places start (entry.destination :: needed)) ?_ ?_
  · intro s sound value s' ended
    rw [require_run] at ended
    rcases added : s.plan.jobs.add s.world.files entry true with e | ⟨new, jobs⟩
    · rw [added] at ended
      cases ended
    · rw [added] at ended
      cases ended
      exact sound.add added
  · intro value s sound
    refine ⟨sound.replan (jobs s) ?_, fun e failed => nomatch failed⟩
    rintro p (member | member)
    · exact .inl (List.mem_cons_of_mem _ member)
    · rcases files s p member with rfl | member
      · exact .inl List.mem_cons_self
      · exact .inr member

theorem mem_list {paths : List Path} {p q : Path} (member : q ∈ list paths p) :
    q = p ∨ q ∈ paths := by
  unfold list at member
  split at member
  · exact .inr member
  · rcases List.mem_append.mp member with member | member
    · exact .inr member
    · exact .inl (List.mem_singleton.mp member)

theorem planLibrary_plans (librariesDir nativesDir : Path) (library : Library) :
    Plans places start needed (planLibrary librariesDir nativesDir library) := by
  refine require_bind_plans _ (fun s => by split <;> rfl) ?_
  intro s p member
  cases native : library.isNative with
  | true =>
    simp only [native, if_true, files, List.mem_append] at member ⊢
    rcases member with (member | member) | member
    · exact .inr (.inl (.inl member))
    · exact (mem_list member).imp_right fun old => .inl (.inr old)
    · exact .inr (.inr member)
  | false =>
    simp only [native, Bool.false_eq_true, if_false, files, List.mem_append] at member ⊢
    rcases member with (member | member) | member
    · exact (mem_list member).imp_right fun old => .inl (.inl old)
    · exact .inr (.inl (.inr member))
    · exact .inr (.inr member)

theorem planAllowed_plans (platform : Platform) (features : Features)
    (librariesDir nativesDir : Path) (libraries : List Library) :
    Plans places start needed
      (planAllowed platform features librariesDir nativesDir libraries) := by
  induction libraries with
  | nil => exact .pure _
  | cons library rest ih =>
    unfold planAllowed
    split
    · exact .throw id
    · exact .bind (planLibrary_plans _ _ _) fun _ => ih
    · exact ih

theorem planLibraries_plans (platform : Platform) (features : Features) (metadata : Members)
    (librariesDir nativesDir : Path) :
    Plans places start needed
      (planLibraries platform features metadata librariesDir nativesDir) := by
  unfold planLibraries
  split
  · exact .throw id
  · exact planAllowed_plans _ _ _ _ _

theorem assetsIndex_within (info : Members) (version : String) {file : Path}
    (place : places file.location) (start : World) :
    Action.Within places start (assetsIndex info version file) := by
  refine .bind .get fun w => ?_
  split
  · exact Action.readDocument_within _ _
  · refine .bind (Action.ofExcept_within fun _ _ => id) fun url => ?_
    refine .bind (Action.ofExcept_within fun _ _ => id) fun sha1 => ?_
    refine .bind (Action.fetch_within _ _ _ _) fun response => ?_
    refine .bind (Action.readDocument_within _ _) fun index => ?_
    exact .bind (Action.writeBelow_within _ place) fun _ => .pure _
  · exact .throw (Fault.not_isDownloads_ofAccess _)

theorem planObjects_plans (objectsDir : Path) (resources : String) (place : Place)
    (objects : List (String × Json)) :
    Plans places start needed (planObjects objectsDir resources place objects) := by
  induction objects with
  | nil => exact .pure _
  | cons object rest ih =>
    obtain ⟨id, v⟩ := object
    unfold planObjects
    split
    · exact .throw fun failed => failed
    · refine Safe.assoc (.bind (require_bind_plans _ (fun _ => rfl) ?_) fun _ => ih)
      intro s p member
      simp only [files, List.mem_append] at member ⊢
      rcases member with old | asset
      · exact .inr (.inl old)
      · refine (?_ : p = _ ∨ p ∈ s.plan.assets.map (·.2)).imp_right .inr
        split at asset
        · obtain ⟨pair, inside, rfl⟩ := List.mem_map.mp asset
          obtain ⟨old, listed, rfl⟩ := List.mem_map.mp inside
          split
          · exact .inl rfl
          · exact .inr (List.mem_map_of_mem listed)
        · rw [List.map_append, List.mem_append] at asset
          exact asset.symm.imp_left List.mem_singleton.mp

theorem planAssets_plans (metadata : Members) {assetsDir : Path} {version : String}
    (resources : String) (index : places (assetsDir / "indexes" / (version ++ ".json")).location) :
    Plans places start needed (planAssets metadata assetsDir version resources) := by
  unfold planAssets
  split
  · exact .pure _
  · split
    · exact .throw fun failed => failed
    · refine .bind (onWorld_plans fun w => assetsIndex_within _ _ index w) fun index => ?_
      simp only
      split
      · exact .throw fun failed => failed
      · refine .bind (planObjects_plans _ _ _ _) fun _ => ?_
        exact .modify fun s sound => sound.replan rfl fun p member => member

/-- Planning leaves a sound plan and writes the file of the assets index at most. -/
theorem planAll_plans (platform : Platform) (features : Features) (metadata : Members)
    {directories : Directories} {version : String} (resources : String)
    (index : places (directories.assets / "indexes" / (version ++ ".json")).location) :
    Plans places start needed
      (planAll platform features metadata directories version resources) :=
  .bind (planLibraries_plans _ _ _ _ _) fun _ => planAssets_plans _ _ index

end InstallPlan
end Launcher
