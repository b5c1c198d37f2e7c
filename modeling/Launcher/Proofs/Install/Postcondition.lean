import Launcher.Proofs.Install.Finishing
import Launcher.Proofs.Install.Reinstallation

/-! What an installation has done when it returns. Its files are there, those that were missing are
as the version declares them, and nothing that came after their download has changed them. -/
namespace Launcher

open Launcher.Path (LeadsDown)

namespace Installation
variable {machine : Machine} {s : InstallSettings} {metadata : Members} {i i' : Installation}

theorem onPlan_ok {action : PlanAction Unit} (h : (onPlan action).run.run i = (.ok (), i')) :
    action.run.run ⟨i.world, i.plan⟩ = (.ok (), ⟨i'.world, i'.plan⟩) := by
  rw [onPlan_run] at h
  rcases planned : action.run.run ⟨i.world, i.plan⟩ with ⟨result, planning⟩
  rw [planned] at h
  cases h
  rfl

/-- The program is put on the list of downloads if it is offered and missing. -/
theorem planJar_ok {kind : JarKind} {jar : Path}
    (h : (planJar kind jar metadata).run.run i = (.ok (), i')) :
    ∃ offered jobs added, jarEntry kind jar metadata = .ok offered ∧
      DownloadList.Gains i.world.files i.world.files offered.toList i.plan.jobs jobs added ∧
      i'.world = i.world ∧ i'.plan = { i.plan with jobs } := by
  rw [planJar] at h
  rcases asked : jarEntry kind jar metadata with e | _ | entry
  · rw [asked] at h
    cases h
  · rw [asked, ofExcept, pure_bind] at h
    obtain ⟨isThere, i₁, looked, h⟩ := run_bind_ok h
    rw [inspect_run] at looked
    obtain rfl := (Prod.mk.inj looked).2
    refine ⟨none, _, [], rfl, .idle (by simp), ?_⟩
    split at h
    · cases h
    · cases h
      exact ⟨rfl, rfl⟩
  · rw [asked, ofExcept, pure_bind] at h
    obtain ⟨_, i₁, required, h⟩ := run_bind_ok h
    obtain ⟨jobs, added, gains, same⟩ := InstallPlan.require_ok (onPlan_ok required)
    obtain ⟨world, plan⟩ := Planning.mk.inj same
    cases h
    exact ⟨some entry, jobs, added, rfl, gains, world, plan⟩

theorem planFiles_ok (h : (planFiles machine s metadata).run.run i = (.ok (), i')) :
    (InstallPlan.planAll machine.platform s.session.features metadata s.directories s.version
      s.resources).run.run ⟨i.world, i.plan⟩ = (.ok (), ⟨i'.world, i'.plan⟩) := by
  obtain ⟨_, i₁, told, h⟩ := run_bind_ok h
  cases told
  obtain ⟨_, i₂, planned, h⟩ := run_bind_ok h
  obtain ⟨_, _, got, h⟩ := run_bind_ok h
  cases got
  obtain ⟨_, i₃, told, h⟩ := run_bind_ok h
  cases told
  rw [onPlan_ok planned]
  simp only at h
  split at h
  · cases h
    rfl
  · cases h
    rfl

/-- What the preparation of a client comes to: a plan of all that the version consists of, and
downloads for what is missing. -/
theorem prepare_ok {w : World} (client : s.kind = .client)
    (h : (prepare machine s).run.run (.start w) = (.ok metadata, i)) :
    ∃ (offered : Option DownloadEntry) (inventory : Inventory) (loaded : FileTree)
      (added : List DownloadJob),
      jarEntry .client s.jar metadata = .ok offered ∧
      inventory.IsOf machine.platform s.session.features metadata s.assetsIndex i.world.files ∧
      DownloadList.Gains loaded i.world.files
        (offered.toList ++ inventory.entries s.directories s.version s.resources) .empty
        i.plan.jobs added ∧
      i.plan = inventory.record s.directories s.version (.ofJobs .empty) i.plan.jobs := by
  obtain ⟨data, i₀, loaded, h⟩ := run_bind_ok h
  obtain ⟨plan, _⟩ := loadMetadata_ok loaded
  obtain ⟨_, i₁, program, h⟩ := run_bind_ok h
  simp only [client] at program h
  obtain ⟨offered, jobs, added, asked, gains, world₁, plan₁⟩ := planJar_ok program
  rw [plan] at gains plan₁
  obtain ⟨_, i₂, filed, h⟩ := run_bind_ok h
  cases h
  have planned := planFiles_ok filed
  rw [world₁, plan₁] at planned
  obtain ⟨inventory, jobs₁, jobs₂, added₁, added₂, listed, advances, gains₁, gains₂, plan₂⟩ :=
    InstallPlan.planAll_ok rfl planned
  simp only at listed advances gains₁ gains₂ plan₂
  have whole := gains.trans (gains₁.trans gains₂ fun _ => advances.hasFile) fun _ => id
  refine ⟨offered, inventory, i₀.world.files, added ++ (added₁ ++ added₂), asked, listed, ?_, ?_⟩
  · rw [plan₂]
    exact whole
  · rw [plan₂]
    rfl

end Installation

namespace Inventory
variable {inventory : Inventory} {d : Directories} {version resources : String}

theorem mem_record_libraries {jobs before : DownloadList} {p : Path}
    (member : p ∈ (inventory.record d version (.ofJobs before) jobs).libraries) :
    ∃ library ∈ inventory.libraries, p = d.libraries / library.path := by
  simp only [record, InstallPlan.ofJobs, InstallPlan.foldl_list, List.mem_eraseDups] at member
  obtain ⟨library, listed, rfl⟩ := List.mem_map.mp member
  obtain ⟨inside, other⟩ := List.mem_filter.mp listed
  refine ⟨library, inside, ?_⟩
  rw [InstallPlan.libraryFile, if_neg]
  rw [beq_iff_eq.mp other]
  exact Bool.false_ne_true

theorem mem_record_assets {jobs before : DownloadList} {p : Path}
    (member : p ∈ (inventory.record d version (.ofJobs before) jobs).assets.map (·.2)) :
    ∃ asset ∈ inventory.objects, p = InstallPlan.objectFile (d.assets / "objects") asset.2 := by
  obtain ⟨_, listed, rfl⟩ := List.mem_map.mp member
  rw [record, InstallPlan.ofJobs, List.nil_append] at listed
  obtain ⟨asset, inside, rfl⟩ := List.mem_map.mp listed
  exact ⟨asset, inside, rfl⟩

end Inventory

namespace InstallCall
variable (c : InstallCall) (files : FileTree)

/-- A call whose names lead down from the directories that they are joined to, and which works
outside of the directories in which the files of versions lie. -/
structure Housed : Prop where
  version : LeadsDown c.settings.version
  libraries : ∀ library ∈ c.libraries files, LeadsDown library.path
  assets : ∀ asset ∈ (c.fetched files).2.plan.assets, LeadsDown asset.1
  apart : c.settings.directories.IsApart
  /-- Another file than the usual one may keep the index of versions, but none that is planned. -/
  index : ∀ file ∈ c.index.cache, file = c.settings.directories.indexFile ∨
    ∀ p ∈ c.planned files, file.location ≠ p.location

variable {c files} {metadata : Members} {i : Installation}

/-- No document is written to where a file of the version belongs. -/
theorem documents_apart (client : c.settings.kind = .client) (housed : c.Housed files) {p : Path}
    (stores : c.settings.Stores p) (planned : p ∈ c.planned files) :
    ∀ q ∈ c.documents, q.location ≠ p.location := by
  have outside := stores.not_isDocument housed.version client
  intro q member same
  rcases List.mem_append.mp member with cache | document
  · rcases housed.index q (Option.mem_toList.mp cache) with rfl | other
    · exact stores.ne_indexFile housed.version same
    · exact other p planned same
  · rw [← same] at outside
    refine outside ?_
    rcases List.mem_cons.mp document with rfl | document
    · exact .inl rfl
    · exact .inr (congrArg Path.location (List.mem_singleton.mp document))

section Planned
variable {inventory : Inventory} {offered : Option DownloadEntry} {s : InstallSettings}

theorem Housed.inside (housed : c.Housed files) (preparation : (c.prepared files).1 = .ok metadata)
    {tree : FileTree} (listed : inventory.IsOf c.machine.platform c.settings.session.features metadata
      c.settings.assetsIndex tree) : ∀ library ∈ inventory.libraries, LeadsDown library.path := by
  obtain ⟨libraries, parsed, allowed⟩ := listed.libraries
  intro library member
  rw [allowed, ← libraries_eq preparation parsed] at member
  exact housed.libraries library (List.mem_filter.mp member).1

variable (client : s.kind = .client)
  (inside : ∀ library ∈ inventory.libraries, LeadsDown library.path)
  (digest : ∀ asset ∈ inventory.objects, isSha1 asset.2.hash)
include client inside digest

/-- What is downloaded belongs to the version. -/
theorem entries_stored (asked : Installation.jarEntry .client s.jar metadata = .ok offered) :
    ∀ entry ∈ offered.toList ++ inventory.entries s.directories s.version s.resources,
      s.Stores entry.destination := by
  intro entry member
  rcases List.mem_append.mp member with program | member
  · obtain rfl := Option.mem_toList.mp program
    rw [Installation.jarEntry_destination asked, InstallSettings.jar, client]
    exact .jar
  · rcases List.mem_append.mp member with given | given
    · obtain ⟨library, listed, rfl⟩ := List.mem_map.mp given
      simp only [InstallPlan.libraryEntry, InstallPlan.libraryFile]
      split
      · exact .native (inside library listed)
      · exact .library (inside library listed)
    · obtain ⟨asset, listed, rfl⟩ := List.mem_map.mp given
      exact .object (digest asset listed)

/-- The program, the libraries and the objects of a plan belong to the version, and nothing is
extracted or copied to their places. -/
theorem record_stored (apart : s.directories.IsApart) {jobs : DownloadList} {plan : InstallPlan}
    (same : plan = inventory.record s.directories s.version (.ofJobs .empty) jobs) :
    ∀ p ∈ s.jar :: (plan.libraries ++ plan.assets.map (·.2)),
      s.Stores p ∧ s.Keeps p.location := by
  intro p member
  subst same
  rcases List.mem_cons.mp member with rfl | member
  · rw [InstallSettings.jar, client]
    exact ⟨.jar, InstallSettings.jar_keeps apart⟩
  · rcases List.mem_append.mp member with listed | listed
    · obtain ⟨library, allowed, rfl⟩ := Inventory.mem_record_libraries listed
      have down := inside library allowed
      exact ⟨.library down, InstallSettings.library_keeps down⟩
    · obtain ⟨asset, named, rfl⟩ := Inventory.mem_record_assets listed
      have hash := digest asset named
      exact ⟨.object hash, InstallSettings.object_keeps hash⟩

end Planned

/-- The downloads of a call that returns leave all planned files, and what was scheduled as the
first entry for it declares it. -/
theorem returned_fetches (client : c.settings.kind = .client) (housed : c.Housed files)
    {environment : Environment} (returned : (c.run files).1 = .ok environment) :
    let s := c.settings
    let fetched := (c.fetched files).2
    ∃ (metadata : Members) (offered : Option DownloadEntry) (inventory : Inventory),
      (c.prepared files).1 = .ok metadata ∧
      Installation.jarEntry .client s.jar metadata = .ok offered ∧
      inventory.IsOf c.machine.platform s.session.features metadata s.assetsIndex
        (c.prepared files).2.world.files ∧
      fetched.plan = inventory.record s.directories s.version (.ofJobs .empty) fetched.plan.jobs ∧
      c.planned files = s.jar :: fetched.plan.files ∧
      (∀ p ∈ c.planned files, fetched.world.files.HasFile p) ∧
      (∀ p ∈ c.scheduled files, ∃ entry size,
        (offered.toList ++ inventory.entries s.directories s.version s.resources).find?
          (·.destination == p) = some entry ∧ entry.IsFulfilled size fetched.world.files) ∧
      (Installation.finish c.machine s metadata).run.run fetched =
        (.ok environment, (c.run files).2) := by
  intro s fetched
  obtain ⟨metadata, i, threads, preparation, none, successes, left, finished⟩ :=
    returned_ok returned
  have sound := sound_of_prepared preparation
  obtain ⟨offered, inventory, loaded, added, asked, listed, gains, plan⟩ :=
    Installation.prepare_ok client preparation
  obtain ⟨_, jobs, same⟩ := Installation.download_keeps c.machine s i
  rw [← fetched_eq preparation] at same
  have planned : c.planned files = s.jar :: i.plan.files := by
    rw [InstallCall.planned, preparation]
  have inside := housed.inside (by rw [preparation]) listed
  have stored := entries_stored client inside listed.digest asked
  -- each download is for an entry, so it has a place of its own
  have jobs_added : i.plan.jobs.jobs = added := gains.jobs
  have given : ∀ p ∈ i.plan.jobs.destinations, ∃ job ∈ added, job.entry.destination = p := by
    intro p member
    rw [gains.destinations] at member
    exact List.mem_map.mp member
  have mine : ∀ p ∈ i.plan.jobs.destinations, s.Stores p := by
    intro p member
    obtain ⟨job, new, rfl⟩ := given p member
    exact stored _ (gains.mem_entries new)
  obtain ⟨retains, made⟩ := @DownloadList.download_retains (fun _ => False) _ sound.built
    threads _ _ none successes fun _ _ => id
  have fulfilled := DownloadList.download_fulfils sound.built threads _ _ none successes
    fun p member q member' => (mine p member).eq_of_location housed.version housed.apart
      (mine q member')
  rw [← left] at retains made fulfilled
  refine ⟨metadata, offered, inventory, by rw [preparation], asked, by rwa [preparation], ?_, ?_,
    ?_, ?_, finished⟩
  · rw [show fetched.plan = _ from same, plan]
    rfl
  · rw [planned, show fetched.plan = _ from same]
    rfl
  · intro p member
    rw [planned] at member
    have needed : p ∈ [s.jar] ∨ p ∈ i.plan.files :=
      (List.mem_cons.mp member).imp_left List.mem_singleton.mpr
    exact (sound.covered p needed).elim (made p) retains.hasFile
  · intro p member
    rw [scheduled_eq preparation] at member
    obtain ⟨job, new, rfl⟩ := given p member
    have entry : job.entry ∈ i.plan.jobs.entries := by
      rw [DownloadList.entries, jobs_added]
      exact List.mem_map_of_mem new
    obtain ⟨size, right⟩ := fulfilled _ entry
    exact ⟨job.entry, size, gains.first job new, right⟩

set_option maxRecDepth 100000 in
theorem whole_run_empty :
    (whole.run .empty).1.toBool ∧ whole.libraries .empty = [] ∧
      (whole.fetched .empty).2.plan.assets = [] := by
  decide +kernel

theorem whole_housed : whole.Housed .empty := by
  obtain ⟨_, libraries, assets⟩ := whole_run_empty
  refine ⟨by decide, ?_, ?_, ⟨by decide, by decide, by decide⟩, nofun⟩
  · rw [libraries]
    exact nofun
  · rw [assets]
    exact nofun

end InstallCall
end Launcher
