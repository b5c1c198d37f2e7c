import Launcher.Proofs.Download.Success
import Launcher.Proofs.Install.Finishing
import Launcher.Proofs.Install.Laying
import Launcher.Proofs.Install.Retry
import Launcher.Proofs.Versions.Repetition

/-! Calling the installation again when it has returned. Every step has left on disk what it looks
for the next time, and no step writes over what another one left, so the second call needs no
network. -/
namespace Launcher

open Launcher.Path (LeadsDown)

namespace Installation
variable {machine : Machine} {s : InstallSettings} {metadata : Members} {i i' : Installation}

/-- The preparation when the metadata are known. -/
def prepareFiles (machine : Machine) (s : InstallSettings) (metadata : Members) :
    InstallAction Unit := do
  planJar s.kind s.jar metadata
  match s.kind with
  | .client => planFiles machine s metadata
  | .server => pure ()

theorem prepare_eq (machine : Machine) (s : InstallSettings) :
    prepare machine s = (do
      let metadata ← loadMetadata s
      prepareFiles machine s metadata
      return metadata) := by
  simp only [prepare, prepareFiles, bind_assoc]
  cases s.kind with
  | client => rfl
  | server => simp only [pure_bind]

theorem loadMetadata_ok (h : (loadMetadata s).run.run i = (.ok metadata, i')) :
    i'.plan = i.plan ∧
      (VersionIndex.metadata s.version (s.directories.metadataFile s.version)).run.run i.world =
        (.ok metadata, i'.world) := by
  obtain ⟨_, i₁, told, h⟩ := run_bind_ok h
  cases told
  obtain ⟨data, i₂, found, h⟩ := run_bind_ok h
  obtain ⟨_, i₃, told, h⟩ := run_bind_ok h
  cases told
  cases h
  obtain ⟨found, plan⟩ := onWorld_ok found
  exact ⟨plan, found⟩

theorem loadMetadata_again
    (found : (VersionIndex.metadata s.version (s.directories.metadataFile s.version)).run.run
      i.world = (.ok metadata, i.world)) :
    (loadMetadata s).run.run i = (.ok metadata, { i with
      events := i.events ++ [.versionLoading s.version] ++ [.versionLoaded s.version] }) := by
  simp only [loadMetadata, tell, run_bind, run_modify, onWorld_run, found]
  rfl

theorem download_idle (none : i.plan.jobs = .empty) :
    (download machine s).run.run i = (.ok (), i) := by
  rw [download, run_bind, run_get]
  simp only [none]
  rfl

/-- Downloads leave the index, and of the plan all but what is to be downloaded. -/
theorem download_keeps (machine : Machine) (s : InstallSettings) (i : Installation) :
    ((download machine s).run.run i).2.world.index = i.world.index ∧
      ∃ jobs, ((download machine s).run.run i).2.plan = { i.plan with jobs } := by
  have keeps : Safe (fun j => j.world.index = i.world.index ∧ ∃ jobs, j.plan = { i.plan with jobs })
      (fun _ => True) (download machine s) := by
    refine .bind .get fun state => ?_
    simp only
    split
    · exact .pure _
    refine .bind (.modify fun _ same => same) fun _ => .bind (.modify ?_) fun _ =>
      .bind (.modify fun _ same => same) fun _ => ?_
    · rintro j ⟨index, jobs, plan⟩
      exact ⟨index, _, by rw [plan]⟩
    · unfold settle
      split
      · exact .throw trivial
      · simp only
        split
        · refine .bind (.modify ?_) fun _ => .modify fun _ same => same
          rintro j ⟨index, jobs, plan⟩
          exact ⟨index, _, by rw [plan]⟩
        · exact .throw trivial
  exact (keeps i ⟨rfl, _, rfl⟩).1

theorem prepareFiles_lays (down : LeadsDown s.version)
    (inside : ∀ libraries, Library.parseAll machine.platform metadata = .ok libraries →
      ∀ library ∈ libraries, LeadsDown library.path) :
    Lays s (prepareFiles machine s metadata) := by
  refine .bind (planJar_lays down metadata) fun _ => ?_
  cases kind : s.kind with
  | client => exact planFiles_lays down kind inside
  | server => exact .pure _

/-- The documents that a version has in its directories. -/
def versionDocuments (s : InstallSettings) : List Path :=
  [s.directories.metadataFile s.version, s.assetsIndex]

theorem prepareFiles_reprepares (down : LeadsDown s.version) {world : World} :
    Reprepares (versionDocuments s) world (prepareFiles machine s metadata) i := by
  have own : ∀ p ∈ versionDocuments s, p.location = s.assetsIndex.location → p = s.assetsIndex := by
    intro p member same
    rcases List.mem_cons.mp member with rfl | member
    · rw [Directories.metadataFile_location _ down,
        InstallSettings.assetsIndex_location down] at same
      simp at same
    · exact List.mem_singleton.mp member
  refine .bind (planJar_reprepares _ _ _) fun _ _ _ => ?_
  cases s.kind with
  | client => exact planFiles_reprepares metadata (by simp [versionDocuments]) own
  | server => exact .pure _

/-- The preparation goes as before in a world that has what it came to. -/
theorem prepare_again (down : LeadsDown s.version) {w later : World} {entry : VersionEntry}
    (prepared : (prepare machine s).run.run (.start w) = (.ok metadata, i))
    (provided : Planning.Provided (versionDocuments s) later ⟨i.world, i.plan⟩)
    (listed : later.index.entryOf s.version = some entry) (digest : entry.sha1.isSome) :
    ∃ j, (prepare machine s).run.run (.start later) = (.ok metadata, j) ∧
      Resembles (· = later) i j := by
  rw [prepare_eq] at prepared
  obtain ⟨data, i₀, loaded, prepared⟩ := run_bind_ok prepared
  obtain ⟨_, i₁, filed, prepared⟩ := run_bind_ok prepared
  cases prepared
  obtain ⟨plan, found⟩ := loadMetadata_ok loaded
  obtain ⟨entry', known, keeps⟩ := VersionIndex.metadata_ok found
  obtain ⟨before, again⟩ :=
    (Repeats.iff_of_run filed).mp (prepareFiles_reprepares down) nofun provided
  obtain ⟨sha1, told⟩ := Option.isSome_iff_exists.mp digest
  obtain rfl : entry' = entry := by
    rw [before.index, listed] at known
    exact (Option.some.inj known).symm
  obtain ⟨bytes, read, same, parsed⟩ := keeps sha1 told
  have held : VersionIndex.Keeps later.files (s.directories.metadataFile s.version) s.version sha1
      metadata :=
    ⟨bytes, before.documents _ List.mem_cons_self _ read, same, parsed⟩
  obtain ⟨j₀, loaded', loading⟩ : ∃ j,
      (loadMetadata s).run.run (.start later) = (.ok metadata, j) ∧ Resembles (· = later) i₀ j := by
    refine ⟨_, loadMetadata_again (VersionIndex.metadata_again listed told held), rfl, ?_, ?_⟩
    · rw [plan]
      rfl
    · simp [Installation.start, InstallEvent.StartsDownload]
  obtain ⟨j, filed', resembles⟩ := again j₀ loading
  refine ⟨j, ?_, resembles⟩
  rw [prepare_eq, run_bind, loaded']
  simp only [run_bind, filed']
  rfl

/-- Where nothing may be written when the downloads are over: the documents of the version and its
archives lie here. -/
def Reserved (s : InstallSettings) (archives : List Path) (l : Location) : Prop :=
  s.IsDocument l ∨ ∃ archive ∈ archives, archive.location = l

/-- The end of an installation goes as before if no file that is extracted has the name of an
archive. -/
theorem finish_again (down : LeadsDown s.version) {later : World}
    (below : ∀ archive ∈ i.plan.natives,
      s.kind = .client ∧ ∃ path, LeadsDown path ∧ archive = s.natives / path)
    (copied : ∀ directory ∈ i.plan.virtualDir, directory = s.virtual)
    (present : ∀ archive ∈ i.plan.natives, i.world.files.HasFile archive)
    (inside : ∀ asset ∈ i.plan.assets, LeadsDown asset.1)
    (other : ∀ name, Natives.Extracts i.world.files i.plan.natives s.natives name →
      ∀ archive ∈ i.plan.natives, archive.name ≠ name) :
    Refinishes (Reserved s i.plan.natives) later (finish machine s metadata) i := by
  refine finish_refinishes machine metadata ?_ ?_ ?_ ?_
  · intro archive member
    exact ⟨present archive member, .inr ⟨archive, member, rfl⟩⟩
  · rintro name extracts (document | ⟨archive, member, same⟩)
    · obtain ⟨made, _, each⟩ := extracts
      exact InstallSettings.extracted_not_isDocument down each.slashless document
    · obtain ⟨_, path, leads, rfl⟩ := below archive member
      have distinct := other name extracts _ member
      obtain ⟨made, parents, each⟩ := extracts
      have grown : i.world.files.Retains (fun _ => False) made := .ofMakeDirectories _ parents
      exact InstallSettings.extracted_ne_native down each.slashless leads distinct
        (FileTree.isDirectory_of_makeDirectories parents) (grown.hasFile (present _ member))
        same.symm
  · rintro directory wanted asset listed (document | ⟨archive, member, same⟩)
    · rw [copied directory wanted] at document
      exact InstallSettings.virtual_not_isDocument down (inside asset listed) document
    · obtain ⟨_, path, leads, rfl⟩ := below archive member
      rw [copied directory wanted] at same
      exact InstallSettings.virtual_ne_native down (inside asset listed) leads same.symm
  · rintro server (document | ⟨archive, member, _⟩)
    · exact InstallSettings.eula_not_isDocument down _ document
    · rw [server] at below
      cases (below archive member).1

/-- An installation whose preparation and end can be repeated is repeated, with no downloads in
between. -/
theorem steps_again {environment : Environment} {left : Installation} {later : World}
    {kept : Location → Prop}
    (prepared : ∃ j, (prepare machine s).run.run (.start later) = (.ok metadata, j) ∧
      Resembles (· = later) i j)
    (plan : ∃ jobs, i'.plan = { i.plan with jobs })
    (finished : (finish machine s metadata).run.run i' = (.ok environment, left))
    (refinishes : Refinishes kept later (finish machine s metadata) i')
    (leads : left.world.LeadsTo kept later) :
    ∃ j, (steps machine s).run.run (.start later) = (.ok environment, j) ∧
      j.world.network = later.network ∧ ∀ event ∈ j.events, ¬ event.StartsDownload := by
  obtain ⟨j, prepared, settled⟩ := prepared
  obtain ⟨jobs, plan⟩ := plan
  obtain ⟨_, again⟩ := (Repeats.iff_of_run finished).mp refinishes nofun leads
  have idle : (download machine s).run.run j = (.ok (), j) :=
    download_idle (by rw [settled.plan])
  have goes : World.GoesOn kept later j.world := by
    rw [settled.world]
    exact ⟨.refl _ _, rfl⟩
  obtain ⟨j', finished', resembles⟩ := again j ⟨goes, by rw [settled.plan, plan], settled.quiet⟩
  refine ⟨j', ?_, resembles.world.network, resembles.quiet⟩
  rw [steps, run_bind, prepared]
  simp only [run_bind, idle, finished']

end Installation

namespace InstallCall
variable (c : InstallCall) (files : FileTree)

/-- The libraries in the metadata that the preparation comes to. -/
def libraries : List Library :=
  match (c.prepared files).1 with
  | .ok metadata => (Library.parseAll c.machine.platform metadata).toOption.getD []
  | .error _ => []

/-- A call of which the index tells the digest of the metadata, whose names lead down from the
directories that they are joined to, and that extracts no file by the name of an archive. -/
structure Orderly : Prop where
  digest : ∃ entry, (c.run files).2.world.index.entryOf c.settings.version = some entry ∧
    entry.sha1.isSome
  version : LeadsDown c.settings.version
  libraries : ∀ library ∈ c.libraries files, LeadsDown library.path
  assets : ∀ asset ∈ (c.fetched files).2.plan.assets, LeadsDown asset.1
  natives : ∀ name, Natives.Extracts (c.fetched files).2.world.files
    (c.fetched files).2.plan.natives c.settings.natives name →
      ∀ archive ∈ (c.fetched files).2.plan.natives, archive.name ≠ name

/-- The same call later on: the index is what it has become, and the network may be another one. -/
def after (later : World) (network : Network) : InstallCall :=
  { c with network, index := later.index }

variable {c files} {metadata : Members} {i : Installation}

theorem fetched_eq (preparation : c.prepared files = (.ok metadata, i)) :
    (c.fetched files).2 = ((Installation.download c.machine c.settings).run.run i).2 := by
  rw [fetched, run_bind, show (Installation.prepare c.machine c.settings).run.run
    (.start (c.world files)) = c.prepared files from rfl, preparation]
  simp only [run_bind]
  rcases (Installation.download c.machine c.settings).run.run i with ⟨_ | _, _⟩ <;> rfl

theorem libraries_eq (preparation : (c.prepared files).1 = .ok metadata) {libraries : List Library}
    (parsed : Library.parseAll c.machine.platform metadata = .ok libraries) :
    c.libraries files = libraries := by
  simp only [InstallCall.libraries, preparation, parsed, Except.toOption, Option.getD_some]

theorem prepared_laid (orderly : c.Orderly files)
    (preparation : c.prepared files = (.ok metadata, i)) :
    Planning.Laid c.settings ⟨i.world, i.plan⟩ := by
  have inside : ∀ libraries, Library.parseAll c.machine.platform metadata = .ok libraries →
      ∀ library ∈ libraries, LeadsDown library.path := by
    intro libraries parsed
    rw [← libraries_eq (by rw [preparation]) parsed]
    exact orderly.libraries
  have prepared := preparation
  rw [InstallCall.prepared, Installation.prepare_eq] at prepared
  obtain ⟨data, i₀, loaded, prepared⟩ := run_bind_ok prepared
  obtain ⟨_, i₁, filed, prepared⟩ := run_bind_ok prepared
  cases prepared
  have empty : Planning.Laid c.settings ⟨i₀.world, i₀.plan⟩ := by
    rw [(Installation.loadMetadata_ok loaded).1]
    exact ⟨nofun, nofun, nofun⟩
  have laid := (Installation.prepareFiles_lays orderly.version inside i₀ empty).1
  rw [filed] at laid
  exact laid

/-- The downloads of a call that returns leave the documents as they are, and a file for each of
them. They change the plan in nothing else, and the rest of the installation goes on from there. -/
theorem returned_cases {environment : Environment} (orderly : c.Orderly files)
    (returned : (c.run files).1 = .ok environment) :
    ∃ metadata i, c.prepared files = (.ok metadata, i) ∧
      let i' := (c.fetched files).2
      i.world.files.Retains c.settings.IsDocument i'.world.files ∧
      (∀ p ∈ i.plan.jobs.destinations, i'.world.files.HasFile p) ∧
      i'.world.index = i.world.index ∧ (∃ jobs, i'.plan = { i.plan with jobs }) ∧
      (Installation.finish c.machine c.settings metadata).run.run i' =
        (.ok environment, (c.run files).2) := by
  obtain ⟨metadata, i, threads, preparation, none, successes, left, finished⟩ :=
    returned_ok returned
  obtain ⟨retains, made⟩ := DownloadList.download_retains (sound_of_prepared preparation).built
    threads i.world.files i.world.network none successes
    (prepared_laid orderly preparation).destinations
  obtain ⟨index, plan⟩ := Installation.download_keeps c.machine c.settings i
  rw [← fetched_eq preparation] at index plan
  rw [← left] at retains made
  exact ⟨metadata, i, preparation, retains, made, index, plan, finished⟩

/-- When a call has returned, the same call returns the same again without a request, whatever the
network would answer now, and starts no download. -/
theorem run_again {environment : Environment} (returned : (c.run files).1 = .ok environment)
    (orderly : c.Orderly files) (network : Network) :
    let left := (c.run files).2.world
    let again := (c.after left network).run left.files
    again.1 = .ok environment ∧ again.2.world.network = network ∧
      ∀ event ∈ again.2.events, ¬ event.StartsDownload := by
  intro left again
  obtain ⟨metadata, i, preparation, retains, made, index, ⟨jobs, plan⟩, finished⟩ :=
    returned_cases orderly returned
  have laid := prepared_laid orderly preparation
  have present : ∀ p ∈ i.plan.natives, (c.fetched files).2.world.files.HasFile p := by
    intro p member
    have needed : p ∈ i.plan.files := by simp [InstallPlan.files, member]
    exact ((sound_of_prepared preparation).covered p (.inr needed)).elim (made p) retains.hasFile
  let later : World := ⟨left.files, network, left.index⟩
  let kept := Installation.Reserved c.settings (c.fetched files).2.plan.natives
  have refinishes : Installation.Refinishes kept later
      (Installation.finish c.machine c.settings metadata) (c.fetched files).2 := by
    refine Installation.finish_again orderly.version ?_ ?_ ?_ orderly.assets orderly.natives
    · rw [plan]
      exact laid.natives
    · rw [plan]
      exact laid.virtualDir
    · rw [plan]
      exact present
  have leads : left.LeadsTo kept later := ⟨.refl _ _, rfl⟩
  -- All that the downloads left is there at the end, so what was prepared is as well.
  obtain ⟨reached, _⟩ := (Repeats.iff_of_run finished).mp refinishes (by rintro _ ⟨⟩) leads
  have stays := retains.trans (reached.files.weaken fun _ => .inl)
  have provided : Planning.Provided (Installation.versionDocuments c.settings) later
      ⟨i.world, i.plan⟩ := by
    constructor
    case files =>
      intro p there
      exact stays.hasFile there
    case documents =>
      intro p member bytes read
      refine stays.read ?_ read
      rcases List.mem_cons.mp member with rfl | member
      · exact .inl rfl
      · exact .inr (congrArg Path.location (List.mem_singleton.mp member))
    case downloads =>
      intro p member
      exact reached.files.hasFile (made p member)
    case index => exact index.symm.trans reached.index
  obtain ⟨entry, listed, digest⟩ := orderly.digest
  obtain ⟨j, ran, still, quiet⟩ := Installation.steps_again
    (Installation.prepare_again orderly.version preparation provided listed digest)
    ⟨jobs, plan⟩ finished refinishes leads
  have whole : again = (.ok environment, j) := ran
  rw [whole]
  exact ⟨rfl, still, quiet⟩

/-- An archive with one member, which is called `a` and holds one byte. -/
def archiveOfOne : Bytes :=
  [0x50, 0x4b, 3, 4, 20, 0, 0, 0, 0, 0, 0, 0, 33, 0, 27, 223, 5, 165, 1, 0, 0, 0, 1, 0, 0, 0, 1, 0,
    0, 0, 97, 1, 0x50, 0x4b, 1, 2, 20, 3, 20, 0, 0, 0, 0, 0, 0, 0, 33, 0, 27, 223, 5, 165, 1, 0, 0,
    0, 1, 0, 0, 0, 1, 0, 0, 0, 0, 0, 0, 0, 0, 0, 0, 0, 128, 1, 0, 0, 0, 0, 97, 0x50, 0x4b, 5, 6, 0,
    0, 0, 0, 1, 0, 1, 0, 47, 0, 0, 0, 32, 0, 0, 0, 0, 0]

/-- The installation of a version with an archive of native libraries, and with an asset that is to
be copied. -/
def native : InstallCall := { whole with
  network := ⟨[("http://n/", [.response 200 [] archiveOfOne none]),
    ("http://v", [.response 200 [] (Bytes.ofText
      ("\x7b\"mainClass\":\"\",\"libraries\":[\x7b\"name\":\"\",\"natives\":" ++
        "\x7b\"linux\":\"\"\x7d,\"downloads\":\x7b\"artifact\":" ++
        "\x7b\"url\":\"http://n/\",\"path\":\"n\"\x7d\x7d\x7d]," ++
        "\"assetIndex\":\x7b\"url\":\"http://i\"\x7d\x7d")) none]),
    ("http://i", [.response 200 [] (Bytes.ofText ("\x7b\"virtual\":1,\"objects\":\x7b\"a\":" ++
      "\x7b\"hash\":\"bf8b4530d8d246dd74ac53a13471bba17941dff7\"\x7d\x7d\x7d")) none])], [], 0⟩
  index := ⟨none, "http://h/m", some [("versions", .list [.object [("id", .string "v"),
    ("url", .string "http://v"), ("sha1", .string "9e604ae57c5616a9bc2d32f9995a525ee3fee879")]])]⟩ }

/-- The program and the asset are there. -/
def withoutNatives : FileTree :=
  let main := FileTree.workingDirectory ++ ["main"]
  let objects := main ++ ["assets", "objects"]
  ⟨FileTree.empty.entries ++ [(main, .directory), (main ++ ["client.jar"], .file []),
    (main ++ ["assets"], .directory), (objects, .directory), (objects ++ ["bf"], .directory),
    (objects ++ ["bf", "bf8b4530d8d246dd74ac53a13471bba17941dff7"], .file [1])]⟩

set_option maxRecDepth 100000 in
theorem native_run :
    (native.run withoutNatives).1.toBool ∧
      ((native.run withoutNatives).2.world.index.entryOf "v").any (·.sha1.isSome) ∧
      (native.libraries withoutNatives).map (·.path) = ["n"] ∧
      (native.fetched withoutNatives).2.plan.assets.map (·.1) = ["a"] ∧
      (native.fetched withoutNatives).2.plan.natives = [native.settings.natives / "n"] ∧
      Natives.baseNames ((FileTree.makeDirectories native.settings.natives).run.run
        (native.fetched withoutNatives).2.world.files).2 (native.settings.natives / "n") =
          ["a"] := by
  decide +kernel

theorem native_orderly : native.Orderly withoutNatives := by
  obtain ⟨_, digest, libraries, assets, natives, extracted⟩ := native_run
  refine ⟨?_, by decide, ?_, ?_, ?_⟩
  · exact (Option.any_eq_true _ _).mp digest
  · intro library member
    have path := List.mem_map_of_mem (f := (·.path)) member
    rw [libraries, List.mem_singleton] at path
    rw [path]
    decide
  · intro asset member
    have id := List.mem_map_of_mem (f := (·.1)) member
    rw [assets, List.mem_singleton] at id
    rw [id]
    decide
  · intro name extracts archive member
    rw [natives] at extracts member
    have called := extracts.mem_baseNames
    rw [extracted, List.mem_singleton] at called
    rw [List.mem_singleton.mp member, called]
    decide

/-- The second installation of natives makes do with a network that answers nothing. -/
theorem native_run_again :
    ∃ environment, (native.run withoutNatives).1 = .ok environment ∧
      let left := (native.run withoutNatives).2.world
      let again := (native.after left .empty).run left.files
      again.1 = .ok environment ∧ again.2.world.network = .empty ∧
        ∀ event ∈ again.2.events, ¬ event.StartsDownload := by
  obtain ⟨environment, returned⟩ := exists_ok_of_toBool native_run.1
  exact ⟨environment, returned, run_again returned native_orderly .empty⟩

end InstallCall
end Launcher
