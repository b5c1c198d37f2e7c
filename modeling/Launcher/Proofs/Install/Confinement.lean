import Launcher.Proofs.Install.Alteration
import Launcher.Proofs.Install.Protocol

/-! Where an installation may change files: at known places for the documents, the program, the
libraries, the objects, what is extracted and what is copied. All of them lie below the main or the
working directory as long as the names in them lead down. -/
namespace Launcher

open Launcher.Path (LeadsDown ofText)
open InstallPlan (AssetObject libraryFile objectFile)

theorem Path.Below.parent {p q : Path} {name : String} (below : p.Below [name] q) :
    q.parent = p := by
  rw [Path.parent, below.anchor, below.parts, List.dropLast_concat]

/-- Below one of the two directories in which an installation keeps its files. -/
def Directories.Holds (d : Directories) (l : Location) : Prop :=
  ∃ top ∈ [d.main, d.work], ∃ name names, l = top.location ++ name :: names

namespace Directories
variable {d : Directories} {p : Path}

theorem Holds.main {name : String} {names : List String} (below : d.main.Below (name :: names) p) :
    d.Holds p.location :=
  ⟨d.main, List.mem_cons_self, name, names, below.location⟩

theorem Holds.work {name : String} {names : List String} (below : d.work.Below (name :: names) p) :
    d.Holds p.location :=
  ⟨d.work, by simp, name, names, below.location⟩

theorem clientJar_below : d.work.Below ["client.jar"] d.clientJar :=
  (show LeadsDown "client.jar" by decide).below d.work

theorem server_below : d.work.Below ["server"] d.server :=
  (show LeadsDown "server" by decide).below d.work

end Directories

/-- The preparation of a server plans its program and nothing else. -/
theorem Installation.prepare_ok_server {machine : Machine} {s : InstallSettings} {w : World}
    {metadata : Members} {i : Installation} (server : s.kind = .server)
    (h : (prepare machine s).run.run (.start w) = (.ok metadata, i)) :
    ∃ (offered : Option DownloadEntry) (added : List DownloadJob) (i₀ : Installation),
      (loadMetadata s).run.run (.start w) = (.ok metadata, i₀) ∧
      jarEntry .server s.jar metadata = .ok offered ∧ i.world = i₀.world ∧
      DownloadList.Gains i₀.files i₀.files offered.toList .empty i.plan.jobs added ∧
      i.plan = .ofJobs i.plan.jobs := by
  obtain ⟨data, i₀, loaded, h⟩ := run_bind_ok h
  obtain ⟨plan, _⟩ := loadMetadata_ok loaded
  obtain ⟨_, i₁, program, h⟩ := run_bind_ok h
  simp only [server] at program h
  cases h
  obtain ⟨offered, jobs, added, asked, gains, world₁, plan₁⟩ := planJar_ok program
  rw [plan] at gains plan₁
  refine ⟨offered, added, i₀, loaded, asked, world₁, ?_, ?_⟩
  · rw [plan₁]
    exact gains
  · rw [plan₁]
    rfl

namespace InstallCall
variable (c : InstallCall) (files : FileTree)

/-- The places where a call may change files. -/
inductive Writes : Location → Prop
  | index {file : Path} : file ∈ c.index.cache → Writes file.location
  | document {l : Location} : c.settings.IsDocument l → Writes l
  | program : Writes c.settings.jar.location
  | library {library : Library} : library ∈ c.libraries files →
      Writes (libraryFile c.settings.directories.libraries c.settings.natives library).location
  | object {object : AssetObject} : isSha1 object.hash →
      Writes (objectFile (c.settings.directories.assets / "objects") object).location
  | extracted {name : String} : '/' ∉ name.toList → Writes (c.settings.natives / name).location
  | copied {asset : String × Path} : asset ∈ (c.prepared files).2.plan.assets →
      Writes (c.settings.virtual / asset.1).location
  | licence : c.settings.kind = .server → Writes (c.settings.jar.parent / "eula.txt").location

/-- The places of files whose names lead elsewhere than down from the directory that they are
joined to. -/
inductive Strays : Location → Prop
  | document {l : Location} : ¬ LeadsDown c.settings.version → c.settings.IsDocument l → Strays l
  | library {library : Library} : library ∈ c.libraries files →
      ¬ (LeadsDown c.settings.version ∧ LeadsDown library.path) →
      Strays (libraryFile c.settings.directories.libraries c.settings.natives library).location
  | extracted {name : String} : ¬ LeadsDown c.settings.version → '/' ∉ name.toList →
      Strays (c.settings.natives / name).location
  | copied {asset : String × Path} : asset ∈ (c.prepared files).2.plan.assets →
      ¬ (LeadsDown c.settings.version ∧ LeadsDown asset.1) →
      Strays (c.settings.virtual / asset.1).location

variable {c files} {metadata : Members} {i : Installation}

/-- What is to be downloaded for a plan belongs to places where the call may change files. -/
theorem entries_write (preparation : c.prepared files = (.ok metadata, i)) :
    ∀ entry ∈ i.plan.jobs.entries, c.Writes files entry.destination.location := by
  intro entry member
  obtain ⟨job, listed, rfl⟩ := List.mem_map.mp member
  have prepared : (Installation.prepare c.machine c.settings).run.run (.start (c.world files)) =
    (.ok metadata, i) := preparation
  have program {kind : JarKind} {offered : Option DownloadEntry}
      (asked : Installation.jarEntry kind c.settings.jar metadata = .ok offered)
      (mine : job.entry ∈ offered.toList) : c.Writes files job.entry.destination.location := by
    rw [Option.mem_toList.mp mine] at asked
    rw [Installation.jarEntry_destination asked]
    exact .program
  cases kind : c.settings.kind with
  | server =>
    obtain ⟨offered, added, _, _, asked, _, gains, _⟩ :=
      Installation.prepare_ok_server kind prepared
    have jobs : i.plan.jobs.jobs = added := gains.jobs
    exact program asked (gains.mem_entries (jobs ▸ listed))
  | client =>
    obtain ⟨offered, inventory, loaded, added, asked, consists, gains, _⟩ :=
      Installation.prepare_ok kind prepared
    have jobs : i.plan.jobs.jobs = added := gains.jobs
    rcases List.mem_append.mp (gains.mem_entries (jobs ▸ listed)) with mine | mine
    · exact program asked mine
    · rcases List.mem_append.mp mine with mine | mine
      · obtain ⟨library, allowed, same⟩ := List.mem_map.mp mine
        obtain ⟨libraries, parsed, filtered⟩ := consists.libraries
        rw [filtered] at allowed
        rw [← same]
        refine .library ?_
        rw [libraries_eq (by rw [preparation]) parsed]
        exact (List.mem_filter.mp allowed).1
      · obtain ⟨asset, named, same⟩ := List.mem_map.mp mine
        rw [← same]
        exact .object (consists.digest asset named)

theorem virtual_of_prepared (preparation : c.prepared files = (.ok metadata, i)) :
    ∀ directory ∈ i.plan.virtualDir, directory = c.settings.virtual := by
  have prepared : (Installation.prepare c.machine c.settings).run.run (.start (c.world files)) =
    (.ok metadata, i) := preparation
  intro directory wanted
  cases kind : c.settings.kind with
  | server =>
    obtain ⟨_, _, _, _, _, _, _, plan⟩ := Installation.prepare_ok_server kind prepared
    rw [plan] at wanted
    cases wanted
  | client =>
    obtain ⟨_, inventory, _, _, _, _, _, plan⟩ := Installation.prepare_ok kind prepared
    rw [plan, Inventory.record] at wanted
    simp only at wanted
    split at wanted
    · exact (Option.some.inj wanted).symm
    · cases wanted

/-- A call changes files at its places only, whether it returns or not. -/
theorem run_alters (c : InstallCall) (files : FileTree) :
    files.Alters (c.Writes files) (fun _ => True) (c.run files).2.world.files := by
  have free {p : Path} (place : c.Writes files p.location) :
      p.IsFree (c.Writes files) (fun _ => True) := ⟨place, fun _ => trivial⟩
  have begun : files.Alters (c.Writes files) (fun _ => True) (c.prepared files).2.world.files :=
    Installation.prepare_alters (fun file kept => free (.index kept))
      (free (.document (.inl rfl))) fun _ => free (.document (.inr rfl))
  rcases preparation : c.prepared files with ⟨e | metadata, i⟩
  · rw [preparation] at begun
    rw [run_unprepared preparation]
    exact begun
  · have fetched : i.world.files.Alters (c.Writes files) (fun _ => True) (c.batch files).files := by
      rw [batch, preparation]
      exact DownloadList.download_alters _ _ _ _ fun entry member =>
        free (entries_write preparation entry member)
    rw [preparation] at begun
    rw [run_prepared preparation]
    have through := begun.trans fetched
    cases (c.batch files).verdict with
    | error e => exact through
    | ok =>
      refine through.trans (Installation.finish_alters (i := c.downloaded files)
        (fun _ => ⟨fun _ => trivial, fun name slashless => .extracted slashless⟩) ?_
        (fun _ _ => trivial) (fun server => free (.licence server)) metadata)
      intro directory wanted asset listed
      have plan : (c.downloaded files).plan.virtualDir = i.plan.virtualDir ∧
          (c.downloaded files).plan.assets = i.plan.assets := by
        rw [downloaded, preparation]
        exact ⟨rfl, rfl⟩
      rw [plan.1] at wanted
      rw [plan.2] at listed
      rw [virtual_of_prepared preparation directory wanted]
      refine free (.copied ?_)
      rw [preparation]
      exact listed

/-- The places of a call lie below its directories if the names in them lead down. Only the file of
the index of versions lies where the caller wants it. -/
theorem Writes.held {l : Location} (writes : c.Writes files l) :
    c.settings.directories.Holds l ∨ (∃ file ∈ c.index.cache, l = file.location) ∨
      c.Strays files l := by
  have stray {names : Prop} {l : Location} (held : names → c.settings.directories.Holds l)
      (strays : ¬ names → c.Strays files l) : c.settings.directories.Holds l ∨
        (∃ file ∈ c.index.cache, l = file.location) ∨ c.Strays files l := by
    by_cases down : names
    · exact .inl (held down)
    · exact .inr (.inr (strays down))
  cases writes with
  | index kept => exact .inr (.inl ⟨_, kept, rfl⟩)
  | document document =>
    refine stray (fun down => ?_) fun astray => .document astray document
    rcases document with rfl | rfl
    · exact ⟨_, List.mem_cons_self, _, _, Directories.metadataFile_location _ down⟩
    · exact ⟨_, List.mem_cons_self, _, _, InstallSettings.assetsIndex_location down⟩
  | program =>
    left
    unfold InstallSettings.jar
    cases c.settings.kind with
    | client => exact .work Directories.clientJar_below
    | server =>
      exact .work (Directories.server_below.trans ((show LeadsDown "server.jar" by decide).below _))
  | @library library listed =>
    refine stray ?_ fun astray => .library listed astray
    rintro ⟨down, inside⟩
    unfold libraryFile
    split
    · obtain ⟨names, below⟩ := c.settings.directories.native_below down inside
      exact .main below
    · exact .main (c.settings.directories.library_below inside)
  | object digest =>
    obtain ⟨names, below⟩ := c.settings.directories.object_below digest
    exact .inl (.main below)
  | @extracted name slashless =>
    refine stray (fun down => ?_) fun astray => .extracted astray slashless
    rcases Path.leadsDown_of_slashless slashless c.settings.natives with up | beside
    · rw [up, InstallSettings.natives, Directories.natives_location _ down, List.dropLast_concat]
      exact ⟨_, List.mem_cons_self, _, _, rfl⟩
    · obtain ⟨names, below⟩ := c.settings.directories.native_below down beside
      exact .main below
  | copied listed =>
    refine stray ?_ fun astray => .copied listed astray
    rintro ⟨down, inside⟩
    exact ⟨_, List.mem_cons_self, _, _, InstallSettings.virtual_location down inside⟩
  | licence server =>
    left
    have above : c.settings.jar.parent = c.settings.directories.server := by
      rw [InstallSettings.jar, server]
      exact Path.Below.parent ((show LeadsDown "server.jar" by decide).below _)
    rw [above]
    exact .work (Directories.server_below.trans ((show LeadsDown "eula.txt" by decide).below _))

/-- Whatever the index, the metadata, the assets index and the network say, every file that a call
creates, overwrites or removes lies below its main or its working directory, or is the one in which
the caller keeps the index of versions, or has a name that does not lead down. -/
theorem run_confined (c : InstallCall) (files : FileTree) (l : Location) :
    (c.run files).2.world.files.content? l = files.content? l ∨
      c.settings.directories.Holds l ∨ (∃ file ∈ c.index.cache, l = file.location) ∨
      c.Strays files l := by
  rcases (c.run_alters files).content? l with same | writes
  · exact .inl same
  · exact .inr writes.held

/-- The installation of a version with a library whose path leads out of the directory of
libraries, and out of the main directory. -/
def escaping : InstallCall := { whole with
  network := ⟨[("http://h/l", [.response 200 [] [2] none]),
    ("http://h/v", [.response 200 [] (Bytes.ofText
      ("\x7b\"mainClass\":\"\",\"libraries\":[\x7b\"name\":\"\",\"downloads\":" ++
        "\x7b\"artifact\":\x7b\"url\":\"http://h/l\",\"path\":\"../../o\"\x7d\x7d\x7d]\x7d"))
      none])], [], 0⟩ }

/-- The program is there. -/
def withProgram : FileTree :=
  let main := FileTree.workingDirectory ++ ["main"]
  ⟨FileTree.empty.entries ++ [(main, .directory), (main ++ ["client.jar"], .file [])]⟩

set_option maxRecDepth 100000 in
theorem escaping_run :
    (escaping.run withProgram).1.toBool ∧
      (escaping.run withProgram).2.world.files.content? (FileTree.workingDirectory ++ ["o"]) =
        some [2] := by
  decide +kernel

/-- A library can come to lie outside of both directories, which are free of two dots, although the
installation returns. -/
theorem escaping_leaves_directories :
    escaping.settings.directories.main.IsPlain ∧ escaping.settings.directories.work.IsPlain ∧
      escaping.index.cache = none ∧ (escaping.run withProgram).1.toBool ∧
      ∃ l, (escaping.run withProgram).2.world.files.content? l ≠ withProgram.content? l ∧
        ¬ escaping.settings.directories.Holds l := by
  obtain ⟨returned, there⟩ := escaping_run
  refine ⟨by decide, by decide, rfl, returned, FileTree.workingDirectory ++ ["o"], ?_, ?_⟩
  · rw [there]
    decide
  · rintro ⟨top, member, name, names, same⟩
    have here : top.location = FileTree.workingDirectory ++ ["main"] := by
      rcases List.mem_pair.mp member with rfl | rfl <;> decide
    rw [here, List.append_assoc] at same
    simpa using List.append_cancel_left same

end InstallCall
end Launcher
