import Launcher.Proofs.Install.Likeness
import Launcher.Proofs.Network.Pursuit

/-! The installation of a server. It downloads one program: what the metadata say beside that is not
looked at, nothing is written where a client keeps libraries, assets and native libraries, and
nothing is asked for but the documents and the program. -/
namespace Launcher

open Launcher.Path (LeadsDown ofText)

/-- The directories in which a client keeps libraries, assets and native libraries. -/
def InstallSettings.stores (s : InstallSettings) : List Path :=
  [s.directories.libraries, s.directories.assets, s.natives]

/-- A path leads strictly below another one. -/
def Path.Enters (p top : Path) : Prop := ∃ name, top.location ++ [name] <+: p.location

namespace InstallSettings
variable {s : InstallSettings} {top : Path}

theorem stores_location (store : top ∈ s.stores) :
    ∃ above last, top.location = above ++ [last] ∧ last ≠ "server" := by
  rcases List.mem_cons.mp store with rfl | store
  · exact ⟨_, "libraries", (show LeadsDown "libraries" by decide).location _, by decide⟩
  · rcases List.mem_pair.mp store with rfl | rfl
    · exact ⟨_, "assets", (show LeadsDown "assets" by decide).location _, by decide⟩
    · exact ⟨_, "natives", (show LeadsDown "natives" by decide).location _, by decide⟩

theorem jar_of_server (server : s.kind = .server) :
    s.jar = s.directories.server / "server.jar" ∧ s.jar.parent = s.directories.server := by
  have place : s.jar = s.directories.server / "server.jar" := by rw [jar, server]
  refine ⟨place, ?_⟩
  rw [place]
  exact Path.Below.parent ((show LeadsDown "server.jar" by decide).below _)

/-- The files of a server lie in a directory of their own. -/
theorem not_enters_server {name : String} (named : LeadsDown name)
    (one : (ofText name).parts = [name]) (store : top ∈ s.stores)
    (outside : ¬ top.location <+: s.directories.work.location) :
    ¬ (s.directories.server / name).Enters top := by
  rintro ⟨first, inside⟩
  obtain ⟨above, last, ends, other⟩ := stores_location store
  rw [named.location, one, Directories.server_below.location] at inside
  rcases List.prefix_concat_iff.mp inside with same | inside
  · have directory := (List.append_inj_left' same rfl)
    rw [ends] at directory
    exact other (List.singleton_inj.mp (List.append_inj_right' directory rfl))
  · rcases List.prefix_concat_iff.mp inside with same | inside
    · exact outside ⟨[], by rw [List.append_nil, List.append_inj_left' same rfl]⟩
    · exact outside ((List.prefix_append _ _).trans inside)

/-- The metadata of a version whose name leads down are not kept in a store. -/
theorem metadataFile_not_enters (down : LeadsDown s.version) (store : top ∈ s.stores) :
    ¬ (s.directories.metadataFile s.version).Enters top := by
  rintro ⟨first, inside⟩
  rw [Directories.metadataFile_location _ down] at inside
  rcases List.mem_cons.mp store with rfl | store
  · rw [Directories.libraries, (show LeadsDown "libraries" by decide).location,
      List.append_assoc, List.prefix_append_right_inj] at inside
    exact absurd (List.cons_prefix_cons.mp inside).1 (by decide)
  · rcases List.mem_pair.mp store with rfl | rfl
    · rw [Directories.assets, (show LeadsDown "assets" by decide).location,
        List.append_assoc, List.prefix_append_right_inj] at inside
      exact absurd (List.cons_prefix_cons.mp inside).1 (by decide)
    · rw [natives, Directories.natives_location _ down, List.append_assoc, List.append_assoc,
        List.prefix_append_right_inj] at inside
      have short := (List.cons_prefix_cons.mp inside).2.length_le
      obtain ⟨above, last, parts, version⟩ := Path.parts_json s.version
      rcases version with version | version
      · simp [parts, version] at short
      · simp [parts, version] at short

end InstallSettings

namespace Installation
variable {machine : Machine} {s : InstallSettings} {metadata : Members} {i : Installation}

theorem loadMetadata_world (s : InstallSettings) (w : World) :
    ((loadMetadata s).run.run (.start w)).2.world =
      ((VersionIndex.metadata s.version (s.directories.metadataFile s.version)).run.run w).2 := by
  rw [loadMetadata, run_bind, tell, run_modify]
  simp only
  rw [run_bind, onWorld_run]
  simp only [start]
  generalize (VersionIndex.metadata _ _).run.run w = outcome
  obtain ⟨e | metadata, left⟩ := outcome
  · rfl
  · rfl

/-- To plan a program is to look for it and no more. -/
theorem planJar_world (kind : JarKind) (jar : Path) (metadata : Members) (i : Installation) :
    ((planJar kind jar metadata).run.run i).2.world = i.world := by
  rw [planJar]
  rcases jarEntry kind jar metadata with e | _ | entry
  · rfl
  · rw [ofExcept, pure_bind, run_bind, inspect_run]
    cases i.world.files.isFile jar with
    | error e => rfl
    | ok isThere => cases isThere <;> rfl
  · rw [ofExcept, pure_bind, run_bind, onPlan_run, InstallPlan.require_run]
    cases i.plan.jobs.add i.world.files entry true <;> rfl

theorem serverEnvironment_network (s : InstallSettings) (i : Installation) :
    ((serverEnvironment s).run.run i).2.world.network = i.world.network := by
  rw [serverEnvironment, run_bind, onWorld_run]
  rcases wrote : (Action.writeBelow (s.jar.parent / "eula.txt")
    (Bytes.ofText "eula = true\n")).run.run i.world with ⟨e | _, w⟩
  · exact (Action.writeBelow_leaves wrote).1
  · exact (Action.writeBelow_leaves wrote).1

end Installation

namespace InstallCall
variable {c : InstallCall} {files : FileTree} {metadata : Members} {i : Installation}

section Requests

/-- A server has its program to download, or nothing. -/
theorem jobs_of_server (server : c.settings.kind = .server)
    (preparation : c.prepared files = (.ok metadata, i)) :
    i.plan.jobs.jobs = [] ∨ ∃ entry target,
      Installation.jarEntry .server c.settings.jar metadata = .ok (some entry) ∧
        DownloadTarget.ofUrl entry.url = .ok target ∧ i.plan.jobs.jobs = [⟨target, entry⟩] := by
  obtain ⟨offered, added, _, _, asked, _, gains, _⟩ :=
    Installation.prepare_ok_server server preparation
  have jobs : i.plan.jobs.jobs = added := gains.jobs
  have distinct : (added.map (·.entry.destination)).Nodup := by
    have built := (gains.built .empty).destinations.2
    rwa [gains.destinations] at built
  have mine : ∀ job ∈ added, offered = some job.entry := fun job member =>
    Option.mem_toList.mp (gains.mem_entries member)
  rw [jobs]
  match added, distinct, mine, gains.target with
  | [], _, _, _ => exact .inl rfl
  | [job], _, mine, target =>
    have member : job ∈ [job] := List.mem_cons_self
    rw [mine job member] at asked
    exact .inr ⟨job.entry, job.target, asked, target job member, rfl⟩
  | a :: b :: _, distinct, mine, _ =>
    have same := (mine a List.mem_cons_self).symm.trans (mine b (by simp))
    simp [Option.some.inj same] at distinct

/-- What a server asks for after its metadata: its program, with redirections, if it is offered. -/
theorem program_pursued (server : c.settings.kind = .server) (files : FileTree) :
    ∃ program, (c.loaded files).2.world.network.Asks program (c.run files).2.world.network ∧
      (program = [] ∨ ∃ metadata entry target, (c.loaded files).1 = .ok metadata ∧
        Installation.jarEntry .server c.settings.jar metadata = .ok (some entry) ∧
        DownloadTarget.ofUrl entry.url = .ok target ∧
        (c.loaded files).2.world.network.script.Pursues entry.Leads target.url program) := by
  rcases began : c.loaded files with ⟨e | metadata, i⟩
  · have failed : c.prepared files = (.error e, i) := by
      have began' : (Installation.loadMetadata c.settings).run.run (.start (c.world files)) =
        (.error e, i) := began
      rw [prepared, Installation.prepare, run_bind, began']
    rw [run_unprepared failed]
    exact ⟨[], .refl _, .inl rfl⟩
  · have preparation := prepared_server server began
    have world := Installation.planJar_world .server c.settings.jar metadata i
    generalize (Installation.planJar .server c.settings.jar metadata).run.run i = outcome
      at preparation world
    obtain ⟨e | _, j⟩ := outcome
    · rw [run_unprepared preparation]
      simp only at world ⊢
      rw [world]
      exact ⟨[], .refl _, .inl rfl⟩
    · simp only at preparation world
      have ended : (c.run files).2.world.network = (c.batch files).network := by
        have ran := run_server server preparation
        cases verdict : (c.batch files).verdict with
        | error e =>
          simp only [verdict] at ran
          rw [ran]
          rfl
        | ok =>
          simp only [verdict] at ran
          rw [ran, Installation.serverEnvironment_network]
          rfl
      rw [ended, batch, preparation]
      simp only [world]
      rcases jobs_of_server server preparation with none | ⟨entry, target, asked, aimed, only⟩
      · rw [DownloadList.download_idle none]
        exact ⟨[], .refl _, .inl rfl⟩
      · obtain ⟨urls, pursues, asks⟩ := DownloadList.download_pursues only
          (Installation.threadsFor c.machine c.settings j.plan.jobs.entries.length)
          i.world.files i.world.network
        exact ⟨urls, asks, .inr ⟨metadata, entry, target, rfl, asked, aimed, pursues⟩⟩

end Requests

section Frame

/-- The files that a call for a server may write. -/
inductive ServerFile (c : InstallCall) : Path → Prop
  | index {file : Path} : file ∈ c.index.cache → ServerFile c file
  | metadata : ServerFile c (c.settings.directories.metadataFile c.settings.version)
  | program : ServerFile c c.settings.jar
  | licence : ServerFile c (c.settings.jar.parent / "eula.txt")

/-- A call for a server changes those files only, and makes directories above them only. -/
theorem run_server_alters (server : c.settings.kind = .server) (files : FileTree) :
    files.Alters (fun l => ∃ p, c.ServerFile p ∧ l = p.location)
      (fun l => ∃ p, c.ServerFile p ∧ ∃ n, l = (p.parent.ancestor n).location)
      (c.run files).2.world.files := by
  have free {p : Path} (mine : c.ServerFile p) :
      p.IsFree (fun l => ∃ p, c.ServerFile p ∧ l = p.location)
        (fun l => ∃ p, c.ServerFile p ∧ ∃ n, l = (p.parent.ancestor n).location) :=
    ⟨⟨p, mine, rfl⟩, fun n => ⟨p, mine, n, rfl⟩⟩
  have begun : files.Alters _ _ (c.prepared files).2.world.files :=
    Installation.prepare_alters (fun file kept => free (.index kept)) (free .metadata)
      fun client => nomatch server.symm.trans client
  rcases preparation : c.prepared files with ⟨e | metadata, i⟩
  · rw [preparation] at begun
    rw [run_unprepared preparation]
    exact begun
  · rw [preparation] at begun
    have fetched : i.world.files.Alters (fun l => ∃ p, c.ServerFile p ∧ l = p.location)
        (fun l => ∃ p, c.ServerFile p ∧ ∃ n, l = (p.parent.ancestor n).location)
        (c.batch files).files := by
      rw [batch, preparation]
      refine DownloadList.download_alters _ _ _ _ fun entry member => ?_
      obtain ⟨job, listed, rfl⟩ := List.mem_map.mp member
      rcases jobs_of_server server preparation with none | ⟨entry, target, asked, _, only⟩
      · rw [none] at listed
        cases listed
      · rw [only] at listed
        rw [List.mem_singleton.mp listed, Installation.jarEntry_destination asked]
        exact free .program
    have through := begun.trans fetched
    have ran := run_server server preparation
    cases verdict : (c.batch files).verdict with
    | error e =>
      simp only [verdict] at ran
      rw [ran]
      exact through
    | ok =>
      simp only [verdict] at ran
      rw [ran]
      exact through.trans (Installation.serverEnvironment_alters (i := c.downloaded files)
        (free .licence))

theorem ServerFile.isPlain {p : Path} (mine : c.ServerFile p) (down : LeadsDown c.settings.version)
    (server : c.settings.kind = .server) (main : c.settings.directories.main.IsPlain)
    (work : c.settings.directories.work.IsPlain) (cache : ∀ file ∈ c.index.cache, file.IsPlain) :
    p.IsPlain := by
  have directory : c.settings.directories.server.IsPlain :=
    (show LeadsDown "server" by decide).isPlain work
  obtain ⟨jar, above⟩ := InstallSettings.jar_of_server server
  cases mine with
  | index kept => exact cache _ kept
  | metadata => exact down.json.isPlain ((show LeadsDown "versions" by decide).isPlain main)
  | program =>
    rw [jar]
    exact (show LeadsDown "server.jar" by decide).isPlain directory
  | licence =>
    rw [above]
    exact (show LeadsDown "eula.txt" by decide).isPlain directory

/-- A call for a server changes nothing in a store but files that the caller or a name which does not
lead down put there. -/
theorem run_server_frame (server : c.settings.kind = .server) (files : FileTree) {top : Path}
    (store : top ∈ c.settings.stores)
    (outside : ¬ top.location <+: c.settings.directories.work.location) {l : Location}
    {name : String} (below : top.location ++ [name] <+: l) :
    ((c.run files).2.world.files.content? l = files.content? l ∨
      (∃ file ∈ c.index.cache, l = file.location) ∨
      ¬ LeadsDown c.settings.version ∧
        l = (c.settings.directories.metadataFile c.settings.version).location) ∧
    (LeadsDown c.settings.version → c.settings.directories.main.IsPlain →
      c.settings.directories.work.IsPlain →
      (∀ file ∈ c.index.cache, file.IsPlain ∧ ¬ top.location <+: file.location) →
      (c.run files).2.world.files.get? l = files.get? l) := by
  obtain ⟨jar, above⟩ := InstallSettings.jar_of_server server
  have enters {p : Path} (mine : c.ServerFile p) (inside : p.Enters top) :
      p ∈ c.index.cache ∨ ¬ LeadsDown c.settings.version ∧
        p = c.settings.directories.metadataFile c.settings.version := by
    cases mine with
    | index kept => exact .inl kept
    | metadata =>
      exact .inr ⟨fun down => InstallSettings.metadataFile_not_enters down store inside, rfl⟩
    | program =>
      rw [jar] at inside
      exact absurd inside (InstallSettings.not_enters_server (by decide) (by decide) store outside)
    | licence =>
      rw [above] at inside
      exact absurd inside (InstallSettings.not_enters_server (by decide) (by decide) store outside)
  have alters := run_server_alters server files
  constructor
  · rcases alters.content? l with same | ⟨p, mine, rfl⟩
    · exact .inl same
    · rcases enters mine ⟨name, below⟩ with kept | ⟨astray, rfl⟩
      · exact .inr (.inl ⟨p, kept, rfl⟩)
      · exact .inr (.inr ⟨astray, rfl⟩)
  · intro down main work cache
    have never {p : Path} (mine : c.ServerFile p) (inside : l <+: p.location) : False := by
      have entered := below.trans inside
      rcases enters mine ⟨name, entered⟩ with kept | ⟨astray, _⟩
      · exact (cache p kept).2 ((List.prefix_append _ _).trans entered)
      · exact astray down
    rcases alters l with same | ⟨_, _, p, mine, n, rfl⟩ | ⟨p, mine, rfl⟩
    · exact same
    · have plain := mine.isPlain down server main work fun file kept => (cache file kept).1
      exact (never mine (Path.ancestor_prefix plain n)).elim
    · exact (never mine List.prefix_rfl).elim

end Frame

/-- The installation of a server depends on what its metadata say of downloads, and on nothing else
that they say: from other metadata with the same downloads it ends alike and leaves the same, but
for the documents themselves. Where a client keeps libraries, assets and native libraries it writes
nothing, unless the name of the version leads there or the caller keeps the index there. It asks
for the index unless that is known, for the metadata and for its program, and follows
redirections. -/
theorem run_server_determined (c : InstallCall) (server : c.settings.kind = .server)
    (files : FileTree) :
    (∀ (network : Network) (index : VersionIndex) (files' : FileTree)
        (metadata metadata' : Members) (i i' : Installation),
      let c' := { c with network, index }
      c.loaded files = (.ok metadata, i) → c'.loaded files' = (.ok metadata', i') →
      metadata'.getD "downloads" = metadata.getD "downloads" →
      files.Alike c.Keeps files' → index.cache = c.index.cache →
      index.data.isSome = c.index.data.isSome → network.connections = c.network.connections →
      (∀ url, c.Downloads files url → i'.world.network.script url = i.world.network.script url) →
      (c'.run files').1 = (c.run files).1 ∧
        (c'.run files').2.events = (c.run files).2.events ∧
        (c.run files).2.world.files.Alike c.Keeps (c'.run files').2.world.files ∧
        ∃ told, (c.run files).2.world.network.log = i.world.network.log ++ told ∧
          (c'.run files').2.world.network.log = i'.world.network.log ++ told) ∧
    (∀ top ∈ c.settings.stores, ¬ top.location <+: c.settings.directories.work.location →
      ∀ l name, top.location ++ [name] <+: l →
      ((c.run files).2.world.files.content? l = files.content? l ∨
        (∃ file ∈ c.index.cache, l = file.location) ∨
        ¬ LeadsDown c.settings.version ∧
          l = (c.settings.directories.metadataFile c.settings.version).location) ∧
      (LeadsDown c.settings.version → c.settings.directories.main.IsPlain →
        c.settings.directories.work.IsPlain →
        (∀ file ∈ c.index.cache, file.IsPlain ∧ ¬ top.location <+: file.location) →
        (c.run files).2.world.files.get? l = files.get? l)) ∧
    ∃ index document program,
      VersionIndex.Inquires c.settings.version (c.world files) (c.loaded files).2.world index
        document ∧
      (program = [] ∨ ∃ metadata entry target, (c.loaded files).1 = .ok metadata ∧
        Installation.jarEntry .server c.settings.jar metadata = .ok (some entry) ∧
        DownloadTarget.ofUrl entry.url = .ok target ∧
        (c.loaded files).2.world.network.script.Pursues entry.Leads target.url program) ∧
      (c.run files).2.world.network.asked =
        c.network.asked ++ (index ++ document) ++ program := by
  refine ⟨?_, fun top store outside l name below => run_server_frame server files store outside
    below, ?_⟩
  · intro network index files' metadata metadata' i i' c' loaded loaded' same alike cache known
      connections replies
    have machine : c'.machine = c.machine := rfl
    have settings : c'.settings = c.settings := rfl
    have like := loaded_like settings loaded loaded' alike cache known connections
    have avoids : (c.worker files).Avoids fun url =>
        i'.world.network.script url ≠ i.world.network.script url :=
      fun fuel t member other => other (replies _ ⟨fuel, t, member, rfl⟩)
    clear_value c'
    obtain ⟨result, ended⟩ := run_like server machine settings loaded loaded' like same avoids
    exact ⟨result, ended.events, ended.files, ended.network.told⟩
  · obtain ⟨index, document, inquires⟩ := VersionIndex.metadata_pursues c.settings.version
      (c.settings.directories.metadataFile c.settings.version) (c.world files)
    rw [← Installation.loadMetadata_world] at inquires
    obtain ⟨program, asks, pursues⟩ := program_pursued server files
    refine ⟨index, document, program, inquires, pursues, ?_⟩
    rw [asks.asked]
    exact congrArg (· ++ program) inquires.asks.asked

/-- The installation of a server, of this name and with these metadata. -/
def serving (version document : String) : InstallCall := { whole with
  settings := { whole.settings with version, kind := .server }
  network := ⟨[("http://h/s", [.response 200 [] [1] none]),
    ("http://h/v", [.response 200 [] (Bytes.ofText document) none, .notFound])], [], 0⟩
  index := ⟨none, "http://h/m", some [("versions",
    .list [.object [("id", .string version), ("url", .string "http://h/v")]])]⟩ }

/-- Metadata that offer a server, and say something else. -/
def offering (rest : String) : String :=
  "\x7b\"downloads\":\x7b\"server\":\x7b\"url\":\"http://h/s\"\x7d\x7d" ++ rest ++ "\x7d"

def plainServer : InstallCall := serving "v" (offering "")

/-- What these metadata say of libraries and assets could not be read. -/
def oddServer : InstallCall :=
  serving "v" (offering ",\"libraries\":7,\"assetIndex\":\"none\",\"arguments\":[],\"type\":8")

/-- The URL of a server of which nothing else is said. -/
def offeredUrl? : Json → Option String
  | .object [("server", .object [("url", .string url)])] => some url
  | _ => none

theorem offeredUrl?_some {v : Json} {url : String} (offered : offeredUrl? v = some url) :
    v = .object [("server", .object [("url", .string url)])] := by
  unfold offeredUrl? at offered
  split at offered
  · cases offered
    rfl
  · cases offered

theorem loaded_of_url {c : InstallCall} {url : String}
    (offered : (c.loaded .empty).1.toOption.bind (fun m => offeredUrl? (m.getD "downloads")) =
      some url) :
    ∃ metadata, c.loaded .empty = (.ok metadata, (c.loaded .empty).2) ∧
      metadata.getD "downloads" = .object [("server", .object [("url", .string url)])] := by
  rcases began : c.loaded .empty with ⟨e | metadata, i⟩
  · rw [began] at offered
    cases offered
  · rw [began] at offered
    exact ⟨metadata, rfl, offeredUrl?_some offered⟩

set_option maxRecDepth 100000 in
theorem servers_loaded :
    (plainServer.loaded .empty).1.toOption.bind (fun m => offeredUrl? (m.getD "downloads")) =
        some "http://h/s" ∧
      (oddServer.loaded .empty).1.toOption.bind (fun m => offeredUrl? (m.getD "downloads")) =
        some "http://h/s" ∧
      (oddServer.loaded .empty).2.world.network.routes =
        (plainServer.loaded .empty).2.world.network.routes ∧
      (plainServer.run .empty).1.toBool := by
  refine ⟨?_, ?_, ?_, ?_⟩
  all_goals decide +kernel

/-- A server is installed all the same with metadata that are no use to a client. -/
theorem oddServer_alike :
    (plainServer.run .empty).1.toBool ∧ (oddServer.run .empty).1 = (plainServer.run .empty).1 ∧
      (oddServer.run .empty).2.events = (plainServer.run .empty).2.events := by
  obtain ⟨plain, odd, routes, returned⟩ := servers_loaded
  obtain ⟨metadata, loaded, offers⟩ := loaded_of_url plain
  obtain ⟨metadata', loaded', offers'⟩ := loaded_of_url odd
  obtain ⟨result, events, _⟩ := (run_server_determined plainServer rfl .empty).1 oddServer.network
    oddServer.index .empty metadata metadata' _ _ loaded loaded' (offers'.trans offers.symm)
    (.refl _) rfl rfl rfl fun url _ => by rw [Network.script, Network.script, routes]
  have other : ⟨plainServer.machine, plainServer.settings, oddServer.network, oddServer.index⟩ =
    oddServer := rfl
  rw [other] at result events
  exact ⟨returned, result, events⟩

/-- The version has a name that leads into the directory of libraries. -/
def astrayServer : InstallCall := serving "../libraries/x" (offering "")

set_option maxRecDepth 100000 in
theorem astrayServer_run :
    (astrayServer.run .empty).1.toBool ∧
      (astrayServer.run .empty).2.world.files.content?
        (astrayServer.settings.directories.libraries.location ++ ["x.json"]) ≠ none := by
  decide +kernel

/-- The metadata of a version with such a name are kept among the libraries. -/
theorem astrayServer_enters_libraries :
    astrayServer.settings.kind = .server ∧ astrayServer.settings.directories.main.IsPlain ∧
      astrayServer.index.cache = none ∧
      ¬ astrayServer.settings.directories.libraries.location <+:
        astrayServer.settings.directories.work.location ∧
      (astrayServer.run .empty).1.toBool ∧
      ∃ l name, astrayServer.settings.directories.libraries.location ++ [name] <+: l ∧
        (astrayServer.run .empty).2.world.files.content? l ≠ FileTree.empty.content? l := by
  obtain ⟨returned, there⟩ := astrayServer_run
  exact ⟨rfl, by decide, rfl, by decide, returned, _, "x.json", List.prefix_rfl, there⟩

end InstallCall
end Launcher
