import Launcher.Proofs.Download.Listing
import Launcher.Proofs.Install.Laying
import Launcher.Proofs.Install.Replanning
import Launcher.Proofs.Json.Regular

/-! What a version consists of, as its metadata and the index of its assets say, and what planning
makes of it. The plan records every file of a version once, and has a download for those that are
neither there nor to be downloaded anyway. -/
namespace Launcher

namespace Path

theorem LeadsDown.isPlain {name : String} (down : LeadsDown name) {p : Path} (plain : p.IsPlain) :
    (p / name).IsPlain := by
  rw [IsPlain, join_parts_of_relative p name down.1, List.mem_append, not_or]
  exact ⟨plain, down.2⟩

/-- A path leads to something called like its last part. -/
theorem location_concat {p : Path} {above : List String} {last : String}
    (parts : p.parts = above ++ [last]) (plain : last ≠ "..") :
    p.location = above.foldl descend p.origin ++ [last] := by
  rw [location, parts, List.foldl_concat, descend, if_neg plain]

/-- What is read from a path on ends as the name does. -/
theorem join_parts (p : Path) (name : String) :
    ∃ front, (p / name).parts = front ++ (ofText name).parts := by
  show ∃ front, (join p name).parts = _
  unfold join
  simp only
  split
  · exact ⟨p.parts, rfl⟩
  · exact ⟨[], rfl⟩

theorem parts_of_free {text : String} (slash : '/' ∉ text.toList) (dot : '.' ∉ text.toList)
    (some : text.toList ≠ []) : (ofText text).parts = [text] := by
  have kept : text.toList ≠ [] ∧ text.toList ≠ ['.'] := by
    refine ⟨some, fun same => ?_⟩
    rw [same] at dot
    exact dot List.mem_cons_self
  rw [parts_ofText, partsOf, Text.splitOn_free slash, List.filter_cons,
    if_pos (by simpa using kept)]
  simp

theorem parts_of_isSha1 {text : String} (digest : isSha1 text) : (ofText text).parts = [text] := by
  obtain ⟨slash, dot⟩ := isSha1_free digest
  refine parts_of_free slash dot fun empty => ?_
  rw [isSha1, empty] at digest
  contradiction

end Path

namespace InstallPlan

/-- Where the file of a library belongs. -/
def libraryFile (librariesDir nativesDir : Path) (library : Library) : Path :=
  (if library.isNative then nativesDir else librariesDir) / library.path

def libraryEntry (librariesDir nativesDir : Path) (library : Library) : DownloadEntry :=
  ⟨library.url, libraryFile librariesDir nativesDir library, library.size, library.sha1,
    library.name⟩

/-- Where the file of an object belongs. -/
def objectFile (objectsDir : Path) (object : AssetObject) : Path :=
  objectsDir / object.shelf / object.hash

def objectEntry (objectsDir : Path) (resources : String) (asset : String × AssetObject) :
    DownloadEntry :=
  ⟨resources ++ asset.2.shelf ++ "/" ++ asset.2.hash, objectFile objectsDir asset.2, asset.2.size,
    some asset.2.hash, asset.1⟩

/-- A library that the rules can tell to be allowed. -/
def isAllowed (platform : Platform) (features : Features) (library : Library) : Bool :=
  (Rule.allows platform features library.rules).toOption.getD false

variable {s s' : Planning}

theorem require_ok {entry : DownloadEntry} (h : (require entry).run.run s = (.ok (), s')) :
    ∃ jobs added, DownloadList.Gains s.world.files s.world.files [entry] s.plan.jobs jobs added ∧
      s' = { s with plan := { s.plan with jobs } } := by
  rw [require_run] at h
  split at h
  · rename_i new jobs put
    cases h
    obtain ⟨added, gains⟩ := DownloadList.Gains.of_add put
    exact ⟨jobs, added, gains, rfl⟩
  · cases h

/-- Listing paths one after another keeps the first of those that are equal. -/
theorem foldl_list (paths : List Path) : paths.foldl list [] = paths.eraseDups := by
  induction paths using List.reverseRecOn with
  | nil => rfl
  | append_singleton paths p ih =>
    rw [List.foldl_append, List.foldl_cons, List.foldl_nil, ih, list, List.eraseDups_append]
    by_cases member : p ∈ paths
    · have listed : paths.eraseDups.contains p = true := by
        rwa [List.contains_iff_mem, List.mem_eraseDups]
      have none : [p].removeAll paths = [] := by simp [List.removeAll, member]
      rw [if_pos listed, none, List.eraseDups_nil, List.append_nil]
    · have unlisted : ¬ paths.eraseDups.contains p = true := by
        rwa [List.contains_iff_mem, List.mem_eraseDups]
      have one : [p].removeAll paths = [p] := by simp [List.removeAll, member]
      rw [if_neg unlisted, one]
      simp [List.eraseDups_cons]

section Libraries
variable {platform : Platform} {features : Features} {librariesDir nativesDir : Path}

/-- The files of libraries that are archives of natives, or of those that are not. -/
def libraryFiles (librariesDir nativesDir : Path) (natives : Bool) (libraries : List Library) :
    List Path :=
  (libraries.filter (·.isNative == natives)).map (libraryFile librariesDir nativesDir)

/-- Libraries that were planned: their downloads are added to the list, and their files to those
that the plan records. -/
def TakesLibraries (librariesDir nativesDir : Path) (libraries : List Library)
    (s s' : Planning) : Prop :=
  ∃ jobs added, DownloadList.Gains s.world.files s.world.files
      (libraries.map (libraryEntry librariesDir nativesDir)) s.plan.jobs jobs added ∧
    s' = { s with plan := { s.plan with
      jobs
      natives := (libraryFiles librariesDir nativesDir true libraries).foldl list s.plan.natives
      libraries :=
        (libraryFiles librariesDir nativesDir false libraries).foldl list s.plan.libraries } }

theorem planLibrary_ok {library : Library}
    (h : (planLibrary librariesDir nativesDir library).run.run s = (.ok (), s')) :
    TakesLibraries librariesDir nativesDir [library] s s' := by
  obtain ⟨_, s₁, required, h⟩ := run_bind_ok h
  obtain ⟨jobs, added, gains, rfl⟩ := require_ok required
  refine ⟨jobs, added, gains, ?_⟩
  cases h
  cases native : library.isNative with
  | true => simp [libraryFiles, libraryFile, native]
  | false => simp [libraryFiles, libraryFile, native]

theorem TakesLibraries.trans {s₁ : Planning} {first second : List Library}
    (earlier : TakesLibraries librariesDir nativesDir first s s₁)
    (later : TakesLibraries librariesDir nativesDir second s₁ s') :
    TakesLibraries librariesDir nativesDir (first ++ second) s s' := by
  obtain ⟨jobs, added, gains, rfl⟩ := earlier
  obtain ⟨jobs', added', gains', rfl⟩ := later
  refine ⟨jobs', added ++ added', ?_, ?_⟩
  · rw [List.map_append]
    exact gains.trans gains' fun _ => id
  · simp [libraryFiles]

/-- Planning takes the libraries that are allowed, in their order. -/
theorem planAllowed_ok {libraries : List Library}
    (h : (planAllowed platform features librariesDir nativesDir libraries).run.run s =
      (.ok (), s')) :
    TakesLibraries librariesDir nativesDir (libraries.filter (isAllowed platform features)) s
      s' := by
  induction libraries generalizing s with
  | nil =>
    cases h
    exact ⟨_, [], .idle (by simp), rfl⟩
  | cons library rest ih =>
    unfold planAllowed at h
    rcases allowed : Rule.allows platform features library.rules with e | _ | _
    · rw [allowed] at h
      cases h
    · have skipped : isAllowed platform features library = false := by
        rw [isAllowed, allowed]
        rfl
      rw [allowed] at h
      rw [List.filter_cons_of_neg (by simp [skipped])]
      exact ih h
    · have taken : isAllowed platform features library = true := by
        rw [isAllowed, allowed]
        rfl
      rw [allowed] at h
      obtain ⟨_, s₁, first, h⟩ := run_bind_ok h
      rw [List.filter_cons_of_pos taken]
      exact (planLibrary_ok first).trans (ih h)

theorem planLibraries_ok {metadata : Members}
    (h : (planLibraries platform features metadata librariesDir nativesDir).run.run s =
      (.ok (), s')) :
    ∃ libraries, Library.parseAll platform metadata = .ok libraries ∧
      TakesLibraries librariesDir nativesDir (libraries.filter (isAllowed platform features)) s
        s' := by
  unfold planLibraries at h
  split at h
  · cases h
  · rename_i libraries parsed
    exact ⟨libraries, parsed, planAllowed_ok h⟩

end Libraries

section Assets
variable {objectsDir : Path} {resources : String} {place : Place}

/-- An object is what a member of an assets index says. -/
def IsObject (member : String × Json) (asset : String × AssetObject) : Prop :=
  asset.1 = member.1 ∧ ∃ place, AssetObject.parse member.2 place = .ok asset.2

theorem exists_of_isObject {members : Members} {objects : List (String × AssetObject)}
    (each : List.Forall₂ IsObject members objects) {asset : String × AssetObject}
    (inside : asset ∈ objects) : ∃ member ∈ members, IsObject member asset := by
  induction each with
  | nil => contradiction
  | cons first _ ih =>
    rcases List.mem_cons.mp inside with rfl | later
    · exact ⟨_, List.mem_cons_self, first⟩
    · obtain ⟨member, there, isObject⟩ := ih later
      exact ⟨member, List.mem_cons_of_mem _ there, isObject⟩

/-- Planning takes all objects of an index, if its names differ and are new to the plan. -/
theorem planObjects_ok {members : Members} (distinct : (members.map (·.1)).Nodup)
    (new : ∀ member ∈ members, member.1 ∉ s.plan.assets.map (·.1))
    (h : (planObjects objectsDir resources place members).run.run s = (.ok (), s')) :
    ∃ objects jobs added, List.Forall₂ IsObject members objects ∧
      DownloadList.Gains s.world.files s.world.files
        (objects.map (objectEntry objectsDir resources)) s.plan.jobs jobs added ∧
      s' = { s with plan := { s.plan with
        jobs
        assets := s.plan.assets ++
          objects.map fun asset => (asset.1, objectFile objectsDir asset.2) } } := by
  induction members generalizing s with
  | nil =>
    cases h
    exact ⟨[], _, [], .nil, .idle (by simp), by simp⟩
  | cons member rest ih =>
    obtain ⟨id, v⟩ := member
    unfold planObjects at h
    rcases parsed : AssetObject.parse v (place.member id) with e | object
    · rw [parsed] at h
      cases h
    · rw [parsed] at h
      obtain ⟨_, s₁, required, h⟩ := run_bind_ok h
      obtain ⟨jobs, added, gains, rfl⟩ := require_ok required
      obtain ⟨_, s₂, put, h⟩ := run_bind_ok h
      cases put
      have fresh : ¬ (s.plan.assets.any (·.1 == id)) := by
        intro listed
        obtain ⟨asset, inside, same⟩ := List.any_eq_true.mp listed
        exact new (id, v) List.mem_cons_self
          (List.mem_map.mpr ⟨asset, inside, beq_iff_eq.mp same⟩)
      simp only [if_neg fresh] at h
      rw [List.map_cons, List.nodup_cons] at distinct
      have later := ih distinct.2 ?_ h
      · obtain ⟨objects, jobs', added', listed, gains', rfl⟩ := later
        refine ⟨(id, object) :: objects, jobs', added ++ added', .cons ⟨rfl, _, parsed⟩ listed,
          ?_, ?_⟩
        · exact gains.trans gains' fun _ there => there
        · simp [objectFile]
      · intro member inside
        simp only [List.map_append, List.map_cons, List.map_nil, List.mem_append,
          List.mem_singleton, not_or]
        refine ⟨new member (List.mem_cons_of_mem _ inside), fun same => distinct.1 ?_⟩
        exact List.mem_map.mpr ⟨member, inside, same⟩

end Assets

end InstallPlan

open InstallPlan (AssetObject IsObject libraryEntry objectEntry libraryFiles objectFile)

/-- The objects of an assets index by their ids, and whether they are to be copied to these. -/
structure AssetList where
  objects : List (String × AssetObject)
  isVirtual : Bool

/-- What a version consists of beside its program: the libraries that are allowed, and the assets
unless it is too old to have any. -/
structure Inventory where
  libraries : List Library
  assets : Option AssetList

/-- A document lists the assets. -/
def AssetList.IsIn (list : AssetList) (bytes : Bytes) : Prop :=
  ∃ index members : Members, Json.parse bytes = .ok (.object index) ∧
    index.getD "objects" = .object members ∧ List.Forall₂ IsObject members list.objects ∧
    list.isVirtual =
      ((index.getD "virtual").isTruthy || (index.getD "map_to_resources").isTruthy)

theorem AssetList.IsIn.digest {list : AssetList} {bytes : Bytes} (listed : list.IsIn bytes) :
    ∀ asset ∈ list.objects, isSha1 asset.2.hash := by
  obtain ⟨_, _, -, -, each, -⟩ := listed
  intro asset inside
  obtain ⟨_, _, _, _, parsed⟩ := InstallPlan.exists_of_isObject each inside
  exact AssetObject.parse_ok parsed

namespace Inventory
variable (inventory : Inventory)

def objects : List (String × AssetObject) :=
  match inventory.assets with
  | some list => list.objects
  | none => []

def libraryEntries (directories : Directories) (version : String) : List DownloadEntry :=
  inventory.libraries.map (libraryEntry directories.libraries (directories.natives version))

def objectEntries (directories : Directories) (resources : String) : List DownloadEntry :=
  inventory.objects.map (objectEntry (directories.assets / "objects") resources)

/-- The downloads of all that the version consists of, in order. -/
def entries (directories : Directories) (version resources : String) : List DownloadEntry :=
  inventory.libraryEntries directories version ++ inventory.objectEntries directories resources

/-- The metadata of a version, and the files that have the index of its assets, say that it consists
of this. -/
structure IsOf (platform : Platform) (features : Features) (metadata : Members) (index : Path)
    (files : FileTree) : Prop where
  libraries : ∃ libraries, Library.parseAll platform metadata = .ok libraries ∧
    inventory.libraries = libraries.filter (InstallPlan.isAllowed platform features)
  assets :
    match inventory.assets with
    | none => metadata.getD "assetIndex" = .null
    | some list => (∃ info, metadata.getD "assetIndex" = .object info) ∧
      ∃ bytes, files.read index = .ok bytes ∧ list.IsIn bytes

/-- A plan with the files of the version and with other downloads. -/
def record (directories : Directories) (version : String) (plan : InstallPlan)
    (jobs : DownloadList) : InstallPlan where
  jobs
  natives := (libraryFiles directories.libraries (directories.natives version) true
    inventory.libraries).foldl InstallPlan.list plan.natives
  libraries := (libraryFiles directories.libraries (directories.natives version) false
    inventory.libraries).foldl InstallPlan.list plan.libraries
  assets := plan.assets ++
    inventory.objects.map fun asset =>
      (asset.1, objectFile (directories.assets / "objects") asset.2)
  indexName := if inventory.assets.isSome then some version else plan.indexName
  virtualDir := if inventory.assets.any (·.isVirtual)
    then some (directories.assets / "virtual" / version) else plan.virtualDir

end Inventory

theorem Inventory.IsOf.digest {inventory : Inventory} {platform : Platform} {features : Features}
    {metadata : Members} {index : Path} {files : FileTree}
    (listed : inventory.IsOf platform features metadata index files) :
    ∀ asset ∈ inventory.objects, isSha1 asset.2.hash := by
  have assets := listed.assets
  unfold Inventory.objects
  split at assets
  · rename_i none
    simp [none]
  · rename_i list some
    obtain ⟨_, bytes, _, inside⟩ := assets
    simpa [some] using inside.digest

namespace InstallPlan
variable {s s' : Planning}

/-- The plan of the assets, with an index that was read. -/
def withAssets (plan : InstallPlan) (jobs : DownloadList) (assetsDir : Path) (version : String)
    (list : AssetList) : InstallPlan :=
  { plan with
    jobs
    assets := plan.assets ++
      list.objects.map fun asset => (asset.1, objectFile (assetsDir / "objects") asset.2)
    indexName := some version
    virtualDir := if list.isVirtual then some (assetsDir / "virtual" / version)
      else plan.virtualDir }

/-- Finding an assets index puts a file to its place at most. -/
theorem assetsIndex_advances {info : Members} {version : String} {file : Path} {w w' : World}
    {result : Except Fault Members}
    (ran : (assetsIndex info version file).run.run w = (result, w')) :
    w.files.Advances (· = file.location) w'.files := by
  have derives := (@assetsIndex_within (· = file.location) info version file rfl w w
    (.refl _ _)).1
  rw [ran] at derives
  exact derives.files

theorem planAssets_ok {metadata : Members} {assetsDir : Path} {version resources : String}
    (none : s.plan.assets = [])
    (h : (planAssets metadata assetsDir version resources).run.run s = (.ok (), s')) :
    (metadata.getD "assetIndex" = .null ∧ s' = s) ∨
    ∃ info w list bytes jobs added, metadata.getD "assetIndex" = .object info ∧
      s.world.files.Advances (· = (assetsDir / "indexes" / (version ++ ".json")).location) w.files ∧
      w.files.read (assetsDir / "indexes" / (version ++ ".json")) = .ok bytes ∧ list.IsIn bytes ∧
      DownloadList.Gains w.files w.files
        (list.objects.map (objectEntry (assetsDir / "objects") resources)) s.plan.jobs jobs added ∧
      s' = ⟨w, s.plan.withAssets jobs assetsDir version list⟩ := by
  unfold planAssets at h
  split at h
  · rename_i missing
    cases h
    exact .inl ⟨missing, rfl⟩
  · split at h
    · cases h
    rename_i info object
    obtain ⟨index, s₁, found, h⟩ := run_bind_ok h
    rw [onWorld_run] at found
    rcases ran : (assetsIndex info version (assetsDir / "indexes" / (version ++ ".json"))).run.run
      s.world with ⟨result, w⟩
    rw [ran] at found
    cases found
    have advances := assetsIndex_advances ran
    obtain ⟨⟨bytes, read, parsed⟩, _⟩ := assetsIndex_ok ran
    have parse := readDocument_ok.mp parsed
    simp only at h
    split at h
    · cases h
    rename_i members listed
    have same := Json.asObject_ok.mp listed
    obtain ⟨_, s₂, planned, h⟩ := run_bind_ok h
    obtain ⟨objects, jobs, added, each, gains, rfl⟩ :=
      planObjects_ok (Json.nodup_of_parse parse same) (by simp [none]) planned
    cases h
    exact .inr ⟨info, w, ⟨objects, _⟩, bytes, jobs, added, Json.asObject_ok.mp object, advances,
      read, ⟨index, members, parse, same, each, rfl⟩, gains, rfl⟩

section Index
variable {assetsDir : Path} {version : String} {object : AssetObject}

theorem objectFile_isPlain (digest : isSha1 object.hash) {objectsDir : Path}
    (plain : objectsDir.IsPlain) : (objectFile objectsDir object).IsPlain := by
  obtain ⟨shelf, hash⟩ := object.leadsDown digest
  exact hash.isPlain (shelf.isPlain plain)

/-- The file of an assets index is not that of an object, whatever the version is called. -/
theorem objectFile_ne_index (digest : isSha1 object.hash) (objectsDir : Path) :
    (objectFile objectsDir object).location ≠
      (assetsDir / "indexes" / (version ++ ".json")).location := by
  obtain ⟨above, last, parts, _⟩ := Path.parts_json version
  obtain ⟨front, joined⟩ := Path.join_parts (assetsDir / "indexes") (version ++ ".json")
  have ending : last ++ ".json" ≠ ".." := by
    intro same
    have length := congrArg String.length same
    rw [String.length_append, show "..".length = 2 from rfl,
      show ".json".length = 5 from rfl] at length
    omega
  rw [parts, ← List.append_assoc] at joined
  rw [Path.location_concat joined ending, objectFile, (object.leadsDown digest).2.location,
    Path.parts_of_isSha1 digest]
  intro same
  have same := List.singleton_inj.mp (List.append_inj' same rfl).2
  refine (Path.isSha1_free digest).2 ?_
  rw [same, String.toList_append]
  simp

end Index

section Planned
variable {platform : Platform} {features : Features} {metadata : Members}
  {directories : Directories} {version resources : String}

/-- Planning takes the libraries that are allowed, and then the assets, while the assets index may
come. -/
theorem planAll_ok (none : s.plan.assets = [])
    (h : (planAll platform features metadata directories version resources).run.run s =
      (.ok (), s')) :
    ∃ (inventory : Inventory) (jobs jobs' : DownloadList) (added added' : List DownloadJob),
      inventory.IsOf platform features metadata
        (directories.assets / "indexes" / (version ++ ".json")) s'.world.files ∧
      s.world.files.Advances
        (· = (directories.assets / "indexes" / (version ++ ".json")).location) s'.world.files ∧
      DownloadList.Gains s.world.files s.world.files
        (inventory.libraryEntries directories version) s.plan.jobs jobs added ∧
      DownloadList.Gains s'.world.files s'.world.files
        (inventory.objectEntries directories resources) jobs jobs' added' ∧
      s'.plan = inventory.record directories version s.plan jobs' := by
  obtain ⟨_, s₁, first, h⟩ := run_bind_ok h
  obtain ⟨libraries, parsed, jobs, added, gains, rfl⟩ := planLibraries_ok first
  have assets := planAssets_ok (by exact none) h
  rcases assets with ⟨missing, rfl⟩ | ⟨info, w, list, bytes, jobs', added', object, advances, read,
    listed, gains', rfl⟩
  · refine ⟨⟨_, .none⟩, jobs, jobs, added, [], ⟨⟨libraries, parsed, rfl⟩, missing⟩, .refl _ _,
      gains, .idle nofun, ?_⟩
    simp [Inventory.record, Inventory.objects]
  · refine ⟨⟨_, some list⟩, jobs, jobs', added, added', ⟨⟨libraries, parsed, rfl⟩, ⟨info, object⟩,
      bytes, read, listed⟩, advances, gains, gains', ?_⟩
    simp [Inventory.record, withAssets, Inventory.objects]

theorem mem_libraryFiles {librariesDir nativesDir p : Path} {libraries : List Library} :
    (p ∈ libraryFiles librariesDir nativesDir false libraries ∨
      p ∈ libraryFiles librariesDir nativesDir true libraries) ↔
      p ∈ libraries.map (libraryFile librariesDir nativesDir) := by
  simp only [libraryFiles, List.mem_map, List.mem_filter, beq_iff_eq]
  constructor
  · rintro (⟨library, ⟨member, _⟩, rfl⟩ | ⟨library, ⟨member, _⟩, rfl⟩)
    · exact ⟨library, member, rfl⟩
    · exact ⟨library, member, rfl⟩
  · rintro ⟨library, member, rfl⟩
    cases native : library.isNative with
    | false => exact .inl ⟨library, ⟨member, native⟩, rfl⟩
    | true => exact .inr ⟨library, ⟨member, native⟩, rfl⟩

/-- A new plan records the destinations of all that the version consists of. -/
theorem mem_record_files (inventory : Inventory) (before jobs : DownloadList) (p : Path) :
    p ∈ (inventory.record directories version (.ofJobs before) jobs).files ↔
      p ∈ (inventory.entries directories version resources).map (·.destination) := by
  have assets : p ∈ inventory.objects.map (fun asset =>
      objectFile (directories.assets / "objects") asset.2) ↔
      p ∈ inventory.objects.map
        ((·.destination) ∘ objectEntry (directories.assets / "objects") resources) := .rfl
  have libraries : p ∈ inventory.libraries.map
      ((·.destination) ∘ libraryEntry directories.libraries (directories.natives version)) ↔ _ :=
    mem_libraryFiles.symm
  rw [Inventory.entries, Inventory.libraryEntries, Inventory.objectEntries, List.map_append,
    List.map_map, List.map_map, List.mem_append, libraries, ← assets]
  simp only [files, Inventory.record, ofJobs, foldl_list, List.mem_append, List.mem_eraseDups,
    List.nil_append, List.map_map]
  rfl

/-- A plan records the libraries and archives that are allowed, each once and in the order of the
metadata, and the assets of the index. It has one new download for each recorded file that was not
there and was not to be downloaded anyway, and the first library or asset with that file tells
what it is. -/
theorem planAll_lists {w : World} {jobs : DownloadList} (plain : directories.main.IsPlain)
    (rooted : w.files.IsRooted) (built : jobs.Built)
    (planned : (planAll platform features metadata directories version resources).run.run
      ⟨w, .ofJobs jobs⟩ = (.ok (), s)) :
    ∃ inventory : Inventory,
      inventory.IsOf platform features metadata
        (directories.assets / "indexes" / (version ++ ".json")) s.world.files ∧
      s.plan.libraries = (libraryFiles directories.libraries (directories.natives version) false
        inventory.libraries).eraseDups ∧
      s.plan.natives = (libraryFiles directories.libraries (directories.natives version) true
        inventory.libraries).eraseDups ∧
      s.plan.assets = inventory.objects.map (fun asset =>
        (asset.1, objectFile (directories.assets / "objects") asset.2)) ∧
      ∃ added, s.plan.jobs.jobs = jobs.jobs ++ added ∧
        (s.plan.jobs.jobs.map (·.entry.destination)).Nodup ∧
        (∀ p, p ∈ added.map (·.entry.destination) ↔
          p ∈ s.plan.files ∧ ¬ w.files.HasFile p ∧ p ∉ jobs.jobs.map (·.entry.destination)) ∧
        ∀ job ∈ added, (inventory.entries directories version resources).find?
            (·.destination == job.entry.destination) = some job.entry ∧
          DownloadTarget.ofUrl job.entry.url = .ok job.target := by
  obtain ⟨inventory, middle, jobs', added, added', listed, advances, gains, gains', plan⟩ :=
    planAll_ok rfl planned
  simp only at gains plan advances
  have objects : (directories.assets / "objects").IsPlain :=
    (show Path.LeadsDown "objects" by decide).isPlain
      ((show Path.LeadsDown "assets" by decide).isPlain plain)
  -- the index that may have come is no object
  have same : ∀ entry ∈ inventory.objectEntries directories resources,
      w.files.HasFile entry.destination ↔ s.world.files.HasFile entry.destination := by
    intro entry member
    obtain ⟨asset, inside, rfl⟩ := List.mem_map.mp member
    have digest := listed.digest asset inside
    exact (advances.hasFile_iff (rooted.opens (objectFile_isPlain digest objects))
      (objectFile_ne_index digest _)).symm
  have whole := gains.trans (gains'.congr same) fun _ => id
  have taken (list : DownloadList) (built : list.Built) (p : Path) :
      p ∈ list.destinations ↔ p ∈ list.jobs.map (·.entry.destination) := by
    rw [← built.destinations.1.mem_iff, DownloadList.entries, List.map_map]
    rfl
  refine ⟨inventory, listed, ?_, ?_, ?_, added ++ added', ?_, ?_, ?_, ?_⟩
  · rw [plan]
    exact foldl_list _
  · rw [plan]
    exact foldl_list _
  · rw [plan]
    rfl
  · rw [plan]
    exact whole.jobs
  · have distinct := (whole.built built).nodup_destinations
    rw [DownloadList.entries, List.map_map] at distinct
    rw [plan]
    exact distinct
  · intro p
    rw [whole.mem_iff, plan, mem_record_files, ← taken jobs built]
    rfl
  · intro job member
    exact ⟨whole.first job member, whole.target job member⟩

end Planned

/-- Metadata with two libraries for one path, and with archives for one system alone. -/
def sharedPath : Members :=
  let artifact (path url : String) : String × Json :=
    ("downloads", .object [("artifact", .object [("path", .string path), ("url", .string url)])])
  [("libraries", .list [
    .object [("name", .string "first"), artifact "l" "http://h/1"],
    .object [("name", .string "second"), artifact "l" "http://h/2"],
    .object [("name", .string "third"), artifact "n" "http://h/3",
      ("natives", .object [("linux", .string "")])]])]

theorem sharedPath_lists :
    let directories : Directories := ⟨.ofText "main", .ofText "work"⟩
    let platform : Platform := ⟨some "linux", none, none, ""⟩
    let start : Planning := ⟨⟨.empty, .empty, .unknown none ""⟩, .ofJobs .nested⟩
    directories.main.IsPlain ∧ FileTree.empty.IsRooted ∧ DownloadList.nested.Built ∧
      ∃ s, (planAll platform [] sharedPath directories "v" "").run.run start = (.ok (), s) ∧
        ∃ (inventory : Inventory) (added : List DownloadJob),
          s.plan.jobs.jobs = DownloadList.nested.jobs ++ added ∧
          ∀ job ∈ added, (inventory.entries directories "v" "").find?
            (·.destination == job.entry.destination) = some job.entry := by
  intro directories platform start
  have plain : directories.main.IsPlain := by decide
  have rooted : FileTree.empty.IsRooted := FileTree.isRooted_of_entries (by decide)
  have fine : ((planAll platform [] sharedPath directories "v" "").run.run start).1.toBool := by
    decide +kernel
  rcases planned : (planAll platform [] sharedPath directories "v" "").run.run start with ⟨_ | _, s⟩
  · rw [planned] at fine
    cases fine
  obtain ⟨inventory, _, _, _, _, added, jobs, _, _, entries⟩ :=
    planAll_lists plain rooted DownloadList.nested_built planned
  exact ⟨plain, rooted, DownloadList.nested_built, s, rfl, inventory, added, jobs,
    fun job member => (entries job member).1⟩

end InstallPlan
end Launcher
