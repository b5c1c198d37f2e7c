import Launcher.Proofs.Files.Alteration
import Launcher.Proofs.Install.Finishing
import Launcher.Proofs.Versions.Resolution

/-! Where the steps of an installation change files. What is learned of versions is put into the
file of the index and that of the metadata. Planning may put the assets index to its place, and
changes no other file; what follows the downloads puts files into the directory of natives and below
that of copied assets, or the licence of a server beside its program. -/
namespace Launcher

def Planning.files (s : Planning) : FileTree := s.world.files

def Installation.files (i : Installation) : FileTree := i.world.files

variable {places made : Location → Prop}

namespace Action
variable {w : World} {α ε : Type}

theorem ofExcept_alters (fault : ε → Fault) (result : Except ε α) :
    AltersFrom World.files places made w (ofExcept fault result) :=
  .of_same (by rw [ofExcept_run])

theorem inspect_alters (fault : ε → Fault) (look : FileTree → Except ε α) :
    AltersFrom World.files places made w (inspect fault look) := by
  refine .bind (.of_same rfl) fun w₁ w₂ _ => ?_
  exact ofExcept_alters fault _

theorem makeDirectories_alters {p : Path} (above : ∀ n, made (p.ancestor n).location) :
    AltersFrom World.files places made w (makeDirectories p) := by
  rw [AltersFrom, makeDirectories_run]
  exact FileTree.makeDirectories_alters p w.files above

theorem changeFiles_alters {change : FileTree → Except AccessError FileTree}
    (alters : ∀ files, change w.files = .ok files → w.files.Alters places made files) :
    AltersFrom World.files places made w (changeFiles change) := by
  rw [AltersFrom, changeFiles_run]
  rcases changed : change w.files with e | files
  · exact .refl _
  · exact alters files changed

theorem writeBelow_alters {p : Path} (free : p.IsFree places made) (content : Bytes) :
    AltersFrom World.files places made w (writeBelow p content) := by
  refine .bind (makeDirectories_alters free.above) fun _ w₁ _ => ?_
  exact changeFiles_alters fun files wrote => .write wrote free.file

theorem fetch_alters (url : String) (headers : List (String × Json))
    (accept sha1 : Option String) :
    AltersFrom World.files places made w (fetch url headers accept sha1) :=
  .of_same (by rw [fetch_run])

end Action

namespace VersionIndex
variable {w : World}

theorem keep_alters (cache : ∀ file ∈ w.index.cache, file.IsFree places made) (data : Members) :
    AltersFrom World.files places made w (keep data) := by
  refine .get_bind ?_
  split
  · exact .pure _
  · rename_i file kept
    exact Action.writeBelow_alters (cache file kept) _

theorem load_alters (cache : ∀ file ∈ w.index.cache, file.IsFree places made) :
    AltersFrom World.files places made w load := by
  cases known : w.index.data with
  | some data => exact .of_same (by rw [load_known known])
  | none =>
    have loads := load_loads known
    rw [AltersFrom]
    generalize (load.run.run w).1 = result at loads
    generalize (load.run.run w).2 = left at loads ⊢
    cases loads with
    | unreadable | refused | excused | unusable => exact .refl _
    | @unkept _ _ network data _ _ _ _ _ put =>
      have kept := keep_alters (w := { w with network }) cache data
      rw [AltersFrom, put] at kept
      exact kept
    | @fetched _ _ network data _ _ _ _ put =>
      have kept := keep_alters (w := { w with network }) cache data
      rw [AltersFrom, put] at kept
      exact kept

theorem find?_alters (cache : ∀ file ∈ w.index.cache, file.IsFree places made)
    (version : String) : AltersFrom World.files places made w (find? version) := by
  have loaded := load_alters cache
  rw [AltersFrom] at loaded ⊢
  rw [find?_run]
  generalize load.run.run w = outcome at loaded ⊢
  obtain ⟨e | data, left⟩ := outcome
  · exact loaded
  · simp only
    cases entriesOf data <;> exact loaded

/-- Loading the metadata of a version changes the file of the index and that of the metadata. -/
theorem metadata_alters {file : Path} (cache : ∀ file ∈ w.index.cache, file.IsFree places made)
    (free : file.IsFree places made) (version : String) :
    AltersFrom World.files places made w (metadata version file) := by
  have looked := find?_alters cache version
  rw [AltersFrom] at looked ⊢
  rcases found : (find? version).run.run w with ⟨e | _ | entry, left⟩
  · rw [found] at looked
    rw [metadata_of_failed found]
    exact looked
  · rw [found] at looked
    rw [metadata_of_unlisted found]
    exact looked
  · rw [found] at looked
    have resolves := @metadata_resolves _ version file _ _ found
    generalize ((metadata version file).run.run w).1 = result at resolves
    generalize ((metadata version file).run.run w).2 = w' at resolves ⊢
    cases resolves with
    | kept | unreadable | refused | unusable => exact looked
    | @fetched response network _ _ _ _ _ _ wrote =>
      have put := Action.writeBelow_alters (w := { left with network }) free response.data
      rw [AltersFrom, wrote] at put
      exact looked.trans put

end VersionIndex

namespace InstallPlan
variable {s : Planning} {α : Type}

theorem onWorld_alters {action : Action α}
    (alters : AltersFrom World.files places made s.world action) :
    AltersFrom Planning.files places made s (onWorld action) := by
  refine .get_bind ?_
  unfold AltersFrom Planning.files at *
  generalize action.run.run s.world = outcome at alters ⊢
  obtain ⟨e | value, world⟩ := outcome
  · exact alters
  · exact alters

theorem require_alters (entry : DownloadEntry) :
    AltersFrom Planning.files places made s (require entry) := by
  refine .of_same ?_
  rw [require_run]
  split <;> rfl

theorem planLibrary_alters (librariesDir nativesDir : Path) (library : Library) :
    AltersFrom Planning.files places made s (planLibrary librariesDir nativesDir library) :=
  .bind (require_alters _) fun _ _ _ => .of_same rfl

theorem planAllowed_alters (platform : Platform) (features : Features)
    (librariesDir nativesDir : Path) (libraries : List Library) :
    AltersFrom Planning.files places made s
      (planAllowed platform features librariesDir nativesDir libraries) := by
  induction libraries generalizing s with
  | nil => exact .pure _
  | cons library rest ih =>
    unfold planAllowed
    split
    · exact .throw _
    · exact .bind (planLibrary_alters _ _ _) fun _ _ _ => ih
    · exact ih

theorem planLibraries_alters (platform : Platform) (features : Features) (metadata : Members)
    (librariesDir nativesDir : Path) :
    AltersFrom Planning.files places made s
      (planLibraries platform features metadata librariesDir nativesDir) := by
  unfold planLibraries
  split
  · exact .throw _
  · exact planAllowed_alters _ _ _ _ _

theorem assetsIndex_alters {w : World} {file : Path} (free : file.IsFree places made)
    (info : Members) (version : String) :
    AltersFrom World.files places made w (assetsIndex info version file) := by
  refine .get_bind ?_
  split
  · exact Action.ofExcept_alters _ _
  · refine .bind (Action.ofExcept_alters _ _) fun url _ _ => ?_
    refine .bind (Action.ofExcept_alters _ _) fun sha1 _ _ => ?_
    refine .bind (Action.fetch_alters _ _ _ _) fun response _ _ => ?_
    refine .bind (Action.ofExcept_alters _ _) fun index _ _ => ?_
    exact .bind (Action.writeBelow_alters free _) fun _ _ _ => .pure _
  · exact .throw _

theorem planObjects_alters (objectsDir : Path) (resources : String) (place : Place)
    (objects : List (String × Json)) :
    AltersFrom Planning.files places made s (planObjects objectsDir resources place objects) := by
  induction objects generalizing s with
  | nil => exact .pure _
  | cons object rest ih =>
    obtain ⟨id, v⟩ := object
    unfold planObjects
    split
    · exact .throw _
    · refine .bind (require_alters _) fun _ _ _ => ?_
      exact .bind (.of_same rfl) fun _ _ _ => ih

theorem planAssets_alters {assetsDir : Path} {version : String}
    (free : (assetsDir / "indexes" / (version ++ ".json")).IsFree places made)
    (metadata : Members) (resources : String) :
    AltersFrom Planning.files places made s
      (planAssets metadata assetsDir version resources) := by
  unfold planAssets
  split
  · exact .pure _
  · split
    · exact .throw _
    · refine .bind (onWorld_alters (assetsIndex_alters free _ _)) fun index _ _ => ?_
      simp only
      split
      · exact .throw _
      · exact .bind (planObjects_alters _ _ _ _) fun _ _ _ => .of_same rfl

/-- Planning changes no file but that of the assets index. -/
theorem planAll_alters {directories : Directories} {version : String}
    (free : (directories.assets / "indexes" / (version ++ ".json")).IsFree places made)
    (platform : Platform) (features : Features) (metadata : Members) (resources : String) :
    AltersFrom Planning.files places made s
      (planAll platform features metadata directories version resources) :=
  .bind (planLibraries_alters _ _ _ _ _) fun _ _ _ => planAssets_alters free _ _

end InstallPlan

namespace Installation
variable {i : Installation} {α : Type}

theorem tell_alters (event : InstallEvent) :
    AltersFrom Installation.files places made i (tell event) := .of_same rfl

theorem ofExcept_alters {ε : Type} (fault : ε → Fault) (result : Except ε α) :
    AltersFrom Installation.files places made i (ofExcept fault result) := by
  refine .of_same ?_
  cases result <;> rfl

theorem onWorld_alters {action : Action α}
    (alters : AltersFrom World.files places made i.world action) :
    AltersFrom Installation.files places made i (onWorld action) := by
  rw [AltersFrom, onWorld_run]
  exact alters

theorem onPlan_alters {action : PlanAction Unit}
    (alters : AltersFrom Planning.files places made ⟨i.world, i.plan⟩ action) :
    AltersFrom Installation.files places made i (onPlan action) := by
  rw [AltersFrom, onPlan_run]
  exact alters

section Preparation
variable {machine : Machine} {s : InstallSettings}

theorem loadMetadata_alters (cache : ∀ file ∈ i.world.index.cache, file.IsFree places made)
    (free : (s.directories.metadataFile s.version).IsFree places made) :
    AltersFrom Installation.files places made i (loadMetadata s) := by
  refine .bind (tell_alters _) fun _ i₁ told => ?_
  cases told
  refine .bind (onWorld_alters (VersionIndex.metadata_alters cache free _)) fun _ _ _ => ?_
  exact .bind (tell_alters _) fun _ _ _ => .pure _

theorem planJar_alters (kind : JarKind) (jar : Path) (metadata : Members) :
    AltersFrom Installation.files places made i (planJar kind jar metadata) := by
  refine .bind (ofExcept_alters _ _) fun offered _ _ => ?_
  cases offered with
  | some entry =>
    exact .bind (onPlan_alters (InstallPlan.require_alters _)) fun _ _ _ => tell_alters _
  | none =>
    refine .bind (onWorld_alters (Action.inspect_alters _ _)) fun isThere _ _ => ?_
    split
    · exact .bind (.throw _) fun _ _ _ => tell_alters _
    · exact tell_alters _

theorem planFiles_alters (free : s.assetsIndex.IsFree places made) (metadata : Members) :
    AltersFrom Installation.files places made i (planFiles machine s metadata) := by
  refine .bind (tell_alters _) fun _ i₁ _ => ?_
  refine .bind (onPlan_alters (InstallPlan.planAll_alters free _ _ _ _)) fun _ i₂ _ => ?_
  refine .get_bind (.bind (tell_alters _) fun _ i₃ _ => ?_)
  split
  · exact tell_alters _
  · exact .pure _

/-- The preparation changes the files of the index, of the metadata and, for a client, of the assets
index. -/
theorem prepare_alters (cache : ∀ file ∈ i.world.index.cache, file.IsFree places made)
    (free : (s.directories.metadataFile s.version).IsFree places made)
    (index : s.kind = .client → s.assetsIndex.IsFree places made) :
    AltersFrom Installation.files places made i (prepare machine s) := by
  refine .bind (loadMetadata_alters cache free) fun metadata i₁ _ => ?_
  refine .bind (planJar_alters _ _ _) fun _ i₂ _ => ?_
  cases kind : s.kind with
  | client => exact .bind (planFiles_alters (index kind) metadata) fun _ _ _ => .pure _
  | server => exact .pure metadata

end Preparation

section Completion
variable {machine : Machine} {s : InstallSettings}

/-- Extraction puts files into the directory of natives. -/
theorem installNatives_alters
    (natives : i.plan.natives ≠ [] → (∀ n, made (s.natives.ancestor n).location) ∧
      ∀ name : String, '/' ∉ name.toList → places (s.natives / name).location) :
    AltersFrom Installation.files places made i (installNatives s) := by
  rw [AltersFrom, installNatives_run]
  split
  · exact .refl _
  · rename_i some
    obtain ⟨above, into⟩ := natives some
    have extracted : i.world.files.Alters places made
        (Natives.install i.world.files i.plan.natives s.natives).2 := by
      refine Natives.install_keeps (fun name slashless tree content before other => ?_) _
        fun _ grows => .ofGrows grows above
      refine before.trans (.at_location (fun l beside => ?_) (into name slashless))
      rw [FileTree.get?_insert _ _ _ _ (FileTree.ne_root other), if_neg beside]
    generalize Natives.install i.world.files i.plan.natives s.natives = outcome at extracted ⊢
    obtain ⟨e | errors, files⟩ := outcome
    · exact extracted
    · exact extracted

theorem copyAssets_alters {w : World} {directory : Path} {assets : List (String × Path)}
    (free : ∀ asset ∈ assets, (directory / asset.1).IsFree places made) :
    AltersFrom World.files places made w (copyAssets directory assets) := by
  induction assets generalizing w with
  | nil => exact .pure _
  | cons asset rest ih =>
    obtain ⟨id, file⟩ := asset
    have here := free (id, file) List.mem_cons_self
    refine .bind (Action.makeDirectories_alters here.above) fun _ w₁ _ => ?_
    refine .bind (Action.changeFiles_alters fun copied same => ?_) fun _ w₂ _ => ?_
    · obtain ⟨_, content, _, wrote⟩ := FileTree.copy_ok_iff.mp same
      exact .write wrote here.file
    · exact ih fun asset listed => free asset (List.mem_cons_of_mem _ listed)

theorem placeAssets_alters
    (free : ∀ directory ∈ i.plan.virtualDir, ∀ asset ∈ i.plan.assets,
      (directory / asset.1).IsFree places made) :
    AltersFrom Installation.files places made i placeAssets := by
  refine .get_bind ?_
  simp only
  split
  · rename_i directory wanted
    exact onWorld_alters (copyAssets_alters (free directory wanted))
  · exact .pure _

theorem clientEnvironment_alters
    (above : ∀ n, made (s.directories.game.ancestor n).location) (metadata : Members) :
    AltersFrom Installation.files places made i (clientEnvironment machine s metadata) := by
  refine .bind (onWorld_alters (Action.makeDirectories_alters above)) fun _ i₁ _ => ?_
  refine .get_bind (.bind (ofExcept_alters _ _) fun versionType i₂ _ => ?_)
  exact .bind (ofExcept_alters _ _) fun arguments i₃ _ => .pure _

theorem serverEnvironment_alters (free : (s.jar.parent / "eula.txt").IsFree places made) :
    AltersFrom Installation.files places made i (serverEnvironment s) := by
  refine .bind (onWorld_alters (Action.writeBelow_alters free _)) fun _ i₁ _ => ?_
  exact .bind (tell_alters _) fun _ _ _ => .pure _

/-- What follows the downloads changes files in the directory of natives, copies of assets, and for
a server its licence. -/
theorem finish_alters
    (natives : i.plan.natives ≠ [] → (∀ n, made (s.natives.ancestor n).location) ∧
      ∀ name : String, '/' ∉ name.toList → places (s.natives / name).location)
    (copies : ∀ directory ∈ i.plan.virtualDir, ∀ asset ∈ i.plan.assets,
      (directory / asset.1).IsFree places made)
    (game : s.kind = .client → ∀ n, made (s.directories.game.ancestor n).location)
    (licence : s.kind = .server → (s.jar.parent / "eula.txt").IsFree places made)
    (metadata : Members) :
    AltersFrom Installation.files places made i (finish machine s metadata) := by
  refine .bind (installNatives_alters natives) fun _ i₁ extracted => ?_
  refine .bind (placeAssets_alters ?_) fun _ i₂ _ => ?_
  · rw [(@installNatives_retains _ _ _ (fun _ => False) (fun _ _ => id) extracted).1]
    exact copies
  · cases kind : s.kind with
    | client => exact clientEnvironment_alters (game kind) metadata
    | server => exact serverEnvironment_alters (licence kind)

end Completion
end Installation

end Launcher
