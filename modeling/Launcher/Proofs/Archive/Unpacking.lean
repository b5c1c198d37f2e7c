import Launcher.Proofs.Archive.Contents
import Launcher.Proofs.Archive.Repetition
import Launcher.Proofs.Files.Filling

/-! What extracting an archive comes to, as the files that it puts into the directory. Unless one of
them comes to the place of the archive itself, they are the same in all file trees that have the
archive and in which files can be put to the same places. -/
namespace Launcher

namespace Natives
open Archive FileTree

/-- Copying a content to any place but the archive's own, when `written` is there already: how it
ends, what is there then, and where reading stands. A content that is copied to its end is whole. -/
structure Copies (location : Location) (bytes : Bytes) (fuel : Nat) (c : Content) (written : Bytes)
    (file : OpenFile) (result : Except ArchiveError Unit) (copied : Bytes) (file' : OpenFile) :
    Prop where
  runs : ∀ (place : Location) (tree : FileTree), place ≠ [] → place ≠ location →
    tree.get? location = some (.file bytes) →
      (copyContent place fuel c written).run.run
        ⟨location, file, tree.insert place (.file written)⟩ =
          (result, ⟨location, file', tree.insert place (.file copied)⟩)
  takes : Takes location bytes (contentFrom fuel c written) file (result.map fun _ => copied) file'

/-- How extracting members can end, of an archive at a location with these bytes, if files can be
put to places as `aim` tells: the result, the files that are put, and where reading stands. -/
inductive Unpacks (location : Location) (bytes : Bytes)
    (aim : String → Except AccessError Location) :
    List Member → OpenFile → Except ArchiveError (List String) → List (Location × Bytes) →
      OpenFile → Prop
  | nil {file : OpenFile} : Unpacks location bytes aim [] file (.ok []) [] file
  | nameless {m : Member} {rest : List Member} {file : OpenFile} : m.name = [] →
      Unpacks location bytes aim (m :: rest) file (.error (.crashed .nameless)) [] file
  | passed {m : Member} {rest : List Member} {file file' : OpenFile}
      {result : Except ArchiveError (List String)} {writes : List (Location × Bytes)} :
      m.name ≠ [] → m.baseName = [] → Unpacks location bytes aim rest file result writes file' →
      Unpacks location bytes aim (m :: rest) file result writes file'
  | unopened {m : Member} {rest : List Member} {file file' : OpenFile} {e : ArchiveError} :
      m.baseName ≠ [] → Takes location bytes (openMember m) file (.error e) file' →
      Unpacks location bytes aim (m :: rest) file (.error e) [] file'
  | unplaced {m : Member} {rest : List Member} {file file' : OpenFile} {c : Content}
      {e : AccessError} :
      m.baseName ≠ [] → Takes location bytes (openMember m) file (.ok c) file' →
      aim (String.ofList m.baseName) = .error e →
      Unpacks location bytes aim (m :: rest) file (.error (.ofAccess e)) [] file'
  | broken {m : Member} {rest : List Member} {file file₁ file' : OpenFile} {c : Content}
      {place : Location} {e : ArchiveError} {copied : Bytes} :
      m.baseName ≠ [] → Takes location bytes (openMember m) file (.ok c) file₁ →
      aim (String.ofList m.baseName) = .ok place →
      Copies location bytes (m.size + 1) c [] file₁ (.error e) copied file' →
      Unpacks location bytes aim (m :: rest) file (.error e) [(place, copied)] file'
  | whole {m : Member} {rest : List Member} {file file₁ file₂ file' : OpenFile} {c : Content}
      {place : Location} {content : Bytes} {result : Except ArchiveError (List String)}
      {writes : List (Location × Bytes)} :
      m.baseName ≠ [] → Takes location bytes (openMember m) file (.ok c) file₁ →
      aim (String.ofList m.baseName) = .ok place →
      Copies location bytes (m.size + 1) c [] file₁ (.ok ()) content file₂ →
      Unpacks location bytes aim rest file₂ result writes file' →
      Unpacks location bytes aim (m :: rest) file
        (result.map (String.ofList m.baseName :: ·)) ((place, content) :: writes) file'

variable {location : Location} {bytes : Bytes}

theorem exists_copies (below : location ≠ []) (bytes : Bytes) (fuel : Nat) (c : Content) (written : Bytes)
    (file : OpenFile) : ∃ result copied file',
      Copies location bytes fuel c written file result copied file' := by
  induction fuel generalizing c written file with
  | zero => exact ⟨.ok (), written, file, fun _ _ _ _ _ => rfl, .pure _⟩
  | succ fuel ih =>
    obtain ⟨result, file₁, taken⟩ := (IsReading.next c 65536).takes below bytes file
    have still {place : Location} {tree : FileTree} (named : place ≠ []) (other : place ≠ location)
        (there : tree.get? location = some (.file bytes)) (content : Bytes) :
        (tree.insert place (.file content)).get? location = some (.file bytes) := by
      rw [get?_insert _ _ _ _ named, if_neg other.symm, there]
    rcases result with e | ⟨portion, c'⟩
    · refine ⟨.error e, written, file₁, ?_, .bind_error taken⟩
      intro place tree named other there
      rw [copyContent, run_bind, taken _ (still named other there _)]
    · by_cases last : portion = []
      · subst last
        refine ⟨.ok (), written, file₁, ?_, .bind_ok taken (.pure _)⟩
        intro place tree named other there
        rw [copyContent, run_bind, taken _ (still named other there _)]
        rfl
      · obtain ⟨result, copied, file', further⟩ := ih c' (written ++ portion) file₁
        refine ⟨result, copied, file', ?_, .bind_ok taken ?_⟩
        · intro place tree named other there
          rw [copyContent, run_bind, taken _ (still named other there _)]
          simp only [if_neg last, run_bind, run_modify, insert_insert]
          exact further.runs place tree named other there
        · simp only [if_neg last]
          exact further.takes

variable {aim : String → Except AccessError Location} {members : List Member}
  {file file' : OpenFile} {result : Except ArchiveError (List String)}
  {writes : List (Location × Bytes)}

theorem exists_unpacks (below : location ≠ []) (bytes : Bytes)
    (aim : String → Except AccessError Location) (members : List Member) (file : OpenFile) :
    ∃ result writes file', Unpacks location bytes aim members file result writes file' := by
  induction members generalizing file with
  | nil => exact ⟨_, _, _, .nil⟩
  | cons m rest ih =>
    by_cases unnamed : m.name = []
    · exact ⟨_, _, _, .nameless unnamed⟩
    · by_cases based : m.baseName = []
      · obtain ⟨result, writes, file', others⟩ := ih file
        exact ⟨result, writes, file', .passed unnamed based others⟩
      · obtain ⟨opened, file₁, took⟩ := (IsReading.openMember m).takes below bytes file
        rcases opened with e | c
        · exact ⟨_, _, _, .unopened based took⟩
        · rcases goal : aim (String.ofList m.baseName) with e | place
          · exact ⟨_, _, _, .unplaced based took goal⟩
          · obtain ⟨ended, copied, file₂, copies⟩ :=
              exists_copies below bytes (m.size + 1) c [] file₁
            rcases ended with e | _
            · exact ⟨_, _, _, .broken based took goal copies⟩
            · obtain ⟨result, writes, file', others⟩ := ih file₂
              exact ⟨_, _, _, .whole based took goal copies others⟩

/-- Each file that is put goes to the place of a base name. -/
theorem Unpacks.aimed (unpacks : Unpacks location bytes aim members file result writes file') :
    ∀ w ∈ writes, ∃ m ∈ members, m.baseName ≠ [] ∧ aim (String.ofList m.baseName) = .ok w.1 := by
  induction unpacks with
  | nil => exact nofun
  | nameless => exact nofun
  | passed _ _ _ ih =>
    intro w member
    obtain ⟨m, listed, goal⟩ := ih w member
    exact ⟨m, List.mem_cons_of_mem _ listed, goal⟩
  | unopened => exact nofun
  | unplaced => exact nofun
  | @broken m _ _ _ _ _ _ _ _ based _ goal _ =>
    intro w member
    obtain rfl := List.mem_singleton.mp member
    exact ⟨m, List.mem_cons_self, based, goal⟩
  | @whole m _ _ _ _ _ _ _ _ _ _ based _ goal _ _ ih =>
    intro w member
    rcases List.mem_cons.mp member with rfl | member
    · exact ⟨m, List.mem_cons_self, based, goal⟩
    · obtain ⟨m', listed, goal'⟩ := ih w member
      exact ⟨m', List.mem_cons_of_mem _ listed, goal'⟩

/-- Files can be put directly into a directory as `aim` tells. -/
structure Lets (directory : Path) (tree : FileTree) (aim : String → Except AccessError Location) :
    Prop where
  housed : tree.isDirectory directory = .ok true
  aims : ∀ name : String, '/' ∉ name.toList → tree.target (directory / name) = aim name

variable {directory : Path} {tree : FileTree}

theorem Lets.refl (housed : tree.isDirectory directory = .ok true) :
    Lets directory tree fun name => tree.target (directory / name) := ⟨housed, fun _ _ => rfl⟩

theorem Lets.alike {tree' : FileTree} (lets : Lets directory tree aim)
    (alike : OpensAlike directory tree tree') : Lets directory tree' aim :=
  ⟨alike.housed', fun name slashless =>
    (alike.aims name slashless).trans (lets.aims name slashless)⟩

theorem Lets.aimed (lets : Lets directory tree aim)
    (unpacks : Unpacks location bytes aim members file result writes file') :
    Aimed directory tree writes := by
  intro w member
  obtain ⟨m, _, _, goal⟩ := unpacks.aimed w member
  exact ⟨_, m.baseName_slashless, (lets.aims _ m.baseName_slashless).trans goal⟩

theorem create_run_of_target {p : Path} {place : Location} (goal : tree.target p = .ok place) :
    (create p).run.run ⟨location, file, tree⟩ =
      (.ok place, ⟨location, file, tree.insert place (.file [])⟩) := by
  rw [create_eq, goal]

theorem create_run_of_fault {p : Path} {e : AccessError} (goal : tree.target p = .error e) :
    (create p).run.run ⟨location, file, tree⟩ = (.error (.ofAccess e), ⟨location, file, tree⟩) := by
  rw [create_eq, goal]

/-- So extraction runs, as long as nothing comes to the place of the archive. -/
theorem Unpacks.run (unpacks : Unpacks location bytes aim members file result writes file')
    (lets : Lets directory tree aim) (there : tree.get? location = some (.file bytes))
    (spared : ∀ w ∈ writes, w.1 ≠ location) :
    (extractMembers directory members).run.run ⟨location, file, tree⟩ =
      (result, ⟨location, file', tree.putAll writes⟩) := by
  induction unpacks generalizing tree with
  | nil => rfl
  | nameless unnamed =>
    rw [extractMembers, if_pos unnamed]
    rfl
  | passed named unbased _ ih =>
    rw [extractMembers_passed directory named unbased]
    exact ih lets there spared
  | unopened based took =>
    rw [extractMembers_based directory based, run_bind, took tree there]
    rfl
  | @unplaced m _ _ _ _ _ based took goal =>
    rw [extractMembers_based directory based, run_bind, took tree there]
    simp only [run_bind,
      create_run_of_fault ((lets.aims _ m.baseName_slashless).trans goal)]
    rfl
  | @broken m _ _ _ _ _ _ _ _ based took goal copies =>
    have goal := (lets.aims _ m.baseName_slashless).trans goal
    have copied := copies.runs _ tree (ne_root (target_ok goal).2.2.2)
      (spared _ (List.mem_singleton_self _)) there
    rw [extractMembers_based directory based, run_bind, took tree there]
    simp only [run_bind, create_run_of_target goal, copied]
    rfl
  | @whole m _ _ _ _ _ _ place content result _ based took goal copies _ ih =>
    have goal := (lets.aims _ m.baseName_slashless).trans goal
    have other := (target_ok goal).2.2.2
    have apart := spared _ List.mem_cons_self
    have copied := copies.runs _ tree (ne_root other) apart there
    have still : (tree.insert place (.file content)).get? location = some (.file bytes) := by
      rw [get?_insert _ _ _ _ (ne_root other), if_neg apart.symm, there]
    have others := ih (lets.alike (opensAlike_insert lets.housed other content)) still
      fun w member => spared w (List.mem_cons_of_mem _ member)
    rw [extractMembers_based directory based, run_bind, took tree there]
    simp only [run_bind, create_run_of_target goal, copied, others, putAll_cons]
    cases result <;> rfl

/-- What is put is what a file of the archive holds, where a file of this name is put. -/
structure Puts (aim : String → Except AccessError Location) (f : PackedFile)
    (w : Location × Bytes) : Prop where
  slashless : '/' ∉ f.name.toList
  place : aim f.name = .ok w.1
  content : w.2 = f.content

/-- An extraction that ends well puts all files of the archive, in order. -/
theorem Unpacks.files {names : List String}
    (unpacks : Unpacks location bytes aim members file (.ok names) writes file') :
    ∃ fs, Takes location bytes (filesOf members) file (.ok fs) file' ∧
      names = fs.map (·.name) ∧ fs.Forall₂ (Puts aim) writes := by
  generalize ended : (.ok names : Except ArchiveError (List String)) = result at unpacks
  induction unpacks generalizing names with
  | nil =>
    cases ended
    exact ⟨[], .pure _, rfl, .nil⟩
  | passed named unbased _ ih =>
    rw [filesOf_passed named unbased]
    exact ih ended
  | @whole m rest _ _ _ _ c _ content result _ based took goal copies _ ih =>
    rcases result with e | others
    · cases ended
    · cases ended
      obtain ⟨fs, others, rfl, puts⟩ := ih rfl
      refine ⟨⟨String.ofList m.baseName, content⟩ :: fs, ?_, rfl,
        .cons ⟨m.baseName_slashless, goal, rfl⟩ puts⟩
      rw [filesOf_based based]
      exact .bind_ok took (.bind_ok copies.takes (.bind_ok others (.pure _)))
  | nameless => cases ended
  | unopened => cases ended
  | unplaced => cases ended
  | broken => cases ended

/-- Putting files is never what an extraction is given up for, only reading them is. -/
theorem Unpacks.crashed {crash : Crash} (lets : Lets directory tree aim)
    (unpacks : Unpacks location bytes aim members file (.error (.crashed crash)) writes file') :
    Takes location bytes (filesOf members) file (.error (.crashed crash)) file' := by
  generalize ended : (.error (.crashed crash) : Except ArchiveError (List String)) = result
    at unpacks
  induction unpacks with
  | nil => cases ended
  | nameless unnamed =>
    cases ended
    rw [filesOf, if_pos unnamed]
    exact fun _ _ => rfl
  | passed named unbased _ ih =>
    rw [filesOf_passed named unbased]
    exact ih ended
  | unopened based took =>
    cases ended
    rw [filesOf_based based]
    exact .bind_error took
  | @unplaced m _ _ _ _ e based _ goal =>
    rcases e with fault | _
    · cases ended
    · have clean := hasNul_child (isDirectory_iff.mp lets.housed).1 m.baseName_slashless
        m.baseName_whole
      rw [← lets.aims _ m.baseName_slashless, target_eq, clean] at goal
      simp only [Bool.false_eq_true, if_false] at goal
      split at goal
      · cases goal
      · split at goal <;> cases goal
  | broken based took _ copies =>
    cases ended
    rw [filesOf_based based]
    exact .bind_ok took (.bind_error copies.takes)
  | @whole _ _ _ _ _ _ _ _ _ result _ based took _ copies _ ih =>
    rcases result with e | names
    · cases ended
      rw [filesOf_based based]
      exact .bind_ok took (.bind_ok copies.takes (.bind_error (ih rfl)))
    · cases ended

/-- An extraction is given up if reading is, as long as all files can be put to their places. -/
theorem Unpacks.gives_up {crash : Crash} (below : location ≠ [])
    (unpacks : Unpacks location bytes aim members file result writes file') {file'' : OpenFile}
    (took : Takes location bytes (filesOf members) file (.error (.crashed crash)) file'')
    (placed : ∀ m ∈ members, m.baseName ≠ [] →
      ∃ place, aim (String.ofList m.baseName) = .ok place) : result = .error (.crashed crash) := by
  induction unpacks generalizing file'' with
  | nil => cases (took.unique below (.pure [])).1
  | nameless unnamed =>
    rw [filesOf, if_pos unnamed] at took
    cases (took.unique below (.bind_error (fun _ _ => rfl))).1
    rfl
  | passed named unbased _ ih =>
    rw [filesOf_passed named unbased] at took
    exact ih took fun m member => placed m (List.mem_cons_of_mem _ member)
  | unopened based failed =>
    rw [filesOf_based based] at took
    cases (took.unique below (.bind_error failed)).1
    rfl
  | unplaced based _ goal =>
    obtain ⟨place, goal'⟩ := placed _ List.mem_cons_self based
    rw [goal] at goal'
    cases goal'
  | broken based opened _ copies =>
    rw [filesOf_based based] at took
    cases (took.unique below (.bind_ok opened (.bind_error copies.takes))).1
    rfl
  | @whole m rest _ _ file₂ _ _ _ _ _ _ based opened _ copies _ ih =>
    rw [filesOf_based based] at took
    obtain ⟨others, file₃, further⟩ := (filesOf_isReading rest).takes below bytes file₂
    rcases others with e | fs
    · cases (took.unique below
        (.bind_ok opened (.bind_ok copies.takes (.bind_error further)))).1
      rw [ih further fun m member => placed m (List.mem_cons_of_mem _ member)]
      rfl
    · cases (took.unique below
        (.bind_ok opened (.bind_ok copies.takes (.bind_ok further (.pure _))))).1

/-- An extraction ends well if all files of the archive can be read and put to their places. -/
theorem Unpacks.ends_well (below : location ≠ [])
    (unpacks : Unpacks location bytes aim members file result writes file') {fs : List PackedFile}
    {file'' : OpenFile} (took : Takes location bytes (filesOf members) file (.ok fs) file'')
    (placed : ∀ f ∈ fs, ∃ place, aim f.name = .ok place) : ∃ names, result = .ok names := by
  induction unpacks generalizing fs with
  | nil => exact ⟨[], rfl⟩
  | nameless unnamed =>
    rw [filesOf, if_pos unnamed] at took
    cases (took.unique below (.bind_error (fun _ _ => rfl))).1
  | passed named unbased _ ih =>
    rw [filesOf_passed named unbased] at took
    exact ih took placed
  | unopened based failed =>
    obtain ⟨c, file₁, _, _, _, opened, _⟩ := filesOf_ok below based took
    cases (opened.unique below failed).1
  | unplaced based _ goal =>
    obtain ⟨_, _, _, _, _, _, _, _, rfl⟩ := filesOf_ok below based took
    obtain ⟨place, goal'⟩ := placed _ List.mem_cons_self
    rw [goal] at goal'
    cases goal'
  | broken based opened _ copies =>
    obtain ⟨c, file₁, _, _, _, opened', copied, _⟩ := filesOf_ok below based took
    obtain ⟨same, rfl⟩ := opened.unique below opened'
    cases same
    cases (copied.unique below copies.takes).1
  | whole based opened _ copies _ ih =>
    obtain ⟨c, file₁, content, file₂, others, opened', copied, further, rfl⟩ :=
      filesOf_ok below based took
    obtain ⟨same, rfl⟩ := opened.unique below opened'
    cases same
    obtain ⟨same, rfl⟩ := copied.unique below copies.takes
    obtain ⟨names, rfl⟩ := ih further fun f member => placed f (List.mem_cons_of_mem _ member)
    exact ⟨_, rfl⟩

/-- How extracting an archive can end: its directory cannot be read, or its members are
extracted. -/
inductive UnpacksArchive (location : Location) (bytes : Bytes)
    (aim : String → Except AccessError Location) :
    Except ArchiveError (List String) → List (Location × Bytes) → Prop
  | unlisted {file : OpenFile} {e : ArchiveError} :
      Takes location bytes Archive.members .start (.error e) file →
      UnpacksArchive location bytes aim (.error e) []
  | listed {members : List Member} {file file' : OpenFile}
      {result : Except ArchiveError (List String)} {writes : List (Location × Bytes)} :
      Takes location bytes Archive.members .start (.ok members) file →
      Unpacks location bytes aim members file result writes file' →
      UnpacksArchive location bytes aim result writes

theorem exists_unpacksArchive (below : location ≠ []) (bytes : Bytes)
    (aim : String → Except AccessError Location) :
    ∃ result writes, UnpacksArchive location bytes aim result writes := by
  obtain ⟨listed, file, took⟩ := IsReading.members.takes below bytes .start
  rcases listed with e | members
  · exact ⟨_, _, .unlisted took⟩
  · obtain ⟨result, writes, file', unpacks⟩ :=
      exists_unpacks below bytes aim members file
    exact ⟨result, writes, .listed took unpacks⟩

namespace UnpacksArchive
variable {archive : Path}

theorem aimed (unpacks : UnpacksArchive location bytes aim result writes)
    (lets : Lets directory tree aim) : Aimed directory tree writes := by
  cases unpacks with
  | unlisted => exact nofun
  | listed _ unpacks => exact lets.aimed unpacks

/-- So an archive is extracted, as long as nothing comes to its own place. -/
theorem run (unpacks : UnpacksArchive archive.location bytes aim result writes)
    (lets : Lets directory tree aim) (read : tree.read archive = .ok bytes)
    (spared : ∀ w ∈ writes, w.1 ≠ archive.location) :
    extract tree archive directory = (result, tree.putAll writes) := by
  have there := (read_iff.mp read).2.2
  rw [extract_of_read read]
  cases unpacks with
  | unlisted took => simp only [run_bind, took tree there, putAll_nil]
  | listed took unpacks => simp only [run_bind, took tree there, unpacks.run lets there spared]

theorem below_of_read (read : tree.read archive = .ok bytes) : archive.location ≠ [] := by
  have there := (read_iff.mp read).2.2
  intro root
  rw [root, get?_root] at there
  cases there

theorem files_of_read (read : tree.read archive = .ok bytes) : ∃ file',
    Takes archive.location bytes (Archive.members >>= filesOf) .start (files tree archive)
      file' := by
  obtain ⟨listed, file', took⟩ := (IsReading.members.bind filesOf_isReading).takes
    (below_of_read read) bytes .start
  refine ⟨file', ?_⟩
  simp only [files, openFile_of_read read, took tree (read_iff.mp read).2.2]
  exact took

/-- An archive that is extracted without a fault can be read, and all its files are put. -/
theorem whole {names : List String}
    (unpacks : UnpacksArchive archive.location bytes aim (.ok names) writes)
    (read : tree.read archive = .ok bytes) : ∃ fs, files tree archive = .ok fs ∧
      names = fs.map (·.name) ∧ fs.Forall₂ (Puts aim) writes := by
  cases unpacks with
  | listed listed unpacks =>
    obtain ⟨fs, took, named, puts⟩ := unpacks.files
    obtain ⟨file', all⟩ := files_of_read read
    have same := all.unique (below_of_read read) (.bind_ok listed took)
    exact ⟨fs, same.1, named, puts⟩

theorem crashed {crash : Crash} (lets : Lets directory tree aim)
    (unpacks : UnpacksArchive archive.location bytes aim (.error (.crashed crash)) writes)
    (read : tree.read archive = .ok bytes) : files tree archive = .error (.crashed crash) := by
  obtain ⟨file', all⟩ := files_of_read read
  have below := below_of_read read
  cases unpacks with
  | unlisted failed => exact (all.unique below (.bind_error failed)).1
  | listed listed unpacks => exact (all.unique below (.bind_ok listed (unpacks.crashed lets))).1

theorem gives_up {crash : Crash}
    (unpacks : UnpacksArchive archive.location bytes aim result writes)
    (read : tree.read archive = .ok bytes) (failed : files tree archive = .error (.crashed crash))
    (placed : ∀ name ∈ baseNames tree archive, name ≠ "" → ∃ place, aim name = .ok place) :
    result = .error (.crashed crash) := by
  have below := below_of_read read
  have there := (read_iff.mp read).2.2
  obtain ⟨file', all⟩ := files_of_read read
  rw [failed] at all
  cases unpacks with
  | unlisted broken =>
    cases (all.unique below (.bind_error broken)).1
    rfl
  | @listed members file _ _ _ listed unpacks =>
    have took : Takes archive.location bytes (filesOf members) file (.error (.crashed crash))
        file' := by
      intro tree there
      rw [← all tree there, run_bind, listed tree there]
    refine unpacks.gives_up below took fun m member based => placed _ ?_ ?_
    · simp only [baseNames, openFile_of_read read, listed tree there]
      exact List.mem_map.mpr ⟨m, member, rfl⟩
    · simpa [← String.toList_inj] using based

/-- An archive that can be read is extracted without a fault if its files can be put. -/
theorem ends_well (unpacks : UnpacksArchive archive.location bytes aim result writes)
    (read : tree.read archive = .ok bytes) {fs : List PackedFile}
    (readable : files tree archive = .ok fs)
    (placed : ∀ f ∈ fs, ∃ place, aim f.name = .ok place) : ∃ names, result = .ok names := by
  have below := below_of_read read
  obtain ⟨file', all⟩ := files_of_read read
  rw [readable] at all
  obtain ⟨members, file, listed, took⟩ := all.of_bind below .members
  cases unpacks with
  | unlisted failed => cases (listed.unique below failed).1
  | listed listed' unpacks =>
    obtain ⟨same, rfl⟩ := listed.unique below listed'
    cases same
    exact unpacks.ends_well below took placed

end UnpacksArchive
end Natives
end Launcher
