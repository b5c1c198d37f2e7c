import Launcher.Proofs.Files.Making
import Launcher.Proofs.Files.Presence

/-! File trees that keep what another one holds. Directories and files stay, and at some locations
the files keep their contents as well. What worked on the first tree works on the second one. -/
namespace Launcher.FileTree

/-- From the first tree to the second one directories and files stay, the files at some locations
with their contents. -/
structure Retains (kept : Location → Prop) (a b : FileTree) : Prop where
  directories : a.KeepsDirectories b
  files : ∀ l, a.IsFileAt l → b.IsFileAt l
  contents : ∀ l, kept l → ∀ content, a.get? l = some (.file content) →
    b.get? l = some (.file content)

theorem IsFileAt.not_directory {tree : FileTree} {l : Location} (file : tree.IsFileAt l) :
    tree.get? l ≠ some .directory := by
  obtain ⟨content, there⟩ := file
  simp [there]

theorem isFileAt_insert {tree : FileTree} {l : Location} (other : tree.get? l ≠ some .directory)
    (content : Bytes) : (tree.insert l (.file content)).IsFileAt l :=
  ⟨content, by rw [get?_insert _ _ _ _ (ne_root other), if_pos rfl]⟩

namespace Retains
variable {kept : Location → Prop} {a b c : FileTree} {p : Path}

theorem refl (kept : Location → Prop) (a : FileTree) : Retains kept a a :=
  ⟨.refl a, fun _ file => file, fun _ _ _ there => there⟩

theorem trans (first : Retains kept a b) (second : Retains kept b c) : Retains kept a c := by
  constructor
  case directories => exact first.directories.trans second.directories
  case files =>
    intro l file
    exact second.files l (first.files l file)
  case contents =>
    intro l member content there
    exact second.contents l member content (first.contents l member content there)

theorem weaken {kept' : Location → Prop} (retains : Retains kept a b)
    (fewer : ∀ l, kept' l → kept l) : Retains kept' a b :=
  ⟨retains.directories, retains.files, fun l member => retains.contents l (fewer l member)⟩

theorem ofGrows (kept : Location → Prop) (grows : Grows p a b) : Retains kept a b := by
  have same (l : Location) (content : Bytes) (there : a.get? l = some (.file content)) :
      b.get? l = some (.file content) := by
    rcases grows l with same | ⟨absent, _⟩
    · exact same.trans there
    · simp [there] at absent
  constructor
  case directories => exact grows.keepsDirectories
  case files =>
    rintro l ⟨content, there⟩
    exact ⟨content, same l content there⟩
  case contents =>
    intro l _
    exact same l

theorem ofMakeDirectories (kept : Location → Prop) {result : Except AccessError Unit}
    (h : (makeDirectories p).run.run a = (result, b)) : Retains kept a b := by
  have grows := makeDirectories_grows p a
  rw [h] at grows
  exact .ofGrows kept grows

/-- A file may be put where there is no directory, if there is nothing to be kept. -/
theorem insert {l : Location} {content : Bytes} (other : a.get? l ≠ some .directory)
    (free : kept l → ¬ a.IsFileAt l) : Retains kept a (a.insert l (.file content)) := by
  have after (l' : Location) := get?_insert a l l' (.file content) (ne_root other)
  constructor
  case directories =>
    intro l' directory
    rw [after, if_neg, directory]
    rintro rfl
    exact other directory
  case files =>
    rintro l' ⟨content', file⟩
    rw [IsFileAt, after]
    split
    · exact ⟨content, rfl⟩
    · exact ⟨content', file⟩
  case contents =>
    intro l' member content' file
    rw [after, if_neg, file]
    rintro rfl
    exact free member ⟨content', file⟩

theorem write {content : Bytes} (h : a.write p content = .ok b)
    (free : kept p.location → ¬ a.IsFileAt p.location) : Retains kept a b := by
  obtain ⟨_, _, other, rfl⟩ := write_ok h
  exact .insert other free

variable (retains : Retains kept a b)
include retains

theorem hasFile (present : a.HasFile p) : b.HasFile p :=
  present.mono retains.directories (retains.files _)

theorem isDirectory (directory : a.isDirectory p = .ok true) : b.isDirectory p = .ok true :=
  isDirectory_mono retains.directories directory

theorem read {content : Bytes} (member : kept p.location) (h : a.read p = .ok content) :
    b.read p = .ok content := by
  obtain ⟨nul, way, file⟩ := read_iff.mp h
  exact read_iff.mpr ⟨nul, resolve_mono retains.directories way, retains.contents _ member _ file⟩

end Retains

variable {a b : FileTree} {p directory : Path} {name : String}

theorem HasFile.read (present : a.HasFile p) : ∃ content, a.read p = .ok content := by
  obtain ⟨nul, way, content, file⟩ := hasFile_iff.mp present
  exact ⟨content, read_iff.mpr ⟨nul, way, file⟩⟩

theorem hasFile_of_read {content : Bytes} (h : a.read p = .ok content) : a.HasFile p := by
  obtain ⟨nul, way, file⟩ := read_iff.mp h
  exact hasFile_iff.mpr ⟨nul, way, content, file⟩

theorem openFile_of_read {content : Bytes} (h : a.read p = .ok content) :
    a.openFile p = .ok (p.location, content) := by
  obtain ⟨nul, way, file⟩ := read_iff.mp h
  simp [openFile, nul, way, file]

/-- Where a path leads to a file, any content can be written. -/
theorem HasFile.write (present : a.HasFile p) (content : Bytes) :
    a.write p content = .ok (a.insert p.location (.file content)) := by
  obtain ⟨nul, way, there, file⟩ := hasFile_iff.mp present
  simp [FileTree.write, target, nul, way, file, Except.map]

/-- Copying reads one file and writes another one. -/
theorem copy_ok_iff {source dest : Path} :
    a.copy source dest = .ok b ↔ source.location ≠ dest.location ∧
      ∃ content, a.read source = .ok content ∧ a.write dest content = .ok b := by
  have moved : (a.read source >>= fun content => a.write dest content) = .ok b ↔
      ∃ content, a.read source = .ok content ∧ a.write dest content = .ok b := by
    constructor
    · exact bind_ok
    · rintro ⟨content, read, wrote⟩
      simp [read, wrote, bind, Except.bind]
  constructor
  · intro h
    unfold copy at h
    simp only at h
    split at h
    · cases h
    · split at h
      · rename_i way way'
        obtain rfl := resolve_location way
        obtain rfl := resolve_location way'
        split at h
        · cases h
        · rename_i different
          obtain ⟨content, read, wrote⟩ := moved.mp h
          refine ⟨fun same => different ?_, content, read, wrote⟩
          simp [← same, (read_iff.mp read).2.2]
      · rename_i blocked
        obtain ⟨content, read, wrote⟩ := moved.mp h
        exact absurd (write_ok wrote).2.1 (blocked _ _ (read_iff.mp read).2.1)
  · rintro ⟨different, content, read, wrote⟩
    obtain ⟨nul, way, _⟩ := read_iff.mp read
    obtain ⟨nul', way', _⟩ := write_ok wrote
    unfold copy
    simp only [nul, nul', way, way', different, Bool.or_self, Bool.false_eq_true, if_false,
      decide_false, Bool.false_and]
    exact moved.mpr ⟨content, read, wrote⟩

/-- The way to what is directly in a directory does not change any more. -/
theorem resolve_in_directory (housed : a.isDirectory directory = .ok true)
    (keeps : a.KeepsDirectories b) (single : (Path.ofText name).parts.length ≤ 1)
    (relative : (Path.ofText name).anchor = .relative) :
    b.resolve (directory / name) = a.resolve (directory / name) := by
  obtain ⟨_, way, there⟩ := isDirectory_iff.mp housed
  have way' := resolve_mono keeps way
  have parts := directory.join_parts_of_relative name relative
  have anchor : (directory / name).anchor = directory.anchor := by
    show (Path.join directory name).anchor = _
    simp [Path.join, relative]
  unfold resolve at way way' ⊢
  split at way
  · contradiction
  · rename_i short
    rw [if_neg short] at way'
    rw [anchor, parts, walk_append, walk_append, way, way']
    congr 1
    rcases pieces : (Path.ofText name).parts with _ | ⟨last, _ | ⟨next, rest⟩⟩
    · rfl
    · simp only [walk, there, keeps _ there]
    · simp [pieces] at single

theorem target_eq (tree : FileTree) (p : Path) :
    tree.target p = if hasNul p then .error .embeddedNul else match tree.resolve p with
      | .error cause => .error (fail cause p)
      | .ok l => if tree.get? l = some .directory then .error (fail .isDirectory p) else .ok l := by
  unfold target
  rcases tree.resolve p with cause | l
  · rfl
  · rcases there : tree.get? l with _ | _ | _ <;> simp [there]

/-- A file can be put directly into a directory as it could before. -/
theorem target_in_directory (housed : a.isDirectory directory = .ok true)
    (keeps : a.KeepsDirectories b) (single : (Path.ofText name).parts.length ≤ 1)
    (relative : (Path.ofText name).anchor = .relative)
    (clear : ∀ l, a.target (directory / name) = .ok l → b.get? l ≠ some .directory) :
    b.target (directory / name) = a.target (directory / name) := by
  rw [target_eq, resolve_in_directory housed keeps single relative]
  rw [target_eq] at clear ⊢
  rcases way : a.resolve (directory / name) with cause | l
  · rfl
  · by_cases there : a.get? l = some .directory
    · simp only [there, keeps _ there]
    · by_cases nul : hasNul (directory / name)
      · simp only [nul, if_true]
      · have free := clear l (by simp only [way, nul, there, Bool.false_eq_true, if_false])
        simp only [nul, there, free, Bool.false_eq_true, if_false]

end Launcher.FileTree
