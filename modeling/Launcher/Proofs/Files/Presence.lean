import Launcher.Proofs.Files.Changes
import Mathlib.Data.List.Induction

/-! Whether a path leads to a file, and changes of the tree under which files stay files. Such a
change tells apart the locations at which new files may appear. -/
namespace Launcher.FileTree

/-- There is a file at a location. -/
def IsFileAt (tree : FileTree) (l : Location) : Prop :=
  ∃ content, tree.get? l = some (.file content)

/-- A path leads to a file. -/
def HasFile (tree : FileTree) (p : Path) : Prop := tree.isFile p = .ok true

instance (tree : FileTree) (p : Path) : Decidable (tree.HasFile p) :=
  match h : tree.isFile p with
  | .ok true => .isTrue h
  | .ok false => .isFalse (by simp [HasFile, h])
  | .error _ => .isFalse (by simp [HasFile, h])

theorem hasFile_iff {tree : FileTree} {p : Path} :
    tree.HasFile p ↔ hasNul p = false ∧ tree.resolve p = .ok p.location ∧
      tree.IsFileAt p.location := by
  unfold HasFile isFile IsFileAt
  rw [isKind_iff]
  refine and_congr_right fun _ => and_congr_right fun _ => ?_
  constructor
  · rintro ⟨content | _, there, kind⟩
    · exact ⟨content, there⟩
    · contradiction
  · rintro ⟨content, there⟩
    exact ⟨.file content, there, rfl⟩

/-- Nothing but the length of its names keeps a path from leading to the file at its location. -/
def Opens (tree : FileTree) (p : Path) : Prop :=
  tree.IsFileAt p.location →
    tree.resolve p = .ok p.location ∨ tree.resolve p = .error .nameTooLong

/-- Every entry lies in a directory. -/
def IsRooted (tree : FileTree) : Prop :=
  ∀ l, (tree.get? l).isSome → tree.get? l.dropLast = some .directory

theorem isRooted_of_entries {tree : FileTree}
    (above : ∀ e ∈ tree.entries, tree.get? e.1.dropLast = some .directory) : tree.IsRooted := by
  intro l there
  by_cases root : l = []
  · subst root
    rfl
  · rw [get?, if_neg root, Option.isSome_map, List.find?_isSome] at there
    obtain ⟨e, member, same⟩ := there
    rw [← beq_iff_eq.mp same]
    exact above e member

theorem IsRooted.directory {tree : FileTree} (rooted : tree.IsRooted) {l names : Location}
    (there : (tree.get? (l ++ names)).isSome) (below : names ≠ []) :
    tree.get? l = some .directory := by
  induction names using List.reverseRecOn with
  | nil => contradiction
  | append_singleton names name ih =>
    have above := rooted _ there
    rw [← List.append_assoc, List.dropLast_concat] at above
    by_cases direct : names = []
    · rw [direct, List.append_nil] at above
      exact above
    · exact ih (by simp [above]) direct

theorem IsRooted.walk {tree : FileTree} (rooted : tree.IsRooted) {names : List String}
    (plain : ".." ∉ names) {start : Location} (there : (tree.get? (start ++ names)).isSome) :
    tree.walk start names = .ok (start ++ names) ∨
      tree.walk start names = .error .nameTooLong := by
  induction names generalizing start with
  | nil => simp [FileTree.walk]
  | cons name rest ih =>
    simp only [List.mem_cons, not_or] at plain
    simp only [FileTree.walk, rooted.directory there (List.cons_ne_nil _ _), Ne.symm plain.1,
      if_false]
    split
    · exact .inr rfl
    · rw [List.append_cons] at there
      simpa only [List.append_assoc, List.singleton_append] using ih plain.2 there

/-- In a tree whose entries lie in directories, paths without two dots lead where they say. -/
theorem IsRooted.opens {tree : FileTree} (rooted : tree.IsRooted) {p : Path} (plain : p.IsPlain) :
    tree.Opens p := by
  rintro ⟨content, file⟩
  rw [Path.location_of_plain plain] at file ⊢
  unfold resolve
  split
  · exact .inr rfl
  · exact rooted.walk plain (by rw [Path.origin] at file; simp [file])

section Presence
variable {a b : FileTree} {p : Path}

theorem walk_nameTooLong_mono (keeps : a.KeepsDirectories b) {names : List String}
    {start : Location} (blocked : a.walk start names = .error .nameTooLong) :
    b.walk start names = .error .nameTooLong := by
  induction names generalizing start with
  | nil => contradiction
  | cons name rest ih =>
    simp only [walk] at blocked ⊢
    split at blocked
    · contradiction
    · contradiction
    · rename_i directory
      rw [keeps _ directory]
      simp only
      split at blocked
      · rw [if_pos ‹_›]
        exact ih blocked
      · rw [if_neg ‹_›]
        split at blocked
        · rw [if_pos ‹_›]
        · rw [if_neg ‹_›]
          exact ih blocked

theorem resolve_nameTooLong_mono (keeps : a.KeepsDirectories b)
    (blocked : a.resolve p = .error .nameTooLong) : b.resolve p = .error .nameTooLong := by
  unfold resolve at blocked ⊢
  split at blocked
  · rw [if_pos ‹_›]
  · rw [if_neg ‹_›]
    exact walk_nameTooLong_mono keeps blocked

theorem HasFile.mono (present : a.HasFile p) (keeps : a.KeepsDirectories b)
    (stays : a.IsFileAt p.location → b.IsFileAt p.location) : b.HasFile p := by
  obtain ⟨nul, way, file⟩ := hasFile_iff.mp present
  exact hasFile_iff.mpr ⟨nul, resolve_mono keeps way, stays file⟩

theorem Opens.mono (opens : a.Opens p) (keeps : a.KeepsDirectories b)
    (old : b.IsFileAt p.location → a.IsFileAt p.location) : b.Opens p := by
  intro file
  rcases opens (old file) with way | blocked
  · exact .inl (resolve_mono keeps way)
  · exact .inr (resolve_nameTooLong_mono keeps blocked)

theorem HasFile.opens (present : a.HasFile p) : a.Opens p :=
  fun _ => .inl (hasFile_iff.mp present).2.1

theorem HasFile.of_mono (opens : a.Opens p) (keeps : a.KeepsDirectories b)
    (old : b.IsFileAt p.location → a.IsFileAt p.location) (present : b.HasFile p) :
    a.HasFile p := by
  obtain ⟨nul, way, file⟩ := hasFile_iff.mp present
  rcases opens (old file) with open_ | blocked
  · exact hasFile_iff.mpr ⟨nul, open_, old file⟩
  · rw [resolve_nameTooLong_mono keeps blocked] at way
    contradiction

theorem hasFile_write {content : Bytes} (h : a.write p content = .ok b) : b.HasFile p := by
  obtain ⟨nul, way, _, _⟩ := write_ok h
  have there : b.get? p.location = some (.file content) := by rw [get?_write h, if_pos rfl]
  exact hasFile_iff.mpr ⟨nul, resolve_mono (write_keepsDirectories h) way, content, there⟩

end Presence

/-- From the first tree to the second one directories stay, files stay files, and new files
appear at some locations only. -/
structure Advances (places : Location → Prop) (a b : FileTree) : Prop where
  directories : a.KeepsDirectories b
  files : ∀ l, a.IsFileAt l → b.IsFileAt l
  fresh : ∀ l, b.IsFileAt l → a.IsFileAt l ∨ places l

namespace Advances
variable {places : Location → Prop} {a b c : FileTree} {p : Path}

theorem refl (places : Location → Prop) (a : FileTree) : Advances places a a :=
  ⟨.refl a, fun _ h => h, fun _ h => .inl h⟩

theorem trans (first : Advances places a b) (second : Advances places b c) :
    Advances places a c := by
  refine ⟨first.directories.trans second.directories,
    fun l h => second.files l (first.files l h), ?_⟩
  intro l file
  rcases second.fresh l file with old | new
  · exact first.fresh l old
  · exact .inr new

theorem ofGrows (places : Location → Prop) (grows : Grows p a b) : Advances places a b := by
  refine ⟨grows.keepsDirectories, ?_, ?_⟩
  · rintro l ⟨content, file⟩
    rcases grows l with same | ⟨absent, _⟩
    · exact ⟨content, same.trans file⟩
    · rw [file] at absent
      contradiction
  · rintro l ⟨content, file⟩
    rcases grows l with same | ⟨_, made, _⟩
    · exact .inl ⟨content, same ▸ file⟩
    · rw [file] at made
      cases made

theorem insert {l : Location} {content : Bytes} (other : a.get? l ≠ some .directory)
    (place : places l) : Advances places a (a.insert l (.file content)) := by
  have after (l' : Location) := get?_insert a l l' (.file content) (ne_root other)
  refine ⟨?_, ?_, ?_⟩
  · intro l' directory
    rw [after, if_neg, directory]
    rintro rfl
    exact other directory
  · rintro l' ⟨content', file⟩
    rw [IsFileAt, after]
    split
    · exact ⟨content, rfl⟩
    · exact ⟨content', file⟩
  · rintro l' ⟨content', file⟩
    rw [after] at file
    split at file
    · rename_i same
      exact .inr (same ▸ place)
    · exact .inl ⟨content', file⟩

theorem write {content : Bytes} (h : a.write p content = .ok b) (place : places p.location) :
    Advances places a b := by
  obtain ⟨_, _, other, rfl⟩ := write_ok h
  exact .insert other place

theorem hasFile (advances : Advances places a b) (present : a.HasFile p) : b.HasFile p :=
  present.mono advances.directories (advances.files _)

/-- A path to a location where no new file may appear has a file before and after or neither. -/
theorem hasFile_iff (advances : Advances places a b) (opens : a.Opens p)
    (elsewhere : ¬ places p.location) : b.HasFile p ↔ a.HasFile p :=
  ⟨.of_mono opens advances.directories fun file => (advances.fresh _ file).resolve_right elsewhere,
    advances.hasFile⟩

theorem opens (advances : Advances places a b) (opens : a.Opens p)
    (elsewhere : ¬ places p.location) : b.Opens p :=
  opens.mono advances.directories fun file => (advances.fresh _ file).resolve_right elsewhere

end Advances
end Launcher.FileTree
