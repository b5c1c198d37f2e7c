import Launcher.Proofs.Action
import Launcher.Proofs.Files.Location

/-! What the changes of a file tree do to its locations. Making directories adds directories and
nothing else, writing and taking away a file concern one location, and no change removes a
directory. -/
namespace Launcher.FileTree

theorem get?_erase (tree : FileTree) (location other : Location) (h : location ≠ []) :
    (tree.erase location).get? other = if other = location then none else tree.get? other := by
  unfold get? erase
  by_cases ho : other = []
  · subst ho
    simp [Ne.symm h]
  · by_cases he : other = location
    · subst he
      simp [ho, List.find?_eq_none]
    · have same : (tree.entries.filter fun e => e.1 != location).find? (fun e => e.1 == other) =
          tree.entries.find? fun e => e.1 == other := by
        rw [List.find?_filter]
        congr 1
        funext e
        by_cases h1 : e.1 = other <;> simp [h1, he]
      simp [ho, he, same]

theorem get?_root (tree : FileTree) : tree.get? [] = some .directory := by simp [get?]

theorem ne_root {tree : FileTree} {l : Location} (h : tree.get? l ≠ some .directory) : l ≠ [] := by
  rintro rfl
  exact h (get?_root tree)

/-- The second tree has directories above a path that the first has not, and else the two agree. -/
def Grows (p : Path) (a b : FileTree) : Prop :=
  ∀ l, b.get? l = a.get? l ∨
    (a.get? l = none ∧ b.get? l = some .directory ∧ ∃ n, l = (p.ancestor n).location)

theorem Grows.refl (p : Path) (a : FileTree) : Grows p a a := fun _ => .inl rfl

theorem Grows.trans {p : Path} {a b c : FileTree} (first : Grows p a b) (second : Grows p b c) :
    Grows p a c := by
  intro l
  rcases second l with same | ⟨absent, made, above⟩
  · rw [same]
    exact first l
  · rcases first l with same | ⟨_, made', _⟩
    · exact .inr ⟨same ▸ absent, made, above⟩
    · rw [made'] at absent
      contradiction

theorem Grows.keepsDirectories {p : Path} {a b : FileTree} (grows : Grows p a b) :
    a.KeepsDirectories b := by
  intro l directory
  rcases grows l with same | ⟨absent, _⟩
  · rw [same, directory]
  · rw [directory] at absent
    contradiction

theorem makeDirectory_ok {tree made : FileTree} {p : Path} (h : tree.makeDirectory p = .ok made) :
    tree.resolve p = .ok p.location ∧ tree.get? p.location = none ∧
      made = tree.insert p.location .directory := by
  unfold makeDirectory at h
  cases way : tree.resolve p with
  | error cause => simp [way, bind, Except.bind] at h
  | ok l =>
    obtain rfl := resolve_location way
    simp only [way, bind, Except.bind] at h
    split at h
    · contradiction
    · rename_i absent
      exact ⟨rfl, by simpa using absent, (Except.ok.inj h).symm⟩

theorem tolerate_run (p : Path) (cause : FileCause) (tree s : FileTree) :
    ∃ result, (makeDirectories.tolerate p cause tree).run.run s = (result, s) := by
  unfold makeDirectories.tolerate
  split
  · exact ⟨_, rfl⟩
  · split <;> exact ⟨_, rfl⟩

/-- The steps of making directories, the last one after the parents. -/
theorem makeDirectories_run (p : Path) (tree : FileTree) :
    (makeDirectories p).run.run tree =
      if hasNul p then (.error .embeddedNul, tree)
      else match tree.makeDirectory p with
        | .ok made => (.ok (), made)
        | .error .notFound =>
          if p.parts = [] then (.error (fail .notFound p), tree)
          else match (makeDirectories p.parent).run.run tree with
            | (.error e, made) => (.error e, made)
            | (.ok (), made) =>
              match made.makeDirectory p with
              | .ok made => (.ok (), made)
              | .error cause => (makeDirectories.tolerate p cause made).run.run made
        | .error cause => (makeDirectories.tolerate p cause tree).run.run tree := by
  rw [makeDirectories, run_bind, run_get]
  by_cases nul : hasNul p
  · simp only [nul, if_true, run_bind, run_throw]
  · simp only [nul, Bool.false_eq_true, if_false]
    rcases tree.makeDirectory p with (_ | _ | _ | _ | _) | made
    · show StateT.run (ExceptT.run (ite _ _ _)) tree = _
      by_cases none : p.parts = []
      · rw [if_pos none, run_throw, if_pos none]
      · rw [if_neg none, run_bind, if_neg none]
        rcases (makeDirectories p.parent).run.run tree with ⟨_ | _, made⟩
        · rfl
        · simp only [run_bind, run_get]
          rcases made.makeDirectory p with _ | _ <;> rfl
    all_goals rfl

theorem isKind_iff {tree : FileTree} {kind : FileEntry → Bool} {p : Path} :
    tree.isKind kind p = .ok true ↔ hasNul p = false ∧ tree.resolve p = .ok p.location ∧
      ∃ entry, tree.get? p.location = some entry ∧ kind entry = true := by
  unfold isKind lookup
  cases nul : hasNul p with
  | true => simp
  | false =>
    rcases way : tree.resolve p with cause | l
    · cases cause <;> simp [bind, Except.bind]
    · obtain rfl := resolve_location way
      rcases there : tree.get? p.location with _ | entry
      · simp [bind, Except.bind, there]
      · simp [bind, Except.bind, there]

theorem isDirectory_iff {tree : FileTree} {p : Path} :
    tree.isDirectory p = .ok true ↔ hasNul p = false ∧ tree.resolve p = .ok p.location ∧
      tree.get? p.location = some .directory := by
  simp [isDirectory, isKind_iff]

theorem isDirectory_mono {a b : FileTree} (keeps : a.KeepsDirectories b) {p : Path}
    (h : a.isDirectory p = .ok true) : b.isDirectory p = .ok true := by
  obtain ⟨nul, way, directory⟩ := isDirectory_iff.mp h
  exact isDirectory_iff.mpr ⟨nul, resolve_mono keeps way, keeps _ directory⟩

theorem isDirectory_of_makeDirectory {tree made : FileTree} {p : Path} (nul : hasNul p = false)
    (h : tree.makeDirectory p = .ok made) : made.isDirectory p = .ok true := by
  obtain ⟨way, absent, rfl⟩ := makeDirectory_ok h
  have fresh : tree.get? p.location ≠ some .directory := by simp [absent]
  have keeps : tree.KeepsDirectories (tree.insert p.location .directory) := by
    intro l directory
    rw [get?_insert _ _ _ _ (ne_root fresh), directory]
    split <;> rfl
  refine isDirectory_iff.mpr ⟨nul, resolve_mono keeps way, ?_⟩
  rw [get?_insert _ _ _ _ (ne_root fresh), if_pos rfl]

theorem isDirectory_of_tolerate {p : Path} {cause : FileCause} {tree s made : FileTree}
    (h : (makeDirectories.tolerate p cause tree).run.run s = (.ok (), made)) :
    tree.isDirectory p = .ok true ∧ made = s := by
  unfold makeDirectories.tolerate at h
  split at h
  · cases h
  · split at h
    · rename_i there
      cases h
      exact ⟨there, rfl⟩
    · cases h

theorem isDirectory_of_makeDirectories {tree made : FileTree} {p : Path}
    (h : (makeDirectories p).run.run tree = (.ok (), made)) : made.isDirectory p = .ok true := by
  rw [makeDirectories_run] at h
  split at h
  · cases h
  · rename_i nul
    have nul : hasNul p = false := by simpa using nul
    split at h
    · rename_i itself
      cases h
      exact isDirectory_of_makeDirectory nul itself
    · split at h
      · cases h
      · split at h
        · cases h
        · split at h
          · rename_i itself
            cases h
            exact isDirectory_of_makeDirectory nul itself
          · obtain ⟨there, rfl⟩ := isDirectory_of_tolerate h
            exact there
    · obtain ⟨there, rfl⟩ := isDirectory_of_tolerate h
      exact there

theorem makeDirectories_of_isDirectory {tree : FileTree} {p : Path}
    (h : tree.isDirectory p = .ok true) : (makeDirectories p).run.run tree = (.ok (), tree) := by
  obtain ⟨nul, way, directory⟩ := isDirectory_iff.mp h
  have taken : tree.makeDirectory p = .error .exists := by
    simp [makeDirectory, way, directory, bind, Except.bind]
  rw [makeDirectories_run, nul, taken]
  simp only [Bool.false_eq_true, if_false, makeDirectories.tolerate, reduceCtorEq, h]
  rfl

/-- Making directories keeps what making one of them keeps, also when it fails. -/
theorem makeDirectories_induction {motive : FileTree → Prop} (p : Path)
    (step : ∀ {n : Nat} {tree made : FileTree}, tree.makeDirectory (p.ancestor n) = .ok made →
      motive tree → motive made) {tree : FileTree} (h : motive tree) :
    motive ((makeDirectories p).run.run tree).2 := by
  have itself {tree made : FileTree} : tree.makeDirectory p = .ok made → motive tree →
      motive made := by
    rw [← p.ancestor_self]
    exact step
  have tolerated (cause : FileCause) {tree : FileTree} (h : motive tree) :
      motive ((makeDirectories.tolerate p cause tree).run.run tree).2 := by
    obtain ⟨result, ran⟩ := tolerate_run p cause tree tree
    rw [ran]
    exact h
  rw [makeDirectories_run]
  split
  · exact h
  · rcases last : tree.makeDirectory p with cause | made
    · cases cause with
      | notFound =>
        simp only
        split
        · exact h
        · have parents := makeDirectories_induction p.parent
            (by simp only [p.parent_ancestor]; exact step) h
          generalize (makeDirectories p.parent).run.run tree = outcome at parents ⊢
          obtain ⟨_ | _, made⟩ := outcome
          · exact parents
          · simp only at parents ⊢
            rcases again : made.makeDirectory p with cause | _
            · exact tolerated cause parents
            · exact itself again parents
      | _ => exact tolerated _ h
    · exact itself last h
termination_by p.parts.length
decreasing_by
  simp only [Path.parent, List.length_dropLast]
  have := List.length_pos_iff.mpr ‹p.parts ≠ []›
  omega

/-- Making directories adds the directories above a path, or some of them, and nothing else. -/
theorem makeDirectories_grows (p : Path) (tree : FileTree) :
    Grows p tree ((makeDirectories p).run.run tree).2 := by
  refine makeDirectories_induction p ?_ (Grows.refl p tree)
  intro n before made h grows
  refine grows.trans fun l => ?_
  obtain ⟨_, absent, rfl⟩ := makeDirectory_ok h
  have other : before.get? (p.ancestor n).location ≠ some .directory := by simp [absent]
  rw [get?_insert _ _ _ _ (ne_root other)]
  by_cases same : l = (p.ancestor n).location
  · exact .inr ⟨same ▸ absent, if_pos same, n, same⟩
  · exact .inl (if_neg same)

theorem target_ok {tree : FileTree} {p : Path} {l : Location} (h : tree.target p = .ok l) :
    hasNul p = false ∧ tree.resolve p = .ok l ∧ l = p.location ∧
      tree.get? l ≠ some .directory := by
  unfold target at h
  split at h
  · contradiction
  · rename_i nul
    split at h
    · contradiction
    · rename_i way
      split at h
      · contradiction
      · rename_i other
        cases h
        exact ⟨by simpa using nul, way, resolve_location way, other⟩

theorem write_ok {tree written : FileTree} {p : Path} {content : Bytes}
    (h : tree.write p content = .ok written) :
    hasNul p = false ∧ tree.resolve p = .ok p.location ∧ tree.get? p.location ≠ some .directory ∧
      written = tree.insert p.location (.file content) := by
  unfold write at h
  rcases aimed : tree.target p with e | l
  · rw [aimed] at h
    contradiction
  · rw [aimed] at h
    obtain ⟨nul, way, rfl, other⟩ := target_ok aimed
    exact ⟨nul, way, other, (Except.ok.inj h).symm⟩

theorem get?_write {tree written : FileTree} {p : Path} {content : Bytes}
    (h : tree.write p content = .ok written) (l : Location) :
    written.get? l = if l = p.location then some (.file content) else tree.get? l := by
  obtain ⟨_, _, other, rfl⟩ := write_ok h
  exact get?_insert _ _ _ _ (ne_root other)

theorem write_keepsDirectories {tree written : FileTree} {p : Path} {content : Bytes}
    (h : tree.write p content = .ok written) : tree.KeepsDirectories written := by
  obtain ⟨_, _, other, _⟩ := write_ok h
  intro l directory
  rw [get?_write h, if_neg, directory]
  rintro rfl
  exact other directory

/-- Opening a file ends in one of three ways. It is refused for a NUL in the path, which is the one
fault that is not of the system. -/
theorem openFile_cases (tree : FileTree) (p : Path) :
    (hasNul p = true ∧ tree.openFile p = .error .embeddedNul) ∨
    (hasNul p = false ∧ ∃ cause, tree.openFile p = .error (fail cause p)) ∨
    ∃ content, hasNul p = false ∧ tree.resolve p = .ok p.location ∧
      tree.get? p.location = some (.file content) ∧
      tree.openFile p = .ok (p.location, content) := by
  unfold openFile
  cases nul : hasNul p with
  | true => exact .inl ⟨rfl, rfl⟩
  | false =>
    rcases way : tree.resolve p with cause | l
    · exact .inr (.inl ⟨rfl, cause, rfl⟩)
    · obtain rfl := resolve_location way
      rcases there : tree.get? p.location with _ | content | _
      · exact .inr (.inl ⟨rfl, .notFound, by simp [there]⟩)
      · exact .inr (.inr ⟨content, rfl, rfl, rfl, by simp [there]⟩)
      · exact .inr (.inl ⟨rfl, .isDirectory, by simp [there]⟩)

theorem read_iff {tree : FileTree} {p : Path} {content : Bytes} :
    tree.read p = .ok content ↔ hasNul p = false ∧ tree.resolve p = .ok p.location ∧
      tree.get? p.location = some (.file content) := by
  constructor
  · intro h
    unfold read at h
    rcases tree.openFile_cases p with ⟨_, ended⟩ | ⟨_, _, ended⟩ | ⟨found, nul, way, file, ended⟩
    · rw [ended] at h
      contradiction
    · rw [ended] at h
      contradiction
    · rw [ended] at h
      obtain rfl := Except.ok.inj h
      exact ⟨nul, way, file⟩
  · rintro ⟨nul, way, file⟩
    simp [read, openFile, nul, way, file, Except.map]

theorem read_write {tree written : FileTree} {p : Path} {content : Bytes}
    (h : tree.write p content = .ok written) : written.read p = .ok content := by
  obtain ⟨nul, way, _, _⟩ := write_ok h
  have written_at : written.get? p.location = some (.file content) := by
    rw [get?_write h, if_pos rfl]
  exact read_iff.mpr ⟨nul, resolve_mono (write_keepsDirectories h) way, written_at⟩

/-- A file is removed if it can be opened, and refused in the same way else. -/
theorem unlink_eq (tree : FileTree) (p : Path) :
    tree.unlink p = (tree.openFile p).map fun opened => tree.erase opened.1 := by
  unfold unlink openFile
  split
  · rfl
  · rcases tree.resolve p with cause | l
    · rfl
    · rcases there : tree.get? l with _ | content | _ <;> simp [there, Except.map]

theorem unlink_ok {tree left : FileTree} {p : Path} (h : tree.unlink p = .ok left) :
    (∃ content, tree.get? p.location = some (.file content)) ∧ left = tree.erase p.location := by
  rw [unlink_eq] at h
  rcases tree.openFile_cases p with ⟨_, ended⟩ | ⟨_, _, ended⟩ | ⟨content, _, _, file, ended⟩
  · rw [ended] at h
    contradiction
  · rw [ended] at h
    contradiction
  · rw [ended] at h
    exact ⟨⟨content, file⟩, (Except.ok.inj h).symm⟩

theorem get?_unlink {tree left : FileTree} {p : Path} (h : tree.unlink p = .ok left)
    (l : Location) :
    left.get? l = if l = p.location then none else tree.get? l := by
  obtain ⟨⟨content, file⟩, rfl⟩ := unlink_ok h
  have other : tree.get? p.location ≠ some .directory := by simp [file]
  exact get?_erase _ _ _ (ne_root other)

theorem unlink_keepsDirectories {tree left : FileTree} {p : Path} (h : tree.unlink p = .ok left) :
    tree.KeepsDirectories left := by
  obtain ⟨⟨content, file⟩, _⟩ := unlink_ok h
  intro l directory
  rw [get?_unlink h, if_neg, directory]
  rintro rfl
  simp [file] at directory

theorem unlink_write {tree written : FileTree} {p : Path} {content : Bytes}
    (h : tree.write p content = .ok written) : ∃ left, written.unlink p = .ok left := by
  obtain ⟨nul, way, _, _⟩ := write_ok h
  have reached := resolve_mono (write_keepsDirectories h) way
  exact ⟨written.erase p.location, by simp [unlink, nul, reached, get?_write h]⟩

end Launcher.FileTree
