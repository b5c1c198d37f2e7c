import Launcher.Proofs.Files.Making
import Launcher.Proofs.Files.Retention

/-! What the files of a tree hold, and when a file cannot be put to its place. If it cannot, no file
holds anything else than before, and none can be opened there. -/
namespace Launcher.FileTree

/-- What the file at a location holds, nothing if there is none. -/
def content? (tree : FileTree) (l : Location) : Option Bytes :=
  match tree.get? l with
  | some (.file content) => some content
  | _ => none

variable {a b : FileTree} {p : Path} {l : Location}

theorem content?_eq_some {content : Bytes} :
    a.content? l = some content ↔ a.get? l = some (.file content) := by
  unfold content?
  split <;> simp_all

theorem content?_congr (same : b.get? l = a.get? l) : b.content? l = a.content? l := by
  rw [content?, content?, same]

/-- A file that cannot be opened is a fault of the system, unless the path has a NUL. -/
theorem read_of_absent (absent : ¬ a.HasFile p) :
    (hasNul p = true ∧ a.read p = .error .embeddedNul) ∨
      (hasNul p = false ∧ ∃ e, a.read p = .error (.system e)) := by
  rcases a.openFile_cases p with ⟨nul, ended⟩ | ⟨nul, cause, ended⟩ | ⟨content, nul, way, file, _⟩
  · exact .inl ⟨nul, by rw [read, ended]; rfl⟩
  · exact .inr ⟨nul, .file cause p, by rw [read, ended]; rfl⟩
  · exact absurd (hasFile_of_read (read_iff.mpr ⟨nul, way, file⟩)) absent

theorem Grows.content? (grows : Grows p a b) (l : Location) : b.content? l = a.content? l := by
  rcases grows l with same | ⟨absent, made, _⟩
  · exact content?_congr same
  · rw [FileTree.content?, FileTree.content?, absent, made]

theorem Grows.hasFile_of_parts {q : Path} (grows : Grows q a b) (unnamed : p.parts = [])
    (present : b.HasFile p) : a.HasFile p := by
  obtain ⟨nul, way, file⟩ := hasFile_iff.mp present
  refine hasFile_iff.mpr ⟨nul, ?_, ?_⟩
  · unfold resolve at way ⊢
    rw [unnamed] at way ⊢
    exact way
  · exact (grows.isFileAt _).mp file

/-- A way that is open leads through the directory above. -/
theorem isDirectory_parent (nul : hasNul p = false) (way : a.resolve p = .ok l)
    (named : p.parts ≠ []) : a.isDirectory p.parent = .ok true := by
  obtain ⟨name, parts⟩ := Path.parts_of_parent named
  have short : p.IsShort := by
    by_contra long
    rw [resolve, if_pos (Nat.not_lt.mp long)] at way
    contradiction
  rw [resolve_of_short short, parts, walk_append] at way
  split at way
  · rename_i above up
    have reached : a.resolve p.parent = .ok above := by
      rw [resolve_of_short short.parent]
      exact up
    have place := resolve_location reached
    subst place
    refine isDirectory_iff.mpr ⟨hasNul_parent nul, reached, ?_⟩
    simp only [walk] at way
    split at way
    · contradiction
    · contradiction
    · assumption
  · contradiction

theorem makeDirectory_of_directory (housed : a.isDirectory p = .ok true) :
    a.makeDirectory p = .error .exists := by
  obtain ⟨_, way, directory⟩ := isDirectory_iff.mp housed
  simp [makeDirectory, way, directory, bind, Except.bind]

theorem not_isDirectory_of_tolerate {cause : FileCause} {e : AccessError} {s : FileTree}
    (taken : a.makeDirectory p = .error cause)
    (failed : (makeDirectories.tolerate p cause a).run.run s = (.error e, b)) :
    a.isDirectory p ≠ .ok true ∧ b = s := by
  obtain ⟨result, ran⟩ := tolerate_run p cause a s
  rw [ran] at failed
  refine ⟨fun housed => ?_, (Prod.mk.inj failed).2.symm⟩
  rw [makeDirectory_of_directory housed] at taken
  cases taken
  unfold makeDirectories.tolerate at ran
  rw [if_neg (by decide), housed] at ran
  rw [(Prod.mk.inj failed).1] at ran
  cases ran

/-- If directories cannot be made, the last of them is not there afterwards either. -/
theorem not_isDirectory_of_makeDirectories {e : AccessError} (p : Path)
    (failed : (makeDirectories p).run.run a = (.error e, b)) : b.isDirectory p ≠ .ok true := by
  rw [makeDirectories_run] at failed
  split at failed
  · rename_i nul
    intro housed
    exact absurd (isDirectory_iff.mp housed).1 (by simp [nul])
  · rename_i nul
    split at failed
    · cases failed
    · rename_i missing
      split at failed
      · cases failed
        intro housed
        rw [makeDirectory_of_directory housed] at missing
        cases missing
      · rename_i named
        split at failed
        · rename_i above
          cases failed
          intro housed
          obtain ⟨nul', way, _⟩ := isDirectory_iff.mp housed
          exact not_isDirectory_of_makeDirectories p.parent above (isDirectory_parent nul' way named)
        · split at failed
          · cases failed
          · rename_i again
            obtain ⟨other, rfl⟩ := not_isDirectory_of_tolerate again failed
            exact other
    · rename_i taken
      obtain ⟨other, rfl⟩ := not_isDirectory_of_tolerate taken failed
      exact other
termination_by p.parts.length
decreasing_by
  simp only [Path.parent, List.length_dropLast]
  have := List.length_pos_iff.mpr ‹¬ p.parts = []›
  omega

/-- Where directories could not be made, trying again does not make any either. -/
theorem makeDirectories_failed_again {e : AccessError} (p : Path)
    (failed : (makeDirectories p).run.run a = (.error e, b)) :
    ∃ e', (makeDirectories p).run.run b = (.error e', b) := by
  have original := failed
  rw [makeDirectories_run] at failed
  split at failed
  · cases failed
    exact ⟨_, original⟩
  · rename_i nul
    have nul : hasNul p = false := by simpa using nul
    split at failed
    · cases failed
    · rename_i missing
      split at failed
      · cases failed
        exact ⟨_, original⟩
      · rename_i named
        split at failed
        · rename_i above
          cases failed
          -- The directory above is still not there, so nothing can be made in it.
          have other := not_isDirectory_of_makeDirectories p.parent above
          obtain ⟨e', again⟩ := makeDirectories_failed_again p.parent above
          have blocked : b.isDirectory p ≠ .ok true := fun housed =>
            other (isDirectory_parent nul (isDirectory_iff.mp housed).2.1 named)
          rw [makeDirectories_run, nul]
          rcases taken : b.makeDirectory p with cause | made
          · by_cases lost : cause = .notFound
            · subst lost
              exact ⟨e', by simp only [Bool.false_eq_true, if_false, if_neg named, again]⟩
            · refine ⟨fail cause p, ?_⟩
              rw [← tolerate_of_not_isDirectory cause b blocked]
              cases cause <;> first | rfl | contradiction
          · exact absurd (isDirectory_parent nul (makeDirectory_ok taken).1 named) other
        · rename_i above
          split at failed
          · cases failed
          · rename_i cause taken
            obtain ⟨_, rfl⟩ := not_isDirectory_of_tolerate taken failed
            have housed := isDirectory_of_makeDirectories above
            refine ⟨e, ?_⟩
            rw [makeDirectories_run, nul, taken]
            by_cases lost : cause = .notFound
            · subst lost
              simp only [Bool.false_eq_true, if_false, if_neg named,
                makeDirectories_of_isDirectory housed, taken, failed]
            · rw [← failed]
              cases cause <;> first | rfl | contradiction
    · rename_i taken
      obtain ⟨_, rfl⟩ := not_isDirectory_of_tolerate taken failed
      exact ⟨e, original⟩
termination_by p.parts.length
decreasing_by
  simp only [Path.parent, List.length_dropLast]
  have := List.length_pos_iff.mpr ‹¬ p.parts = []›
  omega

end Launcher.FileTree
