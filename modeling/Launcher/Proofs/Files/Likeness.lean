import Launcher.Proofs.Files.Presence

/-! File trees that differ only in what some files hold. Nothing but reading such a file can tell
them apart: every path leads to the same kind of entry in both, and every change fails in both for
one reason, or leaves such trees again. -/
namespace Launcher.FileTree

/-- Two trees have the same everywhere, but that at some loose places both may have a file. -/
def Alike (loose : Location → Prop) (a b : FileTree) : Prop :=
  ∀ l, b.get? l = a.get? l ∨ (loose l ∧ a.IsFileAt l ∧ b.IsFileAt l)

namespace Alike
variable {loose : Location → Prop} {a b c : FileTree} {p : Path} {l : Location}

theorem refl (a : FileTree) : Alike loose a a := fun _ => .inl rfl

theorem symm (alike : Alike loose a b) : Alike loose b a := by
  intro l
  rcases alike l with same | ⟨free, first, second⟩
  · exact .inl same.symm
  · exact .inr ⟨free, second, first⟩

theorem trans (first : Alike loose a b) (second : Alike loose b c) : Alike loose a c := by
  intro l
  rcases second l with same | ⟨free, here, there⟩
  · rw [same, IsFileAt, IsFileAt, same, ← IsFileAt, ← IsFileAt]
    exact first l
  · rcases first l with same | ⟨_, before, _⟩
    · rw [IsFileAt, same, ← IsFileAt] at here
      exact .inr ⟨free, here, there⟩
    · exact .inr ⟨free, before, there⟩

/-- Of what kind the entry at a location is in both trees. -/
theorem kinds (alike : Alike loose a b) (l : Location) :
    (a.get? l = none ∧ b.get? l = none) ∨
      (a.get? l = some .directory ∧ b.get? l = some .directory) ∨
      ∃ x y, a.get? l = some (.file x) ∧ b.get? l = some (.file y) := by
  rcases alike l with same | ⟨_, ⟨x, here⟩, ⟨y, there⟩⟩
  · rw [same]
    rcases a.get? l with _ | x | _
    · exact .inl ⟨rfl, rfl⟩
    · exact .inr (.inr ⟨x, x, rfl, rfl⟩)
    · exact .inr (.inl ⟨rfl, rfl⟩)
  · exact .inr (.inr ⟨x, y, here, there⟩)

theorem isFileAt (alike : Alike loose a b) : b.IsFileAt l ↔ a.IsFileAt l := by
  unfold IsFileAt
  rcases alike.kinds l with ⟨here, there⟩ | ⟨here, there⟩ | ⟨x, y, here, there⟩
  · simp [here, there]
  · simp [here, there]
  · simp [here, there]

theorem directory (alike : Alike loose a b) :
    b.get? l = some .directory ↔ a.get? l = some .directory := by
  rcases alike.kinds l with ⟨here, there⟩ | ⟨here, there⟩ | ⟨x, y, here, there⟩
  · simp [here, there]
  · simp [here, there]
  · simp [here, there]

theorem isSome (alike : Alike loose a b) : (b.get? l).isSome = (a.get? l).isSome := by
  rcases alike.kinds l with ⟨here, there⟩ | ⟨here, there⟩ | ⟨x, y, here, there⟩
  · simp [here, there]
  · simp [here, there]
  · simp [here, there]

/-- The same entry comes to both trees. -/
theorem insert (alike : Alike loose a b) (named : l ≠ []) (entry : FileEntry) :
    Alike loose (a.insert l entry) (b.insert l entry) := by
  intro l'
  unfold IsFileAt
  rw [get?_insert _ _ _ _ named, get?_insert _ _ _ _ named]
  by_cases here : l' = l
  · rw [if_pos here, if_pos here]
    exact .inl rfl
  · rw [if_neg here, if_neg here]
    exact alike l'

theorem erase (alike : Alike loose a b) (named : l ≠ []) :
    Alike loose (a.erase l) (b.erase l) := by
  intro l'
  unfold IsFileAt
  rw [get?_erase _ _ _ named, get?_erase _ _ _ named]
  by_cases here : l' = l
  · rw [if_pos here, if_pos here]
    exact .inl rfl
  · rw [if_neg here, if_neg here]
    exact alike l'

/-- Files with whatever they hold come to a loose place. -/
theorem insert_loose (alike : Alike loose a b) (named : l ≠ []) (free : loose l) (x y : Bytes) :
    Alike loose (a.insert l (.file x)) (b.insert l (.file y)) := by
  intro l'
  unfold IsFileAt
  rw [get?_insert _ _ _ _ named, get?_insert _ _ _ _ named]
  by_cases here : l' = l
  · rw [if_pos here, if_pos here]
    exact .inr ⟨here ▸ free, ⟨x, rfl⟩, ⟨y, rfl⟩⟩
  · rw [if_neg here, if_neg here]
    exact alike l'

section Ways
variable (alike : Alike loose a b)
include alike

theorem walk_congr (start : Location) (names : List String) :
    b.walk start names = a.walk start names := by
  induction names generalizing start with
  | nil => rfl
  | cons name rest ih =>
    simp only [walk]
    rcases alike.kinds start with ⟨here, there⟩ | ⟨here, there⟩ | ⟨x, y, here, there⟩
    · rw [here, there]
    · rw [here, there]
      simp only [ih]
    · rw [here, there]

theorem resolve_congr (p : Path) : b.resolve p = a.resolve p := by
  unfold resolve
  rw [alike.walk_congr]

theorem isKind_congr {kind : FileEntry → Bool} (blind : ∀ x y, kind (.file x) = kind (.file y))
    (p : Path) : b.isKind kind p = a.isKind kind p := by
  unfold isKind lookup
  rw [alike.resolve_congr]
  rcases a.resolve p with cause | l
  · rfl
  · rcases alike.kinds l with ⟨here, there⟩ | ⟨here, there⟩ | ⟨x, y, here, there⟩
    · simp [here, there, bind, Except.bind]
    · simp [here, there, bind, Except.bind]
    · simp [here, there, bind, Except.bind, blind x y]

theorem isFile_congr (p : Path) : b.isFile p = a.isFile p :=
  alike.isKind_congr (fun _ _ => by simp) p

theorem isDirectory_congr (p : Path) : b.isDirectory p = a.isDirectory p :=
  alike.isKind_congr (fun _ _ => by simp) p

theorem target_congr (p : Path) : b.target p = a.target p := by
  unfold target
  rw [alike.resolve_congr]
  rcases a.resolve p with cause | l
  · rfl
  · rcases alike.kinds l with ⟨here, there⟩ | ⟨here, there⟩ | ⟨x, y, here, there⟩
    · simp [here, there]
    · simp [here, there]
    · simp [here, there]

end Ways

section Changes

/-- Two attempts at a change fail for one reason, or leave trees that are alike. -/
inductive Ends {ε : Type} (loose : Location → Prop) :
    Except ε FileTree → Except ε FileTree → Prop
  | error (e : ε) : Ends loose (.error e) (.error e)
  | ok {a b : FileTree} : Alike loose a b → Ends loose (.ok a) (.ok b)

variable (alike : Alike loose a b)
include alike

theorem write (p : Path) (content : Bytes) :
    Ends loose (a.write p content) (b.write p content) := by
  unfold FileTree.write
  rw [alike.target_congr]
  rcases aimed : a.target p with e | l
  · exact .error e
  · obtain ⟨_, _, _, other⟩ := target_ok aimed
    exact .ok (alike.insert (ne_root other) _)

theorem unlink (p : Path) : Ends loose (a.unlink p) (b.unlink p) := by
  unfold FileTree.unlink
  split
  · exact .error _
  · rw [alike.resolve_congr]
    rcases way : a.resolve p with cause | l
    · exact .error _
    · simp only
      rcases alike.kinds l with ⟨here, there⟩ | ⟨here, there⟩ | ⟨x, y, here, there⟩
      · rw [here, there]
        exact .error _
      · rw [here, there]
        exact .error _
      · have other : a.get? l ≠ some .directory := by simp [here]
        rw [here, there]
        exact .ok (alike.erase (ne_root other))

theorem makeDirectory (p : Path) : Ends loose (a.makeDirectory p) (b.makeDirectory p) := by
  unfold FileTree.makeDirectory
  rw [alike.resolve_congr]
  rcases way : a.resolve p with cause | l
  · exact .error _
  · simp only [bind, Except.bind, alike.isSome]
    split
    · exact .error _
    · rename_i absent
      have other : a.get? l ≠ some .directory := by
        intro directory
        simp [directory] at absent
      exact .ok (alike.insert (ne_root other) _)

theorem tolerate (p : Path) (cause : FileCause) :
    ((makeDirectories.tolerate p cause b).run.run b).1 =
        ((makeDirectories.tolerate p cause a).run.run a).1 ∧
      Alike loose ((makeDirectories.tolerate p cause a).run.run a).2
        ((makeDirectories.tolerate p cause b).run.run b).2 := by
  unfold makeDirectories.tolerate
  rw [alike.isDirectory_congr]
  split
  · exact ⟨rfl, alike⟩
  · split
    · exact ⟨rfl, alike⟩
    · exact ⟨rfl, alike⟩

end Changes

/-- Directories are made in both trees, or in neither for one reason. -/
theorem makeDirectories (alike : Alike loose a b) (p : Path) :
    ((FileTree.makeDirectories p).run.run b).1 = ((FileTree.makeDirectories p).run.run a).1 ∧
      Alike loose ((FileTree.makeDirectories p).run.run a).2
        ((FileTree.makeDirectories p).run.run b).2 := by
  rw [makeDirectories_run p a, makeDirectories_run p b]
  by_cases nul : hasNul p
  · simp only [nul, if_true]
    exact ⟨trivial, alike⟩
  · simp only [nul, Bool.false_eq_true, if_false]
    have itself := alike.makeDirectory p
    generalize a.makeDirectory p = made at itself ⊢
    generalize b.makeDirectory p = made' at itself ⊢
    cases itself with
    | ok alike' => exact ⟨rfl, alike'⟩
    | error cause =>
      cases cause with
      | notFound =>
        simp only
        split
        · exact ⟨rfl, alike⟩
        · obtain ⟨same, parents⟩ := alike.makeDirectories p.parent
          generalize (FileTree.makeDirectories p.parent).run.run a = outcome at same parents ⊢
          generalize (FileTree.makeDirectories p.parent).run.run b = outcome' at same parents ⊢
          obtain ⟨result, above⟩ := outcome
          obtain ⟨result', above'⟩ := outcome'
          obtain rfl : result' = result := same
          cases result' with
          | error e => exact ⟨rfl, parents⟩
          | ok _ =>
            have again := parents.makeDirectory p
            simp only at again ⊢
            generalize above.makeDirectory p = made at again ⊢
            generalize above'.makeDirectory p = made' at again ⊢
            cases again with
            | ok alike' => exact ⟨rfl, alike'⟩
            | error cause => exact parents.tolerate p cause
      | _ => exact alike.tolerate p _
termination_by p.parts.length
decreasing_by
  simp only [Path.parent, List.length_dropLast]
  have := List.length_pos_iff.mpr ‹p.parts ≠ []›
  omega

end Alike
end Launcher.FileTree
