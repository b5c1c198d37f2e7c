import Launcher.Proofs.Files.Putting

/-! File trees in which new files come directly into a directory. Names with dots and slashes lead
elsewhere, but only to directories, so no file comes there. -/
namespace Launcher.FileTree

section Rooted
variable {tree : FileTree}

/-- A way that starts in a directory, or at what lies directly in one, ends at such a place. -/
theorem IsRooted.walk_dropLast (rooted : tree.IsRooted) {names : List String}
    {start l : Location} (above : tree.get? start.dropLast = some .directory)
    (way : tree.walk start names = .ok l) : tree.get? l.dropLast = some .directory := by
  induction names generalizing start with
  | nil =>
    cases way
    exact above
  | cons name rest ih =>
    simp only [FileTree.walk] at way
    split at way
    · cases way
    · cases way
    · rename_i directory
      split at way
      · exact ih (rooted _ (by simp [above])) way
      · split at way
        · cases way
        · exact ih (by rw [List.dropLast_concat, directory]) way

theorem IsRooted.insert {l : Location} (rooted : tree.IsRooted)
    (above : tree.get? l.dropLast = some .directory) (absent : tree.get? l = none) :
    (tree.insert l .directory).IsRooted := by
  have fresh : tree.get? l ≠ some .directory := by simp [absent]
  have named := ne_root fresh
  intro l' there
  rw [get?_insert _ _ _ _ named] at there ⊢
  split at there
  · rename_i same
    subst same
    rw [above, ite_self]
  · rw [rooted l' there, ite_self]

/-- Making directories adds them to what is there already. -/
theorem IsRooted.makeDirectories (rooted : tree.IsRooted)
    (working : tree.get? workingDirectory = some .directory) (p : Path) :
    ((makeDirectories p).run.run tree).2.IsRooted := by
  suffices both : ((FileTree.makeDirectories p).run.run tree).2.IsRooted ∧
      ((FileTree.makeDirectories p).run.run tree).2.get? workingDirectory = some .directory from
    both.1
  refine makeDirectories_induction (motive := fun tree => tree.IsRooted ∧
    tree.get? workingDirectory = some .directory) p ?_ ⟨rooted, working⟩
  rintro n before made ran ⟨rooted, working⟩
  obtain ⟨way, absent, rfl⟩ := makeDirectory_ok ran
  have start : before.get? (p.ancestor n).origin = some .directory := by
    unfold Path.origin
    split
    · exact working
    · exact get?_root before
  have above : before.get? (p.ancestor n).location.dropLast = some .directory := by
    unfold resolve at way
    split at way
    · cases way
    · exact rooted.walk_dropLast (rooted _ (by rw [← Path.origin, start]; rfl)) way
  have fresh : before.get? (p.ancestor n).location ≠ some .directory := by simp [absent]
  refine ⟨rooted.insert above absent, ?_⟩
  rw [get?_insert _ _ _ _ (ne_root fresh), working, ite_self]

end Rooted

section Children
variable {a b : FileTree} {directory : Path} {name : String}

/-- Where a name leads from a directory there is a directory, or it is a name directly in it. -/
theorem location_of_not_directory (rooted : a.IsRooted)
    (housed : a.isDirectory directory = .ok true) (slashless : '/' ∉ name.toList)
    (other : a.get? (directory / name).location ≠ some .directory) :
    name ≠ "" ∧ (directory / name).location = directory.location ++ [name] := by
  have there := (isDirectory_iff.mp housed).2.2
  rcases Path.leadsDown_of_slashless slashless directory with up | down
  · rw [up] at other
    exact absurd (rooted _ (by simp [there])) other
  · have led := down.location directory
    rcases (Path.ofText_of_slashless slashless).2 with none | one
    · rw [led, none, List.append_nil] at other
      exact absurd there other
    · refine ⟨?_, by rw [led, one]⟩
      rintro rfl
      exact absurd one (by decide)

theorem location_of_target (rooted : a.IsRooted) (housed : a.isDirectory directory = .ok true)
    (slashless : '/' ∉ name.toList) {l : Location} (goal : a.target (directory / name) = .ok l) :
    l = directory.location ++ [name] := by
  obtain ⟨_, _, rfl, other⟩ := target_ok goal
  exact (location_of_not_directory rooted housed slashless other).2

/-- What lies no deeper than a directory does not lie in it. -/
theorem ne_child {l : Location} (shallow : l.length ≤ directory.location.length) (name : String) :
    l ≠ directory.location ++ [name] := by
  rintro rfl
  simp only [List.length_append, List.length_singleton] at shallow
  omega

theorem hasNul_child (nul : hasNul directory = false) (slashless : '/' ∉ name.toList)
    (whole : '\x00' ∉ name.toList) : hasNul (directory / name) = false := by
  obtain ⟨relative, parts⟩ := Path.ofText_of_slashless slashless
  unfold hasNul at nul ⊢
  rw [directory.join_parts_of_relative name relative, List.any_append, nul]
  rcases parts with none | one
  · simp [none]
  · simp [one, whole]

theorem parts_of_name (slashless : '/' ∉ name.toList) (named : name ≠ "") (here : name ≠ ".") :
    (Path.ofText name).parts = [name] := by
  have named' : name.toList ≠ [] := by simpa using named
  have here' : name.toList ≠ ['.'] := fun same => here (String.toList_inj.mp same)
  rw [Path.parts_ofText, Path.partsOf, Text.splitOn_free slashless]
  simp [named', here']

/-- A file can be put directly into a directory unless its name is too long, if it is the name of
nothing else there. -/
theorem target_of_child (housed : a.isDirectory directory = .ok true)
    (slashless : '/' ∉ name.toList) (whole : '\x00' ∉ name.toList) (named : name ≠ "")
    (here : name ≠ ".") (up : name ≠ "..") (fits : (Bytes.ofText name).length ≤ 255)
    (short : (directory / name).IsShort)
    (other : a.get? (directory.location ++ [name]) ≠ some .directory) :
    a.target (directory / name) = .ok (directory.location ++ [name]) := by
  obtain ⟨nul, way, there⟩ := isDirectory_iff.mp housed
  have relative := (Path.ofText_of_slashless slashless).1
  have one := parts_of_name slashless named here
  have parts : (directory / name).parts = directory.parts ++ [name] := by
    rw [directory.join_parts_of_relative name relative, one]
  have anchor : (directory / name).anchor = directory.anchor := by
    show (Path.join directory name).anchor = _
    simp [Path.join, relative]
  have led : a.resolve (directory / name) = .ok (directory.location ++ [name]) := by
    have way' : a.walk directory.origin directory.parts = .ok directory.location := by
      unfold resolve at way
      split at way
      · cases way
      · exact way
    rw [resolve_of_short short, parts, walk_append, show (directory / name).origin =
      directory.origin by simp only [Path.origin, anchor], way']
    simp only [walk, there, up, if_false, if_neg (Nat.not_lt.mpr fits)]
  rw [target_eq, hasNul_child nul slashless whole, led]
  simp only [other, Bool.false_eq_true, if_false]

/-- No file can be put under too long a name. -/
theorem target_of_long (slashless : '/' ∉ name.toList) (long : 255 < (Bytes.ofText name).length)
    (l : Location) : a.target (directory / name) ≠ .ok l := by
  intro goal
  obtain ⟨_, way, _⟩ := target_ok goal
  have one : (Path.ofText name).parts = [name] :=
    parts_of_name slashless (by rintro rfl; exact absurd long (by decide))
      (by rintro rfl; exact absurd long (by decide))
  have up : name ≠ ".." := by
    rintro rfl
    exact absurd long (by decide)
  unfold resolve at way
  split at way
  · cases way
  · rw [directory.join_parts_of_relative name (Path.ofText_of_slashless slashless).1, one,
      walk_append] at way
    split at way
    · simp only [walk, up, long, if_true, if_false] at way
      split at way <;> cases way
    · cases way

/-- From the first tree to the second, files come directly into a directory under some of the
names, in place of others or of nothing. -/
def Fills (directory : Path) (names : String → Prop) (a b : FileTree) : Prop :=
  ∀ l, b.get? l = a.get? l ∨ (a.get? l ≠ some .directory ∧ b.IsFileAt l ∧
    ∃ name, names name ∧ l = directory.location ++ [name])

namespace Fills
variable {c : FileTree} {names : String → Prop} {p : Path} {l : Location}

theorem refl (directory : Path) (names : String → Prop) (a : FileTree) :
    Fills directory names a a := fun _ => .inl rfl

theorem directory_iff (fills : Fills directory names a b) (l : Location) :
    b.get? l = some .directory ↔ a.get? l = some .directory := by
  rcases fills l with same | ⟨other, ⟨content, file⟩, _⟩
  · rw [same]
  · exact iff_of_false (by simp [file]) other

theorem keepsDirectories (fills : Fills directory names a b) : a.KeepsDirectories b :=
  fun l => (fills.directory_iff l).mpr

theorem trans (first : Fills directory names a b) (second : Fills directory names b c) :
    Fills directory names a c := by
  intro l
  rcases second l with same | ⟨other, file, placed⟩
  · rw [same]
    rcases first l with same' | ⟨other, ⟨content, file⟩, placed⟩
    · exact .inl same'
    · exact .inr ⟨other, ⟨content, same.trans file⟩, placed⟩
  · exact .inr ⟨fun there => other ((first.directory_iff l).mpr there), file, placed⟩

theorem insert (fills : Fills directory names a b) (member : names name)
    (other : b.get? (directory.location ++ [name]) ≠ some .directory) (content : Bytes) :
    Fills directory names a (b.insert (directory.location ++ [name]) (.file content)) := by
  refine fills.trans fun l => ?_
  rw [IsFileAt, get?_insert _ _ _ _ (ne_root other)]
  split
  · rename_i same
    subst same
    exact .inr ⟨other, ⟨content, rfl⟩, name, member, rfl⟩
  · exact .inl rfl

/-- Beside the directory there are the files that were there. -/
theorem get?_eq (fills : Fills directory names a b)
    (outside : ∀ name, l ≠ directory.location ++ [name]) : b.get? l = a.get? l := by
  rcases fills l with same | ⟨_, _, name, _, place⟩
  · exact same
  · exact absurd place (outside name)

theorem read_iff (fills : Fills directory names a b)
    (outside : ∀ name, p.location ≠ directory.location ++ [name]) {content : Bytes} :
    b.read p = .ok content ↔ a.read p = .ok content := by
  have back : b.KeepsDirectories a := fun l => (fills.directory_iff l).mp
  rw [FileTree.read_iff, FileTree.read_iff, fills.get?_eq outside]
  exact and_congr_right fun _ => and_congr_left fun _ =>
    ⟨resolve_mono back, resolve_mono fills.keepsDirectories⟩

theorem opensAlike (fills : Fills directory names a b)
    (housed : a.isDirectory directory = .ok true) : OpensAlike directory a b := by
  refine ⟨housed, isDirectory_mono fills.keepsDirectories housed, fun name slashless => ?_⟩
  refine target_in_directory housed fills.keepsDirectories
    (Path.length_ofText_of_slashless slashless) (Path.ofText_of_slashless slashless).1
    fun l goal there => ?_
  exact (target_ok goal).2.2.2 ((fills.directory_iff l).mp there)

end Fills
end Children
end Launcher.FileTree
