import Launcher.Proofs.Files.Retention

/-! Files that are put to locations in turn. A location has in the end what came to it last, and
where files can be put directly into a directory does not change meanwhile. -/
namespace Launcher.FileTree

/-- Files come to locations in turn, in place of what was there. -/
def putAll (tree : FileTree) (writes : List (Location × Bytes)) : FileTree :=
  writes.foldl (fun tree w => tree.insert w.1 (.file w.2)) tree

/-- What comes to a location last. -/
def lastPut? (writes : List (Location × Bytes)) (l : Location) : Option Bytes :=
  (writes.reverse.find? (·.1 == l)).map (·.2)

@[simp] theorem putAll_nil (tree : FileTree) : tree.putAll [] = tree := rfl

theorem putAll_append (tree : FileTree) (writes writes' : List (Location × Bytes)) :
    tree.putAll (writes ++ writes') = (tree.putAll writes).putAll writes' := List.foldl_append

theorem putAll_cons (tree : FileTree) (w : Location × Bytes) (writes : List (Location × Bytes)) :
    tree.putAll (w :: writes) = (tree.insert w.1 (.file w.2)).putAll writes := rfl

/-- What is put over something else leaves no trace of it. -/
theorem insert_insert (tree : FileTree) (l : Location) (first second : FileEntry) :
    (tree.insert l first).insert l second = tree.insert l second := by
  simp [insert, List.filter_append]

theorem lastPut?_eq_none {writes : List (Location × Bytes)} {l : Location} :
    lastPut? writes l = none ↔ ∀ w ∈ writes, w.1 ≠ l := by
  simp [lastPut?]

theorem lastPut?_append (writes writes' : List (Location × Bytes)) (l : Location) :
    lastPut? (writes ++ writes') l = (lastPut? writes' l).or (lastPut? writes l) := by
  simp [lastPut?, List.find?_append, Option.map_or]

theorem lastPut?_cons (w : Location × Bytes) (writes : List (Location × Bytes)) (l : Location) :
    lastPut? (w :: writes) l = (lastPut? writes l).or (if w.1 = l then some w.2 else none) := by
  rw [← List.singleton_append, lastPut?_append]
  by_cases same : w.1 = l
  · simp [lastPut?, same]
  · simp [lastPut?, same]

/-- A location holds what came to it last, or what it held before. -/
theorem get?_putAll {tree : FileTree} {writes : List (Location × Bytes)}
    (below : ∀ w ∈ writes, w.1 ≠ []) (l : Location) :
    (tree.putAll writes).get? l = ((lastPut? writes l).map .file).or (tree.get? l) := by
  induction writes generalizing tree with
  | nil => rfl
  | cons w rest ih =>
    have named := below w List.mem_cons_self
    rw [putAll_cons, ih fun w' member => below w' (List.mem_cons_of_mem _ member),
      get?_insert _ _ _ _ named, lastPut?_cons]
    rcases lastPut? rest l with _ | content
    · by_cases same : l = w.1
      · simp [same]
      · simp [same, Ne.symm same]
    · rfl

theorem isFileAt_putAll {tree : FileTree} {writes : List (Location × Bytes)}
    (below : ∀ w ∈ writes, w.1 ≠ []) {w : Location × Bytes} (member : w ∈ writes) :
    (tree.putAll writes).IsFileAt w.1 := by
  rw [IsFileAt, get?_putAll below]
  rcases last : lastPut? writes w.1 with _ | content
  · exact absurd rfl (lastPut?_eq_none.mp last w member)
  · exact ⟨content, rfl⟩

/-- The same files put again change nothing. -/
theorem get?_putAll_again {tree : FileTree} {writes : List (Location × Bytes)}
    (below : ∀ w ∈ writes, w.1 ≠ []) (l : Location) :
    ((tree.putAll writes).putAll writes).get? l = (tree.putAll writes).get? l := by
  rw [get?_putAll below, get?_putAll below]
  cases lastPut? writes l <;> rfl

section Aims
variable {a b : FileTree} {directory : Path} {name : String} {l : Location}

/-- Files can be put to the same places directly in a directory, which is there in both trees. -/
structure OpensAlike (directory : Path) (a b : FileTree) : Prop where
  housed : a.isDirectory directory = .ok true
  housed' : b.isDirectory directory = .ok true
  aims : ∀ name : String, '/' ∉ name.toList →
    b.target (directory / name) = a.target (directory / name)

theorem keepsDirectories_insert {content : Bytes} (other : a.get? l ≠ some .directory) :
    a.KeepsDirectories (a.insert l (.file content)) := by
  intro l' there
  rw [get?_insert _ _ _ _ (ne_root other), if_neg, there]
  rintro rfl
  exact other there

/-- A new file changes nothing about where files can be put. -/
theorem opensAlike_insert (housed : a.isDirectory directory = .ok true)
    (other : a.get? l ≠ some .directory) (content : Bytes) :
    OpensAlike directory a (a.insert l (.file content)) := by
  have keeps : a.KeepsDirectories (a.insert l (.file content)) := keepsDirectories_insert other
  refine ⟨housed, isDirectory_mono keeps housed, fun name slashless => ?_⟩
  refine target_in_directory housed keeps (Path.length_ofText_of_slashless slashless)
    (Path.ofText_of_slashless slashless).1 fun l' aimed => ?_
  rw [get?_insert _ _ _ _ (ne_root other)]
  split
  · exact fun h => nomatch h
  · exact (target_ok aimed).2.2.2

namespace OpensAlike
variable {c : FileTree}

theorem refl (housed : a.isDirectory directory = .ok true) : OpensAlike directory a a :=
  ⟨housed, housed, fun _ _ => rfl⟩

theorem trans (first : OpensAlike directory a b) (second : OpensAlike directory b c) :
    OpensAlike directory a c :=
  ⟨first.housed, second.housed', fun name slashless =>
    (second.aims name slashless).trans (first.aims name slashless)⟩

theorem symm (alike : OpensAlike directory a b) : OpensAlike directory b a :=
  ⟨alike.housed', alike.housed, fun name slashless => (alike.aims name slashless).symm⟩

end OpensAlike

/-- Each of some writes goes to where a file can be put directly into a directory. -/
def Aimed (directory : Path) (tree : FileTree) (writes : List (Location × Bytes)) : Prop :=
  ∀ w ∈ writes, ∃ name : String, '/' ∉ name.toList ∧ tree.target (directory / name) = .ok w.1

namespace Aimed
variable {writes writes' : List (Location × Bytes)}

theorem below (aimed : Aimed directory a writes) : ∀ w ∈ writes, w.1 ≠ [] := by
  intro w member
  obtain ⟨name, _, goal⟩ := aimed w member
  exact ne_root (target_ok goal).2.2.2

theorem alike (aimed : Aimed directory a writes) (alike : OpensAlike directory a b) :
    Aimed directory b writes := by
  intro w member
  obtain ⟨name, slashless, goal⟩ := aimed w member
  exact ⟨name, slashless, (alike.aims name slashless).trans goal⟩

theorem append (first : Aimed directory a writes) (second : Aimed directory a writes') :
    Aimed directory a (writes ++ writes') := by
  intro w member
  rcases List.mem_append.mp member with member | member
  · exact first w member
  · exact second w member

/-- Where files can be put does not change by putting some. -/
theorem opensAlike (aimed : Aimed directory a writes)
    (housed : a.isDirectory directory = .ok true) :
    OpensAlike directory a (a.putAll writes) := by
  induction writes generalizing a with
  | nil => exact .refl housed
  | cons w rest ih =>
    obtain ⟨name, _, goal⟩ := aimed w List.mem_cons_self
    have first := opensAlike_insert housed (target_ok goal).2.2.2 w.2
    have others : Aimed directory a rest :=
      fun w' member => aimed w' (List.mem_cons_of_mem _ member)
    exact first.trans (ih (others.alike first) first.housed')

/-- Everything stays but what is written over. -/
theorem retains (aimed : Aimed directory a writes) (housed : a.isDirectory directory = .ok true) :
    Retains (fun l => ∀ w ∈ writes, w.1 ≠ l) a (a.putAll writes) := by
  induction writes generalizing a with
  | nil => exact .refl _ _
  | cons w rest ih =>
    obtain ⟨name, _, goal⟩ := aimed w List.mem_cons_self
    have other := (target_ok goal).2.2.2
    have alike := opensAlike_insert housed other w.2
    have others : Aimed directory a rest :=
      fun w' member => aimed w' (List.mem_cons_of_mem _ member)
    refine .trans (b := a.insert w.1 (.file w.2)) (.insert other fun kept => ?_)
      ((ih (others.alike alike) alike.housed').weaken fun l kept w' member => ?_)
    · exact absurd rfl (kept w List.mem_cons_self)
    · exact kept w' (List.mem_cons_of_mem _ member)

end Aimed

/-- The same files put into both trees leave in the second what they leave in the first. -/
theorem Retains.putAll {kept : Location → Prop} {writes : List (Location × Bytes)}
    (retains : Retains kept a b) (below : ∀ w ∈ writes, w.1 ≠ []) :
    Retains kept (a.putAll writes) (b.putAll writes) := by
  have either (l : Location) :
      (∃ content, (a.putAll writes).get? l = some (.file content) ∧
        (b.putAll writes).get? l = some (.file content)) ∨
      ((a.putAll writes).get? l = a.get? l ∧ (b.putAll writes).get? l = b.get? l) := by
    rw [get?_putAll below, get?_putAll below]
    rcases lastPut? writes l with _ | content
    · exact .inr ⟨rfl, rfl⟩
    · exact .inl ⟨content, rfl, rfl⟩
  constructor
  case directories =>
    intro l there
    rcases either l with ⟨content, put, _⟩ | ⟨same, same'⟩
    · rw [put] at there
      cases there
    · rw [same']
      exact retains.directories l (same ▸ there)
  case files =>
    rintro l ⟨content, there⟩
    rcases either l with ⟨content', _, put⟩ | ⟨same, same'⟩
    · exact ⟨content', put⟩
    · rw [IsFileAt, same']
      exact retains.files l ⟨content, same ▸ there⟩
  case contents =>
    intro l member content there
    rcases either l with ⟨content', put, put'⟩ | ⟨same, same'⟩
    · rw [put']
      exact put.symm.trans there
    · rw [same']
      exact retains.contents l member content (same ▸ there)

end Aims
end Launcher.FileTree
