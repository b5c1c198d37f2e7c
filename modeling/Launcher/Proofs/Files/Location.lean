import Launcher.Files.Access
import Launcher.Proofs.Text.Pieces

/-! Where paths lead. The location of a path is fixed by its text; the file tree only decides
whether the way there is open, and a tree with more directories leaves more ways open. -/
namespace Launcher

namespace Path

/-- Where the names of a path start. -/
def origin (p : Path) : Location :=
  if p.anchor = .relative then FileTree.workingDirectory else []

/-- One name further: two dots go up. -/
def descend (location : Location) (name : String) : Location :=
  if name = ".." then location.dropLast else location ++ [name]

/-- The location that a path names, whether or not a tree lets one get there. -/
def location (p : Path) : Location := p.parts.foldl descend p.origin

/-- A path without two dots. -/
def IsPlain (p : Path) : Prop := ".." ∉ p.parts

instance (p : Path) : Decidable p.IsPlain := inferInstanceAs (Decidable (¬ _))

theorem foldl_descend_of_plain (names : List String) (start : Location) (plain : ".." ∉ names) :
    names.foldl descend start = start ++ names := by
  induction names generalizing start with
  | nil => simp
  | cons name rest ih =>
    simp only [List.mem_cons, not_or] at plain
    rw [List.foldl_cons, ih _ plain.2, descend, if_neg (Ne.symm plain.1)]
    simp

theorem location_of_plain {p : Path} (plain : p.IsPlain) : p.location = p.origin ++ p.parts :=
  foldl_descend_of_plain _ _ plain

/-- The first names of a path. -/
def ancestor (p : Path) (n : Nat) : Path := ⟨p.anchor, p.parts.take n⟩

theorem ancestor_self (p : Path) : p.ancestor p.parts.length = p := by simp [ancestor]

theorem parent_ancestor (p : Path) (n : Nat) :
    p.parent.ancestor n = p.ancestor (min n (p.parts.length - 1)) := by
  simp [ancestor, parent, List.dropLast_eq_take, List.take_take]

theorem location_ancestor {p : Path} (plain : p.IsPlain) (n : Nat) :
    (p.ancestor n).location = p.origin ++ p.parts.take n :=
  location_of_plain fun member => plain (List.mem_of_mem_take member)

theorem IsPlain.parent {p : Path} (plain : p.IsPlain) : p.parent.IsPlain :=
  fun member => plain ((List.dropLast_sublist _).subset member)

section Above
variable {p : Path}

theorem ancestor_prefix (plain : p.IsPlain) (n : Nat) :
    (p.parent.ancestor n).location <+: p.location := by
  rw [parent_ancestor, location_ancestor plain, location_of_plain plain]
  exact (List.prefix_append_right_inj _).mpr (List.take_prefix _ _)

/-- The directories above a path lie strictly above it. -/
theorem ancestor_ne (plain : p.IsPlain) (named : p.parts ≠ []) (n : Nat) :
    (p.parent.ancestor n).location ≠ p.location := by
  rw [parent_ancestor, location_ancestor plain, location_of_plain plain]
  intro same
  have short := congrArg List.length (List.append_cancel_left same)
  have positive := List.length_pos_iff.mpr named
  simp only [List.length_take] at short
  omega

theorem parent_isPrefix (plain : p.IsPlain) : p.parent.location <+: p.location := by
  have above := ancestor_prefix plain p.parent.parts.length
  rwa [ancestor_self] at above

end Above

section Names

theorem anchor_ofText {text : String} :
    (ofText text).anchor = .relative ↔ text.toList.head? ≠ some '/' := by
  unfold ofText ofChars
  split
  · simp [*]
  · simp [*]
  · simp [*]
  · rename_i other
    refine iff_of_true rfl fun first => ?_
    obtain ⟨rest, same⟩ := List.head?_eq_some_iff.mp first
    exact other rest same

theorem parts_ofText (text : String) : (ofText text).parts = partsOf text.toList := by
  unfold ofText ofChars
  split <;> rfl

/-- A name without slashes is one part at most. -/
theorem ofText_of_slashless {name : String} (slashless : '/' ∉ name.toList) :
    (ofText name).anchor = .relative ∧
      ((ofText name).parts = [] ∨ (ofText name).parts = [name]) := by
  have relative : (ofText name).anchor = .relative := by
    rw [anchor_ofText]
    intro first
    exact slashless (List.mem_of_head? first)
  refine ⟨relative, ?_⟩
  rw [parts_ofText, partsOf, Text.splitOn_free slashless, List.filter_cons]
  split
  · exact .inr (by simp)
  · exact .inl rfl

theorem length_ofText_of_slashless {name : String} (slashless : '/' ∉ name.toList) :
    (ofText name).parts.length ≤ 1 := by
  rcases (ofText_of_slashless slashless).2 with none | one
  · simp [none]
  · simp [one]

/-- A name that leads further down from wherever it is read: it is relative and has no two dots. -/
def LeadsDown (name : String) : Prop := (ofText name).anchor = .relative ∧ (ofText name).IsPlain

instance (name : String) : Decidable (LeadsDown name) := inferInstanceAs (Decidable (_ ∧ _))

/-- The second path goes on from the first one by some names, and none of them goes up. -/
structure Below (p : Path) (names : List String) (q : Path) : Prop where
  anchor : q.anchor = p.anchor
  parts : q.parts = p.parts ++ names
  down : ".." ∉ names

namespace Below
variable {p q r : Path} {names names' : List String}

theorem trans (first : p.Below names q) (second : q.Below names' r) :
    p.Below (names ++ names') r := by
  refine ⟨second.anchor.trans first.anchor, ?_, ?_⟩
  · rw [second.parts, first.parts, List.append_assoc]
  · rw [List.mem_append, not_or]
    exact ⟨first.down, second.down⟩

theorem location (below : p.Below names q) : q.location = p.location ++ names := by
  unfold Path.location origin
  rw [below.anchor, below.parts, List.foldl_append, foldl_descend_of_plain _ _ below.down]

/-- Below one path, a location has one path that leads to it. -/
theorem eq_of_location (below : p.Below names q) (below' : p.Below names' r)
    (same : q.location = r.location) : q = r := by
  rw [below.location, below'.location] at same
  obtain rfl := List.append_cancel_left same
  cases q
  cases r
  rw [mk.injEq]
  exact ⟨below.anchor.trans below'.anchor.symm, below.parts.trans below'.parts.symm⟩

end Below

theorem LeadsDown.below {name : String} (down : LeadsDown name) (p : Path) :
    p.Below (ofText name).parts (p / name) := by
  refine ⟨?_, join_parts_of_relative p name down.1, down.2⟩
  show (join p name).anchor = _
  simp [join, down.1]

theorem LeadsDown.location {name : String} (down : LeadsDown name) (p : Path) :
    (p / name).location = p.location ++ (ofText name).parts :=
  (down.below p).location

/-- A name without slashes leads one part down at most, unless it is two dots. -/
theorem leadsDown_of_slashless {name : String} (slashless : '/' ∉ name.toList) (p : Path) :
    (p / name).location = p.location.dropLast ∨ LeadsDown name := by
  obtain ⟨relative, parts⟩ := ofText_of_slashless slashless
  by_cases up : name = ".."
  · subst up
    left
    show (join p "..").location = _
    simp [join, show ofText ".." = ⟨.relative, [".."]⟩ by decide, Path.location, origin, descend]
  · refine .inr ⟨relative, ?_⟩
    rcases parts with none | one
    · simp [IsPlain, none]
    · simp [IsPlain, one, Ne.symm up]

end Names

/-- Relative paths without two dots lead to one location only if they are equal. -/
theorem location_injective {p q : Path} (plain : p.IsPlain) (plain' : q.IsPlain)
    (relative : p.anchor = .relative) (relative' : q.anchor = .relative)
    (same : p.location = q.location) : p = q := by
  rw [location_of_plain plain, location_of_plain plain', origin, origin, if_pos relative,
    if_pos relative'] at same
  cases p
  cases q
  simp_all

end Path

namespace FileTree

/-- Every directory of the first tree is one of the second. -/
def KeepsDirectories (a b : FileTree) : Prop :=
  ∀ l, a.get? l = some .directory → b.get? l = some .directory

theorem KeepsDirectories.refl (a : FileTree) : a.KeepsDirectories a := fun _ h => h

theorem KeepsDirectories.trans {a b c : FileTree} (first : a.KeepsDirectories b)
    (second : b.KeepsDirectories c) : a.KeepsDirectories c := fun l h => second l (first l h)

theorem walk_location {tree : FileTree} {names : List String} {start l : Location}
    (way : tree.walk start names = .ok l) : l = names.foldl Path.descend start := by
  induction names generalizing start with
  | nil => simpa [walk] using way.symm
  | cons name rest ih =>
    simp only [walk] at way
    split at way
    · contradiction
    · contradiction
    · rw [List.foldl_cons, Path.descend]
      split at way
      · rw [if_pos ‹_›]
        exact ih way
      · rw [if_neg ‹_›]
        split at way
        · contradiction
        · exact ih way

theorem resolve_location {tree : FileTree} {p : Path} {l : Location}
    (way : tree.resolve p = .ok l) : l = p.location := by
  unfold resolve at way
  split at way
  · contradiction
  · exact walk_location way

theorem walk_mono {a b : FileTree} (keeps : a.KeepsDirectories b) {names : List String}
    {start l : Location} (way : a.walk start names = .ok l) : b.walk start names = .ok l := by
  induction names generalizing start with
  | nil => exact way
  | cons name rest ih =>
    simp only [walk] at way ⊢
    split at way
    · contradiction
    · contradiction
    · rename_i directory
      rw [keeps _ directory]
      simp only
      split at way
      · rw [if_pos ‹_›]
        exact ih way
      · rw [if_neg ‹_›]
        split at way
        · contradiction
        · rw [if_neg ‹_›]
          exact ih way

/-- A way that is open stays open while directories stay. -/
theorem resolve_mono {a b : FileTree} (keeps : a.KeepsDirectories b) {p : Path} {l : Location}
    (way : a.resolve p = .ok l) : b.resolve p = .ok l := by
  unfold resolve at way ⊢
  split at way
  · contradiction
  · rw [if_neg ‹_›]
    exact walk_mono keeps way

end FileTree
end Launcher
