import Launcher.Proofs.Files.Presence

/-! What becomes of making directories. It depends on the names of the path and on the files in its
way, and not on which of the directories are there already, but for one thing: too long a name is
reported with the directory that was being made when it was met. -/
namespace Launcher

theorem intercalate_dropLast_isPrefix {α : Type} (separator : List α) (pieces : List (List α)) :
    separator.intercalate pieces.dropLast <+: separator.intercalate pieces := by
  induction pieces with
  | nil => exact List.prefix_refl _
  | cons piece rest ih =>
    cases rest with
    | nil => exact List.nil_prefix
    | cons next rest =>
      cases rest with
      | nil => simp [List.intercalate_cons_cons]
      | cons _ _ =>
        simp only [List.dropLast_cons_cons, List.intercalate_cons_cons] at ih ⊢
        exact (List.prefix_append_right_inj _).mpr ih

theorem Bytes.length_ofText_mono {a b : String} (inside : a.toList <+: b.toList) :
    (ofText a).length ≤ (ofText b).length := by
  obtain ⟨rest, same⟩ := inside
  simp [ofText, ← same]

namespace Path

/-- The text of a path has fewer bytes than the system allows. -/
def IsShort (p : Path) : Prop := (Bytes.ofText p.text).length < 4096

instance (p : Path) : Decidable p.IsShort := inferInstanceAs (Decidable (_ < _))

/-- The names of a path as its text has them, and nothing if there are none. -/
def names (p : Path) : String := anchorText p.anchor ++ "/".intercalate p.parts

theorem text_of_names (p : Path) : p.text = if p.names = "" then "." else p.names := rfl

theorem parent_names_isPrefix (p : Path) : p.parent.names.toList <+: p.names.toList := by
  simp only [names, parent, String.toList_append, String.toList_intercalate, List.map_dropLast]
  exact (List.prefix_append_right_inj _).mpr (intercalate_dropLast_isPrefix _ _)

theorem IsShort.parent {p : Path} (short : p.IsShort) : p.parent.IsShort := by
  have inside := p.parent_names_isPrefix
  unfold IsShort at short ⊢
  rw [text_of_names] at short ⊢
  split
  · decide
  · rename_i named
    have named' : p.names ≠ "" := by
      intro empty
      rw [empty] at inside
      exact named (String.toList_inj.mp (List.prefix_nil.mp inside))
    rw [if_neg named'] at short
    exact Nat.lt_of_le_of_lt (Bytes.length_ofText_mono inside) short

/-- How many names stand before the first one that is too long. -/
def longName (p : Path) : Nat := p.parts.findIdx fun name => 255 < (Bytes.ofText name).length

theorem longName_of_parent {p : Path} {name : String} (parts : p.parts = p.parent.parts ++ [name]) :
    (p.parent.longName < p.parent.parts.length → p.longName = p.parent.longName) ∧
      ((∀ above ∈ p.parent.parts, ¬ 255 < (Bytes.ofText above).length) →
        255 < (Bytes.ofText name).length → p.longName + 1 = p.parts.length) := by
  unfold longName
  rw [parts, List.findIdx_append]
  constructor
  · intro inside
    rw [if_pos inside]
  · intro fit long
    have all : p.parent.parts.findIdx (fun name => 255 < (Bytes.ofText name).length) =
        p.parent.parts.length := List.findIdx_eq_length.mpr fun above member => by
      simpa using fit above member
    rw [all, if_neg (Nat.lt_irrefl _)]
    simp [List.findIdx_cons, long]

theorem parts_of_parent {p : Path} (named : p.parts ≠ []) :
    ∃ name, p.parts = p.parent.parts ++ [name] :=
  ⟨p.parts.getLast named, (List.dropLast_concat_getLast named).symm⟩

end Path

namespace FileTree
variable {tree other : FileTree} {start : Location} {names : List String}

/-- What keeps directories from being made along names: a file in the way, or too long a name. A
directory that is missing does not. -/
def obstacle? (tree : FileTree) (start : Location) : List String → Option FileCause
  | [] =>
    match tree.get? start with
    | some (.file _) => some .exists
    | _ => none
  | name :: rest =>
    match tree.get? start with
    | some (.file _) => some .notDirectory
    | _ =>
      if 255 < (Bytes.ofText name).length then some .nameTooLong
      else tree.obstacle? (start ++ [name]) rest

theorem obstacle?_nil : tree.obstacle? start [] = some .exists ↔ tree.IsFileAt start := by
  unfold obstacle? IsFileAt
  split <;> simp_all

theorem obstacle?_nil_cases (tree : FileTree) (start : Location) :
    tree.obstacle? start [] = some .exists ∨ tree.obstacle? start [] = none := by
  unfold obstacle?
  split <;> simp

theorem obstacle?_of_file {name : String} (file : tree.IsFileAt start) :
    tree.obstacle? start (name :: names) = some .notDirectory := by
  obtain ⟨content, there⟩ := file
  simp [obstacle?, there]

theorem obstacle?_of_not_file {name : String} (free : ¬ tree.IsFileAt start) :
    tree.obstacle? start (name :: names) =
      if 255 < (Bytes.ofText name).length then some .nameTooLong
      else tree.obstacle? (start ++ [name]) names := by
  rw [obstacle?]
  split
  · rename_i content there
    exact absurd ⟨content, there⟩ free
  · rfl

/-- One name more. -/
theorem obstacle?_concat (tree : FileTree) (start : Location) (names : List String)
    (name : String) :
    tree.obstacle? start (names ++ [name]) =
      match tree.obstacle? start names with
      | none =>
        if 255 < (Bytes.ofText name).length then some .nameTooLong
        else tree.obstacle? (start ++ names ++ [name]) []
      | some .exists => some .notDirectory
      | some cause => some cause := by
  induction names generalizing start with
  | nil =>
    rw [List.nil_append, List.append_nil]
    by_cases file : tree.IsFileAt start
    · rw [obstacle?_of_file file, obstacle?_nil.mpr file]
    · have none : tree.obstacle? start [] = none :=
        (tree.obstacle?_nil_cases start).resolve_left fun there => file (obstacle?_nil.mp there)
      rw [obstacle?_of_not_file file, none]
  | cons first rest ih =>
    rw [List.cons_append]
    by_cases file : tree.IsFileAt start
    · rw [obstacle?_of_file file, obstacle?_of_file file]
    · rw [obstacle?_of_not_file file, obstacle?_of_not_file file]
      split
      · rfl
      · rw [ih, List.append_assoc start [first] rest, List.singleton_append]

theorem obstacle?_congr
    (same : ∀ n, tree.IsFileAt (start ++ names.take n) ↔ other.IsFileAt (start ++ names.take n)) :
    tree.obstacle? start names = other.obstacle? start names := by
  induction names generalizing start with
  | nil =>
    have here := same 0
    rw [List.take_zero, List.append_nil, ← obstacle?_nil, ← obstacle?_nil] at here
    rcases tree.obstacle?_nil_cases start with there | none
    · rw [there, here.mp there]
    · rcases other.obstacle?_nil_cases start with there | none'
      · rw [there, here.mpr there]
      · rw [none, none']
  | cons name rest ih =>
    have here := same 0
    rw [List.take_zero, List.append_nil] at here
    by_cases file : tree.IsFileAt start
    · rw [obstacle?_of_file file, obstacle?_of_file (here.mp file)]
    · rw [obstacle?_of_not_file file, obstacle?_of_not_file (mt here.mpr file)]
      have later := @ih (start ++ [name]) fun n => by simpa using same (n + 1)
      rw [later]

/-- The names are as long as they are in any tree. -/
theorem names_of_obstacle? :
    (tree.obstacle? start names = some .nameTooLong →
      ∃ name ∈ names, 255 < (Bytes.ofText name).length) ∧
    (tree.obstacle? start names = none → ∀ name ∈ names, ¬ 255 < (Bytes.ofText name).length) := by
  induction names generalizing start with
  | nil =>
    refine ⟨fun long => ?_, fun _ _ member => nomatch member⟩
    rcases tree.obstacle?_nil_cases start with there | none
    · rw [there] at long
      contradiction
    · rw [none] at long
      contradiction
  | cons name rest ih =>
    by_cases file : tree.IsFileAt start
    · rw [obstacle?_of_file file]
      exact ⟨nofun, nofun⟩
    · rw [obstacle?_of_not_file file]
      split
      · rename_i long
        exact ⟨fun _ => ⟨name, List.mem_cons_self, long⟩, nofun⟩
      · rename_i fits
        refine ⟨fun long => ?_, fun free => List.forall_mem_cons.mpr ⟨fits, ih.2 free⟩⟩
        obtain ⟨other, member, long⟩ := ih.1 long
        exact ⟨other, List.mem_cons_of_mem _ member, long⟩

/-- A way that is open ends at the last name, and only a file there is an obstacle. -/
theorem obstacle?_of_walk (plain : ".." ∉ names) {l : Location}
    (way : tree.walk start names = .ok l) :
    tree.obstacle? start names = tree.obstacle? (start ++ names) [] := by
  induction names generalizing start with
  | nil => rw [List.append_nil]
  | cons name rest ih =>
    simp only [List.mem_cons, not_or] at plain
    simp only [walk] at way
    split at way
    · contradiction
    · contradiction
    · rename_i directory
      rw [if_neg (Ne.symm plain.1)] at way
      split at way
      · contradiction
      · rename_i fits
        rw [obstacle?_of_not_file (by simp [IsFileAt, directory]), if_neg fits, ih plain.2 way,
          List.append_assoc, List.singleton_append]

/-- What ends a way is an obstacle, unless it is a directory that is missing. -/
theorem obstacle?_of_walk_error (plain : ".." ∉ names) {cause : FileCause}
    (blocked : tree.walk start names = .error cause) :
    cause = .notFound ∨ (cause = .notDirectory ∨ cause = .nameTooLong) ∧
      tree.obstacle? start names = some cause := by
  induction names generalizing start with
  | nil => contradiction
  | cons name rest ih =>
    simp only [List.mem_cons, not_or] at plain
    simp only [walk] at blocked
    split at blocked
    · exact .inl (Except.error.inj blocked).symm
    · rename_i content file
      cases blocked
      exact .inr ⟨.inl rfl, obstacle?_of_file ⟨content, file⟩⟩
    · rename_i directory
      have free : ¬ tree.IsFileAt start := by simp [IsFileAt, directory]
      rw [if_neg (Ne.symm plain.1)] at blocked
      rw [obstacle?_of_not_file free]
      split at blocked
      · rename_i long
        cases blocked
        exact .inr ⟨.inr rfl, if_pos long⟩
      · rename_i fits
        rw [if_neg fits]
        exact ih plain.2 blocked

/-- Every file at or above a location lies in directories. -/
def IsRootedTo (tree : FileTree) (l : Location) : Prop :=
  ∀ above below, above ++ below <+: l → below ≠ [] → tree.IsFileAt (above ++ below) →
    tree.get? above = some .directory

theorem IsRooted.to (rooted : tree.IsRooted) (l : Location) : tree.IsRootedTo l := by
  rintro above below _ named ⟨content, file⟩
  exact rooted.directory (by simp [file]) named

theorem IsRootedTo.above {l l' : Location} (rooted : tree.IsRootedTo l) (inside : l' <+: l) :
    tree.IsRootedTo l' :=
  fun above below under => rooted above below (under.trans inside)

theorem obstacle?_of_free (free : ∀ n, ¬ tree.IsFileAt (start ++ names.take n)) :
    tree.obstacle? start names = none ∨ tree.obstacle? start names = some .nameTooLong := by
  induction names generalizing start with
  | nil =>
    have here := free 0
    rw [List.take_nil, List.append_nil, ← obstacle?_nil] at here
    exact .inl ((tree.obstacle?_nil_cases start).resolve_left here)
  | cons name rest ih =>
    have here := free 0
    rw [List.take_zero, List.append_nil] at here
    rw [obstacle?_of_not_file here]
    split
    · exact .inr rfl
    · exact ih fun n => by simpa using free (n + 1)

/-- Where a directory is missing there is no file further down. -/
theorem obstacle?_of_missing (rooted : tree.IsRootedTo (start ++ names))
    (missing : tree.get? start = none) :
    tree.obstacle? start names = none ∨ tree.obstacle? start names = some .nameTooLong := by
  refine obstacle?_of_free fun n file => ?_
  by_cases here : names.take n = []
  · rw [here, List.append_nil] at file
    obtain ⟨content, there⟩ := file
    rw [missing] at there
    contradiction
  · have inside := (List.prefix_append_right_inj start).mpr (List.take_prefix n names)
    rw [rooted start (names.take n) inside here file] at missing
    contradiction

theorem obstacle?_of_notFound (plain : ".." ∉ names) (rooted : tree.IsRootedTo (start ++ names))
    (missing : tree.walk start names = .error .notFound) :
    tree.obstacle? start names = none ∨ tree.obstacle? start names = some .nameTooLong := by
  induction names generalizing start with
  | nil => contradiction
  | cons name rest ih =>
    have inner : tree.IsRootedTo (start ++ [name] ++ rest) := by simpa using rooted
    simp only [List.mem_cons, not_or] at plain
    simp only [walk] at missing
    split at missing
    · rename_i none
      exact obstacle?_of_missing rooted none
    · contradiction
    · rename_i directory
      rw [if_neg (Ne.symm plain.1)] at missing
      rw [obstacle?_of_not_file (by simp [IsFileAt, directory])]
      split at missing
      · contradiction
      · rename_i fits
        rw [if_neg fits]
        exact ih plain.2 inner missing

theorem longName_lt {p : Path} (long : tree.obstacle? start p.parts = some .nameTooLong) :
    p.longName < p.parts.length := by
  obtain ⟨name, member, long⟩ := names_of_obstacle?.1 long
  exact List.findIdx_lt_length_of_exists ⟨name, member, by simpa using long⟩

/-- What the making of directories comes to. -/
inductive Makes (tree : FileTree) (p : Path) : Except AccessError Unit → Prop
  | done : hasNul p = false → p.IsShort → tree.obstacle? p.origin p.parts = none →
      Makes tree p (.ok ())
  | embeddedNul : hasNul p = true → Makes tree p (.error .embeddedNul)
  | pathTooLong : hasNul p = false → ¬ p.IsShort → Makes tree p (.error (fail .nameTooLong p))
  /-- There is a file in the way, and the fault names the whole path. -/
  | blocked {cause : FileCause} : hasNul p = false → p.IsShort →
      tree.obstacle? p.origin p.parts = some cause → cause ≠ .nameTooLong →
      Makes tree p (.error (fail cause p))
  /-- Too long a name, and the directory above it is there: the fault names the whole path. -/
  | nameTooLong : hasNul p = false → p.IsShort →
      tree.obstacle? p.origin p.parts = some .nameTooLong →
      tree.walk p.origin p.parts = .error .nameTooLong →
      Makes tree p (.error (fail .nameTooLong p))
  /-- Too long a name, and a directory above it is missing: the fault names the one with the name. -/
  | missing : hasNul p = false → p.IsShort →
      tree.obstacle? p.origin p.parts = some .nameTooLong →
      tree.walk p.origin p.parts = .error .notFound →
      Makes tree p (.error (fail .nameTooLong (p.ancestor (p.longName + 1))))

theorem hasNul_parent {p : Path} (nul : hasNul p = false) : hasNul p.parent = false := by
  unfold hasNul Path.parent at *
  rw [List.any_eq_false] at nul ⊢
  exact fun name member => nul name ((List.dropLast_sublist _).subset member)

theorem walk_append (tree : FileTree) (start : Location) (names names' : List String) :
    tree.walk start (names ++ names') =
      match tree.walk start names with
      | .ok l => tree.walk l names'
      | .error cause => .error cause := by
  induction names generalizing start with
  | nil => rfl
  | cons name rest ih =>
    simp only [List.cons_append, walk]
    split
    · rfl
    · rfl
    · split
      · exact ih _
      · split
        · rfl
        · exact ih _

variable {p : Path}

theorem resolve_of_short (short : p.IsShort) : tree.resolve p = tree.walk p.origin p.parts := by
  rw [resolve, if_neg (Nat.not_le.mpr short)]
  rfl

/-- The way to a path whose parent is a directory. -/
theorem resolve_of_isDirectory (short : p.IsShort) (plain : p.IsPlain) {name : String}
    (parts : p.parts = p.parent.parts ++ [name]) (housed : tree.isDirectory p.parent = .ok true) :
    tree.resolve p =
      if 255 < (Bytes.ofText name).length then .error .nameTooLong else .ok p.location := by
  obtain ⟨_, way, directory⟩ := isDirectory_iff.mp housed
  have last : name ≠ ".." := by
    rintro rfl
    exact plain (by simp [parts])
  have above : p.parent.location = p.origin ++ p.parent.parts := Path.location_of_plain plain.parent
  have there : p.location = p.parent.location ++ [name] := by
    rw [Path.location_of_plain plain, parts, above, List.append_assoc]
  rw [resolve_of_short short.parent] at way
  rw [resolve_of_short short, parts, walk_append]
  rw [show p.parent.origin = p.origin from rfl] at way
  simp only [way, walk, directory, if_neg last, there]

theorem isDirectory_of_blocked {cause : FileCause} (blocked : tree.resolve p = .error cause) :
    tree.isDirectory p ≠ .ok true := by
  intro housed
  obtain ⟨_, way, _⟩ := isDirectory_iff.mp housed
  rw [way] at blocked
  contradiction

theorem tolerate_of_not_isDirectory (cause : FileCause) (s : FileTree)
    (other : tree.isDirectory p ≠ .ok true) :
    (makeDirectories.tolerate p cause tree).run.run s = (.error (fail cause p), s) := by
  unfold makeDirectories.tolerate
  split
  · rfl
  · split
    · contradiction
    · rfl

theorem makeDirectory_of_blocked {cause : FileCause} (blocked : tree.resolve p = .error cause) :
    tree.makeDirectory p = .error cause := by
  simp [makeDirectory, blocked, bind, Except.bind]

/-- Making one directory, given the way to it, with what is done if it is there. -/
theorem makeDirectory_of_way (nul : hasNul p = false) (way : tree.resolve p = .ok p.location) :
    (∃ made, tree.makeDirectory p = .ok made ∧ tree.obstacle? p.location [] = none) ∨
    tree.makeDirectory p = .error .exists ∧
      ((makeDirectories.tolerate p .exists tree).run.run tree = (.ok (), tree) ∧
          tree.obstacle? p.location [] = none ∨
        (makeDirectories.tolerate p .exists tree).run.run tree = (.error (fail .exists p), tree) ∧
          tree.obstacle? p.location [] = some .exists) := by
  have reached : tree.makeDirectory p = if (tree.get? p.location).isSome then .error .exists
      else .ok (tree.insert p.location .directory) := by
    simp [makeDirectory, way, bind, Except.bind]
  rw [reached]
  rcases there : tree.get? p.location with _ | content | _
  · exact .inl ⟨_, rfl, by simp [obstacle?, there]⟩
  · refine .inr ⟨rfl, .inr ⟨tolerate_of_not_isDirectory _ tree ?_, by simp [obstacle?, there]⟩⟩
    simp [isDirectory_iff, there]
  · refine .inr ⟨rfl, .inl ⟨?_, by simp [obstacle?, there]⟩⟩
    have housed : tree.isDirectory p = .ok true := isDirectory_iff.mpr ⟨nul, way, there⟩
    simp only [makeDirectories.tolerate, reduceCtorEq, if_false, housed]
    rfl

theorem Grows.isFileAt {made : FileTree} (grows : Grows p tree made) (l : Location) :
    made.IsFileAt l ↔ tree.IsFileAt l := by
  unfold IsFileAt
  rcases grows l with same | ⟨absent, directory, _⟩
  · rw [same]
  · simp [absent, directory]

/-- A fault of the parents is one of the path if a directory is missing above it. -/
theorem Makes.of_parent {e : AccessError} {name : String} (nul : hasNul p = false)
    (short : p.IsShort) (parts : p.parts = p.parent.parts ++ [name])
    (missing : tree.walk p.origin p.parts = .error .notFound)
    (free : tree.obstacle? p.origin p.parts = none ∨
      tree.obstacle? p.origin p.parts = some .nameTooLong)
    (failed : Makes tree p.parent (.error e)) : Makes tree p (.error e) := by
  have further := tree.obstacle?_concat p.origin p.parent.parts name
  rw [← parts] at further
  cases failed with
  | embeddedNul nul' =>
    rw [hasNul_parent nul] at nul'
    contradiction
  | pathTooLong _ long => exact absurd short.parent long
  | @blocked cause _ _ there other =>
    rw [show p.parent.origin = p.origin from rfl] at there
    rw [there] at further
    cases cause <;> simp_all
  | nameTooLong _ _ _ walked =>
    rw [show p.parent.origin = p.origin from rfl] at walked
    simp [parts, walk_append, walked] at missing
  | missing _ _ there _ =>
    rw [show p.parent.origin = p.origin from rfl] at there
    rw [there] at further
    have inside := longName_lt there
    have same := (Path.longName_of_parent parts).1 inside
    have fewer : min (p.parent.longName + 1) (p.parts.length - 1) = p.longName + 1 := by
      rw [same, parts, List.length_append, List.length_singleton]
      omega
    rw [p.parent_ancestor, fewer]
    exact .missing nul short further missing

/-- The last directory, once there is a way to it. -/
theorem Makes.of_way {made : FileTree} (nul : hasNul p = false) (short : p.IsShort)
    (way : made.resolve p = .ok p.location)
    (last : tree.obstacle? p.origin p.parts = made.obstacle? p.location []) :
    Makes tree p (match made.makeDirectory p with
      | .ok made => ((.ok () : Except AccessError Unit), made)
      | .error cause => (makeDirectories.tolerate p cause made).run.run made).1 := by
  rcases makeDirectory_of_way nul way with ⟨_, fresh, free⟩ | ⟨taken, ⟨ran, free⟩ | ⟨ran, file⟩⟩
  · rw [fresh]
    exact .done nul short (last.trans free)
  · rw [taken]
    simp only [ran]
    exact .done nul short (last.trans free)
  · rw [taken]
    simp only [ran]
    exact .blocked nul short (last.trans file) (by simp)

/-- The last directory, once its parent is there. -/
theorem Makes.of_housed {made : FileTree} {name : String} (nul : hasNul p = false)
    (short : p.IsShort) (plain : p.IsPlain) (parts : p.parts = p.parent.parts ++ [name])
    (missing : tree.walk p.origin p.parts = .error .notFound)
    (grows : Grows p.parent tree made) (housed : made.isDirectory p.parent = .ok true)
    (free : tree.obstacle? p.origin p.parent.parts = none) :
    Makes tree p (match made.makeDirectory p with
      | .ok made => ((.ok () : Except AccessError Unit), made)
      | .error cause => (makeDirectories.tolerate p cause made).run.run made).1 := by
  have further := tree.obstacle?_concat p.origin p.parent.parts name
  rw [← parts, free] at further
  have way := resolve_of_isDirectory short plain parts housed
  by_cases long : 255 < (Bytes.ofText name).length
  · rw [if_pos long] at way
    simp only [if_pos long] at further
    rw [makeDirectory_of_blocked way]
    simp only [tolerate_of_not_isDirectory _ made (isDirectory_of_blocked way)]
    have itself := Makes.missing nul short further missing
    rwa [(Path.longName_of_parent parts).2 (names_of_obstacle?.2 free) long,
      p.ancestor_self] at itself
  · rw [if_neg long] at way
    have there : p.location = p.origin ++ p.parent.parts ++ [name] := by
      rw [Path.location_of_plain plain, List.append_assoc, ← parts]
    have same : made.obstacle? p.location [] = tree.obstacle? p.location [] :=
      obstacle?_congr fun n => grows.isFileAt _
    simp only [if_neg long, ← there, ← same] at further
    exact .of_way nul short way further

/-- The making of directories comes to the first obstacle in the way, if there is one. -/
theorem makeDirectories_makes (p : Path) (tree : FileTree) (plain : p.IsPlain)
    (rooted : tree.IsRootedTo p.location) :
    Makes tree p ((makeDirectories p).run.run tree).1 := by
  rw [makeDirectories_run]
  split
  · rename_i nul
    exact .embeddedNul nul
  · rename_i nul
    have nul : hasNul p = false := by simpa using nul
    by_cases short : p.IsShort
    · rcases way : tree.resolve p with cause | l
      · rw [makeDirectory_of_blocked way]
        have stays := tolerate_of_not_isDirectory cause tree (isDirectory_of_blocked way)
        rw [resolve_of_short short] at way
        rcases obstacle?_of_walk_error plain way with rfl | ⟨rfl | rfl, there⟩
        · -- A directory is missing: the parents come first.
          have named : p.parts ≠ [] := by
            intro none
            rw [none] at way
            contradiction
          obtain ⟨name, parts⟩ := Path.parts_of_parent named
          have parents := makeDirectories_makes p.parent tree plain.parent
            (rooted.above (Path.parent_isPrefix plain))
          have grows := makeDirectories_grows p.parent tree
          simp only [if_neg named]
          rcases ran : (makeDirectories p.parent).run.run tree with ⟨e | _, made⟩
          · rw [ran] at parents
            rw [Path.location_of_plain plain] at rooted
            exact parents.of_parent nul short parts way (obstacle?_of_notFound plain rooted way)
          · rw [ran] at parents grows
            cases parents with
            | done _ _ free =>
              exact .of_housed nul short plain parts way grows
                (isDirectory_of_makeDirectories ran) free
        · simp only [stays]
          exact .blocked nul short there (by simp)
        · simp only [stays]
          exact .nameTooLong nul short there way
      · obtain rfl := resolve_location way
        have last := way
        rw [resolve_of_short short] at last
        have itself := Makes.of_way nul short way
          ((obstacle?_of_walk plain last).trans (by rw [← Path.location_of_plain plain]))
        rcases makeDirectory_of_way nul way with ⟨_, fresh, _⟩ | ⟨taken, _⟩
        · rw [fresh] at itself ⊢
          exact itself
        · rw [taken] at itself ⊢
          exact itself
    · have way : tree.resolve p = .error .nameTooLong := if_pos (Nat.not_lt.mp short)
      rw [makeDirectory_of_blocked way]
      simp only [tolerate_of_not_isDirectory _ tree (isDirectory_of_blocked way)]
      exact .pathTooLong nul short
termination_by p.parts.length
decreasing_by
  simp only [Path.parent, List.length_dropLast]
  have := List.length_pos_iff.mpr named
  omega

/-- Too long a name stops the making of directories. -/
theorem Makes.of_tooLong {result : Except AccessError Unit} (makes : Makes tree p result)
    (nul : hasNul p = false) (short : p.IsShort)
    (there : tree.obstacle? p.origin p.parts = some .nameTooLong) :
    (tree.walk p.origin p.parts = .error .nameTooLong ∧
        result = .error (fail .nameTooLong p)) ∨
      tree.walk p.origin p.parts = .error .notFound ∧
        result = .error (fail .nameTooLong (p.ancestor (p.longName + 1))) := by
  cases makes with
  | done _ _ free => simp [there] at free
  | embeddedNul nul' => simp [nul] at nul'
  | pathTooLong _ long => exact absurd short long
  | blocked _ _ other different => simp_all
  | nameTooLong _ _ _ walked => exact .inl ⟨walked, rfl⟩
  | missing _ _ _ walked => exact .inr ⟨walked, rfl⟩

theorem tolerate_embeddedNul (p : Path) (cause : FileCause) (tree s : FileTree) :
    ((makeDirectories.tolerate p cause tree).run.run s).1 ≠ .error .embeddedNul := by
  unfold makeDirectories.tolerate
  split
  · exact nofun
  · split <;> exact nofun

/-- Only a NUL is not reported as a fault of the system. -/
theorem makeDirectories_embeddedNul (p : Path) (tree : FileTree) :
    ((makeDirectories p).run.run tree).1 = .error .embeddedNul ↔ hasNul p = true := by
  rw [makeDirectories_run]
  split
  · rename_i nul
    exact iff_of_true rfl nul
  · rename_i nul
    refine iff_of_false ?_ nul
    rcases tree.makeDirectory p with cause | made
    · cases cause with
      | notFound =>
        simp only
        split
        · rintro ⟨⟩
        · have parents := makeDirectories_embeddedNul p.parent tree
          have none := hasNul_parent (by simpa using nul)
          rcases ran : (makeDirectories p.parent).run.run tree with ⟨e | _, made⟩
          · simpa [ran, none] using parents
          · simp only
            rcases made.makeDirectory p with cause | _
            · exact tolerate_embeddedNul p cause made made
            · simp
      | _ => exact tolerate_embeddedNul p _ tree tree
    · simp
termination_by p.parts.length
decreasing_by
  simp only [Path.parent, List.length_dropLast]
  have := List.length_pos_iff.mpr ‹p.parts ≠ []›
  omega

end FileTree
end Launcher
