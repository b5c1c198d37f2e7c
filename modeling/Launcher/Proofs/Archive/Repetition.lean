import Launcher.Archive.Natives
import Launcher.Proofs.Archive.Rereading

/-! Extracting archives again. What they hold is extracted as before as long as no archive is
written over, which is so if no file that is extracted has the place of one. -/
namespace Launcher.Natives
open Archive

theorem extractMembers_single (directory : Path) (m : Member) :
    extractMembers directory [m] =
      if m.name = [] then throw (.crashed .nameless)
      else if m.isDirectory || m.baseName = [] then pure []
      else do
        let content ← openMember m
        let location ← create (directory / String.ofList m.baseName)
        copyContent location (m.size + 1) content []
        return [String.ofList m.baseName] := by
  simp only [extractMembers]
  split
  · rfl
  · split
    · rfl
    · simp

theorem extractMembers_cons (directory : Path) (m : Member) (rest : List Member) :
    extractMembers directory (m :: rest) = (do
      let names ← extractMembers directory [m]
      return names ++ (← extractMembers directory rest)) := by
  rw [extractMembers_single, extractMembers]
  split
  · rfl
  · split
    · simp
    · simp

/-- Extracting members makes a file with a name: it comes to a member with this base name, opens it,
and can make the file. -/
inductive ExtractsFrom (directory : Path) (name : String) : List Member → Archive.Reading → Prop
  | here {m : Member} {rest : List Member} {r r' : Archive.Reading} {l : Location} :
      m.baseName ≠ [] → name = String.ofList m.baseName →
      (openMember m >>= fun _ => create (directory / name)).run.run r = (.ok l, r') →
      ExtractsFrom directory name (m :: rest) r
  | later {m : Member} {rest : List Member} {r r' : Archive.Reading} {names : List String} :
      (extractMembers directory [m]).run.run r = (.ok names, r') →
      ExtractsFrom directory name rest r' → ExtractsFrom directory name (m :: rest) r

/-- Extracting archives in turn makes a file with a name. -/
inductive ExtractsEach (directory : Path) (name : String) : List Path → FileTree → Prop
  | here {archive : Path} {rest : List Path} {tree : FileTree} {location : Location}
      {content : Bytes} {members : List Member} {r : Archive.Reading} :
      tree.openFile archive = .ok (location, content) →
      Archive.members.run.run ⟨location, .start, tree⟩ = (.ok members, r) →
      ExtractsFrom directory name members r → ExtractsEach directory name (archive :: rest) tree
  | later {archive : Path} {rest : List Path} {tree : FileTree} :
      ExtractsEach directory name rest (extract tree archive directory).2 →
      ExtractsEach directory name (archive :: rest) tree

/-- Extracting archives into a directory, which is made first, makes a file with a name there. -/
def Extracts (tree : FileTree) (archives : List Path) (directory : Path) (name : String) : Prop :=
  ∃ made, (FileTree.makeDirectories directory).run.run tree = (.ok (), made) ∧
    ExtractsEach directory name archives made

theorem ExtractsFrom.of_single {directory : Path} {name : String} {m : Member} {r : Archive.Reading}
    (extracts : ExtractsFrom directory name [m] r) (rest : List Member) :
    ExtractsFrom directory name (m :: rest) r := by
  cases extracts with
  | here named same ran => exact .here named same ran
  | later _ none => cases none

/-- What is extracted is called by the base name of a member. -/
theorem ExtractsFrom.named {directory : Path} {name : String} {members : List Member}
    {r : Archive.Reading} (extracts : ExtractsFrom directory name members r) :
    ∃ m ∈ members, name = String.ofList m.baseName := by
  induction extracts with
  | @here m _ _ _ _ _ same _ => exact ⟨m, List.mem_cons_self, same⟩
  | later _ _ ih =>
    obtain ⟨m, member, same⟩ := ih
    exact ⟨m, List.mem_cons_of_mem _ member, same⟩

theorem ExtractsEach.slashless {directory : Path} {name : String} {archives : List Path}
    {tree : FileTree} (extracts : ExtractsEach directory name archives tree) :
    '/' ∉ name.toList := by
  induction extracts with
  | here _ _ extracts =>
    obtain ⟨m, _, rfl⟩ := extracts.named
    exact m.baseName_slashless
  | later _ ih => exact ih

/-- The base names of the members of an archive, if they can be read. -/
def baseNames (tree : FileTree) (archive : Path) : List String :=
  match tree.openFile archive with
  | .error _ => []
  | .ok (location, _) => match (Archive.members.run.run ⟨location, .start, tree⟩).1 with
    | .ok members => members.map fun m => String.ofList m.baseName
    | .error _ => []

theorem Extracts.mem_baseNames {directory archive : Path} {name : String} {tree : FileTree}
    (extracts : Extracts tree [archive] directory name) :
    name ∈ baseNames ((FileTree.makeDirectories directory).run.run tree).2 archive := by
  obtain ⟨made, parents, each⟩ := extracts
  rw [parents]
  cases each with
  | here opened ran extracts =>
    obtain ⟨m, member, same⟩ := extracts.named
    simp only [baseNames, opened, ran]
    exact List.mem_map.mpr ⟨m, member, same.symm⟩
  | later none => cases none

theorem ExtractsEach.of_single {directory archive : Path} {name : String} {tree : FileTree}
    (extracts : ExtractsEach directory name [archive] tree) (rest : List Path) :
    ExtractsEach directory name (archive :: rest) tree := by
  cases extracts with
  | here opened ran inside => exact .here opened ran inside
  | later none => cases none

variable {kept : Location → Prop} {later : FileTree} {directory : Path}

theorem extractMember_rereads {m : Member} {r : Archive.Reading}
    (housed : r.tree.isDirectory directory = .ok true)
    (apart : ∀ name, ExtractsFrom directory name [m] r → ¬ kept (directory / name).location) :
    Rereads kept later (extractMembers directory [m]) r := by
  rw [extractMembers_single]
  refine .ite (fun _ => .throw _) fun _ => .ite (fun _ => .pure _) fun taken => ?_
  have named : m.baseName ≠ [] := by
    intro none
    simp [none] at taken
  refine .bind (openMember_rereads m) fun content r₁ opened => ?_
  have stays : Keeps (fun tree => tree.isDirectory directory = .ok true) (openMember m) :=
    openMember_keeps m
  have free (l : Location) (r' : Archive.Reading)
      (made : (create (directory / String.ofList m.baseName)).run.run r₁ = (.ok l, r')) :
      ¬ kept l ∧ r'.tree.IsFileAt l := by
    have reached := apart _ (.here named rfl (by rw [run_bind, opened]; exact made))
    rw [create_eq] at made
    rcases aimed : r₁.tree.target (directory / String.ofList m.baseName) with e | l'
    · rw [aimed] at made
      cases made
    · rw [aimed] at made
      cases made
      obtain ⟨_, _, rfl, other⟩ := FileTree.target_ok aimed
      exact ⟨reached, FileTree.isFileAt_insert other _⟩
  refine .bind (create_rereads m.baseName_slashless (stays.gives r housed _ _ opened)
    fun l r' made => (free l r' made).1) fun l r₂ made => ?_
  obtain ⟨free, file⟩ := free l r₂ made
  exact .bind (copyContent_rereads free _ _ _ file) fun _ _ _ => .pure _

theorem extractMembers_rereads {members : List Member} {r : Archive.Reading}
    (housed : r.tree.isDirectory directory = .ok true)
    (apart : ∀ name, ExtractsFrom directory name members r → ¬ kept (directory / name).location) :
    Rereads kept later (extractMembers directory members) r := by
  induction members generalizing r with
  | nil => exact .pure _
  | cons m rest ih =>
    rw [extractMembers_cons]
    refine .bind (extractMember_rereads housed fun name extracts =>
      apart name (extracts.of_single rest)) fun names r₁ ran => ?_
    have advances : Keeps (r.tree.Advances fun _ => True) (extractMembers directory [m]) :=
      extractMembers_keeps (fun _ _ => .advances trivial _) _
    have still := advances.gives r (.refl _ _) _ _ ran
    refine .bind (ih ?_ fun name extracts => apart name (.later ran extracts)) fun _ _ _ => .pure _
    exact FileTree.isDirectory_mono still.directories housed

/-- A change of the file tree ends in the same way when it is made again, in a tree that has what
the first change came to. -/
def Remakes {α : Type} (kept : Location → Prop) (later : FileTree)
    (change : FileTree → α × FileTree) (a : FileTree) : Prop :=
  (change a).2.Retains kept later → a.Retains kept later ∧ ∀ t, later.Retains kept t →
    ∃ t', change t = ((change a).1, t') ∧ later.Retains kept t'

namespace Remakes
variable {α β : Type} {a : FileTree} {change : FileTree → α × FileTree}

theorem none (value : α) : Remakes kept later (fun t => (value, t)) a :=
  fun before => ⟨before, fun t follows => ⟨t, rfl, follows⟩⟩

theorem map (f : α → β) (remakes : Remakes kept later change a) :
    Remakes kept later (fun t => (f (change t).1, (change t).2)) a := by
  intro before
  obtain ⟨began, again⟩ := remakes before
  refine ⟨began, ?_⟩
  intro t follows
  obtain ⟨t', ran, follows'⟩ := again t follows
  exact ⟨t', by simp only [ran], follows'⟩

theorem andThen {next : α → FileTree → β × FileTree} (first : Remakes kept later change a)
    (second : Remakes kept later (next (change a).1) (change a).2) :
    Remakes kept later (fun t => next (change t).1 (change t).2) a := by
  intro before
  obtain ⟨middle, onward⟩ := second before
  obtain ⟨began, again⟩ := first middle
  refine ⟨began, ?_⟩
  intro t follows
  obtain ⟨t₁, ran, follows₁⟩ := again t follows
  obtain ⟨t', ran', follows'⟩ := onward t₁ follows₁
  exact ⟨t', by simp only [ran, ran'], follows'⟩

end Remakes

variable {a : FileTree}

theorem extract_of_read {archive : Path} {content : Bytes} (read : a.read archive = .ok content) :
    let ended := (Archive.members >>= extractMembers directory).run.run
      ⟨archive.location, .start, a⟩
    extract a archive directory = (ended.1, ended.2.tree) := by
  rcases ran : (Archive.members >>= extractMembers directory).run.run
    ⟨archive.location, .start, a⟩ with ⟨result, r⟩
  simp only [extract, FileTree.openFile_of_read read, ran]

theorem extract_again {archive : Path} (housed : a.isDirectory directory = .ok true)
    (present : a.HasFile archive) (member : kept archive.location)
    (apart : ∀ name, ExtractsEach directory name [archive] a →
      ¬ kept (directory / name).location) :
    Remakes kept later (fun t => extract t archive directory) a := by
  intro before
  obtain ⟨content, read⟩ := present.read
  have opened := FileTree.openFile_of_read read
  have extracted : Rereads kept later (Archive.members >>= extractMembers directory)
      ⟨archive.location, .start, a⟩ := by
    refine .bind members_rereads fun members r ran => ?_
    have stays : Keeps (fun tree => tree.isDirectory directory = .ok true) Archive.members :=
      members_keeps
    exact extractMembers_rereads (stays.gives ⟨archive.location, .start, a⟩ housed _ _ ran)
      fun name extracts => apart name (.here opened ran extracts)
  simp only [extract_of_read read] at before ⊢
  obtain ⟨began, again⟩ := extracted (fun _ _ => trivial) before
  refine ⟨began, ?_⟩
  intro t follows
  have still : t.read archive = .ok content := follows.read member (began.read member read)
  obtain ⟨r', ran, follows'⟩ := again ⟨archive.location, .start, t⟩
    ⟨rfl, rfl, ⟨member, (FileTree.hasFile_iff.mp present).2.2⟩, follows⟩
  refine ⟨r'.tree, ?_, follows'.tree⟩
  simp only [extract_of_read still, ran]

/-- What becomes of the archives after one with this result. -/
def extractRest (directory : Path) (archive : Path) (rest : List Path)
    (result : Except ArchiveError (List String)) (tree : FileTree) :
    Except Crash (List ExtractionError) × FileTree :=
  match result with
  | .error (.crashed crash) => (.error crash, tree)
  | .error (.failed origin) =>
    ((extractEach directory rest tree).1.map (⟨archive, origin⟩ :: ·),
      (extractEach directory rest tree).2)
  | .ok _ => extractEach directory rest tree

theorem extractEach_cons (directory archive : Path) (rest : List Path) (tree : FileTree) :
    extractEach directory (archive :: rest) tree = extractRest directory archive rest
      (extract tree archive directory).1 (extract tree archive directory).2 := by
  rw [extractEach]
  rcases extract tree archive directory with ⟨(failure | crash) | names, tree⟩ <;> rfl

/-- Archives that are not written over are extracted again with the same result. -/
theorem extractEach_again {archives : List Path} (housed : a.isDirectory directory = .ok true)
    (present : ∀ archive ∈ archives, a.HasFile archive ∧ kept archive.location)
    (apart : ∀ name, ExtractsEach directory name archives a →
      ¬ kept (directory / name).location) :
    Remakes kept later (extractEach directory archives) a := by
  induction archives generalizing a with
  | nil => exact .none _
  | cons archive rest ih =>
    obtain ⟨there, member⟩ := present archive List.mem_cons_self
    have advances : a.Advances (fun _ => True) (extract a archive directory).2 :=
      extract_keeps (fun _ _ => .advances trivial _) archive (.refl _ _)
    have others : Remakes kept later (extractEach directory rest)
        (extract a archive directory).2 := by
      apply ih
      · exact FileTree.isDirectory_mono advances.directories housed
      · intro other listed
        exact (present other (List.mem_cons_of_mem _ listed)).imp_left advances.hasFile
      · intro name extracts
        exact apart name (.later extracts)
    have same : extractEach directory (archive :: rest) = fun tree =>
        extractRest directory archive rest (extract tree archive directory).1
          (extract tree archive directory).2 := funext (extractEach_cons directory archive rest)
    rw [same]
    apply Remakes.andThen
    · exact extract_again housed there member fun name extracts =>
        apart name (extracts.of_single rest)
    · rcases (extract a archive directory).1 with (failure | crash) | names
      · exact others.map _
      · exact .none _
      · exact others

/-- An extraction that came to its end comes to it again. -/
theorem install_again {archives : List Path} {errors : List ExtractionError} {left : FileTree}
    (present : ∀ archive ∈ archives, a.HasFile archive ∧ kept archive.location)
    (apart : ∀ name, Extracts a archives directory name → ¬ kept (directory / name).location)
    (ended : install a archives directory = (.ok errors, left))
    (before : left.Retains kept later) :
    a.Retains kept later ∧ ∀ t, later.Retains kept t →
      ∃ t', install t archives directory = (.ok errors, t') ∧ later.Retains kept t' := by
  unfold install at ended
  rcases made : (FileTree.makeDirectories directory).run.run a with ⟨e | _, tree⟩
  · rw [made] at ended
    cases ended
  · rw [made] at ended
    have housed := FileTree.isDirectory_of_makeDirectories made
    have grown : a.Retains kept tree := .ofMakeDirectories kept made
    have each : Remakes kept later (extractEach directory archives) tree := by
      apply extractEach_again housed
      · intro archive listed
        exact (present archive listed).imp_left grown.hasFile
      · intro name extracts
        exact apart name ⟨tree, made, extracts⟩
    rcases ran : extractEach directory archives tree with ⟨crash | errors', left'⟩
    · simp only [ran] at ended
      cases ended
    · simp only [ran] at ended
      cases ended
      rw [Remakes, ran] at each
      obtain ⟨began, again⟩ := each before
      refine ⟨grown.trans began, ?_⟩
      intro t follows
      obtain ⟨t', ran', follows'⟩ := again t follows
      have there := follows.isDirectory (began.isDirectory housed)
      refine ⟨t', ?_, follows'⟩
      rw [install, FileTree.makeDirectories_of_isDirectory there]
      simp only [ran']
      rfl

end Launcher.Natives
