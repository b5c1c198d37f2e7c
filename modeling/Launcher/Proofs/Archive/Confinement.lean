import Launcher.Proofs.Archive.Turns
import Launcher.Proofs.Files.Content

/-! Where the files of archives come to. Whatever names archives list, their files come directly
into the directory of the extraction, and of those with one name the last one stays. -/
namespace Launcher.Natives
open Archive FileTree

variable {directory : Path} {archives : List Path} {tree : FileTree}

/-- The turns of archives in the extraction; there are none if the directory cannot be made. -/
def installTurns (tree : FileTree) (archives : List Path) (directory : Path) : List Turn :=
  match (makeDirectories directory).run.run tree with
  | (.error _, _) => []
  | (.ok (), made) => turns directory archives made

/-- Extraction makes directories above its own, and then puts files under names that archives
list. -/
theorem install_fills (archives : List Path) (directory : Path) (rooted : tree.IsRooted)
    (working : tree.get? workingDirectory = some .directory) :
    ∃ made, Grows directory tree made ∧
      Fills directory (fun name => ∃ turn ∈ installTurns tree archives directory, name ∈ turn.names)
        made (install tree archives directory).2 := by
  have grows := makeDirectories_grows directory tree
  have rooted := rooted.makeDirectories working directory
  unfold install installTurns
  rcases ran : (makeDirectories directory).run.run tree with ⟨e | _, made⟩
  · rw [ran] at grows
    exact ⟨made, grows, .refl _ _ _⟩
  · rw [ran] at grows rooted
    have housed := isDirectory_of_makeDirectories ran
    exact ⟨made, grows, (turns_fill rooted housed (.refl _ _ _) fun turn member name listed =>
      ⟨turn, member, listed⟩).2⟩

/-- A name under which a file can be stored directly in a directory. -/
structure Storable (tree : FileTree) (directory : Path) (name : String) : Prop where
  here : name ≠ "."
  up : name ≠ ".."
  free : tree.get? (directory.location ++ [name]) ≠ some .directory
  fits : (Bytes.ofText name).length ≤ 255
  short : (directory / name).IsShort

theorem Storable.target (housed : tree.isDirectory directory = .ok true) {m : Member}
    (based : m.baseName ≠ []) (storable : Storable tree directory (String.ofList m.baseName)) :
    tree.target (directory / String.ofList m.baseName) =
      .ok (directory.location ++ [String.ofList m.baseName]) :=
  target_of_child housed m.baseName_slashless m.baseName_whole
    (by simpa [← String.toList_inj] using based) storable.here storable.up storable.fits
    storable.short storable.free

/-- Archives that can all be read are all extracted, one file after the other. -/
theorem extractEach_whole {t : FileTree} {contents : List (List PackedFile)}
    (rooted : tree.IsRooted) (housed : tree.isDirectory directory = .ok true)
    (fills : Fills directory (fun _ => True) tree t)
    (outside : ∀ archive ∈ archives, ∀ name, archive.location ≠ directory.location ++ [name])
    (readable : archives.Forall₂ (fun archive fs => files tree archive = .ok fs) contents)
    (storable : ∀ f ∈ contents.flatten, Storable tree directory f.name) :
    extractEach directory archives t =
      (.ok [], t.putAll (contents.flatten.map (placed directory))) := by
  induction readable generalizing t with
  | nil => rfl
  | @cons archive fs rest others first _ ih =>
    simp only [List.flatten_cons, List.mem_append] at storable
    rw [List.forall_mem_cons] at outside
    have free : ∀ f ∈ fs, ∃ place, tree.target (directory / f.name) = .ok place := by
      intro f member
      obtain ⟨m, based, called⟩ := files_named first f member
      have fits := storable f (.inl member)
      rw [called] at fits ⊢
      exact ⟨_, fits.target housed based⟩
    have extracted := extract_whole rooted housed fills outside.1 first free
    have fills' : Fills directory (fun _ => True) tree (extract t archive directory).2 :=
      Turn.left_fills ⟨archive, t⟩ rooted housed fills fun _ _ => trivial
    rw [extracted] at fills'
    rw [extractEach_cons, extracted]
    simp only [extractRest, List.flatten_cons, List.map_append, putAll_append]
    exact ih fills' outside.2 fun f member => storable f (.inr member)

/-- Extraction changes nothing but that it makes directories above its own and puts files directly
into it, under names that an archive lists when its turn comes. If all archives can be read, lie
beside the directory and have names that can be stored there, then all is extracted, each name has
the content that comes last, and the other files keep theirs. -/
theorem install_flattens (rooted : tree.IsRooted)
    (working : tree.get? workingDirectory = some .directory) :
    (∀ l, (install tree archives directory).2.get? l = tree.get? l ∨
      (tree.get? l = none ∧ (install tree archives directory).2.get? l = some .directory ∧
        ∃ n, l = (directory.ancestor n).location) ∨
      (tree.get? l ≠ some .directory ∧ (install tree archives directory).2.IsFileAt l ∧
        ∃ turn ∈ installTurns tree archives directory, ∃ name ∈ turn.names,
          l = directory.location ++ [name])) ∧
    ∀ made contents, (makeDirectories directory).run.run tree = (.ok (), made) →
      (∀ archive ∈ archives, ∀ name, archive.location ≠ directory.location ++ [name]) →
      archives.Forall₂ (fun archive fs => files made archive = .ok fs) contents →
      (∀ f ∈ contents.flatten, Storable made directory f.name) →
      (install tree archives directory).1 = .ok [] ∧
        ∀ name, (install tree archives directory).2.content? (directory.location ++ [name]) =
          (lastNamed? contents.flatten name).or
            (tree.content? (directory.location ++ [name])) := by
  constructor
  · obtain ⟨made, grows, fills⟩ := install_fills archives directory rooted working
    intro l
    rcases fills l with same | ⟨other, file, name, ⟨turn, member, listed⟩, place⟩
    · rw [same]
      rcases grows l with same' | ⟨absent, there, above⟩
      · exact .inl same'
      · exact .inr (.inl ⟨absent, there, above⟩)
    · exact .inr (.inr ⟨fun there => other (grows.keepsDirectories l there), file, turn, member,
        name, listed, place⟩)
  · intro made contents ran outside readable storable
    have grows := makeDirectories_grows directory tree
    have rooted := rooted.makeDirectories working directory
    rw [ran] at grows rooted
    have housed := isDirectory_of_makeDirectories ran
    have whole := extractEach_whole rooted housed (.refl _ _ _) outside readable storable
    have ended : install tree archives directory =
        (.ok [], made.putAll (contents.flatten.map (placed directory))) := by
      simp only [install, ran, whole]
      rfl
    refine ⟨by rw [ended], fun name => ?_⟩
    rw [ended, ← grows.content?, content?, get?_putAll (placed_below _ _), lastPut?_placed]
    rcases lastNamed? contents.flatten name with _ | content <;> rfl

section Samples

/-- Two archives, each with one file of the same name. -/
def sameNamed : FileTree :=
  inWorkingDirectory [("a.zip", stored 0 [([47, 110], [1])]), ("b.zip", stored 0 [([110], [2])])]

/-- Of two files with one name the last one stays. -/
theorem sameNamed_extracted :
    let archives := [Path.ofText "a.zip", Path.ofText "b.zip"]
    let outcome := install sameNamed archives (Path.ofText "natives")
    outcome.1 = .ok [] ∧ outcome.2.content? (workingDirectory ++ ["natives", "n"]) = some [2] := by
  intro archives outcome
  have housed : (((makeDirectories (Path.ofText "natives")).run.run sameNamed).1).toBool := by
    decide +kernel
  have made : (makeDirectories (Path.ofText "natives")).run.run sameNamed =
      (.ok (), ((makeDirectories (Path.ofText "natives")).run.run sameNamed).2) := by
    obtain ⟨_, ended⟩ := exists_ok_of_toBool housed
    exact Prod.ext ended rfl
  have beside : ∀ archive ∈ archives,
      archive.location.length ≤ (Path.ofText "natives").location.length := by decide
  obtain ⟨ended, held⟩ := (@install_flattens (Path.ofText "natives") archives sameNamed
    (isRooted_of_entries (by decide +kernel)) (by decide +kernel)).2 _ [[⟨"n", [1]⟩], [⟨"n", [2]⟩]] made
    (fun archive member => ne_child (beside archive member))
    (.cons (by decide +kernel) (.cons (by decide +kernel) .nil))
    (by
      intro f member
      have called : f.name = "n" := by
        simp only [List.flatten_cons, List.flatten_nil, List.append_nil, List.cons_append,
          List.nil_append, List.mem_cons, List.not_mem_nil, or_false] at member
        rcases member with rfl | rfl <;> rfl
      rw [called]
      exact ⟨by decide, by decide, by decide +kernel, by decide, by unfold Path.IsShort; decide⟩)
  exact ⟨ended, (held "n").trans (by decide +kernel)⟩

/-- A name of more bytes than a file system takes. -/
def longName : String := String.ofList (List.replicate 256 'n')

/-- An empty directory, and beside it an archive with a file of that name. -/
def longNamed : FileTree :=
  (inWorkingDirectory [("a.zip", stored 0 [(List.replicate 256 110, [1])])]).insert
    (workingDirectory ++ ["natives"]) .directory

/-- A name can be too long to be stored, and then its archive is told though it can be read. -/
theorem longNamed_fails :
    longNamed.isDirectory (Path.ofText "natives") = .ok true ∧
      (∀ archive ∈ [Path.ofText "a.zip"], ∀ name,
        archive.location ≠ (Path.ofText "natives").location ++ [name]) ∧
      files longNamed (Path.ofText "a.zip") = .ok [⟨longName, [1]⟩] ∧
      longName ≠ "." ∧ longName ≠ ".." ∧
      longNamed.get? (workingDirectory ++ ["natives", longName]) = none ∧
      ∃ origin, (install longNamed [Path.ofText "a.zip"] (Path.ofText "natives")).1 =
        .ok [⟨Path.ofText "a.zip", origin⟩] := by
  have beside : ∀ archive ∈ [Path.ofText "a.zip"],
      archive.location.length ≤ (Path.ofText "natives").location.length := by decide
  have rooted : longNamed.IsRooted := isRooted_of_entries (by decide +kernel)
  have housed : longNamed.isDirectory (Path.ofText "natives") = .ok true := by decide +kernel
  have readable : files longNamed (Path.ofText "a.zip") = .ok [⟨longName, [1]⟩] := by
    decide +kernel
  have letters : longName.toList = List.replicate 256 'n' := String.toList_ofList
  have long : 255 < (Bytes.ofText longName).length := by
    rw [Bytes.ofText, letters]
    decide +kernel
  have different (name : String) (short : name.toList.length < 256) : longName ≠ name := by
    rintro rfl
    rw [letters, List.length_replicate] at short
    exact Nat.lt_irrefl _ short
  obtain ⟨origin, failed⟩ := extract_fails rooted housed (.refl _ (fun _ => True) _)
    (ne_child (beside _ List.mem_cons_self)) readable List.mem_cons_self
    (target_of_long (by rw [letters]; decide +kernel) long)
  refine ⟨housed, fun archive member => ne_child (beside archive member), readable,
    different _ (by decide), different _ (by decide), by decide +kernel, origin, ?_⟩
  rw [install_of_housed _ housed, extractEach_cons, failed]
  rfl

end Samples
end Launcher.Natives
