import Launcher.Proofs.Archive.Unpacking
import Launcher.Proofs.Files.Content
import Launcher.Install.Plan

/-! Extracting archives a second time. Unless a file that is extracted comes to the place of an
archive, the second extraction ends as the first one did and changes nothing any more. -/
namespace Launcher.Natives
open Archive FileTree

section Real
variable {location : Location} {bytes : Bytes} {directory archive : Path} {tree : FileTree}
  {aim : String → Except AccessError Location} {members : List Member} {file file' : OpenFile}
  {result : Except ArchiveError (List String)} {writes : List (Location × Bytes)}

theorem extractsFrom_here (rest : List Member) {m : Member} {c : Content} {place : Location}
    (based : m.baseName ≠ []) (took : Takes location bytes (openMember m) file (.ok c) file')
    (lets : Lets directory tree aim) (there : tree.get? location = some (.file bytes))
    (goal : aim (String.ofList m.baseName) = .ok place) :
    place = (directory / String.ofList m.baseName).location ∧
      ExtractsFrom directory (String.ofList m.baseName) (m :: rest) ⟨location, file, tree⟩ := by
  have goal := (lets.aims _ m.baseName_slashless).trans goal
  have ran : (openMember m >>= fun _ => create (directory / String.ofList m.baseName)).run.run
      ⟨location, file, tree⟩ = (.ok place, ⟨location, file', tree.insert place (.file [])⟩) := by
    rw [run_bind, took tree there]
    exact create_run_of_target goal
  exact ⟨(target_ok goal).2.2.1, .here based rfl ran⟩

/-- Every file that is put is one that the extraction makes, as long as none of those comes to the
place of the archive. -/
theorem Unpacks.extracts (unpacks : Unpacks location bytes aim members file result writes file')
    (lets : Lets directory tree aim) (there : tree.get? location = some (.file bytes))
    (apart : ∀ name, ExtractsFrom directory name members ⟨location, file, tree⟩ →
      (directory / name).location ≠ location) :
    ∀ w ∈ writes, ∃ name, ExtractsFrom directory name members ⟨location, file, tree⟩ ∧
      w.1 = (directory / name).location := by
  induction unpacks generalizing tree with
  | nil => exact nofun
  | nameless => exact nofun
  | @passed m rest file _ _ _ named unbased _ ih =>
    have ran : (extractMembers directory [m]).run.run ⟨location, file, tree⟩ =
        (.ok [], ⟨location, file, tree⟩) := by
      rw [extractMembers_passed directory named unbased]
      rfl
    intro w member
    obtain ⟨name, extracts, same⟩ := ih lets there (fun name extracts =>
      apart name (.later ran extracts)) w member
    exact ⟨name, .later ran extracts, same⟩
  | unopened => exact nofun
  | unplaced => exact nofun
  | broken based took goal _ =>
    intro w member
    obtain rfl := List.mem_singleton.mp member
    obtain ⟨same, extracts⟩ := extractsFrom_here _ based took lets there goal
    exact ⟨_, extracts, same⟩
  | @whole m rest file file₁ file₂ _ c place content _ _ based took goal copies _ ih =>
    obtain ⟨same, extracts⟩ := extractsFrom_here rest based took lets there goal
    have spared : place ≠ location := same ▸ apart _ extracts
    have other := (target_ok ((lets.aims _ m.baseName_slashless).trans goal)).2.2.2
    have first : Unpacks location bytes aim [m] file (.ok [String.ofList m.baseName])
      [(place, content)] file₂ := .whole based took goal copies .nil
    have ran := first.run lets there fun w member => by
      rw [List.mem_singleton.mp member]
      exact spared
    have still : (tree.insert place (.file content)).get? location = some (.file bytes) := by
      rw [get?_insert _ _ _ _ (ne_root other), if_neg spared.symm, there]
    intro w member
    rcases List.mem_cons.mp member with rfl | member
    · exact ⟨_, extracts, same⟩
    · obtain ⟨name, extracts, same⟩ := ih (lets.alike (opensAlike_insert lets.housed other content))
        still (fun name extracts => apart name (.later ran extracts)) w member
      exact ⟨name, .later ran extracts, same⟩

theorem UnpacksArchive.extracts (unpacks : UnpacksArchive archive.location bytes aim result writes)
    (lets : Lets directory tree aim) (read : tree.read archive = .ok bytes)
    (apart : ∀ name, ExtractsEach directory name [archive] tree →
      (directory / name).location ≠ archive.location) :
    ∀ w ∈ writes, ∃ name, ExtractsEach directory name [archive] tree ∧
      w.1 = (directory / name).location := by
  have there := (read_iff.mp read).2.2
  cases unpacks with
  | unlisted => exact nofun
  | listed took unpacks =>
    have each (name : String) (extracts : ExtractsFrom directory name _ _) :
        ExtractsEach directory name [archive] tree :=
      .here (openFile_of_read read) (took tree there) extracts
    intro w member
    obtain ⟨name, extracts, same⟩ := unpacks.extracts lets there
      (fun name extracts => apart name (each name extracts)) w member
    exact ⟨name, each name extracts, same⟩

end Real

/-- A change of the file tree that puts the same files directly into a directory, and ends in the
same way, in all trees that let it and keep what is to be kept; it puts nothing in place of that. -/
def PutsAlike {α : Type} (kept : Location → Prop) (directory : Path)
    (change : FileTree → α × FileTree) (a : FileTree) : Prop :=
  ∃ result writes, Aimed directory a writes ∧ (∀ w ∈ writes, ¬ kept w.1) ∧
    ∀ t, OpensAlike directory a t → a.Retains kept t → change t = (result, t.putAll writes)

section Alike
variable {kept : Location → Prop} {directory : Path} {a : FileTree}

namespace PutsAlike
variable {α β : Type} {change : FileTree → α × FileTree}

theorem none (value : α) : PutsAlike kept directory (fun t => (value, t)) a :=
  ⟨value, [], nofun, nofun, fun _ _ _ => rfl⟩

theorem map (f : α → β) (puts : PutsAlike kept directory change a) :
    PutsAlike kept directory (fun t => (f (change t).1, (change t).2)) a := by
  obtain ⟨result, writes, aimed, free, runs⟩ := puts
  refine ⟨f result, writes, aimed, free, fun t alike retains => ?_⟩
  simp only [runs t alike retains]

/-- What follows finds the files that were put first, in any of the trees. -/
theorem andThen {next : α → FileTree → β × FileTree} (housed : a.isDirectory directory = .ok true)
    (first : PutsAlike kept directory change a)
    (second : PutsAlike kept directory (next (change a).1) (change a).2) :
    PutsAlike kept directory (fun t => next (change t).1 (change t).2) a := by
  obtain ⟨result, writes, aimed, free, runs⟩ := first
  rw [runs a (.refl housed) (.refl _ _)] at second
  obtain ⟨result', writes', aimed', free', runs'⟩ := second
  have middle := aimed.opensAlike housed
  refine ⟨result', writes ++ writes', aimed.append (aimed'.alike middle.symm),
    List.forall_mem_append.mpr ⟨free, free'⟩, fun t alike retains => ?_⟩
  have alike' := alike.trans ((aimed.alike alike).opensAlike alike.housed')
  simp only [runs t alike retains]
  rw [runs' _ (middle.symm.trans alike') (retains.putAll aimed.below), putAll_append]

/-- So the change is done again with the same result, and changes nothing any more. -/
theorem again (puts : PutsAlike kept directory change a)
    (housed : a.isDirectory directory = .ok true) :
    (change (change a).2).1 = (change a).1 ∧ a.Retains kept (change a).2 ∧
      (change a).2.isDirectory directory = .ok true ∧
      ∀ l, (change (change a).2).2.get? l = (change a).2.get? l := by
  obtain ⟨result, writes, aimed, free, runs⟩ := puts
  have alike := aimed.opensAlike housed
  have retains : a.Retains kept (a.putAll writes) := (aimed.retains housed).weaken
    fun l member w listed place => free w listed (place ▸ member)
  rw [runs a (.refl housed) (.refl _ _)]
  simp only [runs _ alike retains]
  exact ⟨trivial, retains, alike.housed', get?_putAll_again aimed.below⟩

end PutsAlike

theorem extract_puts {archive : Path} (housed : a.isDirectory directory = .ok true)
    (present : a.HasFile archive) (member : kept archive.location)
    (apart : ∀ name, ExtractsEach directory name [archive] a →
      ¬ kept (directory / name).location) :
    PutsAlike kept directory (fun t => extract t archive directory) a := by
  obtain ⟨bytes, read⟩ := present.read
  have lets := Lets.refl housed
  obtain ⟨result, writes, unpacks⟩ := exists_unpacksArchive
    (UnpacksArchive.below_of_read read) bytes fun name => a.target (directory / name)
  have free : ∀ w ∈ writes, ¬ kept w.1 := by
    intro w listed
    obtain ⟨name, extracts, same⟩ := unpacks.extracts lets read
      (fun name extracts place => apart name extracts (place ▸ member)) w listed
    rw [same]
    exact apart name extracts
  exact ⟨result, writes, unpacks.aimed lets, free, fun t alike retains =>
    unpacks.run (lets.alike alike) (retains.read member read) fun w listed place =>
      free w listed (place ▸ member)⟩

/-- Archives that are not written over give the same files wherever they are extracted. -/
theorem extractEach_puts {archives : List Path} (housed : a.isDirectory directory = .ok true)
    (present : ∀ archive ∈ archives, a.HasFile archive ∧ kept archive.location)
    (apart : ∀ name, ExtractsEach directory name archives a →
      ¬ kept (directory / name).location) :
    PutsAlike kept directory (extractEach directory archives) a := by
  induction archives generalizing a with
  | nil => exact .none _
  | cons archive rest ih =>
    obtain ⟨⟨there, member⟩, present⟩ := List.forall_mem_cons.mp present
    have advances : a.Advances (fun _ => True) (extract a archive directory).2 :=
      extract_keeps (fun _ _ => .advances trivial _) archive (.refl _ _)
    have others : PutsAlike kept directory (extractEach directory rest)
        (extract a archive directory).2 :=
      ih (isDirectory_mono advances.directories housed)
        (fun other listed => (present other listed).imp_left advances.hasFile)
        fun name extracts => apart name (.later extracts)
    have same : extractEach directory (archive :: rest) = fun tree =>
        extractRest directory archive rest (extract tree archive directory).1
          (extract tree archive directory).2 := funext (extractEach_cons directory archive rest)
    rw [same]
    refine .andThen housed (extract_puts housed there member fun name extracts =>
      apart name (extracts.of_single rest)) ?_
    rcases (extract a archive directory).1 with (failure | crash) | names
    · exact others.map _
    · exact .none _
    · exact others

end Alike

/-- What lies deeper than directly in the directory is not written over. -/
theorem apart_of_deep {tree : FileTree} {archives : List Path} {directory archive : Path}
    (deep : directory.location.length + 1 < archive.location.length) (name : String)
    (extracts : Extracts tree archives directory name) :
    (directory / name).location ≠ archive.location := by
  obtain ⟨made, _, each⟩ := extracts
  have shallow : (directory / name).location.length ≤ directory.location.length + 1 := by
    rcases Path.leadsDown_of_slashless each.slashless directory with up | down
    · rw [up, List.length_dropLast]
      omega
    · rw [down.location, List.length_append]
      rcases (Path.ofText_of_slashless each.slashless).2 with none | one
      · simp [none]
      · simp [one]
  intro same
  rw [same] at shallow
  omega

section Twice
variable {directory : Path} {archives : List Path} {tree : FileTree}

/-- If no file that is extracted comes to the place of an archive, the archives stay as they are,
and extracting them again ends in the same way and changes nothing. Only the fault of a directory
that cannot be made may be another one. -/
theorem install_twice (stored : ∀ archive ∈ archives, tree.HasFile archive)
    (apart : ∀ name, Extracts tree archives directory name →
      ∀ archive ∈ archives, (directory / name).location ≠ archive.location) :
    let first := install tree archives directory
    let second := install first.2 archives directory
    (∀ archive ∈ archives, first.2.read archive = tree.read archive) ∧
      (∀ l, second.2.get? l = first.2.get? l) ∧
      (second.1 = first.1 ∨
        ∃ e e', first.1 = .error (.access e) ∧ second.1 = .error (.access e')) := by
  intro first second
  rcases ran : (makeDirectories directory).run.run tree with ⟨e | _, made⟩
  · have grown : tree.Retains (fun _ => True) made := .ofMakeDirectories _ ran
    obtain ⟨e', again⟩ := makeDirectories_failed_again directory ran
    have ended : first = (.error (.access e), made) := by simp only [first, install, ran]
    have ended' : second = (.error (.access e'), made) := by
      simp only [second, ended, install, again]
    refine ⟨fun archive member => ?_, fun l => by rw [ended', ended], .inr ⟨e, e', ?_, ?_⟩⟩
    · obtain ⟨content, read⟩ := (stored archive member).read
      rw [ended, read]
      exact grown.read trivial read
    · rw [ended]
    · rw [ended']
  · have grown : tree.Retains (fun _ => True) made := .ofMakeDirectories _ ran
    have housed := isDirectory_of_makeDirectories ran
    have puts : PutsAlike (fun l => ∃ archive ∈ archives, archive.location = l) directory
        (extractEach directory archives) made := by
      refine extractEach_puts housed (fun archive member =>
        ⟨grown.hasFile (stored archive member), archive, member, rfl⟩) ?_
      rintro name extracts ⟨archive, member, place⟩
      exact apart name ⟨made, ran, extracts⟩ archive member place.symm
    obtain ⟨same, retains, housed', unchanged⟩ := puts.again housed
    have ended : first = ((extractEach directory archives made).1.mapError .crash,
        (extractEach directory archives made).2) := by simp only [first, install, ran]
    have ended' : second =
        ((extractEach directory archives (extractEach directory archives made).2).1.mapError .crash,
          (extractEach directory archives (extractEach directory archives made).2).2) := by
      simp only [second, ended, install, makeDirectories_of_isDirectory housed']
    refine ⟨fun archive member => ?_, fun l => ?_, .inl ?_⟩
    · obtain ⟨content, read⟩ := (stored archive member).read
      rw [ended, read]
      exact retains.read ⟨archive, member, rfl⟩ (grown.read trivial read)
    · rw [ended', ended]
      exact unchanged l
    · rw [ended', ended, same]

end Twice

section Samples

/-- Libraries that are archives of natives with these paths. -/
def nativeLibraries (paths : List String) : Members :=
  [("libraries", .list (paths.map fun path => .object [("name", .string ""),
    ("natives", .object [("linux", .string "")]), ("downloads", .object [("artifact",
      .object [("url", .string "http://n/"), ("path", .string path)])])]))]

/-- The archives that are planned for such libraries. -/
def plannedNatives (files : FileTree) (paths : List String) : List Path :=
  ((InstallPlan.planLibraries ⟨some "linux", none, none, ""⟩ [] (nativeLibraries paths)
    (Path.ofText "libraries") (Path.ofText "natives")).run.run
      ⟨⟨files, .empty, .unknown none ""⟩, .ofJobs .empty⟩).2.plan.natives

/-- A directory with files in it. -/
def withNatives (entries : List (List String × FileEntry)) : FileTree :=
  entries.foldl (fun tree (names, entry) =>
    tree.insert (workingDirectory ++ "natives" :: names) entry)
    (FileTree.empty.insert (workingDirectory ++ ["natives"]) .directory)

/-- An archive of natives below a directory of its own. -/
def deepNatives : FileTree :=
  withNatives [(["d"], .directory), (["d", "a.jar"], .file (stored 0 [([98], [1])]))]

theorem deepNatives_twice :
    let archives := plannedNatives deepNatives ["d/a.jar"]
    let first := install deepNatives archives (Path.ofText "natives")
    let second := install first.2 archives (Path.ofText "natives")
    archives = [Path.ofText "natives/d/a.jar"] ∧
      first.2.get? (workingDirectory ++ ["natives", "b"]) = some (.file [1]) ∧
      (∀ archive ∈ archives, first.2.read archive = deepNatives.read archive) ∧
      ∀ l, second.2.get? l = first.2.get? l := by
  intro archives first second
  have planned : archives = [Path.ofText "natives/d/a.jar"] := by decide +kernel
  have deep : ∀ archive ∈ archives,
      (Path.ofText "natives").location.length + 1 < archive.location.length := by decide +kernel
  obtain ⟨untouched, unchanged, _⟩ := @install_twice (Path.ofText "natives") archives deepNatives
    (by decide +kernel)
    fun name extracts archive member => apart_of_deep (deep archive member) name extracts
  exact ⟨planned, by decide +kernel, untouched, unchanged⟩

/-- An archive that holds a file with the name of another one, which comes before it. -/
def clashingNatives : FileTree :=
  withNatives [(["a.jar"], .file (stored 0 [([98, 46, 106, 97, 114], [1])])),
    (["b.jar"], .file (stored 0 [([108, 105, 98], [2])]))]

/-- Extraction can write over an archive of its list, which is none any more then. -/
theorem clashingNatives_overwritten :
    let archives := plannedNatives clashingNatives ["b.jar", "a.jar"]
    let first := install clashingNatives archives (Path.ofText "natives")
    let second := install first.2 archives (Path.ofText "natives")
    archives = [Path.ofText "natives/b.jar", Path.ofText "natives/a.jar"] ∧
      (∀ archive ∈ archives, clashingNatives.HasFile archive) ∧
      first.1.toOption.map (·.map (·.archive)) = some [] ∧
      first.2.get? (workingDirectory ++ ["natives", "b.jar"]) = some (.file [1]) ∧
      second.1.toOption.map (·.map (·.archive)) = some [Path.ofText "natives/b.jar"] := by
  decide +kernel

end Samples
end Launcher.Natives
