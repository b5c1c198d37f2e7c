import Launcher.Proofs.Archive.Unpacking
import Mathlib.Data.List.Forall2

/-! The turns of archives that are extracted, one for each archive until one of them ends the
extraction. What comes of the extraction can be read off its turns. -/
namespace Launcher.Natives
open Archive FileTree

/-- The turn of an archive to be extracted, with the file tree that it finds. -/
structure Turn where
  archive : Path
  tree : FileTree

namespace Turn
variable (turn : Turn) (directory : Path)

/-- The names of the files that the archive lists. -/
def names : List String := (baseNames turn.tree turn.archive).filter (· ≠ "")

def result : Except ArchiveError (List String) := (extract turn.tree turn.archive directory).1

/-- The file tree that the next turn finds. -/
def left : FileTree := (extract turn.tree turn.archive directory).2

def crash? : Option Crash :=
  match turn.result directory with
  | .error (.crashed crash) => some crash
  | _ => none

def failure? : Option ExtractionError :=
  match turn.result directory with
  | .error (.failed origin) => some ⟨turn.archive, origin⟩
  | _ => none

variable {turn directory} in
theorem crash?_eq_some {crash : Crash} :
    turn.crash? directory = some crash ↔ turn.result directory = .error (.crashed crash) := by
  unfold crash?
  split <;> simp_all

end Turn

/-- The turns of archives; there are no more after one that crashes. -/
def turns (directory : Path) : List Path → FileTree → List Turn
  | [], _ => []
  | archive :: rest, tree =>
    let turn : Turn := ⟨archive, tree⟩
    turn :: match turn.crash? directory with
      | some _ => []
      | none => turns directory rest (turn.left directory)

section Run
variable {directory : Path} {archives : List Path} {tree : FileTree}

/-- The first archive ends the extraction by a crash, or the others have their turns on what it
left, its failure being told before theirs. -/
theorem turns_cons (directory archive : Path) (rest : List Path) (tree : FileTree) :
    let turn : Turn := ⟨archive, tree⟩
    let others := extractEach directory rest (turn.left directory)
    (∃ crash, turn.crash? directory = some crash ∧
      turns directory (archive :: rest) tree = [turn] ∧
      extractEach directory (archive :: rest) tree = (.error crash, turn.left directory)) ∨
    (turn.crash? directory = none ∧
      turns directory (archive :: rest) tree =
        turn :: turns directory rest (turn.left directory) ∧
      extractEach directory (archive :: rest) tree =
        (others.1.map ((turn.failure? directory).toList ++ ·), others.2)) := by
  simp only [extractEach_cons, turns]
  simp only [Turn.crash?, Turn.failure?, Turn.result, Turn.left]
  rcases (extract tree archive directory).1 with (origin | crash) | names
  · exact .inr ⟨rfl, rfl, rfl⟩
  · exact .inl ⟨crash, rfl, rfl, rfl⟩
  · refine .inr ⟨rfl, rfl, ?_⟩
    simp only [extractRest]
    rcases extractEach directory rest (extract tree archive directory).2 with ⟨_ | _, _⟩ <;> rfl

/-- The archives that failed in their turns are told in order, unless a turn crashed. -/
theorem extractEach_result (directory : Path) (archives : List Path) (tree : FileTree) :
    (extractEach directory archives tree).1 =
      match (turns directory archives tree).findSome? (·.crash? directory) with
      | some crash => .error crash
      | none => .ok ((turns directory archives tree).filterMap (·.failure? directory)) := by
  induction archives generalizing tree with
  | nil => rfl
  | cons archive rest ih =>
    rcases turns_cons directory archive rest tree with ⟨crash, crashes, turn, ran⟩ |
      ⟨steady, further, ran⟩
    · simp only [turn, ran, List.findSome?_cons, crashes]
    · simp only [further, ran, ih, List.findSome?_cons, steady, List.filterMap_cons]
      generalize (turns directory rest _).findSome? _ = crash
      rcases crash with _ | crash
      · rcases Turn.failure? ⟨archive, tree⟩ directory with _ | failure <;> rfl
      · rfl

/-- What every turn preserves holds whenever a turn comes, and at the end. -/
theorem turns_keep {K : FileTree → Prop} (start : K tree)
    (step : ∀ turn ∈ turns directory archives tree, K turn.tree → K (turn.left directory)) :
    (∀ turn ∈ turns directory archives tree, K turn.tree) ∧
      K (extractEach directory archives tree).2 := by
  induction archives generalizing tree with
  | nil => exact ⟨nofun, start⟩
  | cons archive rest ih =>
    rcases turns_cons directory archive rest tree with ⟨crash, _, turn, ran⟩ | ⟨_, further, ran⟩
    · rw [turn, List.forall_mem_singleton] at step
      rw [turn, List.forall_mem_singleton, ran]
      exact ⟨start, step start⟩
    · rw [further, List.forall_mem_cons] at step
      obtain ⟨others, ended⟩ := ih (step.1 start) step.2
      rw [further, List.forall_mem_cons, ran]
      exact ⟨⟨start, others⟩, ended⟩

/-- After a turn, what is left of the extraction goes on from what the turn left. -/
theorem exists_rest {turn : Turn} (member : turn ∈ turns directory archives tree) :
    ∃ rest, (extractEach directory archives tree).2 =
      (extractEach directory rest (turn.left directory)).2 := by
  induction archives generalizing tree with
  | nil => cases member
  | cons archive rest ih =>
    rcases turns_cons directory archive rest tree with ⟨crash, _, first, ran⟩ | ⟨_, further, ran⟩
    · rw [first] at member
      obtain rfl := List.mem_singleton.mp member
      exact ⟨[], by rw [ran]; rfl⟩
    · rw [further] at member
      rcases List.mem_cons.mp member with rfl | later
      · exact ⟨rest, by rw [ran]⟩
      · obtain ⟨rest', same⟩ := ih later
        exact ⟨rest', by rw [ran, ← same]⟩

/-- Every archive has its turn unless one crashes. -/
theorem archives_of_turns
    (steady : ∀ turn ∈ turns directory archives tree, turn.crash? directory = none) :
    (turns directory archives tree).map (·.archive) = archives := by
  induction archives generalizing tree with
  | nil => rfl
  | cons archive rest ih =>
    rcases turns_cons directory archive rest tree with ⟨crash, crashes, turn, _⟩ | ⟨_, further, _⟩
    · rw [turn, List.forall_mem_singleton, crashes] at steady
      cases steady
    · rw [further, List.forall_mem_cons] at steady
      rw [further, List.map_cons, ih steady.2]

theorem archive_of_turn {turn : Turn} (member : turn ∈ turns directory archives tree) :
    turn.archive ∈ archives := by
  induction archives generalizing tree with
  | nil => cases member
  | cons archive rest ih =>
    rcases turns_cons directory archive rest tree with ⟨_, _, first, _⟩ | ⟨_, further, _⟩
    · rw [first] at member
      obtain rfl := List.mem_singleton.mp member
      exact List.mem_cons_self
    · rw [further] at member
      rcases List.mem_cons.mp member with rfl | later
      · exact List.mem_cons_self
      · exact List.mem_cons_of_mem _ (ih later)

end Run

theorem install_of_housed {directory : Path} {tree : FileTree} (archives : List Path)
    (housed : tree.isDirectory directory = .ok true) :
    install tree archives directory =
      ((extractEach directory archives tree).1.mapError .crash,
        (extractEach directory archives tree).2) := by
  rw [install, makeDirectories_of_isDirectory housed]

section Filling
variable {directory archive : Path} {a t : FileTree} {names : String → Prop}

theorem admits_fills (rooted : a.IsRooted) (housed : a.isDirectory directory = .ok true)
    {name : String} (slashless : '/' ∉ name.toList) (member : names name) :
    Admits (Fills directory names a) (directory / name).location := by
  intro tree content fills other
  have child := (location_of_not_directory rooted housed slashless fun there =>
    other ((fills.directory_iff _).mpr there)).2
  rw [child] at other ⊢
  exact fills.insert member other content

/-- A turn puts files under the names that the archive lists, and does nothing else. -/
theorem Turn.left_fills (turn : Turn) (rooted : a.IsRooted)
    (housed : a.isDirectory directory = .ok true) (fills : Fills directory names a turn.tree)
    (listed : ∀ name ∈ turn.names, names name) :
    Fills directory names a (turn.left directory) := by
  obtain ⟨archive, tree⟩ := turn
  simp only [Turn.left, Turn.names, baseNames, extract] at fills listed ⊢
  rcases opened : tree.openFile archive with e | ⟨location, content⟩
  · exact fills
  · have read : Keeps (Fills directory names a) Archive.members := members_keeps
    have kept := (read ⟨location, .start, tree⟩ fills).1
    have extracted : Fills directory names a ((Archive.members >>= extractMembers directory).run.run
        ⟨location, .start, tree⟩).2.tree := by
      rw [run_bind]
      rcases ran : Archive.members.run.run ⟨location, .start, tree⟩ with ⟨e | members, r⟩
      · rw [ran] at kept
        exact kept
      · rw [ran] at kept
        simp only [opened, ran] at listed
        refine (extractMembers_keeps_of (fun m member based => ?_) r kept).1
        refine admits_fills rooted housed m.baseName_slashless (listed _ ?_)
        refine List.mem_filter.mpr ⟨List.mem_map.mpr ⟨m, member, rfl⟩, ?_⟩
        simpa [← String.toList_inj] using based
    exact extracted

/-- Extraction puts files under the names that archives list when their turn comes. -/
theorem turns_fill {archives : List Path} (rooted : a.IsRooted)
    (housed : a.isDirectory directory = .ok true) (fills : Fills directory names a t)
    (listed : ∀ turn ∈ turns directory archives t, ∀ name ∈ turn.names, names name) :
    (∀ turn ∈ turns directory archives t, Fills directory names a turn.tree) ∧
      Fills directory names a (extractEach directory archives t).2 :=
  turns_keep fills fun turn member fills => turn.left_fills rooted housed fills (listed turn member)

end Filling

/-- Where a file of an archive comes to, and with which content. -/
def placed (directory : Path) (f : PackedFile) : Location × Bytes :=
  (directory.location ++ [f.name], f.content)

theorem placed_below (directory : Path) (fs : List PackedFile) :
    ∀ w ∈ fs.map (placed directory), w.1 ≠ [] := by
  intro w member
  obtain ⟨f, _, rfl⟩ := List.mem_map.mp member
  simp [placed]

theorem lastPut?_placed (directory : Path) (fs : List PackedFile) (name : String) :
    lastPut? (fs.map (placed directory)) (directory.location ++ [name]) = lastNamed? fs name := by
  have same : ((·.1 == directory.location ++ [name]) ∘ placed directory) = (·.name == name) := by
    funext f
    simp [placed]
  rw [lastPut?, lastNamed?, ← List.map_reverse, List.find?_map, same, Option.map_map]
  rfl

theorem openFile_embeddedNul {tree : FileTree} {p : Path} :
    tree.openFile p = .error .embeddedNul ↔ hasNul p = true := by
  rcases tree.openFile_cases p with ⟨nul, ended⟩ | ⟨nul, _, ended⟩ | ⟨_, nul, _, _, ended⟩
  · simp [nul, ended]
  · simp [nul, ended, fail]
  · simp [nul, ended]

theorem extract_cases (tree : FileTree) (archive directory : Path) :
    (∃ e, tree.openFile archive = .error e ∧
      extract tree archive directory = (.error (.ofAccess e), tree)) ∨
    ∃ bytes, tree.read archive = .ok bytes := by
  unfold extract FileTree.read
  rcases tree.openFile archive with e | ⟨location, bytes⟩
  · exact .inl ⟨e, rfl, rfl⟩
  · exact .inr ⟨bytes, rfl⟩

theorem read_of_files {tree : FileTree} {archive : Path} {fs : List PackedFile}
    (readable : files tree archive = .ok fs) : ∃ bytes, tree.read archive = .ok bytes := by
  unfold files at readable
  unfold FileTree.read
  rcases opened : tree.openFile archive with e | ⟨location, bytes⟩
  · rw [opened] at readable
    cases readable
  · exact ⟨bytes, rfl⟩

theorem files_named {tree : FileTree} {archive : Path} {fs : List PackedFile}
    (readable : files tree archive = .ok fs) :
    ∀ f ∈ fs, ∃ m : Member, m.baseName ≠ [] ∧ f.name = String.ofList m.baseName := by
  obtain ⟨bytes, read⟩ := read_of_files readable
  have below := UnpacksArchive.below_of_read read
  obtain ⟨file', all⟩ := UnpacksArchive.files_of_read read
  rw [readable] at all
  obtain ⟨members, file, _, took⟩ := all.of_bind below .members
  exact filesOf_named below took

theorem writes_of_puts {directory : Path} {a : FileTree} (rooted : a.IsRooted)
    (housed : a.isDirectory directory = .ok true) {fs : List PackedFile}
    {writes : List (Location × Bytes)}
    (puts : fs.Forall₂ (Puts fun name => a.target (directory / name)) writes) :
    writes = fs.map (placed directory) := by
  induction puts with
  | nil => rfl
  | cons put _ ih =>
    rw [List.map_cons, ← ih]
    congr 1
    exact Prod.ext (location_of_target rooted housed put.slashless put.place) put.content

section Outside
variable {directory archive : Path} {a t : FileTree} {names : String → Prop}
variable (rooted : a.IsRooted) (housed : a.isDirectory directory = .ok true)
  (fills : Fills directory names a t)
  (outside : ∀ name, archive.location ≠ directory.location ++ [name])
include rooted housed fills outside

/-- How an archive beside the directory is extracted does not depend on what came into the
directory before. -/
theorem exists_extract {bytes : Bytes} (read : a.read archive = .ok bytes) :
    ∃ result writes, UnpacksArchive archive.location bytes
        (fun name => a.target (directory / name)) result writes ∧
      extract t archive directory = (result, t.putAll writes) := by
  obtain ⟨result, writes, unpacks⟩ := exists_unpacksArchive
    (UnpacksArchive.below_of_read read) bytes fun name => a.target (directory / name)
  refine ⟨result, writes, unpacks, ?_⟩
  refine unpacks.run ((Lets.refl housed).alike (fills.opensAlike housed))
    ((fills.read_iff outside).mpr read) fun w member => ?_
  obtain ⟨name, slashless, goal⟩ := unpacks.aimed (.refl housed) w member
  rw [location_of_target rooted housed slashless goal]
  exact (outside name).symm

/-- If extracting an archive ends well, the archive can be read and all its files are put. -/
theorem extract_ok {extracted : List String}
    (ended : (extract t archive directory).1 = .ok extracted) :
    ∃ fs, files a archive = .ok fs ∧ extracted = fs.map (·.name) ∧
      (∀ f ∈ fs, ∃ place, a.target (directory / f.name) = .ok place) ∧
      (extract t archive directory).2 = t.putAll (fs.map (placed directory)) := by
  rcases extract_cases t archive directory with ⟨e, _, failed⟩ | ⟨bytes, read⟩
  · rw [failed] at ended
    cases ended
  · have read := (fills.read_iff outside).mp read
    obtain ⟨result, writes, unpacks, ran⟩ := exists_extract rooted housed fills outside read
    rw [ran] at ended ⊢
    cases ended
    obtain ⟨fs, readable, named, puts⟩ := unpacks.whole read
    obtain rfl := writes_of_puts rooted housed puts
    rw [List.forall₂_map_right_iff, List.forall₂_same] at puts
    exact ⟨fs, readable, named, fun f member => ⟨_, (puts f member).place⟩, rfl⟩

/-- What an extraction is given up for is found in reading the archive. -/
theorem extract_crashed {crash : Crash}
    (ended : (extract t archive directory).1 = .error (.crashed crash)) :
    files a archive = .error (.crashed crash) := by
  rcases extract_cases t archive directory with ⟨e, failed, ran⟩ | ⟨bytes, read⟩
  · rw [ran] at ended
    rcases e with fault | _
    · cases ended
    · have nul := openFile_embeddedNul.mp failed
      rw [← Except.error.inj ended, files, openFile_embeddedNul.mpr nul]
  · have read := (fills.read_iff outside).mp read
    obtain ⟨result, writes, unpacks, ran⟩ := exists_extract rooted housed fills outside read
    rw [ran] at ended
    cases ended
    exact unpacks.crashed (.refl housed) read

/-- If reading an archive is given up, so is extracting it, unless a file of it has no place. -/
theorem extract_gives_up {crash : Crash} (failed : files a archive = .error (.crashed crash))
    (placed : ∀ name ∈ baseNames a archive, name ≠ "" →
      ∃ place, a.target (directory / name) = .ok place) :
    (extract t archive directory).1 = .error (.crashed crash) := by
  rcases extract_cases a archive directory with ⟨e, unopened, _⟩ | ⟨bytes, read⟩
  · rw [files, unopened] at failed
    rcases e with fault | _
    · cases failed
    · cases failed
      rw [extract, openFile_embeddedNul.mpr (openFile_embeddedNul.mp unopened)]
      rfl
  · obtain ⟨result, writes, unpacks, ran⟩ := exists_extract rooted housed fills outside read
    rw [ran, unpacks.gives_up read failed placed]

/-- An archive that can be read is extracted if there is a place for each of its files. -/
theorem extract_whole {fs : List PackedFile} (readable : files a archive = .ok fs)
    (free : ∀ f ∈ fs, ∃ place, a.target (directory / f.name) = .ok place) :
    extract t archive directory =
      (.ok (fs.map (·.name)), t.putAll (fs.map (placed directory))) := by
  obtain ⟨bytes, read⟩ := read_of_files readable
  obtain ⟨result, writes, unpacks, ran⟩ := exists_extract rooted housed fills outside read
  obtain ⟨names', rfl⟩ := unpacks.ends_well read readable free
  obtain ⟨fs', readable', named, _, kept⟩ := extract_ok rooted housed fills outside (by rw [ran])
  rw [readable] at readable'
  cases readable'
  rw [← named, ← kept, ran]

/-- An archive that can be read fails only if there is no place for one of its files. -/
theorem extract_fails {fs : List PackedFile} (readable : files a archive = .ok fs)
    {f : PackedFile} (member : f ∈ fs)
    (unplaced : ∀ place, a.target (directory / f.name) ≠ .ok place) :
    ∃ origin, (extract t archive directory).1 = .error (.failed origin) := by
  rcases ended : (extract t archive directory).1 with (origin | crash) | extracted
  · exact ⟨origin, rfl⟩
  · rw [extract_crashed rooted housed fills outside ended] at readable
    cases readable
  · obtain ⟨fs', readable', _, free, _⟩ := extract_ok rooted housed fills outside ended
    rw [readable] at readable'
    cases readable'
    obtain ⟨place, goal⟩ := free f member
    exact absurd goal (unplaced place)

end Outside
end Launcher.Natives
