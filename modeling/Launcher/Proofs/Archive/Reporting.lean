import Launcher.Proofs.Archive.Turns

/-! What an extraction tells of the archives that it could not extract, and what becomes of the
others. The failures of archives are told one by one, but a crash in the turn of one ends all. -/
namespace Launcher.Natives
open Archive FileTree

section Reports
variable {directory : Path} {archives : List Path} {tree : FileTree}

/-- Once the directory is there, nothing but a crash in a turn is raised. -/
theorem install_error_iff (housed : tree.isDirectory directory = .ok true) {e : InstallError} :
    (install tree archives directory).1 = .error e ↔ ∃ crash, e = .crash crash ∧
      (turns directory archives tree).findSome? (·.crash? directory) = some crash := by
  rw [install_of_housed archives housed, extractEach_result]
  generalize (turns directory archives tree).findSome? (·.crash? directory) = raised
  rcases raised with _ | crash
  · simp [Except.mapError]
  · simp [Except.mapError, eq_comm]

theorem install_ok_of_steady (housed : tree.isDirectory directory = .ok true)
    (steady : ∀ turn ∈ turns directory archives tree, turn.crash? directory = none) :
    (install tree archives directory).1 =
      .ok ((turns directory archives tree).filterMap (·.failure? directory)) := by
  rw [install_of_housed archives housed, extractEach_result, List.findSome?_eq_none_iff.mpr steady]
  rfl

/-- What a turn left is there at the end, if with other contents. -/
theorem left_stays (housed : tree.isDirectory directory = .ok true) {turn : Turn}
    (member : turn ∈ turns directory archives tree) {l : Location}
    (file : (turn.left directory).IsFileAt l) : (install tree archives directory).2.IsFileAt l := by
  obtain ⟨rest, same⟩ := exists_rest member
  have advances : (turn.left directory).Advances (fun _ => True)
      (extractEach directory rest (turn.left directory)).2 :=
    extractEach_keeps (fun _ _ => .advances trivial _) rest (.refl _ _)
  rw [install_of_housed archives housed, same]
  exact advances.files l file

/-- Extraction into a directory that is there is given up exactly if one of the turns crashes, which
it does if reading its archive does, unless one of the files has no place. Else every archive has
its turn, those that fail are told in order, and of each other one all files are put into the
directory, where they stay. -/
theorem install_reports (rooted : tree.IsRooted) (housed : tree.isDirectory directory = .ok true)
    (outside : ∀ archive ∈ archives, ∀ name, archive.location ≠ directory.location ++ [name]) :
    (∀ e, (install tree archives directory).1 = .error e ↔ ∃ crash, e = .crash crash ∧
      (turns directory archives tree).findSome? (·.crash? directory) = some crash) ∧
    ((∀ turn ∈ turns directory archives tree, turn.crash? directory = none) →
      (turns directory archives tree).map (·.archive) = archives ∧
      (install tree archives directory).1 =
        .ok ((turns directory archives tree).filterMap (·.failure? directory))) ∧
    ∀ turn ∈ turns directory archives tree,
      (∀ crash,
        (turn.crash? directory = some crash →
          files tree turn.archive = .error (.crashed crash)) ∧
        (files tree turn.archive = .error (.crashed crash) →
          (∀ name ∈ baseNames tree turn.archive, name ≠ "" →
            ∃ place, tree.target (directory / name) = .ok place) →
          turn.crash? directory = some crash)) ∧
      ∀ extracted, turn.result directory = .ok extracted →
        ∃ fs, files tree turn.archive = .ok fs ∧ extracted = fs.map (·.name) ∧
          turn.left directory = turn.tree.putAll (fs.map (placed directory)) ∧
          ∀ f ∈ fs, (install tree archives directory).2.IsFileAt
            (directory.location ++ [f.name]) := by
  refine ⟨fun e => install_error_iff housed, fun steady =>
    ⟨archives_of_turns steady, install_ok_of_steady housed steady⟩, fun turn member => ?_⟩
  have fills : Fills directory (fun _ => True) tree turn.tree :=
    (turns_fill rooted housed (.refl _ _ _) fun _ _ _ _ => trivial).1 turn member
  have apart := outside _ (archive_of_turn member)
  refine ⟨fun crash => ⟨fun crashes => ?_, fun failed free => ?_⟩, fun extracted ended => ?_⟩
  · exact extract_crashed rooted housed fills apart (Turn.crash?_eq_some.mp crashes)
  · exact Turn.crash?_eq_some.mpr (extract_gives_up rooted housed fills apart failed free)
  · obtain ⟨fs, readable, named, _, left⟩ := extract_ok rooted housed fills apart ended
    refine ⟨fs, readable, named, left, fun f listed => left_stays housed member ?_⟩
    rw [Turn.left, left]
    exact isFileAt_putAll (placed_below directory fs)
      (List.mem_map_of_mem (f := placed directory) listed)

end Reports

section Samples

/-- An empty directory, and an archive beside it with one file. -/
def besideDirectory : FileTree :=
  (inWorkingDirectory [("good.zip", stored 0 [([98], [2])])]).insert
    (workingDirectory ++ ["natives"]) .directory

/-- There is an archive as well whose only name is flagged as UTF-8 and is not. -/
def besideMisnamed : FileTree :=
  besideDirectory.insert (workingDirectory ++ ["bad.zip"]) (.file (stored 0x800 [([255], [1])]))

/-- A missing archive is told, and the one after it is extracted. -/
theorem missing_archive_reported :
    let archives := [Path.ofText "none.zip", Path.ofText "good.zip"]
    let outcome := install besideDirectory archives (Path.ofText "natives")
    (∃ errors, outcome.1 = .ok errors ∧ errors.map (·.archive) = [Path.ofText "none.zip"]) ∧
      outcome.2.IsFileAt (workingDirectory ++ ["natives", "b"]) := by
  intro archives outcome
  have steady : ∀ turn ∈ turns (Path.ofText "natives") archives besideDirectory,
      turn.crash? (Path.ofText "natives") = none := by decide +kernel
  have failed : ((turns (Path.ofText "natives") archives besideDirectory).filterMap
      (·.failure? (Path.ofText "natives"))).map (·.archive) = [Path.ofText "none.zip"] := by
    decide +kernel
  have extracted : ∃ turn ∈ turns (Path.ofText "natives") archives besideDirectory,
      turn.result (Path.ofText "natives") = .ok ["b"] := by decide +kernel
  have beside : ∀ archive ∈ archives,
      archive.location.length ≤ (Path.ofText "natives").location.length := by decide
  obtain ⟨_, told, each⟩ := @install_reports (Path.ofText "natives") archives besideDirectory
    (isRooted_of_entries (by decide +kernel)) (by decide +kernel) fun archive member => ne_child (beside archive member)
  refine ⟨⟨_, (told steady).2, failed⟩, ?_⟩
  obtain ⟨turn, member, ended⟩ := extracted
  obtain ⟨fs, _, named, _, stays⟩ := (each turn member).2 _ ended
  obtain ⟨f, listed, called⟩ := List.mem_map.mp (named ▸ List.mem_singleton_self "b")
  have there := stays f listed
  rwa [called] at there

/-- One misnamed archive keeps the archive after it from being extracted. -/
theorem misnamed_archive_ends_extraction :
    let archives := [Path.ofText "bad.zip", Path.ofText "good.zip"]
    let outcome := install besideMisnamed archives (Path.ofText "natives")
    besideMisnamed.isDirectory (Path.ofText "natives") = .ok true ∧
      (∀ archive ∈ archives, ∀ name,
        archive.location ≠ (Path.ofText "natives").location ++ [name]) ∧
      outcome.1.toBool = false ∧
      files besideMisnamed (Path.ofText "good.zip") = .ok [⟨"b", [2]⟩] ∧
      outcome.2.get? (workingDirectory ++ ["natives", "b"]) = none := by
  have beside : ∀ archive ∈ [Path.ofText "bad.zip", Path.ofText "good.zip"],
      archive.location.length ≤ (Path.ofText "natives").location.length := by decide
  exact ⟨by decide +kernel, fun archive member => ne_child (beside archive member),
    by decide +kernel, by decide +kernel, by decide +kernel⟩

end Samples
end Launcher.Natives
