import Launcher.Proofs.Download.Listing
import Launcher.Proofs.Download.Outcome
import Launcher.Proofs.Files.Retention

/-! What the results of a batch promise when it is over. A file that was found good stays as it is,
whatever becomes of the downloads after it. Nothing is taken away when every download succeeds, so
whatever was there is there afterwards, together with a file for every download, which is as the
download declares. -/
namespace Launcher

/-- The destination of an entry is a file of a size, and both the size and the digest are those
that the entry declares. -/
def DownloadEntry.IsFulfilled (entry : DownloadEntry) (size : Nat) (files : FileTree) : Prop :=
  ∃ body, files.read entry.destination = .ok body ∧ body.length = size ∧
    (∀ declared ∈ entry.size, (size : Int) = declared.value) ∧
    ∀ digest ∈ entry.sha1, sha1Hex body = digest

namespace Worker

theorem verify_success {entry : DownloadEntry} {body : Bytes} {size : Nat}
    (good : verify entry body = .success size) :
    body.length = size ∧ (∀ declared ∈ entry.size, (size : Int) = declared.value) ∧
      ∀ digest ∈ entry.sha1, sha1Hex body = digest := by
  have digests {file : String} (good : verify.verifySha1 entry body file = .success size) :
      body.length = size ∧ ∀ digest ∈ entry.sha1, sha1Hex body = digest := by
    unfold verify.verifySha1 at good
    split at good
    · rename_i expected declared
      simp only at good
      split at good
      · contradiction
      · rename_i same
        refine ⟨DownloadOutcome.success.inj good, ?_⟩
        rintro digest member
        cases Option.some.inj (declared.symm.trans member)
        simpa using same
    · rename_i none
      exact ⟨DownloadOutcome.success.inj good, by simp [none]⟩
  unfold verify at good
  simp only at good
  split at good
  · rename_i declared given
    split at good
    · contradiction
    · rename_i same
      obtain ⟨length, sha1⟩ := digests good
      refine ⟨length, ?_, sha1⟩
      intro other member
      cases Option.some.inj (given.symm.trans member)
      rw [← length]
      simpa using same
  · rename_i none
    obtain ⟨length, sha1⟩ := digests good
    exact ⟨length, by simp [none], sha1⟩

variable {entry : DownloadEntry} {reply : Reply} {before after : FileTree} {ending : JobEnd}

theorem Effect.isFulfilled {size : Nat}
    (effect : Effect entry reply before (.finished (.success size)) after) :
    entry.IsFulfilled size after := by
  generalize finished : JobEnd.finished (.success size) = ending at effect
  cases effect with
  | unwritten _ unwritten =>
    subst finished
    exact absurd unwritten id
  | stored _ wrote _ =>
    exact ⟨_, FileTree.read_write wrote, verify_success (JobEnd.finished.inj finished).symm⟩
  | dropped => cases finished
  | abandoned => cases finished

theorem Effect.read_other (effect : Effect entry reply before ending after) {p : Path}
    (other : p.location ≠ entry.destination.location) {content : Bytes}
    (h : before.read p = .ok content) : after.read p = .ok content := by
  obtain ⟨nul, way, file⟩ := FileTree.read_iff.mp h
  refine FileTree.read_iff.mpr ⟨nul, FileTree.resolve_mono effect.keepsDirectories way, ?_⟩
  rcases effect.get?_other other with same | ⟨absent, _⟩
  · rw [same, file]
  · rw [file] at absent
    contradiction

end Worker

namespace Runs
variable {w w' : Worker} {turns : List Turn} {crash : Option CrashCause}

/-- No later download touches a file whose location is none of the destinations that wait. -/
theorem read_other (runs : Runs w turns crash w') {p : Path}
    (other : ∀ e ∈ w.entries, p.location ≠ e.destination.location) {content : Bytes}
    (h : w.files.read p = .ok content) : w'.files.read p = .ok content :=
  runs.files_invariant (motive := fun files => files.read p = .ok content)
    (fun t member => t.effect.read_other (other _ (runs.entry_mem member))) h

/-- The files of successful downloads are still there at the end. -/
theorem isFulfilled (runs : Runs w turns crash w')
    (distinct : (w.entries.map (·.destination.location)).Nodup) {result : DownloadResult}
    (member : result ∈ turns.filterMap Turn.result?) {size : Nat}
    (good : result.outcome = .success size) : result.entry.IsFulfilled size w'.files := by
  induction runs with
  | done _ => contradiction
  | crashed taken ending => simp [Turn.result?, ending] at member
  | @next w w₁ w' t turns crash taken onward runs ih =>
    have files := (Turn.next?_some onward).1
    rcases Worker.entries_next taken onward with ⟨redirected, again⟩ | ⟨_, rest⟩
    · rw [List.filterMap_cons, Turn.result?_of_redirected redirected] at member
      exact ih ((again.map _).nodup_iff.mpr distinct) member
    · rw [rest, List.map_cons, List.nodup_cons] at distinct
      obtain ⟨alone, distinct⟩ := distinct
      have later := ih distinct
      rcases ended : t.result? with _ | first
      · rw [List.filterMap_cons, ended] at member
        exact later member
      · rw [List.filterMap_cons, ended] at member
        rcases List.mem_cons.mp member with rfl | member
        · obtain ⟨mine, ending⟩ := Turn.result?_some ended
          have effect := t.effect
          rw [ending, good] at effect
          obtain ⟨body, read, right⟩ := effect.isFulfilled
          rw [← files] at read
          rw [mine]
          refine ⟨body, runs.read_other ?_ read, right⟩
          intro e waits same
          exact alone (List.mem_map.mpr ⟨e, waits, same.symm⟩)
        · exact later member

end Runs

namespace DownloadList

end DownloadList

variable {kept : Location → Prop}

/-- A turn whose download does not fail takes nothing away, and leaves a file if it ends. -/
theorem Turn.retains {t : Turn} (free : ¬ kept t.job.entry.destination.location)
    (calm : ∀ cause, t.ending ≠ .crashed cause)
    (success : ∀ result ∈ t.result?, result.isFailure = false) :
    t.worker.files.Retains kept t.after.files ∧
      ∀ result ∈ t.result?, t.after.files.HasFile result.entry.destination := by
  have fine (outcome : DownloadOutcome) (ended : t.ending = .finished outcome) :
      DownloadResult.isFailure ⟨t.job.entry, outcome⟩ = false :=
    success _ (by simp [Turn.result?, ended])
  have effect := t.effect
  generalize t.after.files = after at effect ⊢
  rcases ended : t.ending with outcome | target | cause
  · rw [ended] at effect
    have good := fine outcome ended
    cases effect with
    | unwritten grows unwritten =>
      cases outcome with
      | success size => exact absurd unwritten id
      | failure => cases good
    | stored grows wrote _ =>
      refine ⟨(FileTree.Retains.ofGrows kept grows).trans
        (.write wrote fun member => absurd member free), ?_⟩
      intro result given
      rw [(Turn.result?_some given).1]
      exact FileTree.hasFile_write wrote
    | dropped => cases good
  · rw [ended] at effect
    cases effect with
    | unwritten grows _ => exact ⟨.ofGrows kept grows, by simp [Turn.result?, ended]⟩
  · exact absurd ended (calm cause)

/-- A run without a failure takes nothing away, and leaves a file for every result. -/
theorem Runs.retains {w w' : Worker} {turns : List Turn} (runs : Runs w turns none w')
    (free : ∀ e ∈ w.entries, ¬ kept e.destination.location)
    (successes : ∀ result ∈ turns.filterMap Turn.result?, result.isFailure = false) :
    w.files.Retains kept w'.files ∧
      ∀ result ∈ turns.filterMap Turn.result?, w'.files.HasFile result.entry.destination := by
  generalize ends : none = crash at runs
  induction runs with
  | done _ => exact ⟨.refl _ _, by simp⟩
  | crashed _ _ => cases ends
  | @next w w₁ w' t turns crash taken onward runs ih =>
    have entries := Worker.entries_of_turn? taken
    have calm (cause : CrashCause) : t.ending ≠ .crashed cause := by
      intro ending
      simp [Turn.next?, ending] at onward
    have files := (Turn.next?_some onward).1
    have free₁ : ∀ e ∈ w₁.entries, ¬ kept e.destination.location := by
      intro e waits
      rcases Worker.entries_next taken onward with ⟨_, again⟩ | ⟨_, rest⟩
      · exact free e (again.mem_iff.mp waits)
      · exact free e (by rw [rest]; exact List.mem_cons_of_mem _ waits)
    have each {result : DownloadResult} :
        result ∈ (t :: turns).filterMap Turn.result? ↔
          t.result? = some result ∨ result ∈ turns.filterMap Turn.result? := by
      rw [List.filterMap_cons]
      cases t.result? <;> simp [eq_comm]
    obtain ⟨first, made⟩ := t.retains (free _ (by simp [entries])) calm
      fun result given => successes result (each.mpr (.inl given))
    obtain ⟨rest, later⟩ := ih free₁
      (fun result member => successes result (each.mpr (.inr member))) ends
    rw [Worker.files_of_turn? taken, ← files] at first
    refine ⟨first.trans rest, ?_⟩
    intro result member
    rcases each.mp member with given | member
    · have present := made result given
      rw [← files] at present
      exact rest.hasFile present
    · exact later result member

/-- A result that is no failure. -/
theorem DownloadResult.success_of_not_failure {result : DownloadResult}
    (success : result.isFailure = false) : ∃ size, result.outcome = .success size := by
  unfold isFailure at success
  split at success
  · rename_i size same
    exact ⟨size, same⟩
  · cases success

namespace DownloadList
variable {list : DownloadList}

/-- A batch that nothing ends has the files and the results of a whole run. -/
theorem download_finished {threads : Int} {files : FileTree} {network : Network}
    (none : (list.download threads files network).error = none) :
    ∃ turns w, Runs (list.worker files network) turns .none w ∧
      (list.download threads files network).files = w.files ∧
      (list.download threads files network).results = turns.filterMap Turn.result? := by
  rcases list.download_cases threads files network with ⟨crash, w, runs, batch⟩ | ⟨error, _, batch⟩
  · rw [batch] at none ⊢
    cases crash with
    | none => exact ⟨_, w, runs, rfl, runs.results⟩
    | some cause => cases none
  · rw [batch] at none
    cases none

variable (built : list.Built) (threads : Int) (files : FileTree) (network : Network)
  (none : (list.download threads files network).error = none)
  (successes : ∀ result ∈ (list.download threads files network).results, result.isFailure = false)
include built none successes

/-- A batch without a failure takes nothing away, and leaves a file at every destination. -/
theorem download_retains (free : ∀ p ∈ list.destinations, ¬ kept p.location) :
    files.Retains kept (list.download threads files network).files ∧
      ∀ p ∈ list.destinations, (list.download threads files network).files.HasFile p := by
  obtain ⟨_, all⟩ := list.download_results threads files network built
  have every := all none
  obtain ⟨turns, w, runs, left, results⟩ := download_finished none
  rw [left]
  rw [results] at successes every
  have clear : ∀ e ∈ (list.worker files network).entries, ¬ kept e.destination.location := by
    intro e member
    have listed := (list.worker_entries files network).mem_iff.mp member
    exact free _ ((mem_destinations built).mpr ⟨e, listed, rfl⟩)
  obtain ⟨retains, made⟩ := runs.retains clear successes
  refine ⟨retains, ?_⟩
  intro p member
  obtain ⟨result, given, rfl⟩ := every p member
  exact made result given

/-- A batch without a failure fulfils every entry, if the destinations have places of their own. -/
theorem download_fulfils
    (own : ∀ p ∈ list.destinations, ∀ q ∈ list.destinations, p.location = q.location → p = q) :
    ∀ entry ∈ list.entries,
      ∃ size, entry.IsFulfilled size (list.download threads files network).files := by
  obtain ⟨turns, w, runs, left, results⟩ := download_finished none
  rw [left]
  rw [results] at successes
  have waiting := list.worker_entries files network
  have distinct : (list.entries.map (·.destination.location)).Nodup := by
    refine List.pairwise_map.mpr ((List.pairwise_map.mp built.nodup_destinations).imp_of_mem ?_)
    intro a b listed listed' other same
    exact other (own _ ((mem_destinations built).mpr ⟨a, listed, rfl⟩) _
      ((mem_destinations built).mpr ⟨b, listed', rfl⟩) same)
  obtain ⟨left, perm, complete⟩ := runs.results_perm
  rw [complete rfl, List.append_nil] at perm
  intro entry listed
  have given := (perm.trans waiting).mem_iff.mpr listed
  obtain ⟨result, member, rfl⟩ := List.mem_map.mp given
  obtain ⟨size, good⟩ := DownloadResult.success_of_not_failure (successes result member)
  refine ⟨size, runs.isFulfilled ?_ member good⟩
  exact (waiting.map (·.destination.location)).nodup_iff.mpr distinct

end DownloadList

end Launcher
