import Launcher.Proofs.Download.Order
import Launcher.Proofs.Files.Presence

/-! What the outcome of a download says of its file. A download that was lost leaves no file, and
one that was not leaves a file whatever was found of its content. -/
namespace Launcher

namespace Worker
variable {entry : DownloadEntry} {reply : Reply} {before after : FileTree} {ending : JobEnd}

theorem verify_not_lost (entry : DownloadEntry) (body : Bytes) : ¬ (verify entry body).IsLost := by
  unfold verify verify.verifySha1
  simp only
  repeat' split
  all_goals exact id

theorem Effect.isFileAt_other (effect : Effect entry reply before ending after) {l : Location}
    (other : l ≠ entry.destination.location) : after.IsFileAt l ↔ before.IsFileAt l := by
  unfold FileTree.IsFileAt
  rcases effect.get?_other other with same | ⟨absent, made, _⟩
  · rw [same]
  · simp [absent, made]

/-- A job leaves a file at its destination exactly if it is not lost. -/
theorem Effect.hasFile_destination (effect : Effect entry reply before ending after)
    (opens : before.Opens entry.destination) (absent : ¬ before.HasFile entry.destination)
    (calm : ending ≠ .crashed .interrupted) :
    after.Opens entry.destination ∧
      (after.HasFile entry.destination ↔
        ∃ outcome, ending = .finished outcome ∧ ¬ outcome.IsLost) := by
  cases effect with
  | unwritten grows unwritten =>
    have advances : before.Advances (fun _ => False) after := .ofGrows _ grows
    refine ⟨advances.opens opens id, ?_⟩
    rw [advances.hasFile_iff opens id]
    refine iff_of_false absent ?_
    rintro ⟨outcome, rfl, kept⟩
    exact kept unwritten
  | stored _ wrote _ =>
    have present := FileTree.hasFile_write wrote
    exact ⟨present.opens, iff_of_true present ⟨_, rfl, verify_not_lost _ _⟩⟩
  | dropped _ _ taken =>
    have gone : ¬ after.IsFileAt entry.destination.location := by
      rintro ⟨content, file⟩
      rw [FileTree.get?_unlink taken, if_pos rfl] at file
      contradiction
    refine ⟨fun file => absurd file gone, iff_of_false ?_ ?_⟩
    · exact fun present => gone (FileTree.hasFile_iff.mp present).2.2
    · rintro ⟨outcome, same, kept⟩
      cases same
      exact kept trivial
  | abandoned => exact absurd rfl calm

theorem Effect.hasFile_other (effect : Effect entry reply before ending after) {p : Path}
    (other : p.location ≠ entry.destination.location) (opens : before.Opens p) :
    after.Opens p ∧ (after.HasFile p ↔ before.HasFile p) := by
  have same := effect.isFileAt_other other
  have keeps := effect.keepsDirectories
  exact ⟨opens.mono keeps same.mp, .of_mono opens keeps same.mp, fun h => h.mono keeps same.mpr⟩

end Worker

/-- What became of the last download to a path. -/
def lastOutcome (results : List DownloadResult) (p : Path) : Option DownloadOutcome :=
  (results.filter fun result => result.entry.destination = p).getLast?.map (·.outcome)

section LastOutcome
variable {results : List DownloadResult} {p : Path}

theorem lastOutcome_append (earlier later : List DownloadResult) (p : Path) :
    lastOutcome (earlier ++ later) p = (lastOutcome later p).or (lastOutcome earlier p) := by
  simp only [lastOutcome, List.filter_append, List.getLast?_append]
  cases (later.filter fun result => result.entry.destination = p).getLast? <;> rfl

theorem lastOutcome_eq_none :
    lastOutcome results p = none ↔ ∀ result ∈ results, result.entry.destination ≠ p := by
  simp [lastOutcome]

theorem lastOutcome_singleton (result : DownloadResult) :
    lastOutcome [result] result.entry.destination = some result.outcome := by
  simp [lastOutcome]

theorem lastOutcome_of_mem {result : DownloadResult}
    (distinct : (results.map (·.entry.destination)).Nodup) (member : result ∈ results) :
    lastOutcome results result.entry.destination = some result.outcome := by
  induction results with
  | nil => contradiction
  | cons first rest ih =>
    obtain ⟨alone, distinct⟩ := List.nodup_cons.mp distinct
    rw [← List.singleton_append, lastOutcome_append]
    rcases List.mem_cons.mp member with rfl | member
    · have none : lastOutcome rest result.entry.destination = none := by
        refine lastOutcome_eq_none.mpr fun other later same => alone ?_
        exact List.mem_map.mpr ⟨other, later, same⟩
      rw [none, Option.none_or, lastOutcome_singleton]
    · rw [ih distinct member, Option.some_or]

end LastOutcome

/-- Whether there is a file after some downloads to a path, if there was one before or not. -/
def Kept (results : List DownloadResult) (p : Path) (before : Prop) : Prop :=
  match lastOutcome results p with
  | some outcome => ¬ outcome.IsLost
  | none => before

/-- Between two file trees there were these downloads. Whether a path leads to a file tells of the
last one to it, or of the first tree if there was none. -/
structure FileTree.Tells (p : Path) (before : FileTree) (results : List DownloadResult)
    (after : FileTree) : Prop where
  opens : after.Opens p
  hasFile : after.HasFile p ↔ Kept results p (before.HasFile p)

namespace FileTree.Tells
variable {p : Path} {a b c : FileTree} {earlier later results : List DownloadResult}
  {outcome : DownloadOutcome}

theorem of_some (tells : Tells p a results b) (last : lastOutcome results p = some outcome) :
    b.HasFile p ↔ ¬ outcome.IsLost := by
  rw [tells.hasFile, Kept, last]

theorem of_none (tells : Tells p a results b) (none : lastOutcome results p = none) :
    b.HasFile p ↔ a.HasFile p := by
  rw [tells.hasFile, Kept, none]

theorem same (opens : b.Opens p) (same : b.HasFile p ↔ a.HasFile p)
    (none : lastOutcome results p = none) : Tells p a results b :=
  ⟨opens, by rw [same, Kept, none]⟩

/-- Nothing happens to the path after its downloads. -/
theorem after (tells : Tells p a results b) (opens : c.Opens p)
    (same : c.HasFile p ↔ b.HasFile p) : Tells p a results c :=
  ⟨opens, same.trans tells.hasFile⟩

theorem trans (first : Tells p a earlier b) (second : Tells p b later c) :
    Tells p a (earlier ++ later) c := by
  refine ⟨second.opens, ?_⟩
  rw [second.hasFile, Kept, Kept, lastOutcome_append]
  cases lastOutcome later p with
  | none => exact first.hasFile
  | some outcome => exact .rfl

end FileTree.Tells

/-- A turn that does not interrupt the batch tells of its download. -/
theorem Turn.tells {t : Turn} {p : Path} (opens : t.worker.files.Opens p)
    (own : t.job.entry.destination.location = p.location → t.job.entry.destination = p)
    (absent : t.job.entry.destination = p → ¬ t.worker.files.HasFile p)
    (calm : t.ending ≠ .crashed .interrupted) :
    FileTree.Tells p t.worker.files t.result?.toList t.after.files := by
  by_cases mine : t.job.entry.destination = p
  · subst mine
    obtain ⟨opens, left⟩ := t.effect.hasFile_destination opens (absent rfl) calm
    refine ⟨opens, left.trans ?_⟩
    unfold Kept Turn.result?
    cases t.ending with
    | finished outcome => simp [lastOutcome]
    | redirected target => simp [lastOutcome, absent rfl]
    | crashed cause => simp [lastOutcome, absent rfl]
  · obtain ⟨opens, same⟩ := t.effect.hasFile_other (fun at_ => mine (own at_.symm)) opens
    refine .same opens same (lastOutcome_eq_none.mpr fun result given => ?_)
    rw [(Turn.result?_some (Option.mem_toList.mp given)).1]
    exact mine

/-- What waits after a turn waited before it, and it is not of that which the turn had a result. -/
theorem Worker.waits_next {w w₁ : Worker} {t : Turn} (taken : w.turn? = some t)
    (onward : t.next? = some w₁) (distinct : (w.entries.map (·.destination)).Nodup) :
    (w₁.entries.map (·.destination)).Nodup ∧ ∀ e ∈ w₁.entries, e ∈ w.entries ∧
      ∀ result ∈ t.result?.toList, result.entry.destination ≠ e.destination := by
  rcases Worker.entries_next taken onward with ⟨redirected, again⟩ | ⟨_, rest⟩
  · refine ⟨(again.map _).nodup_iff.mpr distinct, fun e member => ⟨again.mem_iff.mp member, ?_⟩⟩
    simp [Turn.result?_of_redirected redirected]
  · rw [rest] at distinct ⊢
    obtain ⟨alone, distinct₁⟩ := List.nodup_cons.mp distinct
    refine ⟨distinct₁, fun e member => ⟨List.mem_cons_of_mem _ member, ?_⟩⟩
    intro result given same
    rw [(Turn.result?_some (Option.mem_toList.mp given)).1] at same
    exact alone (List.mem_map.mpr ⟨e, member, same.symm⟩)

/-- A run that is not interrupted tells of its downloads. -/
theorem Runs.tells {w w' : Worker} {turns : List Turn} {crash : Option CrashCause} {p : Path}
    (runs : Runs w turns crash w') (calm : crash ≠ some .interrupted)
    (distinct : (w.entries.map (·.destination)).Nodup)
    (own : ∀ e ∈ w.entries, e.destination.location = p.location → e.destination = p)
    (opens : w.files.Opens p) (absent : ∀ e ∈ w.entries, e.destination = p → ¬ w.files.HasFile p) :
    FileTree.Tells p w.files (turns.filterMap Turn.result?) w'.files := by
  induction runs with
  | done _ => exact .same opens .rfl rfl
  | @crashed w t cause taken ending =>
    have waits : t.job.entry ∈ w.entries := by simp [Worker.entries_of_turn? taken]
    rw [← Worker.files_of_turn? taken] at opens absent ⊢
    have going : t.ending ≠ .crashed .interrupted := by
      rw [ending]
      rintro ⟨⟩
      exact calm rfl
    simpa [Turn.result?, ending] using t.tells opens (own _ waits) (absent _ waits) going
  | @next w w₁ w' t turns crash taken onward runs ih =>
    have waits : t.job.entry ∈ w.entries := by simp [Worker.entries_of_turn? taken]
    obtain ⟨files, _, _⟩ := Turn.next?_some onward
    have going : t.ending ≠ .crashed .interrupted := by
      intro ending
      simp [Turn.next?, ending] at onward
    rw [← Worker.files_of_turn? taken] at opens absent ⊢
    have first := t.tells opens (own _ waits) (absent _ waits) going
    rw [← files] at first
    have results : (t :: turns).filterMap Turn.result? =
        t.result?.toList ++ turns.filterMap Turn.result? := by
      rw [List.filterMap_cons]
      cases t.result? <;> rfl
    rw [results]
    obtain ⟨distinct₁, waiting⟩ := Worker.waits_next taken onward distinct
    have own₁ := fun e member => own e (waiting e member).1
    refine first.trans (ih calm distinct₁ own₁ first.opens ?_)
    -- What still waits has no result yet, so it is as absent as before the turn.
    intro e member mine
    obtain ⟨inside, none⟩ := waiting e member
    rw [first.of_none (lastOutcome_eq_none.mpr (mine ▸ none))]
    exact absent e inside mine

namespace DownloadList
variable {list : DownloadList} {p : Path} (threads : Int) (files : FileTree) (network : Network)

theorem mem_destinations (built : list.Built) :
    p ∈ list.destinations ↔ ∃ entry ∈ list.entries, entry.destination = p := by
  rw [← built.destinations.1.mem_iff, List.mem_map]

/-- The results of a batch are of its entries, and all entries have one if nothing ends it. -/
theorem download_results (built : list.Built) :
    (∀ result ∈ (list.download threads files network).results,
      result.entry.destination ∈ list.destinations) ∧
    ((list.download threads files network).error = none → ∀ q ∈ list.destinations,
      ∃ result ∈ (list.download threads files network).results, result.entry.destination = q) := by
  rcases list.download_cases threads files network with ⟨crash, w, runs, batch⟩ | ⟨error, _, batch⟩
  · obtain ⟨left, perm, complete⟩ := runs.results_perm
    have waiting := perm.trans (list.worker_entries files network)
    have results : (list.ended crash w).results = _ := runs.results
    rw [batch, results]
    refine ⟨fun result member => ?_, fun ends q member => ?_⟩
    · refine (mem_destinations built).mpr ⟨_, waiting.mem_iff.mp ?_, rfl⟩
      exact List.mem_append_left _ (List.mem_map_of_mem member)
    · obtain ⟨entry, listed, rfl⟩ := (mem_destinations built).mp member
      have finished : crash = none := by
        cases crash with
        | none => rfl
        | some cause => cases ends
      rw [complete finished, List.append_nil] at waiting
      obtain ⟨result, given, rfl⟩ := List.mem_map.mp (waiting.mem_iff.mpr listed)
      exact ⟨result, given, rfl⟩
  · rw [batch]
    exact ⟨fun _ member => by contradiction, fun ends => by contradiction⟩

theorem nodup_results (built : list.Built) :
    ((list.download threads files network).results.map (·.entry.destination)).Nodup := by
  rcases list.download_cases threads files network with ⟨crash, w, runs, batch⟩ | ⟨error, _, batch⟩
  · obtain ⟨left, perm, _⟩ := runs.results_perm
    have waiting := perm.trans (list.worker_entries files network)
    have distinct := (waiting.map (·.destination)).nodup_iff.mpr built.nodup_destinations
    have results : (list.ended crash w).results = _ := runs.results
    rw [List.map_append, List.map_map] at distinct
    rw [batch, results]
    exact (List.nodup_append.mp distinct).1
  · rw [batch]
    exact .nil

/-- A batch that is not interrupted tells of its downloads. -/
theorem download_tells (built : list.Built)
    (calm : (list.download threads files network).error ≠ some (.crashed .interrupted))
    (own : ∀ q ∈ list.destinations, q.location = p.location → q = p)
    (opens : files.Opens p) (absent : p ∈ list.destinations → ¬ files.HasFile p) :
    FileTree.Tells p files (list.download threads files network).results
      (list.download threads files network).files := by
  rcases list.download_cases threads files network with ⟨crash, w, runs, batch⟩ | ⟨error, _, batch⟩
  · have waiting := list.worker_entries files network
    have results : (list.ended crash w).results = _ := runs.results
    have listed (e : DownloadEntry) (member : e ∈ (list.worker files network).entries) :
        e.destination ∈ list.destinations :=
      (mem_destinations built).mpr ⟨e, waiting.mem_iff.mp member, rfl⟩
    rw [batch] at calm ⊢
    rw [results]
    refine runs.tells ?_ ?_ (fun e member => own _ (listed e member)) opens ?_
    · rintro rfl
      exact calm rfl
    · exact (waiting.map _).nodup_iff.mpr built.nodup_destinations
    · exact fun e member mine => absent (mine ▸ listed e member)
  · rw [batch]
    exact .same opens .rfl rfl

end DownloadList
end Launcher
