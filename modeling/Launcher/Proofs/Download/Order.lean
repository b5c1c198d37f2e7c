import Launcher.Proofs.Download.Listing

/-! The order of results. A worker goes through its queue level by level: the entries that were put
back once come after all others, those put back twice after them, and so on. -/
namespace Launcher

/-- How often turns put an entry back into the queue. -/
def redirections (turns : List Turn) (entry : DownloadEntry) : Nat :=
  turns.countP fun t => t.isRedirected && t.job.entry = entry

/-- Entries by levels, and those of one level as they stood ahead of each other at first. -/
def Precedes (ahead : DownloadEntry → DownloadEntry → Prop) (level : DownloadEntry → Nat)
    (a b : DownloadEntry) : Prop :=
  level a < level b ∨ (level a = level b ∧ ahead a b)

/-- How two entries of a queue relate: they are of one level, or the second one was ahead and has
been put back since. -/
def Follows (ahead : DownloadEntry → DownloadEntry → Prop) (level : DownloadEntry → Nat)
    (a b : DownloadEntry) : Prop :=
  (level a = level b ∧ ahead a b) ∨ (level b = level a + 1 ∧ ahead b a)

theorem redirections_cons (t : Turn) (turns : List Turn) (entry : DownloadEntry) :
    redirections (t :: turns) entry =
      redirections turns entry + if t.isRedirected ∧ t.job.entry = entry then 1 else 0 := by
  simp [redirections, List.countP_cons]

theorem Batch.delivered_numbers (batch : Batch) :
    batch.delivered.map (·.1) = List.range' 1 batch.results.length := by
  have numbers := List.zipIdx_map_snd 0 batch.results
  rw [delivered, List.map_map, ← List.map_add_range' 0, ← numbers, List.map_map]
  exact List.map_congr_left fun numbered _ => Nat.add_comm _ _

theorem Batch.delivered_results (batch : Batch) : batch.delivered.map (·.2) = batch.results := by
  rw [delivered, List.map_map]
  exact List.zipIdx_map_fst 0 batch.results

section Levels
variable {ahead : DownloadEntry → DownloadEntry → Prop} {level : DownloadEntry → Nat}

/-- Putting the first entry back, one level further, keeps the queue in order. -/
theorem pairwise_follows_rotate {entry : DownloadEntry} {rest : List DownloadEntry}
    (fresh : entry ∉ rest) (ordered : (entry :: rest).Pairwise (Follows ahead level)) :
    (rest ++ [entry]).Pairwise
      (Follows ahead fun e => if e = entry then level e + 1 else level e) := by
  obtain ⟨first, ordered⟩ := List.pairwise_cons.mp ordered
  have other {a : DownloadEntry} (member : a ∈ rest) : a ≠ entry := by
    rintro rfl
    exact fresh member
  refine List.pairwise_append.mpr ⟨ordered.imp_of_mem ?_, List.pairwise_singleton _ _, ?_⟩
  · intro a b inside inside' follows
    simpa only [Follows, if_neg (other inside), if_neg (other inside')] using follows
  · intro a inside b last
    obtain rfl := List.mem_singleton.mp last
    simp only [Follows, if_neg (other inside), if_pos]
    rcases first a inside with ⟨same, before⟩ | ⟨further, before⟩
    · exact .inr ⟨by omega, before⟩
    · exact .inl ⟨further, before⟩

/-- An entry that stays on its level precedes what follows it, however far that goes. -/
theorem Follows.precedes {a b : DownloadEntry} (follows : Follows ahead level a b)
    {final : DownloadEntry → Nat} (stays : final a = level a) (grows : level b ≤ final b) :
    Precedes ahead final a b := by
  rcases follows with ⟨same, before⟩ | ⟨further, _⟩
  · by_cases still : final b = level b
    · exact .inr ⟨by omega, before⟩
    · exact .inl (by omega)
  · exact .inl (by omega)

end Levels

namespace Runs
variable {w w' : Worker} {turns : List Turn} {crash : Option CrashCause}
variable {ahead : DownloadEntry → DownloadEntry → Prop}

/-- Each entry gives one result at most, and exactly one if no turn crashes. -/
theorem results_perm (runs : Runs w turns crash w') :
    ∃ left, ((turns.filterMap Turn.result?).map (·.entry) ++ left).Perm w.entries ∧
      (crash = none → left = []) := by
  induction runs with
  | @done w empty => exact ⟨[], by simp [Worker.entries, empty], fun _ => rfl⟩
  | @crashed w t cause taken ending =>
    refine ⟨w.entries, by simp [Turn.result?, ending], ?_⟩
    rintro ⟨⟩
  | @next w w₁ w' t turns crash taken onward runs ih =>
    obtain ⟨left, same, complete⟩ := ih
    refine ⟨left, ?_, complete⟩
    rcases Worker.entries_next taken onward with ⟨redirected, again⟩ | ⟨final, rest⟩
    · rw [List.filterMap_cons, Turn.result?_of_redirected redirected]
      exact same.trans again
    · obtain ⟨result, given⟩ := Turn.result?_of_final onward final
      rw [List.filterMap_cons, given, rest]
      simpa [(Turn.result?_some given).1] using same

theorem results_precede (runs : Runs w turns crash w') (level : DownloadEntry → Nat)
    (nodup : w.entries.Nodup) (ordered : w.entries.Pairwise (Follows ahead level)) :
    ((turns.filterMap Turn.result?).map (·.entry)).Pairwise
      (Precedes ahead fun e => level e + redirections turns e) := by
  induction runs generalizing level with
  | done _ => exact .nil
  | crashed taken ending => simp [Turn.result?, ending]
  | @next w w₁ w' t turns crash taken onward runs ih =>
    have waiting := Worker.entries_of_turn? taken
    have after := (Turn.next?_some onward).2.2
    rw [waiting] at nodup ordered
    obtain ⟨fresh, nodup₁⟩ := List.nodup_cons.mp nodup
    cases redirected : t.isRedirected with
    | true =>
      rw [redirected, if_pos rfl] at after
      -- The turn counts for its entry, so the entry stands one level further in what remains.
      have total : (fun e => level e + redirections (t :: turns) e) = fun e =>
          (if e = t.job.entry then level e + 1 else level e) + redirections turns e := by
        funext e
        rw [redirections_cons]
        by_cases mine : e = t.job.entry
        · simp only [redirected, mine, and_self, if_true]
          omega
        · simp [mine, Ne.symm mine]
      rw [List.filterMap_cons, Turn.result?_of_redirected redirected, total]
      refine ih _ ?_ ?_
      · rw [after]
        exact (List.perm_append_singleton _ _).nodup_iff.mpr nodup
      · rw [after]
        exact pairwise_follows_rotate fresh ordered
    | false =>
      simp only [redirected, Bool.false_eq_true, if_false, List.append_nil] at after
      obtain ⟨first, ordered₁⟩ := List.pairwise_cons.mp ordered
      have total : (fun e => level e + redirections (t :: turns) e) =
          fun e => level e + redirections turns e := by
        funext e
        simp [redirections_cons, redirected]
      obtain ⟨result, given⟩ := Turn.result?_of_final onward redirected
      rw [List.filterMap_cons, given, total, List.map_cons, List.pairwise_cons]
      rw [after] at ih
      refine ⟨?_, ih level nodup₁ ordered₁⟩
      intro b member
      obtain ⟨left, same, _⟩ := runs.results_perm
      rw [after] at same
      have waits := same.mem_iff.mp (List.mem_append_left left member)
      have never : redirections turns t.job.entry = 0 := by
        refine List.countP_eq_zero.mpr fun t' later same => fresh ?_
        have entry := runs.entry_mem later
        simp only [Bool.and_eq_true, decide_eq_true_eq] at same
        rw [after, same.2] at entry
        exact entry
      rw [(Turn.result?_some given).1]
      exact (first b waits).precedes (by simp [never]) (Nat.le_add_right _ _)

end Runs

namespace DownloadList
variable {list : DownloadList}

/-- Bigger entries stand ahead, and of entries of one weight the one that was added first. -/
def Ahead (list : DownloadList) (a b : DownloadEntry) : Prop :=
  b.weight < a.weight ∨
    (a.weight = b.weight ∧ list.entries.idxOf a < list.entries.idxOf b)

theorem idxOf_of_mem_zipIdx (nodup : list.entries.Nodup) {numbered : DownloadJob × Nat}
    (member : numbered ∈ list.jobs.zipIdx) :
    list.entries.idxOf numbered.1.entry = numbered.2 := by
  have job := List.mem_zipIdx_iff_getElem?.mp member
  have entry : list.entries[numbered.2]? = some numbered.1.entry := by
    rw [entries, List.getElem?_map, job]
    rfl
  obtain ⟨inside, same⟩ := List.getElem?_eq_some_iff.mp entry
  rw [← same]
  exact nodup.idxOf_getElem _ inside

/-- The order of a download: no entry stands ahead of one before it. -/
theorem sorted_ahead (nodup : list.entries.Nodup) : list.sorted.entries.Pairwise list.Ahead := by
  let le (a b : DownloadJob) : Bool := decide (b.entry.weight ≤ a.entry.weight)
  have transitive (a b c : DownloadJob) : le a b → le b c → le a c := by
    simp only [le, decide_eq_true_eq]
    omega
  have total (a b : DownloadJob) : le a b || le b a := by
    simp only [le, Bool.or_eq_true, decide_eq_true_eq]
    omega
  -- The sort is stable: numbering the jobs first and comparing numbers last gives the same list.
  let numbered := list.jobs.zipIdx.mergeSort (List.zipIdxLE le)
  have stable : numbered.map (·.1) = list.sorted.jobs := List.mergeSort_zipIdx
  have ordered : numbered.Pairwise fun a b => List.zipIdxLE le a b :=
    List.pairwise_mergeSort (List.zipIdxLE_trans transitive) (List.zipIdxLE_total total) _
  have same : numbered.Perm list.jobs.zipIdx := List.mergeSort_perm _ _
  have distinct : numbered.Pairwise fun a b => a.2 ≠ b.2 := by
    refine (same.pairwise_iff fun other => other.symm).mpr (List.pairwise_map.mp ?_)
    rw [List.zipIdx_map_snd]
    exact List.nodup_range'
  have entriesEq : list.sorted.entries = numbered.map (·.1.entry) := by
    rw [entries, ← stable, List.map_map]
    rfl
  rw [entriesEq, List.pairwise_map]
  refine (ordered.and distinct).imp_of_mem ?_
  rintro a b inside inside' ⟨below, other⟩
  have number := idxOf_of_mem_zipIdx nodup (same.mem_iff.mp inside)
  have number' := idxOf_of_mem_zipIdx nodup (same.mem_iff.mp inside')
  simp only [List.zipIdxLE, le, decide_eq_true_eq] at below
  by_cases bigger : b.1.entry.weight < a.1.entry.weight
  · exact .inl bigger
  · split at below
    · rw [if_pos (by omega), decide_eq_true_eq] at below
      exact .inr ⟨by omega, by omega⟩
    · contradiction

/-- The results are numbered from one on and come by redirections, then by weight, then in the order
in which their entries were added. If no job crashes there is one for each entry; a crash comes
after all results and after all requests. -/
theorem download_delivers (built : list.Built) {threads : Int} (positive : 1 ≤ threads)
    (files : FileTree) (network : Network)
    (ends : (list.download threads files network).error ≠ some .unending) :
    let batch := list.download threads files network
    let turns := list.turns threads files network
    batch.delivered.map (·.1) = List.range' 1 batch.results.length ∧
    batch.delivered.map (·.2) = batch.results ∧
    (batch.results.map (·.entry)).Pairwise (Precedes list.Ahead (redirections turns)) ∧
    (∃ sent, sent.Sublist (turns.map (·.job.target.url)) ∧
      batch.network.requests = network.requests ++ sent) ∧
    ((batch.error = none ∧ (batch.results.map (·.entry)).Perm list.entries) ∨
      ∃ cause earlier last, batch.error = some (.crashed cause) ∧
        (batch.results.map (·.entry)).Nodup ∧ batch.results.map (·.entry) ⊆ list.entries ∧
        turns = earlier ++ [last] ∧ last.ending = .crashed cause ∧
        batch.network = last.after.network) := by
  intro batch turns
  obtain ⟨crash, w, runs, same⟩ : ∃ crash w,
      Runs (list.worker files network) turns crash w ∧ batch = list.ended crash w := by
    rcases list.download_cases threads files network with ran | ⟨_, unending | ⟨none, _⟩, same⟩
    · exact ran
    · rw [same, unending] at ends
      contradiction
    · omega
  have waiting := list.worker_entries files network
  have nodup : (list.worker files network).entries.Nodup := waiting.nodup_iff.mpr built.nodup
  have results : batch.results = turns.filterMap Turn.result? := by
    rw [same]
    exact runs.results
  obtain ⟨left, perm, complete⟩ := runs.results_perm
  rw [← results] at perm
  refine ⟨batch.delivered_numbers, batch.delivered_results, ?_, ?_, ?_⟩
  · have level : (list.worker files network).entries.Pairwise (Follows list.Ahead fun _ => 0) :=
      (sorted_ahead built.nodup).imp fun before => .inl ⟨rfl, before⟩
    simpa [results] using runs.results_precede _ nodup level
  · obtain ⟨sent, inside, requests⟩ := runs.requests
    exact ⟨sent, inside, by rw [same]; exact requests⟩
  · cases crash with
    | none =>
      refine .inl ⟨by rw [same]; rfl, ?_⟩
      rw [complete rfl, List.append_nil] at perm
      exact perm.trans waiting
    | some cause =>
      obtain ⟨earlier, last, split, ending, rfl⟩ := runs.last
      refine .inr
        ⟨cause, earlier, last, by rw [same]; rfl, ?_, ?_, split, ending, by rw [same]; rfl⟩
      · exact (List.nodup_append.mp (perm.nodup_iff.mpr nodup)).1
      · intro entry given
        exact waiting.mem_iff.mp (perm.mem_iff.mp (List.mem_append_left left given))

/-- A network on which the outer file has moved, so that the inner one comes before it. -/
def moved : Network :=
  ⟨[("http://h/a", [.response 301 [("Location", "/c")] [] none]),
    ("http://h/b", [.response 200 [] [3] none])], [], 0⟩

theorem download_delivers_nested :
    ((nested.download 1 .empty moved).results.map (·.entry)).Pairwise
        (Precedes nested.Ahead (redirections (nested.turns 1 .empty moved))) ∧
      (nested.download 1 .empty moved).results.map (·.entry) = [inner.entry, outer.entry] := by
  have ends : (nested.download 1 .empty moved).error ≠ some .unending := by
    rw [download, nested_sorted]
    decide +kernel
  refine ⟨(download_delivers nested_built (by decide) .empty moved ends).2.2.1, ?_⟩
  rw [download, nested_sorted]
  decide +kernel

end DownloadList
end Launcher
