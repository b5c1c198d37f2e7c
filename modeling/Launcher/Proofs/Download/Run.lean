import Launcher.Proofs.Download.Turn

/-! Runs of a worker as sequences of turns. A run is finished by an empty queue or by a crash, and
the bounded loop of a worker finds exactly the runs that its bound allows. -/
namespace Launcher

namespace Worker

/-- The entries that wait, in the order of the queue. -/
def entries (w : Worker) : List DownloadEntry := w.queue.map (·.entry)

/-- The turn that comes next. -/
def turn? (w : Worker) : Option Turn :=
  match w.queue with
  | [] => none
  | job :: rest => some ⟨{ w with queue := rest }, job⟩

end Worker

namespace Turn

/-- The worker as it goes on: the outcome of the job is noted, or the job is put back into the
queue with its new target. A crash ends the work. -/
def next? (t : Turn) : Option Worker :=
  match t.ending with
  | .finished outcome =>
    some { t.after with results := t.after.results ++ [⟨t.job.entry, outcome⟩] }
  | .redirected target => some { t.after with queue := t.after.queue ++ [⟨target, t.job.entry⟩] }
  | .crashed _ => none

/-- The result that a turn gives. -/
def result? (t : Turn) : Option DownloadResult :=
  match t.ending with
  | .finished outcome => some ⟨t.job.entry, outcome⟩
  | _ => none

/-- Whether a turn puts its job back into the queue. -/
def isRedirected (t : Turn) : Bool :=
  match t.ending with
  | .redirected _ => true
  | _ => false

/-- A worker goes on with what the turn left, and with its entry in the queue again if the turn was
redirected. -/
theorem next?_some {t : Turn} {w : Worker} (onward : t.next? = some w) :
    w.files = t.after.files ∧ w.network = t.after.network ∧
      w.entries = t.worker.entries ++ (if t.isRedirected then [t.job.entry] else []) := by
  unfold next? at onward
  split at onward
  · rename_i ending
    obtain rfl := Option.some.inj onward
    simp [Worker.entries, isRedirected, ending, t.after_queue]
  · rename_i ending
    obtain rfl := Option.some.inj onward
    simp [Worker.entries, isRedirected, ending, t.after_queue]
  · contradiction

theorem result?_some {t : Turn} {result : DownloadResult} (given : t.result? = some result) :
    result.entry = t.job.entry ∧ t.ending = .finished result.outcome := by
  unfold result? at given
  split at given
  · rename_i ending
    obtain rfl := Option.some.inj given
    exact ⟨rfl, ending⟩
  · contradiction

/-- A turn that is neither redirected nor the last gives a result. -/
theorem result?_of_final {t : Turn} {w : Worker} (onward : t.next? = some w)
    (final : t.isRedirected = false) : ∃ result, t.result? = some result := by
  unfold next? at onward
  unfold isRedirected at final
  unfold result?
  cases ending : t.ending with
  | finished outcome => exact ⟨⟨t.job.entry, outcome⟩, rfl⟩
  | redirected target => simp [ending] at final
  | crashed cause => simp [ending] at onward

theorem result?_of_redirected {t : Turn} (redirected : t.isRedirected) : t.result? = none := by
  unfold isRedirected at redirected
  unfold result?
  split at redirected
  · simp [*]
  · contradiction

end Turn

/-- The turns of a worker, as many as `fuel` at most. -/
def Worker.turns : (fuel : Nat) → Worker → List Turn
  | 0, _ => []
  | fuel + 1, w =>
    match w.turn? with
    | none => []
    | some t =>
      t :: match t.next? with
        | none => []
        | some w => turns fuel w

/-- The turns of a worker until its end, the fault that ends it early, and the worker it leaves. -/
inductive Runs : Worker → List Turn → Option CrashCause → Worker → Prop
  | done {w : Worker} : w.queue = [] → Runs w [] none w
  | crashed {w : Worker} {t : Turn} {cause : CrashCause} : w.turn? = some t →
      t.ending = .crashed cause → Runs w [t] (some cause) t.after
  | next {w w₁ w' : Worker} {t : Turn} {turns : List Turn} {crash : Option CrashCause} :
      w.turn? = some t → t.next? = some w₁ → Runs w₁ turns crash w' →
      Runs w (t :: turns) crash w'

namespace Worker
variable {w w' : Worker} {t : Turn} {turns : List Turn} {crash : Option CrashCause}

theorem queue_of_turn? (h : w.turn? = some t) :
    w.queue = t.job :: t.worker.queue ∧ t.worker = { w with queue := t.worker.queue } := by
  unfold turn? at h
  split at h
  · contradiction
  · rename_i queue
    obtain rfl := Option.some.inj h
    exact ⟨queue, rfl⟩

theorem entries_of_turn? (h : w.turn? = some t) :
    w.entries = t.job.entry :: t.worker.entries := by
  rw [entries, (queue_of_turn? h).1]
  rfl

theorem turn?_eq_none : w.turn? = none ↔ w.queue = [] := by
  unfold turn?
  cases w.queue <;> simp

theorem files_of_turn? (h : w.turn? = some t) : t.worker.files = w.files := by
  rw [(queue_of_turn? h).2]

theorem network_of_turn? (h : w.turn? = some t) : t.worker.network = w.network := by
  rw [(queue_of_turn? h).2]

theorem results_of_turn? (h : w.turn? = some t) : t.worker.results = w.results := by
  rw [(queue_of_turn? h).2]

theorem entries_next {w₁ : Worker} (taken : w.turn? = some t) (onward : t.next? = some w₁) :
    (t.isRedirected ∧ w₁.entries.Perm w.entries) ∨
      (t.isRedirected = false ∧ w.entries = t.job.entry :: w₁.entries) := by
  have waiting := (Turn.next?_some onward).2.2
  rw [entries_of_turn? taken, waiting]
  cases redirected : t.isRedirected with
  | true => exact .inl ⟨rfl, List.perm_append_singleton _ _⟩
  | false => exact .inr ⟨rfl, by simp⟩

theorem run_succ (fuel : Nat) (w : Worker) :
    run (fuel + 1) w =
      match w.turn? with
      | none => some (none, w)
      | some t =>
        match t.next? with
        | some w => run fuel w
        | none =>
          match t.ending with
          | .crashed cause => some (some cause, t.after)
          | _ => none := by
  rw [run]
  rcases queue : w.queue with _ | ⟨job, rest⟩
  · simp only [turn?, queue]
  · simp only [turn?, queue, Turn.next?, Turn.ending, Turn.after]
    generalize Worker.process _ job = processed
    obtain ⟨_ | _ | _, _⟩ := processed <;> rfl

/-- The bounded loop finds a run exactly if there is one of no more turns. -/
theorem run_iff {fuel : Nat} :
    run fuel w = some (crash, w') ↔ ∃ turns, turns.length ≤ fuel ∧ Runs w turns crash w' := by
  induction fuel generalizing w with
  | zero =>
    constructor
    · intro h
      unfold run at h
      split at h
      · rename_i empty
        obtain ⟨rfl, rfl⟩ := Prod.mk.inj (Option.some.inj h)
        exact ⟨[], Nat.le_refl _, .done empty⟩
      · contradiction
    · rintro ⟨turns, short, runs⟩
      cases runs with
      | done empty => simp [run, empty]
      | crashed _ _ => simp at short
      | next _ _ _ => simp at short
  | succ fuel ih =>
    rw [run_succ]
    constructor
    · intro h
      rcases taken : w.turn? with _ | t
      · rw [taken] at h
        obtain ⟨rfl, rfl⟩ := Prod.mk.inj (Option.some.inj h)
        exact ⟨[], Nat.zero_le _, .done (turn?_eq_none.mp taken)⟩
      · rw [taken] at h
        rcases onward : t.next? with _ | w₁
        · simp only [onward] at h
          split at h
          · rename_i cause ending
            obtain ⟨rfl, rfl⟩ := Prod.mk.inj (Option.some.inj h)
            exact ⟨[t], by simp, .crashed taken ending⟩
          · contradiction
        · simp only [onward] at h
          obtain ⟨turns, short, runs⟩ := ih.mp h
          exact ⟨t :: turns, by simpa using short, .next taken onward runs⟩
    · rintro ⟨turns, short, runs⟩
      cases runs with
      | done empty => rw [turn?_eq_none.mpr empty]
      | crashed taken ending =>
        rw [taken]
        simp only [Turn.next?, ending]
      | next taken onward runs =>
        rw [taken]
        simp only [onward]
        exact ih.mpr ⟨_, by simpa using short, runs⟩

end Worker

namespace Runs
variable {w w' : Worker} {turns : List Turn} {crash : Option CrashCause}

/-- The results are those of the turns, in their order. -/
theorem results (runs : Runs w turns crash w') :
    w'.results = w.results ++ turns.filterMap Turn.result? := by
  induction runs with
  | done _ => simp
  | @crashed w t cause taken ending =>
    rw [t.after_results, Worker.results_of_turn? taken]
    simp [Turn.result?, ending]
  | @next w w₁ w' t turns crash taken onward _ ih =>
    have gives : w₁.results = w.results ++ t.result?.toList := by
      rw [← Worker.results_of_turn? taken, ← t.after_results]
      unfold Turn.next? at onward
      split at onward
      · obtain rfl := Option.some.inj onward
        simp [Turn.result?, *]
      · obtain rfl := Option.some.inj onward
        simp [Turn.result?, *]
      · contradiction
    rw [ih, gives]
    rcases given : t.result? with _ | _ <;> simp [given]

/-- Entries are taken from the queue alone, however often they are put back. -/
theorem entry_mem (runs : Runs w turns crash w') {t : Turn} (member : t ∈ turns) :
    t.job.entry ∈ w.entries := by
  induction runs with
  | done _ => contradiction
  | crashed taken _ =>
    obtain rfl := List.mem_singleton.mp member
    rw [Worker.entries_of_turn? taken]
    exact List.mem_cons_self
  | next taken onward _ ih =>
    rw [Worker.entries_of_turn? taken]
    rcases List.mem_cons.mp member with rfl | member
    · exact List.mem_cons_self
    · have entries := (Turn.next?_some onward).2.2
      have again := ih member
      rw [entries, List.mem_append] at again
      rcases again with waiting | put
      · exact List.mem_cons_of_mem _ waiting
      · split at put
        · rw [List.mem_singleton.mp put]
          exact List.mem_cons_self
        · contradiction

/-- What every turn keeps of the file tree, the run keeps. -/
theorem files_invariant {motive : FileTree → Prop} (runs : Runs w turns crash w')
    (step : ∀ t ∈ turns, motive t.worker.files → motive t.after.files) (h : motive w.files) :
    motive w'.files := by
  induction runs with
  | done _ => exact h
  | @crashed w t _ taken _ =>
    rw [← Worker.files_of_turn? taken] at h
    exact step t List.mem_cons_self h
  | @next w w₁ w' t turns crash taken onward _ ih =>
    rw [← Worker.files_of_turn? taken] at h
    refine ih (fun t member => step t (List.mem_cons_of_mem _ member)) ?_
    rw [(Turn.next?_some onward).1]
    exact step t List.mem_cons_self h

/-- A run that crashes ends with the turn that crashes, and what that leaves is left. -/
theorem last {cause : CrashCause} (runs : Runs w turns (some cause) w') :
    ∃ earlier last, turns = earlier ++ [last] ∧ last.ending = .crashed cause ∧ w' = last.after := by
  generalize ends : some cause = crash at runs
  induction runs with
  | done _ => contradiction
  | crashed _ ending =>
    cases ends
    exact ⟨[], _, rfl, ending, rfl⟩
  | @next _ _ _ t _ _ _ _ _ ih =>
    obtain ⟨earlier, last, rfl, ending, left⟩ := ih ends
    exact ⟨t :: earlier, last, rfl, ending, left⟩

/-- Every turn makes one request at most, and none is made but by turns. -/
theorem requests (runs : Runs w turns crash w') :
    ∃ sent, sent.Sublist (turns.map (·.job.target.url)) ∧
      w'.network.requests = w.network.requests ++ sent := by
  induction runs with
  | done _ => exact ⟨[], .refl _, (List.append_nil _).symm⟩
  | @crashed w t _ taken _ =>
    obtain ⟨sent, inside, sends⟩ := t.sends
    exact ⟨sent, inside, by rw [sends.requests, Worker.network_of_turn? taken]⟩
  | @next w w₁ w' t turns _ taken onward _ ih =>
    obtain ⟨sent, inside, sends⟩ := t.sends
    obtain ⟨later, within, rest⟩ := ih
    refine ⟨sent ++ later, inside.append within, ?_⟩
    rw [rest, (Turn.next?_some onward).2.1, sends.requests, Worker.network_of_turn? taken,
      List.append_assoc]

theorem turns_eq (runs : Runs w turns crash w') {fuel : Nat} (short : turns.length ≤ fuel) :
    w.turns fuel = turns := by
  induction runs generalizing fuel with
  | done empty =>
    cases fuel with
    | zero => rfl
    | succ fuel => rw [Worker.turns, Worker.turn?_eq_none.mpr empty]
  | crashed taken ending =>
    cases fuel with
    | zero => simp at short
    | succ fuel => simp [Worker.turns, taken, Turn.next?, ending]
  | next taken onward _ ih =>
    cases fuel with
    | zero => simp at short
    | succ fuel => simp [Worker.turns, taken, onward, ih (by simpa using short)]

/-- A worker has one run at most. -/
theorem unique {turns' : List Turn} {crash' : Option CrashCause} {w'' : Worker}
    (runs : Runs w turns crash w') (runs' : Runs w turns' crash' w'') :
    crash = crash' ∧ w' = w'' := by
  have ran := Worker.run_iff.mpr ⟨turns, Nat.le_max_left turns.length turns'.length, runs⟩
  have ran' := Worker.run_iff.mpr ⟨turns', Nat.le_max_right turns.length turns'.length, runs'⟩
  exact Prod.mk.inj (Option.some.inj (ran.symm.trans ran'))

end Runs

namespace DownloadList

/-- A list whose big files come first is in the order of its download. -/
theorem sorted_eq {list : DownloadList}
    (ordered : list.jobs.Pairwise fun a b => b.entry.weight ≤ a.entry.weight) :
    list.sorted = list := by
  have same := List.mergeSort_of_pairwise (ordered.imp fun h => decide_eq_true h)
  rw [sorted, same]

/-- The worker that a batch starts with. -/
def worker (list : DownloadList) (files : FileTree) (network : Network) : Worker :=
  ⟨list.sorted.jobs, [], [], files, network⟩

/-- The entries of a list, in the order in which they were added. -/
def entries (list : DownloadList) : List DownloadEntry := list.jobs.map (·.entry)

theorem worker_entries (list : DownloadList) (files : FileTree) (network : Network) :
    (list.worker files network).entries.Perm list.entries :=
  (List.mergeSort_perm _ _).map _

/-- The turns of a batch, none without threads. -/
def turns (list : DownloadList) (threads : Int) (files : FileTree) (network : Network) :
    List Turn :=
  if threads < 1 then []
  else (list.worker files network).turns (Worker.bound network list.sorted.jobs.length)

/-- What a batch is if the worker comes to its end. -/
def ended (list : DownloadList) (crash : Option CrashCause) (w : Worker) : Batch :=
  ⟨list.sorted, w.results, crash.map .crashed, w.files, w.network⟩

/-- A batch is what the run of its worker leaves. Without threads it is refused, and an endless
one has no result. -/
theorem download_cases (list : DownloadList) (threads : Int) (files : FileTree)
    (network : Network) :
    (∃ crash w, Runs (list.worker files network) (list.turns threads files network) crash w ∧
      list.download threads files network = list.ended crash w) ∨
    ∃ error, (error = .unending ∨
        threads < 1 ∧ list.turns threads files network = [] ∧ ∃ n, error = .noThread n) ∧
      list.download threads files network = ⟨list.sorted, [], some error, files, network⟩ := by
  unfold download turns
  simp only
  by_cases empty : list.sorted.jobs = []
  · have runs : Runs (list.worker files network) [] none (list.worker files network) := .done empty
    rw [if_pos empty, runs.turns_eq (Nat.zero_le _), ite_self]
    exact .inl ⟨none, _, runs, rfl⟩
  · rw [if_neg empty]
    by_cases none : threads < 1
    · rw [if_pos none, if_pos none]
      exact .inr ⟨_, .inr ⟨none, rfl, _, rfl⟩, rfl⟩
    · rw [if_neg none, if_neg none]
      split
      · exact .inr ⟨_, .inl rfl, rfl⟩
      · rename_i crash w ran
        obtain ⟨turns, short, runs⟩ := Worker.run_iff.mp ran
        rw [show (list.worker files network).turns _ = turns from runs.turns_eq short]
        exact .inl ⟨crash, w, runs, rfl⟩

/-- With threads a batch that ends is what the run of its worker leaves. -/
theorem download_ended {list : DownloadList} {threads : Int} {files : FileTree} {network : Network}
    (positive : 1 ≤ threads) (ends : (list.download threads files network).error ≠ some .unending) :
    ∃ crash w, Runs (list.worker files network) (list.turns threads files network) crash w ∧
      list.download threads files network = list.ended crash w := by
  rcases list.download_cases threads files network with ran | ⟨_, unending | ⟨none, _⟩, same⟩
  · exact ran
  · rw [same, unending] at ends
    contradiction
  · exact absurd positive (Int.not_le.mpr none)

end DownloadList
end Launcher
