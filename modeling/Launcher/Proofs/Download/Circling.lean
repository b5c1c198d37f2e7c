import Launcher.Proofs.Download.Ending
import Launcher.Proofs.Download.Listing

/-! Batches that never end. There is one way for that: a time comes when every job that still waits
is sent from one URL to another in a circle. Nothing counts how often a job is redirected. -/
namespace Launcher

namespace Worker
variable {w w₁ w' : Worker} {turns : List Turn} {crash : Option CrashCause}

/-- A worker comes to another one by turns that do not crash. -/
inductive Reaches : Worker → Worker → Prop
  | refl (w : Worker) : Reaches w w
  | next {w w₁ w' : Worker} {t : Turn} : w.turn? = some t → t.next? = some w₁ → Reaches w₁ w' →
      Reaches w w'

/-- A run goes through all that its worker comes to. -/
theorem Reaches.runs (reaches : w.Reaches w₁) (runs : Runs w turns crash w') :
    ∃ later, Runs w₁ later crash w' := by
  induction reaches generalizing turns with
  | refl w => exact ⟨turns, runs⟩
  | next taken onward _ ih =>
    cases runs with
    | done empty => cases (turn?_eq_none.mpr empty).symm.trans taken
    | crashed taken' ending =>
      cases Option.some.inj (taken'.symm.trans taken)
      simp [Turn.next?, ending] at onward
    | next taken' onward' runs =>
      cases Option.some.inj (taken'.symm.trans taken)
      cases Option.some.inj (onward'.symm.trans onward)
      exact ih runs

theorem Reaches.not_runs (reaches : w.Reaches w₁) (circling : w₁.IsCircling) :
    ¬ Runs w turns crash w' := by
  intro runs
  obtain ⟨later, runs⟩ := reaches.runs runs
  exact circling.not_runs runs

theorem crashed_of_next? {t : Turn} (ended : t.next? = none) :
    ∃ cause, t.ending = .crashed cause := by
  unfold Turn.next? at ended
  split at ended
  · contradiction
  · contradiction
  · exact ⟨_, ‹_›⟩

/-- With so many turns left before all jobs go in circles, a worker ends or comes to that point. -/
theorem Walks.runs_or_circles {urls : List String} {jobs : Nat} {walks : List Walk}
    (h : w.Walks urls walks) (few : walks.length ≤ jobs) :
    (∃ turns crash w', Runs w turns crash w') ∨ ∃ w', w.Reaches w' ∧ w'.IsCircling := by
  -- The turns that are left go down with each turn, and they are what the induction is on.
  generalize left : turnsLeft urls jobs w.network.script walks = n
  induction n using Nat.strongRecOn generalizing w walks with
  | ind n ih =>
    subst left
    cases walks with
    | nil => exact .inl ⟨[], none, w, .done h.queue⟩
    | cons walk rest =>
      by_cases long : urls.length < walk.past.length
      · exact .inr ⟨w, .refl w, h.isCircling long⟩
      · rcases taken : w.turn? with _ | t
        · have empty := turn?_eq_none.mp taken
          rw [h.queue] at empty
          contradiction
        · rcases onward : t.next? with _ | w₁
          · obtain ⟨cause, ending⟩ := crashed_of_next? onward
            exact .inl ⟨[t], some cause, t.after, .crashed taken ending⟩
          · obtain ⟨walks₁, h₁, few₁, less⟩ := h.step few (Nat.le_of_not_lt long) taken onward
            rcases ih _ less h₁ few₁ rfl with ⟨turns, crash, w', runs⟩ | ⟨w', reaches, circling⟩
            · exact .inl ⟨t :: turns, crash, w', .next taken onward runs⟩
            · exact .inr ⟨w', .next taken onward reaches, circling⟩

end Worker

namespace DownloadList

/-- A batch ends unless its worker comes to a point where all jobs that wait go in circles, and if
it ends then after so many requests. -/
theorem download_ends_iff (list : DownloadList) {threads : Int} (positive : 1 ≤ threads)
    (files : FileTree) (network : Network) :
    ((∃ turns crash w, Runs (list.worker files network) turns crash w) ↔
      ∀ w, (list.worker files network).Reaches w → ¬ w.IsCircling) ∧
    ∀ turns crash w, Runs (list.worker files network) turns crash w →
      list.download threads files network = list.ended crash w ∧
      ∃ sent, w.network.requests = network.requests ++ sent ∧
        sent.length ≤ Worker.bound network list.jobs.length := by
  refine ⟨⟨?_, ?_⟩, ?_⟩
  · rintro ⟨turns, crash, w, runs⟩ w' reaches circling
    exact reaches.not_runs circling runs
  · intro never
    obtain ⟨urls, within, _⟩ := Network.exists_urls network.routes
    have starts : (list.worker files network).Walks urls _ := list.worker_walks files within
    rcases starts.runs_or_circles (Nat.le_refl _) with runs | ⟨w, reaches, circling⟩
    · exact runs
    · exact absurd circling (never w reaches)
  · intro turns crash w runs
    obtain ⟨sent, inside, requests⟩ := runs.requests
    refine ⟨download_of_runs positive runs, sent, requests, ?_⟩
    have all : list.sorted.jobs.length = list.jobs.length := (List.mergeSort_perm _ _).length_eq
    calc sent.length ≤ turns.length := by simpa using inside.length_le
      _ ≤ Worker.bound network list.jobs.length := all ▸ length_le_bound runs

/-- A single download. -/
def single : DownloadList := empty.put outer

theorem single_built : single.Built := by
  have added : empty.add .empty outer.entry true = .ok (true, single) := rfl
  exact .add .empty added

theorem single_sorted : single.sorted = single := sorted_eq (by decide)

/-- A URL that sends to itself so often before it gives its content. -/
def selfRedirected (times : Nat) : Network :=
  ⟨[("http://h/a", List.replicate times (.response 302 [] [] none) ++
    [.response 200 [] [1, 2] none])], [], 0⟩

/-- Three redirections to the same URL are followed, as another reply comes after them. -/
theorem download_ends_after_redirections :
    (single.download 1 .empty (selfRedirected 3)).error = none ∧
      (∀ w, (single.worker .empty (selfRedirected 3)).Reaches w → ¬ w.IsCircling) ∧
      ∃ sent, (single.download 1 .empty (selfRedirected 3)).network.requests = sent ∧
        sent.length ≤ 35 := by
  have whole : (single.download 1 .empty (selfRedirected 3)).error = none := by
    rw [download, single_sorted]
    decide +kernel
  have ends : ∃ turns crash w, Runs (single.worker .empty (selfRedirected 3)) turns crash w := by
    by_contra never
    have endless := download_unending_iff.mpr ⟨Int.le_refl 1, never⟩
    rw [whole] at endless
    contradiction
  obtain ⟨iff, run⟩ := download_ends_iff single (Int.le_refl 1) .empty (selfRedirected 3)
  obtain ⟨turns, crash, w, runs⟩ := ends
  obtain ⟨same, sent, requests, few⟩ := run turns crash w runs
  refine ⟨whole, iff.mp ⟨turns, crash, w, runs⟩, sent, ?_, Nat.le_trans few (by decide)⟩
  rw [same]
  exact requests

/-- A redirection without a place to go to leads to the URL itself, and so on without end. -/
theorem self_redirection_unending :
    single.Built ∧ ¬ ∃ turns crash w, Runs
      (single.worker .empty ⟨[("http://h/a", [.response 302 [] [] none])], [], 0⟩)
      turns crash w := by
  have endless : (single.download 1 .empty
      ⟨[("http://h/a", [.response 302 [] [] none])], [], 0⟩).error = some .unending := by
    rw [download, single_sorted]
    decide +kernel
  exact ⟨single_built, (download_unending_iff.mp endless).2⟩

end DownloadList
end Launcher
