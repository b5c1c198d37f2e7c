import Launcher.Proofs.Download.Ending
import Launcher.Proofs.Files.Likeness

/-! The same downloads from networks and on file trees that are alike. As long as no URL is requested
for which other replies are left, both batches have the same results and tell the same, and their
trees stay alike. -/
namespace Launcher

/-- In what two states may differ: what files hold at loose places, the replies to URLs that are
apart, and what was recorded so far. -/
structure Difference where
  loose : Location → Prop
  apart : String → Prop
  log : List NetworkEvent
  log' : List NetworkEvent

/-- The same was recorded since, as many connections were made, and the same replies are left. -/
structure Network.Like (d : Difference) (n m : Network) : Prop where
  told : ∃ told, n.log = d.log ++ told ∧ m.log = d.log' ++ told
  connections : m.connections = n.connections
  script : ∀ url, ¬ d.apart url → m.script url = n.script url

namespace Network.Like
variable {d : Difference} {n m : Network}

theorem record (like : n.Like d m) (event : NetworkEvent) :
    (n.record event).Like d (m.record event) := by
  obtain ⟨told, here, there⟩ := like.told
  refine ⟨⟨told ++ [event], ?_, ?_⟩, like.connections, like.script⟩
  · rw [Network.record, here, List.append_assoc]
  · rw [Network.record, there, List.append_assoc]

/-- A request that is not apart has the same reply. -/
theorem answer (like : n.Like d m) {url : String} (same : ¬ d.apart url) :
    (m.answer url).1 = (n.answer url).1 ∧ (n.answer url).2.Like d (m.answer url).2 := by
  have left := like.script url same
  refine ⟨by rw [Worker.answer_reply, Worker.answer_reply, left], ?_⟩
  obtain ⟨here, count⟩ := Worker.answer_log n url
  obtain ⟨there, count'⟩ := Worker.answer_log m url
  obtain ⟨told, log, log'⟩ := like.told
  refine ⟨⟨told, here.trans log, there.trans log'⟩, ?_, fun other apart => ?_⟩
  · rw [count, count', like.connections]
  · rw [Worker.answer_script, Worker.answer_script, Script.next, Script.next, left,
      like.script other apart]

end Network.Like

namespace Worker

structure Like (d : Difference) (w v : Worker) : Prop where
  queue : v.queue = w.queue
  connections : v.connections = w.connections
  results : v.results = w.results
  files : w.files.Alike d.loose v.files
  network : w.network.Like d v.network

/-- A job ends in the same way for both workers. -/
def EndsLike (d : Difference) (a b : JobEnd × Worker) : Prop := b.1 = a.1 ∧ a.2.Like d b.2

variable {d : Difference} {w v : Worker} {job : DownloadJob}

theorem Like.on_files (like : w.Like d v) {files files' : FileTree}
    (alike : files.Alike d.loose files') : Like d { w with files } { v with files := files' } :=
  { like with files := alike }

theorem Like.connect (like : w.Like d v) (target : DownloadTarget) :
    (∃ e, w.connect target = .error e ∧ v.connect target = .error e) ∨
      ∃ number w' v', w.connect target = .ok (number, w') ∧
        v.connect target = .ok (number, v') ∧ w'.Like d v' := by
  have known : v.connection? target.origin = w.connection? target.origin := by
    rw [connection?, connection?, like.connections]
  unfold Worker.connect
  rw [known, like.connections, like.network.connections]
  cases w.connection? target.origin with
  | some number => exact .inr ⟨number, w, v, rfl, rfl, like⟩
  | none =>
    cases hostFault? target with
    | some fault => exact .inl ⟨fault, rfl, rfl⟩
    | none =>
      refine .inr ⟨_, _, _, rfl, rfl, like.queue, rfl, like.results, like.files, ?_⟩
      exact { like.network with connections := rfl }

theorem Like.failed (like : w.Like d v) (origin : Origin) (number : Nat) (error : TransferError) :
    EndsLike d (w.failed origin number error) (v.failed origin number error) := by
  refine ⟨rfl, like.queue, ?_, like.results, like.files, like.network.record _⟩
  rw [Worker.failed, Worker.failed, like.connections]

theorem Like.broken (like : w.Like d v) (origin : Origin) (number : Nat) (fault : ConnectionFault) :
    EndsLike d (w.broken origin number fault) (v.broken origin number fault) := by
  cases fault with
  | system e => exact like.failed origin number (.system e)
  | exchange e => exact like.failed origin number (.exchange e)
  | interrupted => exact ⟨rfl, like⟩

theorem Like.denied (like : w.Like d v) (origin : Origin) (number : Nat) (error : AccessError) :
    EndsLike d (w.denied origin number error) (v.denied origin number error) := by
  cases error with
  | system e => exact like.failed origin number (.system e)
  | embeddedNul => exact ⟨rfl, like⟩

theorem Like.store (like : w.Like d v) (number : Nat) (body : Bytes)
    (cut : Option ConnectionFailure) :
    EndsLike d (w.store job number body cut) (v.store job number body cut) := by
  rw [Worker.store_eq, Worker.store_eq]
  have wrote := like.files.write job.entry.destination body
  generalize w.files.write job.entry.destination body = written at wrote ⊢
  generalize v.files.write job.entry.destination body = written' at wrote ⊢
  cases wrote with
  | error e => exact like.denied _ number e
  | @ok files files' alike =>
    cases cut with
    | none => exact ⟨rfl, like.on_files alike⟩
    | some failure =>
      have removed : FileTree.Alike d.loose
          ((files.unlink job.entry.destination).toOption.getD files)
          ((files'.unlink job.entry.destination).toOption.getD files') := by
        have taken := alike.unlink job.entry.destination
        generalize files.unlink job.entry.destination = left at taken ⊢
        generalize files'.unlink job.entry.destination = left' at taken ⊢
        cases taken with
        | error => exact alike
        | ok alike' => exact alike'
      cases failure with
      | interrupted => exact ⟨rfl, like.on_files alike⟩
      | _ => exact (like.on_files removed).broken _ number _

theorem Like.respond (like : w.Like d v) (number : Nat) (reply : Reply) :
    EndsLike d (w.respond number job reply) (v.respond number job reply) := by
  unfold Worker.respond
  cases reply with
  | failure failure => exact like.broken _ number _
  | response status headers body cut =>
    simp only
    split
    · exact like.store number body cut
    · cases cut with
      | some failure => exact like.broken _ number _
      | none =>
        simp only
        split
        · cases redirect job.entry headers with
          | ok target => exact ⟨rfl, like⟩
          | error e => exact ⟨rfl, like⟩
        · exact ⟨rfl, like⟩

theorem Like.request (like : w.Like d v) (same : ¬ d.apart job.target.url) (number : Nat) :
    EndsLike d (w.request number job) (v.request number job) := by
  unfold Worker.request
  simp only
  cases controlChar? job.target.target with
  | some fault => exact like.failed _ number _
  | none =>
    cases EncodingError.first? "ascii" 128 ("GET " ++ job.target.target ++ " HTTP/1.1").toList with
    | some e => exact ⟨rfl, like⟩
    | none =>
      obtain ⟨reply, network⟩ :=
        (like.network.record (.request number job.target.url)).answer same
      simp only [reply]
      refine Like.respond ?_ number _
      exact ⟨like.queue, like.connections, like.results, like.files, network⟩

theorem Like.processOn (like : w.Like d v) (same : ¬ d.apart job.target.url) (number : Nat) :
    EndsLike d (w.processOn number job) (v.processOn number job) := by
  unfold Worker.processOn
  obtain ⟨result, alike⟩ := like.files.makeDirectories job.entry.destination.parent
  generalize (FileTree.makeDirectories job.entry.destination.parent).run.run w.files = made
    at result alike ⊢
  generalize (FileTree.makeDirectories job.entry.destination.parent).run.run v.files = made'
    at result alike ⊢
  obtain ⟨outcome, files⟩ := made
  obtain ⟨outcome', files'⟩ := made'
  obtain rfl : outcome' = outcome := result
  cases outcome' with
  | error e => exact (like.on_files alike).denied _ number e
  | ok => exact (like.on_files alike).request same number

theorem Like.process (like : w.Like d v) (same : ¬ d.apart job.target.url) :
    EndsLike d (w.process job) (v.process job) := by
  unfold Worker.process
  rcases like.connect job.target with ⟨e, here, there⟩ | ⟨number, w', v', here, there, like'⟩
  · rw [here, there]
    exact ⟨rfl, like⟩
  · rw [here, there]
    exact like'.processOn same number

/-- A worker never comes to request a URL that is apart. -/
def Avoids (apart : String → Prop) (w : Worker) : Prop :=
  ∀ fuel, ∀ t ∈ w.turns fuel, ¬ apart t.job.target.url

end Worker

namespace Turn
variable {d : Difference} {t u : Turn} {w v : Worker}

/-- The same job is taken by workers that are alike. -/
structure Like (d : Difference) (t u : Turn) : Prop where
  job : u.job = t.job
  worker : t.worker.Like d u.worker

theorem Like.ends (like : t.Like d u) (same : ¬ d.apart t.job.target.url) :
    u.ending = t.ending ∧ t.after.Like d u.after := by
  unfold ending after
  rw [like.job]
  exact like.worker.process same

/-- Workers that are alike go on alike, or both do not go on. -/
theorem Like.next? (like : t.Like d u) (same : ¬ d.apart t.job.target.url) :
    (t.next? = none ∧ u.next? = none) ∨
      ∃ w v, t.next? = some w ∧ u.next? = some v ∧ w.Like d v := by
  obtain ⟨ending, after⟩ := like.ends same
  unfold Turn.next?
  rw [ending, like.job]
  cases t.ending with
  | finished outcome =>
    exact .inr ⟨_, _, rfl, rfl, { after with results := congrArg (· ++ _) after.results }⟩
  | redirected target =>
    exact .inr ⟨_, _, rfl, rfl, { after with queue := congrArg (· ++ _) after.queue }⟩
  | crashed cause => exact .inl ⟨rfl, rfl⟩

end Turn

namespace Worker
variable {d : Difference} {w v w' v' : Worker} {turns : List Turn} {crash : Option CrashCause}

theorem Like.turn? (like : w.Like d v) :
    (w.turn? = none ∧ v.turn? = none) ∨
      ∃ t u, w.turn? = some t ∧ v.turn? = some u ∧ t.Like d u := by
  unfold Worker.turn?
  rw [like.queue]
  cases w.queue with
  | nil => exact .inl ⟨rfl, rfl⟩
  | cons job rest => exact .inr ⟨_, _, rfl, rfl, rfl, { like with queue := rfl }⟩

theorem Avoids.first {apart : String → Prop} {t : Turn} (avoids : w.Avoids apart)
    (taken : w.turn? = some t) : ¬ apart t.job.target.url :=
  avoids 1 t (by simp [turns, taken])

theorem Avoids.later {apart : String → Prop} {t : Turn} (avoids : w.Avoids apart)
    (taken : w.turn? = some t) (onward : t.next? = some w') : w'.Avoids apart :=
  fun fuel u member => avoids (fuel + 1) u (by simp [turns, taken, onward, member])

theorem Like.avoids (like : w.Like d v) (avoids : w.Avoids d.apart) : v.Avoids d.apart := by
  intro fuel
  induction fuel generalizing w v with
  | zero => exact fun _ member => nomatch member
  | succ fuel ih =>
    intro u' member
    rw [turns] at member
    rcases like.turn? with ⟨_, there⟩ | ⟨t, u, taken, there, same⟩
    · rw [there] at member
      cases member
    · have first := avoids.first taken
      rw [there] at member
      rcases List.mem_cons.mp member with rfl | member
      · rw [same.job]
        exact first
      · rcases same.next? first with ⟨_, stops⟩ | ⟨w₁, v₁, onward, onward', like₁⟩
        · rw [stops] at member
          cases member
        · rw [onward'] at member
          exact ih like₁ (avoids.later taken onward) u' member

/-- A run that avoids what is apart is a run of every worker that is alike. -/
theorem Like.runs (like : w.Like d v) (runs : Runs w turns crash w')
    (avoids : w.Avoids d.apart) :
    ∃ turns' v', Runs v turns' crash v' ∧ w'.Like d v' := by
  induction runs generalizing v with
  | @done w empty => exact ⟨[], v, .done (like.queue.trans empty), like⟩
  | @crashed w t cause taken ending =>
    rcases like.turn? with ⟨none, _⟩ | ⟨t', u, here, there, same⟩
    · cases none.symm.trans taken
    · obtain rfl := Option.some.inj (here.symm.trans taken)
      obtain ⟨ends, after⟩ := same.ends (avoids.first taken)
      exact ⟨[u], u.after, .crashed there (ends.trans ending), after⟩
  | @next w w₁ w' t turns crash taken onward _ ih =>
    rcases like.turn? with ⟨none, _⟩ | ⟨t', u, here, there, same⟩
    · cases none.symm.trans taken
    · obtain rfl := Option.some.inj (here.symm.trans taken)
      rcases same.next? (avoids.first taken) with ⟨stops, _⟩ | ⟨w₂, v₁, on, on', like₁⟩
      · cases stops.symm.trans onward
      · obtain rfl := Option.some.inj (on.symm.trans onward)
        obtain ⟨turns', v', runs', like'⟩ := ih like₁ (avoids.later taken onward)
        exact ⟨u :: turns', v', .next there on' runs', like'⟩

theorem Like.symm (like : w.Like d v) : v.Like { d with log := d.log', log' := d.log } w := by
  obtain ⟨told, here, there⟩ := like.network.told
  refine ⟨like.queue.symm, like.connections.symm, like.results.symm, like.files.symm,
    ⟨⟨told, there, here⟩, like.network.connections.symm, fun url same => ?_⟩⟩
  exact (like.network.script url same).symm

end Worker

/-- Two batches of the same downloads with the same results, which leave what is alike. -/
structure Batch.Like (d : Difference) (a b : Batch) : Prop where
  list : b.list = a.list
  results : b.results = a.results
  error : b.error = a.error
  files : a.files.Alike d.loose b.files
  network : a.network.Like d b.network

theorem DownloadList.download_endless {list : DownloadList} {threads : Int} {files : FileTree}
    {network : Network} (positive : 1 ≤ threads)
    (never : ¬ ∃ turns crash w, Runs (list.worker files network) turns crash w) :
    list.download threads files network =
      ⟨list.sorted, [], some .unending, files, network⟩ := by
  rcases list.download_cases threads files network with
    ⟨crash, w, runs, _⟩ | ⟨error, rfl | ⟨none, _⟩, same⟩
  · exact absurd ⟨_, crash, w, runs⟩ never
  · exact same
  · exact absurd positive (Int.not_le.mpr none)

/-- Batches of one list do alike unless they come to request a URL that is apart. -/
theorem DownloadList.download_like {d : Difference} {files files' : FileTree} {n m : Network}
    (list : DownloadList) (threads : Int) (alike : files.Alike d.loose files') (like : n.Like d m)
    (avoids : (list.worker files n).Avoids d.apart) :
    (list.download threads files n).Like d (list.download threads files' m) := by
  have workers : (list.worker files n).Like d (list.worker files' m) := ⟨rfl, rfl, rfl, alike, like⟩
  by_cases positive : 1 ≤ threads
  · by_cases ends : ∃ turns crash w, Runs (list.worker files n) turns crash w
    · obtain ⟨turns, crash, w, runs⟩ := ends
      obtain ⟨turns', v, runs', left⟩ := workers.runs runs avoids
      rw [download_of_runs positive runs, download_of_runs positive runs']
      exact ⟨rfl, left.results, rfl, left.files, left.network⟩
    · have ends' : ¬ ∃ turns crash v, Runs (list.worker files' m) turns crash v := by
        rintro ⟨turns, crash, v, runs⟩
        obtain ⟨turns', w, runs', _⟩ := workers.symm.runs runs (workers.avoids avoids)
        exact ends ⟨turns', crash, w, runs'⟩
      rw [download_endless positive ends, download_endless positive ends']
      exact ⟨rfl, rfl, rfl, alike, like⟩
  · have none : threads < 1 := Int.not_le.mp positive
    unfold download
    simp only [none, if_true]
    split
    · exact ⟨rfl, rfl, rfl, alike, like⟩
    · exact ⟨rfl, rfl, rfl, alike, like⟩

end Launcher
