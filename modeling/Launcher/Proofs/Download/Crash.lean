import Launcher.Proofs.Download.Ending
import Launcher.Proofs.Download.Order
import Launcher.Proofs.Download.Truncation
import Launcher.Proofs.Files.Making

/-! What ends a batch that nothing interrupts. Faults of files and of connections are results of
their downloads; five other faults, each of one download, end the batch with all that waits. -/
namespace Launcher

/-- A reply that an interruption takes the place of, or cuts off. -/
def Reply.IsInterrupted : Reply → Prop
  | .failure reason => reason = .interrupted
  | .response _ _ _ cut => cut = some .interrupted

instance (reply : Reply) : Decidable reply.IsInterrupted :=
  match reply with
  | .failure _ => inferInstanceAs (Decidable (_ = _))
  | .response _ _ _ _ => inferInstanceAs (Decidable (_ = _))

/-- Nothing interrupts a network. -/
def Network.IsCalm (network : Network) : Prop :=
  ∀ route ∈ network.routes, ∀ reply ∈ route.2, ¬ reply.IsInterrupted

instance (network : Network) : Decidable network.IsCalm :=
  inferInstanceAs (Decidable (∀ route ∈ network.routes, ∀ reply ∈ route.2, ¬ reply.IsInterrupted))

/-- A response for an entry that is not turned into a result of its download: a body for a
destination with a NUL in its name, or a redirection that does not lead to an HTTP or HTTPS URL. -/
def Reply.Breaks (reply : Reply) (entry : DownloadEntry) (cause : CrashCause) : Prop :=
  match reply with
  | .failure _ => False
  | .response status headers _ cut =>
    if status = 200 then FileTree.hasNul entry.destination = true ∧ cause = .embeddedNul
    else cut = none ∧ Worker.isRedirection status = true ∧
      ∃ e, Worker.redirect entry headers = .error e ∧ cause = .url e

/-- A fault of a job on its turn that is not turned into a result of its download. -/
inductive Turn.Escapes (t : Turn) : CrashCause → Prop
  /-- No connection can be made to the host. -/
  | host {fault : ExchangeError} : Worker.hostFault? t.job.target = some fault →
      Escapes t (.exchange fault)
  /-- A directory above the destination has a NUL in its name. -/
  | directory : Worker.hostFault? t.job.target = none →
      FileTree.hasNul t.job.entry.destination.parent = true → Escapes t .embeddedNul
  /-- The target has a character that a request cannot hold. -/
  | target {made : FileTree} {e : EncodingError} : Worker.hostFault? t.job.target = none →
      (FileTree.makeDirectories t.job.entry.destination.parent).run.run t.worker.files =
        (.ok (), made) →
      Worker.controlChar? t.job.target.target = none →
      EncodingError.first? "ascii" 128 ("GET " ++ t.job.target.target ++ " HTTP/1.1").toList =
        some e → Escapes t (.encoding e)
  | reply {made : FileTree} {cause : CrashCause} : t.job.target.IsRequestable →
      (FileTree.makeDirectories t.job.entry.destination.parent).run.run t.worker.files =
        (.ok (), made) → t.reply.Breaks t.job.entry cause → Escapes t cause

namespace Worker
variable {w w' : Worker} {job : DownloadJob} {cause : CrashCause} {number : Nat}

theorem broken_not_crashed {failure : ConnectionFailure} (calm : failure ≠ .interrupted)
    (w : Worker) (origin : Origin) (number : Nat) :
    (w.broken origin number failure.fault).1 ≠ .crashed cause := by
  cases failure with
  | interrupted => exact absurd rfl calm
  | _ => exact nofun

theorem denied_crashed_iff (w : Worker) (origin : Origin) (number : Nat) (error : AccessError) :
    (w.denied origin number error).1 = .crashed cause ↔
      error = .embeddedNul ∧ cause = .embeddedNul := by
  cases error with
  | system e => simp [denied, failed]
  | embeddedNul => simp [denied, eq_comm]

theorem write_embeddedNul (files : FileTree) (p : Path) (content : Bytes) :
    files.write p content = .error .embeddedNul ↔ FileTree.hasNul p = true := by
  unfold FileTree.write FileTree.target
  split
  · simp [*, Except.map]
  · refine iff_of_false ?_ ‹_›
    split
    · exact nofun
    · split <;> exact nofun

theorem store_crashed_iff {cut : Option ConnectionFailure} (calm : cut ≠ some .interrupted)
    (w : Worker) (job : DownloadJob) (number : Nat) (body : Bytes) :
    (w.store job number body cut).1 = .crashed cause ↔
      FileTree.hasNul job.entry.destination = true ∧ cause = .embeddedNul := by
  rw [store_eq]
  rcases wrote : w.files.write job.entry.destination body with e | files
  · simp only [denied_crashed_iff]
    rw [← write_embeddedNul w.files _ body, wrote, Except.error.injEq]
  · refine iff_of_false ?_ (by simp [(FileTree.write_ok wrote).1])
    cases cut with
    | none => exact nofun
    | some failure =>
      simp only
      split
      · rename_i interrupted
        exact absurd (congrArg some (fault_eq_interrupted interrupted)) calm
      · exact broken_not_crashed (fun same => calm (congrArg some same)) _ _ _

theorem respond_crashed_iff {reply : Reply} (calm : ¬ reply.IsInterrupted) (w : Worker)
    (number : Nat) (job : DownloadJob) :
    (w.respond number job reply).1 = .crashed cause ↔ reply.Breaks job.entry cause := by
  unfold respond Reply.Breaks
  cases reply with
  | failure failure => exact iff_of_false (broken_not_crashed calm _ _ _) id
  | response status headers body cut =>
    by_cases found : status = 200
    · simp only [if_pos found]
      exact store_crashed_iff calm w job number body
    · simp only [if_neg found]
      cases cut with
      | some failure =>
        refine iff_of_false (broken_not_crashed (fun same => calm (congrArg some same)) _ _ _) ?_
        exact fun h => nomatch h.1
      | none =>
        simp only
        split
        · rename_i redirection
          split
          · rename_i leads
            simp [leads]
          · rename_i failed
            simp [failed, redirection, eq_comm]
        · rename_i other
          simp [other]

/-- A request whose target is in order crashes by its reply. -/
theorem request_crashed_iff (w : Worker) (number : Nat) (job : DownloadJob) (cause : CrashCause)
    (calm : ¬ (w.network.answer job.target.url).1.IsInterrupted) :
    (w.request number job).1 = .crashed cause ↔
      controlChar? job.target.target = none ∧
        match EncodingError.first? "ascii" 128 ("GET " ++ job.target.target ++ " HTTP/1.1").toList
          with
        | some e => cause = .encoding e
        | none => (w.network.answer job.target.url).1.Breaks job.entry cause := by
  unfold request
  simp only
  cases controlChar? job.target.target with
  | some fault => exact iff_of_false (by rintro ⟨⟩) (by rintro ⟨⟨⟩, _⟩)
  | none =>
    cases EncodingError.first? "ascii" 128 ("GET " ++ job.target.target ++ " HTTP/1.1").toList with
    | some e => simp [eq_comm]
    | none =>
      let sent := w.network.record (.request number job.target.url)
      have same : sent.script = w.network.script := rfl
      rw [← answer_congr same] at calm ⊢
      simp only [true_and]
      exact respond_crashed_iff calm _ number job

end Worker

namespace Turn
variable {t : Turn} {cause : CrashCause}

/-- A turn crashes exactly by the faults that escape. -/
theorem crashed_iff (connected : t.worker.IsConnected) (calm : ¬ t.reply.IsInterrupted) :
    t.ending = .crashed cause ↔ t.Escapes cause := by
  unfold ending Worker.process
  cases reachable : Worker.hostFault? t.job.target with
  | some fault =>
    rw [Worker.connect_of_fault connected reachable]
    simp only [JobEnd.crashed.injEq]
    constructor
    · rintro rfl
      exact .host reachable
    · intro escapes
      cases escapes with
      | host same => rw [Option.some.inj (reachable.symm.trans same)]
      | directory none _ => rw [reachable] at none; contradiction
      | target none _ _ _ => rw [reachable] at none; contradiction
      | reply requestable _ _ => rw [requestable.host] at reachable; contradiction
  | none =>
    obtain ⟨number, w, reached⟩ := Worker.connect_of_hostFault? t.worker reachable
    obtain ⟨sends, files⟩ := Worker.connect_sends reached
    simp only [reached, Worker.processOn, files]
    have nul := FileTree.makeDirectories_embeddedNul t.job.entry.destination.parent t.worker.files
    rcases ran : (FileTree.makeDirectories t.job.entry.destination.parent).run.run t.worker.files
      with ⟨e | _, made⟩
    · rw [ran, Except.error.injEq] at nul
      simp only [Worker.denied_crashed_iff]
      constructor
      · rintro ⟨denied, rfl⟩
        exact .directory reachable (nul.mp denied)
      · intro escapes
        cases escapes with
        | host fault => rw [reachable] at fault; contradiction
        | directory _ there => exact ⟨nul.mpr there, rfl⟩
        | target _ made _ _ => rw [ran] at made; cases made
        | reply _ made _ => rw [ran] at made; cases made
    · have asked : (w.network.answer t.job.target.url).1 = t.reply :=
        Worker.answer_congr sends.script _
      have crashes := Worker.request_crashed_iff { w with files := made } number t.job cause
        (by rw [asked]; exact calm)
      simp only [crashes, asked]
      constructor
      · rintro ⟨plain, crashes⟩
        cases ascii : EncodingError.first? "ascii" 128
            ("GET " ++ t.job.target.target ++ " HTTP/1.1").toList with
        | some e =>
          rw [ascii] at crashes
          exact crashes ▸ .target reachable ran plain ascii
        | none =>
          rw [ascii] at crashes
          exact .reply ⟨reachable, plain, ascii⟩ ran crashes
      · intro escapes
        cases escapes with
        | host fault => rw [reachable] at fault; contradiction
        | directory _ there =>
          have failed := nul.mpr there
          rw [ran] at failed
          contradiction
        | target _ _ plain unwritable => exact ⟨plain, by rw [unwritable]⟩
        | reply requestable _ breaks => exact ⟨requestable.plain, by rwa [requestable.ascii]⟩

end Turn

namespace Script
variable {script : Script}

/-- No reply that is left is interrupted. -/
def IsCalm (script : Script) : Prop := ∀ url, ∀ reply ∈ script url, ¬ reply.IsInterrupted

theorem IsCalm.next (calm : script.IsCalm) (url : String) : (script.next url).IsCalm := by
  intro other reply member
  unfold Script.next at member
  split at member
  · exact calm url reply (Network.nextReply_rest member)
  · exact calm other reply member

theorem IsCalm.nextReply (calm : script.IsCalm) (url : String) :
    ¬ (Network.nextReply (script url)).1.IsInterrupted := by
  by_cases none : script url = []
  · rw [none]
    exact nofun
  · exact calm url _ (Network.nextReply_mem none)

end Script

theorem Network.IsCalm.script {network : Network} (calm : network.IsCalm) :
    network.script.IsCalm := by
  intro url reply member
  rcases network.script_cases url with none | ⟨route, listed, same⟩
  · simp [none] at member
  · exact calm route listed reply (same ▸ member)

/-- A worker that nothing interrupts. -/
structure Worker.IsCalm (w : Worker) : Prop where
  connected : w.IsConnected
  script : w.network.script.IsCalm

theorem Turn.isCalm_next {t : Turn} {w : Worker} (onward : t.next? = some w)
    (calm : t.worker.IsCalm) : w.IsCalm := by
  obtain ⟨sent, _, sends⟩ := t.sends
  have connected := sends.isConnected calm.connected
  have script := sends.script_induction (motive := Script.IsCalm)
    (fun _ url calm => calm.next url) calm.script
  unfold Turn.next? at onward
  split at onward
  · cases onward
    exact ⟨connected, script⟩
  · cases onward
    exact ⟨connected, script⟩
  · contradiction

namespace Runs
variable {w w' : Worker} {turns : List Turn} {crash : Option CrashCause}

theorem isCalm (runs : Runs w turns crash w') (calm : w.IsCalm) :
    ∀ t ∈ turns, t.worker.IsCalm := by
  have take {w : Worker} {t : Turn} (taken : w.turn? = some t) (calm : w.IsCalm) :
      t.worker.IsCalm :=
    ⟨Worker.isConnected_of_turn? taken calm.connected,
      by rw [Worker.network_of_turn? taken]; exact calm.script⟩
  induction runs with
  | done _ => exact fun _ member => nomatch member
  | crashed taken _ =>
    intro t member
    obtain rfl := List.mem_singleton.mp member
    exact take taken calm
  | next taken onward _ ih =>
    intro t member
    rcases List.mem_cons.mp member with rfl | later
    · exact take taken calm
    · exact ih (Turn.isCalm_next onward (take taken calm)) t later

/-- The fault that ends a run is that of a turn, and no turn has another one. -/
theorem crash_iff (runs : Runs w turns crash w') {cause : CrashCause} :
    crash = some cause ↔ ∃ t ∈ turns, t.ending = .crashed cause := by
  induction runs with
  | done _ => simp
  | crashed taken ending => simp [ending, eq_comm]
  | @next w w₁ w' t turns crash taken onward _ ih =>
    rw [ih, List.exists_mem_cons_iff]
    refine (or_iff_right ?_).symm
    intro ending
    simp [Turn.next?, ending] at onward

end Runs

namespace DownloadList

end DownloadList
end Launcher
