import Launcher.Proofs.Download.Run
import Mathlib.Data.List.Perm.Subperm

/-! When a job is redirected, and where to. That depends on its target, on the reply and on the
directory of its destination, which is there from the first redirection on. The last reply to a URL
repeats, so that a download which comes to a URL twice on such replies goes in a circle. -/
namespace Launcher

/-- A connection can be made to a target, and the target can stand in a request. -/
structure DownloadTarget.IsRequestable (target : DownloadTarget) : Prop where
  host : Worker.hostFault? target = none
  plain : Worker.controlChar? target.target = none
  ascii : EncodingError.first? "ascii" 128 ("GET " ++ target.target ++ " HTTP/1.1").toList = none

/-- A reply leads the download of an entry to another target. -/
def Reply.Redirects (reply : Reply) (entry : DownloadEntry) (next : DownloadTarget) : Prop :=
  ∃ status headers body, reply = .response status headers body none ∧
    Worker.isRedirection status = true ∧ Worker.redirect entry headers = .ok next

theorem Reply.Redirects.unique {reply : Reply} {entry : DownloadEntry} {a b : DownloadTarget}
    (first : reply.Redirects entry a) (second : reply.Redirects entry b) : a = b := by
  obtain ⟨status, headers, body, rfl, _, leads⟩ := first
  obtain ⟨_, _, _, same, _, leads'⟩ := second
  cases same
  exact Except.ok.inj (leads.symm.trans leads')

namespace Worker
variable {w w' : Worker} {job : DownloadJob} {next : DownloadTarget}

theorem broken_not_redirected (w : Worker) (origin : Origin) (number : Nat)
    (fault : ConnectionFault) : (w.broken origin number fault).1 ≠ .redirected next := by
  cases fault <;> exact nofun

theorem denied_not_redirected (w : Worker) (origin : Origin) (number : Nat) (error : AccessError) :
    (w.denied origin number error).1 ≠ .redirected next := by
  cases error <;> exact nofun

theorem store_not_redirected (w : Worker) (job : DownloadJob) (number : Nat) (body : Bytes)
    (cut : Option ConnectionFailure) : (w.store job number body cut).1 ≠ .redirected next := by
  rw [store_eq]
  split
  · exact denied_not_redirected w _ _ _
  · split
    · exact nofun
    · split
      · exact nofun
      · exact broken_not_redirected _ _ _ _

theorem respond_redirected {number : Nat} {reply : Reply}
    (h : (w.respond number job reply).1 = .redirected next) :
    reply.Redirects job.entry next ∧ (w.respond number job reply).2 = w := by
  unfold respond at h ⊢
  cases reply with
  | failure failure => exact absurd h (broken_not_redirected _ _ _ _)
  | response status headers body cut =>
    simp only at h ⊢
    split at h
    · exact absurd h (store_not_redirected _ _ _ _ _)
    · rename_i other
      rw [if_neg other]
      cases cut with
      | some failure => exact absurd h (broken_not_redirected _ _ _ _)
      | none =>
        simp only at h ⊢
        split at h
        · rename_i redirection
          rw [if_pos redirection]
          split at h
          · rename_i leads
            cases h
            exact ⟨⟨status, headers, body, rfl, redirection, leads⟩, rfl⟩
          · cases h
        · cases h

theorem respond_of_redirects {reply : Reply} (redirects : reply.Redirects job.entry next)
    (w : Worker) (number : Nat) : w.respond number job reply = (.redirected next, w) := by
  obtain ⟨status, headers, body, rfl, redirection, leads⟩ := redirects
  have other : status ≠ 200 := by
    rintro rfl
    contradiction
  simp [respond, other, redirection, leads]

/-- Every open connection is one that could be made again. -/
def IsConnected (w : Worker) : Prop := ∀ c ∈ w.connections, Connects c.1

theorem Sends.isConnected {sent : List String} (sends : w.Sends sent w') (h : w.IsConnected) :
    w'.IsConnected := by
  intro c member
  rcases sends.connections c member with kept | connects
  · exact h c kept
  · exact connects

theorem hostFault?_of_connect {target : DownloadTarget} {number : Nat} (connected : w.IsConnected)
    (h : w.connect target = .ok (number, w')) : hostFault? target = none := by
  cases found : w.connection? target.origin with
  | some number =>
    obtain ⟨c, there, _⟩ := Option.map_eq_some_iff.mp found
    have same : c.1 = target.origin := by simpa using List.find?_some there
    exact connected c (List.mem_of_find?_eq_some there) target same.symm
  | none =>
    cases fault : hostFault? target with
    | some fault => simp [connect, found, fault] at h
    | none => rfl

theorem connect_error {target : DownloadTarget} {e : ExchangeError}
    (refused : w.connect target = .error e) : hostFault? target = some e := by
  unfold connect at refused
  split at refused
  · contradiction
  · rename_i fault
    exact fault.trans (congrArg some (Except.error.inj refused))
  · contradiction

theorem connect_of_fault {target : DownloadTarget} {fault : ExchangeError}
    (connected : w.IsConnected) (unreachable : hostFault? target = some fault) :
    w.connect target = .error fault := by
  rcases reached : w.connect target with e | ⟨number, w₁⟩
  · rw [connect_error reached] at unreachable
    rw [Option.some.inj unreachable]
  · rw [hostFault?_of_connect connected reached] at unreachable
    contradiction

theorem connect_of_hostFault? {target : DownloadTarget} (w : Worker)
    (sound : hostFault? target = none) : ∃ number w', w.connect target = .ok (number, w') := by
  unfold connect
  rw [sound]
  cases w.connection? target.origin <;> exact ⟨_, _, rfl⟩

theorem request_redirected {number : Nat} (h : (w.request number job).1 = .redirected next) :
    controlChar? job.target.target = none ∧
      EncodingError.first? "ascii" 128 ("GET " ++ job.target.target ++ " HTTP/1.1").toList = none ∧
      (w.network.answer job.target.url).1.Redirects job.entry next ∧
      (w.request number job).2.files = w.files ∧
      (w.request number job).2.network.script = w.network.script.next job.target.url := by
  unfold request at h ⊢
  cases plain : controlChar? job.target.target with
  | some fault => simp [plain, failed] at h
  | none =>
    simp only [plain] at h ⊢
    split at h
    · cases h
    · rename_i ascii
      let sent := w.network.record (.request number job.target.url)
      have same : sent.script = w.network.script := rfl
      obtain ⟨redirects, rest⟩ := respond_redirected h
      rw [ascii]
      simp only
      rw [rest, ← answer_congr same]
      exact ⟨trivial, trivial, redirects, rfl, answer_script _ _⟩

theorem request_of_redirects (number : Nat) (requestable : job.target.IsRequestable)
    (redirects : (w.network.answer job.target.url).1.Redirects job.entry next) :
    (w.request number job).1 = .redirected next := by
  let sent := w.network.record (.request number job.target.url)
  have same : sent.script = w.network.script := rfl
  rw [← answer_congr same] at redirects
  unfold request
  simp only [requestable.plain, requestable.ascii]
  rw [respond_of_redirects redirects]

/-- A redirected job could be requested, its reply was a redirection, and the directory of its
destination is there. -/
theorem process_redirected (connected : w.IsConnected)
    (h : (w.process job).1 = .redirected next) :
    job.target.IsRequestable ∧ (w.network.answer job.target.url).1.Redirects job.entry next ∧
      (w.process job).2.files.isDirectory job.entry.destination.parent = .ok true ∧
      (w.process job).2.network.script = w.network.script.next job.target.url := by
  unfold process at h ⊢
  rcases reached : w.connect job.target with fault | ⟨number, w₁⟩
  · simp [reached] at h
  · have sound := hostFault?_of_connect connected reached
    have left : w₁.network.script = w.network.script := (connect_sends reached).1.script
    simp only [reached, processOn] at h ⊢
    split at h
    · exact absurd h (denied_not_redirected _ _ _ _)
    · rename_i files made
      obtain ⟨plain, ascii, redirects, same, script⟩ := request_redirected h
      rw [same, script, ← answer_congr left, ← left]
      exact ⟨⟨sound, plain, ascii⟩, redirects,
        FileTree.isDirectory_of_makeDirectories made, rfl⟩

theorem process_of_redirects (requestable : job.target.IsRequestable)
    (housed : w.files.isDirectory job.entry.destination.parent = .ok true)
    (redirects : (w.network.answer job.target.url).1.Redirects job.entry next) :
    (w.process job).1 = .redirected next := by
  obtain ⟨number, w₁, reached⟩ := connect_of_hostFault? w requestable.host
  obtain ⟨sends, files⟩ := connect_sends reached
  rw [← files] at housed
  rw [← answer_congr sends.script] at redirects
  simp only [process, reached, processOn, FileTree.makeDirectories_of_isDirectory housed]
  exact request_of_redirects number requestable redirects

end Worker

namespace Script
variable {script : Script} {entry : DownloadEntry} {url : String}

/-- A request for the first target leads the download of an entry to the second one, and always
will. -/
def Moves (script : Script) (entry : DownloadEntry) (a b : DownloadTarget) : Prop :=
  a.IsRequestable ∧ ∃ reply, script a.url = [reply] ∧ reply.Redirects entry b

theorem Moves.url_congr {a a' b b' : DownloadTarget} (moves : script.Moves entry a b)
    (moves' : script.Moves entry a' b') (same : a.url = a'.url) : b = b' := by
  obtain ⟨_, reply, only, redirects⟩ := moves
  obtain ⟨_, reply', only', redirects'⟩ := moves'
  rw [same, only'] at only
  cases only
  exact redirects.unique redirects'

theorem next_of_singleton {reply : Reply} (only : script url = [reply]) :
    script.next url = script := by
  funext other
  unfold next
  split
  · rename_i same
    rw [same, only]
    rfl
  · rfl

theorem Moves.next {a b : DownloadTarget} (moves : script.Moves entry a b) (url : String) :
    (script.next url).Moves entry a b := by
  obtain ⟨requestable, reply, only, redirects⟩ := moves
  refine ⟨requestable, reply, ?_, redirects⟩
  by_cases same : a.url = url
  · rw [next_of_singleton (same ▸ only), only]
  · rw [Script.next, if_neg same, only]

/-- A download was redirected from the past targets, the last of which comes first, to the one
where it is. -/
inductive Leads (script : Script) (entry : DownloadEntry) :
    List DownloadTarget → DownloadTarget → Prop
  | start (target : DownloadTarget) : Leads script entry [] target
  | move {past : List DownloadTarget} {a b : DownloadTarget} : Leads script entry past a →
      script.Moves entry a b → Leads script entry (a :: past) b

/-- The download of an entry never comes out of a set of targets. -/
def Circles (script : Script) (entry : DownloadEntry) (target : DownloadTarget) : Prop :=
  ∃ targets : List DownloadTarget,
    target ∈ targets ∧ ∀ a ∈ targets, ∃ b ∈ targets, script.Moves entry a b

theorem Circles.moves {a : DownloadTarget} (circles : script.Circles entry a) :
    ∃ b, script.Moves entry a b ∧ script.Circles entry b := by
  obtain ⟨targets, member, closed⟩ := circles
  obtain ⟨b, inside, moves⟩ := closed a member
  exact ⟨b, moves, targets, inside, closed⟩

namespace Leads
variable {past : List DownloadTarget} {target : DownloadTarget}

theorem next (leads : script.Leads entry past target) (url : String) :
    (script.next url).Leads entry past target := by
  induction leads with
  | start target => exact .start target
  | move _ moves ih => exact .move ih (moves.next url)

theorem exists_moves (leads : script.Leads entry past target) {a : DownloadTarget}
    (member : a ∈ past) : ∃ b ∈ target :: past, script.Moves entry a b := by
  induction leads with
  | start target => contradiction
  | @move past a' b earlier moves ih =>
    rcases List.mem_cons.mp member with rfl | member
    · exact ⟨b, List.mem_cons_self, moves⟩
    · obtain ⟨c, inside, onward⟩ := ih member
      exact ⟨c, List.mem_cons_of_mem _ inside, onward⟩

/-- A URL that a download came to twice has led it on before, and so it leads it round. -/
theorem circles_or_nodup (leads : script.Leads entry past target) :
    script.Circles entry target ∨ (past.map (·.url)).Nodup := by
  induction leads with
  | start target => exact .inr List.nodup_nil
  | @move past a b earlier moves ih =>
    rcases ih with circles | distinct
    · obtain ⟨c, onward, circles⟩ := circles.moves
      rw [moves.url_congr onward rfl]
      exact .inl circles
    · by_cases again : a.url ∈ past.map (·.url)
      · obtain ⟨a', member, same⟩ := List.mem_map.mp again
        obtain ⟨c, inside, onward⟩ := earlier.exists_moves member
        obtain rfl := moves.url_congr onward same.symm
        refine .inl ⟨a :: past, inside, fun d member => ?_⟩
        rcases List.mem_cons.mp member with rfl | member
        · exact ⟨_, inside, moves⟩
        · exact earlier.exists_moves member
      · exact .inr (List.nodup_cons.mpr ⟨again, distinct⟩)

end Leads

/-- All URLs that have replies are among these. -/
def IsWithin (script : Script) (urls : List String) : Prop :=
  ∀ url, script url ≠ [] → url ∈ urls

/-- A download that was redirected more often than there are URLs goes in a circle. -/
theorem Leads.circles {past : List DownloadTarget} {target : DownloadTarget}
    {urls : List String} (leads : script.Leads entry past target) (within : script.IsWithin urls)
    (many : urls.length < past.length) : script.Circles entry target := by
  rcases leads.circles_or_nodup with circles | distinct
  · exact circles
  · have inside : past.map (·.url) ⊆ urls := by
      intro url member
      obtain ⟨a, before, rfl⟩ := List.mem_map.mp member
      obtain ⟨b, _, _, reply, only, _⟩ := leads.exists_moves before
      exact within a.url (by simp [only])
    have few := (List.subperm_of_subset distinct inside).length_le
    rw [List.length_map] at few
    omega

end Script
end Launcher
