import Launcher.Proofs.Download.Receipt
import Launcher.Proofs.Files.Changes

/-! One turn of a worker: what the processing of a job does to the file tree, by the reply of the
network and by the way it ends, and what is requested for it. All that is said of files later
follows from `Turn.effect`. -/
namespace Launcher

/-- The URLs that were requested on connections. -/
def Network.requests (network : Network) : List String :=
  network.log.filterMap fun
    | .request _ url => some url
    | _ => none

/-- The URL that was asked for, for a document or on a connection. -/
def NetworkEvent.url? : NetworkEvent → Option String
  | .fetch url _ _ => some url
  | .request _ url => some url
  | .close _ => none

/-- All URLs that were asked for. -/
def Network.asked (network : Network) : List String := network.log.filterMap NetworkEvent.url?

/-- The replies that are left for each URL. -/
abbrev Script := String → List Reply

def Network.script (network : Network) : Script :=
  fun url => ((network.routes.find? (·.1 == url)).map (·.2)).getD []

/-- The script after a request for a URL. -/
def Script.next (script : Script) (url : String) : Script :=
  fun other => if other = url then (Network.nextReply (script url)).2 else script other

namespace Network

theorem script_cases (network : Network) (url : String) :
    network.script url = [] ∨ ∃ route ∈ network.routes, network.script url = route.2 := by
  unfold script
  rcases found : network.routes.find? (·.1 == url) with _ | route
  · exact .inl (by rw [found]; rfl)
  · exact .inr ⟨route, List.mem_of_find?_eq_some found, by rw [found]; rfl⟩

theorem nextReply_mem {replies : List Reply} (some : replies ≠ []) :
    (nextReply replies).1 ∈ replies := by
  unfold nextReply
  split
  · contradiction
  · exact List.mem_cons_self
  · exact List.mem_cons_self

theorem nextReply_rest {replies : List Reply} {reply : Reply}
    (later : reply ∈ (nextReply replies).2) : reply ∈ replies := by
  unfold nextReply at later
  split at later
  · contradiction
  · exact later
  · exact List.mem_cons_of_mem _ later

theorem nextReply_nil {replies : List Reply} (none : (nextReply replies).2 = []) :
    replies = [] := by
  match replies with
  | [] => rfl
  | [_] => contradiction
  | _ :: _ :: _ => contradiction

end Network

/-- A response of status 200 that an interruption cuts off. -/
def Reply.IsInterruptedBody : Reply → Prop
  | .response status _ _ cut => status = 200 ∧ cut = some .interrupted
  | .failure _ => False

instance (reply : Reply) : Decidable reply.IsInterruptedBody :=
  match reply with
  | .response _ _ _ _ => inferInstanceAs (Decidable (_ ∧ _))
  | .failure _ => inferInstanceAs (Decidable False)

/-- A response of status 200 that came to its end, and its body. -/
def Reply.IsComplete (reply : Reply) (body : Bytes) : Prop :=
  ∃ headers, reply = .response 200 headers body none

/-- A failure that leaves no file: of the connection, or of a response other than 200. -/
def DownloadOutcome.IsLost : DownloadOutcome → Prop
  | .failure (.connection _) => True
  | .failure .notFound => True
  | _ => False

namespace Worker
open FileTree (Grows)

/-- Ends of a job that has written nothing. -/
def Unwritten (reply : Reply) : JobEnd → Prop
  | .finished outcome => outcome.IsLost
  | .redirected _ => ∀ body, ¬ reply.IsComplete body
  | .crashed cause => cause = .interrupted → ¬ reply.IsInterruptedBody

/-- What a job does to the file tree. In each case the directories above its destination are made
first, as far as that goes. -/
inductive Effect (entry : DownloadEntry) (reply : Reply) (before : FileTree) :
    JobEnd → FileTree → Prop
  /-- Nothing is written. -/
  | unwritten {ending : JobEnd} {after : FileTree} : Grows entry.destination.parent before after →
      Unwritten reply ending → Effect entry reply before ending after
  /-- A complete body is written, and kept whatever it is found to be. -/
  | stored {made after : FileTree} {body : Bytes} : Grows entry.destination.parent before made →
      made.write entry.destination body = .ok after → reply.IsComplete body →
      Effect entry reply before (.finished (verify entry body)) after
  /-- A body that is cut off is written and taken away again. -/
  | dropped {made written after : FileTree} {body : Bytes} {error : TransferError} :
      Grows entry.destination.parent before made → made.write entry.destination body = .ok written →
      written.unlink entry.destination = .ok after →
      Effect entry reply before (.finished (.failure (.connection error))) after
  /-- An interruption leaves the bytes that came before it. -/
  | abandoned {made after : FileTree} {body : Bytes} {headers : Headers} :
      Grows entry.destination.parent before made →
      made.write entry.destination body = .ok after →
      reply = .response 200 headers body (some .interrupted) →
      Effect entry reply before (.crashed .interrupted) after

theorem fault_eq_interrupted {failure : ConnectionFailure} (h : failure.fault = .interrupted) :
    failure = .interrupted := by
  cases failure <;> first | rfl | contradiction

section Effect
variable {w w' : Worker} {job : DownloadJob} {reply : Reply} {before : FileTree}

theorem failed_effect (grows : Grows job.entry.destination.parent before w.files)
    (number : Nat) (error : TransferError) :
    Effect job.entry reply before (w.failed job.target.origin number error).1
      (w.failed job.target.origin number error).2.files :=
  .unwritten grows trivial

theorem denied_effect (grows : Grows job.entry.destination.parent before w.files)
    (number : Nat) (error : AccessError) :
    Effect job.entry reply before (w.denied job.target.origin number error).1
      (w.denied job.target.origin number error).2.files := by
  cases error with
  | system e => exact failed_effect grows number (.system e)
  | embeddedNul => exact .unwritten grows (fun h => nomatch h)

theorem broken_effect (grows : Grows job.entry.destination.parent before w.files)
    (number : Nat) {failure : ConnectionFailure}
    (h : failure = .interrupted → ¬ reply.IsInterruptedBody) :
    Effect job.entry reply before (w.broken job.target.origin number failure.fault).1
      (w.broken job.target.origin number failure.fault).2.files := by
  cases fault : failure.fault with
  | system e => exact failed_effect grows number (.system e)
  | exchange e => exact failed_effect grows number (.exchange e)
  | interrupted => exact .unwritten grows (fun _ => h (fault_eq_interrupted fault))

theorem store_effect (grows : Grows job.entry.destination.parent before w.files)
    (number : Nat) (headers : Headers) (body : Bytes) (cut : Option ConnectionFailure) :
    Effect job.entry (.response 200 headers body cut) before (w.store job number body cut).1
      (w.store job number body cut).2.files := by
  rw [store_eq]
  rcases wrote : w.files.write job.entry.destination body with error | files
  · exact denied_effect grows _ _
  · obtain ⟨left, taken⟩ := FileTree.unlink_write wrote
    cases cut with
    | none => exact .stored grows wrote ⟨headers, rfl⟩
    | some failure =>
      cases failure with
      | interrupted => exact .abandoned grows wrote rfl
      | _ =>
        simp only [ConnectionFailure.fault, taken]
        exact .dropped grows wrote taken

theorem respond_effect (grows : Grows job.entry.destination.parent before w.files)
    (number : Nat) (reply : Reply) :
    Effect job.entry reply before (w.respond number job reply).1
      (w.respond number job reply).2.files := by
  unfold respond
  cases reply with
  | failure failure => exact broken_effect grows _ (fun _ h => h)
  | response status headers body cut =>
    by_cases found : status = 200
    · subst found
      exact store_effect grows number headers body cut
    · simp only [found, if_false]
      cases cut with
      | some failure => exact broken_effect grows _ (fun _ h => found h.1)
      | none =>
        simp only
        split
        · split
          · refine .unwritten grows ?_
            rintro body ⟨headers, complete⟩
            exact found (Reply.response.inj complete).1
          · exact .unwritten grows (fun h => nomatch h)
        · exact .unwritten grows trivial

theorem answer_reply (network : Network) (url : String) :
    (network.answer url).1 = (Network.nextReply (network.script url)).1 := by
  unfold Network.answer Network.script
  cases network.routes.find? (·.1 == url) with
  | none => rfl
  | some route => rfl

theorem answer_congr {a b : Network} (same : a.script = b.script) (url : String) :
    (a.answer url).1 = (b.answer url).1 := by
  rw [answer_reply, answer_reply, same]

theorem request_effect (grows : Grows job.entry.destination.parent before w.files)
    (number : Nat) :
    Effect job.entry (w.network.answer job.target.url).1 before (w.request number job).1
      (w.request number job).2.files := by
  unfold request
  simp only
  split
  · exact failed_effect grows _ _
  · split
    · exact .unwritten grows (fun h => nomatch h)
    · let sent := w.network.record (.request number job.target.url)
      have same : sent.script = w.network.script := rfl
      rw [← answer_congr same]
      exact respond_effect (w := { w with network := (sent.answer job.target.url).2 }) grows
        number _

theorem processOn_effect (w : Worker) (number : Nat) (job : DownloadJob) :
    Effect job.entry (w.network.answer job.target.url).1 w.files (w.processOn number job).1
      (w.processOn number job).2.files := by
  have grows := FileTree.makeDirectories_grows job.entry.destination.parent w.files
  unfold processOn
  generalize (FileTree.makeDirectories job.entry.destination.parent).run.run w.files = outcome
    at grows ⊢
  obtain ⟨_ | _, files⟩ := outcome
  · exact denied_effect (w := { w with files }) grows _ _
  · exact request_effect (w := { w with files }) grows number

end Effect

/-- Only the location of its destination and the directories above it are concerned by a job. -/
theorem Effect.get?_other {entry : DownloadEntry} {reply : Reply} {before after : FileTree}
    {ending : JobEnd} (effect : Effect entry reply before ending after) {l : Location}
    (other : l ≠ entry.destination.location) :
    after.get? l = before.get? l ∨ (before.get? l = none ∧ after.get? l = some .directory ∧
      ∃ n, l = (entry.destination.parent.ancestor n).location) := by
  cases effect with
  | unwritten grows _ => exact grows l
  | stored grows wrote _ =>
    rw [FileTree.get?_write wrote, if_neg other]
    exact grows l
  | dropped grows wrote taken =>
    rw [FileTree.get?_unlink taken, if_neg other, FileTree.get?_write wrote, if_neg other]
    exact grows l
  | abandoned grows wrote _ =>
    rw [FileTree.get?_write wrote, if_neg other]
    exact grows l

theorem Effect.keepsDirectories {entry : DownloadEntry} {reply : Reply} {before after : FileTree}
    {ending : JobEnd} (effect : Effect entry reply before ending after) :
    before.KeepsDirectories after := by
  cases effect with
  | unwritten grows _ => exact grows.keepsDirectories
  | stored grows wrote _ =>
    exact grows.keepsDirectories.trans (FileTree.write_keepsDirectories wrote)
  | dropped grows wrote taken =>
    exact (grows.keepsDirectories.trans (FileTree.write_keepsDirectories wrote)).trans
      (FileTree.unlink_keepsDirectories taken)
  | abandoned grows wrote _ =>
    exact grows.keepsDirectories.trans (FileTree.write_keepsDirectories wrote)

section Sends
variable {w w' : Worker}

/-- Nothing keeps a connection from being made. -/
def Connects (origin : Origin) : Prop :=
  ∀ target : DownloadTarget, target.origin = origin → hostFault? target = none

/-- From the first worker to the second one these URLs were requested. A job does nothing to the
queue and the results of its worker, and leaves no connection that it could not have made. -/
structure Sends (w : Worker) (sent : List String) (w' : Worker) : Prop where
  queue : w'.queue = w.queue
  results : w'.results = w.results
  requests : w'.network.requests = w.network.requests ++ sent
  asked : w'.network.asked = w.network.asked ++ sent
  script : w'.network.script = sent.foldl Script.next w.network.script
  connections : ∀ c ∈ w'.connections, c ∈ w.connections ∨ Connects c.1

theorem Sends.refl (w : Worker) : w.Sends [] w :=
  ⟨rfl, rfl, (List.append_nil _).symm, (List.append_nil _).symm, rfl, fun _ => .inl⟩

theorem Sends.after {w₁ : Worker} {sent : List String} (first : w.Sends [] w₁)
    (second : w₁.Sends sent w') : w.Sends sent w' := by
  refine ⟨second.queue.trans first.queue, second.results.trans first.results, ?_, ?_, ?_, ?_⟩
  · rw [second.requests, first.requests, List.append_nil]
  · rw [second.asked, first.asked, List.append_nil]
  · rw [second.script, first.script, List.foldl_nil]
  · intro c member
    rcases second.connections c member with kept | connects
    · exact first.connections c kept
    · exact .inr connects

theorem files_sends (w : Worker) (files : FileTree) : w.Sends [] { w with files } :=
  ⟨rfl, rfl, (List.append_nil _).symm, (List.append_nil _).symm, rfl, fun _ => .inl⟩

theorem hostFault?_congr {a b : DownloadTarget} (same : a.origin = b.origin) :
    hostFault? a = hostFault? b := by
  obtain ⟨_, host, port⟩ : a.https = b.https ∧ a.host = b.host ∧ a.port = b.port := by
    simpa [DownloadTarget.origin] using same
  unfold hostFault?
  rw [host, port]

theorem connect_sends {target : DownloadTarget} {number : Nat}
    (h : w.connect target = .ok (number, w')) : w.Sends [] w' ∧ w'.files = w.files := by
  unfold connect at h
  split at h
  · obtain ⟨_, rfl⟩ := Prod.mk.inj (Except.ok.inj h)
    exact ⟨.refl w, rfl⟩
  · contradiction
  · rename_i sound
    obtain ⟨_, rfl⟩ := Prod.mk.inj (Except.ok.inj h)
    refine ⟨⟨rfl, rfl, (List.append_nil _).symm, (List.append_nil _).symm, rfl,
      fun c member => ?_⟩, rfl⟩
    rcases List.mem_append.mp member with kept | made
    · exact .inl kept
    · obtain rfl := List.mem_singleton.mp made
      exact .inr fun other same => (hostFault?_congr same).trans sound

theorem failed_sends (w : Worker) (origin : Origin) (number : Nat) (error : TransferError) :
    w.Sends [] (w.failed origin number error).2 :=
  ⟨rfl, rfl, by simp [failed, Network.requests, Network.record],
    by simp [failed, Network.asked, Network.record, NetworkEvent.url?], rfl,
    fun _ member => .inl (List.mem_filter.mp member).1⟩

theorem record_request (network : Network) (number : Nat) (url : String) :
    (network.record (.request number url)).requests = network.requests ++ [url] := by
  simp [Network.requests, Network.record]

theorem record_asked {network : Network} {event : NetworkEvent} {url : String}
    (asks : event.url? = some url) : (network.record event).asked = network.asked ++ [url] := by
  simp [Network.asked, Network.record, asks]

theorem denied_sends (w : Worker) (origin : Origin) (number : Nat) (error : AccessError) :
    w.Sends [] (w.denied origin number error).2 := by
  cases error with
  | system e => exact failed_sends w origin number (.system e)
  | embeddedNul => exact .refl w

theorem broken_sends (w : Worker) (origin : Origin) (number : Nat) (fault : ConnectionFault) :
    w.Sends [] (w.broken origin number fault).2 := by
  cases fault with
  | system e => exact failed_sends w origin number (.system e)
  | exchange e => exact failed_sends w origin number (.exchange e)
  | interrupted => exact .refl w

theorem store_sends (w : Worker) (job : DownloadJob) (number : Nat) (body : Bytes)
    (cut : Option ConnectionFailure) : w.Sends [] (w.store job number body cut).2 := by
  rw [store_eq]
  split
  · exact denied_sends w _ _ _
  · split
    · exact files_sends w _
    · split
      · exact files_sends w _
      · exact (files_sends w _).after (broken_sends { w with files := _ } _ _ _)

theorem respond_sends (w : Worker) (number : Nat) (job : DownloadJob) (reply : Reply) :
    w.Sends [] (w.respond number job reply).2 := by
  unfold respond
  cases reply with
  | failure failure => exact broken_sends w _ _ _
  | response status headers body cut =>
    simp only
    split
    · exact store_sends w job number body cut
    · split
      · exact broken_sends w _ _ _
      · split
        · split <;> exact .refl w
        · exact .refl w

/-- Answering is recorded by nobody, and needs no connection. -/
theorem answer_log (network : Network) (url : String) :
    (network.answer url).2.log = network.log ∧
      (network.answer url).2.connections = network.connections := by
  unfold Network.answer
  split
  · exact ⟨rfl, rfl⟩
  · exact ⟨rfl, rfl⟩

theorem answer_requests (network : Network) (url : String) :
    (network.answer url).2.requests = network.requests := by
  rw [Network.requests, (answer_log network url).1, ← Network.requests]

theorem answer_asked (network : Network) (url : String) :
    (network.answer url).2.asked = network.asked := by
  rw [Network.asked, (answer_log network url).1, ← Network.asked]

theorem find?_routes (routes : List (String × List Reply)) (url other : String)
    (rest : List Reply) :
    ((routes.map fun route => if route.1 == url then (url, rest) else route).find?
        (·.1 == other)).map (·.2) =
      if other = url then (routes.find? (·.1 == url)).map fun _ => rest
      else (routes.find? (·.1 == other)).map (·.2) := by
  induction routes with
  | nil => simp
  | cons route routes ih =>
    rw [List.map_cons]
    by_cases mine : route.1 = url
    · by_cases same : other = url
      · simp [mine, same]
      · rw [if_neg same] at ih ⊢
        rw [List.find?_cons_of_neg (by simpa [mine] using Ne.symm same), ih,
          List.find?_cons_of_neg (by simpa [mine] using Ne.symm same)]
    · by_cases named : route.1 = other
      · have other' : other ≠ url := named ▸ mine
        simp [named, other']
      · rw [List.find?_cons_of_neg (by simpa [mine] using named), ih,
          List.find?_cons_of_neg (by simpa using mine),
          List.find?_cons_of_neg (by simpa using named)]

theorem answer_script (network : Network) (url : String) :
    (network.answer url).2.script = network.script.next url := by
  funext other
  unfold Script.next Network.script Network.answer
  cases found : network.routes.find? (·.1 == url) with
  | none =>
    by_cases same : other = url
    · simp [same, found, Network.nextReply]
    · simp [same]
  | some route =>
    simp only [find?_routes, found]
    by_cases same : other = url
    · simp [same]
    · simp [same]

/-- One request at most is made, for the target of the job. -/
theorem request_sends (w : Worker) (number : Nat) (job : DownloadJob) :
    ∃ sent, sent.Sublist [job.target.url] ∧ w.Sends sent (w.request number job).2 := by
  unfold request
  simp only
  split
  · exact ⟨[], List.nil_sublist _, failed_sends w _ _ _⟩
  · split
    · exact ⟨[], List.nil_sublist _, .refl w⟩
    · let sent := w.network.record (.request number job.target.url)
      have sends := respond_sends { w with network := (sent.answer job.target.url).2 } number job
        (sent.answer job.target.url).1
      refine ⟨[job.target.url], .refl _, sends.queue, sends.results, ?_, ?_, ?_, sends.connections⟩
      · rw [sends.requests, List.append_nil, answer_requests]
        exact record_request _ _ _
      · rw [sends.asked, List.append_nil, answer_asked]
        exact record_asked rfl
      · exact sends.script.trans (answer_script _ _)

theorem processOn_sends (w : Worker) (number : Nat) (job : DownloadJob) :
    ∃ sent, sent.Sublist [job.target.url] ∧ w.Sends sent (w.processOn number job).2 := by
  have made := files_sends w
    ((FileTree.makeDirectories job.entry.destination.parent).run.run w.files).2
  unfold processOn
  generalize (FileTree.makeDirectories job.entry.destination.parent).run.run w.files = outcome
    at made ⊢
  obtain ⟨_ | _, files⟩ := outcome
  · exact ⟨[], List.nil_sublist _, made.after (denied_sends { w with files } _ _ _)⟩
  · obtain ⟨sent, inside, sends⟩ := request_sends { w with files } number job
    exact ⟨sent, inside, made.after sends⟩

theorem process_sends (w : Worker) (job : DownloadJob) :
    ∃ sent, sent.Sublist [job.target.url] ∧ w.Sends sent (w.process job).2 := by
  unfold process
  rcases connected : w.connect job.target with fault | ⟨number, w₁⟩
  · exact ⟨[], List.nil_sublist _, .refl w⟩
  · obtain ⟨sent, inside, sends⟩ := processOn_sends w₁ number job
    exact ⟨sent, inside, (connect_sends connected).1.after sends⟩

theorem process_effect (w : Worker) (job : DownloadJob) :
    Effect job.entry (w.network.answer job.target.url).1 w.files (w.process job).1
      (w.process job).2.files := by
  unfold process
  rcases connected : w.connect job.target with fault | ⟨number, w₁⟩
  · exact .unwritten (.refl _ _) (fun h => nomatch h)
  · obtain ⟨sends, files⟩ := connect_sends connected
    rw [← answer_congr sends.script, ← files]
    exact processOn_effect w₁ number job

end Sends
end Worker

/-- A worker as it takes a job from its queue. -/
structure Turn where
  worker : Worker
  job : DownloadJob

namespace Turn

def ending (t : Turn) : JobEnd := (t.worker.process t.job).1

/-- The worker after the job. -/
def after (t : Turn) : Worker := (t.worker.process t.job).2

/-- What the network has to say to a request for the target of the job. -/
def reply (t : Turn) : Reply := (t.worker.network.answer t.job.target.url).1

theorem effect (t : Turn) :
    Worker.Effect t.job.entry t.reply t.worker.files t.ending t.after.files :=
  Worker.process_effect t.worker t.job

theorem sends (t : Turn) :
    ∃ sent, sent.Sublist [t.job.target.url] ∧ t.worker.Sends sent t.after :=
  Worker.process_sends t.worker t.job

theorem after_queue (t : Turn) : t.after.queue = t.worker.queue := by
  obtain ⟨_, _, sends⟩ := t.sends
  exact sends.queue

theorem after_results (t : Turn) : t.after.results = t.worker.results := by
  obtain ⟨_, _, sends⟩ := t.sends
  exact sends.results

end Turn
end Launcher
