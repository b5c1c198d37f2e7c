import Launcher.Network.Fetch
import Launcher.Proofs.Download.Ending
import Launcher.Proofs.Download.Turn

/-! What is asked for to fetch a document or to download an entry: its URL, and from there on
nothing but what redirections lead to. -/
namespace Launcher

/-- From the first network to the second one these URLs were asked for, one after another. -/
structure Network.Asks (n : Network) (urls : List String) (m : Network) : Prop where
  asked : m.asked = n.asked ++ urls
  script : m.script = urls.foldl Script.next n.script

namespace Network.Asks
variable {n m k : Network} {urls urls' : List String}

theorem refl (n : Network) : n.Asks [] n := ⟨(List.append_nil _).symm, rfl⟩

theorem trans (first : n.Asks urls m) (second : m.Asks urls' k) : n.Asks (urls ++ urls') k := by
  constructor
  · rw [second.asked, first.asked, List.append_assoc]
  · rw [second.script, first.script, List.foldl_append]

/-- A request that is recorded has the next reply of its URL. It makes no connection. -/
theorem answer (n : Network) {event : NetworkEvent} {url : String}
    (asks : event.url? = some url) :
    let outcome := (n.record event).answer url
    outcome.1 = (nextReply (n.script url)).1 ∧ n.Asks [url] outcome.2 ∧
      outcome.2.connections = n.connections := by
  refine ⟨Worker.answer_reply _ _, ⟨?_, Worker.answer_script _ _⟩, (Worker.answer_log _ _).2⟩
  rw [Worker.answer_asked, Worker.record_asked asks]

end Network.Asks

/-- One resource is asked for at a URL, and again from where the reply leads to. Whether a reply leads
on, and where to, depends on what is asked for. -/
inductive Script.Pursues (leads : String → Reply → String → Prop) :
    Script → String → List String → Prop
  | unasked {script : Script} {url : String} : Pursues leads script url []
  | asked {script : Script} {url : String} : Pursues leads script url [url]
  | led {script : Script} {url next : String} {urls : List String} :
      leads url (Network.nextReply (script url)).1 next →
      Pursues leads (script.next url) next urls → Pursues leads script url (url :: urls)

namespace Fetch

/-- The reply to a request for a document is a redirection. -/
def Directs (url : String) (reply : Reply) (next : String) : Prop :=
  ∃ status headers body location place goal, reply = .response status headers body none ∧
    isRedirection status = true ∧
    (headers.find? "location").or (headers.find? "uri") = some location ∧
    redirectTarget url.toList location = .ok (some place) ∧
    target (withoutBlanks place) = .ok goal ∧ next = String.ofList goal.url

/-- These URLs are asked for to fetch the document at a URL, if it is one. -/
def Pursues (script : Script) (url : String) (urls : List String) : Prop :=
  urls = [] ∨ ∃ goal, firstTarget url.toList = .ok goal ∧
    script.Pursues Directs (String.ofList goal.url) urls

section Exchange
variable {origin : String} {certified : Bool} {fuel : Nat} {headers : RequestHeaders}
  {visits : Visits} {goal : Target} {n m : Network} {result : Except FetchError Response}

/-- One turn of an exchange: its target is not asked for, or it is, and a redirection that is followed
leaves the rest to the next target. -/
theorem exchange_turn {reply : Reply} {left : Network}
    (sent : (n.record (.fetch (String.ofList goal.url) headers.recorded certified)).answer
      (String.ofList goal.url) = (reply, left))
    (exchanged : exchange origin certified (fuel + 1) headers visits goal n = (result, m)) :
    m = n ∨ m = left ∨ ∃ visits' next,
      Directs (String.ofList goal.url) reply (String.ofList next.url) ∧
      exchange origin certified fuel headers.redirected visits' next left = (result, m) := by
  have stops {ended : Except FetchError Response} {last : Network}
      (same : (ended, last) = (result, m)) : m = last := (Prod.mk.inj same).2.symm
  unfold exchange at exchanged
  simp only [sent] at exchanged
  split at exchanged
  · exact .inl (stops exchanged)
  split at exchanged
  · exact .inl (stops exchanged)
  right
  rcases reply with failure | ⟨status, replyHeaders, body, cut⟩
  · simp only at exchanged
    split at exchanged <;> exact .inl (stops exchanged)
  simp only at exchanged
  split at exchanged
  · split at exchanged <;> exact .inl (stops exchanged)
  split at exchanged
  · rename_i redirection
    split at exchanged
    · exact .inl (stops exchanged)
    rename_i location led
    split at exchanged
    · exact .inl (stops exchanged)
    · exact .inl (stops exchanged)
    rename_i place found
    split at exchanged
    · exact .inl (stops exchanged)
    rename_i next aimed
    split at exchanged
    · exact .inl (stops exchanged)
    split at exchanged
    · exact .inl (stops exchanged)
    refine .inr ⟨_, next, ⟨status, replyHeaders, body, location, place, next, rfl, redirection, led,
      ?_, aimed, rfl⟩, exchanged⟩
    rw [String.toList_ofList]
    exact found
  · exact .inl (stops exchanged)

/-- An exchange asks for its target and follows redirections. It counts no connection. -/
theorem exchange_pursues
    (exchanged : exchange origin certified fuel headers visits goal n = (result, m)) :
    ∃ urls, n.script.Pursues Directs (String.ofList goal.url) urls ∧ n.Asks urls m ∧
      m.connections = n.connections := by
  induction fuel generalizing headers visits goal n with
  | zero =>
    cases exchanged
    exact ⟨[], .unasked, .refl _, rfl⟩
  | succ fuel ih =>
    have answered := Network.Asks.answer n
      (show (NetworkEvent.fetch (String.ofList goal.url) headers.recorded certified).url? =
        some (String.ofList goal.url) from rfl)
    rcases sent : (n.record (.fetch (String.ofList goal.url) headers.recorded certified)).answer
      (String.ofList goal.url) with ⟨reply, left⟩
    rw [sent] at answered
    obtain ⟨said, asks, count⟩ := answered
    rcases exchange_turn sent exchanged with rfl | rfl | ⟨visits', next, directs, onward⟩
    · exact ⟨[], .unasked, .refl _, rfl⟩
    · exact ⟨_, .asked, asks, count⟩
    · obtain ⟨urls, pursues, rest, same⟩ := ih onward
      rw [asks.script] at pursues
      exact ⟨_ :: urls, .led (said ▸ directs) pursues, asks.trans rest, same.trans count⟩

end Exchange

/-- Fetching a document asks for its URL and follows redirections. -/
theorem fetch_pursues {n m : Network} {url : String} {headers : Members}
    {accept sha1 : Option String} {result : Except FetchError Response}
    (fetched : n.fetch url headers accept sha1 = (result, m)) :
    ∃ urls, Pursues n.script url urls ∧ n.Asks urls m ∧ m.connections = n.connections := by
  unfold Network.fetch at fetched
  simp only at fetched
  split at fetched
  · cases fetched
    exact ⟨[], .inl rfl, .refl n, rfl⟩
  · rename_i goal aimed
    generalize exchanged : exchange url _ 64 _ [] goal n = outcome at fetched
    obtain ⟨ended, left⟩ := outcome
    obtain ⟨urls, pursues, asks, count⟩ := exchange_pursues exchanged
    have same : left = m := by
      cases ended with
      | error e => exact (Prod.mk.inj fetched).2
      | ok response =>
        simp only at fetched
        split at fetched
        · exact (Prod.mk.inj fetched).2
        · split at fetched
          · exact (Prod.mk.inj fetched).2
          · exact (Prod.mk.inj fetched).2
    subst same
    exact ⟨urls, .inr ⟨goal, aimed, pursues⟩, asks, count⟩

end Fetch

/-- The reply to a request for an entry leads its download to another target. -/
def DownloadEntry.Leads (entry : DownloadEntry) (_ : String) (reply : Reply) (next : String) :
    Prop :=
  ∃ target, reply.Redirects entry target ∧ next = target.url

theorem Script.Pursues.of_sublist {leads : String → Reply → String → Prop} {script : Script}
    {url : String} {sent : List String} (inside : sent.Sublist [url]) :
    script.Pursues leads url sent := by
  rcases List.sublist_singleton.mp inside with rfl | rfl
  · exact .unasked
  · exact .asked

namespace Worker
variable {w w' : Worker} {job : DownloadJob} {next : DownloadTarget}

theorem Sends.asks {sent : List String} (sends : w.Sends sent w') :
    w.network.Asks sent w'.network := ⟨sends.asked, sends.script⟩

theorem request_redirected_asks {number : Nat}
    (h : (w.request number job).1 = .redirected next) :
    w.network.Asks [job.target.url] (w.request number job).2.network := by
  unfold request at h ⊢
  cases plain : controlChar? job.target.target with
  | some fault => simp [plain, failed] at h
  | none =>
    simp only [plain] at h ⊢
    split at h
    · cases h
    · have answered := Network.Asks.answer w.network
        (show (NetworkEvent.request number job.target.url).url? = some job.target.url from rfl)
      rw [(respond_redirected h).2]
      exact answered.2.1

/-- A job that is redirected was asked for. -/
theorem process_redirected_asks (h : (w.process job).1 = .redirected next) :
    w.network.Asks [job.target.url] (w.process job).2.network := by
  unfold process at h ⊢
  rcases reached : w.connect job.target with fault | ⟨number, w₁⟩
  · simp [reached] at h
  · have connected := (connect_sends reached).1.asks
    simp only [reached, processOn] at h ⊢
    split at h
    · exact absurd h (denied_not_redirected _ _ _ _)
    · exact connected.trans (request_redirected_asks h)

end Worker

/-- A worker with one job asks for its target and follows redirections. -/
theorem Runs.pursues {w w' : Worker} {turns : List Turn} {crash : Option CrashCause}
    {job : DownloadJob} (runs : Runs w turns crash w') (single : w.queue = [job])
    (connected : w.IsConnected) :
    ∃ urls, w.network.script.Pursues job.entry.Leads job.target.url urls ∧
      w.network.Asks urls w'.network := by
  induction runs generalizing job with
  | done empty => cases single.symm.trans empty
  | @crashed w t cause taken _ =>
    obtain ⟨queue, worker⟩ := Worker.queue_of_turn? taken
    obtain ⟨rfl, _⟩ := List.cons.inj (single.symm.trans queue)
    obtain ⟨sent, inside, sends⟩ := t.sends
    have asks := sends.asks
    rw [Worker.network_of_turn? taken] at asks
    exact ⟨sent, .of_sublist inside, asks⟩
  | @next w w₁ w' t turns crash taken onward rest ih =>
    obtain ⟨queue, worker⟩ := Worker.queue_of_turn? taken
    obtain ⟨rfl, idle⟩ := List.cons.inj (single.symm.trans queue)
    have connected' : t.worker.IsConnected := Worker.isConnected_of_turn? taken connected
    obtain ⟨sent, inside, sends⟩ := t.sends
    have network := Worker.network_of_turn? taken
    cases ending : t.ending with
    | redirected target =>
      have asks := Worker.process_redirected_asks ending
      obtain ⟨_, redirects, _, script⟩ := Worker.process_redirected connected' ending
      simp only [Turn.next?, ending, Option.some.injEq] at onward
      subst onward
      have waiting : t.after.queue = [] := by rw [t.after_queue, ← idle]
      have single' : ({ t.after with
          queue := t.after.queue ++ [⟨target, t.job.entry⟩] } : Worker).queue =
          [⟨target, t.job.entry⟩] := by simp [waiting]
      obtain ⟨urls, pursues, more⟩ := ih single' (sends.isConnected connected')
      refine ⟨t.job.target.url :: urls, .led ⟨target, ?_, rfl⟩ ?_, ?_⟩
      · rw [← Worker.answer_reply, ← network]
        exact redirects
      · rw [← network, ← script]
        exact pursues
      · rw [← network]
        exact asks.trans more
    | finished outcome =>
      simp only [Turn.next?, ending, Option.some.injEq] at onward
      subst onward
      have waiting : t.after.queue = [] := by rw [t.after_queue, ← idle]
      have same : w' = { t.after with
          results := t.after.results ++ [⟨t.job.entry, outcome⟩] } := (rest.unique (.done waiting)).2
      have asks := sends.asks
      rw [network] at asks
      rw [same]
      exact ⟨sent, .of_sublist inside, asks⟩
    | crashed cause => simp [Turn.next?, ending] at onward

namespace DownloadList
variable {list : DownloadList}

theorem download_idle (none : list.jobs = []) (threads : Int) (files : FileTree)
    (network : Network) : (list.download threads files network).network = network := by
  have sorted : list.sorted = list := sorted_eq (by simp [none])
  rw [download, sorted, if_pos none]

/-- The download of one entry asks for it alone. -/
theorem download_pursues {job : DownloadJob} (only : list.jobs = [job]) (threads : Int)
    (files : FileTree) (network : Network) :
    ∃ urls, network.script.Pursues job.entry.Leads job.target.url urls ∧
      network.Asks urls (list.download threads files network).network := by
  have sorted : list.sorted = list := sorted_eq (by simp [only])
  rcases list.download_cases threads files network with ⟨crash, w, runs, same⟩ | ⟨error, _, same⟩
  · rw [same]
    exact runs.pursues (by rw [worker, sorted, only]) (fun _ member => nomatch member)
  · rw [same]
    exact ⟨[], .unasked, .refl network⟩

end DownloadList

end Launcher
