import Launcher.Proofs.Download.Agreement
import Launcher.Proofs.Download.Ending
import Launcher.Proofs.Download.Order

/-! Downloads side by side. On a network that always gives one reply for a URL, what becomes of a
download is settled by the file tree at the start. Other downloads of the batch open connections
and make directories for it, and neither is to be seen in its result or at its destination. -/
namespace Launcher

namespace Script
variable {script : Script} {reply : String → Reply}

/-- A URL gives one reply, however often it is requested. -/
def Answers (script : Script) (reply : String → Reply) : Prop :=
  ∀ url, (Network.nextReply (script url)).1 = reply url ∧ ∀ r ∈ script url, r = reply url

theorem Answers.next (answers : script.Answers reply) (url : String) :
    (script.next url).Answers reply := by
  intro other
  unfold Script.next
  split
  · rename_i same
    subst same
    obtain ⟨first, all⟩ := answers other
    refine ⟨?_, fun r later => all r (Network.nextReply_rest later)⟩
    by_cases none : (Network.nextReply (script other)).2 = []
    · rwa [none, ← Network.nextReply_nil none]
    · exact all _ (Network.nextReply_rest (Network.nextReply_mem none))
  · exact answers other

end Script

namespace Worker
variable {w w₁ v : Worker} {t : Turn} {start : FileTree} {reply : String → Reply}
  {entry : DownloadEntry}

theorem IsSeparate.nodup (separate : w.IsSeparate) : w.entries.Nodup := by
  refine separate.apart.imp ?_
  rintro a _ apart rfl
  exact apart.1 (List.prefix_refl _)

/-- What a worker has in common with each other one that has to download an entry. -/
structure Carries (start : FileTree) (reply : String → Reply) (entry : DownloadEntry)
    (w : Worker) : Prop where
  connected : w.IsConnected
  answers : w.network.script.Answers reply
  stands : FileTree.Stands entry.destination start w.files

theorem Carries.take (carries : w.Carries start reply entry) (taken : w.turn? = some t) :
    t.worker.Carries start reply entry := by
  obtain ⟨connected, answers, stands⟩ := carries
  refine ⟨isConnected_of_turn? taken connected, ?_, ?_⟩
  · rwa [network_of_turn? taken]
  · rwa [files_of_turn? taken]

theorem Carries.after (carries : t.worker.Carries start reply entry) (onward : t.next? = some w₁)
    (stands : FileTree.Stands entry.destination start t.after.files) :
    w₁.Carries start reply entry := by
  obtain ⟨sent, _, sends⟩ := t.sends
  have connected := sends.isConnected carries.connected
  have answers := sends.script_induction (motive := (Script.Answers · reply))
    (fun _ url answers => answers.next url) carries.answers
  obtain ⟨files, network, _⟩ := Turn.next?_some onward
  refine ⟨?_, network ▸ answers, files ▸ stands⟩
  unfold Turn.next? at onward
  split at onward
  · cases onward
    exact connected
  · cases onward
    exact connected
  · contradiction

theorem Carries.other (carries : w.Carries start reply entry) (separate : w.IsSeparate)
    (taken : w.turn? = some t) (onward : t.next? = some w₁) (waits : entry ∈ w.entries)
    (other : t.job.entry ≠ entry) : w₁.Carries start reply entry := by
  have mine := carries.take taken
  obtain ⟨plain, apart⟩ := separate
  rw [entries_of_turn? taken] at plain apart waits
  have later := (List.mem_cons.mp waits).resolve_left (Ne.symm other)
  refine mine.after onward (mine.stands.other t.effect (plain _ List.mem_cons_self) ?_)
  exact ((List.pairwise_cons.mp apart).1 entry later).symm

theorem Carries.redirected (carries : t.worker.Carries start reply t.job.entry)
    (hosts : start.Hosts t.job.entry.destination) (onward : t.next? = some w₁)
    {next : DownloadTarget} (redirected : t.ending = .redirected next) :
    w₁.Carries start reply t.job.entry := by
  have effect := t.effect
  rw [redirected] at effect
  refine carries.after onward ?_
  cases effect with
  | unwritten grows _ => exact carries.stands.grows hosts grows

theorem Carries.answer (carries : w.Carries start reply entry) (url : String) :
    (w.network.answer url).1 = reply url := by
  rw [answer_reply]
  exact (carries.answers url).1

end Worker

theorem DownloadEntry.EndsAgree.of_finished {entry : DownloadEntry} {outcome : DownloadOutcome}
    {ending : JobEnd} (agree : entry.EndsAgree (.finished outcome) ending) :
    ∃ outcome', ending = .finished outcome' ∧ entry.Agree outcome outcome' := by
  cases agree with
  | same => exact ⟨outcome, rfl, .same outcome⟩
  | finished agree => exact ⟨_, rfl, agree⟩

theorem DownloadEntry.EndsAgree.of_redirected {entry : DownloadEntry} {next : DownloadTarget}
    {ending : JobEnd} (agree : entry.EndsAgree (.redirected next) ending) :
    ending = .redirected next := by
  cases agree
  rfl

theorem Turn.mem_queue_next {w₁ : Worker} (t : Turn) (onward : t.next? = some w₁)
    {job : DownloadJob} (waits : job ∈ t.worker.queue) : job ∈ w₁.queue := by
  rw [← t.after_queue] at waits
  unfold Turn.next? at onward
  split at onward
  · cases onward
    exact waits
  · cases onward
    exact List.mem_append_left _ waits
  · contradiction

namespace Runs
variable {w w₁ w' v : Worker} {t t' : Turn} {turns : List Turn} {crash : Option CrashCause}
  {start : FileTree} {reply : String → Reply} {entry : DownloadEntry} {target : DownloadTarget}

/-- After the last turn for an entry its destination stays as it is. -/
theorem get?_finished (separate : w.IsSeparate) (taken : w.turn? = some t)
    (onward : t.next? = some w₁) (final : t.isRedirected = false) (runs : Runs w₁ turns crash w') :
    w'.files.get? t.job.entry.destination.location =
      t.after.files.get? t.job.entry.destination.location := by
  have rest : w.entries = t.job.entry :: w₁.entries := by
    rcases Worker.entries_next taken onward with ⟨redirected, _⟩ | ⟨_, rest⟩
    · rw [final] at redirected
      contradiction
    · exact rest
  have apart := separate.apart
  rw [rest] at apart
  rw [← (Turn.next?_some onward).1]
  refine runs.get?_apart (fun e later => ?_) fun e later => ?_
  · exact separate.plain e (rest ▸ List.mem_cons_of_mem _ later)
  · exact ((List.pairwise_cons.mp apart).1 e later).1

/-- A run by which a worker downloads alone what another one downloads among others. -/
structure Mirrors (entry : DownloadEntry) (turns : List Turn) (w' v v' : Worker)
    (turns' : List Turn) : Prop where
  runs : Runs v turns' none v'
  results : ∃ outcome outcome', ⟨entry, outcome⟩ ∈ turns.filterMap Turn.result? ∧
    v'.results = v.results ++ [⟨entry, outcome'⟩] ∧ entry.Agree outcome outcome'
  files : w'.files.get? entry.destination.location = v'.files.get? entry.destination.location

theorem Mirrors.later {v' : Worker} {turns' : List Turn}
    (mirrors : Mirrors entry turns w' v v' turns') (t : Turn) :
    Mirrors entry (t :: turns) w' v v' turns' := by
  obtain ⟨runs, ⟨outcome, outcome', given, results⟩, files⟩ := mirrors
  refine ⟨runs, ⟨outcome, outcome', ?_, results⟩, files⟩
  rw [List.filterMap_cons]
  split
  · exact given
  · exact List.mem_cons_of_mem _ given

/-- The lone worker is sent on first. -/
theorem Mirrors.sent_on {v₁ v' : Worker} {turns' : List Turn}
    (mirrors : Mirrors entry turns w' v₁ v' turns') (taken' : v.turn? = some t')
    (onward' : t'.next? = some v₁) (same : v₁.results = t'.after.results) :
    Mirrors entry turns w' v v' (t' :: turns') := by
  obtain ⟨runs, ⟨outcome, outcome', given, results, agree⟩, files⟩ := mirrors
  refine ⟨.next taken' onward' runs, ⟨outcome, outcome', given, ?_, agree⟩, files⟩
  rw [results, same, t'.after_results, Worker.results_of_turn? taken']

/-- The last turn for an entry. -/
theorem mirrors_finished {outcome : DownloadOutcome} (separate : w.IsSeparate)
    (taken : w.turn? = some t) (onward : t.next? = some w₁) (runs : Runs w₁ turns none w')
    (ending : t.ending = .finished outcome) (taken' : v.turn? = some t')
    (alone : t'.worker.queue = []) (same : t'.job = t.job)
    (agrees : Worker.Agrees t.job.entry (t.worker.process t.job) (t'.worker.process t'.job)) :
    ∃ turns' v', Mirrors t.job.entry (t :: turns) w' v v' turns' := by
  obtain ⟨ends, there⟩ := agrees
  rw [show (t.worker.process t.job).1 = _ from ending] at ends
  obtain ⟨outcome', ending', agree⟩ := ends.of_finished
  let v' : Worker :=
    { t'.after with results := t'.after.results ++ [⟨t'.job.entry, outcome'⟩] }
  have onward' : t'.next? = some v' := by
    unfold Turn.next? Turn.ending
    rw [ending']
  have final : t.isRedirected = false := by simp [Turn.isRedirected, ending]
  refine ⟨[t'], v', .next taken' onward' (.done (t'.after_queue.trans alone)), ?_, ?_⟩
  · refine ⟨outcome, outcome', ?_, ?_, agree⟩
    · simp [Turn.result?, ending]
    · show t'.after.results ++ _ = _
      rw [t'.after_results, Worker.results_of_turn? taken', same]
  · exact (get?_finished separate taken onward final runs).trans there

/-- Whatever a worker downloads among others it could have downloaded alone. -/
theorem exists_mirrors (runs : Runs w turns none w') (separate : w.IsSeparate)
    (hosts : start.Hosts entry.destination) (carries : w.Carries start reply entry)
    (waits : ⟨target, entry⟩ ∈ w.queue) (alone : v.queue = [⟨target, entry⟩])
    (carries' : v.Carries start reply entry) :
    ∃ turns' v', Mirrors entry turns w' v v' turns' := by
  -- The lone worker rests while others have their turns, and takes its own turn with the entry.
  generalize whole : (none : Option CrashCause) = crash at runs
  induction runs generalizing v target with
  | done empty => simp [empty] at waits
  | crashed _ _ => contradiction
  | @next w w₁ w' t turns crash taken onward runs ih =>
    subst whole
    have queued := (Worker.queue_of_turn? taken).1
    have distinct := separate.nodup
    rw [Worker.entries_of_turn? taken] at distinct
    rw [queued] at waits
    by_cases turn : t.job.entry = entry
    · subst turn
      have first : t.job = ⟨target, t.job.entry⟩ := by
        refine ((List.mem_cons.mp waits).resolve_right fun later => ?_).symm
        exact (List.nodup_cons.mp distinct).1 (List.mem_map_of_mem (f := (·.entry)) later)
      rw [← first] at alone
      let t' : Turn := ⟨{ v with queue := [] }, t.job⟩
      have taken' : v.turn? = some t' := by simp [Worker.turn?, alone, t']
      have before := carries.take taken
      have before' := carries'.take taken'
      have agrees : Worker.Agrees t.job.entry (t.worker.process t.job)
          (t'.worker.process t'.job) := by
        refine Worker.process_agrees hosts before.connected before'.connected before.stands
          before'.stands ?_
        rw [before.answer, before'.answer]
      cases ending : t.ending with
      | finished outcome =>
        exact mirrors_finished separate taken onward runs ending taken' rfl rfl agrees
      | crashed cause => simp [Turn.next?, ending] at onward
      | redirected next =>
        have ends := agrees.ends
        rw [show (t.worker.process t.job).1 = _ from ending] at ends
        have ending' : t'.ending = .redirected next := ends.of_redirected
        let v₁ : Worker := { t'.after with queue := t'.after.queue ++ [⟨next, t.job.entry⟩] }
        have onward' : t'.next? = some v₁ := by
          unfold Turn.next?
          rw [ending']
        have waits₁ : ⟨next, t.job.entry⟩ ∈ w₁.queue := by
          simp only [Turn.next?, ending, Option.some.injEq] at onward
          simp [← onward]
        have alone₁ : v₁.queue = [⟨next, t.job.entry⟩] := by
          simp [v₁, t'.after_queue, t']
        obtain ⟨turns', v', mirrors⟩ := ih (separate.next taken onward)
          (before.redirected hosts onward ending) waits₁ alone₁
          (before'.redirected (t := t') hosts onward' ending') rfl
        exact ⟨t' :: turns', v', (mirrors.sent_on taken' onward' rfl).later t⟩
    · have waiting : entry ∈ w.entries := by
        rw [Worker.entries, queued]
        exact List.mem_map_of_mem (f := (·.entry)) waits
      have later : ⟨target, entry⟩ ∈ w₁.queue := by
        refine t.mem_queue_next onward ((List.mem_cons.mp waits).resolve_left fun first => ?_)
        exact turn (first ▸ rfl)
      obtain ⟨turns', v', mirrors⟩ := ih (separate.next taken onward)
        (carries.other separate taken onward waiting turn) later alone carries' rfl
      exact ⟨turns', v', mirrors.later t⟩

end Runs

/-- Each URL of a network always gives the same reply. -/
def Network.IsSteady (network : Network) : Prop :=
  ∀ route ∈ network.routes, ∀ a ∈ route.2, ∀ b ∈ route.2, a = b

instance (network : Network) : Decidable network.IsSteady :=
  inferInstanceAs (Decidable (∀ route ∈ network.routes, ∀ a ∈ route.2, ∀ b ∈ route.2, a = b))

theorem Network.IsSteady.answers {network : Network} (steady : network.IsSteady) :
    network.script.Answers fun url => (nextReply (network.script url)).1 := by
  intro url
  refine ⟨rfl, fun r member => ?_⟩
  rcases network.script_cases url with none | ⟨route, listed, same⟩
  · simp [none] at member
  · show r = (nextReply (network.script url)).1
    rw [same] at member ⊢
    exact steady route listed r member _ (nextReply_mem (List.ne_nil_of_mem member))

namespace DownloadList
variable {list : DownloadList}

/-- The targets of a list are those of the URLs of its entries. -/
theorem Built.target (built : list.Built) {job : DownloadJob} (member : job ∈ list.jobs) :
    DownloadTarget.ofUrl job.entry.url = .ok job.target := by
  induction built with
  | empty => contradiction
  | @add list list' files entry verify added _ put ih =>
    unfold DownloadList.add at put
    split at put
    · cases put
      exact ih member
    · split at put
      · cases put
      · cases put
        exact ih member
      · split at put
        · cases put
        · rename_i target parsed
          cases put
          rcases List.mem_append.mp member with old | new
          · exact ih old
          · obtain rfl := List.mem_singleton.mp new
            exact parsed
  | sorted _ ih => exact ih ((List.mergeSort_perm _ _).mem_iff.mp member)

end DownloadList

section Long
variable {n : Nat}

/-- A name of so many bytes. -/
def nameOf (n : Nat) : String := String.ofList (List.replicate n 'x')

theorem nameOf_length (n : Nat) : (Bytes.ofText (nameOf n)).length = n := by
  have one : 'x'.utf8Size = 1 := by decide
  simp [Bytes.ofText, nameOf, List.length_flatMap, one]

theorem nameOf_ne {text : String} (other : (Bytes.ofText text).length < n) : nameOf n ≠ text := by
  rintro rfl
  rw [nameOf_length] at other
  exact Nat.lt_irrefl n other

/-- A directory below one with such a name. -/
def belowName (n : Nat) : Path := ⟨.relative, ["p", nameOf n, "q"]⟩

theorem belowName_isShort (few : n < 4000) : (belowName n).IsShort := by
  have names : (belowName n).names = "p/" ++ nameOf n ++ "/q" := by
    rw [← String.toList_inj]
    simp [Path.names, belowName, Path.anchorText]
  have size : (Bytes.ofText (belowName n).names).length = 2 + n + 2 := by
    rw [names, Bytes.ofText_append, Bytes.ofText_append, List.length_append, List.length_append,
      nameOf_length]
    rfl
  have named : (belowName n).names ≠ "" := by
    intro none
    rw [none] at size
    have : (Bytes.ofText "").length = 0 := rfl
    omega
  rw [Path.IsShort, Path.text_of_names, if_neg named, size]
  omega

theorem belowName_longName (long : 255 < n) : (belowName n).longName = 1 := by
  have fits : ¬ 255 < (Bytes.ofText "p").length := by decide
  simp [Path.longName, belowName, List.findIdx_cons, fits, nameOf_length, long]

/-- Too long a name stops the making of directories either way, and what there is decides of the
directory that the fault names. -/
theorem belowName_makes {tree : FileTree} {result : Except AccessError Unit}
    (working : tree.get? FileTree.workingDirectory = some .directory) (long : 255 < n)
    (few : n < 4000) (makes : FileTree.Makes tree (belowName n) result) :
    (tree.get? (FileTree.workingDirectory ++ ["p"]) = none →
      result = .error (FileTree.fail .nameTooLong ((belowName n).ancestor 2))) ∧
    (tree.get? (FileTree.workingDirectory ++ ["p"]) = some .directory →
      result = .error (FileTree.fail .nameTooLong (belowName n))) := by
  have nul : FileTree.hasNul (belowName n) = false := by
    simp [FileTree.hasNul, belowName, nameOf]
  have obstacle (free : ¬ tree.IsFileAt (FileTree.workingDirectory ++ ["p"])) :
      tree.obstacle? (belowName n).origin (belowName n).parts = some .nameTooLong := by
    show tree.obstacle? FileTree.workingDirectory ["p", nameOf n, "q"] = _
    have here : ¬ tree.IsFileAt FileTree.workingDirectory := by simp [FileTree.IsFileAt, working]
    rw [FileTree.obstacle?_of_not_file here, if_neg (by decide), FileTree.obstacle?_of_not_file free,
      if_pos (by rwa [nameOf_length])]
  have fits : ¬ 255 < (Bytes.ofText "p").length := by decide
  have walked : tree.walk (belowName n).origin (belowName n).parts =
      tree.walk (FileTree.workingDirectory ++ ["p"]) [nameOf n, "q"] := by
    show tree.walk FileTree.workingDirectory ["p", nameOf n, "q"] = _
    rw [FileTree.walk, working]
    simp [fits]
  constructor
  · intro missing
    rcases makes.of_tooLong nul (belowName_isShort few)
      (obstacle (by simp [FileTree.IsFileAt, missing])) with ⟨blocked, _⟩ | ⟨_, failed⟩
    · simp [walked, FileTree.walk, missing] at blocked
    · rw [failed, belowName_longName long]
  · intro there
    rcases makes.of_tooLong nul (belowName_isShort few)
      (obstacle (by simp [FileTree.IsFileAt, there])) with ⟨_, failed⟩ | ⟨blocked, _⟩
    · exact failed
    · rw [walked, FileTree.walk, there] at blocked
      have other : nameOf n ≠ ".." := nameOf_ne (Nat.lt_trans (by decide) long)
      simp [other, nameOf_length, long] at blocked

/-- A job fails with the fault of the directories above its destination. -/
theorem Worker.process_of_unmade {w : Worker} {job : DownloadJob} {e : SystemError}
    (reachable : Worker.hostFault? job.target = none)
    (failed : ((FileTree.makeDirectories job.entry.destination.parent).run.run w.files).1 =
      .error (.system e)) :
    (w.process job).1 = .finished (.failure (.connection (.system e))) := by
  obtain ⟨number, w₁, reached⟩ := Worker.connect_of_hostFault? w reachable
  obtain ⟨_, files⟩ := Worker.connect_sends reached
  rw [← files] at failed
  unfold Worker.process Worker.processOn
  rw [reached]
  rcases ran : (FileTree.makeDirectories job.entry.destination.parent).run.run w₁.files
    with ⟨result, made⟩
  rw [ran] at failed
  obtain rfl : result = _ := failed
  simp only [ran]
  rfl

end Long

/-- A worker with one job, which finishes. -/
theorem Runs.of_finished {w : Worker} {job : DownloadJob} {outcome : DownloadOutcome}
    (alone : w.queue = [job])
    (ending : (Worker.process { w with queue := [] } job).1 = .finished outcome) :
    ∃ turns w', Runs w turns none w' ∧ w'.results = w.results ++ [⟨job.entry, outcome⟩] := by
  let t : Turn := ⟨{ w with queue := [] }, job⟩
  let w' : Worker := { t.after with results := t.after.results ++ [⟨job.entry, outcome⟩] }
  have taken : w.turn? = some t := by simp [Worker.turn?, alone, t]
  have onward : t.next? = some w' := by
    unfold Turn.next? Turn.ending
    rw [ending]
  refine ⟨[t], w', .next taken onward (.done t.after_queue), ?_⟩
  show t.after.results ++ _ = _
  rw [t.after_results]

namespace DownloadList

/-- A download below a directory whose name has 256 bytes. -/
def belowLong : DownloadJob :=
  ⟨⟨false, "h", none, "/b"⟩,
    ⟨"http://h/b", ⟨.relative, ["p", nameOf 256, "q", "b"]⟩, none, none, "b"⟩⟩

/-- A download beside that directory. -/
def besideLong : DownloadJob :=
  ⟨⟨false, "h", none, "/a"⟩, ⟨"http://h/a", ⟨.relative, ["p", "a"]⟩, none, none, "a"⟩⟩

theorem belowLong_ends {w : Worker} (rooted : w.files.IsRooted)
    (working : w.files.get? FileTree.workingDirectory = some .directory) :
    (w.files.get? (FileTree.workingDirectory ++ ["p"]) = none →
      (w.process belowLong).1 = .finished (belowLong.entry.tooLong 2)) ∧
    (w.files.get? (FileTree.workingDirectory ++ ["p"]) = some .directory →
      (w.process belowLong).1 = .finished (belowLong.entry.tooLong 3)) := by
  have reachable : Worker.hostFault? belowLong.target = none := by decide
  have plain : (belowName 256).IsPlain := by
    have other : ".." ≠ nameOf 256 := Ne.symm (nameOf_ne (by decide))
    simp [Path.IsPlain, belowName, other]
  have makes := FileTree.makeDirectories_makes (belowName 256) w.files plain (rooted.to _)
  obtain ⟨missing, there⟩ := belowName_makes working (by decide) (by decide) makes
  exact ⟨fun none => Worker.process_of_unmade reachable (missing none),
    fun directory => Worker.process_of_unmade reachable (there directory)⟩

theorem belowLong_results :
    ((empty.put belowLong).download 1 .empty .empty).results =
      [⟨belowLong.entry, belowLong.entry.tooLong 2⟩] := by
  have single : (empty.put belowLong).sorted = empty.put belowLong :=
    sorted_eq (List.pairwise_singleton _ _)
  have queue : ((empty.put belowLong).worker .empty .empty).queue = [belowLong] := by
    rw [worker, single]
    rfl
  obtain ⟨_, w, runs, results⟩ := Runs.of_finished queue
    ((belowLong_ends (FileTree.isRooted_of_entries (by decide)) (by decide)).1 (by decide))
  rw [download_of_runs (Int.le_refl 1) runs]
  exact results

/-- Both downloads. -/
def besideAndBelow : DownloadList := (empty.put besideLong).put belowLong

theorem besideAndBelow_built : besideAndBelow.Built := by
  have first : empty.add .empty besideLong.entry false = .ok (true, empty.put besideLong) := rfl
  have second : (empty.put besideLong).add .empty belowLong.entry false =
      .ok (true, besideAndBelow) := by
    have parsed : DownloadTarget.ofUrl belowLong.entry.url = .ok belowLong.target := rfl
    have free : ¬ (empty.put besideLong).destinations.contains belowLong.entry.destination := by
      simp [empty, put, besideLong, belowLong]
    simp only [add, if_neg free, isPresent, Bool.false_eq_true, if_false, parsed]
    rfl
  exact (Built.empty.add first).add second

theorem besideAndBelow_ends :
    (besideAndBelow.download 1 .empty .empty).error = none ∧
      (besideAndBelow.download 1 .empty .empty).results =
        [⟨besideLong.entry, .failure .notFound⟩, ⟨belowLong.entry, belowLong.entry.tooLong 3⟩] := by
  have sorted : besideAndBelow.sorted = besideAndBelow := sorted_eq (by decide)
  -- The first turn makes the directory that the second one then need not make.
  let t : Turn := ⟨⟨[belowLong], [], [], .empty, .empty⟩, besideLong⟩
  let w : Worker :=
    { t.after with results := t.after.results ++ [⟨besideLong.entry, .failure .notFound⟩] }
  have ending : t.ending = .finished (.failure .notFound) := by decide +kernel
  have taken : (besideAndBelow.worker .empty .empty).turn? = some t := by
    rw [worker, sorted]
    rfl
  have onward : t.next? = some w := by
    unfold Turn.next?
    rw [ending]
  have rooted : w.files.IsRooted := FileTree.isRooted_of_entries (by decide +kernel)
  obtain ⟨_, w', runs, results⟩ := Runs.of_finished (w := w) t.after_queue
    ((belowLong_ends (w := { w with queue := [] }) rooted (by decide +kernel)).2 (by decide +kernel))
  rw [download_of_runs (Int.le_refl 1) (.next taken onward runs)]
  refine ⟨rfl, results.trans ?_⟩
  show (t.after.results ++ _) ++ _ = _
  rw [t.after_results]
  rfl

end DownloadList
end Launcher
