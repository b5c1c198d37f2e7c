import Launcher.Proofs.Download.Redirection

/-! The end of a batch. While a job waits that does not go in a circle, the work comes nearer to its
end with every turn, and the bound of a worker is never too small. -/
namespace Launcher

namespace Script
variable {script : Script} {url : String} {urls : List String}

/-- How many replies will be given once and not again. -/
def excess (script : Script) : List String → Nat
  | [] => 0
  | url :: urls => (script url).length - 1 + excess script urls

theorem length_next_le (script : Script) (url other : String) :
    (script.next url other).length ≤ (script other).length := by
  unfold next
  split
  · rename_i same
    rw [same]
    unfold Network.nextReply
    split <;> simp [*]
  · exact Nat.le_refl _

theorem length_next_lt (many : 2 ≤ (script url).length) :
    (script.next url url).length < (script url).length := by
  rw [next, if_pos rfl]
  unfold Network.nextReply
  split <;> simp_all

theorem excess_next_le (script : Script) (url : String) (urls : List String) :
    (script.next url).excess urls ≤ script.excess urls := by
  induction urls with
  | nil => exact Nat.le_refl _
  | cons other urls ih =>
    have short := length_next_le script url other
    rw [excess, excess]
    omega

theorem excess_next_lt (many : 2 ≤ (script url).length) (member : url ∈ urls) :
    (script.next url).excess urls < script.excess urls := by
  have short := length_next_lt many
  induction urls with
  | nil => contradiction
  | cons other urls ih =>
    have here := length_next_le script url other
    have there := excess_next_le script url urls
    rw [excess, excess]
    rcases List.mem_cons.mp member with rfl | member
    · omega
    · have := ih member
      omega

theorem IsWithin.next (within : script.IsWithin urls) (url : String) :
    (script.next url).IsWithin urls := by
  intro other some
  refine within other ?_
  have short := length_next_le script url other
  have := List.length_pos_iff.mpr some
  exact List.length_pos_iff.mp (by omega)

theorem excess_filter {script' : Script}
    (others : ∀ other, other ≠ url → script' other = script other) (urls : List String) :
    script'.excess (urls.filter (· ≠ url)) + (urls.filter (· ≠ url)).length ≤
      script.excess urls + urls.length := by
  induction urls with
  | nil => exact Nat.le_refl _
  | cons other urls ih =>
    rw [excess, List.length_cons]
    by_cases same : other = url
    · rw [List.filter_cons_of_neg (by simpa using same)]
      omega
    · rw [List.filter_cons_of_pos (by simpa using same), excess, List.length_cons,
        others other same]
      omega

end Script

/-- How many replies there are in all. -/
def Network.replies (routes : List (String × List Reply)) : Nat :=
  routes.foldl (fun n route => n + route.2.length) 0

theorem Network.replies_cons (route : String × List Reply) (routes : List (String × List Reply)) :
    replies (route :: routes) = route.2.length + replies routes := by
  rw [replies, List.foldl_cons, Nat.add_comm]
  exact List.foldl_hom (route.2.length + ·) fun n next => Nat.add_assoc _ n next.2.length

/-- The URLs that have replies and the replies that are given once are no more than all replies. -/
theorem Network.exists_urls (routes : List (String × List Reply)) :
    ∃ urls, (Network.mk routes [] 0).script.IsWithin urls ∧
      (Network.mk routes [] 0).script.excess urls + urls.length ≤
        replies routes := by
  induction routes with
  | nil => exact ⟨[], fun _ some => absurd rfl some, Nat.le_refl _⟩
  | cons route routes ih =>
    obtain ⟨urls, within, few⟩ := ih
    have here : (Network.mk (route :: routes) [] 0).script route.1 = route.2 := by
      simp [script]
    have others : ∀ other, other ≠ route.1 →
        (Network.mk (route :: routes) [] 0).script other =
          (Network.mk routes [] 0).script other := by
      intro other different
      simp [script, Ne.symm different]
    have fewer := Script.excess_filter others urls
    have kept : ∀ other, other ≠ route.1 →
        (Network.mk (route :: routes) [] 0).script other ≠ [] →
        other ∈ urls.filter (· ≠ route.1) := by
      intro other different some
      rw [others other different] at some
      exact List.mem_filter.mpr ⟨within other some, by simpa using different⟩
    rw [replies_cons]
    by_cases none : route.2 = []
    · refine ⟨urls.filter (· ≠ route.1), fun other some => ?_, by omega⟩
      refine kept other ?_ some
      rintro rfl
      exact some (here.trans none)
    · have := List.length_pos_iff.mpr none
      refine ⟨route.1 :: urls.filter (· ≠ route.1), fun other some => ?_, ?_⟩
      · by_cases same : other = route.1
        · exact same ▸ List.mem_cons_self
        · exact List.mem_cons_of_mem _ (kept other same some)
      · rw [Script.excess, List.length_cons, here]
        omega

namespace Turn
variable {t : Turn} {next : DownloadTarget}

theorem redirected_of_moves
    (housed : t.worker.files.isDirectory t.job.entry.destination.parent = .ok true)
    (moves : t.worker.network.script.Moves t.job.entry t.job.target next) :
    t.ending = .redirected next := by
  obtain ⟨requestable, reply, only, redirects⟩ := moves
  refine Worker.process_of_redirects requestable housed ?_
  rw [Worker.answer_reply, only]
  exact redirects

/-- A redirected job moves, or it takes one of the replies that are given once. -/
theorem moves_of_redirected (connected : t.worker.IsConnected)
    (redirected : t.ending = .redirected next) :
    (t.worker.network.script.Moves t.job.entry t.job.target next ∧
        t.after.network.script = t.worker.network.script) ∨
      (2 ≤ (t.worker.network.script t.job.target.url).length ∧
        t.after.network.script = t.worker.network.script.next t.job.target.url) := by
  obtain ⟨requestable, redirects, _, script⟩ := Worker.process_redirected connected redirected
  rw [Worker.answer_reply] at redirects
  match replies : t.worker.network.script t.job.target.url with
  | [] =>
    obtain ⟨status, _, _, missing, redirection, _⟩ := redirects
    rw [replies] at missing
    cases missing
    contradiction
  | [reply] =>
    rw [replies] at redirects
    exact .inl ⟨⟨requestable, reply, replies, redirects⟩,
      script.trans (Script.next_of_singleton replies)⟩
  | _ :: _ :: _ => exact .inr ⟨by simp, script⟩

theorem isDirectory_of_redirected (connected : t.worker.IsConnected)
    (redirected : t.ending = .redirected next) :
    t.after.files.isDirectory t.job.entry.destination.parent = .ok true :=
  (Worker.process_redirected connected redirected).2.2.1

end Turn

namespace Worker
variable {w w' : Worker} {t : Turn} {turns : List Turn} {crash : Option CrashCause}

theorem isConnected_of_turn? (taken : w.turn? = some t) (h : w.IsConnected) :
    t.worker.IsConnected := by
  rw [(queue_of_turn? taken).2]
  exact h

/-- Every job that waits goes in a circle, and the directories for it are made. -/
structure IsCircling (w : Worker) : Prop where
  connected : w.IsConnected
  waits : w.queue ≠ []
  housed : ∀ job ∈ w.queue, w.files.isDirectory job.entry.destination.parent = .ok true
  circles : ∀ job ∈ w.queue, w.network.script.Circles job.entry job.target

theorem IsCircling.redirected (h : w.IsCircling) (taken : w.turn? = some t) :
    ∃ next, t.ending = .redirected next ∧ w.network.script.Circles t.job.entry next ∧
      t.after.network.script = w.network.script := by
  have waits : t.job ∈ w.queue := by
    rw [(queue_of_turn? taken).1]
    exact List.mem_cons_self
  obtain ⟨next, moves, circles⟩ := (h.circles t.job waits).moves
  have housed := h.housed t.job waits
  rw [← files_of_turn? taken] at housed
  rw [← network_of_turn? taken] at moves circles ⊢
  have redirected := Turn.redirected_of_moves housed moves
  refine ⟨next, redirected, circles, ?_⟩
  obtain ⟨_, _, _, script⟩ :=
    process_redirected (isConnected_of_turn? taken h.connected) redirected
  obtain ⟨_, reply, only, _⟩ := moves
  exact script.trans (Script.next_of_singleton only)

theorem IsCircling.next {w₁ : Worker} (h : w.IsCircling) (taken : w.turn? = some t)
    (onward : t.next? = some w₁) : w₁.IsCircling := by
  obtain ⟨next, redirected, circles, script⟩ := h.redirected taken
  obtain ⟨queue, _⟩ := queue_of_turn? taken
  have connected := isConnected_of_turn? taken h.connected
  have keeps := t.effect.keepsDirectories
  rw [files_of_turn? taken] at keeps
  obtain ⟨sent, _, sends⟩ := t.sends
  simp only [Turn.next?, redirected, Option.some.injEq] at onward
  subst onward
  refine ⟨sends.isConnected connected, by simp, ?_, ?_⟩
  · intro job member
    rcases List.mem_append.mp member with waits | put
    · rw [t.after_queue] at waits
      exact FileTree.isDirectory_mono keeps
        (h.housed job (queue ▸ List.mem_cons_of_mem _ waits))
    · obtain rfl := List.mem_singleton.mp put
      exact Turn.isDirectory_of_redirected connected redirected
  · intro job member
    simp only [script]
    rcases List.mem_append.mp member with waits | put
    · rw [t.after_queue] at waits
      exact h.circles job (queue ▸ List.mem_cons_of_mem _ waits)
    · obtain rfl := List.mem_singleton.mp put
      exact circles

/-- A worker whose jobs all go in circles never ends. -/
theorem IsCircling.not_runs (h : w.IsCircling) : ¬ Runs w turns crash w' := by
  intro runs
  induction runs with
  | done empty => exact h.waits empty
  | crashed taken ending =>
    obtain ⟨next, redirected, _⟩ := h.redirected taken
    rw [ending] at redirected
    cases redirected
  | next taken onward _ ih => exact ih (h.next taken onward)

/-- A job that waits, and the targets that it moved from. -/
structure Walk where
  job : DownloadJob
  past : List DownloadTarget

/-- The walk that a job begins. -/
def Walk.start (job : DownloadJob) : Walk := ⟨job, []⟩

structure Walk.IsOn (walk : Walk) (files : FileTree) (script : Script) : Prop where
  leads : script.Leads walk.job.entry walk.past walk.job.target
  housed : walk.past ≠ [] → files.isDirectory walk.job.entry.destination.parent = .ok true

theorem Walk.start_isOn (job : DownloadJob) (files : FileTree) (script : Script) :
    (Walk.start job).IsOn files script :=
  ⟨.start _, fun moved => absurd rfl moved⟩

/-- The walks of all jobs of a worker. The first job in the queue never got further than the others,
and is no more than one move behind them. -/
structure Walks (urls : List String) (w : Worker) (walks : List Walk) : Prop where
  connected : w.IsConnected
  within : w.network.script.IsWithin urls
  queue : w.queue = walks.map (·.job)
  on : ∀ walk ∈ walks, walk.IsOn w.files w.network.script
  even : walks.Pairwise fun a b =>
    a.past.length ≤ b.past.length ∧ b.past.length ≤ a.past.length + 1

/-- How many moves walks of this length have left. -/
def movesLeft (length : Nat) : List Walk → Nat
  | [] => 0
  | walk :: walks => length - walk.past.length + movesLeft length walks

theorem movesLeft_append (length : Nat) (walks walks' : List Walk) :
    movesLeft length (walks ++ walks') = movesLeft length walks + movesLeft length walks' := by
  induction walks with
  | nil => simp [movesLeft]
  | cons walk walks ih => simp [movesLeft, ih, Nat.add_assoc]

theorem movesLeft_le (length : Nat) (walks : List Walk) :
    movesLeft length walks ≤ walks.length * length := by
  induction walks with
  | nil => exact Nat.zero_le _
  | cons walk walks ih =>
    rw [movesLeft, List.length_cons, Nat.succ_mul]
    omega

/-- How many turns are left at most before all jobs go in circles. -/
def turnsLeft (urls : List String) (jobs : Nat) (script : Script) (walks : List Walk) : Nat :=
  script.excess urls * (jobs * (urls.length + 1) + 1) + movesLeft (urls.length + 1) walks

theorem Sends.script_induction {motive : Script → Prop} {sent : List String}
    (sends : w.Sends sent w') (step : ∀ script url, motive script → motive (script.next url))
    (h : motive w.network.script) : motive w'.network.script := by
  rw [sends.script]
  exact List.foldlRecOn sent Script.next h fun script kept url _ => step script url kept

section Walks
variable {urls : List String} {walk : Walk} {walks : List Walk}

/-- Walks as long as that of the first job are all in circles. -/
theorem Walks.isCircling (h : w.Walks urls (walk :: walks))
    (long : urls.length < walk.past.length) : w.IsCircling := by
  have longer : ∀ other ∈ walk :: walks, urls.length < other.past.length := by
    intro other member
    rcases List.mem_cons.mp member with rfl | member
    · exact long
    · exact Nat.lt_of_lt_of_le long ((List.pairwise_cons.mp h.even).1 other member).1
  refine ⟨h.connected, by simp [h.queue], ?_, ?_⟩
  · intro job waits
    obtain ⟨other, member, rfl⟩ := List.mem_map.mp (h.queue ▸ waits)
    exact (h.on other member).housed (List.ne_nil_of_length_pos (Nat.zero_lt_of_lt
      (longer other member)))
  · intro job waits
    obtain ⟨other, member, rfl⟩ := List.mem_map.mp (h.queue ▸ waits)
    exact (h.on other member).leads.circles h.within (longer other member)

/-- A turn takes the first walk away and breaks off no other one. -/
theorem Walks.after (h : w.Walks urls (walk :: walks)) (taken : w.turn? = some t) :
    t.job = walk.job ∧ t.after.Walks urls walks := by
  obtain ⟨queue, _⟩ := queue_of_turn? taken
  obtain ⟨sent, _, sends⟩ := t.sends
  have keeps := t.effect.keepsDirectories
  rw [files_of_turn? taken] at keeps
  have waiting := h.queue
  rw [queue, List.map_cons] at waiting
  obtain ⟨first, rest⟩ := List.cons.inj waiting
  refine ⟨first, sends.isConnected (isConnected_of_turn? taken h.connected), ?_,
    t.after_queue.trans rest, ?_, (List.pairwise_cons.mp h.even).2⟩
  · refine sends.script_induction (motive := (Script.IsWithin · urls))
      (fun _ url within => within.next url) ?_
    rw [network_of_turn? taken]
    exact h.within
  · intro other member
    obtain ⟨leads, housed⟩ := h.on other (List.mem_cons_of_mem _ member)
    refine ⟨?_, fun moved => FileTree.isDirectory_mono keeps (housed moved)⟩
    refine sends.script_induction
      (motive := (Script.Leads · other.job.entry other.past other.job.target))
      (fun _ url leads => leads.next url) ?_
    rw [network_of_turn? taken]
    exact leads

theorem Walks.restart (h : w.Walks urls walks) :
    w.Walks urls (walks.map fun walk => .start walk.job) := by
  refine ⟨h.connected, h.within, ?_, ?_, ?_⟩
  · rw [h.queue, List.map_map]
    rfl
  · intro walk member
    obtain ⟨_, _, rfl⟩ := List.mem_map.mp member
    exact Walk.start_isOn _ _ _
  · exact List.pairwise_map.mpr (List.pairwise_of_forall fun _ _ => ⟨Nat.zero_le _, Nat.zero_le _⟩)

theorem Walks.put (h : w.Walks urls walks) (on : walk.IsOn w.files w.network.script)
    (even : ∀ other ∈ walks, other.past.length ≤ walk.past.length ∧
      walk.past.length ≤ other.past.length + 1) :
    Walks urls { w with queue := w.queue ++ [walk.job] } (walks ++ [walk]) := by
  refine ⟨h.connected, h.within, by simp [h.queue], ?_, ?_⟩
  · intro other member
    rcases List.mem_append.mp member with waits | put
    · exact h.on other waits
    · exact List.mem_singleton.mp put ▸ on
  · refine List.pairwise_append.mpr ⟨h.even, List.pairwise_singleton _ _, ?_⟩
    intro other waits put member
    obtain rfl := List.mem_singleton.mp member
    exact even other waits

theorem turnsLeft_cons (jobs : Nat) (script : Script) :
    turnsLeft urls jobs script (walk :: walks) =
      urls.length + 1 - walk.past.length + turnsLeft urls jobs script walks := by
  simp only [turnsLeft, movesLeft]
  omega

theorem turnsLeft_append (jobs : Nat) (script : Script) :
    turnsLeft urls jobs script (walks ++ [walk]) =
      turnsLeft urls jobs script walks + (urls.length + 1 - walk.past.length) := by
  simp only [turnsLeft, movesLeft_append, movesLeft]
  omega

theorem turnsLeft_mono (jobs : Nat) (walks : List Walk) {script script' : Script}
    (fewer : script'.excess urls ≤ script.excess urls) :
    turnsLeft urls jobs script' walks ≤ turnsLeft urls jobs script walks :=
  Nat.add_le_add_right (Nat.mul_le_mul_right _ fewer) _

/-- A reply that is not given again outweighs all walks. -/
theorem turnsLeft_lt {jobs : Nat} {script script' : Script} {walks' : List Walk}
    (fewer : script'.excess urls < script.excess urls) (few : walks'.length ≤ jobs) :
    turnsLeft urls jobs script' walks' < turnsLeft urls jobs script walks := by
  have all := movesLeft_le (urls.length + 1) walks'
  have within := Nat.mul_le_mul_right (urls.length + 1) few
  have replies := Nat.mul_le_mul_right (jobs * (urls.length + 1) + 1) fewer
  rw [Nat.succ_mul] at replies
  unfold turnsLeft
  omega

/-- There are walks for a worker that leave it less than so many turns. -/
def Nears (urls : List String) (jobs turns : Nat) (w : Worker) : Prop :=
  ∃ walks, w.Walks urls walks ∧ walks.length ≤ jobs ∧
    turnsLeft urls jobs w.network.script walks < turns

theorem Walks.finished {jobs : Nat} (h : w.Walks urls (walk :: walks))
    (few : walks.length < jobs) (short : walk.past.length ≤ urls.length)
    (taken : w.turn? = some t) (results : List DownloadResult) :
    Nears urls jobs (turnsLeft urls jobs w.network.script (walk :: walks))
      { t.after with results } := by
  obtain ⟨_, after⟩ := h.after taken
  obtain ⟨sent, _, sends⟩ := t.sends
  have fewer : t.after.network.script.excess urls ≤ t.worker.network.script.excess urls :=
    sends.script_induction (motive := (Script.excess · urls ≤ t.worker.network.script.excess urls))
      (fun script url => Nat.le_trans (script.excess_next_le url urls)) (Nat.le_refl _)
  rw [network_of_turn? taken] at fewer
  refine ⟨walks, ⟨after.connected, after.within, after.queue, after.on, after.even⟩,
    Nat.le_of_lt few, ?_⟩
  have left := turnsLeft_mono jobs walks fewer
  rw [turnsLeft_cons]
  simp only
  omega

theorem Walks.moved {jobs : Nat} {next : DownloadTarget} (h : w.Walks urls (walk :: walks))
    (few : walks.length < jobs) (short : walk.past.length ≤ urls.length)
    (taken : w.turn? = some t)
    (housed : t.after.files.isDirectory t.job.entry.destination.parent = .ok true)
    (moves : w.network.script.Moves t.job.entry t.job.target next)
    (script : t.after.network.script = w.network.script) :
    Nears urls jobs (turnsLeft urls jobs w.network.script (walk :: walks))
      { t.after with queue := t.after.queue ++ [⟨next, t.job.entry⟩] } := by
  obtain ⟨same, after⟩ := h.after taken
  let moved : Walk := ⟨⟨next, t.job.entry⟩, t.job.target :: walk.past⟩
  have on : moved.IsOn t.after.files t.after.network.script := by
    have leads := (h.on walk List.mem_cons_self).leads
    rw [← same] at leads
    rw [script]
    exact ⟨.move leads moves, fun _ => housed⟩
  refine ⟨walks ++ [moved], after.put on ?_, by rwa [List.length_append], ?_⟩
  · intro other member
    have even := (List.pairwise_cons.mp h.even).1 other member
    simp only [moved, List.length_cons]
    omega
  · simp only [script]
    rw [turnsLeft_append, turnsLeft_cons]
    simp only [moved, List.length_cons]
    omega

/-- A reply that is not given again lets all walks begin anew. -/
theorem Walks.restarted {jobs : Nat} {next : DownloadTarget} (h : w.Walks urls (walk :: walks))
    (few : walks.length < jobs) (taken : w.turn? = some t)
    (many : 2 ≤ (w.network.script t.job.target.url).length)
    (script : t.after.network.script = w.network.script.next t.job.target.url) :
    Nears urls jobs (turnsLeft urls jobs w.network.script (walk :: walks))
      { t.after with queue := t.after.queue ++ [⟨next, t.job.entry⟩] } := by
  obtain ⟨_, after⟩ := h.after taken
  have fewer := Script.excess_next_lt many
    (h.within t.job.target.url (List.ne_nil_of_length_pos (by omega)))
  have few : ((walks.map fun walk => Walk.start walk.job) ++
      [Walk.start ⟨next, t.job.entry⟩]).length ≤ jobs := by
    rwa [List.length_append, List.length_map]
  refine ⟨_, after.restart.put (Walk.start_isOn _ _ _) ?_, few, ?_⟩
  · intro other member
    obtain ⟨_, _, rfl⟩ := List.mem_map.mp member
    exact ⟨Nat.le_refl _, Nat.zero_le _⟩
  · simp only [script]
    exact turnsLeft_lt fewer few

/-- A turn brings the work nearer to its end, unless all jobs go in circles. -/
theorem Walks.step {jobs : Nat} {w₁ : Worker} (h : w.Walks urls (walk :: walks))
    (few : walks.length < jobs) (short : walk.past.length ≤ urls.length)
    (taken : w.turn? = some t) (onward : t.next? = some w₁) :
    Nears urls jobs (turnsLeft urls jobs w.network.script (walk :: walks)) w₁ := by
  have connected := isConnected_of_turn? taken h.connected
  unfold Turn.next? at onward
  split at onward
  · obtain rfl := Option.some.inj onward
    exact h.finished few short taken _
  · rename_i next redirected
    obtain rfl := Option.some.inj onward
    have housed := Turn.isDirectory_of_redirected connected redirected
    rcases Turn.moves_of_redirected connected redirected with ⟨moves, script⟩ | ⟨many, script⟩
    · rw [network_of_turn? taken] at moves script
      exact h.moved few short taken housed moves script
    · rw [network_of_turn? taken] at many script
      exact h.restarted few taken many script
  · contradiction

theorem Walks.short_of_runs (h : w.Walks urls walks) (runs : Runs w turns crash w')
    (taken : w.turn? = some t) :
    ∃ walk rest, walks = walk :: rest ∧ walk.past.length ≤ urls.length := by
  cases walks with
  | nil =>
    rw [turn?_eq_none.mpr h.queue] at taken
    contradiction
  | cons walk rest =>
    refine ⟨walk, rest, rfl, Nat.le_of_not_lt fun long => ?_⟩
    exact (h.isCircling long).not_runs runs

/-- A run takes no more turns than are left before all jobs go in circles. -/
theorem Walks.length_le {jobs : Nat} (h : w.Walks urls walks) (few : walks.length ≤ jobs)
    (runs : Runs w turns crash w') :
    turns.length ≤ turnsLeft urls jobs w.network.script walks := by
  -- A run cannot begin with all jobs in circles, and so there is a turn left for each turn.
  induction runs generalizing walks with
  | done _ => exact Nat.zero_le _
  | crashed taken ending =>
    obtain ⟨walk, rest, rfl, short⟩ := h.short_of_runs (.crashed taken ending) taken
    rw [turnsLeft_cons]
    simp only [List.length_singleton]
    omega
  | next taken onward runs ih =>
    obtain ⟨walk, rest, rfl, short⟩ := h.short_of_runs (.next taken onward runs) taken
    obtain ⟨walks₁, h₁, few₁, less⟩ := h.step few short taken onward
    have later := ih h₁ few₁
    simp only [List.length_cons]
    omega

theorem turnsLeft_le_bound {network : Network}
    (few : network.script.excess urls + urls.length ≤ Network.replies network.routes)
    (waits : 0 < walks.length) :
    turnsLeft urls walks.length network.script walks ≤ bound network walks.length := by
  have all := movesLeft_le (urls.length + 1) walks
  unfold bound turnsLeft
  simp only
  rw [← Network.replies]
  generalize Network.replies network.routes = replies at few ⊢
  generalize network.script.excess urls = excess at few ⊢
  generalize walks.length = jobs at waits all ⊢
  have walk : jobs * (urls.length + 1) ≤ jobs * (replies + 1) :=
    Nat.mul_le_mul_left _ (by omega)
  calc _ ≤ replies * (jobs * (replies + 1) + jobs) + (jobs * (replies + 1) + jobs) :=
        Nat.add_le_add (Nat.mul_le_mul (by omega) (by omega)) (by omega)
    _ = (replies + 1) * jobs * (replies + 2) := by grind
    _ ≤ (replies + 1) * jobs * (replies + 3) := Nat.mul_le_mul_left _ (by omega)

end Walks

end Worker

namespace DownloadList
variable {list : DownloadList} {threads : Int} {files : FileTree} {network : Network}

/-- All jobs of a batch begin a walk. -/
theorem worker_walks (list : DownloadList) (files : FileTree) {network : Network}
    {urls : List String} (within : network.script.IsWithin urls) :
    (list.worker files network).Walks urls (list.sorted.jobs.map Worker.Walk.start) := by
  refine ⟨fun c member => ?_, within, ?_, ?_, ?_⟩
  · contradiction
  · simp [worker, Worker.Walk.start, Function.comp_def]
  · intro walk member
    obtain ⟨job, _, rfl⟩ := List.mem_map.mp member
    exact Worker.Walk.start_isOn job _ _
  · exact List.pairwise_map.mpr
      (List.pairwise_of_forall fun _ _ => ⟨Nat.zero_le _, Nat.zero_le _⟩)

/-- The bound of a worker is enough for each of its runs. -/
theorem length_le_bound {turns : List Turn} {crash : Option CrashCause} {w : Worker}
    (runs : Runs (list.worker files network) turns crash w) :
    turns.length ≤ Worker.bound network list.sorted.jobs.length := by
  obtain ⟨urls, within, few⟩ := Network.exists_urls network.routes
  let walks := list.sorted.jobs.map Worker.Walk.start
  have starts : (list.worker files network).Walks urls walks := list.worker_walks files within
  have all : walks.length = list.sorted.jobs.length := List.length_map _
  have short := starts.length_le (Nat.le_of_eq all) runs
  by_cases empty : list.sorted.jobs = []
  · cases runs with
    | done _ => exact Nat.zero_le _
    | crashed taken _ => cases (Worker.turn?_eq_none.mpr empty).symm.trans taken
    | next taken _ _ => cases (Worker.turn?_eq_none.mpr empty).symm.trans taken
  · refine Nat.le_trans short ?_
    have waits : 0 < list.sorted.jobs.length := List.length_pos_iff.mpr empty
    rw [← all] at waits ⊢
    exact Worker.turnsLeft_le_bound few waits

/-- A batch is endless exactly if its worker never comes to an end. -/
theorem download_unending_iff :
    (list.download threads files network).error = some .unending ↔
      1 ≤ threads ∧ ¬ ∃ turns crash w, Runs (list.worker files network) turns crash w := by
  unfold download
  simp only
  by_cases empty : list.sorted.jobs = []
  · have runs : Runs (list.worker files network) [] none (list.worker files network) := .done empty
    rw [if_pos empty]
    simp only [reduceCtorEq, false_iff]
    exact fun ⟨_, never⟩ => never ⟨_, _, _, runs⟩
  · rw [if_neg empty]
    by_cases none : threads < 1
    · rw [if_pos none]
      exact iff_of_false (by simp) fun ⟨enough, _⟩ => absurd enough (Int.not_le.mpr none)
    · rw [if_neg none]
      split
      · rename_i spent
        refine iff_of_true rfl ⟨Int.not_lt.mp none, ?_⟩
        rintro ⟨turns, crash, w, runs⟩
        have ends := Worker.run_iff.mpr ⟨turns, length_le_bound runs, runs⟩
        rw [worker, spent] at ends
        contradiction
      · rename_i crash w ran
        obtain ⟨turns, _, runs⟩ := Worker.run_iff.mp ran
        refine iff_of_false ?_ fun ⟨_, never⟩ => never ⟨turns, crash, w, runs⟩
        cases crash <;> simp

/-- With threads a batch is what any run of its worker leaves. -/
theorem download_of_runs {turns : List Turn} {crash : Option CrashCause} {w : Worker}
    (positive : 1 ≤ threads) (runs : Runs (list.worker files network) turns crash w) :
    list.download threads files network = list.ended crash w := by
  rcases list.download_cases threads files network with
    ⟨crash', w', runs', same⟩ | ⟨error, unending | ⟨none, _⟩, same⟩
  · obtain ⟨rfl, rfl⟩ := runs'.unique runs
    exact same
  · have endless : (list.download threads files network).error = some .unending := by
      rw [same, unending]
    exact absurd ⟨turns, crash, w, runs⟩ (download_unending_iff.mp endless).2
  · exact absurd positive (Int.not_le.mpr none)

end DownloadList
end Launcher
