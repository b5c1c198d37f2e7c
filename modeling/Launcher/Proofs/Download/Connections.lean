import Launcher.Proofs.Download.Run

/-! The connections of a worker. One serves a single scheme, host and port, and stays in use until a
download on it ends with the code of a connection that failed: then it is closed, and is never seen
again. What fails at one host does nothing to the connections of others. -/
namespace Launcher

/-- The connection that an event is on. -/
def NetworkEvent.connection? : NetworkEvent → Option Nat
  | .fetch _ _ _ => none
  | .request number _ => some number
  | .close number => some number

/-- A job ends with the code of a connection that failed. -/
def JobEnd.disconnects : JobEnd → Bool
  | .finished (.failure failure) => failure.code = "connection"
  | _ => false

namespace Worker
variable {w : Worker} {origin : Origin} {number : Nat} {ended : JobEnd × Worker}

/-- The end of a job on a connection. If it has the code of a connection that failed, the connection
is closed and forgotten, and else nothing is done to any connection. -/
structure Settles (w : Worker) (origin : Origin) (number : Nat) (ended : JobEnd × Worker) :
    Prop where
  log : ended.2.network.log =
    w.network.log ++ if ended.1.disconnects then [.close number] else []
  count : ended.2.network.connections = w.network.connections
  connections : ended.2.connections =
    if ended.1.disconnects then w.connections.filter (·.1 != origin) else w.connections

theorem Settles.unchanged {ending : JobEnd} {w' : Worker} (stays : ending.disconnects = false)
    (network : w'.network = w.network) (connections : w'.connections = w.connections) :
    w.Settles origin number (ending, w') := by
  constructor <;> simp [stays, network, connections]

theorem Settles.of_files {files : FileTree}
    (settles : { w with files }.Settles origin number ended) : w.Settles origin number ended :=
  ⟨settles.log, settles.count, settles.connections⟩

theorem failed_settles (w : Worker) (origin : Origin) (number : Nat) (error : TransferError) :
    w.Settles origin number (w.failed origin number error) := ⟨rfl, rfl, rfl⟩

theorem denied_settles (w : Worker) (origin : Origin) (number : Nat) (error : AccessError) :
    w.Settles origin number (w.denied origin number error) := by
  cases error with
  | system e => exact failed_settles w origin number (.system e)
  | embeddedNul => exact .unchanged rfl rfl rfl

theorem broken_settles (w : Worker) (origin : Origin) (number : Nat) (fault : ConnectionFault) :
    w.Settles origin number (w.broken origin number fault) := by
  cases fault with
  | system e => exact failed_settles w origin number (.system e)
  | exchange e => exact failed_settles w origin number (.exchange e)
  | interrupted => exact .unchanged rfl rfl rfl

theorem verify_disconnects (entry : DownloadEntry) (body : Bytes) :
    (JobEnd.finished (verify entry body)).disconnects = false := by
  unfold verify verify.verifySha1
  simp only
  repeat' split
  all_goals rfl

theorem store_settles (w : Worker) (job : DownloadJob) (number : Nat) (body : Bytes)
    (cut : Option ConnectionFailure) :
    w.Settles job.target.origin number (w.store job number body cut) := by
  rw [store_eq]
  split
  · exact denied_settles w _ _ _
  · split
    · exact .unchanged (verify_disconnects _ _) rfl rfl
    · split
      · exact .unchanged rfl rfl rfl
      · exact .of_files (broken_settles { w with files := _ } _ _ _)

theorem respond_settles (w : Worker) (number : Nat) (job : DownloadJob) (reply : Reply) :
    w.Settles job.target.origin number (w.respond number job reply) := by
  unfold respond
  cases reply with
  | failure failure => exact broken_settles w _ _ _
  | response status headers body cut =>
    simp only
    split
    · exact store_settles w job number body cut
    · split
      · exact broken_settles w _ _ _
      · split
        · split <;> exact .unchanged rfl rfl rfl
        · exact .unchanged rfl rfl rfl

/-- The processing of a job on a connection: one request at most, and then an end. -/
structure Serves (w : Worker) (job : DownloadJob) (number : Nat) (ended : JobEnd × Worker) :
    Prop where
  log : ∃ sent, sent.Sublist [NetworkEvent.request number job.target.url] ∧
    ended.2.network.log =
      w.network.log ++ sent ++ if ended.1.disconnects then [.close number] else []
  count : ended.2.network.connections = w.network.connections
  connections : ended.2.connections =
    if ended.1.disconnects then w.connections.filter (·.1 != job.target.origin) else w.connections

theorem Settles.serves {job : DownloadJob} (settles : w.Settles job.target.origin number ended) :
    w.Serves job number ended :=
  ⟨⟨[], List.nil_sublist _, by rw [settles.log, List.append_nil]⟩, settles.count,
    settles.connections⟩

theorem request_serves (w : Worker) (number : Nat) (job : DownloadJob) :
    w.Serves job number (w.request number job) := by
  unfold request
  simp only
  split
  · exact (failed_settles w _ _ _).serves
  · split
    · exact (Settles.unchanged rfl rfl rfl).serves
    · let sent := w.network.record (.request number job.target.url)
      obtain ⟨log, count⟩ := answer_log sent job.target.url
      have settles := respond_settles { w with network := (sent.answer job.target.url).2 } number
        job (sent.answer job.target.url).1
      refine ⟨⟨_, .refl _, ?_⟩, settles.count.trans count, settles.connections⟩
      rw [settles.log, log]
      rfl

theorem processOn_serves (w : Worker) (number : Nat) (job : DownloadJob) :
    w.Serves job number (w.processOn number job) := by
  unfold processOn
  split
  · exact (Settles.of_files (denied_settles { w with files := _ } _ _ _)).serves
  · rename_i files _
    obtain ⟨log, count, connections⟩ := request_serves { w with files } number job
    exact ⟨log, count, connections⟩

/-- A connection is refused or found. A new one has a number that was not given out before, and the
others are left as they are. -/
theorem connect_cases (w : Worker) (target : DownloadTarget) :
    (∃ fault, w.connect target = .error fault ∧ w.connection? target.origin = none) ∨
      ∃ number w', w.connect target = .ok (number, w') ∧ w'.network.log = w.network.log ∧
        number = (w.connection? target.origin).getD w.network.connections ∧
        w'.network.connections =
          w.network.connections + (if (w.connection? target.origin).isSome then 0 else 1) ∧
        ∀ origin, w'.connection? origin =
          if origin = target.origin then some number else w.connection? origin := by
  unfold connect
  cases held : w.connection? target.origin with
  | some number =>
    refine .inr ⟨number, w, rfl, rfl, rfl, rfl, fun origin => ?_⟩
    split
    · rename_i same
      rw [same, held]
    · rfl
  | none =>
    cases hostFault? target with
    | some fault => exact .inl ⟨fault, rfl, rfl⟩
    | none =>
      refine .inr ⟨_, _, rfl, rfl, rfl, rfl, fun origin => ?_⟩
      simp only [connection?] at held ⊢
      rw [List.find?_append, Option.map_or]
      split
      · rename_i same
        simp [same, held]
      · rename_i other
        simp [Ne.symm other]

theorem connection?_filter {w w' : Worker} {served : Origin}
    (forgotten : w'.connections = w.connections.filter (·.1 != served)) (origin : Origin) :
    w'.connection? origin = if origin = served then none else w.connection? origin := by
  rw [connection?, forgotten, List.find?_filter]
  split
  · rename_i same
    simp [same]
  · rename_i other
    have same : (fun c : Origin × Nat => decide ((c.1 != served) = true ∧ (c.1 == origin) = true)) =
        fun c => c.1 == origin := by
      funext c
      by_cases mine : c.1 = origin <;> simp [mine, other]
    rw [same, connection?]

end Worker

namespace Turn

/-- What a turn connects to. -/
def origin (t : Turn) : Origin := t.job.target.origin

/-- The connection that a turn is on; none if the host cannot be connected to. -/
def connection? (t : Turn) : Option Nat := (t.worker.connect t.job.target).toOption.map (·.1)

/-- A turn ends with the code of a connection that failed. -/
def disconnects (t : Turn) : Bool := t.ending.disconnects

theorem connections_next {t : Turn} {w : Worker} (onward : t.next? = some w) :
    w.connections = t.after.connections := by
  unfold next? at onward
  split at onward
  · rw [← Option.some.inj onward]
  · rw [← Option.some.inj onward]
  · contradiction

/-- What a turn adds to the log. -/
def events (t : Turn) : List NetworkEvent :=
  t.after.network.log.drop t.worker.network.log.length

/-- What a turn has on a connection: one request at most, for its target, and then the closing of
the connection if that failed. -/
structure Serves (t : Turn) (number : Nat) : Prop where
  on : t.connection? = some number
  events : ∃ sent, sent.Sublist [NetworkEvent.request number t.job.target.url] ∧
    t.events = sent ++ if t.disconnects then [.close number] else []

/-- What a turn does with connections. It is on the one of its origin, a new one if there is none,
and leaves those of other origins as they are. -/
structure Uses (t : Turn) (number : Nat) : Prop extends t.Serves number where
  held : number = (t.worker.connection? t.origin).getD t.worker.network.connections
  count : t.after.network.connections =
    t.worker.network.connections + (if (t.worker.connection? t.origin).isSome then 0 else 1)
  log : t.after.network.log = t.worker.network.log ++ t.events
  left : ∀ origin, t.after.connection? origin =
    if origin = t.origin then if t.disconnects then none else some number
    else t.worker.connection? origin

/-- Without a connection a turn crashes, and nothing is done to any other. -/
structure Stays (t : Turn) : Prop where
  on : t.connection? = none
  unknown : t.worker.connection? t.origin = none
  crash : ∃ cause, t.ending = .crashed cause
  same : t.after = t.worker
  events : t.events = []

theorem stays_or_uses (t : Turn) : t.Stays ∨ ∃ number, t.Uses number := by
  rcases t.worker.connect_cases t.job.target with ⟨fault, refused, unknown⟩ | ⟨number, w,
    connected, log, held, count, connections⟩
  · have ended : t.worker.process t.job = (.crashed (.exchange fault), t.worker) := by
      rw [Worker.process, refused]
    have same : t.after = t.worker := congrArg Prod.snd ended
    refine .inl ⟨?_, unknown, ⟨_, congrArg Prod.fst ended⟩, same, ?_⟩
    · rw [connection?, refused]
      rfl
    · rw [events, same, List.drop_length]
  · have ended : t.worker.process t.job = w.processOn number t.job := by
      rw [Worker.process, connected]
    have served := w.processOn_serves number t.job
    rw [← ended] at served
    obtain ⟨sent, one, told⟩ := served.log
    rw [log, List.append_assoc] at told
    have added : t.events = sent ++ if t.disconnects then [.close number] else [] := by
      change t.after.network.log = _ at told
      rw [events, told, List.drop_left]
      rfl
    refine .inr ⟨number, ⟨⟨?_, sent, one, added⟩, held, served.count.trans count, ?_, ?_⟩⟩
    · rw [connection?, connected]
      rfl
    · rw [added]
      exact told
    · intro origin
      have left : t.after.connections =
          if t.disconnects then w.connections.filter (·.1 != t.origin) else w.connections :=
        served.connections
      cases failed : t.disconnects with
      | true =>
        rw [failed, if_pos rfl] at left
        rw [Worker.connection?_filter left, connections, if_pos rfl]
        split
        · rfl
        · exact if_neg ‹_›
      | false =>
        rw [failed, if_neg Bool.false_ne_true] at left
        rw [Worker.connection?, left, ← Worker.connection?, connections, if_neg Bool.false_ne_true]
        rfl

theorem uses_of_on {t : Turn} {number : Nat} (on : t.connection? = some number) :
    t.Uses number := by
  rcases t.stays_or_uses with stays | ⟨other, uses⟩
  · rw [stays.on] at on
    contradiction
  · obtain rfl := Option.some.inj (on.symm.trans uses.on)
    exact uses

theorem disconnects_of_stays {t : Turn} (stays : t.Stays) : t.disconnects = false := by
  obtain ⟨cause, crash⟩ := stays.crash
  rw [disconnects, crash]
  rfl

theorem after_log (t : Turn) : t.after.network.log = t.worker.network.log ++ t.events := by
  rcases t.stays_or_uses with stays | ⟨number, uses⟩
  · rw [stays.same, stays.events, List.append_nil]
  · exact uses.log

theorem Serves.event_on {t : Turn} {number : Nat} (serves : t.Serves number) {event : NetworkEvent}
    (told : event ∈ t.events) : event.connection? = some number := by
  obtain ⟨sent, one, added⟩ := serves.events
  rw [added, List.mem_append] at told
  rcases told with asked | closed
  · rw [List.mem_singleton.mp (one.mem asked)]
    rfl
  · split at closed
    · rw [List.mem_singleton.mp closed]
      rfl
    · contradiction

theorem event_connection {t : Turn} {event : NetworkEvent} (told : event ∈ t.events) :
    t.connection? = event.connection? := by
  rcases t.stays_or_uses with stays | ⟨number, uses⟩
  · rw [stays.events] at told
    contradiction
  · rw [uses.on, uses.event_on told]

theorem Serves.close_iff {t : Turn} {number : Nat} (serves : t.Serves number) :
    .close number ∈ t.events ↔ t.disconnects := by
  obtain ⟨sent, one, added⟩ := serves.events
  have open_ : NetworkEvent.close number ∉ sent := fun told =>
    NetworkEvent.noConfusion (List.mem_singleton.mp (one.mem told))
  rw [added, List.mem_append, or_iff_right open_]
  split <;> simp [*]

end Turn

/-- A connection that turns to an origin have been on, and that is not closed in their log. -/
def IsOpen (turns : List Turn) (origin : Origin) (number : Nat) : Prop :=
  (∃ t ∈ turns, t.origin = origin ∧ t.connection? = some number) ∧
    .close number ∉ turns.flatMap Turn.events

/-- How connections are used in the turns of a worker that starts with none. -/
structure KeepsConnections (network : Network) (turns : List Turn) : Prop where
  /-- A turn is on one connection, and closes it if and only if it ends with the code of a
  connection that failed. A turn that cannot connect crashes. -/
  events : ∀ t ∈ turns, t.Stays ∨ ∃ number, t.Serves number
  /-- The log tells of the turns in their order, and of nothing else. -/
  log : ∀ past t later, turns = past ++ t :: later →
    t.worker.network.log = network.log ++ past.flatMap Turn.events ∧
      t.after.network.log = t.worker.network.log ++ t.events
  /-- No connection of an earlier batch is used. -/
  new : ∀ t ∈ turns, ∀ number, t.connection? = some number → network.connections ≤ number
  /-- A connection has one origin. -/
  single : ∀ t ∈ turns, ∀ u ∈ turns, ∀ number, t.connection? = some number →
    u.connection? = some number → t.origin = u.origin
  /-- No turn is on a connection that an earlier one closed. -/
  closed : turns.Pairwise fun t u => t.disconnects → u.connection? ≠ t.connection?
  /-- At any time one connection of an origin is open at most. -/
  alone : ∀ past later, turns = past ++ later → ∀ origin m n, IsOpen past origin m →
    IsOpen past origin n → m = n
  /-- A turn is on the open connection of its origin, if there is one. -/
  reused : ∀ past t later, turns = past ++ t :: later → ∀ number, IsOpen past t.origin number →
    t.connection? = some number

/-- A worker has in mind the connections that are open after its turns, and no other ones. -/
structure Worker.Remembers (network : Network) (past : List Turn) (w : Worker) : Prop
    extends KeepsConnections network past where
  told : w.network.log = network.log ++ past.flatMap Turn.events
  count : network.connections ≤ w.network.connections
  given : ∀ t ∈ past, ∀ number, t.connection? = some number → number < w.network.connections
  cached : ∀ origin number, w.connection? origin = some number ↔ IsOpen past origin number

namespace KeepsConnections
variable {network : Network} {turns : List Turn} {number : Nat}

theorem nil (network : Network) : KeepsConnections network [] := by
  constructor <;> simp [IsOpen]

/-- What closes a connection is a turn on it that fails. -/
theorem close_mem (closed : .close number ∈ turns.flatMap Turn.events) :
    ∃ t ∈ turns, t.connection? = some number ∧ t.disconnects := by
  obtain ⟨t, member, told⟩ := List.mem_flatMap.mp closed
  have on := Turn.event_connection told
  exact ⟨t, member, on, (Turn.uses_of_on on).close_iff.mp told⟩

/-- What fails at other hosts does nothing to a connection: it is used again unless a turn on it
has failed. -/
theorem undisturbed (kept : KeepsConnections network turns) {past later : List Turn} {t u : Turn}
    (split : turns = past ++ u :: later) (member : t ∈ past) (same : t.origin = u.origin)
    (on : t.connection? = some number)
    (sound : ∀ v ∈ past, v.connection? = some number → v.disconnects = false) :
    u.connection? = some number := by
  refine kept.reused past u later split number ⟨⟨t, member, same, on⟩, fun closed => ?_⟩
  obtain ⟨v, before, also, failed⟩ := close_mem closed
  rw [sound v before also] at failed
  contradiction

end KeepsConnections

/-- A split of a list with one more element at its end is at that element, or before it. -/
theorem concat_eq_split {α : Type} {past before after : List α} {t u : α}
    (split : past ++ [t] = before ++ u :: after) :
    (past = before ∧ t = u ∧ after = []) ∨ ∃ rest, past = before ++ u :: rest := by
  rcases List.eq_nil_or_concat after with rfl | ⟨rest, last, rfl⟩
  · obtain ⟨rfl, same⟩ := List.append_inj' split rfl
    exact .inl ⟨rfl, List.head_eq_of_cons_eq same, rfl⟩
  · refine .inr ⟨rest, ?_⟩
    rw [List.concat_eq_append, ← List.cons_append, ← List.append_assoc] at split
    exact (List.append_inj' split rfl).1

namespace Worker.Remembers
variable {network : Network} {past : List Turn} {w w' : Worker} {t : Turn} {number : Nat}

theorem start (queue : List DownloadJob) (results : List DownloadResult) (files : FileTree)
    (network : Network) : Remembers network [] ⟨queue, [], results, files, network⟩ :=
  ⟨.nil network, by simp, Nat.le_refl _, by simp, by simp [connection?, IsOpen]⟩

/-- Nothing is forgotten while neither the network nor the connections change. -/
theorem of_same (remembers : w.Remembers network past) (same : w'.network = w.network)
    (connections : w'.connections = w.connections) : w'.Remembers network past := by
  refine ⟨remembers.toKeepsConnections, ?_, ?_, ?_, ?_⟩
  · rw [same]
    exact remembers.told
  · rw [same]
    exact remembers.count
  · rw [same]
    exact remembers.given
  · intro origin number
    rw [connection?, connections]
    exact remembers.cached origin number

/-- The number that a turn is on is that of the open connection, or was never given out. -/
theorem open_or_new (remembers : t.worker.Remembers network past) (uses : t.Uses number) :
    IsOpen past t.origin number ∨ number = t.worker.network.connections := by
  rcases known : t.worker.connection? t.origin with _ | other
  · exact .inr (by simpa [known] using uses.held)
  · have same : number = other := by simpa [known] using uses.held
    exact .inl ((remembers.cached _ _).mp (by rw [known, same]))

/-- No turn before has closed the connection that a turn is on. -/
theorem not_closed (remembers : t.worker.Remembers network past) (uses : t.Uses number) :
    .close number ∉ past.flatMap Turn.events := by
  intro closed
  rcases remembers.open_or_new uses with ⟨_, unclosed⟩ | new
  · exact unclosed closed
  · obtain ⟨u, member, on, _⟩ := KeepsConnections.close_mem closed
    exact absurd (remembers.given u member number on) (by omega)

/-- Turns on one connection have one origin. -/
theorem owner (remembers : t.worker.Remembers network past) (uses : t.Uses number) {u : Turn}
    (member : u ∈ past) (on : u.connection? = some number) : u.origin = t.origin := by
  rcases remembers.open_or_new uses with ⟨⟨v, before, same, also⟩, _⟩ | new
  · rw [← same]
    exact remembers.single u member v before number on also
  · exact absurd (remembers.given u member number on) (by omega)

/-- The open connections of its origin are those that a turn is on. -/
theorem on_of_isOpen (remembers : t.worker.Remembers network past) (uses : t.Uses number)
    {m : Nat} (unclosed : IsOpen past t.origin m) : m = number := by
  have known := (remembers.cached t.origin m).mpr unclosed
  rw [uses.held, known]
  rfl

/-- After a turn the worker has the connections that are open then. -/
theorem cached_after (remembers : t.worker.Remembers network past) (uses : t.Uses number)
    (origin : Origin) (m : Nat) :
    t.after.connection? origin = some m ↔ IsOpen (past ++ [t]) origin m := by
  have told : (past ++ [t]).flatMap Turn.events = past.flatMap Turn.events ++ t.events := by simp
  rw [uses.left, IsOpen, told, List.mem_append, not_or]
  by_cases mine : origin = t.origin
  · subst mine
    rw [if_pos rfl]
    have only : (∃ u ∈ past ++ [t], u.origin = t.origin ∧ u.connection? = some m) →
        .close m ∉ past.flatMap Turn.events → m = number := by
      rintro ⟨u, member, same, on⟩ unclosed
      rcases List.mem_append.mp member with before | now
      · exact remembers.on_of_isOpen uses ⟨⟨u, before, same, on⟩, unclosed⟩
      · rw [List.mem_singleton.mp now, uses.on] at on
        exact (Option.some.inj on).symm
    constructor
    · intro left
      split at left
      · contradiction
      · rename_i sound
        obtain rfl := Option.some.inj left
        exact ⟨⟨t, by simp, rfl, uses.on⟩, remembers.not_closed uses,
          fun closed => sound (uses.close_iff.mp closed)⟩
    · rintro ⟨used, unclosed, kept⟩
      obtain rfl := only used unclosed
      rw [if_neg fun failed => kept (uses.close_iff.mpr failed)]
  · rw [if_neg mine, remembers.cached]
    constructor
    · rintro ⟨⟨u, member, same, on⟩, unclosed⟩
      refine ⟨⟨u, List.mem_append_left _ member, same, on⟩, unclosed, fun closed => mine ?_⟩
      obtain rfl : m = number := Option.some.inj (uses.event_on closed)
      rw [← same]
      exact remembers.owner uses member on
    · rintro ⟨⟨u, member, same, on⟩, unclosed, _⟩
      rcases List.mem_append.mp member with before | now
      · exact ⟨⟨u, before, same, on⟩, unclosed⟩
      · rw [List.mem_singleton.mp now] at same
        exact absurd same.symm mine

/-- Nothing changes by a turn that cannot connect. -/
theorem cached_stays (remembers : t.worker.Remembers network past) (stays : t.Stays)
    (origin : Origin) (m : Nat) :
    t.after.connection? origin = some m ↔ IsOpen (past ++ [t]) origin m := by
  rw [stays.same, remembers.cached]
  simp [IsOpen, stays.on, stays.events, or_and_right, exists_or]

theorem cached_step (remembers : t.worker.Remembers network past) (origin : Origin) (m : Nat) :
    t.after.connection? origin = some m ↔ IsOpen (past ++ [t]) origin m := by
  rcases t.stays_or_uses with stays | ⟨number, uses⟩
  · exact remembers.cached_stays stays origin m
  · exact remembers.cached_after uses origin m

/-- A new turn is on no connection of an earlier batch. -/
theorem new_of_on (remembers : t.worker.Remembers network past) (uses : t.Uses number) :
    network.connections ≤ number := by
  rcases remembers.open_or_new uses with ⟨⟨u, before, _, on⟩, _⟩ | new
  · exact remembers.new u before number on
  · rw [new]
    exact remembers.count

/-- A new turn keeps to the connections. -/
theorem keeps_step (remembers : t.worker.Remembers network past) :
    KeepsConnections network (past ++ [t]) := by
  have kept := remembers.toKeepsConnections
  constructor
  case events =>
    intro u member
    rcases List.mem_append.mp member with before | now
    · exact kept.events u before
    · rw [List.mem_singleton.mp now]
      exact t.stays_or_uses.imp_right fun ⟨number, uses⟩ => ⟨number, uses.toServes⟩
  case log =>
    intro before u later split
    rcases concat_eq_split split with ⟨rfl, rfl, _⟩ | ⟨rest, split⟩
    · exact ⟨remembers.told, t.after_log⟩
    · exact kept.log before u rest split
  case new =>
    intro u member m on
    rcases List.mem_append.mp member with before | now
    · exact kept.new u before m on
    · rw [List.mem_singleton.mp now] at on
      exact remembers.new_of_on (Turn.uses_of_on on)
  case single =>
    intro u member v member' m on also
    rcases List.mem_append.mp member with before | now
    · rcases List.mem_append.mp member' with before' | now'
      · exact kept.single u before v before' m on also
      · rw [List.mem_singleton.mp now'] at also ⊢
        exact remembers.owner (Turn.uses_of_on also) before on
    · rw [List.mem_singleton.mp now] at on ⊢
      rcases List.mem_append.mp member' with before' | now'
      · exact (remembers.owner (Turn.uses_of_on on) before' also).symm
      · rw [List.mem_singleton.mp now']
  case closed =>
    refine List.pairwise_append.mpr ⟨kept.closed, List.pairwise_singleton _ _, ?_⟩
    intro u before v now failed same
    rw [List.mem_singleton.mp now] at same
    rcases kept.events u before with stays | ⟨m, serves⟩
    · rw [Turn.disconnects_of_stays stays] at failed
      contradiction
    · exact remembers.not_closed (Turn.uses_of_on (same.trans serves.on))
        (List.mem_flatMap.mpr ⟨u, before, serves.close_iff.mpr failed⟩)
  case alone =>
    intro before later split origin m n here there
    rcases List.eq_nil_or_concat later with rfl | ⟨rest, last, rfl⟩
    · rw [List.append_nil] at split
      rw [← split, ← remembers.cached_step] at here there
      exact Option.some.inj (here.symm.trans there)
    · rw [List.concat_eq_append, ← List.append_assoc] at split
      exact kept.alone before rest (List.append_inj' split rfl).1 origin m n here there
  case reused =>
    intro before u later split m unclosed
    rcases concat_eq_split split with ⟨rfl, rfl, _⟩ | ⟨rest, split⟩
    · rcases t.stays_or_uses with stays | ⟨number, uses⟩
      · exact absurd ((remembers.cached _ _).mpr unclosed) (by simp [stays.unknown])
      · rw [remembers.on_of_isOpen uses unclosed, uses.on]
    · exact kept.reused before u rest split m unclosed

/-- No number is given out by a turn but one that is counted. -/
theorem given_step (remembers : t.worker.Remembers network past) {u : Turn}
    (member : u ∈ past ++ [t]) (on : u.connection? = some number) :
    number < t.after.network.connections := by
  rcases List.mem_append.mp member with before | now
  · have given := remembers.given u before number on
    rcases t.stays_or_uses with stays | ⟨_, uses⟩
    · rwa [stays.same]
    · rw [uses.count]
      exact Nat.lt_add_right _ given
  · rw [List.mem_singleton.mp now] at on
    have uses := Turn.uses_of_on on
    rw [uses.count]
    rcases known : t.worker.connection? t.origin with _ | other
    · simp [uses.held, known]
    · obtain ⟨⟨v, before, _, also⟩, _⟩ := (remembers.cached _ _).mp known
      have same : number = other := by simpa [known] using uses.held
      rw [same]
      exact Nat.lt_add_right _ (remembers.given v before other also)

/-- A turn is remembered by the worker that it leaves. -/
theorem step (remembers : t.worker.Remembers network past) :
    t.after.Remembers network (past ++ [t]) := by
  refine ⟨remembers.keeps_step, ?_, ?_, fun u member m => remembers.given_step member,
    remembers.cached_step⟩
  · rw [t.after_log, remembers.told]
    simp
  · rcases t.stays_or_uses with stays | ⟨number, uses⟩
    · rw [stays.same]
      exact remembers.count
    · rw [uses.count]
      exact Nat.le_add_right_of_le remembers.count

/-- By induction on the bound, whatever turns have gone before. -/
theorem keeps_turns {fuel : Nat} (remembers : w.Remembers network past) :
    KeepsConnections network (past ++ w.turns fuel) := by
  induction fuel generalizing w past with
  | zero => simpa [turns] using remembers.toKeepsConnections
  | succ fuel ih =>
    rw [turns]
    cases taken : w.turn? with
    | none => simpa using remembers.toKeepsConnections
    | some t =>
      have begun : t.worker.Remembers network past := by
        refine remembers.of_same (network_of_turn? taken) ?_
        rw [(queue_of_turn? taken).2]
      cases onward : t.next? with
      | none => simpa [onward] using begun.step.toKeepsConnections
      | some w₁ =>
        have left := begun.step.of_same (Turn.next?_some onward).2.1 (Turn.connections_next onward)
        simpa [onward] using ih left

end Worker.Remembers

/-- Nothing is told but by the turns. -/
theorem Runs.log {w w' : Worker} {turns : List Turn} {crash : Option CrashCause}
    (runs : Runs w turns crash w') :
    w'.network.log = w.network.log ++ turns.flatMap Turn.events := by
  induction runs with
  | done _ => simp
  | @crashed w t _ taken _ => simp [t.after_log, Worker.network_of_turn? taken]
  | @next w w₁ w' t turns _ taken onward _ ih =>
    rw [ih, (Turn.next?_some onward).2.1, t.after_log, Worker.network_of_turn? taken,
      List.flatMap_cons, List.append_assoc]

/-- How connections are used in a log: none is asked anything after it was closed, or closed again,
and what fails at one host does nothing to the connection of another one. -/
structure IsDisciplined (network : Network) (turns : List Turn) : Prop
    extends KeepsConnections network turns where
  final : (turns.flatMap Turn.events).Pairwise fun a b =>
    ∀ number, a = .close number → b.connection? ≠ some number
  undisturbed : ∀ past u later, turns = past ++ u :: later → ∀ t ∈ past, t.origin = u.origin →
    ∀ number, t.connection? = some number →
    (∀ v ∈ past, v.connection? = some number → v.disconnects = false) →
    u.connection? = some number

theorem Turn.Serves.events_pairwise {t : Turn} {number : Nat} (serves : t.Serves number) :
    t.events.Pairwise fun a b => ∀ number, a = .close number → b.connection? ≠ some number := by
  obtain ⟨sent, one, added⟩ := serves.events
  have asked : ∀ event ∈ sent, event = .request number t.job.target.url := fun event member =>
    List.mem_singleton.mp (one.mem member)
  rw [added]
  refine List.pairwise_append.mpr ⟨?_, ?_, ?_⟩
  · exact (List.pairwise_singleton _ _).sublist one
  · split
    · exact List.pairwise_singleton _ _
    · exact .nil
  · intro a member b _ other closed
    rw [asked a member] at closed
    contradiction

theorem KeepsConnections.isDisciplined {network : Network} {turns : List Turn}
    (kept : KeepsConnections network turns) : IsDisciplined network turns := by
  refine ⟨kept, List.pairwise_flatMap.mpr ⟨?_, ?_⟩, ?_⟩
  · intro t member
    rcases kept.events t member with stays | ⟨number, serves⟩
    · rw [stays.events]
      exact .nil
    · exact serves.events_pairwise
  · refine kept.closed.imp_of_mem ?_
    rintro t u before after apart _ told b also number rfl on
    have closes := Turn.event_connection told
    have serves := Turn.event_connection also
    rw [on] at serves
    exact apart ((Turn.uses_of_on closes).close_iff.mp told) (serves.trans closes.symm)
  · intro past u later split t member same number on sound
    exact kept.undisturbed split member same on sound

namespace DownloadList

/-- The connections of a batch as far as its worker gets, and the whole log of a batch that ends. -/
theorem download_disciplined (list : DownloadList) (threads : Int) (files : FileTree)
    (network : Network) :
    (∀ fuel, IsDisciplined network ((list.worker files network).turns fuel)) ∧
    ((list.download threads files network).error ≠ some .unending →
      IsDisciplined network (list.turns threads files network) ∧
      (list.download threads files network).network.log =
        network.log ++ (list.turns threads files network).flatMap Turn.events) := by
  have started := Worker.Remembers.start list.sorted.jobs [] files network
  have disciplined (fuel : Nat) : IsDisciplined network ((list.worker files network).turns fuel) :=
    KeepsConnections.isDisciplined started.keeps_turns
  refine ⟨disciplined, fun ends => ⟨?_, ?_⟩⟩
  · unfold turns
    split
    · exact (KeepsConnections.nil network).isDisciplined
    · exact disciplined _
  · rcases list.download_cases threads files network with ⟨crash, w, runs, same⟩ |
      ⟨_, unending | ⟨_, none, _⟩, same⟩
    · rw [same]
      exact runs.log
    · rw [same, unending] at ends
      contradiction
    · rw [same, none]
      simp

/-- Two files of a host that resets the first connection, and one of another host between them. The
second connection of the first host is a new one, that of the other host stays. -/
theorem download_disciplined_reset :
    let entry (url name : String) : DownloadEntry := ⟨url, ⟨.relative, [name]⟩, none, none, name⟩
    let list := ((empty.put ⟨⟨false, "h", none, "/a"⟩, entry "http://h/a" "a"⟩).put
      ⟨⟨false, "g", none, "/b"⟩, entry "http://g/b" "b"⟩).put
      ⟨⟨false, "h", none, "/c"⟩, entry "http://h/c" "c"⟩
    let network : Network := ⟨[("http://h/a", [.failure .reset]),
      ("http://g/b", [.response 200 [] [1] none]),
      ("http://h/c", [.response 200 [] [2] none])], [], 0⟩
    let batch := list.download 1 .empty network
    IsDisciplined network (list.turns 1 .empty network) ∧
      batch.network.log.map NetworkEvent.connection? = [some 0, some 0, some 1, some 2] ∧
      batch.network.requests = ["http://h/a", "http://g/b", "http://h/c"] := by
  intro entry list network batch
  have sorted : list.sorted = list := sorted_eq (by decide)
  have ended : batch.error ≠ some .unending ∧
      batch.network.log.map NetworkEvent.connection? = [some 0, some 0, some 1, some 2] ∧
      batch.network.requests = ["http://h/a", "http://g/b", "http://h/c"] := by
    simp only [batch]
    rw [download, sorted]
    decide +kernel
  exact ⟨((download_disciplined list 1 .empty network).2 ended.1).1, ended.2⟩

end DownloadList
end Launcher
