import Launcher.Network.Fetch
import Launcher.Proofs.Download.Turn

/-! Requests for a document that break, at once or after redirections. A failure before a response
is told as a server that was not reached, if the system knows of it; all others come through as they
are. -/
namespace Launcher

/-- How a failure is reported when a document is fetched from an origin. -/
def ConnectionFailure.reported (failure : ConnectionFailure) (origin : String) (answered : Bool) :
    FetchError :=
  match failure.fault, answered with
  | .system e, false => .http ⟨origin, 0, [], "<urlopen error " ++ e.message ++ ">"⟩
  | fault, _ => .connection fault

theorem ConnectionFailure.reported_answered (failure : ConnectionFailure) (origin : String) :
    failure.reported origin true = .connection failure.fault := by
  cases failure <;> rfl

namespace Fetch

namespace Visits

/-- How many more times the URLs that were visited may be visited. -/
def revisits : Visits → Nat
  | [] => 0
  | visit :: rest => 4 - visit.2 + revisits rest

/-- How many more redirections may be followed. -/
def room (visits : Visits) : Nat := 4 * (10 - visits.length) + visits.revisits

theorem revisits_append (first second : Visits) :
    revisits (first ++ second) = first.revisits + second.revisits := by
  induction first with
  | nil => exact (Nat.zero_add _).symm
  | cons visit rest ih =>
    rw [List.cons_append, revisits, revisits, ih]
    omega

/-- The visits when a URL among them is visited again. -/
def again (visits : Visits) (url : List Char) : Visits :=
  visits.map fun visit => if visit.1 == url then (url, visit.2 + 1) else visit

theorem revisits_again_le (visits : Visits) (url : List Char) :
    (visits.again url).revisits ≤ visits.revisits := by
  induction visits with
  | nil => exact Nat.le_refl _
  | cons visit rest ih =>
    unfold again at ih ⊢
    rw [List.map_cons, revisits, revisits]
    split
    · simp only
      omega
    · omega

theorem revisits_again_lt {visits : Visits} {url : List Char}
    (known : visits.any (·.1 == url) = true) (few : visits.count url < 4) :
    (visits.again url).revisits < visits.revisits := by
  induction visits with
  | nil => cases known
  | cons visit rest ih =>
    have others := revisits_again_le rest url
    unfold again at ih others ⊢
    rw [List.map_cons, revisits, revisits]
    by_cases same : (visit.1 == url) = true
    · have fewer : visit.2 < 4 := by simpa [count, same] using few
      simp only [same, if_true]
      omega
    · have later := ih (by simpa [same] using known) (by simpa [count, same] using few)
      simp only [same, Bool.false_eq_true, if_false]
      omega

/-- Each redirection that is followed leaves room for fewer. -/
theorem room_add_lt {visits : Visits} {next : List Char}
    (fresh : visits.exhausted next = false) : (visits.add next).room < visits.room := by
  have fresh : visits.count next < 4 ∧ visits.length < 10 := by
    simpa [exhausted] using fresh
  unfold add
  split
  · rename_i known
    have fewer := revisits_again_lt known fresh.1
    unfold again at fewer
    simp only [room, List.length_map]
    omega
  · rw [room, room, revisits_append, List.length_append, List.length_singleton, revisits, revisits]
    omega

end Visits

/-- A request is made for a target. -/
structure Target.IsAsked (goal : Target) : Prop where
  scheme : String.ofList goal.scheme = "http" ∨ String.ofList goal.scheme = "https"
  host : goal.host.isEmpty = false

/-- A response that is followed from one target to another. -/
structure Leads (visits : Visits) (goal : Target) (status : Nat) (headers : Headers)
    (next : List Char) (nextGoal : Target) : Prop where
  redirection : isRedirection status = true
  located : ∃ location, (headers.find? "location").or (headers.find? "uri") = some location ∧
    redirectTarget goal.url location = .ok (some next)
  target : target (withoutBlanks next) = .ok nextGoal
  fresh : visits.exhausted next = false

/-- A request for a target breaks, before an answer or during it, at once or when redirections were
followed. -/
inductive Breaks (failure : ConnectionFailure) : Bool → Visits → Target → Script → Prop
  | unanswered {visits : Visits} {goal : Target} {script : Script} (asked : goal.IsAsked)
      (reply : (Network.nextReply (script (String.ofList goal.url))).1 = .failure failure) :
      Breaks failure false visits goal script
  | cut {visits : Visits} {goal : Target} {script : Script} {status : Nat} {headers : Headers}
      {body : Bytes} (asked : goal.IsAsked)
      (reply : (Network.nextReply (script (String.ofList goal.url))).1 =
        .response status headers body (some failure)) (success : isSuccess status = true) :
      Breaks failure true visits goal script
  | cutRedirection {visits : Visits} {goal : Target} {script : Script} {status : Nat}
      {headers : Headers} {body : Bytes} {next : List Char} {nextGoal : Target}
      (asked : goal.IsAsked)
      (reply : (Network.nextReply (script (String.ofList goal.url))).1 =
        .response status headers body (some failure))
      (leads : Leads visits goal status headers next nextGoal) :
      Breaks failure true visits goal script
  | redirected {answered : Bool} {visits : Visits} {goal : Target} {script : Script}
      {status : Nat} {headers : Headers} {body : Bytes} {next : List Char} {nextGoal : Target}
      (asked : goal.IsAsked)
      (reply : (Network.nextReply (script (String.ofList goal.url))).1 =
        .response status headers body none)
      (leads : Leads visits goal status headers next nextGoal)
      (later : Breaks failure answered (visits.add next) nextGoal
        (script.next (String.ofList goal.url))) :
      Breaks failure answered visits goal script

theorem not_isSuccess_of_isRedirection {status : Nat} (redirection : isRedirection status = true) :
    isSuccess status = false := by
  simp only [isRedirection, List.contains_iff_mem, List.mem_cons, List.not_mem_nil, or_false]
    at redirection
  rcases redirection with rfl | rfl | rfl | rfl | rfl <;> rfl

section Exchange
variable {origin : String} {certified : Bool} {fuel : Nat} {headers : RequestHeaders}
  {visits : Visits} {goal : Target} {network : Network} {failure : ConnectionFailure}
  {answered : Bool}

theorem Target.IsAsked.known (asked : goal.IsAsked) :
    ¬ (String.ofList goal.scheme ≠ "http" ∧ String.ofList goal.scheme ≠ "https") := by
  rintro ⟨other, other'⟩
  rcases asked.scheme with same | same
  · exact other same
  · exact other' same

/-- The reply to a request that is recorded, and the script that is left. -/
theorem answer_recorded {script : Script} {reply : Reply} {url : String}
    (same : network.script = script) (first : (Network.nextReply (script url)).1 = reply)
    (event : NetworkEvent) : ((network.record event).answer url).1 = reply ∧
      ((network.record event).answer url).2.script = script.next url := by
  subst same first
  exact ⟨Worker.answer_reply _ url, Worker.answer_script _ url⟩

/-- What is done with a response that leads to another target. -/
theorem Leads.exchange {status : Nat} {replyHeaders : Headers} {body : Bytes}
    {cut : Option ConnectionFailure} {next : List Char} {nextGoal : Target} (asked : goal.IsAsked)
    (leads : Leads visits goal status replyHeaders next nextGoal) :
    let sent := (network.record (.fetch (String.ofList goal.url) headers.recorded certified)).answer
      (String.ofList goal.url)
    sent.1 = .response status replyHeaders body cut →
      exchange origin certified (fuel + 1) headers visits goal network =
        match cut with
        | some failure => (.error (.connection failure.fault), sent.2)
        | none => exchange origin certified fuel headers.redirected (visits.add next) nextGoal
            sent.2 := by
  intro sent replied
  obtain ⟨location, located, resolved⟩ := leads.located
  cases cut
  all_goals
    simp only [Fetch.exchange, asked.known, if_false, asked.host, Bool.false_eq_true, sent,
      replied, not_isSuccess_of_isRedirection leads.redirection, leads.redirection, if_true,
      located, resolved, leads.target, leads.fresh]

/-- A request that breaks is reported, as long as there is fuel for the redirections that may
follow. -/
theorem Breaks.exchange {script : Script} (breaks : Breaks failure answered visits goal script) :
    ∀ {fuel headers network}, network.script = script → visits.room ≤ fuel →
      (exchange origin certified (fuel + 1) headers visits goal network).1 =
        .error (failure.reported origin answered) := by
  induction breaks with
  | @unanswered _ goal _ asked reply =>
    intro fuel headers network same _
    obtain ⟨replied, _⟩ := answer_recorded same reply
      (.fetch (String.ofList goal.url) headers.recorded certified)
    simp only [Fetch.exchange, asked.known, if_false, asked.host, Bool.false_eq_true, replied]
    cases failure <;> rfl
  | @cut _ goal _ _ _ _ asked reply success =>
    intro fuel headers network same _
    obtain ⟨replied, _⟩ := answer_recorded same reply
      (.fetch (String.ofList goal.url) headers.recorded certified)
    simp only [Fetch.exchange, asked.known, if_false, asked.host, Bool.false_eq_true, replied,
      success, if_true, ConnectionFailure.reported_answered]
  | cutRedirection asked reply leads =>
    intro fuel headers network same _
    obtain ⟨replied, _⟩ := answer_recorded same reply (.fetch _ headers.recorded certified)
    rw [leads.exchange asked replied, ConnectionFailure.reported_answered]
  | redirected asked reply leads _ ih =>
    intro fuel headers network same enough
    obtain ⟨replied, left⟩ := answer_recorded same reply (.fetch _ headers.recorded certified)
    have less := Visits.room_add_lt leads.fresh
    obtain ⟨fuel, rfl⟩ := Nat.exists_eq_add_of_lt (Nat.lt_of_lt_of_le less enough)
    rw [leads.exchange asked replied]
    apply ih left
    omega

/-- To find out where a redirection leads no connection is used. -/
theorem redirectTarget_fault {current : List Char} {location : String} {fault : ConnectionFault} :
    redirectTarget current location ≠ .error (.connection fault) := by
  intro broken
  rcases bind_error broken with failed | ⟨u, -, broken⟩
  · obtain ⟨_, -, contrary⟩ := mapError_error failed
    cases contrary
  · simp only at broken
    split at broken
    · cases broken
    · split at broken
      · cases broken
      · rcases bind_error broken with failed | ⟨url, -, broken⟩
        · obtain ⟨_, -, contrary⟩ := mapError_error failed
          cases contrary
        · cases broken

/-- A connection's fault that ends a request comes from a failure. -/
theorem exchange_fault {fault : ConnectionFault}
    (broken : (exchange origin certified fuel headers visits goal network).1 =
      .error (.connection fault)) : ∃ failure : ConnectionFailure, failure.fault = fault := by
  induction fuel generalizing headers visits goal network with
  | zero => cases broken
  | succ fuel ih =>
    unfold exchange at broken
    simp only at broken
    repeat' split at broken
    all_goals first
      | exact ih broken
      | (cases broken; done)
      | (cases broken; exact absurd ‹_› redirectTarget_fault)
      | (cases broken; exact ⟨_, rfl⟩)

end Exchange
end Fetch

theorem Network.fetch_fault {network : Network} {url : String} {headers : Members}
    {accept sha1 : Option String} {fault : ConnectionFault}
    (broken : (network.fetch url headers accept sha1).1 = .error (.connection fault)) :
    ∃ failure : ConnectionFailure, failure.fault = fault := by
  unfold Network.fetch at broken
  simp only at broken
  split at broken
  · cases broken
  · split at broken
    · rename_i exchanged
      exact Fetch.exchange_fault ((congrArg Prod.fst exchanged).trans broken)
    · repeat' split at broken
      all_goals cases broken

/-- The request for a document breaks, before an answer or during it. -/
def Network.Breaks (network : Network) (url : String) (failure : ConnectionFailure)
    (answered : Bool) : Prop :=
  ∃ goal, Fetch.firstTarget url.toList = .ok goal ∧
    Fetch.Breaks failure answered [] goal network.script

/-- A document is not fetched if its request breaks. -/
theorem Network.Breaks.fetch {network : Network} {url : String} {failure : ConnectionFailure}
    {answered : Bool} (breaks : network.Breaks url failure answered) (headers : Members)
    (accept sha1 : Option String) :
    (network.fetch url headers accept sha1).1 = .error (failure.reported url answered) := by
  obtain ⟨goal, read, breaks⟩ := breaks
  have broken (certified : Bool) (headers : RequestHeaders) :
      (Fetch.exchange url certified 64 headers [] goal network).1 =
        .error (failure.reported url answered) := breaks.exchange rfl (by decide)
  unfold Network.fetch
  simp only [read]
  split
  · rename_i failed
    have same := congrArg Prod.fst failed
    rw [broken] at same
    exact same.symm
  · rename_i fetched
    have contrary := congrArg Prod.fst fetched
    rw [broken] at contrary
    cases contrary

end Launcher
