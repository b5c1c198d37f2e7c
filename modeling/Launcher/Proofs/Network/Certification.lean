import Launcher.Proofs.Network.Failure
import Launcher.Proofs.Url.Resolution

/-! Which requests for a document are made with the launcher's certificates: all of them or none, by
how the URL begins that is given. What is asked for is one chain of redirections, and any hop of it
may be by `https`. -/
namespace Launcher
open Network (nextReply)

/-- How a URL begins that is fetched with the launcher's certificates. -/
def BeginsSecure (url : String) : Prop := "https:".toList <+: url.toList

instance (url : String) : Decidable (BeginsSecure url) := inferInstanceAs (Decidable (_ <+: _))

namespace Fetch

/-- A URL begins with a scheme, in any letter case. -/
def HasScheme (scheme url : String) : Prop :=
  ∃ spelled rest, url.toList = spelled ++ ':' :: rest ∧ (∀ c ∈ spelled, c ≠ ':' ∧ c ≠ '/') ∧
    Text.lower spelled = scheme.toList

/-- The text of the URL that is asked for. -/
def Target.text (goal : Target) : String := String.ofList goal.url

theorem target_hasScheme {text : List Char} {goal : Target} (read : target text = .ok goal) :
    HasScheme (String.ofList goal.scheme) goal.text := by
  unfold target at read
  extract_lets url fragment whole locator at read
  split at read
  rename_i spelled after begun
  split at read
  · rename_i rest
    split at read
    · cases read
    cases read
    rw [List.span_eq_takeWhile_dropWhile] at begun
    obtain ⟨front, back⟩ := Prod.mk.inj begun
    have parts : locator = spelled ++ ':' :: rest := by
      rw [← front, ← back, List.takeWhile_append_dropWhile]
    have inside : locator <+: whole := by
      simp only [locator]
      split
      · exact List.take_prefix _ _
      · exact List.prefix_refl _
    obtain ⟨more, joined⟩ := inside
    refine ⟨spelled, rest ++ more, ?_, fun c member => ?_, String.toList_ofList.symm⟩
    · rw [Target.text, String.toList_ofList, ← joined, parts, List.append_assoc, List.cons_append]
    · rw [← front] at member
      simpa using List.mem_takeWhile_imp member
  · cases read

/-- A reply is a whole response that is followed to another target. -/
def LeadsOn (visits : Visits) (goal : Target) (reply : Reply) (next : List Char)
    (nextGoal : Target) : Prop :=
  ∃ status headers body, reply = .response status headers body none ∧
    Leads visits goal status headers next nextGoal

/-- The targets that are asked for one after another: a first one, and from each of them the one
that its reply leads to, until one cannot be asked for or leads nowhere. -/
inductive Chain : Visits → Target → Script → List Target → Prop
  | unasked {visits : Visits} {goal : Target} {script : Script} (unfit : ¬ goal.IsAsked) :
      Chain visits goal script []
  | ended {visits : Visits} {goal : Target} {script : Script} (asked : goal.IsAsked)
      (stays : ∀ next nextGoal,
        ¬ LeadsOn visits goal (nextReply (script goal.text)).1 next nextGoal) :
      Chain visits goal script [goal]
  | led {visits : Visits} {goal nextGoal : Target} {script : Script} {next : List Char}
      {goals : List Target} (asked : goal.IsAsked)
      (leads : LeadsOn visits goal (nextReply (script goal.text)).1 next nextGoal)
      (onward : Chain (visits.add next) nextGoal (script.next goal.text) goals) :
      Chain visits goal script (goal :: goals)

/-- The targets that are asked for to fetch the document at a URL; none if it is no URL. -/
def Requested (script : Script) (url : String) (goals : List Target) : Prop :=
  match firstTarget url.toList with
  | .error _ => goals = []
  | .ok goal => Chain [] goal script goals

section Chain
variable {visits : Visits} {goal nextGoal nextGoal' : Target} {script : Script} {reply : Reply}
  {next next' : List Char} {goals goals' : List Target}

theorem LeadsOn.unique (leads : LeadsOn visits goal reply next nextGoal)
    (leads' : LeadsOn visits goal reply next' nextGoal') : next = next' ∧ nextGoal = nextGoal' := by
  obtain ⟨status, headers, body, rfl, leads⟩ := leads
  obtain ⟨_, _, _, same, leads'⟩ := leads'
  cases same
  obtain ⟨location, located, resolved⟩ := leads.located
  obtain ⟨location', located', resolved'⟩ := leads'.located
  cases located.symm.trans located'
  cases resolved.symm.trans resolved'
  exact ⟨rfl, Except.ok.inj (leads.target.symm.trans leads'.target)⟩

theorem Chain.unique (chain : Chain visits goal script goals)
    (chain' : Chain visits goal script goals') : goals' = goals := by
  induction chain generalizing goals' with
  | unasked unfit =>
    cases chain' with
    | unasked => rfl
    | ended asked => exact absurd asked unfit
    | led asked => exact absurd asked unfit
  | ended asked stays =>
    cases chain' with
    | unasked unfit => exact absurd asked unfit
    | ended => rfl
    | led _ leads => exact absurd leads (stays _ _)
  | led asked leads _ ih =>
    cases chain' with
    | unasked unfit => exact absurd asked unfit
    | ended _ stays => exact absurd leads (stays _ _)
    | led _ leads' onward' =>
      obtain ⟨rfl, rfl⟩ := leads.unique leads'
      rw [ih onward']

theorem Requested.unique {url : String} (requested : Requested script url goals)
    (requested' : Requested script url goals') : goals' = goals := by
  unfold Requested at requested requested'
  split at requested
  · rename_i read
    rw [read] at requested'
    exact requested'.trans requested.symm
  · rename_i read
    rw [read] at requested'
    exact requested.unique requested'

theorem Chain.mem_of_isAsked (chain : Chain visits goal script goals) (asked : goal.IsAsked) :
    goal ∈ goals := by
  cases chain with
  | unasked unfit => exact absurd asked unfit
  | ended | led => exact List.mem_cons_self

theorem Target.IsAsked.hasScheme {text : List Char} (asked : goal.IsAsked)
    (read : target text = .ok goal) : HasScheme "http" goal.text ∨ HasScheme "https" goal.text := by
  have has := target_hasScheme read
  rcases asked.scheme with same | same
  · exact .inl (same ▸ has)
  · exact .inr (same ▸ has)

theorem Chain.hasScheme (chain : Chain visits goal script goals) {text : List Char}
    (read : target text = .ok goal) :
    ∀ goal ∈ goals, HasScheme "http" goal.text ∨ HasScheme "https" goal.text := by
  induction chain generalizing text with
  | unasked => exact fun _ none => absurd none List.not_mem_nil
  | ended asked => exact List.forall_mem_singleton.mpr (asked.hasScheme read)
  | led asked leads _ ih =>
    obtain ⟨_, _, _, -, leads⟩ := leads
    exact List.forall_mem_cons.mpr ⟨asked.hasScheme read, ih leads.target⟩

/-- Only URLs of two schemes are asked for. -/
theorem Requested.hasScheme {url : String} (requested : Requested script url goals) :
    ∀ goal ∈ goals, HasScheme "http" goal.text ∨ HasScheme "https" goal.text := by
  unfold Requested at requested
  split at requested
  · subst requested
    exact fun _ none => absurd none List.not_mem_nil
  · rename_i read
    obtain ⟨_, aimed, parses⟩ := bind_ok read
    obtain ⟨_, -, same⟩ := bind_ok parses
    cases same
    exact requested.hasScheme aimed

end Chain

/-- What is recorded of requests for some targets, with or without the launcher's certificates. -/
def records (certified : Bool) : RequestHeaders → List Target → List NetworkEvent
  | _, [] => []
  | headers, goal :: goals =>
    .fetch goal.text headers.recorded certified :: records certified headers.redirected goals

section Exchange
variable {origin : String} {certified : Bool} {fuel : Nat} {headers : RequestHeaders}
  {visits : Visits} {goal : Target} {network : Network}

theorem exchange_unasked (unfit : ¬ goal.IsAsked) :
    (exchange origin certified fuel headers visits goal network).2 = network := by
  cases fuel with
  | zero => rfl
  | succ fuel =>
    unfold exchange
    simp only
    split
    · rfl
    rename_i known
    split
    · rfl
    rename_i host
    refine absurd ⟨?_, by simpa using host⟩ unfit
    simpa only [not_and_or, ne_eq, not_not] using known

theorem exchange_ended (asked : goal.IsAsked)
    (stays : ∀ next nextGoal,
      ¬ LeadsOn visits goal (nextReply (network.script goal.text)).1 next nextGoal) :
    (exchange origin certified (fuel + 1) headers visits goal network).2 =
      ((network.record (.fetch goal.text headers.recorded certified)).answer goal.text).2 := by
  have replied : ((network.record (.fetch goal.text headers.recorded certified)).answer
      goal.text).1 = (nextReply (network.script goal.text)).1 := Worker.answer_reply _ _
  unfold exchange
  simp only [asked.known, if_false, asked.host, Bool.false_eq_true]
  rw [← Target.text]
  rw [← replied] at stays
  generalize (network.record (.fetch goal.text headers.recorded certified)).answer goal.text =
    sent at stays ⊢
  obtain ⟨failure | ⟨status, replyHeaders, body, cut⟩, left⟩ := sent
  · simp only
    split <;> rfl
  simp only at stays ⊢
  split
  · split <;> rfl
  split
  · rename_i redirection
    split
    · rfl
    rename_i location led
    split
    · rfl
    · rfl
    rename_i place found
    split
    · rfl
    rename_i next aimed
    split
    · rfl
    rename_i fresh
    split
    · rfl
    · exact absurd ⟨status, replyHeaders, body, rfl, redirection, ⟨location, led, found⟩, aimed,
        by simpa using fresh⟩ (stays place next)
  · rfl

/-- A request is recorded, and its reply is used up. -/
theorem answer_records (certified : Bool) (network : Network) (goal : Target)
    (headers : RequestHeaders) :
    let left := ((network.record (.fetch goal.text headers.recorded certified)).answer goal.text).2
    left.log = network.log ++ [.fetch goal.text headers.recorded certified] ∧
      left.script = network.script.next goal.text :=
  ⟨(Worker.answer_log _ _).1, Worker.answer_script _ _⟩

/-- An exchange asks for one chain of targets, as long as there is fuel for the redirections that
may follow. -/
theorem exchange_records (enough : visits.room ≤ fuel) :
    ∃ goals, Chain visits goal network.script goals ∧
      (exchange origin certified (fuel + 1) headers visits goal network).2.log =
        network.log ++ records certified headers goals := by
  induction fuel using Nat.strong_induction_on generalizing headers visits goal network with
  | _ fuel ih =>
    by_cases asked : goal.IsAsked
    · obtain ⟨recorded, left⟩ := answer_records certified network goal headers
      by_cases onward : ∃ next nextGoal,
          LeadsOn visits goal (nextReply (network.script goal.text)).1 next nextGoal
      · obtain ⟨next, nextGoal, leads⟩ := onward
        have ⟨status, replyHeaders, body, replied, follows⟩ := leads
        have sent := (Worker.answer_reply
          (network.record (.fetch goal.text headers.recorded certified)) goal.text).trans replied
        -- A visit takes some of the room, so that the fuel that is left is enough again.
        have less := Visits.room_add_lt follows.fresh
        obtain ⟨fuel, rfl⟩ := Nat.exists_eq_add_one_of_ne_zero (show fuel ≠ 0 by omega)
        obtain ⟨goals, chain, later⟩ := @ih fuel (Nat.lt_succ_self _) headers.redirected
          (visits.add next) nextGoal _ (by omega)
        rw [left] at chain
        refine ⟨goal :: goals, .led asked leads chain, ?_⟩
        rw [follows.exchange asked sent]
        simp only
        rw [← Target.text, later, recorded, List.append_assoc]
        rfl
      · simp only [not_exists] at onward
        refine ⟨[goal], .ended asked onward, ?_⟩
        rw [exchange_ended asked onward, recorded]
        rfl
    · exact ⟨[], .unasked asked, by rw [exchange_unasked asked]; exact (List.append_nil _).symm⟩

end Exchange

/-- What is recorded when a document is fetched. -/
theorem fetch_records (network : Network) (url : String) (headers : Members)
    (accept sha1 : Option String) : ∃ goals fields, Requested network.script url goals ∧
      (network.fetch url headers accept sha1).2.log =
        network.log ++ records (BeginsSecure url) fields goals := by
  have spelled : "https:".toList.isPrefixOf url.toList = decide (BeginsSecure url) := by
    rw [Bool.eq_iff_iff, List.isPrefixOf_iff_prefix, decide_eq_true_iff, BeginsSecure]
  unfold Network.fetch Requested
  cases read : firstTarget url.toList with
  | error e => exact ⟨[], [], rfl, (List.append_nil _).symm⟩
  | ok goal =>
    simp only [spelled]
    generalize RequestHeaders.ofMembers _ = fields
    obtain ⟨goals, chain, recorded⟩ := @exchange_records url (BeginsSecure url) 63 fields [] goal
      network (by decide)
    refine ⟨goals, fields, chain, recorded ▸ ?_⟩
    rcases exchange url (BeginsSecure url) 64 fields [] goal network with ⟨e | response, left⟩
    · rfl
    · cases sha1 with
      | none => rfl
      | some expected =>
        simp only
        split <;> rfl

end Fetch

/-- A document that is asked for by `https` is asked for with the launcher's certificates. -/
def NetworkEvent.IsCertified : NetworkEvent → Prop
  | .fetch url _ certified => Fetch.HasScheme "https" url → certified = true
  | _ => True

/-- From the first network to the second one, what was asked for by `https` was asked for with the
launcher's certificates. -/
def Network.Certifies (n m : Network) : Prop :=
  ∃ sent, m.log = n.log ++ sent ∧ ∀ event ∈ sent, event.IsCertified

namespace Fetch

theorem records_isCertified (certified : Bool) (headers : RequestHeaders) (goals : List Target) :
    (∀ event ∈ records certified headers goals, event.IsCertified) ↔
      certified = true ∨ ∀ goal ∈ goals, ¬ HasScheme "https" goal.text := by
  induction goals generalizing headers with
  | nil => simp [records]
  | cons goal goals ih =>
    rw [records, List.forall_mem_cons, List.forall_mem_cons, ih, NetworkEvent.IsCertified]
    tauto

/-- A fetch is certified if its URL begins as it must, or if its chain never comes to `https`. -/
theorem certifies_iff {n m : Network} {certified : Bool} {headers : RequestHeaders}
    {goals : List Target} (recorded : m.log = n.log ++ records certified headers goals) :
    n.Certifies m ↔ certified = true ∨ ∀ goal ∈ goals, ¬ HasScheme "https" goal.text := by
  rw [← records_isCertified certified headers]
  constructor
  · rintro ⟨sent, same, each⟩
    rwa [List.append_cancel_left (recorded.symm.trans same)]
  · exact fun each => ⟨_, recorded, each⟩

section Misleading
variable {goal : Target} {url : String}

/-- A document by `https` to which a redirection may lead. -/
def misled : Target := ⟨"https://h/".toList, "https".toList, "h".toList⟩

/-- A network that leads from a target to that document. -/
def misleading (goal : Target) : Network :=
  ⟨[(goal.text, [.response 302 [("Location", misled.text)] [] none])], [], 0⟩

theorem misled_isAsked : misled.IsAsked := ⟨.inr (by decide), by decide⟩

theorem misled_hasScheme : HasScheme "https" misled.text :=
  ⟨"https".toList, "//h/".toList, by decide, by simp, by decide +kernel⟩

def misledParts : Url := ⟨misled.scheme, misled.host, ['/'], [], [], []⟩

theorem misled_parsed : Url.parse misled.url = .ok misledParts := by decide +kernel

/-- It has an authority of its own, so that it is the same whatever led to it. -/
theorem join_misled (read : firstTarget url.toList = .ok goal) :
    Url.join goal.url misled.url = .ok misled.url := by
  obtain ⟨_, -, parses⟩ := bind_ok read
  obtain ⟨b, parsed, same⟩ := bind_ok parses
  cases same
  have under := Url.parseUnder_of_scheme misled_parsed (by decide) b.scheme
  have whole : misledParts.text = misled.url := by decide +kernel
  unfold Url.join
  by_cases empty : goal.url.isEmpty = true
  · rw [if_pos empty]
    rfl
  · rw [if_neg empty, if_neg (by decide), parsed]
    simp only [bind, Except.bind, under]
    split
    · rfl
    · rw [if_pos (by decide +kernel), whole]
      rfl

theorem redirectTarget_misled (read : firstTarget url.toList = .ok goal) :
    redirectTarget goal.url misled.text = .ok (some misled.url) := by
  have followed : followedSchemes.contains (String.ofList misledParts.scheme) = true := by
    decide +kernel
  have plain : EncodingError.first? "latin-1" 256 misledParts.text = none := by decide +kernel
  have kept : Url.percentEncode misledParts.text = misled.url := by decide +kernel
  have unchanged : ¬ (misledParts.path.isEmpty && !misledParts.authority.isEmpty) = true := by
    decide
  unfold redirectTarget
  rw [Target.text, String.toList_ofList, misled_parsed]
  simp only [bind, Except.bind, Except.mapError, followed, Bool.not_true, Bool.false_eq_true,
    if_false]
  rw [if_neg unchanged]
  simp only [plain, kept, join_misled read]
  rfl

theorem misleading_leads (read : firstTarget url.toList = .ok goal) :
    LeadsOn [] goal (nextReply ((misleading goal).script goal.text)).1 misled.url misled := by
  have route : (misleading goal).script goal.text =
      [.response 302 [("Location", misled.text)] [] none] := by
    simp [misleading, Network.script]
  refine ⟨302, [("Location", misled.text)], [], by rw [route]; rfl, rfl, ⟨misled.text, ?_, ?_⟩, rfl,
    rfl⟩
  · decide +kernel
  · exact redirectTarget_misled read

/-- What such a network leads to is asked for. -/
theorem misled_requested (read : firstTarget url.toList = .ok goal) (asked : goal.IsAsked)
    {goals : List Target} (requested : Requested (misleading goal).script url goals) :
    misled ∈ goals := by
  simp only [Requested, read] at requested
  cases requested with
  | unasked unfit => exact absurd asked unfit
  | ended _ stays => exact absurd (misleading_leads read) (stays _ _)
  | led _ leads onward =>
    obtain ⟨rfl, rfl⟩ := leads.unique (misleading_leads read)
    exact List.mem_cons_of_mem _ (onward.mem_of_isAsked misled_isAsked)

end Misleading

/-- What is asked for to fetch a document is the one chain of its redirections, and all of it is
asked for alike: with the launcher's certificates if the URL that is given begins with `https:`, in
small letters and with nothing before it. So whatever is asked for by `https` is asked for with
them if the URL begins so, or if nothing is. Of a URL that can be asked for, no other beginning is
enough on all networks. -/
theorem fetch_certified (url : String) (headers : Members) (accept sha1 : Option String) :
    (∀ n : Network, ∃ goals fields,
      (∀ others, Requested n.script url others ↔ others = goals) ∧
      (∀ goal ∈ goals, HasScheme "http" goal.text ∨ HasScheme "https" goal.text) ∧
      (n.fetch url headers accept sha1).2.log =
        n.log ++ records (BeginsSecure url) fields goals ∧
      (n.Certifies (n.fetch url headers accept sha1).2 ↔
        BeginsSecure url ∨ ∀ goal ∈ goals, ¬ HasScheme "https" goal.text)) ∧
    ∀ goal, firstTarget url.toList = .ok goal → goal.IsAsked →
      ((∀ n : Network, n.Certifies (n.fetch url headers accept sha1).2) ↔ BeginsSecure url) := by
  constructor
  · intro n
    obtain ⟨goals, fields, requested, recorded⟩ := fetch_records n url headers accept sha1
    refine ⟨goals, fields, fun others => ⟨requested.unique, fun same => same ▸ requested⟩,
      requested.hasScheme, recorded, ?_⟩
    rw [certifies_iff recorded, decide_eq_true_iff]
  · intro goal read asked
    constructor
    · intro each
      obtain ⟨goals, fields, requested, recorded⟩ :=
        fetch_records (misleading goal) url headers accept sha1
      rcases (certifies_iff recorded).mp (each (misleading goal)) with begins | none
      · exact of_decide_eq_true begins
      · exact absurd misled_hasScheme (none misled (misled_requested read asked requested))
    · intro begins n
      obtain ⟨goals, fields, -, recorded⟩ := fetch_records n url headers accept sha1
      exact (certifies_iff recorded).mpr (.inl (decide_eq_true begins))

/-- A URL that begins as it must is certified through all hops, by whatever spelling of `https` they
go on. -/
theorem fetch_certified_back :
    let network : Network := ⟨[
      ("https://h/a", [.response 302 [("Location", "http://h/b")] [] none]),
      ("http://h/b", [.response 302 [("Location", "HTTPS://h/c")] [] none])], [], 0⟩
    let left := (network.fetch "https://h/a" [] none none).2
    (∀ n : Network, n.Certifies (n.fetch "https://h/a" [] none none).2) ∧ network.Certifies left ∧
      left.asked = ["https://h/a", "http://h/b", "https://h/c"] := by
  intro network left
  have everywhere : ∀ n : Network, n.Certifies (n.fetch "https://h/a" [] none none).2 :=
    ((fetch_certified "https://h/a" [] none none).2
      ⟨"https://h/a".toList, "https".toList, "h".toList⟩ rfl ⟨.inr (by decide), by decide⟩).mpr
      (by decide)
  exact ⟨everywhere, everywhere network, by decide +kernel⟩

/-- A URL whose scheme is in capital letters, and one that is redirected: both documents are fetched
by `https` without the launcher's certificates. -/
theorem https_uncertified :
    let capital : Network := ⟨[("HTTPS://h/x", [.response 200 [] [1] none])], [], 0⟩
    let redirected : Network := ⟨[
      ("http://h/a", [.response 302 [("Location", "https://h/b")] [] none]),
      ("https://h/b", [.response 200 [] [1] none])], [], 0⟩
    ((capital.fetch "HTTPS://h/x" [] none none).1 = .ok ⟨200, [1], []⟩ ∧
      ¬ capital.Certifies (capital.fetch "HTTPS://h/x" [] none none).2) ∧
    (redirected.fetch "http://h/a" [] none none).1 = .ok ⟨200, [1], []⟩ ∧
      ¬ redirected.Certifies (redirected.fetch "http://h/a" [] none none).2 := by
  intro capital redirected
  let fields := RequestHeaders.ofMembers [("User-Agent", .string userAgent)]
  have capital' : HasScheme "https" "HTTPS://h/x" :=
    ⟨"HTTPS".toList, "//h/x".toList, by decide, by simp, by decide +kernel⟩
  have redirected' : HasScheme "https" "https://h/b" :=
    ⟨"https".toList, "//h/b".toList, by decide, by simp, by decide +kernel⟩
  refine ⟨⟨rfl, fun certifies => ?_⟩, rfl, fun certifies => ?_⟩
  · let x : Target := ⟨"HTTPS://h/x".toList, "https".toList, "h".toList⟩
    rcases (@certifies_iff _ _ false fields [x] rfl).mp certifies with unset | none
    · cases unset
    · exact none x List.mem_cons_self capital'
  · let a : Target := ⟨"http://h/a".toList, "http".toList, "h".toList⟩
    let b : Target := ⟨"https://h/b".toList, "https".toList, "h".toList⟩
    rcases (@certifies_iff _ _ false fields [a, b] rfl).mp certifies with unset | none
    · cases unset
    · exact none b (List.mem_cons_of_mem _ List.mem_cons_self) redirected'

end Fetch
end Launcher
