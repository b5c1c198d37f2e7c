import Launcher.Proofs.Download.Circling
import Launcher.Proofs.Download.Isolation
import Launcher.Proofs.Download.Verdict
import Launcher.Proofs.Network.Pursuit
import Launcher.Proofs.Url.Resolution

/-! The hops of a download from one URL to the next. Every location is resolved against the URL of
the entry, however far the download has come from there. That makes no difference for locations that
name their scheme and their authority, and it leads all others back to the origin of the entry. -/
namespace Launcher
open Url (IsAbsolute IsRelativeTo Leads NamesAuthority join schemeOf)

namespace Turn
variable {t : Turn} {next : DownloadTarget}

/-- Where the reply to a turn sends it on to. -/
def location? (t : Turn) : Option (List Char) :=
  match t.reply with
  | .response status headers _ none =>
    if Worker.isRedirection status then some ((headers.find? "location").getD "").toList else none
  | _ => none

theorem leads_of_redirected (connected : t.worker.IsConnected)
    (redirected : t.ending = .redirected next) :
    ∃ location, t.location? = some location ∧ Leads t.job.entry.url.toList location next := by
  obtain ⟨_, ⟨status, headers, body, replied, redirection, leads⟩, _⟩ :=
    Worker.process_redirected connected redirected
  refine ⟨((headers.find? "location").getD "").toList, ?_, ?_⟩
  · unfold location? reply
    rw [replied]
    exact if_pos redirection
  · unfold Worker.redirect at leads
    rcases joined : join t.job.entry.url.toList ((headers.find? "location").getD "").toList
      with e | url
    · simp only [joined] at leads
      contradiction
    · simp only [joined] at leads
      exact ⟨url, joined, leads⟩

end Turn

/-- The turns of one download that is at a URL, each of them at the URL that the location of the one
before is resolved to. -/
inductive Chain (resolve : List Char → List Char → Except UrlError (List Char)) :
    List Char → List Turn → Prop
  | waiting {url : List Char} : Chain resolve url []
  | last {url : List Char} {t : Turn} :
      DownloadTarget.ofUrl (String.ofList url) = .ok t.job.target → t.isRedirected = false →
      Chain resolve url [t]
  | hop {url url' location : List Char} {t : Turn} {next : DownloadTarget} {turns : List Turn} :
      DownloadTarget.ofUrl (String.ofList url) = .ok t.job.target →
      t.ending = .redirected next → t.location? = some location →
      resolve url location = .ok url' → DownloadTarget.ofUrl (String.ofList url') = .ok next →
      Chain resolve url' turns → Chain resolve url (t :: turns)

namespace Worker
variable {w : Worker} {entry : DownloadEntry} {fuel : Nat}

/-- Only entries that wait have turns. -/
theorem filter_turns_of_not_mem (none : entry ∉ w.entries) :
    (w.turns fuel).filter (·.job.entry = entry) = [] := by
  induction fuel generalizing w with
  | zero => rfl
  | succ fuel ih =>
    unfold turns
    cases taken : w.turn? with
    | none => rfl
    | some t =>
      have entries := entries_of_turn? taken
      rw [entries, List.mem_cons, not_or] at none
      have other : t.job.entry ≠ entry := Ne.symm none.1
      simp only [List.filter_cons, other, decide_false, Bool.false_eq_true, if_false]
      cases onward : t.next? with
      | none => rfl
      | some w₁ =>
        refine ih ?_
        rw [(Turn.next?_some onward).2.2, List.mem_append, not_or]
        refine ⟨none.2, ?_⟩
        split
        · simpa using none.1
        · exact List.not_mem_nil

theorem nodup_next {t : Turn} {w₁ : Worker} (taken : w.turn? = some t)
    (onward : t.next? = some w₁) (distinct : w.entries.Nodup) : w₁.entries.Nodup := by
  rcases entries_next taken onward with ⟨_, perm⟩ | ⟨_, first⟩
  · exact perm.nodup_iff.mpr distinct
  · rw [first] at distinct
    exact (List.nodup_cons.mp distinct).2

/-- The turns of an entry that waits make a chain from the URL of its target. -/
theorem chain_of_turns (distinct : w.entries.Nodup) (connected : w.IsConnected)
    {target : DownloadTarget} {url : List Char} (waits : ⟨target, entry⟩ ∈ w.queue)
    (read : DownloadTarget.ofUrl (String.ofList url) = .ok target) :
    Chain (fun _ => join entry.url.toList) url
      ((w.turns fuel).filter (·.job.entry = entry)) := by
  induction fuel generalizing w target url with
  | zero => exact .waiting
  | succ fuel ih =>
    unfold turns
    cases taken : w.turn? with
    | none => exact .waiting
    | some t =>
      have once := distinct
      rw [entries_of_turn? taken, List.nodup_cons] at once
      rw [(queue_of_turn? taken).1] at waits
      by_cases turn : t.job.entry = entry
      · subst turn
        have mine : t.job = ⟨target, t.job.entry⟩ :=
          ((List.mem_cons.mp waits).resolve_right fun later =>
            once.1 (List.mem_map_of_mem (f := (·.entry)) later)).symm
        have here : DownloadTarget.ofUrl (String.ofList url) = .ok t.job.target := by
          rw [read, mine]
        simp only [List.filter_cons, decide_true, if_true]
        cases ending : t.ending with
        | crashed cause =>
          have ends : t.next? = none := by simp [Turn.next?, ending]
          rw [ends]
          exact .last here (by simp [Turn.isRedirected, ending])
        | finished outcome =>
          have final : t.isRedirected = false := by simp [Turn.isRedirected, ending]
          obtain ⟨w₁, onward⟩ : ∃ w₁, t.next? = some w₁ := by simp [Turn.next?, ending]
          have gone : t.job.entry ∉ w₁.entries := by
            rw [(Turn.next?_some onward).2.2, final]
            simpa using once.1
          rw [onward]
          simp only [filter_turns_of_not_mem gone]
          exact .last here final
        | redirected next =>
          have mine' := isConnected_of_turn? taken connected
          obtain ⟨location, sent, url', joined, aimed⟩ := t.leads_of_redirected mine' ending
          let w₁ : Worker := { t.after with queue := t.after.queue ++ [⟨next, t.job.entry⟩] }
          have onward : t.next? = some w₁ := by simp [Turn.next?, ending, w₁]
          have waits₁ : ⟨next, t.job.entry⟩ ∈ w₁.queue := by simp [w₁]
          rw [onward]
          -- The entry waits again, at the target that it was sent to.
          refine .hop here ending sent joined aimed ?_
          exact ih (nodup_next taken onward distinct) (t.isConnected_next onward mine') waits₁ aimed
      · -- The turn of another entry leaves the job of this one in the queue.
        have later := (List.mem_cons.mp waits).resolve_left fun first => turn (first ▸ rfl)
        simp only [List.filter_cons, turn, decide_false, Bool.false_eq_true, if_false]
        cases onward : t.next? with
        | none => exact .waiting
        | some w₁ =>
          exact ih (nodup_next taken onward distinct)
            (t.isConnected_next onward (isConnected_of_turn? taken connected))
            (t.mem_queue_next onward later) read

end Worker
/-- A reference leads from the URL of the entry to where it leads from each URL of its scheme that
the download has come to. -/
def Url.Settles (base : DownloadTarget) (current : DownloadTarget) (location : List Char) : Prop :=
  IsAbsolute location ∨
    (current.https = base.https ∧ NamesAuthority (schemeOf base) location)

namespace Chain
variable {base url url' : List Char} {t₀ : DownloadTarget} {turns : List Turn}

/-- Locations that settle what they lead to can as well be resolved against the URL that was
requested. -/
theorem of_settled (read : DownloadTarget.ofUrl (String.ofList base) = .ok t₀)
    (chain : Chain (fun _ => join base) url turns)
    (settled : ∀ t ∈ turns, t.isRedirected → ∀ location ∈ t.location?,
      Url.Settles t₀ t.job.target location)
    (same : ∀ t, DownloadTarget.ofUrl (String.ofList url) = .ok t →
      DownloadTarget.ofUrl (String.ofList url') = .ok t) : Chain join url' turns := by
  -- The two chains may spell a URL in two ways, but they read one target of both.
  induction chain generalizing url' with
  | waiting => exact .waiting
  | last here final => exact .last (same _ here) final
  | @hop url next location t target turns here ending sent joined aimed _ ih =>
    have here' := same _ here
    have redirected : t.isRedirected := by simp [Turn.isRedirected, ending]
    have leads : Leads url' location target := by
      have original : Leads base location target := ⟨next, joined, aimed⟩
      rcases settled t List.mem_cons_self redirected location sent with absolute | ⟨secure, names⟩
      · rwa [Url.leads_of_absolute here' absolute, ← Url.leads_of_absolute read absolute]
      · rwa [← Url.leads_of_authority read here' secure.symm names]
    obtain ⟨next', joined', aimed'⟩ := leads
    refine .hop here' ending sent joined' aimed' (ih (fun t member => ?_) fun t there => ?_)
    · exact settled t (List.mem_cons_of_mem _ member)
    · rw [aimed] at there
      exact aimed'.trans there

/-- The first hop is resolved against the URL of the entry in any case. -/
theorem of_settled_tail (chain : Chain (fun _ => join base) base turns)
    (settled : ∀ t₀, DownloadTarget.ofUrl (String.ofList base) = .ok t₀ →
      ∀ t ∈ turns.tail, t.isRedirected → ∀ location ∈ t.location?,
        Url.Settles t₀ t.job.target location) : Chain join base turns := by
  cases chain with
  | waiting => exact .waiting
  | last here final => exact .last here final
  | hop here ending sent joined aimed rest =>
    exact .hop here ending sent joined aimed (rest.of_settled here (settled _ here) fun _ => id)

/-- Where every location is resolved against the URL that was requested, one without an authority
stays at the origin of its hop. -/
theorem origin_of_hop (chain : Chain join url turns) :
    ∀ t ∈ turns, ∀ next, t.ending = .redirected next → ∀ location ∈ t.location?,
      IsRelativeTo (schemeOf t.job.target) location → next.origin = t.job.target.origin := by
  induction chain with
  | waiting => exact fun _ none => absurd none List.not_mem_nil
  | last _ final =>
    intro t member next ending
    obtain rfl := List.mem_singleton.mp member
    simp [Turn.isRedirected, ending] at final
  | hop here ending sent joined aimed _ ih =>
    intro t member next' ending' location' sent' relative
    rcases List.mem_cons.mp member with rfl | later
    · obtain rfl : _ = next' := JobEnd.redirected.inj (ending.symm.trans ending')
      obtain rfl : _ = location' := Option.some.inj (sent.symm.trans sent')
      exact Url.origin_of_relative here relative ⟨_, joined, aimed⟩
    · exact ih t later next' ending' location' sent' relative

end Chain

/-- A download that was neither lost nor redirected was verified as what its entry declares. -/
theorem Turn.verified {t : Turn} {outcome : DownloadOutcome}
    (finished : t.ending = .finished outcome) :
    outcome.IsLost ∨
      ∃ body, t.reply.IsComplete body ∧ outcome = Worker.verify t.job.entry body := by
  have effect := t.effect
  rw [finished] at effect
  cases effect with
  | unwritten _ lost => exact .inl lost
  | stored _ _ complete => exact .inr ⟨_, complete, rfl⟩
  | dropped _ _ _ => exact .inl trivial

namespace DownloadList
variable {list : DownloadList}

/-- The turns of a batch for one of its entries. -/
def hops (list : DownloadList) (threads : Int) (files : FileTree) (network : Network)
    (entry : DownloadEntry) : List Turn :=
  (list.turns threads files network).filter (·.job.entry = entry)

theorem hops_chain (built : list.Built) (threads : Int) (files : FileTree) (network : Network)
    {entry : DownloadEntry} (listed : entry ∈ list.entries) :
    Chain (fun _ => join entry.url.toList) entry.url.toList
      (list.hops threads files network entry) := by
  unfold hops turns
  split
  · exact .waiting
  · obtain ⟨job, member, rfl⟩ := List.mem_map.mp listed
    have waits : job ∈ (list.worker files network).queue :=
      (List.mergeSort_perm _ _).mem_iff.mpr member
    have distinct := (list.worker_entries files network).nodup_iff.mpr built.nodup
    refine Worker.chain_of_turns distinct (fun _ none => absurd none List.not_mem_nil) waits ?_
    rw [String.ofList_toList]
    exact built.target member

/-- Each hop of a download is at the URL that the location before it is resolved to against the URL
of the entry. This is the URL to which the location leads from the hop before it if all locations
but the first one settle what they lead to. A location without an authority leads back to the origin
of the entry, so that it is followed from a hop only if the hop is at this origin. The body is
verified as what the entry declares. -/
theorem download_hops (built : list.Built) (threads : Int) (files : FileTree) (network : Network)
    {entry : DownloadEntry} (listed : entry ∈ list.entries) :
    let hops := list.hops threads files network entry
    let base := entry.url.toList
    Chain (fun _ => join base) base hops ∧
    ((∀ first, DownloadTarget.ofUrl entry.url = .ok first → ∀ t ∈ hops.tail, t.isRedirected →
      ∀ location ∈ t.location?, Url.Settles first t.job.target location) → Chain join base hops) ∧
    (∀ first, DownloadTarget.ofUrl entry.url = .ok first → ∀ t ∈ hops, ∀ next,
      t.ending = .redirected next → ∀ location ∈ t.location?,
      IsRelativeTo (schemeOf first) location → next.origin = first.origin ∧
        (IsRelativeTo (schemeOf t.job.target) location → Chain join base hops →
          t.job.target.origin = first.origin)) ∧
    (∀ t ∈ hops, ∀ outcome, t.ending = .finished outcome → outcome.IsLost ∨
      ∃ body, t.reply.IsComplete body ∧ outcome = Worker.verify entry body) := by
  intro hops base
  have whole : String.ofList base = entry.url := String.ofList_toList
  have chain : Chain (fun _ => join base) base hops := hops_chain built threads files network listed
  refine ⟨chain, fun settled => chain.of_settled_tail (by rwa [whole]), ?_, ?_⟩
  · intro first read t member next ending location sent relative
    obtain ⟨inside, same⟩ := List.mem_filter.mp member
    obtain ⟨location', sent', leads⟩ := t.leads_of_redirected (isConnected_turns inside) ending
    obtain rfl : location' = location := Option.some.inj (sent'.symm.trans sent)
    rw [of_decide_eq_true same] at leads
    have back : next.origin = first.origin :=
      Url.origin_of_relative (by rwa [whole]) relative leads
    refine ⟨back, fun relative' claimed => ?_⟩
    rw [← claimed.origin_of_hop t member next ending location' sent relative', back]
  · intro t member outcome finished
    have same := of_decide_eq_true (List.mem_filter.mp member).2
    rw [← same]
    exact t.verified finished

/-- Two hops by whole URLs are followed from each URL to the next one. -/
theorem download_hops_absolute :
    let network : Network := ⟨[("http://h/a", [.response 302 [("Location", "//k/b")] [] none]),
      ("http://k/b", [.response 307 [("Location", "http://h/c")] [] none]),
      ("http://h/c", [.response 200 [] [1, 2] none])], [], 0⟩
    Chain join outer.entry.url.toList (single.hops 1 .empty network outer.entry) ∧
      (single.hops 1 .empty network outer.entry).length = 3 := by
  intro network
  have settled : ∀ t ∈ (single.hops 1 .empty network outer.entry).tail, t.isRedirected →
      t.location? = some "http://h/c".toList := by
    rw [hops, turns, worker, single_sorted]
    decide +kernel
  have listed : outer.entry ∈ single.entries := List.mem_cons_self
  constructor
  · apply (download_hops single_built 1 .empty network listed).2.1
    intro first _ t member redirected location sent
    rw [settled t member redirected] at sent
    obtain rfl := Option.some.inj sent
    exact .inl ⟨_, rfl, by decide, by decide⟩
  · rw [hops, turns, worker, single_sorted]
    decide +kernel

/-- A path behind a redirection to another host is asked for at the host of the entry, where the
fetching of a document asks the other host. -/
theorem second_hop_leads_back :
    let network : Network := ⟨[
      ("http://h/a", [.response 302 [("Location", "http://k/d/y")] [] none]),
      ("http://k/d/y", [.response 302 [("Location", "z")] [] none]),
      ("http://k/d/z", [.response 200 [] [1, 2] none])], [], 0⟩
    single.Built ∧ join "http://k/d/y".toList "z".toList = .ok "http://k/d/z".toList ∧
      (network.fetch "http://h/a" [] none none).2.asked =
        ["http://h/a", "http://k/d/y", "http://k/d/z"] ∧
      (single.download 1 .empty network).network.asked =
        ["http://h/a", "http://k/d/y", "http://h/z"] ∧
      (single.download 1 .empty network).results = [⟨outer.entry, .failure .notFound⟩] := by
  intro network
  refine ⟨single_built, by decide +kernel, by decide +kernel, ?_, ?_⟩
  · rw [download, single_sorted]
    decide +kernel
  · rw [download, single_sorted]
    decide +kernel

end DownloadList
end Launcher
