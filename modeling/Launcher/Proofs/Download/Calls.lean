import Launcher.Proofs.Download.Listing
import Launcher.Proofs.Install.Protocol
import Mathlib.Data.List.DropRight
import Mathlib.Data.List.Nodup

/-! A list of downloads through all that is done with it. Entries are added or refused, the list is
cleared, looked through and downloaded: at any time its fields agree, and each destination has the
first entry that was offered for it since the list was cleared. -/
namespace Launcher.DownloadList

/-- Statements that work on a list in place. What was done to it stays when one of them fails. -/
abbrev InPlace := ExceptT AddError (StateM DownloadList)

/-- Adds an entry statement by statement, each field of the list in its turn. -/
def addInPlace (files : FileTree) (entry : DownloadEntry) (verify : Bool) : InPlace Bool := do
  if (← get).destinations.contains entry.destination then return false
  if ← MonadExcept.ofExcept ((isPresent files entry verify).mapError .system) then return false
  let target ← MonadExcept.ofExcept ((DownloadTarget.ofUrl entry.url).mapError .url)
  modify fun list => { list with jobs := list.jobs ++ [⟨target, entry⟩] }
  modify fun list => { list with destinations := list.destinations ++ [entry.destination] }
  modify fun list => { list with count := list.count + 1 }
  if let some size := entry.size then
    modify fun list => { list with size := list.size + size.value }
  return true

/-- What is done with a list. Every addition and every download finds files of its own. -/
inductive ListCall
  | add (files : FileTree) (entry : DownloadEntry) (verify : Bool)
  | clear
  | iterate
  | download (threads : Int) (files : FileTree) (network : Network)

namespace ListCall

def perform (list : DownloadList) : ListCall → DownloadList
  | .add files entry verify => ((addInPlace files entry verify).run.run list).2
  | .clear => { list with jobs := [], destinations := [], count := 0, size := 0 }
  | .iterate => list
  | .download threads files network => (list.download threads files network).list

/-- The job that a call offers: that of an entry to add, if its file is not taken as it is and its
URL has a target. -/
def offer : ListCall → Option DownloadJob
  | .add files entry verify =>
    match isPresent files entry verify, DownloadTarget.ofUrl entry.url with
    | .ok false, .ok target => some ⟨target, entry⟩
    | _, _ => none
  | _ => none

def isClear : ListCall → Bool
  | .clear => true
  | _ => false

end ListCall

/-- A new list after calls. -/
def after (calls : List ListCall) : DownloadList := calls.foldl ListCall.perform empty

/-- The jobs that were offered since the list was cleared, in their order. Some of them came when
their destination was taken. -/
def offers (calls : List ListCall) : List DownloadJob :=
  (calls.rtakeWhile (!·.isClear)).filterMap ListCall.offer

/-- The fields of a list agree: those beside the jobs can be told from them. -/
structure IsConsistent (list : DownloadList) : Prop where
  count : list.count = list.jobs.length
  size : list.size = list.knownSize
  destinations (p : Path) : p ∈ list.destinations ↔ ∃ job ∈ list.jobs, job.entry.destination = p
  apart : (list.jobs.map (·.entry.destination)).Nodup

/-- The job for a destination that comes first. -/
def jobFor (p : Path) (jobs : List DownloadJob) : Option DownloadJob :=
  jobs.find? (·.entry.destination = p)

section InPlace
variable {α β : Type}

theorem get_run (next : DownloadList → InPlace α) (list : DownloadList) :
    (get >>= next).run.run list = (next list).run.run list := rfl

theorem modify_run (change : DownloadList → DownloadList) (next : InPlace α)
    (list : DownloadList) :
    (modify change >>= fun _ => next).run.run list = next.run.run (change list) := rfl

theorem ofExcept_run (x : Except AddError β) (next : β → InPlace α) (list : DownloadList) :
    (MonadExcept.ofExcept x >>= next).run.run list = match x with
      | .ok b => (next b).run.run list
      | .error e => (.error e, list) := by
  cases x <;> rfl

end InPlace

variable {list : DownloadList} {files : FileTree} {entry : DownloadEntry} {verify : Bool}

/-- An addition that fails does so before the first field is changed. -/
theorem addInPlace_run (list : DownloadList) (files : FileTree) (entry : DownloadEntry)
    (verify : Bool) : (addInPlace files entry verify).run.run list =
      match list.add files entry verify with
      | .ok (added, left) => (.ok added, left)
      | .error e => (.error e, list) := by
  rw [addInPlace, add, get_run]
  split
  · rfl
  rw [ofExcept_run]
  cases isPresent files entry verify with
  | error e => rfl
  | ok present =>
    cases present with
    | true => rfl
    | false =>
      simp only [Except.mapError, Bool.false_eq_true, if_false]
      rw [ofExcept_run]
      cases DownloadTarget.ofUrl entry.url with
      | error e => rfl
      | ok target =>
        simp only
        rw [modify_run, modify_run, modify_run]
        cases size : entry.size with
        | none =>
          simp only [put, size, Int.add_zero]
          rfl
        | some size =>
          rw [modify_run]
          simp only [put, *]
          rfl

/-- The ways in which an addition ends: the entry is put at the end, or the list stays because the
destination is taken or because there is nothing to put. -/
inductive Adding (list : DownloadList) (files : FileTree) (entry : DownloadEntry) (verify : Bool) :
    Except AddError Bool × DownloadList → Prop
  | added {target : DownloadTarget} (free : entry.destination ∉ list.destinations)
      (offered : (ListCall.add files entry verify).offer = some ⟨target, entry⟩) :
      Adding list files entry verify (.ok true, list.put ⟨target, entry⟩)
  | taken (taken : entry.destination ∈ list.destinations) :
      Adding list files entry verify (.ok false, list)
  | refused {answer : Except AddError Bool} (none : (ListCall.add files entry verify).offer = none)
      (other : answer ≠ .ok true) :
      Adding list files entry verify (answer, list)

theorem addInPlace_adding (list : DownloadList) (files : FileTree) (entry : DownloadEntry)
    (verify : Bool) :
    Adding list files entry verify ((addInPlace files entry verify).run.run list) := by
  rw [addInPlace_run, add]
  by_cases taken : entry.destination ∈ list.destinations
  · rw [if_pos (List.contains_iff_mem.mpr taken)]
    exact .taken taken
  · rw [if_neg fun contained => taken (List.contains_iff_mem.mp contained)]
    cases present : isPresent files entry verify with
    | error e => exact .refused (by simp [ListCall.offer, present]) (by simp)
    | ok there =>
      cases there with
      | true => exact .refused (by simp [ListCall.offer, present]) (by simp)
      | false =>
        cases parsed : DownloadTarget.ofUrl entry.url with
        | error e => exact .refused (by simp [ListCall.offer, parsed]) (by simp)
        | ok target => exact .added taken (by simp [ListCall.offer, present, parsed])

theorem add_eq (list : DownloadList) (files : FileTree) (entry : DownloadEntry) (verify : Bool) :
    let ended := (addInPlace files entry verify).run.run list
    list.add files entry verify = ended.1.map (·, ended.2) := by
  simp only [addInPlace_run]
  cases list.add files entry verify <;> rfl

namespace Adding
variable {ended : Except AddError Bool × DownloadList}

theorem added_iff (adding : Adding list files entry verify ended) : ended.1 = .ok true ↔
    (∃ job, (ListCall.add files entry verify).offer = some job) ∧
      entry.destination ∉ list.destinations := by
  cases adding with
  | added free offered => exact iff_of_true rfl ⟨⟨_, offered⟩, free⟩
  | taken taken => exact iff_of_false nofun fun ⟨_, free⟩ => free taken
  | refused none other =>
    exact iff_of_false other fun ⟨⟨_, offered⟩, _⟩ => nomatch none.symm.trans offered

theorem unchanged (adding : Adding list files entry verify ended) (other : ended.1 ≠ .ok true) :
    ended.2 = list := by
  cases adding with
  | added => exact absurd rfl other
  | taken | refused => rfl

end Adding

theorem add_built (built : list.Built) :
    ((addInPlace files entry verify).run.run list).2.Built := by
  rw [addInPlace_run]
  cases added : list.add files entry verify with
  | ok result => exact built.add added
  | error e => exact built

theorem download_list (list : DownloadList) (threads : Int) (files : FileTree)
    (network : Network) : (list.download threads files network).list = list.sorted := by
  unfold download
  dsimp only
  split
  · rfl
  · split
    · rfl
    · split <;> rfl

theorem ListCall.perform_built (built : list.Built) (call : ListCall) :
    (call.perform list).Built := by
  cases call with
  | add => exact add_built built
  | clear => exact .empty
  | iterate => exact built
  | download threads files network =>
    rw [perform, download_list]
    exact built.sorted

theorem after_built (calls : List ListCall) : (after calls).Built := by
  induction calls using List.reverseRecOn with
  | nil => exact .empty
  | append_singleton calls call ih =>
    rw [after, List.foldl_concat]
    exact call.perform_built ih

theorem entries_destinations (list : DownloadList) :
    list.entries.map (·.destination) = list.jobs.map (·.entry.destination) := by
  simp [entries, Function.comp_def]

theorem Built.isConsistent (built : list.Built) : list.IsConsistent where
  count := by rw [built.count, entries, List.length_map]
  size := built.size
  destinations p := by
    rw [← built.destinations.1.mem_iff, entries_destinations, List.mem_map]
  apart := entries_destinations list ▸ built.nodup_destinations

section First
variable {p : Path} {job : DownloadJob} {jobs others : List DownloadJob}

theorem jobFor_append : jobFor p (jobs ++ others) = (jobFor p jobs).or (jobFor p others) :=
  List.find?_append

theorem jobFor_eq_none : jobFor p jobs = none ↔ ∀ job ∈ jobs, job.entry.destination ≠ p := by
  simp [jobFor]

theorem jobFor_eq_some (apart : (jobs.map (·.entry.destination)).Nodup) :
    jobFor p jobs = some job ↔ job ∈ jobs ∧ job.entry.destination = p := by
  constructor
  · intro found
    exact ⟨List.mem_of_find?_eq_some found, by simpa using List.find?_some found⟩
  · rintro ⟨member, rfl⟩
    cases found : jobFor job.entry.destination jobs with
    | none => exact absurd rfl (jobFor_eq_none.mp found job member)
    | some other =>
      have same : other.entry.destination = job.entry.destination := by
        simpa using List.find?_some found
      rw [List.inj_on_of_nodup_map apart (List.mem_of_find?_eq_some found) member same]

theorem jobFor_perm (same : jobs.Perm others) (apart : (jobs.map (·.entry.destination)).Nodup) :
    jobFor p jobs = jobFor p others := by
  ext job
  rw [jobFor_eq_some apart, jobFor_eq_some ((same.map _).nodup_iff.mp apart), same.mem_iff]

end First

theorem offers_concat (calls : List ListCall) (call : ListCall) : offers (calls ++ [call]) =
    if call.isClear then [] else offers calls ++ call.offer.toList := by
  unfold offers
  split
  · rename_i clear
    rw [List.rtakeWhile_concat_neg _ _ _ (by simp [clear])]
    rfl
  · rename_i other
    rw [List.rtakeWhile_concat_pos _ _ _ (by simpa using other), List.filterMap_append]
    cases offered : call.offer <;> simp [offered]

theorem ListCall.offer_entry {job : DownloadJob}
    (offered : (ListCall.add files entry verify).offer = some job) : job.entry = entry := by
  simp only [offer] at offered
  split at offered
  · obtain rfl := Option.some.inj offered
    rfl
  · contradiction

/-- A call keeps the first offers for all destinations, and adds its own if it is the first. -/
theorem ListCall.perform_jobFor {offered : List DownloadJob} (built : list.Built)
    (first : ∀ p, jobFor p list.jobs = jobFor p offered) (call : ListCall) (p : Path) :
    jobFor p (call.perform list).jobs =
      jobFor p (if call.isClear then [] else offered ++ call.offer.toList) := by
  cases call with
  | clear => rfl
  | iterate => simpa [perform, isClear, offer] using first p
  | download threads files network =>
    have sorted : list.sorted.jobs.Perm list.jobs := List.mergeSort_perm _ _
    rw [perform, download_list, ← jobFor_perm sorted.symm built.isConsistent.apart, first]
    simp [isClear, offer]
  | add files entry verify =>
    have outcome := addInPlace_adding list files entry verify
    simp only [perform, isClear, Bool.false_eq_true, if_false, jobFor_append]
    generalize (addInPlace files entry verify).run.run list = ended at outcome ⊢
    cases outcome with
    | @added target free offers =>
      rw [offers, ← first]
      exact jobFor_append
    | taken taken =>
      rw [← first]
      cases found : jobFor p list.jobs with
      | some job => rfl
      | none =>
        rw [Option.none_or, eq_comm, jobFor_eq_none]
        rintro job offered rfl
        obtain ⟨other, member, same⟩ := (built.isConsistent.destinations _).mp taken
        rw [← offer_entry (Option.mem_toList.mp offered)] at same
        exact jobFor_eq_none.mp found other member same
    | refused none _ => rw [none, ← first]; exact (Option.or_none).symm

theorem after_jobFor (calls : List ListCall) (p : Path) :
    jobFor p (after calls).jobs = jobFor p (offers calls) := by
  induction calls using List.reverseRecOn generalizing p with
  | nil => rfl
  | append_singleton calls call ih =>
    rw [offers_concat, after, List.foldl_concat]
    exact call.perform_jobFor (after_built calls) ih p

theorem free_iff (calls : List ListCall) (p : Path) : p ∉ (after calls).destinations ↔
    ∀ job ∈ offers calls, job.entry.destination ≠ p := by
  rw [← jobFor_eq_none, ← after_jobFor, jobFor_eq_none,
    (after_built calls).isConsistent.destinations]
  simp

/-- After any calls, the fields of a list agree, and it has for each destination the job that was
offered for it first since the list was cleared. An entry is added exactly if it offers a job for
a destination that has had none; if it is refused, or its addition fails on the way, nothing has
changed. A download leaves the list as it is but for its order. -/
theorem after_calls (calls : List ListCall) :
    (after calls).IsConsistent ∧
    (∀ p, jobFor p (after calls).jobs = jobFor p (offers calls)) ∧
    (∀ files entry verify,
      let ended := (addInPlace files entry verify).run.run (after calls)
      (after calls).add files entry verify = ended.1.map (·, ended.2) ∧
      (ended.1 = .ok true ↔ (∃ job, (ListCall.add files entry verify).offer = some job) ∧
        ∀ job ∈ offers calls, job.entry.destination ≠ entry.destination) ∧
      (ended.1 ≠ .ok true → ended.2 = after calls)) ∧
    ∀ threads files network,
      let left := ((after calls).download threads files network).list
      left.jobs.Perm (after calls).jobs ∧ left.count = (after calls).count ∧
        left.size = (after calls).size ∧ left.destinations = (after calls).destinations := by
  refine ⟨(after_built calls).isConsistent, after_jobFor calls, fun files entry verify => ?_,
    fun threads files network => ?_⟩
  · have adding := addInPlace_adding (after calls) files entry verify
    rw [← free_iff]
    exact ⟨add_eq _ _ _ _, adding.added_iff, adding.unchanged⟩
  · rw [download_list]
    exact ⟨List.mergeSort_perm _ _, rfl, rfl, rfl⟩

end Launcher.DownloadList
