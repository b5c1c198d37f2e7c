import Launcher.Proofs.Download.Calls
import Launcher.Proofs.Download.Hops

/-! Files that entries share. A list tells destinations apart by their paths, and two paths may lead
to one file, by two dots in one of them. Exactly then a list can have two entries for a file, and a
batch of it can write the file twice. -/
namespace Launcher

namespace FileTree
open Launcher.Path (location)

/-- Two paths lead to one place in a tree. -/
def Joins (tree : FileTree) (p q : Path) : Prop :=
  ∃ place, tree.resolve p = .ok place ∧ tree.resolve q = .ok place

variable {tree : FileTree} {p q : Path}

theorem Joins.location (joins : tree.Joins p q) : p.location = q.location := by
  obtain ⟨place, there, also⟩ := joins
  exact (resolve_location there).symm.trans (resolve_location also)

/-- Where the directories of two paths are there, they lead to one place if they have one location,
unless a name is too long. -/
theorem joins_iff (housed : tree.isDirectory p.parent = .ok true)
    (housed' : tree.isDirectory q.parent = .ok true) : tree.Joins p q ↔ p.location = q.location ∧
      tree.resolve p ≠ .error .nameTooLong ∧ tree.resolve q ≠ .error .nameTooLong := by
  constructor
  · intro joins
    obtain ⟨place, there, also⟩ := id joins
    exact ⟨joins.location, by simp [there], by simp [also]⟩
  · rintro ⟨same, short, short'⟩
    have there := (resolve_of_housed housed).resolve_right short
    have also := (resolve_of_housed housed').resolve_right short'
    exact ⟨p.location, there, same ▸ also⟩

end FileTree

/-- Two of these paths are spelled apart and have one location. -/
def Path.Share (paths : List Path) : Prop :=
  ∃ p ∈ paths, ∃ q ∈ paths, p ≠ q ∧ p.location = q.location

theorem Path.not_share_of_plain {paths : List Path}
    (plain : ∀ p ∈ paths, p.anchor = .relative ∧ p.IsPlain) : ¬ Path.Share paths := by
  rintro ⟨p, member, q, member', other, same⟩
  obtain ⟨relative, down⟩ := plain p member
  obtain ⟨relative', down'⟩ := plain q member'
  exact other (Path.location_injective down down' relative relative' same)

namespace Turn
open FileTree (Grows)

/-- A turn puts bytes into the file at a place: its request is answered with the status 200, and
its destination leads to the place once its directory is made. -/
structure Writes (t : Turn) (place : Location) : Prop where
  requestable : t.job.target.IsRequestable
  answered : ∃ headers body cut, t.reply = .response 200 headers body cut
  opens : ∃ made, (FileTree.makeDirectories t.job.entry.destination.parent).run.run t.worker.files =
    (.ok (), made) ∧ made.target t.job.entry.destination = .ok place

variable {t : Turn} {place : Location}

theorem Writes.location (writes : t.Writes place) :
    place = t.job.entry.destination.location := by
  obtain ⟨made, _, aimed⟩ := writes.opens
  exact (FileTree.target_ok aimed).2.2.1

/-- A job that is put back into the queue has written nothing. -/
theorem Writes.final (connected : t.worker.IsConnected) (writes : t.Writes place) :
    t.isRedirected = false := by
  obtain ⟨headers, body, cut, answered⟩ := writes.answered
  unfold isRedirected
  split
  · rename_i next ending
    obtain ⟨status, _, _, same, redirection, _⟩ :=
      (Worker.process_redirected connected ending).2.1
    change t.reply = _ at same
    rw [answered] at same
    rw [← (Reply.response.inj same).1] at redirection
    contradiction
  · rfl

end Turn

namespace Worker
variable {w : Worker} {job : DownloadJob} {number : Nat}

theorem broken_files (w : Worker) (origin : Origin) (number : Nat) (fault : ConnectionFault) :
    (w.broken origin number fault).2.files = w.files := by
  cases fault <;> rfl

theorem denied_files (w : Worker) (origin : Origin) (number : Nat) (error : AccessError) :
    (w.denied origin number error).2.files = w.files := by
  cases error <;> rfl

/-- What is answered otherwise than with the status 200, or cannot be opened, changes no file. -/
theorem respond_files {reply : Reply}
    (idle : ∀ headers body cut, reply = .response 200 headers body cut →
      ∃ e, w.files.target job.entry.destination = .error e) :
    (w.respond number job reply).2.files = w.files := by
  unfold respond
  cases reply with
  | failure failure => exact broken_files w _ _ _
  | response status headers body cut =>
    by_cases found : status = 200
    · subst found
      obtain ⟨e, unopened⟩ := idle headers body cut rfl
      simp only [if_true, store_eq, FileTree.write, unopened]
      exact denied_files w _ _ _
    · simp only [if_neg found]
      split
      · exact broken_files w _ _ _
      · split
        · split <;> rfl
        · rfl

theorem request_files
    (idle : controlChar? job.target.target = none →
      EncodingError.first? "ascii" 128 ("GET " ++ job.target.target ++ " HTTP/1.1").toList = none →
      ∀ headers body cut, (w.network.answer job.target.url).1 = .response 200 headers body cut →
      ∃ e, w.files.target job.entry.destination = .error e) :
    (w.request number job).2.files = w.files := by
  unfold request
  simp only
  cases plain : controlChar? job.target.target with
  | some fault => rfl
  | none =>
    cases ascii : EncodingError.first? "ascii" 128
        ("GET " ++ job.target.target ++ " HTTP/1.1").toList with
    | some e => rfl
    | none =>
      let sent := w.network.record (.request number job.target.url)
      have same : sent.script = w.network.script := rfl
      rw [← answer_congr same] at idle
      exact respond_files (w := { w with network := (sent.answer job.target.url).2 })
        (idle plain ascii)

end Worker

namespace Turn
variable {t : Turn}

/-- A turn writes its destination, or makes directories at most. -/
theorem writes_or_grows (t : Turn) (connected : t.worker.IsConnected) :
    t.Writes t.job.entry.destination.location ∨
      FileTree.Grows t.job.entry.destination.parent t.worker.files t.after.files := by
  have grows := FileTree.makeDirectories_grows t.job.entry.destination.parent t.worker.files
  by_cases writes : t.Writes t.job.entry.destination.location
  · exact .inl writes
  right
  unfold after Worker.process
  rcases reached : t.worker.connect t.job.target with fault | ⟨number, w⟩
  · exact .refl _ _
  have host := Worker.hostFault?_of_connect connected reached
  obtain ⟨sends, files⟩ := Worker.connect_sends reached
  simp only [Worker.processOn, files]
  rcases makes : (FileTree.makeDirectories t.job.entry.destination.parent).run.run t.worker.files
    with ⟨e | _, made⟩
  · rw [makes] at grows
    rwa [Worker.denied_files]
  · rw [makes] at grows
    have reply : (w.network.answer t.job.target.url).1 = t.reply :=
      Worker.answer_congr sends.script _
    have unwritten : ({ w with files := made }.request number t.job).2.files = made := by
      refine Worker.request_files fun plain ascii headers body cut answered => ?_
      cases aimed : made.target t.job.entry.destination with
      | error e => exact ⟨e, rfl⟩
      | ok place =>
        refine absurd ⟨⟨host, plain, ascii⟩, ⟨headers, body, cut, reply ▸ answered⟩, made, makes,
          ?_⟩ writes
        rw [aimed, (FileTree.target_ok aimed).2.2.1]
    rw [unwritten]
    exact grows

/-- A turn changes a file by writing it alone, and else makes directories at most. -/
theorem changes (t : Turn) (connected : t.worker.IsConnected) (place : Location) :
    t.Writes place ∨ t.after.files.get? place = t.worker.files.get? place ∨
      t.worker.files.get? place = none ∧ t.after.files.get? place = some .directory := by
  by_cases mine : place = t.job.entry.destination.location
  · subst mine
    rcases t.writes_or_grows connected with writes | grows
    · exact .inl writes
    · rcases grows t.job.entry.destination.location with same | ⟨absent, made, _⟩
      · exact .inr (.inl same)
      · exact .inr (.inr ⟨absent, made⟩)
  · rcases t.effect.get?_other mine with same | ⟨absent, made, _⟩
    · exact .inr (.inl same)
    · exact .inr (.inr ⟨absent, made⟩)

end Turn

theorem Worker.entry_mem_turns {fuel : Nat} {w : Worker} {t : Turn} (member : t ∈ w.turns fuel) :
    t.job.entry ∈ w.entries := by
  by_contra absent
  have none : (w.turns fuel).filter (·.job.entry = t.job.entry) = [] :=
    filter_turns_of_not_mem absent
  exact List.filter_eq_nil_iff.mp none t member (decide_eq_true rfl)

/-- Of entries with places of their own, no two turns write one file. By induction on the bound: an
entry that has written does not wait any more. -/
theorem Worker.turns_write_apart {fuel : Nat} {w : Worker} (connected : w.IsConnected)
    (apart : (w.entries.map (·.destination.location)).Nodup) :
    (w.turns fuel).Pairwise fun t u => ∀ place, t.Writes place → ¬ u.Writes place := by
  induction fuel generalizing w with
  | zero => exact .nil
  | succ fuel ih =>
    rw [turns]
    cases taken : w.turn? with
    | none => exact .nil
    | some t =>
      have mine := isConnected_of_turn? taken connected
      cases onward : t.next? with
      | none => simp [onward]
      | some w₁ =>
        have connected₁ := t.isConnected_next onward mine
        simp only [onward]
        rcases entries_next taken onward with ⟨redirected, again⟩ | ⟨_, rest⟩
        · refine .cons (fun u _ place writes => ?_) (ih connected₁ ?_)
          · rw [writes.final mine] at redirected
            contradiction
          · exact (again.map _).nodup_iff.mpr apart
        · rw [rest, List.map_cons, List.nodup_cons] at apart
          refine .cons (fun u member place writes writes' => apart.1 ?_) (ih connected₁ apart.2)
          rw [← writes.location, writes'.location]
          exact List.mem_map_of_mem (f := (·.destination.location)) (entry_mem_turns member)

namespace DownloadList
variable {list : DownloadList}

/-- The destinations that were offered for a list since it was cleared. -/
def offeredPaths (calls : List ListCall) : List Path :=
  (offers calls).map (·.entry.destination)

theorem mem_offeredPaths {calls : List ListCall} {p : Path} :
    p ∈ offeredPaths calls ↔ ∃ entry ∈ (after calls).entries, entry.destination = p := by
  rw [← mem_destinations (after_built calls), ← not_iff_not, free_iff]
  simp [offeredPaths]

/-- The places of entries are apart if no two of their paths share one. -/
theorem Built.nodup_locations (built : list.Built)
    (apart : ¬ Path.Share (list.entries.map (·.destination))) :
    (list.entries.map (·.destination.location)).Nodup := by
  refine List.pairwise_map.mpr ((List.pairwise_map.mp built.nodup_destinations).imp_of_mem ?_)
  intro a b listed listed' other same
  exact apart ⟨_, List.mem_map_of_mem listed, _, List.mem_map_of_mem listed', other, same⟩

/-- In a batch of entries with places of their own, no two turns write one file. -/
theorem turns_write_apart (apart : (list.entries.map (·.destination.location)).Nodup)
    (threads : Int) (files : FileTree) (network : Network) :
    (list.turns threads files network).Pairwise fun t u =>
      ∀ place, t.Writes place → ¬ u.Writes place := by
  unfold turns
  split
  · exact .nil
  · refine Worker.turns_write_apart (fun _ none => absurd none List.not_mem_nil) ?_
    exact ((list.worker_entries files network).map _).nodup_iff.mpr apart

end DownloadList
end Launcher
