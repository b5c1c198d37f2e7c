import Launcher.Proofs.Download.Listing

/-! What a batch leaves at destinations that were absent before: nothing, or a complete body. An
interruption while a body is read is the one end of a batch that leaves less. -/
namespace Launcher

/-- Neither location lies at or below the other. -/
def Location.Apart (a b : Location) : Prop := ¬ a <+: b ∧ ¬ b <+: a

instance (a b : Location) : Decidable (Location.Apart a b) := inferInstanceAs (Decidable (_ ∧ _))

theorem Location.Apart.symm {a b : Location} (apart : Location.Apart a b) : Location.Apart b a :=
  ⟨apart.2, apart.1⟩

/-- The destination of an entry is absent, or it holds the complete body of a response to a request
for the entry. -/
def FileTree.IsIntact (files : FileTree) (turns : List Turn) (entry : DownloadEntry) : Prop :=
  files.get? entry.destination.location = none ∨
    ∃ t ∈ turns, t.job.entry = entry ∧ ∃ body, t.reply.IsComplete body ∧
      files.get? entry.destination.location = some (.file body)

/-- An interruption ends a turn while it reads a body. -/
def Turn.IsTruncated (t : Turn) : Prop :=
  t.ending = .crashed .interrupted ∧ t.reply.IsInterruptedBody

instance (t : Turn) : Decidable t.IsTruncated := inferInstanceAs (Decidable (_ ∧ _))

namespace Worker
variable {entry : DownloadEntry} {reply : Reply} {before after : FileTree} {ending : JobEnd}

/-- A location that is neither the destination nor above it stays as it is. -/
theorem Effect.get?_apart (effect : Effect entry reply before ending after)
    (plain : entry.destination.IsPlain) {l : Location}
    (apart : ¬ l <+: entry.destination.location) : after.get? l = before.get? l := by
  have other : l ≠ entry.destination.location := by
    rintro rfl
    exact apart (List.prefix_refl _)
  rcases effect.get?_other other with same | ⟨_, _, n, rfl⟩
  · exact same
  · exact absurd (Path.ancestor_prefix plain n) apart

/-- What comes to a destination that was absent. -/
theorem Effect.get?_destination (effect : Effect entry reply before ending after)
    (plain : entry.destination.IsPlain) (named : entry.destination.parts ≠ [])
    (absent : before.get? entry.destination.location = none) :
    (after.get? entry.destination.location = none ∧
      ¬ (ending = .crashed .interrupted ∧ reply.IsInterruptedBody)) ∨
    (∃ outcome body, ending = .finished outcome ∧ reply.IsComplete body ∧
      after.get? entry.destination.location = some (.file body)) ∨
    (after.get? entry.destination.location ≠ none ∧ ending = .crashed .interrupted ∧
      reply.IsInterruptedBody) := by
  cases effect with
  | unwritten grows unwritten =>
    refine .inl ⟨?_, ?_⟩
    · rcases grows entry.destination.location with same | ⟨_, _, n, above⟩
      · rw [same, absent]
      · exact absurd above.symm (Path.ancestor_ne plain named n)
    · rintro ⟨rfl, interrupted⟩
      exact unwritten rfl interrupted
  | stored _ wrote complete =>
    refine .inr (.inl ⟨_, _, rfl, complete, ?_⟩)
    rw [FileTree.get?_write wrote, if_pos rfl]
  | dropped _ _ taken =>
    refine .inl ⟨?_, fun crashed => nomatch crashed.1⟩
    rw [FileTree.get?_unlink taken, if_pos rfl]
  | abandoned _ wrote cut =>
    refine .inr (.inr ⟨?_, rfl, ?_⟩)
    · rw [FileTree.get?_write wrote, if_pos rfl]
      simp
    · rw [cut]
      exact ⟨rfl, rfl⟩

end Worker

namespace Turn
variable {t : Turn}

theorem not_complete_of_redirected (redirected : t.isRedirected) (body : Bytes) :
    ¬ t.reply.IsComplete body := by
  have effect := t.effect
  unfold isRedirected at redirected
  split at redirected
  · rename_i ending
    rw [ending] at effect
    cases effect with
    | unwritten _ unwritten => exact unwritten body
  · contradiction

theorem not_complete_of_truncated (truncated : t.IsTruncated) (body : Bytes) :
    ¬ t.reply.IsComplete body := by
  rintro ⟨headers, complete⟩
  have cut := truncated.2
  rw [complete] at cut
  exact nomatch cut.2

/-- A turn leaves its destination intact unless it is truncated. -/
theorem isIntact_iff (plain : t.job.entry.destination.IsPlain)
    (named : t.job.entry.destination.parts ≠ [])
    (absent : t.worker.files.get? t.job.entry.destination.location = none) :
    t.after.files.IsIntact [t] t.job.entry ↔ ¬ t.IsTruncated := by
  rcases t.effect.get?_destination plain named absent with
    ⟨none, intact⟩ | ⟨_, body, _, complete, written⟩ | ⟨left, truncated⟩
  · exact iff_of_true (.inl none) intact
  · refine iff_of_true (.inr ⟨t, List.mem_singleton_self t, rfl, body, complete, written⟩) ?_
    exact fun truncated => not_complete_of_truncated truncated body complete
  · refine iff_of_false ?_ fun intact => intact truncated
    rintro (none | ⟨t', member, _, body, complete, _⟩)
    · exact left none
    · rw [List.mem_singleton.mp member] at complete
      exact not_complete_of_truncated truncated body complete

end Turn

namespace FileTree

theorem isIntact_cons {files : FileTree} {t : Turn} {turns : List Turn} {entry : DownloadEntry} :
    files.IsIntact (t :: turns) entry ↔ files.IsIntact turns entry ∨ t.job.entry = entry ∧
      ∃ body, t.reply.IsComplete body ∧
        files.get? entry.destination.location = some (.file body) := by
  constructor
  · rintro (absent | ⟨t', member, other, complete⟩)
    · exact .inl (.inl absent)
    · rcases List.mem_cons.mp member with rfl | member
      · exact .inr ⟨other, complete⟩
      · exact .inl (.inr ⟨t', member, other, complete⟩)
  · rintro ((absent | ⟨t', member, other⟩) | ⟨mine, complete⟩)
    · exact .inl absent
    · exact .inr ⟨t', List.mem_cons_of_mem _ member, other⟩
    · exact .inr ⟨t, List.mem_cons_self, mine, complete⟩

end FileTree

namespace Worker

/-- The destinations that wait are separate files, and their paths have no two dots. -/
structure IsSeparate (w : Worker) : Prop where
  plain : ∀ e ∈ w.entries, e.destination.IsPlain
  apart : w.entries.Pairwise fun a b =>
    Location.Apart a.destination.location b.destination.location

variable {w w₁ : Worker} {t : Turn}

theorem IsSeparate.next (separate : w.IsSeparate) (taken : w.turn? = some t)
    (onward : t.next? = some w₁) : w₁.IsSeparate := by
  obtain ⟨plain, apart⟩ := separate
  have waiting := entries_of_turn? taken
  rcases entries_next taken onward with ⟨_, again⟩ | ⟨_, rest⟩
  · refine ⟨fun e member => plain e (again.mem_iff.mp member), ?_⟩
    exact (again.pairwise_iff fun apart => apart.symm).mpr apart
  · rw [rest] at plain apart
    exact ⟨fun e member => plain e (List.mem_cons_of_mem _ member), (List.pairwise_cons.mp apart).2⟩

theorem IsSeparate.get?_other (separate : w.IsSeparate) (taken : w.turn? = some t)
    {entry : DownloadEntry} (member : entry ∈ w.entries) (other : t.job.entry ≠ entry) :
    t.after.files.get? entry.destination.location = w.files.get? entry.destination.location := by
  obtain ⟨plain, apart⟩ := separate
  have waiting := entries_of_turn? taken
  rw [waiting] at plain apart member
  have later := (List.mem_cons.mp member).resolve_left (Ne.symm other)
  have separate := (List.pairwise_cons.mp apart).1 entry later
  rw [t.effect.get?_apart (plain _ List.mem_cons_self) separate.2, files_of_turn? taken]

end Worker

namespace Runs
variable {w w' : Worker} {turns : List Turn} {crash : Option CrashCause}

/-- A run leaves alone what is neither a destination nor above one. -/
theorem get?_apart (runs : Runs w turns crash w') {l : Location}
    (plain : ∀ e ∈ w.entries, e.destination.IsPlain)
    (apart : ∀ e ∈ w.entries, ¬ l <+: e.destination.location) :
    w'.files.get? l = w.files.get? l := by
  refine runs.files_invariant (motive := fun files => files.get? l = w.files.get? l) ?_ rfl
  intro t member same
  have mine := runs.entry_mem member
  rw [t.effect.get?_apart (plain _ mine) (apart _ mine), same]

/-- A destination that was absent is intact after a run exactly if no turn for it was truncated. -/
theorem isIntact_iff (runs : Runs w turns crash w') (separate : w.IsSeparate)
    {entry : DownloadEntry} (member : entry ∈ w.entries) (named : entry.destination.parts ≠ [])
    (absent : w.files.get? entry.destination.location = none) :
    w'.files.IsIntact turns entry ↔ ∀ t ∈ turns, t.job.entry = entry → ¬ t.IsTruncated := by
  induction runs with
  | done empty => simp [Worker.entries, empty] at member
  | @crashed w t cause taken ending =>
    by_cases mine : t.job.entry = entry
    · subst mine
      rw [← Worker.files_of_turn? taken] at absent
      simpa using t.isIntact_iff (separate.plain _ member) named absent
    · have same := separate.get?_other taken member mine
      rw [absent] at same
      simp [FileTree.IsIntact, same, mine]
  | @next w w₁ w' t turns crash taken onward runs ih =>
    have separate₁ := separate.next taken onward
    obtain ⟨files, _, _⟩ := Turn.next?_some onward
    rw [FileTree.isIntact_cons, List.forall_mem_cons]
    by_cases mine : t.job.entry = entry
    · subst mine
      have uncrashed : ¬ t.IsTruncated := by
        rintro ⟨ending, _⟩
        simp [Turn.next?, ending] at onward
      rw [← Worker.files_of_turn? taken] at absent
      have intact := (t.isIntact_iff (separate.plain _ member) named absent).mpr uncrashed
      rw [FileTree.isIntact_cons] at intact
      rcases Worker.entries_next taken onward with ⟨redirected, again⟩ | ⟨final, rest⟩
      · have incomplete := Turn.not_complete_of_redirected redirected
        have absent₁ : w₁.files.get? t.job.entry.destination.location = none := by
          simpa [FileTree.IsIntact, incomplete, ← files] using intact
        rw [ih separate₁ (again.mem_iff.mpr member) absent₁]
        simp [incomplete, uncrashed]
      · -- The destination is not touched again, and so it is left as the turn left it.
        have alone := separate.apart
        rw [rest] at alone
        have apart := (List.pairwise_cons.mp alone).1
        have left : w'.files.get? t.job.entry.destination.location =
            t.after.files.get? t.job.entry.destination.location := by
          rw [← files]
          exact runs.get?_apart separate₁.plain fun e later => (apart e later).1
        have never : ∀ t' ∈ turns, t'.job.entry ≠ t.job.entry := by
          intro t' later same
          have apart := apart _ (runs.entry_mem later)
          rw [same] at apart
          exact apart.1 (List.prefix_refl _)
        refine iff_of_true ?_
          ⟨fun _ => uncrashed, fun t' later same => absurd same (never t' later)⟩
        rw [FileTree.IsIntact, left]
        exact intact.imp_left fun none => .inl (by simpa [FileTree.IsIntact] using none)
    · have absent₁ := separate.get?_other taken member mine
      rw [absent, ← files] at absent₁
      have waits : entry ∈ w₁.entries := by
        rcases Worker.entries_next taken onward with ⟨_, again⟩ | ⟨_, rest⟩
        · exact again.mem_iff.mpr member
        · rw [rest] at member
          exact (List.mem_cons.mp member).resolve_left (Ne.symm mine)
      rw [ih separate₁ waits absent₁]
      simp [mine]

end Runs

namespace DownloadList

/-- Two downloads below one directory. -/
def twoBelow : DownloadList :=
  ⟨[⟨⟨false, "h", none, "/a"⟩, ⟨"http://h/a", ⟨.relative, ["d", "a"]⟩, none, none, "a"⟩⟩,
    ⟨⟨false, "h", none, "/b"⟩, ⟨"http://h/b", ⟨.relative, ["d", "b"]⟩, none, none, "b"⟩⟩],
    2, 0, [⟨.relative, ["d", "a"]⟩, ⟨.relative, ["d", "b"]⟩]⟩

/-- A network that moves the first download and then interrupts its body after two bytes. -/
def interruptedNetwork : Network :=
  ⟨[("http://h/a", [.response 302 [("Location", "/c")] [] none]),
    ("http://h/b", [.response 200 [] [7] none]),
    ("http://h/c", [.response 200 [] [1, 2] (some .interrupted)])], [], 0⟩

theorem twoBelow_sorted : twoBelow.sorted = twoBelow := sorted_eq (by decide)

theorem twoBelow_built : twoBelow.Built := by
  have first : empty.add .empty ⟨"http://h/a", ⟨.relative, ["d", "a"]⟩, none, none, "a"⟩ true =
      .ok (true, empty.put ⟨⟨false, "h", none, "/a"⟩,
        ⟨"http://h/a", ⟨.relative, ["d", "a"]⟩, none, none, "a"⟩⟩) := rfl
  have second : (empty.put ⟨⟨false, "h", none, "/a"⟩,
      ⟨"http://h/a", ⟨.relative, ["d", "a"]⟩, none, none, "a"⟩⟩).add .empty
        ⟨"http://h/b", ⟨.relative, ["d", "b"]⟩, none, none, "b"⟩ true = .ok (true, twoBelow) := rfl
  exact (Built.empty.add first).add second

theorem twoBelow_turns : ∀ t ∈ twoBelow.turns 2 .empty interruptedNetwork,
    (t.job.entry.name = "a" → t.isRedirected ∨ t.IsTruncated) ∧
      (t.job.entry.name = "b" → ¬ t.IsTruncated) := by
  rw [turns, worker, twoBelow_sorted]
  decide +kernel

end DownloadList
end Launcher
