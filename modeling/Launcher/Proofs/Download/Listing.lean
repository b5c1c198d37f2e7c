import Launcher.Proofs.Download.Run
import Launcher.Proofs.Files.Presence

/-! Lists of downloads as they come about: entries are added one by one, and a download leaves the
list in its own order. No two entries of such a list have one destination. Entries that are added
one after another, while files may come, bring a job for each destination that was neither a file
nor taken, and what is downloaded there is the first entry with that destination. -/
namespace Launcher.DownloadList

/-- The lists that come about. A list that is cleared is the empty one again. -/
inductive Built : DownloadList → Prop
  | empty : Built empty
  | add {list list' : DownloadList} {files : FileTree} {entry : DownloadEntry}
      {verify added : Bool} : Built list → list.add files entry verify = .ok (added, list') →
      Built list'
  | sorted {list : DownloadList} : Built list → Built list.sorted

variable {list list' : DownloadList}

theorem sorted_entries (list : DownloadList) : list.sorted.entries.Perm list.entries :=
  (List.mergeSort_perm _ _).map _

/-- An entry is put at the end, or the list stays as it is because its destination is taken or is
a file. -/
theorem add_cases {files : FileTree} {entry : DownloadEntry} {verify added : Bool}
    (h : list.add files entry verify = .ok (added, list')) :
    (list' = list ∧ (entry.destination ∈ list.destinations ∨
      isPresent files entry verify = .ok true)) ∨
    (entry.destination ∉ list.destinations ∧ isPresent files entry verify = .ok false ∧
      ∃ target, list' = list.put ⟨target, entry⟩) := by
  unfold add at h
  split at h
  · rename_i taken
    obtain ⟨_, rfl⟩ := Prod.mk.inj (Except.ok.inj h)
    exact .inl ⟨rfl, .inl (List.contains_iff_mem.mp taken)⟩
  · rename_i free
    split at h
    · contradiction
    · rename_i present
      obtain ⟨_, rfl⟩ := Prod.mk.inj (Except.ok.inj h)
      exact .inl ⟨rfl, .inr present⟩
    · rename_i absent
      split at h
      · contradiction
      · obtain ⟨_, rfl⟩ := Prod.mk.inj (Except.ok.inj h)
        exact .inr ⟨fun taken => free (List.contains_iff_mem.mpr taken), absent, _, rfl⟩

@[simp] theorem put_entries (list : DownloadList) (job : DownloadJob) :
    (list.put job).entries = list.entries ++ [job.entry] := by
  simp [put, entries]

namespace Built

theorem destinations (built : list.Built) :
    (list.entries.map (·.destination)).Perm list.destinations ∧ list.destinations.Nodup := by
  induction built with
  | empty => exact ⟨.refl _, .nil⟩
  | add _ added ih =>
    rcases add_cases added with ⟨rfl, _⟩ | ⟨free, _, target, rfl⟩
    · exact ih
    · rw [put_entries, List.map_append, List.map_singleton]
      refine ⟨ih.1.append_right _, List.nodup_append.mpr ⟨ih.2, List.pairwise_singleton _ _, ?_⟩⟩
      rintro p taken _ mine rfl
      exact free (List.mem_singleton.mp mine ▸ taken)
  | sorted _ ih => exact ⟨((sorted_entries _).map _).trans ih.1, ih.2⟩

theorem nodup_destinations (built : list.Built) : (list.entries.map (·.destination)).Nodup :=
  built.destinations.1.nodup_iff.mpr built.destinations.2

theorem nodup (built : list.Built) : list.entries.Nodup :=
  List.Pairwise.of_map (·.destination) (fun _ _ other same => other (congrArg _ same))
    built.nodup_destinations

theorem count (built : list.Built) : list.count = list.entries.length := by
  induction built with
  | empty => rfl
  | add _ added ih =>
    rcases add_cases added with ⟨rfl, _⟩ | ⟨_, _, target, rfl⟩
    · exact ih
    · rw [put_entries, List.length_append, ← ih]
      rfl
  | sorted _ ih => rw [(sorted_entries _).length_eq, ← ih]; rfl

end Built

def outer : DownloadJob :=
  ⟨⟨false, "h", none, "/a"⟩,
    ⟨"http://h/a", ⟨.relative, ["a"]⟩, some (.number 2), none, "a"⟩⟩

def inner : DownloadJob :=
  ⟨⟨false, "h", none, "/b"⟩,
    ⟨"http://h/b", ⟨.relative, ["a", "b"]⟩, some (.number 1), none, "b"⟩⟩

/-- A file, and another one below it: only the first of them that comes can be there. -/
def nested : DownloadList := (empty.put outer).put inner

theorem nested_built : nested.Built := by
  have first : empty.add .empty outer.entry true = .ok (true, empty.put outer) := rfl
  have second : (empty.put outer).add .empty inner.entry true = .ok (true, nested) := rfl
  exact (Built.empty.add first).add second

theorem nested_sorted : nested.sorted = nested := sorted_eq (by decide)

/-- The second list comes from the first one by adding entries, while the second file tree comes from
the first one. It has some more jobs than the first list. -/
structure Gains (start finish : FileTree) (entries : List DownloadEntry)
    (before after : DownloadList) (added : List DownloadJob) : Prop where
  grows : ∀ p, start.HasFile p → finish.HasFile p
  built : before.Built → after.Built
  jobs : after.jobs = before.jobs ++ added
  destinations : after.destinations = before.destinations ++ added.map (·.entry.destination)
  free : ∀ p ∈ added.map (·.entry.destination), ¬ start.HasFile p ∧ p ∉ before.destinations
  all : ∀ p ∈ entries.map (·.destination), ¬ finish.HasFile p → p ∉ before.destinations →
    p ∈ added.map (·.entry.destination)
  first : ∀ job ∈ added, entries.find? (·.destination == job.entry.destination) = some job.entry
  target : ∀ job ∈ added, DownloadTarget.ofUrl job.entry.url = .ok job.target

namespace Gains
variable {files start middle middle' finish : FileTree} {a b c : DownloadList}
  {entries more : List DownloadEntry} {added added' : List DownloadJob}

/-- Nothing is added for destinations that are taken or files. -/
theorem idle (there : ∀ e ∈ entries, files.HasFile e.destination ∨ e.destination ∈ a.destinations) :
    Gains files files entries a a [] := by
  constructor
  case grows => exact fun _ => id
  case built => exact id
  case jobs => simp
  case destinations => simp
  case free => simp
  case all =>
    intro p member absent untaken
    obtain ⟨e, listed, rfl⟩ := List.mem_map.mp member
    exact absurd (there e listed) (not_or.mpr ⟨absent, untaken⟩)
  case first => simp
  case target => simp

/-- Adding one entry. -/
theorem of_add {entry : DownloadEntry} {new : Bool}
    (h : a.add files entry true = .ok (new, b)) : ∃ added, Gains files files [entry] a b added := by
  have built (before : a.Built) : b.Built := before.add h
  unfold add at h
  split at h
  · rename_i taken
    cases h
    exact ⟨[], .idle (by simpa using .inr (List.contains_iff_mem.mp taken))⟩
  · rename_i untaken
    split at h
    · cases h
    · rename_i present
      cases h
      exact ⟨[], .idle (by simpa using .inl present)⟩
    · rename_i absent
      split at h
      · cases h
      · rename_i target found
        cases h
        refine ⟨[⟨target, entry⟩], fun _ => id, built, rfl, rfl, ?_, ?_, ?_, ?_⟩
        · intro p member
          obtain rfl := List.mem_singleton.mp member
          refine ⟨fun present => ?_, fun taken => untaken (List.contains_iff_mem.mpr taken)⟩
          cases present.symm.trans absent
        · exact fun p member _ _ => member
        · simp
        · simpa using found

/-- A job that was added is for an entry. -/
theorem mem_entries (gains : Gains start finish entries a b added) {job : DownloadJob}
    (member : job ∈ added) : job.entry ∈ entries :=
  List.mem_of_find?_eq_some (gains.first job member)

/-- Adding some entries and then others. What the first ones take, the others do not get. -/
theorem trans (first : Gains start middle entries a b added)
    (second : Gains middle' finish more b c added')
    (between : ∀ p, middle.HasFile p → middle'.HasFile p) :
    Gains start finish (entries ++ more) a c (added ++ added') := by
  have late {p : Path} (member : p ∈ added'.map (·.entry.destination)) :
      ¬ middle.HasFile p ∧ p ∉ a.destinations ∧ p ∉ added.map (·.entry.destination) := by
    obtain ⟨absent, untaken⟩ := second.free p member
    rw [first.destinations, List.mem_append, not_or] at untaken
    exact ⟨mt (between p) absent, untaken⟩
  constructor
  case grows => exact fun p present => second.grows p (between p (first.grows p present))
  case built => exact second.built ∘ first.built
  case jobs => rw [second.jobs, first.jobs, List.append_assoc]
  case destinations =>
    rw [second.destinations, first.destinations, List.map_append, List.append_assoc]
  case free =>
    intro p member
    rcases List.mem_append.mp (List.map_append ▸ member) with early | member
    · exact first.free p early
    · obtain ⟨absent, untaken, _⟩ := late member
      exact ⟨mt (first.grows p) absent, untaken⟩
  case all =>
    intro p member absent untaken
    rw [List.map_append, List.mem_append]
    have absent' : ¬ middle.HasFile p := fun present => absent (second.grows p (between p present))
    rcases List.mem_append.mp (List.map_append ▸ member) with early | member
    · exact .inl (first.all p early absent' untaken)
    · by_cases earlier : p ∈ added.map (·.entry.destination)
      · exact .inl earlier
      · refine .inr (second.all p member absent ?_)
        rw [first.destinations, List.mem_append]
        exact not_or.mpr ⟨untaken, earlier⟩
  case first =>
    intro job member
    rw [List.find?_append]
    rcases List.mem_append.mp member with early | member
    · rw [first.first job early, Option.some_or]
    · obtain ⟨absent, untaken, other⟩ := late (List.mem_map_of_mem member)
      have none : entries.find? (·.destination == job.entry.destination) = none := by
        rw [List.find?_eq_none]
        intro entry listed same
        refine other (first.all _ (List.mem_map.mpr ⟨entry, listed, ?_⟩) absent untaken)
        exact beq_iff_eq.mp same
      rw [none, Option.none_or, second.first job member]
  case target =>
    intro job member
    rcases List.mem_append.mp member with early | member
    · exact first.target job early
    · exact second.target job member

/-- Of the file tree, only files at the destinations matter. -/
theorem congr (gains : Gains finish finish entries a b added)
    (same : ∀ e ∈ entries, start.HasFile e.destination ↔ finish.HasFile e.destination) :
    Gains start start entries a b added := by
  refine { gains with grows := fun _ => id, free := fun p member => ?_, all := fun p member => ?_ }
  · obtain ⟨job, inside, rfl⟩ := List.mem_map.mp member
    rw [same _ (gains.mem_entries inside)]
    exact gains.free _ member
  · obtain ⟨e, listed, rfl⟩ := List.mem_map.mp member
    rw [same e listed]
    exact gains.all _ member

/-- If no files come meanwhile, the destinations of the new jobs are those that are not there. -/
theorem mem_iff (gains : Gains files files entries a b added) (p : Path) :
    p ∈ added.map (·.entry.destination) ↔
      p ∈ entries.map (·.destination) ∧ ¬ files.HasFile p ∧ p ∉ a.destinations := by
  constructor
  · intro member
    obtain ⟨job, inside, rfl⟩ := List.mem_map.mp member
    exact ⟨List.mem_map_of_mem (gains.mem_entries inside), gains.free _ member⟩
  · rintro ⟨member, absent, untaken⟩
    exact gains.all p member absent untaken

end Gains

end Launcher.DownloadList
