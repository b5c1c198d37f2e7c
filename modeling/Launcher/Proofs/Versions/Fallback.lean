import Launcher.Proofs.Network.Failure
import Launcher.Proofs.Versions.Coherence

/-! What is kept of the index when the request for it breaks. It serves if the server was not
reached. A response that is no HTTP, one that comes to no end, and everything that breaks after the
status line are faults of loading, whatever is kept. -/
namespace Launcher

/-- The server was not reached, as far as the system can tell. -/
def ConnectionFailure.IsUnreached (failure : ConnectionFailure) (answered : Bool) : Prop :=
  answered = false ∧ failure ∈ [.refused, .reset, .timedOut, .unknownHost]

instance (failure : ConnectionFailure) (answered : Bool) :
    Decidable (failure.IsUnreached answered) :=
  inferInstanceAs (Decidable (_ ∧ _))

namespace ConnectionFailure
variable {failure : ConnectionFailure} {answered : Bool}

theorem IsUnreached.reported (unreached : failure.IsUnreached answered) (origin : String) :
    ∃ h, failure.reported origin answered = .http h ∧ h.status = 0 := by
  obtain ⟨rfl, known⟩ := unreached
  cases failure with
  | incomplete | badStatus | interrupted => simp at known
  | refused | reset | timedOut | unknownHost => exact ⟨_, rfl, rfl⟩

theorem reported_of_not_isUnreached (other : ¬ failure.IsUnreached answered) (origin : String) :
    failure.reported origin answered = .connection failure.fault := by
  cases answered with
  | true => exact reported_answered failure origin
  | false =>
    cases failure with
    | incomplete | badStatus | interrupted => rfl
    | refused | reset | timedOut | unknownHost => exact absurd (by decide) other

end ConnectionFailure

namespace VersionIndex
variable {w : World} {old : Option Members} {failure : ConnectionFailure} {answered : Bool}

/-- Loading an index whose request breaks: what is kept is returned if the server was not reached,
and else the failure itself is raised. -/
theorem load_of_breaks (unknown : w.index.data = none)
    (kept : keptIn w.files w.index.cache = .ok old)
    (breaks : w.network.Breaks w.index.url failure answered) :
    (load.run.run w).1 =
      match old with
      | some data => if failure.IsUnreached answered then .ok data
          else .error (.ofConnection failure.fault)
      | none => .error (.ofFetch (failure.reported w.index.url answered)) := by
  have asked : (ask w old).1 = .error (failure.reported w.index.url answered) :=
    breaks.fetch _ _ _
  have loads := load_loads unknown
  generalize (load.run.run w).1 = result, (load.run.run w).2 = left at loads
  cases loads with
  | unreadable kept' => cases kept.symm.trans kept'
  | unusable kept' asked' | unkept kept' asked' | fetched kept' asked' =>
    cases kept.symm.trans kept'
    rw [asked'] at asked
    cases asked
  | @refused _ e _ kept' asked' unexcused =>
    cases kept.symm.trans kept'
    rw [asked'] at asked
    obtain rfl : e = failure.reported w.index.url answered := Except.error.inj asked
    cases old with
    | none => rfl
    | some data =>
      by_cases unreached : failure.IsUnreached answered
      · obtain ⟨h, reported, status⟩ := unreached.reported w.index.url
        have excuse : isExcused h = true := by simp [isExcused, status]
        cases unexcused h reported excuse
      · simp only [unreached, if_false, failure.reported_of_not_isUnreached unreached]
        rfl
  | @excused data h _ kept' asked' excuse =>
    cases kept.symm.trans kept'
    rw [asked'] at asked
    have reported : FetchError.http h = failure.reported w.index.url answered :=
      Except.error.inj asked
    have unreached : failure.IsUnreached answered := by
      by_contra other
      rw [failure.reported_of_not_isUnreached other] at reported
      cases reported
    simp only [unreached, if_true]

/-- A world where an index without versions is kept. -/
def keeping (routes : List (String × List Reply)) : World where
  files := ⟨FileTree.empty.entries ++ [(FileTree.workingDirectory ++ ["index.json"],
    .file (keptBytes [("versions", .list [])]))]⟩
  network := ⟨routes, [], 0⟩
  index := .unknown (some (.ofText "index.json")) "http://h/m"

theorem read_keeping (routes : List (String × List Reply)) :
    (keeping routes).files.read (.ofText "index.json") =
      .ok (keptBytes [("versions", .list [])]) := by
  have read : (keeping []).files.read (.ofText "index.json") =
      .ok (keptBytes [("versions", .list [])]) := by decide +kernel
  exact read

theorem ofKept_keeping : ofKept (keptBytes [("versions", .list [])]) =
    .ok (some [("versions", .list [])]) := by
  apply ofKept_keptBytes
  refine .object (by decide) ?_
  intro member listed
  obtain rfl := List.mem_singleton.mp listed
  exact .list nofun

/-- A target of requests at the host that has the index. -/
def target (url : String) : Fetch.Target := ⟨url.toList, "http".toList, "h".toList⟩

theorem firstTarget_index : Fetch.firstTarget "http://h/m".toList = .ok (target "http://h/m") := rfl

end VersionIndex
end Launcher
