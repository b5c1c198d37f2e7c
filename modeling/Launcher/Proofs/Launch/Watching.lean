import Launcher.Launch.Process
import Mathlib.Data.List.Count
import Mathlib.Logic.Relation

/-! How the watch of a process goes, step by step: the process is looked at and waited for in turns,
an interruption ends it, and in each case its end is waited for once. Main statement: running a game
comes to an end, and what was done until then is told by when the process ends and which wait is
interrupted. -/
namespace Launcher
open Relation (ReflTransGen)

namespace ProcessScript

/-- Where a watch stands: before the process is looked at, before a pause, before it is killed, and
before its end is waited for, or nothing is left to do. -/
inductive Stage
  | look
  | pause
  | stop
  | await (interrupted : Bool)
  | over (interrupted : Bool)

/-- One step of a watch. What comes next is told by how many looks and pauses there were so far. -/
inductive Step (script : ProcessScript) :
    Stage × List ProcessEvent → Stage × List ProcessEvent → Prop
  | running {log : List ProcessEvent} (runs : log.count .poll < script.polls) :
      Step script (.look, log) (.pause, log ++ [.poll])
  | exited {log : List ProcessEvent} (ended : script.polls ≤ log.count .poll) :
      Step script (.look, log) (.await false, log ++ [.poll])
  | slept {log : List ProcessEvent}
      (calm : script.interruptAt ≠ some (log.count (.sleep 1) + 1)) :
      Step script (.pause, log) (.look, log ++ [.sleep 1])
  | broken {log : List ProcessEvent}
      (comes : script.interruptAt = some (log.count (.sleep 1) + 1)) :
      Step script (.pause, log) (.stop, log ++ [.sleep 1])
  | killed {log : List ProcessEvent} : Step script (.stop, log) (.await true, log ++ [.kill])
  | waited {log : List ProcessEvent} {interrupted : Bool} :
      Step script (.await interrupted, log) (.over interrupted, log ++ [.wait])

section Step
variable {script : ProcessScript} {s t t' : Stage × List ProcessEvent} {log : List ProcessEvent}

theorem Step.unique (step : script.Step s t) (step' : script.Step s t') : t = t' := by
  cases step with
  | running runs =>
    cases step' with
    | running => rfl
    | exited ended => exact absurd runs (Nat.not_lt.mpr ended)
  | exited ended =>
    cases step' with
    | running runs => exact absurd runs (Nat.not_lt.mpr ended)
    | exited => rfl
  | slept calm =>
    cases step' with
    | slept => rfl
    | broken comes => exact absurd comes calm
  | broken comes =>
    cases step' with
    | slept calm => exact absurd comes calm
    | broken => rfl
  | killed =>
    cases step'
    rfl
  | waited =>
    cases step'
    rfl

/-- From a log on, a watch comes to its end with another log, whatever was done of it: with an
interruption or without. -/
def Ends (script : ProcessScript) (first log : List ProcessEvent) (interrupted : Bool) : Prop :=
  ∀ s, ReflTransGen script.Step (.look, first) s →
    ReflTransGen script.Step s (.over interrupted, log)

theorem over_last {interrupted : Bool}
    (steps : ReflTransGen script.Step (.over interrupted, log) t) :
    t = (.over interrupted, log) := by
  cases steps.cases_head with
  | inl same => exact same.symm
  | inr more =>
    obtain ⟨_, step, _⟩ := more
    cases step

/-- A watch that comes to an end comes to no other one. -/
theorem ends_of_steps {first : List ProcessEvent} {interrupted : Bool}
    (steps : ReflTransGen script.Step (.look, first) (.over interrupted, log)) :
    script.Ends first log interrupted := by
  intro s partly
  have unique : Relator.RightUnique script.Step := fun _ _ _ => Step.unique
  rcases ReflTransGen.total_of_right_unique unique partly steps with on | back
  · exact on
  · rw [over_last back]

end Step

/-- Some turns of a watch in which the process is found running and nothing interrupts. -/
def turns : Nat → List ProcessEvent
  | 0 => []
  | n + 1 => .poll :: .sleep 1 :: turns n

section Watch
variable {script : ProcessScript} {interruptAt : Option Nat}

theorem count_turns (n : Nat) : (turns n).count .poll = n ∧ (turns n).count (.sleep 1) = n ∧
    (turns n).count .kill = 0 ∧ (turns n).count .wait = 0 ∧ (turns n).length = 2 * n := by
  induction n with
  | zero => exact ⟨rfl, rfl, rfl, rfl, rfl⟩
  | succ n ih =>
    obtain ⟨polls, sleeps, kills, waits, length⟩ := ih
    simp [turns, polls, sleeps, kills, waits, length]
    omega

theorem append_turn (log events : List ProcessEvent) :
    log ++ [.poll] ++ [.sleep 1] ++ events = log ++ .poll :: .sleep 1 :: events := by
  simp

/-- What a watch does is what its steps do, until the end of the process is waited for. -/
theorem watch_steps {left slept : Nat} {log : List ProcessEvent}
    (polled : log.count .poll + left = script.polls) (rested : log.count (.sleep 1) = slept) :
    ReflTransGen script.Step (.look, log)
      (.await (watch script.interruptAt left slept).2,
        log ++ (watch script.interruptAt left slept).1) := by
  induction left generalizing log slept with
  | zero => exact .single (.exited (by omega))
  | succ left ih =>
    have runs : script.Step (.look, log) (.pause, log ++ [.poll]) := .running (by omega)
    have count : (log ++ [ProcessEvent.poll]).count (.sleep 1) = slept := by simpa using rested
    rw [watch]
    split
    · rename_i comes
      have stopped : script.Step (.stop, log ++ [.poll] ++ [.sleep 1])
          (.await true, log ++ [.poll] ++ [.sleep 1] ++ [.kill]) := .killed
      rw [append_turn] at stopped
      exact .head runs (.head (.broken (count.symm ▸ comes)) (.single stopped))
    · rename_i calm
      have again := @ih (slept + 1) (log ++ [.poll] ++ [.sleep 1]) (by simp; omega)
        (by simpa using rested)
      rw [append_turn] at again
      exact .head runs (.head (.slept (count.symm ▸ calm)) again)

/-- No pause that is made is interrupted. -/
theorem watch_calm {left slept : Nat}
    (calm : ∀ k, interruptAt = some k → k ≤ slept ∨ slept + left < k) :
    watch interruptAt left slept = (turns left ++ [.poll], false) := by
  induction left generalizing slept with
  | zero => rfl
  | succ left ih =>
    have other : interruptAt ≠ some (slept + 1) := fun same => by
      have := calm _ same
      omega
    have later := @ih (slept + 1) fun k same => by
      have := calm k same
      omega
    rw [watch, if_neg other, later]
    rfl

theorem watch_interrupted {left slept k : Nat} (comes : interruptAt = some (slept + k + 1))
    (within : k < left) :
    watch interruptAt left slept = (turns (k + 1) ++ [.kill], true) := by
  induction k generalizing left slept with
  | zero =>
    obtain ⟨left, rfl⟩ := Nat.exists_eq_add_of_lt within
    rw [watch, if_pos comes]
    rfl
  | succ k ih =>
    obtain ⟨left, rfl⟩ := Nat.exists_eq_add_one_of_ne_zero (Nat.ne_zero_of_lt within)
    have other : interruptAt ≠ some (slept + 1) := fun same => by
      have := Option.some.inj (same.symm.trans comes)
      omega
    have later := @ih left (slept + 1) (comes.trans (by congr 1; omega)) (by omega)
    rw [watch, if_neg other, later]
    rfl

end Watch

/-- How often a log has each thing that is done with a process, and that it has nothing else but its
beginning. -/
structure Tally (log : List ProcessEvent) (p s k w : Nat) : Prop where
  polls : log.count .poll = p
  sleeps : log.count (.sleep 1) = s
  kills : log.count .kill = k
  waits : log.count .wait = w
  only : log.length = 1 + p + s + k + w

section Start
variable {script : ProcessScript} {e : Environment}

/-- What is done with a process that is created. -/
def begun (e : Environment) : ProcessEvent := .create e.arguments e.directory

/-- What stands behind the turns of a log adds to what they have. -/
theorem tally_turns (e : Environment) (n : Nat) {last : List ProcessEvent}
    (closed : last.length =
      last.count .poll + last.count (.sleep 1) + last.count .kill + last.count .wait) :
    Tally (begun e :: turns n ++ last) (n + last.count .poll) (n + last.count (.sleep 1))
      (last.count .kill) (last.count .wait) := by
  obtain ⟨polls, sleeps, kills, waits, length⟩ := count_turns n
  constructor
  case only =>
    rw [List.length_append, List.length_cons, length, closed]
    omega
  all_goals simp [begun, polls, sleeps, kills, waits]

theorem start_missing (missing : script.isMissing = true) : script.start e =
    (.error (.system (.noProgram (e.arguments.headD ""))), [begun e]) := by
  simp only [start, missing, if_true, begun]

theorem start_ends (present : script.isMissing = false) : script.start e =
      (if (watch script.interruptAt script.polls 0).2 then .error .interrupted else .ok script.code,
        begun e :: (watch script.interruptAt script.polls 0).1 ++ [.wait]) ∧
    script.Ends [begun e] (begun e :: (watch script.interruptAt script.polls 0).1 ++ [.wait])
      (watch script.interruptAt script.polls 0).2 := by
  constructor
  · simp only [start, present, Bool.false_eq_true, if_false, begun]
  · have steps := @watch_steps script script.polls 0 [begun e] (by simp [begun]) (by simp [begun])
    exact ends_of_steps (steps.tail .waited)

end Start
end ProcessScript

namespace Environment
open ProcessScript

/-- How running a game comes to its end: the result, what was done, and the files that are left. -/
inductive Ending (e : Environment) (script : ProcessScript) (files : FileTree) :
    Except Fault Int → List ProcessEvent → FileTree → Prop
  /-- There is no directory to run it in, and nothing is done. -/
  | barred {fault : AccessError} {after : FileTree}
      (barred : (FileTree.makeDirectories e.directory).run.run files = (.error fault, after)) :
      Ending e script files (.error (.ofAccess fault)) [] after
  /-- The process cannot be created, and nothing else is done. -/
  | uncreated {after : FileTree}
      (made : (FileTree.makeDirectories e.directory).run.run files = (.ok (), after))
      (missing : script.isMissing = true) :
      Ending e script files (.error (.system (.noProgram (e.arguments.headD "")))) [begun e] after
  /-- The process ends by itself, before a pause that would be interrupted. -/
  | ended {after : FileTree} {log : List ProcessEvent}
      (made : (FileTree.makeDirectories e.directory).run.run files = (.ok (), after))
      (present : script.isMissing = false)
      (calm : ∀ k, script.interruptAt = some k → k = 0 ∨ script.polls < k)
      (done : log = begun e :: turns script.polls ++ [.poll, .wait])
      (tally : Tally log (script.polls + 1) script.polls 0 1)
      (ends : script.Ends [begun e] log false) :
      Ending e script files (.ok script.code) log after
  /-- A pause is interrupted, and the process is killed. -/
  | interrupted {after : FileTree} {log : List ProcessEvent} {k : Nat}
      (made : (FileTree.makeDirectories e.directory).run.run files = (.ok (), after))
      (present : script.isMissing = false) (comes : script.interruptAt = some k) (first : 0 < k)
      (within : k ≤ script.polls) (done : log = begun e :: turns k ++ [.kill, .wait])
      (tally : Tally log k k 1 1) (ends : script.Ends [begun e] log true) :
      Ending e script files (.error .interrupted) log after

/-- Running a game comes to an end. A process that is found running some times, and whose pauses are
not interrupted until then, is looked at once more than it is paused for, and its code is the
result. If one of the pauses is interrupted, it is the last one, the process is killed, and the
interruption goes on. In both cases the end of the process is waited for once, after everything
else. Nothing is done with a process that cannot be created, and none is created without a directory
to run it in. -/
theorem run_ending (e : Environment) (script : ProcessScript) (files : FileTree) :
    let run := e.run script files
    e.Ending script files run.1 run.2.1 run.2.2 := by
  unfold run
  rcases made : (FileTree.makeDirectories e.directory).run.run files with ⟨fault | _, after⟩
  · exact .barred made
  cases present : script.isMissing with
  | true =>
    simp only [start_missing present]
    exact .uncreated made present
  | false =>
    obtain ⟨started, ends⟩ := start_ends (e := e) present
    simp only [started]
    by_cases comes : ∃ k, script.interruptAt = some (k + 1) ∧ k < script.polls
    · obtain ⟨k, comes, within⟩ := comes
      have watched := @watch_interrupted script.interruptAt script.polls 0 k
        (comes.trans (by simp)) within
      rw [watched] at ends ⊢
      have done : begun e :: (turns (k + 1) ++ [.kill]) ++ [.wait] =
          begun e :: turns (k + 1) ++ [.kill, .wait] := by simp
      rw [done] at ends ⊢
      exact .interrupted made present comes (Nat.succ_pos k) within rfl (tally_turns e (k + 1) rfl)
        ends
    · have calm : ∀ k, script.interruptAt = some k → k = 0 ∨ script.polls < k := by
        intro k same
        by_contra early
        exact comes ⟨k - 1, same.trans (by congr 1; omega), by omega⟩
      have watched := @watch_calm script.interruptAt script.polls 0 (by simpa using calm)
      rw [watched] at ends ⊢
      have done : begun e :: (turns script.polls ++ [.poll]) ++ [.wait] =
          begun e :: turns script.polls ++ [.poll, .wait] := by simp
      rw [done] at ends ⊢
      exact .ended made present calm rfl (tally_turns e script.polls rfl) ends

/-- The last pause may be interrupted; behind it the process has ended, and none is made. -/
example (e : Environment) : (start ⟨1, 7, some 1, false⟩ e).1 = .error .interrupted ∧
    (start ⟨1, 7, some 2, false⟩ e).1 = .ok 7 := ⟨rfl, rfl⟩

end Environment
end Launcher
