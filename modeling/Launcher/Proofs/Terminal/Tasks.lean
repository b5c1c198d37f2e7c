import Launcher.Proofs.Terminal.Screen
import Launcher.Terminal.Display
import Mathlib.Data.List.Forall2

/-! Tasks as they are seen on a terminal. Each stands alone on the current line, whatever was told
before it, and finishing it leaves it on a line of its own. Only the length of the last message is
known when the next one is told: beyond it the line is blank. -/
namespace Launcher
open Screen (IsPrinted write_append write_around write_feed write_printed write_return)

/-- A message as it fits the columns behind a state. -/
def shortened (columns : Nat) (message : List Char) : List Char :=
  if Output.stateLength + message.length ≤ columns then message
  else message.take (columns - 12) ++ "...".toList

/-- What is read of a task: its state without colours, and its message. -/
def taskLine (columns : Nat) (task : Option String × String) : List Char :=
  (Output.stateText false task.1).toList ++ shortened columns task.2.toList

/-- A line reads as a task, with nothing behind it but blanks. -/
structure Reads (columns : Nat) (line : List Char) (task : Option String × String) : Prop where
  mark : (Output.stateText false task.1).toList.length = 9
  text : ∃ blanks, line = taskLine columns task ++ List.replicate blanks ' '
  room : line.length ≤ columns

/-- The tasks that were finished, and the one in progress. -/
structure Tasks where
  finished : List (Option String × String)
  current : Option (Option String × String)

namespace Tasks

def after (tasks : Tasks) : Display → Tasks
  | .task state message => { tasks with current := some (state, message) }
  | .finish => ⟨tasks.finished ++ tasks.current.toList, none⟩
  | .print _ => tasks

def told (displays : List Display) : Tasks := displays.foldl after ⟨[], none⟩

end Tasks

/-- A task whose state fits the six columns of its mark and whose texts are printed, or the end of
one. A control character would have no column of its own. -/
def Display.IsTaskLine : Display → Prop
  | .task state message =>
    (∀ text ∈ state, text.length ≤ 6 ∧ IsPrinted text.toList) ∧ IsPrinted message.toList
  | .finish => True
  | .print _ => False

instance (d : Display) : Decidable d.IsTaskLine :=
  match d with
  | .task _ _ => inferInstanceAs (Decidable (_ ∧ _))
  | .finish => inferInstanceAs (Decidable True)
  | .print _ => inferInstanceAs (Decidable False)

namespace Output

section State
variable {columns : Nat} {s : Screen} {state : Option String} {text color : String}

theorem centered_eq (text : String) : ∃ left right, left + right = 6 - text.length ∧
    (centered text).toList =
      List.replicate left ' ' ++ text.toList ++ List.replicate right ' ' := by
  refine ⟨(6 - text.length) / 2, 6 - text.length - (6 - text.length) / 2, by omega, ?_⟩
  simp [centered]

theorem isPrinted_blanks (n : Nat) : IsPrinted (List.replicate n ' ') := by
  intro c member
  rw [List.eq_of_mem_replicate member]
  decide

theorem centered_isPrinted (printed : IsPrinted text.toList) :
    IsPrinted (centered text).toList := by
  obtain ⟨left, right, -, same⟩ := centered_eq text
  rw [same]
  exact List.forall_mem_append.mpr
    ⟨List.forall_mem_append.mpr ⟨isPrinted_blanks _, printed⟩, isPrinted_blanks _⟩

theorem stateText_none (isColored : Bool) :
    (stateText isColored none).toList = List.replicate stateLength ' ' := String.toList_ofList

theorem stateText_some (text : String) :
    (stateText false (some text)).toList = '[' :: (centered text).toList ++ [']', ' '] := by
  simp [stateText]

theorem stateText_isPrinted (printed : ∀ text ∈ state, IsPrinted text.toList) :
    IsPrinted (stateText false state).toList := by
  cases state with
  | none => exact stateText_none false ▸ isPrinted_blanks _
  | some text =>
    have inner := centered_isPrinted (printed text rfl)
    rw [stateText_some, List.cons_append]
    have closed : IsPrinted [']', ' '] := by decide
    exact List.forall_mem_cons.mpr ⟨by decide, List.forall_mem_append.mpr ⟨inner, closed⟩⟩

theorem stateText_length (short : ∀ text ∈ state, text.length ≤ 6) :
    (stateText false state).toList.length = stateLength := by
  cases state with
  | none => rw [stateText_none, List.length_replicate]
  | some text =>
    obtain ⟨left, right, sum, same⟩ := centered_eq text
    have fits := short text rfl
    rw [stateText_some, same]
    simp only [List.cons_append, List.length_cons, List.length_append, List.length_replicate,
      String.length_toList, List.length_nil, stateLength]
    omega

theorem colored {isColored : Bool}
    (found : (if isColored then colors.lookup text else none) = some color) :
    colors.lookup text = some color := by
  split at found
  · exact found
  · cases found

/-- The colour of a state is a code. -/
theorem colors_code (found : colors.lookup text = some color) :
    ∃ code, 'm' ∉ code ∧ color.toList = '\x1b' :: code ++ ['m'] := by
  have each : ∀ entry ∈ colors, 'm' ∉ entry.2.toList.tail.dropLast ∧
      entry.2.toList = '\x1b' :: entry.2.toList.tail.dropLast ++ ['m'] := by decide
  obtain ⟨front, back, same, -⟩ := List.lookup_eq_some_iff.mp found
  exact ⟨_, each (text, color) (by rw [same]; simp)⟩

/-- With colours and without them a state is seen alike. -/
theorem write_stateText (plain : s.coded = false) (isColored : Bool)
    (printed : ∀ text ∈ state, IsPrinted text.toList) :
    s.write columns (stateText isColored state).toList =
      s.write columns (stateText false state).toList := by
  cases state with
  | none => rfl
  | some text =>
    cases found : (if isColored then colors.lookup text else none) with
    | none => simp [stateText, found]
    | some color =>
      obtain ⟨code, inner, same⟩ := colors_code (colored found)
      let reset := '\x1b' :: "[0".toList ++ ['m']
      let rest := (centered text).toList ++ (reset ++ [']', ' '])
      have parts : (stateText isColored (some text)).toList =
          ['['] ++ ('\x1b' :: code ++ ['m'] ++ rest) := by
        simp [stateText, found, same, rest, reset]
      have opened : IsPrinted ('[' :: (centered text).toList) :=
        List.forall_mem_cons.mpr ⟨by decide, centered_isPrinted (printed text rfl)⟩
      have closed : s.write columns ('[' :: (centered text).toList ++ (reset ++ [']', ' '])) =
          s.write columns ('[' :: (centered text).toList ++ [']', ' ']) :=
        write_around plain (by decide) opened _
      rw [parts, write_around plain inner (by decide), ← List.append_assoc, stateText_some]
      exact closed

end State

section Message
variable {columns : Nat} {message : List Char}

theorem cut_eq (wide : 20 ≤ columns) (message : List Char) :
    cut columns message = shortened columns message := by
  unfold cut shortened
  by_cases fits : stateLength + message.length ≤ columns
  · rw [if_neg (by simp; omega), if_pos fits]
  · rw [if_pos (by simp [wide]; omega), if_neg fits]
    rfl

theorem shortened_length (wide : 20 ≤ columns) (message : List Char) :
    stateLength + (shortened columns message).length ≤ columns := by
  unfold shortened
  split
  · assumption
  · have dots : "...".toList.length = 3 := rfl
    rw [List.length_append, List.length_take, dots, stateLength]
    omega

theorem shortened_isPrinted (printed : IsPrinted message) :
    IsPrinted (shortened columns message) := by
  unfold shortened
  split
  · exact printed
  · have dots : IsPrinted "...".toList := by decide
    exact List.forall_mem_append.mpr
      ⟨fun c member => printed c (List.mem_of_mem_take member), dots⟩

end Message

/-- What is known of the current line: beyond a state and the last message it is blank. -/
structure Fits (columns : Nat) (o : Output) (s : Screen) : Prop where
  plain : s.coded = false
  beyond : ∃ blanks, s.line.drop (stateLength + o.lineLength.getD 0) = List.replicate blanks ' '
  message : stateLength + o.lineLength.getD 0 ≤ columns
  room : s.line.length ≤ columns

section Task
variable {columns : Nat} {o : Output} {s : Screen} {state : Option String} {message : String}

theorem task_text (wide : 20 ≤ columns) (o : Output) (state : Option String) (message : String) :
    (o.task columns state message).1.toList = ['\r'] ++ ((stateText o.isColored state).toList ++
      (shortened columns message.toList ++ List.replicate
        (o.lineLength.getD 0 - (shortened columns message.toList).length) ' ')) := by
  simp [task, cut_eq wide]

/-- A task replaces what the current line reads. -/
theorem Fits.task (fits : o.Fits columns s) (wide : 20 ≤ columns)
    (told : (Display.task state message).IsTaskLine) :
    ∃ line column, s.write columns (o.task columns state message).1.toList =
        { s with line := line, column := column } ∧
      Reads columns line (state, message) ∧ column ≤ line.length := by
  obtain ⟨short, printed⟩ := told
  have plainState : ∀ text ∈ state, IsPrinted text.toList := fun text member =>
    (short text member).2
  let mark := (stateText false state).toList
  let shown := shortened columns message.toList
  let blanks := o.lineLength.getD 0 - shown.length
  let length := stateLength + shown.length + blanks
  have marked : mark.length = stateLength :=
    stateText_length fun text member => (short text member).1
  have enough : length ≤ columns := by
    have cut : stateLength + shown.length ≤ columns := shortened_length wide _
    have := fits.message
    omega
  have whole : IsPrinted (mark ++ (shown ++ List.replicate blanks ' ')) :=
    List.forall_mem_append.mpr ⟨stateText_isPrinted plainState,
      List.forall_mem_append.mpr ⟨shortened_isPrinted printed, isPrinted_blanks blanks⟩⟩
  have long : (mark ++ (shown ++ List.replicate blanks ' ')).length = length := by
    rw [List.length_append, List.length_append, List.length_replicate, marked, ← Nat.add_assoc]
  -- The old message is covered by the new one and its blanks.
  obtain ⟨rest, beyond⟩ : ∃ rest, s.line.drop length = List.replicate rest ' ' := by
    obtain ⟨old, beyond⟩ := fits.beyond
    refine ⟨old - (length - (stateLength + o.lineLength.getD 0)), ?_⟩
    rw [← List.drop_replicate, ← beyond, List.drop_drop]
    congr 1
    omega
  have written : s.write columns (o.task columns state message).1.toList =
      { s with
        line := mark ++ (shown ++ List.replicate blanks ' ') ++ List.replicate rest ' '
        column := length } := by
    let returned : Screen := { s with column := 0 }
    have recolored := @write_stateText columns returned state fits.plain o.isColored plainState
    have printed := @write_printed columns returned _ fits.plain (Nat.zero_le _) whole
      (by rw [long]; exact (Nat.zero_add length).symm ▸ enough)
    rw [task_text wide, write_append, write_return fits.plain, write_append, recolored,
      ← write_append, printed]
    simp only [returned, long, beyond, List.take_zero, List.nil_append, Nat.zero_add]
  have blank : mark ++ (shown ++ List.replicate blanks ' ') ++ List.replicate rest ' ' =
      taskLine columns (state, message) ++ List.replicate (blanks + rest) ' ' := by
    rw [taskLine, List.replicate_add]
    simp only [mark, shown, List.append_assoc]
  have covers : (mark ++ (shown ++ List.replicate blanks ' ') ++ List.replicate rest ' ').length =
      length + (s.line.length - length) := by
    rw [List.length_append, long, ← beyond, List.length_drop]
  refine ⟨_, _, written, ⟨marked, ⟨_, blank⟩, ?_⟩, ?_⟩
  · have := fits.room
    omega
  · omega

theorem stateText_unfed (printed : ∀ text ∈ state, IsPrinted text.toList) (isColored : Bool) :
    '\n' ∉ (stateText isColored state).toList := by
  have plain : '\n' ∉ (stateText false state).toList := (stateText_isPrinted printed).unfed
  cases state with
  | none => exact plain
  | some text =>
    cases found : (if isColored then colors.lookup text else none) with
    | none => simpa [stateText, found] using plain
    | some color =>
      have each : ∀ entry ∈ colors, '\n' ∉ entry.2.toList := by decide
      obtain ⟨front, back, same, -⟩ := List.lookup_eq_some_iff.mp (colored found)
      have inner : '\n' ∉ color.toList := each (text, color) (by rw [same]; simp)
      have middle := (centered_isPrinted (printed text rfl)).unfed
      simp [stateText, found, inner, middle]

/-- A task stays on the current line. -/
theorem task_unfed (wide : 20 ≤ columns) (told : (Display.task state message).IsTaskLine)
    (o : Output) : '\n' ∉ (o.task columns state message).1.toList := by
  obtain ⟨short, printed⟩ := told
  have first := stateText_unfed (fun text member => (short text member).2) o.isColored
  have second := (@shortened_isPrinted columns _ printed).unfed
  rw [task_text wide]
  simp [first, second]

end Task

/-- What is seen after some tasks were told. -/
structure Shows (columns : Nat) (o : Output) (s : Screen) (tasks : Tasks) : Prop where
  fits : o.Fits columns s
  column : s.column ≤ s.line.length
  above : List.Forall₂ (Reads columns) s.above tasks.finished
  idle : tasks.current = none → s.line = [] ∧ o.lineLength = none
  active : ∀ task ∈ tasks.current, Reads columns s.line task ∧
    o.lineLength = some (shortened columns task.2.toList).length

section Shows
variable {columns : Nat} {o : Output} {s : Screen} {tasks : Tasks}

theorem Shows.task {state : Option String} {message : String} (shows : o.Shows columns s tasks)
    (wide : 20 ≤ columns) (told : (Display.task state message).IsTaskLine) :
    let next := o.task columns state message
    next.2.Shows columns (s.write columns next.1.toList)
      { tasks with current := some (state, message) } := by
  obtain ⟨line, column, written, reads, inside⟩ := shows.fits.task wide told
  have length : (o.task columns state message).2.lineLength =
      some (shortened columns message.toList).length := by rw [Output.task, cut_eq wide]
  obtain ⟨blanks, same⟩ := reads.text
  have front : (taskLine columns (state, message)).length =
      stateLength + (shortened columns message.toList).length := by
    rw [taskLine, List.length_append, reads.mark]
    rfl
  simp only [written]
  refine ⟨⟨shows.fits.plain, ⟨blanks, ?_⟩, ?_, reads.room⟩, inside, shows.above, nofun, ?_⟩
  · rw [length, same]
    exact List.drop_left' front
  · rw [length]
    exact shortened_length wide _
  · intro task told
    cases told
    exact ⟨reads, length⟩

theorem Shows.finish (shows : o.Shows columns s tasks) :
    o.finish.1 = (if tasks.current.isSome then "\n" else "") ∧
      o.finish.2.Shows columns (s.write columns o.finish.1.toList) (tasks.after .finish) := by
  rcases tasks with ⟨finished, _ | task⟩
  · obtain ⟨empty, none⟩ := shows.idle rfl
    have unchanged : o.finish = ("", o) := by rw [Output.finish, none]
    rw [unchanged]
    refine ⟨rfl, shows.fits, shows.column, ?_, fun _ => ⟨empty, none⟩, by simp [Tasks.after]⟩
    simpa [Tasks.after, Screen.write] using shows.above
  · obtain ⟨reads, some⟩ := shows.active task rfl
    have fed : o.finish = ("\n", { o with lineLength := none }) := by rw [Output.finish, some]
    have left : s.write columns "\n".toList = s.feed := write_feed shows.fits.plain
    rw [fed, left]
    refine ⟨rfl, ⟨shows.fits.plain, ⟨0, rfl⟩, ?_, Nat.zero_le _⟩, Nat.le_refl _, ?_,
      fun _ => ⟨rfl, rfl⟩, by simp [Tasks.after]⟩
    · exact Nat.le_trans (Nat.le_add_right _ _) shows.fits.message
    · exact List.rel_append shows.above (.cons reads .nil)

/-- One thing that is told. The screen has a new line for each task that is finished, and no other
one. -/
theorem Shows.write {d : Display} (shows : o.Shows columns s tasks) (wide : 20 ≤ columns)
    (told : d.IsTaskLine) :
    let next := o.write columns d
    next.2.Shows columns (s.write columns next.1.toList) (tasks.after d) ∧
      (tasks.after d).finished.length = tasks.finished.length + next.1.toList.count '\n' := by
  cases d with
  | print => exact told.elim
  | task state message =>
    refine ⟨shows.task wide told, ?_⟩
    rw [Output.write, List.count_eq_zero.mpr (task_unfed wide told o)]
    rfl
  | finish =>
    obtain ⟨text, shows'⟩ := shows.finish
    refine ⟨shows', ?_⟩
    rw [Output.write, text, Tasks.after, List.length_append]
    cases tasks.current <;> simp

theorem Shows.writeAll {displays : List Display} (shows : o.Shows columns s tasks)
    (wide : 20 ≤ columns) (told : ∀ d ∈ displays, d.IsTaskLine) :
    let all := o.writeAll columns displays
    let tasks' := displays.foldl Tasks.after tasks
    all.2.Shows columns (s.write columns all.1.toList) tasks' ∧
      tasks'.finished.length = tasks.finished.length + all.1.toList.count '\n' := by
  induction displays generalizing o s tasks with
  | nil => exact ⟨shows, rfl⟩
  | cons d rest ih =>
    obtain ⟨first, later⟩ := List.forall_mem_cons.mp told
    obtain ⟨next, count⟩ := shows.write wide first
    obtain ⟨last, count'⟩ := ih next later
    simp only [Output.writeAll, String.toList_append, write_append, List.count_append,
      List.foldl_cons]
    refine ⟨last, ?_⟩
    rw [count', count, Nat.add_assoc]

end Shows

/-- What is seen of tasks that are told one after another on a terminal of some columns. The current
line reads as the task in progress: a state, and the message as far as it fits. There is nothing
behind it, it is no longer than the terminal is wide, and it is empty if there is no such task. The
lines above are those of the tasks that were finished; no line goes on in the next one. Finishing
begins a new line if there is a task in progress. -/
theorem writeAll_reads (kind : OutputKind) {columns : Nat} (wide : 20 ≤ columns)
    {displays : List Display} (told : ∀ d ∈ displays, d.IsTaskLine) :
    let all := (ofKind kind).writeAll columns displays
    let screen := Screen.blank.write columns all.1.toList
    let tasks := Tasks.told displays
    (∀ task ∈ tasks.current, Reads columns screen.line task) ∧
      (tasks.current = none → screen.line = []) ∧
      List.Forall₂ (Reads columns) screen.above tasks.finished ∧
      screen.above.length = all.1.toList.count '\n' ∧
      screen.column ≤ screen.line.length ∧ screen.line.length ≤ columns ∧
      all.2.finish.1 = if tasks.current.isSome then "\n" else "" := by
  intro all screen tasks
  have room : stateLength + 0 ≤ columns := Nat.le_trans (by decide) wide
  have begun : (ofKind kind).Shows columns .blank ⟨[], none⟩ :=
    ⟨⟨rfl, ⟨0, rfl⟩, room, Nat.zero_le _⟩, Nat.le_refl _, .nil, fun _ => ⟨rfl, rfl⟩, nofun⟩
  obtain ⟨shows, count⟩ := begun.writeAll wide told
  refine ⟨fun task current => (shows.active task current).1, fun none => (shows.idle none).1,
    shows.above, ?_, shows.column, shows.fits.room, shows.finish.1⟩
  rw [shows.above.length_eq]
  exact count.trans (Nat.zero_add _)

/-- A message that is too long for the line, and a shorter one over it in colour. -/
theorem writeAll_reads_shorter :
    let displays : List Display := [.task (some "INFO") "a longer message",
      .task (some "OK") "short"]
    let all := (ofKind .colored).writeAll 24 displays
    let screen := Screen.blank.write 24 all.1.toList
    20 ≤ 24 ∧ (∀ d ∈ displays, d.IsTaskLine) ∧ Reads 24 screen.line (some "OK", "short") ∧
      screen.line = "[  OK  ] short          ".toList ∧
      taskLine 24 (some "INFO", "a longer message") = "[ INFO ] a longer mes...".toList := by
  intro displays all screen
  have wide : 20 ≤ 24 := by decide
  have told : ∀ d ∈ displays, d.IsTaskLine := by decide +kernel
  have reads : Reads 24 screen.line (some "OK", "short") :=
    (writeAll_reads .colored wide told).1 _ rfl
  exact ⟨wide, told, reads, by decide +kernel, by decide +kernel⟩

end Output
end Launcher
