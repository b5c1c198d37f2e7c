import Launcher.Commands.Report
import Launcher.Proofs.Commands.Faults

/-! How carrying out a command line ends. A command that does not run the game succeeds, or it tells
of a fault and fails, or a fault slips through that nothing is told of, or a download of it goes on
for ever. What is seen of a fault that is told is a line of its own with the state of a failure. -/
namespace Launcher

namespace Output

theorem write_isColored (columns : Nat) (o : Output) (d : Display) :
    (o.write columns d).2.isColored = o.isColored := by
  cases d with
  | finish =>
    rw [write, finish]
    cases o.lineLength <;> rfl
  | _ => rfl

theorem writeAll_isColored (columns : Nat) (displays : List Display) (o : Output) :
    (o.writeAll columns displays).2.isColored = o.isColored := by
  induction displays generalizing o with
  | nil => rfl
  | cons d rest ih => exact (ih _).trans (write_isColored columns o d)

/-- What is shown later does not change what was shown before. -/
theorem writeAll_append (columns : Nat) (first second : List Display) (o : Output) :
    (o.writeAll columns (first ++ second)).1 = (o.writeAll columns first).1 ++
      ((o.writeAll columns first).2.writeAll columns second).1 := by
  induction first generalizing o with
  | nil => exact (String.empty_append).symm
  | cons d rest ih =>
    simp only [List.cons_append, writeAll]
    rw [ih, String.append_assoc]

/-- A message with a state on a line of its own, with blanks over what was longer before. -/
def lineText (isColored : Bool) (columns : Nat) (state message : String) (blanks : Nat) : String :=
  "\r" ++ stateText isColored (some state) ++ String.ofList (cut columns message.toList) ++
    String.ofList (List.replicate blanks ' ') ++ "\n"

/-- The blanks that a message needs after what stands on the line. -/
def blanksAfter (o : Output) (columns : Nat) (message : String) : Nat :=
  o.lineLength.getD 0 - (cut columns message.toList).length

theorem writeAll_line (columns : Nat) (o : Output) (state message : String)
    (rest : List Display) :
    (o.writeAll columns (.task (some state) message :: .finish :: rest)).1 =
      lineText o.isColored columns state message (o.blanksAfter columns message) ++
        ({ o with lineLength := none }.writeAll columns rest).1 := by
  simp only [writeAll, write, task, finish, lineText, blanksAfter, String.append_assoc]

/-- A task that is finished at once is seen on a line of its own. -/
theorem writeAll_shows (columns : Nat) (o : Output) {displays : List Display}
    {state message : String} (told : [.task (some state) message, .finish] <:+: displays) :
    ∃ before blanks after, (o.writeAll columns displays).1 =
      before ++ lineText o.isColored columns state message blanks ++ after := by
  obtain ⟨first, last, rfl⟩ := told
  let o' := (o.writeAll columns first).2
  refine ⟨(o.writeAll columns first).1, o'.blanksAfter columns message,
    ({ o' with lineLength := none }.writeAll columns last).1, ?_⟩
  rw [List.append_assoc, writeAll_append, ← writeAll_isColored columns first o,
    String.append_assoc]
  exact congrArg _ (writeAll_line columns o' state message last)

end Output

namespace Fault

/-- The state under which a fault is told. -/
def state : Fault → String
  | .interrupted => "HALT"
  | _ => "FAILED"

/-- Whatever is told of a fault, its state is told in a line. -/
theorem report_line {f : Fault} {displays : List Display} (told : f.report? = some displays) :
    ∃ message, [.task (some f.state) message, .finish] <:+: displays := by
  have named {key : String} {values : Members} (state : f.state = "FAILED") :
      ∃ message, [.task (some f.state) message, .finish] <:+: Fault.named key values :=
    state ▸ ⟨_, List.infix_rfl⟩
  have failed {rest : List Display} (state : f.state = "FAILED") :
      ∃ message, [.task (some f.state) message, .finish] <:+: [failed, .finish] ++ rest :=
    state ▸ ⟨"", (List.prefix_append _ _).isInfix⟩
  cases f with
  | interrupted =>
    cases told
    exact ⟨_, (List.suffix_cons _ _).isInfix⟩
  | versionNotFound | noJar | integrity | document | http =>
    cases told
    exact named rfl
  | system e =>
    cases told
    unfold systemReport
    rw [List.append_assoc]
    exact failed rfl
  | evaluation e =>
    obtain e | ⟨text, _ | _ | digits⟩ := e
    · cases told
    · cases told
    · cases told
    · cases told
      exact failed rfl
  | latestNotObject | exchange | namelessMember | rangeCoder | cleared | homeless => cases told
  | _ =>
    cases told
    exact failed rfl

end Fault

namespace Setting
variable {α : Type} {setting : Setting α} {option : NeededOption}

theorem needed_error {option' : NeededOption} (failed : setting.needed option = .error option') :
    setting = .cleared ∧ option' = option := by
  cases setting with
  | cleared => cases failed; exact ⟨rfl, rfl⟩
  | _ => cases failed

theorem needed_ok {value : Option α} (needed : setting.needed option = .ok value) :
    setting = match value with
      | some value => .given value
      | none => .unset := by
  cases setting <;> cases needed <;> rfl

end Setting

namespace CommandAction
variable {E : Fault → Prop} {α : Type}

theorem tell_fails (displays : List Display) : FailsBy E (tell displays) :=
  .modify fun _ _ => trivial

theorem ofExcept_fails {result : Except Fault α} (kind : ∀ e, result = .error e → E e) :
    FailsBy E (ofExcept result) := by
  cases result with
  | ok value => exact .pure value
  | error e => exact .throw (kind e rfl)

theorem onWorld_fails {action : Action α} (fails : FailsBy E action) :
    FailsBy E (onWorld action) := by
  refine .get_bind fun s _ => ?_
  have kind := (fails s.world trivial).2
  generalize action.run.run s.world = outcome at kind ⊢
  obtain ⟨result, world⟩ := outcome
  simp only [run_bind, run_set]
  exact ofExcept_fails kind _ trivial

/-- An installation ends by the faults of its kind, or because it has no directory to work in. -/
theorem onInstallation_fails (c : CommandSettings) (settings : InstallSettings) :
    FailsBy (fun f => f.EndsInstall (decide (settings.kind = .client)) ∨
      f = .cleared .workDir ∧ c.hasWorkDir = false) (onInstallation c settings) := by
  refine .get_bind fun s _ => ?_
  have kind : ∀ e, ((if c.hasWorkDir then Installation.steps c.machine settings
      else Installation.stepsNowhere settings).run.run (.start s.world)).1 = .error e →
      e.EndsInstall (decide (settings.kind = .client)) ∨
        e = .cleared .workDir ∧ c.hasWorkDir = false := by
    cases c.hasWorkDir with
    | true =>
      exact fun e failed =>
        .inl ((Installation.steps_faults c.machine settings _ fun _ => rfl).2 e failed)
    | false =>
      exact fun e failed =>
        ((Installation.stepsNowhere_fails settings _ fun _ => rfl).2 e failed).imp_right
          fun same => ⟨same, rfl⟩
  simp only
  generalize (if c.hasWorkDir then Installation.steps c.machine settings
    else Installation.stepsNowhere settings).run.run (.start s.world) = outcome at kind ⊢
  obtain ⟨result, i⟩ := outcome
  simp only [run_bind, run_set]
  exact Safe.bind (tell_fails _) (fun _ => ofExcept_fails kind) _ trivial

end CommandAction

namespace Command

/-- The version or the filter that a command line names. -/
def named? : Command → Option String
  | .search filter => filter
  | .install target => some target.version
  | .start options => some options.target.version

def installs : Command → Bool
  | .search _ => false
  | _ => true

def isClient : Command → Bool
  | .search _ => false
  | .install target => !target.isServer
  | .start options => !options.target.isServer

/-- The game is not run. -/
def IsDry : Command → Prop
  | .start options => options.isDry = true
  | _ => True

/-- A command needs the value of an option that was cleared. -/
inductive Lacks (c : CommandSettings) : Command → NeededOption → Prop
  | workDir {command : Command} (installs : command.installs = true)
      (none : c.hasWorkDir = false) : Lacks c command .workDir
  | jvm {options : StartOptions} (cleared : options.jvm = .cleared) : Lacks c (.start options) .jvm
  | jvmArgs {options : StartOptions} (cleared : options.jvmArgs = .cleared) :
      Lacks c (.start options) .jvmArgs
  | gameArgs {options : StartOptions} (cleared : options.gameArgs = .cleared) :
      Lacks c (.start options) .gameArgs

/-- The faults of which a command tells nothing: those of an installation of its kind, and two of
its own. The latest version of a kind is looked for in something else than an object, and an option
that it needs was cleared. -/
inductive Slips (c : CommandSettings) (command : Command) : Fault → Prop
  | install {f : Fault} (slips : f.Slips command.isClient) : Slips c command f
  | latest {version : String} (named : command.named? = some version)
      (isAlias : VersionIndex.isAlias version = true) : Slips c command .latestNotObject
  | lacks {option : NeededOption} (lacks : command.Lacks c option) :
      Slips c command (.cleared option)

/-- The faults that can end a command, whose downloads may go on for ever if it has any. -/
def EndsBy (c : CommandSettings) (command : Command) (f : Fault) : Prop :=
  f.IsTold ∨ command.Slips c f ∨ f = .batch .unending ∧ command.installs = true

variable {c : CommandSettings}

theorem Slips.untold {command : Command} {f : Fault} (slips : command.Slips c f) :
    f.report? = none := by
  cases slips with
  | install slips => exact slips.untold
  | latest | lacks => rfl

theorem endsBy_of_ends {command : Command} {f : Fault} (ends : f.Ends command.isClient) :
    command.EndsBy c f :=
  ends.imp id fun slips => .inl (.install slips)

theorem latest_endsBy {command : Command} {version : String}
    (named : command.named? = some version) :
    FailsBy (command.EndsBy c) (VersionIndex.latest version) := by
  have fails : FailsBy (fun f => f.Ends command.isClient ∨
      f = .latestNotObject ∧ VersionIndex.isAlias version = true) (VersionIndex.latest version) :=
    VersionIndex.latest_fails version
  refine fails.weaken ?_
  rintro f (ends | ⟨rfl, isAlias⟩)
  · exact endsBy_of_ends ends
  · exact .inr (.inl (.latest named isAlias))

theorem resolveVersion_endsBy {command : Command} {version : String}
    (named : command.named? = some version) :
    FailsBy (command.EndsBy c) (CommandSettings.resolveVersion version) := by
  refine .bind (CommandAction.onWorld_fails (latest_endsBy named)) fun resolved => ?_
  obtain ⟨id, isAlias⟩ := resolved
  simp only
  split
  · exact .bind (CommandAction.tell_fails _) fun _ => .pure _
  · exact .pure _

theorem versionName_endsBy (command : Command) (id : Json) :
    FailsBy (command.EndsBy c) (CommandSettings.versionName id) := by
  unfold CommandSettings.versionName
  split
  · exact .pure _
  · refine .bind (CommandAction.tell_fails _) fun _ => ?_
    refine .bind (CommandAction.onWorld_fails ?_) fun _ => .throw (.inl rfl)
    exact VersionIndex.entries_fails.weaken fun _ => endsBy_of_ends

theorem onInstallation_endsBy {command : Command} (installs : command.installs = true)
    {settings : InstallSettings}
    (kind : command.isClient = decide (settings.kind = .client)) :
    FailsBy (command.EndsBy c) (CommandAction.onInstallation c settings) := by
  refine (CommandAction.onInstallation_fails c settings).weaken ?_
  rintro f ((ends | endless) | ⟨rfl, none⟩)
  · exact endsBy_of_ends (kind ▸ ends)
  · exact .inr (.inr ⟨endless, installs⟩)
  · exact .inr (.inl (.lacks (.workDir installs none)))

theorem rows_fails {client : Bool} (d : Directories) (entries : List VersionEntry) :
    FailsBy (Fault.Ends client) (VersionFilter.rows d entries) := by
  induction entries with
  | nil => exact .pure _
  | cons entry rest ih =>
    exact .bind (Action.inspect_fails _) fun isLocal => .bind ih fun _ => .pure _

theorem search_endsBy (filter : Option String) :
    FailsBy ((Command.search filter).EndsBy c) (c.search filter) := by
  refine .bind (CommandAction.onWorld_fails ?_) fun table =>
    .bind (CommandAction.tell_fails _) fun _ => .pure _
  refine .bind ?_ fun filter => .bind (VersionIndex.entries_fails.weaken fun _ => endsBy_of_ends)
    fun entries => .bind ((rows_fails _ _).weaken fun _ => endsBy_of_ends) fun _ => .pure _
  cases filter with
  | none => exact .pure _
  | some text =>
    exact .bind (latest_endsBy rfl) fun _ => .pure _

theorem installSettings_kind (c : CommandSettings) (target : Target) (version : String) :
    decide ((c.installSettings target version).kind = .client) = !target.isServer := by
  unfold CommandSettings.installSettings
  cases target.isServer <;> rfl

theorem install_endsBy (target : Target) :
    FailsBy ((Command.install target).EndsBy c) (c.install target) := by
  refine .bind (resolveVersion_endsBy rfl) fun id => ?_
  refine .bind (versionName_endsBy _ id) fun version => ?_
  refine .bind (onInstallation_endsBy rfl ?_) fun _ =>
    .bind (CommandAction.tell_fails _) fun _ => .pure _
  exact (installSettings_kind c target version).symm

/-- The options of a start are refused if one of them was cleared. -/
theorem startChanges_lacks {options : StartOptions} {option : NeededOption}
    (failed : CommandSettings.startChanges options = .error option) :
    Lacks c (.start options) option := by
  rcases bind_error failed with failed | ⟨_, -, failed⟩
  · obtain ⟨cleared, rfl⟩ := Setting.needed_error failed
    exact .jvm cleared
  · rcases bind_error failed with failed | ⟨_, -, failed⟩
    · obtain ⟨cleared, rfl⟩ := Setting.needed_error failed
      exact .jvmArgs cleared
    · rcases bind_error failed with failed | ⟨_, -, failed⟩
      · obtain ⟨cleared, rfl⟩ := Setting.needed_error failed
        exact .gameArgs cleared
      · cases failed

theorem startChanges_kind {options : StartOptions} {change : InstallSettings → InstallSettings}
    (changed : CommandSettings.startChanges options = .ok change) (settings : InstallSettings) :
    (change settings).kind = settings.kind := by
  obtain ⟨_, -, changed⟩ := bind_ok changed
  obtain ⟨_, -, changed⟩ := bind_ok changed
  obtain ⟨_, -, changed⟩ := bind_ok changed
  cases changed
  rfl

theorem start_endsBy {options : StartOptions} (dry : options.isDry = true) :
    FailsBy ((Command.start options).EndsBy c) (c.start options) := by
  refine .bind (resolveVersion_endsBy rfl) fun id => ?_
  cases changed : CommandSettings.startChanges options with
  | error option => exact .throw_bind (.inr (.inl (.lacks (startChanges_lacks changed))))
  | ok change =>
    simp only [Except.mapError, CommandAction.ofExcept, pure_bind]
    refine .bind (versionName_endsBy _ id) fun version => ?_
    refine .bind (onInstallation_endsBy rfl ?_) fun e => ?_
    · rw [startChanges_kind changed]
      exact (installSettings_kind c options.target version).symm
    · simp only [dry, if_true]
      exact .bind (CommandAction.tell_fails _) fun _ => .pure _

/-- The faults that can end a command that does not run the game. -/
theorem perform_endsBy {command : Command} (dry : command.IsDry) :
    FailsBy (command.EndsBy c) (command.perform c) := by
  cases command with
  | search filter => exact search_endsBy filter
  | install target => exact install_endsBy target
  | start options => exact start_endsBy dry

/-- A command that does not run the game gives the code of success. -/
theorem perform_code {command : Command} (dry : command.IsDry) :
    Gives (fun _ => True) (command.perform c) fun code _ => code = exitOk := by
  cases command with
  | search filter => exact .after fun table => .after fun _ => .pure fun _ _ => rfl
  | install target =>
    exact .after fun id => .after fun version => .after fun e => .after fun _ =>
      .pure fun _ _ => rfl
  | start options =>
    refine .after fun id => .after fun change => .after fun version => .after fun e => ?_
    have dry : options.isDry = true := dry
    simp only [dry, if_true]
    exact .after fun _ => .pure fun _ _ => rfl

end Command

namespace Preparation
variable {s : Surroundings} {options : Options}

/-- Why options cannot be carried out at all. -/
inductive Lacks (s : Surroundings) (options : Options) : Escape → Prop
  | output (cleared : options.output = .cleared) : Lacks s options (.fault (.cleared .output))
  | mainDir (cleared : options.mainDir = .cleared) : Lacks s options (.fault (.cleared .mainDir))
  | homeless (unset : options.mainDir = .unset) (none : s.launcherDirectory = none) :
      Lacks s options (.fault .homeless)
  | timeoutValue (cleared : options.timeout = .cleared) :
      Lacks s options (.fault (.cleared .timeout))
  | timeout {x : Binary64} {e : TimeoutError} (given : options.timeout = .given x)
      (unfit : Timeout.seconds x = .error e) : Lacks s options (.timeout e)

theorem needed_escape {α : Type} {setting : Setting α} {option : NeededOption} {escape : Escape}
    (failed : (setting.needed option).mapError (fun o => .fault (.cleared o)) = .error escape) :
    setting = .cleared ∧ escape = .fault (.cleared option) := by
  obtain ⟨_, needed, rfl⟩ := mapError_error failed
  obtain ⟨cleared, rfl⟩ := Setting.needed_error needed
  exact ⟨cleared, rfl⟩

/-- Options that are not prepared lack something. -/
theorem ofOptions_error {escape : Escape} (refused : ofOptions s options = .error escape) :
    Lacks s options escape := by
  rcases bind_error refused with failed | ⟨output, -, refused⟩
  · obtain ⟨cleared, rfl⟩ := needed_escape failed
    exact .output cleared
  rcases bind_error refused with failed | ⟨given, mainDir, refused⟩
  · obtain ⟨cleared, rfl⟩ := needed_escape failed
    exact .mainDir cleared
  rcases bind_error refused with failed | ⟨directory, -, refused⟩
  · obtain ⟨_, unknown, rfl⟩ := mapError_error failed
    cases given with
    | some given => cases unknown
    | none =>
      cases home : s.launcherDirectory with
      | some directory => simp [mainDirOf, home] at unknown
      | none =>
        simp only [mainDirOf, home, Option.or_none] at unknown
        cases unknown
        exact .homeless (Setting.needed_ok (mapError_ok_iff.mp mainDir)) home
  rcases bind_error refused with failed | ⟨seconds, timeout, refused⟩
  · obtain ⟨cleared, rfl⟩ := needed_escape failed
    exact .timeoutValue cleared
  rcases bind_error refused with failed | ⟨timeout', -, refused⟩
  · obtain ⟨e, unfit, rfl⟩ := mapError_error failed
    cases seconds with
    | none => cases unfit
    | some x =>
      rcases bind_error unfit with unfit | ⟨_, -, unfit⟩
      · exact .timeout (Setting.needed_ok (mapError_ok_iff.mp timeout)) unfit
      · cases unfit
  · cases refused

end Preparation

namespace Execution

/-- What a command is carried out with. -/
def settings (s : Surroundings) (options : Options) (p : Preparation) : CommandSettings :=
  ⟨s.machine, Directories.ofMain p.mainDir options.workDir.value?, !options.workDir.isCleared,
    options.verbosity ≠ 0, s.process⟩

/-- What a command comes to before it is concluded. -/
def performed (s : Surroundings) (options : Options) (p : Preparation) (command : Command)
    (w : World) : Except Fault Int × CommandState :=
  let c := settings s options p
  (command.perform c).run.run
    ⟨{ w with index := .unknown (some c.directories.indexFile) VersionIndex.officialUrl }, [], []⟩

/-- What is shown has a line that tells of a fault. -/
def Shows (columns : Nat) (kind : OutputKind) (f : Fault) (shown : String) : Prop :=
  ∃ displays message, f.report? = some displays ∧
    [.task (some f.state) message, .finish] <:+: displays ∧ ∃ before blanks after,
      shown = before ++ Output.lineText (kind = .colored) columns f.state message blanks ++ after

/-- How a command line that does not run the game ends. -/
inductive Ending (s : Surroundings) (options : Options) (command : Command) (w : World)
    (e : Execution) : Prop
  /-- It is not carried out, since an option is of no use or no directory is known. -/
  | unprepared {escape : Escape} (lacks : Preparation.Lacks s options escape)
      (escapes : e.result = .error escape)
  | succeeded {p : Preparation} (prepared : Preparation.ofOptions s options = .ok p)
      (outcome : (performed s options p command w).1 = .ok Command.exitOk)
      (code : e.result = .ok Command.exitOk)
  /-- A fault is told in a line of its own. -/
  | told {p : Preparation} {f : Fault} (prepared : Preparation.ofOptions s options = .ok p)
      (outcome : (performed s options p command w).1 = .error f) (told : f.IsTold)
      (shown : Shows s.columns p.output f e.shown) (code : e.result = .ok Command.exitFailure)
  /-- A fault slips through, and nothing is told of it. -/
  | slipped {p : Preparation} {f : Fault} (prepared : Preparation.ofOptions s options = .ok p)
      (outcome : (performed s options p command w).1 = .error f)
      (slips : command.Slips (settings s options p) f) (escapes : e.result = .error (.fault f))
  /-- The downloads of an installation go on for ever. -/
  | endless {p : Preparation} (prepared : Preparation.ofOptions s options = .ok p)
      (outcome : (performed s options p command w).1 = .error (.batch .unending))
      (installs : command.installs = true)

variable {s : Surroundings} {options : Options} {p : Preparation} {command : Command} {w : World}

theorem ofCommand_eq {outcome : Except Fault Int} {state : CommandState}
    (ran : performed s options p command w = (outcome, state)) :
    (ofCommand s options p command w).1 =
      ⟨(Command.conclude outcome).1.mapError .fault,
        ((Output.ofKind p.output).writeAll s.columns
          (state.shown ++ (Command.conclude outcome).2)).1, none, p.timeout, state.processes⟩ := by
  unfold performed settings at ran
  unfold ofCommand
  simp only [ran]

theorem report_shows {f : Fault} {displays : List Display} (told : f.report? = some displays)
    (kind : OutputKind) (columns : Nat) (before : List Display) :
    Shows columns kind f
      ((Output.ofKind kind).writeAll columns (before ++ displays)).1 := by
  obtain ⟨message, line⟩ := Fault.report_line told
  have line' : [.task (some f.state) message, .finish] <:+: before ++ displays :=
    line.trans (List.suffix_append before displays).isInfix
  exact ⟨displays, message, told, line, Output.writeAll_shows columns (.ofKind kind) line'⟩

theorem ofCommand_ending (prepared : Preparation.ofOptions s options = .ok p)
    (dry : command.IsDry) :
    (ofCommand s options p command w).1.Ending s options command w := by
  rcases ran : performed s options p command w with ⟨outcome, state⟩
  have same := ofCommand_eq ran
  have left : (performed s options p command w).1 = outcome := congrArg Prod.fst ran
  cases outcome with
  | ok code =>
    obtain rfl : code = Command.exitOk := Command.perform_code dry _ trivial _ _ ran
    exact .succeeded prepared left (by rw [same]; rfl)
  | error f =>
    rcases (Command.perform_endsBy dry _ trivial).2 f left with told | slips | ⟨rfl, installs⟩
    · obtain ⟨displays, report⟩ := told.report
      have concluded : Command.conclude (.error f) = (.ok Command.exitFailure, displays) := by
        simp only [Command.conclude, report]
      rw [concluded] at same
      refine .told prepared left told ?_ (by rw [same]; rfl)
      rw [same]
      exact report_shows report _ _ _
    · have concluded : Command.conclude (.error f) = (.error f, []) := by
        simp only [Command.conclude, slips.untold]
      rw [concluded] at same
      exact .slipped prepared left slips (by rw [same]; rfl)
    · exact .endless prepared left installs

/-- A terminal of a player whose main directory is known. -/
def atHome : Surroundings :=
  ⟨⟨⟨some "linux", some "x86_64", some 64, ""⟩, none⟩, some (.ofText "home"), 80,
    ⟨0, 0, none, false⟩⟩

/-- No files, and a network that has this to say when it is asked for the index of versions. -/
def answering (reply : Reply) : World :=
  ⟨.empty, ⟨[(VersionIndex.officialUrl, [reply])], [], 0⟩, .unknown none ""⟩

def installing : Options := { Options.default with command := some (.install ⟨false, "1.0"⟩) }

def searching : Options := { Options.default with command := some (.search (some "release")) }

theorem read_of_toOption {arguments : List String} {options : Options}
    (some : (Options.read arguments).toOption = some options) :
    Options.read arguments = .ok options := by
  generalize Options.read arguments = result at some ⊢
  cases result <;> cases some
  rfl

set_option maxRecDepth 100000 in
theorem installing_read : Options.read ["install", "1.0"] = .ok installing :=
  read_of_toOption (by decide +kernel)

set_option maxRecDepth 100000 in
theorem searching_read : Options.read ["search", "release"] = .ok searching :=
  read_of_toOption (by decide +kernel)

/-- An index whose latest versions are no object. -/
def latestList : World :=
  answering (.response 200 [] (Bytes.ofText "\x7b\"latest\":[]\x7d") none)

def slipsLatest (result : Except Escape Int) : Bool :=
  match result with
  | .error (.fault .latestNotObject) => true
  | _ => false

set_option maxRecDepth 100000 in
theorem latestList_slips :
    slipsLatest (execute atHome ["search", "release"] latestList).1.result = true := by
  decide +kernel

end Execution

end Launcher
