import Launcher.Proofs.Action
import Launcher.Proofs.Launch.Evaluation
import Launcher.Proofs.Launch.Template

/-! An argument tree means the list of its literals that the rules include, and is evaluated as that
list is. Each literal gives one item, up to the first one that wants a value which is not there. -/
namespace Launcher

/-- The expression for the system's version, if there is one, can be read. -/
def Rule.IsReadable (rule : Rule) : Prop :=
  ∀ expression ∈ rule.osVersion, (Pattern.parse expression.toList).toBool

/-- The expressions of all rules in a tree can be read. -/
inductive Argument.IsReadable : Argument → Prop
  | literal (text : String) : IsReadable (.literal text)
  | conditional {rules : List Rule} {value : Argument} (readable : ∀ rule ∈ rules, rule.IsReadable)
      (inside : IsReadable value) : IsReadable (.conditional rules value)
  | list {items : List Argument} (inside : ∀ a ∈ items, IsReadable a) : IsReadable (.list items)

namespace Rule

theorem isMatch_ok {rule : Rule} (readable : rule.IsReadable) (version : String)
    (features : Features) (osName osArch : Option String) :
    ∃ isMatch, rule.isMatch version features osName osArch = .ok isMatch := by
  unfold isMatch
  split
  · exact ⟨_, rfl⟩
  · split
    · exact ⟨_, rfl⟩
    · split
      · exact ⟨_, rfl⟩
      · rename_i expression given
        obtain ⟨e, parsed⟩ := exists_ok_of_toBool (readable expression given)
        simp only [searchPattern, parsed]
        exact ⟨_, rfl⟩

theorem verdictFrom_ok {rules : List Rule} (readable : ∀ rule ∈ rules, rule.IsReadable)
    (version : String) (features : Features) (osName osArch : Option String) (verdict : Bool) :
    ∃ final, verdictFrom version features osName osArch verdict rules = .ok final := by
  induction rules generalizing verdict with
  | nil => exact ⟨verdict, rfl⟩
  | cons rule rest ih =>
    obtain ⟨isMatch, matched⟩ := isMatch_ok (readable rule List.mem_cons_self) version features
      osName osArch
    have later := ih fun other member => readable other (List.mem_cons_of_mem rule member)
    rw [verdictFrom, matched]
    cases isMatch
    · exact later verdict
    · exact later _

end Rule

namespace Phase
variable {phase : Phase} {a : Argument} {texts others : List String} {text : String}

theorem includes_ok {rules : List Rule} (readable : ∀ rule ∈ rules, rule.IsReadable)
    (phase : Phase) : ∃ included, phase.includes rules = .ok included := by
  obtain ⟨verdict, final⟩ := Rule.verdictFrom_ok readable phase.platform.version phase.features
    phase.platform.os phase.platform.arch true
  exact ⟨_, congrArg (Except.map _) final⟩

theorem exists_reaches_list {items : List Argument}
    (each : ∀ a ∈ items, ∃ texts, phase.Reaches a texts) :
    ∃ texts, phase.Reaches (.list items) texts := by
  induction items with
  | nil => exact ⟨[], .nil⟩
  | cons first rest ih =>
    obtain ⟨texts, reached⟩ := each first List.mem_cons_self
    obtain ⟨others, reached'⟩ := ih fun a member => each a (List.mem_cons_of_mem first member)
    exact ⟨texts ++ others, .cons reached reached'⟩

/-- A tree has a list of included literals. -/
theorem exists_reaches (readable : a.IsReadable) (phase : Phase) :
    ∃ texts, phase.Reaches a texts := by
  induction readable with
  | literal text => exact ⟨[text], .literal text⟩
  | conditional readable _ ih =>
    obtain ⟨included, ran⟩ := includes_ok readable phase
    cases included with
    | false => exact ⟨[], .excluded ran⟩
    | true =>
      obtain ⟨texts, reached⟩ := ih
      exact ⟨texts, .included ran reached⟩
  | list _ ih => exact exists_reaches_list ih

/-- A tree has no other list of included literals. -/
theorem Reaches.unique (reached : phase.Reaches a texts) (reached' : phase.Reaches a others) :
    others = texts := by
  induction reached generalizing others with
  | literal text =>
    cases reached'
    rfl
  | excluded excluded =>
    cases reached' with
    | excluded => rfl
    | included included => cases excluded.symm.trans included
  | included included _ ih =>
    cases reached' with
    | excluded excluded => cases excluded.symm.trans included
    | included _ reached' => exact ih reached'
  | nil =>
    cases reached'
    rfl
  | cons _ _ ihFirst ihRest =>
    cases reached' with
    | cons first rest => rw [ihFirst first, ihRest rest]

theorem evaluateAll_append (items items' : List Argument) (state : Evaluation) :
    phase.evaluateAll (items ++ items') state =
      match phase.evaluateAll items state with
      | (.error e, state) => (.error e, state)
      | (.ok (), state) => phase.evaluateAll items' state := by
  induction items generalizing state with
  | nil => rfl
  | cons first rest ih =>
    rw [List.cons_append, evaluateAll, evaluateAll]
    rcases phase.evaluate first state with ⟨e | _, state'⟩
    · rfl
    · exact ih state'

theorem evaluateAll_singleton (a : Argument) (state : Evaluation) :
    phase.evaluateAll [a] state = phase.evaluate a state := by
  rw [evaluateAll]
  rcases phase.evaluate a state with ⟨e | _, state'⟩ <;> rfl

theorem reaches_literals (texts : List String) :
    phase.Reaches (.list (texts.map .literal)) texts := by
  induction texts with
  | nil => exact .nil
  | cons text rest ih => exact .cons (.literal text) ih

theorem evaluateAll_literals {items : List (Option String)} (given : phase.Yields texts items)
    (state : Evaluation) :
    phase.evaluateAll (texts.map .literal) state = (.ok (), state.add texts items) := by
  have ended := (reaches_literals texts).evaluate state items given
  rwa [evaluate] at ended

/-- A tree is evaluated as the list of its included literals. -/
theorem Reaches.evaluate_eq (reached : phase.Reaches a texts) (state : Evaluation) :
    phase.evaluate a state = phase.evaluateAll (texts.map .literal) state := by
  induction reached generalizing state with
  | literal text => exact (evaluateAll_singleton (.literal text) state).symm
  | excluded excluded =>
    rw [Phase.evaluate, excluded]
    rfl
  | included included _ ih =>
    rw [Phase.evaluate, included]
    exact ih state
  | nil => rfl
  | @cons first rest texts others _ _ ihFirst ihRest =>
    rw [Phase.evaluate, evaluateAll, List.map_append, evaluateAll_append, ihFirst]
    rcases phase.evaluateAll (texts.map .literal) state with ⟨e | _, state'⟩
    · rfl
    · have later := ihRest state'
      rw [Phase.evaluate] at later
      exact later

/-- A literal names no dropped placeholder, but one that has no value. -/
def Lacks (phase : Phase) (text : String) : Prop :=
  (∀ name ∈ Template.names text, name ∉ phase.dropped) ∧
    ¬ phase.replacements.Knows (Template.names text)

theorem item_ok (whole : ¬ phase.Lacks text) : ∃ item, phase.item text = .ok item := by
  unfold item
  split
  · exact ⟨none, rfl⟩
  · rename_i undropped
    have known : phase.replacements.Knows (Template.names text) := by
      by_contra lacking
      exact whole ⟨by simpa using undropped, lacking⟩
    rw [Template.substitute_ok_iff.mpr ⟨known, rfl⟩]
    exact ⟨_, rfl⟩

/-- Literals all of which have values give items. -/
theorem exists_yields (whole : ∀ text ∈ texts, ¬ phase.Lacks text) :
    ∃ items, phase.Yields texts items := by
  induction texts with
  | nil => exact ⟨[], .nil⟩
  | cons text rest ih =>
    obtain ⟨item, one⟩ := item_ok (whole text List.mem_cons_self)
    obtain ⟨items, others⟩ := ih fun other member => whole other (List.mem_cons_of_mem text member)
    exact ⟨item :: items, .cons one others⟩

/-- A literal that lacks a value ends the evaluation, and its placeholders are taken note of. -/
theorem push_lacking (lacks : phase.Lacks text) (state : Evaluation) :
    ∃ name, phase.replacements.FirstLacks (Template.names text) name ∧
      phase.push text state = (.error (.unresolved ⟨name, text⟩),
        ⟨state.items, state.names ++ Template.names text⟩) := by
  obtain ⟨undropped, lacking⟩ := lacks
  have kept : ¬ (Template.names text).any (phase.dropped.contains ·) = true := by
    simpa using undropped
  obtain ⟨name, first⟩ := Replacements.not_knows_iff.mp lacking
  have failed : Template.substitute text phase.replacements = .error ⟨name, text⟩ :=
    Template.substitute_error_iff.mpr ⟨rfl, first⟩
  refine ⟨name, first, ?_⟩
  unfold push
  simp only [if_neg kept, failed]

/-- Literals all of which have values are all evaluated. -/
theorem Reaches.evaluate_whole (reached : phase.Reaches a texts)
    (whole : ∀ text ∈ texts, ¬ phase.Lacks text) (state : Evaluation) :
    ∃ items, phase.Yields texts items ∧
      phase.evaluate a state =
        (.ok (), ⟨state.items ++ items, state.names ++ texts.flatMap Template.names⟩) := by
  obtain ⟨items, given⟩ := exists_yields whole
  exact ⟨items, given, reached.evaluate state items given⟩

/-- The first literal that lacks a value ends the evaluation, behind the items of those before. -/
theorem Reaches.evaluate_lacking {before after : List String}
    (reached : phase.Reaches a (before ++ text :: after))
    (whole : ∀ other ∈ before, ¬ phase.Lacks other) (lacks : phase.Lacks text)
    (state : Evaluation) :
    ∃ items name, phase.Yields before items ∧
      phase.replacements.FirstLacks (Template.names text) name ∧
      phase.evaluate a state = (.error (.unresolved ⟨name, text⟩),
        ⟨state.items ++ items, state.names ++ (before ++ [text]).flatMap Template.names⟩) := by
  obtain ⟨items, given⟩ := exists_yields whole
  obtain ⟨name, first, ended⟩ := push_lacking lacks (state.add before items)
  refine ⟨items, name, given, first, ?_⟩
  rw [reached.evaluate_eq, List.map_append, evaluateAll_append, evaluateAll_literals given]
  simp only [List.map_cons, evaluateAll, Phase.evaluate, ended]
  simp [Evaluation.add]

theorem exists_first_lacking (lacking : ∃ text ∈ texts, phase.Lacks text) :
    ∃ before text after, texts = before ++ text :: after ∧
      (∀ other ∈ before, ¬ phase.Lacks other) ∧ phase.Lacks text := by
  induction texts with
  | nil =>
    obtain ⟨_, member, _⟩ := lacking
    cases member
  | cons text rest ih =>
    by_cases here : phase.Lacks text
    · exact ⟨[], text, rest, rfl, by simp, here⟩
    · obtain ⟨other, member, lacks⟩ := lacking
      rcases List.mem_cons.mp member with rfl | later
      · exact absurd lacks here
      · obtain ⟨before, text', after, rfl, whole, lacks'⟩ := ih ⟨other, later, lacks⟩
        refine ⟨text :: before, text', after, rfl, ?_, lacks'⟩
        simpa using ⟨here, whole⟩

/-- A tree with a value that is missing in a literal that is left out, and in one that names a
dropped placeholder. -/
def guarded : Argument := .list [
  .conditional [⟨.disallow, none, none, none, []⟩] (.literal "$\x7bunknown\x7d"),
  .list [.literal "--id", .literal "$\x7bid\x7d$\x7bunknown\x7d"],
  .conditional [⟨.disallow, none, none, some "^10", []⟩] (.literal "-v$\x7bversion\x7d")]

end Phase
end Launcher
