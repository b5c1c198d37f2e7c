import Launcher.Launch.Phase
import Mathlib.Data.List.Forall2
import Mathlib.Data.List.Induction

/-! What evaluating an argument tree comes to. Each literal that the rules on the way to it include
gives one item, in the order of the tree, and literals that are left out give nothing, not even the
names of their placeholders. -/
namespace Launcher

namespace Phase

/-- The literals of a tree that the rules on the way to them include, from left to right. -/
inductive Reaches (phase : Phase) : Argument → List String → Prop
  | literal (text : String) : Reaches phase (.literal text) [text]
  | excluded {rules : List Rule} {value : Argument} :
      phase.includes rules = .ok false → Reaches phase (.conditional rules value) []
  | included {rules : List Rule} {value : Argument} {texts : List String} :
      phase.includes rules = .ok true → Reaches phase value texts →
      Reaches phase (.conditional rules value) texts
  | nil : Reaches phase (.list []) []
  | cons {first : Argument} {rest : List Argument} {texts others : List String} :
      Reaches phase first texts → Reaches phase (.list rest) others →
      Reaches phase (.list (first :: rest)) (texts ++ others)

/-- What a literal gives: an empty place if it names a dropped placeholder, else its text with the
values put in. -/
def item (phase : Phase) (text : String) : Except UnresolvedPlaceholder (Option String) :=
  if (Template.names text).any (phase.dropped.contains ·) then .ok none
  else (Template.substitute text phase.replacements).map some

/-- Literals and what they give, one by one. -/
abbrev Yields (phase : Phase) : List String → List (Option String) → Prop :=
  List.Forall₂ fun text item => phase.item text = .ok item

end Phase

namespace Evaluation

/-- A state after some more literals, which gave the items. -/
def add (state : Evaluation) (texts : List String) (items : List (Option String)) : Evaluation :=
  ⟨state.items ++ items, state.names ++ texts.flatMap Template.names⟩

@[simp] theorem add_nil (state : Evaluation) : state.add [] [] = state := by
  simp [add]

@[simp] theorem add_add (state : Evaluation) (texts texts' : List String)
    (items items' : List (Option String)) :
    (state.add texts items).add texts' items' = state.add (texts ++ texts') (items ++ items') := by
  simp [add]

/-- Items none of which is dropped are the arguments. -/
theorem collapse_map_some (values : List String) : collapse (values.map some) = values := by
  induction values using List.reverseRecOn with
  | nil => rfl
  | append_singleton values value ih =>
    unfold collapse at ih ⊢
    rw [List.map_append, List.map_singleton, List.foldl_concat]
    simp only
    rw [ih]

end Evaluation

namespace Phase
variable {phase : Phase} {a : Argument} {items : List Argument} {state state' : Evaluation}

theorem push_ok_iff {text : String} : phase.push text state = (.ok (), state') ↔
    ∃ item, phase.item text = .ok item ∧ state' = state.add [text] [item] := by
  unfold push item
  simp only
  split
  · simp [Evaluation.add, eq_comm]
  · rcases Template.substitute text phase.replacements with e | filled
    · simp [Except.map]
    · simp [Except.map, Evaluation.add, eq_comm]

theorem Yields.split {texts others : List String} {items : List (Option String)}
    (given : phase.Yields (texts ++ others) items) :
    ∃ first rest, phase.Yields texts first ∧ phase.Yields others rest ∧ items = first ++ rest := by
  induction texts generalizing items with
  | nil => exact ⟨[], items, .nil, given, rfl⟩
  | cons text texts ih =>
    obtain ⟨item, others, one, left, rfl⟩ := List.forall₂_cons_left_iff.mp given
    obtain ⟨first, rest, begun, ended, rfl⟩ := ih left
    exact ⟨item :: first, rest, .cons one begun, ended, rfl⟩

/-- An evaluation that ends well went through the literals that are included. -/
theorem evaluate_ok (a : Argument) : ∀ state state', phase.evaluate a state = (.ok (), state') →
    ∃ texts items, phase.Reaches a texts ∧ phase.Yields texts items ∧
      state' = state.add texts items := by
  -- on trees, and on lists of trees as they are evaluated
  refine Argument.rec
    (motive_1 := fun a => ∀ state state', phase.evaluate a state = (.ok (), state') →
      ∃ texts items, phase.Reaches a texts ∧ phase.Yields texts items ∧
        state' = state.add texts items)
    (motive_2 := fun list => ∀ state state', phase.evaluateAll list state = (.ok (), state') →
      ∃ texts items, phase.Reaches (.list list) texts ∧ phase.Yields texts items ∧
        state' = state.add texts items) ?_ ?_ ?_ ?_ ?_ a
  · intro text state state' ended
    obtain ⟨item, given, rfl⟩ := push_ok_iff.mp ended
    exact ⟨[text], [item], .literal text, .cons given .nil, rfl⟩
  · intro rules value ih state state' ended
    rw [evaluate] at ended
    split at ended
    · cases ended
    · rename_i excluded
      cases ended
      exact ⟨[], [], .excluded excluded, .nil, by simp⟩
    · rename_i included
      obtain ⟨texts, items, reached, given, rfl⟩ := ih state state' ended
      exact ⟨texts, items, .included included reached, given, rfl⟩
  · intro list ih state state' ended
    rw [evaluate] at ended
    exact ih state state' ended
  · intro state state' ended
    cases ended
    exact ⟨[], [], .nil, .nil, by simp⟩
  · intro first rest ihFirst ihRest state state' ended
    rw [evaluateAll] at ended
    split at ended
    · cases ended
    · rename_i middle began
      obtain ⟨texts, items, reached, given, rfl⟩ := ihFirst state middle began
      obtain ⟨texts', items', reached', given', rfl⟩ := ihRest _ state' ended
      refine ⟨texts ++ texts', items ++ items', .cons reached reached', ?_, ?_⟩
      · exact List.rel_append given given'
      · rw [Evaluation.add_add]

/-- If each literal that is included gives an item, the evaluation ends well. -/
theorem Reaches.evaluate {texts : List String} (reached : phase.Reaches a texts) :
    ∀ state items, phase.Yields texts items →
      phase.evaluate a state = (.ok (), state.add texts items) := by
  induction reached with
  | literal text =>
    intro state items given
    obtain ⟨item, none, one, done, rfl⟩ := List.forall₂_cons_left_iff.mp given
    cases done
    exact push_ok_iff.mpr ⟨item, one, rfl⟩
  | excluded excluded =>
    intro state items given
    cases given
    simp [Phase.evaluate, excluded]
  | included included _ ih =>
    intro state items given
    rw [Phase.evaluate]
    simp only [included]
    exact ih state items given
  | nil =>
    intro state items given
    cases given
    simp [Phase.evaluate, Phase.evaluateAll]
  | @cons first rest texts others _ _ ihFirst ihRest =>
    intro state items given
    obtain ⟨items, items', givenFirst, givenRest, rfl⟩ := given.split
    have later := ihRest (state.add texts items) items' givenRest
    rw [Phase.evaluate] at later ⊢
    rw [Phase.evaluateAll, ihFirst state items givenFirst]
    simp only [later, Evaluation.add_add]

/-- Arguments are what the items of the included literals leave. -/
theorem arguments_ok_iff {values : List String} {evaluation : Evaluation} :
    phase.arguments a = (.ok values, evaluation) ↔
      ∃ texts items, phase.Reaches a texts ∧ phase.Yields texts items ∧
        evaluation = Evaluation.empty.add texts items ∧ values = Evaluation.collapse items := by
  unfold arguments
  constructor
  · intro ended
    split at ended
    · cases ended
    · rename_i middle ran
      cases ended
      obtain ⟨texts, items, reached, given, rfl⟩ := evaluate_ok a _ _ ran
      exact ⟨texts, items, reached, given, rfl, rfl⟩
  · rintro ⟨texts, items, reached, given, rfl, rfl⟩
    rw [reached.evaluate _ _ given]
    rfl

/-- Where nothing is dropped, each literal gives its text with the values put in. -/
theorem yields_iff_of_undropped (undropped : phase.dropped = []) {texts : List String}
    {items : List (Option String)} :
    phase.Yields texts items ↔ ∃ values : List String, items = values.map some ∧
      texts.Forall₂ (Template.substitute · phase.replacements = .ok ·) values := by
  have item_eq (text : String) :
      phase.item text = (Template.substitute text phase.replacements).map some := by
    simp [item, undropped]
  constructor
  · intro given
    induction given with
    | nil => exact ⟨[], rfl, .nil⟩
    | @cons text item _ _ given _ ih =>
      obtain ⟨values, rfl, rest⟩ := ih
      rw [item_eq] at given
      rcases filled : Template.substitute text phase.replacements with e | value
      · rw [filled] at given
        cases given
      · rw [filled] at given
        cases given
        exact ⟨value :: values, rfl, .cons filled rest⟩
  · rintro ⟨values, rfl, given⟩
    induction given with
    | nil => exact .nil
    | cons filled _ ih =>
      refine .cons ?_ ih
      rw [item_eq, filled]
      rfl

end Phase
end Launcher
