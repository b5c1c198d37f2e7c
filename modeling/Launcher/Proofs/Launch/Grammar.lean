import Launcher.Launch.Argument
import Launcher.Proofs.Metadata.Rules

/-! The grammar of arguments in documents: texts, lists of arguments, and objects that put an
argument under rules. The reader keeps to it, and reads back every tree from its document. -/
namespace Launcher.Argument

inductive IsForm : Json → Prop
  | string (text : String) : IsForm (.string text)
  | list {items : List Json} (each : ∀ v ∈ items, IsForm v) : IsForm (.list items)
  | object {members : Members} {value : Json}
      (rules : ∀ v, members.get? "rules" = some v → Rule.AreForms v)
      (given : members.get? "value" = some value) (inside : IsForm value) :
      IsForm (.object members)

/-- The first place of an argument that is not as it must be, and what must be there. Items are
taken in their order, and of an object the rules come before the value. -/
inductive Fault : Json → List Step → Need → Prop
  | argument {v : Json} (noText : ∀ text, v ≠ .string text) (noList : ∀ items, v ≠ .list items)
      (noObject : ∀ members, v ≠ .object members) : Fault v [] .argument
  | item {before after : List Json} {v : Json} {steps : List Step} {need : Need}
      (passed : ∀ other ∈ before, IsForm other) (fault : Fault v steps need) :
      Fault (.list (before ++ v :: after)) (.item before.length :: steps) need
  | rules {members : Members} {v : Json} {steps : List Step} {need : Need}
      (given : members.get? "rules" = some v) (fault : Rule.ListFault v steps need) :
      Fault (.object members) (.member "rules" :: steps) need
  | missing {members : Members} (rules : ∀ v, members.get? "rules" = some v → Rule.AreForms v)
      (missing : members.get? "value" = none) :
      Fault (.object members) [.member "value"] .listOrString
  | value {members : Members} {v : Json} {steps : List Step} {need : Need}
      (rules : ∀ v, members.get? "rules" = some v → Rule.AreForms v)
      (given : members.get? "value" = some v) (fault : Fault v steps need) :
      Fault (.object members) (.member "value" :: steps) need

theorem parseItems_eq (place : Place) (i : Nat) (items : List Json) :
    parseItems place i items = readItems parse place i items := by
  induction items generalizing i with
  | nil => rfl
  | cons v rest ih =>
    rw [parseItems, readItems, ih]
    cases parse v (place.item i) <;> rfl

theorem parse_list (items : List Json) (place : Place) :
    parse (.list items) place = (readItems parse place 0 items).map .list := by
  rw [parse, parseItems_eq]

theorem parseValue_eq (place : Place) (members : Members) :
    parseValue place members = match members.get? "value" with
      | none => .error ⟨place.member "value", .listOrString⟩
      | some v => parse v (place.member "value") := by
  induction members with
  | nil => rfl
  | cons member rest ih =>
    obtain ⟨name, v⟩ := member
    by_cases here : name = "value"
    · simp [parseValue, Members.get?, here]
    · simp [parseValue, Members.get?, here, ih]

/-- Reads the rules of an object, which has none if it does not name them. -/
def readRules (members : Members) (place : Place) : Except Malformed (List Rule) :=
  Rule.parseList ((members.get? "rules").getD (.list [])) (place.member "rules")

theorem parse_object (members : Members) (place : Place) : parse (.object members) place = (do
    let rules ← readRules members place
    (parseValue place members).map (.conditional rules)) := by
  rw [parse, readRules]
  cases Rule.parseList ((members.get? "rules").getD (.list [])) (place.member "rules") <;> rfl

theorem readRules_ok {members : Members}
    (formed : ∀ v, members.get? "rules" = some v → Rule.AreForms v) :
    ∃ rules, ∀ place, readRules members place = .ok rules := by
  obtain ⟨rules, read⟩ := Rule.parseList_member formed
  exact ⟨rules, fun place => read (place.member "rules")⟩

theorem accepts {v : Json} (form : IsForm v) : ∃ a, ∀ place, parse v place = .ok a := by
  induction form with
  | string text => exact ⟨.literal text, fun _ => by rw [parse]⟩
  | list _ ih =>
    obtain ⟨all, read⟩ := readItems_ok ih
    exact ⟨.list all, fun place => by rw [parse_list, read]; rfl⟩
  | object formed given _ ih =>
    obtain ⟨rules, guarded⟩ := readRules_ok formed
    obtain ⟨a, inside⟩ := ih
    refine ⟨.conditional rules a, fun place => ?_⟩
    simp [parse_object, parseValue_eq, guarded, given, inside, bind, Except.bind, Except.map]

theorem refuses {v : Json} {steps : List Step} {need : Need} (fault : Fault v steps need)
    (place : Place) : parse v place = .error ⟨place.along steps, need⟩ := by
  induction fault generalizing place with
  | @argument v noText noList noObject =>
    cases v with
    | string text => exact absurd rfl (noText text)
    | list items => exact absurd rfl (noList items)
    | object members => exact absurd rfl (noObject members)
    | _ => rw [parse, Place.along_nil] <;> exact nofun
  | item passed _ ih =>
    rw [parse_list, readItems_error (fun other member => accepts (passed other member)) ih,
      Nat.zero_add]
    rfl
  | rules given fault =>
    simp [parse_object, readRules, given, Rule.parseList_keepsTo.refuses fault, bind, Except.bind]
  | missing formed missing =>
    obtain ⟨rules, guarded⟩ := readRules_ok formed
    simp [parse_object, parseValue_eq, guarded, missing, bind, Except.bind, Except.map,
      Place.member_eq]
  | value formed given _ ih =>
    obtain ⟨rules, guarded⟩ := readRules_ok formed
    simp [parse_object, parseValue_eq, guarded, given, ih, bind, Except.bind, Except.map]

theorem decides (v : Json) : IsForm v ∨ ∃ steps need, Fault v steps need := by
  induction v using Json.induction with
  | simple v noList noObject =>
    by_cases text : ∃ text, v = .string text
    · obtain ⟨text, rfl⟩ := text
      exact .inl (.string text)
    · exact .inr ⟨_, _, .argument (fun s same => text ⟨s, same⟩) noList noObject⟩
  | list items ih =>
    rcases forall_or_first IsForm items with each | ⟨before, v, after, rfl, passed, other⟩
    · exact .inl (.list each)
    · obtain ⟨_, _, fault⟩ := (ih v (by simp)).resolve_left other
      exact .inr ⟨_, _, .item passed fault⟩
  | object members ih =>
    by_cases formed : ∀ v, members.get? "rules" = some v → Rule.AreForms v
    · cases given : members.get? "value" with
      | none => exact .inr ⟨_, _, .missing formed given⟩
      | some v =>
        rcases ih ("value", v) (Members.mem_of_get? given) with inside | ⟨_, _, fault⟩
        · exact .inl (.object formed given inside)
        · exact .inr ⟨_, _, .value formed given fault⟩
    · obtain ⟨v, unformed⟩ := Classical.not_forall.mp formed
      obtain ⟨given, other⟩ := Classical.not_imp.mp unformed
      obtain ⟨_, _, fault⟩ := (Rule.parseList_keepsTo.decides v).resolve_left other
      exact .inr ⟨_, _, .rules given fault⟩

theorem Fault.amiss {v : Json} {steps : List Step} {need : Need} (fault : Fault v steps need) :
    v.IsAmiss steps need := by
  induction fault with
  | @argument v noText noList noObject =>
    refine .here ?_
    cases v with
    | string text => exact absurd rfl (noText text)
    | list items => exact absurd rfl (noList items)
    | object members => exact absurd rfl (noObject members)
    | _ => rfl
  | item _ _ ih => exact ih.item
  | rules given fault =>
    exact (Rule.parseList_keepsTo.amiss fault).member (Members.mem_of_get? given)
  | missing _ missing => exact .absent missing
  | value _ given _ ih => exact ih.member (Members.mem_of_get? given)

theorem parse_keepsTo : KeepsTo parse IsForm Fault := ⟨accepts, refuses, decides, Fault.amiss⟩

mutual

/-- An argument as documents have it. -/
def json : Argument → Json
  | .literal text => .string text
  | .conditional rules value =>
    .object [("rules", .list (rules.map Rule.json)), ("value", json value)]
  | .list items => .list (jsonItems items)

def jsonItems : List Argument → List Json
  | [] => []
  | a :: rest => json a :: jsonItems rest

end

theorem parse_json (a : Argument) (place : Place) : parse a.json place = .ok a := by
  refine Argument.rec (motive_1 := fun a => ∀ place, parse a.json place = .ok a)
    (motive_2 := fun items => ∀ place i, readItems parse place i (jsonItems items) = .ok items)
    ?literal ?conditional ?list ?nil ?cons a place
  case literal =>
    intro text place
    rw [json, parse]
  case conditional =>
    intro rules value inside place
    simp [json, parse_object, parseValue_eq, readRules, Members.get?, Rule.parseList_json, inside,
      bind, Except.bind, Except.map]
  case list =>
    intro items each place
    rw [json, parse_list, each]
    rfl
  case nil => exact fun _ _ => rfl
  case cons =>
    intro first rest begun others place i
    simp [jsonItems, readItems, begun, others, bind, Except.bind, pure, Except.pure]

/-- The reader of arguments accepts the grammar and nothing else. What it refuses has one fault, in
the order of the document: the error tells it, and its path leads to what is amiss. Every tree is
what is read from its own document. -/
theorem parse_of_grammar (v : Json) (place : Place) :
    ((∃ a, parse v place = .ok a) ↔ IsForm v) ∧
    (¬ IsForm v → ∃ steps need, Fault v steps need ∧
      (∀ steps' need', Fault v steps' need' → steps' = steps ∧ need' = need) ∧
      v.IsAmiss steps need ∧ parse v place = .error ⟨place.along steps, need⟩ ∧
      (⟨place.along steps, need⟩ : Malformed).message =
        place.text ++ String.join (steps.map Place.stepText) ++ " must be " ++ need.text) ∧
    ∀ a : Argument, parse a.json place = .ok a := by
  refine ⟨parse_keepsTo.ok_iff, fun other => ?_, fun a => parse_json a place⟩
  obtain ⟨steps, need, fault⟩ := (decides v).resolve_left other
  refine ⟨steps, need, fault, fun _ _ => parse_keepsTo.unique fault, fault.amiss,
    refuses fault place, ?_⟩
  rw [← Place.text_along, Malformed.message]
  rfl

/-- An argument under a rule that asks for the demo by a number, and without a value. -/
def numberedDemo : Json := .object [("rules", .list [.object
  [("action", .string "allow"), ("features", .object [("is_demo_user", .int 1)])]])]

theorem numberedDemo_refused : ¬ IsForm (.list [.string "-cp", numberedDemo]) ∧
    ∃ e, parse (.list [.string "-cp", numberedDemo]) (.ofText "game") = .error e ∧
      e.message = "game/1/rules/0/features/is_demo_user must be a boolean" := by
  have features : Rule.FeaturesFault (.object ([] ++ [("is_demo_user", .int 1)]))
      [.member "is_demo_user"] .boolean := .boolean nofun nofun
  have rule : Rule.Fault (.object [("action", .string "allow"), ("features", _)]) _ .boolean :=
    .features (show _ = Json.string RuleAction.allow.text from rfl) .null rfl features
  have rules : Rule.ListFault (.list ([] ++ [_])) _ .boolean := .item nofun rule
  have guarded : Fault (.object [("rules", _)]) _ .boolean := .rules rfl rules
  have fault : Fault (.list ([.string "-cp"] ++ [numberedDemo])) _ .boolean :=
    .item (by simp [IsForm.string]) guarded
  obtain ⟨accepted, refused, -⟩ := parse_of_grammar (.list [.string "-cp", numberedDemo])
    (.ofText "game")
  have other : ¬ IsForm (.list [.string "-cp", numberedDemo]) := fun form => by
    obtain ⟨a, read⟩ := accepted.mpr form
    cases read.symm.trans (refuses fault (.ofText "game"))
  obtain ⟨steps, need, -, only, -, error, message⟩ := refused other
  obtain ⟨rfl, rfl⟩ := only _ _ fault
  exact ⟨other, _, error, message.trans rfl⟩

end Launcher.Argument
