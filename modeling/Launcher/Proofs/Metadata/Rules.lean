import Launcher.Metadata.Rule
import Launcher.Proofs.Metadata.Places

/-! The grammar of rules in documents. A rule is an object with an action; what it says of systems
comes next, and the features it wants come last. -/
namespace Launcher.Rule

/-- What a rule may say of systems: nothing, or what any of three members tells. -/
inductive IsSystem : Json → Prop
  | null : IsSystem .null
  | object {os : Members} (name : (os.getD "name").IsTextOrNull)
      (arch : (os.getD "arch").IsTextOrNull) (version : (os.getD "version").IsTextOrNull) :
      IsSystem (.object os)

inductive SystemFault : Json → List Step → Need → Prop
  | object {v : Json} (given : v ≠ .null) (other : ∀ os, v ≠ .object os) : SystemFault v [] .object
  | name {os : Members} (other : ¬ (os.getD "name").IsTextOrNull) :
      SystemFault (.object os) [.member "name"] .string
  | arch {os : Members} (name : (os.getD "name").IsTextOrNull)
      (other : ¬ (os.getD "arch").IsTextOrNull) : SystemFault (.object os) [.member "arch"] .string
  | version {os : Members} (name : (os.getD "name").IsTextOrNull)
      (arch : (os.getD "arch").IsTextOrNull) (other : ¬ (os.getD "version").IsTextOrNull) :
      SystemFault (.object os) [.member "version"] .string

inductive IsFeatures : Json → Prop
  | object {features : Members} (each : ∀ feature ∈ features, ∃ b, feature.2 = .bool b) :
      IsFeatures (.object features)

inductive FeaturesFault : Json → List Step → Need → Prop
  | object {v : Json} (other : ∀ features, v ≠ .object features) : FeaturesFault v [] .object
  | boolean {before after : Members} {name : String} {v : Json}
      (passed : ∀ feature ∈ before, ∃ b, feature.2 = .bool b) (other : ∀ b, v ≠ .bool b) :
      FeaturesFault (.object (before ++ (name, v) :: after)) [.member name] .boolean

/-- A rule: an action, what it says of systems, and the features it wants, if it does. -/
inductive IsForm : Json → Prop
  | object {members : Members} {action : RuleAction}
      (action : members.getD "action" = .string action.text) (os : IsSystem (members.getD "os"))
      (features : ∀ v, members.get? "features" = some v → IsFeatures v) : IsForm (.object members)

/-- The first place of a rule that is not as it must be, and what must be there. -/
inductive Fault : Json → List Step → Need → Prop
  | object {v : Json} (other : ∀ members, v ≠ .object members) : Fault v [] .object
  | action {members : Members}
      (other : ∀ action : RuleAction, members.getD "action" ≠ .string action.text) :
      Fault (.object members) [.member "action"] .action
  | os {members : Members} {action : RuleAction} {steps : List Step} {need : Need}
      (action : members.getD "action" = .string action.text)
      (fault : SystemFault (members.getD "os") steps need) :
      Fault (.object members) (.member "os" :: steps) need
  | features {members : Members} {action : RuleAction} {v : Json} {steps : List Step} {need : Need}
      (action : members.getD "action" = .string action.text) (os : IsSystem (members.getD "os"))
      (given : members.get? "features" = some v) (fault : FeaturesFault v steps need) :
      Fault (.object members) (.member "features" :: steps) need

inductive AreForms : Json → Prop
  | list {rules : List Json} (each : ∀ rule ∈ rules, IsForm rule) : AreForms (.list rules)

inductive ListFault : Json → List Step → Need → Prop
  | list {v : Json} (other : ∀ rules, v ≠ .list rules) : ListFault v [] .list
  | item {before after : List Json} {rule : Json} {steps : List Step} {need : Need}
      (passed : ∀ other ∈ before, IsForm other) (fault : Fault rule steps need) :
      ListFault (.list (before ++ rule :: after)) (.item before.length :: steps) need

/-- Reads what a rule says of systems. -/
def readSystem (v : Json) (place : Place) :
    Except Malformed (Option String × Option String × Option String) :=
  match v with
  | .null => .ok (none, none, none)
  | v => do
    let os ← v.asObject place
    let name ← (os.getD "name").asString? (place.member "name")
    let arch ← (os.getD "arch").asString? (place.member "arch")
    let version ← (os.getD "version").asString? (place.member "version")
    .ok (name, arch, version)

def readFeatures (v : Json) (place : Place) : Except Malformed Features := do
  parseFeatures place (← v.asObject place)

theorem SystemFault.ne_null {v : Json} {steps : List Step} {need : Need}
    (fault : SystemFault v steps need) : v ≠ .null := by
  cases fault with
  | object given _ => exact given
  | _ => nofun

theorem readSystem_keepsTo : KeepsTo readSystem IsSystem SystemFault where
  accepts := by
    rintro _ (_ | ⟨name, arch, version⟩)
    · exact ⟨_, fun _ => rfl⟩
    · obtain ⟨n, name⟩ := Json.asString?_ok name
      obtain ⟨a, arch⟩ := Json.asString?_ok arch
      obtain ⟨v, version⟩ := Json.asString?_ok version
      refine ⟨(n, a, v), fun place => ?_⟩
      simp [readSystem, Json.asObject, name, arch, version, bind, Except.bind]
  refuses := by
    rintro _ _ _ (⟨given, other⟩ | other | ⟨name, other⟩ | ⟨name, arch, other⟩) place
    · unfold readSystem
      split
      · exact absurd rfl given
      · rw [Json.asObject_error other, Place.along_nil]
        rfl
    · simp [readSystem, Json.asObject, Json.asString?_error other, bind, Except.bind,
        Place.member_eq]
    · obtain ⟨n, name⟩ := Json.asString?_ok name
      simp [readSystem, Json.asObject, name, Json.asString?_error other, bind, Except.bind,
        Place.member_eq]
    · obtain ⟨n, name⟩ := Json.asString?_ok name
      obtain ⟨a, arch⟩ := Json.asString?_ok arch
      simp [readSystem, Json.asObject, name, arch, Json.asString?_error other, bind, Except.bind,
        Place.member_eq]
  decides v := by
    cases v with
    | null => exact .inl .null
    | object os =>
      by_cases name : (Members.getD os "name").IsTextOrNull
      · by_cases arch : (Members.getD os "arch").IsTextOrNull
        · by_cases version : (Members.getD os "version").IsTextOrNull
          · exact .inl (.object name arch version)
          · exact .inr ⟨_, _, .version name arch version⟩
        · exact .inr ⟨_, _, .arch name arch⟩
      · exact .inr ⟨_, _, .name name⟩
    | _ => exact .inr ⟨_, _, .object nofun nofun⟩
  amiss := by
    have text {os : Members} {name : String} (other : ¬ (os.getD name).IsTextOrNull) :
        (Json.object os).IsAmiss [.member name] .string := by
      refine .getD ?_
      cases given : os.getD name with
      | string text => exact absurd (.inr ⟨text, given⟩) other
      | _ => rfl
    rintro _ _ _ (⟨_, other⟩ | other | ⟨_, other⟩ | ⟨_, _, other⟩)
    · exact .here (Need.object_unmet other)
    · exact text other
    · exact text other
    · exact text other

theorem parseFeatures_ok {features : Members}
    (each : ∀ feature ∈ features, ∃ b, feature.2 = .bool b) :
    ∃ wanted, ∀ place, parseFeatures place features = .ok wanted := by
  induction features with
  | nil => exact ⟨[], fun _ => rfl⟩
  | cons feature rest ih =>
    obtain ⟨name, v⟩ := feature
    obtain ⟨b, rfl⟩ := each (name, v) List.mem_cons_self
    obtain ⟨others, later⟩ := ih fun other member => each other (List.mem_cons_of_mem _ member)
    exact ⟨(name, b) :: others, fun place => by rw [parseFeatures, later]; rfl⟩

theorem parseFeatures_error {before after : Members} {name : String} {v : Json}
    (passed : ∀ feature ∈ before, ∃ b, feature.2 = .bool b) (other : ∀ b, v ≠ .bool b)
    (place : Place) :
    parseFeatures place (before ++ (name, v) :: after) = .error ⟨place.member name, .boolean⟩ := by
  induction before with
  | nil =>
    rw [List.nil_append, parseFeatures]
    rintro b rfl
    exact other b rfl
  | cons feature rest ih =>
    obtain ⟨first, w⟩ := feature
    obtain ⟨b, rfl⟩ := passed (first, w) List.mem_cons_self
    have later := ih fun other member => passed other (List.mem_cons_of_mem _ member)
    rw [List.cons_append, parseFeatures, later]
    rfl

theorem readFeatures_keepsTo : KeepsTo readFeatures IsFeatures FeaturesFault where
  accepts := by
    rintro _ ⟨each⟩
    exact parseFeatures_ok each
  refuses := by
    rintro _ _ _ (other | ⟨passed, other⟩) place
    · rw [readFeatures, Json.asObject_error other, Place.along_nil]
      rfl
    · exact parseFeatures_error passed other place
  decides v := by
    cases v with
    | object features =>
      rcases forall_or_first (fun feature : String × Json => ∃ b, feature.2 = .bool b) features with
        each | ⟨before, ⟨name, v⟩, after, rfl, passed, other⟩
      · exact .inl (.object each)
      · exact .inr ⟨_, _, .boolean passed fun b same => other ⟨b, same⟩⟩
    | _ => exact .inr ⟨_, _, .object nofun⟩
  amiss := by
    rintro _ _ _ (other | @⟨_, _, _, v, _, other⟩)
    · exact .here (Need.object_unmet other)
    · have unmet : Need.boolean.isMet v = false := by
        cases v with
        | bool b => exact absurd rfl (other b)
        | _ => rfl
      exact (Json.IsAmiss.here unmet).member (by simp)

theorem parse_of_no_action {members : Members}
    (none : ∀ action : RuleAction, members.getD "action" ≠ .string action.text) (place : Place) :
    parse (.object members) place = .error ⟨place.member "action", .action⟩ := by
  unfold parse
  simp only [Json.asObject, bind, Except.bind]
  split
  · exact absurd ‹_› (none .allow)
  · exact absurd ‹_› (none .disallow)
  · rfl

theorem parse_of_action {members : Members} {action : RuleAction}
    (given : members.getD "action" = .string action.text) (place : Place) :
    parse (.object members) place = (do
      let (osName, osArch, osVersion) ← readSystem (members.getD "os") (place.member "os")
      let features ← readFeatures ((members.get? "features").getD (.object []))
        (place.member "features")
      return ⟨action, osName, osArch, osVersion, features⟩) := by
  have opened {β : Type} (next : Members → Except Malformed β) :
      ((Json.object members).asObject place >>= next) = next members := rfl
  unfold parse
  rw [opened, given]
  simp only [readFeatures, bind_assoc]
  cases action
  all_goals
    cases members.getD "os" with
    | object os => simp only [readSystem, bind_assoc]; rfl
    | _ => rfl

theorem parse_keepsTo : KeepsTo parse IsForm Fault where
  accepts := by
    rintro _ @⟨members, given, action, os, features⟩
    obtain ⟨⟨name, arch, version⟩, os⟩ := readSystem_keepsTo.accepts os
    have formed : IsFeatures ((members.get? "features").getD (.object [])) := by
      cases found : members.get? "features" with
      | none => exact .object nofun
      | some v => exact features v found
    obtain ⟨wanted, features⟩ := readFeatures_keepsTo.accepts formed
    refine ⟨⟨given, name, arch, version, wanted⟩, fun place => ?_⟩
    simp only [parse_of_action action, os, features, bind, Except.bind]
    rfl
  refuses := by
    rintro _ _ _ (other | other | ⟨action, fault⟩ | ⟨action, os, given, fault⟩) place
    · rw [parse, Json.asObject_error other, Place.along_nil]
      rfl
    · exact parse_of_no_action other place
    · simp [parse_of_action action, readSystem_keepsTo.refuses fault, bind, Except.bind]
    · obtain ⟨⟨name, arch, version⟩, os⟩ := readSystem_keepsTo.accepts os
      simp [parse_of_action action, os, given, readFeatures_keepsTo.refuses fault, bind,
        Except.bind]
  decides v := by
    cases v with
    | object members =>
      by_cases known : ∃ action : RuleAction, Members.getD members "action" = .string action.text
      · obtain ⟨action, given⟩ := known
        rcases readSystem_keepsTo.decides (Members.getD members "os") with os | ⟨_, _, fault⟩
        · cases found : Members.get? members "features" with
          | none => exact .inl (.object given os (by simp [found]))
          | some w =>
            rcases readFeatures_keepsTo.decides w with features | ⟨_, _, fault⟩
            · exact .inl (.object given os (by simpa [found] using features))
            · exact .inr ⟨_, _, .features given os found fault⟩
        · exact .inr ⟨_, _, .os given fault⟩
      · exact .inr ⟨_, _, .action fun action given => known ⟨action, given⟩⟩
    | _ => exact .inr ⟨_, _, .object nofun⟩
  amiss := by
    rintro _ _ _ (other | @⟨members, other⟩ | ⟨_, fault⟩ | ⟨_, _, given, fault⟩)
    · exact .here (Need.object_unmet other)
    · refine .getD ?_
      cases given : members.getD "action" with
      | string text =>
        have allow : text ≠ "allow" := by rintro rfl; exact other .allow given
        have disallow : text ≠ "disallow" := by rintro rfl; exact other .disallow given
        simp [Need.isMet, allow, disallow]
      | _ => rfl
    · have there := Members.get?_of_getD fault.ne_null
      exact (readSystem_keepsTo.amiss fault).member (Members.mem_of_get? there)
    · exact (readFeatures_keepsTo.amiss fault).member (Members.mem_of_get? given)

theorem parseItems_eq (place : Place) (i : Nat) (rules : List Json) :
    parseItems place i rules = readItems parse place i rules := by
  induction rules generalizing i with
  | nil => rfl
  | cons rule rest ih => simp only [parseItems, readItems, ih]

theorem parseList_keepsTo : KeepsTo parseList AreForms ListFault where
  accepts := by
    rintro _ ⟨each⟩
    obtain ⟨rules, all⟩ := readItems_ok fun rule member => parse_keepsTo.accepts (each rule member)
    exact ⟨rules, fun place => (parseItems_eq place 0 _).trans (all place 0)⟩
  refuses := by
    rintro _ _ _ (other | ⟨passed, fault⟩) place
    · rw [parseList, Json.asList_error other, Place.along_nil]
      rfl
    · refine (parseItems_eq place 0 _).trans ?_
      rw [readItems_error (fun rule member => parse_keepsTo.accepts (passed rule member))
        (parse_keepsTo.refuses fault), Nat.zero_add]
  decides v := by
    cases v with
    | list rules =>
      rcases forall_or_first IsForm rules with each | ⟨before, rule, after, rfl, passed, other⟩
      · exact .inl (.list each)
      · obtain ⟨_, _, fault⟩ := (parse_keepsTo.decides rule).resolve_left other
        exact .inr ⟨_, _, .item passed fault⟩
    | _ => exact .inr ⟨_, _, .list nofun⟩
  amiss := by
    rintro _ _ _ (other | ⟨_, fault⟩)
    · exact .here (Need.list_unmet other)
    · exact (parse_keepsTo.amiss fault).item

/-- The rules of an object, which has none if it does not name them. -/
theorem parseList_member {members : Members}
    (formed : ∀ v, members.get? "rules" = some v → AreForms v) :
    ∃ rules, ∀ place, parseList ((members.get? "rules").getD (.list [])) place = .ok rules := by
  refine parseList_keepsTo.accepts ?_
  cases given : members.get? "rules" with
  | none => exact .list nofun
  | some v => exact formed v given

/-- A rule as documents have it, with null for what it does not say. -/
def json (rule : Rule) : Json :=
  let text (given : Option String) : Json := (given.map .string).getD .null
  .object [("action", .string rule.action.text),
    ("os", .object [("name", text rule.osName), ("arch", text rule.osArch),
      ("version", text rule.osVersion)]),
    ("features", .object (rule.features.map fun feature => (feature.1, .bool feature.2)))]

theorem parseFeatures_map (features : Features) (place : Place) :
    parseFeatures place (features.map fun feature => (feature.1, .bool feature.2)) =
      .ok features := by
  induction features with
  | nil => rfl
  | cons feature rest ih =>
    rw [List.map_cons, parseFeatures, ih]
    rfl

theorem parse_json (rule : Rule) (place : Place) : parse rule.json place = .ok rule := by
  obtain ⟨action, osName, osArch, osVersion, features⟩ := rule
  have known : readFeatures (.object (features.map fun feature => (feature.1, .bool feature.2)))
      (place.member "features") = .ok features := parseFeatures_map features _
  rw [json, parse_of_action rfl]
  cases osName <;> cases osArch <;> cases osVersion <;>
    simp [Members.getD, Members.get?, readSystem, Json.asObject, Json.asString?, known, bind,
      Except.bind, pure, Except.pure]

theorem parseList_json (rules : List Rule) (place : Place) :
    parseList (.list (rules.map json)) place = .ok rules := by
  have items (i : Nat) : parseItems place i (rules.map json) = .ok rules := by
    induction rules generalizing i with
    | nil => rfl
    | cons rule rest ih =>
      simp only [List.map_cons, parseItems, parse_json, ih, bind, Except.bind, pure, Except.pure]
  exact items 0

end Launcher.Rule
