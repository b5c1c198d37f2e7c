import Launcher.Launch.Session
import Launcher.Proofs.Launch.Denotation

/-! When an argument under rules is included. The last rule that applies decides, and a list in
which none applies allows. What an argument's rules mention counts as well, whether they apply or
not: they may ask for nothing but the demo, and those that allow only as it is. -/
namespace Launcher

namespace Rule

/-- A rule applies to a platform and to features: what it says of the system is known to be so, and
the features are as it wants them, those that are not given being off. -/
structure Applies (rule : Rule) (platform : Platform) (features : Features) : Prop where
  os : ∀ name ∈ rule.osName, platform.os = some name
  arch : ∀ name ∈ rule.osArch, platform.arch = some name
  version : ∀ expression ∈ rule.osVersion, ∃ e, Pattern.parse expression.toList = .ok e ∧
    Pattern.search e platform.version.toList = true
  features : ∀ wanted ∈ rule.features, (features.get? wanted.1).getD false = wanted.2

/-- What rules come to: the action of the last one that applies, and allowing if none does. -/
inductive Decides (platform : Platform) (features : Features) : List Rule → RuleAction → Prop
  | last {before after : List Rule} {rule : Rule} (applies : rule.Applies platform features)
      (idle : ∀ later ∈ after, ¬ later.Applies platform features) :
      Decides platform features (before ++ rule :: after) rule.action
  | none {rules : List Rule} (idle : ∀ rule ∈ rules, ¬ rule.Applies platform features) :
      Decides platform features rules .allow

variable {platform : Platform} {features : Features} {rule : Rule} {rules xs ys : List Rule}
  {action other : RuleAction}

theorem featuresMatch_iff {wanted : Features} : featuresMatch wanted features = true ↔
    ∀ feature ∈ wanted, (features.get? feature.1).getD false = feature.2 := by
  simp [featuresMatch]

theorem searchPattern_iff {expression text : String} : searchPattern expression text = .ok true ↔
    ∃ e, Pattern.parse expression.toList = .ok e ∧ Pattern.search e text.toList = true := by
  unfold searchPattern
  split
  · rename_i parsed
    simp [parsed]
  · rename_i refused
    simp [refused]

theorem isMatch_iff : rule.isMatch platform.version features platform.os platform.arch = .ok true ↔
    rule.Applies platform features := by
  obtain ⟨action, osName, osArch, osVersion, wanted⟩ := rule
  unfold isMatch
  split
  · rename_i foreign
    refine ⟨nofun, fun applies => absurd foreign ?_⟩
    cases osName with
    | none => simp
    | some name => simp [applies.os name rfl]
  rename_i native
  split
  · rename_i foreign
    refine ⟨nofun, fun applies => absurd foreign ?_⟩
    cases osArch with
    | none => simp
    | some name => simp [applies.arch name rfl]
  rename_i native'
  have os : ∀ name ∈ osName, platform.os = some name := by
    rintro name rfl
    have known : some name = platform.os := by simpa using native
    exact known.symm
  have arch : ∀ name ∈ osArch, platform.arch = some name := by
    rintro name rfl
    have known : some name = platform.arch := by simpa using native'
    exact known.symm
  cases osVersion with
  | none =>
    simp only [Except.ok.injEq, featuresMatch_iff]
    exact ⟨fun alike => ⟨os, arch, nofun, alike⟩, fun applies => applies.features⟩
  | some expression =>
    constructor
    · intro matched
      rcases found : searchPattern expression platform.version with e | b
      · simp [found, Except.map] at matched
      · simp only [found, Except.map, Except.ok.injEq, Bool.and_eq_true] at matched
        obtain ⟨rfl, alike⟩ := matched
        exact ⟨os, arch, by simpa using searchPattern_iff.mp found, featuresMatch_iff.mp alike⟩
    · intro applies
      have found := searchPattern_iff.mpr (applies.version expression rfl)
      simp [found, Except.map, featuresMatch_iff.mpr applies.features]

theorem isMatch_of_not_applies (readable : rule.IsReadable)
    (idle : ¬ rule.Applies platform features) :
    rule.isMatch platform.version features platform.os platform.arch = .ok false := by
  obtain ⟨found, ended⟩ := isMatch_ok readable platform.version features platform.os platform.arch
  cases found with
  | false => exact ended
  | true => exact absurd (isMatch_iff.mp ended) idle

section Verdict
variable (verdict : Bool)

/-- Rules that do not apply leave the verdict as it is. -/
theorem verdictFrom_of_idle (readable : ∀ rule ∈ rules, rule.IsReadable)
    (idle : ∀ rule ∈ rules, ¬ rule.Applies platform features) :
    verdictFrom platform.version features platform.os platform.arch verdict rules =
      .ok verdict := by
  induction rules with
  | nil => rfl
  | cons rule rest ih =>
    have passed := isMatch_of_not_applies (readable rule List.mem_cons_self)
      (idle rule List.mem_cons_self)
    rw [verdictFrom, passed]
    exact ih (fun other member => readable other (List.mem_cons_of_mem rule member))
      fun other member => idle other (List.mem_cons_of_mem rule member)

/-- A rule that applies sets the verdict, whatever it was before. -/
theorem verdictFrom_of_applies (readable : ∀ rule ∈ xs, rule.IsReadable)
    (applies : rule.Applies platform features) (ys : List Rule) :
    verdictFrom platform.version features platform.os platform.arch verdict (xs ++ rule :: ys) =
      verdictFrom platform.version features platform.os platform.arch
        (decide (rule.action = .allow)) ys := by
  induction xs generalizing verdict with
  | nil => rw [List.nil_append, verdictFrom, isMatch_iff.mpr applies]
  | cons first rest ih =>
    obtain ⟨found, ended⟩ := isMatch_ok (readable first List.mem_cons_self) platform.version
      features platform.os platform.arch
    have later := fun verdict =>
      ih verdict fun other member => readable other (List.mem_cons_of_mem first member)
    rw [List.cons_append, verdictFrom, ended]
    cases found
    · exact later verdict
    · exact later _

end Verdict

namespace Decides

theorem allows (decides : Decides platform features rules action)
    (readable : ∀ rule ∈ rules, rule.IsReadable) :
    Rule.allows platform features rules = .ok (decide (action = .allow)) := by
  cases decides with
  | last applies idle =>
    rw [Rule.allows, verdictFrom_of_applies true
      (fun other member => readable other (List.mem_append_left _ member)) applies]
    refine verdictFrom_of_idle _ (fun later member => ?_) idle
    exact readable later (List.mem_append_right _ (List.mem_cons_of_mem _ member))
  | none idle => exact verdictFrom_of_idle true readable idle

theorem unique (decides : Decides platform features rules action)
    (decides' : Decides platform features rules other)
    (readable : ∀ rule ∈ rules, rule.IsReadable) : other = action := by
  have same := (decides.allows readable).symm.trans (decides'.allows readable)
  cases action <;> cases other <;> simp_all

/-- Rules that do not apply may follow. -/
theorem append_idle (decides : Decides platform features xs action)
    (idle : ∀ rule ∈ ys, ¬ rule.Applies platform features) :
    Decides platform features (xs ++ ys) action := by
  cases decides with
  | last applies idle' =>
    rw [List.append_assoc, List.cons_append]
    refine .last applies fun later member => ?_
    rcases List.mem_append.mp member with inside | behind
    · exact idle' later inside
    · exact idle later behind
  | none idle' =>
    refine .none fun rule member => ?_
    rcases List.mem_append.mp member with inside | behind
    · exact idle' rule inside
    · exact idle rule behind

/-- Any rules may go before rules one of which applies. -/
theorem append_left (decides : Decides platform features ys action)
    (some : ∃ rule ∈ ys, rule.Applies platform features) (xs : List Rule) :
    Decides platform features (xs ++ ys) action := by
  cases decides with
  | last applies idle =>
    rw [← List.append_assoc]
    exact .last applies idle
  | none idle =>
    obtain ⟨rule, member, applies⟩ := some
    exact absurd applies (idle rule member)

end Decides

theorem exists_decides (platform : Platform) (features : Features) (rules : List Rule) :
    ∃ action, Decides platform features rules action := by
  induction rules using List.reverseRecOn with
  | nil => exact ⟨.allow, .none nofun⟩
  | append_singleton rules rule ih =>
    by_cases applies : rule.Applies platform features
    · exact ⟨rule.action, .last applies nofun⟩
    · obtain ⟨action, decides⟩ := ih
      exact ⟨action, decides.append_idle fun other member => List.mem_singleton.mp member ▸ applies⟩

/-- Of rules in two parts the second one has the verdict if a rule of it applies, and else the
first one. -/
theorem allows_append (readable : ∀ rule ∈ xs ++ ys, rule.IsReadable) :
    ((∃ rule ∈ ys, rule.Applies platform features) →
      allows platform features (xs ++ ys) = allows platform features ys) ∧
    ((∀ rule ∈ ys, ¬ rule.Applies platform features) →
      allows platform features (xs ++ ys) = allows platform features xs) := by
  constructor
  · intro some
    obtain ⟨action, decides⟩ := exists_decides platform features ys
    rw [(decides.append_left some xs).allows readable,
      decides.allows fun rule member => readable rule (List.mem_append_right xs member)]
  · intro idle
    obtain ⟨action, decides⟩ := exists_decides platform features xs
    rw [(decides.append_idle idle).allows readable,
      decides.allows fun rule member => readable rule (List.mem_append_left ys member)]

end Rule

namespace Phase
variable {rules : List Rule}

/-- A session's features admit a rule that asks for nothing but the demo, and if it allows, then for
the demo as the session has it. -/
theorem admits_iff {session : Session} {rule : Rule} : admits session.features rule = true ↔
    ∀ wanted ∈ rule.features, wanted.1 = "is_demo_user" ∧
      (rule.action = .allow → wanted.2 = session.demo) := by
  unfold admits
  rw [List.all_eq_true]
  refine forall_congr' fun wanted => forall_congr' fun _ => ?_
  obtain ⟨name, expected⟩ := wanted
  by_cases resolution : name = "has_custom_resolution"
  · simp [resolution]
  · by_cases demo : name = "is_demo_user"
    · subst demo
      have known : session.features.get? "is_demo_user" = some session.demo := rfl
      by_cases allowing : rule.action = .allow
      · simpa [known, allowing] using eq_comm
      · simp [known, allowing]
    · have unknown : session.features.get? name = none := by
        simp [Session.features, Features.get?, Ne.symm resolution, Ne.symm demo]
      simp [resolution, demo, unknown]

/-- Rules as metadata have them for one version of a system, and one more for players of the demo. -/
def demoOnTen : List Rule := [
  ⟨.disallow, none, none, none, []⟩,
  ⟨.allow, some "windows", none, some "^10\\.", []⟩,
  ⟨.disallow, some "windows", some "x86", none, [("is_demo_user", false)]⟩]

end Phase
end Launcher
