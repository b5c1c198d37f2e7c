import Launcher.Digest.Integrity
import Launcher.Metadata.Place

/-! Readers of documents and the grammars that they keep to. What is of a grammar is read in the
same way wherever it stands. All else has a first place that is not as it must be: the fault names
it, and the path in the fault leads there. -/
namespace Launcher

namespace Json

/-- A path leads from a value to the one at its end, or to nothing, where an object has no member
of the last name. -/
inductive Leads : Json → List Step → Option Json → Prop
  | here (v : Json) : Leads v [] (some v)
  | member {members : Members} {name : String} {v : Json} {steps : List Step} {found : Option Json}
      (inside : (name, v) ∈ members) (on : Leads v steps found) :
      Leads (.object members) (.member name :: steps) found
  | absent {members : Members} {name : String} (absent : members.get? name = none) :
      Leads (.object members) [.member name] none
  | item {items : List Json} {i : Nat} {v : Json} {steps : List Step} {found : Option Json}
      (inside : items[i]? = some v) (on : Leads v steps found) :
      Leads (.list items) (.item i :: steps) found

/-- What holds of a value if it holds of all items and members inside holds of all values. -/
theorem induction {P : Json → Prop}
    (simple : ∀ v, (∀ items, v ≠ .list items) → (∀ members, v ≠ .object members) → P v)
    (list : ∀ items, (∀ v ∈ items, P v) → P (.list items))
    (object : ∀ members : Members, (∀ member ∈ members, P member.2) → P (.object members))
    (v : Json) : P v := by
  refine Json.rec (motive_1 := P) (motive_2 := fun items => ∀ v ∈ items, P v)
    (motive_3 := fun members => ∀ member ∈ members, P member.2) (motive_4 := fun pair => P pair.2)
    ?null ?bool ?int ?float ?string list object nofun ?cons nofun ?member (fun _ _ inside => inside)
    v
  case cons | member =>
    intro first rest begun others v member
    rcases List.mem_cons.mp member with rfl | later
    · exact begun
    · exact others v later
  all_goals
    intros
    exact simple _ nofun nofun

variable {v : Json}

theorem asObject_error (other : ∀ members, v ≠ .object members) (place : Place) :
    v.asObject place = .error ⟨place, .object⟩ := by
  cases v with
  | object members => exact absurd rfl (other members)
  | _ => rfl

theorem asList_error (other : ∀ items, v ≠ .list items) (place : Place) :
    v.asList place = .error ⟨place, .list⟩ := by
  cases v with
  | list items => exact absurd rfl (other items)
  | _ => rfl

def IsText (v : Json) : Prop := ∃ text, v = .string text

instance : (v : Json) → Decidable v.IsText
  | .string text => .isTrue ⟨text, rfl⟩
  | .null | .bool _ | .int _ | .float _ | .list _ | .object _ =>
    .isFalse fun ⟨_, same⟩ => nomatch same

/-- A text, or null, which also stands for a member that is missing. -/
def IsTextOrNull (v : Json) : Prop := v = .null ∨ ∃ text, v = .string text

theorem asString?_ok (text : IsTextOrNull v) : ∃ given, ∀ place, v.asString? place = .ok given := by
  rcases text with rfl | ⟨text, rfl⟩
  · exact ⟨none, fun _ => rfl⟩
  · exact ⟨some text, fun _ => rfl⟩

theorem asString?_error (other : ¬ IsTextOrNull v) (place : Place) :
    v.asString? place = .error ⟨place, .string⟩ := by
  cases v with
  | null => exact absurd (.inl rfl) other
  | string text => exact absurd (.inr ⟨text, rfl⟩) other
  | _ => rfl

end Json

namespace Members
variable {members : Members} {name other : String} {v : Json}

theorem mem_of_get? (found : members.get? name = some v) : (name, v) ∈ members := by
  obtain ⟨⟨other, w⟩, first, rfl⟩ := Option.map_eq_some_iff.mp found
  have same : other = name := by simpa using List.find?_some first
  exact same ▸ List.mem_of_find?_eq_some first

theorem get?_insert (members : Members) (name : String) (v : Json) :
    (members.insert name v).get? name = some v := by
  unfold insert get?
  split
  · rename_i contained
    have same : ((fun member : String × Json => member.1 == name) ∘
        fun member => if member.1 == name then (name, v) else member) =
        fun member => member.1 == name := by
      funext member
      by_cases named : member.1 = name <;> simp [named]
    obtain ⟨member, found⟩ := Option.isSome_iff_exists.mp
      (List.find?_isSome.mpr (List.any_eq_true.mp contained))
    have named : member.1 = name := by simpa using List.find?_some found
    rw [List.find?_map, same, found]
    simp [named]
  · rename_i absent
    have none : members.find? (fun member => member.1 == name) = none :=
      List.find?_eq_none.mpr fun member inside named =>
        absent (List.any_eq_true.mpr ⟨member, inside, named⟩)
    rw [List.find?_append, none]
    simp

theorem get?_insert_of_ne (different : other ≠ name) :
    (members.insert name v).get? other = members.get? other := by
  have last : ((name, v).1 == other) = false := by simpa using different.symm
  unfold insert get?
  split
  · have same : ((fun member : String × Json => member.1 == other) ∘
        fun member => if member.1 == name then (name, v) else member) =
        fun member => member.1 == other := by
      funext member
      simp only [Function.comp]
      split
      · rename_i named
        rw [beq_iff_eq.mp named, last]
      · rfl
    rw [List.find?_map, same, Option.map_map]
    refine Option.map_congr fun member found => ?_
    have named : member.1 = other := by simpa using List.find?_some found
    simp [named, different]
  · rw [List.find?_append]
    simp [last]

theorem get?_of_getD (given : members.getD name ≠ .null) :
    members.get? name = some (members.getD name) := by
  unfold getD at given ⊢
  cases found : members.get? name with
  | none => simp [found] at given
  | some v => rfl

end Members

/-- Whether a value is as it must be. -/
def Need.isMet : Need → Json → Bool
  | .object, .object _ => true
  | .list, .list _ => true
  | .string, .string _ => true
  | .boolean, .bool _ => true
  | .integer, .int _ => true
  | .integer, .bool _ => true
  | .digest, .string s => isSha1 s
  | .action, .string s => s = "allow" || s = "disallow"
  | .listOrString, .list _ => true
  | .listOrString, .string _ => true
  | .argument, .object _ => true
  | .argument, .list _ => true
  | .argument, .string _ => true
  | _, _ => false

theorem Need.object_unmet {v : Json} (other : ∀ members, v ≠ .object members) :
    Need.object.isMet v = false := by
  cases v with
  | object members => exact absurd rfl (other members)
  | _ => rfl

theorem Need.digest_unmet {v : Json} (other : ∀ text, v ≠ .string text) :
    Need.digest.isMet v = false := by
  cases v with
  | string text => exact absurd rfl (other text)
  | _ => rfl

theorem Need.list_unmet {v : Json} (other : ∀ items, v ≠ .list items) :
    Need.list.isMet v = false := by
  cases v with
  | list items => exact absurd rfl (other items)
  | _ => rfl

namespace Json

/-- A path leads to a value that is not as it must be, or to where there is none. -/
def IsAmiss (v : Json) (steps : List Step) (need : Need) : Prop :=
  ∃ found, v.Leads steps found ∧ ∀ w ∈ found, need.isMet w = false

namespace IsAmiss
variable {v : Json} {steps : List Step} {need : Need} {members : Members} {name : String}

theorem here (unmet : need.isMet v = false) : v.IsAmiss [] need :=
  ⟨some v, .here v, by rintro _ ⟨⟩; exact unmet⟩

theorem member (amiss : v.IsAmiss steps need) (inside : (name, v) ∈ members) :
    (Json.object members).IsAmiss (.member name :: steps) need := by
  obtain ⟨found, leads, unmet⟩ := amiss
  exact ⟨found, .member inside leads, unmet⟩

theorem item {before after : List Json} (amiss : v.IsAmiss steps need) :
    (Json.list (before ++ v :: after)).IsAmiss (.item before.length :: steps) need := by
  obtain ⟨found, leads, unmet⟩ := amiss
  exact ⟨found, .item (by simp) leads, unmet⟩

theorem absent (absent : members.get? name = none) :
    (Json.object members).IsAmiss [.member name] need :=
  ⟨none, .absent absent, nofun⟩

/-- What is amiss in a member is amiss in the object, if only because the member is missing. -/
theorem of_getD (amiss : (members.getD name).IsAmiss steps need) :
    (Json.object members).IsAmiss (.member name :: steps) need := by
  cases found : members.get? name with
  | none =>
    rw [Members.getD, found] at amiss
    obtain ⟨_, leads, -⟩ := amiss
    -- null is the end of every path that begins there
    cases leads
    exact absent found
  | some v =>
    rw [Members.getD, found] at amiss
    exact amiss.member (Members.mem_of_get? found)

theorem getD (unmet : need.isMet (members.getD name) = false) :
    (Json.object members).IsAmiss [.member name] need :=
  (here unmet).of_getD

end IsAmiss
end Json

namespace Place

/-- The place to which a path leads from a place. -/
def along (place : Place) (steps : List Step) : Place := ⟨place.root, place.steps ++ steps⟩

@[simp] theorem along_nil (place : Place) : place.along [] = place := by simp [along]

@[simp] theorem member_along (place : Place) (name : String) (steps : List Step) :
    (place.member name).along steps = place.along (.member name :: steps) := by
  simp [along, member]

@[simp] theorem item_along (place : Place) (i : Nat) (steps : List Step) :
    (place.item i).along steps = place.along (.item i :: steps) := by
  simp [along, item]

theorem member_eq (place : Place) (name : String) :
    place.member name = place.along [.member name] := rfl

theorem text_along (place : Place) (steps : List Step) :
    (place.along steps).text = place.text ++ String.join (steps.map stepText) := by
  simp only [text, along, List.map_append, String.join_append, String.append_assoc]

end Place

/-- A reader keeps to a grammar. What is of the grammar it reads, in the same way at every place.
All else has a fault, which the reader tells, and the path in the fault leads to what is amiss. -/
structure KeepsTo {α : Type} (read : Json → Place → Except Malformed α) (IsForm : Json → Prop)
    (Fault : Json → List Step → Need → Prop) : Prop where
  accepts {v : Json} (form : IsForm v) : ∃ a, ∀ place, read v place = .ok a
  refuses {v : Json} {steps : List Step} {need : Need} (fault : Fault v steps need)
    (place : Place) : read v place = .error ⟨place.along steps, need⟩
  decides (v : Json) : IsForm v ∨ ∃ steps need, Fault v steps need
  amiss {v : Json} {steps : List Step} {need : Need} (fault : Fault v steps need) :
    v.IsAmiss steps need

namespace KeepsTo
variable {α : Type} {read : Json → Place → Except Malformed α} {IsForm : Json → Prop}
  {Fault : Json → List Step → Need → Prop}

theorem ok_iff (keeps : KeepsTo read IsForm Fault) {v : Json} {place : Place} :
    (∃ a, read v place = .ok a) ↔ IsForm v := by
  constructor
  · rintro ⟨a, ended⟩
    refine (keeps.decides v).resolve_right fun ⟨steps, need, fault⟩ => ?_
    cases ended.symm.trans (keeps.refuses fault place)
  · intro form
    obtain ⟨a, accepted⟩ := keeps.accepts form
    exact ⟨a, accepted place⟩

/-- A value has one fault at most. -/
theorem unique (keeps : KeepsTo read IsForm Fault) {v : Json} {steps steps' : List Step}
    {need need' : Need} (fault : Fault v steps need) (fault' : Fault v steps' need') :
    steps' = steps ∧ need' = need := by
  have same := (keeps.refuses fault' ⟨"", []⟩).symm.trans (keeps.refuses fault ⟨"", []⟩)
  simpa [Place.along] using same

end KeepsTo

/-- Either all elements of a list are of a kind, or one of them is the first that is not. -/
theorem forall_or_first {α : Type} (P : α → Prop) (xs : List α) : (∀ x ∈ xs, P x) ∨
    ∃ before x after, xs = before ++ x :: after ∧ (∀ y ∈ before, P y) ∧ ¬ P x := by
  induction xs with
  | nil => exact .inl nofun
  | cons x rest ih =>
    by_cases here : P x
    · rcases ih with all | ⟨before, y, after, rfl, passed, other⟩
      · exact .inl (by simpa using ⟨here, all⟩)
      · exact .inr ⟨x :: before, y, after, rfl, by simpa using ⟨here, passed⟩, other⟩
    · exact .inr ⟨[], x, rest, rfl, nofun, here⟩

section Items
variable {α : Type} {read : Json → Place → Except Malformed α}

/-- Reads items in their order, up to the first one that is refused. -/
def readItems (read : Json → Place → Except Malformed α) (place : Place) :
    Nat → List Json → Except Malformed (List α)
  | _, [] => .ok []
  | i, v :: rest => do
    let a ← read v (place.item i)
    let others ← readItems read place (i + 1) rest
    return a :: others

theorem readItems_ok {items : List Json} (each : ∀ v ∈ items, ∃ a, ∀ place, read v place = .ok a) :
    ∃ all, ∀ place i, readItems read place i items = .ok all := by
  induction items with
  | nil => exact ⟨[], fun _ _ => rfl⟩
  | cons v rest ih =>
    obtain ⟨a, first⟩ := each v List.mem_cons_self
    obtain ⟨others, later⟩ := ih fun w member => each w (List.mem_cons_of_mem v member)
    refine ⟨a :: others, fun place i => ?_⟩
    simp only [readItems, first, later, bind, Except.bind]
    rfl

theorem readItems_error {before after : List Json} {v : Json} {steps : List Step} {need : Need}
    (passed : ∀ w ∈ before, ∃ a, ∀ place, read w place = .ok a)
    (refused : ∀ place, read v place = .error ⟨place.along steps, need⟩) (place : Place) (i : Nat) :
    readItems read place i (before ++ v :: after) =
      .error ⟨place.along (.item (i + before.length) :: steps), need⟩ := by
  induction before generalizing i with
  | nil => simp [readItems, refused, bind, Except.bind]
  | cons w rest ih =>
    obtain ⟨a, first⟩ := passed w List.mem_cons_self
    have later := ih (fun u member => passed u (List.mem_cons_of_mem w member)) (i + 1)
    rw [show i + 1 + rest.length = i + (w :: rest).length by simp; omega] at later
    simp only [List.cons_append, readItems, first, later, bind, Except.bind]

end Items
end Launcher
