import Launcher.Json.Parser
import Launcher.Proofs.Action
import Launcher.Proofs.Number.Digits

/-! The values that JSON texts can stand for: integers of them are not too long, and no object has
two members of one name. Every value that is read is such a value. -/
namespace Launcher

namespace Members
variable {members : Members} {name : String} {value : Json}

theorem contains_iff : members.contains name = true ↔ name ∈ members.map (·.1) := by
  simp [contains, List.any_eq_true]

theorem names_insert_of_contains (present : members.contains name = true) :
    (members.insert name value).map (·.1) = members.map (·.1) := by
  rw [insert, if_pos present, List.map_map]
  refine List.map_congr_left fun member _ => ?_
  simp only [Function.comp]
  split
  · exact (beq_iff_eq.mp ‹_›).symm
  · rfl

theorem insert_of_absent (absent : name ∉ members.map (·.1)) :
    members.insert name value = members ++ [(name, value)] := by
  rw [insert, if_neg]
  rwa [contains_iff]

theorem nodup_insert (distinct : (members.map (·.1)).Nodup) :
    ((members.insert name value).map (·.1)).Nodup := by
  by_cases present : members.contains name = true
  · rwa [names_insert_of_contains present]
  · rw [contains_iff] at present
    rw [insert_of_absent present, List.map_append, List.nodup_append]
    refine ⟨distinct, by simp, ?_⟩
    rintro _ member _ last rfl
    simp only [List.map_cons, List.map_nil, List.mem_singleton] at last
    exact present (last ▸ member)

theorem mem_insert {member : String × Json} (inside : member ∈ members.insert name value) :
    member ∈ members ∨ member = (name, value) := by
  unfold insert at inside
  split at inside
  · obtain ⟨old, there, same⟩ := List.mem_map.mp inside
    split at same
    · exact .inr same.symm
    · exact .inl (same ▸ there)
  · rcases List.mem_append.mp inside with there | last
    · exact .inl there
    · exact .inr (List.mem_singleton.mp last)

theorem ofList_concat (pairs : List (String × Json)) (pair : String × Json) :
    ofList (pairs ++ [pair]) = (ofList pairs).insert pair.1 pair.2 := by
  rw [ofList, List.foldl_append]
  rfl

theorem nodup_ofList (pairs : List (String × Json)) : ((ofList pairs).map (·.1)).Nodup := by
  induction pairs using List.reverseRecOn with
  | nil => exact List.nodup_nil
  | append_singleton pairs pair ih =>
    rw [ofList_concat]
    exact nodup_insert ih

theorem mem_ofList {pairs : List (String × Json)} {member : String × Json}
    (inside : member ∈ ofList pairs) : member ∈ pairs := by
  induction pairs using List.reverseRecOn with
  | nil => exact inside
  | append_singleton pairs pair ih =>
    rw [ofList_concat] at inside
    rcases mem_insert inside with before | rfl
    · exact List.mem_append_left _ (ih before)
    · exact List.mem_append_right _ (List.mem_singleton_self _)

/-- Members with distinct names are kept as they are. -/
theorem ofList_of_nodup {pairs : List (String × Json)} (distinct : (pairs.map (·.1)).Nodup) :
    ofList pairs = pairs := by
  induction pairs using List.reverseRecOn with
  | nil => rfl
  | append_singleton pairs pair ih =>
    rw [List.map_append, List.nodup_append] at distinct
    obtain ⟨before, _, apart⟩ := distinct
    rw [ofList_concat, ih before, insert_of_absent]
    intro there
    exact apart _ there _ (List.mem_singleton_self _) rfl

end Members

namespace Json
open Number (isDigit digitsValue maxDigits)

/-- A value that a text can stand for. -/
inductive IsRegular : Json → Prop
  | null : IsRegular .null
  | bool (b : Bool) : IsRegular (.bool b)
  | int {n : Int} (short : (Nat.toDigits 10 n.natAbs).length ≤ maxDigits) : IsRegular (.int n)
  | float (x : Binary64) : IsRegular (.float x)
  | string (s : String) : IsRegular (.string s)
  | list {values : List Json} (each : ∀ v ∈ values, IsRegular v) : IsRegular (.list values)
  | object {members : Members} (distinct : (members.map (·.1)).Nodup)
      (each : ∀ member ∈ members, IsRegular member.2) : IsRegular (.object members)

theorem IsRegular.insert {members : Members} (regular : IsRegular (.object members))
    {name : String} {value : Json} (new : IsRegular value) :
    IsRegular (.object (members.insert name value)) := by
  cases regular with
  | object distinct each =>
    refine .object (Members.nodup_insert distinct) fun member inside => ?_
    rcases Members.mem_insert inside with before | rfl
    · exact each member before
    · exact new

theorem IsRegular.getD {members : Members} (regular : IsRegular (.object members))
    (name : String) : IsRegular (members.getD name) := by
  unfold Members.getD Members.get?
  rcases found : members.find? fun member => member.1 == name with _ | member
  · rw [found]
    exact .null
  · rw [found]
    cases regular with
    | object _ each => exact each member (List.mem_of_find?_eq_some found)

namespace Parser
variable {text rest : List Char} {v : Json}

theorem isDigit_of_integerDigits {whole : List Char} (cut : integerDigits text = (whole, rest)) :
    ∀ c ∈ whole, isDigit c := by
  unfold integerDigits at cut
  split at cut
  · cases cut
    exact List.forall_mem_singleton.mpr (by decide)
  · rw [List.span_eq_takeWhile_dropWhile] at cut
    cases cut
    exact fun _ member => List.mem_takeWhile_imp member

theorem number_regular (read : number text = .ok (v, rest)) : IsRegular v := by
  unfold number at read
  simp only at read
  -- The sign makes no difference.
  split at read
  all_goals
    split at read
    · cases read
    · rename_i filled
      split at read
      · cases read
        exact .float _
      · split at read
        · split at read
          · cases read
          · rename_i short
            cases read
            refine .int ?_
            have length := Number.length_toDigits_digitsValue (mt List.isEmpty_iff.mpr filled)
              (isDigit_of_integerDigits rfl)
            simpa using Nat.le_trans length (Nat.not_lt.mp short)
        · cases read
          exact .float _

theorem literal?_regular {found : Json × List Char} (h : literal? text = some found) :
    IsRegular found.1 := by
  unfold literal? at h
  obtain ⟨⟨word, value⟩, member, h⟩ := List.exists_of_findSome?_eq_some h
  obtain ⟨_, _, rfl⟩ := Option.map_eq_some_iff.mp h
  have each : ∀ known ∈ [("null", Json.null), ("true", .bool true), ("false", .bool false),
      ("NaN", .float .nan), ("Infinity", .float (Binary64.infinity false)),
      ("-Infinity", .float (Binary64.infinity true))], IsRegular known.2 := by
    simp only [List.forall_mem_cons]
    exact ⟨.null, .bool _, .bool _, .float _, .float _, .float _, nofun⟩
  exact each _ member

theorem map_ok {α β : Type} {f : α → β} {result : Except Fault α} {b : β}
    (h : result.map f = .ok b) : ∃ a, result = .ok a ∧ f a = b := by
  cases result with
  | error e => cases h
  | ok a => exact ⟨a, rfl, Except.ok.inj h⟩

/-- What is read with some fuel is regular. -/
structure ReadsRegular (fuel : Nat) : Prop where
  value : ∀ {text v rest}, value fuel text = .ok (v, rest) → IsRegular v
  items : ∀ {text values rest}, items fuel text = .ok (values, rest) → ∀ v ∈ values, IsRegular v
  members : ∀ {text pairs rest}, members fuel text = .ok (pairs, rest) →
    ∀ pair ∈ pairs, IsRegular pair.2

namespace ReadsRegular
variable {fuel : Nat} (regular : ReadsRegular fuel)
include regular

theorem value_succ (read : Parser.value (fuel + 1) text = .ok (v, rest)) : IsRegular v := by
  unfold Parser.value at read
  split at read
  · obtain ⟨⟨s, _⟩, _, same⟩ := map_ok read
    cases same
    exact .string s
  · split at read
    · cases read
      exact .object List.nodup_nil nofun
    · obtain ⟨⟨pairs, _⟩, inside, same⟩ := map_ok read
      cases same
      refine .object (Members.nodup_ofList pairs) fun member there => ?_
      exact regular.members inside _ (Members.mem_ofList there)
  · split at read
    · cases read
      exact .list nofun
    · obtain ⟨⟨values, _⟩, inside, same⟩ := map_ok read
      cases same
      exact .list (regular.items inside)
  · split at read
    · rename_i found
      cases read
      exact literal?_regular found
    · exact number_regular read

theorem items_succ {values : List Json}
    (read : Parser.items (fuel + 1) text = .ok (values, rest)) : ∀ v ∈ values, IsRegular v := by
  unfold Parser.items at read
  obtain ⟨⟨first, _⟩, head, read⟩ := bind_ok read
  simp only at read
  split at read
  · cases read
    exact List.forall_mem_singleton.mpr (regular.value head)
  · obtain ⟨⟨more, _⟩, tail, read⟩ := bind_ok read
    cases read
    exact List.forall_mem_cons.mpr ⟨regular.value head, regular.items tail⟩
  · cases read

theorem members_succ {pairs : Members}
    (read : Parser.members (fuel + 1) text = .ok (pairs, rest)) :
    ∀ pair ∈ pairs, IsRegular pair.2 := by
  unfold Parser.members at read
  split at read
  · obtain ⟨⟨name, _⟩, _, read⟩ := bind_ok read
    simp only at read
    split at read
    · obtain ⟨⟨content, _⟩, head, read⟩ := bind_ok read
      simp only at read
      split at read
      · cases read
        exact List.forall_mem_singleton.mpr (regular.value head)
      · obtain ⟨⟨more, _⟩, tail, read⟩ := bind_ok read
        cases read
        exact List.forall_mem_cons.mpr ⟨regular.value head, regular.members tail⟩
      · cases read
    · cases read
  · cases read

end ReadsRegular

theorem readsRegular (fuel : Nat) : ReadsRegular fuel := by
  induction fuel with
  | zero =>
    constructor
    all_goals
      intro _ _ _ read
      cases read
  | succ fuel ih => exact ⟨ih.value_succ, ih.items_succ, ih.members_succ⟩

theorem document_regular (read : document text = .ok v) : IsRegular v := by
  unfold document at read
  obtain ⟨⟨content, _⟩, inside, read⟩ := bind_ok read
  simp only at read
  split at read
  · cases read
    exact (readsRegular _).value inside
  · cases read

end Parser

theorem parseChars_regular {text : List Char} {v : Json} (read : parseChars text = .ok v) :
    IsRegular v := by
  unfold parseChars at read
  split at read
  · rename_i inside
    cases read
    exact Parser.document_regular inside
  · cases read
  · cases read

/-- What a document holds is regular. -/
theorem parse_regular {bytes : Bytes} {v : Json} (read : parse bytes = .ok v) : IsRegular v := by
  unfold parse at read
  split at read
  · cases read
  · exact parseChars_regular read

/-- The names in an object inside of a document are different. -/
theorem nodup_of_parse {bytes : Bytes} {members inner : Members} {name : String}
    (read : parse bytes = .ok (.object members)) (given : members.getD name = .object inner) :
    (inner.map (·.1)).Nodup := by
  have regular := (parse_regular read).getD name
  rw [given] at regular
  cases regular with
  | object distinct _ => exact distinct

end Json
end Launcher
