import Launcher.Install.Plan
import Launcher.Proofs.Metadata.Libraries
import Launcher.Versions.Index

/-! Digests in documents. A digest is written with forty lower-case hexadecimal digits, which is how
twenty bytes are written. Readers admit these texts, and a digest with a line end behind it; they
refuse a document over a digest only where something else stands. -/
namespace Launcher

/-- The form in which digests are written. -/
structure IsDigest (text : String) : Prop where
  length : text.length = 40
  digits : ∀ c ∈ text.toList, c ∈ "0123456789abcdef".toList

namespace Bytes

theorem digits_eq : "0123456789abcdef".toList = (List.range 16).map hexDigit := by decide +kernel

theorem hexDigit_mem {n : Nat} (small : n < 16) : hexDigit n ∈ "0123456789abcdef".toList := by
  rw [digits_eq]
  exact List.mem_map_of_mem (List.mem_range.mpr small)

theorem exists_hexDigit {c : Char} (digit : c ∈ "0123456789abcdef".toList) :
    ∃ n < 16, hexDigit n = c := by
  rw [digits_eq] at digit
  obtain ⟨n, small, same⟩ := List.mem_map.mp digit
  exact ⟨n, List.mem_range.mp small, same⟩

theorem hexByte_pair {high low : Nat} (small : high < 16) (small' : low < 16) :
    hexByte (UInt8.ofNat (16 * high + low)) = [hexDigit high, hexDigit low] := by
  have value : (UInt8.ofNat (16 * high + low)).toNat = 16 * high + low :=
    Nat.mod_eq_of_lt (by omega)
  rw [hexByte, value, show (16 * high + low) / 16 = high by omega,
    show (16 * high + low) % 16 = low by omega]

theorem length_hexBytes (bytes : Bytes) : (bytes.flatMap hexByte).length = 2 * bytes.length := by
  induction bytes with
  | nil => rfl
  | cons b bytes ih =>
    rw [List.flatMap_cons, List.length_append, ih, hexByte, List.length_cons]
    simp
    omega

theorem mem_hexBytes {bytes : Bytes} {c : Char} (inside : c ∈ bytes.flatMap hexByte) :
    c ∈ "0123456789abcdef".toList := by
  obtain ⟨b, -, inside⟩ := List.mem_flatMap.mp inside
  have small := b.toNat_lt
  rw [hexByte, List.mem_pair] at inside
  rcases inside with rfl | rfl
  · exact hexDigit_mem (by omega)
  · exact hexDigit_mem (by omega)

/-- Two digits at a time are the digits of one byte. -/
theorem exists_hexBytes {digits : List Char} {n : Nat} (length : digits.length = 2 * n)
    (all : ∀ c ∈ digits, c ∈ "0123456789abcdef".toList) :
    ∃ bytes : Bytes, bytes.length = n ∧ digits = bytes.flatMap hexByte := by
  induction n generalizing digits with
  | zero => exact ⟨[], rfl, List.length_eq_zero_iff.mp length⟩
  | succ n ih =>
    match digits, length with
    | high :: low :: rest, length =>
      rw [List.forall_mem_cons, List.forall_mem_cons] at all
      obtain ⟨first, second, others⟩ := all
      obtain ⟨a, small, rfl⟩ := exists_hexDigit first
      obtain ⟨b, small', rfl⟩ := exists_hexDigit second
      obtain ⟨bytes, sized, rfl⟩ := ih (by simp only [List.length_cons] at length; omega) others
      refine ⟨UInt8.ofNat (16 * a + b) :: bytes, by rw [List.length_cons, sized], ?_⟩
      rw [List.flatMap_cons, hexByte_pair small small']
      rfl

end Bytes

/-- The texts of digests are those of twenty bytes. -/
theorem isDigest_iff_hex {text : String} :
    IsDigest text ↔ ∃ bytes : Bytes, bytes.length = 20 ∧ text = Bytes.hex bytes := by
  constructor
  · rintro ⟨length, digits⟩
    obtain ⟨bytes, sized, same⟩ := Bytes.exists_hexBytes (n := 20) length digits
    exact ⟨bytes, sized, by rw [Bytes.hex, ← same, String.ofList_toList]⟩
  · rintro ⟨bytes, sized, rfl⟩
    have digits : (Bytes.hex bytes).toList = bytes.flatMap Bytes.hexByte := String.toList_ofList
    refine ⟨?_, fun c inside => Bytes.mem_hexBytes (digits ▸ inside)⟩
    rw [← String.length_toList, digits, Bytes.length_hexBytes, sized]

/-- Whatever was absorbed, a digest has the form of digests. -/
theorem Sha1.hexDigest_isDigest (s : Sha1) : IsDigest s.hexDigest := by
  refine isDigest_iff_hex.mpr ⟨s.finish, ?_, rfl⟩
  simp [finish, bigEndian]

theorem isHexLower_iff {c : Char} : isHexLower c ↔ c ∈ "0123456789abcdef".toList := by
  constructor
  · intro digit
    have bounds : (48 ≤ c.toNat ∧ c.toNat ≤ 57) ∨ 97 ≤ c.toNat ∧ c.toNat ≤ 102 := by
      simpa [isHexLower, Char.le_def, UInt32.le_iff_toNat_le] using digit
    have value : ∃ n < 16, Bytes.hexDigit n = c := by
      rcases bounds with ⟨low, high⟩ | ⟨low, high⟩
      · refine ⟨c.toNat - 48, by omega, ?_⟩
        rw [Bytes.hexDigit, if_pos (by omega), show 48 + (c.toNat - 48) = c.toNat by omega,
          Char.ofNat_toNat]
      · refine ⟨c.toNat - 87, by omega, ?_⟩
        rw [Bytes.hexDigit, if_neg (by omega), show 87 + (c.toNat - 87) = c.toNat by omega,
          Char.ofNat_toNat]
    obtain ⟨n, small, rfl⟩ := value
    exact Bytes.hexDigit_mem small
  · have all : "0123456789abcdef".toList.all isHexLower = true := by decide +kernel
    exact List.all_eq_true.mp all c

/-- A text is taken for a digest if it is one, or if it is one before a line end. -/
theorem isSha1_iff {text : String} :
    isSha1 text ↔ IsDigest text ∨ ∃ digest, IsDigest digest ∧ text = digest ++ "\n" := by
  have exact (digits : List Char) : (digits.length = 40 && digits.all isHexLower) = true ↔
      IsDigest (String.ofList digits) := by
    rw [Bool.and_eq_true, decide_eq_true_iff, List.all_eq_true]
    constructor
    · rintro ⟨length, each⟩
      have all : ∀ c ∈ digits, c ∈ "0123456789abcdef".toList :=
        fun c inside => isHexLower_iff.mp (each c inside)
      exact ⟨by simpa using length, by simpa using all⟩
    · rintro ⟨length, each⟩
      rw [String.toList_ofList] at each
      exact ⟨by simpa using length, fun c inside => isHexLower_iff.mpr (each c inside)⟩
  have unended (digest : IsDigest text) : text.toList.getLast? ≠ some '\n' := by
    intro ended
    exact absurd (digest.digits '\n' (List.mem_of_getLast? ended)) (by decide)
  unfold isSha1
  simp only
  split
  · rename_i ended
    obtain ⟨front, whole⟩ := List.getLast?_eq_some_iff.mp ended
    have cut : text = String.ofList front ++ "\n" := by
      rw [← String.toList_inj, whole]
      simp
    rw [whole, List.dropLast_concat, exact]
    constructor
    · intro digest
      exact .inr ⟨_, digest, cut⟩
    · rintro (digest | ⟨digest, form, same⟩)
      · exact absurd ended (unended digest)
      · rw [cut] at same
        have same : String.ofList front = digest := by
          rw [← String.toList_inj] at same ⊢
          simpa using same
        exact same ▸ form
  · rename_i other
    rw [exact, String.ofList_toList]
    constructor
    · exact .inl
    · rintro (digest | ⟨digest, -, rfl⟩)
      · exact digest
      · exact absurd (by simp) other

/-- What was read of a digest stands in the document, as the member of this name of some object, and
it was admitted. -/
def CarriesDigest (name : String) (v : Json) (digest : Option String) : Prop :=
  (∀ text ∈ digest, isSha1 text) ∧
    ∃ (steps : List Step) (members : Members), v.Leads steps (some (.object members)) ∧
      members.getD name = (digest.map .string).getD .null

theorem CarriesDigest.of_parseSha1 {name : String} {members : Members} {place : Place}
    {sha1 : Option String}
    (read : DownloadEntry.parseSha1 (members.getD name) place = .ok sha1) :
    CarriesDigest name (.object members) sha1 := by
  obtain ⟨there, admitted⟩ := Library.parseSha1_eq_ok read
  exact ⟨admitted, [], members, .here _, there⟩

/-- An error tells a place of the document that is not as it must be. Where a digest must be, this
is the member of this name of some object. -/
def TellsAmiss (name : String) (v : Json) (place : Place) (e : Malformed) : Prop :=
  ∃ steps, e.place = place.along steps ∧ v.IsAmiss steps e.need ∧
    (e.need = .digest → ∃ above, steps = above ++ [.member name])

/-- A reader admits the digests that it reads from documents, and refuses a document only over what
is amiss in it, which no digest is that is to be admitted. -/
structure AdmitsDigests {α : Type} (name : String) (read : Json → Place → Except Malformed α)
    (digests : α → List (Option String)) : Prop where
  admits {v : Json} {place : Place} {a : α} (ended : read v place = .ok a) {digest : Option String}
    (carried : digest ∈ digests a) : CarriesDigest name v digest
  refuses {v : Json} {place : Place} {e : Malformed} (refused : read v place = .error e) :
    TellsAmiss name v place e

namespace TellsAmiss
variable {name inner : String} {v : Json} {members : Members} {place : Place} {e : Malformed}
  {need : Need}

theorem here (unmet : need.isMet v = false) (other : need ≠ .digest) :
    TellsAmiss name v place ⟨place, need⟩ :=
  ⟨[], (place.along_nil).symm, .here unmet, fun about => absurd about other⟩

theorem digest (unmet : Need.digest.isMet (members.getD name) = false) :
    TellsAmiss name (.object members) place ⟨place.member name, .digest⟩ :=
  ⟨[.member name], rfl, .getD unmet, fun _ => ⟨[], rfl⟩⟩

theorem of_getD (tells : TellsAmiss name (members.getD inner) (place.member inner) e) :
    TellsAmiss name (.object members) place e := by
  obtain ⟨steps, there, amiss, named⟩ := tells
  refine ⟨.member inner :: steps, ?_, amiss.of_getD, fun about => ?_⟩
  · rw [there, Place.member_along]
  · obtain ⟨above, rfl⟩ := named about
    exact ⟨.member inner :: above, rfl⟩

theorem member (tells : TellsAmiss name v (place.member inner) e) (inside : (inner, v) ∈ members) :
    TellsAmiss name (.object members) place e := by
  obtain ⟨steps, there, amiss, named⟩ := tells
  refine ⟨.member inner :: steps, ?_, amiss.member inside, fun about => ?_⟩
  · rw [there, Place.member_along]
  · obtain ⟨above, rfl⟩ := named about
    exact ⟨.member inner :: above, rfl⟩

theorem of_asObject (refused : v.asObject place = .error e) : TellsAmiss name v place e := by
  unfold Json.asObject at refused
  split at refused
  · contradiction
  · rename_i other
    obtain rfl := Except.error.inj refused
    exact here (Need.object_unmet other) nofun

theorem of_asString (refused : v.asString place = .error e) : TellsAmiss name v place e := by
  unfold Json.asString at refused
  split at refused
  · contradiction
  · rename_i other
    obtain rfl := Except.error.inj refused
    exact here (Json.not_isMet_string fun ⟨text, same⟩ => other text same) nofun

theorem of_asWhole? (refused : v.asWhole? place = .error e) : TellsAmiss name v place e := by
  cases v with
  | null | int | bool => contradiction
  | _ =>
    obtain rfl := Except.error.inj refused
    exact here rfl nofun

theorem of_parseSha1
    (refused : DownloadEntry.parseSha1 (members.getD name) (place.member name) = .error e) :
    TellsAmiss name (.object members) place e := by
  have unmet : e = ⟨place.member name, .digest⟩ ∧ Need.digest.isMet (members.getD name) = false := by
    unfold DownloadEntry.parseSha1 at refused
    split at refused
    · contradiction
    · rename_i text given
      split at refused
      · contradiction
      · rename_i other
        rw [given]
        exact ⟨(Except.error.inj refused).symm, eq_false_of_ne_true other⟩
    · rename_i other
      exact ⟨(Except.error.inj refused).symm, Need.digest_unmet other⟩
  obtain ⟨rfl, unmet⟩ := unmet
  exact digest unmet

end TellsAmiss

section Readers

theorem VersionEntry.parse_admitsDigests :
    AdmitsDigests "sha1" VersionEntry.parse fun entry => [entry.sha1] where
  admits ended _ carried := by
    obtain ⟨members, opened, ended⟩ := bind_ok ended
    obtain ⟨id, _, ended⟩ := bind_ok ended
    obtain ⟨url, _, ended⟩ := bind_ok ended
    obtain ⟨sha1, read, ended⟩ := bind_ok ended
    obtain rfl := Except.ok.inj ended
    obtain rfl := List.mem_singleton.mp carried
    obtain rfl := Json.asObject_ok.mp opened
    exact .of_parseSha1 read
  refuses ended := by
    rcases bind_error ended with refused | ⟨members, opened, refused⟩
    · exact .of_asObject refused
    obtain rfl := Json.asObject_ok.mp opened
    rcases bind_error refused with refused | ⟨id, _, refused⟩
    · exact .of_getD (.of_asString refused)
    rcases bind_error refused with refused | ⟨url, _, refused⟩
    · exact .of_getD (.of_asString refused)
    rcases bind_error refused with refused | ⟨sha1, _, refused⟩
    · exact .of_parseSha1 refused
    · contradiction

theorem DownloadEntry.parse_admitsDigests (destination : Path) :
    AdmitsDigests "sha1" (fun v place => DownloadEntry.parse v destination place)
      fun entry => [entry.sha1] where
  admits ended _ carried := by
    obtain ⟨members, opened, ended⟩ := bind_ok ended
    obtain ⟨url, _, ended⟩ := bind_ok ended
    obtain ⟨size, _, ended⟩ := bind_ok ended
    obtain ⟨sha1, read, ended⟩ := bind_ok ended
    obtain rfl := Except.ok.inj ended
    obtain rfl := List.mem_singleton.mp carried
    obtain rfl := Json.asObject_ok.mp opened
    exact .of_parseSha1 read
  refuses ended := by
    rcases bind_error ended with refused | ⟨members, opened, refused⟩
    · exact .of_asObject refused
    obtain rfl := Json.asObject_ok.mp opened
    rcases bind_error refused with refused | ⟨url, _, refused⟩
    · exact .of_getD (.of_asString refused)
    rcases bind_error refused with refused | ⟨size, _, refused⟩
    · exact .of_getD (.of_asWhole? refused)
    rcases bind_error refused with refused | ⟨sha1, _, refused⟩
    · exact .of_parseSha1 refused
    · contradiction

theorem InstallPlan.AssetObject.parse_admitsDigests :
    AdmitsDigests "hash" AssetObject.parse fun object => [some object.hash] where
  admits ended _ carried := by
    obtain ⟨members, opened, ended⟩ := bind_ok ended
    split at ended
    · rename_i text given
      split at ended
      · rename_i met
        obtain ⟨hash, same, ended⟩ := bind_ok ended
        obtain rfl := Except.ok.inj same
        obtain ⟨size, _, ended⟩ := bind_ok ended
        obtain rfl := Except.ok.inj ended
        obtain rfl := List.mem_singleton.mp carried
        obtain rfl := Json.asObject_ok.mp opened
        exact ⟨by rintro _ ⟨⟩; exact met, [], members, .here _, given⟩
      · contradiction
    · contradiction
  refuses ended := by
    rcases bind_error ended with refused | ⟨members, opened, refused⟩
    · exact .of_asObject refused
    obtain rfl := Json.asObject_ok.mp opened
    split at refused
    · rename_i text given
      split at refused
      · obtain ⟨_, same, refused⟩ := (bind_error refused).resolve_left nofun
        rcases bind_error refused with refused | ⟨size, _, refused⟩
        · exact .of_getD (.of_asWhole? refused)
        · contradiction
      · rename_i unmet
        obtain rfl := Except.error.inj refused
        refine .digest ?_
        rw [given]
        exact eq_false_of_ne_true unmet
    · rename_i other
      obtain rfl := Except.error.inj refused
      exact .digest (Need.digest_unmet other)

end Readers

namespace Rule
variable {v : Json} {steps : List Step} {need : Need}

theorem SystemFault.ne_digest (fault : SystemFault v steps need) : need ≠ .digest := by
  cases fault <;> exact nofun

theorem FeaturesFault.ne_digest (fault : FeaturesFault v steps need) : need ≠ .digest := by
  cases fault <;> exact nofun

/-- Rules hold no digests. -/
theorem ListFault.ne_digest (fault : ListFault v steps need) : need ≠ .digest := by
  cases fault with
  | list => exact nofun
  | item _ fault =>
    cases fault with
    | object | action => exact nofun
    | os _ fault => exact fault.ne_digest
    | features _ _ _ fault => exact fault.ne_digest

end Rule

namespace Library
variable {platform : Platform} {v : Json} {steps : List Step}

/-- A library is refused over a digest only because of the one of an artifact. -/
theorem Fault.of_digest (fault : Fault platform v steps .digest) :
    ∃ above, steps = above ++ [.member "sha1"] := by
  generalize wanted : Need.digest = need at fault
  cases fault with
  | object | name | downloads => contradiction
  | rules _ _ fault => exact absurd wanted.symm fault.ne_digest
  | choice _ fault => cases fault <;> contradiction
  | artifact _ _ _ fault =>
    cases fault with
    | object | url | path | size => contradiction
    | sha1 => exact ⟨_, rfl⟩

theorem parse_admitsDigests (platform : Platform) :
    AdmitsDigests "sha1" (parse platform) fun result => result.toList.map (·.sha1) where
  admits {v place result} ended digest carried := by
    cases parse_eq_ok.mp ended with
    | foreign | bare => contradiction
    | file heads chosen file =>
      obtain rfl := List.mem_singleton.mp carried
      exact ⟨file.digest, _, _, chosen.leads heads.downloads nofun, file.sha1⟩
  refuses {v place e} refused := by
    rcases reads_or_fault platform v with ⟨result, reads⟩ | ⟨steps, need, fault⟩
    · rw [reads.parse] at refused
      contradiction
    · rw [fault.parse] at refused
      obtain rfl := Except.error.inj refused
      refine ⟨steps, rfl, fault.amiss, ?_⟩
      rintro ⟨⟩
      exact fault.of_digest

end Library
end Launcher
