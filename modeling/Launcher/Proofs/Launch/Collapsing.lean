import Launcher.Proofs.Launch.Evaluation
import Mathlib.Data.List.DropRight
import Mathlib.Data.List.ReduceOption

/-! What dropped items do to the arguments before them. Items are kept ones with runs of dropped
ones between them, and a run takes away as many arguments as its length and the item before it tell.
So arguments can be lost, but none is changed, moved or lost again. -/
namespace Launcher.Evaluation

/-- A kept item, and the number of dropped ones between it and the next kept one. -/
structure Stretch where
  text : String
  gap : Nat
  deriving DecidableEq, Repr

namespace Stretch

def items (s : Stretch) : List (Option String) := some s.text :: List.replicate s.gap none

/-- The arguments with those of a stretch. Its dropped items take away one argument less than they
are, but as many if the kept item is empty, and all arguments if there are fewer. -/
def extend (args : List String) (s : Stretch) : List String :=
  if s.gap = 0 then args ++ [s.text]
  else (args ++ [s.text]).rdrop (if s.text = "" then s.gap else s.gap - 1)

end Stretch

/-- Items by their maximal runs of dropped ones. The first run has no item before it. -/
structure Runs where
  lead : Nat
  stretches : List Stretch
  deriving DecidableEq, Repr

namespace Runs

def items (runs : Runs) : List (Option String) :=
  List.replicate runs.lead none ++ runs.stretches.flatMap Stretch.items

def ofItems : List (Option String) → Runs
  | [] => ⟨0, []⟩
  | none :: rest => ⟨(ofItems rest).lead + 1, (ofItems rest).stretches⟩
  | some text :: rest => ⟨0, ⟨text, (ofItems rest).lead⟩ :: (ofItems rest).stretches⟩

theorem items_ofItems (items : List (Option String)) : (ofItems items).items = items := by
  induction items with
  | nil => rfl
  | cons item rest ih =>
    cases item with
    | none => exact congrArg (none :: ·) ih
    | some text => exact congrArg (some text :: ·) ih

theorem ofItems_replicate_append (n : Nat) (items : List (Option String)) :
    ofItems (List.replicate n none ++ items) =
      ⟨n + (ofItems items).lead, (ofItems items).stretches⟩ := by
  induction n with
  | zero => simp
  | succ n ih =>
    rw [List.replicate_succ, List.cons_append, ofItems, ih]
    simp [Nat.add_right_comm]

theorem ofItems_items (runs : Runs) : ofItems runs.items = runs := by
  obtain ⟨lead, stretches⟩ := runs
  have split : ofItems (stretches.flatMap Stretch.items) = ⟨0, stretches⟩ := by
    induction stretches with
    | nil => rfl
    | cons stretch later ih =>
      rw [List.flatMap_cons, Stretch.items, List.cons_append, ofItems, ofItems_replicate_append, ih]
      rfl
  rw [items, ofItems_replicate_append, split]
  rfl

/-- Items can be taken apart in one way only. -/
theorem eq_of_items {a b : Runs} (same : a.items = b.items) : a = b := by
  rw [← ofItems_items a, same, ofItems_items]

end Runs

section Steps
variable {args : List String} {afterGap : Bool}

/-- One more item: the arguments so far, and whether a dropped item behind it takes one away. -/
def step : List String × Bool → Option String → List String × Bool :=
  fun (args, afterGap) item =>
    match item with
    | none => (if afterGap then args.dropLast else args, true)
    | some text => (args ++ [text], text = "")

theorem collapse_eq (items : List (Option String)) :
    collapse items = (items.foldl step ([], false)).1 := rfl

theorem rdrop_dropLast (args : List String) (n : Nat) :
    args.dropLast.rdrop n = args.rdrop (n + 1) := by
  rw [List.dropLast_eq_take, List.rdrop, List.rdrop, List.take_take, List.length_take]
  congr 1
  omega

/-- Within a run each dropped item takes an argument away. -/
theorem foldl_gap (args : List String) (n : Nat) :
    (List.replicate n none).foldl step (args, true) = (args.rdrop n, true) := by
  induction n generalizing args with
  | zero => simp
  | succ n ih =>
    rw [List.replicate_succ, List.foldl_cons, ← rdrop_dropLast]
    exact ih args.dropLast

/-- Dropped items before the first kept one find no argument. -/
theorem foldl_lead (n : Nat) (afterGap : Bool) :
    ∃ afterGap', (List.replicate n none).foldl step ([], afterGap) = ([], afterGap') := by
  cases n with
  | zero => exact ⟨afterGap, rfl⟩
  | succ n =>
    have first : step ([], afterGap) none = ([], true) := by cases afterGap <;> rfl
    rw [List.replicate_succ, List.foldl_cons, first, foldl_gap, List.rdrop_nil]
    exact ⟨true, rfl⟩

theorem foldl_stretch (args : List String) (afterGap : Bool) (s : Stretch) :
    ∃ afterGap', s.items.foldl step (args, afterGap) = (s.extend args, afterGap') := by
  obtain ⟨text, gap⟩ := s
  cases gap with
  | zero => exact ⟨_, rfl⟩
  | succ n =>
    -- The first dropped item looks at the kept one, the others at the dropped one before them.
    have split : Stretch.items ⟨text, n + 1⟩ = some text :: none :: List.replicate n none := rfl
    have first : step (step (args, afterGap) (some text)) none =
        (if text = "" then (args ++ [text]).dropLast else args ++ [text], true) := by
      simp [step]
    rw [split, List.foldl_cons, List.foldl_cons, first, foldl_gap]
    refine ⟨true, ?_⟩
    by_cases empty : text = ""
    · simp only [empty, if_true, rdrop_dropLast, Stretch.extend, Nat.succ_ne_zero, if_false]
    · simp only [empty, if_false, Stretch.extend, Nat.succ_ne_zero, Nat.add_sub_cancel]

theorem foldl_stretches (args : List String) (afterGap : Bool) (stretches : List Stretch) :
    ((stretches.flatMap Stretch.items).foldl step (args, afterGap)).1 =
      stretches.foldl Stretch.extend args := by
  induction stretches generalizing args afterGap with
  | nil => rfl
  | cons s later ih =>
    obtain ⟨afterGap', one⟩ := foldl_stretch args afterGap s
    rw [List.flatMap_cons, List.foldl_append, one, ih, List.foldl_cons]

/-- The items leave what their runs leave. -/
theorem collapse_items (runs : Runs) :
    collapse runs.items = runs.stretches.foldl Stretch.extend [] := by
  obtain ⟨afterGap, lead⟩ := foldl_lead runs.lead false
  rw [collapse_eq, Runs.items, List.foldl_append, lead, foldl_stretches]

theorem foldl_sublist (args : List String) (afterGap : Bool) (items : List (Option String)) :
    (items.foldl step (args, afterGap)).1.Sublist (args ++ items.reduceOption) := by
  induction items generalizing args afterGap with
  | nil => simp
  | cons item rest ih =>
    cases item with
    | none =>
      have fewer : (if afterGap then args.dropLast else args).Sublist args := by
        split
        · exact List.dropLast_sublist args
        · exact List.Sublist.refl args
      rw [List.reduceOption_cons_of_none]
      exact (ih _ true).trans (fewer.append_right _)
    | some text =>
      have later := ih (args ++ [text]) (decide (text = ""))
      rwa [List.append_assoc, List.singleton_append] at later

theorem pair_isInfix {first second : Option String} {rest : List (Option String)}
    (next : rest.head? = some second) : [first, second] <:+: first :: rest := by
  obtain ⟨later, rfl⟩ := List.head?_eq_some_iff.mp next
  exact List.IsPrefix.isInfix ⟨later, rfl⟩

/-- Where no dropped item follows a dropped or empty one, all kept items are arguments. -/
theorem foldl_of_separate {items : List (Option String)} (separate : ¬ [none, none] <:+: items)
    (filled : ¬ [some "", none] <:+: items)
    (first : afterGap = true → items.head? ≠ some none) :
    (items.foldl step (args, afterGap)).1 = args ++ items.reduceOption := by
  induction items generalizing args afterGap with
  | nil => simp
  | cons item rest ih =>
    have behind {pair : List (Option String)} (free : ¬ pair <:+: item :: rest) :
        ¬ pair <:+: rest := fun inside => free (inside.trans (List.suffix_cons item rest).isInfix)
    cases item with
    | none =>
      obtain rfl : afterGap = false := by
        cases afterGap with
        | false => rfl
        | true => exact absurd rfl (first rfl)
      rw [List.foldl_cons, List.reduceOption_cons_of_none]
      exact ih (behind separate) (behind filled) fun _ next => separate (pair_isInfix next)
    | some text =>
      have later := @ih (args ++ [text]) (decide (text = "")) (behind separate) (behind filled)
        fun empty next => filled (of_decide_eq_true empty ▸ pair_isInfix next)
      rwa [List.append_assoc, List.singleton_append] at later

end Steps

/-- Items are runs of dropped ones between kept ones in just one way, and these tell what is left:
some of the kept items in their order, which are all of them if no dropped item follows a dropped or
an empty one, and from which no more is taken away. -/
theorem collapse_runs (items : List (Option String)) :
    (∃ runs : Runs, runs.items = items ∧ (∀ other : Runs, other.items = items → other = runs) ∧
      collapse items = runs.stretches.foldl Stretch.extend []) ∧
    (∀ argument ∈ collapse items, some argument ∈ items) ∧
    (collapse items).Sublist items.reduceOption ∧
    (¬ [none, none] <:+: items → ¬ [some "", none] <:+: items →
      collapse items = items.reduceOption) ∧
    collapse ((collapse items).map some) = collapse items := by
  have kept : (collapse items).Sublist items.reduceOption := foldl_sublist [] false items
  refine ⟨⟨.ofItems items, Runs.items_ofItems items, fun other same => ?_, ?_⟩, ?_, kept, ?_, ?_⟩
  · exact Runs.eq_of_items (same.trans (Runs.items_ofItems items).symm)
  · have left := collapse_items (.ofItems items)
    rwa [Runs.items_ofItems] at left
  · intro argument member
    exact List.reduceOption_mem_iff.mp (kept.subset member)
  · intro separate filled
    exact foldl_of_separate separate filled nofun
  · exact collapse_map_some (collapse items)

theorem separate_items_kept :
    let items := [none, some "", some "--id", none, some "a"]
    ¬ [none, none] <:+: items ∧ ¬ [some "", none] <:+: items ∧
      collapse items = ["", "--id", "a"] := by
  intro items
  have separate : ¬ [none, none] <:+: items := by decide
  have filled : ¬ [some "", none] <:+: items := by decide
  exact ⟨separate, filled, (collapse_runs items).2.2.2.1 separate filled⟩

/-- A run takes away arguments that stand far before it. -/
example : collapse [some "--user", some "", none, some "--id", none, none, none, some "a"] =
    ["a"] := by decide

end Launcher.Evaluation
