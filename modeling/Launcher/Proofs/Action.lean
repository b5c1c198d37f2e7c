import Launcher.Files.Access

/-! Running actions that may fail on a state. What an action did before it failed is kept, so an
invariant of an action holds whether it fails or not. -/
namespace Launcher

theorem bind_ok {ε α β : Type} {first : Except ε α} {next : α → Except ε β} {value : β}
    (h : first >>= next = .ok value) : ∃ middle, first = .ok middle ∧ next middle = .ok value := by
  cases first with
  | error e => cases h
  | ok middle => exact ⟨middle, rfl, h⟩

theorem bind_error {ε α β : Type} {first : Except ε α} {next : α → Except ε β} {e : ε}
    (h : first >>= next = .error e) :
    first = .error e ∨ ∃ middle, first = .ok middle ∧ next middle = .error e := by
  cases first with
  | error e' => cases h; exact .inl rfl
  | ok middle => exact .inr ⟨middle, rfl, h⟩

theorem mapError_ok_iff {ε ε' α : Type} {fault : ε → ε'} {result : Except ε α} {value : α} :
    result.mapError fault = .ok value ↔ result = .ok value := by
  constructor
  · intro h
    cases result with
    | error e => cases h
    | ok value' => cases h; rfl
  · rintro rfl
    rfl

theorem mapError_error {ε ε' α : Type} {result : Except ε α} {fault : ε → ε'} {e' : ε'}
    (h : result.mapError fault = .error e') : ∃ e, result = .error e ∧ fault e = e' := by
  cases result with
  | error e => cases h; exact ⟨e, rfl, rfl⟩
  | ok value => cases h

theorem exists_ok_of_toBool {ε α : Type} {result : Except ε α} (succeeds : result.toBool) :
    ∃ value, result = .ok value := by
  cases result with
  | error e => contradiction
  | ok value => exact ⟨value, rfl⟩

section Run
variable {ε σ α β : Type}

theorem run_bind (action : ExceptT ε (StateM σ) α) (next : α → ExceptT ε (StateM σ) β) (s : σ) :
    (action >>= next).run.run s =
      match action.run.run s with
      | (.ok value, s) => (next value).run.run s
      | (.error e, s) => (.error e, s) := by
  rw [ExceptT.run_bind, StateT.run_bind]
  rcases action.run.run s with ⟨_ | _, _⟩ <;> rfl

theorem run_pure (value : α) (s : σ) :
    (pure value : ExceptT ε (StateM σ) α).run.run s = (.ok value, s) := rfl

theorem run_throw (e : ε) (s : σ) :
    (throw e : ExceptT ε (StateM σ) α).run.run s = (.error e, s) := rfl

theorem run_get (s : σ) : (get : ExceptT ε (StateM σ) σ).run.run s = (.ok s, s) := rfl

theorem run_set (s s' : σ) : (set s' : ExceptT ε (StateM σ) PUnit).run.run s = (.ok ⟨⟩, s') := rfl

theorem run_modify (change : σ → σ) (s : σ) :
    (modify change : ExceptT ε (StateM σ) PUnit).run.run s = (.ok ⟨⟩, change s) := rfl

/-- An action keeps a property of states, and the faults that end it are of a kind. -/
def Safe (P : σ → Prop) (E : ε → Prop) (action : ExceptT ε (StateM σ) α) : Prop :=
  ∀ s, P s → P (action.run.run s).2 ∧ ∀ e, (action.run.run s).1 = .error e → E e

/-- The faults that end an action are of a kind, whatever the state. -/
abbrev FailsBy (E : ε → Prop) (action : ExceptT ε (StateM σ) α) : Prop :=
  Safe (fun _ => True) E action

/-- If an action ends well, then with a value and in a state of which something holds. -/
def Gives (P : σ → Prop) (action : ExceptT ε (StateM σ) α) (Q : α → σ → Prop) : Prop :=
  ∀ s, P s → ∀ value s', action.run.run s = (.ok value, s') → Q value s'

namespace Gives
variable {P : σ → Prop}

theorem pure {Q : α → σ → Prop} {value : α} (h : ∀ s, P s → Q value s) :
    Gives P (pure value : ExceptT ε (StateM σ) α) Q := by
  intro s before value' s' ended
  rw [run_pure] at ended
  cases ended
  exact h s before

theorem bind {action : ExceptT ε (StateM σ) α} {next : α → ExceptT ε (StateM σ) β}
    {Q : α → σ → Prop} {R : β → σ → Prop} (first : Gives P action Q)
    (second : ∀ value, Gives (Q value) (next value) R) : Gives P (action >>= next) R := by
  intro s before value s' ended
  rw [run_bind] at ended
  rcases ran : action.run.run s with ⟨e | middle, s₁⟩
  · rw [ran] at ended
    cases ended
  · rw [ran] at ended
    exact second middle s₁ (first s before middle s₁ ran) value s' ended

/-- What an action gives may be known from its last part alone. -/
theorem after {action : ExceptT ε (StateM σ) α} {next : α → ExceptT ε (StateM σ) β}
    {R : β → σ → Prop} (last : ∀ value, Gives (fun _ => True) (next value) R) :
    Gives P (action >>= next) R :=
  bind (fun _ _ _ _ _ => trivial) last

end Gives

namespace Safe
variable {P : σ → Prop} {E : ε → Prop}

theorem pure (value : α) : Safe P E (pure value : ExceptT ε (StateM σ) α) :=
  fun _ h => ⟨h, fun _ failed => nomatch failed⟩

theorem throw {e : ε} (kind : E e) : Safe P E (throw e : ExceptT ε (StateM σ) α) := by
  intro s h
  refine ⟨h, fun e' failed => ?_⟩
  rw [run_throw] at failed
  cases failed
  exact kind

theorem get : Safe P E (get : ExceptT ε (StateM σ) σ) :=
  fun _ h => ⟨h, fun _ failed => nomatch failed⟩

theorem gives {action : ExceptT ε (StateM σ) α} (safe : Safe P E action) :
    Gives P action fun _ => P := by
  intro s before value s' ended
  have kept := (safe s before).1
  rw [ended] at kept
  exact kept

theorem modify {change : σ → σ} (keeps : ∀ s, P s → P (change s)) :
    Safe P E (modify change : ExceptT ε (StateM σ) PUnit) :=
  fun s h => ⟨keeps s h, fun _ failed => nomatch failed⟩

theorem bind {action : ExceptT ε (StateM σ) α} {next : α → ExceptT ε (StateM σ) β}
    (first : Safe P E action) (second : ∀ value, Safe P E (next value)) :
    Safe P E (action >>= next) := by
  intro s h
  obtain ⟨kept, kind⟩ := first s h
  rw [run_bind]
  generalize action.run.run s = outcome at kept kind ⊢
  obtain ⟨e | value, s'⟩ := outcome
  · exact ⟨kept, fun e' failed => kind e' (by cases failed; rfl)⟩
  · exact second value s' kept

theorem ite {condition : Prop} [Decidable condition] {first second : ExceptT ε (StateM σ) α}
    (yes : Safe P E first) (no : Safe P E second) :
    Safe P E (if condition then first else second) := by
  split
  · exact yes
  · exact no

theorem throw_bind {e : ε} {next : α → ExceptT ε (StateM σ) β} (kind : E e) :
    Safe P E ((MonadExcept.throw e : ExceptT ε (StateM σ) α) >>= next) := by
  intro s h
  exact (throw kind : Safe P E (MonadExcept.throw e : ExceptT ε (StateM σ) β)) s h

/-- A condition that ends an action goes before the rest. -/
theorem guard {condition : Prop} [Decidable condition] {e : ε}
    {next : PUnit → ExceptT ε (StateM σ) β} (kind : E e) (rest : Safe P E (next ⟨⟩)) :
    Safe P E (if condition then MonadExcept.throw e >>= next else next ⟨⟩) :=
  .ite (.throw_bind kind) rest

theorem assoc {γ : Type} {action : ExceptT ε (StateM σ) α}
    {next : α → ExceptT ε (StateM σ) β} {last : β → ExceptT ε (StateM σ) γ}
    (h : Safe P E ((action >>= next) >>= last)) :
    Safe P E (action >>= fun value => next value >>= last) := by
  rw [← bind_assoc]
  exact h

/-- An action may keep more than what follows it needs. -/
theorem bind_from {P' : σ → Prop} {action : ExceptT ε (StateM σ) α}
    {next : α → ExceptT ε (StateM σ) β} (first : Safe P' E action) (weaker : ∀ s, P' s → P s)
    (second : ∀ value, Safe P E (next value)) {s : σ} (h : P' s) :
    P ((action >>= next).run.run s).2 ∧ ∀ e, ((action >>= next).run.run s).1 = .error e → E e := by
  obtain ⟨kept, kind⟩ := first s h
  rw [run_bind]
  generalize action.run.run s = outcome at kept kind ⊢
  obtain ⟨e | value, s'⟩ := outcome
  · exact ⟨weaker _ kept, fun e' failed => kind e' (by cases failed; rfl)⟩
  · exact second value s' (weaker _ kept)

/-- What an action that ends well gives beyond the invariant is at hand for what follows it. -/
theorem bind_of {action : ExceptT ε (StateM σ) α} {next : α → ExceptT ε (StateM σ) β}
    {Q : α → σ → Prop} (first : Safe P E action)
    (gives : Gives P action Q)
    (second : ∀ value s, Q value s →
      P ((next value).run.run s).2 ∧ ∀ e, ((next value).run.run s).1 = .error e → E e) :
    Safe P E (action >>= next) := by
  intro s h
  obtain ⟨kept, kind⟩ := first s h
  have given := gives s h
  rw [run_bind]
  generalize action.run.run s = outcome at kept kind given ⊢
  obtain ⟨e | value, s'⟩ := outcome
  · exact ⟨kept, fun e' failed => kind e' (by cases failed; rfl)⟩
  · exact second value s' (given value s' rfl)

theorem weaken {E' : ε → Prop} {action : ExceptT ε (StateM σ) α} (safe : Safe P E action)
    (weaker : ∀ e, E e → E' e) : Safe P E' action :=
  fun s h => (safe s h).imp_right fun kind e failed => weaker e (kind e failed)

/-- What is done with the state itself is looked at state by state. -/
theorem get_bind {next : σ → ExceptT ε (StateM σ) β}
    (each : ∀ s, P s → P ((next s).run.run s).2 ∧ ∀ e, ((next s).run.run s).1 = .error e → E e) :
    Safe P E (MonadState.get >>= next) := by
  intro s h
  rw [run_bind]
  exact each s h

end Safe
end Run
end Launcher
