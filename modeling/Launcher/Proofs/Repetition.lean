import Launcher.Proofs.Action

/-! Doing again what was done. An action that ran from one state is run from a later one, in which
what it came to is there already. The claim on the later state is made backwards, from the end of
the first run, and the relation between the two runs goes forwards. -/
namespace Launcher

section Inversion
variable {ε σ α β : Type}

/-- What ended well began well, and went on from there. -/
theorem run_bind_ok {action : ExceptT ε (StateM σ) α} {next : α → ExceptT ε (StateM σ) β}
    {s s' : σ} {value : β} (h : (action >>= next).run.run s = (.ok value, s')) :
    ∃ middle s₁, action.run.run s = (.ok middle, s₁) ∧
      (next middle).run.run s₁ = (.ok value, s') := by
  rw [run_bind] at h
  rcases ran : action.run.run s with ⟨e | middle, s₁⟩
  · rw [ran] at h
    cases h
  · rw [ran] at h
    exact ⟨middle, s₁, rfl, h⟩

end Inversion

/-- An action that runs from a state repeats its run from related states. It may fail, with a fault
that recurs. `Before` says of a state that all it has is there in the end. -/
def Repeats {ε σ α : Type} (Recurs : ε → Prop) (Before : σ → Prop) (Related : σ → σ → Prop)
    (action : ExceptT ε (StateM σ) α) (s : σ) : Prop :=
  (∀ e, (action.run.run s).1 = .error e → Recurs e) → Before (action.run.run s).2 →
    Before s ∧ ∀ t, Related s t → ∃ t', action.run.run t = ((action.run.run s).1, t') ∧
      Related (action.run.run s).2 t'

namespace Repeats
variable {ε σ α β : Type} {Recurs : ε → Prop} {Before : σ → Prop} {Related : σ → σ → Prop} {s : σ}

theorem pure (value : α) :
    Repeats Recurs Before Related (pure value : ExceptT ε (StateM σ) α) s :=
  fun _ before => ⟨before, fun t related => ⟨t, rfl, related⟩⟩

theorem throw (e : ε) :
    Repeats Recurs Before Related (throw e : ExceptT ε (StateM σ) α) s :=
  fun _ before => ⟨before, fun t related => ⟨t, rfl, related⟩⟩

theorem modify {change : σ → σ} (back : Before (change s) → Before s)
    (keeps : Before (change s) → ∀ t, Related s t → Related (change s) (change t)) :
    Repeats Recurs Before Related (modify change : ExceptT ε (StateM σ) PUnit) s :=
  fun _ before => ⟨back before, fun t related => ⟨change t, rfl, keeps before t related⟩⟩

theorem iff_of_run {action : ExceptT ε (StateM σ) α} {result : Except ε α} {s' : σ}
    (ran : action.run.run s = (result, s')) :
    Repeats Recurs Before Related action s ↔
      ((∀ e, result = .error e → Recurs e) → Before s' →
        Before s ∧ ∀ t, Related s t → ∃ t', action.run.run t = (result, t') ∧ Related s' t') := by
  rw [Repeats, ran]

/-- Nothing is to be shown of a run that ends with a fault which does not recur. -/
theorem of_fault {action : ExceptT ε (StateM σ) α} {e : ε}
    (failed : (action.run.run s).1 = .error e) (final : ¬ Recurs e) :
    Repeats Recurs Before Related action s :=
  fun recurs _ => absurd (recurs e failed) final

theorem bind {action : ExceptT ε (StateM σ) α} {next : α → ExceptT ε (StateM σ) β}
    (first : Repeats Recurs Before Related action s)
    (second : ∀ value s₁, action.run.run s = (.ok value, s₁) →
      Repeats Recurs Before Related (next value) s₁) :
    Repeats Recurs Before Related (action >>= next) s := by
  rcases ran : action.run.run s with ⟨e | value, s₁⟩
  · have whole : (action >>= next).run.run s = (.error e, s₁) := by rw [run_bind, ran]
    rw [iff_of_run whole]
    intro recurs before
    have recurs' : ∀ e', (.error e : Except ε α) = .error e' → Recurs e' := by
      rintro _ ⟨⟩
      exact recurs e rfl
    obtain ⟨began, again⟩ := (iff_of_run ran).mp first recurs' before
    refine ⟨began, fun t related => ?_⟩
    obtain ⟨t', ran', related'⟩ := again t related
    exact ⟨t', by rw [run_bind, ran'], related'⟩
  · have whole : (action >>= next).run.run s = (next value).run.run s₁ := by rw [run_bind, ran]
    rw [Repeats, whole]
    intro recurs before
    obtain ⟨middle, onward⟩ := second value s₁ ran recurs before
    obtain ⟨began, again⟩ := (iff_of_run ran).mp first nofun middle
    refine ⟨began, fun t related => ?_⟩
    obtain ⟨t₁, ran₁, related₁⟩ := again t related
    obtain ⟨t', ran', related'⟩ := onward t₁ related₁
    exact ⟨t', by rw [run_bind, ran₁]; exact ran', related'⟩

/-- What is done with the state itself is the same if it depends on nothing that differs. -/
theorem get_bind {next : σ → ExceptT ε (StateM σ) β}
    (same : ∀ t, Related s t → next t = next s)
    (each : Repeats Recurs Before Related (next s) s) :
    Repeats Recurs Before Related (get >>= next) s := by
  intro recurs before
  obtain ⟨began, again⟩ := each recurs before
  refine ⟨began, fun t related => ?_⟩
  obtain ⟨t', ran, related'⟩ := again t related
  refine ⟨t', ?_, related'⟩
  rw [run_bind, run_bind, run_get, run_get]
  simp only [same t related]
  exact ran

theorem ite {condition : Prop} [Decidable condition] {first second : ExceptT ε (StateM σ) α}
    (yes : condition → Repeats Recurs Before Related first s)
    (no : ¬ condition → Repeats Recurs Before Related second s) :
    Repeats Recurs Before Related (if condition then first else second) s := by
  split
  · exact yes ‹_›
  · exact no ‹_›

theorem throw_bind (e : ε) {next : α → ExceptT ε (StateM σ) β} :
    Repeats Recurs Before Related ((MonadExcept.throw e : ExceptT ε (StateM σ) α) >>= next) s :=
  bind (throw e) fun _ _ ran => nomatch ran

/-- A condition that ends an action goes before the rest. -/
theorem guard {condition : Prop} [Decidable condition] {e : ε}
    {next : PUnit → ExceptT ε (StateM σ) β}
    (rest : Repeats Recurs Before Related (next ⟨⟩) s) :
    Repeats Recurs Before Related
      (if condition then MonadExcept.throw e >>= next else next ⟨⟩) s :=
  .ite (fun _ => throw_bind e) fun _ => rest

end Repeats
end Launcher
