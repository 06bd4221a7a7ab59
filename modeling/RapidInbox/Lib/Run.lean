import Mathlib.Data.Option.Basic

/-!
# Runs of a partial step function

A system is a step function from a state and an action to the next state, undefined where the action
is not enabled.  A run is a list of actions; an invariant of the steps is an invariant of the runs.
-/

namespace Transition

variable {σ α : Type}

/-- Perform the actions in order. -/
def run (step : σ → α → Option σ) : σ → List α → Option σ
  | s, [] => some s
  | s, a :: as => (step s a).bind fun s' => run step s' as

theorem run_append {step : σ → α → Option σ} {s : σ} {as bs : List α} :
    run step s (as ++ bs) = (run step s as).bind fun s' => run step s' bs := by
  induction as generalizing s with
  | nil => rfl
  | cons a as ih =>
    rw [List.cons_append, run, run, Option.bind_assoc]
    exact congrArg _ (funext fun s' => ih)

/-- What every step preserves, every run preserves. -/
theorem run_invariant {step : σ → α → Option σ} {Inv : σ → Prop}
    (hstep : ∀ s a s', Inv s → step s a = some s' → Inv s') {s s' : σ} {as : List α}
    (h : Inv s) (hrun : run step s as = some s') : Inv s' := by
  induction as generalizing s with
  | nil =>
    cases hrun
    exact h
  | cons a as ih =>
    obtain ⟨s₁, hs₁, hrest⟩ := Option.bind_eq_some_iff.mp hrun
    exact ih (hstep s a s₁ h hs₁) hrest

/-- A condition holds of every step of a run. -/
def Along (step : σ → α → Option σ) (P : σ → α → Prop) : σ → List α → Prop
  | _, [] => True
  | s, a :: as => P s a ∧ ∀ s', step s a = some s' → Along step P s' as

/-- A condition that can be decided of a step can be decided of a run. -/
instance Along.decidable (step : σ → α → Option σ) (P : σ → α → Prop) [∀ s a, Decidable (P s a)] :
    ∀ s as, Decidable (Along step P s as)
  | _, [] => isTrue trivial
  | s, a :: as =>
    match h : step s a with
    | none =>
      decidable_of_iff (P s a)
        ⟨fun hp => ⟨hp, fun _ hs => nomatch h.symm.trans hs⟩, And.left⟩
    | some s₁ =>
      haveI := Along.decidable step P s₁ as
      decidable_of_iff (P s a ∧ Along step P s₁ as)
        ⟨fun ⟨hp, hrest⟩ => ⟨hp, fun _ hs => Option.some.inj (h.symm.trans hs) ▸ hrest⟩,
          fun ⟨hp, hrest⟩ => ⟨hp, hrest s₁ h⟩⟩

/-- Actions that meet the condition in every state. -/
theorem along_of_forall {step : σ → α → Option σ} {P : σ → α → Prop} {s : σ} {as : List α}
    (h : ∀ a ∈ as, ∀ s, P s a) : Along step P s as := by
  induction as generalizing s with
  | nil => trivial
  | cons a as ih =>
    obtain ⟨ha, has⟩ := List.forall_mem_cons.mp h
    exact ⟨ha s, fun s' _ => ih has⟩

theorem Along.mono {step : σ → α → Option σ} {P Q : σ → α → Prop} (hle : ∀ s a, P s a → Q s a)
    {s : σ} {as : List α} (h : Along step P s as) : Along step Q s as := by
  induction as generalizing s with
  | nil => trivial
  | cons a as ih => exact ⟨hle s a h.1, fun s' hs' => ih (h.2 s' hs')⟩

theorem Along.and {step : σ → α → Option σ} {P Q : σ → α → Prop} {s : σ} {as : List α}
    (hP : Along step P s as) (hQ : Along step Q s as) : Along step (fun s a => P s a ∧ Q s a) s as := by
  induction as generalizing s with
  | nil => trivial
  | cons a as ih => exact ⟨⟨hP.1, hQ.1⟩, fun s' hs' => ih (hP.2 s' hs') (hQ.2 s' hs')⟩

/-- What every step that meets a condition preserves, every run of such steps preserves. -/
theorem run_invariant_along {step : σ → α → Option σ} {P : σ → α → Prop} {Inv : σ → Prop}
    (hstep : ∀ s a s', Inv s → P s a → step s a = some s' → Inv s') {s s' : σ} {as : List α}
    (h : Inv s) (halong : Along step P s as) (hrun : run step s as = some s') : Inv s' := by
  induction as generalizing s with
  | nil =>
    cases hrun
    exact h
  | cons a as ih =>
    obtain ⟨s₁, hs₁, hrest⟩ := Option.bind_eq_some_iff.mp hrun
    exact ih (hstep s a s₁ h halong.1 hs₁) (halong.2 s₁ hs₁) hrest

/-- What every step of a fallible fold preserves, a fold that succeeds preserves. -/
theorem foldlM_invariant {ε : Type} {step : σ → α → Except ε σ} {Inv : σ → Prop} {as : List α}
    (hstep : ∀ s, Inv s → ∀ a ∈ as, ∀ s', step s a = .ok s' → Inv s') {s s' : σ}
    (h : Inv s) (hfold : as.foldlM step s = .ok s') : Inv s' := by
  induction as generalizing s with
  | nil =>
    cases hfold
    exact h
  | cons a as ih =>
    rw [List.foldlM_cons] at hfold
    cases hs : step s a with
    | error e =>
      rw [hs] at hfold
      cases hfold
    | ok s₁ =>
      rw [hs] at hfold
      have h₁ := hstep s h a List.mem_cons_self s₁ hs
      exact ih (fun t ht b hb => hstep t ht b (List.mem_cons_of_mem _ hb)) h₁ hfold

end Transition
