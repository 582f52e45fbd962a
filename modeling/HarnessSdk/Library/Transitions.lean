import Mathlib

/-! Runs of a deterministic system, one action after another. -/
namespace Transitions
variable {σ α : Type} (act : σ → α → σ)

def run (start : σ) (actions : List α) : σ := actions.foldl act start

theorem run_append (start : σ) (before later : List α) :
    run act start (before ++ later) = run act (run act start before) later :=
  List.foldl_append

variable {act}

theorem run_keeps (inv : σ → Prop) (step : ∀ s a, inv s → inv (act s a)) {start : σ}
    (holds : inv start) (actions : List α) : inv (run act start actions) := by
  induction actions generalizing start with
  | nil => exact holds
  | cons a rest ih => exact ih (step start a holds)

def Each (act : σ → α → σ) (meets : σ → α → Prop) : σ → List α → Prop
  | _, [] => True
  | s, a :: rest => meets s a ∧ Each act meets (act s a) rest

instance Each.decide (meets : σ → α → Prop) [∀ s a, Decidable (meets s a)] :
    (start : σ) → (actions : List α) → Decidable (Each act meets start actions)
  | _, [] => isTrue trivial
  | s, a :: rest =>
    have := Each.decide meets (act s a) rest
    inferInstanceAs (Decidable (meets s a ∧ Each act meets (act s a) rest))

theorem Each.run_keeps {meets : σ → α → Prop} {inv : σ → Prop}
    (step : ∀ s a, inv s → meets s a → inv (act s a)) {start : σ} (holds : inv start)
    {actions : List α} (each : Each act meets start actions) : inv (run act start actions) := by
  induction actions generalizing start with
  | nil => exact holds
  | cons a rest ih => exact ih (step start a holds each.1) each.2

theorem run_relates (inv : σ → Prop) (step : ∀ s a, inv s → inv (act s a))
    (related : List α → σ → σ → Prop) (nothing : ∀ s, inv s → related [] s s)
    (more : ∀ s a rest t, inv s → related rest (act s a) t → related (a :: rest) s t)
    {start : σ} (holds : inv start) (actions : List α) :
    related actions start (run act start actions) := by
  induction actions generalizing start with
  | nil => exact nothing start holds
  | cons a rest ih => exact more start a rest _ holds (ih (step start a holds))

end Transitions
