import Mathlib

/-! Loops that sweep over a list until a sweep changes nothing. -/
namespace Sweeps
variable {σ ε F : Type}

/-- A step gives nothing when it leaves the state as it is; the flag says that one did not. -/
def visit (step : σ → ε → Option σ) (state : σ × Bool) (e : ε) : σ × Bool :=
  match step state.1 e with
  | none => state
  | some next => (next, true)

def sweep (step : σ → ε → Option σ) (entries : List ε) (start : σ × Bool) : σ × Bool :=
  entries.foldl (visit step) start

def saturate (step : σ → ε → Option σ) (entries : List ε) : Nat → σ → σ
  | 0, s => s
  | fuel + 1, s =>
    let next := sweep step entries (s, false)
    if next.2 then saturate step entries fuel next.1 else next.1

/-- The steps that change something add facts; they add only what follows, and where none changes
anything all that follows is there. -/
structure Adds (step : σ → ε → Option σ) (entries : List ε) (facts : σ → F → Prop)
    (follows : F → Prop) : Prop where
  keeps : ∀ s e s', step s e = some s' → ∀ f, facts s f → facts s' f
  grows : ∀ s e s', step s e = some s' → ∃ f, facts s' f ∧ ¬ facts s f
  sound : ∀ s, ∀ e ∈ entries, ∀ s', step s e = some s' → (∀ f, facts s f → follows f) →
    ∀ f, facts s' f → follows f
  complete : ∀ s, (∀ e ∈ entries, step s e = none) → ∀ f, follows f → facts s f

variable {step : σ → ε → Option σ} {entries : List ε} {facts : σ → F → Prop} {follows : F → Prop}

section
variable (adds : Adds step entries facts follows)
include adds

theorem Adds.sweep_keeps (part : List ε)
    (start : σ × Bool) (f : F) (known : facts start.1 f) : facts (sweep step part start).1 f := by
  induction part generalizing start with
  | nil => exact known
  | cons e rest ih =>
    apply ih
    unfold visit
    cases taken : step start.1 e with
    | none => exact known
    | some next => exact adds.keeps _ _ _ taken f known

theorem Adds.sweep_sound {part : List ε}
    (inside : ∀ e ∈ part, e ∈ entries) (start : σ × Bool)
    (only : ∀ f, facts start.1 f → follows f) :
    ∀ f, facts (sweep step part start).1 f → follows f := by
  induction part generalizing start with
  | nil => exact only
  | cons e rest ih =>
    apply ih fun e' h => inside e' (List.mem_cons_of_mem e h)
    unfold visit
    cases taken : step start.1 e with
    | none => exact only
    | some next => exact adds.sound _ e (inside e List.mem_cons_self) next taken only

theorem Adds.sweep_grows (part : List ε) (s : σ)
    (changed : (sweep step part (s, false)).2 = true) :
    ∃ f, facts (sweep step part (s, false)).1 f ∧ ¬ facts s f := by
  induction part with
  | nil => cases changed
  | cons e rest ih =>
    rw [sweep, List.foldl_cons, visit] at changed ⊢
    cases taken : step s e with
    | none =>
      rw [taken] at changed
      exact ih changed
    | some next =>
      obtain ⟨f, now, before⟩ := adds.grows _ _ _ taken
      exact ⟨f, adds.sweep_keeps rest (next, true) f now, before⟩

end

theorem sweep_flag (part : List ε) (s : σ) : (sweep step part (s, true)).2 = true := by
  induction part generalizing s with
  | nil => rfl
  | cons e rest ih =>
    rw [sweep, List.foldl_cons, visit]
    cases step s e with
    | none => exact ih s
    | some next => exact ih next

theorem sweep_idle (part : List ε) (s : σ) (idle : (sweep step part (s, false)).2 = false) :
    (sweep step part (s, false)).1 = s ∧ ∀ e ∈ part, step s e = none := by
  induction part with
  | nil => exact ⟨rfl, by simp⟩
  | cons e rest ih =>
    rw [sweep, List.foldl_cons, visit] at idle ⊢
    cases taken : step s e with
    | none =>
      rw [taken] at idle
      obtain ⟨same, later⟩ := ih idle
      exact ⟨same, List.forall_mem_cons.mpr ⟨taken, later⟩⟩
    | some next =>
      rw [taken] at idle
      have flagged : (rest.foldl (visit step) (next, true)).2 = true := sweep_flag rest next
      rw [flagged] at idle
      cases idle

theorem saturate_keeps (inv : σ → Prop) (each : ∀ s, ∀ e ∈ entries, ∀ s', step s e = some s' →
    inv s → inv s') (fuel : Nat) (s : σ) (start : inv s) : inv (saturate step entries fuel s) := by
  have swept : ∀ (part : List ε), (∀ e ∈ part, e ∈ entries) → ∀ state : σ × Bool,
      inv state.1 → inv (sweep step part state).1 := by
    intro part
    induction part with
    | nil => exact fun _ _ held => held
    | cons e rest ih =>
      intro inside state held
      apply ih fun e' h => inside e' (List.mem_cons_of_mem e h)
      unfold visit
      cases taken : step state.1 e with
      | none => exact held
      | some next => exact each _ e (inside e List.mem_cons_self) next taken held
  induction fuel generalizing s with
  | zero => exact start
  | succ fuel ih =>
    have after := swept entries (fun _ h => h) (s, false) start
    rw [saturate]
    split
    · exact ih _ after
    · exact after

open Classical in
/-- With fuel for one sweep more than there are facts the loop ends in exactly what follows. -/
theorem Adds.saturate_iff (adds : Adds step entries facts follows) (room : Finset F)
    (inside : ∀ f, follows f → f ∈ room) (fuel : Nat) (s : σ)
    (only : ∀ f, facts s f → follows f)
    (enough : room.card < (room.filter (facts s)).card + fuel) (f : F) :
    facts (saturate step entries fuel s) f ↔ follows f := by
  induction fuel generalizing s with
  | zero =>
    have le := Finset.card_filter_le room (facts s)
    omega
  | succ fuel ih =>
    have after := adds.sweep_sound (fun _ h => h) (s, false) only
    rw [saturate]
    by_cases changed : (sweep step entries (s, false)).2 = true
    · rw [if_pos changed]
      apply ih _ after
      obtain ⟨new, now, before⟩ := adds.sweep_grows entries s changed
      have more : (room.filter (facts s)).card <
          (room.filter (facts (sweep step entries (s, false)).1)).card := by
        apply Finset.card_lt_card
        rw [Finset.ssubset_iff_of_subset]
        · refine ⟨new, Finset.mem_filter.mpr ⟨inside new (after new now), now⟩, ?_⟩
          exact fun old => before (Finset.mem_filter.mp old).2
        · intro g known
          obtain ⟨member, held⟩ := Finset.mem_filter.mp known
          exact Finset.mem_filter.mpr ⟨member, adds.sweep_keeps entries (s, false) g held⟩
      omega
    · rw [if_neg changed]
      obtain ⟨same, idle⟩ := sweep_idle entries s (by simpa using changed)
      rw [same]
      exact ⟨only f, adds.complete s idle f⟩

end Sweeps
