import HarnessSdk.Library.Metered
import HarnessSdk.Library.Checks

/-! Computations that are refused with the store as it was, or end with one change to it. -/
namespace Metered
open Checks
variable {σ ε δ α β γ : Type}

section
variable {s : σ}

theorem view_ran (f : σ → α) : (view f : Metered σ ε α) s = (.ok (f s), s) := rfl

variable {x : Except ε α} {e : ε}

theorem lift_ran {a : α} (checked : x = .ok a) : lift x s = (.ok a, s) := by
  rw [checked]
  rfl

theorem lift_stopped (failed : x = .error e) : lift x s = (.error e, s) := by
  rw [failed]
  rfl

theorem ensure_ran {p : Prop} [Decidable p] (holds : p) : ensure p e s = (.ok (), s) :=
  if_pos holds

theorem ensure_stopped {p : Prop} [Decidable p] (fails : ¬ p) : ensure p e s = (.error e, s) :=
  if_neg fails

end

/-- The outcome of a computation that began in this store, as its effect says: the change that it
puts into the store and its result, or a refusal. -/
def Settles (outcome : Except ε α × σ) (before : σ) (put : β → σ) (effect : Except δ (β × α)) :
    Prop :=
  match effect with
  | .ok (b, a) => outcome = (.ok a, put b)
  | .error _ => ∃ e, outcome = (.error e, before)

section
variable {s before : σ} {put : β → σ}

variable {effect : Except δ (β × α)} {x : Metered σ ε γ} {f : γ → Metered σ ε α}

theorem Settles.ended {outcome : Except ε α × σ} (settles : Settles outcome before put effect)
    {b : β} {a : α} (ends : effect = .ok (b, a)) : outcome = (.ok a, put b) := by
  rw [ends] at settles
  exact settles

theorem Settles.refused {outcome : Except ε α × σ} {effect : Except δ (β × α)}
    (settles : Settles outcome before put effect) {e : δ} (stops : effect = .error e) :
    ∃ e', outcome = (.error e', before) := by
  rw [stops] at settles
  exact settles

theorem settles_after {c : γ} {m : σ} (ran : x s = (.ok c, m))
    (rest : Settles (f c m) before put effect) : Settles ((x >>= f) s) before put effect := by
  rw [bind_of_ran ran]
  exact rest

theorem settles_stopped {e : ε} {e' : δ} (ran : x s = (.error e, before)) :
    Settles ((x >>= f) s) before put (.error e' : Except δ (β × α)) :=
  ⟨e, bind_of_stopped ran⟩

theorem settles_lift {x : Except ε γ} {y : Except δ γ} {g : γ → Except δ (β × α)}
    (same : ∀ c, x = .ok c ↔ y = .ok c)
    (rest : ∀ c, y = .ok c → Settles (f c before) before put (g c)) :
    Settles ((lift x >>= f) before) before put (y >>= g) := by
  cases y with
  | ok c => exact settles_after (lift_ran ((same c).mpr rfl)) (rest c rfl)
  | error e =>
    cases x with
    | ok c => cases (same c).mp rfl
    | error e' => exact settles_stopped rfl

theorem settles_ensure {p : Prop} [Decidable p] {e : ε} {e' : δ} {f : Unit → Metered σ ε α}
    {g : Unit → Except δ (β × α)} (rest : p → Settles (f () before) before put (g ())) :
    Settles ((ensure p e >>= f) before) before put (require p e' >>= g) := by
  by_cases holds : p
  · have passed : require p e' = .ok () := if_pos holds
    rw [passed]
    exact settles_after (ensure_ran holds) (rest holds)
  · have failed : require p e' = .error e' := if_neg holds
    rw [failed]
    exact settles_stopped (ensure_stopped holds)

end

/-! Refusals. -/

def Refused (outcome : Except ε α × σ) (before : σ) : Prop := ∃ e, outcome = (.error e, before)

section
variable {s : σ} {f : γ → Metered σ ε α}

variable {x : Metered σ ε γ}

theorem refused_stopped {e : ε} (ran : x s = (.error e, s)) : Refused ((x >>= f) s) s :=
  ⟨e, bind_of_stopped ran⟩

theorem refused_after {c : γ} (ran : x s = (.ok c, s)) (rest : Refused (f c s) s) :
    Refused ((x >>= f) s) s := by
  obtain ⟨e, stopped⟩ := rest
  exact ⟨e, (bind_of_ran ran).trans stopped⟩

theorem refused_lift {x : Except ε γ} (rest : ∀ c, x = .ok c → Refused (f c s) s) :
    Refused ((lift x >>= f) s) s := by
  cases x with
  | ok c => exact refused_after rfl (rest c rfl)
  | error e => exact refused_stopped rfl

end

/-! Two checks that pass together. -/

def Together (related : α → β → Prop) (x : Except ε α) (y : Except δ β) : Prop :=
  match x, y with
  | .ok a, .ok b => related a b
  | .error _, .error _ => True
  | _, _ => False

section
variable {related : α → β → Prop}

theorem together_bind {x : Except ε γ} {y : Except δ γ} {f : γ → Except ε α} {g : γ → Except δ β}
    (same : ∀ c, x = .ok c ↔ y = .ok c) (rest : ∀ c, y = .ok c → Together related (f c) (g c)) :
    Together related (x >>= f) (y >>= g) := by
  cases y with
  | ok c =>
    rw [(same c).mpr rfl]
    exact rest c rfl
  | error e =>
    cases x with
    | ok c => cases (same c).mp rfl
    | error e' => exact trivial

theorem together_refused {x : Except ε α} {e : δ} (fails : ∀ a, x ≠ .ok a) :
    Together related x (.error e) := by
  cases x with
  | ok a => exact absurd rfl (fails a)
  | error e' => exact trivial

theorem together_require {p q : Prop} [Decidable p] [Decidable q] {e : ε} {e' : δ}
    {f : Unit → Except ε α} {g : Unit → Except δ β} (same : p ↔ q)
    (rest : q → Together related (f ()) (g ())) :
    Together related (require p e >>= f) (require q e' >>= g) := by
  apply together_bind
  · intro _
    rw [require_eq_ok, require_eq_ok]
    exact same
  · intro _ passed
    exact rest ((require_eq_ok _ _).mp passed)

end
end Metered
