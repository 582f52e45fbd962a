import Mathlib

/-!
Programs of single actions on one state. An action is done as a whole or not at all; between any
two of them the program can be lost, and an action of the second kind can be refused instead. What
a program keeps whatever happens to it is found by walking it once from the state it starts in.
-/
namespace Crashes

variable {σ α ε ρ τ : Type}

inductive Program (σ α ε ρ : Type) where
  | returns (result : ρ)
  /-- Looks at the state; nothing happens in between. -/
  | looks (next : σ → Program σ α ε ρ)
  /-- One committed transaction: the state becomes this one. -/
  | saves (after : σ) (next : Program σ α ε ρ)
  /-- One action outside of it, which can be refused. -/
  | tries (action : α) (refused : ε → Program σ α ε ρ) (next : Program σ α ε ρ)

namespace Program

def bind : Program σ α ε ρ → (ρ → Program σ α ε τ) → Program σ α ε τ
  | returns result, f => f result
  | looks next, f => looks fun s => (next s).bind f
  | saves after next, f => saves after (next.bind f)
  | tries action refused next, f =>
    tries action (fun e => (refused e).bind f) (next.bind f)

def repeats (action : α) (refused : ε → Program σ α ε ρ) (next : Program σ α ε ρ) :
    Nat → Program σ α ε ρ
  | 0 => next
  | n + 1 => tries action refused (repeats action refused next n)

section Runs

variable (apply : α → σ → σ)

/-- What is left where the fates of the actions end: `none` is an action done, `some e` one
refused, and the program is lost before the action that no fate is left for. -/
def run : Program σ α ε ρ → List (Option ε) → σ → σ
  | returns _, _, s => s
  | looks next, fates, s => (next s).run fates s
  | saves _ _, [], s => s
  | saves after next, _ :: fates, _ => next.run fates after
  | tries _ _ _, [], s => s
  | tries action _ next, none :: fates, s => next.run fates (apply action s)
  | tries _ refused _, some e :: fates, s => (refused e).run fates s

/-- The program is lost before, or refused, an action of this kind. -/
def Fails (critical : α → Prop) : Program σ α ε ρ → List (Option ε) → σ → Prop
  | returns _, _, _ => False
  | looks next, fates, s => (next s).Fails critical fates s
  | saves _ _, [], _ => False
  | saves after next, _ :: fates, _ => next.Fails critical fates after
  | tries action _ _, [], _ => critical action
  | tries action _ next, none :: fates, s => next.Fails critical fates (apply action s)
  | tries action refused _, some e :: fates, s =>
    critical action ∨ (refused e).Fails critical fates s

instance Fails.decidable {critical : α → Prop} [DecidablePred critical] :
    (p : Program σ α ε ρ) → (fates : List (Option ε)) → (s : σ) →
      Decidable (p.Fails apply critical fates s)
  | returns _, _, _ => isFalse id
  | looks next, fates, s => Fails.decidable (next s) fates s
  | saves _ _, [], _ => isFalse id
  | saves after next, _ :: fates, _ => Fails.decidable next fates after
  | tries action _ _, [], _ => inferInstanceAs (Decidable (critical action))
  | tries action _ next, none :: fates, s => Fails.decidable next fates (apply action s)
  | tries _ refused _, some e :: fates, s =>
    @instDecidableOr _ _ _ (Fails.decidable (refused e) fates s)

def complete : Program σ α ε ρ → σ → σ × ρ
  | returns result, s => (s, result)
  | looks next, s => (next s).complete s
  | saves after next, _ => next.complete after
  | tries action _ next, s => next.complete (apply action s)

/-- From this state the program stays among good states, except where it is lost before or refused
a critical action, or refused for a reason that is not met. -/
def Safe (good : σ → Prop) (critical : α → Prop) (met : ε → Prop) : Program σ α ε ρ → σ → Prop
  | returns _, s => good s
  | looks next, s => (next s).Safe good critical met s
  | saves after next, s => good s ∧ next.Safe good critical met after
  | tries action refused next, s =>
    (¬ critical action → good s ∧ ∀ e, met e → (refused e).Safe good critical met s) ∧
      next.Safe good critical met (apply action s)

variable {apply} {good : σ → Prop} {critical : α → Prop} {met : ε → Prop}

variable {p : Program σ α ε ρ} {s : σ}

section
variable (safe : p.Safe apply good critical met s)
include safe

theorem run_good {fates : List (Option ε)}
    (reasons : ∀ e, some e ∈ fates → met e) (spared : ¬ p.Fails apply critical fates s) :
    good (p.run apply fates s) := by
  induction p generalizing s fates with
  | returns result => exact safe
  | looks next ih => exact ih s safe reasons spared
  | saves after next ih =>
    cases fates with
    | nil => exact safe.1
    | cons fate rest =>
      apply ih safe.2 _ spared
      intro e inside
      exact reasons e (List.mem_cons_of_mem fate inside)
  | tries action refused next ihRefused ih =>
    cases fates with
    | nil => exact (safe.1 spared).1
    | cons fate rest =>
      have later : ∀ e, some e ∈ rest → met e := by
        intro e inside
        exact reasons e (List.mem_cons_of_mem fate inside)
      cases fate with
      | none => exact ih safe.2 later spared
      | some e =>
        have clear := not_or.mp spared
        have here := reasons e List.mem_cons_self
        exact ihRefused e ((safe.1 clear.1).2 e here) later clear.2

theorem complete_good : good (p.complete apply s).1 := by
  induction p generalizing s with
  | returns result => exact safe
  | looks next ih => exact ih s safe
  | saves after next ih => exact ih safe.2
  | tries action refused next _ ih => exact ih safe.2

theorem Safe.bind {f : ρ → Program σ α ε τ}
    (after : ∀ result s, good s → (f result).Safe apply good critical met s) :
    (p.bind f).Safe apply good critical met s := by
  induction p generalizing s with
  | returns result => exact after result s safe
  | looks next ih => exact ih s safe
  | saves middle next ih => exact ⟨safe.1, ih safe.2⟩
  | tries action refused next ihRefused ih =>
    constructor
    · intro spared
      have here := safe.1 spared
      constructor
      · exact here.1
      · intro e reason
        exact ihRefused e (here.2 e reason)
    · exact ih safe.2

end

end Runs

end Program

end Crashes
