import Mathlib

/-! Taking from a queue in its order: so many items at most, and so many of each kind. -/
namespace Quotas
variable {κ : Type} [DecidableEq κ]

/-- How many items a queue of these kinds has to give. -/
def offered (quota : Nat) (kinds : List κ) : Nat := ∑ k ∈ kinds.toFinset, min quota (kinds.count k)

structure Filled (limit quota : Nat) (met taken : List κ) : Prop where
  bounded : taken.length ≤ limit
  within : ∀ k, taken.count k ≤ min quota (met.count k)
  full : taken.length < limit → ∀ k, taken.count k = min quota (met.count k)

variable {limit quota : Nat} {met taken : List κ} {kind : κ}

section
variable (filled : Filled limit quota met taken)
include filled

theorem Filled.pass
    (spent : limit ≤ taken.length ∨ quota ≤ taken.count kind) :
    Filled limit quota (met ++ [kind]) taken := by
  constructor
  · exact filled.bounded
  · intro k
    have within := filled.within k
    rw [List.count_append]
    omega
  · intro room k
    have full := filled.full room k
    rw [List.count_append, List.count_singleton]
    split
    · rename_i same
      cases eq_of_beq same
      omega
    · omega

theorem Filled.take
    (room : ¬ (limit ≤ taken.length ∨ quota ≤ taken.count kind)) :
    Filled limit quota (met ++ [kind]) (taken ++ [kind]) := by
  have counts : ∀ k, (taken ++ [kind]).count k = min quota ((met ++ [kind]).count k) := by
    intro k
    have full := filled.full (by omega) k
    rw [List.count_append, List.count_append, List.count_singleton]
    split
    · rename_i same
      cases eq_of_beq same
      omega
    · omega
  constructor
  · rw [List.length_append, List.length_singleton]
    omega
  · intro k
    exact (counts k).le
  · intro _ k
    exact counts k

theorem Filled.length :
    taken.length = min limit (offered quota met) := by
  have counted : ∑ k ∈ met.toFinset, taken.count k = taken.length := by
    have met' : ∀ k ∈ (taken : Multiset κ), k ∈ met.toFinset := by
      intro k inside
      have within := filled.within k
      have there := List.count_pos_iff.mpr (Multiset.mem_coe.mp inside)
      exact List.mem_toFinset.mpr (List.count_pos_iff.mp (by omega))
    simpa only [Multiset.coe_count, Multiset.coe_card] using Multiset.sum_count_eq_card met'
  have under : taken.length ≤ offered quota met := by
    rw [← counted]
    exact Finset.sum_le_sum fun k _ => filled.within k
  by_cases room : taken.length < limit
  · have all : taken.length = offered quota met := by
      rw [← counted]
      exact Finset.sum_congr rfl fun k _ => filled.full room k
    omega
  · have bounded := filled.bounded
    omega

end

end Quotas
