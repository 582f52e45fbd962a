import HarnessSdk.Library.Dict

/-! `setdefault(key, []).append(item)` over a list of items. -/
namespace PyDict

variable {α κ : Type} [DecidableEq κ]

def group (key : α → κ) (items : List α) : Dict κ (List α) :=
  items.foldl (fun d a => set d (key a) ((get? d (key a)).getD [] ++ [a])) []

variable (key : α → κ) (items : List α)

theorem group_concat (a : α) : group key (items ++ [a]) =
    set (group key items) (key a) ((get? (group key items) (key a)).getD [] ++ [a]) := by
  simp [group]

theorem get?_group (k : κ) :
    get? (group key items) k =
      if items.filter (key · = k) = [] then none else some (items.filter (key · = k)) := by
  induction items using List.reverseRecOn with
  | nil => rfl
  | append_singleton items a ih =>
    rw [group_concat, get?_set, List.filter_append]
    by_cases same : k = key a
    · subst same
      rw [if_pos rfl, ih]
      by_cases empty : items.filter (key · = key a) = [] <;> simp [empty]
    · have other : ¬ key a = k := fun h => same h.symm
      simp only [ih, other, decide_false, List.filter_cons, List.filter_nil,
        Bool.false_eq_true, if_false, List.append_nil]

theorem keys_group_nodup : (keys (group key items)).Nodup := by
  induction items using List.reverseRecOn with
  | nil => exact List.nodup_nil
  | append_singleton items a ih =>
    rw [group_concat]
    exact keys_set_nodup _ _ ih

theorem mem_group {key : α → κ} {items : List α} {k : κ} {members : List α} :
    (k, members) ∈ group key items ↔ members ≠ [] ∧ items.filter (key · = k) = members := by
  constructor
  · intro inside
    have found := get?_eq_some_of_mem (keys_group_nodup key items) inside
    rw [get?_group] at found
    split at found
    · cases found
    · case isFalse some =>
      obtain rfl := Option.some.inj found
      exact ⟨some, rfl⟩
  · rintro ⟨some, rfl⟩
    apply mem_of_get?_eq_some
    rw [get?_group, if_neg some]

end PyDict
