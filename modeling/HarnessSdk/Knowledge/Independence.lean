import HarnessSdk.Knowledge.Results

/-! The search for support paths that share no source is exact below its cap. -/
namespace Knowledge
open PyDict PyText Checks Workflow

/-- So many of the paths can be chosen with no source shared between them. -/
def Packs (wanted : Nat) (paths : List (Finset String)) : Prop :=
  ∃ chosen : List (Finset String), chosen.Sublist paths ∧ chosen.Pairwise Disjoint ∧
    wanted ≤ chosen.length

theorem Packs.perm {wanted : Nat} {paths paths' : List (Finset String)} (same : paths.Perm paths')
    (packs : Packs wanted paths) : Packs wanted paths' := by
  obtain ⟨chosen, inside, disjoint, enough⟩ := packs
  obtain ⟨chosen', perm, inside'⟩ := inside.subperm.trans same.subperm
  refine ⟨chosen', inside', ?_, perm.length_eq ▸ enough⟩
  exact (perm.pairwise_iff fun {_ _} h => Disjoint.symm h).mpr disjoint

theorem packs_perm_iff {wanted : Nat} {paths paths' : List (Finset String)}
    (same : paths.Perm paths') : Packs wanted paths ↔ Packs wanted paths' :=
  ⟨Packs.perm same, Packs.perm same.symm⟩

def Apart (left right : List String) : Prop := ∀ s ∈ left, s ∉ right

theorem walk_iff (wanted : Nat) (paths : List (List String)) (used : List String)
    (chosen best : Nat) :
    wanted ≤ walk wanted paths used chosen best ↔ wanted ≤ best ∨
      ∃ more : List (List String), more.Sublist paths ∧ more.Pairwise Apart ∧
        (∀ path ∈ more, Apart path used) ∧ wanted ≤ chosen + more.length := by
  induction paths generalizing used chosen best with
  | nil =>
    simp only [walk, List.sublist_nil, exists_eq_left, List.Pairwise.nil, List.not_mem_nil,
      false_implies, implies_true, true_and, List.length_nil]
    omega
  | cons groups rest ih =>
    rw [walk]
    by_cases enough : wanted ≤ max best chosen
    · rw [if_pos enough]
      refine iff_of_true enough ?_
      by_cases already : wanted ≤ best
      · exact Or.inl already
      · exact Or.inr ⟨[], List.nil_sublist _, List.Pairwise.nil, by simp, by
          rw [List.length_nil]
          omega⟩
    rw [if_neg enough]
    have short : ¬ wanted ≤ best := by omega
    by_cases clash : groups.any (· ∈ used) = true
    · rw [if_pos clash, ih]
      simp only [enough, short, false_or]
      constructor
      · rintro ⟨more, inside, rest⟩
        exact ⟨more, inside.cons groups, rest⟩
      · rintro ⟨more, inside, apart, free, long⟩
        rcases List.sublist_cons_iff.mp inside with later | ⟨tail, rfl, later⟩
        · exact ⟨more, later, apart, free, long⟩
        · obtain ⟨s, here, taken⟩ := List.any_eq_true.mp clash
          exact absurd (of_decide_eq_true taken) (free groups List.mem_cons_self s here)
    rw [if_neg clash]
    have fresh : Apart groups used := by
      intro s here taken
      exact clash (List.any_eq_true.mpr ⟨s, here, decide_eq_true taken⟩)
    have first := ih (unionOf used groups) (chosen + 1) (max best chosen)
    simp only [enough, false_or] at first
    by_cases taken : wanted ≤ walk wanted rest (unionOf used groups) (chosen + 1) (max best chosen)
    · simp only [taken, if_true, true_iff]
      obtain ⟨more, inside, apart, free, long⟩ := first.mp taken
      refine Or.inr ⟨groups :: more, inside.cons_cons groups, ?_, ?_, by
        rw [List.length_cons]
        omega⟩
      · rw [List.pairwise_cons]
        refine ⟨fun path hp s here other => free path hp s other ?_, apart⟩
        exact (mem_unionOf _ _ _).mpr (Or.inr here)
      · rw [List.forall_mem_cons]
        refine ⟨fresh, fun path hp s here old => free path hp s here ?_⟩
        exact (mem_unionOf _ _ _).mpr (Or.inl old)
    · simp only [taken, if_false]
      rw [ih]
      simp only [taken, short, false_or]
      constructor
      · rintro ⟨more, inside, rest⟩
        exact ⟨more, inside.cons groups, rest⟩
      · rintro ⟨more, inside, apart, free, long⟩
        rcases List.sublist_cons_iff.mp inside with later | ⟨tail, rfl, later⟩
        · exact ⟨more, later, apart, free, long⟩
        · -- a choice that starts with these groups was found above
          rw [List.pairwise_cons] at apart
          rw [List.forall_mem_cons] at free
          rw [List.length_cons] at long
          refine absurd (first.mpr ⟨tail, later, apart.2, ?_, by omega⟩) taken
          intro path hp s here other
          rcases (mem_unionOf _ _ _).mp other with old | new
          · exact free.2 path hp s here old
          · exact apart.1 path hp s new here

theorem packs_of_lists {wanted : Nat} {paths : List (List String)} :
    Packs wanted (paths.map List.toFinset) ↔
      ∃ more : List (List String), more.Sublist paths ∧ more.Pairwise Apart ∧
        wanted ≤ more.length := by
  have same : ∀ left right : List String,
      Disjoint left.toFinset right.toFinset ↔ Apart left right := by
    intro left right
    rw [Finset.disjoint_left]
    simp only [List.mem_toFinset]
    exact Iff.rfl
  constructor
  · rintro ⟨chosen, inside, disjoint, enough⟩
    obtain ⟨more, sub, rfl⟩ := List.sublist_map_iff.mp inside
    rw [List.pairwise_map] at disjoint
    exact ⟨more, sub, disjoint.imp fun h => (same _ _).mp h, by simpa using enough⟩
  · rintro ⟨more, sub, apart, enough⟩
    refine ⟨more.map List.toFinset, sub.map _, ?_, by simpa using enough⟩
    rw [List.pairwise_map]
    exact apart.imp fun h => (same _ _).mpr h

theorem maxDisjointPaths_iff {paths : List (List String)} (few : paths.length ≤ maxIndependencePaths)
    (wanted : Nat) :
    wanted ≤ maxDisjointPaths paths wanted ↔ Packs wanted (paths.map List.toFinset) := by
  unfold maxDisjointPaths
  by_cases none : wanted = 0
  · subst none
    exact iff_of_true (Nat.zero_le _) ⟨[], List.nil_sublist _, List.Pairwise.nil, Nat.zero_le _⟩
  · rw [if_neg none, walk_iff, List.take_of_length_le few]
    have sorted := (List.perm_insertionSort (fun a b : List String => a.length ≤ b.length) paths)
    rw [packs_perm_iff (sorted.map List.toFinset).symm, packs_of_lists]
    have not : ¬ wanted ≤ 0 := by omega
    simp only [not, false_or, Nat.zero_add]
    apply exists_congr
    intro more
    simp [Apart]

end Knowledge
