import HarnessSdk.Knowledge.Worklist

/-! A bounded closure that completes is the grounded closure; one that does not says nothing. -/
namespace Knowledge
open PyDict PyText Checks Workflow Metered

section
variable (bounds : Bounds) {contentHashOf : Json → String}

def keptRules (excluded : List String) (rules : List JustificationSet) : List JustificationSet :=
  rules.filter (·.atom.key ∉ excluded)

theorem boundedRun_only (budget : Nat) (excluded : List String) (graph : SupportGraph contentHashOf)
    (anchors : List Anchor) (state : AssumptionState) :
    Only caught (boundedRun bounds budget excluded graph anchors state) fun result =>
      ∃ support out, seed budget (anchors.filter (·.atom.key ∉ excluded)) Support.none =
          (support, false) ∧
        rounds contentHashOf budget state graph.justifications.length
          (keptRules excluded graph.justifications) support = (out, false) ∧
        result = out.result .complete budget := by
  apply only_bind (check_only 0)
  intro _ _
  by_cases many : bounds.limits.rules < graph.groups.length
  · rw [if_pos many]
    exact only_stop rfl
  rw [if_neg many]
  apply only_bind (boundedSeed_only budget excluded anchors Support.none)
  intro support seeds
  have filled : Filled support := by
    rw [seeded_of_seed seeds]
    exact filled_seeded _
  apply only_bind (check_only 0)
  intro _ _
  apply only_bind (indexRules_only filled _)
  intro list synced
  have kept : Synced excluded state support
      (graph.justifications.zipIdx.filter (·.1.atom.key ∉ excluded)) list := by
    apply synced.congr
    intro entry p usable
    simp [usable.2]
  have rules : (graph.justifications.zipIdx.filter (·.1.atom.key ∉ excluded)).map Prod.fst =
      keptRules excluded graph.justifications := by
    rw [keptRules, ← List.zipIdx_map_fst 0 graph.justifications, List.filter_map,
      List.zipIdx_map_fst]
    rfl
  apply only_bind (boundedRounds_only List.filter_sublist
    (fun r inside => by simpa using List.of_mem_filter inside) filled kept)
  intro out run
  rw [rules] at run
  apply only_bind (sourceLoop_erases _ _ _ _)
  rintro _ rfl
  apply only_bind (pathGroups_erases _ _ _)
  rintro _ rfl
  apply only_bind (assumptionBacked_erases _)
  rintro _ rfl
  apply only_bind (check_only 0)
  intro _ _
  exact only_pure ⟨support, out, seeds, run, rfl⟩

end

/-- For every clock, limit and order of sets: the engine never fails. With nothing excluded a
complete result is the grounded closure, which is complete too; a result that is not complete has no
witness and releases no conclusion. -/
theorem boundedGroundedClosure_agrees (contentHashOf : Json → String) (bounds : Bounds)
    (visits readings budget : Nat) (excluded : List String) (graph : SupportGraph contentHashOf)
    (anchors : List Anchor) (state : AssumptionState) :
    ∃ result, boundedGroundedClosure bounds visits readings budget excluded graph anchors state =
        .ok result ∧
      (excluded = [] → result.status = .complete →
        result = groundedClosure budget graph anchors state ∧
        (groundedClosure budget graph anchors state).status = .complete) ∧
      (result.status ≠ .complete →
        (∀ atom, result.witnessesFor atom = []) ∧
        ∀ key highRisk polarity,
          result.releaseBlockReason key highRisk polarity = some .evaluationIncomplete) := by
  have only := boundedRun_only bounds budget excluded graph anchors state
    ⟨visits, readings, [], 0⟩
  unfold boundedGroundedClosure
  split at only
  · next result _ ran =>
    obtain ⟨support, out, seeds, run, rfl⟩ := only
    rw [ran]
    refine ⟨_, rfl, ?_, ?_⟩
    · rintro rfl _
      have whole : close budget graph anchors state = (out, false) := by
        have all : keptRules [] graph.justifications = graph.justifications := by
          simp [keptRules]
        rw [all] at run
        simp only [List.not_mem_nil, not_false_eq_true, decide_true, List.filter_true] at seeds
        rw [close, seeds]
        exact run
      have same : groundedClosure budget graph anchors state = out.result .complete budget := by
        simp [groundedClosure, whole]
      exact ⟨same.symm, by rw [same]; rfl⟩
    · intro incomplete
      exact absurd rfl incomplete
  · next stop meter ran =>
    cases only
    rw [ran]
    refine ⟨_, rfl, ?_, ?_⟩
    · intro _ complete
      cases complete
    · intro _
      exact ⟨fun atom => rfl, fun key highRisk polarity => rfl⟩

def ample : Bounds where
  limits := ⟨100, 100, 1000⟩
  late := fun _ => false
  order := ⟨id, fun _ => .rfl⟩

example : (boundedGroundedClosure ample 0 0 100 [] (SupportGraph.ofGroups canonicalJson
    [follows "q" "p", follows "p" "q"]) [observed "obs-1" "p" "wire"] []).toOption.map
      ClosureResult.status = some .complete := by decide +kernel

end Knowledge
