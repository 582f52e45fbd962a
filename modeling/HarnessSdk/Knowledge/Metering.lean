import HarnessSdk.Knowledge.BoundedClosure

/-! What the meter does to a computation: nothing, or it stops it. -/
namespace Knowledge
open PyDict PyText Checks Workflow Metered

/-- The only stop the handler catches. -/
abbrev caught (stop : Stop) : Prop := stop = .exhausted

section
variable {bounds : Bounds}

theorem check_only (charge : Nat) : Only caught (checkBudget bounds charge) fun _ => True := by
  intro meter
  unfold checkBudget
  by_cases spent : bounds.limits.premiseVisits < meter.visits + charge
  · simp [spent]
  · by_cases past : bounds.late meter.readings = true
    · simp [spent, past]
    · simp [spent, past]

theorem literal_only (atom : Atom) : Only caught (literal bounds atom) fun _ => True := by
  intro meter
  unfold literal
  by_cases full : bounds.limits.literals < (addTo meter.literals atom).length
  · simp [full]
  · simp [full]

theorem admitNode_only (budget : Nat) (support : Support) (witness : SupportWitness) :
    Only caught (admitNode budget support witness) fun out =>
      out = support.record witness ∧ ¬ budget ≤ support.nodes := by
  unfold admitNode
  by_cases full : budget ≤ support.nodes
  · rw [if_pos full]
    exact only_stop rfl
  · rw [if_neg full]
    exact fun _ => ⟨rfl, full⟩

/-! The parts that only count. -/

theorem check_erases (charge : Nat) : Erases caught (checkBudget bounds charge) (pure ()) :=
  (check_only charge).mono fun _ _ => rfl

variable (witnesses : Witnesses) (clean : List Atom) (refGroups : Dict EvidenceRef (List String))
  (groups : Dict Atom (List String))

theorem supportSources_erases (collected : List String) (support : SupportWitness) :
    Erases caught (supportSources (checkBudget bounds 1) refGroups groups collected support)
      (supportSources (pure ()) refGroups groups collected support) := by
  apply erases_bind (check_erases 1)
  intro _
  apply erases_foldlM
  intro acc premise
  exact erases_bind (check_erases 1) fun _ => erases_pure _

theorem sourcePass_erases :
    Erases caught (sourcePass (checkBudget bounds 1) witnesses refGroups groups)
      (sourcePass (pure ()) witnesses refGroups groups) := by
  apply erases_foldlM
  intro state entry
  apply erases_bind
  · apply erases_foldlM
    intro acc support
    exact supportSources_erases refGroups state.1 acc support
  · intro collected
    exact erases_ite (erases_pure _) (erases_pure _)

theorem sourceLoop_erases (fuel : Nat) (groups : Dict Atom (List String)) :
    Erases caught (sourceLoop (checkBudget bounds 1) witnesses refGroups fuel groups)
      (sourceLoop (pure ()) witnesses refGroups fuel groups) := by
  induction fuel generalizing groups with
  | zero => exact erases_pure groups
  | succ fuel ih =>
    apply erases_bind (sourcePass_erases witnesses refGroups groups)
    intro next
    exact erases_ite (ih next.1) (erases_pure next.1)

theorem pathGroups_erases (atomGroups : Dict Atom (List String))
    (refGroups : Dict EvidenceRef (List String)) :
    Erases caught (pathGroups (checkBudget bounds 1) witnesses atomGroups refGroups)
      (pathGroups (pure ()) witnesses atomGroups refGroups) := by
  apply erases_mapM
  intro entry
  apply erases_bind
  · apply erases_mapM
    intro support
    exact supportSources_erases refGroups atomGroups [] support
  · exact fun paths => erases_pure _

theorem hasCleanSupport_erases (supports : List SupportWitness) :
    Erases caught (hasCleanSupport (checkBudget bounds 1) clean supports)
      (hasCleanSupport (pure ()) clean supports) := by
  induction supports with
  | nil => exact erases_pure false
  | cons support rest ih =>
    apply erases_bind (check_erases 1)
    intro _
    apply erases_ite ih
    apply erases_bind
    · apply erases_foldlM
      intro _ _
      exact check_erases 1
    · intro _
      exact erases_ite (erases_pure true) ih

theorem cleanPass_erases :
    Erases caught (cleanPass (checkBudget bounds 1) witnesses clean)
      (cleanPass (pure ()) witnesses clean) := by
  apply erases_foldlM
  intro state entry
  apply erases_bind (check_erases 1)
  intro _
  apply erases_ite (erases_pure state)
  apply erases_bind (hasCleanSupport_erases state.1 entry.2)
  intro found
  exact erases_ite (erases_pure _) (erases_pure state)

theorem cleanLoop_erases (fuel : Nat) (clean : List Atom) :
    Erases caught (cleanLoop (checkBudget bounds 1) witnesses fuel clean)
      (cleanLoop (pure ()) witnesses fuel clean) := by
  induction fuel generalizing clean with
  | zero => exact erases_pure clean
  | succ fuel ih =>
    apply erases_bind (cleanPass_erases witnesses clean)
    intro next
    exact erases_ite (ih next.1) (erases_pure next.1)

theorem assumptionBacked_erases :
    Erases caught (assumptionBacked (checkBudget bounds 1) witnesses)
      (assumptionBacked (pure ()) witnesses) :=
  erases_bind (cleanLoop_erases witnesses _ []) fun _ => erases_pure _

/-! The seeds. -/

theorem boundedSeed_only (budget : Nat) (excluded : List String) (anchors : List Anchor)
    (support : Support) :
    Only caught (boundedSeed bounds budget excluded anchors support) fun out =>
      seed budget (anchors.filter (·.atom.key ∉ excluded)) support = (out, false) := by
  induction anchors generalizing support with
  | nil => exact only_pure rfl
  | cons anchor rest ih =>
    apply only_bind (check_only 0)
    intro _ _
    apply only_bind (literal_only anchor.atom)
    intro _ _
    by_cases out : anchor.atom.key ∈ excluded
    · rw [if_pos out, List.filter_cons_of_neg (by simpa using out)]
      exact ih support
    · rw [if_neg out, List.filter_cons_of_pos (by simpa using out)]
      simp only [seed]
      by_cases known : anchor.signature ∈ support.admitted
      · rw [if_pos known, if_pos known]
        exact ih support
      · rw [if_neg known, if_neg known]
        apply only_bind (admitNode_only budget support anchor.witness)
        rintro _ ⟨rfl, room⟩
        rw [if_neg room]
        exact ih _

end

end Knowledge
