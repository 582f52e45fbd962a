import HarnessSdk.Planning.Retirement

/-! What an accepted increment leaves behind: a plan without cycles or loose endpoints, whose
refined roots are covered as far as the tolerated gaps reach. -/
namespace Planning
open PyDict PyText Checks Workflow Network
open Relation (ReflTransGen)

structure EndpointsProjected (projection : ExecutionProjection) : Prop where
  orders : ∀ constraint ∈ projection.snapshot.orderConstraints,
    constraint.before ∈ projection.projectedOccurrences ∧
      constraint.after ∈ projection.projectedOccurrences
  requirements : ∀ requirement ∈ projection.snapshot.dataRequirements,
    requirement.producerOccurrence ∈ projection.projectedOccurrences ∧
      requirement.consumerOccurrence ∈ projection.projectedOccurrences

/-- A claim about the obligation, all of whose occurrences the adopted plan projects. -/
def CoveredBy (projection : ExecutionProjection) (obligation : ObligationId)
    (criterion : String) : Prop :=
  ∃ claim ∈ projection.snapshot.obligationCoverage, claim.obligationId = obligation ∧
    criterion ∈ claim.criterionIds ∧
    ∀ id ∈ claim.coveredBy, id ∈ projection.projectedOccurrences

def RefinedRootsCovered (projection : ExecutionProjection) : Prop :=
  ∀ root ∈ projection.snapshot.rootOccurrenceIds, ∀ spec binding,
    projection.snapshot.occurrence? root = some spec →
    projection.snapshot.bindingForTask? spec.taskId = some binding →
    (projection.snapshot.adoptedInstanceFor root).isSome →
    ∀ criterion ∈ binding.goalSignature.coverageCriteria,
      CoveredBy projection spec.obligationId criterion

def PlaceIn (network : TaskNetwork) (id : OccurrenceId) (obligation : ObligationId)
    (criteria : List String) : Prop :=
  ∃ spec binding, network.occurrence? id = some spec ∧
    network.bindingForTask? spec.taskId = some binding ∧ obligation = spec.obligationId ∧
    criteria = binding.goalSignature.coverageCriteria

section After
variable (draft : MethodInstanceDraft) (current : TaskNetwork) (retired : List MethodInstanceId)

/-- An instance the increment leaves adopted: the draft, or one of the others that stay. -/
def RefinesAfter (other : MethodInstanceDraft) : Prop :=
  other = draft ∨ (Survives current retired other ∧ other.instanceId ≠ draft.instanceId)

def RefinedAfter (root : OccurrenceId) : Prop :=
  ∃ other, RefinesAfter draft current retired other ∧ other.effectiveGoalOccurrenceId = root

def OpensAfter (parent child : OccurrenceId) : Prop :=
  ∃ other, RefinesAfter draft current retired other ∧
    other.effectiveGoalOccurrenceId = parent ∧ Binds other child

def ReachedAfter (id : OccurrenceId) : Prop :=
  ∃ root ∈ current.rootOccurrenceIds, ReflTransGen (OpensAfter draft current retired) root id

/-- Bound by a retired instance, by none that stays, and not shared by the draft. -/
def Orphaned (id : OccurrenceId) : Prop :=
  BoundByRetired current retired id ∧
    (∀ other ∈ current.methodInstances, other.instanceId ∉ retired →
      (other.instanceId ∈ current.adoptedInstanceIds ∨ other.instanceId = draft.instanceId) →
      ¬ Binds other id) ∧
    ∀ child ∈ draft.childBindings, child.reusePolicy ≠ .newWork → child.occurrenceId ≠ id

variable (contentHashOf : Json → String) (inputs : CompileInputs)

def ClaimedAfter (claim : ObligationCoverage) : Prop :=
  (claim ∈ current.obligationCoverage ∧
    ∀ id ∈ claim.coveredBy, ¬ Orphaned draft current inputs.retireInstanceIds id) ∨
  ∃ coverage, coverageFromSlots inputs.method (draftSlots draft) draft.obligationId = .ok coverage ∧
    claim ∈ coverage

def CoveredAfter (obligation : ObligationId) (criterion : String) : Prop :=
  ∃ claim, ClaimedAfter draft current inputs claim ∧ claim.obligationId = obligation ∧
    criterion ∈ claim.criterionIds ∧
    ∀ id ∈ claim.coveredBy, ReachedAfter draft current inputs.retireInstanceIds id

/-- The duty and the criteria of a place: one the network had and keeps, or a slot the draft fills
with work of its own. -/
def PlaceAfter (id : OccurrenceId) (obligation : ObligationId) (criteria : List String) : Prop :=
  (¬ Orphaned draft current inputs.retireInstanceIds id ∧
    PlaceIn current id obligation criteria) ∨
  ∃ step ∈ inputs.method.steps, ∃ type, inputs.catalog.resolve step.taskTypeRef = some type ∧
    (step.localId, id) ∈ draftSlots draft ∧
    let identity := slotIdentity contentHashOf draft.instanceId step.localId draft.obligationId
      step.obligationRelation
    id = identity.occurrenceId ∧ obligation = identity.obligationId ∧
      criteria = type.goalSignature.coverageCriteria

open Classical in
noncomputable def missingAfter (obligation : ObligationId) (criteria : List String) : List String :=
  sorted (criteria.filter fun criterion =>
    ¬ CoveredAfter draft current inputs obligation criterion).dedup

/-- No refined root that is left with a gap is reported in words that quote an unrefined root. -/
def GapsTold (printable : Char → Bool) : Prop :=
  ∀ root ∈ current.rootOccurrenceIds, RefinedAfter draft current inputs.retireInstanceIds root →
    ∀ obligation criteria,
      PlaceAfter draft current contentHashOf inputs root obligation criteria →
      missingAfter draft current inputs obligation criteria ≠ [] →
      ∀ other ∈ current.rootOccurrenceIds,
        ¬ RefinedAfter draft current inputs.retireInstanceIds other →
        occursIn (quoted printable other) (gapDetail printable root
          (missingAfter draft current inputs obligation criteria) obligation) = false

end After

section
variable {contentHashOf : Json → String} {draft : MethodInstanceDraft}
  {current : TaskNetworkSnapshot} {inputs : CompileInputs} {plans : List SlotPlan}
  {increment : Increment}

section
variable (drafted : increment.draft = draft)
include drafted

theorem mem_orphaned {id : OccurrenceId} :
    id ∈ increment.orphaned current.toTaskNetwork ↔
      Orphaned draft current.toTaskNetwork increment.retireInstanceIds id := by
  simp only [Increment.orphaned, Increment.orphanedOccurrences, List.mem_filter,
    mem_retiredChildren, decide_eq_true_eq, and_assoc, Orphaned]
  apply and_congr_right
  intro _
  apply and_congr
  · simp only [Increment.surviving, Increment.adopted, List.mem_flatMap, List.mem_filter,
      List.mem_append, List.mem_cons, List.not_mem_nil, or_false, decide_eq_true_eq, List.mem_map,
      drafted, not_exists, not_and, Binds]
    constructor
    · intro none other inside stays adopted child bound
      apply none other ⟨inside, stays, ?_⟩ child bound
      rcases adopted with adopted | name
      · exact Or.inl ⟨adopted, by simpa using stays⟩
      · exact Or.inr name
    · rintro none other ⟨inside, stays, adopted⟩ child bound
      apply none other inside stays ?_ child bound
      rcases adopted with adopted | name
      · exact Or.inl adopted.1
      · exact Or.inr name
  · simp only [Increment.keptByShare, drafted, List.mem_map, List.mem_filter, decide_eq_true_eq,
      not_exists, not_and, and_imp]

theorem refinesAfter_iff (other : MethodInstanceDraft) :
    (other ∈ (increment.merged current.toTaskNetwork).methodInstances ∧
      (increment.merged current.toTaskNetwork).isAdopted other.instanceId = true) ↔
      RefinesAfter draft current.toTaskNetwork increment.retireInstanceIds other := by
  simp only [Increment.merged, TaskNetwork.isAdopted, Increment.adopted, drafted, List.mem_append,
    List.mem_filter, List.mem_cons, List.not_mem_nil, or_false, decide_eq_true_eq, RefinesAfter,
    Survives]
  constructor
  · rintro ⟨⟨inside, differs, stays⟩ | rfl, adopted⟩
    · rcases adopted with ⟨adopted, _⟩ | name
      · exact Or.inr ⟨⟨inside, adopted, stays⟩, differs⟩
      · exact absurd name differs
    · exact Or.inl rfl
  · rintro (rfl | ⟨⟨inside, adopted, stays⟩, differs⟩)
    · exact ⟨Or.inr rfl, Or.inr rfl⟩
    · exact ⟨Or.inl ⟨inside, differs, stays⟩, Or.inl ⟨adopted, stays⟩⟩

theorem refinedAfter_iff (root : OccurrenceId) :
    ((increment.merged current.toTaskNetwork).adoptedInstanceFor root).isSome ↔
      RefinedAfter draft current.toTaskNetwork increment.retireInstanceIds root := by
  rw [TaskNetwork.adoptedInstanceFor, List.find?_isSome]
  simp only [Bool.and_eq_true, beq_iff_eq, RefinedAfter, ← refinesAfter_iff drafted]
  constructor
  · rintro ⟨other, inside, adopted, goal⟩
    exact ⟨other, ⟨inside, adopted⟩, goal⟩
  · rintro ⟨other, ⟨inside, adopted⟩, goal⟩
    exact ⟨other, inside, adopted, goal⟩

theorem opensAfter_iff
    (merges : (increment.merged current.toTaskNetwork).Consistent) (parent child : OccurrenceId) :
    (increment.merged current.toTaskNetwork).Opens parent child ↔
      OpensAfter draft current.toTaskNetwork increment.retireInstanceIds parent child := by
  rw [TaskNetwork.opens_iff merges]
  simp only [OpensAfter, ← refinesAfter_iff drafted, and_assoc, Binds]

theorem reachedAfter_iff
    (merges : (increment.merged current.toTaskNetwork).Consistent) (id : OccurrenceId) :
    id ∈ (increment.merged current.toTaskNetwork).reachableOccurrences ↔
      ReachedAfter draft current.toTaskNetwork increment.retireInstanceIds id := by
  have same : (increment.merged current.toTaskNetwork).Opens =
      OpensAfter draft current.toTaskNetwork increment.retireInstanceIds := by
    funext parent child
    exact propext (opensAfter_iff drafted merges parent child)
  rw [TaskNetwork.mem_reachable_iff_path merges, same]
  rfl

end

section
variable (made : Plans contentHashOf draft current inputs plans increment)
include made

theorem Plans.get?_slots
    (slot : String) : get? (plannedSlots plans) slot = get? (draftSlots draft) slot := by
  have planned : (keys (plannedSlots plans)).Nodup := by
    have names : keys (plannedSlots plans) = plans.map (·.identity.slotKey) := by
      simp [keys, plannedSlots]
    rw [names, made.slotKeys]
    exact inputs.method.stepsDistinct
  apply Option.ext
  intro id
  rw [get?_eq_some_iff planned, get?_eq_some_iff (draftSlots_distinct draft)]
  exact made.slots _

theorem Plans.coverage_eq :
    coverageFromSlots inputs.method (draftSlots draft) draft.obligationId =
      .ok increment.coverage := by
  obtain ⟨_, _, _, _, _, duty⟩ := requireParent_cases made.parent
  have links : bindLink inputs.method (draftSlots draft) =
      bindLink inputs.method (plannedSlots plans) := by
    funext link
    have same : get? (draftSlots draft) = get? (plannedSlots plans) :=
      funext fun slot => (made.get?_slots slot).symm
    simp only [bindLink, same]
  rw [← made.coverage, coverageFromSlots, coverageFromSlots, links, duty]

theorem claimedAfter_iff
    (claim : ObligationCoverage) :
    claim ∈ (increment.merged current.toTaskNetwork).obligationCoverage ↔
      ClaimedAfter draft current.toTaskNetwork inputs claim := by
  have new : (∃ coverage, coverageFromSlots inputs.method (draftSlots draft) draft.obligationId =
      .ok coverage ∧ claim ∈ coverage) ↔ claim ∈ increment.coverage := by
    simp only [made.coverage_eq, Except.ok.injEq, exists_eq_left']
  rw [ClaimedAfter, new, ← made.retireKept]
  simp only [Increment.merged, List.mem_append, List.mem_filter, List.all_eq_true,
    decide_eq_true_eq, mem_orphaned made.draftKept]

theorem coveredAfter_iff
    {merged : TaskNetworkSnapshot} {projection : ExecutionProjection}
    (network : merged.toTaskNetwork = increment.merged current.toTaskNetwork)
    (projects : Projects merged projection) (obligation : ObligationId) (criterion : String) :
    CoveredBy projection obligation criterion ↔
      CoveredAfter draft current.toTaskNetwork inputs obligation criterion := by
  have merges := merged.consistent
  rw [network] at merges
  have reached := reachedAfter_iff made.draftKept merges
  simp only [CoveredBy, CoveredAfter, projects.network, projects.projected, network,
    claimedAfter_iff made, reached, made.retireKept]

end

variable {binding : TaskSemanticBinding} {spec : OccurrenceSpec}

theorem mergedBinding_keeps (made : Plans contentHashOf draft current inputs plans increment)
    (inside : binding ∈ current.taskBindings) :
    (increment.mergedBinding binding).taskId = binding.taskId ∧
      (increment.mergedBinding binding).goalSignature = binding.goalSignature := by
  obtain ⟨_, _, _, _, found, _⟩ := requireParent_cases made.parent
  unfold Increment.mergedBinding
  split
  · next same =>
    rw [List.inj_on_of_nodup_map current.consistent.tasksDistinct inside
      (List.mem_of_find?_eq_some found) same]
    exact ⟨rfl, rfl⟩
  · split <;> exact ⟨rfl, rfl⟩

theorem keptBinding_mem (inside : spec ∈ current.occurrences)
    (stays : spec.occurrenceId ∉ increment.orphaned current.toTaskNetwork)
    (found : current.bindingForTask? spec.taskId = some binding) :
    increment.mergedBinding binding ∈
      (increment.merged current.toTaskNetwork).taskBindings := by
  have named : binding.taskId = spec.taskId := by simpa using List.find?_some found
  have kept : spec.taskId ∈ (increment.keptOccurrences current.toTaskNetwork).map (·.taskId) :=
    List.mem_map_of_mem (by simp [Increment.keptOccurrences, inside, stays])
  apply List.mem_append_left
  apply List.mem_map_of_mem
  rw [List.mem_filter]
  refine ⟨List.mem_of_find?_eq_some found, ?_⟩
  have free : binding.taskId ∉ increment.orphanedTasks current.toTaskNetwork := by
    rw [named, Increment.orphanedTasks, List.mem_filter]
    simp [kept]
  simpa using free

theorem taskBindingFor_fields {plan : SlotPlan} {parent : TaskSemanticBinding}
    (ok : taskBindingFor plan draft parent = .ok binding) :
    binding.taskId = plan.identity.taskId ∧ binding.obligationId = plan.identity.obligationId ∧
      binding.goalSignature = plan.spec.goalSignature := by
  simp only [taskBindingFor, then_eq_ok, Except.ok.injEq] at ok
  obtain ⟨_, rfl⟩ := ok
  exact ⟨rfl, rfl, rfl⟩

section
variable (made : Plans contentHashOf draft current inputs plans increment)
include made

theorem Plans.new_place
    (distinct : (increment.newBindings.map (·.taskId)).Nodup) {plan : SlotPlan}
    (inside : plan ∈ plans) (own : plan.shared = false) :
    ∃ spec ∈ increment.occurrences, ∃ binding ∈ increment.newBindings,
      spec.occurrenceId = plan.identity.occurrenceId ∧ spec.taskId = plan.identity.taskId ∧
      spec.obligationId = plan.identity.obligationId ∧ binding.taskId = plan.identity.taskId ∧
      binding.goalSignature = plan.spec.goalSignature := by
  have creates : plan ∈ plans.filter fun plan => !plan.shared := by simp [inside, own]
  obtain ⟨binding, hb, ok⟩ := round_of_mapM made.bindings creates
  obtain ⟨task, duty, goal⟩ := taskBindingFor_fields ok
  have reversed : (increment.newBindings.reverse.map (·.taskId)).Nodup := by
    rw [List.map_reverse]
    exact List.nodup_reverse.mpr distinct
  have found := (find?_key_eq_some reversed plan.identity.taskId binding).mpr
    ⟨List.mem_reverse.mpr hb, task⟩
  rw [made.created]
  refine ⟨_, List.mem_map_of_mem creates, binding, hb, rfl, rfl, ?_, task, goal⟩
  simp only [found, Option.map_some, Option.getD_some, duty]

theorem Plans.plan_of_new
    (inside : spec ∈ increment.occurrences) :
    ∃ plan ∈ plans, plan.shared = false ∧ spec.occurrenceId = plan.identity.occurrenceId := by
  rw [made.created] at inside
  obtain ⟨plan, creates, rfl⟩ := List.mem_map.mp inside
  have own := List.of_mem_filter creates
  exact ⟨plan, List.mem_of_mem_filter creates, by simpa using own, rfl⟩

theorem placeAfter_iff
    (merges : (increment.merged current.toTaskNetwork).Consistent) (id : OccurrenceId)
    (obligation : ObligationId) (criteria : List String) :
    PlaceIn (increment.merged current.toTaskNetwork) id obligation criteria ↔
      PlaceAfter draft current.toTaskNetwork contentHashOf inputs id obligation criteria := by
  have place := find?_key_eq_some merges.occurrencesDistinct id
  have task := fun name => find?_key_eq_some merges.tasksDistinct name
  have new_distinct : (increment.newBindings.map (·.taskId)).Nodup := by
    have all := merges.tasksDistinct
    simp only [TaskNetwork.taskIds, Increment.merged, List.map_append] at all
    exact (List.nodup_append.mp all).2.1
  obtain ⟨_, _, _, _, _, duty⟩ := requireParent_cases made.parent
  rw [PlaceAfter, ← made.retireKept, ← mem_orphaned made.draftKept]
  constructor
  · rintro ⟨spec, binding, found, bound, rfl, rfl⟩
    obtain ⟨inside, rfl⟩ := (place spec).mp found
    rcases List.mem_append.mp inside with kept | new
    · have old := List.mem_of_mem_filter kept
      have stays : spec.occurrenceId ∉ increment.orphaned current.toTaskNetwork := by
        simpa using List.of_mem_filter kept
      obtain ⟨before, held, _⟩ := current.consistent.bound spec old
      have here := keptBinding_mem old stays held
      obtain ⟨name, goal⟩ := mergedBinding_keeps made (List.mem_of_find?_eq_some held)
      have named : before.taskId = spec.taskId := by simpa using List.find?_some held
      have same : increment.mergedBinding before = binding := by
        have found' := (task spec.taskId _).mpr ⟨here, name.trans named⟩
        rw [TaskNetwork.bindingForTask?] at bound
        rw [bound, Option.some.injEq] at found'
        exact found'.symm
      refine Or.inl ⟨stays, spec, before, ?_, held, rfl, by rw [← same, goal]⟩
      exact (find?_key_eq_some current.consistent.occurrencesDistinct _ spec).mpr ⟨old, rfl⟩
    · obtain ⟨plan, planned, own, name⟩ := made.plan_of_new new
      obtain ⟨spec', here, binding', held, hid, htask, hduty, named, goal⟩ :=
        made.new_place new_distinct planned own
      have same : spec' = spec := List.inj_on_of_nodup_map merges.occurrencesDistinct
        (List.mem_append_right _ here) inside (hid.trans name.symm)
      subst same
      have same : binding' = binding := by
        have found' := (task spec'.taskId binding').mpr
          ⟨List.mem_append_right _ held, named.trans htask.symm⟩
        rw [TaskNetwork.bindingForTask?] at bound
        rw [bound, Option.some.injEq] at found'
        exact found'.symm
      subst same
      obtain ⟨step, known, ok⟩ := (mem_of_mapM made.planned plan).mp planned
      obtain ⟨_, resolved, identity⟩ := planSlot_cases ok
      have slot : (step.localId, spec'.occurrenceId) ∈ draftSlots draft := by
        rw [← made.slots, plannedSlots, List.mem_map]
        have bound' : plan.boundOccurrenceId = plan.identity.occurrenceId := by
          simpa [SlotPlan.shared] using own
        exact ⟨plan, planned, by rw [planSlot_slotKey ok, bound', name]⟩
      refine Or.inr ⟨step, known, plan.spec, resolved, slot, ?_⟩
      rw [hduty, goal, name, identity, duty]
      exact ⟨rfl, rfl, rfl⟩
  · rintro (⟨stays, spec, binding, found, held, rfl, rfl⟩ |
      ⟨step, known, type, resolved, slot, name, rfl, rfl⟩)
    · obtain ⟨old, rfl⟩ := TaskNetwork.mem_of_occurrence? found
      have here := keptBinding_mem old stays held
      obtain ⟨name, goal⟩ := mergedBinding_keeps made (List.mem_of_find?_eq_some held)
      have named : binding.taskId = spec.taskId := by simpa using List.find?_some held
      refine ⟨spec, _, (place spec).mpr ⟨?_, rfl⟩, (task _ _).mpr ⟨here, name.trans named⟩, rfl,
        by rw [goal]⟩
      exact List.mem_append_left _ (by simp [Increment.keptOccurrences, old, stays])
    · obtain ⟨plan, planned, same, resolved', identity⟩ := made.plan_of_step known
      rw [resolved, Option.some.injEq] at resolved'
      subst resolved'
      rw [duty] at identity
      have key : plan.identity.slotKey = step.localId := by
        rw [identity]
        rfl
      have bound : plan.boundOccurrenceId = id := by
        apply draftSlots_functional _ slot
        rw [← made.slots, plannedSlots, List.mem_map]
        exact ⟨plan, planned, by rw [key]⟩
      have own : plan.shared = false := by
        simp [SlotPlan.shared, bound, name, identity]
      obtain ⟨spec, here, binding, held, hid, htask, hduty, named, goal⟩ :=
        made.new_place new_distinct planned own
      refine ⟨spec, binding, (place spec).mpr ⟨List.mem_append_right _ here, ?_⟩,
        (task _ _).mpr ⟨List.mem_append_right _ held, named.trans htask.symm⟩, ?_, by rw [goal]⟩
      · rw [hid, identity, name]
      · rw [hduty, identity]

end

end

section Report
variable {printable : Char → Bool} {contentHashOf : Json → String} {draft : MethodInstanceDraft}
  {current : TaskNetworkSnapshot} {inputs : CompileInputs} {compilation : RefinementCompilation}
  {plans : List SlotPlan} {increment : Increment} {openings : List ObligationOpening}
  {projection : ExecutionProjection}

variable {problem : ProjectionProblem} {obligation : ObligationId} {criterion : String}

section
variable (compiles : Compiles printable contentHashOf draft current inputs compilation plans increment openings projection)
include compiles

theorem Compiles.tolerated (listed : problem ∈ compilation.projectionReport.problems) :
    problem.kind = .partialCheck ∨
      isOpenFrontierGap printable problem compilation.network.toTaskNetwork = true := by
  have clean := List.filter_eq_nil_iff.mp compiles.clean problem listed
  by_cases partially : problem.kind = .partialCheck
  · exact Or.inl partially
  · simpa [partially] using clean

theorem Compiles.kind_cases (listed : problem ∈ compilation.projectionReport.problems) :
    problem.kind = .partialCheck ∨ problem.kind = .rootCoverageGap := by
  rcases compiles.tolerated listed with partially | gap
  · exact Or.inl partially
  · simp only [isOpenFrontierGap, Bool.and_eq_true, decide_eq_true_eq] at gap
    exact Or.inr gap.1

theorem Compiles.endpointsProjected
    (projects : Projects compilation.network projection) : EndpointsProjected projection := by
  have none : ∀ item, item ∉ compilation.network.unprojectedEndpoints
      compilation.network.reachableOccurrences := by
    intro item inside
    obtain ⟨problem, listed, kind⟩ := unprojected_reported compiles.validated
      ((projects.unprojected item).mpr inside)
    rcases compiles.kind_cases listed with other | other
    · rw [kind] at other
      cases other
    · rw [kind] at other
      cases other
  have reached : ∀ label first second, (∀ item ∈ TaskNetwork.unprojected
      compilation.network.reachableOccurrences label first second, item ∈
        compilation.network.unprojectedEndpoints compilation.network.reachableOccurrences) →
      first ∈ compilation.network.reachableOccurrences ∧
        second ∈ compilation.network.reachableOccurrences := by
    intro label first second listed
    constructor
    · by_contra absent
      exact none (label, first) (listed _ (by simp [TaskNetwork.unprojected, absent]))
    · by_contra absent
      exact none (label, second) (listed _ (by simp [TaskNetwork.unprojected, absent]))
  constructor
  · intro constraint inside
    rw [projects.network] at inside
    rw [projects.projected]
    apply reached (TaskNetwork.orderLabel constraint)
    intro item hi
    exact List.mem_append_left _ (List.mem_flatMap.mpr ⟨constraint, inside, hi⟩)
  · intro requirement inside
    rw [projects.network] at inside
    rw [projects.projected]
    apply reached (TaskNetwork.dataLabel requirement)
    intro item hi
    exact List.mem_append_right _ (List.mem_flatMap.mpr ⟨requirement, inside, hi⟩)

end

theorem mem_coveredCriteria :
    criterion ∈ coveredCriteria projection obligation ↔
      CoveredBy projection obligation criterion := by
  simp only [coveredCriteria, List.mem_flatMap, List.mem_filter, decide_eq_true_eq,
    List.all_eq_true, CoveredBy]
  constructor
  · rintro ⟨claim, ⟨inside, duty, covered⟩, criterion⟩
    exact ⟨claim, inside, duty, criterion, covered⟩
  · rintro ⟨claim, inside, duty, criterion, covered⟩
    exact ⟨claim, ⟨inside, duty, covered⟩, criterion⟩

theorem uncovered_eq (made : Plans contentHashOf draft current inputs plans increment)
    (network : compilation.network.toTaskNetwork = increment.merged current.toTaskNetwork)
    (projects : Projects compilation.network projection) {spec : OccurrenceSpec}
    {binding : TaskSemanticBinding}
    (bound : projection.snapshot.bindingForTask? spec.taskId = some binding) :
    uncovered projection spec = missingAfter draft current.toTaskNetwork inputs spec.obligationId
      binding.goalSignature.coverageCriteria := by
  rw [uncovered, missingAfter, bound, Option.map_some, Option.getD_some]
  congr 2
  apply List.filter_congr
  intro criterion _
  rw [decide_eq_decide, mem_coveredCriteria, coveredAfter_iff made network projects]

theorem mem_missingAfter {criteria : List String} :
    criterion ∈ missingAfter draft current.toTaskNetwork inputs obligation criteria ↔
      criterion ∈ criteria ∧
        ¬ CoveredAfter draft current.toTaskNetwork inputs obligation criterion := by
  simp [missingAfter]

end Report

/-- An accepted plan is acyclic and its relations end in it; its refined roots are covered exactly
when no gap of theirs is told in words that quote an unrefined root. -/
theorem compiled_plan_covers_iff (printable : Char → Bool) (contentHashOf : Json → String)
    (draft : MethodInstanceDraft) (current : TaskNetworkSnapshot) (inputs : CompileInputs)
    (compilation : RefinementCompilation)
    (ok : compileRefinementBundle printable contentHashOf draft current inputs = .ok compilation) :
    ∃ projection, compilation.network.executionProjection = some projection ∧
      projection.IsDag ∧ EndpointsProjected projection ∧
      (RefinedRootsCovered projection ↔
        GapsTold draft current.toTaskNetwork contentHashOf inputs printable) := by
  obtain ⟨plans, increment, openings, projection, compiles⟩ := compiles_of_ok ok
  have made := plans_of_ok compiles.planned
  obtain ⟨projection', compiled, projects⟩ := executionProjection_projects compilation.network
  rw [compiles.projected, Option.some.injEq] at compiled
  subst compiled
  have merges := compilation.network.consistent
  rw [compiles.network] at merges
  have snapshot : projection.snapshot.toTaskNetwork = increment.merged current.toTaskNetwork := by
    rw [projects.network, compiles.network]
  refine ⟨projection, compiles.projected, ?_, compiles.endpointsProjected projects, ?_⟩
  · apply isDag_of_report projects.nodesDistinct.1 compiles.validated
    intro problem listed
    rcases compiles.kind_cases listed with kind | kind <;> simp [kind]
  constructor
  · intro covered root inside refined obligation criteria place missing
    obtain ⟨criterion, left⟩ := List.exists_mem_of_ne_nil _ missing
    obtain ⟨wanted, bare⟩ := mem_missingAfter.mp left
    obtain ⟨spec, binding, found, bound, rfl, rfl⟩ := (placeAfter_iff made merges _ _ _).mpr place
    rw [← made.retireKept, ← refinedAfter_iff made.draftKept] at refined
    have here := covered root (by rw [snapshot]; exact inside) spec binding
      (by rw [snapshot]; exact found) (by rw [snapshot]; exact bound)
      (by rw [snapshot]; exact refined) criterion wanted
    exact absurd ((coveredAfter_iff made compiles.network projects _ _).mp here) bare
  · intro told root inside spec binding found bound refined criterion wanted
    by_contra bare
    have list := uncovered_eq made compiles.network projects bound
    have left : uncovered projection spec ≠ [] := by
      rw [list]
      apply List.ne_nil_of_mem
      rw [mem_missingAfter, ← coveredAfter_iff made compiles.network projects]
      exact ⟨wanted, bare⟩
    have gap := compiles.tolerated (rootGap_reported compiles.validated inside found left)
    rcases gap with kind | frontier
    · cases kind
    · simp only [isOpenFrontierGap, Bool.and_eq_true, List.any_eq_true] at frontier
      obtain ⟨_, other, among, unrefined, quotes⟩ := frontier
      rw [snapshot] at inside found bound refined
      rw [refinedAfter_iff made.draftKept, made.retireKept] at refined
      rw [compiles.network] at among unrefined
      have place := (placeAfter_iff made merges _ _ _).mp ⟨spec, binding, found, bound, rfl, rfl⟩
      have plain : ¬ RefinedAfter draft current.toTaskNetwork inputs.retireInstanceIds other := by
        rw [← made.retireKept, ← refinedAfter_iff made.draftKept]
        simpa using unrefined
      have silent := told root inside refined _ _ place (list ▸ left) other among plain
      rw [← list] at silent
      simp only [rootGap] at quotes
      rw [quotes] at silent
      cases silent

def dutyTask (task : TaskRef) (criteria : List String) : TaskSemanticBinding where
  taskId := task
  obligationId := "b"
  form := .compound
  goalSignature := { signatureId := task, coverageCriteria := criteria }

def dutyPlace (task : TaskRef) : OccurrenceSpec where
  occurrenceId := task
  taskId := task
  obligationId := "b"
  form := .compound

/-- Root `a` with a criterion is refined, root `b` nobody has refined. Both answer to the duty `b`,
for which these claims are made. -/
def frontierNetwork (claims : List ObligationCoverage) : TaskNetwork where
  missionId := "m"
  planRevision := 1
  occurrences := [dutyPlace "a", dutyPlace "b", dutyPlace "n"]
  taskBindings := [dutyTask "a" ["c"], dutyTask "b" [], dutyTask "n" []]
  methodInstances := [
    { instanceId := "mi-a"
      goalId := "a"
      obligationId := "b"
      methodRef := ⟨"split", 1, emptyHash⟩
      childBindings := [
        { instanceId := "mi-a"
          slotKey := "n"
          occurrenceId := "n"
          obligationId := "b" }] }]
  adoptedInstanceIds := ["mi-a"]
  rootOccurrenceIds := ["a", "b"]
  obligationCoverage := claims

def frontier : TaskNetworkSnapshot := ⟨frontierNetwork [], by decide⟩

/-- The child `n` of `a` answers for the criterion. -/
def coveredFrontier : TaskNetworkSnapshot :=
  ⟨frontierNetwork [{ obligationId := "b", criterionIds := ["c"], coveredBy := ["n"] }], by decide⟩

theorem work_linked : ([⟨"done", some "work"⟩] : List CriterionLink) ≠ [] := by simp

def expand : MethodContract where
  methodId := "expand"
  methodVersion := 1
  contentHash := "381c2aff4bf5b360bbae474d9e5f7d0cc7b4fd34599e4fae43079b86c3916a79"
  steps := [
    { localId := "work"
      taskTypeRef := ⟨"work", 1, emptyHash⟩
      form := .primitive }]
  composition := { criterionLinks := [⟨"done", some "work"⟩], someLink := work_linked }

def expandDraft : MethodInstanceDraft where
  instanceId := "mi-n"
  goalId := "n"
  obligationId := "b"
  methodRef := expand.methodRef
  childBindings := [
    { instanceId := "mi-n"
      slotKey := "work"
      occurrenceId := "occ-454fe302ed1ce586bbc482014d3fc700"
      obligationId := "b" }]

def expandInputs : CompileInputs where
  method := expand
  catalog := [(("work", 1), {
    taskTypeRef := ⟨"work", 1, emptyHash⟩
    form := .primitive
    goalSignature := { signatureId := "work" }
    operatorRef := some ⟨"op", 1, emptyHash⟩ })]

def expandHash : Json → String := tabulated [
  ("[\"occ\",\"mi-n\",\"work\"]",
    "454fe302ed1ce586bbc482014d3fc700fac4a102aa65fdd4e17350a62f17287f"),
  ("[\"task\",\"mi-n\",\"work\"]",
    "fabfaeed196045e8e064c59d3d00194f605ee4fcd1f9cb82672d82b6134e6470")]

def compileExpand (current : TaskNetworkSnapshot) : Except Message RefinementCompilation :=
  compileRefinementBundle (fun _ => true) expandHash expandDraft current expandInputs

structure RootFacts where
  roots : List OccurrenceId
  place : Option OccurrenceSpec
  signature : Option GoalSignature
  refined : Bool
  claims : List (List String)
deriving DecidableEq

def RootFacts.of (network : TaskNetwork) (root : OccurrenceId) : RootFacts where
  roots := network.rootOccurrenceIds
  place := network.occurrence? root
  signature := (network.bindingForTask? root).map (·.goalSignature)
  refined := (network.adoptedInstanceFor root).isSome
  claims := network.obligationCoverage.map (·.criterionIds)

def expandedFacts (claims : List (List String)) : RootFacts where
  roots := ["a", "b"]
  place := some (dutyPlace "a")
  signature := some { signatureId := "a", coverageCriteria := ["c"] }
  refined := true
  claims := claims

/-- The gap of `a` is forgiven because its text quotes the duty, which is named like root `b`. -/
theorem compiled_plan_forgives_refined_root : ∃ compilation projection,
    compileRefinementBundle (fun _ => true) expandHash expandDraft frontier expandInputs =
      .ok compilation ∧
    compilation.network.executionProjection = some projection ∧
    ¬ RefinedRootsCovered projection := by
  have outcome : (compileExpand frontier).toOption.map
      (fun c => RootFacts.of c.network.toTaskNetwork "a") = some (expandedFacts [["done"]]) := by
    unfold compileExpand expandHash
    rw [tabulated_eq_read]
    decide +kernel
  obtain ⟨compilation, compiled, facts⟩ := toOption_map_eq_some.mp outcome
  obtain ⟨projection, projected, projects⟩ := executionProjection_projects compilation.network
  refine ⟨compilation, projection, compiled, projected, fun covered => ?_⟩
  simp only [RootFacts.of, expandedFacts, RootFacts.mk.injEq, Option.map_eq_some_iff] at facts
  obtain ⟨roots, found, ⟨binding, bound, signature⟩, refined, claims⟩ := facts
  rw [← projects.network] at roots found bound refined claims
  obtain ⟨claim, inside, _, criterion, _⟩ := covered "a" (by rw [roots]; decide) _ binding found
    bound refined "c" (by rw [signature]; decide)
  have listed : claim.criterionIds ∈ [["done"]] := by
    rw [← claims]
    exact List.mem_map_of_mem inside
  rw [List.mem_singleton.mp listed] at criterion
  exact absurd criterion (by decide)

theorem frontier_covered :
    CoveredAfter expandDraft coveredFrontier.toTaskNetwork expandInputs "b" "c" := by
  refine ⟨{ obligationId := "b", criterionIds := ["c"], coveredBy := ["n"] },
    Or.inl ⟨by decide, ?_⟩, rfl, by decide, ?_⟩
  · rintro id _ ⟨⟨other, _, retired, _⟩, _⟩
    cases retired
  · intro id inside
    obtain rfl := List.mem_singleton.mp inside
    have first : coveredFrontier.methodInstances[0] ∈ coveredFrontier.methodInstances :=
      List.getElem_mem _
    refine ⟨"a", by decide, .single ⟨_, Or.inr ⟨⟨first, by decide, by decide⟩, by decide⟩, rfl, ?_⟩⟩
    exact ⟨_, List.mem_singleton_self _, rfl⟩

theorem frontier_gapsTold : GapsTold expandDraft coveredFrontier.toTaskNetwork expandHash
    expandInputs (fun _ => true) := by
  rintro root inside ⟨other, stays, rfl⟩ obligation criteria place missing
  have first : other.effectiveGoalOccurrenceId = "a" := by
    rcases stays with rfl | ⟨⟨listed, _⟩, _⟩
    · exact absurd inside (by decide)
    · rw [List.mem_singleton.mp listed]
      rfl
  rw [first] at place
  obtain ⟨criterion, left⟩ := List.exists_mem_of_ne_nil _ missing
  obtain ⟨wanted, bare⟩ := mem_missingAfter.mp left
  rcases place with ⟨_, spec, binding, found, bound, rfl, rfl⟩ | ⟨_, _, _, _, slot, _⟩
  · obtain rfl : dutyPlace "a" = spec := Option.some.inj found
    obtain rfl : dutyTask "a" ["c"] = binding := Option.some.inj bound
    rw [List.mem_singleton.mp wanted] at bare
    exact absurd frontier_covered bare
  · exact absurd slot (by simp [draftSlots, expandDraft])

/-- Covered by its child, the refined root is left without a gap. -/
theorem compiled_plan_covers_at_frontier : ∃ compilation projection,
    compileExpand coveredFrontier = .ok compilation ∧
    compilation.network.executionProjection = some projection ∧ projection.IsDag ∧
    EndpointsProjected projection ∧ RefinedRootsCovered projection ∧
    CoveredBy projection "b" "c" := by
  have outcome : (compileExpand coveredFrontier).toOption.map
      (fun c => RootFacts.of c.network.toTaskNetwork "a") =
      some (expandedFacts [["c"], ["done"]]) := by
    unfold compileExpand expandHash
    rw [tabulated_eq_read]
    decide +kernel
  obtain ⟨compilation, compiled, facts⟩ := toOption_map_eq_some.mp outcome
  obtain ⟨projection, projected, dag, endpoints, covers⟩ :=
    compiled_plan_covers_iff _ _ _ _ _ compilation compiled
  obtain ⟨projection', compiled', projects⟩ := executionProjection_projects compilation.network
  rw [projected, Option.some.injEq] at compiled'
  subst compiled'
  have covered := covers.mpr frontier_gapsTold
  refine ⟨compilation, projection, compiled, projected, dag, endpoints, covered, ?_⟩
  simp only [RootFacts.of, expandedFacts, RootFacts.mk.injEq, Option.map_eq_some_iff] at facts
  obtain ⟨roots, found, ⟨binding, bound, signature⟩, refined, _⟩ := facts
  rw [← projects.network] at roots found bound refined
  exact covered "a" (by rw [roots]; decide) _ binding found bound refined "c"
    (by rw [signature]; decide)

end Planning
