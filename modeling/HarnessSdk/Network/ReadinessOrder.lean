import HarnessSdk.Network.Readiness

/-! Readiness against the order of the projection: the order gate reads the constraints that name
the occurrence itself, the projection also passes on those of its ancestors. -/
namespace Network
open PyDict PyText Relation

namespace Context
variable {context : Context}

/-- A gate refuses with one of these reasons, or lets pass. -/
def Gives (reasons : List ReadinessReason) (gate : GateResult) : Prop :=
  ∀ refusal, gate = some refusal → refusal.1 ∈ reasons

theorem gives_none (reasons : List ReadinessReason) : Gives reasons none := by
  intro refusal refuses
  cases refuses

variable {reason : ReadinessReason} (binding : TaskSemanticBinding)

theorem gives_some {reasons : List ReadinessReason} {details : List ReadinessDetail}
    (listed : reason ∈ reasons) : Gives reasons (some (reason, details)) := by
  intro refusal refuses
  cases refuses
  exact listed

theorem gives_refused {code subject : String} {message : Message} :
    Gives [reason] (refused reason code subject message) :=
  gives_some (List.mem_singleton.mpr rfl)

theorem gives_problems {problems : List ReadinessDetail} :
    Gives [reason] (if problems.isEmpty then none else some (reason, problems)) := by
  split
  · exact gives_none _
  · exact gives_some (List.mem_singleton.mpr rfl)

theorem integrityGate_gives : Gives [.graphIntegrity] context.integrityGate := by
  unfold integrityGate
  split
  · exact gives_refused
  · split
    · exact gives_refused
    · exact gives_refused
    · split
      · exact gives_refused
      · split
        · exact gives_refused
        · exact gives_none _

theorem refinementGate_gives : Gives [.needsRefinement] context.refinementGate := by
  unfold refinementGate
  split
  · exact gives_none _
  · split
    · exact gives_none _
    · exact gives_refused

theorem accountGate_gives : Gives [.notSelected] (context.accountGate binding) := by
  unfold accountGate
  split
  · exact gives_refused
  · split
    · exact gives_refused
    · split
      · exact gives_refused
      · exact gives_none _

theorem selectionGate_gives : Gives [.notSelected] context.selectionGate := by
  unfold selectionGate
  split
  · exact gives_refused
  · split
    · exact gives_refused
    · intro refusal refuses
      rcases Option.or_eq_some_iff.mp refuses with account | ⟨_, candidacy⟩
      · obtain ⟨binding, _, account⟩ := Option.bind_eq_some_iff.mp account
        exact accountGate_gives binding refusal account
      · split at candidacy
        · exact gives_refused refusal candidacy
        · cases candidacy

theorem dataGate_gives : Gives [.waitingData] context.dataGate := by
  unfold dataGate
  split
  · exact gives_none _
  · exact gives_refused
  · exact gives_problems

theorem evidenceGate_gives : Gives evidencePrecedence context.evidenceGate := by
  unfold evidenceGate
  split
  · exact gives_some (by decide)
  · split
    · exact gives_none _
    · intro refusal refuses
      obtain ⟨reason, found, rfl⟩ := Option.map_eq_some_iff.mp refuses
      exact List.mem_of_find?_eq_some found

theorem approvalGate_gives : Gives [.waitingApproval] context.approvalGate := by
  unfold approvalGate
  split
  · exact gives_none _
  · split
    · exact gives_none _
    · exact gives_refused

theorem staleGate_gives : Gives [.staleBinding] context.staleGate := by
  unfold staleGate
  split
  · exact gives_none _
  · exact gives_problems

/-- `READINESS_PRECEDENCE`: the reasons in the order the gates can produce them. -/
def gateReasons : List (List ReadinessReason) :=
  [[.graphIntegrity], [.needsRefinement], [.notSelected], [.waitingOrder], [.waitingData],
    evidencePrecedence, [.waitingApproval], [.staleBinding], [.waitingOperationUnknown]]

theorem gates_give : List.Forall₂ Gives gateReasons context.gates :=
  .cons integrityGate_gives <| .cons refinementGate_gives <| .cons selectionGate_gives <|
    .cons gives_problems <| .cons dataGate_gives <| .cons evidenceGate_gives <|
    .cons approvalGate_gives <| .cons staleGate_gives <| .cons gives_problems .nil

theorem firstRefusal_ready {allowed : List (List ReadinessReason)} {results : List GateResult}
    (gives : List.Forall₂ Gives allowed results) (never : ∀ reasons ∈ allowed,
      ReadinessReason.readyCandidate ∉ reasons) :
    (firstRefusal results).1 = .readyCandidate ↔ ∀ gate ∈ results, gate = none := by
  induction gives with
  | nil => simp [firstRefusal]
  | @cons reasons gate others rest here _ ih =>
    cases gate with
    | none =>
      rw [firstRefusal, ih fun later inside => never later (List.mem_cons_of_mem _ inside)]
      simp
    | some refusal =>
      have differs : refusal.1 ≠ .readyCandidate := by
        intro ready
        exact never reasons List.mem_cons_self (ready ▸ here refusal rfl)
      simp [firstRefusal, differs]

theorem ready_iff :
    context.evaluateReadiness.reason = .readyCandidate ↔
      context.integrityGate = none ∧ context.refinementGate = none ∧ context.selectionGate = none ∧
      context.orderGate = none ∧ context.dataGate = none ∧ context.evidenceGate = none ∧
      context.approvalGate = none ∧ context.staleGate = none ∧ context.operationGate = none := by
  change (firstRefusal context.gates).1 = .readyCandidate ↔ _
  rw [firstRefusal_ready gates_give (by decide)]
  simp only [gates, List.forall_mem_cons, List.not_mem_nil, false_imp_iff, implies_true, and_true]

theorem orderProblem_eq_none (constraint : OrderConstraint) :
    context.orderProblem constraint = none ↔ ∃ outcome,
      get? context.resolutions constraint.before = some outcome ∧
      ¬ (constraint.releaseCondition = .settledTerminal ∧
        context.settlements.any (fun facts => !context.settles constraint outcome facts)) ∧
      orderReleased outcome constraint.releaseCondition = true := by
  unfold orderProblem
  cases get? context.resolutions constraint.before with
  | none => simp
  | some outcome =>
    simp only [Option.some.injEq, exists_eq_left']
    by_cases unsettled : constraint.releaseCondition = .settledTerminal ∧
        context.settlements.any (fun facts => !context.settles constraint outcome facts)
    · simp [unsettled]
    · by_cases released : orderReleased outcome constraint.releaseCondition
      · simp [unsettled, released]
      · simp [unsettled, released]

theorem orderGate_eq_none :
    context.orderGate = none ↔ ∀ constraint ∈ context.plan.snapshot.orderConstraints,
      constraint.after = context.view.occurrenceId → context.orderProblem constraint = none := by
  unfold orderGate
  simp

theorem adoptedOccurrences_eq (plan : ActivePlanView) :
    plan.adoptedOccurrences = plan.snapshot.reachableOccurrences := by
  obtain ⟨projection, compiled, projects⟩ := executionProjection_projects plan.snapshot
  simp [ActivePlanView.adoptedOccurrences, compiled, projects.projected]

theorem integrityGate_eq_none :
    context.integrityGate = none ↔ context.plan.integrityError = none ∧ ∃ spec binding,
      context.plan.snapshot.occurrence? context.view.occurrenceId = some spec ∧
      context.view.binding = some binding ∧ binding.taskId = context.view.taskId ∧
      spec.taskId = context.view.taskId ∧ spec.form = binding.form := by
  unfold integrityGate refused
  cases context.plan.integrityError with
  | some error => simp
  | none =>
    cases context.plan.snapshot.occurrence? context.view.occurrenceId with
    | none => simp
    | some spec =>
      cases context.view.binding with
      | none => simp
      | some binding =>
        by_cases tasks : binding.taskId = context.view.taskId ∧ spec.taskId = context.view.taskId
        · by_cases forms : spec.form = binding.form
          · simp [tasks, forms]
          · simp [tasks, forms]
        · have mismatch : binding.taskId ≠ context.view.taskId ∨
              spec.taskId ≠ context.view.taskId := by tauto
          simp only [mismatch, if_true]
          simp
          tauto

theorem refinementGate_eq_none :
    context.refinementGate = none ↔
      ∀ binding, context.view.binding = some binding → binding.form ≠ .compound := by
  unfold refinementGate refused
  cases context.view.binding with
  | none => simp
  | some binding =>
    simp only [Option.some.injEq, forall_eq']
    by_cases form : binding.form = .compound
    · simp only [form, ne_eq, not_true_eq_false, if_false, reduceCtorEq]
    · simp only [form, ne_eq, not_false_eq_true, if_true]

theorem accountGate_eq_none :
    context.accountGate binding = none ↔
      get? context.plan.obligationAccounts binding.obligationId = some ⟨.unsatisfied, true⟩ := by
  unfold accountGate refused
  cases get? context.plan.obligationAccounts binding.obligationId with
  | none => simp
  | some record =>
    obtain ⟨lifecycle, demand⟩ := record
    cases lifecycle <;> cases demand <;> simp

theorem selectionGate_eq_none :
    context.selectionGate = none ↔ context.plan.missionAdmitsWork = true ∧
      context.view.occurrenceId ∈ context.plan.snapshot.reachableOccurrences ∧
      (∀ binding, context.view.binding = some binding → context.accountGate binding = none) ∧
      context.view.dispatchCandidacy = .allowsDispatch := by
  have adopted : context.plan.isAdopted context.view.occurrenceId = true ↔
      context.view.occurrenceId ∈ context.plan.snapshot.reachableOccurrences := by
    rw [← adoptedOccurrences_eq]
    simp [ActivePlanView.isAdopted]
  rw [← adopted]
  unfold selectionGate refused
  cases context.plan.missionAdmitsWork with
  | false => simp
  | true =>
    cases context.plan.isAdopted context.view.occurrenceId with
    | false => simp
    | true =>
      cases context.view.binding with
      | none => simp
      | some binding => simp

theorem dataGate_eq_none_of {binding : TaskSemanticBinding} {manifest : InputManifest}
    (bound : context.view.binding = some binding)
    (resolved : context.inputResult = some ⟨some manifest, []⟩) (frozen : manifest.isFrozen = true)
    (satisfied : manifest.requiredPortsSatisfied binding = true) : context.dataGate = none := by
  simp [dataGate, bound, resolved, manifestProblems, frozen, satisfied]

theorem evidenceGate_eq_none_of (bound : context.view.binding = some binding)
    (available : context.evidence.observerAvailable = true)
    (witnessed : ∀ digest ∈ startPreconditions binding, context.witnessVerdict digest
      binding.taskId (get? context.evidence.witnesses digest) = none) :
    context.evidenceGate = none := by
  have clear : ((startPreconditions binding).filterMap fun digest => context.witnessVerdict digest
      binding.taskId (get? context.evidence.witnesses digest)) = [] := by
    rw [List.filterMap_eq_nil_iff]
    exact witnessed
  simp [evidenceGate, bound, available, clear]

section
variable (ready : context.evaluateReadiness.reason = .readyCandidate)
include ready

theorem ready_selected :
    context.view.occurrenceId ∈ context.plan.snapshot.reachableOccurrences ∧
      ¬ context.plan.snapshot.IsCompound context.view.occurrenceId := by
  obtain ⟨intact, leaf, selected, _⟩ := ready_iff.mp ready
  rw [integrityGate_eq_none] at intact
  rw [refinementGate_eq_none] at leaf
  refine ⟨(selectionGate_eq_none.mp selected).2.1, ?_⟩
  rintro ⟨spec, found, form⟩
  obtain ⟨_, spec', binding, found', bound, _, _, same⟩ := intact
  rw [found] at found'
  cases found'
  exact leaf binding bound (same.symm.trans form)

theorem ready_order
    {constraint : OrderConstraint} (listed : constraint ∈ context.plan.snapshot.orderConstraints)
    (names : constraint.after = context.view.occurrenceId) :
    ∃ outcome, get? context.resolutions constraint.before = some outcome ∧
      orderReleased outcome constraint.releaseCondition = true := by
  obtain ⟨_, _, _, passed, _⟩ := ready_iff.mp ready
  obtain ⟨outcome, observed, _, released⟩ :=
    (orderProblem_eq_none constraint).mp (orderGate_eq_none.mp passed constraint listed names)
  exact ⟨outcome, observed, released⟩

end

end Context

def ReleaseCondition.covers : ReleaseCondition → ReleaseCondition → Bool
  | .accepted, _ => true
  | .settledTerminal, condition => condition == .settledTerminal

theorem orderReleased_of_covers {outcome : OccurrenceOutcome} {strong weak : ReleaseCondition}
    (covers : strong.covers weak = true) (released : orderReleased outcome strong = true) :
    orderReleased outcome weak = true := by
  cases outcome <;> cases strong <;> cases weak <;> revert covers released <;> decide

/-- An outcome that releases exactly what the condition does not cover. -/
def heldOutcome : ReleaseCondition → OccurrenceOutcome
  | .accepted => .failed
  | .settledTerminal => .running

theorem heldOutcome_holds (condition : ReleaseCondition) :
    orderReleased (heldOutcome condition) condition = false := by
  cases condition <;> decide

theorem heldOutcome_releases {condition other : ReleaseCondition}
    (uncovered : other.covers condition = false) :
    orderReleased (heldOutcome condition) other = true := by
  cases condition <;> cases other <;> revert uncovered <;> decide

namespace TaskNetworkSnapshot
variable (snapshot : TaskNetworkSnapshot)

def AdoptedAncestor (ancestor id : OccurrenceId) : Prop :=
  ancestor ∈ snapshot.reachableOccurrences ∧ TransGen snapshot.Opens ancestor id

/-- No occurrence is ready before every ORDER on it or on an ancestor is released. -/
def ReadyInOrder : Prop :=
  ∀ context : Context, context.plan.snapshot = snapshot →
    context.evaluateReadiness.reason = .readyCandidate →
    ∀ constraint ∈ snapshot.orderConstraints,
      constraint.after = context.view.occurrenceId ∨
        snapshot.AdoptedAncestor constraint.after context.view.occurrenceId →
      ∃ outcome, get? context.resolutions constraint.before = some outcome ∧
        orderReleased outcome constraint.releaseCondition = true

/-- Every ORDER into a compound is repeated, at least as strictly, for each primitive below it. -/
def OrdersRepeated : Prop :=
  ∀ id ∈ snapshot.reachableOccurrences, ¬ snapshot.IsCompound id →
    ∀ constraint ∈ snapshot.orderConstraints, snapshot.AdoptedAncestor constraint.after id →
      ∃ direct ∈ snapshot.orderConstraints, direct.before = constraint.before ∧ direct.after = id ∧
        direct.releaseCondition.covers constraint.releaseCondition = true

variable {snapshot}

theorem readyInOrder_of_repeated (repeated : snapshot.OrdersRepeated) : snapshot.ReadyInOrder := by
  rintro context rfl ready constraint listed (direct | ancestor)
  · exact Context.ready_order ready listed direct
  · obtain ⟨reached, leaf⟩ := Context.ready_selected ready
    obtain ⟨direct, listed', before, after, covers⟩ :=
      repeated _ reached leaf constraint listed ancestor
    obtain ⟨outcome, observed, released⟩ := Context.ready_order ready listed' after
    rw [before] at observed
    exact ⟨outcome, observed, orderReleased_of_covers covers released⟩

theorem usable_judged : WitnessDecision.usable = .usable → TruthValue.true = .true ∧
    Validity.current = .current ∧ Availability.readable = .readable :=
  fun _ => ⟨rfl, rfl, rfl⟩

def startWitness (task : TaskRef) : ValidityWitness where
  witnessId := "start"
  consumerRef := ⟨.task, task, 0, emptyHash⟩
  purpose := .start
  truth := .true
  freshness := .current
  availability := .readable
  decision := .usable
  scopeId := "mission"
  scopeEpoch := 0
  usable := usable_judged

def boundManifest (binding : TaskSemanticBinding) : InputManifest where
  bindings := ((binding.inputPorts.map (·.portKey)).dedup).map fun port =>
    { bindingId := port, inputPort := port }
  bindingsDistinct := by
    rw [List.map_map]
    simpa [Function.comp_def] using List.nodup_dedup _

theorem boundManifest_satisfies (binding : TaskSemanticBinding) :
    (boundManifest binding).requiredPortsSatisfied binding = true := by
  rw [InputManifest.requiredPortsSatisfied, List.all_eq_true]
  intro spec inside
  rw [Bool.or_eq_true, List.any_eq_true]
  right
  refine ⟨{ bindingId := spec.portKey, inputPort := spec.portKey }, ?_, by simp⟩
  have listed : spec.portKey ∈ (binding.inputPorts.map (·.portKey)).dedup :=
    List.mem_dedup.mpr (List.mem_map_of_mem inside)
  exact List.mem_map.mpr ⟨spec.portKey, listed, rfl⟩

/-- A judgement in which only the outcomes are left open: the duty is wanted, every port is bound
and every precondition witnessed. -/
def eligible (snapshot : TaskNetworkSnapshot) (id : OccurrenceId) (binding : TaskSemanticBinding)
    (resolutions : Dict OccurrenceId OccurrenceOutcome) : Context where
  view := { occurrenceId := id, taskId := binding.taskId, binding := some binding }
  plan := {
    snapshot := snapshot
    scopeEpochs := [("mission", 0)]
    obligationAccounts := [(binding.obligationId, ⟨.unsatisfied, true⟩)] }
  resolutions := resolutions
  evidence := {
    witnesses := ofEntries ((Context.startPreconditions binding).map fun digest =>
      (digest, startWitness binding.taskId)) }
  inputResult := some ⟨some (boundManifest binding), []⟩

theorem eligible_ready {id : OccurrenceId} {spec : OccurrenceSpec} {binding : TaskSemanticBinding}
    (resolutions : Dict OccurrenceId OccurrenceOutcome)
    (reached : id ∈ snapshot.reachableOccurrences) (found : snapshot.occurrence? id = some spec)
    (leaf : spec.form = .primitive) (task : binding.taskId = spec.taskId)
    (form : binding.form = spec.form)
    (released : ∀ constraint ∈ snapshot.orderConstraints, constraint.after = id →
      ∃ outcome, get? resolutions constraint.before = some outcome ∧
        orderReleased outcome constraint.releaseCondition = true) :
    (eligible snapshot id binding resolutions).evaluateReadiness.reason = .readyCandidate := by
  rw [Context.ready_iff]
  refine ⟨?_, ?_, ?_, ?_, ?_, ?_, rfl, rfl, rfl⟩
  · rw [Context.integrityGate_eq_none]
    exact ⟨rfl, spec, binding, found, rfl, rfl, task.symm, form.symm⟩
  · rw [Context.refinementGate_eq_none]
    rintro _ ⟨⟩
    rw [form, leaf]
    decide
  · rw [Context.selectionGate_eq_none]
    refine ⟨rfl, reached, ?_, rfl⟩
    rintro _ ⟨⟩
    rw [Context.accountGate_eq_none]
    simp [eligible, get?]
  · rw [Context.orderGate_eq_none]
    intro constraint listed after
    obtain ⟨outcome, observed, releases⟩ := released constraint listed after
    rw [Context.orderProblem_eq_none]
    exact ⟨outcome, observed, by simp [eligible], releases⟩
  · exact Context.dataGate_eq_none_of rfl rfl rfl (boundManifest_satisfies binding)
  · apply Context.evidenceGate_eq_none_of binding rfl rfl
    intro digest inside
    have given : get? (eligible snapshot id binding resolutions).evidence.witnesses digest =
        some (startWitness binding.taskId) := get?_ofEntries_const _ inside
    rw [given]
    simp [Context.witnessVerdict, startWitness, eligible, get?, ValidityWitness.isFreshFor]

theorem repeated_of_readyInOrder (inOrder : snapshot.ReadyInOrder) : snapshot.OrdersRepeated := by
  intro id reached leaf constraint listed ancestor
  by_contra missing
  obtain ⟨spec, found⟩ := TaskNetwork.reachable_known reached
  have primitive : spec.form = .primitive := by
    cases form : spec.form with
    | primitive => rfl
    | compound => exact absurd ⟨spec, found, form⟩ leaf
  obtain ⟨binding, bound, form, _⟩ :=
    snapshot.consistent.bound spec (TaskNetwork.mem_of_occurrence? found).1
  have task : binding.taskId = spec.taskId := by
    have fits := List.find?_some bound
    simpa using fits
  -- every predecessor is accepted, but the one of the constraint holds it back
  let outcomes : Dict OccurrenceId OccurrenceOutcome :=
    set (ofEntries ((snapshot.orderConstraints.map (·.before)).map fun before =>
      (before, OccurrenceOutcome.accepted))) constraint.before
      (heldOutcome constraint.releaseCondition)
  have held : get? outcomes constraint.before = some (heldOutcome constraint.releaseCondition) :=
    get?_set_self _ _ _
  have ready := eligible_ready outcomes reached found primitive task form (by
    intro direct listed' after
    by_cases same : direct.before = constraint.before
    · have uncovered : direct.releaseCondition.covers constraint.releaseCondition = false := by
        by_contra covers
        exact missing ⟨direct, listed', same, after, by simpa using covers⟩
      exact ⟨_, same ▸ held, heldOutcome_releases uncovered⟩
    · refine ⟨.accepted, ?_, by simp [orderReleased]⟩
      rw [get?_set_ne _ _ (Ne.symm same)]
      exact get?_ofEntries_const _ (List.mem_map_of_mem listed'))
  obtain ⟨outcome, observed, released⟩ :=
    inOrder (eligible snapshot id binding outcomes) rfl ready constraint listed (Or.inr ancestor)
  have same : outcome = heldOutcome constraint.releaseCondition := by
    have := observed.symm.trans held
    simpa using this
  rw [same, heldOutcome_holds] at released
  cases released

/-- Readiness keeps the order of the projection exactly when the network repeats every ORDER into a
compound for the primitives below it. -/
theorem readiness_in_order_iff (snapshot : TaskNetworkSnapshot) :
    snapshot.ReadyInOrder ↔ snapshot.OrdersRepeated :=
  ⟨repeated_of_readyInOrder, readyInOrder_of_repeated⟩

/-- A build that an approval has to come before, refined into a compilation. -/
def approvedBuild : TaskNetworkSnapshot where
  missionId := "m"
  planRevision := 1
  occurrences := [position "root" .compound, position "approve" .primitive,
    position "build" .compound, position "compile" .primitive]
  taskBindings := [compoundTask "root", primitiveTask "approve", compoundTask "build",
    primitiveTask "compile"]
  methodInstances := [
    { instanceId := "m-root"
      goalId := "root"
      obligationId := "ship"
      methodRef := ⟨"release", 1, emptyHash⟩
      childBindings := [slot "m-root" "approve" .required, slot "m-root" "build" .required] },
    { instanceId := "m-build"
      goalId := "build"
      obligationId := "ship"
      methodRef := ⟨"build", 1, emptyHash⟩
      childBindings := [slot "m-build" "compile" .required] }]
  adoptedInstanceIds := ["m-root", "m-build"]
  rootOccurrenceIds := ["root"]
  orderConstraints := [{ before := "approve", after := "build" }]
  checked := by decide

def approvedBuildRank (nid : String) : Nat :=
  ["4:root:entry", "7:approve:node", "5:build:entry", "7:compile:node", "5:build:exit",
    "4:root:exit"].idxOf nid

/-- The compilation is ready while the approval still runs. -/
theorem compile_ready_before_approval :
    (∃ projection, approvedBuild.executionProjection = some projection ∧ projection.IsDag) ∧
    (eligible approvedBuild "compile" (primitiveTask "compile")
      [("approve", .running)]).evaluateReadiness.reason = .readyCandidate ∧
    approvedBuild.AdoptedAncestor "build" "compile" ∧
    { before := "approve", after := "build" } ∈ approvedBuild.orderConstraints ∧
    orderReleased .running .accepted = false ∧ ¬ approvedBuild.ReadyInOrder := by
  have ready : (eligible approvedBuild "compile" (primitiveTask "compile")
      [("approve", .running)]).evaluateReadiness.reason = .readyCandidate := by decide +kernel
  have ancestor : approvedBuild.AdoptedAncestor "build" "compile" := by
    refine ⟨by decide +kernel, .single ⟨slot "m-build" "compile" .required, ?_, rfl⟩⟩
    decide +kernel
  refine ⟨?_, ready, ancestor, by decide, by decide, ?_⟩
  · obtain ⟨projection, compiled, _⟩ := executionProjection_projects approvedBuild
    exact ⟨projection, compiled, dag_of_rank approvedBuildRank (by decide +kernel) compiled⟩
  · intro inOrder
    obtain ⟨outcome, observed, released⟩ := inOrder _ rfl ready
      { before := "approve", after := "build" } (by decide) (Or.inr ancestor)
    have running : outcome = .running := by
      have here : get? [("approve", OccurrenceOutcome.running)] "approve" = some outcome := observed
      simpa [get?] using here.symm
    rw [running] at released
    exact absurd released (by decide)

end TaskNetworkSnapshot
end Network
