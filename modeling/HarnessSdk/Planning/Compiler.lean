import HarnessSdk.Planning.Methods

/-! Compiling one grounded method into a checked plan increment. Every refusal keeps the increment
from being produced; nothing is repaired. -/
namespace Planning
open PyDict PyText Checks Workflow Network

inductive MethodRegistryStatus
  | draft
  | structurallyValid
  | trialAdmitted
  | evaluated
  | admitted
  | suspended
  | rejected
  | retired
deriving DecidableEq

def MethodRegistryStatus.text : MethodRegistryStatus → String
  | .draft => "DRAFT"
  | .structurallyValid => "STRUCTURALLY_VALID"
  | .trialAdmitted => "TRIAL_ADMITTED"
  | .evaluated => "EVALUATED"
  | .admitted => "ADMITTED"
  | .suspended => "SUSPENDED"
  | .rejected => "REJECTED"
  | .retired => "RETIRED"

structure MethodRegistration where
  status : MethodRegistryStatus
  trialScopeMission : Option String := none

structure MethodRegistry where
  registrations : Dict MethodRef MethodRegistration
  evaluationScopes : Dict MethodRef (List String) := []

def MethodRegistry.retrievable (registry : MethodRegistry) (ref : MethodRef) (mission : String) :
    Bool :=
  match get? registry.registrations ref with
  | none => false
  | some registration =>
    registration.status = .admitted || (registration.status = .trialAdmitted &&
      (registration.trialScopeMission = some mission ||
        mission ∈ (get? registry.evaluationScopes ref).getD []))

structure CompileInputs where
  method : MethodContract
  catalog : TaskTypeCatalog
  registry : Option MethodRegistry := none
  sharing : Option SharedGoalIndex := none
  reuseAcceptances : Dict String TypedRef := []
  slotAuthorizations : Dict String TypedRef := []
  slotGrants : Dict String String := []
  retireInstanceIds : List MethodInstanceId := []
  budget : GraphStructureBudget := defaultProjectionBudget

section
variable (current : TaskNetworkSnapshot)

def requireParent (draft : MethodInstanceDraft) :
    Except Message TaskSemanticBinding :=
  let place := draft.effectiveGoalOccurrenceId
  match current.occurrence? place with
  | none => .error [.text "the draft refines occurrence ", .text place,
      .text ", which this network does not contain"]
  | some spec => do
    require (spec.taskId = draft.goalId)
      [.text "occurrence ", .text place, .text " belongs to task ", .text spec.taskId,
        .text ", not to the draft's goal ", .text draft.goalId]
    require (spec.form = .compound)
      [.text "occurrence ", .text place,
        .text " is primitive; only a compound task is refined by a method (§6.2)"]
    match current.bindingForTask? spec.taskId with
    | none => .error [.repr spec.taskId]
    | some binding => do
      require (binding.obligationId = draft.obligationId)
        [.text "the draft claims obligation ", .text draft.obligationId,
          .text " but the task binding says ", .text binding.obligationId,
          .text "; the binding is the authority (TG §3.2)"]
      .ok binding

def checkAdmission (draft : MethodInstanceDraft)
    (registry : Option MethodRegistry) : Except Message Unit :=
  match registry with
  | none => .ok ()
  | some registry =>
    require (registry.retrievable draft.methodRef current.missionId)
      [.text "method ", .repr draft.methodRef.methodId, .text " is ",
        .text (((get? registry.registrations draft.methodRef).map (·.status.text)).getD
          "unregistered"), .text " for mission ", .text current.missionId,
        .text "; only an admitted or trial-admitted method may be compiled (§7.3)"]

/-- The draft may add parameters but not contradict the task's own. -/
def checkParametersAgree (draft : MethodInstanceDraft) (parent : TaskSemanticBinding) :
    Except Message Unit :=
  let disagreeing := sorted ((draft.groundedParameters.filter fun binding =>
    (get? parent.typedParameters binding.1).any fun value => !value.sameText binding.2).map (·.1))
  require disagreeing.isEmpty
    [.text "the draft's parameter(s) ", .text (join ", " disagreeing),
      .text " disagree with the typed parameters of task ", .text parent.taskId,
      .text "; this draft was grounded against a different goal"]

abbrev Slots := Dict String OccurrenceId

def plannedSlots (plans : List SlotPlan) : Slots :=
  plans.map fun plan => (plan.identity.slotKey, plan.boundOccurrenceId)

def draftSlots (draft : MethodInstanceDraft) : Slots :=
  draft.childBindings.map fun child => (child.slotKey, child.occurrenceId)

/-- The draft and a fresh planning of the same method must agree slot for slot. -/
def checkSlotsMatchDraft (draft : MethodInstanceDraft) (plans : List SlotPlan) :
    Except Message Unit :=
  let expected := plannedSlots plans
  let actual := draftSlots draft
  let lonely := sorted ((keys expected).filter (· ∉ keys actual) ++
    (keys actual).filter (· ∉ keys expected))
  let differing := if lonely.isEmpty then
      sorted ((keys expected).filter fun key => get? expected key ≠ get? actual key)
    else lonely
  require ((∀ entry ∈ expected, entry ∈ actual) ∧ ∀ entry ∈ actual, entry ∈ expected)
    [.text ("the draft's child bindings disagree with a fresh grounding of the same method at " ++
      "slot(s) "), .text (join ", " differing), .text "; the draft was built against other inputs"]

def findSlot (plans : List SlotPlan) (slot : String) : Option SlotPlan :=
  plans.find? fun plan => plan.identity.slotKey == slot

def newOccurrences (plans : List SlotPlan) (bindings : List TaskSemanticBinding) :
    List OccurrenceSpec :=
  (plans.filter fun plan => !plan.shared).map fun plan =>
    { occurrenceId := plan.identity.occurrenceId
      taskId := plan.identity.taskId
      obligationId := ((bindings.reverse.find? (·.taskId == plan.identity.taskId)).map
        (·.obligationId)).getD plan.identity.obligationId
      form := plan.spec.form
      requiredness := plan.requiredness }

def checkShared (plan : SlotPlan) : Except Message Unit :=
  if plan.shared then do
    require (current.occurrence? plan.boundOccurrenceId).isSome
      [.text "slot ", .repr plan.identity.slotKey, .text " binds shared occurrence ",
        .text plan.boundOccurrenceId, .text ", which this network does not contain"]
    require (plan.reusePolicy = .reuseAccepted → plan.acceptanceRef.isSome)
      [.text "slot ", .repr plan.identity.slotKey, .text (" reuses an accepted result but names " ++
        "no acceptance; reuse binds an exact Acceptance (TG decision 9)")]
  else .ok ()

end

def compileOrdering (plans : List SlotPlan) (ordering : MethodOrdering) :
    Except Message OrderConstraint :=
  match findSlot plans ordering.before, findSlot plans ordering.after with
  | some before, some after =>
    if differ : before.boundOccurrenceId ≠ after.boundOccurrenceId then
      .ok {
        before := before.boundOccurrenceId
        after := after.boundOccurrenceId
        releaseCondition := .accepted
        differ := differ }
    else .error [.text "steps ", .repr ordering.before, .text " and ", .repr ordering.after,
      .text " bind the same shared occurrence; an ordering between them cannot be satisfied"]
  | _, _ => .error [.text "the method orders ", .repr ordering.before, .text " before ",
      .repr ordering.after, .text ", but one of them is not a slot of this instance"]

/-- Each declared order becomes one constraint, released on acceptance; nothing else is ordered. -/
def compileOrder (method : MethodContract) (plans : List SlotPlan) :
    Except Message (List OrderConstraint) :=
  method.ordering.mapM (compileOrdering plans)

def defaultAssurancePolicy : String := "assurance.default"

def defaultFreshnessPolicy : String := "freshness.default"

def requireTaskType (catalog : TaskTypeCatalog) (ref : VersionedRef) :
    Except Message TaskTypeSpec :=
  match catalog.resolve ref with
  | none => .error [.text "task type ", .repr ref.id, .text " v", .text (toString ref.version),
      .text " is not registered at that content hash"]
  | some spec => .ok spec

def requirePort (spec : TaskTypeSpec) (port : Option PortSpec) (side key : String) :
    Except Message PortSpec :=
  match port with
  | none => .error [.text "task type ", .repr spec.taskTypeRef.id, .text " declares no ", .text side,
      .text " port ", .repr key]
  | some port => .ok port

section Hashing
variable (contentHashOf : Json → String)

def deriveRequirementId (producer output consumer input : String) : String :=
  "data-" ++ String.ofList ((contentHashOf
    (.arr [.str producer, .str output, .str consumer, .str input])).toList.take 32)

/-- The requirement that joins two different occurrences, or the refusal. -/
def joinPorts (flow : String × String × String × String) (producer consumer : OccurrenceId)
    (schema : VersionedRef) : Except Message DataRequirement :=
  if differ : producer ≠ consumer then
    .ok {
      requirementId := deriveRequirementId contentHashOf producer flow.2.1 consumer flow.2.2.2
      producerOccurrence := producer
      outputPort := flow.2.1
      consumerOccurrence := consumer
      inputPort := flow.2.2.2
      schemaRef := schema
      assurancePolicyRef := defaultAssurancePolicy
      freshnessPolicyRef := defaultFreshnessPolicy
      sourceRevisionPolicy := .pinned
      differ := differ }
  else .error [.text "steps ", .repr flow.1, .text " and ", .repr flow.2.2.1,
    .text " bind the same occurrence; a data requirement connects two different occurrences"]

def compileFlow (plans : List SlotPlan) (catalog : TaskTypeCatalog)
    (flow : String × String × String × String) : Except Message DataRequirement :=
  match findSlot plans flow.1, findSlot plans flow.2.2.1 with
  | some producer, some consumer => do
    let producerSpec ← requireTaskType catalog producer.step.taskTypeRef
    let consumerSpec ← requireTaskType catalog consumer.step.taskTypeRef
    let output ← requirePort producerSpec (producerSpec.outputPort flow.2.1) "output" flow.2.1
    let input ← requirePort consumerSpec (consumerSpec.inputPort flow.2.2.2) "input" flow.2.2.2
    require (output.schemaRef = input.schemaRef)
      [.text "port ", .text flow.1, .text ".", .text flow.2.1, .text " publishes schema ",
        .repr output.schemaRef.id, .text " v", .text (toString output.schemaRef.version),
        .text " but ", .text flow.2.2.1, .text ".", .text flow.2.2.2, .text " expects ",
        .repr input.schemaRef.id, .text " v", .text (toString input.schemaRef.version),
        .text ("; schema compatibility is exact match or a registered declaration " ++
          "(TG decision 3)")]
    joinPorts contentHashOf flow producer.boundOccurrenceId consumer.boundOccurrenceId
      output.schemaRef
  | _, _ => .error [.text "the method binds ", .text flow.1, .text ".", .text flow.2.1,
      .text " into ", .text flow.2.2.1, .text ".", .text flow.2.2.2,
      .text ", but one of the steps is not a slot"]

def compileData (method : MethodContract) (plans : List SlotPlan) (catalog : TaskTypeCatalog) :
    Except Message (List DataRequirement) :=
  (dataFlows method).mapM (compileFlow contentHashOf plans catalog)

end Hashing

def bindLink (method : MethodContract) (slots : Slots) (link : CriterionLink) :
    Except Message (String × OccurrenceId) :=
  let bound := match link.childStep with
    | some step => get? slots step
    | none => method.composition.finalizerStep.bind (get? slots)
  match bound, link.childStep with
  | some occurrence, _ => .ok (link.parentCriterionId, occurrence)
  | none, some step => .error [.text "criterion ", .repr link.parentCriterionId,
      .text " is covered by step ", .repr step, .text ", which is not a slot"]
  | none, none => .error [.text "criterion ", .repr link.parentCriterionId,
      .text " is covered by the composition, but the method declares no finalizer step"]

/-- The claim over the links: the criteria sorted, the occurrences as the criteria name them. -/
def claimOf (obligation : ObligationId) (links : List (String × OccurrenceId)) :
    List ObligationCoverage :=
  let criteria := sorted (links.map (·.1)).dedup
  let covered := fromkeys (criteria.flatMap fun criterion =>
    (links.filter (·.1 = criterion)).map (·.2))
  if ok : criteria.Nodup ∧ covered.Nodup ∧ criteria ≠ [] ∧ covered ≠ [] then
    [{ obligationId := obligation
       criterionIds := criteria
       coveredBy := covered
       criteriaDistinct := ok.1
       coveredDistinct := ok.2.1
       someCriterion := ok.2.2.1
       someOccurrence := ok.2.2.2 }]
  else []

def coverageFromSlots (method : MethodContract) (slots : Slots) (obligation : ObligationId) :
    Except Message (List ObligationCoverage) := do
  let links ← method.composition.criterionLinks.mapM (bindLink method slots)
  .ok (claimOf obligation links)

/-- The duty a slot opens, if it opens one: only independent work does. -/
def openingFor (parent : TaskSemanticBinding) (authorizations : Dict String TypedRef)
    (grants : Dict String String) (plan : SlotPlan) : Except Message (List ObligationOpening) :=
  let slot := plan.identity.slotKey
  if plan.shared then .ok []
  else if plan.boundObligationId = parent.obligationId then do
    require (get? grants slot).isNone
      [.text "slot ", .repr slot, .text (" refines the parent duty and therefore spends the " ++
        "parent's allowance; a separate grant would hand decomposition a fresh retry budget " ++
        "(§6.1)")]
    .ok []
  else do
    let relation := plan.step.obligationRelation
    let authority := get? authorizations slot
    let grant := get? grants slot
    require (relation = .independentAuthorized → authority.isSome)
      [.text "slot ", .repr slot, .text (" adds independently authorised work, which needs the " ++
        "authority that authorised it; planning alone does not create responsibility (§6.1)")]
    require (grant.isSome → relation = .independentAuthorized)
      [.text "slot ", .repr slot, .text (" refines the parent duty and therefore spends the " ++
        "parent's allowance; a separate grant would hand decomposition a fresh retry budget " ++
        "(§6.1)")]
    let opening : ObligationOpening :=
      { obligationId := plan.boundObligationId
        parentObligationId := parent.obligationId
        relation := relation
        requirementRefs := parent.requirementRefs
        goalSignature := plan.spec.goalSignature
        budgetInheritance := if grant.isSome then .separateGrant else .inheritParentFuelShare
        fuelShare := if grant.isSome then none else some 1
        grantRef := grant
        authorizationRef := authority }
    (opening.postInit).mapError fun refusal =>
      [.text "slot ", .repr slot, .text " cannot open its duty: "] ++ refusal
    .ok [opening]

def newObligations (plans : List SlotPlan) (parent : TaskSemanticBinding)
    (authorizations : Dict String TypedRef) (grants : Dict String String) :
    Except Message (List ObligationOpening) := do
  let openings ← plans.mapM (openingFor parent authorizations grants)
  .ok openings.flatten

/-- Every new child duty is the parent's or one this increment opens. -/
def checkObligationsAccounted (draft : MethodInstanceDraft) (openings : List ObligationOpening)
    (parent : TaskSemanticBinding) : Except Message Unit :=
  let unaccounted := sorted ((draft.childBindings.filter fun child =>
    child.obligationId ≠ parent.obligationId ∧
      child.obligationId ∉ openings.map (·.obligationId) ∧ child.reusePolicy = .newWork).map
        (·.obligationId))
  require unaccounted.isEmpty
    [.text "these child duties are neither the parent's nor opened by this increment: ",
      .text (join ", " unaccounted),
      .text "; a duty nobody opened has no retry allowance and no funding (§6.1)"]

def coverageGaps (parent : TaskSemanticBinding) (coverage : List ObligationCoverage) :
    List String :=
  let claimed := (coverage.filter (·.obligationId = parent.obligationId)).flatMap (·.criterionIds)
  sorted (parent.goalSignature.coverageCriteria.filter (· ∉ claimed)).dedup

def adopting (binding : TaskSemanticBinding) (id : MethodInstanceId) : TaskSemanticBinding :=
  { binding with adoptedMethodInstanceId := some id }

structure Increment where
  draft : MethodInstanceDraft
  parentBinding : TaskSemanticBinding
  newBindings : List TaskSemanticBinding
  occurrences : List OccurrenceSpec
  orderConstraints : List OrderConstraint
  dataRequirements : List DataRequirement
  coverage : List ObligationCoverage
  retireInstanceIds : List MethodInstanceId

namespace Increment
variable (current : TaskNetwork) (increment : Increment)

def adopted : List MethodInstanceId :=
  current.adoptedInstanceIds.filter (· ∉ increment.retireInstanceIds) ++ [increment.draft.instanceId]

def retiredChildren : List OccurrenceId :=
  (current.methodInstances.filter (·.instanceId ∈ increment.retireInstanceIds)).flatMap fun draft =>
    draft.childBindings.map (·.occurrenceId)

def surviving : List OccurrenceId :=
  (current.methodInstances.filter fun draft => draft.instanceId ∉ increment.retireInstanceIds ∧
    draft.instanceId ∈ increment.adopted current).flatMap fun draft =>
      draft.childBindings.map (·.occurrenceId)

/-- `_orphaned_occurrences`: what only the retired instances opened. -/
def orphanedOccurrences : List OccurrenceId :=
  (increment.retiredChildren current).filter (· ∉ increment.surviving current)

def keptByShare : List OccurrenceId :=
  (increment.draft.childBindings.filter (·.reusePolicy ≠ .newWork)).map (·.occurrenceId)

def orphaned : List OccurrenceId :=
  (increment.orphanedOccurrences current).filter (· ∉ increment.keptByShare)

def keptOccurrences : List OccurrenceSpec :=
  current.occurrences.filter (·.occurrenceId ∉ increment.orphaned current)

def orphanedTasks : List TaskRef :=
  ((current.occurrences.filter (·.occurrenceId ∈ increment.orphaned current)).map (·.taskId)).filter
    (· ∉ (increment.keptOccurrences current).map (·.taskId))

def mergedBinding (binding : TaskSemanticBinding) : TaskSemanticBinding :=
  if binding.taskId = increment.parentBinding.taskId then
    adopting increment.parentBinding increment.draft.instanceId
  else if binding.adoptedMethodInstanceId.any (· ∈ increment.retireInstanceIds) then
    { binding with adoptedMethodInstanceId := none }
  else binding

def removes (side : NetworkEndpoint) : Bool :=
  match side.kind with
  | .occurrence => side.id ∈ increment.retiredChildren current
  | .task => side.id ∈ increment.orphanedTasks current
  | .methodInstance => side.id ∈ increment.retireInstanceIds
  | _ => false

def edgeNamesAny (edge : TypedEdge) : Bool :=
  [edge.source, edge.target].any (increment.removes current)

def merged : TaskNetwork where
  missionId := current.missionId
  planRevision := current.planRevision + 1
  occurrences := increment.keptOccurrences current ++ increment.occurrences
  taskBindings :=
    ((current.taskBindings.filter (·.taskId ∉ increment.orphanedTasks current)).map
      increment.mergedBinding) ++ increment.newBindings
  methodInstances := (current.methodInstances.filter fun draft =>
    draft.instanceId ≠ increment.draft.instanceId ∧
      draft.instanceId ∉ increment.retireInstanceIds) ++ [increment.draft]
  adoptedInstanceIds := increment.adopted current
  rootOccurrenceIds := current.rootOccurrenceIds
  orderConstraints := (current.orderConstraints.filter fun constraint =>
    constraint.before ∉ increment.retiredChildren current ∧
      constraint.after ∉ increment.retiredChildren current) ++ increment.orderConstraints
  dataRequirements := (current.dataRequirements.filter fun requirement =>
    requirement.producerOccurrence ∉ increment.retiredChildren current ∧
      requirement.consumerOccurrence ∉ increment.retiredChildren current) ++
        increment.dataRequirements
  typedEdges := current.typedEdges.filter fun edge => !increment.edgeNamesAny current edge
  obligationCoverage := (current.obligationCoverage.filter fun claim =>
    claim.coveredBy.all (· ∉ increment.orphaned current)) ++ increment.coverage
  requiredObligations := current.requiredObligations

def merge : Except Message TaskNetworkSnapshot :=
  (increment.merged current).freeze.mapError fun refusal =>
    [.text "the increment does not merge into the current network: "] ++ refusal

end Increment

structure ProposedPlanDelta where
  missionId : String
  basePlanRevision : Nat
  methodInstances : List MethodInstanceDraft
  occurrences : List OccurrenceSpec
  retiredInstanceIds : List MethodInstanceId
  orderConstraints : List OrderConstraint
  dataRequirements : List DataRequirement
  obligationCoverage : List ObligationCoverage
  obligationOpenings : List ObligationOpening
  referencedOccurrences : List OccurrenceId

namespace ProposedPlanDelta
variable (delta : ProposedPlanDelta)

def known : List OccurrenceId :=
  delta.occurrences.map (·.occurrenceId) ++ delta.referencedOccurrences

def postInit : Except Message Unit := do
  require (delta.obligationOpenings.map (·.obligationId)).Nodup
    [.text "delta.obligation_openings must not open one duty twice"]
  delta.orderConstraints |> every fun constraint =>
    [constraint.before, constraint.after] |> every fun endpoint =>
      require (endpoint ∈ delta.known)
        [.text "delta.order_constraints refers to unknown occurrence ", .repr endpoint]
  delta.dataRequirements |> every fun requirement =>
    [requirement.producerOccurrence, requirement.consumerOccurrence] |> every fun endpoint =>
      require (endpoint ∈ delta.known)
        [.text "delta.data_requirements refers to unknown occurrence ", .repr endpoint]
  require (delta.dataRequirements.map fun requirement =>
      (requirement.consumerOccurrence, requirement.inputPort)).Nodup
    [.text ("a single-valued input port accepts one binding; delta.data_requirements binds one " ++
      "twice (TG decision 3)")]

def matchesBinding (bindings : List TaskSemanticBinding) (spec : OccurrenceSpec) :
    Except Message Unit :=
  match bindings.find? (·.taskId == spec.taskId) with
  | none => .error [.text "occurrence ", .text spec.occurrenceId, .text " names task ",
      .text spec.taskId, .text ", which has no semantic binding"]
  | some binding => do
    require (spec.obligationId = binding.obligationId)
      [.text "occurrence ", .text spec.occurrenceId, .text " claims obligation ",
        .text spec.obligationId, .text " but its task binding says ", .text binding.obligationId,
        .text "; the binding is the authority"]
    require (spec.form = binding.form)
      [.text "occurrence ", .text spec.occurrenceId, .text " claims form ", .text spec.form.text,
        .text " but its task binding says ", .text binding.form.text,
        .text "; the binding is the authority"]

/-- `assert_method_instances_match_occurrences`, over the occurrences the delta carries. -/
def matchesOccurrence (draft : MethodInstanceDraft) : Except Message Unit :=
  match delta.occurrences.find? (·.occurrenceId == draft.effectiveGoalOccurrenceId) with
  | none => .ok ()
  | some spec => do
    require (spec.taskId = draft.goalId)
      [.text "method instance ", .text draft.instanceId, .text " refines occurrence ",
        .text spec.occurrenceId, .text ", which belongs to task ", .text spec.taskId,
        .text ", not to its goal ", .text draft.goalId]
    require (spec.form = .compound)
      [.text "method instance ", .text draft.instanceId, .text " refines occurrence ",
        .text spec.occurrenceId,
        .text ", which is primitive; only a compound task is refined by a method (§6.2)"]

def assertConsistentWith (bindings : List TaskSemanticBinding) : Except Message Unit := do
  every (matchesBinding bindings) delta.occurrences
  every delta.matchesOccurrence delta.methodInstances

end ProposedPlanDelta

structure RefinementCompilation where
  delta : ProposedPlanDelta
  taskBindings : List TaskSemanticBinding
  adoptedInstanceId : MethodInstanceId
  parentBinding : TaskSemanticBinding
  projectionReport : ProjectionReport
  refinementReport : ProjectionReport
  network : TaskNetworkSnapshot
  sharedOccurrences : List OccurrenceId

section Compile
variable (printable : Char → Bool) (contentHashOf : Json → String)

/-- Whether a coverage gap is put down to a root nobody has refined: some such root's quoted id
stands in the text of the problem. -/
def isOpenFrontierGap (problem : ProjectionProblem) (merged : TaskNetwork) : Bool :=
  problem.kind = .rootCoverageGap && merged.rootOccurrenceIds.any fun root =>
    (merged.adoptedInstanceFor root).isNone && occursIn (quoted printable root) problem.detail

def fatalProblems (report : ProjectionReport) (merged : TaskNetwork) : List ProjectionProblem :=
  report.problems.filter fun problem =>
    problem.kind ≠ .partialCheck && !isOpenFrontierGap printable problem merged

def projectionOf (merged : TaskNetworkSnapshot) : Except Message ExecutionProjection :=
  match merged.executionProjection with
  | none => .error []
  | some projection => .ok projection

def compileIncrement (draft : MethodInstanceDraft) (current : TaskNetworkSnapshot)
    (inputs : CompileInputs) : Except Message (List SlotPlan × Increment) := do
  let method := inputs.method
  require (draft.methodRef = method.methodRef)
    [.text "the draft refines ", .repr draft.methodRef.methodId, .text " at content hash ",
      .text (String.ofList (draft.methodRef.contentHash.toList.take 12)),
      .text "…, but the method supplied hashes to ",
      .text (String.ofList (method.contentHash.toList.take 12)),
      .text "…; a definition is pinned by its hash"]
  let parent ← requireParent current draft
  checkAdmission current draft inputs.registry
  checkParametersAgree draft parent
  let plans ← planSlots contentHashOf parent method draft.groundedParameters draft.instanceId
    inputs.catalog inputs.sharing inputs.reuseAcceptances
  checkSlotsMatchDraft draft plans
  let newBindings ← childTaskBindings plans draft parent
  every (checkShared current) plans
  let orders ← compileOrder method plans
  let requirements ← compileData contentHashOf method plans inputs.catalog
  let coverage ← coverageFromSlots method (plannedSlots plans) parent.obligationId
  .ok (plans, {
    draft := draft
    parentBinding := parent
    newBindings := newBindings
    occurrences := newOccurrences plans newBindings
    orderConstraints := orders
    dataRequirements := requirements
    coverage := coverage
    retireInstanceIds := inputs.retireInstanceIds })

def deltaOf (current : TaskNetworkSnapshot) (plans : List SlotPlan) (increment : Increment)
    (openings : List ObligationOpening) : ProposedPlanDelta where
  missionId := current.missionId
  basePlanRevision := current.planRevision
  methodInstances := [increment.draft]
  occurrences := increment.occurrences
  retiredInstanceIds := increment.retireInstanceIds
  orderConstraints := increment.orderConstraints
  dataRequirements := increment.dataRequirements
  obligationCoverage := increment.coverage
  obligationOpenings := openings
  referencedOccurrences := fromkeys ((plans.filter (·.shared)).map (·.boundOccurrenceId) ++
    [increment.draft.effectiveGoalOccurrenceId])

def refusalText (problems : List ProjectionProblem) : String :=
  "the compiled increment does not pass the structural checks: " ++ join "; " (sorted
    (problems.map fun problem => problem.kind.text ++ ": " ++ problem.detail).dedup)

/-- The ten steps of the compilation, in order; the last is not taken here. -/
def compileRefinementBundle (draft : MethodInstanceDraft) (current : TaskNetworkSnapshot)
    (inputs : CompileInputs) : Except Message RefinementCompilation := do
  let (plans, increment) ← compileIncrement contentHashOf draft current inputs
  let parent := increment.parentBinding
  let openings ← newObligations plans parent inputs.slotAuthorizations inputs.slotGrants
  let merged ← increment.merge current.toTaskNetwork
  let projection ← projectionOf merged
  let projectionReport ← (validateExecutionProjection printable projection inputs.budget).mapError
    fun refusal => [.text refusal]
  let refinementReport ← (validateRefinementAcyclic printable merged.toTaskNetwork).mapError
    fun refusal => [.text refusal]
  checkObligationsAccounted draft openings parent
  let gaps := coverageGaps parent increment.coverage
  require gaps.isEmpty
    [.text "method ", .repr inputs.method.methodId, .text " leaves criteria ",
      .text (join ", " gaps), .text " of obligation ", .text parent.obligationId,
      .text " uncovered; all leaves passing does not satisfy the parent (§8.1)"]
  let fatal := fatalProblems printable projectionReport merged.toTaskNetwork
  require ((fatal ++ refinementReport.problems).isEmpty)
    [.text (refusalText (fatal ++ refinementReport.problems))]
  let delta := deltaOf current plans increment openings
  delta.postInit
  delta.assertConsistentWith merged.taskBindings
  .ok {
    delta := delta
    taskBindings := increment.newBindings
    adoptedInstanceId := draft.instanceId
    parentBinding := adopting parent draft.instanceId
    projectionReport := projectionReport
    refinementReport := refinementReport
    network := merged
    sharedOccurrences := fromkeys ((plans.filter (·.shared)).map (·.boundOccurrenceId)) }

structure Compiles (draft : MethodInstanceDraft) (current : TaskNetworkSnapshot)
    (inputs : CompileInputs) (compilation : RefinementCompilation) (plans : List SlotPlan)
    (increment : Increment) (openings : List ObligationOpening) (projection : ExecutionProjection) :
    Prop where
  planned : compileIncrement contentHashOf draft current inputs = .ok (plans, increment)
  network : compilation.network.toTaskNetwork = increment.merged current.toTaskNetwork
  projected : compilation.network.executionProjection = some projection
  validated : validateExecutionProjection printable projection inputs.budget =
    .ok compilation.projectionReport
  covered : coverageGaps increment.parentBinding increment.coverage = []
  clean : fatalProblems printable compilation.projectionReport
    compilation.network.toTaskNetwork = []
  delta : compilation.delta = deltaOf current plans increment openings
  taskBindings : compilation.taskBindings = increment.newBindings
  parentBinding : compilation.parentBinding = adopting increment.parentBinding draft.instanceId

variable {printable contentHashOf}

variable {increment : Increment} {draft : MethodInstanceDraft} {parameters : Dict String Json}
  {draftId : MethodInstanceId} {acceptances : Dict String TypedRef}

theorem Increment.merge_eq_ok {current : TaskNetwork} {merged : TaskNetworkSnapshot} :
    increment.merge current = .ok merged ↔ merged.toTaskNetwork = increment.merged current := by
  rw [Increment.merge, mapError_eq_ok, TaskNetwork.freeze_eq_ok]

variable {current : TaskNetworkSnapshot} {step : MethodStep} {plan : SlotPlan}

theorem requireParent_cases {parent : TaskSemanticBinding}
    (ok : requireParent current draft = .ok parent) :
    ∃ spec, current.occurrence? draft.effectiveGoalOccurrenceId = some spec ∧
      spec.taskId = draft.goalId ∧ spec.form = .compound ∧
      current.bindingForTask? spec.taskId = some parent ∧
      parent.obligationId = draft.obligationId := by
  simp only [requireParent] at ok
  split at ok
  · cases ok
  · next spec placed =>
    simp only [then_eq_ok, require_eq_ok] at ok
    obtain ⟨task, form, ok⟩ := ok
    split at ok
    · cases ok
    · next binding found =>
      obtain ⟨duty, ok⟩ := then_eq_ok.mp ok
      cases ok
      exact ⟨spec, placed, task, form, found, (require_eq_ok _ _).mp duty⟩

structure Plans (contentHashOf : Json → String) (draft : MethodInstanceDraft)
    (current : TaskNetworkSnapshot) (inputs : CompileInputs) (plans : List SlotPlan)
    (increment : Increment) : Prop where
  draftKept : increment.draft = draft
  retireKept : increment.retireInstanceIds = inputs.retireInstanceIds
  parent : requireParent current draft = .ok increment.parentBinding
  planned : planSlots contentHashOf increment.parentBinding inputs.method
    draft.groundedParameters draft.instanceId inputs.catalog inputs.sharing
    inputs.reuseAcceptances = .ok plans
  slots : ∀ entry, entry ∈ plannedSlots plans ↔ entry ∈ draftSlots draft
  bindings : childTaskBindings plans draft increment.parentBinding = .ok increment.newBindings
  created : increment.occurrences = newOccurrences plans increment.newBindings
  orders : compileOrder inputs.method plans = .ok increment.orderConstraints
  requirements : compileData contentHashOf inputs.method plans inputs.catalog =
    .ok increment.dataRequirements
  coverage : coverageFromSlots inputs.method (plannedSlots plans)
    increment.parentBinding.obligationId = .ok increment.coverage

variable {inputs : CompileInputs} {task : TaskSemanticBinding} {catalog : TaskTypeCatalog}
  {sharing : Option SharedGoalIndex}

theorem plans_of_ok {plans : List SlotPlan}
    (ok : compileIncrement contentHashOf draft current inputs = .ok (plans, increment)) :
    Plans contentHashOf draft current inputs plans increment := by
  unfold compileIncrement at ok
  simp only [bind_eq_ok, Unique.exists_iff, PUnit.default_eq_unit] at ok
  obtain ⟨_, parent, hp, _, _, plans', planned, slots, bindings, hb, _, orders, ho, requirements, hr,
    coverage, hc, ok⟩ := ok
  cases ok
  rw [checkSlotsMatchDraft, require_eq_ok] at slots
  exact {
    draftKept := rfl
    retireKept := rfl
    parent := hp
    planned := planned
    slots := fun entry => ⟨slots.1 entry, slots.2 entry⟩
    bindings := hb
    created := rfl
    orders := ho
    requirements := hr
    coverage := hc }

section
variable (ok : planSlot contentHashOf task parameters draftId catalog sharing acceptances step = .ok plan)
include ok

theorem planSlot_cases : plan.step = step ∧ catalog.resolve step.taskTypeRef = some plan.spec ∧
      plan.identity = slotIdentity contentHashOf draftId step.localId task.obligationId
        step.obligationRelation := by
  unfold planSlot at ok
  split at ok
  · cases ok
  · next spec resolved =>
    obtain ⟨_, ok⟩ := then_eq_ok.mp ok
    obtain ⟨arguments, _, ok⟩ := bind_eq_ok.mp ok
    cases ok
    unfold bindSlot
    split <;> exact ⟨rfl, resolved, rfl⟩

theorem planSlot_slotKey : plan.identity.slotKey = step.localId := by
  rw [(planSlot_cases ok).2.2]
  rfl

end

namespace Plans
variable {draft : MethodInstanceDraft} {current : TaskNetworkSnapshot} {inputs : CompileInputs}
  {plans : List SlotPlan} {increment : Increment}

section
variable (made : Plans contentHashOf draft current inputs plans increment)
include made

theorem slotKeys :
    plans.map (·.identity.slotKey) = inputs.method.steps.map (·.localId) :=
  map_of_mapM made.planned fun _ _ ok => planSlot_slotKey ok

theorem step_mem {plan : SlotPlan}
    (inside : plan ∈ plans) :
    plan.step ∈ inputs.method.steps ∧ plan.identity.slotKey = plan.step.localId := by
  obtain ⟨step, known, ok⟩ := (mem_of_mapM made.planned plan).mp inside
  rw [(planSlot_cases ok).1]
  exact ⟨known, planSlot_slotKey ok⟩

theorem plan_of_step
    {step : MethodStep} (known : step ∈ inputs.method.steps) : ∃ plan ∈ plans, plan.step = step ∧
      inputs.catalog.resolve step.taskTypeRef = some plan.spec ∧
      plan.identity = slotIdentity contentHashOf draft.instanceId step.localId
        increment.parentBinding.obligationId step.obligationRelation := by
  obtain ⟨plan, inside, ok⟩ := round_of_mapM made.planned known
  exact ⟨plan, inside, planSlot_cases ok⟩

theorem findSlot_iff
    (slot : String) (id : OccurrenceId) :
    (∃ plan, findSlot plans slot = some plan ∧ plan.boundOccurrenceId = id) ↔
      (slot, id) ∈ draftSlots draft := by
  rw [← made.slots]
  have distinct : (plans.map (·.identity.slotKey)).Nodup := by
    rw [made.slotKeys]
    exact inputs.method.stepsDistinct
  simp only [plannedSlots, List.mem_map, Prod.mk.injEq]
  constructor
  · rintro ⟨plan, found, bound⟩
    exact ⟨plan, List.mem_of_find?_eq_some found, by simpa using List.find?_some found, bound⟩
  · rintro ⟨plan, inside, key, bound⟩
    refine ⟨plan, ?_, bound⟩
    cases found : findSlot plans slot with
    | none =>
      have absent := List.find?_eq_none.mp found plan inside
      simp [key] at absent
    | some other =>
      have here := List.mem_of_find?_eq_some found
      have key' : other.identity.slotKey = slot := by simpa using List.find?_some found
      rw [List.inj_on_of_nodup_map distinct here inside (key'.trans key.symm)]

end

end Plans

theorem projectionOf_eq_ok {merged : TaskNetworkSnapshot} {projection : ExecutionProjection} :
    projectionOf merged = .ok projection ↔ merged.executionProjection = some projection := by
  unfold projectionOf
  cases merged.executionProjection <;> simp

theorem compiles_of_ok {compilation : RefinementCompilation}
    (ok : compileRefinementBundle printable contentHashOf draft current inputs = .ok compilation) :
    ∃ plans increment openings projection, Compiles printable contentHashOf draft current inputs
      compilation plans increment openings projection := by
  unfold compileRefinementBundle at ok
  obtain ⟨⟨plans, increment⟩, planned, ok⟩ := bind_eq_ok.mp ok
  obtain ⟨openings, _, ok⟩ := bind_eq_ok.mp ok
  obtain ⟨merged, merges, ok⟩ := bind_eq_ok.mp ok
  obtain ⟨projection, projected, ok⟩ := bind_eq_ok.mp ok
  obtain ⟨report, validated, ok⟩ := bind_eq_ok.mp ok
  obtain ⟨refinement, _, ok⟩ := bind_eq_ok.mp ok
  simp only [then_eq_ok, require_eq_ok, Except.ok.injEq] at ok
  obtain ⟨_, covered, clean, _, _, rfl⟩ := ok
  rw [List.isEmpty_iff] at covered
  rw [List.isEmpty_iff, List.append_eq_nil_iff] at clean
  exact ⟨plans, increment, openings, projection, {
    planned := planned
    network := Increment.merge_eq_ok.mp merges
    projected := projectionOf_eq_ok.mp projected
    validated := mapError_eq_ok.mp validated
    covered := covered
    clean := clean.1
    delta := rfl
    taskBindings := rfl
    parentBinding := rfl }⟩

end Compile

end Planning
