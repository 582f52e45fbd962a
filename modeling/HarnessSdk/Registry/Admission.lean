import HarnessSdk.Registry.Catalogs

/-! The three checks a submitted definition has to pass before it is offered to anyone. -/
namespace Registry
open PyDict PyText Checks Workflow Contracts
open Network (TaskForm ReusePolicy)

inductive AdmissionStepId
  | structureAndTypes
  | registryTypeCheck
  | structuralChecks
  | independentPlanReview
  | formalModeling
  | trialAdmission
deriving DecidableEq

def AdmissionStepId.all : List AdmissionStepId :=
  [.structureAndTypes, .registryTypeCheck, .structuralChecks, .independentPlanReview,
    .formalModeling, .trialAdmission]

def AdmissionStepId.text : AdmissionStepId → String
  | .structureAndTypes => "structure_and_types"
  | .registryTypeCheck => "registry_type_check"
  | .structuralChecks => "structural_checks"
  | .independentPlanReview => "independent_plan_review"
  | .formalModeling => "formal_modeling"
  | .trialAdmission => "trial_admission"

inductive RejectionCode
  | modelClaimedStatus
  | malformedDefinition
  | unknownTaskType
  | unknownOperator
  | formMismatch
  | unknownSchema
  | unknownPredicate
  | predicateTypeError
  | unknownCapability
  | unboundedRecursion
  | orderingCycle
  | portUnavailable
  | rootCoverageGap
  | sizeBound
  | alreadyRegistered
deriving DecidableEq

def RejectionCode.text : RejectionCode → String
  | .modelClaimedStatus => "MODEL_CLAIMED_STATUS"
  | .malformedDefinition => "MALFORMED_DEFINITION"
  | .unknownTaskType => "UNKNOWN_TASK_TYPE"
  | .unknownOperator => "UNKNOWN_OPERATOR"
  | .formMismatch => "FORM_MISMATCH"
  | .unknownSchema => "UNKNOWN_SCHEMA"
  | .unknownPredicate => "UNKNOWN_PREDICATE"
  | .predicateTypeError => "PREDICATE_TYPE_ERROR"
  | .unknownCapability => "UNKNOWN_CAPABILITY"
  | .unboundedRecursion => "UNBOUNDED_RECURSION"
  | .orderingCycle => "ORDERING_CYCLE"
  | .portUnavailable => "PORT_UNAVAILABLE"
  | .rootCoverageGap => "ROOT_COVERAGE_GAP"
  | .sizeBound => "SIZE_BOUND"
  | .alreadyRegistered => "ALREADY_REGISTERED"

structure AdmissionProblem where
  code : RejectionCode
  detail : Message
  step : AdmissionStepId
  reason : String := ""
deriving DecidableEq

def refusing (p : Prop) [Decidable p] (problem : AdmissionProblem) : List AdmissionProblem :=
  if p then [problem] else []

def versionText (ref : VersionedRef) : List Fragment :=
  [.repr ref.id.text, .text s!" v{ref.version.number}"]

def formText : TaskForm → String := TaskForm.text

def reuseText (policy : ReusePolicy) : String := memberText reuseMembers policy

section
variable (method : MethodContract) (policy : AdmissionPolicy)

/-- `method_parameter_names`: nothing when the schema is unknown. -/
def parameterNames : List Identifier :=
  match policy.schema method.parameterSchemaRef with
  | none => []
  | some schema => schema.fields.map (·.name)

def readProblems (step : MethodStep) (name : String) (node : ValueExpr) : List AdmissionProblem :=
  let declared := parameterNames method policy
  let reads : Message :=
    [.text "step ", .repr step.localId.text, .text " argument ", .repr name, .text " reads "]
  match node with
  | .parameter parameter =>
    refusing (declared ≠ [] ∧ parameter ∉ declared) {
      code := .malformedDefinition
      detail := reads ++ [.text "parameter ", .repr parameter.text,
        .text ", which the method's parameter schema does not declare"]
      step := .structureAndTypes }
  | .output producer _ =>
    if producer ∉ method.steps.map (·.localId) then
      [{  code := .malformedDefinition
          detail := reads ++ [.text "the output of unknown step ", .repr producer.text]
          step := .structureAndTypes }]
    else refusing (producer = step.localId) {
      code := .malformedDefinition
      detail := reads ++ [.text "its own output"]
      step := .structureAndTypes }
  | _ => []

def unknownStepType (step : MethodStep) : AdmissionProblem :=
  let needs : Message := [.text "step ", .repr step.localId.text]
  if step.form = .primitive then {
    code := .unknownOperator
    detail := needs ++ .text " needs operator " :: versionText step.taskTypeRef ++
      [.text (", which no registered task type provides; this deployment cannot " ++
        "execute the method (§7.3 step 2)")]
    step := .structureAndTypes }
  else {
    code := .unknownTaskType
    detail := needs ++ .text " names task type " :: versionText step.taskTypeRef ++
      [.text ", which is not registered"]
    step := .structureAndTypes }

def stepTypeProblems (step : MethodStep) (spec : TaskTypeSpec) : List AdmissionProblem :=
  refusing (spec.form ≠ step.form) {
    code := .formMismatch
    detail := [.text "step ", .repr step.localId.text,
      .text s!" declares form {formText step.form} but task type ", .repr step.taskTypeRef.id.text,
      .text s!" is {formText spec.form}"]
    step := .structureAndTypes } ++
  refusing (step.form = .primitive ∧ spec.operatorRef = none) {
    code := .unknownOperator
    detail := [.text "step ", .repr step.localId.text, .text " is primitive but task type ",
      .repr spec.taskTypeRef.id.text, .text " registers no operator"]
    step := .structureAndTypes } ++
  refusing (step.reusePolicy ≠ none ∧ step.reusePolicy ≠ some .newWork ∧ spec.readOnly = false ∧
      spec.effectIdentity = none) {
    code := .malformedDefinition
    detail := [.text "step ", .repr step.localId.text,
      .text s!" declares reuse policy {reuseText (step.reusePolicy.getD .newWork)}, but task type ",
      .repr spec.taskTypeRef.id.text,
      .text (" writes outside the orchestrator and declares no effect_identity; two " ++
        "such actions are two actions (§8.3)")]
    step := .structureAndTypes } ++
  step.arguments.flatMap fun argument =>
    argument.2.nodes.flatMap (readProblems method policy step argument.1)

def stepProblems (step : MethodStep) : List AdmissionProblem :=
  match policy.taskType step.taskTypeRef with
  | none => [unknownStepType step]
  | some spec => stepTypeProblems method policy step spec

def goalTypeProblems : List AdmissionProblem :=
  match policy.taskType method.goalTypeRef with
  | none =>
    [{  code := .unknownTaskType
        detail := .text "goal type " :: versionText method.goalTypeRef ++
          [.text " is not registered at that content hash"]
        step := .structureAndTypes }]
  | some goal => refusing (goal.form ≠ .compound) {
      code := .formMismatch
      detail := [.text "goal type ", .repr method.goalTypeRef.id.text,
        .text " is primitive; only a compound goal is refined by a method (§6.2)"]
      step := .structureAndTypes }

def schemaProblem (label : String) (ref : VersionedRef) : List AdmissionProblem :=
  refusing ((policy.schema ref).isNone = true) {
    code := .unknownSchema
    detail := .text s!"method.{label} names schema " :: versionText ref ++
      [.text ", which is not registered at that content hash"]
    step := .structureAndTypes }

/-- Step 1: JSON, types, references and scope; and the operators this deployment lacks. -/
def checkStructureAndTypes : List AdmissionProblem × List Identifier :=
  match rejectExecutable method.toJson "method_contract" with
  | .error error =>
    ([{  code := .malformedDefinition
         detail := error
         step := .structureAndTypes }], [])
  | .ok () =>
    (refusing (method.steps = []) {
        code := .malformedDefinition
        detail := [.text "a method with no steps refines nothing; use an operator instead"]
        step := .structureAndTypes } ++
      refusing (policy.maxSteps.number < method.steps.length) {
        code := .sizeBound
        detail := [.text (s!"the method declares {method.steps.length} steps, above the " ++
          s!"policy's {policy.maxSteps.number}")]
        step := .structureAndTypes
        reason := "synthesis_width" } ++
      goalTypeProblems method policy ++
      schemaProblem policy "parameter_schema_ref" method.parameterSchemaRef ++
      schemaProblem policy "output_schema_ref" method.outputSchemaRef ++
      method.steps.flatMap (stepProblems method policy),
    (method.steps.filter fun step =>
      (policy.taskType step.taskTypeRef).isNone && step.form = .primitive).map (·.taskTypeRef.id))

def typeError (detail : Message) : AdmissionProblem where
  code := .predicateTypeError
  detail := detail
  step := .registryTypeCheck

def argumentProblems (ref : VersionedRef) (signature : PredicateSignature) (name : String)
    (argument : ValueExpr) : List AdmissionProblem :=
  match fieldNamed signature.parameters name with
  | none => [typeError [.text "predicate ", .repr ref.id.text, .text " has no argument ",
      .repr name]]
  | some parameter =>
    match argument with
    | .constant value => refusing (valueMatches parameter.type value.value = false)
        (typeError [.text "predicate ", .repr ref.id.text, .text " argument ", .repr name,
          .text s!" expects {parameter.type.text}"])
    | .parameter read =>
      let declared := parameterNames method policy
      let types := ((policy.schema method.parameterSchemaRef).map (·.fields)).getD []
      if declared ≠ [] ∧ read ∉ declared then
        [typeError [.text "condition reads parameter ", .repr read.text,
          .text ", which the method's parameter schema does not declare"]]
      else
        match fieldNamed types read.text with
        | none => []
        | some item => refusing (item.type ≠ parameter.type)
            (typeError [.text "parameter ", .repr read.text,
              .text s!" is {item.type.text} but predicate ", .repr ref.id.text,
              .text s!" wants {parameter.type.text} for ", .repr name])
    | .output _ _ => [typeError [.text ("a method condition may not read a step output; at " ++
        "selection time it does not exist (§6.6)")]]
    | .object _ => []
    | .array _ => []

def atomProblems (atom : VersionedRef × Dict String ValueExpr) : List AdmissionProblem :=
  match policy.predicate atom.1 with
  | none =>
    [{  code := .unknownPredicate
        detail := .text "condition names predicate " :: versionText atom.1 ++
          [.text ", which is not registered"]
        step := .registryTypeCheck }]
  | some signature => atom.2.flatMap fun argument =>
      argumentProblems method policy atom.1 signature argument.1 argument.2

def allConditions : List Condition :=
  method.applicableWhen ++ method.explorationAssumptions ++ method.expectedEffects

def missingPredicates : List String :=
  ((atomsOf (allConditions method)).filter fun atom => (policy.predicate atom.1).isNone).map
    fun atom => s!"{atom.1.id.text}@{atom.1.version.number}"

def requiredCapabilities : List Identifier :=
  fromkeys (method.requiredCapabilities.items ++
    method.steps.flatMap (·.requiredCapabilities.items))

def missingRequired : List Identifier :=
  (requiredCapabilities method).filter fun id => (policy.capabilities.lookup id).isNone

def undeclaredCapability (id : Identifier) : AdmissionProblem where
  code := .unknownCapability
  detail := [.text "capability ", .repr id.text,
    .text (" is not declared by this deployment; the method is not executable here " ++
      "(§7.3 step 2)")]
  step := .registryTypeCheck

def operatorNeeds (spec : TaskTypeSpec) (id : Identifier) : AdmissionProblem where
  code := .unknownCapability
  detail := [.text "operator ", .repr spec.taskTypeRef.id.text, .text " needs capability ",
    .repr id.text, .text ", which this deployment does not declare"]
  step := .registryTypeCheck

def newlyMissing (told : List Identifier) : List Identifier → List Identifier
  | [] => []
  | id :: rest =>
    if (policy.capabilities.lookup id).isNone ∧ id ∉ told then id :: newlyMissing (id :: told) rest
    else newlyMissing told rest

def operatorProblems (told : List Identifier) :
    List MethodStep → List AdmissionProblem × List Identifier × List Identifier
  | [] => ([], told, [])
  | step :: rest =>
    if step.form ≠ .primitive then operatorProblems told rest
    else match policy.taskType step.taskTypeRef with
      | some spec =>
        if spec.operatorRef = none then
          let later := operatorProblems told rest
          (unprovided step :: later.1, later.2.1, step.taskTypeRef.id :: later.2.2)
        else
          let new := newlyMissing policy told spec.requiredCapabilities.items
          let later := operatorProblems (told ++ new) rest
          (new.map (operatorNeeds spec) ++ later.1, later.2)
      | none =>
        let later := operatorProblems told rest
        (unprovided step :: later.1, later.2.1, step.taskTypeRef.id :: later.2.2)
where
  unprovided (step : MethodStep) : AdmissionProblem := {
    code := .unknownOperator
    detail := [.text "step ", .repr step.localId.text, .text " needs operator ",
      .repr step.taskTypeRef.id.text, .text ", which no registered task type provides"]
    step := .registryTypeCheck }

structure RegistryFindings where
  problems : List AdmissionProblem
  missingPredicates : List String
  missingCapabilities : List Identifier
  missingOperators : List Identifier

/-- Step 2: the predicate registry, the operator table and the capability table. -/
def checkRegistries : RegistryFindings :=
  let operators := operatorProblems policy (missingRequired method policy) method.steps
  { problems := (atomsOf (allConditions method)).flatMap (atomProblems method policy) ++
      (missingRequired method policy).map undeclaredCapability ++ operators.1
    missingPredicates := missingPredicates method policy
    missingCapabilities := operators.2.1
    missingOperators := operators.2.2 }

def methodIsRecursive : Bool :=
  method.steps.any fun step => step.taskTypeRef = method.goalTypeRef

/-- `implied_orderings`: data flow inside a method also orders its steps. -/
def impliedOrderings : List (Identifier × Identifier) :=
  fromkeys (method.steps.flatMap fun step => step.arguments.flatMap fun argument =>
    (argument.2.outputs.filter (·.1 ≠ step.localId)).map fun read => (read.1, step.localId))

end

/-- Nodes being walked and nodes done, and the path to the current one. -/
structure Walk where
  active : List Identifier := []
  done : List Identifier := []
  path : List Identifier := []

def walkAll (visit : Identifier → Walk → List Identifier × Walk) :
    List Identifier → Walk → List Identifier × Walk
  | [], walk => ([], walk)
  | node :: rest, walk =>
    if node ∈ walk.active then (walk.path.drop (walk.path.idxOf node) ++ [node], walk)
    else if node ∈ walk.done then walkAll visit rest walk
    else
      let found := visit node walk
      if found.1 ≠ [] then found else walkAll visit rest found.2

/-- One branch goes no deeper than there are nodes. -/
def walkFrom (successors : Identifier → List Identifier) :
    Nat → Identifier → Walk → List Identifier × Walk
  | 0, _, walk => ([], walk)
  | depth + 1, node, walk =>
    let found := walkAll (walkFrom successors depth)
      (sortedBy Identifier.text (successors node)) {
        walk with
        active := node :: walk.active
        path := walk.path ++ [node] }
    if found.1 ≠ [] then found
    else ([], {
      active := found.2.active.erase node
      done := node :: found.2.done
      path := found.2.path.dropLast })

def firstCycle (pairs : List (Identifier × Identifier)) (nodes : List Identifier) :
    List Identifier :=
  let known := fromkeys (nodes ++ pairs.flatMap fun pair => [pair.1, pair.2])
  let successors := fun node => (pairs.filter (·.1 = node)).map (·.2)
  (walkAll (walkFrom successors (known.length + 1)) (sortedBy Identifier.text known) {}).1

def addedTestsMarkers : List String :=
  ["c-contract-tests-pass", "tests covering", "must be added or turned from red to green",
    "added or turned from red to green", "新增测试", "加入测试", "contract test"]

def evidenceRequiresAddedTests (parts : List String) : Bool :=
  marked addedTestsMarkers (join "\n" parts).toList

section
variable (method : MethodContract) (policy : AdmissionPolicy)

def structuralProblem (code : RejectionCode) (detail : Message) : AdmissionProblem where
  code := code
  detail := detail
  step := .structuralChecks

def recursionProblems : List AdmissionProblem :=
  if methodIsRecursive method then
    refusing (method.applicableWhen.isEmpty = true) (structuralProblem .unboundedRecursion
      [.text ("a recursive method needs at least one applicability condition to act as a " ++
        "termination guard; without one every expansion re-expands the same goal")]) ++
    refusing (∀ step ∈ method.steps, step.taskTypeRef = method.goalTypeRef)
      (structuralProblem .unboundedRecursion
        [.text ("every step of this recursive method re-expands its own goal type; no " ++
          "expansion makes progress")])
  else []

def orderProblems : List AdmissionProblem :=
  let cycle := firstCycle (method.ordering.map (fun order => (order.before, order.after)) ++
    impliedOrderings method) (method.steps.map (·.localId))
  refusing (cycle ≠ []) (structuralProblem .orderingCycle
    [.text ("the method's partial order is cyclic: " ++
      join " -> " (cycle.map (·.text)))])

def portProblems (step : MethodStep) (name : String) (read : Identifier × Identifier) :
    List AdmissionProblem :=
  match method.steps.find? (·.localId = read.1) with
  | none => []
  | some producer =>
    refusing ((policy.taskType producer.taskTypeRef).any
        (fun spec => (spec.outputPort read.2.text).isNone) = true)
      (structuralProblem .portUnavailable [.text "step ", .repr step.localId.text,
        .text " reads output port ", .repr read.2.text, .text " of ", .repr read.1.text,
        .text ", which task type ", .repr producer.taskTypeRef.id.text,
        .text " does not declare"]) ++
    refusing ((policy.taskType step.taskTypeRef).any
        (fun spec => (spec.inputPort name).isNone) = true)
      (structuralProblem .portUnavailable [.text "step ", .repr step.localId.text,
        .text " binds input port ", .repr name, .text ", which task type ",
        .repr step.taskTypeRef.id.text, .text " does not declare"])

def stepPortProblems (step : MethodStep) : List AdmissionProblem :=
  step.arguments.flatMap (fun argument =>
    argument.2.outputs.flatMap (portProblems method policy step argument.1)) ++
  match policy.taskType step.taskTypeRef with
  | none => []
  | some spec => refusing (policy.maxPortsPerStep.number < spec.inputPorts.length)
      (structuralProblem .sizeBound [.text "task type ", .repr spec.taskTypeRef.id.text,
        .text (s!" declares {spec.inputPorts.length} input ports, above the policy's " ++
          s!"{policy.maxPortsPerStep.number}")])

def coverageProblems : List AdmissionProblem :=
  match policy.taskType method.goalTypeRef with
  | none => []
  | some goal =>
    let covered := method.composition.criterionLinks.map (·.parentCriterionId)
    let missing := sorted ((goal.goalSignature.coverageCriteria.items.filter (· ∉ covered)).map (·.text))
    refusing (missing ≠ []) (structuralProblem .rootCoverageGap
      [.text ("the composition covers none of criteria " ++ join ", " missing ++
        " of goal type "), .repr method.goalTypeRef.id.text]) ++
    method.composition.criterionLinks.flatMap fun link =>
      match link.childStep with
      | none => []
      | some step => refusing (step ∉ method.steps.map (·.localId))
          (structuralProblem .malformedDefinition [.text "criterion link for ",
            .repr link.parentCriterionId.text, .text " names unknown step ", .repr step.text])

def testsTexts : List String :=
  method.composition.criterionLinks.map (·.parentCriterionId.text) ++
    method.composition.criterionLinks.map (·.evidenceRequirement.text) ++
    match policy.taskType method.goalTypeRef with
    | none => []
    | some goal => goal.goalSignature.statement.text ::
        goal.goalSignature.coverageCriteria.items.map (·.text)

/-- `_check_tests_port_coverage`: added tests cannot hang only on a read-only report. -/
def testsPortProblems : List AdmissionProblem :=
  let writeDeclares := method.steps.any fun step =>
    (policy.taskType step.taskTypeRef).any fun spec =>
      !spec.readOnly && (spec.outputPort "tests").isSome
  let consumed := method.steps.any fun step => step.arguments.any fun argument =>
    argument.2.outputs.any fun read => read.2.text = "tests"
  refusing (evidenceRequiresAddedTests (testsTexts method policy) = true ∧
      (writeDeclares && consumed) = false) {
    code := .rootCoverageGap
    detail := [.text ("a criterion that requires added or modified tests to pass is not " ++
      "evidenced by a write-type step declaring output port 'tests' bound into a verify step; " ++
      "a read-only verify leaf cannot create those files")]
    step := .structuralChecks
    reason := "tests_port_required" }

/-- Step 3: bounded expansion, acyclic order, usable ports, root coverage. -/
def checkStructure : List AdmissionProblem × Bool :=
  (recursionProblems method ++ orderProblems method ++
    method.steps.flatMap (stepPortProblems method policy) ++ coverageProblems method policy ++
    testsPortProblems method policy, methodIsRecursive method)

def Passes : Prop :=
  (checkStructureAndTypes method policy).1 = [] ∧ (checkRegistries method policy).problems = [] ∧
    (checkStructure method policy).1 = []

end

theorem refusing_eq_nil {p : Prop} [Decidable p] {problem : AdmissionProblem} :
    refusing p problem = [] ↔ ¬p := by
  by_cases h : p <;> simp [refusing, h]

end Registry
