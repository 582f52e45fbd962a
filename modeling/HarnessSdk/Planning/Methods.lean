import HarnessSdk.Network.Readiness
import HarnessSdk.Network.ProjectionChecks

/-! Method definitions, the declared task types, and the grounding of a method's steps into slots. -/
namespace Planning
open PyDict PyText Checks Workflow Network

inductive ObligationRelation
  | refinesParent
  | independentAuthorized
deriving DecidableEq

/-- An argument of a step: a value, or something that becomes one when the plan runs. -/
inductive ValueExpr
  | parameter (name : String)
  | constant (value : Json)
  | output (step port : String)
  | object (fields : List (String × ValueExpr))
  | array (items : List ValueExpr)

structure MethodStep where
  localId : String
  taskTypeRef : VersionedRef
  form : TaskForm
  arguments : Dict String ValueExpr := []
  obligationRelation : ObligationRelation := .refinesParent
  reusePolicy : Option ReusePolicy := none

structure MethodOrdering where
  before : String
  after : String
  differ : before ≠ after := by decide

/-- How a parent criterion is covered; without a step it is the composition itself. -/
structure CriterionLink where
  parentCriterionId : String
  childStep : Option String

structure MethodComposition where
  criterionLinks : List CriterionLink
  finalizerStep : Option String := none
  someLink : criterionLinks ≠ [] := by simp

/-- An immutable definition; `contentHash` is the hash of the whole document. -/
structure MethodContract where
  methodId : String
  methodVersion : Nat
  contentHash : String
  steps : List MethodStep
  ordering : List MethodOrdering := []
  composition : MethodComposition
  stepsDistinct : (steps.map (·.localId)).Nodup := by decide
  orderingKnown : ∀ order ∈ ordering,
    order.before ∈ steps.map (·.localId) ∧ order.after ∈ steps.map (·.localId) := by decide
  finalizerKnown : ∀ step ∈ composition.finalizerStep, step ∈ steps.map (·.localId) := by decide

def MethodContract.methodRef (method : MethodContract) : MethodRef :=
  ⟨method.methodId, method.methodVersion, method.contentHash⟩

structure TaskTypeSpec where
  taskTypeRef : VersionedRef
  form : TaskForm
  goalSignature : GoalSignature
  inputPorts : List PortSpec := []
  outputPorts : List PortSpec := []
  operatorRef : Option VersionedRef := none
  sideEffectKind : SideEffectKind := .none
  resourceReads : List ResourceRef := []
  resourceWrites : List ResourceRef := []
  reusePolicy : ReusePolicy := .newWork
  effectIdentity : Option String := none
  domain : Option String := none

abbrev TaskTypeCatalog := Dict (String × Nat) TaskTypeSpec

def TaskTypeCatalog.resolve (catalog : TaskTypeCatalog) (ref : VersionedRef) : Option TaskTypeSpec :=
  (get? catalog (ref.id, ref.version)).filter fun spec =>
    spec.taskTypeRef.contentHash = ref.contentHash

def TaskTypeSpec.outputPort (spec : TaskTypeSpec) (key : String) : Option PortSpec :=
  spec.outputPorts.find? (·.portKey = key)

def TaskTypeSpec.inputPort (spec : TaskTypeSpec) (key : String) : Option PortSpec :=
  spec.inputPorts.find? (·.portKey = key)

def readOnly : SideEffectKind → Bool
  | .none => true
  | .externalRead => true
  | _ => false

def effectiveReusePolicy (step : MethodStep) (spec : TaskTypeSpec) : ReusePolicy :=
  step.reusePolicy.getD spec.reusePolicy

mutual
/-- The step outputs an expression reads, in the order the source walks it. -/
def ValueExpr.outputs : ValueExpr → List (String × String)
  | .output step port => [(step, port)]
  | .object fields => fieldOutputs fields
  | .array items => itemOutputs items
  | _ => []

def fieldOutputs : List (String × ValueExpr) → List (String × String)
  | [] => []
  | field :: rest => field.2.outputs ++ fieldOutputs rest

def itemOutputs : List ValueExpr → List (String × String)
  | [] => []
  | item :: rest => item.outputs ++ itemOutputs rest
end

mutual
def ValueExpr.resolve (parameters : Dict String Json) (path : String) :
    ValueExpr → Except Message Json
  | .constant value => .ok value
  | .parameter name =>
    match get? parameters name with
    | none => .error [.text path, .text ": no bound parameter named ", .repr name]
    | some value => .ok value
  | .object fields => do
    let values ← resolveFields parameters path fields
    .ok (.obj values)
  | .array items => do
    let values ← resolveItems parameters path 0 items
    .ok (.arr values)
  | .output _ _ => .error [.text path, .text (": a step output has no value at grounding time; it " ++
      "becomes a DATA requirement in the compiler")]

def resolveFields (parameters : Dict String Json) (path : String) :
    List (String × ValueExpr) → Except Message (List (String × Json))
  | [] => .ok []
  | field :: rest => do
    let value ← field.2.resolve parameters (path ++ "." ++ field.1)
    let values ← resolveFields parameters path rest
    .ok ((field.1, value) :: values)

def resolveItems (parameters : Dict String Json) (path : String) :
    Nat → List ValueExpr → Except Message (List Json)
  | _, [] => .ok []
  | seat, item :: rest => do
    let value ← item.resolve parameters (path ++ "[" ++ toString seat ++ "]")
    let values ← resolveItems parameters path (seat + 1) rest
    .ok (value :: values)
end

/-- An argument that reads a step output stays symbolic: it becomes a data requirement. -/
def resolveArguments (parameters : Dict String Json) (path : String) :
    Dict String ValueExpr → Except Message (Dict String Json)
  | [] => .ok []
  | (name, argument) :: rest =>
    if argument.outputs.isEmpty then do
      let value ← argument.resolve parameters (path ++ "." ++ name)
      let values ← resolveArguments parameters path rest
      .ok ((name, value) :: values)
    else resolveArguments parameters path rest

/-- `(producer step, output port, consumer step, input port)` of each data link, once each. -/
def dataFlows (method : MethodContract) : List (String × String × String × String) :=
  fromkeys (method.steps.flatMap fun step => step.arguments.flatMap fun argument =>
    (argument.2.outputs.filter (·.1 ≠ step.localId)).map fun read =>
      (read.1, read.2, step.localId, argument.1))

/-- Everything two slots must agree on before they may share one goal. -/
structure SharingSignature where
  goalTypeRef : VersionedRef
  typedParameters : List (String × Json)
  inputVersions : List String := []
  authorityScope : String
  semanticScope : String
  assurancePolicyRef : String := "assurance.default"
  freshnessPolicyRef : String := "freshness.default"
  domainSemantics : String
  sideEffectKind : SideEffectKind
  effectIdentity : Option String

def SharingSignature.of (spec : TaskTypeSpec) (parameters : Dict String Json) (scope : String) :
    SharingSignature where
  goalTypeRef := spec.taskTypeRef
  typedParameters := sortedBy Prod.fst parameters
  authorityScope := scope
  semanticScope := scope
  domainSemantics := spec.domain.getD ""
  sideEffectKind := spec.sideEffectKind
  effectIdentity := spec.effectIdentity

def sideEffectText : SideEffectKind → String
  | .none => "none"
  | .localWrite => "local_write"
  | .externalRead => "external_read"
  | .externalStateWrite => "external_state_write"
  | .externalEventWrite => "external_event_write"

def VersionedRef.toJson (ref : VersionedRef) : Json :=
  .obj [("id", .str ref.id), ("version", .int ref.version), ("content_hash", .str ref.contentHash)]

def SharingSignature.toJson (signature : SharingSignature) : Json :=
  .obj [("goal_type_ref", VersionedRef.toJson signature.goalTypeRef),
    ("typed_parameters", .arr (signature.typedParameters.map fun item =>
      .arr [.str item.1, item.2])),
    ("input_versions", .arr (signature.inputVersions.map .str)),
    ("authority_scope", .str signature.authorityScope),
    ("semantic_scope", .str signature.semanticScope),
    ("assurance_policy_ref", .str signature.assurancePolicyRef),
    ("freshness_policy_ref", .str signature.freshnessPolicyRef),
    ("domain_semantics", .str signature.domainSemantics),
    ("side_effect_kind", .str (sideEffectText signature.sideEffectKind)),
    ("effect_identity", signature.effectIdentity.elim .null .str)]

/-- The fields of the two signatures agree; values are compared by their canonical text. -/
def SharingSignature.agrees (left right : SharingSignature) : Bool :=
  left.goalTypeRef = right.goalTypeRef &&
    (Json.obj left.typedParameters).sameText (.obj right.typedParameters) &&
    left.inputVersions = right.inputVersions && left.authorityScope = right.authorityScope &&
    left.semanticScope = right.semanticScope &&
    left.assurancePolicyRef = right.assurancePolicyRef &&
    left.freshnessPolicyRef = right.freshnessPolicyRef &&
    left.domainSemantics = right.domainSemantics &&
    left.sideEffectKind = right.sideEffectKind && left.effectIdentity = right.effectIdentity

/-- `may_share`: the whole signature matches, reuse is declared, and nothing outside is written
without an identity for the effect. -/
def mayShare (left right : SharingSignature) (policy : ReusePolicy) : Bool :=
  left.agrees right && policy ≠ .newWork &&
    (readOnly left.sideEffectKind || left.effectIdentity.isSome)

structure SharedGoalEntry where
  occurrenceId : OccurrenceId
  taskId : TaskRef
  obligationId : ObligationId
  signature : SharingSignature
  reusePolicy : ReusePolicy
  acceptanceRef : Option TypedRef := none

/-- Known goal occurrences, keyed by the digest of the signature. -/
abbrev SharedGoalIndex := Dict String SharedGoalEntry

section Hashing
variable (contentHashOf : Json → String)

def SharedGoalIndex.lookup (sharing : SharedGoalIndex) (signature : SharingSignature)
    (policy : ReusePolicy) : Option SharedGoalEntry :=
  (get? sharing (contentHashOf signature.toJson)).filter fun entry =>
    mayShare entry.signature signature policy

/-- A derived identity: the role and the front of a digest of the parts. -/
def deriveId (role : String) (parts : List String) : String :=
  role ++ "-" ++ String.ofList
    ((contentHashOf (.arr (.str role :: parts.map .str))).toList.take 32)

structure SlotIdentity where
  slotKey : String
  occurrenceId : OccurrenceId
  taskId : TaskRef
  obligationId : ObligationId

/-- A step that refines its parent answers to the parent's duty; only independent work derives one. -/
def slotIdentity (draftId : MethodInstanceId) (slot : String) (parent : ObligationId)
    (relation : ObligationRelation) : SlotIdentity where
  slotKey := slot
  occurrenceId := deriveId contentHashOf "occ" [draftId, slot]
  taskId := deriveId contentHashOf "task" [draftId, slot]
  obligationId := match relation with
    | .refinesParent => parent
    | .independentAuthorized => deriveId contentHashOf "obl" [parent, draftId, slot]

structure SlotPlan where
  step : MethodStep
  identity : SlotIdentity
  spec : TaskTypeSpec
  requiredness : Requiredness
  reusePolicy : ReusePolicy
  boundOccurrenceId : OccurrenceId
  boundTaskId : TaskRef
  boundObligationId : ObligationId
  signature : SharingSignature
  acceptanceRef : Option TypedRef := none
  arguments : Dict String Json

def SlotPlan.shared (plan : SlotPlan) : Bool := plan.boundOccurrenceId ≠ plan.identity.occurrenceId

def requirednessOf (step : MethodStep) : Requiredness :=
  match step.obligationRelation with
  | .refinesParent => .required
  | .independentAuthorized => .optionalAuthorized

/-- What a slot binds: new work, or an occurrence the index offers for its signature. -/
def bindSlot (step : MethodStep) (spec : TaskTypeSpec) (identity : SlotIdentity)
    (signature : SharingSignature) (arguments : Dict String Json)
    (sharing : Option SharedGoalIndex) (reuseAcceptances : Dict String TypedRef) : SlotPlan :=
  match sharing.bind fun index =>
    index.lookup contentHashOf signature (effectiveReusePolicy step spec) with
  | none =>
    { step := step
      identity := identity
      spec := spec
      requiredness := requirednessOf step
      reusePolicy := .newWork
      boundOccurrenceId := identity.occurrenceId
      boundTaskId := identity.taskId
      boundObligationId := identity.obligationId
      signature := signature
      arguments := arguments }
  | some entry =>
    let acceptance := (get? reuseAcceptances step.localId).orElse fun _ => entry.acceptanceRef
    { step := step
      identity := identity
      spec := spec
      requiredness := requirednessOf step
      reusePolicy := if acceptance.isSome then .reuseAccepted else .shareActive
      boundOccurrenceId := entry.occurrenceId
      boundTaskId := entry.taskId
      boundObligationId := entry.obligationId
      signature := signature
      acceptanceRef := acceptance
      arguments := arguments }

def planSlot (task : TaskSemanticBinding) (parameters : Dict String Json)
    (draftId : MethodInstanceId) (catalog : TaskTypeCatalog) (sharing : Option SharedGoalIndex)
    (reuseAcceptances : Dict String TypedRef) (step : MethodStep) : Except Message SlotPlan :=
  match catalog.resolve step.taskTypeRef with
  | none => .error [.text "step ", .repr step.localId, .text " names task type ",
      .repr step.taskTypeRef.id, .text " v", .text (toString step.taskTypeRef.version),
      .text ", which is not registered"]
  | some spec => do
    require (spec.form = step.form)
      [.text "step ", .repr step.localId, .text " declares form ", .text step.form.text,
        .text " but task type ", .repr step.taskTypeRef.id, .text " is ", .text spec.form.text]
    let arguments ← resolveArguments parameters ("step[" ++ step.localId ++ "]") step.arguments
    .ok (bindSlot contentHashOf step spec
      (slotIdentity contentHashOf draftId step.localId task.obligationId step.obligationRelation)
      (SharingSignature.of spec arguments task.semanticScope) arguments sharing reuseAcceptances)

/-- Decide, slot by slot, whether it creates work or binds an existing occurrence. -/
def planSlots (task : TaskSemanticBinding) (method : MethodContract)
    (parameters : Dict String Json) (draftId : MethodInstanceId) (catalog : TaskTypeCatalog)
    (sharing : Option SharedGoalIndex) (reuseAcceptances : Dict String TypedRef) :
    Except Message (List SlotPlan) :=
  method.steps.mapM
    (planSlot contentHashOf task parameters draftId catalog sharing reuseAcceptances)

end Hashing

/-- The checks of `TaskSemanticBindingV1.__post_init__` that a declared task type can fail. -/
def checkTaskBinding (binding : TaskSemanticBinding) : Except Message Unit := do
  require (binding.inputPorts.map (·.portKey)).Nodup
    [.text "binding.input_ports must not repeat a port_key"]
  require (binding.outputPorts.map (·.portKey)).Nodup
    [.text "binding.output_ports must not repeat a port_key"]
  require (binding.form = .primitive → binding.operatorRef.isSome)
    [.text "a primitive task binding needs an operator_ref (§6.2)"]
  require (binding.form = .compound → binding.operatorRef.isNone)
    [.text ("a compound task binding must not carry an operator_ref; it is refined by a " ++
      "MethodInstance, not dispatched (§6.2)")]
  require (binding.resourceReads.map (·.key)).Nodup
    [.text "binding.resource_reads must not repeat a resource"]
  require (binding.resourceWrites.map (·.key)).Nodup
    [.text "binding.resource_writes must not repeat a resource"]

def taskBindingFor (plan : SlotPlan) (draft : MethodInstanceDraft) (parent : TaskSemanticBinding) :
    Except Message TaskSemanticBinding := do
  let leaf : Bool := plan.spec.form = .primitive
  let binding : TaskSemanticBinding :=
    { taskId := plan.identity.taskId
      obligationId := plan.identity.obligationId
      contractRevision := parent.contractRevision
      form := plan.spec.form
      goalSignature := plan.spec.goalSignature
      typedParameters := plan.arguments
      requirementRefs := parent.requirementRefs
      inputPorts := plan.spec.inputPorts
      outputPorts := plan.spec.outputPorts
      operatorRef := plan.spec.operatorRef
      semanticScope := parent.semanticScope
      preconditionRefs := if leaf then draft.preconditionWitnesses.map fun digest =>
        ⟨digest, some .select⟩ else []
      resourceReads := if leaf then plan.spec.resourceReads else []
      resourceWrites := if leaf then plan.spec.resourceWrites else []
      sideEffectKind := if leaf then some plan.spec.sideEffectKind else none }
  checkTaskBinding binding
  .ok binding

/-- The bindings of the slots the draft creates; a shared slot contributes none. -/
def childTaskBindings (plans : List SlotPlan) (draft : MethodInstanceDraft)
    (parent : TaskSemanticBinding) : Except Message (List TaskSemanticBinding) :=
  (plans.filter fun plan => !plan.shared).mapM fun plan => taskBindingFor plan draft parent

inductive BudgetInheritance
  | inheritParentFuelShare
  | separateGrant
deriving DecidableEq

/-- A duty a delta asks to create, with where its authority and allowance come from. -/
structure ObligationOpening where
  obligationId : ObligationId
  parentObligationId : ObligationId
  relation : ObligationRelation
  requirementRefs : List String
  goalSignature : GoalSignature
  budgetInheritance : BudgetInheritance := .inheritParentFuelShare
  fuelShare : Option Nat := none
  grantRef : Option String := none
  authorizationRef : Option TypedRef := none
deriving DecidableEq

def ObligationOpening.postInit (opening : ObligationOpening) : Except Message Unit := do
  require (opening.obligationId ≠ opening.parentObligationId)
    [.text "an opening may not name its own parent"]
  require (opening.requirementRefs ≠ [])
    [.text "opening.requirement_refs must say which requirements it serves"]
  require (∀ share ∈ opening.fuelShare, 1 ≤ share)
    [.text "opening.fuel_share must be an integer >= 1"]
  require (opening.relation = .independentAuthorized → opening.authorizationRef.isSome)
    [.text ("an independently authorised duty must name the authority that authorised it; " ++
      "planning alone does not create responsibility (§6.1)")]
  require (opening.relation = .refinesParent → opening.budgetInheritance ≠ .separateGrant)
    [.text ("a refinement of the parent duty spends the parent's allowance; a separate grant " ++
      "would hand decomposition a fresh retry budget (§6.1)")]
  match opening.budgetInheritance with
  | .inheritParentFuelShare => do
    require opening.fuelShare.isSome
      [.text "an inherited allowance must say how much fuel it takes"]
    require opening.grantRef.isNone
      [.text "an inherited allowance has no separate grant to reference"]
  | .separateGrant => do
    require opening.grantRef.isSome
      [.text "a separate grant must reference the grant that made it"]
    require opening.fuelShare.isNone
      [.text "a separately granted duty takes no share of the parent's fuel"]

end Planning
