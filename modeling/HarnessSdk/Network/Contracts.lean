import HarnessSdk.Workflow.Json
import HarnessSdk.Library.Checks

/-! The records a task network is made of. -/
namespace Network
open PyDict PyText Workflow

abbrev OccurrenceId := String

abbrev TaskRef := String

abbrev ObligationId := String

abbrev MethodInstanceId := String

abbrev Message := List Fragment

inductive TaskForm
  | compound
  | primitive
deriving DecidableEq

def TaskForm.text : TaskForm → String
  | .compound => "compound"
  | .primitive => "primitive"

inductive ReleaseCondition
  | accepted
  | settledTerminal
deriving DecidableEq

def ReleaseCondition.text : ReleaseCondition → String
  | .accepted => "accepted"
  | .settledTerminal => "settled_terminal"

inductive Requiredness
  | required
  | optionalAuthorized
  | conditional
deriving DecidableEq

/-- `GATING_REQUIREDNESS`: a conditional child is required by this method, so it gates too. -/
def Requiredness.gating : Requiredness → Bool
  | .required => true
  | .optionalAuthorized => false
  | .conditional => true

inductive ReusePolicy
  | newWork
  | reuseAccepted
  | shareActive
deriving DecidableEq

inductive SideEffectKind
  | none
  | localWrite
  | externalRead
  | externalStateWrite
  | externalEventWrite
deriving DecidableEq

inductive SourceRevisionPolicy
  | pinned
  | followAuthorizedRevision
deriving DecidableEq

structure VersionedRef where
  id : String
  version : Nat
  contentHash : String
deriving DecidableEq

inductive PortCardinality
  | single
  | set
deriving DecidableEq

inductive PortOrdering
  | byProducerOrdinal
  | byKey
  | explicit
deriving DecidableEq

structure PortSpec where
  portKey : String
  schemaRef : VersionedRef
  cardinality : PortCardinality := .single
  required : Bool := true
  ordering : Option PortOrdering := none
  orderKey : Option String := none
deriving DecidableEq

def PortSpec.setOrderDeclared (port : PortSpec) : Bool :=
  port.cardinality ≠ .set || port.ordering.isSome

def undeclaredSetPorts (ports : List PortSpec) : List String :=
  (ports.filter fun port => !port.setOrderDeclared).map (·.portKey)

structure ResourceRef where
  «namespace» : String
  objectId : String
deriving DecidableEq

def ResourceRef.key (ref : ResourceRef) : String × String := (ref.namespace, ref.objectId)

structure GoalSignature where
  signatureId : String
  version : Nat := 1
  coverageCriteria : List String := []
deriving DecidableEq

inductive ObligationLifecycle
  | unsatisfied
  | satisfied
  | cancelled
  | superseded
deriving DecidableEq

def ObligationLifecycle.text : ObligationLifecycle → String
  | .unsatisfied => "UNSATISFIED"
  | .satisfied => "SATISFIED"
  | .cancelled => "CANCELLED"
  | .superseded => "SUPERSEDED"

inductive PreconditionPhase
  | select
  | maintain
  | accept
deriving DecidableEq

structure PreconditionRef where
  conditionDigest : String
  phase : Option PreconditionPhase := none
deriving DecidableEq

structure TaskSemanticBinding where
  taskId : TaskRef
  obligationId : ObligationId
  contractRevision : Nat := 0
  contractHash : String := ""
  form : TaskForm
  goalSignature : GoalSignature
  typedParameters : Dict String Json := []
  requirementRefs : List String := []
  inputPorts : List PortSpec := []
  outputPorts : List PortSpec := []
  operatorRef : Option VersionedRef := none
  semanticScope : String := "mission"
  preconditionRefs : List PreconditionRef := []
  adoptedMethodInstanceId : Option MethodInstanceId := none
  inputBindingRevision : Nat := 0
  dispatchGeneration : Nat := 0
  resourceReads : List ResourceRef := []
  resourceWrites : List ResourceRef := []
  sideEffectKind : Option SideEffectKind := none

structure OccurrenceSpec where
  occurrenceId : OccurrenceId
  taskId : TaskRef
  obligationId : ObligationId
  form : TaskForm
  requiredness : Requiredness := .required
deriving DecidableEq

structure OrderConstraint where
  before : OccurrenceId
  after : OccurrenceId
  releaseCondition : ReleaseCondition := .accepted
  differ : before ≠ after := by decide
deriving DecidableEq

structure DataRequirement where
  requirementId : String
  producerOccurrence : OccurrenceId
  outputPort : String
  consumerOccurrence : OccurrenceId
  inputPort : String
  schemaRef : VersionedRef
  assurancePolicyRef : String
  freshnessPolicyRef : String
  sourceRevisionPolicy : SourceRevisionPolicy := .pinned
  differ : producerOccurrence ≠ consumerOccurrence := by decide
deriving DecidableEq

inductive TypedRefKind
  | task
  | method
  | requirements
  | artifact
  | source
  | observation
  | review
  | acceptance
  | resolution
  | operation
  | toolReceipt
  | knowledge
deriving DecidableEq

def TypedRefKind.text : TypedRefKind → String
  | .task => "task"
  | .method => "method"
  | .requirements => "requirements"
  | .artifact => "artifact"
  | .source => "source"
  | .observation => "observation"
  | .review => "review"
  | .acceptance => "acceptance"
  | .resolution => "resolution"
  | .operation => "operation"
  | .toolReceipt => "tool_receipt"
  | .knowledge => "knowledge"

structure TypedRef where
  kind : TypedRefKind
  id : String
  revision : Nat
  contentHash : String
deriving DecidableEq

structure ChildBinding where
  instanceId : MethodInstanceId
  slotKey : String
  occurrenceId : OccurrenceId
  obligationId : ObligationId
  requiredness : Requiredness := .required
  reusePolicy : ReusePolicy := .newWork
  goalOccurrenceId : Option OccurrenceId := none
  acceptanceRef : Option TypedRef := none
deriving DecidableEq

/-- `goal_occurrence_id or occurrence_id`: the occurrence whose work fills the slot. -/
def ChildBinding.producer (child : ChildBinding) : OccurrenceId :=
  child.goalOccurrenceId.getD child.occurrenceId

structure MethodRef where
  methodId : String
  version : Nat
  contentHash : String
deriving DecidableEq

structure MethodInstanceDraft where
  instanceId : MethodInstanceId
  goalId : TaskRef
  obligationId : ObligationId
  methodRef : MethodRef
  groundedParameters : Dict String Json := []
  /-- The condition digests frozen when the method was selected. -/
  preconditionWitnesses : List String := []
  childBindings : List ChildBinding := []
  planRevision : Nat := 0
  goalOccurrenceId : Option OccurrenceId := none
  parametersDistinct : (keys groundedParameters).Nodup := by
    first | exact List.nodup_nil | decide
  slotsDistinct : (childBindings.map (·.slotKey)).Nodup := by decide
  ownBindings : ∀ child ∈ childBindings, child.instanceId = instanceId := by decide

/-- The occurrence this instance refines, derived from `goal_id` when unset. -/
def MethodInstanceDraft.effectiveGoalOccurrenceId (draft : MethodInstanceDraft) : OccurrenceId :=
  draft.goalOccurrenceId.getD draft.goalId

structure ObligationCoverage where
  obligationId : ObligationId
  criterionIds : List String
  coveredBy : List OccurrenceId
  criteriaDistinct : criterionIds.Nodup := by decide
  coveredDistinct : coveredBy.Nodup := by decide
  someCriterion : criterionIds ≠ [] := by decide
  someOccurrence : coveredBy ≠ [] := by decide
deriving DecidableEq

inductive RelationKind
  | refinement
  | satisfies
  | order
  | data
  | support
  | assumption
  | supervision
  | funding
  | supersedes
deriving DecidableEq

def RelationKind.text : RelationKind → String
  | .refinement => "refinement"
  | .satisfies => "satisfies"
  | .order => "ORDER"
  | .data => "DATA"
  | .support => "SUPPORT"
  | .assumption => "ASSUMPTION"
  | .supervision => "supervision"
  | .funding => "funding"
  | .supersedes => "supersedes"

inductive EndpointKind
  | occurrence
  | task
  | methodInstance
  | obligation
  | evidence
  | supervisor
deriving DecidableEq

structure NetworkEndpoint where
  kind : EndpointKind
  id : String
deriving DecidableEq

structure TypedEdge where
  relation : RelationKind
  source : NetworkEndpoint
  target : NetworkEndpoint
  label : String := ""
deriving DecidableEq

end Network
