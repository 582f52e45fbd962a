import HarnessSdk.Network.Convergence
import HarnessSdk.Registry.Applicability

/-! Demands on work that exists already: what a new revision may share, and what the sharing must
not pass over. -/
namespace Planning
open PyDict PyText Checks Workflow Network
open Contracts (HashHex)

structure SharedInputProof where
  occurrenceId : OccurrenceId
  contractRevision : Nat
  inputBindingRevision : Nat
  dispatchGeneration : Nat
  origins : List (String × String) := []

structure SharingSources where
  outcomes : Dict OccurrenceId OccurrenceOutcome := []
  settlements : Dict OccurrenceId SettledTerminalOccurrence := []
  starts : Dict TaskRef (Dict String ValidityWitness) := []
  epochs : Dict String Nat := []
  evidence : Registry.EvidenceSnapshot := []
  predicates : List Registry.PredicateSignature := []
  methods : List Registry.MethodContract := []
  nowMs : Nat := 0
  independentRequired : List OccurrenceId := []
  entries : List SharedGoalEntry := []
  inputProofs : Dict OccurrenceId SharedInputProof := []

def refuse (code : String) : Message := [.text code]

/-- `PredicateRegistry.register`, signature by signature: published content stays. -/
def registerAll : Registry.Catalog Registry.PredicateSignature →
    List Registry.PredicateSignature →
    Except Message (Registry.Catalog Registry.PredicateSignature)
  | registry, [] => .ok registry
  | registry, signature :: rest =>
    let ref := signature.predicateRef
    match get? registry (ref.id, ref.version) with
    | none => registerAll (set registry (ref.id, ref.version) signature) rest
    | some existing => do
      require (existing.predicateRef.contentHash = ref.contentHash)
        [.text "predicate ", .repr ref.id.text, .text (s!" v{ref.version.number} is already " ++
          "registered with different content; publish a new version instead")]
      registerAll registry rest

def registeredFlows (method : Registry.MethodContract) : List (String × String × String × String) :=
  fromkeys (method.steps.flatMap fun step => step.arguments.flatMap fun argument =>
    (argument.2.outputs.filter (·.1 ≠ step.localId)).map fun read =>
      (read.1.text, read.2.text, step.localId.text, argument.1))

section
variable (contentHashOf : Json → HashHex)

def methodNamed (methods : List Registry.MethodContract) (ref : MethodRef) :
    Option Registry.MethodContract :=
  methods.reverse.find? fun method =>
    let own := method.methodRef contentHashOf
    ref = ⟨own.methodId.text, own.version.number, own.contentHash.text⟩

end

def sameSet {α : Type} [DecidableEq α] (a b : List α) : Bool := a.all (· ∈ b) && b.all (· ∈ a)

def adoptedDraft (network : TaskNetwork) (id : MethodInstanceId) : Option MethodInstanceDraft :=
  (network.instance? id).filter fun draft => network.isAdopted draft.instanceId

/-- The inputs a contract declares for one slot, as the draft binds their producers. -/
def expectedInputs (method : Registry.MethodContract) (draft : MethodInstanceDraft)
    (slotKey : String) : Except Message (List (OccurrenceId × String × String)) :=
  ((registeredFlows method).filter (·.2.2.1 = slotKey)).mapM fun flow =>
    match draft.childBindings.find? (·.slotKey = flow.1) with
    | none => .error (refuse "TASKGRAPH_SHARED_DATA_SLOT_MISSING")
    | some source => .ok (source.producer, flow.2.1, flow.2.2.2)

section
variable (contentHashOf : Json → HashHex) (sources : SharingSources)

/-- `indexed.get(...)`: the last entry of an occurrence. -/
def SharingSources.entry (id : OccurrenceId) : Option SharedGoalEntry :=
  sources.entries.reverse.find? (·.occurrenceId = id)

/-- The declared inputs of the shared work are those of the new slot, under the default terms. -/
def checkDeclaredInputs (old new : TaskNetwork) (demand : DemandRef) : Except Message Unit :=
  match adoptedDraft new demand.consumerInstanceId with
  | none => .error (refuse "TASKGRAPH_SHARED_METHOD_SOURCE_MISSING")
  | some draft =>
    match methodNamed contentHashOf sources.methods draft.methodRef with
    | none => .error (refuse "TASKGRAPH_SHARED_METHOD_SOURCE_MISSING")
    | some method => do
      let expected ← expectedInputs method draft demand.slotKey
      let actual := old.inputsOf demand.producerOccurrenceId
      require (sameSet expected (actual.map fun item =>
          (item.producerOccurrence, item.outputPort, item.inputPort)) = true)
        (refuse "TASKGRAPH_SHARED_DATA_DECLARATION_DIFFERS")
      require (∀ item ∈ actual, item.assurancePolicyRef = defaultAssurancePolicy ∧
          item.freshnessPolicyRef = defaultFreshnessPolicy ∧ item.sourceRevisionPolicy = .pinned)
        (refuse "TASKGRAPH_SHARED_DATA_POLICY_DIFFERS")

def checkNewDemand (old new : TaskNetwork) (changed : List OccurrenceId) (demand : DemandRef) :
    Except Message Unit :=
  let child := new.methodInstances.findSome? fun draft =>
    if draft.instanceId = demand.consumerInstanceId then
      draft.childBindings.find? (·.slotKey = demand.slotKey)
    else none
  match sources.entry demand.producerOccurrenceId, child with
  | some entry, some child => do
    require (demand.producerOccurrenceId ∉ changed)
      (refuse "TASKGRAPH_SHARED_PRODUCER_SOURCE_CHANGED")
    let binding ← old.bindingForOccurrence entry.occurrenceId
    require (∃ proof ∈ get? sources.inputProofs demand.producerOccurrenceId,
        proof.origins ≠ [] ∧ proof.occurrenceId = demand.producerOccurrenceId ∧
        proof.contractRevision = binding.contractRevision ∧
        proof.inputBindingRevision = binding.inputBindingRevision ∧
        proof.dispatchGeneration = binding.dispatchGeneration)
      (refuse "TASKGRAPH_SHARED_INPUT_VERSIONS_UNPROVEN")
    checkDeclaredInputs contentHashOf sources old new demand
    if demand.mode = .reuseAccepted then
      require (entry.acceptanceRef.isSome = true ∧ child.acceptanceRef = entry.acceptanceRef ∧
          get? sources.outcomes entry.occurrenceId = some .accepted)
        (refuse "TASKGRAPH_REUSE_ACCEPTANCE_NOT_CURRENT")
    else
      require (entry.acceptanceRef = none)
        (refuse "TASKGRAPH_ACCEPTED_PRODUCER_REQUIRES_EXACT_REUSE")
  | _, _ => .error (refuse "TASKGRAPH_SHARED_PRODUCER_SOURCE_CHANGED")

def SameWork (old new : TaskSemanticBinding) : Prop :=
  old.contractHash = new.contractHash ∧ old.contractRevision = new.contractRevision ∧
    old.inputBindingRevision = new.inputBindingRevision ∧
    old.dispatchGeneration = new.dispatchGeneration

instance (old new : TaskSemanticBinding) : Decidable (SameWork old new) := by
  unfold SameWork
  infer_instance

/-- The producer existed with the same task and binding, is no target, and may still start. -/
def checkProducer (before : TaskNetworkSnapshot) (new : TaskNetwork)
    (targets : List ConvergenceTarget) (producer : OccurrenceId) : Except Message Unit :=
  match before.occurrence? producer with
  | none => .error (refuse "TASKGRAPH_SHARE_ACTIVE_PRODUCER_NOT_EXISTING")
  | some previous => do
    let binding ← before.bindingForOccurrence producer
    let fresh ← new.bindingForOccurrence producer
    require (some previous.taskId = (new.occurrence? producer).map (·.taskId) ∧
        SameWork binding fresh)
      (refuse "TASKGRAPH_SHARE_ACTIVE_PRODUCER_CHANGED")
    require (producer ∉ targets.map (·.occurrenceId))
      (refuse "TASKGRAPH_SHARE_ACTIVE_INPUTS_CHANGED")
    let context : Context := {
      view := { occurrenceId := producer, taskId := binding.taskId }
      plan := { snapshot := before, scopeEpochs := sources.epochs }
      resolutions := []
      nowMs := sources.nowMs }
    let witnesses := (get? sources.starts binding.taskId).getD []
    require (∀ digest ∈ Context.startPreconditions binding,
        (context.witnessVerdict digest binding.taskId (get? witnesses digest)).isNone = true)
      (refuse "TASKGRAPH_SHARE_ACTIVE_START_NOT_CURRENT")

def consumersOf (demands : List DemandRef) (producer : OccurrenceId) : List MethodInstanceId :=
  fromkeys ((demands.filter (·.producerOccurrenceId = producer)).map (·.consumerInstanceId))

section
variable (new : TaskNetwork) (demands : List DemandRef)

def parentInstances (id : MethodInstanceId) :
    List MethodInstanceId :=
  match adoptedDraft new id with
  | none => []
  | some draft => consumersOf demands draft.effectiveGoalOccurrenceId

/-- The instances on the path of a consumer, in the order they are visited. -/
def visitedInstances (consumer : MethodInstanceId) :
    List MethodInstanceId :=
  let instances := consumer :: demands.map (·.consumerInstanceId)
  (Digraph.explore (fun id => decide (id ∈ instances)) (parentInstances new demands)
    (Digraph.work (parentInstances new demands) instances [consumer] []) [consumer] []).reverse

/-- One instance on the path: it is adopted, and its method still applies for the new consumer. -/
def checkInstance (registry : Registry.Catalog Registry.PredicateSignature) (new : TaskNetwork)
    (id : MethodInstanceId) : Except Message Unit :=
  match adoptedDraft new id with
  | none => .error (refuse "TASKGRAPH_SHARE_ACTIVE_CONSUMER_MISSING")
  | some draft =>
    match methodNamed contentHashOf sources.methods draft.methodRef with
    | none => .error (refuse "TASKGRAPH_SHARE_ACTIVE_METHOD_SOURCE_MISSING")
    | some method =>
      let world : Registry.World := {
        contentHashOf := contentHashOf
        registry := registry
        snapshot := sources.evidence
        parameters := draft.groundedParameters
        nowMs := some sources.nowMs }
      method.applicableWhen |> every fun condition =>
        require ((Registry.authorizationGate (world.evaluate condition "condition")).allowed = true)
          (refuse "TASKGRAPH_SHARE_ACTIVE_CONSUMER_PRECONDITION_UNMET")

/-- `path_occurrences`: the producer, and what the visited instances refine. -/
def pathOccurrences (demand : DemandRef) :
    List OccurrenceId :=
  demand.producerOccurrenceId ::
    ((visitedInstances new demands demand.consumerInstanceId).filterMap (adoptedDraft new)).map
      (·.effectiveGoalOccurrenceId)

end

/-- One ORDER into the path: its predecessor has ended as the edge asks, and is still the same. -/
def checkOrderEdge (before : NetworkDocument) (old new : TaskNetwork) (edge : OrderConstraint) :
    Except Message Unit :=
  match get? sources.outcomes edge.before with
  | none => .error (refuse "TASKGRAPH_SHARE_ACTIVE_ORDER_UNMET")
  | some outcome => do
    require (orderReleased outcome edge.releaseCondition = true)
      (refuse "TASKGRAPH_SHARE_ACTIVE_ORDER_UNMET")
    require (edge.before ∈ old.occurrenceIds)
      (refuse "TASKGRAPH_SHARE_ACTIVE_ORDER_SOURCE_MISSING")
    let current ← old.bindingForOccurrence edge.before
    let fresh ← new.bindingForOccurrence edge.before
    require (current.taskId = fresh.taskId ∧ SameWork current fresh)
      (refuse "TASKGRAPH_SHARE_ACTIVE_ORDER_BINDING_CHANGED")
    require (edge.releaseCondition = .settledTerminal →
        ∃ fact ∈ get? sources.settlements edge.before, fact.missionId = before.missionId ∧
          fact.planRevision = before.revision ∧ fact.occurrenceId = edge.before ∧
          fact.outcome = outcome.text ∧ fact.contractRevision = current.contractRevision ∧
          fact.dispatchGeneration = current.dispatchGeneration)
      (refuse "TASKGRAPH_SHARE_ACTIVE_ORDER_UNSETTLED")

def checkActive (registry : Registry.Catalog Registry.PredicateSignature)
    (before : NetworkDocument) (old : TaskNetworkSnapshot) (new : TaskNetwork)
    (demands : List DemandRef) (targets : List ConvergenceTarget) (demand : DemandRef) :
    Except Message Unit := do
  checkProducer sources old new targets demand.producerOccurrenceId
  every (checkInstance contentHashOf sources registry new)
    (visitedInstances new demands demand.consumerInstanceId)
  every (checkOrderEdge sources before old.toTaskNetwork new)
    (new.orderConstraints.filter (·.after ∈ pathOccurrences new demands demand))

/-- The demands of the new revision that share or reuse, and that the old one does not make in the
same words. -/
def newShared (old new : List DemandRef) : List DemandRef :=
  new.filter fun demand => demand.mode ≠ .newWork ∧
    (old.find? (·.key = demand.key)).map (·.sourceSlotHash) ≠ some demand.sourceSlotHash

/-- A producer that is kept is still demanded by a slot, a root or an independent duty. -/
def checkRetained (candidate : NetworkDocument) (remaining : List OccurrenceId)
    (id : OccurrenceId) : Except Message Unit :=
  require (id ∈ remaining ∨ id ∈ candidate.rootOccurrenceIds ∨ id ∈ sources.independentRequired)
    (refuse "TASKGRAPH_RETAINED_PRODUCER_DEMAND_MISSING")

def validateSharing (slotHash : ChildBinding → String) (before candidate : NetworkDocument) :
    Except Message Unit := do
  let old ← before.decode
  let new ← candidate.decode
  let oldPins ← buildRevisionPins slotHash before
  let newPins ← buildRevisionPins slotHash candidate
  require (∀ id ∈ sources.independentRequired, id ∈ old.occurrenceIds)
    (refuse "TASKGRAPH_INDEPENDENT_DEMAND_SOURCE_INVALID")
  let impact ← computeConvergenceImpact slotHash before candidate
  require (∀ target ∈ impact.targets, target.occurrenceId ∉ sources.independentRequired)
    (refuse "TASKGRAPH_INDEPENDENT_WORK_STILL_REQUIRED")
  every (checkRetained sources candidate (newPins.demandRefs.map (·.producerOccurrenceId)))
    ((fromkeys (oldPins.demandRefs.map (·.producerOccurrenceId))).filter (· ∈ new.occurrenceIds))
  let shared := newShared oldPins.demandRefs newPins.demandRefs
  every (checkNewDemand contentHashOf sources old.toTaskNetwork new.toTaskNetwork
    (impact.targets.map (·.occurrenceId))) shared
  let added := shared.filter (·.mode = .shareActive)
  if added = [] then .ok ()
  else do
    let registry ← registerAll [] sources.predicates
    every (checkActive contentHashOf sources registry before old new.toTaskNetwork
      newPins.demandRefs impact.targets) added

end

end Planning
