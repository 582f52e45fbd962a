import HarnessSdk.Network.Snapshot

/-! The carrier of one plan revision, and the rows that pin what it demands. -/
namespace Network
open PyDict PyText Checks

inductive NetworkObject
  | occurrence (spec : OccurrenceSpec)
  | taskSemantics (binding : TaskSemanticBinding)
  | methodInstance (draft : MethodInstanceDraft)
  | orderConstraint (constraint : OrderConstraint)
  | dataRequirement (requirement : DataRequirement)
  | typedEdge (edge : TypedEdge)
  | obligationCoverage (coverage : ObligationCoverage)

structure NetworkDocument where
  missionId : String
  revision : Nat
  rootOccurrenceIds : List OccurrenceId := []
  adoptedInstanceIds : List MethodInstanceId := []
  requiredObligationIds : List ObligationId := []
  objects : List NetworkObject := []

namespace NetworkDocument
variable (document : NetworkDocument)

def network : TaskNetwork where
  missionId := document.missionId
  planRevision := document.revision
  occurrences := document.objects.filterMap fun item => match item with
    | .occurrence spec => some spec
    | _ => none
  taskBindings := document.objects.filterMap fun item => match item with
    | .taskSemantics binding => some binding
    | _ => none
  methodInstances := document.objects.filterMap fun item => match item with
    | .methodInstance draft => some draft
    | _ => none
  adoptedInstanceIds := document.adoptedInstanceIds
  rootOccurrenceIds := document.rootOccurrenceIds
  orderConstraints := document.objects.filterMap fun item => match item with
    | .orderConstraint constraint => some constraint
    | _ => none
  dataRequirements := document.objects.filterMap fun item => match item with
    | .dataRequirement requirement => some requirement
    | _ => none
  typedEdges := document.objects.filterMap fun item => match item with
    | .typedEdge edge => some edge
    | _ => none
  obligationCoverage := document.objects.filterMap fun item => match item with
    | .obligationCoverage coverage => some coverage
    | _ => none
  requiredObligations := document.requiredObligationIds

def decode : Except Message TaskNetworkSnapshot :=
  document.network.freeze.mapError fun refusal =>
    .text ("NETWORK_DOCUMENT_INVALID: TaskNetworkSnapshot construction failed: " ++
      "ContractError: ") :: refusal

end NetworkDocument

structure MemberPin where
  occurrenceId : OccurrenceId
  taskId : TaskRef
deriving DecidableEq

structure DemandRef where
  consumerInstanceId : MethodInstanceId
  slotKey : String
  slotOccurrenceId : OccurrenceId
  producerOccurrenceId : OccurrenceId
  obligationId : ObligationId
  mode : ReusePolicy
  requiredness : Requiredness
  sourceSlotHash : String
deriving DecidableEq

def DemandRef.key (demand : DemandRef) : MethodInstanceId × String :=
  (demand.consumerInstanceId, demand.slotKey)

structure RevisionPins where
  memberPins : List MemberPin
  demandRefs : List DemandRef
deriving DecidableEq

def pinsRefusal (message : String) : Message := [.text s!"REVISION_PINS_INVALID: {message}"]

namespace TaskNetwork
variable (network : TaskNetwork)

def memberPin (spec : OccurrenceSpec) : Except Message MemberPin :=
  match network.bindingForTask? spec.taskId with
  | none => .error (pinsRefusal "occurrence lacks task binding")
  | some _ => .ok ⟨spec.occurrenceId, spec.taskId⟩

variable (slotHash : ChildBinding → String)

def demandRef (draft : MethodInstanceDraft) (slot : ChildBinding) : Except Message DemandRef :=
  match network.occurrence? slot.occurrenceId, network.occurrence? slot.producer with
  | some _, some producer => do
    require (slot.obligationId = producer.obligationId)
      (pinsRefusal "child binding obligation disagrees with effective producer")
    .ok {
      consumerInstanceId := draft.instanceId
      slotKey := slot.slotKey
      slotOccurrenceId := slot.occurrenceId
      producerOccurrenceId := slot.producer
      obligationId := producer.obligationId
      mode := slot.reusePolicy
      requiredness := slot.requiredness
      sourceSlotHash := slotHash slot }
  | _, _ => .error (pinsRefusal "child binding references absent occurrence")

end TaskNetwork

/-- One producer answers to one obligation; `seen` holds those recorded so far. -/
def producersAgree : Dict OccurrenceId ObligationId → List DemandRef → Except Message Unit
  | _, [] => .ok ()
  | seen, demand :: rest => do
    let recorded := setDefault seen demand.producerOccurrenceId demand.obligationId
    require (get? recorded demand.producerOccurrenceId = some demand.obligationId)
      (pinsRefusal "one producer occurrence cannot have multiple obligations")
    producersAgree recorded rest

/-- `build_revision_pins`; `slotHash` is the digest of a slot's canonical text. -/
def buildRevisionPins (slotHash : ChildBinding → String) (document : NetworkDocument) :
    Except Message RevisionPins := do
  let decoded ← document.decode
  let members ← decoded.occurrences.mapM decoded.memberPin
  let demands ← (decoded.methodInstances.filter fun draft =>
    draft.instanceId ∈ document.adoptedInstanceIds).mapM fun draft =>
      draft.childBindings.mapM (decoded.demandRef slotHash draft)
  let memberPins := sortedBy (·.occurrenceId) members
  let demandRefs := sortedByKeys (fun row => [row.consumerInstanceId, row.slotKey]) demands.flatten
  distinct (·.occurrenceId) (fun _ => pinsRefusal "member contains duplicate identity") []
    memberPins
  distinct DemandRef.key (fun _ => pinsRefusal "demand contains duplicate identity") [] demandRefs
  producersAgree [] demandRefs
  .ok { memberPins, demandRefs }

section
variable {slotHash : ChildBinding → String} {document : NetworkDocument}
  {snapshot : TaskNetworkSnapshot} {pins : RevisionPins}

theorem decode_eq_ok : document.decode = .ok snapshot ↔ snapshot.toTaskNetwork = document.network := by
  rw [NetworkDocument.decode, mapError_eq_ok, TaskNetwork.freeze_eq_ok]

theorem isAdopted_of_decode (decoded : document.decode = .ok snapshot) (id : MethodInstanceId) :
    snapshot.isAdopted id = decide (id ∈ document.adoptedInstanceIds) := by
  rw [TaskNetwork.isAdopted, decode_eq_ok.mp decoded]
  rfl

theorem demandRef_eq_ok {network : TaskNetwork} {draft : MethodInstanceDraft} {slot : ChildBinding}
    {demand : DemandRef} (made : network.demandRef slotHash draft slot = .ok demand) :
    demand.consumerInstanceId = draft.instanceId ∧ demand.slotKey = slot.slotKey ∧
      demand.slotOccurrenceId = slot.occurrenceId ∧ demand.producerOccurrenceId = slot.producer ∧
      (network.occurrence? slot.producer).isSome = true := by
  unfold TaskNetwork.demandRef at made
  split at made
  · case h_1 producer _ found =>
    obtain ⟨_, made⟩ := then_eq_ok.mp made
    cases made
    exact ⟨rfl, rfl, rfl, rfl, by rw [found]; rfl⟩
  · cases made

theorem buildRevisionPins_eq_ok (decoded : document.decode = .ok snapshot)
    (built : buildRevisionPins slotHash document = .ok pins) :
    (∀ pin, pin ∈ pins.memberPins ↔ ∃ spec ∈ snapshot.occurrences,
      snapshot.memberPin spec = .ok pin) ∧
    (∀ demand ∈ pins.demandRefs, ∃ draft ∈ snapshot.methodInstances,
      snapshot.isAdopted draft.instanceId = true ∧ ∃ slot ∈ draft.childBindings,
        snapshot.demandRef slotHash draft slot = .ok demand) ∧
    ∀ draft ∈ snapshot.methodInstances, snapshot.isAdopted draft.instanceId = true →
      ∀ slot ∈ draft.childBindings, ∃ demand ∈ pins.demandRefs,
        snapshot.demandRef slotHash draft slot = .ok demand := by
  unfold buildRevisionPins at built
  obtain ⟨_, again, built⟩ := bind_eq_ok.mp built
  rw [decoded] at again
  cases again
  obtain ⟨members, pinned, built⟩ := bind_eq_ok.mp built
  obtain ⟨demands, asked, built⟩ := bind_eq_ok.mp built
  iterate 3
    obtain ⟨_, built⟩ := then_eq_ok.mp built
  cases built
  have adopted : ∀ draft, draft ∈ snapshot.methodInstances.filter (fun draft =>
      draft.instanceId ∈ document.adoptedInstanceIds) ↔
        draft ∈ snapshot.methodInstances ∧ snapshot.isAdopted draft.instanceId = true := by
    intro draft
    rw [List.mem_filter, isAdopted_of_decode decoded]
  refine ⟨?_, ?_, ?_⟩
  · intro pin
    rw [mem_sortedBy]
    exact mem_of_mapM pinned pin
  · intro demand inside
    rw [mem_sortedByKeys, List.mem_flatten] at inside
    obtain ⟨rows, there, inside⟩ := inside
    obtain ⟨draft, here, made⟩ := (mem_of_mapM asked rows).mp there
    obtain ⟨slot, owned, made⟩ := (mem_of_mapM made demand).mp inside
    obtain ⟨known, kept⟩ := (adopted draft).mp here
    exact ⟨draft, known, kept, slot, owned, made⟩
  · intro draft known kept slot owned
    obtain ⟨rows, there, made⟩ := round_of_mapM asked ((adopted draft).mpr ⟨known, kept⟩)
    obtain ⟨demand, inside, made⟩ := round_of_mapM made owned
    refine ⟨demand, ?_, made⟩
    rw [mem_sortedByKeys, List.mem_flatten]
    exact ⟨rows, there, inside⟩

end

end Network
