import HarnessSdk.Planning.Sharing
import HarnessSdk.Registry.Versions

/-! The orders that hold shared work back, and those the sharing check looks at. -/
namespace Planning
open PyDict PyText Checks Workflow Network Relation
open Contracts (HashHex)

section
variable (network : TaskNetwork)

/-- An adopted instance of the parent has a slot that the child's work fills. -/
def Fills (parent child : OccurrenceId) : Prop :=
  ∃ draft ∈ network.methodInstances, network.isAdopted draft.instanceId = true ∧
    draft.effectiveGoalOccurrenceId = parent ∧ ∃ slot ∈ draft.childBindings, slot.producer = child

/-- The occurrence encloses the slots of an instance, by a chain of steps. -/
def Reaches (step : OccurrenceId → OccurrenceId → Prop)
    (consumer : MethodInstanceId) (id : OccurrenceId) : Prop :=
  ∃ draft, adoptedDraft network consumer = some draft ∧
    ReflTransGen step id draft.effectiveGoalOccurrenceId

/-- What the adopted instances open around the slot, as the projection opens it. -/
def Encloses (demand : DemandRef) (id : OccurrenceId) : Prop :=
  Reaches network network.Opens demand.consumerInstanceId id

/-- An ORDER into this occurrence holds the shared work back for the new consumer. -/
def Holds (demand : DemandRef) (id : OccurrenceId) : Prop :=
  id = demand.producerOccurrenceId ∨ id = demand.slotOccurrenceId ∨ Encloses network demand id

/-- The check goes from producers to consumers: it misses an occurrence that is tied to the slot
only by the slots' own occurrences. -/
def Missed (demand : DemandRef) (id : OccurrenceId) : Prop :=
  Holds network demand id ∧ id ≠ demand.producerOccurrenceId ∧
    ¬ Reaches network (Fills network) demand.consumerInstanceId id

end

structure Released (sources : SharingSources) (old new : TaskNetwork) (edge : OrderConstraint) :
    Prop where
  outcome : ∃ outcome, get? sources.outcomes edge.before = some outcome ∧
    orderReleased outcome edge.releaseCondition = true
  unchanged : ∃ current fresh, old.bindingForOccurrence edge.before = .ok current ∧
    new.bindingForOccurrence edge.before = .ok fresh ∧ current.taskId = fresh.taskId ∧
    SameWork current fresh

/-- The producer existed with the same task, binding and inputs, and is not converged. -/
structure Retained (old new : TaskNetwork) (targets : List ConvergenceTarget)
    (producer : OccurrenceId) : Prop where
  existed : ∃ previous current, old.occurrence? producer = some previous ∧
    new.occurrence? producer = some current ∧ previous.taskId = current.taskId
  binding : ∃ current fresh, old.bindingForOccurrence producer = .ok current ∧
    new.bindingForOccurrence producer = .ok fresh ∧ SameWork current fresh
  untargeted : producer ∉ targets.map (·.occurrenceId)
  inputs : (old.inputsOf producer).Perm (new.inputsOf producer)

theorem adoptedDraft_eq_some {network : TaskNetwork} (consistent : network.Consistent)
    {id : MethodInstanceId} {draft : MethodInstanceDraft} :
    adoptedDraft network id = some draft ↔ draft ∈ network.methodInstances ∧
      draft.instanceId = id ∧ network.isAdopted draft.instanceId = true := by
  rw [adoptedDraft, Option.filter_eq_some_iff, TaskNetwork.instance?,
    find?_key_eq_some consistent.instancesDistinct, and_assoc]

section
variable {slotHash : ChildBinding → String} {document : NetworkDocument}
  {snapshot : TaskNetworkSnapshot} {pins : RevisionPins}

theorem mem_consumersOf {demands : List DemandRef} {producer : OccurrenceId}
    {id : MethodInstanceId} : id ∈ consumersOf demands producer ↔
      ∃ demand ∈ demands, demand.producerOccurrenceId = producer ∧
        demand.consumerInstanceId = id := by
  simp [consumersOf, mem_fromkeys, and_assoc]

theorem mem_parentInstances (decoded : document.decode = .ok snapshot)
    (built : buildRevisionPins slotHash document = .ok pins) {draft : MethodInstanceDraft}
    {id parent : MethodInstanceId}
    (adopted : adoptedDraft snapshot.toTaskNetwork id = some draft) :
    parent ∈ parentInstances snapshot.toTaskNetwork pins.demandRefs id ↔
      ∃ above, adoptedDraft snapshot.toTaskNetwork parent = some above ∧
        ∃ slot ∈ above.childBindings, slot.producer = draft.effectiveGoalOccurrenceId := by
  obtain ⟨_, sound, complete⟩ := buildRevisionPins_eq_ok decoded built
  simp only [parentInstances, adopted, mem_consumersOf]
  constructor
  · rintro ⟨demand, inside, produces, consumes⟩
    obtain ⟨above, known, kept, slot, owned, made⟩ := sound demand inside
    obtain ⟨consumer, _, _, producer, _⟩ := demandRef_eq_ok made
    exact ⟨above, (adoptedDraft_eq_some snapshot.consistent).mpr
      ⟨known, consumer.symm.trans consumes, kept⟩, slot, owned, producer.symm.trans produces⟩
  · rintro ⟨above, found, slot, owned, fills⟩
    obtain ⟨known, same, kept⟩ := (adoptedDraft_eq_some snapshot.consistent).mp found
    obtain ⟨demand, inside, made⟩ := complete above known kept slot owned
    obtain ⟨consumer, _, _, producer, _⟩ := demandRef_eq_ok made
    exact ⟨demand, inside, producer.trans fills, consumer.trans same⟩

theorem mem_visitedInstances {network : TaskNetwork} {demands : List DemandRef}
    {consumer id : MethodInstanceId} : id ∈ visitedInstances network demands consumer ↔
      ReflTransGen (fun a b => b ∈ parentInstances network demands a) consumer id := by
  have known : ∀ a b, b ∈ parentInstances network demands a →
      b ∈ consumer :: demands.map (·.consumerInstanceId) := by
    intro a b parent
    unfold parentInstances at parent
    split at parent
    · cases parent
    · obtain ⟨demand, inside, _, rfl⟩ := mem_consumersOf.mp parent
      exact List.mem_cons_of_mem _ (List.mem_map_of_mem inside)
  rw [visitedInstances, List.mem_reverse, Digraph.mem_explore_iff
    (fun a inside => of_decide_eq_true inside) le_rfl]
  constructor
  · rintro ⟨start, here, _, path⟩
    rw [List.mem_singleton.mp here] at path
    exact ReflTransGen.mono (fun _ _ opens => opens.1) _ _ path
  · intro path
    refine ⟨consumer, List.mem_singleton_self _, decide_eq_true List.mem_cons_self, ?_⟩
    exact ReflTransGen.mono (fun a b parent => ⟨parent, decide_eq_true (known a b parent)⟩) _ _ path

/-- The path of the check: the producer, and what encloses the slot from producer to consumer. -/
theorem mem_pathOccurrences (decoded : document.decode = .ok snapshot)
    (built : buildRevisionPins slotHash document = .ok pins) {demand : DemandRef}
    {id : OccurrenceId} :
    id ∈ pathOccurrences snapshot.toTaskNetwork pins.demandRefs demand ↔
      id = demand.producerOccurrenceId ∨
        Reaches snapshot.toTaskNetwork (Fills snapshot.toTaskNetwork)
          demand.consumerInstanceId id := by
  have unique := @adoptedDraft_eq_some snapshot.toTaskNetwork snapshot.consistent
  simp only [pathOccurrences, List.mem_cons, List.mem_map, List.mem_filterMap,
    mem_visitedInstances]
  refine or_congr_right ?_
  constructor
  · rintro ⟨draft, ⟨visited, path, found⟩, rfl⟩
    induction path generalizing draft with
    | refl => exact ⟨draft, found, .refl⟩
    | @tail below visited _ parent ih =>
      cases adopted : adoptedDraft snapshot.toTaskNetwork below with
      | none =>
        rw [parentInstances, adopted] at parent
        cases parent
      | some lower =>
        obtain ⟨start, here, chain⟩ := ih lower adopted
        obtain ⟨above, again, slot, owned, fills⟩ :=
          (mem_parentInstances decoded built adopted).mp parent
        rw [found] at again
        cases again
        obtain ⟨known, _, kept⟩ := unique.mp found
        exact ⟨start, here, .head ⟨draft, known, kept, rfl, slot, owned, fills⟩ chain⟩
  · rintro ⟨start, here, chain⟩
    induction chain using ReflTransGen.head_induction_on with
    | refl => exact ⟨start, ⟨_, .refl, here⟩, rfl⟩
    | head step _ ih =>
      obtain ⟨lower, ⟨visited, path, adopted⟩, rfl⟩ := ih
      obtain ⟨above, known, kept, rfl, slot, owned, fills⟩ := step
      have found := unique.mpr ⟨known, rfl, kept⟩
      exact ⟨above, ⟨_, path.tail ((mem_parentInstances decoded built adopted).mpr
        ⟨above, found, slot, owned, fills⟩), found⟩, rfl⟩

end

/-- What `validate_sharing` reads off the two documents. -/
structure Compared (slotHash : ChildBinding → String) (before candidate : NetworkDocument) where
  old : TaskNetworkSnapshot
  new : TaskNetworkSnapshot
  oldPins : RevisionPins
  newPins : RevisionPins
  impact : ConvergenceImpact
  decoded : before.decode = .ok old
  candidateDecoded : candidate.decode = .ok new
  pinned : buildRevisionPins slotHash before = .ok oldPins
  candidatePinned : buildRevisionPins slotHash candidate = .ok newPins
  computed : computeConvergenceImpact slotHash before candidate = .ok impact

namespace Compared
variable {slotHash : ChildBinding → String} {before candidate : NetworkDocument}
  (compared : Compared slotHash before candidate) (sources : SharingSources)

def added : List DemandRef :=
  (newShared compared.oldPins.demandRefs compared.newPins.demandRefs).filter
    (·.mode = .shareActive)

/-- Sharing active work passes over no order, and converges nothing that is required by itself. -/
structure KeepsOrders : Prop where
  independent : ∀ target ∈ compared.impact.targets,
    target.occurrenceId ∉ sources.independentRequired
  retained : ∀ demand ∈ compared.added, Retained compared.old.toTaskNetwork
    compared.new.toTaskNetwork compared.impact.targets demand.producerOccurrenceId
  released : ∀ demand ∈ compared.added, ∀ edge ∈ compared.new.orderConstraints,
    Holds compared.new.toTaskNetwork demand edge.after →
      Released sources compared.old.toTaskNetwork compared.new.toTaskNetwork edge

end Compared

section
variable {contentHashOf : Json → HashHex} {sources : SharingSources}

theorem released_of_check {before : NetworkDocument} {old new : TaskNetwork}
    {edge : OrderConstraint} (passed : checkOrderEdge sources before old new edge = .ok ()) :
    Released sources old new edge := by
  unfold checkOrderEdge at passed
  split at passed
  · cases passed
  · case h_2 outcome recorded =>
    obtain ⟨released, passed⟩ := then_eq_ok.mp passed
    obtain ⟨_, passed⟩ := then_eq_ok.mp passed
    obtain ⟨current, now, passed⟩ := bind_eq_ok.mp passed
    obtain ⟨fresh, next, passed⟩ := bind_eq_ok.mp passed
    obtain ⟨same, _⟩ := then_eq_ok.mp passed
    rw [require_eq_ok] at released same
    exact ⟨⟨outcome, recorded, released⟩, current, fresh, now, next, same.1, same.2⟩

theorem kept_of_checkProducer {before : TaskNetworkSnapshot} {new : TaskNetwork}
    {targets : List ConvergenceTarget} {producer : OccurrenceId}
    (passed : checkProducer sources before new targets producer = .ok ()) :
    (∃ previous current, before.occurrence? producer = some previous ∧
      new.occurrence? producer = some current ∧ previous.taskId = current.taskId) ∧
    (∃ current fresh, before.bindingForOccurrence producer = .ok current ∧
      new.bindingForOccurrence producer = .ok fresh ∧ SameWork current fresh) ∧
    producer ∉ targets.map (·.occurrenceId) := by
  unfold checkProducer at passed
  split at passed
  · cases passed
  · case h_2 previous found =>
    obtain ⟨binding, now, passed⟩ := bind_eq_ok.mp passed
    obtain ⟨fresh, next, passed⟩ := bind_eq_ok.mp passed
    obtain ⟨same, passed⟩ := then_eq_ok.mp passed
    obtain ⟨untargeted, _⟩ := then_eq_ok.mp passed
    rw [require_eq_ok] at same untargeted
    obtain ⟨current, place, task⟩ := Option.map_eq_some_iff.mp same.1.symm
    exact ⟨⟨previous, current, found, place, task.symm⟩, ⟨binding, fresh, now, next, same.2⟩,
      untargeted⟩

variable {slotHash : ChildBinding → String} {before candidate : NetworkDocument}

theorem validateSharing_eq_ok (compared : Compared slotHash before candidate)
    (accepted : validateSharing contentHashOf sources slotHash before candidate = .ok ()) :
    (∀ target ∈ compared.impact.targets, target.occurrenceId ∉ sources.independentRequired) ∧
      ∃ registry, ∀ demand ∈ compared.added, checkActive contentHashOf sources registry before
        compared.old compared.new.toTaskNetwork compared.newPins.demandRefs
        compared.impact.targets demand = .ok () := by
  obtain ⟨old, new, oldPins, newPins, impact, decoded, candidateDecoded, pinned, candidatePinned,
    computed⟩ := compared
  unfold validateSharing at accepted
  rw [decoded, candidateDecoded, pinned, candidatePinned, computed] at accepted
  simp only [ok_bind, then_eq_ok] at accepted
  obtain ⟨_, independent, _, _, accepted⟩ := accepted
  rw [require_eq_ok] at independent
  refine ⟨independent, ?_⟩
  split at accepted
  · case isTrue none =>
    refine ⟨[], fun demand inside => ?_⟩
    rw [Compared.added, none] at inside
    cases inside
  · obtain ⟨registry, _, accepted⟩ := bind_eq_ok.mp accepted
    exact ⟨registry, (every_eq_ok _ _).mp accepted⟩

/-- Every order on the path of the check is released; what the check misses decides the rest. -/
theorem sharing_keeps_orders_iff (contentHashOf : Json → HashHex) (sources : SharingSources)
    (slotHash : ChildBinding → String) (before candidate : NetworkDocument)
    (compared : Compared slotHash before candidate)
    (accepted : validateSharing contentHashOf sources slotHash before candidate = .ok ()) :
    compared.KeepsOrders sources ↔ ∀ demand ∈ compared.added,
      ∀ edge ∈ compared.new.orderConstraints,
        Missed compared.new.toTaskNetwork demand edge.after →
          Released sources compared.old.toTaskNetwork compared.new.toTaskNetwork edge := by
  obtain ⟨independent, registry, checked⟩ := validateSharing_eq_ok compared accepted
  constructor
  · intro keeps demand inside edge listed missed
    exact keeps.released demand inside edge listed missed.1
  · intro rest
    refine ⟨independent, ?_, ?_⟩
    · intro demand inside
      obtain ⟨produced, _⟩ := then_eq_ok.mp (checked demand inside)
      obtain ⟨existed, binding, untargeted⟩ := kept_of_checkProducer produced
      refine ⟨existed, binding, untargeted, ?_⟩
      obtain ⟨previous, _, found, _⟩ := existed
      obtain ⟨member, named⟩ := TaskNetwork.mem_of_occurrence? found
      rw [← named] at untargeted ⊢
      exact inputs_of_untargeted compared.decoded compared.candidateDecoded compared.computed
        member untargeted
    · intro demand inside edge listed holds
      by_cases onPath : edge.after ∈ pathOccurrences compared.new.toTaskNetwork
          compared.newPins.demandRefs demand
      · obtain ⟨_, passed⟩ := then_eq_ok.mp (checked demand inside)
        obtain ⟨_, passed⟩ := then_eq_ok.mp passed
        exact released_of_check ((every_eq_ok _ _).mp passed edge
          (List.mem_filter.mpr ⟨listed, decide_eq_true onPath⟩))
      · rw [mem_pathOccurrences compared.candidateDecoded compared.candidatePinned,
          not_or] at onPath
        exact rest demand inside edge listed ⟨holds, onPath⟩

end

def apiDraft : MethodInstanceDraft where
  instanceId := "mi-api"
  goalId := "api"
  obligationId := "ship"
  methodRef := ⟨"design", 1, emptyHash⟩
  childBindings := [slot "mi-api" "schema" .required, slot "mi-api" "survey" .required]

/-- The docs edit a draft of their own, and the draft is the api's schema. -/
def docsDraft : MethodInstanceDraft where
  instanceId := "mi-docs"
  goalId := "docs"
  obligationId := "ship"
  methodRef := ⟨"fix-by-edit", 1,
    "0825774ba91f90e8168fedcbad798e603b94d4f2522289c2dc4e3c443dcd525d"⟩
  childBindings := [{
    instanceId := "mi-docs"
    slotKey := "edit"
    occurrenceId := "draft"
    obligationId := "ship"
    reusePolicy := .shareActive
    goalOccurrenceId := some "schema" }]

def apiObjects : List NetworkObject := [
  .methodInstance apiDraft,
  .occurrence (position "api" .compound), .occurrence (position "schema" .primitive),
  .occurrence (position "survey" .primitive),
  .taskSemantics (compoundTask "api"), .taskSemantics (primitiveTask "schema"),
  .taskSemantics (primitiveTask "survey")]

def apiAlone : NetworkDocument where
  missionId := "m"
  revision := 1
  rootOccurrenceIds := ["api"]
  adoptedInstanceIds := ["mi-api"]
  requiredObligationIds := ["ship"]
  objects := apiObjects

def apiAndDocs : NetworkDocument where
  missionId := "m"
  revision := 2
  rootOccurrenceIds := ["api", "docs"]
  adoptedInstanceIds := ["mi-api", "mi-docs"]
  requiredObligationIds := ["ship"]
  objects := apiObjects ++ [
    .methodInstance docsDraft,
    .occurrence (position "docs" .compound), .occurrence (position "draft" .primitive),
    .orderConstraint { before := "survey", after := "draft" },
    .taskSemantics (compoundTask "docs"), .taskSemantics (primitiveTask "draft")]

/-- Slots are told apart by instance, key and occurrences. -/
def slotName (slot : ChildBinding) : String :=
  join "/" [slot.instanceId, slot.slotKey, slot.occurrenceId, slot.producer]

def docsDemand : DemandRef where
  consumerInstanceId := "mi-docs"
  slotKey := "edit"
  slotOccurrenceId := "draft"
  producerOccurrenceId := "schema"
  obligationId := "ship"
  mode := .shareActive
  requiredness := .required
  sourceSlotHash := "mi-docs/edit/draft/schema"

def docsCompared : Compared slotName apiAlone apiAndDocs where
  old := ⟨apiAlone.network, by decide⟩
  new := ⟨apiAndDocs.network, by decide⟩
  oldPins := {
    memberPins := [⟨"api", "api"⟩, ⟨"schema", "schema"⟩, ⟨"survey", "survey"⟩]
    demandRefs := [
      ⟨"mi-api", "schema", "schema", "schema", "ship", .newWork, .required,
        "mi-api/schema/schema/schema"⟩,
      ⟨"mi-api", "survey", "survey", "survey", "ship", .newWork, .required,
        "mi-api/survey/survey/survey"⟩] }
  newPins := {
    memberPins := [⟨"api", "api"⟩, ⟨"docs", "docs"⟩, ⟨"draft", "draft"⟩, ⟨"schema", "schema"⟩,
      ⟨"survey", "survey"⟩]
    demandRefs := [
      ⟨"mi-api", "schema", "schema", "schema", "ship", .newWork, .required,
        "mi-api/schema/schema/schema"⟩,
      ⟨"mi-api", "survey", "survey", "survey", "ship", .newWork, .required,
        "mi-api/survey/survey/survey"⟩,
      docsDemand] }
  impact := {
    missionId := "m"
    sourceRevision := 1
    targets := []
    preservedOccurrences := [] }
  decoded := decode_eq_ok.mpr rfl
  candidateDecoded := decode_eq_ok.mpr rfl
  pinned := by decide +kernel
  candidatePinned := by decide +kernel
  computed := by decide +kernel

def docsSources (survey : OccurrenceOutcome) : SharingSources where
  outcomes := [("schema", .running), ("survey", survey)]
  methods := [Registry.fixBy Registry.edit]
  entries := [{
    occurrenceId := "schema"
    taskId := "schema"
    obligationId := "ship"
    signature := {
      goalTypeRef := ⟨"code.edit", 1, emptyHash⟩
      typedParameters := []
      authorityScope := "mission"
      semanticScope := "mission"
      domainSemantics := ""
      sideEffectKind := .none
      effectIdentity := none }
    reusePolicy := .shareActive }]
  inputProofs := [("schema", {
    occurrenceId := "schema"
    contractRevision := 0
    inputBindingRevision := 0
    dispatchGeneration := 0
    origins := [("mission", "m")] })]

/-- The docs take over the schema while the survey, which their draft waits for, still runs. -/
theorem order_into_slot_passed_over :
    validateSharing Registry.fixHashes (docsSources .running) slotName apiAlone apiAndDocs =
        .ok () ∧
      ¬ docsCompared.KeepsOrders (docsSources .running) := by
  refine ⟨by decide +kernel, fun keeps => ?_⟩
  have released := keeps.released docsDemand (by decide +kernel)
    { before := "survey", after := "draft" } (by decide) (.inr (.inl rfl))
  obtain ⟨outcome, recorded, ended⟩ := released.outcome
  cases recorded
  cases ended

/-- Once the survey is accepted, the same sharing keeps its orders. -/
theorem sharing_keeps_orders_after_survey : docsCompared.KeepsOrders (docsSources .accepted) := by
  refine (sharing_keeps_orders_iff Registry.fixHashes (docsSources .accepted) slotName apiAlone
    apiAndDocs docsCompared (by decide +kernel)).mpr ?_
  intro demand _ edge listed _
  have only : edge = { before := "survey", after := "draft" } :=
    List.mem_singleton.mp listed
  subst only
  exact ⟨⟨.accepted, rfl, rfl⟩, primitiveTask "survey", primitiveTask "survey", rfl, rfl, rfl,
    rfl, rfl, rfl, rfl⟩

end Planning
