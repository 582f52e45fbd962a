import HarnessSdk.Network.Contracts

/-! One mission's network, frozen at one plan revision. Construction checks referential integrity
only: every endpoint names something the network contains. -/
namespace Network
open PyDict PyText Checks

structure TaskNetwork where
  missionId : String
  planRevision : Nat
  occurrences : List OccurrenceSpec
  taskBindings : List TaskSemanticBinding
  methodInstances : List MethodInstanceDraft := []
  adoptedInstanceIds : List MethodInstanceId := []
  rootOccurrenceIds : List OccurrenceId := []
  orderConstraints : List OrderConstraint := []
  dataRequirements : List DataRequirement := []
  typedEdges : List TypedEdge := []
  obligationCoverage : List ObligationCoverage := []
  requiredObligations : List ObligationId := []

namespace TaskNetwork
variable (network : TaskNetwork)

def occurrence? (id : OccurrenceId) : Option OccurrenceSpec :=
  network.occurrences.find? fun spec => spec.occurrenceId == id

def bindingForTask? (id : TaskRef) : Option TaskSemanticBinding :=
  network.taskBindings.find? fun binding => binding.taskId == id

def instance? (id : MethodInstanceId) : Option MethodInstanceDraft :=
  network.methodInstances.find? fun draft => draft.instanceId == id

def occurrenceIds : List OccurrenceId := network.occurrences.map (·.occurrenceId)

def taskIds : List TaskRef := network.taskBindings.map (·.taskId)

def instanceIds : List MethodInstanceId := network.methodInstances.map (·.instanceId)

def isAdopted (id : MethodInstanceId) : Bool := id ∈ network.adoptedInstanceIds

def adoptedInstanceFor (id : OccurrenceId) : Option MethodInstanceDraft :=
  network.methodInstances.find? fun draft =>
    network.isAdopted draft.instanceId && draft.effectiveGoalOccurrenceId == id

def adoptedChildren (id : OccurrenceId) : List ChildBinding :=
  match network.occurrence? id with
  | some ⟨_, _, _, .compound, _⟩ =>
    match network.adoptedInstanceFor id with
    | none => []
    | some draft => draft.childBindings
  | _ => []

def checkOccurrence (spec : OccurrenceSpec) : Except Message Unit :=
  match network.bindingForTask? spec.taskId with
  | none => .error [.text "occurrence ", .repr spec.occurrenceId, .text " names task ",
      .repr spec.taskId, .text (", which has no semantic binding (§18.5: a missing binding is " ++
        "corruption, not a legacy fallback)")]
  | some binding => do
    require (binding.form = spec.form)
      [.text "occurrence ", .repr spec.occurrenceId, .text " says form ", .text spec.form.text,
        .text " but its binding says ", .text binding.form.text]
    require (binding.obligationId = spec.obligationId)
      [.text "occurrence ", .repr spec.occurrenceId, .text " claims obligation ",
        .repr spec.obligationId, .text ", its binding claims ", .repr binding.obligationId]

/-- `assert_method_instances_match_occurrences`: a draft whose occurrence is not carried is left to
the later checks. -/
def assertMatchesOccurrence (draft : MethodInstanceDraft) : Except Message Unit :=
  match network.occurrence? draft.effectiveGoalOccurrenceId with
  | none => .ok ()
  | some spec => do
    require (spec.taskId = draft.goalId)
      [.text "method instance ", .text draft.instanceId, .text " refines occurrence ",
        .text spec.occurrenceId, .text ", which belongs to task ", .text spec.taskId,
        .text ", not to its goal ", .text draft.goalId]
    require (spec.form = .compound)
      [.text "method instance ", .text draft.instanceId, .text " refines occurrence ",
        .text spec.occurrenceId,
        .text ", which is primitive; only a compound task is refined by a method (§6.2)"]

def checkChild (draft : MethodInstanceDraft) (child : ChildBinding) : Except Message Unit :=
  require (child.occurrenceId ∈ network.occurrenceIds)
    [.text "method instance ", .repr draft.instanceId, .text " binds slot ", .repr child.slotKey,
      .text " to unknown occurrence ", .repr child.occurrenceId]

/-- An occurrence takes one adopted instance; `refined` holds those recorded so far. -/
def recordAdoption (refined : Dict OccurrenceId MethodInstanceId) (draft : MethodInstanceDraft) :
    Except Message (Dict OccurrenceId MethodInstanceId) :=
  if network.isAdopted draft.instanceId then
    match get? refined draft.effectiveGoalOccurrenceId with
    | some other => .error [.text "occurrence ", .repr draft.effectiveGoalOccurrenceId,
        .text " has two adopted method instances (", .repr other, .text " and ",
        .repr draft.instanceId, .text "); alternatives are OR, not AND"]
    | none => .ok (set refined draft.effectiveGoalOccurrenceId draft.instanceId)
  else .ok refined

def checkInstances :
    Dict OccurrenceId MethodInstanceId → List MethodInstanceDraft → Except Message Unit
  | _, [] => .ok ()
  | refined, draft :: rest => do
    require (draft.goalId ∈ network.taskIds)
      [.text "method instance ", .repr draft.instanceId, .text " refines unknown task ",
        .repr draft.goalId]
    require (draft.effectiveGoalOccurrenceId ∈ network.occurrenceIds)
      [.text "method instance ", .repr draft.instanceId, .text " refines occurrence ",
        .repr draft.effectiveGoalOccurrenceId, .text ", which this network does not contain"]
    let refined' ← network.recordAdoption refined draft
    every (network.checkChild draft) draft.childBindings
    checkInstances refined' rest

def checkAdoption (binding : TaskSemanticBinding) : Except Message Unit :=
  match binding.adoptedMethodInstanceId with
  | none => .ok ()
  | some claimed => do
    require (claimed ∈ network.instanceIds)
      [.text "task ", .repr binding.taskId, .text " adopts unknown method instance ", .repr claimed]
    require (network.isAdopted claimed)
      [.text "task ", .repr binding.taskId, .text " adopts method instance ", .repr claimed,
        .text ", which is not in the active membership of this plan revision"]

def checkOrder (constraint : OrderConstraint) : Except Message Unit :=
  [constraint.before, constraint.after] |> every fun endpoint =>
    require (endpoint ∈ network.occurrenceIds)
      [.text "order constraint names unknown occurrence ", .repr endpoint]

def checkRequirements : List String → List DataRequirement → Except Message Unit
  | _, [] => .ok ()
  | seen, requirement :: rest => do
    [requirement.producerOccurrence, requirement.consumerOccurrence] |> every fun endpoint =>
      require (endpoint ∈ network.occurrenceIds)
        [.text "data requirement ", .repr requirement.requirementId,
          .text " names unknown occurrence ", .repr endpoint]
    require (requirement.requirementId ∉ seen)
      [.text "data requirement ", .repr requirement.requirementId, .text " is declared twice"]
    checkRequirements (requirement.requirementId :: seen) rest

def checkCoverage (coverage : ObligationCoverage) : Except Message Unit :=
  coverage.coveredBy |> every fun covered =>
    require (covered ∈ network.occurrenceIds)
      [.text "obligation coverage names unknown occurrence ", .repr covered]

def checkSide (edge : TypedEdge) (side : NetworkEndpoint) : Except Message Unit :=
  let refusal (what : String) : Message :=
    [.text edge.relation.text, .text (" edge names unknown " ++ what ++ " "), .repr side.id]
  match side.kind with
  | .occurrence => require (side.id ∈ network.occurrenceIds) (refusal "occurrence")
  | .task => require (side.id ∈ network.taskIds) (refusal "task")
  | .methodInstance => require (side.id ∈ network.instanceIds) (refusal "method instance")
  | _ => .ok ()

def postInit : Except Message Unit := do
  distinct (·.occurrenceId)
    (fun spec => [.text "occurrence ", .repr spec.occurrenceId, .text " is declared twice"])
    [] network.occurrences
  distinct (·.taskId)
    (fun binding => [.text "task ", .repr binding.taskId, .text " has two semantic bindings"])
    [] network.taskBindings
  distinct (·.instanceId)
    (fun draft => [.text "method instance ", .repr draft.instanceId, .text " is declared twice"])
    [] network.methodInstances
  every network.checkOccurrence network.occurrences
  network.adoptedInstanceIds |> every fun id =>
    require (id ∈ network.instanceIds)
      [.text "adopted method instance ", .repr id, .text " does not exist"]
  every network.assertMatchesOccurrence network.methodInstances
  network.checkInstances [] network.methodInstances
  every network.checkAdoption network.taskBindings
  every network.checkOrder network.orderConstraints
  network.checkRequirements [] network.dataRequirements
  network.rootOccurrenceIds |> every fun root =>
    require (root ∈ network.occurrenceIds)
      [.text "root occurrence ", .repr root, .text " does not exist"]
  every network.checkCoverage network.obligationCoverage
  network.typedEdges |> every fun edge =>
    every (network.checkSide edge) [edge.source, edge.target]

def adoptedGoals (drafts : List MethodInstanceDraft) : List OccurrenceId :=
  (drafts.filter fun draft => network.isAdopted draft.instanceId).map (·.effectiveGoalOccurrenceId)

def SideKnown (side : NetworkEndpoint) : Prop :=
  match side.kind with
  | .occurrence => side.id ∈ network.occurrenceIds
  | .task => side.id ∈ network.taskIds
  | .methodInstance => side.id ∈ network.instanceIds
  | _ => True

structure Consistent : Prop where
  occurrencesDistinct : network.occurrenceIds.Nodup
  tasksDistinct : network.taskIds.Nodup
  instancesDistinct : network.instanceIds.Nodup
  bound : ∀ spec ∈ network.occurrences, ∃ binding,
    network.bindingForTask? spec.taskId = some binding ∧ binding.form = spec.form ∧
      binding.obligationId = spec.obligationId
  adoptedKnown : ∀ id ∈ network.adoptedInstanceIds, id ∈ network.instanceIds
  refines : ∀ draft ∈ network.methodInstances, ∃ spec,
    network.occurrence? draft.effectiveGoalOccurrenceId = some spec ∧ spec.taskId = draft.goalId ∧
      spec.form = .compound
  goalsBound : ∀ draft ∈ network.methodInstances, draft.goalId ∈ network.taskIds
  adoptedOnce : (network.adoptedGoals network.methodInstances).Nodup
  childrenKnown : ∀ draft ∈ network.methodInstances, ∀ child ∈ draft.childBindings,
    child.occurrenceId ∈ network.occurrenceIds
  claimsAdopted : ∀ binding ∈ network.taskBindings, ∀ claimed,
    binding.adoptedMethodInstanceId = some claimed →
      claimed ∈ network.instanceIds ∧ network.isAdopted claimed = true
  ordersKnown : ∀ constraint ∈ network.orderConstraints,
    constraint.before ∈ network.occurrenceIds ∧ constraint.after ∈ network.occurrenceIds
  requirementsDistinct : (network.dataRequirements.map (·.requirementId)).Nodup
  requirementsKnown : ∀ requirement ∈ network.dataRequirements,
    requirement.producerOccurrence ∈ network.occurrenceIds ∧
      requirement.consumerOccurrence ∈ network.occurrenceIds
  rootsKnown : ∀ root ∈ network.rootOccurrenceIds, root ∈ network.occurrenceIds
  coverageKnown : ∀ coverage ∈ network.obligationCoverage, ∀ covered ∈ coverage.coveredBy,
    covered ∈ network.occurrenceIds
  edgesKnown : ∀ edge ∈ network.typedEdges,
    network.SideKnown edge.source ∧ network.SideKnown edge.target

variable {network}

theorem occurrence?_isSome_iff (id : OccurrenceId) :
    (network.occurrence? id).isSome ↔ id ∈ network.occurrenceIds := by
  simp [occurrence?, occurrenceIds, List.find?_isSome]

theorem mem_of_occurrence? {id : OccurrenceId} {spec : OccurrenceSpec}
    (found : network.occurrence? id = some spec) :
    spec ∈ network.occurrences ∧ spec.occurrenceId = id := by
  have here := List.find?_some found
  exact ⟨List.mem_of_find?_eq_some found, by simpa using here⟩

theorem checkOccurrence_eq_ok (spec : OccurrenceSpec) :
    network.checkOccurrence spec = .ok () ↔ ∃ binding,
      network.bindingForTask? spec.taskId = some binding ∧ binding.form = spec.form ∧
        binding.obligationId = spec.obligationId := by
  unfold checkOccurrence
  cases network.bindingForTask? spec.taskId with
  | none => simp
  | some binding => simp [then_eq_ok]

theorem assertMatchesOccurrence_eq_ok (draft : MethodInstanceDraft) :
    network.assertMatchesOccurrence draft = .ok () ↔
      ∀ spec, network.occurrence? draft.effectiveGoalOccurrenceId = some spec →
        spec.taskId = draft.goalId ∧ spec.form = .compound := by
  unfold assertMatchesOccurrence
  cases network.occurrence? draft.effectiveGoalOccurrenceId with
  | none => simp
  | some spec => simp [then_eq_ok]

theorem checkInstances_eq_ok (refined : Dict OccurrenceId MethodInstanceId)
    (drafts : List MethodInstanceDraft) :
    network.checkInstances refined drafts = .ok () ↔
      (∀ draft ∈ drafts, draft.goalId ∈ network.taskIds ∧
        draft.effectiveGoalOccurrenceId ∈ network.occurrenceIds ∧
        ∀ child ∈ draft.childBindings, child.occurrenceId ∈ network.occurrenceIds) ∧
      (network.adoptedGoals drafts).Nodup ∧
      ∀ goal ∈ network.adoptedGoals drafts, goal ∉ keys refined := by
  induction drafts generalizing refined with
  | nil => simp [checkInstances, adoptedGoals]
  | cons draft rest ih =>
    rw [checkInstances, then_eq_ok, then_eq_ok, bind_eq_ok, require_eq_ok, require_eq_ok]
    simp only [then_eq_ok, ih, every_eq_ok, checkChild, require_eq_ok, List.forall_mem_cons,
      recordAdoption]
    by_cases adopted : network.isAdopted draft.instanceId
    · have split : network.adoptedGoals (draft :: rest) =
          draft.effectiveGoalOccurrenceId :: network.adoptedGoals rest := by
        simp [adoptedGoals, adopted]
      simp only [adopted, if_true, split, List.nodup_cons, List.forall_mem_cons]
      cases taken : get? refined draft.effectiveGoalOccurrenceId with
      | some other =>
        have inside : draft.effectiveGoalOccurrenceId ∈ keys refined := by
          rw [← get?_isSome_iff, taken]
          rfl
        simp [inside]
      | none =>
        have outside := (get?_eq_none_iff _ _).mp taken
        simp only [Except.ok.injEq, exists_eq_left', mem_keys_set, not_or]
        constructor
        · rintro ⟨task, place, children, others, nodup, apart⟩
          exact ⟨⟨⟨task, place, children⟩, others⟩,
            ⟨fun again => (apart _ again).1 rfl, nodup⟩, outside, fun goal hg => (apart goal hg).2⟩
        · rintro ⟨⟨⟨task, place, children⟩, others⟩, ⟨absent, nodup⟩, _, apart⟩
          exact ⟨task, place, children, others, nodup, fun goal hg =>
            ⟨fun same => absent (same ▸ hg), apart goal hg⟩⟩
    · have split : network.adoptedGoals (draft :: rest) = network.adoptedGoals rest := by
        simp [adoptedGoals, adopted]
      simp only [adopted, split, Bool.false_eq_true, if_false, Except.ok.injEq, exists_eq_left']
      tauto

theorem checkRequirements_eq_ok (seen : List String) (requirements : List DataRequirement) :
    network.checkRequirements seen requirements = .ok () ↔
      (∀ requirement ∈ requirements, requirement.producerOccurrence ∈ network.occurrenceIds ∧
        requirement.consumerOccurrence ∈ network.occurrenceIds) ∧
      (requirements.map (·.requirementId)).Nodup ∧
      ∀ requirement ∈ requirements, requirement.requirementId ∉ seen := by
  induction requirements generalizing seen with
  | nil => simp [checkRequirements]
  | cons requirement rest ih =>
    rw [checkRequirements, then_eq_ok, then_eq_ok, ih, require_eq_ok, every_eq_ok]
    simp only [require_eq_ok, List.mem_cons, List.not_mem_nil, or_false, forall_eq_or_imp, forall_eq,
      List.map_cons, List.nodup_cons, List.mem_map, not_or]
    constructor
    · rintro ⟨ends, fresh, others, nodup, apart⟩
      refine ⟨⟨ends, others⟩, ⟨?_, nodup⟩, fresh, fun other ho => (apart other ho).2⟩
      rintro ⟨other, ho, same⟩
      exact (apart other ho).1 same
    · rintro ⟨⟨ends, others⟩, ⟨absent, nodup⟩, fresh, apart⟩
      exact ⟨ends, fresh, others, nodup, fun other ho =>
        ⟨fun same => absent ⟨other, ho, same⟩, apart other ho⟩⟩

theorem checkAdoption_eq_ok (binding : TaskSemanticBinding) :
    network.checkAdoption binding = .ok () ↔ ∀ claimed,
      binding.adoptedMethodInstanceId = some claimed →
        claimed ∈ network.instanceIds ∧ network.isAdopted claimed = true := by
  unfold checkAdoption
  cases binding.adoptedMethodInstanceId with
  | none => simp
  | some claimed => simp [then_eq_ok]

theorem checkSide_eq_ok (edge : TypedEdge) (side : NetworkEndpoint) :
    network.checkSide edge side = .ok () ↔ network.SideKnown side := by
  obtain ⟨kind, id⟩ := side
  cases kind <;> simp [checkSide, SideKnown]

theorem postInit_eq_ok : network.postInit = .ok () ↔ network.Consistent := by
  unfold postInit
  simp only [then_eq_ok, distinct_eq_ok, every_eq_ok, checkOccurrence_eq_ok, require_eq_ok,
    assertMatchesOccurrence_eq_ok, checkInstances_eq_ok, checkAdoption_eq_ok, checkOrder,
    checkRequirements_eq_ok, checkCoverage, checkSide_eq_ok, List.forall_mem_cons]
  constructor
  · rintro ⟨⟨ho, _⟩, ⟨ht, _⟩, ⟨hi, _⟩, bound, adopted, matches_, ⟨placed, once, _⟩, claims, orders,
      ⟨ends, requirements, _⟩, roots, coverage, edges⟩
    refine ⟨ho, ht, hi, bound, adopted, ?_, fun draft hd => (placed draft hd).1, once,
      fun draft hd => (placed draft hd).2.2, claims, fun c hc => ⟨(orders c hc).1, (orders c hc).2.1⟩,
      requirements, ends, roots, coverage, fun e he => ⟨(edges e he).1, (edges e he).2.1⟩⟩
    intro draft hd
    have inside := (placed draft hd).2.1
    rw [← occurrence?_isSome_iff, Option.isSome_iff_exists] at inside
    obtain ⟨spec, found⟩ := inside
    exact ⟨spec, found, matches_ draft hd spec found⟩
  · intro ok
    refine ⟨⟨ok.occurrencesDistinct, by simp⟩, ⟨ok.tasksDistinct, by simp⟩,
      ⟨ok.instancesDistinct, by simp⟩, ok.bound, ok.adoptedKnown, ?_, ⟨?_, ok.adoptedOnce, ?_⟩,
      ok.claimsAdopted, fun c hc => ⟨(ok.ordersKnown c hc).1, (ok.ordersKnown c hc).2, by simp⟩,
      ⟨ok.requirementsKnown, ok.requirementsDistinct, by simp⟩, ok.rootsKnown, ok.coverageKnown,
      fun e he => ⟨(ok.edgesKnown e he).1, (ok.edgesKnown e he).2, by simp⟩⟩
    · intro draft hd spec found
      obtain ⟨spec', found', same, form⟩ := ok.refines draft hd
      rw [found'] at found
      cases found
      exact ⟨same, form⟩
    · intro draft hd
      obtain ⟨spec, found, _⟩ := ok.refines draft hd
      refine ⟨ok.goalsBound draft hd, ?_, ok.childrenKnown draft hd⟩
      rw [← occurrence?_isSome_iff, found]
      rfl
    · simp [keys]

end TaskNetwork

structure TaskNetworkSnapshot extends TaskNetwork where
  checked : toTaskNetwork.postInit = .ok ()

theorem TaskNetworkSnapshot.consistent (snapshot : TaskNetworkSnapshot) :
    snapshot.toTaskNetwork.Consistent :=
  TaskNetwork.postInit_eq_ok.mp snapshot.checked

def TaskNetwork.freeze (network : TaskNetwork) : Except Message TaskNetworkSnapshot :=
  match h : network.postInit with
  | .error refusal => .error refusal
  | .ok () => .ok ⟨network, h⟩

theorem TaskNetwork.freeze_eq_ok {network : TaskNetwork} {snapshot : TaskNetworkSnapshot} :
    network.freeze = .ok snapshot ↔ snapshot.toTaskNetwork = network := by
  unfold freeze
  constructor
  · intro frozen
    split at frozen
    · cases frozen
    · cases frozen
      rfl
  · rintro rfl
    have checked := snapshot.checked
    split
    · next refusal refused =>
      rw [checked] at refused
      cases refused
    · rfl

end Network
