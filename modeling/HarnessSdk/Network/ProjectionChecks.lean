import HarnessSdk.Network.ProjectionOrder
import HarnessSdk.Library.Kahn

/-! Structural checks on a compiled projection. Each class of problem is reported on its own. -/
namespace Network
open PyDict PyText Checks

inductive ProblemKind
  | cycle
  | danglingEndpoint
  | missingEdge
  | noGatingChildren
  | duplicateSlot
  | unboundPort
  | singlePortOverbound
  | setPortUnordered
  | orphanObligation
  | unreachedRequiredOccurrence
  | rootCoverageGap
  | resourceConflict
  | boundReached
  | partialCheck
deriving DecidableEq

def ProblemKind.text : ProblemKind → String
  | .cycle => "cycle"
  | .danglingEndpoint => "dangling_endpoint"
  | .missingEdge => "missing_edge"
  | .noGatingChildren => "no_gating_children"
  | .duplicateSlot => "duplicate_slot"
  | .unboundPort => "unbound_port"
  | .singlePortOverbound => "single_port_overbound"
  | .setPortUnordered => "set_port_unordered"
  | .orphanObligation => "orphan_obligation"
  | .unreachedRequiredOccurrence => "unreached_required_occurrence"
  | .rootCoverageGap => "root_coverage_gap"
  | .resourceConflict => "resource_conflict"
  | .boundReached => "bound_reached"
  | .partialCheck => "partial_check"

structure ProjectionProblem where
  kind : ProblemKind
  detail : String
  nodes : List String := []
  path : List String := []
deriving DecidableEq

structure ProjectionReport where
  budgetVersion : Nat
  problems : List ProjectionProblem
  topologicalOrder : Option (List String)
deriving DecidableEq

structure GraphStructureBudget where
  budgetVersion : Nat
  maxDepth : Nat
  maxNodes : Nat
  maxEdges : Nat
  maxFanOut : Nat
deriving DecidableEq

def defaultProjectionBudget : GraphStructureBudget where
  budgetVersion := 1
  maxDepth := 64
  maxNodes := 2048
  maxEdges := 8192
  maxFanOut := 256

def maxConflictsPerResource : Nat := 32

def sortedProblems (problems : List ProjectionProblem) : List ProjectionProblem :=
  sortedByKeys (fun problem => problem.kind.text :: problem.detail :: problem.nodes) problems

abbrev Adjacency := Dict String (List String)

def Adjacency.after (successors : Adjacency) (node : String) : List String :=
  (get? successors node).getD []

def least {ι : Type} [LinearOrder ι] [Zero ι] (ordinals : Dict String ι) :
    List String → Option String
  | [] => none
  | node :: rest =>
    match least ordinals rest with
    | none => some node
    | some other =>
      let here := (get? ordinals node).getD 0
      let there := (get? ordinals other).getD 0
      if there < here ∨ (there = here ∧ other < node) then some other else some node

def pop {ι : Type} [LinearOrder ι] [Zero ι] (ordinals : Dict String ι) (ready : List String) :
    Option (String × List String) :=
  (least ordinals ready).map fun node => (node, ready.erase node)

def TaskNetwork.bindingForOccurrence? (network : TaskNetwork) (id : OccurrenceId) :
    Option TaskSemanticBinding := do
  let spec ← network.occurrence? id
  network.bindingForTask? spec.taskId

section Reporting
variable (printable : Char → Bool)

def kahnOrder {ι : Type} [LinearOrder ι] [Zero ι] (successors : Adjacency)
    (ordinals : Dict String ι) : Except String (List String × List String) := do
  keys successors |> every fun node =>
    successors.after node |> every fun target =>
      require (target ∈ keys successors) (render printable [.text "adjacency names ", .repr target,
        .text (", which is not a node of this graph; a topological sort does not invent the " ++
          "nodes it was not given")])
  let placed := Kahn.order successors.after (pop ordinals) (keys successors)
  if placed.length = successors.length then .ok (placed, [])
  else .ok (placed, sorted ((keys successors).filter (· ∉ placed)))

/-- The backward walk of `find_cycle`; each round adds a new node of the pool to the path. -/
def walkBack (predecessors : String → List String) : Nat → String → List String → List String
  | 0, _, _ => []
  | fuel + 1, current, path =>
    match (sorted (predecessors current)).head? with
    | none => []
    | some next =>
      if next ∈ path then next :: (path.drop (path.idxOf next)).reverse
      else walkBack predecessors fuel next (path ++ [next])

section
variable (successors : Adjacency)

def findCycle (remaining : List String) : List String :=
  let predecessors (node : String) : List String :=
    ((keys successors).filter (· ∈ remaining)).flatMap fun key =>
      ((successors.after key).filter (· = node)).map fun _ => key
  match (sorted remaining).head? with
  | none => []
  | some start => walkBack predecessors (remaining.length + 1) start [start]

def declaredSuccessors (projection : ExecutionProjection) : Adjacency :=
  projection.nodeIds.map fun node =>
    (node, (projection.edges.filter fun edge =>
      edge.source = node ∧ edge.target ∈ projection.nodeIds).map (·.target))

def induced (keep : List String) : Adjacency :=
  (successors.filter fun entry => entry.1 ∈ keep).map fun entry =>
    (entry.1, entry.2.filter (· ∈ keep))

/-- Depth in nodes along the longest chain, by relaxing the edges in topological order. -/
def longestPathDepth (order : List String) : Nat :=
  let relax (depth : Dict String Nat) (node : String) : Dict String Nat :=
    (successors.after node).foldl (fun depth target =>
      set depth target (max ((get? depth target).getD 1) ((get? depth node).getD 1 + 1))) depth
  ((order.foldl relax (successors.map fun entry => (entry.1, 1))).map (·.2)).foldl max 0

def reachableFrom (start : String) : List String :=
  let first := successors.after start
  Digraph.explore (fun _ => true) successors.after
    (Digraph.work successors.after (keys successors) first []) first.reverse []

end

section
variable (projection : ExecutionProjection)

def checkBounds (bounds : GraphStructureBudget) :
    List ProjectionProblem :=
  let version := toString bounds.budgetVersion
  let fanOut := projection.edges.foldl (fun count edge =>
    set count edge.source ((get? count edge.source).getD 0 + 1)) []
  let widest := (fanOut.map (·.2)).foldl max 0
  (if projection.nodes.length > bounds.maxNodes then
    [{ kind := .boundReached
       detail := render printable [.text "max_nodes: the projection has ",
        .text (toString projection.nodes.length), .text " nodes, the v", .text version,
        .text " budget allows ", .text (toString bounds.maxNodes)] }] else []) ++
  (if projection.edges.length > bounds.maxEdges then
    [{ kind := .boundReached
       detail := render printable [.text "max_edges: the projection has ",
        .text (toString projection.edges.length), .text " edges, the v", .text version,
        .text " budget allows ", .text (toString bounds.maxEdges)] }] else []) ++
  (if widest > bounds.maxFanOut then
    [{ kind := .boundReached
       detail := render printable [.text "max_fan_out: a node opens ", .text (toString widest),
        .text " successors, the v", .text version, .text " budget allows ",
        .text (toString bounds.maxFanOut)]
       nodes := sorted ((fanOut.filter fun entry => entry.2 > bounds.maxFanOut).map (·.1)) }]
  else [])

def checkDepth (successors : Adjacency) (order : List String) (bounds : GraphStructureBudget) :
    List ProjectionProblem :=
  let depth := longestPathDepth successors order
  if depth ≤ bounds.maxDepth then []
  else [{
    kind := .boundReached
    detail := render printable [.text "max_depth: the longest chain is ", .text (toString depth),
      .text " nodes, the v", .text (toString bounds.budgetVersion), .text " budget allows ",
      .text (toString bounds.maxDepth)] }]

def checkDangling : List ProjectionProblem :=
  projection.edges.flatMap fun edge =>
    ([edge.source, edge.target].filter (· ∉ projection.nodeIds)).map fun endpoint =>
      { kind := .danglingEndpoint
        detail := render printable [.text "edge ", .repr edge.origin, .text " names ",
          .repr endpoint, .text ", which is not a node of this projection"]
        nodes := [endpoint] }

def ExecutionProjection.joined (source target : String) : Bool :=
  projection.edges.any fun edge => edge.source = source ∧ edge.target = target

/-- One slot against the edges: opened by the entry and, when it gates, closing the exit. -/
def checkSlotWiring (id entry exit : String)
    (child : ChildBinding) : List ProjectionProblem :=
  if child.occurrenceId ∉ projection.projectedOccurrences then
    [{ kind := .missingEdge
       detail := render printable [.text "slot ", .repr child.slotKey, .text " under ", .repr id,
        .text " binds ", .repr child.occurrenceId,
        .text ", which the projection does not contain"] }]
  else
    match projection.entryNodeId? child.occurrenceId, projection.exitNodeId? child.occurrenceId with
    | some childEntry, some childExit =>
      (if projection.joined entry childEntry then [] else
        [{ kind := .missingEdge
           detail := render printable [.text "the entry gate of ", .repr id,
            .text " does not open slot ", .repr child.slotKey, .text " (",
            .repr child.occurrenceId, .text ")"]
           nodes := [entry, childEntry] }]) ++
      (if child.requiredness.gating && !projection.joined childExit exit then
        [{ kind := .missingEdge
           detail := render printable [.text "required slot ", .repr child.slotKey, .text " (",
            .repr child.occurrenceId, .text ") does not gate the exit of ", .repr id]
           nodes := [childExit, exit] }]
      else [])
    | _, _ => []

def checkWiringOf (id : OccurrenceId) :
    List ProjectionProblem :=
  let children := projection.snapshot.adoptedChildren id
  match projection.entryNodeId? id, projection.exitNodeId? id with
  | some entry, some exit =>
    if children.isEmpty then [] else
      (if children.any (·.requiredness.gating) then [] else
        [{ kind := .noGatingChildren
           detail := render printable [.text "the adopted method of ", .repr id, .text " has ",
            .text (toString children.length), .text (" slot(s), all optional: nothing the method " ++
              "produces has to be accepted before its exit opens. The compiler must mark a " ++
              "required slot or say explicitly that this boundary closes on entry")]
           nodes := [entry, exit] }]) ++
      children.flatMap (checkSlotWiring printable projection id entry exit)
  | _, _ => []

def checkRefinementWiring : List ProjectionProblem :=
  (sorted projection.projectedOccurrences).flatMap (checkWiringOf printable projection) ++
  projection.unprojectedEndpoints.map fun item =>
    { kind := .missingEdge
      detail := render printable [.text item.1, .text " names occurrence ", .repr item.2,
        .text ", which the adopted plan does not project"] }

/-- One method may not fill two of its own positions with the same occurrence. -/
def checkDuplicateSlots (network : TaskNetwork) : List ProjectionProblem :=
  (sortedBy (·.instanceId) network.methodInstances).flatMap fun draft =>
    if network.isAdopted draft.instanceId then
      (sorted (draft.childBindings.map (·.occurrenceId)).dedup).flatMap fun id =>
        let slots := sorted ((draft.childBindings.filter (·.occurrenceId = id)).map (·.slotKey))
        if slots.length > 1 then
          [{ kind := .duplicateSlot
             detail := render printable [.text "method instance ", .repr draft.instanceId,
              .text " fills slots ", .text (join ", " slots), .text " with the same occurrence ",
              .repr id, .text ("; one method's positions are distinct work, not one handle " ++
                "reused")] }]
        else []
    else []

/-- The ports one data requirement names, where the plan projects its ends. -/
def checkRequirementPorts (requirement : DataRequirement) :
    List ProjectionProblem :=
  let declared (id : OccurrenceId) (ports : TaskSemanticBinding → List PortSpec) (port : String) :=
    ((projection.snapshot.bindingForOccurrence? id).map fun binding =>
      (ports binding).any (·.portKey = port)).getD true
  (if requirement.producerOccurrence ∈ projection.projectedOccurrences ∧
      declared requirement.producerOccurrence (·.outputPorts) requirement.outputPort = false then
    [{ kind := .unboundPort
       detail := render printable [.text "data requirement ", .repr requirement.requirementId,
        .text " reads output port ", .repr requirement.outputPort, .text ", which ",
        .repr requirement.producerOccurrence, .text " does not declare"] }] else []) ++
  (if requirement.consumerOccurrence ∈ projection.projectedOccurrences ∧
      declared requirement.consumerOccurrence (·.inputPorts) requirement.inputPort = false then
    [{ kind := .unboundPort
       detail := render printable [.text "data requirement ", .repr requirement.requirementId,
        .text " writes input port ", .repr requirement.inputPort, .text ", which ",
        .repr requirement.consumerOccurrence, .text " does not declare"] }] else [])

def checkInputPort (network : TaskNetwork) (id : OccurrenceId) (port : PortSpec) :
    List ProjectionProblem :=
  let requirements := sorted ((network.dataRequirements.filter fun requirement =>
    requirement.consumerOccurrence = id ∧ requirement.inputPort = port.portKey).map
      (·.requirementId))
  if requirements.isEmpty then
    if port.required then
      [{ kind := .unboundPort
         detail := render printable [.text "required input port ", .repr port.portKey,
          .text " of ", .repr id, .text " has no data requirement"] }]
    else []
  else if port.cardinality = .single ∧ requirements.length > 1 then
    [{ kind := .singlePortOverbound
       detail := render printable [.text "single-valued input port ", .repr port.portKey,
        .text " of ", .repr id, .text " has ", .text (toString requirements.length),
        .text " bindings (", .text (join ", " requirements), .text ")"] }]
  else []

def checkSetPortOrdering : List ProjectionProblem :=
  (sorted projection.projectedOccurrences).flatMap fun id =>
    (projection.snapshot.bindingForOccurrence? id).toList.flatMap fun binding =>
      [("input", binding.inputPorts), ("output", binding.outputPorts)].flatMap fun side =>
        (undeclaredSetPorts side.2).map fun port =>
          { kind := .setPortUnordered
            detail := render printable [.text "set ", .text side.1, .text " port ", .repr port,
              .text " of ", .repr id, .text (" declares no ordering; a set port defines its " ++
                "order, it is not last-writer-wins")] }

def checkPorts : List ProjectionProblem :=
  projection.snapshot.dataRequirements.flatMap (checkRequirementPorts printable projection) ++
  ((sorted projection.projectedOccurrences).flatMap fun id =>
    (projection.snapshot.bindingForOccurrence? id).toList.flatMap fun binding =>
      binding.inputPorts.flatMap
        (checkInputPort printable projection.snapshot.toTaskNetwork id)) ++
  checkSetPortOrdering printable projection

/-- A duty nobody plans for and an occurrence nobody adopted are two kinds of problem. -/
def checkOrphans : List ProjectionProblem :=
  let network := projection.snapshot.toTaskNetwork
  let covered := projection.projectedOccurrences.filterMap fun id =>
    (network.occurrence? id).map (·.obligationId)
  let held := network.methodInstances.flatMap fun draft =>
    draft.childBindings.map (·.occurrenceId)
  ((network.requiredObligations.filter (· ∉ covered)).map fun obligation =>
    { kind := .orphanObligation
      detail := render printable [.text "required obligation ", .repr obligation,
        .text " has no occurrence in the adopted plan"] }) ++
  ((network.occurrences.filter fun spec => spec.requiredness = .required ∧
      spec.occurrenceId ∉ projection.projectedOccurrences ∧ spec.occurrenceId ∉ held).map
    fun spec =>
      { kind := .unreachedRequiredOccurrence
        detail := render printable [.text "required occurrence ", .repr spec.occurrenceId,
          .text " belongs to no method instance at all, adopted or alternative"] })

def coveredCriteria (obligation : ObligationId) : List String :=
  (projection.snapshot.obligationCoverage.filter fun claim => claim.obligationId = obligation ∧
    claim.coveredBy.all (· ∈ projection.projectedOccurrences)).flatMap (·.criterionIds)

def uncovered (spec : OccurrenceSpec) : List String :=
  let wanted := ((projection.snapshot.bindingForTask? spec.taskId).map
    (·.goalSignature.coverageCriteria)).getD []
  sorted ((wanted.filter (· ∉ coveredCriteria projection spec.obligationId)).dedup)

def gapDetail (root : OccurrenceId) (missing : List String) (obligation : ObligationId) : String :=
  render printable [.text "root occurrence ", .repr root, .text " leaves criteria ",
    .text (join ", " missing), .text " of obligation ", .repr obligation, .text " uncovered"]

def checkRootCoverage : List ProjectionProblem :=
  projection.snapshot.rootOccurrenceIds.flatMap fun root =>
    (projection.snapshot.occurrence? root).toList.flatMap fun spec =>
      let missing := uncovered projection spec
      if missing.isEmpty then []
      else [{
        kind := .rootCoverageGap
        detail := gapDetail printable root missing spec.obligationId
        nodes := [root] }]

end

end Reporting

def resourceConflicts (left right : TaskSemanticBinding) : List (String × String) :=
  let keysOf (refs : List ResourceRef) := refs.map (·.key)
  (keysOf left.resourceWrites).filter (· ∈ keysOf right.resourceWrites) ++
  (keysOf left.resourceWrites).filter (· ∈ keysOf right.resourceReads) ++
  (keysOf right.resourceWrites).filter (· ∈ keysOf left.resourceReads)

namespace TaskNetwork
variable (network : TaskNetwork)

def parentsOf (id : OccurrenceId) : List OccurrenceId :=
  (network.methodInstances.filter fun draft => network.isAdopted draft.instanceId ∧
    id ∈ draft.childBindings.map (·.occurrenceId)).map (·.effectiveGoalOccurrenceId)

def ancestorsOf (id : OccurrenceId) : List OccurrenceId :=
  Digraph.explore (fun _ => true) network.parentsOf
    (Digraph.work network.parentsOf network.occurrenceIds (network.parentsOf id) [])
    (network.parentsOf id).reverse []

end TaskNetwork

def ordered (projection : ExecutionProjection) (successors : Adjacency)
    (first second : OccurrenceId) : Bool :=
  match projection.exitNodeId? first, projection.entryNodeId? second with
  | some source, some target =>
    source ∈ keys successors && target ∈ reachableFrom successors source
  | _, _ => false

def pairs {α : Type} : List α → List (α × α)
  | [] => []
  | a :: rest => rest.map (fun b => (a, b)) ++ pairs rest

/-- Whether two members of a bucket clash on its resource with no order between them. -/
def clash (projection : ExecutionProjection) (successors : Adjacency) (key : String × String)
    (pair : OccurrenceId × OccurrenceId) : Bool :=
  let network := projection.snapshot.toTaskNetwork
  match network.bindingForOccurrence? pair.1, network.bindingForOccurrence? pair.2 with
  | some left, some right =>
    pair.1 ≠ pair.2 && key ∈ resourceConflicts left right &&
      !(pair.2 ∈ network.ancestorsOf pair.1 || pair.1 ∈ network.ancestorsOf pair.2) &&
      !ordered projection successors pair.1 pair.2 && !ordered projection successors pair.2 pair.1
  | _, _ => false

/-- Every `(namespace, object)` a projected occurrence touches, with the occurrences, sorted. -/
def resourceBuckets (projection : ExecutionProjection) :
    List ((String × String) × List OccurrenceId) :=
  let touches := (sorted projection.projectedOccurrences).flatMap fun id =>
    (projection.snapshot.bindingForOccurrence? id).toList.flatMap fun binding =>
      (binding.resourceReads ++ binding.resourceWrites).map fun ref => (ref.key, id)
  let buckets := sortedByKeys (fun key => [key.1, key.2]) (touches.map (·.1)).dedup
  buckets.map fun key => (key, (touches.filter (·.1 = key)).map (·.2))

section Reporting
variable (printable : Char → Bool)

section
variable (projection : ExecutionProjection)

def checkResourceConflicts (successors : Adjacency) :
    List ProjectionProblem :=
  (resourceBuckets projection).flatMap fun bucket =>
    let found := (pairs bucket.2).filter (clash projection successors bucket.1)
    let listed := found.take maxConflictsPerResource
    let name := bucket.1.1 ++ "/" ++ bucket.1.2
    (listed.map fun pair =>
      { kind := .resourceConflict
        detail := render printable [.repr pair.1, .text " and ", .repr pair.2,
          .text " both touch ", .text name,
          .text " (at least one writes) with no ordering between them"] }) ++
    if found.length > listed.length then
      [{ kind := .boundReached
         detail := render printable [.text "resource_conflict listing: ", .text name,
          .text " has ", .text (toString found.length), .text " unordered pairs, ",
          .text (toString listed.length),
          .text " listed; the rest are real and unreported, not absent"] }]
    else []

def cycleProblems (successors : Adjacency)
    (placed remaining : List String) : List ProjectionProblem :=
  if remaining.isEmpty then []
  else
    let cycle := findCycle successors remaining
    [{ kind := .cycle
       detail := render printable [.text "the execution projection is not a DAG: ",
        .text (join " -> " cycle), .text " (", .text (toString remaining.length),
        .text " node(s) unordered)"]
       nodes := remaining
       path := cycle },
     { kind := .partialCheck
       detail := render printable [.text ("depth and resource-ordering were checked on the " ++
          "acyclic part only ("), .text (toString placed.length), .text " of ",
        .text (toString projection.nodes.length), .text " nodes); the ",
        .text (toString remaining.length),
        .text " node(s) inside or below the cycle were not"]
       nodes := remaining }]

/-- Check one compiled projection and report every class of defect. -/
def validateExecutionProjection (budget : GraphStructureBudget) :
    Except String ProjectionReport := do
  let successors := declaredSuccessors projection
  let (placed, remaining) ← kahnOrder printable successors
    (projection.nodes.map fun node => (node.nodeId, node.ordinal))
  let healthy := induced successors placed
  .ok {
    budgetVersion := budget.budgetVersion
    problems := sortedProblems
      (checkBounds printable projection budget ++ checkDangling printable projection ++
        cycleProblems printable projection successors placed remaining ++
        checkDepth printable healthy placed budget ++ checkRefinementWiring printable projection ++
        checkDuplicateSlots printable projection.snapshot.toTaskNetwork ++
        checkPorts printable projection ++ checkOrphans printable projection ++
        checkRootCoverage printable projection ++
        checkResourceConflicts printable projection healthy)
    topologicalOrder := if remaining.isEmpty then some placed else none }

end

section
variable (network : TaskNetwork)

/-- The offered instances of each refined occurrence, in the order of the instance ids. -/
def candidates : List (OccurrenceId × List MethodInstanceId) :=
  let drafts := sortedBy (·.instanceId) network.methodInstances
  (fromkeys (drafts.map (·.effectiveGoalOccurrenceId))).map fun goal =>
    (goal, (drafts.filter (·.effectiveGoalOccurrenceId = goal)).map (·.instanceId))

def baseChoice (offered : List MethodInstanceId) : MethodInstanceId :=
  ((offered.find? network.isAdopted).orElse fun _ => offered.head?).getD ""

/-- One instance for each refined occurrence: the base choice, then one swap at a time. -/
def configurations : List (String × List MethodInstanceId) :=
  let offers := candidates network
  let base := offers.map fun offer => (offer.1, baseChoice network offer.2)
  if offers.isEmpty then []
  else ("the adopted configuration", sorted (base.map (·.2))) ::
    offers.flatMap fun offer =>
      (offer.2.filter (· ≠ baseChoice network offer.2)).map fun alternative =>
        (render printable [.text "the configuration that refines ", .repr offer.1, .text " with ",
          .repr alternative], sorted ((set base offer.1 alternative).map (·.2)))

def refinementSuccessors (chosen : List MethodInstanceId) : Adjacency :=
  network.occurrenceIds.map fun id =>
    (id, (chosen.filterMap network.instance?).flatMap fun draft =>
      if draft.effectiveGoalOccurrenceId = id then draft.childBindings.map (·.occurrenceId) else [])

def checkConfiguration (configuration : String × List MethodInstanceId) :
    Except String (List ProjectionProblem) := do
  let successors := refinementSuccessors network configuration.2
  let (_, remaining) ← kahnOrder printable successors ((sorted (keys successors)).zipIdx)
  if remaining.isEmpty then .ok []
  else
    let cycle := findCycle successors remaining
    .ok [{
      kind := .cycle
      detail := render printable [.text ("instantiated refinement makes an occurrence its own " ++
        "ancestor under "), .text configuration.1, .text ": ", .text (join " -> " cycle)]
      nodes := remaining
      path := cycle }]

/-- No occurrence may be its own ancestor, whichever alternative one occurrence takes. -/
def validateRefinementAcyclic : Except String ProjectionReport := do
  let problems ← (configurations printable network).mapM (checkConfiguration printable network)
  .ok {
    budgetVersion := 1
    problems := sortedProblems problems.flatten
    topologicalOrder := none }

end

end Reporting

theorem least_mem {ι : Type} [LinearOrder ι] [Zero ι] {ordinals : Dict String ι}
    {ready : List String} {node : String}
    (found : least ordinals ready = some node) : node ∈ ready := by
  induction ready generalizing node with
  | nil => cases found
  | cons first rest ih =>
    simp only [least] at found
    split at found
    · cases found
      exact List.mem_cons_self
    · next other later =>
      split at found
      · cases found
        exact List.mem_cons_of_mem _ (ih later)
      · cases found
        exact List.mem_cons_self

theorem pop_perm {ι : Type} [LinearOrder ι] [Zero ι] {ordinals : Dict String ι}
    (ready : List String) (node : String) (rest : List String)
    (popped : pop ordinals ready = some (node, rest)) : ready.Perm (node :: rest) := by
  simp only [pop, Option.map_eq_some_iff, Prod.mk.injEq] at popped
  obtain ⟨first, found, rfl, rfl⟩ := popped
  exact List.perm_cons_erase (least_mem found)

theorem kahnOrder_acyclic {printable : Char → Bool} {successors : Adjacency}
    {ordinals : Dict String Nat} {placed : List String} (distinct : (keys successors).Nodup)
    (ok : kahnOrder printable successors ordinals = .ok (placed, [])) :
    Digraph.Acyclic fun a b => a ∈ keys successors ∧ b ∈ successors.after a := by
  simp only [kahnOrder, then_eq_ok, every_eq_ok, require_eq_ok] at ok
  obtain ⟨closed, ok⟩ := ok
  apply Kahn.acyclic_of_placed distinct closed (@pop_perm _ _ _ ordinals)
  split at ok
  · next all =>
    exact Kahn.subset_order_of_length distinct closed pop_perm (by simpa [keys] using all)
  · simp only [Except.ok.injEq, Prod.mk.injEq] at ok
    intro node known
    by_contra waiting
    have left : node ∈ sorted ((keys successors).filter (· ∉ Kahn.order successors.after
        (pop ordinals) (keys successors))) := by
      rw [mem_sorted]
      simpa [known] using waiting
    rw [ok.2] at left
    cases left

theorem keys_declaredSuccessors (projection : ExecutionProjection) :
    keys (declaredSuccessors projection) = projection.nodeIds := by
  simp [keys, declaredSuccessors, Function.comp_def]

theorem mem_declaredSuccessors {projection : ExecutionProjection}
    (distinct : projection.nodeIds.Nodup) {edge : ProjectionEdge} (inside : edge ∈ projection.edges)
    (source : edge.source ∈ projection.nodeIds) (target : edge.target ∈ projection.nodeIds) :
    edge.target ∈ (declaredSuccessors projection).after edge.source := by
  have entry : (edge.source, (projection.edges.filter fun other =>
      other.source = edge.source ∧ other.target ∈ projection.nodeIds).map (·.target)) ∈
      declaredSuccessors projection := List.mem_map_of_mem source
  have found := get?_eq_some_of_mem (by rwa [keys_declaredSuccessors]) entry
  rw [Adjacency.after, found, Option.getD_some, List.mem_map]
  exact ⟨edge, by simp [inside, target], rfl⟩

section Reports
variable {printable : Char → Bool} {projection : ExecutionProjection}
  {budget : GraphStructureBudget} {report : ProjectionReport}

theorem mem_sortedProblems {problems : List ProjectionProblem} {problem : ProjectionProblem} :
    problem ∈ sortedProblems problems ↔ problem ∈ problems :=
  mem_sortedByKeys _ _ _

theorem isDag_of_report (distinct : projection.nodeIds.Nodup)
    (ok : validateExecutionProjection printable projection budget = .ok report)
    (clean : ∀ problem ∈ report.problems,
      problem.kind ≠ .cycle ∧ problem.kind ≠ .danglingEndpoint) : projection.IsDag := by
  unfold validateExecutionProjection at ok
  obtain ⟨⟨placed, remaining⟩, sorts, ok⟩ := bind_eq_ok.mp ok
  cases ok
  have none : remaining = [] := by
    by_contra left
    obtain ⟨node, rest, rfl⟩ := List.exists_cons_of_ne_nil left
    have cyclic : ∃ problem ∈ cycleProblems printable projection (declaredSuccessors projection)
        placed (node :: rest), problem.kind = .cycle := ⟨_, List.mem_cons_self, rfl⟩
    obtain ⟨problem, listed, kind⟩ := cyclic
    refine (clean problem ?_).1 kind
    rw [mem_sortedProblems]
    simp [listed]
  subst none
  have declared : ∀ edge ∈ projection.edges,
      edge.source ∈ projection.nodeIds ∧ edge.target ∈ projection.nodeIds := by
    intro edge inside
    by_contra loose
    have some : ∃ endpoint ∈ [edge.source, edge.target], endpoint ∉ projection.nodeIds := by
      by_contra all
      simp only [List.mem_cons, List.not_mem_nil, or_false, exists_eq_or_imp, exists_eq_left,
        not_or, not_not] at all
      exact loose all
    obtain ⟨endpoint, side, absent⟩ := some
    have dangling : ∃ problem ∈ checkDangling printable projection,
        problem.kind = .danglingEndpoint := by
      refine ⟨_, List.mem_flatMap.mpr ⟨edge, inside, List.mem_map.mpr ⟨endpoint, ?_, rfl⟩⟩, rfl⟩
      simpa [absent] using side
    obtain ⟨problem, listed, kind⟩ := dangling
    refine (clean problem ?_).2 kind
    rw [mem_sortedProblems]
    simp [listed]
  have acyclic := kahnOrder_acyclic (by rwa [keys_declaredSuccessors]) sorts
  have followed : ∀ a b, projection.Edge a b →
      a ∈ keys (declaredSuccessors projection) ∧ b ∈ (declaredSuccessors projection).after a := by
    rintro _ _ ⟨edge, inside, rfl, rfl⟩
    rw [keys_declaredSuccessors]
    exact ⟨(declared edge inside).1,
      mem_declaredSuccessors distinct inside (declared edge inside).1 (declared edge inside).2⟩
  intro node cycle
  exact acyclic node (Relation.TransGen.mono followed _ _ cycle)

theorem unprojected_reported
    (ok : validateExecutionProjection printable projection budget = .ok report)
    {item : String × OccurrenceId} (inside : item ∈ projection.unprojectedEndpoints) :
    ∃ problem ∈ report.problems, problem.kind = .missingEdge := by
  unfold validateExecutionProjection at ok
  obtain ⟨_, _, ok⟩ := bind_eq_ok.mp ok
  cases ok
  have listed : ∃ problem ∈ checkRefinementWiring printable projection,
      problem.kind = .missingEdge :=
    ⟨_, List.mem_append_right _ (List.mem_map_of_mem inside), rfl⟩
  obtain ⟨problem, listed, kind⟩ := listed
  refine ⟨problem, ?_, kind⟩
  rw [mem_sortedProblems]
  simp [listed]

def rootGap (printable : Char → Bool) (projection : ExecutionProjection) (root : OccurrenceId)
    (spec : OccurrenceSpec) : ProjectionProblem where
  kind := .rootCoverageGap
  detail := gapDetail printable root (uncovered projection spec) spec.obligationId
  nodes := [root]

theorem rootGap_reported
    (ok : validateExecutionProjection printable projection budget = .ok report)
    {root : OccurrenceId} {spec : OccurrenceSpec}
    (inside : root ∈ projection.snapshot.rootOccurrenceIds)
    (found : projection.snapshot.occurrence? root = some spec)
    (missing : uncovered projection spec ≠ []) :
    rootGap printable projection root spec ∈ report.problems := by
  unfold validateExecutionProjection at ok
  obtain ⟨_, _, ok⟩ := bind_eq_ok.mp ok
  cases ok
  have listed : rootGap printable projection root spec ∈ checkRootCoverage printable projection := by
    rw [checkRootCoverage, List.mem_flatMap]
    refine ⟨root, inside, ?_⟩
    simp [found, missing, rootGap]
  rw [mem_sortedProblems]
  simp [listed]

end Reports

end Network
