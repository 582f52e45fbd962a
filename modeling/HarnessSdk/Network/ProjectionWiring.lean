import HarnessSdk.Network.ProjectionChecks

/-! The compiler and the checker of a projection against each other. The checker derives the edges
it wants from the adopted slots; the compiler has drawn every one of them. -/
namespace Network
open PyDict PyText Checks

def unprojectedProblem (printable : Char → Bool) (item : String × OccurrenceId) :
    ProjectionProblem where
  kind := .missingEdge
  detail := render printable [.text item.1, .text " names occurrence ", .repr item.2,
    .text ", which the adopted plan does not project"]

section Kinds
variable {printable : Char → Bool} {projection : ExecutionProjection}
  {budget : GraphStructureBudget} {problem : ProjectionProblem}

theorem checkBounds_kind (inside : problem ∈ checkBounds printable projection budget) :
    problem.kind = .boundReached := by
  unfold checkBounds at inside
  simp only [List.mem_append] at inside
  rcases inside with (nodes | edges) | fan
  · split at nodes <;> simp at nodes
    rw [nodes]
  · split at edges <;> simp at edges
    rw [edges]
  · split at fan <;> simp at fan
    rw [fan]

variable {successors : Adjacency} {network : TaskNetwork}

theorem checkDepth_kind {order : List String}
    (inside : problem ∈ checkDepth printable successors order budget) :
    problem.kind = .boundReached := by
  unfold checkDepth at inside
  dsimp only at inside
  split at inside <;> simp at inside
  rw [inside]

theorem cycleProblems_kind {placed remaining : List String}
    (inside : problem ∈ cycleProblems printable projection successors placed remaining) :
    problem.kind = .cycle ∨ problem.kind = .partialCheck := by
  unfold cycleProblems at inside
  split at inside <;> simp at inside
  rcases inside with rfl | rfl
  · exact Or.inl rfl
  · exact Or.inr rfl

theorem checkDuplicateSlots_kind (inside : problem ∈ checkDuplicateSlots printable network) :
    problem.kind = .duplicateSlot := by
  unfold checkDuplicateSlots at inside
  obtain ⟨draft, _, inside⟩ := List.mem_flatMap.mp inside
  split at inside
  · obtain ⟨id, _, inside⟩ := List.mem_flatMap.mp inside
    dsimp only at inside
    split at inside <;> simp at inside
    rw [inside]
  · simp at inside

theorem checkRequirementPorts_kind {requirement : DataRequirement}
    (inside : problem ∈ checkRequirementPorts printable projection requirement) :
    problem.kind = .unboundPort := by
  unfold checkRequirementPorts at inside
  rcases List.mem_append.mp inside with reads | writes
  · split at reads <;> simp at reads
    rw [reads]
  · split at writes <;> simp at writes
    rw [writes]

theorem checkInputPort_kind {id : OccurrenceId} {port : PortSpec}
    (inside : problem ∈ checkInputPort printable network id port) :
    problem.kind = .unboundPort ∨ problem.kind = .singlePortOverbound := by
  unfold checkInputPort at inside
  dsimp only at inside
  split at inside
  · split at inside <;> simp at inside
    exact Or.inl (by rw [inside])
  · split at inside <;> simp at inside
    exact Or.inr (by rw [inside])

theorem checkSetPortOrdering_kind
    (inside : problem ∈ checkSetPortOrdering printable projection) :
    problem.kind = .setPortUnordered := by
  unfold checkSetPortOrdering at inside
  obtain ⟨id, _, inside⟩ := List.mem_flatMap.mp inside
  obtain ⟨binding, _, inside⟩ := List.mem_flatMap.mp inside
  obtain ⟨side, _, inside⟩ := List.mem_flatMap.mp inside
  obtain ⟨port, _, rfl⟩ := List.mem_map.mp inside
  rfl

theorem checkPorts_kind (inside : problem ∈ checkPorts printable projection) :
    problem.kind ∈ [ProblemKind.unboundPort, .singlePortOverbound, .setPortUnordered] := by
  unfold checkPorts at inside
  rcases List.mem_append.mp inside with bound | ordering
  · rcases List.mem_append.mp bound with data | input
    · obtain ⟨requirement, _, inside⟩ := List.mem_flatMap.mp data
      simp [checkRequirementPorts_kind inside]
    · obtain ⟨id, _, inside⟩ := List.mem_flatMap.mp input
      obtain ⟨binding, _, inside⟩ := List.mem_flatMap.mp inside
      obtain ⟨port, _, inside⟩ := List.mem_flatMap.mp inside
      rcases checkInputPort_kind inside with kind | kind <;> simp [kind]
  · simp [checkSetPortOrdering_kind ordering]

theorem checkOrphans_kind (inside : problem ∈ checkOrphans printable projection) :
    problem.kind = .orphanObligation ∨ problem.kind = .unreachedRequiredOccurrence := by
  unfold checkOrphans at inside
  rcases List.mem_append.mp inside with duty | place
  · obtain ⟨obligation, _, rfl⟩ := List.mem_map.mp duty
    exact Or.inl rfl
  · obtain ⟨spec, _, rfl⟩ := List.mem_map.mp place
    exact Or.inr rfl

theorem checkRootCoverage_kind (inside : problem ∈ checkRootCoverage printable projection) :
    problem.kind = .rootCoverageGap := by
  unfold checkRootCoverage at inside
  obtain ⟨root, _, inside⟩ := List.mem_flatMap.mp inside
  obtain ⟨spec, _, inside⟩ := List.mem_flatMap.mp inside
  dsimp only at inside
  split at inside <;> simp at inside
  rw [inside]

theorem checkResourceConflicts_kind
    (inside : problem ∈ checkResourceConflicts printable projection successors) :
    problem.kind = .resourceConflict ∨ problem.kind = .boundReached := by
  unfold checkResourceConflicts at inside
  obtain ⟨bucket, _, inside⟩ := List.mem_flatMap.mp inside
  dsimp only at inside
  rcases List.mem_append.mp inside with listed | rest
  · obtain ⟨pair, _, rfl⟩ := List.mem_map.mp listed
    exact Or.inl rfl
  · split at rest <;> simp at rest
    exact Or.inr (by rw [rest])

theorem edgeProblem_source {report : ProjectionReport}
    (ok : validateExecutionProjection printable projection budget = .ok report)
    (inside : problem ∈ report.problems)
    (edge : problem.kind = .danglingEndpoint ∨ problem.kind = .missingEdge) :
    problem ∈ checkDangling printable projection ∨
      problem ∈ checkRefinementWiring printable projection := by
  unfold validateExecutionProjection at ok
  obtain ⟨_, _, ok⟩ := bind_eq_ok.mp ok
  cases ok
  rw [mem_sortedProblems] at inside
  simp only [List.mem_append] at inside
  rcases inside with ((((((((bounds | dangling) | cycle) | depth) | wiring) | duplicate) | ports) |
    orphans) | root) | conflicts
  · simp [checkBounds_kind bounds] at edge
  · exact Or.inl dangling
  · rcases cycleProblems_kind cycle with kind | kind <;> simp [kind] at edge
  · simp [checkDepth_kind depth] at edge
  · exact Or.inr wiring
  · simp [checkDuplicateSlots_kind duplicate] at edge
  · have kinds := checkPorts_kind ports
    simp only [List.mem_cons, List.not_mem_nil, or_false] at kinds
    rcases kinds with kind | kind | kind <;> simp [kind] at edge
  · rcases checkOrphans_kind orphans with kind | kind <;> simp [kind] at edge
  · simp [checkRootCoverage_kind root] at edge
  · rcases checkResourceConflicts_kind conflicts with kind | kind <;> simp [kind] at edge

end Kinds

variable {projection : ExecutionProjection} (printable : Char → Bool)

theorem kahnOrder_sorts {successors : Adjacency} (ordinals : Dict String Nat)
    (closed : ∀ node ∈ keys successors, ∀ target ∈ successors.after node, target ∈ keys
      successors) :
    ∃ placed remaining, kahnOrder printable successors ordinals = .ok (placed, remaining) := by
  simp only [kahnOrder, then_eq_ok, every_eq_ok, require_eq_ok]
  by_cases all : (Kahn.order successors.after (pop ordinals) (keys successors)).length =
      successors.length
  · exact ⟨_, _, closed, if_pos all⟩
  · exact ⟨_, _, closed, if_neg all⟩

theorem mem_after_declared (distinct : projection.nodeIds.Nodup) {node target : String}
    (known : node ∈ projection.nodeIds)
    (follows : target ∈ (declaredSuccessors projection).after node) :
    ∃ edge ∈ projection.edges, edge.source = node ∧ edge.target = target ∧
      target ∈ projection.nodeIds := by
  have entry : (node, (projection.edges.filter fun edge =>
      edge.source = node ∧ edge.target ∈ projection.nodeIds).map (·.target)) ∈
      declaredSuccessors projection := List.mem_map_of_mem known
  have found := get?_eq_some_of_mem (by rwa [keys_declaredSuccessors]) entry
  rw [Adjacency.after, found, Option.getD_some, List.mem_map] at follows
  obtain ⟨edge, kept, rfl⟩ := follows
  simp only [List.mem_filter, decide_eq_true_eq] at kept
  exact ⟨edge, kept.1, kept.2.1, rfl, kept.2.2⟩

theorem declaredSuccessors_closed (distinct : projection.nodeIds.Nodup) {node target : String}
    (known : node ∈ keys (declaredSuccessors projection))
    (follows : target ∈ (declaredSuccessors projection).after node) :
    target ∈ keys (declaredSuccessors projection) := by
  rw [keys_declaredSuccessors] at known ⊢
  obtain ⟨_, _, _, _, declared⟩ := mem_after_declared distinct known follows
  exact declared

theorem validate_reports (budget : GraphStructureBudget) (distinct : projection.nodeIds.Nodup) :
    ∃ report, validateExecutionProjection printable projection budget = .ok report := by
  obtain ⟨placed, remaining, sorts⟩ := kahnOrder_sorts printable
    (projection.nodes.map fun node => (node.nodeId, node.ordinal))
    fun _ known _ follows => declaredSuccessors_closed distinct known follows
  simp only [validateExecutionProjection, bind_eq_ok]
  exact ⟨_, _, sorts, rfl⟩

namespace Projects
variable {snapshot : TaskNetworkSnapshot} {projection : ExecutionProjection}
  (projects : Projects snapshot projection)
include projects

variable {id : OccurrenceId} {child : ChildBinding} {problem : ProjectionProblem}

theorem gate_declared (reached : id ∈ snapshot.reachableOccurrences) :
    snapshot.entryId id ∈ projection.nodeIds ∧ snapshot.exitId id ∈ projection.nodeIds := by
  obtain ⟨spec, found⟩ := TaskNetwork.reachable_known reached
  rw [ExecutionProjection.nodeIds, projects.nodes]
  constructor
  · obtain ⟨node, inside, named, _⟩ := TaskNetwork.node_compiled reached found
      ((TaskNetwork.mem_rawNodes found).mpr (Or.inl ⟨by split <;> decide, rfl, rfl⟩))
    exact List.mem_map.mpr ⟨node, inside, named⟩
  · obtain ⟨node, inside, named, _⟩ := TaskNetwork.node_compiled reached found
      ((TaskNetwork.mem_rawNodes found).mpr (Or.inr ⟨by split <;> decide, rfl, rfl⟩))
    exact List.mem_map.mpr ⟨node, inside, named⟩

theorem ends_declared {edge : ProjectionEdge} (inside : edge ∈ projection.edges) :
    edge.source ∈ projection.nodeIds ∧ edge.target ∈ projection.nodeIds := by
  cases (projects.edges edge).mp inside with
  | refining reached refining =>
    have here := projects.gate_declared reached
    cases refining with
    | span _ _ => exact here
    | opens listed =>
      have below := TaskNetwork.Opens.reachable snapshot.consistent ⟨_, listed, rfl⟩ reached
      exact ⟨here.1, (projects.gate_declared below).1⟩
    | closes listed _ =>
      have below := TaskNetwork.Opens.reachable snapshot.consistent ⟨_, listed, rfl⟩ reached
      exact ⟨(projects.gate_declared below).2, here.2⟩
  | order _ before after =>
    exact ⟨(projects.gate_declared before).2, (projects.gate_declared after).1⟩
  | data _ producer consumer =>
    exact ⟨(projects.gate_declared producer).2, (projects.gate_declared consumer).1⟩

theorem checkDangling_nil (printable : Char → Bool) : checkDangling printable projection = [] := by
  rw [checkDangling, List.flatMap_eq_nil_iff]
  intro edge inside
  simp [projects.ends_declared inside]

theorem joined_open (reached : id ∈ snapshot.reachableOccurrences)
    (listed : child ∈ snapshot.adoptedChildren id) :
    projection.joined (snapshot.entryId id) (snapshot.entryId child.occurrenceId) = true := by
  have drawn := (projects.edges _).mpr (.refining reached (.opens listed))
  simp only [ExecutionProjection.joined, List.any_eq_true]
  exact ⟨_, drawn, by simp [TaskNetwork.openEdge]⟩

theorem joined_close (reached : id ∈ snapshot.reachableOccurrences)
    (listed : child ∈ snapshot.adoptedChildren id) (gating : child.requiredness.gating = true) :
    projection.joined (snapshot.exitId child.occurrenceId) (snapshot.exitId id) = true := by
  have drawn := (projects.edges _).mpr (.refining reached (.closes listed gating))
  simp only [ExecutionProjection.joined, List.any_eq_true]
  exact ⟨_, drawn, by simp [TaskNetwork.closeEdge]⟩

theorem checkSlotWiring_nil (printable : Char → Bool)
    (reached : id ∈ snapshot.reachableOccurrences) (listed : child ∈ snapshot.adoptedChildren id) :
    checkSlotWiring printable projection id (snapshot.entryId id) (snapshot.exitId id) child =
      [] := by
  have below := TaskNetwork.Opens.reachable snapshot.consistent ⟨child, listed, rfl⟩ reached
  have opened := projects.joined_open reached listed
  rw [checkSlotWiring, if_neg (by simpa [projects.projected] using below),
    projects.entry_eq below, projects.exit_eq below]
  cases gating : child.requiredness.gating with
  | true =>
    have closed := projects.joined_close reached listed gating
    simp [opened, closed]
  | false => simp [opened]

theorem checkWiringOf_kind (printable : Char → Bool)
    (reached : id ∈ snapshot.reachableOccurrences)
    (inside : problem ∈ checkWiringOf printable projection id) :
    problem.kind = .noGatingChildren := by
  have slots : (snapshot.adoptedChildren id).flatMap (checkSlotWiring printable projection id
      (snapshot.entryId id) (snapshot.exitId id)) = [] := by
    rw [List.flatMap_eq_nil_iff]
    exact fun child listed => projects.checkSlotWiring_nil printable reached listed
  simp only [checkWiringOf, projects.network, projects.entry_eq reached, projects.exit_eq reached,
    slots, List.append_nil] at inside
  split at inside
  · simp at inside
  · split at inside <;> simp at inside
    rw [inside]

theorem checkRefinementWiring_source (printable : Char → Bool)
    (inside : problem ∈ checkRefinementWiring printable projection) :
    problem.kind = .noGatingChildren ∨
      ∃ item ∈ snapshot.unprojectedEndpoints snapshot.reachableOccurrences,
        problem = unprojectedProblem printable item := by
  rcases List.mem_append.mp inside with wiring | endpoint
  · obtain ⟨id, projected, inside⟩ := List.mem_flatMap.mp wiring
    rw [mem_sorted, projects.projected] at projected
    exact Or.inl (projects.checkWiringOf_kind printable projected inside)
  · obtain ⟨item, listed, rfl⟩ := List.mem_map.mp endpoint
    exact Or.inr ⟨item, (projects.unprojected item).mp listed, rfl⟩

theorem edgeProblem_unprojected {printable : Char → Bool} {budget : GraphStructureBudget}
    {report : ProjectionReport}
    (ok : validateExecutionProjection printable projection budget = .ok report)
    (inside : problem ∈ report.problems)
    (edge : problem.kind = .danglingEndpoint ∨ problem.kind = .missingEdge) :
    ∃ item ∈ snapshot.unprojectedEndpoints snapshot.reachableOccurrences,
      problem = unprojectedProblem printable item := by
  rcases edgeProblem_source ok inside edge with loose | wiring
  · simp [projects.checkDangling_nil printable] at loose
  · rcases projects.checkRefinementWiring_source printable wiring with gates | endpoint
    · simp [gates] at edge
    · exact endpoint

end Projects

namespace TaskNetwork
variable (network : TaskNetwork)

/-- An ORDER constraint with an end that the adopted plan does not reach, and the label it is
reported under. -/
def UnreachedOrder (item : String × OccurrenceId) : Prop :=
  ∃ constraint ∈ network.orderConstraints, item.1 = orderLabel constraint ∧
    (item.2 = constraint.before ∨ item.2 = constraint.after) ∧
      item.2 ∉ network.reachableOccurrences

def UnreachedData (item : String × OccurrenceId) : Prop :=
  ∃ requirement ∈ network.dataRequirements, item.1 = dataLabel requirement ∧
    (item.2 = requirement.producerOccurrence ∨ item.2 = requirement.consumerOccurrence) ∧
      item.2 ∉ network.reachableOccurrences

theorem mem_unprojectedEndpoints (item : String × OccurrenceId) :
    item ∈ network.unprojectedEndpoints network.reachableOccurrences ↔
      network.UnreachedOrder item ∨ network.UnreachedData item := by
  have side (label : String) (first second : OccurrenceId) :
      item ∈ unprojected network.reachableOccurrences label first second ↔
        item.1 = label ∧ (item.2 = first ∨ item.2 = second) ∧
          item.2 ∉ network.reachableOccurrences := by
    obtain ⟨name, endpoint⟩ := item
    simp only [unprojected, List.mem_map, List.mem_filter, List.mem_cons, List.not_mem_nil,
      or_false, decide_eq_true_eq, Prod.mk.injEq]
    constructor
    · rintro ⟨_, ⟨here, outside⟩, rfl, rfl⟩
      exact ⟨rfl, here, outside⟩
    · rintro ⟨rfl, here, outside⟩
      exact ⟨endpoint, ⟨here, outside⟩, rfl, rfl⟩
  simp only [unprojectedEndpoints, List.mem_append, List.mem_flatMap, side, UnreachedOrder,
    UnreachedData]

end TaskNetwork

/-- The checker runs on every compiled projection. It finds no dangling edge and every edge of an
adopted slot, so a missing edge is an endpoint the adopted plan does not reach. -/
theorem projection_wiring_agrees (printable : Char → Bool) (snapshot : TaskNetworkSnapshot)
    (budget : GraphStructureBudget) :
    ∃ projection report, snapshot.executionProjection = some projection ∧
      validateExecutionProjection printable projection budget = .ok report ∧
      ∀ problem ∈ report.problems, problem.kind ≠ .danglingEndpoint ∧
        (problem.kind = .missingEdge → ∃ item,
          (snapshot.UnreachedOrder item ∨ snapshot.UnreachedData item) ∧
            problem = unprojectedProblem printable item) := by
  obtain ⟨projection, compiled, projects⟩ := executionProjection_projects snapshot
  obtain ⟨report, ok⟩ := validate_reports printable budget projects.nodesDistinct.1
  refine ⟨projection, report, compiled, ok, ?_⟩
  intro problem inside
  constructor
  · intro dangling
    obtain ⟨item, _, same⟩ := projects.edgeProblem_unprojected ok inside (Or.inl dangling)
    rw [same] at dangling
    cases dangling
  · intro missing
    obtain ⟨item, listed, same⟩ := projects.edgeProblem_unprojected ok inside (Or.inr missing)
    exact ⟨item, (snapshot.mem_unprojectedEndpoints item).mp listed, same⟩

end Network
