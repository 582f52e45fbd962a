import HarnessSdk.Network.Snapshot
import HarnessSdk.Library.Digraph

/-! The completion-dependency graph of the adopted plan. A compound occurrence becomes an entry and
an exit gate, a primitive one a single node. -/
namespace Network
open PyDict PyText

inductive ProjectionNodeKind
  | occurrence
  | compoundEntry
  | compoundExit
deriving DecidableEq

inductive ProjectionEdgeKind
  | refinementOpen
  | refinementClose
  | compoundSpan
  | order
  | data
deriving DecidableEq

def ProjectionEdgeKind.text : ProjectionEdgeKind → String
  | .refinementOpen => "refinement_open"
  | .refinementClose => "refinement_close"
  | .compoundSpan => "compound_span"
  | .order => "order"
  | .data => "data"

/-- The length before the id keeps free-form ids apart. -/
def nodeId (occurrence suffix : String) : String :=
  toString occurrence.length ++ ":" ++ (occurrence ++ ":" ++ suffix)

structure ProjectionNode where
  nodeId : String
  kind : ProjectionNodeKind
  occurrenceId : OccurrenceId
  taskId : TaskRef
  obligationId : ObligationId
  ordinal : Nat
  billable : Bool
deriving DecidableEq

structure ProjectionEdge where
  source : String
  target : String
  kind : ProjectionEdgeKind
  origin : String
deriving DecidableEq

structure ExecutionProjection where
  snapshot : TaskNetworkSnapshot
  nodes : List ProjectionNode
  edges : List ProjectionEdge
  projectedOccurrences : List OccurrenceId
  unprojectedEndpoints : List (String × OccurrenceId)

namespace ExecutionProjection
variable (projection : ExecutionProjection)

def nodeIds : List String := projection.nodes.map (·.nodeId)

def Edge (source target : String) : Prop :=
  ∃ edge ∈ projection.edges, edge.source = source ∧ edge.target = target

def IsDag : Prop := Digraph.Acyclic projection.Edge

end ExecutionProjection

namespace TaskNetwork
variable (network : TaskNetwork)

def childIds (id : OccurrenceId) : List OccurrenceId :=
  (network.adoptedChildren id).map (·.occurrenceId)

def reachableOccurrences : List OccurrenceId :=
  Digraph.explore (fun id => (network.occurrence? id).isSome) network.childIds
    (Digraph.work network.childIds network.occurrenceIds network.rootOccurrenceIds [])
    network.rootOccurrenceIds.reverse []

def rawNodes (spec : OccurrenceSpec) : List (String × ProjectionNodeKind × OccurrenceSpec) :=
  match spec.form with
  | .compound => [(nodeId spec.occurrenceId "entry", .compoundEntry, spec),
      (nodeId spec.occurrenceId "exit", .compoundExit, spec)]
  | .primitive => [(nodeId spec.occurrenceId "node", .occurrence, spec)]

def compileNodes (reachable : List OccurrenceId) : List ProjectionNode :=
  let raw := reachable.flatMap fun id => (network.occurrence? id).toList.flatMap rawNodes
  (sortedBy Prod.fst raw).zipIdx.map fun item =>
    { nodeId := item.1.1
      kind := item.1.2.1
      occurrenceId := item.1.2.2.occurrenceId
      taskId := item.1.2.2.taskId
      obligationId := item.1.2.2.obligationId
      ordinal := item.2
      billable := item.1.2.1 == .occurrence }

end TaskNetwork

/-- The node that opens each occurrence; an exit gate opens nothing. -/
def entryOf (nodes : List ProjectionNode) : Dict OccurrenceId String :=
  ofEntries ((nodes.filter fun node => node.kind ≠ .compoundExit).map fun node =>
    (node.occurrenceId, node.nodeId))

def exitOf (nodes : List ProjectionNode) : Dict OccurrenceId String :=
  ofEntries ((nodes.filter fun node => node.kind ≠ .compoundEntry).map fun node =>
    (node.occurrenceId, node.nodeId))

namespace TaskNetwork
variable (network : TaskNetwork) (entry exit : Dict OccurrenceId String)

/-- An edge between two gates; `none` is the missing key of a lookup. -/
def gateEdge (source : Option String) (target : Option String) (kind : ProjectionEdgeKind)
    (origin : String) : Option ProjectionEdge := do
  let source ← source
  let target ← target
  some { source := source, target := target, kind := kind, origin := origin }

def childEdges (id : OccurrenceId) (child : ChildBinding) : Option (List ProjectionEdge) := do
  let opens ← gateEdge (get? entry id) (get? entry child.occurrenceId) .refinementOpen
    ("slot:" ++ child.slotKey)
  if child.requiredness.gating then
    let closes ← gateEdge (get? exit child.occurrenceId) (get? exit id) .refinementClose
      ("slot:" ++ child.slotKey)
    some [opens, closes]
  else some [opens]

/-- Without a gating child the span keeps the exit behind the entry. -/
def spanEdges (id : OccurrenceId) (children : List ChildBinding) : Option (List ProjectionEdge) :=
  if (children.filter (·.requiredness.gating)).isEmpty then do
    let span ← gateEdge (get? entry id) (get? exit id) .compoundSpan
      ("span:" ++ id ++ ":" ++ if children.isEmpty then "unexpanded" else "no_gating_children")
    some [span]
  else some []

def refinementEdges (id : OccurrenceId) : Option (List ProjectionEdge) := do
  let spec ← network.occurrence? id
  match spec.form with
  | .primitive => some []
  | .compound =>
    let span ← spanEdges entry exit id (network.adoptedChildren id)
    let inner ← (network.adoptedChildren id).mapM (childEdges entry exit id)
    some (span ++ inner.flatten)

def orderLabel (constraint : OrderConstraint) : String :=
  "order:" ++ constraint.before ++ "->" ++ constraint.after

def dataLabel (requirement : DataRequirement) : String := "data:" ++ requirement.requirementId

variable (reachable : List OccurrenceId)

def unprojected (label : String) (first second : OccurrenceId) : List (String × OccurrenceId) :=
  ([first, second].filter fun endpoint => endpoint ∉ reachable).map fun endpoint =>
    (label, endpoint)

def orderEdges (constraint : OrderConstraint) : Option (List ProjectionEdge) :=
  if constraint.before ∈ reachable ∧ constraint.after ∈ reachable then do
    let edge ← gateEdge (get? exit constraint.before) (get? entry constraint.after) .order
      (orderLabel constraint ++ ":" ++ constraint.releaseCondition.text)
    some [edge]
  else some []

def dataEdges (requirement : DataRequirement) : Option (List ProjectionEdge) :=
  if requirement.producerOccurrence ∈ reachable ∧ requirement.consumerOccurrence ∈ reachable then do
    let edge ← gateEdge (get? exit requirement.producerOccurrence)
      (get? entry requirement.consumerOccurrence) .data (dataLabel requirement)
    some [edge]
  else some []

def compileEdges : Option (List ProjectionEdge) := do
  let refinement ← (sorted reachable).mapM (network.refinementEdges entry exit)
  let order ← network.orderConstraints.mapM (orderEdges entry exit reachable)
  let data ← network.dataRequirements.mapM (dataEdges entry exit reachable)
  some (refinement.flatten ++ order.flatten ++ data.flatten)

def unprojectedEndpoints : List (String × OccurrenceId) :=
  (network.orderConstraints.flatMap fun constraint =>
    unprojected reachable (orderLabel constraint) constraint.before constraint.after) ++
  network.dataRequirements.flatMap fun requirement =>
    unprojected reachable (dataLabel requirement) requirement.producerOccurrence
      requirement.consumerOccurrence

end TaskNetwork

def TaskNetworkSnapshot.executionProjection (snapshot : TaskNetworkSnapshot) :
    Option ExecutionProjection := do
  let reachable := snapshot.reachableOccurrences
  let nodes := snapshot.compileNodes reachable
  let edges ← snapshot.compileEdges (entryOf nodes) (exitOf nodes) reachable
  some {
    snapshot := snapshot
    nodes := nodes
    edges := sortedByKeys (fun edge => [edge.source, edge.target, edge.kind.text, edge.origin]) edges
    projectedOccurrences := reachable
    unprojectedEndpoints :=
      sortedByKeys (fun item => [item.1, item.2]) (snapshot.unprojectedEndpoints reachable) }

end Network
