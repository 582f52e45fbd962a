import HarnessSdk.Workflow.Json

/-! Workflow definitions, the checks that `compile_workflow` makes before accepting one, and the
lookups the engine makes on the accepted graph. -/
namespace Workflow
open PyDict PyText

def endNode : String := "__end__"

inductive NodeDispatch
  | single
  | parallel
deriving DecidableEq

inductive JsonType
  | json
  | string
  | integer
  | number
  | boolean
  | object
  | array
deriving DecidableEq

def JsonType.parse : String → Option JsonType
  | "json" => some .json
  | "string" => some .string
  | "integer" => some .integer
  | "number" => some .number
  | "boolean" => some .boolean
  | "object" => some .object
  | "array" => some .array
  | _ => none

def JsonType.value : JsonType → String
  | .json => "json"
  | .string => "string"
  | .integer => "integer"
  | .number => "number"
  | .boolean => "boolean"
  | .object => "object"
  | .array => "array"

inductive ReducerKind
  | singleWriter
  | dictDisjoint
  | stableList
deriving DecidableEq

def ReducerKind.parse : String → Option ReducerKind
  | "single_writer" => some .singleWriter
  | "dict_disjoint" => some .dictDisjoint
  | "stable_list" => some .stableList
  | _ => none

abbrev Checked := Except WorkflowDefinitionError

def definitionError {α : Type} (code : String) (message : List Fragment) : Checked α :=
  .error ⟨code, message⟩

def definitionErrorText {α : Type} (code message : String) : Checked α :=
  definitionError code [.text message]

structure RetryPolicy where
  maxAttempts : Nat
  retryableCodes : List String
  positive : 1 ≤ maxAttempts
deriving DecidableEq

def RetryPolicy.default : RetryPolicy := ⟨1, [], Nat.one_pos⟩

structure ChannelSpec where
  valueType : String
  reducer : String
  allowedWriters : List String
  itemIdKey : String
  hasWriter : allowedWriters ≠ []
  hasItemIdKey : itemIdKey ≠ ""

instance : DecidableEq ChannelSpec := fun a b =>
  decidable_of_iff (a.valueType = b.valueType ∧ a.reducer = b.reducer ∧
    a.allowedWriters = b.allowedWriters ∧ a.itemIdKey = b.itemIdKey) (by cases a; cases b; simp)

structure NodeFields where
  nodeId : String
  required : Bool := true
  retryPolicy : RetryPolicy := .default
  interruptCapable : Bool := false
  barrier : Bool := false
  exclusiveSuperstep : Bool := false
  dispatch : NodeDispatch := .single
  preInterruptEffectPolicy : Option String := none
deriving DecidableEq

def NodeFields.postInit (n : NodeFields) : Checked Unit := do
  if n.nodeId = "" ∨ n.nodeId = endNode then
    definitionError "invalid_node_id" [.text "Invalid workflow node id: ", .repr n.nodeId]
  if n.interruptCapable ∧ n.preInterruptEffectPolicy ≠ some "pure" then
    definitionErrorText "unsafe_interrupt_policy"
      s!"Interrupt-capable node {n.nodeId} must declare pure pre-interrupt work"
  if !n.interruptCapable ∧ n.preInterruptEffectPolicy ≠ none then
    definitionErrorText "unexpected_interrupt_policy"
      s!"Non-interrupt node {n.nodeId} may not declare pre-interrupt policy"

structure NodeDefinition extends NodeFields where
  valid : toNodeFields.postInit = .ok ()
deriving DecidableEq

structure EdgeFields where
  sources : List String
  target : String
deriving DecidableEq

def EdgeFields.postInit (e : EdgeFields) : Checked Unit := do
  if e.sources = [] ∨ "" ∈ e.sources then
    definitionErrorText "invalid_edge" "Edge source is required"
  if ¬ e.sources.Nodup then
    definitionErrorText "invalid_join_edge" "Join edge sources must be unique"
  if e.target = "" then
    definitionErrorText "invalid_edge" "Edge target is required"

structure Edge extends EdgeFields where
  valid : toEdgeFields.postInit = .ok ()
deriving DecidableEq

structure ConditionalFields where
  source : String
  routes : Dict String String
  selectorEffectPolicy : Option String := some "pure"
deriving DecidableEq

def ConditionalFields.postInit (c : ConditionalFields) : Checked Unit := do
  if c.source = "" ∨ c.routes = [] then
    definitionErrorText "invalid_conditional_edge"
      "Conditional edge requires a source, selector and routes"
  if ∃ route ∈ c.routes, route.1 = "" ∨ route.2 = "" then
    definitionErrorText "invalid_conditional_edge" "Conditional routes may not be empty"
  if c.selectorEffectPolicy ≠ some "pure" then
    definitionErrorText "unsafe_route_selector"
      s!"Conditional selector {c.source} must declare pure effects"

structure ConditionalEdge extends ConditionalFields where
  valid : toConditionalFields.postInit = .ok ()
  distinctRoutes : (keys routes).Nodup
deriving DecidableEq

inductive ToolAccess
  | read
  | write
deriving DecidableEq

inductive EffectKind
  | idempotentRead
  | deterministicReusable
  | stagedFile
  | opaqueManual
deriving DecidableEq

structure ToolInventoryEntry where
  name : String
  access : ToolAccess
  effectKind : Option EffectKind
  outcomeParser : List (Option String)
deriving DecidableEq

structure WorkflowDefinition where
  name : String
  version : String
  stateSchemaVersion : Int
  entryNode : String
  nodes : List NodeDefinition
  channels : Dict String ChannelSpec
  recursionLimit : Int
  maxSupersteps : Int
  edges : List Edge := []
  conditionalEdges : List ConditionalEdge := []
  loopBudgets : Dict String Int := []
  loopBudgetBindings : Dict String String := []
  toolManifest : List ToolInventoryEntry := []
  durability : String := "sync"

/-! ### Cycles and their budgets -/

abbrev Adjacency := Dict String (List String)

def Adjacency.targets (adjacency : Adjacency) (node : String) : List String :=
  (get? adjacency node).getD []

/-- The variables of `_strongly_connected_components`; `on_stack` is membership in `stack`,
whose top is the head. -/
structure Tarjan where
  index : Nat := 0
  indices : Dict String Nat := []
  lowlinks : Dict String Nat := []
  stack : List String := []
  result : List (List String) := []

def Tarjan.lower (s : Tarjan) (node : String) (bound : Option Nat) : Tarjan :=
  { s with
    lowlinks := set s.lowlinks node (min ((get? s.lowlinks node).getD 0) (bound.getD 0)) }

def Tarjan.push (s : Tarjan) (node : String) : Tarjan :=
  { s with
    indices := set s.indices node s.index
    lowlinks := set s.lowlinks node s.index
    index := s.index + 1
    stack := node :: s.stack }

def Tarjan.pop (s : Tarjan) (node : String) : Tarjan :=
  let above := s.stack.takeWhile (· ≠ node)
  { s with
    stack := s.stack.drop (above.length + 1)
    result := s.result ++ [above ++ [node]] }

/-- The depth of the recursion is bounded by the number of vertices, which is the fuel. -/
def Tarjan.visit (adjacency : Adjacency) : Nat → String → Tarjan → Tarjan
  | 0, _, s => s
  | fuel + 1, node, s =>
    let s := (sorted (adjacency.targets node)).foldl (fun s target =>
      if get? s.indices target = none then
        let s := visit adjacency fuel target s
        s.lower node (get? s.lowlinks target)
      else if target ∈ s.stack then s.lower node (get? s.indices target)
      else s) (s.push node)
    if get? s.lowlinks node ≠ get? s.indices node then s else s.pop node

def vertices (nodeIds : List String) (adjacency : Adjacency) : List String :=
  nodeIds ++ adjacency.flatMap Prod.snd

def stronglyConnectedComponents (nodeIds : List String) (adjacency : Adjacency) :
    List (List String) :=
  let fuel := (vertices nodeIds adjacency).length
  let s := (sorted nodeIds).foldl (fun s node =>
    if get? s.indices node = none then Tarjan.visit adjacency fuel node s else s) ({} : Tarjan)
  s.result.insertionSort (fun a b => sorted a ≤ sorted b)

abbrev EdgeKey := String × String

def internalEdges (component : List String) (adjacency : Adjacency) : List EdgeKey :=
  component.flatMap fun source =>
    ((adjacency.targets source).filter (· ∈ component)).map fun target => (source, target)

def isCyclic (adjacency : Adjacency) (component : List String) : Bool :=
  1 < component.length || component.any fun node => node ∈ adjacency.targets node

/-- One entry of `loop_budget_bindings` applied to the edges inside `component`. -/
def selectBinding (component : List String) (internal : List EdgeKey)
    (selected : Dict EdgeKey String) (key budget : String) : Dict EdgeKey String :=
  match splitArrow key with
  | some (source, target) =>
    if (strip source, strip target) ∈ internal then set selected (strip source, strip target) budget
    else selected
  | none =>
    if key ∈ component then
      (internal.filter fun edge => edge.2 = key).foldl (fun acc edge => set acc edge budget) selected
    else if key = join "," (sorted component) then
      internal.foldl (fun acc edge => set acc edge budget) selected
    else selected

def edgeKeyLe (a b : EdgeKey × String) : Bool :=
  a.1.1 < b.1.1 || (a.1.1 == b.1.1 && a.1.2 ≤ b.1.2)

def bindComponent (definition : WorkflowDefinition) (adjacency : Adjacency) (cyclicCount : Nat)
    (component : List String) : Checked (List (EdgeKey × String)) := do
  let canonicalKey := join "," (sorted component)
  let internal := internalEdges component adjacency
  let bound := definition.loopBudgetBindings.foldl
    (fun acc entry => selectBinding component internal acc entry.1 entry.2) []
  -- the compatibility rule for definitions with one loop and one budget
  let selected :=
    match bound, definition.loopBudgets with
    | [], [(budget, _)] =>
      if cyclicCount = 1 then
        let order := sorted component
        ofEntries ((internal.filter fun edge => order.idxOf edge.2 ≤ order.idxOf edge.1).map
          fun edge => (edge, budget))
      else []
    | _, _ => bound
  if selected = [] then
    definitionErrorText "unbudgeted_cycle"
      s!"Cyclic SCC {canonicalKey} requires explicit feedback-edge budget bindings"
  match selected.find? fun entry => (get? definition.loopBudgets entry.2).isNone with
  | some entry =>
    definitionErrorText "unknown_loop_budget_binding"
      s!"Cyclic SCC {canonicalKey} references unknown budget {entry.2}"
  | none => pure ()
  let remaining : Adjacency := component.map fun source =>
    (source, (adjacency.targets source).filter fun target =>
      target ∈ component ∧ get? selected (source, target) = none)
  if (stronglyConnectedComponents component remaining).any (isCyclic remaining) then
    definitionErrorText "unbudgeted_cycle"
      s!"Cyclic SCC {canonicalKey} contains a cycle without a bound feedback edge"
  pure (selected.insertionSort fun a b => edgeKeyLe a b)

def cycleBindings (definition : WorkflowDefinition) (adjacency : Adjacency) :
    Checked (List (EdgeKey × String)) := do
  let components :=
    stronglyConnectedComponents (definition.nodes.map fun node => node.nodeId) adjacency
  let cyclic := components.filter (isCyclic adjacency)
  let bindings ← cyclic.mapM (bindComponent definition adjacency cyclic.length)
  pure bindings.flatten

/-! ### The checks on a definition -/

section
variable (d : WorkflowDefinition)

def checkLimits : Checked Unit := do
  if d.name = "" ∨ d.version = "" then
    definitionErrorText "missing_workflow_identity" "Workflow name and version are required"
  if d.stateSchemaVersion < 1 then
    definitionErrorText "invalid_state_schema" "state_schema_version must be positive"
  if d.durability ≠ "sync" then
    definitionErrorText "unsafe_durability" "Durable workflows require sync durability"
  if d.recursionLimit < 1 ∨ d.maxSupersteps < 1 then
    definitionErrorText "invalid_recursion_limit" "recursion limits must be positive"
  if d.recursionLimit ≤ d.maxSupersteps then
    definitionErrorText "unsafe_recursion_limit"
      "recursion_limit must exceed the hard maximum supersteps"
  if ∃ budget ∈ d.loopBudgets, budget.1 = "" ∨ budget.2 < 1 then
    definitionErrorText "invalid_loop_budget" "Loop budgets must be named positive integers"
  if d.maxSupersteps < d.nodes.length + (d.loopBudgets.map Prod.snd).sum then
    definitionErrorText "unsafe_superstep_budget"
      "max_supersteps must cover all nodes and persisted loop budgets"

def nodeIds : List String := d.nodes.map fun node => node.nodeId

def checkNodes : Checked Unit := do
  let duplicates := sorted ((nodeIds d).filter fun id => 1 < (nodeIds d).count id).dedup
  if duplicates ≠ [] then
    definitionErrorText "duplicate_node" ("Duplicate nodes: " ++ join ", " duplicates)
  if d.entryNode = "" then
    definitionErrorText "missing_entry" "Workflow entry node is required"
  if d.entryNode ∉ nodeIds d then
    definitionError "missing_entry"
      [.text "Entry node ", .repr d.entryNode, .text " does not exist"]

def checkChannel (name : String) (spec : ChannelSpec) :
    Checked Unit := do
  if name = "" then definitionErrorText "invalid_channel" "Channel name is required"
  match JsonType.parse spec.valueType, ReducerKind.parse spec.reducer with
  | none, _ =>
    definitionErrorText "unknown_value_type" s!"Channel {name} has unknown JSON type"
  | some _, none =>
    definitionError "unknown_reducer"
      [.text s!"Channel {name} has unknown reducer ", .repr spec.reducer]
  | some valueType, some reducer =>
    let unknownWriters := sorted (spec.allowedWriters.filter (· ∉ nodeIds d)).dedup
    if unknownWriters ≠ [] then
      definitionErrorText "unknown_channel_writer"
        (s!"Channel {name} has unknown writers: " ++ join ", " unknownWriters)
    if reducer = .dictDisjoint ∧ valueType ≠ .object then
      definitionErrorText "reducer_type_mismatch" s!"Channel {name} dict reducer requires object"
    if reducer = .stableList ∧ valueType ≠ .array then
      definitionErrorText "reducer_type_mismatch" s!"Channel {name} list reducer requires array"

def reprSources : List String → List Fragment
  | [] => [.text "()"]
  | [s] => [.text "(", .repr s, .text ",)"]
  | s :: rest => .text "(" :: .repr s :: rest.flatMap (fun t => [.text ", ", .repr t]) ++ [.text ")"]

/-- `seen` are the edges checked before this one. -/
def checkEdge (seen : List Edge) (edge : Edge) : Checked Unit := do
  if ∃ other ∈ seen, other.sources = edge.sources ∧ other.target = edge.target then
    definitionError "duplicate_edge" ([.text "Duplicate edge: ("] ++ reprSources edge.sources ++
      [.text ", ", .repr edge.target, .text ")"])
  if (∃ source ∈ edge.sources, source ∉ nodeIds d) ∨
      (edge.target ≠ endNode ∧ edge.target ∉ nodeIds d) then
    definitionError "invalid_edge" ([.text "Edge references missing node: Edge(source="] ++
      reprSources edge.sources ++ [.text ", target=", .repr edge.target, .text ")"])

end

def checkEdges (d : WorkflowDefinition) : List Edge → List Edge → Checked Unit
  | _, [] => pure ()
  | seen, edge :: rest => do
    checkEdge d seen edge
    checkEdges d (seen ++ [edge]) rest

def checkConditional (d : WorkflowDefinition) (seen : List ConditionalEdge)
    (edge : ConditionalEdge) : Checked Unit := do
  if edge.source ∉ nodeIds d then
    definitionError "invalid_edge"
      [.text "Conditional source ", .repr edge.source, .text " does not exist"]
  if ∃ other ∈ seen, other.source = edge.source then
    definitionErrorText "duplicate_conditional_edge"
      s!"Node {edge.source} has multiple conditional edges"
  if ∃ other ∈ d.edges, edge.source ∈ other.sources then
    definitionErrorText "mixed_edge_modes"
      s!"Node {edge.source} mixes normal and conditional edges"
  let missing := (edge.routes.map Prod.snd).filter fun target =>
    target ≠ endNode ∧ target ∉ nodeIds d
  if missing ≠ [] then
    definitionErrorText "invalid_edge"
      ("Conditional edge references missing nodes: " ++ join ", " (sorted missing.dedup))

def checkConditionals (d : WorkflowDefinition) :
    List ConditionalEdge → List ConditionalEdge → Checked Unit
  | _, [] => pure ()
  | seen, edge :: rest => do
    checkConditional d seen edge
    checkConditionals d (seen ++ [edge]) rest

/-- `outgoing_targets`: the targets of a node's normal edges, `__end__` included. -/
def outgoingTargets (d : WorkflowDefinition) (source : String) : List String :=
  ((d.edges.filter fun edge => source ∈ edge.sources).map fun edge => edge.target).dedup

def routeTargets (edge : ConditionalEdge) : List String :=
  (edge.routes.map Prod.snd).filter (· ≠ endNode)

/-- The graph `_validate_definition` checks for cycles; `keepEnd` tells it from the one the
compiled workflow is built on, which leaves `__end__` out. -/
def adjacencyOf (d : WorkflowDefinition) (keepEnd : Bool) : Adjacency :=
  (nodeIds d).map fun node =>
    (node, ((outgoingTargets d node).filter (fun target => keepEnd || target ≠ endNode) ++
      (d.conditionalEdges.filter (·.source = node)).flatMap routeTargets).dedup)

def reachStep (d : WorkflowDefinition) (reachable : List String) : List String :=
  let afterEdges := d.edges.foldl (fun acc edge =>
    if (∀ source ∈ edge.sources, source ∈ acc) ∧ edge.target ≠ endNode ∧ edge.target ∉ acc
    then acc ++ [edge.target] else acc) reachable
  d.conditionalEdges.foldl (fun acc edge =>
    if edge.source ∈ acc then
      (routeTargets edge).foldl (fun acc target => if target ∈ acc then acc else acc ++ [target]) acc
    else acc) afterEdges

/-- Every pass but the last adds a node, so the number of nodes bounds the passes. -/
def reachableNodes (d : WorkflowDefinition) : Nat → List String → List String
  | 0, reachable => reachable
  | fuel + 1, reachable =>
    let next := reachStep d reachable
    if next.length = reachable.length then reachable else reachableNodes d fuel next

section
variable (d : WorkflowDefinition)

def checkReachable : Checked Unit :=
  let reachable := reachableNodes d (d.nodes.length + 1) [d.entryNode]
  let unreachable :=
    sorted ((d.nodes.filter fun node => node.required && node.nodeId ∉ reachable).map (·.nodeId))
  if unreachable ≠ [] then
    definitionErrorText "unreachable_required_node"
      ("Required nodes are unreachable: " ++ join ", " unreachable)
  else pure ()

/-- `incoming[target]`: the source tuples of the edges into a node, where every route of a
conditional edge counts as an edge of its own. -/
def incoming (target : String) : List (List String) :=
  ((d.edges.filter fun edge => edge.target = target).map fun edge => edge.sources) ++
    d.conditionalEdges.flatMap fun edge =>
      ((routeTargets edge).filter (· = target)).map fun _ => [edge.source]

def dispatchOf (nodeId : String) : Option NodeDispatch :=
  (d.nodes.find? (·.nodeId = nodeId)).map (·.dispatch)

def checkInterruptSource (nodeId source : String) : Checked Unit := do
  if 1 < (outgoingTargets d source).length then
    definitionErrorText "interrupt_barrier_violation"
      s!"Source {source} schedules interrupt {nodeId} with siblings"
  if dispatchOf d source = some .parallel then
    definitionErrorText "interrupt_barrier_violation"
      s!"Parallel node {source} cannot directly schedule an interrupt"

def checkInterrupt (node : NodeDefinition) : Checked Unit := do
  if !node.interruptCapable then return
  if !node.barrier ∨ !node.exclusiveSuperstep then
    definitionErrorText "interrupt_not_exclusive"
      s!"Interrupt node {node.nodeId} must be an exclusive barrier"
  if node.dispatch = .parallel then
    definitionErrorText "interrupt_parallel_dispatch"
      s!"Interrupt node {node.nodeId} may not dispatch parallel work"
  match incoming d node.nodeId with
  | [] => pure ()
  | [sources] => sources.forM (checkInterruptSource d node.nodeId)
  | _ =>
    definitionErrorText "interrupt_barrier_violation"
      s!"Interrupt node {node.nodeId} needs one dedicated join edge"

def checkTool (tool : ToolInventoryEntry) : Checked Unit := do
  if tool.access ≠ .write then return
  match tool.effectKind with
  | none =>
    definitionErrorText "unclassified_write_tool" s!"Write tool {tool.name} has no effect policy"
  | some kind =>
    if kind ≠ .stagedFile ∧ kind ≠ .opaqueManual then
      definitionErrorText "unsafe_write_tool_policy"
        s!"Write tool {tool.name} must be staged_file or opaque_manual"
    if ∃ part ∈ tool.outcomeParser, part = none ∨ part = some "" then
      definitionErrorText "missing_write_outcome_parser"
        s!"Write tool {tool.name} needs a versioned outcome parser"

def checkTools : Checked Unit := do
  let names := d.toolManifest.map (·.name)
  let duplicates := sorted (names.filter fun name => 1 < names.count name).dedup
  if duplicates ≠ [] then
    definitionErrorText "duplicate_tool_inventory"
      ("Duplicate tool inventory entries: " ++ join ", " duplicates)
  d.toolManifest.forM checkTool

def validateDefinition : Checked Unit := do
  checkLimits d
  checkNodes d
  d.channels.forM fun channel => checkChannel d channel.1 channel.2
  checkEdges d [] d.edges
  checkConditionals d [] d.conditionalEdges
  let _ ← cycleBindings d (adjacencyOf d true)
  checkReachable d
  d.nodes.forM (checkInterrupt d)
  checkTools d

/-! ### Compiled workflows -/

structure CompiledWorkflow where
  definition : WorkflowDefinition
  accepted : validateDefinition definition = .ok ()
  bindings : List (EdgeKey × String)
  bound : cycleBindings definition (adjacencyOf definition false) = .ok bindings

/-- `compile_workflow`, whose constructor resolves the cycle bindings once more. -/
def compileWorkflow : Checked CompiledWorkflow :=
  match accepted : validateDefinition d with
  | .error e => .error e
  | .ok () =>
    match bound : cycleBindings d (adjacencyOf d false) with
    | .error e => .error e
    | .ok bindings => .ok ⟨d, accepted, bindings, bound⟩

end

theorem compileWorkflow_ok {d : WorkflowDefinition} {bindings : List (EdgeKey × String)}
    (accepted : validateDefinition d = .ok ())
    (bound : cycleBindings d (adjacencyOf d false) = .ok bindings) :
    compileWorkflow d = .ok ⟨d, accepted, bindings, bound⟩ := by
  unfold compileWorkflow
  split
  · rename_i refused
    cases accepted.symm.trans refused
  · split
    · rename_i refused
      cases bound.symm.trans refused
    · rename_i found
      cases bound.symm.trans found
      rfl

namespace CompiledWorkflow
variable (w : CompiledWorkflow)

def node (nodeId : String) : Option NodeDefinition :=
  w.definition.nodes.find? (·.nodeId = nodeId)

def conditionalFor (nodeId : String) : Option ConditionalEdge :=
  w.definition.conditionalEdges.find? (·.source = nodeId)

def singleTargets (nodeId : String) : List String :=
  (w.definition.edges.filter fun edge => edge.sources = [nodeId]).map fun edge => edge.target

def joinEdges : List Edge := w.definition.edges.filter fun edge => 1 < edge.sources.length

def joinEdgesFor (nodeId : String) : List Edge :=
  w.joinEdges.filter fun edge => nodeId ∈ edge.sources

def budgetOf (source target : String) : Option String :=
  get? (ofEntries w.bindings) (source, target)

def isCycleEdge (source target : String) : Bool := (w.budgetOf source target).isSome

end CompiledWorkflow

def Json.asInt : Json → Option Int
  | .int n => some n
  | _ => none

/-- `mapping.get(name, default)` when the value at `field` is an object, else `default`. -/
def mappingGet (state : State) (field name : String) (default : Json) : Json :=
  match get? state field with
  | some (.obj fields) => (get? fields name).getD default
  | _ => default

namespace CompiledWorkflow
variable (w : CompiledWorkflow)

section
variable (budget : String) (state : State)

def loopCount : Json :=
  mappingGet state "loop_counters" budget (.int 0)

def loopLimit : Json :=
  mappingGet state "budgets" budget (.int ((get? w.definition.loopBudgets budget).getD 0))

def budgetAllows : Bool :=
  match (loopCount budget state).asInt, (w.loopLimit budget state).asInt with
  | some count, some limit => count ≤ limit
  | _, _ => false

end

def validateLoopBudget (source target : String) (state : State) : Except EngineError Unit :=
  match w.budgetOf source target with
  | none => .ok ()
  | some budget =>
    if w.budgetAllows budget state then .ok ()
    else
      .error (.invalidStatePatch "loop_budget_exhausted"
        [.text s!"Loop budget {budget} was exceeded"])

end CompiledWorkflow

end Workflow
