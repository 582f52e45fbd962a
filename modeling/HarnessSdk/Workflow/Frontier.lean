import HarnessSdk.Workflow.Patches

/-! One superstep of the native engine: the tasks of a frontier complete, their patches are merged
into the state, and the next frontier is scheduled from the edges they complete. -/
namespace Workflow
open PyDict PyText

def IsIdentity (s : String) : Prop := strip s = s ∧ s ≠ ""

instance (s : String) : Decidable (IsIdentity s) := inferInstanceAs (Decidable (_ ∧ _))

structure NativeTask where
  taskId : String
  nodeId : String
  invocationKey : String
  activationId : String
  joinEpoch : Nat
  taskPath : List String
  retryAttempt : Nat
  nextAttemptAt : Option Rat
  identified : ∀ id ∈ [taskId, nodeId, invocationKey, activationId], IsIdentity id
  attempted : 1 ≤ retryAttempt
  pathed : "" ∉ taskPath

instance : DecidableEq NativeTask := fun a b =>
  decidable_of_iff (a.taskId = b.taskId ∧ a.nodeId = b.nodeId ∧
    a.invocationKey = b.invocationKey ∧ a.activationId = b.activationId ∧
    a.joinEpoch = b.joinEpoch ∧ a.taskPath = b.taskPath ∧ a.retryAttempt = b.retryAttempt ∧
    a.nextAttemptAt = b.nextAttemptAt) (by cases a; cases b; simp)

theorem NativeTask.next_pos (task : NativeTask) : 1 ≤ task.retryAttempt + 1 := Nat.le_add_left ..

def identity (fieldName value : String) : Engine {s : String // IsIdentity s} :=
  if blank : strip value = "" then
    invalidPatch "invalid_native_identity" s!"Native {fieldName} is required"
  else .ok ⟨strip value, strip_idem value, blank⟩

def NativeTask.create (taskId nodeId invocationKey activationId : String) (joinEpoch : Nat)
    (taskPath : List String) : Engine NativeTask := do
  let taskId ← identity "task_id" taskId
  let nodeId ← identity "node_id" nodeId
  let invocationKey ← identity "invocation_key" invocationKey
  let activationId ← identity "activation_id" activationId
  if pathed : "" ∈ taskPath then
    invalidPatch "invalid_native_task" "Native task_path is invalid"
  else
    return {
      taskId := taskId
      nodeId := nodeId
      invocationKey := invocationKey
      activationId := activationId
      joinEpoch := joinEpoch
      taskPath := taskPath
      retryAttempt := 1
      nextAttemptAt := none
      identified := by
        simp only [List.mem_cons, List.not_mem_nil, or_false]
        rintro id (rfl | rfl | rfl | rfl)
        exacts [taskId.2, nodeId.2, invocationKey.2, activationId.2]
      attempted := Nat.one_pos
      pathed := pathed }

structure NativeSnapshot where
  threadId : String
  checkpointNs : String
  checkpointId : String
  parentCheckpointId : Option String
  runId : String
  stateSchemaVersion : Int
  step : Nat
  state : State
  frontier : List NativeTask
  completedActivations : Dict String (List String)
  joinFirings : List String
  metadata : Dict String Json

/-! ### Collecting what the completed tasks schedule -/

/-- Which edge a candidate comes from, for a join with the epoch it fired at. The engine itself
does not keep it. -/
inductive Origin
  | direct
  | join (edge : Edge) (epoch : Nat)
deriving DecidableEq

structure Candidate where
  target : String
  source : NativeTask
  activation : String
  origin : Origin
deriving DecidableEq

structure Progress where
  completed : Dict String (List String)
  firings : List String
  candidates : List Candidate

def joinKey (target : String) (epoch : Nat) : String := target ++ ":" ++ toString epoch

def token (task : NativeTask) : String := task.nodeId ++ ":" ++ task.taskId

def completedAt (completed : Dict String (List String)) (key : String) : List String :=
  (get? completed key).getD []

def addToken (values : List String) (value : String) : List String :=
  if value ∈ values then values else values ++ [value]

def sourceTasks (values : List String) : Dict String String :=
  ofEntries (values.map (splitOnce ':'))

def Edge.satisfiedBy (edge : Edge) (values : List String) : Prop :=
  ∀ source ∈ edge.sources, source ∈ keys (sourceTasks values)

instance (edge : Edge) (values : List String) : Decidable (edge.satisfiedBy values) :=
  inferInstanceAs (Decidable (∀ source ∈ edge.sources, _))

def tasksByNode (frontier : List NativeTask) : Dict String NativeTask :=
  ofEntries (frontier.map fun task => (task.nodeId, task))

/-- `synthetic`: the task a fired join is scheduled through. -/
def representative (frontier : List NativeTask) (edge : Edge) (task : NativeTask) : NativeTask :=
  (get? (tasksByNode frontier) (edge.sources.headD "")).getD task

def joinStep (snap : NativeSnapshot) (task : NativeTask) (p : Progress) (edge : Edge) :
    Progress :=
  let key := joinKey edge.target task.joinEpoch
  let values := addToken (completedAt p.completed key) (token task)
  let completed := set p.completed key values
  if edge.satisfiedBy values ∧ key ∉ p.firings then
    { completed := completed
      firings := p.firings ++ [key]
      candidates := p.candidates ++ [{
        target := edge.target
        source := representative snap.frontier edge task
        activation := stableId (snap.runId :: key :: edge.sources.map fun source =>
          (get? (sourceTasks values) source).getD "")
        origin := .join edge task.joinEpoch }] }
  else { p with completed := completed }

section
variable (w : CompiledWorkflow) (snap : NativeSnapshot) (route : NativeTask → Engine String)

/-- The targets a completed task schedules without waiting: its selected route, or its single
edges. -/
def directTargets (task : NativeTask) : Engine (List String) :=
  match w.conditionalFor task.nodeId with
  | none => .ok (w.singleTargets task.nodeId)
  | some conditional => do
    let selected ← route task
    match get? conditional.routes selected with
    | some target => return [target]
    | none => .error (.keyError selected)

def activationOf (task : NativeTask) : String :=
  stableId [snap.checkpointId, task.taskId, toString task.joinEpoch]

def directCandidates (task : NativeTask) (targets : List String) : List Candidate :=
  (targets.filter (· ≠ endNode)).map fun target =>
    ⟨target, task, activationOf snap task, .direct⟩

def taskStep (p : Progress) (task : NativeTask) : Engine Progress := do
  let targets ← directTargets w route task
  let p := { p with candidates := p.candidates ++ directCandidates snap task targets }
  return (w.joinEdgesFor task.nodeId).foldl (joinStep snap task) p

def collect : List NativeTask → Progress → Engine Progress
  | [], p => .ok p
  | task :: rest, p => do
    let p ← taskStep w snap route p task
    collect rest p

def progress : Engine Progress :=
  collect w snap route (sortedBy (·.taskId) snap.frontier)
    ⟨snap.completedActivations, snap.joinFirings, []⟩

/-! ### Scheduling the candidates -/

def scheduledEpoch (c : Candidate) : Nat :=
  c.source.joinEpoch + if w.isCycleEdge c.source.nodeId c.target then 1 else 0

def invocationOf (c : Candidate) : String :=
  c.target ++ ":" ++ c.activation ++ ":" ++ toString (scheduledEpoch w c)

def taskIdOf (c : Candidate) : String :=
  stableId [snap.runId, snap.checkpointId, invocationOf w c]

def taskOf (state : State) (c : Candidate) : Engine NativeTask := do
  w.validateLoopBudget c.source.nodeId c.target state
  NativeTask.create (taskIdOf w snap c) c.target (invocationOf w c) c.activation
    (scheduledEpoch w c) (c.source.taskPath ++ [c.target])

def candidateLe (a b : Candidate) : Bool :=
  a.target < b.target || (a.target == b.target && a.source.taskId ≤ b.source.taskId)

def schedule (state : State) :
    List Candidate → Dict String NativeTask → Engine (Dict String NativeTask)
  | [], next => .ok next
  | c :: rest, next => do
    let task ← taskOf w snap state c
    schedule state rest (set next (taskIdOf w snap c) task)

structure NextFrontier where
  frontier : List NativeTask
  completed : Dict String (List String)
  firings : List String

def nextFrontier (state : State) : Engine NextFrontier := do
  let p ← progress w snap route
  let next ← schedule w snap state (p.candidates.insertionSort fun a b => candidateLe a b) []
  return {
    frontier := (sortedBy Prod.fst next).map Prod.snd
    completed := (sortedBy Prod.fst p.completed).map fun entry => (entry.1, sorted entry.2)
    firings := sorted p.firings }

end

/-! ### The superstep -/

def isBlobRef (s : String) : Bool :=
  s.toList.length == 64 && s.toList.all (· ∈ Sha256.hexDigits)

def blobRefText : Json → Option String
  | .str s => some s
  | .int n => some (toString n)
  | _ => none

def stateBlobRefs (state : State) : Engine Unit :=
  match get? state "blob_refs" with
  | none => .ok ()
  | some (.arr items) =>
    if items.all fun item => (blobRefText item).any isBlobRef then .ok ()
    else invalidPatch "invalid_blob_refs" "blob_refs must contain SHA-256 digests"
  | some _ => invalidPatch "invalid_blob_refs" "blob_refs must be a list"

def frontierOperationId (snap : NativeSnapshot) (frontier : List NativeTask) (state : State)
    (intents : List Json) : String :=
  stableId ([snap.runId, snap.checkpointId, "frontier"] ++ snap.frontier.map (·.taskId) ++
    ["next"] ++ frontier.map (·.taskId) ++
    [canonicalJson (.obj state), canonicalJson (.arr intents)])

/-- The snapshot `commit_frontier` makes the head. -/
def advance (snap : NativeSnapshot) (operationId : String) (state : State)
    (next : NextFrontier) : NativeSnapshot :=
  { snap with
    checkpointId := stableId [snap.runId, operationId]
    parentCheckpointId := some snap.checkpointId
    step := snap.step + 1
    state := state
    frontier := next.frontier
    completedActivations := next.completed
    joinFirings := next.firings }

/-- What the host code contributes to a superstep: the result of every task, the route selected
after it, and the delivery intents of a terminal commit. -/
structure StepInput where
  patch : NativeTask → StatePatch
  route : NativeTask → Engine String
  intents : State → List NativeTask → Engine (List Json)

def mergedState (w : CompiledWorkflow) (snap : NativeSnapshot) (patch : NativeTask → StatePatch) :
    Engine State := do
  let writes := (sortedBy (·.taskId) snap.frontier).map fun task => (task.nodeId, patch task)
  let delta ← w.mergePatches writes
  w.reduceState delta snap.state

def superstep (w : CompiledWorkflow) (snap : NativeSnapshot) (input : StepInput) :
    Engine NativeSnapshot := do
  let state ← mergedState w snap input.patch
  let next ← nextFrontier w snap input.route state
  let intents ← input.intents state next.frontier
  stateBlobRefs state
  return advance snap (frontierOperationId snap next.frontier state intents) state next

def entryTask (w : CompiledWorkflow) (runId threadId checkpointNs : String) : Engine NativeTask :=
  let entry := w.definition.entryNode
  NativeTask.create (stableId [runId, threadId, checkpointNs, "genesis", entry]) entry
    ("entry:" ++ entry) (stableId [runId, threadId, checkpointNs, "genesis"]) 0 [entry]

structure Invocation where
  threadId : String
  runId : String
  checkpointNs : String
  state : State
  logicalTimestamp : Json
  deadline : Json
  descriptor : Json

def genesis (w : CompiledWorkflow) (inv : Invocation) : Engine NativeSnapshot := do
  let entry ← entryTask w inv.runId inv.threadId inv.checkpointNs
  let threadId ← identity "thread_id" inv.threadId
  let runId ← identity "run_id" inv.runId
  return {
    threadId := threadId
    checkpointNs := inv.checkpointNs
    checkpointId := stableId [inv.runId, inv.threadId, inv.checkpointNs, "genesis"]
    parentCheckpointId := none
    runId := runId
    stateSchemaVersion := w.definition.stateSchemaVersion
    step := 0
    state := inv.state
    frontier := [entry]
    completedActivations := []
    joinFirings := []
    metadata := [("engine_kind", .str "simple-harness-native"),
      ("terminal_projection_descriptor", inv.descriptor),
      ("logical_timestamp", inv.logicalTimestamp), ("deadline", inv.deadline)] }

end Workflow
