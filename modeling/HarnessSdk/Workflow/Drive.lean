import HarnessSdk.Workflow.Store

/-! The driver loop: load the durable execution, run the tasks without a result, select the
routes, and commit the next frontier. Every effect is a commit to the store, so an iteration is
the list of commits it makes in order, and a driver may stop after any number of them. -/
namespace Workflow
open PyDict PyText

/-- A handler at one state: it ends with a patch or an exception, or asks `workflow_interrupt`
and goes on with what that call returns or raises. -/
inductive NodeProgram
  | finish (result : Engine StatePatch)
  | interrupt (payload : Json) (resume : Engine Json → NodeProgram)

abbrev Responses := String → Option Json

inductive Reply
  | finished (result : Engine StatePatch) (consumed : List String)
  | suspended (payload : Json)

/-- `asked` is the `calls` counter: a task has one interrupt point. -/
def NodeProgram.run (responses : Responses) (id : String) :
    NodeProgram → Bool → List String → Reply
  | .finish result, _, consumed => .finished result consumed
  | .interrupt payload resume, asked, consumed =>
    if asked then
      (resume (invalidPatch "multiple_task_interrupts"
        "A native workflow task may contain only one interrupt point")).run responses id true consumed
    else
      match responses id with
      | some response => (resume (.ok response)).run responses id true (consumed ++ [id])
      | none => .suspended payload

structure TerminalProjection where
  digest : String
  request : String → State → Json
  project : NativeSnapshot → State → Engine Json

/-- A compiled workflow bound to its host code. Handlers and selectors depend on the state
alone. -/
structure Executable where
  workflow : CompiledWorkflow
  handler : String → State → NodeProgram
  selector : String → State → Engine String
  projection : Option TerminalProjection
  terminalIntents : String → State → Option Json → Engine (List Json)

inductive Commit
  | taskResult (task : NativeTask) (patch : StatePatch) (consumed : List String)
  | route (source route payloadHash taskId : String)
  | interrupt (task : NativeTask) (interrupt : WorkflowInterrupt)
  | retry (task : NativeTask)
  | failure (task : NativeTask)
  | engineFailure (frontier : List NativeTask)
  | prepare (receipt : PrepareReceipt)
  | frontier (operationId : String) (state : State) (next : NextFrontier) (intents : List Json)
      (prepareId : Option String) (consumed : List String) (writes : List (String × StatePatch))

def Store.commit (s : Store) (head : String) : Commit → Engine Store
  | .taskResult task patch consumed => s.commitTaskResult head task patch consumed
  | .route source route payloadHash taskId => s.commitRouteSelection head source route payloadHash taskId
  | .interrupt task interrupt => s.commitInterrupt head task interrupt
  | .retry task => s.commitRetry head task
  | .failure task => s.commitFailure head task
  | .engineFailure frontier => s.commitEngineFailure head frontier
  | .prepare receipt => s.prepareTerminalProjection head receipt
  | .frontier operationId state next intents prepareId _ _ =>
    s.commitFrontier operationId head state next intents prepareId

/-- How a drive goes about its work: the interrupt responses it brings, its parallelism, the order
in which parallel tasks finish, and the number of commits after which it stops, if it does. -/
structure Drive where
  responses : Responses
  maxParallelTasks : Nat
  order : List NativeTask
  stopAfter : Option Nat

def nodeFailure (nodeId : String) : EngineError → WorkflowNodeError
  | .node error => error
  | .keyError _ => ⟨.permanent, s!"workflow_node:{nodeId}:permanent", false, some nodeId⟩
  | _ => ⟨.invalidState, s!"workflow_node:{nodeId}:invalid_state", false, some nodeId⟩

def routeFailure (source : String) : EngineError → EngineError
  | .node error => .node error
  | .keyError _ => .node ⟨.permanent, s!"workflow_route:{source}:permanent", false, some source⟩
  | _ => .node ⟨.invalidState, s!"workflow_route:{source}:invalid_state", false, some source⟩

def Json.isNumber : Json → Bool
  | .int _ => true
  | .float _ => true
  | _ => false

namespace Executable
variable (x : Executable)

section
variable (responses : Responses) (state : State)

def runNode (nodeId taskId : String) : Reply :=
  match (x.handler nodeId state).run responses (interruptId taskId) false [] with
  | .suspended payload => .suspended payload
  | .finished result consumed =>
    .finished (do
      let patch ← result
      x.workflow.validatePatch nodeId patch
      return patch) consumed

/-- The outcome of a task. An error is an exception that leaves the worker, which happens when
the blob references of its patch are refused at the commit. -/
def runTaskWorker (task : NativeTask) : Engine Outcome :=
  match x.runNode responses state task.nodeId task.taskId with
  | .suspended payload => .ok (.suspended ⟨interruptId task.taskId, task.taskId, payload⟩)
  | .finished (.error error) _ => .ok (.failed (nodeFailure task.nodeId error))
  | .finished (.ok patch) consumed => do
    stateBlobRefs patch
    return .result patch consumed

def pendingTasks (exec : NativeExecution) : List NativeTask :=
  (sortedBy (·.taskId) exec.snapshot.frontier).filter fun task =>
    (get? exec.pendingResults task.taskId).isNone

def runsInParallel (tasks : List NativeTask) (maxParallelTasks : Nat) : Bool :=
  tasks.all (fun task => (x.workflow.node task.nodeId).any fun node =>
    node.dispatch = .parallel && !node.barrier && !node.interruptCapable) && 1 < maxParallelTasks

def resultCommit (task : NativeTask) : Option Commit :=
  match x.runTaskWorker responses state task with
  | .ok (.result patch consumed) => some (.taskResult task patch consumed)
  | _ => none

end

/-- The results committed while the tasks run. One after another, an exception that leaves a
worker ends the loop; in parallel the other tasks still finish. -/
def taskCommits (d : Drive) (state : State) (tasks : List NativeTask) : List Commit :=
  if x.runsInParallel tasks d.maxParallelTasks then
    d.order.filterMap (x.resultCommit d.responses state)
  else
    (tasks.takeWhile fun task => (x.runTaskWorker d.responses state task).isOk).filterMap
      (x.resultCommit d.responses state)

def route (conditional : ConditionalEdge) (snap : NativeSnapshot) (state : State) :
    Engine String :=
  match get? snap.metadata "logical_timestamp" with
  | none => .error (.keyError "logical_timestamp")
  | some stamp => Except.mapError (routeFailure conditional.source) do
    if !stamp.isNumber then
      invalidPatch "invalid_logical_timestamp" "Route logical timestamp must be a frozen number"
    let selected ← x.selector conditional.source (set state "logical_timestamp" stamp)
    if (get? conditional.routes selected).isNone then
      invalidPatch "unknown_route" s!"Selector {conditional.source} returned an unknown route"
    return selected

/-- The route of a task: the durable selection if there is one, else what the selector says. -/
def selectedRoute (exec : NativeExecution) (state : State) (task : NativeTask) : Engine String :=
  match get? exec.routeSelections task.taskId, x.workflow.conditionalFor task.nodeId with
  | some stored, _ => .ok stored.selectedRoute
  | none, some conditional => x.route conditional exec.snapshot state
  | none, none => .error (.keyError task.nodeId)

def routeCommit (exec : NativeExecution) (task : NativeTask) (targets : List String)
    (selected : Engine String) : Option Commit :=
  match x.workflow.conditionalFor task.nodeId, get? exec.routeSelections task.taskId, selected with
  | some _, none, .ok selected =>
    some (.route task.nodeId selected
      (stableId ([task.taskId, selected] ++ targets)) task.taskId)
  | _, _, _ => none

/-- The selections committed on the way through the frontier, up to the first exception. -/
def routeCommits (exec : NativeExecution) (state : State) : List NativeTask → List Commit
  | [] => []
  | task :: rest =>
    match directTargets x.workflow (x.selectedRoute exec state) task with
    | .error _ => []
    | .ok targets =>
      (x.routeCommit exec task targets (x.selectedRoute exec state task)).toList ++
        routeCommits exec state rest

def prepareTerminalProjection (snap : NativeSnapshot) (state : State) (frontier : List NativeTask)
    (prepares : Dict String PrepareReceipt) : Engine (Option PrepareReceipt × List Commit) :=
  match frontier, x.projection with
  | [], some projection => do
    let operationId := stableId [snap.runId, snap.checkpointId, projection.digest]
    let inputHash := Sha256.hexdigest (canonicalJson (projection.request snap.runId state))
    match get? prepares operationId with
    | some existing =>
      if existing.runId = snap.runId ∧ existing.terminalCheckpointId = snap.checkpointId ∧
          existing.descriptorDigest = projection.digest ∧ existing.inputHash = inputHash then
        return (some existing, [])
      else
        invalidPatch "projection_prepare_conflict" "Terminal projection prepare input changed"
    | none =>
      let output ← projection.project snap state
      let receipt : PrepareReceipt := {
        operationId := operationId
        runId := snap.runId
        terminalCheckpointId := snap.checkpointId
        descriptorDigest := projection.digest
        inputHash := inputHash
        output := output
        outputHash := Sha256.hexdigest (canonicalJson output) }
      return (some receipt, [.prepare receipt])
  | _, _ => return (none, [])

def intentsOf (snap : NativeSnapshot) (state : State) (frontier : List NativeTask)
    (receipt : Option PrepareReceipt) : Engine (List Json) :=
  if frontier = [] then x.terminalIntents snap.runId state (receipt.map (·.output)) else .ok []

def patchesOf (exec : NativeExecution) (outcomes : List TaskOutcome) : Dict String StatePatch :=
  update exec.pendingResults (outcomes.filterMap fun o =>
    match o.outcome with
    | .result patch _ => some (o.task.taskId, patch)
    | _ => none)

def consumedOf (exec : NativeExecution) (outcomes : List TaskOutcome) : List String :=
  exec.pendingConsumed ++ outcomes.flatMap fun o =>
    match o.outcome with
    | .result _ consumed => consumed
    | _ => []

def patchFor (patches : Dict String StatePatch) (task : NativeTask) : StatePatch :=
  (get? patches task.taskId).getD []

section
variable (prepares : Dict String PrepareReceipt) (exec : NativeExecution)

/-- From the next frontier to its commit. The blob references are read where the commit is made,
so their refusal is not recorded as an engine failure. -/
def planCommit (state : State)
    (next : NextFrontier) (consumed : List String) (writes : List (String × StatePatch)) :
    List Commit :=
  let snap := exec.snapshot
  match x.prepareTerminalProjection snap state next.frontier prepares with
  | .error _ => [.engineFailure snap.frontier]
  | .ok (receipt, prepared) =>
    prepared ++
      match x.intentsOf snap state next.frontier receipt with
      | .error _ => [.engineFailure snap.frontier]
      | .ok intents =>
        match stateBlobRefs state with
        | .error _ => []
        | .ok _ =>
          [.frontier (frontierOperationId snap next.frontier state intents) state next intents
            (receipt.map (·.operationId)) consumed writes]

def planFrontier
    (outcomes : List TaskOutcome) : List Commit :=
  let snap := exec.snapshot
  let patch := patchFor (patchesOf exec outcomes)
  match mergedState x.workflow snap patch with
  | .error _ => [.engineFailure snap.frontier]
  | .ok state =>
    x.routeCommits exec state (sortedBy (·.taskId) snap.frontier) ++
      match nextFrontier x.workflow snap (x.selectedRoute exec state) state with
      | .error _ => [.engineFailure snap.frontier]
      | .ok next =>
        x.planCommit prepares exec state next (consumedOf exec outcomes)
          ((sortedBy (·.taskId) snap.frontier).map fun task => (task.taskId, patch task))

def planSettled
    (outcomes : List TaskOutcome) : List Commit :=
  match settle x.workflow exec.snapshot.frontier outcomes with
  | .interrupted task interrupt => [.interrupt task interrupt]
  | .retry task _ => [.retry task]
  | .failed task _ => [.failure task]
  | .completed => x.planFrontier prepares exec outcomes

end

def outcomesOf (responses : Responses) (state : State) (tasks : List NativeTask) :
    Engine (List TaskOutcome) :=
  tasks.mapM fun task => return ⟨task, ← x.runTaskWorker responses state task⟩

def plan (d : Drive) (prepares : Dict String PrepareReceipt) (exec : NativeExecution) :
    List Commit :=
  let snap := exec.snapshot
  let pending := pendingTasks exec
  if snap.frontier = [] then []
  else if x.workflow.definition.maxSupersteps ≤ snap.step then [.engineFailure snap.frontier]
  else if pending.any fun task => (x.workflow.node task.nodeId).isNone then []
  else
    x.taskCommits d snap.state pending ++
      match x.outcomesOf d.responses snap.state pending with
      | .error _ => []
      | .ok outcomes => x.planSettled prepares exec outcomes

end Executable

/-! ### Drives -/

structure Record where
  snapshot : NativeSnapshot
  consumed : List String
  writes : List (String × StatePatch)

structure Driven where
  store : Store
  history : List Record

def recordOf (before : Store) : Commit → List Record
  | .frontier operationId state next _ _ consumed writes =>
    match before.snapshot with
    | some snap => [⟨advance snap operationId state next, consumed, writes⟩]
    | none => []
  | _ => []

def applyCommits (head : String) : List Commit → Driven → Driven
  | [], σ => σ
  | c :: rest, σ =>
    match σ.store.commit head c with
    | .error _ => σ
    | .ok store => applyCommits head rest ⟨store, σ.history ++ recordOf σ.store c⟩

section
variable (x : Executable) (inv : Invocation)

def start : Engine Driven := do
  let snap ← genesis x.workflow inv
  let store ← Store.empty.ensureGenesis snap
  return ⟨store, []⟩

def stopped (d : Drive) (commits : List Commit) : List Commit :=
  match d.stopAfter with
  | none => commits
  | some count => commits.take count

def drive (d : Drive) (σ : Driven) : Driven :=
  match σ.store.loadExecution inv.runId inv.threadId inv.checkpointNs with
  | .error _ => σ
  | .ok exec =>
    applyCommits exec.snapshot.checkpointId (stopped d (x.plan d σ.store.prepares exec)) σ

/-- In parallel the tasks may finish in any order. -/
def Drive.Fits (d : Drive) (σ : Driven) : Prop :=
  ∀ exec, σ.store.loadExecution inv.runId inv.threadId inv.checkpointNs = .ok exec →
    x.runsInParallel (Executable.pendingTasks exec) d.maxParallelTasks →
      d.order.Perm (Executable.pendingTasks exec)

/-- All the drives of a run bring responses from `answers`, each as many as it happens to have. -/
inductive Drives (answers : Responses) : Driven → Prop
  | start {σ : Driven} (begun : start x inv = .ok σ) : Drives answers σ
  | again {σ : Driven} (d : Drive) (before : Drives answers σ) (fits : d.Fits x inv σ)
      (answered : ∀ id value, d.responses id = some value → answers id = some value) :
      Drives answers (drive x inv d σ)

def Drive.sequential (answers : Responses) : Drive := ⟨answers, 1, [], none⟩

/-- The driver left alone: no stop, one task after another, every response at hand. -/
def driveOn (answers : Responses) : Nat → Driven → Driven
  | 0, σ => σ
  | n + 1, σ => driveOn answers n (drive x inv (.sequential answers) σ)

end
end Workflow
