import HarnessSdk.Workflow.Store

/-! The durable operation log: every write against a checkpoint is a row of one table, and an
execution is read back from the rows of its checkpoint in table order. -/
namespace Workflow
open PyDict PyText

inductive RunState
  | created
  | admissionPending
  | queued
  | running
  | waiting
  | cancelRequested
  | reservedFork
  | completed
  | failed
  | cancelled
deriving DecidableEq

def RunState.isTerminal (state : RunState) : Bool :=
  state = .completed || state = .failed || state = .cancelled

inductive OperationKind
  | genesis
  | taskResult
  | route
  | retry
  | interrupt
  | failure
  | engineFailure
  | frontier
deriving DecidableEq

inductive OperationPayload
  | genesis (snapshotHash : String)
  | taskResult (patch : StatePatch) (consumed : List String)
  | route (selection : RouteSelection)
  | retry (attempt : Attempt) (nextAttemptAt : Rat) (errorType : String)
  | interrupt (interrupt : WorkflowInterrupt)
  | failure (error : WorkflowNodeError)
  | engineFailure (error : WorkflowNodeError)
  | frontier (checkpointId : String)

def OperationPayload.kind : OperationPayload → OperationKind
  | .genesis _ => .genesis
  | .taskResult _ _ => .taskResult
  | .route _ => .route
  | .retry _ _ _ => .retry
  | .interrupt _ => .interrupt
  | .failure _ => .failure
  | .engineFailure _ => .engineFailure
  | .frontier _ => .frontier

structure OperationRow where
  operationId : String
  runId : String
  checkpointNs : String
  baseCheckpointId : String
  identityKey : String
  payload : OperationPayload
  payloadHash : String
  createdAt : Rat

def OperationRow.slot (row : OperationRow) : String × String × String × OperationKind × String :=
  (row.runId, row.checkpointNs, row.baseCheckpointId, row.payload.kind, row.identityKey)

structure OperationTable where
  rows : List OperationRow
  primary : (rows.map (·.operationId)).Nodup
  unique : (rows.map (·.slot)).Nodup

inductive StoreError
  | conflict (message : String)
  | integrity (constraint : String)
  | node (error : WorkflowNodeError)
  | task (taskId : String)
deriving DecidableEq

abbrev Durable := Except StoreError

def OperationTable.find? (table : OperationTable) (operationId : String) : Option OperationRow :=
  table.rows.find? (·.operationId = operationId)

def OperationTable.insert (table : OperationTable) (row : OperationRow) : Durable OperationTable :=
  if primary : row.operationId ∈ table.rows.map (·.operationId) then
    .error (.integrity "workflow_native_operations.operation_id")
  else if unique : row.slot ∈ table.rows.map (·.slot) then
    .error (.integrity "workflow_native_operations.run_id, namespace, base_checkpoint_id, operation_kind, identity_key")
  else if row.createdAt < 0 then
    .error (.integrity "created_at >= 0")
  else
    .ok {
      rows := table.rows ++ [row]
      primary := by
        rw [List.map_append, List.map_singleton, List.nodup_append]
        refine ⟨table.primary, List.nodup_singleton _, ?_⟩
        rintro a ha b hb rfl
        exact primary (List.mem_singleton.mp hb ▸ ha)
      unique := by
        rw [List.map_append, List.map_singleton, List.nodup_append]
        refine ⟨table.unique, List.nodup_singleton _, ?_⟩
        rintro a ha b hb rfl
        exact unique (List.mem_singleton.mp hb ▸ ha) }

structure WorkflowLease where
  ownerId : String
  epoch : Int
  expiresAt : Rat

structure CheckpointRow where
  runId : String
  checkpointNs : String
  version : Nat
  snapshot : NativeSnapshot

structure Database where
  runs : Dict String RunState
  leases : Dict (String × String) WorkflowLease
  checkpoints : List CheckpointRow
  operations : OperationTable

/-- What `configurable` says about the writer; `now` is the frozen logical timestamp. -/
structure Configurable where
  runId : String
  threadId : String
  checkpointNs : String
  ownerId : String
  leaseEpoch : Int
  now : Rat

namespace Database
variable (db : Database)

def newest : Option CheckpointRow → CheckpointRow → Option CheckpointRow
  | none, row => some row
  | some best, row => if best.version < row.version then some row else some best

def latest (runId checkpointNs : String) : Option CheckpointRow :=
  (db.checkpoints.filter fun row => row.runId = runId ∧ row.checkpointNs = checkpointNs).foldl
    newest none

def assertWriter (expectedHead : String) (config : Configurable) : Durable Unit := do
  if config.ownerId = "" then
    throw (.conflict "workflow owner identity is required")
  if config.leaseEpoch < 1 then
    throw (.conflict "workflow lease epoch is required")
  match get? db.leases (config.runId, config.checkpointNs) with
  | none => throw (.conflict "stale workflow lease")
  | some lease =>
    if lease.ownerId ≠ config.ownerId ∨ lease.epoch ≠ config.leaseEpoch ∨
        lease.expiresAt ≤ config.now then
      throw (.conflict "stale workflow lease")
  if (db.latest config.runId config.checkpointNs).map (·.snapshot.checkpointId) ≠
      some expectedHead then
    throw (.conflict "workflow checkpoint head changed")
  match get? db.runs config.runId with
  | none => throw (.conflict "workflow Run is missing")
  | some state =>
    if state.isTerminal then
      throw (.conflict "terminal workflow Run rejects stale writes")

/-- A row that exists is left alone if it records the same operation. -/
def writeNativeOperation (row : OperationRow) : Durable Database :=
  match db.operations.find? row.operationId with
  | some existing =>
    if existing.slot = row.slot ∧ existing.payloadHash = row.payloadHash then .ok db
    else .error (.conflict "Native operation replay changed")
  | none => do
    let operations ← db.operations.insert row
    return { db with operations := operations }

end Database

/-! ### Reading an execution back -/

structure Replayed where
  pending : Dict String StatePatch
  routes : Dict String RouteSelection
  consumed : List String
  retries : Dict String (Attempt × Rat)
  failure : Option WorkflowNodeError

def Replayed.step (r : Replayed) (row : OperationRow) : Replayed :=
  match row.payload with
  | .taskResult patch consumed =>
    { r with
      pending := set r.pending row.identityKey patch
      consumed := consumed.foldl addToken r.consumed }
  | .route selection => { r with routes := set r.routes row.identityKey selection }
  | .retry attempt nextAttemptAt _ =>
    { r with retries := set r.retries row.identityKey (attempt, nextAttemptAt) }
  | .failure error => { r with failure := some error }
  | .engineFailure error => { r with failure := some error }
  | _ => r

def rowLe (a b : OperationRow) : Bool :=
  a.createdAt < b.createdAt || (a.createdAt == b.createdAt && a.operationId ≤ b.operationId)

def NativeTask.retried (task : NativeTask) (retry : Attempt × Rat) : NativeTask :=
  { task with
    retryAttempt := retry.1.1
    attempted := retry.1.2
    nextAttemptAt := some retry.2 }

def withDurableRetries (retries : Dict String (Attempt × Rat)) (snap : NativeSnapshot) :
    NativeSnapshot :=
  { snap with frontier := snap.frontier.map fun task =>
    ((get? retries task.taskId).map task.retried).getD task }

namespace Database
variable (db : Database)

def operationsAt (runId checkpointNs baseCheckpointId : String) : List OperationRow :=
  (db.operations.rows.filter fun row => row.runId = runId ∧ row.checkpointNs = checkpointNs ∧
    row.baseCheckpointId = baseCheckpointId).insertionSort fun a b => rowLe a b

def loadExecution (config : Configurable) : Durable NativeExecution :=
  match db.latest config.runId config.checkpointNs with
  | none => .error (.conflict "Native checkpoint is missing")
  | some head =>
    let snap := head.snapshot
    if snap.threadId ≠ config.threadId then .error (.conflict "Native thread identity changed")
    else
      let replayed := (db.operationsAt config.runId config.checkpointNs snap.checkpointId).foldl
        Replayed.step ⟨[], [], [], [], none⟩
      match replayed.failure with
      | some error => .error (.node error)
      | none => .ok ⟨withDurableRetries replayed.retries snap, replayed.pending, replayed.routes,
          replayed.consumed⟩

end Database

section
variable (hash : OperationPayload → String)

def commitRetry (operationId expectedHead : String) (task : NativeTask) (errorType : String)
    (nextAttemptAt : Rat) (config : Configurable) (db : Database) : Durable Database :=
  let payload := OperationPayload.retry ⟨task.retryAttempt + 1, task.next_pos⟩ nextAttemptAt
    errorType
  let row (now : Rat) : OperationRow :=
    ⟨operationId, config.runId, config.checkpointNs, expectedHead, task.taskId, payload,
      hash payload, now⟩
  match db.operations.find? operationId with
  | some existing => db.writeNativeOperation (row existing.createdAt)
  | none => do
    db.assertWriter expectedHead config
    db.writeNativeOperation (row config.now)

def retryOperationId (snap : NativeSnapshot) (task : NativeTask) : String :=
  stableId [snap.runId, snap.checkpointId, "retry", task.taskId, toString task.retryAttempt]

structure FailedAttempt where
  error : WorkflowNodeError
  nextAttemptAt : Rat

/-- A drive in which the task fails: the execution is loaded and, if the error is retryable, the
retry is committed. -/
def recordFailure (w : CompiledWorkflow) (taskId : String) (config : Configurable)
    (failed : FailedAttempt) (db : Database) : Durable Database := do
  let exec ← db.loadExecution config
  match exec.snapshot.frontier.find? (·.taskId = taskId) with
  | none => throw (.task taskId)
  | some task =>
    if retryable w task failed.error then
      commitRetry hash (retryOperationId exec.snapshot task) exec.snapshot.checkpointId task
        "WorkflowNodeError" failed.nextAttemptAt config db
    else throw (.node failed.error)

def recordFailures (w : CompiledWorkflow) (taskId : String) (config : Configurable) :
    List FailedAttempt → Database → Durable Database
  | [], db => .ok db
  | failed :: rest, db => do
    let db ← recordFailure hash w taskId config failed db
    recordFailures w taskId config rest db

end

end Workflow
