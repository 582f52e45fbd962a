import HarnessSdk.Workflow.Runs
import HarnessSdk.Workflow.Tasks

/-! The in-memory checkpoint store: one head snapshot and the durable writes made against it. A
commit that raises leaves the store as it was. -/
namespace Workflow
open PyDict PyText

structure RouteSelection where
  source : String
  selectedRoute : String
  nextFrontierPayloadHash : String
deriving DecidableEq

structure PrepareReceipt where
  operationId : String
  runId : String
  terminalCheckpointId : String
  descriptorDigest : String
  inputHash : String
  output : Json
  outputHash : String

def PrepareReceipt.same (a b : PrepareReceipt) : Bool :=
  a.operationId == b.operationId && a.runId == b.runId &&
    a.terminalCheckpointId == b.terminalCheckpointId &&
    a.descriptorDigest == b.descriptorDigest && a.inputHash == b.inputHash &&
    a.output.sameText b.output && a.outputHash == b.outputHash

def WorkflowInterrupt.same (a b : WorkflowInterrupt) : Bool :=
  a.interruptId == b.interruptId && a.taskId == b.taskId && a.payload.sameText b.payload

abbrev Attempt := {n : Nat // 1 ≤ n}

structure Store where
  snapshot : Option NativeSnapshot
  pending : Dict String StatePatch
  materializedIntents : Dict String Json
  routeSelections : Dict String RouteSelection
  retryAttempts : Dict String Attempt
  pendingConsumed : List String
  interrupt : Option WorkflowInterrupt
  failures : Dict String String
  prepares : Dict String PrepareReceipt

def Store.empty : Store := ⟨none, [], [], [], [], [], none, [], []⟩

structure NativeExecution where
  snapshot : NativeSnapshot
  pendingResults : Dict String StatePatch
  routeSelections : Dict String RouteSelection
  pendingConsumed : List String

def NativeTask.withAttempt (task : NativeTask) (attempt : Attempt) : NativeTask :=
  { task with retryAttempt := attempt.1, attempted := attempt.2 }

def withRetries (retries : Dict String Attempt) (snap : NativeSnapshot) : NativeSnapshot :=
  if retries = [] then snap
  else { snap with frontier := snap.frontier.map fun task =>
    ((get? retries task.taskId).map task.withAttempt).getD task }

section
variable (retries : Dict String Attempt) (snap : NativeSnapshot)

@[simp] theorem withRetries_state : (withRetries retries snap).state = snap.state := by
  unfold withRetries
  split <;> rfl

@[simp] theorem withRetries_step : (withRetries retries snap).step = snap.step := by
  unfold withRetries
  split <;> rfl

@[simp] theorem withRetries_checkpointId :
    (withRetries retries snap).checkpointId = snap.checkpointId := by
  unfold withRetries
  split <;> rfl

theorem withRetries_frontier : (withRetries retries snap).frontier =
    snap.frontier.map fun task => ((get? retries task.taskId).map task.withAttempt).getD task := by
  unfold withRetries
  split
  · rename_i none
    simp [none]
  · rfl

end

def intentKey : Json → Option String
  | .obj fields =>
    match (get? fields "event_key").or (get? fields "intent_id") with
    | some (.str key) => if key = "" then none else some key
    | _ => none
  | _ => none

def materialize : List Json → Dict String Json → Engine (Dict String Json)
  | [], stored => .ok stored
  | intent :: rest, stored =>
    match intentKey intent with
    | none => invalidPatch "invalid_delivery_intent" "Intent identity is required"
    | some key =>
      match get? stored key with
      | none => materialize rest (set stored key intent)
      | some old =>
        if old.sameText intent then materialize rest stored
        else invalidPatch "outbox_intent_conflict" "Intent content changed"

namespace Store
variable (s : Store)

def ensureGenesis (snap : NativeSnapshot) : Engine Store :=
  match s.snapshot with
  | none => .ok { s with snapshot := some snap }
  | some head =>
    if head.runId = snap.runId then .ok s
    else invalidPatch "checkpoint_conflict" "Genesis checkpoint identity changed"

def loadExecution (runId threadId checkpointNs : String) : Engine NativeExecution :=
  match s.snapshot with
  | none => invalidPatch "checkpoint_missing" "Ephemeral workflow has no checkpoint"
  | some snap =>
    if snap.runId = runId ∧ snap.threadId = threadId ∧ snap.checkpointNs = checkpointNs then
      .ok ⟨withRetries s.retryAttempts snap, s.pending, s.routeSelections, s.pendingConsumed⟩
    else invalidPatch "checkpoint_identity_mismatch" "Checkpoint identity changed"

section
variable (expectedHead : String)

def requireHead : Engine NativeSnapshot :=
  match s.snapshot with
  | none => invalidPatch "checkpoint_missing" "Ephemeral workflow has no checkpoint"
  | some snap =>
    if snap.checkpointId = expectedHead then .ok snap
    else invalidPatch "checkpoint_conflict" "Checkpoint head changed"

def commitTaskResult (task : NativeTask) (patch : StatePatch)
    (consumed : List String) : Engine Store := do
  let _ ← s.requireHead expectedHead
  let existing := (get? s.pending task.taskId).getD patch
  if (Json.obj existing).sameText (.obj patch) then
    return { s with
      pending := setDefault s.pending task.taskId patch
      pendingConsumed := consumed.foldl addToken s.pendingConsumed }
  else invalidPatch "pending_write_conflict" "Pending task result changed"

def commitRouteSelection (expectedHead source selectedRoute nextFrontierPayloadHash taskId : String) :
    Engine Store := do
  let _ ← s.requireHead expectedHead
  let source ← identity "route source" source
  let route ← identity "selected route" selectedRoute
  let hash ← identity "frontier payload hash" nextFrontierPayloadHash
  let key ← identity "route task_id" taskId
  let selection : RouteSelection := ⟨source, route, hash⟩
  if (get? s.routeSelections key.1).getD selection = selection then
    return { s with routeSelections := setDefault s.routeSelections key.1 selection }
  else invalidPatch "route_nondeterminism" "Route selection changed"

def commitRetry (task : NativeTask) : Engine Store := do
  let _ ← s.requireHead expectedHead
  return { s with
    retryAttempts := set s.retryAttempts task.taskId ⟨task.retryAttempt + 1, task.next_pos⟩ }

def commitInterrupt (task : NativeTask) (interrupt : WorkflowInterrupt) :
    Engine Store := do
  let _ ← s.requireHead expectedHead
  if (s.interrupt.getD interrupt).same interrupt then
    if interrupt.taskId = task.taskId then
      return { s with interrupt := some interrupt }
    else invalidPatch "interrupt_identity_mismatch" "Interrupt belongs to another task"
  else invalidPatch "interrupt_conflict" "Durable interrupt changed"

def commitFailures (tasks : List NativeTask) : Engine Store := do
  let _ ← s.requireHead expectedHead
  return { s with
    failures := tasks.foldl (fun acc task => setDefault acc task.taskId "WorkflowNodeError")
      s.failures }

def commitFailure (task : NativeTask) : Engine Store :=
  s.commitFailures expectedHead [task]

def commitEngineFailure (frontier : List NativeTask) : Engine Store :=
  s.commitFailures expectedHead frontier

def prepareTerminalProjection (receipt : PrepareReceipt) :
    Engine Store := do
  let _ ← s.requireHead expectedHead
  if ((get? s.prepares receipt.operationId).getD receipt).same receipt then
    return { s with prepares := setDefault s.prepares receipt.operationId receipt }
  else invalidPatch "projection_prepare_conflict" "Terminal projection prepare changed"

end

def commitFrontier (operationId expectedHead : String) (state : State) (next : NextFrontier)
    (intents : List Json) (prepareId : Option String) : Engine Store := do
  let snap ← s.requireHead expectedHead
  let stored ← materialize intents s.materializedIntents
  if prepareId.all fun id => (get? s.prepares id).isSome then
    return { s with
      snapshot := some (advance snap operationId state next)
      pending := []
      materializedIntents := stored
      routeSelections := []
      pendingConsumed := []
      interrupt := none }
  else invalidPatch "projection_prepare_missing" "Terminal projection prepare receipt is missing"

/-! ### What a commit that succeeds has done -/

variable {s} {s' : Store} {head : String}

variable {snap : NativeSnapshot} {task : NativeTask}

theorem requireHead_eq (current : s.snapshot = some snap) :
    s.requireHead snap.checkpointId = .ok snap := by
  simp [requireHead, current]

theorem requireHead_eq_ok (done : s.requireHead head = .ok snap) : s.snapshot = some snap := by
  unfold requireHead at done
  split at done
  · cases done
  · rename_i current found
    split at done
    · cases done
      exact found
    · cases done

theorem commitTaskResult_eq_ok {patch : StatePatch} {used : List String}
    (done : s.commitTaskResult head task patch used = .ok s') :
    s' = { s with
      pending := setDefault s.pending task.taskId patch
      pendingConsumed := used.foldl addToken s.pendingConsumed } := by
  obtain ⟨_, _, done⟩ := bind_eq_ok done
  dsimp only at done
  split at done
  · cases done
    rfl
  · cases done

theorem commitRouteSelection_eq_ok {source route payloadHash taskId : String}
    (done : s.commitRouteSelection head source route payloadHash taskId = .ok s') :
    strip route ≠ "" ∧
      s' = { s with
        routeSelections := setDefault s.routeSelections (strip taskId)
          ⟨strip source, strip route, strip payloadHash⟩ } := by
  obtain ⟨_, _, done⟩ := bind_eq_ok done
  obtain ⟨a, ha, done⟩ := bind_eq_ok done
  obtain ⟨b, hb, done⟩ := bind_eq_ok done
  obtain ⟨c, hc, done⟩ := bind_eq_ok done
  obtain ⟨key, hkey, done⟩ := bind_eq_ok done
  rw [← identity_eq_ok ha, ← identity_eq_ok hb, ← identity_eq_ok hc, ← identity_eq_ok hkey]
  refine ⟨b.2.2, ?_⟩
  dsimp only at done
  split at done
  · cases done
    rfl
  · cases done

theorem commitRetry_eq_ok (done : s.commitRetry head task = .ok s') :
    s' = { s with
      retryAttempts :=
        set s.retryAttempts task.taskId ⟨task.retryAttempt + 1, task.next_pos⟩ } := by
  obtain ⟨_, _, done⟩ := bind_eq_ok done
  cases done
  rfl

theorem commitInterrupt_eq_ok {interrupt : WorkflowInterrupt}
    (done : s.commitInterrupt head task interrupt = .ok s') :
    s' = { s with interrupt := some interrupt } := by
  obtain ⟨_, _, done⟩ := bind_eq_ok done
  split at done
  · split at done
    · cases done
      rfl
    · cases done
  · cases done

theorem commitFailures_eq_ok {tasks : List NativeTask}
    (done : s.commitFailures head tasks = .ok s') :
    ∃ failures, s' = { s with failures := failures } := by
  obtain ⟨_, _, done⟩ := bind_eq_ok done
  cases done
  exact ⟨_, rfl⟩

theorem prepareTerminalProjection_eq_ok {receipt : PrepareReceipt}
    (done : s.prepareTerminalProjection head receipt = .ok s') :
    s' = { s with prepares := setDefault s.prepares receipt.operationId receipt } := by
  obtain ⟨_, _, done⟩ := bind_eq_ok done
  split at done
  · cases done
    rfl
  · cases done

theorem commitFrontier_eq_ok {operationId : String} {state : State} {next : NextFrontier}
    {intents : List Json} {prepareId : Option String}
    (done : s.commitFrontier operationId head state next intents prepareId = .ok s') :
    ∃ snap stored, s.snapshot = some snap ∧ materialize intents s.materializedIntents = .ok stored ∧
      s' = { s with
        snapshot := some (advance snap operationId state next)
        pending := []
        materializedIntents := stored
        routeSelections := []
        pendingConsumed := []
        interrupt := none } := by
  obtain ⟨snap, current, done⟩ := bind_eq_ok done
  obtain ⟨stored, kept, done⟩ := bind_eq_ok done
  split at done
  · cases done
    exact ⟨snap, stored, requireHead_eq_ok current, kept, rfl⟩
  · cases done

end Store
end Workflow
