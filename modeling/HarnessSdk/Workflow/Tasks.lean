import HarnessSdk.Workflow.Frontier

/-! How the outcomes of a frontier's tasks are settled: a suspension, a retry or a failure stops
the superstep, otherwise all results go on to the merge. -/
namespace Workflow
open PyDict PyText

structure WorkflowInterrupt where
  interruptId : String
  taskId : String
  payload : Json

def interruptId (taskId : String) : String := Sha256.hexdigest (taskId ++ "|0")

/-- The outcome of one task: a patch with the interrupt responses it consumed, a suspension, or a
node error. -/
inductive Outcome
  | result (patch : StatePatch) (consumed : List String)
  | suspended (interrupt : WorkflowInterrupt)
  | failed (error : WorkflowNodeError)

structure TaskOutcome where
  task : NativeTask
  outcome : Outcome

def TaskOutcome.isSuspended (o : TaskOutcome) : Bool :=
  match o.outcome with
  | .suspended _ => true
  | _ => false

/-- `min` over a key that begins with a flag; the first of equal items wins. -/
def minByKey {α : Type} (flag : α → Bool) (key : α → String) : List α → Option α
  | [] => none
  | x :: rest =>
    match minByKey flag key rest with
    | none => some x
    | some y =>
      if (!flag x && flag y) || (flag x == flag y && key x ≤ key y) then some x else some y

def parallelInterruptError (task : NativeTask) : WorkflowNodeError where
  code := .invalidState
  messageRef := "workflow_engine:parallel_interrupt_invariant"
  retryable := false
  nodeId := some task.nodeId

inductive Settlement
  | interrupted (task : NativeTask) (interrupt : WorkflowInterrupt)
  | retry (task : NativeTask) (error : WorkflowNodeError)
  | failed (task : NativeTask) (error : WorkflowNodeError)
  | completed

section
variable (w : CompiledWorkflow)

def retryable (task : NativeTask) (error : WorkflowNodeError) : Bool :=
  match w.node task.nodeId with
  | none => false
  | some node =>
    error.retryable && error.code.value ∈ node.retryPolicy.retryableCodes &&
      task.retryAttempt < node.retryPolicy.maxAttempts

/-- Of the failures the non-retryable ones come first, then the smallest task id. -/
def settleFailures (failures : List (NativeTask × WorkflowNodeError)) : Settlement :=
  match minByKey (fun f => retryable w f.1 f.2) (·.1.taskId) failures with
  | none => .completed
  | some (task, error) => if retryable w task error then .retry task error else .failed task error

def selectedSuspension (outcomes : List TaskOutcome) : Option (NativeTask × WorkflowInterrupt) :=
  minByKey (fun _ => false) (·.1.taskId) (outcomes.filterMap fun o =>
    match o.outcome with
    | .suspended interrupt => some (o.task, interrupt)
    | _ => none)

/-- A suspension is refused unless its task is alone in the frontier and not dispatched in
parallel. -/
def breaksBarrier (frontier : List NativeTask) (task : NativeTask) : Bool :=
  frontier.length != 1 || (w.node task.nodeId).any fun node => node.dispatch = .parallel

def settle (frontier : List NativeTask) (outcomes : List TaskOutcome) : Settlement :=
  match selectedSuspension outcomes with
  | some (task, interrupt) =>
    if breaksBarrier w frontier task then
      settleFailures w [(task, parallelInterruptError task)]
    else .interrupted task interrupt
  | none =>
    settleFailures w (outcomes.filterMap fun o =>
      match o.outcome with
      | .failed error => some (o.task, error)
      | _ => none)

end

theorem minByKey_mem {α : Type} {flag : α → Bool} {key : α → String} {items : List α} {x : α}
    (found : minByKey flag key items = some x) : x ∈ items := by
  induction items generalizing x with
  | nil => cases found
  | cons y rest ih =>
    rw [minByKey] at found
    split at found
    · cases found
      simp
    · rename_i z hz
      split at found
      · cases found
        simp
      · cases found
        exact List.mem_cons_of_mem _ (ih hz)

variable {outcomes : List TaskOutcome} {task : NativeTask} {w : CompiledWorkflow}
  {failures : List (NativeTask × WorkflowNodeError)} {error : WorkflowNodeError}

theorem selectedSuspension_mem {interrupt : WorkflowInterrupt}
    (found : selectedSuspension outcomes = some (task, interrupt)) :
    ⟨task, .suspended interrupt⟩ ∈ outcomes := by
  obtain ⟨⟨t, outcome⟩, ho, kept⟩ := List.mem_filterMap.mp (minByKey_mem found)
  cases outcome with
  | suspended i =>
    cases kept
    exact ho
  | result => cases kept
  | failed => cases kept

theorem minByKey_eq_none {α : Type} {flag : α → Bool} {key : α → String} {items : List α}
    (nothing : minByKey flag key items = none) : items = [] := by
  cases items with
  | nil => rfl
  | cons x rest =>
    rw [minByKey] at nothing
    split at nothing
    · cases nothing
    · split at nothing <;> cases nothing

theorem settleFailures_completed (done : settleFailures w failures = .completed) :
    failures = [] := by
  unfold settleFailures at done
  split at done
  · rename_i nothing
    exact minByKey_eq_none nothing
  · split at done <;> cases done

theorem settleFailures_retry (done : settleFailures w failures = .retry task error) :
    (task, error) ∈ failures ∧ retryable w task error = true := by
  unfold settleFailures at done
  split at done
  · cases done
  · rename_i found
    split at done
    · rename_i again
      cases done
      exact ⟨minByKey_mem found, again⟩
    · cases done

variable {frontier : List NativeTask}

theorem settle_completed (done : settle w frontier outcomes = .completed) :
    ∀ o ∈ outcomes, ∃ patch consumed, o.outcome = .result patch consumed := by
  unfold settle at done
  split at done
  · split at done
    · exact absurd (settleFailures_completed done) (by simp)
    · cases done
  · rename_i none
    have unsuspended := minByKey_eq_none none
    have unfailed := settleFailures_completed done
    rw [List.filterMap_eq_nil_iff] at unsuspended unfailed
    intro o ho
    cases outcome : o.outcome with
    | result patch consumed => exact ⟨patch, consumed, rfl⟩
    | suspended interrupt => simpa [outcome] using unsuspended o ho
    | failed error => simpa [outcome] using unfailed o ho

theorem settle_retry (done : settle w frontier outcomes = .retry task error) :
    ⟨task, .failed error⟩ ∈ outcomes := by
  unfold settle at done
  split at done
  · split at done
    · obtain ⟨same, again⟩ := settleFailures_retry done
      cases List.mem_singleton.mp same
      unfold retryable at again
      split at again
      · cases again
      · simp [parallelInterruptError] at again
    · cases done
  · obtain ⟨failed, _⟩ := settleFailures_retry done
    obtain ⟨⟨t, outcome⟩, ho, kept⟩ := List.mem_filterMap.mp failed
    cases outcome with
    | failed e =>
      cases kept
      exact ho
    | result => cases kept
    | suspended => cases kept

theorem settle_all_results
    (all : ∀ o ∈ outcomes, ∃ patch consumed, o.outcome = .result patch consumed) :
    settle w frontier outcomes = .completed := by
  rw [settle, selectedSuspension, List.filterMap_eq_nil_iff.mpr, minByKey]
  · dsimp only
    rw [List.filterMap_eq_nil_iff.mpr]
    · rfl
    · intro o ho
      obtain ⟨patch, consumed, outcome⟩ := all o ho
      rw [outcome]
  · intro o ho
    obtain ⟨patch, consumed, outcome⟩ := all o ho
    rw [outcome]

end Workflow
