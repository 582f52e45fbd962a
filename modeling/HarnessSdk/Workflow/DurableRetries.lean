import HarnessSdk.Workflow.OperationLog

/-! How far the durable retry counter counts. Retry rows of one task at one checkpoint share the
columns of the table's second uniqueness rule, so only the first of them can be inserted. -/
namespace Workflow
open PyDict PyText

/-! ### What the rows of a checkpoint say about one task -/

def OperationRow.retries (row : OperationRow) (key : String) : Prop :=
  row.payload.kind = .retry ∧ row.identityKey = key

instance (row : OperationRow) (key : String) : Decidable (row.retries key) :=
  inferInstanceAs (Decidable (_ ∧ _))

def OperationRow.fails (row : OperationRow) : Prop :=
  row.payload.kind = .failure ∨ row.payload.kind = .engineFailure

variable {row : OperationRow} {rows : List OperationRow}

theorem get?_step_other {r : Replayed} {key : String} (other : ¬ row.retries key) :
    get? (r.step row).retries key = get? r.retries key := by
  unfold Replayed.step
  split
  · rfl
  · rfl
  · rename_i attempt at' errorType payload
    have different : row.identityKey ≠ key := by
      intro same
      exact other ⟨by rw [payload]; rfl, same⟩
    exact get?_set_ne _ _ different
  · rfl
  · rfl
  · rfl

variable {attempt : Attempt} {errorType : String}

theorem get?_step_self {r : Replayed} {next : Rat}
    (payload : row.payload = .retry attempt next errorType) :
    get? (r.step row).retries row.identityKey = some (attempt, next) := by
  unfold Replayed.step
  rw [payload]
  exact get?_set_self _ _ _

variable (r : Replayed)

theorem get?_replay_absent {key : String} (absent : ∀ row ∈ rows, ¬ row.retries key) :
    get? (rows.foldl Replayed.step r).retries key = get? r.retries key := by
  induction rows generalizing r with
  | nil => rfl
  | cons row rest ih =>
    rw [List.foldl_cons, ih _ fun other h => absent other (List.mem_cons_of_mem _ h)]
    exact get?_step_other (absent row List.mem_cons_self)

theorem get?_replay_present {next : Rat} (payload : row.payload = .retry attempt next errorType)
    (found : row ∈ rows) (only : ∀ other ∈ rows, other.retries row.identityKey → other = row) :
    get? (rows.foldl Replayed.step r).retries row.identityKey = some (attempt, next) := by
  induction rows generalizing r with
  | nil => cases found
  | cons first rest ih =>
    rw [List.foldl_cons]
    by_cases later : row ∈ rest
    · exact ih _ later fun other h => only other (List.mem_cons_of_mem _ h)
    · have same : first = row := by
        rcases List.mem_cons.mp found with here | there
        · exact here.symm
        · exact absurd there later
      have absent : ∀ other ∈ rest, ¬ other.retries row.identityKey := by
        intro other h again
        have repeated := only other (List.mem_cons_of_mem _ h) again
        rw [repeated] at h
        exact later h
      rw [get?_replay_absent _ absent, same]
      exact get?_step_self payload

theorem replay_failure (clean : r.failure = none) (unfailed : ∀ row ∈ rows, ¬ row.fails) :
    (rows.foldl Replayed.step r).failure = none := by
  induction rows generalizing r with
  | nil => exact clean
  | cons row rest ih =>
    rw [List.foldl_cons]
    apply ih _ _ fun other h => unfailed other (List.mem_cons_of_mem _ h)
    have here := unfailed row List.mem_cons_self
    unfold Replayed.step
    split
    · exact clean
    · exact clean
    · exact clean
    · rename_i error payload
      exact absurd (Or.inl (by rw [payload]; rfl)) here
    · rename_i error payload
      exact absurd (Or.inr (by rw [payload]; rfl)) here
    · exact clean

theorem mem_operationsAt (db : Database) (runId checkpointNs base : String) (row : OperationRow) :
    row ∈ db.operationsAt runId checkpointNs base ↔
      row ∈ db.operations.rows ∧ row.runId = runId ∧ row.checkpointNs = checkpointNs ∧
        row.baseCheckpointId = base := by
  unfold Database.operationsAt
  rw [(List.perm_insertionSort _ _).mem_iff]
  simp

/-! ### A task whose failures are not recorded yet -/

/-- The writer holds the lease of a running run at its head checkpoint. -/
structure Holds (db : Database) (config : Configurable) (snap : NativeSnapshot) : Prop where
  head : ∃ row, db.latest config.runId config.checkpointNs = some row ∧ row.snapshot = snap
  thread : snap.threadId = config.threadId
  owner : config.ownerId ≠ ""
  epoch : ¬ config.leaseEpoch < 1
  lease : ∃ lease, get? db.leases (config.runId, config.checkpointNs) = some lease ∧
    lease.ownerId = config.ownerId ∧ lease.epoch = config.leaseEpoch ∧
    ¬ lease.expiresAt ≤ config.now
  run : ∃ state, get? db.runs config.runId = some state ∧ state.isTerminal = false
  distinct : (snap.frontier.map (·.taskId)).Nodup
  unfailed : ∀ row ∈ db.operationsAt config.runId config.checkpointNs snap.checkpointId,
    ¬ row.fails

variable {db : Database} {config : Configurable} {snap : NativeSnapshot} {task : NativeTask}

theorem Holds.assertWriter_ok (holds : Holds db config snap) :
    db.assertWriter snap.checkpointId config = .ok () := by
  obtain ⟨row, current, rfl⟩ := holds.head
  obtain ⟨lease, leased, owner, epoch, live⟩ := holds.lease
  obtain ⟨state, running, open'⟩ := holds.run
  unfold Database.assertWriter
  simp [holds.owner, holds.epoch, leased, owner, epoch, live, current, running, open', pure,
    Except.pure]

theorem Holds.load (holds : Holds db config snap) :
    ∃ exec, db.loadExecution config = .ok exec ∧
      exec.snapshot = withDurableRetries ((db.operationsAt config.runId config.checkpointNs
        snap.checkpointId).foldl Replayed.step ⟨[], [], [], [], none⟩).retries snap := by
  obtain ⟨row, current, rfl⟩ := holds.head
  have clean := replay_failure ⟨[], [], [], [], none⟩ rfl holds.unfailed
  unfold Database.loadExecution
  rw [current]
  dsimp only
  rw [if_neg (by simp [holds.thread]), clean]
  exact ⟨_, rfl, rfl⟩

theorem find?_map_task {frontier : List NativeTask} {f : NativeTask → NativeTask}
    (renamed : ∀ t, (f t).taskId = t.taskId) (inside : task ∈ frontier)
    (distinct : (frontier.map (·.taskId)).Nodup) :
    (frontier.map f).find? (·.taskId = task.taskId) = some (f task) := by
  have same : ((fun t : NativeTask => decide (t.taskId = task.taskId)) ∘ f) =
      fun t => decide (t.taskId = task.taskId) := by
    funext t
    simp [Function.comp, renamed t]
  rw [List.find?_map, same]
  cases found : frontier.find? (fun t => decide (t.taskId = task.taskId)) with
  | none =>
    have missing := List.find?_eq_none.mp found task inside
    simp at missing
  | some t =>
    have id : t.taskId = task.taskId := by simpa using List.find?_some found
    cases List.inj_on_of_nodup_map distinct (List.mem_of_find?_eq_some found) inside id
    rfl

theorem find?_withDurableRetries {retries : Dict String (Attempt × Rat)}
    (inside : task ∈ snap.frontier) (distinct : (snap.frontier.map (·.taskId)).Nodup) :
    (withDurableRetries retries snap).frontier.find? (·.taskId = task.taskId) =
      some (((get? retries task.taskId).map task.retried).getD task) := by
  apply find?_map_task _ inside distinct
  intro t
  cases get? retries t.taskId <;> rfl

/-- A task of a committed checkpoint none of whose failures is recorded yet. -/
structure Untried (db : Database) (config : Configurable) (snap : NativeSnapshot)
    (task : NativeTask) : Prop extends Holds db config snap where
  now : ¬ config.now < 0
  inside : task ∈ snap.frontier
  first : task.retryAttempt = 1
  unretried : ∀ row ∈ db.operationsAt config.runId config.checkpointNs snap.checkpointId,
    ¬ row.retries task.taskId
  unused : db.operations.find? (retryOperationId snap task) = none

def retrySlot (config : Configurable) (snap : NativeSnapshot) (task : NativeTask) :
    String × String × String × OperationKind × String :=
  (config.runId, config.checkpointNs, snap.checkpointId, .retry, task.taskId)

structure Retried (db : Database) (config : Configurable) (snap : NativeSnapshot)
    (task : NativeTask) : Prop extends Holds db config snap where
  inside : task ∈ snap.frontier
  recorded : ∃ row ∈ db.operations.rows, row.slot = retrySlot config snap task ∧
    ∃ attempt next errorType, row.payload = .retry attempt next errorType ∧ attempt.1 = 2

section
variable {db : Database} {config : Configurable} {snap : NativeSnapshot} {task : NativeTask}

theorem Untried.load_first (untried : Untried db config snap task) :
    ∃ exec, db.loadExecution config = .ok exec ∧ exec.snapshot.runId = snap.runId ∧
      exec.snapshot.checkpointId = snap.checkpointId ∧
      exec.snapshot.frontier.find? (·.taskId = task.taskId) = some task := by
  obtain ⟨exec, loaded, snapshot⟩ := untried.load
  refine ⟨exec, loaded, by rw [snapshot]; rfl, by rw [snapshot]; rfl, ?_⟩
  rw [snapshot, find?_withDurableRetries untried.inside untried.distinct,
    get?_replay_absent _ untried.unretried]
  rfl

theorem Retried.load_second (retried : Retried db config snap task) :
    ∃ exec t, db.loadExecution config = .ok exec ∧ exec.snapshot.checkpointId = snap.checkpointId ∧
      exec.snapshot.frontier.find? (·.taskId = task.taskId) = some t ∧ t.taskId = task.taskId ∧
      t.retryAttempt = 2 := by
  obtain ⟨exec, loaded, snapshot⟩ := retried.load
  obtain ⟨row, member, slot, attempt, next, errorType, payload, two⟩ := retried.recorded
  simp only [OperationRow.slot, retrySlot, Prod.mk.injEq] at slot
  obtain ⟨run, namespaced, base, kind, key⟩ := slot
  have here : row ∈ db.operationsAt config.runId config.checkpointNs snap.checkpointId :=
    (mem_operationsAt _ _ _ _ _).mpr ⟨member, run, namespaced, base⟩
  have only : ∀ other ∈ db.operationsAt config.runId config.checkpointNs snap.checkpointId,
      other.retries row.identityKey → other = row := by
    intro other found again
    obtain ⟨inTable, run', namespaced', base'⟩ := (mem_operationsAt _ _ _ _ _).mp found
    apply List.inj_on_of_nodup_map db.operations.unique inTable member
    simp only [OperationRow.slot, Prod.mk.injEq]
    exact ⟨run'.trans run.symm, namespaced'.trans namespaced.symm, base'.trans base.symm,
      again.1.trans kind.symm, again.2⟩
  have read := get?_replay_present ⟨[], [], [], [], none⟩ payload here only
  rw [key] at read
  refine ⟨exec, task.retried (attempt, next), loaded, by rw [snapshot]; rfl, ?_, rfl, two⟩
  rw [snapshot, find?_withDurableRetries retried.inside retried.distinct, read]
  rfl

theorem find?_eq_none_mem {table : OperationTable} {operationId : String}
    (absent : table.find? operationId = none) : operationId ∉ table.rows.map (·.operationId) := by
  intro found
  obtain ⟨row, member, id⟩ := List.mem_map.mp found
  have missing := List.find?_eq_none.mp absent row member
  simp [id] at missing

variable {w : CompiledWorkflow} {hash : OperationPayload → String} {failed : FailedAttempt}

theorem Untried.record (hash : OperationPayload → String) (untried : Untried db config snap task)
    (again : retryable w task failed.error = true) :
    ∃ db', recordFailure hash w task.taskId config failed db = .ok db' ∧
      Retried db' config snap task := by
  obtain ⟨exec, loaded, run, checkpoint, found⟩ := untried.load_first
  let payload := OperationPayload.retry ⟨task.retryAttempt + 1, Nat.le_add_left _ _⟩
    failed.nextAttemptAt "WorkflowNodeError"
  let row : OperationRow := ⟨retryOperationId snap task, config.runId, config.checkpointNs,
    snap.checkpointId, task.taskId, payload, hash payload, config.now⟩
  have primary : row.operationId ∉ db.operations.rows.map (·.operationId) :=
    find?_eq_none_mem untried.unused
  have unique : row.slot ∉ db.operations.rows.map (·.slot) := by
    intro taken
    obtain ⟨other, member, same⟩ := List.mem_map.mp taken
    simp only [OperationRow.slot, Prod.mk.injEq] at same
    obtain ⟨run', namespaced, base, kind, key⟩ := same
    exact untried.unretried other ((mem_operationsAt _ _ _ _ _).mpr ⟨member, run', namespaced, base⟩)
      ⟨kind, key⟩
  have inserted : ∃ table, db.operations.insert row = .ok table ∧
      table.rows = db.operations.rows ++ [row] := by
    unfold OperationTable.insert
    rw [dif_neg primary, dif_neg unique, if_neg untried.now]
    exact ⟨_, rfl, rfl⟩
  obtain ⟨table, inserted, rows⟩ := inserted
  have operationId : retryOperationId exec.snapshot task = retryOperationId snap task := by
    rw [retryOperationId, run, checkpoint]
    rfl
  refine ⟨{ db with operations := table }, ?_, ?_⟩
  · simp only [recordFailure, loaded, bind, Except.bind, found, again, if_true, operationId,
      checkpoint, commitRetry, untried.unused, untried.assertWriter_ok,
      Database.writeNativeOperation]
    rw [show db.operations.insert _ = _ from inserted]
    rfl
  · have unfailed : ∀ other ∈ ({ db with operations := table } : Database).operationsAt config.runId
        config.checkpointNs snap.checkpointId, ¬ other.fails := by
      intro other member
      obtain ⟨inTable, rest⟩ := (mem_operationsAt _ _ _ _ _).mp member
      dsimp only at inTable
      rw [rows] at inTable
      rcases mem_snoc.mp inTable with old | rfl
      · exact untried.unfailed other ((mem_operationsAt _ _ _ _ _).mpr ⟨old, rest⟩)
      · rintro (bad | bad) <;> cases bad
    refine ⟨{ untried.toHolds with unfailed := unfailed }, untried.inside, row, ?_, rfl, ⟨_, _⟩, _, _, rfl, ?_⟩
    · dsimp only
      rw [rows]
      simp
    · dsimp only
      rw [untried.first]

variable {db' : Database} {failures : List FailedAttempt}

theorem Retried.record (retried : Retried db config snap task)
    (done : recordFailure hash w task.taskId config failed db = .ok db') : db' = db := by
  obtain ⟨exec, t, loaded, checkpoint, found, id, _⟩ := retried.load_second
  obtain ⟨recorded, member, slot, _⟩ := retried.recorded
  simp only [recordFailure, loaded, bind, Except.bind, found] at done
  split at done
  · unfold commitRetry at done
    dsimp only at done
    split at done
    · rename_i existing present
      unfold Database.writeNativeOperation at done
      dsimp only at done
      rw [present] at done
      dsimp only at done
      split at done
      · cases done
        rfl
      · cases done
    · rename_i absent
      rw [checkpoint] at done
      obtain ⟨_, _, done⟩ := bind_eq_ok done
      unfold Database.writeNativeOperation at done
      dsimp only at done
      rw [absent] at done
      obtain ⟨table, inserted, _⟩ := bind_eq_ok done
      unfold OperationTable.insert at inserted
      split at inserted
      · cases inserted
      · split at inserted
        · cases inserted
        · rename_i free
          refine absurd (List.mem_map.mpr ⟨recorded, member, slot.trans ?_⟩) free
          rw [OperationRow.slot, retrySlot, id]
          rfl
  · cases done

theorem Retried.records (retried : Retried db config snap task)
    (done : recordFailures hash w task.taskId config failures db = .ok db') : db' = db := by
  induction failures with
  | nil =>
    cases done
    rfl
  | cons failed rest ih =>
    obtain ⟨middle, first, later⟩ := bind_eq_ok done
    cases retried.record first
    exact ih later

/-- Failures of a task that its node allows to be retried. -/
def Repeatable (w : CompiledWorkflow) (task : NativeTask) (failures : List FailedAttempt) : Prop :=
  ∃ node, w.node task.nodeId = some node ∧ failures.length < node.retryPolicy.maxAttempts ∧
    ∀ f ∈ failures, f.error.retryable = true ∧
      f.error.code.value ∈ node.retryPolicy.retryableCodes

/-- Every commit succeeds and the task is loaded with one attempt more than failures. -/
def RetriesCount (hash : OperationPayload → String) (w : CompiledWorkflow) (config : Configurable)
    (task : NativeTask) (failures : List FailedAttempt) (db : Database) : Prop :=
  ∃ db', recordFailures hash w task.taskId config failures db = .ok db' ∧
    ∃ exec, db'.loadExecution config = .ok exec ∧
      (exec.snapshot.frontier.find? (·.taskId = task.taskId)).map (·.retryAttempt) =
        some (1 + failures.length)

theorem Repeatable.retryable_first (repeatable : Repeatable w task (failed :: failures))
    (first : task.retryAttempt = 1) : retryable w task failed.error = true := by
  obtain ⟨node, found, fewer, codes⟩ := repeatable
  obtain ⟨again, code⟩ := codes failed List.mem_cons_self
  have within : task.retryAttempt < node.retryPolicy.maxAttempts := by
    rw [List.length_cons] at fewer
    omega
  simp [retryable, found, again, code, within]

theorem retriesCount_of_le (untried : Untried db config snap task)
    (repeatable : Repeatable w task failures) (short : failures.length ≤ 1) :
    RetriesCount hash w config task failures db := by
  cases failures with
  | nil =>
    obtain ⟨exec, loaded, _, _, found⟩ := untried.load_first
    refine ⟨db, rfl, exec, loaded, ?_⟩
    rw [found, Option.map_some, untried.first]
    rfl
  | cons failed rest =>
    have alone : rest = [] := by
      rw [List.length_cons] at short
      exact List.length_eq_zero_iff.mp (by omega)
    subst alone
    obtain ⟨db', recorded, retried⟩ :=
      untried.record hash (repeatable.retryable_first untried.first)
    obtain ⟨exec, t, loaded, _, found, _, two⟩ := retried.load_second
    refine ⟨db', ?_, exec, loaded, ?_⟩
    · simp only [recordFailures, recorded, bind, Except.bind]
    · rw [found, Option.map_some, two]
      rfl

theorem RetriesCount.length_le (untried : Untried db config snap task)
    (repeatable : Repeatable w task failures)
    (counts : RetriesCount hash w config task failures db) : failures.length ≤ 1 := by
  obtain ⟨db', done, exec, loaded, attempts⟩ := counts
  cases failures with
  | nil => exact Nat.zero_le 1
  | cons failed rest =>
    obtain ⟨middle, recorded, retried⟩ :=
      untried.record hash (repeatable.retryable_first untried.first)
    simp only [recordFailures, recorded, bind, Except.bind] at done
    cases retried.records done
    obtain ⟨exec', t, loaded', _, found, _, two⟩ := retried.load_second
    cases loaded.symm.trans loaded'
    rw [found, Option.map_some, two, Option.some.injEq] at attempts
    omega

/-- The durable counter goes up to two: it counts the failures if there is at most one. -/
theorem durable_retries_count_iff (untried : Untried db config snap task)
    {failures : List FailedAttempt} (repeatable : Repeatable w task failures) :
    RetriesCount hash w config task failures db ↔ failures.length ≤ 1 :=
  ⟨RetriesCount.length_le untried repeatable, retriesCount_of_le untried repeatable⟩

end

/-! ### A node with three attempts -/

def fetching : WorkflowDefinition where
  name := "fetching"
  version := "1"
  stateSchemaVersion := 1
  entryNode := "fetch"
  nodes := [⟨{ nodeId := "fetch", retryPolicy := ⟨3, ["retryable_provider"], by decide⟩ }, by decide⟩]
  channels := []
  recursionLimit := 11
  maxSupersteps := 10

theorem fetching_accepted : validateDefinition fetching = .ok () := by decide +kernel

theorem fetching_bound : cycleBindings fetching (adjacencyOf fetching false) = .ok [] := by
  decide +kernel

def fetchingWorkflow : CompiledWorkflow := ⟨fetching, fetching_accepted, [], fetching_bound⟩

def fetchingDatabase (snap : NativeSnapshot) : Database where
  runs := [("run", .running)]
  leases := [(("run", ""), ⟨"worker", 1, 10⟩)]
  checkpoints := [⟨"run", "", 0, snap⟩]
  operations := ⟨[], List.nodup_nil, List.nodup_nil⟩

def fetchingConfig : Configurable := ⟨"run", "thread", "", "worker", 1, 0⟩

def providerFailure : FailedAttempt := ⟨⟨.retryableProvider, "provider", true, some "fetch"⟩, 5⟩

def fetchingHash : OperationPayload → String
  | .retry attempt _ errorType =>
    Sha256.hexdigest ("\x7b\"error_type\":\"" ++ errorType ++
      "\",\"next_attempt_at\":5.0,\"retry_attempt\":" ++ toString attempt.1 ++ "\x7d")
  | _ => Sha256.hexdigest "\x7b\x7d"

theorem fetching_untried : ∃ snap task,
    genesis fetchingWorkflow plainInvocation = .ok snap ∧ task.nodeId = "fetch" ∧
      Untried (fetchingDatabase snap) fetchingConfig snap task := by
  obtain ⟨snap, start⟩ := genesis_ok fetchingWorkflow plainInvocation
    (by decide +kernel) (by decide +kernel) (by decide +kernel)
  obtain ⟨task, entry, alone, _⟩ := genesis_eq_ok start
  have thread : snap.threadId = "thread" := by
    rw [(genesis_identity start).1]
    decide +kernel
  refine ⟨snap, task, start, ?_, ⟨⟨_, rfl, rfl⟩, thread, by decide, by decide,
    ⟨_, rfl, rfl, rfl, by decide⟩, ⟨_, rfl, rfl⟩, by simp [alone], ?_⟩, by decide, by simp [alone],
    create_retryAttempt entry, ?_, rfl⟩
  · rw [(entryTask_eq_ok entry).2.1]
    decide +kernel
  · intro row member
    cases ((mem_operationsAt _ _ _ _ _).mp member).1
  · intro row member
    cases ((mem_operationsAt _ _ _ _ _).mp member).1

theorem fetching_repeatable (node : task.nodeId = "fetch") {n : Nat} (fewer : n < 3) :
    Repeatable fetchingWorkflow task (List.replicate n providerFailure) := by
  refine ⟨_, by rw [node]; rfl, by rw [List.length_replicate]; exact fewer, ?_⟩
  intro f hf
  cases List.eq_of_mem_replicate hf
  decide

theorem durable_retries_count_iff_fetching : ∃ snap task,
    Untried (fetchingDatabase snap) fetchingConfig snap task ∧
      (RetriesCount fetchingHash fetchingWorkflow fetchingConfig task [providerFailure]
        (fetchingDatabase snap) ↔ 1 ≤ 1) := by
  obtain ⟨snap, task, _, node, untried⟩ := fetching_untried
  exact ⟨snap, task, untried, durable_retries_count_iff untried
    (fetching_repeatable node (n := 1) (by decide))⟩

/-- The node allows three attempts, but of its first two failures the second one is refused. -/
theorem fetching_retry_refused :
    compileWorkflow fetching = .ok fetchingWorkflow ∧
    ∃ snap task, genesis fetchingWorkflow plainInvocation = .ok snap ∧
      Untried (fetchingDatabase snap) fetchingConfig snap task ∧
      Repeatable fetchingWorkflow task [providerFailure, providerFailure] ∧
      ¬ RetriesCount fetchingHash fetchingWorkflow fetchingConfig task
        [providerFailure, providerFailure] (fetchingDatabase snap) := by
  refine ⟨compileWorkflow_ok fetching_accepted fetching_bound, ?_⟩
  obtain ⟨snap, task, start, node, untried⟩ := fetching_untried
  have repeatable : Repeatable fetchingWorkflow task [providerFailure, providerFailure] :=
    fetching_repeatable node (n := 2) (by decide)
  refine ⟨snap, task, start, untried, repeatable, ?_⟩
  intro counts
  have short := counts.length_le untried repeatable
  simp at short

end Workflow
