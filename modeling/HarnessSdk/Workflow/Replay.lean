import HarnessSdk.Workflow.Drive

/-! Stopping and driving again: every durable write of a partly executed superstep agrees with
what the driver left alone would write, so the frontiers that get committed are the same. -/
namespace Workflow
open PyDict PyText

/-! ### More responses do not change what a task already did -/

theorem NodeProgram.run_mono {ρ answers : Responses}
    (answered : ∀ id value, ρ id = some value → answers id = some value) {id : String}
    {result : Engine StatePatch} {used : List String} (p : NodeProgram) :
    ∀ (asked : Bool) (consumed : List String), p.run ρ id asked consumed = .finished result used →
      p.run answers id asked consumed = .finished result used := by
  induction p with
  | finish r =>
    intro asked consumed done
    exact done
  | interrupt payload resume ih =>
    intro asked consumed done
    rw [NodeProgram.run] at done ⊢
    cases asked with
    | true => exact ih _ _ _ done
    | false =>
      cases response : ρ id with
      | none => simp [response] at done
      | some value =>
        rw [response] at done
        rw [answered id value response]
        exact ih _ _ _ done

section
variable {x : Executable} {answers : Responses}

variable {state : State}

theorem runNode_mono {ρ : Responses} {nodeId taskId : String}
    (answered : ∀ id value, ρ id = some value → answers id = some value)
    {result : Engine StatePatch} {consumed : List String}
    (done : x.runNode ρ state nodeId taskId = .finished result consumed) :
    x.runNode answers state nodeId taskId = .finished result consumed := by
  unfold Executable.runNode at done ⊢
  cases ran : (x.handler nodeId state).run ρ (interruptId taskId) false [] with
  | suspended payload => simp [ran] at done
  | finished r c =>
    rw [NodeProgram.run_mono answered _ _ _ ran]
    rw [ran] at done
    exact done

theorem runTaskWorker_mono {ρ : Responses} {task : NativeTask}
    (answered : ∀ id value, ρ id = some value → answers id = some value)
    {outcome : Engine Outcome} (done : x.runTaskWorker ρ state task = outcome)
    (ended : ∀ i, outcome ≠ .ok (.suspended i)) : x.runTaskWorker answers state task = outcome := by
  unfold Executable.runTaskWorker at done ⊢
  cases ran : x.runNode ρ state task.nodeId task.taskId with
  | suspended payload =>
    rw [ran] at done
    exact absurd done.symm (ended _)
  | finished result consumed =>
    rw [runNode_mono answered ran]
    rw [ran] at done
    exact done

theorem runTaskWorker_congr (ρ : Responses) (state : State) {task task' : NativeTask}
    (id : task.taskId = task'.taskId) (node : task.nodeId = task'.nodeId) :
    x.runTaskWorker ρ state task = x.runTaskWorker ρ state task' := by
  unfold Executable.runTaskWorker
  rw [id, node]

end

/-! ### The superstep of a driver left alone -/

section
variable (x : Executable) (answers : Responses) (snap : NativeSnapshot)

def Yields (task : NativeTask) (patch : StatePatch) (consumed : List String) : Prop :=
  x.runTaskWorker answers snap.state task = .ok (.result patch consumed)

def Fails (task : NativeTask) : Prop :=
  ∃ error, x.runTaskWorker answers snap.state task = .ok (.failed error)

def Settled : Prop := ∀ task ∈ snap.frontier, ∃ patch consumed, Yields x answers snap task patch consumed

def resultOf (task : NativeTask) : StatePatch :=
  match x.runTaskWorker answers snap.state task with
  | .ok (.result patch _) => patch
  | _ => []

def fresh : NativeExecution := ⟨snap, [], [], []⟩

/-- All tasks end with a result, and the results merge into this state. -/
def MergesTo (state : State) : Prop :=
  Settled x answers snap ∧ mergedState x.workflow snap (resultOf x answers snap) = .ok state

def Selects (state : State) (task : NativeTask) (route target : String) : Prop :=
  ∃ conditional, x.workflow.conditionalFor task.nodeId = some conditional ∧
    x.route conditional snap state = .ok route ∧ get? conditional.routes route = some target

/-- Looked up again under its stored name, a selected route leads to the same target. A blank name
is never stored. -/
def RouteNamesStable : Prop :=
  ∀ state, MergesTo x answers snap state → ∀ task ∈ snap.frontier, ∀ conditional,
    x.workflow.conditionalFor task.nodeId = some conditional →
      ∀ route, x.route conditional snap state = .ok route →
        strip route = "" ∨ get? conditional.routes (strip route) = get? conditional.routes route

/-- What the driver left alone commits at this snapshot, and the intents delivered afterwards. -/
structure Advances (inv : Invocation) (stored : Dict String Json) (record : Record)
    (stored' : Dict String Json) : Prop where
  identified : snap.runId = inv.runId ∧ snap.threadId = inv.threadId ∧
    snap.checkpointNs = inv.checkpointNs
  active : snap.frontier ≠ []
  within : snap.step < x.workflow.definition.maxSupersteps
  known : ∀ task ∈ snap.frontier, (x.workflow.node task.nodeId).isSome
  named : ∀ state, MergesTo x answers snap state → ∀ task ∈ snap.frontier, ∀ route target,
    Selects x snap state task route target → strip route ≠ ""
  committed : ∃ state next receipt prepared intents, MergesTo x answers snap state ∧
    nextFrontier x.workflow snap (x.selectedRoute (fresh snap) state) state = .ok next ∧
    x.prepareTerminalProjection snap state next.frontier [] = .ok (receipt, prepared) ∧
    x.intentsOf snap state next.frontier receipt = .ok intents ∧
    stateBlobRefs state = .ok () ∧ materialize intents stored = .ok stored' ∧
    record.snapshot =
      advance snap (frontierOperationId snap next.frontier state intents) state next
  consumed : ∀ id, id ∈ record.consumed ↔
    ∃ task ∈ snap.frontier, ∃ patch used, Yields x answers snap task patch used ∧ id ∈ used
  writes : record.writes =
    (sortedBy (·.taskId) snap.frontier).map fun task => (task.taskId, resultOf x answers snap task)

end

/-- The same frontier committed twice: only the order in which consumed interrupts are listed may
differ. -/
structure Record.Same (a b : Record) : Prop where
  snapshot : a.snapshot = b.snapshot
  consumed : ∀ id, id ∈ a.consumed ↔ id ∈ b.consumed
  writes : a.writes = b.writes

theorem Advances.unique {x : Executable} {answers : Responses} {snap : NativeSnapshot}
    {inv : Invocation} {stored stored' stored'' : Dict String Json} {a b : Record}
    (one : Advances x answers snap inv stored a stored')
    (other : Advances x answers snap inv stored b stored'') :
    a.Same b ∧ stored' = stored'' := by
  obtain ⟨state, next, receipt, _, intents, merges, scheduled, prepares, delivers, _, keeps, sa⟩ :=
    one.committed
  obtain ⟨state', next', receipt', _, intents', merges', scheduled', prepares', delivers', _,
    keeps', sb⟩ := other.committed
  cases merges.2.symm.trans merges'.2
  cases scheduled.symm.trans scheduled'
  cases prepares.symm.trans prepares'
  cases delivers.symm.trans delivers'
  cases keeps.symm.trans keeps'
  refine ⟨⟨sa.trans sb.symm, ?_, one.writes.trans other.writes.symm⟩, rfl⟩
  intro id
  rw [one.consumed, other.consumed]

/-! ### What a partly executed superstep leaves in the store -/

def selectionOf (task : NativeTask) (route target : String) : RouteSelection :=
  ⟨task.nodeId, strip route, stableId [task.taskId, route, target]⟩

section
variable (x : Executable) (answers : Responses) (snap : NativeSnapshot)

def Prepared (receipt : PrepareReceipt) : Prop :=
  ∃ state next, MergesTo x answers snap state ∧
    nextFrontier x.workflow snap (x.selectedRoute (fresh snap) state) state = .ok next ∧
    next.frontier = [] ∧
    x.prepareTerminalProjection snap state [] [] = .ok (some receipt, [.prepare receipt])

/-- Every durable write belongs to the superstep of the driver left alone. -/
structure Resumable (s : Store) : Prop where
  head : s.snapshot = some snap
  distinct : (snap.frontier.map (·.taskId)).Nodup
  pending : ∀ id patch, get? s.pending id = some patch →
    ∃ task ∈ snap.frontier, task.taskId = id ∧ ∃ used, Yields x answers snap task patch used ∧
      ∀ i ∈ used, i ∈ s.pendingConsumed
  consumed : ∀ i ∈ s.pendingConsumed, ∃ task ∈ snap.frontier,
    (get? s.pending task.taskId).isSome ∧
      ∃ patch used, Yields x answers snap task patch used ∧ i ∈ used
  routes : ∀ id selection, get? s.routeSelections id = some selection →
    ∃ task ∈ snap.frontier, task.taskId = id ∧ ∃ state route target,
      MergesTo x answers snap state ∧ Selects x snap state task route target ∧
      strip route ≠ "" ∧ selection = selectionOf task route target
  retries : ∀ id ∈ keys s.retryAttempts, ∃ task ∈ snap.frontier, task.taskId = id ∧
    Fails x answers snap task
  prepares : snap.frontier ≠ [] → ∀ id receipt, get? s.prepares id = some receipt →
    Prepared x answers snap receipt ∧ receipt.operationId = id

/-- A write that the driver left alone makes as well. -/
def Replayable : Commit → Prop
  | .taskResult task patch used =>
    ∃ t ∈ snap.frontier, t.taskId = task.taskId ∧ Yields x answers snap t patch used
  | .route source route payloadHash taskId =>
    ∃ t ∈ snap.frontier, ∃ state target, MergesTo x answers snap state ∧
      Selects x snap state t route target ∧ source = t.nodeId ∧
      payloadHash = stableId [t.taskId, route, target] ∧ taskId = t.taskId
  | .prepare receipt => Prepared x answers snap receipt
  | _ => False

/-- A write that ends the drive and that no later superstep reads. -/
def Halting : Commit → Prop
  | .interrupt _ _ => True
  | .failure _ => True
  | .engineFailure _ => True
  | .retry task => ∃ t ∈ snap.frontier, t.taskId = task.taskId ∧ Fails x answers snap t
  | _ => False

end

theorem sameText_refl (value : Json) : value.sameText value = true := by
  simp [Json.sameText]

theorem PrepareReceipt.same_refl (receipt : PrepareReceipt) : receipt.same receipt = true := by
  simp [PrepareReceipt.same, sameText_refl]

theorem mem_foldl_addToken (used acc : List String) (id : String) :
    id ∈ used.foldl addToken acc ↔ id ∈ acc ∨ id ∈ used := by
  induction used generalizing acc with
  | nil => simp
  | cons first rest ih =>
    rw [List.foldl_cons, ih, mem_addToken, List.mem_cons]
    tauto

variable (task : NativeTask)

theorem NativeTask.strip_taskId : strip task.taskId = task.taskId :=
  (task.identified task.taskId (by simp)).1

theorem NativeTask.strip_nodeId : strip task.nodeId = task.nodeId :=
  (task.identified task.nodeId (by simp)).1

theorem NativeTask.strip_taskId_ne_empty : strip task.taskId ≠ "" := by
  rw [task.strip_taskId]
  exact (task.identified task.taskId (by simp)).2

theorem NativeTask.strip_nodeId_ne_empty : strip task.nodeId ≠ "" := by
  rw [task.strip_nodeId]
  exact (task.identified task.nodeId (by simp)).2

section
variable {x : Executable} {answers : Responses} {snap : NativeSnapshot} {s s' : Store}

variable {task t : NativeTask} {state : State}

theorem Yields.unique {patch patch' : StatePatch} {used used' : List String}
    (one : Yields x answers snap task patch used)
    (other : Yields x answers snap task patch' used') : patch = patch' ∧ used = used' := by
  unfold Yields at one other
  rw [one] at other
  cases other
  exact ⟨rfl, rfl⟩

theorem MergesTo.unique {state' : State} (one : MergesTo x answers snap state)
    (other : MergesTo x answers snap state') : state = state' := by
  have same := one.2.symm.trans other.2
  cases same
  rfl

theorem Selects.unique {route route' target target' : String}
    (one : Selects x snap state task route target)
    (other : Selects x snap state task route' target') : route = route' ∧ target = target' := by
  obtain ⟨conditional, edge, selected, leads⟩ := one
  obtain ⟨conditional', edge', selected', leads'⟩ := other
  cases edge.symm.trans edge'
  cases selected.symm.trans selected'
  cases leads.symm.trans leads'
  exact ⟨rfl, rfl⟩

theorem Prepared.unique {a b : PrepareReceipt} (one : Prepared x answers snap a)
    (other : Prepared x answers snap b) : a = b := by
  obtain ⟨state, _, merges, _, _, receipt⟩ := one
  obtain ⟨state', _, merges', _, _, receipt'⟩ := other
  cases merges.unique merges'
  cases receipt.symm.trans receipt'
  rfl

section
variable (kept : Resumable x answers snap s)
include kept

theorem Resumable.task_unique {a b : NativeTask}
    (ha : a ∈ snap.frontier) (hb : b ∈ snap.frontier) (same : a.taskId = b.taskId) : a = b :=
  List.inj_on_of_nodup_map kept.distinct ha hb same

theorem Resumable.keep_taskResult {id : String}
    {patch : StatePatch} {used : List String} (inside : t ∈ snap.frontier) (named : t.taskId = id)
    (yields : Yields x answers snap t patch used) :
    Resumable x answers snap { s with
      pending := setDefault s.pending id patch
      pendingConsumed := used.foldl addToken s.pendingConsumed } := by
  refine { kept with pending := ?_, consumed := ?_ }
  · intro id' patch' found
    have more : ∀ i, i ∈ s.pendingConsumed → i ∈ used.foldl addToken s.pendingConsumed :=
      fun i hi => (mem_foldl_addToken _ _ _).mpr (Or.inl hi)
    rw [get?_setDefault] at found
    split at found
    · rename_i same
      cases old : get? s.pending id with
      | none =>
        rw [old] at found
        cases found
        exact ⟨t, inside, named.trans same, used, yields,
          fun i hi => (mem_foldl_addToken _ _ _).mpr (Or.inr hi)⟩
      | some before =>
        rw [old] at found
        cases found
        obtain ⟨t', inside', id'', used', yields', recorded⟩ := kept.pending id _ old
        exact ⟨t', inside', id''.trans same, used', yields', fun i hi => more i (recorded i hi)⟩
    · obtain ⟨t', inside', id'', used', yields', recorded⟩ := kept.pending id' patch' found
      exact ⟨t', inside', id'', used', yields', fun i hi => more i (recorded i hi)⟩
  · intro i hi
    rcases (mem_foldl_addToken _ _ _).mp hi with old | new
    · obtain ⟨t', inside', stored, rest⟩ := kept.consumed i old
      refine ⟨t', inside', ?_, rest⟩
      rw [get?_setDefault]
      split
      · rfl
      · exact stored
    · refine ⟨t, inside, ?_, patch, used, yields, new⟩
      rw [get?_setDefault, if_pos named.symm]
      rfl

theorem Resumable.keep_route {route target : String}
    (inside : t ∈ snap.frontier) (merges : MergesTo x answers snap state)
    (selects : Selects x snap state t route target) (present : strip route ≠ "") :
    Resumable x answers snap { s with
      routeSelections := setDefault s.routeSelections t.taskId (selectionOf t route target) } := by
  refine { kept with routes := ?_ }
  intro id selection found
  rw [get?_setDefault] at found
  split at found
  · rename_i same
    cases old : get? s.routeSelections t.taskId with
    | none =>
      rw [old] at found
      cases found
      exact ⟨t, inside, same, state, route, target, merges, selects, present, rfl⟩
    | some before =>
      rw [old] at found
      cases found
      rw [← same]
      exact kept.routes _ _ old
  · exact kept.routes id selection found

theorem Resumable.keep_retry {id : String} (attempt : Attempt)
    (inside : t ∈ snap.frontier) (named : t.taskId = id) (fails : Fails x answers snap t) :
    Resumable x answers snap { s with retryAttempts := set s.retryAttempts id attempt } := by
  refine { kept with retries := ?_ }
  intro id' present
  rcases (mem_keys_set _ _ _ _).mp present with same | old
  · exact ⟨t, inside, named.trans same.symm, fails⟩
  · exact kept.retries id' old

theorem Resumable.keep_prepare {receipt : PrepareReceipt}
    (prepared : Prepared x answers snap receipt) :
    Resumable x answers snap { s with
      prepares := setDefault s.prepares receipt.operationId receipt } := by
  refine { kept with prepares := ?_ }
  intro active id receipt' found
  rw [get?_setDefault] at found
  split at found
  · rename_i same
    cases old : get? s.prepares receipt.operationId with
    | none =>
      rw [old] at found
      cases found
      exact ⟨prepared, same⟩
    | some before =>
      rw [old] at found
      cases found
      rw [← same]
      exact kept.prepares active _ _ old
  · exact kept.prepares active id receipt' found

end

theorem strip_selection (t : NativeTask) (route target : String) :
    (⟨strip t.nodeId, strip route, strip (stableId [t.taskId, route, target])⟩ : RouteSelection) =
      selectionOf t route target := by
  rw [t.strip_nodeId, strip_stableId]
  rfl

theorem Resumable.keep (kept : Resumable x answers snap s) {c : Commit} {head : String}
    (allowed : Replayable x answers snap c ∨ Halting x answers snap c)
    (done : s.commit head c = .ok s') :
    Resumable x answers snap s' ∧ s'.materializedIntents = s.materializedIntents := by
  cases c with
  | taskResult task patch used =>
    obtain ⟨t, inside, named, yields⟩ := allowed.resolve_right id
    cases Store.commitTaskResult_eq_ok done
    exact ⟨kept.keep_taskResult inside named yields, rfl⟩
  | route source route payloadHash taskId =>
    obtain ⟨t, inside, state, target, merges, selects, rfl, rfl, rfl⟩ := allowed.resolve_right id
    obtain ⟨present, rfl⟩ := Store.commitRouteSelection_eq_ok done
    rw [strip_selection, t.strip_taskId]
    exact ⟨kept.keep_route inside merges selects present, rfl⟩
  | interrupt task interrupt =>
    cases Store.commitInterrupt_eq_ok done
    exact ⟨{ kept with }, rfl⟩
  | retry task =>
    obtain ⟨t, inside, named, fails⟩ := allowed.resolve_left id
    cases Store.commitRetry_eq_ok done
    exact ⟨kept.keep_retry _ inside named fails, rfl⟩
  | failure task =>
    obtain ⟨failures, rfl⟩ := Store.commitFailures_eq_ok done
    exact ⟨{ kept with }, rfl⟩
  | engineFailure frontier =>
    obtain ⟨failures, rfl⟩ := Store.commitFailures_eq_ok done
    exact ⟨{ kept with }, rfl⟩
  | prepare receipt =>
    have prepared : Prepared x answers snap receipt := allowed.resolve_right id
    cases Store.prepareTerminalProjection_eq_ok done
    exact ⟨kept.keep_prepare prepared, rfl⟩
  | frontier => exact absurd allowed (by simp [Replayable, Halting])

theorem Resumable.replay_ok (kept : Resumable x answers snap s) (active : snap.frontier ≠ [])
    {c : Commit} (replayed : Replayable x answers snap c)
    (named : ∀ state, MergesTo x answers snap state → ∀ task ∈ snap.frontier, ∀ route target,
      Selects x snap state task route target → strip route ≠ "") :
    ∃ s', s.commit snap.checkpointId c = .ok s' := by
  have current := Store.requireHead_eq kept.head
  cases c with
  | taskResult task patch used =>
    obtain ⟨t, inside, id, yields⟩ := replayed
    have same : (get? s.pending task.taskId).getD patch = patch := by
      cases old : get? s.pending task.taskId with
      | none => rfl
      | some before =>
        obtain ⟨t', inside', id', _, yields', _⟩ := kept.pending _ _ old
        cases kept.task_unique inside inside' (id.trans id'.symm)
        exact (yields'.unique yields).1
    simp only [Store.commit, Store.commitTaskResult, current, same, sameText_refl, bind,
      Except.bind, if_true]
    exact ⟨_, rfl⟩
  | route source route payloadHash taskId =>
    obtain ⟨t, inside, state, target, merges, selects, rfl, rfl, rfl⟩ := replayed
    have present := named state merges t inside route target selects
    obtain ⟨a, ha, sourceName⟩ := identity_ok "route source" t.strip_nodeId_ne_empty
    obtain ⟨b, hb, routeName⟩ := identity_ok "selected route" present
    obtain ⟨h, hh, hashName⟩ := identity_ok "frontier payload hash"
      (strip_stableId_ne_empty [t.taskId, route, target])
    obtain ⟨k, hk, keyName⟩ := identity_ok "route task_id" t.strip_taskId_ne_empty
    have selection : (⟨a, b, h⟩ : RouteSelection) = selectionOf t route target := by
      rw [sourceName, routeName, hashName, strip_selection]
    have key : k.1 = t.taskId := keyName.trans t.strip_taskId
    have same : (get? s.routeSelections t.taskId).getD (selectionOf t route target) =
        selectionOf t route target := by
      cases old : get? s.routeSelections t.taskId with
      | none => rfl
      | some before =>
        obtain ⟨t', inside', id', state', route', target', merges', selects', _, rfl⟩ :=
          kept.routes _ _ old
        cases kept.task_unique inside inside' id'.symm
        cases merges.unique merges'
        obtain ⟨rfl, rfl⟩ := selects.unique selects'
        rfl
    simp only [Store.commit, Store.commitRouteSelection, current, ha, hb, hh, hk, bind,
      Except.bind, selection, key, same, if_true]
    exact ⟨_, rfl⟩
  | prepare receipt =>
    have same : (get? s.prepares receipt.operationId).getD receipt = receipt := by
      cases old : get? s.prepares receipt.operationId with
      | none => rfl
      | some before => exact (kept.prepares active _ _ old).1.unique replayed
    simp only [Store.commit, Store.prepareTerminalProjection, current, same,
      PrepareReceipt.same_refl, bind, Except.bind, if_true]
    exact ⟨_, rfl⟩
  | interrupt => exact replayed.elim
  | retry => exact replayed.elim
  | failure => exact replayed.elim
  | engineFailure => exact replayed.elim
  | frontier => exact replayed.elim

end

end Workflow
