import HarnessSdk.Workflow.Replay

/-! The commits of one iteration over a resumable store: task results, routes and receipts agree
with those of the driver left alone, and so does the frontier commit. -/
namespace Workflow
open PyDict PyText

variable {snap : NativeSnapshot} (retries : Dict String Attempt)

theorem withAttempt_same (task : NativeTask) :
    (((get? retries task.taskId).map task.withAttempt).getD task).taskId = task.taskId ∧
      (((get? retries task.taskId).map task.withAttempt).getD task).nodeId = task.nodeId := by
  cases get? retries task.taskId <;> exact ⟨rfl, rfl⟩

theorem mem_withRetries {retries : Dict String Attempt} {task : NativeTask}
    (inside : task ∈ (withRetries retries snap).frontier) :
    ∃ t ∈ snap.frontier, t.taskId = task.taskId ∧ t.nodeId = task.nodeId := by
  rw [withRetries_frontier] at inside
  obtain ⟨t, ht, rfl⟩ := List.mem_map.mp inside
  obtain ⟨id, node⟩ := withAttempt_same retries t
  exact ⟨t, ht, id.symm, node.symm⟩

theorem withRetries_mem {t : NativeTask} (inside : t ∈ snap.frontier) :
    ∃ task ∈ (withRetries retries snap).frontier, t.taskId = task.taskId ∧
      t.nodeId = task.nodeId := by
  rw [withRetries_frontier]
  obtain ⟨id, node⟩ := withAttempt_same retries t
  exact ⟨_, List.mem_map_of_mem inside, id.symm, node.symm⟩

theorem mem_pendingTasks (exec : NativeExecution) (task : NativeTask) :
    task ∈ Executable.pendingTasks exec ↔
      task ∈ exec.snapshot.frontier ∧ get? exec.pendingResults task.taskId = none := by
  simp [Executable.pendingTasks]

def Store.execution (s : Store) (snap : NativeSnapshot) : NativeExecution :=
  ⟨withRetries s.retryAttempts snap, s.pending, s.routeSelections, s.pendingConsumed⟩

section
variable {x : Executable} {answers : Responses} {snap : NativeSnapshot} {s : Store}

theorem Resumable.load (kept : Resumable x answers snap s) (inv : Invocation) :
    (snap.runId = inv.runId ∧ snap.threadId = inv.threadId ∧
        snap.checkpointNs = inv.checkpointNs ∧
      s.loadExecution inv.runId inv.threadId inv.checkpointNs = .ok (s.execution snap)) ∨
    (¬ (snap.runId = inv.runId ∧ snap.threadId = inv.threadId ∧
        snap.checkpointNs = inv.checkpointNs) ∧
      ∃ error, s.loadExecution inv.runId inv.threadId inv.checkpointNs = .error error) := by
  unfold Store.loadExecution
  rw [kept.head]
  by_cases same : snap.runId = inv.runId ∧ snap.threadId = inv.threadId ∧
    snap.checkpointNs = inv.checkpointNs
  · left
    refine ⟨same.1, same.2.1, same.2.2, ?_⟩
    simp only [same, and_self, if_true]
    rfl
  · right
    refine ⟨same, ?_⟩
    simp only [same, if_false]
    exact ⟨_, rfl⟩

/-! ### Task results -/

variable {task : NativeTask} {used : List String} {c : Commit} {tasks : List NativeTask}
  {outcomes : List TaskOutcome} {w : CompiledWorkflow} {exec : NativeExecution}
  {r : NativeTask → Engine String} {next : NextFrontier}

variable {patch : StatePatch} {r' : NativeTask → Engine String}

theorem yields_of_result {ρ : Responses}
    (answered : ∀ id value, ρ id = some value → answers id = some value)
    (inside : task ∈ (s.execution snap).snapshot.frontier)
    (done : x.runTaskWorker ρ snap.state task = .ok (.result patch used)) :
    ∃ t ∈ snap.frontier, t.taskId = task.taskId ∧ Yields x answers snap t patch used := by
  obtain ⟨t, ht, id, node⟩ := mem_withRetries inside
  refine ⟨t, ht, id, ?_⟩
  have full := runTaskWorker_mono answered done (by simp)
  rw [← runTaskWorker_congr answers snap.state id node] at full
  exact full

variable {state : State}

theorem resultCommit_eq_some {ρ : Responses} (made : x.resultCommit ρ state task = some c) :
    ∃ patch used, c = .taskResult task patch used ∧
      x.runTaskWorker ρ state task = .ok (.result patch used) := by
  unfold Executable.resultCommit at made
  split at made
  · rename_i patch used done
    cases made
    exact ⟨patch, used, rfl, done⟩
  · cases made

theorem taskCommits_replayable {d : Drive}
    (answered : ∀ id value, d.responses id = some value → answers id = some value)
    (fits : x.runsInParallel (Executable.pendingTasks (s.execution snap)) d.maxParallelTasks →
      d.order.Perm (Executable.pendingTasks (s.execution snap))) :
    ∀ c ∈ x.taskCommits d snap.state (Executable.pendingTasks (s.execution snap)),
      Replayable x answers snap c := by
  intro c hc
  have finished : ∃ task ∈ Executable.pendingTasks (s.execution snap),
      x.resultCommit d.responses snap.state task = some c := by
    unfold Executable.taskCommits at hc
    split at hc
    · rename_i parallel
      obtain ⟨task, ht, made⟩ := List.mem_filterMap.mp hc
      exact ⟨task, (fits parallel).mem_iff.mp ht, made⟩
    · obtain ⟨task, ht, made⟩ := List.mem_filterMap.mp hc
      exact ⟨task, (List.takeWhile_prefix _).subset ht, made⟩
  obtain ⟨task, ht, made⟩ := finished
  obtain ⟨patch, used, rfl, done⟩ := resultCommit_eq_some made
  exact yields_of_result answered ((mem_pendingTasks _ _).mp ht).1 done

theorem outcomesOf_eq_ok {ρ : Responses} (done : x.outcomesOf ρ state tasks = .ok outcomes) :
    outcomes.map (·.task) = tasks ∧
      ∀ o ∈ outcomes, x.runTaskWorker ρ state o.task = .ok o.outcome := by
  induction tasks generalizing outcomes with
  | nil =>
    cases done
    simp
  | cons task rest ih =>
    unfold Executable.outcomesOf at done
    rw [List.mapM_cons] at done
    obtain ⟨first, here, done⟩ := bind_eq_ok done
    obtain ⟨outcome, ran, here⟩ := bind_eq_ok here
    obtain ⟨others, later, done⟩ := bind_eq_ok done
    cases here
    cases done
    obtain ⟨same, all⟩ := ih later
    refine ⟨by simp [same], ?_⟩
    intro o ho
    rcases List.mem_cons.mp ho with rfl | old
    · exact ran
    · exact all o old

theorem outcomesOf_ok {ρ : Responses}
    (all : ∀ task ∈ tasks, ∃ outcome, x.runTaskWorker ρ state task = .ok outcome) :
    ∃ outcomes, x.outcomesOf ρ state tasks = .ok outcomes := by
  induction tasks with
  | nil => exact ⟨[], rfl⟩
  | cons task rest ih =>
    obtain ⟨outcome, ran⟩ := all task (by simp)
    obtain ⟨others, later⟩ := ih fun t ht => all t (by simp [ht])
    unfold Executable.outcomesOf at later ⊢
    rw [List.mapM_cons, ran, later]
    exact ⟨_, rfl⟩

section
variable (kept : Resumable x answers snap s)
include kept

theorem settled_of_completed {ρ : Responses}
    (answered : ∀ id value, ρ id = some value → answers id = some value)
    (ran : x.outcomesOf ρ snap.state (Executable.pendingTasks (s.execution snap)) = .ok outcomes)
    (results : ∀ o ∈ outcomes, ∃ patch used, o.outcome = .result patch used) :
    Settled x answers snap := by
  obtain ⟨tasks, each⟩ := outcomesOf_eq_ok ran
  intro t ht
  obtain ⟨task, inside, id, node⟩ := withRetries_mem s.retryAttempts ht
  cases stored : get? s.pending t.taskId with
  | some patch =>
    obtain ⟨t', ht', id', used, yields, _⟩ := kept.pending _ _ stored
    cases kept.task_unique ht ht' id'.symm
    exact ⟨patch, used, yields⟩
  | none =>
    have waiting : task ∈ Executable.pendingTasks (s.execution snap) :=
      (mem_pendingTasks _ _).mpr ⟨inside, id ▸ stored⟩
    rw [← tasks] at waiting
    obtain ⟨o, ho, rfl⟩ := List.mem_map.mp waiting
    obtain ⟨patch, used, outcome⟩ := results o ho
    have done := each o ho
    rw [outcome] at done
    obtain ⟨t', ht', id', yields⟩ := yields_of_result answered inside done
    cases kept.task_unique ht ht' (id.trans id'.symm)
    exact ⟨patch, used, yields⟩

theorem Resumable.no_retries
    (settled : Settled x answers snap) : s.retryAttempts = [] := by
  cases entries : s.retryAttempts with
  | nil => rfl
  | cons entry rest =>
    obtain ⟨t, ht, _, error, failed⟩ := kept.retries entry.1 (by simp [entries, keys])
    obtain ⟨patch, used, yields⟩ := settled t ht
    unfold Yields at yields
    rw [failed] at yields
    cases yields

theorem Resumable.execution_settled
    (settled : Settled x answers snap) :
    s.execution snap = ⟨snap, s.pending, s.routeSelections, s.pendingConsumed⟩ := by
  rw [Store.execution, kept.no_retries settled]
  rfl

end

theorem resultOf_eq (yields : Yields x answers snap task patch used) :
    resultOf x answers snap task = patch := by
  unfold Yields at yields
  rw [resultOf, yields]

theorem mergedState_congr {f g : NativeTask → StatePatch}
    (same : ∀ task ∈ snap.frontier, f task = g task) :
    mergedState w snap f = mergedState w snap g := by
  have writes : (sortedBy (·.taskId) snap.frontier).map (fun task => (task.nodeId, f task)) =
      (sortedBy (·.taskId) snap.frontier).map fun task => (task.nodeId, g task) := by
    apply List.map_congr_left
    intro task ht
    rw [same task ((mem_sortedBy _ _ _).mp ht)]
  unfold mergedState
  rw [writes]

structure Completes (x : Executable) (answers : Responses) (snap : NativeSnapshot) (s : Store)
    (outcomes : List TaskOutcome) : Prop where
  waiting : ∀ o ∈ outcomes, o.task ∈ snap.frontier ∧ get? s.pending o.task.taskId = none ∧
    ∃ patch used, o.outcome = .result patch used ∧ Yields x answers snap o.task patch used
  covers : ∀ task ∈ snap.frontier, get? s.pending task.taskId = none →
    ∃ o ∈ outcomes, o.task = task

theorem completes_of_results {ρ : Responses}
    (answered : ∀ id value, ρ id = some value → answers id = some value)
    (settled : s.execution snap = ⟨snap, s.pending, s.routeSelections, s.pendingConsumed⟩)
    (ran : x.outcomesOf ρ snap.state (Executable.pendingTasks (s.execution snap)) = .ok outcomes)
    (results : ∀ o ∈ outcomes, ∃ patch used, o.outcome = .result patch used) :
    Completes x answers snap s outcomes := by
  obtain ⟨tasks, each⟩ := outcomesOf_eq_ok ran
  rw [settled] at tasks
  constructor
  · intro o ho
    have waiting : o.task ∈ outcomes.map (·.task) := List.mem_map_of_mem ho
    rw [tasks, mem_pendingTasks] at waiting
    obtain ⟨patch, used, outcome⟩ := results o ho
    have done := each o ho
    rw [outcome] at done
    exact ⟨waiting.1, waiting.2, patch, used, outcome, runTaskWorker_mono answered done (by simp)⟩
  · intro task ht missing
    have waiting : task ∈ outcomes.map (·.task) := by
      rw [tasks, mem_pendingTasks]
      exact ⟨ht, missing⟩
    obtain ⟨o, ho, same⟩ := List.mem_map.mp waiting
    exact ⟨o, ho, same⟩

theorem Completes.patchFor_eq (completes : Completes x answers snap s outcomes)
    (kept : Resumable x answers snap s) (loaded : exec.pendingResults = s.pending)
    (ht : task ∈ snap.frontier) :
    Executable.patchFor (Executable.patchesOf exec outcomes) task =
      resultOf x answers snap task := by
  unfold Executable.patchFor Executable.patchesOf
  rw [loaded]
  cases found : get? (update s.pending _) task.taskId with
  | none =>
    exfalso
    rw [get?_eq_none_iff, mem_keys_update, not_or] at found
    obtain ⟨o, ho, rfl⟩ := completes.covers task ht ((get?_eq_none_iff _ _).mpr found.1)
    obtain ⟨_, _, patch, used, outcome, _⟩ := completes.waiting o ho
    apply found.2
    refine List.mem_map.mpr ⟨(o.task.taskId, patch), List.mem_filterMap.mpr ⟨o, ho, ?_⟩, rfl⟩
    rw [outcome]
  | some patch =>
    rcases get?_update_cases found with new | old
    · obtain ⟨o, ho, made⟩ := List.mem_filterMap.mp new
      obtain ⟨inside, _, patch', used, outcome, yields⟩ := completes.waiting o ho
      rw [outcome] at made
      simp only [Option.some.injEq, Prod.mk.injEq] at made
      cases kept.task_unique inside ht made.1
      rw [resultOf_eq yields]
      exact made.2.symm
    · obtain ⟨t, inside, id, used, yields, _⟩ := kept.pending _ _ old
      cases kept.task_unique inside ht id
      exact (resultOf_eq yields).symm

theorem Completes.mem_consumedOf (completes : Completes x answers snap s outcomes)
    (kept : Resumable x answers snap s) (loaded : exec.pendingConsumed = s.pendingConsumed)
    (id : String) :
    id ∈ Executable.consumedOf exec outcomes ↔
      ∃ task ∈ snap.frontier, ∃ patch used, Yields x answers snap task patch used ∧ id ∈ used := by
  unfold Executable.consumedOf
  rw [loaded, List.mem_append, List.mem_flatMap]
  constructor
  · rintro (old | ⟨o, ho, new⟩)
    · obtain ⟨task, ht, _, patch, used, yields, member⟩ := kept.consumed id old
      exact ⟨task, ht, patch, used, yields, member⟩
    · obtain ⟨inside, _, patch, used, outcome, yields⟩ := completes.waiting o ho
      rw [outcome] at new
      exact ⟨o.task, inside, patch, used, yields, new⟩
  · rintro ⟨task, ht, patch, used, yields, member⟩
    cases stored : get? s.pending task.taskId with
    | some patch' =>
      obtain ⟨t, inside, same, used', yields', recorded⟩ := kept.pending _ _ stored
      cases kept.task_unique ht inside same.symm
      obtain ⟨_, rfl⟩ := yields.unique yields'
      exact Or.inl (recorded id member)
    | none =>
      obtain ⟨o, ho, rfl⟩ := completes.covers task ht stored
      obtain ⟨_, _, patch', used', outcome, yields'⟩ := completes.waiting o ho
      obtain ⟨_, rfl⟩ := yields.unique yields'
      refine Or.inr ⟨o, ho, ?_⟩
      rw [outcome]
      exact member

/-! ### Routes -/

theorem collect_congr (same : ∀ task ∈ tasks, directTargets w r task = directTargets w r' task)
    (p : Progress) : collect w snap r tasks p = collect w snap r' tasks p := by
  induction tasks generalizing p with
  | nil => rfl
  | cons task rest ih =>
    have step : taskStep w snap r p task = taskStep w snap r' p task := by
      unfold taskStep
      rw [same task (by simp)]
    unfold collect
    rw [step]
    cases taskStep w snap r' p task with
    | error e => rfl
    | ok p' => exact ih (fun t ht => same t (by simp [ht])) p'

theorem nextFrontier_congr
    (same : ∀ task ∈ snap.frontier, directTargets w r task = directTargets w r' task)
    (state : State) : nextFrontier w snap r state = nextFrontier w snap r' state := by
  have collected : progress w snap r = progress w snap r' :=
    collect_congr (fun task ht => same task ((mem_sortedBy _ _ _).mp ht)) _
  unfold nextFrontier
  rw [collected]

theorem collect_targets {p p' : Progress} (done : collect w snap r tasks p = .ok p') :
    ∀ task ∈ tasks, ∃ targets, directTargets w r task = .ok targets := by
  induction tasks generalizing p with
  | nil => simp
  | cons task rest ih =>
    obtain ⟨_, here, later⟩ := bind_eq_ok done
    obtain ⟨targets, found, _⟩ := taskStep_eq_ok here
    intro t ht
    rcases List.mem_cons.mp ht with rfl | old
    · exact ⟨targets, found⟩
    · exact ih later t old

theorem nextFrontier_targets (done : nextFrontier w snap r state = .ok next) :
    ∀ task ∈ snap.frontier, ∃ targets, directTargets w r task = .ok targets := by
  obtain ⟨_, _, collected, _⟩ := nextFrontier_eq_ok done
  intro task ht
  exact collect_targets collected task ((mem_sortedBy _ _ _).mpr ht)

theorem directTargets_selected {conditional : ConditionalEdge} {route target : String}
    (edge : x.workflow.conditionalFor task.nodeId = some conditional)
    (selected : x.selectedRoute exec state task = .ok route)
    (leads : get? conditional.routes route = some target) :
    directTargets x.workflow (x.selectedRoute exec state) task = .ok [target] := by
  unfold directTargets
  rw [edge]
  simp only [selected, bind, Except.bind, leads]
  rfl

theorem directTargets_agree (kept : Resumable x answers snap s)
    (stable : s.routeSelections ≠ [] → RouteNamesStable x answers snap)
    (routes : exec.routeSelections = s.routeSelections) (head : exec.snapshot = snap)
    (merges : MergesTo x answers snap state) (ht : task ∈ snap.frontier) :
    directTargets x.workflow (x.selectedRoute exec state) task =
      directTargets x.workflow (x.selectedRoute (fresh snap) state) task := by
  cases edge : x.workflow.conditionalFor task.nodeId with
  | none =>
    unfold directTargets
    rw [edge]
  | some conditional =>
    have live : x.selectedRoute (fresh snap) state task = x.route conditional snap state := by
      simp [Executable.selectedRoute, fresh, edge]
    cases stored : get? s.routeSelections task.taskId with
    | none =>
      have same : x.selectedRoute exec state task = x.selectedRoute (fresh snap) state task := by
        rw [live]
        simp [Executable.selectedRoute, routes, stored, edge, head]
      unfold directTargets
      rw [edge]
      simp only [same]
    | some selection =>
      obtain ⟨t, inside, id, state', route, target, merges', selects, present, rfl⟩ :=
        kept.routes _ _ stored
      cases kept.task_unique ht inside id.symm
      cases merges.unique merges'
      obtain ⟨conditional', edge', selected, leads⟩ := selects
      cases edge.symm.trans edge'
      have again : x.selectedRoute exec state task = .ok (strip route) := by
        simp [Executable.selectedRoute, routes, stored, selectionOf]
      have nonempty : s.routeSelections ≠ [] := by
        intro none
        rw [none] at stored
        cases stored
      have renamed := (stable nonempty state merges task ht conditional edge route
        selected).resolve_left present
      rw [directTargets_selected edge again (renamed.trans leads),
        directTargets_selected edge (live.trans selected) leads]

theorem mem_routeCommits (hc : c ∈ x.routeCommits exec state tasks) :
    ∃ task ∈ tasks, ∃ targets,
      directTargets x.workflow (x.selectedRoute exec state) task = .ok targets ∧
      x.routeCommit exec task targets (x.selectedRoute exec state task) = some c := by
  induction tasks with
  | nil => cases hc
  | cons task rest ih =>
    unfold Executable.routeCommits at hc
    split at hc
    · cases hc
    · rename_i targets found
      rcases List.mem_append.mp hc with here | later
      · exact ⟨task, by simp, targets, found, Option.mem_toList.mp here⟩
      · obtain ⟨t, ht, rest⟩ := ih later
        exact ⟨t, by simp [ht], rest⟩

theorem routeCommits_replayable (head : exec.snapshot = snap)
    (merges : MergesTo x answers snap state) (inside : ∀ task ∈ tasks, task ∈ snap.frontier) :
    ∀ c ∈ x.routeCommits exec state tasks, Replayable x answers snap c := by
  intro c hc
  obtain ⟨task, ht, targets, found, made⟩ := mem_routeCommits hc
  unfold Executable.routeCommit at made
  split at made
  · rename_i conditional route edge unstored selected
    cases made
    have live : x.route conditional snap state = .ok route := by
      rw [← selected, Executable.selectedRoute, unstored, edge, head]
    unfold directTargets at found
    rw [edge] at found
    simp only [selected, bind, Except.bind] at found
    split at found
    · rename_i target leads
      cases found
      exact ⟨task, inside task ht, state, target, merges, ⟨conditional, edge, live, leads⟩, rfl,
        rfl, rfl⟩
    · cases found
  · cases made

theorem routeCommits_covers (head : exec.snapshot = snap)
    (all : ∀ task ∈ tasks, ∃ targets, directTargets x.workflow (x.selectedRoute exec state) task =
      .ok targets) (ht : task ∈ tasks) {route target : String}
    (unstored : get? exec.routeSelections task.taskId = none)
    (selects : Selects x snap state task route target) :
    ∃ source payloadHash id, Commit.route source route payloadHash id ∈
      x.routeCommits exec state tasks := by
  induction tasks with
  | nil => cases ht
  | cons first rest ih =>
    obtain ⟨targets, found⟩ := all first (by simp)
    unfold Executable.routeCommits
    rw [found]
    rcases List.mem_cons.mp ht with rfl | later
    · obtain ⟨conditional, edge, selected, _⟩ := selects
      have live : x.selectedRoute exec state task = .ok route := by
        simp [Executable.selectedRoute, unstored, edge, head, selected]
      refine ⟨task.nodeId, stableId ([task.taskId, route] ++ targets), task.taskId, ?_⟩
      apply List.mem_append_left
      simp [Executable.routeCommit, edge, unstored, live]
    · obtain ⟨source, payloadHash, id, member⟩ := ih (fun t h => all t (by simp [h])) later
      exact ⟨source, payloadHash, id, List.mem_append_right _ member⟩

/-! ### The terminal projection -/

theorem prepare_agrees (kept : Resumable x answers snap s) (active : snap.frontier ≠ [])
    (merges : MergesTo x answers snap state)
    (scheduled : nextFrontier x.workflow snap (x.selectedRoute (fresh snap) state) state = .ok
      next) :
    (∃ receipt first again,
      x.prepareTerminalProjection snap state next.frontier [] = .ok (receipt, first) ∧
      x.prepareTerminalProjection snap state next.frontier s.prepares = .ok (receipt, again) ∧
      (∀ c ∈ again, Replayable x answers snap c) ∧
      ∀ r, receipt = some r → .prepare r ∈ again ∨ get? s.prepares r.operationId = some r) ∨
    (∃ error, x.prepareTerminalProjection snap state next.frontier [] = .error error) ∧
      ∃ error, x.prepareTerminalProjection snap state next.frontier s.prepares = .error error := by
  cases empty : next.frontier with
  | cons task rest =>
    left
    exact ⟨none, [], [], rfl, rfl, by simp, by simp⟩
  | nil =>
    cases pinned : x.projection with
    | none =>
      left
      refine ⟨none, [], [], ?_, ?_, by simp, by simp⟩ <;>
        simp [Executable.prepareTerminalProjection, pinned, pure, Except.pure]
    | some projection =>
      cases stored : get? s.prepares (stableId [snap.runId, snap.checkpointId, projection.digest]) with
      | none =>
        have same : x.prepareTerminalProjection snap state [] s.prepares =
            x.prepareTerminalProjection snap state [] [] := by
          simp only [Executable.prepareTerminalProjection, pinned, stored, get?_nil]
        rw [same]
        cases projected : projection.project snap state with
        | error e =>
          right
          simp [Executable.prepareTerminalProjection, pinned, projected, bind, Except.bind]
        | ok output =>
          left
          have made : ∃ r, x.prepareTerminalProjection snap state [] [] =
              .ok (some r, [.prepare r]) := by
            simp only [Executable.prepareTerminalProjection, pinned, get?_nil, projected, bind,
              Except.bind]
            exact ⟨_, rfl⟩
          obtain ⟨r, made⟩ := made
          refine ⟨some r, [.prepare r], [.prepare r], made, made, ?_, ?_⟩
          · intro c hc
            cases List.mem_singleton.mp hc
            exact ⟨state, next, merges, scheduled, empty, made⟩
          · intro r' same
            cases same
            simp
      | some existing =>
        left
        obtain ⟨⟨state', _, merges', _, _, made⟩, id⟩ := kept.prepares active _ _ stored
        cases merges.unique merges'
        refine ⟨some existing, [.prepare existing], [], made, ?_, by simp, ?_⟩
        · have fields : existing.runId = snap.runId ∧
              existing.terminalCheckpointId = snap.checkpointId ∧
              existing.descriptorDigest = projection.digest ∧ existing.inputHash =
                Sha256.hexdigest (canonicalJson (projection.request snap.runId state)) := by
            simp only [Executable.prepareTerminalProjection, pinned, get?_nil] at made
            obtain ⟨output, _, made⟩ := bind_eq_ok made
            cases made
            exact ⟨rfl, rfl, rfl, rfl⟩
          simp only [Executable.prepareTerminalProjection, pinned, stored]
          rw [if_pos fields]
          rfl
        · intro r same
          cases same
          right
          rw [id]
          exact stored

/-! ### The commits of an iteration -/

variable (x answers snap) in
def Ready (state : State) (next : NextFrontier) (receipt : Option PrepareReceipt)
    (intents : List Json) : Prop :=
  MergesTo x answers snap state ∧
    nextFrontier x.workflow snap (x.selectedRoute (fresh snap) state) state = .ok next ∧
    (∃ first, x.prepareTerminalProjection snap state next.frontier [] = .ok (receipt, first)) ∧
    x.intentsOf snap state next.frontier receipt = .ok intents ∧ stateBlobRefs state = .ok ()

variable (x answers snap s) in
/-- `c` is the frontier commit after the writes `js`. -/
def Closes (js : List Commit) (c : Commit) : Prop :=
  ∃ state next receipt intents consumed, Ready x answers snap state next receipt intents ∧
    c = .frontier (frontierOperationId snap next.frontier state intents) state next intents
      (receipt.map (·.operationId)) consumed ((sortedBy (·.taskId) snap.frontier).map fun task =>
        (task.taskId, resultOf x answers snap task)) ∧
    (∀ id, id ∈ consumed ↔ ∃ task ∈ snap.frontier, ∃ patch used,
      Yields x answers snap task patch used ∧ id ∈ used) ∧
    (∀ r, receipt = some r → .prepare r ∈ js ∨ get? s.prepares r.operationId = some r) ∧
    ∀ task ∈ snap.frontier, ∀ route target, Selects x snap state task route target →
      (∃ source payloadHash id, .route source route payloadHash id ∈ js) ∨ strip route ≠ ""

theorem Closes.after {js : List Commit} (closes : Closes x answers snap s js c)
    (earlier : List Commit) : Closes x answers snap s (earlier ++ js) c := by
  obtain ⟨state, next, receipt, intents, consumed, ready, same, uses, receipts, routes⟩ := closes
  refine ⟨state, next, receipt, intents, consumed, ready, same, uses, ?_, ?_⟩
  · intro r hr
    exact (receipts r hr).imp_left (List.mem_append_right _)
  · intro task ht route target selects
    rcases routes task ht route target selects with ⟨source, payloadHash, id, member⟩ | present
    · exact Or.inl ⟨source, payloadHash, id, List.mem_append_right _ member⟩
    · exact Or.inr present

section
variable (kept : Resumable x answers snap s)
include kept

theorem planCommit_cases (active : snap.frontier ≠ [])
    (head : exec.snapshot = snap) (merges : MergesTo x answers snap state)
    (scheduled : nextFrontier x.workflow snap (x.selectedRoute (fresh snap) state) state = .ok
      next) (consumed : List String) (writes : List (String × StatePatch)) :
    (∃ prepared receipt intents, Ready x answers snap state next receipt intents ∧
      x.planCommit s.prepares exec state next consumed writes =
        prepared ++ [.frontier (frontierOperationId snap next.frontier state intents) state next
          intents (receipt.map (·.operationId)) consumed writes] ∧
      (∀ c ∈ prepared, Replayable x answers snap c) ∧
      ∀ r, receipt = some r → .prepare r ∈ prepared ∨ get? s.prepares r.operationId = some r) ∨
    ((∀ c ∈ x.planCommit s.prepares exec state next consumed writes,
        Replayable x answers snap c ∨ Halting x answers snap c) ∧
      ∀ receipt intents, ¬ Ready x answers snap state next receipt intents) := by
  unfold Executable.planCommit
  dsimp only
  rw [head]
  rcases prepare_agrees kept active merges scheduled with
    ⟨receipt, first, again, made, remade, replayed, receipts⟩ | ⟨⟨e, failed⟩, ⟨e', refailed⟩⟩
  · rw [remade]
    dsimp only
    have only : ∀ receipt' intents, Ready x answers snap state next receipt' intents →
        x.intentsOf snap state next.frontier receipt = .ok intents ∧ stateBlobRefs state = .ok () := by
      rintro receipt' intents ⟨_, _, ⟨first', made'⟩, delivered, blobs⟩
      cases made.symm.trans made'
      exact ⟨delivered, blobs⟩
    cases delivered : x.intentsOf snap state next.frontier receipt with
    | error e =>
      right
      constructor
      · intro c hc
        rcases mem_snoc.mp hc with prepare | rfl
        · exact Or.inl (replayed c prepare)
        · exact Or.inr trivial
      · intro receipt' intents ready
        rw [(only receipt' intents ready).1] at delivered
        cases delivered
    | ok intents =>
      cases blobs : stateBlobRefs state with
      | error e =>
        right
        constructor
        · intro c hc
          rcases List.mem_append.mp hc with prepare | last
          · exact Or.inl (replayed c prepare)
          · cases last
        · intro receipt' intents' ready
          rw [(only receipt' intents' ready).2] at blobs
          cases blobs
      | ok _ =>
        left
        exact ⟨again, receipt, intents, ⟨merges, scheduled, ⟨first, made⟩, delivered, blobs⟩, rfl,
          replayed, receipts⟩
  · right
    rw [refailed]
    refine ⟨by simp [Halting], ?_⟩
    rintro receipt intents ⟨_, _, ⟨first', made'⟩, _⟩
    rw [failed] at made'
    cases made'

/-- Where every task has its result, the plan is that of the driver left alone, except that
writes already made are left out. -/
theorem planFrontier_eq
    (stable : s.routeSelections ≠ [] → RouteNamesStable x answers snap)
    (settled : Settled x answers snap) (completes : Completes x answers snap s outcomes) :
    x.planFrontier s.prepares (s.execution snap) outcomes =
      match mergedState x.workflow snap (resultOf x answers snap) with
      | .error _ => [.engineFailure snap.frontier]
      | .ok state =>
        x.routeCommits (s.execution snap) state (sortedBy (·.taskId) snap.frontier) ++
          match nextFrontier x.workflow snap (x.selectedRoute (fresh snap) state) state with
          | .error _ => [.engineFailure snap.frontier]
          | .ok next =>
            x.planCommit s.prepares (s.execution snap) state next
              (Executable.consumedOf (s.execution snap) outcomes)
              ((sortedBy (·.taskId) snap.frontier).map fun task =>
                (task.taskId, resultOf x answers snap task)) := by
  have head : (s.execution snap).snapshot = snap := by rw [kept.execution_settled settled]
  have patches : mergedState x.workflow snap
      (Executable.patchFor (Executable.patchesOf (s.execution snap) outcomes)) =
      mergedState x.workflow snap (resultOf x answers snap) :=
    mergedState_congr fun task ht => completes.patchFor_eq kept rfl ht
  have writes : ((sortedBy (·.taskId) snap.frontier).map fun task =>
      (task.taskId, Executable.patchFor (Executable.patchesOf (s.execution snap) outcomes) task)) =
      (sortedBy (·.taskId) snap.frontier).map fun task =>
        (task.taskId, resultOf x answers snap task) := by
    apply List.map_congr_left
    intro task ht
    rw [completes.patchFor_eq kept rfl ((mem_sortedBy _ _ _).mp ht)]
  unfold Executable.planFrontier
  dsimp only
  rw [head, patches, writes]
  cases merged : mergedState x.workflow snap (resultOf x answers snap) with
  | error e => rfl
  | ok state =>
    have agree : ∀ task ∈ snap.frontier,
        directTargets x.workflow (x.selectedRoute (s.execution snap) state) task =
          directTargets x.workflow (x.selectedRoute (fresh snap) state) task :=
      fun task ht => directTargets_agree kept stable rfl head ⟨settled, merged⟩ ht
    have same := nextFrontier_congr agree state
    dsimp only
    generalize nextFrontier x.workflow snap (x.selectedRoute (s.execution snap) state) state =
      scheduled at same ⊢
    subst same
    cases nextFrontier x.workflow snap (x.selectedRoute (fresh snap) state) state <;> rfl

theorem planFrontier_cases
    (stable : s.routeSelections ≠ [] → RouteNamesStable x answers snap)
    (active : snap.frontier ≠ []) (settled : Settled x answers snap)
    (completes : Completes x answers snap s outcomes) :
    (∃ js c, x.planFrontier s.prepares (s.execution snap) outcomes = js ++ [c] ∧
      (∀ c ∈ js, Replayable x answers snap c) ∧ Closes x answers snap s js c) ∨
    ((∀ c ∈ x.planFrontier s.prepares (s.execution snap) outcomes,
        Replayable x answers snap c ∨ Halting x answers snap c) ∧
      ∀ state next receipt intents, ¬ Ready x answers snap state next receipt intents) := by
  have head : (s.execution snap).snapshot = snap := by rw [kept.execution_settled settled]
  rw [planFrontier_eq kept stable settled completes]
  cases merged : mergedState x.workflow snap (resultOf x answers snap) with
  | error e =>
    right
    refine ⟨by simp [Halting], ?_⟩
    rintro state next receipt intents ⟨merges, _⟩
    rw [merges.2] at merged
    cases merged
  | ok state =>
    have merges : MergesTo x answers snap state := ⟨settled, merged⟩
    have inside : ∀ task ∈ sortedBy (·.taskId) snap.frontier, task ∈ snap.frontier :=
      fun task ht => (mem_sortedBy _ _ _).mp ht
    have routed := routeCommits_replayable (x := x) head merges inside
    dsimp only
    cases scheduled : nextFrontier x.workflow snap (x.selectedRoute (fresh snap) state) state with
    | error e =>
      right
      constructor
      · intro c hc
        rcases mem_snoc.mp hc with route | rfl
        · exact Or.inl (routed c route)
        · exact Or.inr trivial
      · rintro state' next receipt intents ⟨merges', scheduled', _⟩
        cases merges.unique merges'
        rw [scheduled] at scheduled'
        cases scheduled'
    | ok next =>
      dsimp only
      rcases planCommit_cases kept active head merges scheduled
        (Executable.consumedOf (s.execution snap) outcomes)
        ((sortedBy (·.taskId) snap.frontier).map fun task =>
          (task.taskId, resultOf x answers snap task)) with
        ⟨prepared, receipt, intents, ready, same, replayed, receipts⟩ | ⟨allowed, unready⟩
      · left
        rw [same, ← List.append_assoc]
        refine ⟨_, _, rfl, ?_, state, next, receipt, intents, _, ready, rfl,
          completes.mem_consumedOf kept rfl, ?_, ?_⟩
        · intro c hc
          rcases List.mem_append.mp hc with route | prepare
          · exact routed c route
          · exact replayed c prepare
        · intro r hr
          exact (receipts r hr).imp_left (List.mem_append_right _)
        · intro task ht route target selects
          cases stored : get? s.routeSelections task.taskId with
          | some selection =>
            obtain ⟨t, inside', id, state', route', target', merges', selects', present, _⟩ :=
              kept.routes _ _ stored
            cases kept.task_unique ht inside' id.symm
            cases merges.unique merges'
            obtain ⟨rfl, rfl⟩ := selects.unique selects'
            exact Or.inr present
          | none =>
            have all : ∀ task ∈ sortedBy (·.taskId) snap.frontier, ∃ targets,
                directTargets x.workflow (x.selectedRoute (s.execution snap) state) task =
                  .ok targets := by
              intro t ht'
              rw [directTargets_agree kept stable rfl head merges (inside t ht')]
              exact nextFrontier_targets scheduled t (inside t ht')
            obtain ⟨source, payloadHash, id, member⟩ := routeCommits_covers head all
              ((mem_sortedBy _ _ _).mpr ht) stored selects
            exact Or.inl ⟨source, payloadHash, id, List.mem_append_left _ member⟩
      · right
        constructor
        · intro c hc
          rcases List.mem_append.mp hc with route | later
          · exact Or.inl (routed c route)
          · exact allowed c later
        · intro state' next' receipt intents ready
          cases merges.unique ready.1
          cases scheduled.symm.trans ready.2.1
          exact unready receipt intents ready

end

theorem validatePatch_known {nodeId : String} (valid : w.validatePatch nodeId patch = .ok ()) :
    (w.node nodeId).isSome := by
  cases found : w.node nodeId with
  | some node => rfl
  | none =>
    unfold CompiledWorkflow.validatePatch at valid
    simp [found, invalidPatch, bind, Except.bind] at valid

theorem Yields.known (yields : Yields x answers snap task patch used) :
    (x.workflow.node task.nodeId).isSome := by
  unfold Yields Executable.runTaskWorker at yields
  split at yields
  · cases yields
  · cases yields
  · rename_i patch' used' ran
    unfold Executable.runNode at ran
    split at ran
    · cases ran
    · rename_i result consumed _
      simp only [Reply.finished.injEq] at ran
      obtain ⟨patch'', _, checked⟩ := bind_eq_ok ran.1
      obtain ⟨_, valid, _⟩ := bind_eq_ok checked
      exact validatePatch_known valid

theorem Settled.known (settled : Settled x answers snap) :
    ∀ task ∈ snap.frontier, (x.workflow.node task.nodeId).isSome := by
  intro task ht
  obtain ⟨patch, used, yields⟩ := settled task ht
  exact yields.known

theorem outcomes_of_settled (settled : Settled x answers snap) :
    ∃ outcomes, x.outcomesOf answers snap.state (Executable.pendingTasks (s.execution snap)) =
        .ok outcomes ∧
      ∀ o ∈ outcomes, ∃ patch used, o.outcome = .result patch used := by
  have each : ∀ task ∈ Executable.pendingTasks (s.execution snap), ∃ patch used,
      x.runTaskWorker answers snap.state task = .ok (.result patch used) := by
    intro task ht
    obtain ⟨t, inside, id, node⟩ := mem_withRetries ((mem_pendingTasks _ _).mp ht).1
    obtain ⟨patch, used, yields⟩ := settled t inside
    refine ⟨patch, used, ?_⟩
    rw [← runTaskWorker_congr answers snap.state id node]
    exact yields
  obtain ⟨outcomes, ran⟩ := outcomesOf_ok fun task ht => by
    obtain ⟨patch, used, done⟩ := each task ht
    exact ⟨_, done⟩
  refine ⟨outcomes, ran, ?_⟩
  obtain ⟨tasks, results⟩ := outcomesOf_eq_ok ran
  intro o ho
  have waiting : o.task ∈ outcomes.map (·.task) := List.mem_map_of_mem ho
  rw [tasks] at waiting
  obtain ⟨patch, used, done⟩ := each o.task waiting
  have same := (results o ho).symm.trans done
  cases outcome : o.outcome with
  | result patch used => exact ⟨patch, used, rfl⟩
  | suspended i => simp [outcome] at same
  | failed e => simp [outcome] at same

theorem planSettled_halts (prepares : Dict String PrepareReceipt) {ρ : Responses}
    (answered : ∀ id value, ρ id = some value → answers id = some value)
    (head : exec = s.execution snap)
    (ran : x.outcomesOf ρ snap.state (Executable.pendingTasks exec) = .ok outcomes)
    (stops : settle x.workflow exec.snapshot.frontier outcomes ≠ .completed) :
    ∀ c ∈ x.planSettled prepares exec outcomes, Halting x answers snap c := by
  intro c hc
  unfold Executable.planSettled at hc
  split at hc
  · cases List.mem_singleton.mp hc
    exact trivial
  · rename_i task error again
    cases List.mem_singleton.mp hc
    subst head
    obtain ⟨tasks, results⟩ := outcomesOf_eq_ok ran
    have failed := settle_retry again
    have waiting : task ∈ outcomes.map (·.task) :=
      List.mem_map.mpr ⟨_, failed, rfl⟩
    rw [tasks, mem_pendingTasks] at waiting
    obtain ⟨t, inside, id, node⟩ := mem_withRetries waiting.1
    have done := results ⟨task, .failed error⟩ failed
    have full := runTaskWorker_mono answered done (by simp)
    rw [← runTaskWorker_congr answers snap.state id node] at full
    exact ⟨t, inside, id, error, full⟩
  · cases List.mem_singleton.mp hc
    exact trivial
  · rename_i completed
    exact absurd completed stops

/-- The commits an iteration makes: writes that the driver left alone makes too, ended either by
the frontier commit or by a write that stops the drive. -/
theorem plan_cases (kept : Resumable x answers snap s) (stable : s.routeSelections ≠ [] → RouteNamesStable x answers snap)
    {d : Drive} (answered : ∀ id value, d.responses id = some value → answers id = some value)
    (fits : x.runsInParallel (Executable.pendingTasks (s.execution snap)) d.maxParallelTasks →
      d.order.Perm (Executable.pendingTasks (s.execution snap))) :
    (∃ js c, x.plan d s.prepares (s.execution snap) = js ++ [c] ∧
      (∀ c ∈ js, Replayable x answers snap c) ∧ Closes x answers snap s js c ∧
      snap.frontier ≠ [] ∧ snap.step < x.workflow.definition.maxSupersteps) ∨
    ((∀ c ∈ x.plan d s.prepares (s.execution snap),
        Replayable x answers snap c ∨ Halting x answers snap c) ∧
      (d.responses = answers → snap.frontier ≠ [] →
        snap.step < x.workflow.definition.maxSupersteps →
        ∀ state next receipt intents, ¬ Ready x answers snap state next receipt intents)) := by
  have state : (s.execution snap).snapshot.state = snap.state := withRetries_state _ _
  have step : (s.execution snap).snapshot.step = snap.step := withRetries_step _ _
  have frontier : (s.execution snap).snapshot.frontier = [] ↔ snap.frontier = [] := by
    rw [Store.execution, withRetries_frontier, List.map_eq_nil_iff]
  have results := taskCommits_replayable (s := s) answered fits
  unfold Executable.plan
  dsimp only
  rw [state, step]
  by_cases empty : snap.frontier = []
  · rw [if_pos (frontier.mpr empty)]
    right
    exact ⟨by simp, fun _ active => absurd empty active⟩
  rw [if_neg (fun h => empty (frontier.mp h))]
  by_cases spent : x.workflow.definition.maxSupersteps ≤ snap.step
  · rw [if_pos spent]
    right
    exact ⟨by simp [Halting], fun _ _ within => absurd within (not_lt.mpr spent)⟩
  rw [if_neg spent]
  split
  · rename_i unknown
    right
    refine ⟨by simp, ?_⟩
    intro _ _ _ st next receipt intents ready
    obtain ⟨task, ht, missing⟩ := List.any_eq_true.mp unknown
    obtain ⟨t, inside, _, node⟩ := mem_withRetries ((mem_pendingTasks _ _).mp ht).1
    have known := ready.1.1.known t inside
    rw [node] at known
    simp only [Option.isNone_iff_eq_none] at missing
    rw [missing] at known
    cases known
  · cases ran : x.outcomesOf d.responses snap.state
        (Executable.pendingTasks (s.execution snap)) with
    | error e =>
      right
      refine ⟨fun c hc => Or.inl (results c (by simpa using hc)), ?_⟩
      intro same _ _ st next receipt intents ready
      obtain ⟨outcomes, ran', _⟩ := outcomes_of_settled (s := s) ready.1.1
      rw [same, ran'] at ran
      cases ran
    | ok outcomes =>
      dsimp only
      by_cases completed :
          settle x.workflow (s.execution snap).snapshot.frontier outcomes = .completed
      · have all := settle_completed completed
        have settled := settled_of_completed kept answered ran all
        have completes := completes_of_results answered (kept.execution_settled settled) ran all
        have same : x.planSettled s.prepares (s.execution snap) outcomes =
            x.planFrontier s.prepares (s.execution snap) outcomes := by
          unfold Executable.planSettled
          rw [completed]
        rw [same]
        rcases planFrontier_cases kept stable empty settled completes with
          ⟨js, c, ends, replayed, closes⟩ | ⟨allowed, unready⟩
        · left
          rw [ends, ← List.append_assoc]
          refine ⟨_, c, rfl, ?_, closes.after _, empty, not_le.mp spent⟩
          intro c' hc
          rcases List.mem_append.mp hc with result | later
          · exact results c' result
          · exact replayed c' later
        · right
          refine ⟨?_, fun _ _ _ => unready⟩
          intro c hc
          rcases List.mem_append.mp hc with result | later
          · exact Or.inl (results c result)
          · exact allowed c later
      · right
        constructor
        · intro c hc
          rcases List.mem_append.mp hc with result | later
          · exact Or.inl (results c result)
          · exact Or.inr (planSettled_halts s.prepares answered rfl ran completed c later)
        · intro same _ _ st next receipt intents ready
          obtain ⟨outcomes', ran', all⟩ := outcomes_of_settled (s := s) ready.1.1
          rw [same, ran'] at ran
          cases ran
          exact completed (settle_all_results all)

end

end Workflow
