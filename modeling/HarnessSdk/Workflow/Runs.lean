import HarnessSdk.Workflow.Scheduling

/-! Runs of the engine under arbitrary host code: every handler result, route and intent list is
free at every superstep. -/
namespace Workflow
open PyDict PyText

def firedEdge : Candidate → Option Edge
  | ⟨_, _, _, .join edge _⟩ => some edge
  | ⟨_, _, _, .direct⟩ => none

/-- The snapshots a run of `w` commits when every superstep meets `Cond`, with the tasks
completed and the join edges fired on the way. -/
inductive Run (w : CompiledWorkflow) (inv : Invocation)
    (Cond : NativeSnapshot → StepInput → Prop) :
    NativeSnapshot → List NativeTask → List Edge → Prop
  | genesis {snap : NativeSnapshot} (start : genesis w inv = .ok snap) : Run w inv Cond snap [] []
  | step {snap snap' : NativeSnapshot} {done : List NativeTask} {fired : List Edge}
      {p : Progress} (input : StepInput) (before : Run w inv Cond snap done fired)
      (active : snap.frontier ≠ []) (within : snap.step < w.definition.maxSupersteps)
      (meets : Cond snap input) (collected : progress w snap input.route = .ok p)
      (committed : superstep w snap input = .ok snap') :
      Run w inv Cond snap' (done ++ snap.frontier) (fired ++ p.candidates.filterMap firedEdge)

def anyStep : NativeSnapshot → StepInput → Prop := fun _ _ => True

variable {w : CompiledWorkflow} {snap : NativeSnapshot} {inv : Invocation}

theorem superstep_eq_ok {snap' : NativeSnapshot} {input : StepInput}
    (committed : superstep w snap input = .ok snap') :
    ∃ state next intents, mergedState w snap input.patch = .ok state ∧
      nextFrontier w snap input.route state = .ok next ∧
      input.intents state next.frontier = .ok intents ∧ stateBlobRefs state = .ok () ∧
      snap' = advance snap (frontierOperationId snap next.frontier state intents) state next := by
  obtain ⟨state, merged, committed⟩ := bind_eq_ok committed
  obtain ⟨next, scheduled, committed⟩ := bind_eq_ok committed
  obtain ⟨intents, hintents, committed⟩ := bind_eq_ok committed
  obtain ⟨_, blobs, committed⟩ := bind_eq_ok committed
  cases committed
  exact ⟨state, next, intents, merged, scheduled, hintents, blobs, rfl⟩

theorem genesis_eq_ok (start : genesis w inv = .ok snap) :
    ∃ entry, entryTask w inv.runId inv.threadId inv.checkpointNs = .ok entry ∧
      snap.frontier = [entry] ∧ snap.completedActivations = [] ∧ snap.joinFirings = [] ∧
      snap.state = inv.state ∧ snap.step = 0 ∧ snap.runId = strip inv.runId ∧
      snap.checkpointId =
        stableId [inv.runId, inv.threadId, inv.checkpointNs, "genesis"] := by
  obtain ⟨entry, hentry, start⟩ := bind_eq_ok start
  obtain ⟨threadId, _, start⟩ := bind_eq_ok start
  obtain ⟨runId, hrun, start⟩ := bind_eq_ok start
  cases start
  exact ⟨entry, hentry, rfl, rfl, rfl, rfl, rfl, identity_eq_ok hrun, rfl⟩

theorem genesis_identity (start : genesis w inv = .ok snap) :
    snap.threadId = strip inv.threadId ∧ snap.checkpointNs = inv.checkpointNs ∧
      get? snap.metadata "logical_timestamp" = some inv.logicalTimestamp := by
  obtain ⟨entry, hentry, start⟩ := bind_eq_ok start
  obtain ⟨threadId, hthread, start⟩ := bind_eq_ok start
  obtain ⟨runId, hrun, start⟩ := bind_eq_ok start
  cases start
  refine ⟨identity_eq_ok hthread, rfl, ?_⟩
  simp [get?]

theorem Run.mono {Cond Cond' : NativeSnapshot → StepInput → Prop} {done : List NativeTask}
    {fired : List Edge} (weaker : ∀ snap input, Cond snap input → Cond' snap input)
    (run : Run w inv Cond snap done fired) : Run w inv Cond' snap done fired := by
  induction run with
  | genesis start => exact .genesis start
  | step input _ active within meets collected committed ih =>
    exact .step input ih active within (weaker _ _ meets) collected committed

def plainInvocation : Invocation where
  threadId := "thread"
  runId := "run"
  checkpointNs := ""
  state := []
  logicalTimestamp := .int 0
  deadline := .null
  descriptor := .null

/-! ### Supersteps that succeed -/

theorem identity_ok (fieldName : String) {value : String} (present : strip value ≠ "") :
    ∃ id, identity fieldName value = .ok id ∧ id.1 = strip value := by
  unfold identity
  rw [dif_neg present]
  exact ⟨_, rfl, rfl⟩

theorem create_ok {taskId nodeId invocationKey activationId : String} (joinEpoch : Nat)
    {taskPath : List String} (hid : strip taskId ≠ "") (hnode : strip nodeId ≠ "")
    (hinvocation : strip invocationKey ≠ "") (hactivation : strip activationId ≠ "")
    (hpath : "" ∉ taskPath) :
    ∃ task, NativeTask.create taskId nodeId invocationKey activationId joinEpoch taskPath =
      .ok task := by
  obtain ⟨id, hid, _⟩ := identity_ok "task_id" hid
  obtain ⟨node, hnode, _⟩ := identity_ok "node_id" hnode
  obtain ⟨invocation, hinvocation, _⟩ := identity_ok "invocation_key" hinvocation
  obtain ⟨activation, hactivation, _⟩ := identity_ok "activation_id" hactivation
  unfold NativeTask.create
  rw [hid, hnode, hinvocation, hactivation]
  dsimp only [bind, Except.bind]
  rw [dif_neg hpath]
  exact ⟨_, rfl⟩

theorem strip_stableId_ne_empty (parts : List String) : strip (stableId parts) ≠ "" := by
  have nonempty : 0 < (stableId parts).toList.length := by
    rw [stableId, Sha256.hexdigest_length]
    decide
  obtain ⟨c, hc⟩ := List.exists_mem_of_length_pos nonempty
  exact strip_ne_empty hc (stableId_solid parts c hc)

section
variable {w : CompiledWorkflow} {snap : NativeSnapshot}

variable {state : State} {cs : List Candidate} {inv : Invocation}
  {Cond : NativeSnapshot → StepInput → Prop} {done : List NativeTask} {fired : List Edge}

theorem taskOf_ok (snap : NativeSnapshot) {c : Candidate}
    (budget : w.validateLoopBudget c.source.nodeId c.target state = .ok ())
    (target : strip c.target ≠ "") (activation : strip c.activation ≠ "") :
    ∃ task, taskOf w snap state c = .ok task := by
  have invocation : strip (invocationOf w c) ≠ "" := by
    have colon : ':' ∈ (invocationOf w c).toList := by
      simp [invocationOf, String.toList_append]
    have solid : isSpace ':' = false := by decide
    exact strip_ne_empty colon solid
  have path : "" ∉ c.source.taskPath ++ [c.target] := by
    intro found
    rcases List.mem_append.mp found with old | new
    · exact c.source.pathed old
    · rw [← List.mem_singleton.mp new] at target
      exact target (by simp [strip, stripChars])
  have id : strip (taskIdOf w snap c) ≠ "" := strip_stableId_ne_empty _
  obtain ⟨task, created⟩ := create_ok (scheduledEpoch w c) id target invocation activation path
  refine ⟨task, ?_⟩
  rw [taskOf, budget]
  simpa only [bind, Except.bind] using created

theorem schedule_append (f : Candidate → NativeTask) (next : Dict String NativeTask)
    (made : ∀ c ∈ cs, taskOf w snap state c = .ok (f c))
    (distinct : (cs.map (taskIdOf w snap)).Nodup)
    (fresh : ∀ c ∈ cs, taskIdOf w snap c ∉ keys next) :
    schedule w snap state cs next =
      .ok (next ++ cs.map fun c => (taskIdOf w snap c, f c)) := by
  induction cs generalizing next with
  | nil => simp [schedule]
  | cons c rest ih =>
    simp only [List.map_cons, List.nodup_cons] at distinct
    have hset := set_of_not_mem (f c) (fresh c (by simp))
    have later : ∀ d ∈ rest, taskIdOf w snap d ∉ keys (set next (taskIdOf w snap c) (f c)) := by
      intro d hd found
      rcases (mem_keys_set _ _ _ _).mp found with same | old
      · exact distinct.1 (same ▸ List.mem_map_of_mem hd)
      · exact fresh d (by simp [hd]) old
    rw [schedule, made c (by simp)]
    simp only [bind, Except.bind]
    rw [ih _ (fun d hd => made d (by simp [hd])) distinct.2 later, hset]
    simp

theorem superstep_ok (input : StepInput) {p : Progress} (f : Candidate → NativeTask)
    (merged : mergedState w snap input.patch = .ok state)
    (collected : progress w snap input.route = .ok p)
    (made : ∀ c ∈ p.candidates, taskOf w snap state c = .ok (f c))
    (distinct : (p.candidates.map (taskIdOf w snap)).Nodup)
    (intents : ∀ frontier, ∃ values, input.intents state frontier = .ok values)
    (blobs : stateBlobRefs state = .ok ()) :
    ∃ snap', superstep w snap input = .ok snap' ∧
      snap'.frontier.Perm (p.candidates.map f) ∧ snap'.state = state ∧
      snap'.step = snap.step + 1 := by
  have reordered := List.perm_insertionSort (fun a b => candidateLe a b) p.candidates
  have tasks := schedule_append f [] (fun c hc => made c (reordered.mem_iff.mp hc))
    ((reordered.map _).nodup_iff.mpr distinct) (by simp [keys])
  obtain ⟨values, hvalues⟩ := intents ((sortedBy Prod.fst
    ((p.candidates.insertionSort fun a b => candidateLe a b).map fun c =>
      (taskIdOf w snap c, f c))).map Prod.snd)
  rw [List.nil_append] at tasks
  unfold superstep nextFrontier
  rw [merged, collected]
  simp only [bind, Except.bind]
  rw [tasks]
  simp only [pure, Except.pure, hvalues, blobs]
  refine ⟨_, rfl, ?_, rfl, rfl⟩
  have sortedTasks := (perm_sortedBy Prod.fst ((p.candidates.insertionSort
    fun a b => candidateLe a b).map fun c => (taskIdOf w snap c, f c))).map Prod.snd
  rw [List.map_map] at sortedTasks
  exact sortedTasks.trans (reordered.map f)

def quietInput (route : NativeTask → Engine String) : StepInput :=
  ⟨fun _ => [], route, fun _ _ => .ok []⟩

theorem groupWrites_quiet (tasks : List NativeTask)
    (known : ∀ task ∈ tasks, (w.node task.nodeId).isSome) :
    w.groupWrites (tasks.map fun task => (task.nodeId, [])) [] = .ok [] := by
  induction tasks with
  | nil => rfl
  | cons task rest ih =>
    have here := known task (by simp)
    obtain ⟨node, hnode⟩ := Option.isSome_iff_exists.mp here
    have found : ¬ (w.node task.nodeId).isNone := by simp [hnode]
    simp only [List.map_cons, CompiledWorkflow.groupWrites, CompiledWorkflow.validatePatch]
    rw [if_neg found]
    exact ih fun t ht => known t (by simp [ht])

variable (route : NativeTask → Engine String)

theorem mergedState_quiet (known : ∀ task ∈ snap.frontier, (w.node task.nodeId).isSome) :
    mergedState w snap (quietInput route).patch = .ok snap.state := by
  have grouped := groupWrites_quiet (w := w) (sortedBy (·.taskId) snap.frontier)
    fun task ht => known task ((mem_sortedBy _ _ _).mp ht)
  unfold mergedState quietInput CompiledWorkflow.mergePatches
  simp only [grouped]
  rfl

/-- A superstep in which nothing is written and every candidate is allowed and has an id of its
own extends a run by those candidates. -/
theorem Run.quietStep {route : NativeTask → Engine String} {p : Progress}
    (before : Run w inv Cond snap done fired) (active : snap.frontier ≠ [])
    (within : snap.step < w.definition.maxSupersteps) (meets : Cond snap (quietInput route))
    (known : ∀ task ∈ snap.frontier, (w.node task.nodeId).isSome)
    (blobs : stateBlobRefs snap.state = .ok ()) (collected : progress w snap route = .ok p)
    (allowed : ∀ c ∈ p.candidates, w.validateLoopBudget c.source.nodeId c.target snap.state = .ok
      () ∧ strip c.target ≠ "" ∧ strip c.activation ≠ "")
    (distinct : (p.candidates.map (taskIdOf w snap)).Nodup) :
    ∃ snap', superstep w snap (quietInput route) = .ok snap' ∧
      Run w inv Cond snap' (done ++ snap.frontier)
        (fired ++ p.candidates.filterMap firedEdge) ∧
      (∃ made : Candidate → NativeTask, snap'.frontier.Perm (p.candidates.map made) ∧
        ∀ c ∈ p.candidates, (made c).nodeId = strip c.target ∧
          (made c).joinEpoch = scheduledEpoch w c ∧ (made c).taskId = taskIdOf w snap c) ∧
      snap'.state = snap.state ∧ snap'.step = snap.step + 1 := by
  have merged := mergedState_quiet route known
  let made : Candidate → NativeTask := fun c =>
    match taskOf w snap snap.state c with
    | .ok task => task
    | .error _ => c.source
  have hmade : ∀ c ∈ p.candidates, taskOf w snap snap.state c = .ok (made c) := by
    intro c hc
    obtain ⟨budget, target, activation⟩ := allowed c hc
    obtain ⟨task, htask⟩ := taskOf_ok snap budget target activation
    simp only [made, htask]
  obtain ⟨snap', committed, tasks, state, step⟩ := superstep_ok (quietInput route) made
    merged collected hmade distinct (fun _ => ⟨[], rfl⟩) blobs
  refine ⟨snap', committed,
    .step (quietInput route) before active within meets collected committed, ⟨made, tasks, fun c hc => ?_⟩, state, step⟩
  exact (taskOf_eq_ok (hmade c hc)).2

theorem quiet_checkpoint {route : NativeTask → Engine String} {snap' : NativeSnapshot}
    (known : ∀ task ∈ snap.frontier, (w.node task.nodeId).isSome)
    (committed : superstep w snap (quietInput route) = .ok snap') :
    snap'.runId = snap.runId ∧ snap'.checkpointId =
      stableId [snap.runId, frontierOperationId snap snap'.frontier snap.state []] := by
  obtain ⟨state, next, intents, merged, _, delivered, _, rfl⟩ := superstep_eq_ok committed
  cases (mergedState_quiet route known).symm.trans merged
  cases delivered
  exact ⟨rfl, rfl⟩

theorem genesis_ok (w : CompiledWorkflow) (inv : Invocation) (entry : strip w.definition.entryNode ≠ "")
    (runId : strip inv.runId ≠ "") (threadId : strip inv.threadId ≠ "") :
    ∃ snap, genesis w inv = .ok snap := by
  have invocation : strip ("entry:" ++ w.definition.entryNode) ≠ "" := by
    have colon : ':' ∈ ("entry:" ++ w.definition.entryNode).toList := by
      simp [String.toList_append]
    have solid : isSpace ':' = false := by decide
    exact strip_ne_empty colon solid
  have path : "" ∉ [w.definition.entryNode] := by
    intro found
    rw [← List.mem_singleton.mp found] at entry
    exact entry (by simp [strip, stripChars])
  obtain ⟨task, created⟩ := create_ok 0 (strip_stableId_ne_empty
    [inv.runId, inv.threadId, inv.checkpointNs, "genesis", w.definition.entryNode]) entry invocation
    (strip_stableId_ne_empty [inv.runId, inv.threadId, inv.checkpointNs, "genesis"]) path
  obtain ⟨thread, hthread, _⟩ := identity_ok "thread_id" threadId
  obtain ⟨run, hrun, _⟩ := identity_ok "run_id" runId
  unfold genesis entryTask
  rw [created, hthread, hrun]
  simp only [bind, Except.bind]
  exact ⟨_, rfl⟩

variable {task : NativeTask}

theorem entryTask_eq_ok {runId threadId checkpointNs : String}
    (made : entryTask w runId threadId checkpointNs = .ok task) :
    task.taskId = stableId [runId, threadId, checkpointNs, "genesis", w.definition.entryNode] ∧
      task.nodeId = strip w.definition.entryNode ∧ task.joinEpoch = 0 := by
  obtain ⟨id, node, epoch, _⟩ := create_eq_ok made
  exact ⟨id.trans (strip_stableId _), node, epoch⟩

theorem collect_plain {tasks : List NativeTask} (p : Progress)
    (plain : ∀ task ∈ tasks, w.conditionalFor task.nodeId = none ∧ w.joinEdgesFor task.nodeId =
      []) :
    collect w snap route tasks p = .ok { p with
      candidates := p.candidates ++ tasks.flatMap fun task =>
        directCandidates snap task (w.singleTargets task.nodeId) } := by
  induction tasks generalizing p with
  | nil => simp [collect]
  | cons task rest ih =>
    obtain ⟨unconditional, noJoins⟩ := plain task (by simp)
    have targets : directTargets w route task = .ok (w.singleTargets task.nodeId) := by
      rw [directTargets, unconditional]
    rw [collect, taskStep, targets, noJoins]
    simp only [bind, Except.bind, pure, Except.pure, List.foldl_nil]
    rw [ih _ fun t ht => plain t (by simp [ht])]
    simp

theorem progress_plain
    (plain : ∀ task ∈ snap.frontier, w.conditionalFor task.nodeId = none ∧ w.joinEdgesFor
      task.nodeId = []) :
    progress w snap route = .ok ⟨snap.completedActivations, snap.joinFirings,
      (sortedBy (·.taskId) snap.frontier).flatMap fun task =>
        directCandidates snap task (w.singleTargets task.nodeId)⟩ := by
  rw [progress, collect_plain route _ fun task ht => plain task ((mem_sortedBy _ _ _).mp ht)]
  rfl

/-- What a frontier of one task without a conditional edge collects. -/
def singleProgress (w : CompiledWorkflow) (snap : NativeSnapshot) (task : NativeTask) : Progress :=
  (w.joinEdgesFor task.nodeId).foldl (joinStep snap task)
    ⟨snap.completedActivations, snap.joinFirings,
      directCandidates snap task (w.singleTargets task.nodeId)⟩

theorem progress_single (alone : snap.frontier = [task])
    (plain : w.conditionalFor task.nodeId = none) :
    progress w snap route = .ok (singleProgress w snap task) := by
  have order : sortedBy (·.taskId) [task] = [task] := rfl
  have targets : directTargets w route task = .ok (w.singleTargets task.nodeId) := by
    rw [directTargets, plain]
  rw [progress, alone, order, collect, taskStep, targets]
  simp only [bind, Except.bind, pure, Except.pure, List.nil_append]
  rfl

section
variable (unbound : w.bindings = [])
include unbound

theorem budgetOf_unbound (source target : String) :
    w.budgetOf source target = none := by
  rw [CompiledWorkflow.budgetOf, unbound]
  rfl

theorem validateLoopBudget_unbound (source target : String)
    (state : State) : w.validateLoopBudget source target state = .ok () := by
  rw [CompiledWorkflow.validateLoopBudget, budgetOf_unbound unbound]

theorem scheduledEpoch_unbound (c : Candidate) :
    scheduledEpoch w c = c.source.joinEpoch := by
  simp [scheduledEpoch, CompiledWorkflow.isCycleEdge, budgetOf_unbound unbound]

end

theorem Run.chainStep (run : Run w inv Cond snap done fired)
    (meets : Cond snap (quietInput fun _ => .ok "")) (alone : snap.frontier = [task])
    (blobs : stateBlobRefs snap.state = .ok ()) (within : snap.step < w.definition.maxSupersteps)
    (known : (w.node task.nodeId).isSome) (plain : w.conditionalFor task.nodeId = none)
    (collected : (singleProgress w snap task).candidates = cs) (short : cs = [] ∨ ∃ c, cs = [c])
    (allowed : ∀ c ∈ cs, w.validateLoopBudget c.source.nodeId c.target snap.state = .ok () ∧ strip
      c.target = c.target ∧ c.target ≠ "" ∧ strip c.activation ≠ "") :
    ∃ snap', superstep w snap (quietInput fun _ => .ok "") = .ok snap' ∧
      Run w inv Cond snap' (done ++ [task]) (fired ++ cs.filterMap firedEdge) ∧
      snap'.state = snap.state ∧ snap'.step = snap.step + 1 ∧
      (cs = [] → snap'.frontier = []) ∧
      ∀ c, cs = [c] → ∃ next, snap'.frontier = [next] ∧ next.nodeId = c.target ∧
        next.joinEpoch = scheduledEpoch w c := by
  obtain ⟨snap', committed, run', ⟨made, tasks, spec⟩, state, step⟩ := run.quietStep
    (by simp [alone]) within meets (by simpa [alone] using known) blobs
    (progress_single (fun _ => .ok "") alone plain)
    (by
      intro c hc
      obtain ⟨budget, trimmed, present, activation⟩ := allowed c (collected ▸ hc)
      refine ⟨budget, ?_, activation⟩
      rw [trimmed]
      exact present)
    (by
      rw [collected]
      rcases short with rfl | ⟨c, rfl⟩ <;> simp)
  rw [collected, alone] at run'
  rw [collected] at tasks spec
  refine ⟨snap', committed, run', state, step, ?_, ?_⟩
  · rintro rfl
    exact List.perm_nil.mp tasks
  · rintro c rfl
    obtain ⟨hnode, hepoch, _⟩ := spec c (by simp)
    refine ⟨made c, List.perm_singleton.mp tasks, ?_, hepoch⟩
    rw [hnode]
    exact (allowed c (by simp)).2.1

end
end Workflow
