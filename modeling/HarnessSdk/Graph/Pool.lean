import HarnessSdk.Graph.Reordering

/-! The token pool of a mission under changes of its task graph. -/
namespace Graph
open PyDict PyText Checks Workflow

/-- The reserve and what the tasks have committed fit in the pool; a cancelled task counts at what
it committed, every other at its budget. -/
def PoolHolds (host : Host) (mission : Mission) (tasks : List Task)
    (committed : Dict String Int) : Prop :=
  ∀ pool : Nat, mission.budget.maxTokens = some pool → ∃ reserve,
    unmaterializedSystemReserve host mission tasks = .ok reserve ∧
    0 ≤ remainingTokens tasks Effects.none committed pool reserve

def nodeBudget (node : NewTaskNode) (validated : ValidatedChange) (mission : Mission) : Budget :=
  let tokens := match get? validated.budgetPool node.key with
    | some granted => some granted.toNat
    | none => node.budget.maxTokens
  inheritLimits { node.budget with maxTokens := tokens } mission.budget

def materialised (validated : ValidatedChange) (mission : Mission) (node : NewTaskNode) : Task where
  id := node.key
  dependencyIds := node.dependencies
  goal := node.goal
  successCriteria := node.successCriteria
  budget := nodeBudget node validated mission
  status := .blocked
  outputs := node.outputs
  kind := .work
  context := []

def cancelRemoved (effects : Effects) (task : Task) : Task :=
  if task.id ∈ effects.removed then { task with status := .cancelled } else task

def tasksAfter (mission : Mission) (tasks : List Task) (validated : ValidatedChange) : List Task :=
  tasks.map (cancelRemoved validated.effects) ++
    validated.newNodes.map (materialised validated mission)

/-- No task the change removes has committed more than its budget, at which it counted before. -/
def RaisesNothing (tasks : List Task) (effects : Effects) (committed : Dict String Int) : Prop :=
  ∀ task ∈ tasks, task.id ∈ effects.removed →
    (get? committed task.id).getD 0 ≤ (task.budget.maxTokens.getD 0 : Int)

section
variable {host : Host} {mission : Mission} {tasks : List Task} {validated : ValidatedChange}

theorem cancelRemoved_kind (effects : Effects) (task : Task) :
    (cancelRemoved effects task).kind = task.kind := by
  unfold cancelRemoved
  split <;> rfl

theorem cancelRemoved_budget (effects : Effects) (task : Task) :
    (cancelRemoved effects task).budget = task.budget := by
  unfold cancelRemoved
  split <;> rfl

theorem reserve_after : unmaterializedSystemReserve host mission (tasksAfter mission tasks validated) =
    unmaterializedSystemReserve host mission tasks := by
  have conflicts : (((tasksAfter mission tasks validated).filter fun t => t.kind = .conflict).map
        fun t => (t.budget.maxTokens.getD 0 : Int)) =
      ((tasks.filter fun t => t.kind = .conflict).map fun t =>
        (t.budget.maxTokens.getD 0 : Int)) := by
    simp [tasksAfter, List.filter_append, List.filter_map, Function.comp_def, cancelRemoved_kind,
      cancelRemoved_budget, materialised]
  have synthesis : ((tasksAfter mission tasks validated).any fun t => t.kind = .synthesis) =
      tasks.any fun t => t.kind = .synthesis := by
    simp [tasksAfter, List.any_map, Function.comp_def, cancelRemoved_kind, materialised]
  rw [unmaterializedSystemReserve, unmaterializedSystemReserve, conflicts, synthesis]

def inheritDimension (parent budget : Budget) (dimension : Dimension) : Budget :=
  match budget.limit dimension, parent.limit dimension with
  | none, some cap => budget.withLimit dimension (some cap)
  | _, _ => budget

theorem inheritDimension_tokens (parent budget : Budget) {dimension : Dimension} {n : Nat}
    (held : budget.maxTokens = some n) :
    (inheritDimension parent budget dimension).maxTokens = some n := by
  unfold inheritDimension
  split
  · next open' _ => cases dimension <;> simp_all [Budget.limit, Budget.withLimit]
  · exact held

theorem inheritLimits_tokens (parent budget : Budget) {n : Nat} (held : budget.maxTokens = some n) :
    (inheritLimits budget parent).maxTokens = some n := by
  have each : ∀ (items : List Dimension) (b : Budget), b.maxTokens = some n →
      (items.foldl (inheritDimension parent) b).maxTokens = some n := by
    intro items
    induction items with
    | nil => exact fun _ same => same
    | cons first rest ih => exact fun b same => ih _ (inheritDimension_tokens parent b same)
  exact each dimensions budget held

theorem openShare_pos (pool : Nat) (remaining : Int) (nodes : List NewTaskNode) :
    0 < openShare pool remaining tasks nodes := by
  unfold openShare
  omega

theorem committed_after (committed : Dict String Int) {share : Int} (positive : 0 < share)
    (distinct : (validated.newNodes.map fun node => node.key).Nodup)
    (granted : validated.budgetPool = nodeBudgets validated.newNodes share) :
    committedTokens (tasksAfter mission tasks validated) Effects.none committed =
      committedTokens tasks validated.effects committed +
        (validated.budgetPool.map Prod.snd).sum := by
  have nothing : Effects.none.removed = [] := rfl
  have named : (keys (nodeBudgets validated.newNodes share)).Nodup := by
    simpa [nodeBudgets, keys, Function.comp_def] using distinct
  have old : ((tasks.map (cancelRemoved validated.effects)).map fun task =>
      if task.status = .cancelled ∨ task.id ∈ Effects.none.removed then
        (get? committed task.id).getD 0 else (task.budget.maxTokens.getD 0 : Int)) =
      tasks.map fun task =>
        if task.status = .cancelled ∨ task.id ∈ validated.effects.removed then
          (get? committed task.id).getD 0 else (task.budget.maxTokens.getD 0 : Int) := by
    rw [List.map_map]
    apply List.map_congr_left
    intro task _
    by_cases gone : task.id ∈ validated.effects.removed <;>
      simp [nothing, cancelRemoved, gone]
  have new : ((validated.newNodes.map (materialised validated mission)).map fun task =>
      if task.status = .cancelled ∨ task.id ∈ Effects.none.removed then
        (get? committed task.id).getD 0 else (task.budget.maxTokens.getD 0 : Int)) =
      validated.budgetPool.map Prod.snd := by
    rw [granted, nodeBudgets, List.map_map, List.map_map]
    apply List.map_congr_left
    intro node inside
    have entry : (node.key, (node.budget.maxTokens.map Int.ofNat).getD share) ∈
        nodeBudgets validated.newNodes share := List.mem_map_of_mem inside
    have found := get?_eq_some_of_mem named entry
    have tokens : (nodeBudget node validated mission).maxTokens =
        some ((node.budget.maxTokens.map Int.ofNat).getD share).toNat := by
      apply inheritLimits_tokens
      rw [granted, found]
    have whole : 0 ≤ (node.budget.maxTokens.map Int.ofNat).getD share := by
      cases node.budget.maxTokens with
      | none => exact Int.le_of_lt positive
      | some n => exact Int.natCast_nonneg n
    simp [nothing, tokens, materialised, whole]
  simp only [committedTokens, tasksAfter, List.map_append, List.sum_append, old, new]

variable {inputs : ChangeInputs} {change : TaskGraphChange}

theorem poolHolds_after (ok : validateChange host mission inputs tasks change = .ok validated) :
    PoolHolds host mission (tasksAfter mission tasks validated) inputs.committedTokensByTask := by
  obtain ⟨order, budgets, cleared, rfl⟩ := (validateChange_eq_ok ..).mp ok
  intro pool bounded
  obtain ⟨reserve, known, granted, room⟩ :=
    (budgetPool_eq_ok cleared.distinct bounded).mp cleared.pool
  refine ⟨reserve, ?_, ?_⟩
  · rw [reserve_after]
    exact known
  · have total := @committed_after mission tasks
      (clearedChange host inputs tasks change order budgets)
      inputs.committedTokensByTask _ (openShare_pos pool _ _) cleared.distinct granted
    rw [remainingTokens, total]
    simp only [clearedChange, remainingTokens] at room ⊢
    omega

end

/-! Accepted changes keep within the pool, and refuse no change that adds nothing. -/

/-- Accepted changes keep the commitments within the pool, and a change that adds no task and raises
no commitment passes the budget check. -/
structure PoolGuarded (host : Host) (mission : Mission) (inputs : ChangeInputs) (tasks : List Task)
    (change : TaskGraphChange) : Prop where
  kept : PoolHolds host mission tasks inputs.committedTokensByTask → ∀ validated,
    validateChange host mission inputs tasks change = .ok validated →
      PoolHolds host mission (tasksAfter mission tasks validated) inputs.committedTokensByTask
  unrefused : proposedNodes inputs change = [] →
    RaisesNothing tasks (effectsOf change) inputs.committedTokensByTask →
    ∃ budgets, budgetPool host mission tasks (effectsOf change) (proposedNodes inputs change)
      inputs.committedTokensByTask = .ok budgets

/-- The change adds a task or raises a commitment, or what it leaves committed fits in the pool. -/
def LeavesRoom (host : Host) (mission : Mission) (inputs : ChangeInputs) (tasks : List Task)
    (change : TaskGraphChange) : Prop :=
  proposedNodes inputs change = [] →
  RaisesNothing tasks (effectsOf change) inputs.committedTokensByTask →
  ∀ pool : Nat, mission.budget.maxTokens = some pool → ∃ reserve,
    unmaterializedSystemReserve host mission tasks = .ok reserve ∧
    reserve + committedTokens tasks (effectsOf change) inputs.committedTokensByTask ≤ pool

theorem budgetPool_no_nodes (host : Host) (mission : Mission) (tasks : List Task)
    (effects : Effects) (committed : Dict String Int) :
    (∃ budgets, budgetPool host mission tasks effects [] committed = .ok budgets) ↔
      ∀ pool : Nat, mission.budget.maxTokens = some pool → ∃ reserve,
        unmaterializedSystemReserve host mission tasks = .ok reserve ∧
        reserve + committedTokens tasks effects committed ≤ pool := by
  cases bounded : mission.budget.maxTokens with
  | none =>
    simp only [reduceCtorEq, false_imp_iff, implies_true, iff_true]
    exact ⟨[], (budgetPool_unbounded bounded).mpr rfl⟩
  | some pool =>
    have distinct : (([] : List NewTaskNode).map fun node => node.key).Nodup := List.nodup_nil
    simp only [budgetPool_eq_ok distinct bounded, Option.some.injEq, forall_eq']
    constructor
    · rintro ⟨budgets, reserve, known, rfl, room⟩
      refine ⟨reserve, known, ?_⟩
      simp only [nodeBudgets, List.map_nil, List.sum_nil, remainingTokens] at room
      omega
    · rintro ⟨reserve, known, room⟩
      refine ⟨_, reserve, known, rfl, ?_⟩
      simp only [nodeBudgets, List.map_nil, List.sum_nil, remainingTokens]
      omega

/-- The budget check refuses a change that asks for nothing exactly when the pool is overdrawn
already. -/
theorem poolGuarded_iff (host : Host) (mission : Mission) (inputs : ChangeInputs)
    (tasks : List Task) (change : TaskGraphChange) :
    PoolGuarded host mission inputs tasks change ↔
      LeavesRoom host mission inputs tasks change := by
  constructor
  · intro guarded none quiet
    have passed := guarded.unrefused none quiet
    rw [none] at passed
    exact (budgetPool_no_nodes ..).mp passed
  · intro room
    constructor
    · intro _ validated ok
      exact poolHolds_after ok
    · intro none quiet
      rw [none]
      exact (budgetPool_no_nodes ..).mpr (room none quiet)

/-! A cancelled task that used more than the mission has left. -/

def tightMission : Mission := ⟨{ Budget.unlimited with maxTokens := some 100 }, [], none⟩

def overdrawn : ChangeInputs := { plainInputs with committedTokensByTask := [("a", 130)] }

def afterOverrun : List Task :=
  [writer "a" "draft the report" .cancelled [], writer "b" "revise the report" .ready []]

def raisePriority : TaskGraphChange := ⟨"", [.setPriority "b" "2.0"]⟩

theorem overdrawn_refuses_priority :
    validateChange plainHost tightMission overdrawn afterOverrun raisePriority =
      .error (rejectChange "budget" ("new tasks ask 0 tokens but the Mission pool has 0 left " ++
        "(pool=100, committed=130, system_reserve=0); dimension=max_tokens remaining=0")) ∧
    ¬ PoolGuarded plainHost tightMission overdrawn afterOverrun raisePriority := by
  refine ⟨by decide +kernel, ?_⟩
  intro guarded
  have none : proposedNodes overdrawn raisePriority = [] := by decide +kernel
  have quiet : RaisesNothing afterOverrun (effectsOf raisePriority)
      overdrawn.committedTokensByTask := by
    unfold RaisesNothing
    decide +kernel
  have passed := guarded.unrefused none quiet
  rw [none] at passed
  obtain ⟨reserve, known, room⟩ := (budgetPool_no_nodes ..).mp passed 100 rfl
  have nothing : unmaterializedSystemReserve plainHost tightMission afterOverrun = .ok 0 := by
    decide +kernel
  rw [nothing] at known
  cases known
  revert room
  decide +kernel

end Graph
