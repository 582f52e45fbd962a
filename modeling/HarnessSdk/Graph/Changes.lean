import HarnessSdk.Graph.Validation

/-! Change proposals against a live task graph. -/
namespace Graph
open PyDict PyText Checks Workflow

inductive TaskStatus
  | blocked
  | ready
  | active
  | verifying
  | completed
  | failed
  | cancelled
deriving DecidableEq

def TaskStatus.value : TaskStatus → String
  | .blocked => "BLOCKED"
  | .ready => "READY"
  | .active => "ACTIVE"
  | .verifying => "VERIFYING"
  | .completed => "COMPLETED"
  | .failed => "FAILED"
  | .cancelled => "CANCELLED"

inductive TaskKind
  | work
  | conflict
  | synthesis
deriving DecidableEq

def TaskKind.value : TaskKind → String
  | .work => "work"
  | .conflict => "conflict"
  | .synthesis => "synthesis"

structure Task where
  id : String
  dependencyIds : List String
  goal : String
  successCriteria : List String
  budget : Budget
  status : TaskStatus
  outputs : List String
  kind : TaskKind
  context : List (String × Json)

structure ChangeLimits where
  maxGraphDepth : Int
  maxProposalsPerAgent : Int
  maxTasks : Int
  maxSupersedeChain : Int
  admitNewTasks : Bool

structure NewTaskNode extends TaskNode where
  parentTaskIds : List String
  role : String
deriving DecidableEq

/-- The arguments of `add_task`; a policy that is not named is filled in by the gate. -/
structure AddTask where
  key : String
  goal : String
  rationale : String
  dependencies : List String
  successCriteria : List String
  verificationPolicy : Option (List String)
  allowedTools : List String
  budget : Budget
  priority : String
  outputs : List String
  parentTaskIds : List String
  role : String
deriving DecidableEq

def AddTask.node (args : AddTask) (defaultPolicy : List String) : NewTaskNode where
  key := args.key
  goal := args.goal
  rationale := args.rationale
  dependencies := args.dependencies
  successCriteria := args.successCriteria
  verificationPolicy := args.verificationPolicy.getD defaultPolicy
  allowedTools := args.allowedTools
  budget := args.budget
  priority := args.priority
  outputs := args.outputs
  parentTaskIds := args.parentTaskIds
  role := args.role

inductive Operation
  | addTask (args : AddTask)
  | supersedeTask (taskId replacementKey : String)
  | retargetDependencies (taskId : String) (dependencies : List String)
  | setPriority (taskId priority : String)
  | pauseTask (taskId reason : String)
  | resumeTask (taskId : String)
  | cancelTask (taskId reason : String)
  | setRole (taskId role : String)
deriving DecidableEq

/-- Of the basis only the source attempt is read. -/
structure TaskGraphChange where
  sourceAttempt : String
  operations : List Operation
deriving DecidableEq

def addTasks (change : TaskGraphChange) (defaultPolicy : List String) : List NewTaskNode :=
  change.operations.filterMap fun
    | .addTask args => some (args.node defaultPolicy)
    | _ => none

structure Effects where
  superseded : Dict String String
  retargets : Dict String (List String)
  priorities : Dict String String
  pauses : Dict String String
  resumes : List String
  cancels : Dict String String
  roles : Dict String String
deriving DecidableEq

def Effects.none : Effects := ⟨[], [], [], [], [], [], []⟩

def Effects.record (effects : Effects) : Operation → Effects
  | .addTask _ => effects
  | .supersedeTask id replacement =>
    { effects with superseded := set effects.superseded id replacement }
  | .retargetDependencies id dependencies =>
    { effects with retargets := set effects.retargets id dependencies }
  | .setPriority id priority => { effects with priorities := set effects.priorities id priority }
  | .pauseTask id reason => { effects with pauses := set effects.pauses id reason }
  | .resumeTask id => { effects with resumes := effects.resumes ++ [id] }
  | .cancelTask id reason => { effects with cancels := set effects.cancels id reason }
  | .setRole id role => { effects with roles := set effects.roles id role }

def effectsOf (change : TaskGraphChange) : Effects :=
  change.operations.foldl Effects.record Effects.none

def rejectChange (reason text : String) : Refusal := .rejected reason [.text text]

def TaskStatus.supersedable (status : TaskStatus) : Bool :=
  status ∈ [TaskStatus.ready, .active, .verifying]

def TaskStatus.terminal (status : TaskStatus) : Bool :=
  status ∈ [TaskStatus.completed, .failed, .cancelled]

def byId (tasks : List Task) : Dict String Task := ofEntries (tasks.map fun task => (task.id, task))

def existing (tasks : List Task) (id op : String) : Except Refusal Task :=
  match get? (byId tasks) id with
  | some task => .ok task
  | none => .error (.rejected "missing_task" [.text (op ++ " refers to unknown task "), .repr id])

def checkOpen (task : Task) (id op : String) : Except Refusal Unit :=
  require (task.status.terminal = false)
    (rejectChange "illegal_transition" (op ++ " " ++ id ++ ": Task is terminal"))

def checkSupersede (host : Host) (limits : ChangeLimits) (keySet : List String) (task : Task)
    (id replacement : String) : Except Refusal Unit := do
  require (task.status.supersedable = true) (rejectChange "illegal_transition"
    ("supersede_task " ++ id ++ ": a " ++ task.status.value ++
      " Task cannot be superseded (§25.1)"))
  require (replacement ∈ keySet) (.rejected "missing_task"
    [.text ("supersede_task " ++ id ++ ": replacement "), .repr replacement,
      .text " is not an add_task of this proposal"])
  require (task.kind = .work) (rejectChange "illegal_transition"
    ("supersede_task " ++ id ++ ": system Tasks (" ++ task.kind.value ++
      ") are not superseded by a Manager"))
  let depth ← host.int ((get? task.context "supersede_depth").getD (.int 0))
  require (depth + 1 ≤ limits.maxSupersedeChain) (rejectChange "supersede_chain"
    (id ++ " was already superseded " ++ toString depth ++ " time(s); max_supersede_chain=" ++
      toString limits.maxSupersedeChain))

def checkOperation (host : Host) (limits : ChangeLimits) (tasks : List Task) (keySet : List String) :
    Operation → Except Refusal Unit
  | .addTask _ => .ok ()
  | .supersedeTask id replacement => do
    let task ← existing tasks id "supersede_task"
    checkSupersede host limits keySet task id replacement
  | .retargetDependencies id _ => do
    let task ← existing tasks id "retarget_dependencies"
    require (task.status = .blocked) (rejectChange "illegal_transition"
      ("retarget_dependencies " ++ id ++ ": only a BLOCKED Task may have its dependencies " ++
        "rewritten in place; a " ++ task.status.value ++ " Task must be superseded"))
    require (task.kind ≠ .synthesis) (rejectChange "illegal_transition"
      ("retarget_dependencies " ++ id ++ ": the synthesis Task's dependencies never change (D4-8')"))
  | .setPriority id _ => do
    let task ← existing tasks id "set_priority"
    checkOpen task id "set_priority"
  | .pauseTask id _ => do
    let task ← existing tasks id "pause_task"
    checkOpen task id "pause_task"
    require (task.status = .ready ∨ task.status = .blocked) (rejectChange "illegal_transition"
      ("pause_task " ++ id ++ ": only a READY/BLOCKED Task can be paused; a " ++
        task.status.value ++ " Task must be superseded or cancelled"))
  | .resumeTask id => do
    let task ← existing tasks id "resume_task"
    checkOpen task id "resume_task"
  | .cancelTask id _ => do
    let task ← existing tasks id "cancel_task"
    require (task.status.supersedable = true) (rejectChange "illegal_transition"
      ("cancel_task " ++ id ++ ": a " ++ task.status.value ++ " Task cannot be cancelled (§25.1)"))
    require (task.kind = .work) (rejectChange "illegal_transition"
      ("cancel_task " ++ id ++ ": system Tasks are not cancelled by a Manager"))
  | .setRole id _ => do
    let task ← existing tasks id "set_role"
    checkOpen task id "set_role"

/-- A task stands in at most one structural operation. -/
def checkStructural (effects : Effects) : Except Refusal Unit :=
  let clash := fun left right : List String => do
    let both := left.filter (· ∈ right)
    require (both = []) (.rejected "conflicting_operations"
      (.text "tasks in two structural operations: " :: listed (sortedSet both)))
  do
  clash (keys effects.superseded) (keys effects.retargets)
  clash (keys effects.superseded) (keys effects.cancels)
  clash (keys effects.retargets) (keys effects.cancels)

/-! The merged graph: the live tasks that are not removed, and the new nodes. -/

def Effects.removed (effects : Effects) : List String :=
  keys effects.superseded ++ keys effects.cancels

section
variable (tasks : List Task)

def live : Dict String Task :=
  ofEntries ((tasks.filter fun task => task.status ≠ .cancelled).map fun task => (task.id, task))

def survivors (effects : Effects) : List Task :=
  ((live tasks).map Prod.snd).filter fun task => task.id ∉ effects.removed

/-- A dependent of a superseded task follows the replacement. -/
def Effects.dependenciesOf (effects : Effects) (task : Task) : List String :=
  ((get? effects.retargets task.id).getD task.dependencyIds).map fun d =>
    (get? effects.superseded d).getD d

def mergedEdges (effects : Effects) (nodes : List NewTaskNode) : Edges :=
  update (ofEntries ((survivors tasks effects).map fun task =>
    (task.id, effects.dependenciesOf task))) (nodes.map fun node => (node.key, node.dependencies))

def mergedOutputs (effects : Effects) (nodes : List NewTaskNode) :
    Dict String (List String) :=
  update (ofEntries ((survivors tasks effects).map fun task => (task.id, task.outputs)))
    (nodes.map fun node => (node.key, node.outputs))

def isCancelled (id : String) : Bool :=
  match get? (byId tasks) id with
  | some task => task.status == .cancelled
  | none => false

def checkMergedDependency (effects : Effects) (keySet : List String)
    (edges : Edges) (key dep : String) : Except Refusal Unit := do
  require (¬ (dep ∈ effects.removed ∧ dep ∉ keySet)) (rejectChange "missing_dependency"
    (key ++ " depends on " ++ dep ++ ", which this proposal removes"))
  require (dep ∈ keys edges) (rejectChange "missing_dependency" (key ++ " -> " ++ dep))
  require (isCancelled tasks dep = false) (rejectChange "missing_dependency"
    (key ++ " depends on CANCELLED task " ++ dep))

def mergedItems (effects : Effects) (nodes : List NewTaskNode) :
    List DuplicateItem :=
  let edges := mergedEdges tasks effects nodes
  ((survivors tasks effects).map fun task =>
    ⟨task.id, task.goal, (get? edges task.id).getD [], task.successCriteria⟩) ++
  nodes.map fun node => ⟨node.key, node.goal, node.dependencies, node.successCriteria⟩

def checkNewOutputs (edges : Edges) (outputs : Dict String (List String)) (node : NewTaskNode)
    (other : String × List String) : Except Refusal Unit :=
  if other.1 = node.key ∨ other.1 ∈ ancestorsOf edges node.key ∨
      node.key ∈ ancestorsOf edges other.1 then .ok ()
  else
    let shared := sortedSet (((get? outputs node.key).getD []).filter (· ∈ other.2))
    require (shared = []) (.rejected "artifact_conflict"
      (.text (node.key ++ " and " ++ other.1 ++ " are independent but both declare outputs ") ::
        listed shared))

def checkNewNode (mission : Mission) (settings : GateSettings) (tasks : List Task)
    (node : NewTaskNode) : Except Refusal Unit := do
  let problems := checkAgainstDomain settings.profile node.key node.successCriteria
    node.verificationPolicy
  require (problems = []) (.rejected "domain" (joined "; " problems))
  require (strip node.goal ≠ "" ∧ node.successCriteria ≠ []) (rejectChange "contract"
    (node.key ++ ": goal and success_criteria are required (§6.3)"))
  require (strip node.rationale ≠ "") (rejectChange "goal_drift"
    (node.key ++ ": no rationale — every Task must say how it serves the root goal (§19.5)"))
  let unknownLayers := node.verificationPolicy.filter (· ∉ verificationLayers)
  require (unknownLayers = [] ∧ node.verificationPolicy ≠ []) (.rejected "contract"
    (.text (node.key ++ ": bad verification_policy ") :: listed (sortedSet unknownLayers)))
  let tests := pytestCriteria node.successCriteria
  require ("code_test" ∈ settings.deployedLayers ∨ tests = [])
    (.rejected "verification_policy_undeployed"
      (.text (node.key ++ ": pytest criteria need local code execution, which this deployment has " ++
        "turned off: ") :: listed tests))
  let undeployed := node.verificationPolicy.filter (· ∉ settings.deployedLayers)
  require (undeployed = []) (.rejected "verification_policy_undeployed"
    (.text (node.key ++ ": layers not deployed ") :: listed (sortedSet undeployed)))
  let extraTools := node.allowedTools.filter (· ∉ mission.allowedTools)
  require (extraTools = []) (.rejected "tools"
    (.text (node.key ++ ": tools outside the Mission ") :: listed (sortedSet extraTools)))
  every (fun parent => require (parent ∈ keys (byId tasks)) (.rejected "missing_task"
    [.text (node.key ++ ": parent_task_ids refers to unknown task "), .repr parent]))
    node.parentTaskIds

def checkTraced (edges : Edges) (effects : Effects) (node : NewTaskNode) : Except Refusal Unit :=
  require (node.key ∈ edges.flatMap Prod.snd ∨ node.key ∈ effects.superseded.map Prod.snd ∨
      node.parentTaskIds ≠ [])
    (rejectChange "goal_drift" (node.key ++ ": nothing depends on it, it replaces nothing and " ++
      "refines nothing — it cannot be traced to the root goal (§19.5)"))

/-! The budget pool. -/

def remainingReserve (report : List (String × Json)) (original : Int) : Except Refusal Int :=
  match (get? report "conflict_reserve_remaining").getD (.int original) with
  | .int remaining => do
    require (0 ≤ remaining ∧ remaining ≤ original)
      (rejectChange "budget" "invalid remaining conflict reserve")
    pure remaining
  | _ => .error (rejectChange "budget" "invalid remaining conflict reserve")

def unmaterializedSystemReserve (host : Host) (mission : Mission) (tasks : List Task) :
    Except Refusal Int := do
  let original ← host.int (orElse (get? mission.report "conflict_reserve_tokens") (.int 0))
  let remaining ← remainingReserve mission.report original
  let allocated := ((tasks.filter fun t => t.kind = .conflict).map fun t =>
    (t.budget.maxTokens.getD 0 : Int)).sum
  require ("conflict_reserve_remaining" ∈ keys mission.report → remaining + allocated = original)
    (rejectChange "budget" "conflict allocations and remaining reserve disagree")
  let reserved ← systemReserveTokens host mission
  pure ((if tasks.any fun t => t.kind = .synthesis then 0 else reserved - original) + remaining)

def committedTokens (effects : Effects) (committed : Dict String Int) : Int :=
  (tasks.map fun task =>
    if task.status = .cancelled ∨ task.id ∈ effects.removed then (get? committed task.id).getD 0
    else (task.budget.maxTokens.getD 0 : Int)).sum

end

def budgetPool (host : Host) (mission : Mission) (tasks : List Task) (effects : Effects)
    (nodes : List NewTaskNode) (committedBy : Dict String Int) :
    Except Refusal (Dict String Int) :=
  match mission.budget.maxTokens with
  | none => .ok []
  | some pool => do
    let committed := committedTokens tasks effects committedBy
    let reserve ← unmaterializedSystemReserve host mission tasks
    let remaining : Int := pool - reserve - committed
    let share := max 1 (min (remaining / max 1 (nodes.length : Int))
      ((pool : Int) / max 4 (tasks.length + nodes.length : Int)))
    let budgets : Dict String Int := ofEntries (nodes.map fun node =>
      (node.key, (node.budget.maxTokens.map Int.ofNat).getD share))
    let asked := (budgets.map Prod.snd).sum
    require (asked ≤ remaining) (rejectChange "budget" ("new tasks ask " ++ toString asked ++
      " tokens but the Mission pool has " ++ toString (max 0 remaining) ++ " left (pool=" ++
      toString pool ++ ", committed=" ++ toString committed ++ ", system_reserve=" ++
      toString reserve ++ "); dimension=max_tokens remaining=" ++ toString (max 0 remaining)))
    pure budgets

def checkFloor (settings : GateSettings) (budgets : Dict String Int) (node : NewTaskNode) :
    Except Refusal Unit :=
  match floorRefusal settings.taskFloor node.verificationPolicy
      (match get? budgets node.key with
        | some granted => some granted
        | none => node.budget.maxTokens.map Int.ofNat) settings.candidates with
  | none => .ok ()
  | some refusal => .error (.rejected "budget" (.text (node.key ++ ": ") :: refusal))

/-! The gate. -/

structure ValidatedChange where
  change : TaskGraphChange
  newNodes : List NewTaskNode
  order : List String
  effects : Effects
  affectedTaskIds : List String
  warnings : List (List Fragment)
  depth : Nat
  budgetPool : Dict String Int
deriving DecidableEq

def defaultChangePolicy (deployed : List String) : List String :=
  if "code_test" ∈ deployed then ["format_check", "rule_check", "code_test"]
  else ["format_check", "rule_check", "critic_review"]

def checkProposals (limits : ChangeLimits) (proposalsBy : Dict String Int) (source : String)
    (nodes : List NewTaskNode) : Except Refusal Unit :=
  let after := (get? proposalsBy source).getD 0 + nodes.length
  require (source = "" ∨ nodes = [] ∨ after ≤ limits.maxProposalsPerAgent)
    (rejectChange "proposals" ("attempt " ++ source ++ " would have " ++ toString after ++
      " added tasks > max_proposals_per_agent=" ++ toString limits.maxProposalsPerAgent))

structure ChangeInputs where
  limits : ChangeLimits
  settings : GateSettings
  proposalsByAttempt : Dict String Int
  committedTokensByTask : Dict String Int

def affectedIds (effects : Effects) (names : List String) : List String :=
  sortedSet (keys effects.superseded ++ keys effects.retargets ++ keys effects.priorities ++
    keys effects.pauses ++ effects.resumes ++ keys effects.cancels ++ keys effects.roles ++ names)

def validateChange (host : Host) (mission : Mission) (inputs : ChangeInputs) (tasks : List Task)
    (change : TaskGraphChange) : Except Refusal ValidatedChange := do
  let nodes := addTasks change (defaultChangePolicy inputs.settings.deployedLayers)
  let names := nodes.map fun node => node.key
  require (inputs.limits.admitNewTasks = true ∨ nodes = []) (rejectChange "backpressure"
    "no new Task may be added while backpressure is raised (§18.5)")
  require names.Nodup
    (.rejected "duplicate" (.text "repeated add_task keys " :: listed names))
  every (checkOperation host inputs.limits tasks names) change.operations
  let effects := effectsOf change
  checkStructural effects
  let edges := mergedEdges tasks effects nodes
  every (fun entry => every (checkMergedDependency tasks effects names edges entry.1) entry.2) edges
  let order ← (checkDependencies edges).mapError fun e : DependencyError =>
    rejectChange e.reason e.detail
  require ((edges.length : Int) ≤ inputs.limits.maxTasks) (rejectChange "too_large"
    (toString edges.length ++ " tasks > max_tasks=" ++ toString inputs.limits.maxTasks))
  let depth := depthOf edges order
  require ((depth : Int) ≤ inputs.limits.maxGraphDepth) (rejectChange "depth"
    ("graph depth " ++ toString depth ++ " > max_graph_depth=" ++
      toString inputs.limits.maxGraphDepth))
  checkProposals inputs.limits inputs.proposalsByAttempt change.sourceAttempt nodes
  let report := findDuplicates host (mergedItems tasks effects nodes)
  require (report.problems = []) (.rejected "duplicate" (joined "; " report.problems))
  let outputs := mergedOutputs tasks effects nodes
  every (fun node => every (checkNewOutputs edges outputs node) outputs) nodes
  every (checkNewNode mission inputs.settings tasks) nodes
  every (checkTraced edges effects) nodes
  let budgets ← budgetPool host mission tasks effects nodes inputs.committedTokensByTask
  every (checkFloor inputs.settings budgets) nodes
  pure {
    change := change
    newNodes := nodes
    order := order.filter (· ∈ names)
    effects := effects
    affectedTaskIds := affectedIds effects names
    warnings := report.suspected
    depth := depth
    budgetPool := budgets }

end Graph
