import HarnessSdk.Graph.Nodes

/-! The two admission gates of a whole graph proposal, and where they agree. -/
namespace Graph
open PyDict PyText Checks Workflow

def maxTasks : Nat := 32

def maxGraphDepth : Nat := 6

structure ValidatedGraph where
  proposal : TaskGraphProposal
  order : List String
  roots : List String
  leaves : List String
  warnings : List (List Fragment)
deriving DecidableEq

/-- Two tasks neither of which waits for the other may not declare the same output. -/
def outputConflict (edges : Edges) (left right : TaskNode) : Option (List Fragment) :=
  if left.key ∈ ancestorsOf edges right.key ∨ right.key ∈ ancestorsOf edges left.key then none
  else
    let shared := sortedSet (left.outputs.filter (· ∈ right.outputs))
    if shared = [] then none
    else some (.text (left.key ++ " and " ++ right.key ++ " both declare outputs ") :: listed shared)

def siblingOutputConflicts (edges : Edges) : List TaskNode → List (List Fragment)
  | [] => []
  | left :: rest =>
    rest.filterMap (outputConflict edges left) ++ siblingOutputConflicts edges rest

def admitOrder (host : Host) (proposal : TaskGraphProposal) :
    Except Refusal (DuplicateReport × List String) := do
  let report := findDuplicates host (proposal.tasks.map TaskNode.item)
  require (report.problems = []) (.rejected "duplicate" (joined "; " report.problems))
  let order ← (checkDependencies proposal.edges).mapError fun e : DependencyError =>
    .rejected e.reason [.text e.detail]
  pure (report, order)

def checkOutputs (proposal : TaskGraphProposal) : Except Refusal Unit :=
  let conflicts := siblingOutputConflicts proposal.edges proposal.tasks
  require (conflicts = []) (.rejected "artifact_conflict" (joined "; " conflicts))

def checkSynthesis (mission : Mission) : Except Refusal Unit :=
  match get? mission.report "synthesis" with
  | none => .ok ()
  | some template =>
    if truthy template then do
      let fields ← asMapping template
      let budget ← (Budget.fromJson ((get? fields "budget").getD (.obj []))).mapError fun message =>
        Refusal.rejected "budget" (.text "synthesis template budget invalid: " :: message)
      let inherited := inheritLimits budget mission.budget
      require (inherited.fitsWithin mission.budget) (.rejected "budget"
        (.text "synthesis task budget " :: inherited.text ++
          [.text " exceeds the Mission budget (§18.2)"]))
    else .ok ()

def checkShape (edges : Edges) : Except Refusal Unit :=
  require (roots edges ≠ [] ∧ leaves edges ≠ [])
    (.rejected "shape" [.text "graph needs a root and a terminal task"])

def validateGraph (host : Host) (mission : Mission) (settings : GateSettings)
    (given : TaskGraphProposal) : Except Refusal ValidatedGraph := do
  require (given.tasks ≠ []) (.rejected "empty" [.text "a task graph needs at least one task"])
  require (given.tasks.length ≤ maxTasks) (.rejected "too_large"
    [.text (toString given.tasks.length ++ " tasks > " ++ toString maxTasks)])
  let proposal ← normaliseBudgets host mission given
  let admitted ← admitOrder host proposal
  checkOutputs proposal
  let depth := depthOf proposal.edges admitted.2
  require (depth ≤ maxGraphDepth) (.rejected "depth"
    [.text ("graph depth " ++ toString depth ++ " > " ++ toString maxGraphDepth)])
  nodeChecks mission settings proposal
  checkSums host mission proposal.tasks
  checkSynthesis mission
  checkShape proposal.edges
  pure ⟨proposal, admitted.2, roots proposal.edges, leaves proposal.edges, admitted.1.suspected⟩

/-! The hierarchical gate. -/

structure GraphStructureBudget where
  budgetVersion : Nat
  maxLiveTasks : Nat
  maxDepth : Nat
  maxNodes : Nat
  maxEdges : Nat
  maxFanOut : Nat

def nodeDrift (typedOrder : Dict String (List String)) (node : TaskNode) : List (List Fragment) :=
  let typed := (get? typedOrder node.key).getD []
  let untyped := sortedSet (node.dependencies.filter (· ∉ typed))
  let unprojected := sortedSet (typed.filter (· ∉ node.dependencies))
  (if node.dependencies.dedup.length = node.dependencies.length then [] else
    [Fragment.text (node.key ++ ": repeats a dependency ") :: listed (sorted node.dependencies)]) ++
  (if untyped = [] then [] else
    [Fragment.text (node.key ++ ": dependencies ") :: listed untyped ++
      [.text (" are backed by no ORDER or DATA relation; the projection would order work the " ++
        "plan never ordered")]]) ++
  if unprojected = [] then [] else
    [Fragment.text (node.key ++ ": typed relations ") :: listed unprojected ++
      [.text " are missing from dependencies; the projection would dispatch it before its producer"]]

def representationDrift (proposal : TaskGraphProposal) (typedOrder : Dict String (List String)) :
    List (List Fragment) :=
  proposal.tasks.flatMap (nodeDrift typedOrder) ++
  ((keys typedOrder).filter fun key => key ∉ proposal.tasks.map TaskNode.key).map fun key =>
    [Fragment.text "typed relations name ", .repr key,
      .text ", which the proposal does not contain"]

def totalEdges (edges : Edges) : Nat := (edges.map fun entry => entry.2.length).sum

def fanOut (edges : Edges) : Dict String Nat :=
  (edges.flatMap Prod.snd).foldl Kahn.raise []

def widest (edges : Edges) : Nat := ((fanOut edges).map Prod.snd).foldl max 0

def bounded (budget : GraphStructureBudget) (size bound : Nat) (text limit : String) :
    Except Refusal Unit :=
  require (size ≤ bound) (.rejected "bound_reached" [.text (text ++ " > " ++ limit ++ "=" ++
    toString bound ++ " (structure budget v" ++ toString budget.budgetVersion ++ ")")])

def validateGraphV2 (host : Host) (mission : Mission) (settings : GateSettings)
    (budget : GraphStructureBudget) (typedOrder : Option (Dict String (List String)))
    (given : TaskGraphProposal) : Except Refusal ValidatedGraph := do
  require (given.tasks ≠ []) (.rejected "empty" [.text "a task graph needs at least one task"])
  let size := toString given.tasks.length ++ " tasks"
  bounded budget given.tasks.length budget.maxNodes size "max_nodes"
  bounded budget given.tasks.length budget.maxLiveTasks size "max_live_tasks"
  let proposal ← normaliseBudgets host mission given
  let admitted ← admitOrder host proposal
  let drifted := representationDrift proposal (typedOrder.getD [])
  require (drifted = []) (.rejected "representation_drift" (joined "; " drifted))
  checkOutputs proposal
  let edges := proposal.edges
  let depth := depthOf edges admitted.2
  bounded budget depth budget.maxDepth ("graph depth " ++ toString depth) "max_depth"
  bounded budget (totalEdges edges) budget.maxEdges (toString (totalEdges edges) ++ " edges")
    "max_edges"
  bounded budget (widest edges) budget.maxFanOut ("fan-out " ++ toString (widest edges))
    "max_fan_out"
  nodeChecks mission settings proposal
  checkSums host mission proposal.tasks
  checkShape edges
  pure ⟨proposal, admitted.2, roots edges, leaves edges, admitted.1.suspected⟩

/-! Where the two gates agree. -/

/-- The structure budget repeats the constants of the first gate, its other limits do not bind, and
the typed order is the proposal's dependencies. -/
structure SameBounds (budget : GraphStructureBudget)
    (typedOrder : Option (Dict String (List String))) (given : TaskGraphProposal) : Prop where
  nodes : budget.maxNodes = maxTasks
  live : budget.maxLiveTasks = maxTasks
  depth : budget.maxDepth = maxGraphDepth
  edges : totalEdges given.edges ≤ budget.maxEdges
  fanOut : widest given.edges ≤ budget.maxFanOut
  typed : ∀ key dep, dep ∈ (get? (typedOrder.getD []) key).getD [] ↔ DependsOn given.edges key dep
  typedKeys : ∀ key ∈ keys (typedOrder.getD []), key ∈ keys given.edges

/-- The mission has no synthesis template, or one whose budget is well formed and, with the limits
it inherits, within the mission's. -/
def SynthesisFits (mission : Mission) : Prop :=
  ∀ template, get? mission.report "synthesis" = some template → truthy template = true →
    ∃ fields budget, template = .obj fields ∧
      Budget.fromJson ((get? fields "budget").getD (.obj [])) = .ok budget ∧
      (inheritLimits budget mission.budget).fitsWithin mission.budget = true

/-- The checks that stand in both gates; `proposal` has its budgets completed. -/
structure Passes (host : Host) (mission : Mission) (settings : GateSettings)
    (given proposal : TaskGraphProposal) (order : List String) : Prop where
  nonempty : given.tasks ≠ []
  size : given.tasks.length ≤ maxTasks
  completed : normaliseBudgets host mission given = .ok proposal
  distinct : (findDuplicates host (proposal.tasks.map TaskNode.item)).problems = []
  ordered : checkDependencies proposal.edges = .ok order
  outputs : siblingOutputConflicts proposal.edges proposal.tasks = []
  depth : depthOf proposal.edges order ≤ maxGraphDepth
  contracts : nodeChecks mission settings proposal = .ok ()
  sums : checkSums host mission proposal.tasks = .ok ()
  shape : roots proposal.edges ≠ [] ∧ leaves proposal.edges ≠ []

def admittedGraph (host : Host) (proposal : TaskGraphProposal) (order : List String) :
    ValidatedGraph :=
  ⟨proposal, order, roots proposal.edges, leaves proposal.edges,
    (findDuplicates host (proposal.tasks.map TaskNode.item)).suspected⟩

theorem admitOrder_eq_ok {host : Host} {proposal : TaskGraphProposal}
    {admitted : DuplicateReport × List String} :
    admitOrder host proposal = .ok admitted ↔
      (findDuplicates host (proposal.tasks.map TaskNode.item)).problems = [] ∧
      checkDependencies proposal.edges = .ok admitted.2 ∧
      admitted.1 = findDuplicates host (proposal.tasks.map TaskNode.item) := by
  obtain ⟨report, order⟩ := admitted
  rw [admitOrder, then_eq_ok, require_eq_ok, bind_eq_ok]
  simp only [mapError_eq_ok]
  constructor
  · rintro ⟨clean, found, ordered, same⟩
    cases same
    exact ⟨clean, ordered, rfl⟩
  · rintro ⟨clean, ordered, rfl⟩
    exact ⟨clean, order, ordered, rfl⟩

theorem checkSynthesis_eq_ok (mission : Mission) :
    checkSynthesis mission = .ok () ↔ SynthesisFits mission := by
  unfold checkSynthesis SynthesisFits
  cases get? mission.report "synthesis" with
  | none => simp
  | some template =>
    by_cases filled : truthy template = true
    · simp only [filled, if_true, Option.some.injEq, forall_eq', true_implies]
      rw [bind_eq_ok]
      constructor
      · rintro ⟨fields, mapping, ok⟩
        obtain ⟨budget, read, fits⟩ := bind_eq_ok.mp ok
        rw [mapError_eq_ok] at read
        rw [require_eq_ok] at fits
        cases template with
        | obj entries =>
          cases mapping
          exact ⟨fields, budget, rfl, read, fits⟩
        | _ => cases mapping
      · rintro ⟨fields, budget, rfl, read, fits⟩
        refine ⟨fields, rfl, bind_eq_ok.mpr ⟨budget, ?_, ?_⟩⟩
        · rw [mapError_eq_ok]
          exact read
        · rw [require_eq_ok]
          exact fits
    · simp [filled]

section
variable {host : Host} {mission : Mission} {settings : GateSettings}
  {given proposal : TaskGraphProposal}

theorem validateGraph_eq_ok (graph : ValidatedGraph) :
    validateGraph host mission settings given = .ok graph ↔
      SynthesisFits mission ∧ ∃ proposal order, Passes host mission settings given proposal order ∧
        graph = admittedGraph host proposal order := by
  unfold validateGraph
  simp only [bind_eq_ok, Unique.exists_iff, PUnit.default_eq_unit, require_eq_ok, admitOrder_eq_ok,
    checkSynthesis_eq_ok, checkOutputs, checkShape]
  constructor
  · rintro ⟨nonempty, size, proposal, completed, ⟨report, order⟩, ⟨clean, ordered, same⟩, outputs,
      depth, contracts, sums, fits, shape, made⟩
    simp only at same ordered
    subst same
    cases made
    exact ⟨fits, proposal, order, ⟨nonempty, size, completed, clean, ordered, outputs, depth,
      contracts, sums, shape⟩, rfl⟩
  · rintro ⟨fits, proposal, order, passes, rfl⟩
    exact ⟨passes.nonempty, passes.size, proposal, passes.completed, (_, order),
      ⟨passes.distinct, passes.ordered, rfl⟩, passes.outputs, passes.depth, passes.contracts,
      passes.sums, fits, passes.shape, rfl⟩

theorem normaliseBudgets_edges (completed : normaliseBudgets host mission given = .ok proposal) :
    proposal.edges = given.edges := by
  rw [normaliseBudgets, bind_eq_ok] at completed
  obtain ⟨reserve, _, made⟩ := completed
  cases made
  simp [TaskGraphProposal.edges, Function.comp_def]

theorem edges_of_distinct
    (clean : (findDuplicates host (proposal.tasks.map TaskNode.item)).problems = []) :
    proposal.edges = proposal.tasks.map fun node => (node.key, node.dependencies) := by
  apply ofEntries_of_nodup
  have distinct := findDuplicates_nodup clean
  simpa [keys, Function.comp_def, TaskNode.item] using distinct

variable {typedOrder : Dict String (List String)}

theorem nodeDrift_eq_nil {node : TaskNode} (nodup : node.dependencies.Nodup)
    (same : ∀ dep, dep ∈ (get? typedOrder node.key).getD [] ↔ dep ∈ node.dependencies) :
    nodeDrift typedOrder node = [] := by
  have untyped : sortedSet (node.dependencies.filter
      (· ∉ (get? typedOrder node.key).getD [])) = [] := by
    rw [List.eq_nil_iff_forall_not_mem]
    intro dep inside
    simp [same] at inside
  have unprojected : sortedSet (((get? typedOrder node.key).getD []).filter
      (· ∉ node.dependencies)) = [] := by
    rw [List.eq_nil_iff_forall_not_mem]
    intro dep inside
    simp [same] at inside
  simp only [nodeDrift, nodup.dedup, untyped, unprojected, if_true, List.append_nil]

/-- A typed order that repeats the dependencies of a proposal the first gate orders has not
drifted. -/
theorem representationDrift_eq_nil {order : List String}
    (clean : (findDuplicates host (proposal.tasks.map TaskNode.item)).problems = [])
    (ordered : checkDependencies proposal.edges = .ok order)
    (typed : ∀ key dep, dep ∈ (get? typedOrder key).getD [] ↔ DependsOn proposal.edges key dep)
    (typedKeys : ∀ key ∈ keys typedOrder, key ∈ keys proposal.edges) :
    representationDrift proposal typedOrder = [] := by
  have distinct : (keys proposal.edges).Nodup := keys_ofEntries_nodup _
  have spec := checkDependencies_spec distinct ordered
  have entries := edges_of_distinct clean
  rw [representationDrift, List.append_eq_nil_iff]
  constructor
  · rw [List.flatMap_eq_nil_iff]
    intro node inside
    have entry : (node.key, node.dependencies) ∈ proposal.edges := by
      rw [entries]
      exact List.mem_map_of_mem inside
    apply nodeDrift_eq_nil
    · exact spec.distinctDeps _ entry
    · intro dep
      rw [typed, DependsOn, get?_eq_some_of_mem distinct entry]
      rfl
  · rw [List.map_eq_nil_iff, List.filter_eq_nil_iff]
    intro key inside
    have known := typedKeys key inside
    rw [entries] at known
    simpa [keys, Function.comp_def] using known

theorem bounded_eq_ok (budget : GraphStructureBudget) (size bound : Nat) (text limit : String) :
    bounded budget size bound text limit = .ok () ↔ size ≤ bound :=
  require_eq_ok _ _

theorem validateGraphV2_eq_ok {budget : GraphStructureBudget}
    {typedOrder : Option (Dict String (List String))} (same : SameBounds budget typedOrder given)
    (graph : ValidatedGraph) :
    validateGraphV2 host mission settings budget typedOrder given = .ok graph ↔
      ∃ proposal order, Passes host mission settings given proposal order ∧
        graph = admittedGraph host proposal order := by
  unfold validateGraphV2
  simp only [bind_eq_ok, Unique.exists_iff, PUnit.default_eq_unit, require_eq_ok, admitOrder_eq_ok,
    checkOutputs, checkShape, bounded_eq_ok]
  constructor
  · rintro ⟨nonempty, size, _, proposal, completed, ⟨report, order⟩, ⟨clean, ordered, reported⟩, _,
      outputs, depth, _, _, contracts, sums, shape, made⟩
    simp only at reported ordered
    subst reported
    cases made
    rw [same.nodes] at size
    rw [same.depth] at depth
    exact ⟨proposal, order, ⟨nonempty, size, completed, clean, ordered, outputs, depth, contracts,
      sums, shape⟩, rfl⟩
  · rintro ⟨proposal, order, passes, rfl⟩
    have edges := normaliseBudgets_edges passes.completed
    have typed := same.typed
    have typedKeys := same.typedKeys
    rw [← edges] at typed typedKeys
    refine ⟨passes.nonempty, ?_, ?_, proposal, passes.completed, (_, order),
      ⟨passes.distinct, passes.ordered, rfl⟩,
      representationDrift_eq_nil passes.distinct passes.ordered typed typedKeys, passes.outputs,
      ?_, ?_, ?_, passes.contracts, passes.sums, passes.shape, rfl⟩
    · rw [same.nodes]
      exact passes.size
    · rw [same.live]
      exact passes.size
    · rw [same.depth]
      exact passes.depth
    · rw [edges]
      exact same.edges
    · rw [edges]
      exact same.fanOut

end

/-- With equal bounds the two gates admit the same proposals with the same result exactly when the
synthesis template fits or the proposal already fails a check they share. -/
theorem gates_agree_iff (host : Host) (mission : Mission) (settings : GateSettings)
    (budget : GraphStructureBudget) (typedOrder : Option (Dict String (List String)))
    (given : TaskGraphProposal) (same : SameBounds budget typedOrder given) :
    (∀ graph, validateGraphV2 host mission settings budget typedOrder given = .ok graph ↔
      validateGraph host mission settings given = .ok graph) ↔
    SynthesisFits mission ∨
      ∀ proposal order, ¬ Passes host mission settings given proposal order := by
  constructor
  · intro agree
    by_cases passed : ∃ proposal order, Passes host mission settings given proposal order
    · obtain ⟨proposal, order, passes⟩ := passed
      have admitted := (validateGraphV2_eq_ok same _).mpr ⟨proposal, order, passes, rfl⟩
      exact Or.inl ((validateGraph_eq_ok _).mp ((agree _).mp admitted)).1
    · refine Or.inr fun proposal order passes => passed ⟨proposal, order, passes⟩
  · intro condition graph
    rw [validateGraphV2_eq_ok same, validateGraph_eq_ok]
    constructor
    · rintro ⟨proposal, order, passes, made⟩
      rcases condition with fits | fails
      · exact ⟨fits, proposal, order, passes, made⟩
      · exact absurd passes (fails proposal order)
    · rintro ⟨_, admitted⟩
      exact admitted

/-! A template that asks for more attempts than the mission has. -/

def plainHost : Host where
  folded := id
  truncated := fun _ => 0
  parsed := fun _ => none

def plainSettings : GateSettings where
  deployedLayers := ["format_check", "rule_check", "critic_review", "code_test", "human_review"]
  taskFloor := none
  candidates := 1
  domain := none

def twoAttempts : Budget := { Budget.unlimited with maxAttempts := some 2 }

/-- Two attempts and a hundred tokens, of which the synthesis keeps ten. -/
def missionWith (attempts : Int) : Mission where
  budget := { twoAttempts with maxTokens := some 100 }
  allowedTools := []
  finalReport := some [("synthesis", .obj [("budget",
    .obj [("max_attempts", .int attempts), ("max_tokens", .int 10)])])]

def writing (tokens : Option Nat) (key : String) (dependencies : List String) : TaskNode where
  key := key
  goal := "write the " ++ key
  rationale := "the mission asks for it"
  dependencies := dependencies
  successCriteria := ["the " ++ key ++ " is written"]
  verificationPolicy := ["critic_review"]
  allowedTools := []
  budget := { twoAttempts with maxTokens := tokens }
  priority := "1.0"
  outputs := [key ++ ".md"]

/-- A report, its summary, and slides beside them, with so many tokens each. -/
def threeTasks (tokens : Option Nat) : TaskGraphProposal where
  tasks := [writing tokens "summary" ["report"], writing tokens "report" [],
    writing tokens "slides" []]

def constantBounds : GraphStructureBudget where
  budgetVersion := 1
  maxLiveTasks := 32
  maxDepth := 6
  maxNodes := 32
  maxEdges := 8
  maxFanOut := 8

def threeOrders : Dict String (List String) :=
  [("summary", ["report"]), ("report", []), ("slides", [])]

theorem sameBounds_three : SameBounds constantBounds (some threeOrders) (threeTasks none) where
  nodes := rfl
  live := rfl
  depth := rfl
  edges := by decide +kernel
  fanOut := by decide +kernel
  typed _ _ := Iff.rfl
  typedKeys := by decide +kernel

def threeAdmitted : ValidatedGraph :=
  ⟨threeTasks (some 30), ["report", "summary", "slides"], ["report", "slides"],
    ["summary", "slides"], []⟩

theorem gates_disagree_on_template :
    SameBounds constantBounds (some threeOrders) (threeTasks none) ∧
    validateGraphV2 plainHost (missionWith 5) plainSettings constantBounds (some threeOrders)
      (threeTasks none) = .ok threeAdmitted ∧
    validateGraph plainHost (missionWith 5) plainSettings (threeTasks none) =
      .error (.rejected "budget" (.text "synthesis task budget " ::
        { Budget.unlimited with maxAttempts := some 5, maxTokens := some 10 }.text ++
          [.text " exceeds the Mission budget (§18.2)"])) := by
  refine ⟨sameBounds_three, ?_, ?_⟩
  · decide +kernel
  · decide +kernel

theorem synthesisFits_one : SynthesisFits (missionWith 1) := by
  rw [← checkSynthesis_eq_ok]
  decide +kernel

theorem gates_agree_on_small_template :
    SameBounds constantBounds (some threeOrders) (threeTasks none) ∧ ∀ graph,
      validateGraphV2 plainHost (missionWith 1) plainSettings constantBounds (some threeOrders)
        (threeTasks none) = .ok graph ↔
      validateGraph plainHost (missionWith 1) plainSettings (threeTasks none) = .ok graph :=
  ⟨sameBounds_three, (gates_agree_iff plainHost (missionWith 1) plainSettings constantBounds
    (some threeOrders) (threeTasks none) sameBounds_three).mpr (Or.inl synthesisFits_one)⟩

end Graph
