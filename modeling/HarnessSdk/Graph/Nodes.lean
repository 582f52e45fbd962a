import HarnessSdk.Graph.Missions
import HarnessSdk.Graph.Dependencies

/-! Proposed tasks: their contracts, duplicates, domains and budgets. -/
namespace Graph
open PyDict PyText Checks Workflow

structure TaskNode where
  key : String
  goal : String
  rationale : String
  dependencies : List String
  successCriteria : List String
  verificationPolicy : List String
  allowedTools : List String
  budget : Budget
  priority : String
  outputs : List String
deriving DecidableEq

structure TaskGraphProposal where
  tasks : List TaskNode
deriving DecidableEq

def TaskGraphProposal.edges (proposal : TaskGraphProposal) : Edges :=
  ofEntries (proposal.tasks.map fun node => (node.key, node.dependencies))

def verificationLayers : List String :=
  ["format_check", "rule_check", "critic_review", "code_test", "formal_check", "human_review"]

/-! Duplicates. -/

def goalNoise : List Char :=
  "-_:：，,。.;；、（）()[]【】\"`".toList ++ [Char.ofNat 39]

def normaliseGoal (host : Host) (goal : String) : String :=
  String.ofList ((host.folded goal).toList.filter fun c => !isSpace c && c ∉ goalNoise)

structure DuplicateItem where
  key : String
  goal : String
  dependencies : List String
  successCriteria : List String

structure DuplicateReport where
  problems : List (List Fragment)
  suspected : List (List Fragment)
deriving DecidableEq

def sameMembers (a b : List String) : Bool := a.all (· ∈ b) && b.all (· ∈ a)

structure DuplicateScan where
  seenKeys : List String
  seenGoals : Dict String DuplicateItem
  report : DuplicateReport

def scanDuplicate (host : Host) (scan : DuplicateScan) (item : DuplicateItem) : DuplicateScan :=
  let repeated := if item.key ∈ scan.seenKeys then
    [[Fragment.text "duplicate task key ", .repr item.key]] else []
  let problems := scan.report.problems ++ repeated
  let seenKeys := item.key :: scan.seenKeys
  let norm := normaliseGoal host item.goal
  match get? scan.seenGoals norm with
  | none => ⟨seenKeys, set scan.seenGoals norm item, ⟨problems, scan.report.suspected⟩⟩
  | some other =>
    if sameMembers other.dependencies item.dependencies ∧
        sorted other.successCriteria = sorted item.successCriteria then
      ⟨seenKeys, scan.seenGoals,
        ⟨problems ++ [[.text "task ", .repr item.key, .text " duplicates task ", .repr other.key]],
          scan.report.suspected⟩⟩
    else
      ⟨seenKeys, scan.seenGoals, ⟨problems, scan.report.suspected ++
        [[.text "task ", .repr item.key, .text " shares its goal text with ", .repr other.key]]⟩⟩

def findDuplicates (host : Host) (items : List DuplicateItem) : DuplicateReport :=
  (items.foldl (scanDuplicate host) ⟨[], [], ⟨[], []⟩⟩).report

@[simp] theorem scanDuplicate_seenKeys (host : Host) (scan : DuplicateScan) (item : DuplicateItem) :
    (scanDuplicate host scan item).seenKeys = item.key :: scan.seenKeys := by
  simp only [scanDuplicate]
  split
  · rfl
  · split <;> rfl

theorem scanDuplicate_clean {host : Host} {scan : DuplicateScan} {item : DuplicateItem}
    (clean : (scanDuplicate host scan item).report.problems = []) :
    scan.report.problems = [] ∧ item.key ∉ scan.seenKeys := by
  have kept : scan.report.problems ++ (if item.key ∈ scan.seenKeys then
      [[Fragment.text "duplicate task key ", .repr item.key]] else []) = [] := by
    simp only [scanDuplicate] at clean
    split at clean
    · exact clean
    · split at clean
      · simp at clean
      · exact clean
  rw [List.append_eq_nil_iff] at kept
  refine ⟨kept.1, fun seen => ?_⟩
  simp [seen] at kept

theorem scanDuplicates_clean {host : Host} (items : List DuplicateItem) (scan : DuplicateScan)
    (clean : (items.foldl (scanDuplicate host) scan).report.problems = []) :
    scan.report.problems = [] ∧ (items.map DuplicateItem.key).Nodup ∧
      ∀ item ∈ items, item.key ∉ scan.seenKeys := by
  induction items generalizing scan with
  | nil => simpa using clean
  | cons item rest ih =>
    obtain ⟨step, nodup, apart⟩ := ih (scanDuplicate host scan item) clean
    obtain ⟨before, fresh⟩ := scanDuplicate_clean step
    simp only [scanDuplicate_seenKeys, List.mem_cons, not_or] at apart
    refine ⟨before, ?_, ?_⟩
    · rw [List.map_cons, List.nodup_cons]
      refine ⟨fun again => ?_, nodup⟩
      obtain ⟨other, inside, same⟩ := List.mem_map.mp again
      exact (apart other inside).1 same
    · intro other inside
      rcases List.mem_cons.mp inside with rfl | later
      · exact fresh
      · exact (apart other later).2

theorem findDuplicates_nodup {host : Host} {items : List DuplicateItem}
    (clean : (findDuplicates host items).problems = []) :
    (items.map DuplicateItem.key).Nodup :=
  (scanDuplicates_clean items _ clean).2.1

def TaskNode.item (node : TaskNode) : DuplicateItem :=
  ⟨node.key, node.goal, node.dependencies, node.successCriteria⟩

/-! Domains. -/

structure DomainProfile where
  id : String
  version : String
  criterionKinds : List String
  runsLayers : List String
  plannerFloor : List String

def codeProfileV1 : DomainProfile where
  id := "code-v1"
  version := "1"
  criterionKinds := ["pytest", "file", "action", "arbitration", "free"]
  runsLayers := verificationLayers
  plannerFloor := []

def criterionKinds : List String := ["pytest", "file", "action", "arbitration", "cite", "free"]

def criterionKind (criterion : String) : String :=
  let head := (splitOnce ':' criterion).1
  if ':' ∈ criterion.toList ∧ head ∈ criterionKinds then head else "free"

def requiresDocumentCriticProof (domain : DomainProfile) : Bool :=
  domain.id == "doc-research-v1" && domain.version ∈ ["5", "6", "7", "8", "9"]

def checkAgainstDomain (domain : DomainProfile) (key : String)
    (successCriteria policy : List String) : List (List Fragment) :=
  let kinds := (successCriteria.filter fun c => criterionKind c ∉ domain.criterionKinds).map
    fun c => [Fragment.text (key ++ ": criterion "), .repr c, .text " uses ",
      .repr (criterionKind c), .text (", which the " ++ domain.id ++
        " domain does not allow (allowed: ")] ++ listed (sorted domain.criterionKinds) ++ [.text ")"]
  let unknown := policy.filter (· ∉ verificationLayers)
  let unknowns := if unknown = [] then [] else
    [Fragment.text (key ++ ": unknown verification layers ") :: listed (sorted unknown)]
  let missing := domain.plannerFloor.filter (· ∉ policy)
  let below := if missing ≠ [] ∧ (policy ≠ [] ∨ requiresDocumentCriticProof domain) then
    [Fragment.text (key ++ ": verification policy is below the " ++ domain.id ++
      " floor, missing ") :: listed (sorted missing)] else []
  let replaced := (policy.filter (· ∈ verificationLayers)).filter (· ∉ domain.runsLayers)
  let stopped := if replaced = [] then [] else
    [Fragment.text (key ++ ": verification policy names ") :: listed (sorted replaced) ++
      [.text (", which the " ++ domain.id ++ " domain does not run")]]
  kinds ++ unknowns ++ below ++ stopped

/-! Budgets. -/

/-- The least a task's tokens must hold for a first attempt and its critic. -/
structure TaskBudgetFloor where
  base : Int
  critic : Int

def TaskBudgetFloor.criticFor (floor : TaskBudgetFloor) (policy : List String) : Int :=
  if "critic_review" ∈ policy then floor.critic else 0

def TaskBudgetFloor.floorFor (floor : TaskBudgetFloor) (policy : List String) (candidates : Int) :
    Int :=
  if floor.base ≤ 0 then 0 else max 1 candidates * (floor.base + floor.criticFor policy)

def floorRefusal (floor : Option TaskBudgetFloor) (policy : List String) (granted : Option Int)
    (candidates : Int) : Option (List Fragment) :=
  match floor, granted with
  | some floor, some granted =>
    let need := floor.floorFor policy candidates
    if need ≤ granted then none else
    some [.text ("task_budget_below_floor: max_tokens=" ++ toString granted ++ " < " ++
      toString need ++ " (= " ++ toString (max 1 candidates) ++ " candidate(s) × (" ++
      toString floor.base ++ " for one turn + " ++ toString (floor.criticFor policy) ++
      " for its Critic)); a first Attempt and its Critic could not both be reserved — give at " ++
      "least " ++ toString need)]
  | _, _ => none

def completedLimit (count : Nat) (reserve : Int) (parent : Nat) : Dimension → Nat
  | .maxTokens => (parent - reserve).toNat / count
  | .maxCostMicros => parent / count
  | .maxToolCalls => max 1 (parent / count)
  | _ => parent

def completeBudget (count : Nat) (reserve : Int) (budget mission : Budget) : Budget :=
  dimensions.foldl (fun b dimension =>
    match b.limit dimension, mission.limit dimension with
    | none, some parent => b.withLimit dimension (some (completedLimit count reserve parent dimension))
    | _, _ => b) budget

section
variable (host : Host) (mission : Mission)

def normaliseBudgets (proposal : TaskGraphProposal) :
    Except Refusal TaskGraphProposal := do
  let reserve ← systemReserveTokens host mission
  pure ⟨proposal.tasks.map fun node : TaskNode =>
    { node with budget :=
        completeBudget (max 1 proposal.tasks.length) reserve node.budget mission.budget }⟩

def sumDimension (nodes : List TaskNode) (dimension : Dimension) : Option Nat :=
  (nodes.mapM fun node : TaskNode => node.budget.limit dimension).map List.sum

def checkSum (nodes : List TaskNode) (dimension : Dimension) :
    Except Refusal Unit :=
  match mission.budget.limit dimension with
  | none => .ok ()
  | some parent =>
    match sumDimension nodes dimension with
    | none => .error (.rejected "budget" [.text ("every task must bound " ++ dimension.name ++
        " when the Mission bounds it")])
    | some total => do
      let reserve ← if dimension = .maxTokens then systemReserveTokens host mission else .ok 0
      require (total + reserve ≤ parent) (.rejected "budget"
        [.text ("sum of task " ++ dimension.name ++ " (" ++ toString total ++
          ") plus the system reserve (" ++ toString reserve ++ ") exceeds the Mission (" ++
          toString parent ++ "); dimension=" ++ dimension.name ++ " remaining=" ++
          toString (max 0 ((parent : Int) - reserve)))])

/-- The children's budgets come from the parent, in sum, on the dimensions it bounds. -/
def checkSums (nodes : List TaskNode) : Except Refusal Unit :=
  every (checkSum host mission nodes) [.maxTokens, .maxCostMicros]

end

/-! Contracts of the nodes. -/

def pytestCriteria (criteria : List String) : List String :=
  criteria.filter fun c => decide ("pytest:".toList <+: c.toList)

structure GateSettings where
  deployedLayers : List String
  taskFloor : Option TaskBudgetFloor
  candidates : Int
  domain : Option DomainProfile

def GateSettings.profile (settings : GateSettings) : DomainProfile :=
  settings.domain.getD codeProfileV1

def nodeCheck (mission : Mission) (settings : GateSettings) (node : TaskNode) :
    Except Refusal Unit := do
  let problems := checkAgainstDomain settings.profile node.key node.successCriteria
    node.verificationPolicy
  require (problems = []) (.rejected "domain" (joined "; " problems))
  require (strip node.goal ≠ "") (.rejected "contract" [.text (node.key ++ ": goal is blank")])
  require (strip node.rationale ≠ "")
    (.rejected "contract" [.text (node.key ++ ": no rationale (§19.5 goal drift)")])
  require (node.successCriteria ≠ [])
    (.rejected "contract" [.text (node.key ++ ": no success criteria (§6.3)")])
  require (node.verificationPolicy ≠ [])
    (.rejected "contract" [.text (node.key ++ ": no verification policy")])
  let unknownLayers := node.verificationPolicy.filter (· ∉ verificationLayers)
  require (unknownLayers = [])
    (.rejected "contract" (.text (node.key ++ ": unknown layers ") :: listed (sortedSet unknownLayers)))
  let undeployed := node.verificationPolicy.filter (· ∉ settings.deployedLayers)
  require (undeployed = [])
    (.rejected "verification_policy_undeployed"
      (.text (node.key ++ ": layers not deployed ") :: listed (sortedSet undeployed)))
  require ("code_test" ∈ settings.deployedLayers ∨ pytestCriteria node.successCriteria = [])
    (.rejected "verification_policy_undeployed"
      (.text (node.key ++ ": pytest criteria need local code execution, which this deployment has " ++
        "turned off: ") :: listed (pytestCriteria node.successCriteria)))
  let extraTools := node.allowedTools.filter (· ∉ mission.allowedTools)
  require (extraTools = [])
    (.rejected "tools" (.text (node.key ++ ": tools outside the Mission ") ::
      listed (sortedSet extraTools)))
  require (node.budget.fitsWithin mission.budget)
    (.rejected "budget" (.text (node.key ++ ": budget exceeds the Mission budget (§18.2); mission=")
      :: mission.budget.text))
  match floorRefusal settings.taskFloor node.verificationPolicy
      (node.budget.maxTokens.map Int.ofNat) settings.candidates with
  | none => pure ()
  | some refusal => .error (.rejected "budget" (.text (node.key ++ ": ") :: refusal))

def nodeChecks (mission : Mission) (settings : GateSettings) (proposal : TaskGraphProposal) :
    Except Refusal Unit :=
  every (nodeCheck mission settings) proposal.tasks

end Graph
