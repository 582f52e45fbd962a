import HarnessSdk.Graph.Depths
import HarnessSdk.Graph.Validation

/-! What the first gate promises of a graph it admits, and the shares it fills in. -/
namespace Graph
open PyDict PyText Checks Workflow

theorem limit_withLimit (budget : Budget) (d e : Dimension) (limit : Option Nat) :
    (budget.withLimit d limit).limit e = if d = e then limit else budget.limit e := by
  cases d <;> cases e <;> rfl

section
variable (count : Nat) (reserve : Int) (budget mission : Budget)

/-- A dimension that is left open is filled in when the mission bounds it. -/
def filledLimit (dimension : Dimension) : Option Nat :=
  match budget.limit dimension, mission.limit dimension with
  | none, some parent => some (completedLimit count reserve parent dimension)
  | limit, _ => limit

def fillDimension (dimension : Dimension) : Budget :=
  match budget.limit dimension, mission.limit dimension with
  | none, some parent =>
    budget.withLimit dimension (some (completedLimit count reserve parent dimension))
  | _, _ => budget

theorem limit_fillDimension (d e : Dimension) :
    (fillDimension count reserve budget mission d).limit e =
      if d = e then filledLimit count reserve budget mission e else budget.limit e := by
  unfold fillDimension filledLimit
  by_cases same : d = e
  · subst same
    cases mine : budget.limit d <;> cases theirs : mission.limit d <;>
      simp [limit_withLimit, mine]
  · cases mine : budget.limit d <;> cases theirs : mission.limit d <;>
      simp [limit_withLimit, same]

theorem limit_completeBudget (dimension : Dimension) :
    (completeBudget count reserve budget mission).limit dimension =
      filledLimit count reserve budget mission dimension := by
  have each : ∀ (items : List Dimension) (b : Budget), items.Nodup →
      (items.foldl (fun b d => fillDimension count reserve b mission d) b).limit dimension =
        if dimension ∈ items then filledLimit count reserve b mission dimension
        else b.limit dimension := by
    intro items
    induction items with
    | nil => intros; rfl
    | cons first rest ih =>
      intro b distinct
      rw [List.nodup_cons] at distinct
      rw [List.foldl_cons, ih _ distinct.2]
      have step := limit_fillDimension count reserve b mission first dimension
      by_cases same : first = dimension
      · subst same
        simpa [distinct.1] using step
      · rw [if_neg same] at step
        simp [filledLimit, step, Ne.symm same]
  have all := each dimensions budget (by decide)
  rw [if_pos (by cases dimension <;> decide)] at all
  exact all

end

def totalOf (nodes : List TaskNode) (dimension : Dimension) : Nat :=
  (nodes.map fun node => (node.budget.limit dimension).getD 0).sum

variable {nodes : List TaskNode} {dimension : Dimension} {mission : Mission}
  {settings : GateSettings}

theorem sumDimension_eq_some {total : Nat} :
    sumDimension nodes dimension = some total ↔
      (∀ node ∈ nodes, (node.budget.limit dimension).isSome) ∧ totalOf nodes dimension = total := by
  unfold sumDimension totalOf
  induction nodes generalizing total with
  | nil => simp
  | cons node rest ih =>
    rw [List.mapM_cons]
    cases mine : node.budget.limit dimension with
    | none => simp [mine]
    | some n =>
      simp only [List.forall_mem_cons, List.map_cons, List.sum_cons, mine, Option.isSome_some,
        Option.getD_some, true_and]
      cases others : rest.mapM fun node : TaskNode => node.budget.limit dimension with
      | none =>
        simp only [others, Option.map_none] at ih
        simp only [Option.bind_eq_bind, Option.bind_some, Option.bind_none, Option.map_none,
          reduceCtorEq, false_iff]
        rintro ⟨each, _⟩
        exact absurd (ih.mpr ⟨each, rfl⟩) (by simp)
      | some limits =>
        have rest' := (@ih limits.sum).mp (by rw [others]; rfl)
        simp only [Option.bind_eq_bind, Option.bind_some, Option.pure_def, Option.map_some,
          List.sum_cons, Option.some.injEq]
        constructor
        · rintro rfl
          exact ⟨rest'.1, by rw [rest'.2]⟩
        · rintro ⟨_, sum⟩
          rw [← sum, rest'.2]

/-! The shares that fill in a pooled dimension. -/

def pooled : List Dimension := [.maxTokens, .maxCostMicros]

def reserveOn (reserve : Int) (dimension : Dimension) : Int :=
  if dimension = .maxTokens then reserve else 0

theorem completedLimit_pooled (shared : dimension ∈ pooled) (count : Nat) (reserve : Int)
    (pool : Nat) :
    completedLimit count reserve pool dimension =
      (pool - reserveOn reserve dimension).toNat / count := by
  simp only [pooled, List.mem_cons, List.not_mem_nil, or_false] at shared
  rcases shared with rfl | rfl <;> simp [completedLimit, reserveOn]

theorem checkSum_eq_ok {host : Host} {reserve : Int}
    (known : systemReserveTokens host mission = .ok reserve) :
    checkSum host mission nodes dimension = .ok () ↔
      ∀ pool, mission.budget.limit dimension = some pool → ∃ total,
        sumDimension nodes dimension = some total ∧
        (total : Int) + reserveOn reserve dimension ≤ pool := by
  unfold checkSum
  cases bounded : mission.budget.limit dimension with
  | none => simp
  | some pool =>
    cases summed : sumDimension nodes dimension with
    | none => simp
    | some total =>
      by_cases tokens : dimension = .maxTokens
      · simp [tokens, known, bind_eq_ok, reserveOn]
      · simp [tokens, bind_eq_ok, reserveOn]

def Modest (mission : Mission) (reserve : Int) (given : TaskGraphProposal)
    (dimension : Dimension) : Prop :=
  ∀ pool, mission.budget.limit dimension = some pool → ∀ node ∈ given.tasks, ∀ claimed,
    node.budget.limit dimension = some claimed →
      claimed ≤ completedLimit (max 1 given.tasks.length) reserve pool dimension

section
variable {host : Host} {mission : Mission} {given proposal : TaskGraphProposal}

def filledIn (mission : Mission) (reserve : Int) (given : TaskGraphProposal) : TaskGraphProposal :=
  ⟨given.tasks.map fun node : TaskNode =>
    { node with budget :=
        completeBudget (max 1 given.tasks.length) reserve node.budget mission.budget }⟩

theorem normaliseBudgets_eq_ok : normaliseBudgets host mission given = .ok proposal ↔
    ∃ reserve, systemReserveTokens host mission = .ok reserve ∧
      proposal = filledIn mission reserve given := by
  rw [normaliseBudgets, bind_eq_ok]
  constructor
  · rintro ⟨reserve, known, made⟩
    cases made
    exact ⟨reserve, known, rfl⟩
  · rintro ⟨reserve, known, rfl⟩
    exact ⟨reserve, known, rfl⟩

theorem sum_le_shares {limits : List Nat} {pool : Nat}
    (modest : ∀ n ∈ limits, n ≤ pool / max 1 limits.length) : limits.sum ≤ pool := by
  calc limits.sum ≤ limits.length * (pool / max 1 limits.length) := by
        simpa using List.sum_le_card_nsmul limits _ modest
    _ ≤ max 1 limits.length * (pool / max 1 limits.length) :=
        Nat.mul_le_mul_right _ (Nat.le_max_right 1 _)
    _ ≤ pool := Nat.mul_div_le pool _

variable {reserve : Int} {dimension : Dimension}

section
variable (known : systemReserveTokens host mission = .ok reserve)
include known

theorem completed_limit
    (completed : normaliseBudgets host mission given = .ok proposal)
    (modest : Modest mission reserve given dimension) {pool : Nat}
    (bounded : mission.budget.limit dimension = some pool) :
    ∀ node ∈ proposal.tasks, ∃ held, node.budget.limit dimension = some held ∧
      held ≤ completedLimit (max 1 given.tasks.length) reserve pool dimension := by
  obtain ⟨_, known', rfl⟩ := normaliseBudgets_eq_ok.mp completed
  rw [known] at known'
  cases known'
  intro node inside
  obtain ⟨source, stated, rfl⟩ := List.mem_map.mp inside
  simp only [limit_completeBudget, filledLimit, bounded]
  cases claimed : source.budget.limit dimension with
  | none => exact ⟨_, rfl, Nat.le_refl _⟩
  | some n => exact ⟨n, rfl, modest pool bounded source stated n claimed⟩

theorem checkSum_of_modest
    (completed : normaliseBudgets host mission given = .ok proposal) (shared : dimension ∈ pooled)
    (modest : Modest mission reserve given dimension)
    (room : ∀ pool, mission.budget.limit dimension = some pool → reserveOn reserve dimension ≤
      pool) : checkSum host mission proposal.tasks dimension = .ok () := by
  rw [checkSum_eq_ok known]
  intro pool bounded
  have held := completed_limit known completed modest bounded
  obtain ⟨_, _, made⟩ := normaliseBudgets_eq_ok.mp completed
  have size : proposal.tasks.length = given.tasks.length := by
    rw [made, filledIn, List.length_map]
  refine ⟨_, sumDimension_eq_some.mpr ⟨?_, rfl⟩, ?_⟩
  · intro node inside
    obtain ⟨n, limit, _⟩ := held node inside
    simp [limit]
  · have total : totalOf proposal.tasks dimension ≤
        (pool - reserveOn reserve dimension).toNat := by
      apply sum_le_shares
      intro n listed
      obtain ⟨node, inside, rfl⟩ := List.mem_map.mp listed
      obtain ⟨n, limit, bound⟩ := held node inside
      rw [completedLimit_pooled shared] at bound
      simpa [limit, size] using bound
    have := room pool bounded
    omega

end

end

/-! The admitted graph. -/

def Ranked (edges : Edges) (left right : TaskNode) : Prop :=
  left.key ∈ ancestorsOf edges right.key ∨ right.key ∈ ancestorsOf edges left.key ∨
    List.Disjoint left.outputs right.outputs

instance (edges : Edges) : Std.Symm (Ranked edges) where
  symm left right ranked := by
    rcases ranked with older | newer | apart
    · exact Or.inr (Or.inl older)
    · exact Or.inl newer
    · exact Or.inr (Or.inr apart.symm)

variable {edges : Edges}

theorem outputConflict_eq_none {left right : TaskNode} :
    outputConflict edges left right = none ↔ Ranked edges left right := by
  unfold outputConflict Ranked
  rw [← or_assoc]
  split
  · next ordered => simp [ordered]
  · next unordered =>
    simp only [unordered, false_or, ite_eq_left_iff, reduceCtorEq, imp_false, not_not]
    constructor
    · intro none output mine theirs
      have both : output ∈ sortedSet (left.outputs.filter (· ∈ right.outputs)) := by
        simp [mine, theirs]
      rw [none] at both
      cases both
    · intro apart
      rw [List.eq_nil_iff_forall_not_mem]
      intro output both
      simp only [mem_sortedSet, List.mem_filter, decide_eq_true_eq] at both
      exact apart both.1 both.2

theorem siblingOutputConflicts_eq_nil {tasks : List TaskNode} :
    siblingOutputConflicts edges tasks = [] ↔ tasks.Pairwise (Ranked edges) := by
  induction tasks with
  | nil => simp [siblingOutputConflicts]
  | cons left rest ih =>
    rw [siblingOutputConflicts, List.append_eq_nil_iff, ih, List.pairwise_cons,
      List.filterMap_eq_nil_iff]
    simp only [outputConflict_eq_none]

structure Promises (host : Host) (mission : Mission) (given : TaskGraphProposal)
    (graph : ValidatedGraph) : Prop where
  completed : normaliseBudgets host mission given = .ok graph.proposal
  tokens : ∀ pool, mission.budget.maxTokens = some pool → ∃ reserve,
    systemReserveTokens host mission = .ok reserve ∧
    (totalOf graph.proposal.tasks .maxTokens : Int) + reserve ≤ pool
  cost : ∀ pool, mission.budget.maxCostMicros = some pool →
    totalOf graph.proposal.tasks .maxCostMicros ≤ pool
  fits : ∀ node ∈ graph.proposal.tasks, ∀ dimension parent,
    mission.budget.limit dimension = some parent →
      ∃ mine, node.budget.limit dimension = some mine ∧ mine ≤ parent
  listed : graph.order.Perm (graph.proposal.tasks.map TaskNode.key)
  once : graph.order.Nodup
  after : ∀ node ∈ graph.proposal.tasks, ∀ dep ∈ node.dependencies,
    dep ∈ graph.order ∧ Digraph.Before graph.order dep node.key
  depth : ∀ chain, Chain graph.proposal.edges chain → chain.length ≤ maxGraphDepth
  outputs : ∀ a ∈ graph.proposal.tasks, ∀ b ∈ graph.proposal.tasks, a.key ≠ b.key →
    ¬ Ancestry graph.proposal.edges a.key b.key → ¬ Ancestry graph.proposal.edges b.key a.key →
      List.Disjoint a.outputs b.outputs

theorem fits_of_nodeChecks {proposal : TaskGraphProposal}
    (ok : nodeChecks mission settings proposal = .ok ()) :
    ∀ node ∈ proposal.tasks, ∀ dimension parent, mission.budget.limit dimension = some parent →
      ∃ mine, node.budget.limit dimension = some mine ∧ mine ≤ parent := by
  rw [nodeChecks, every_eq_ok] at ok
  intro node inside dimension parent bounded
  have contract := ok node inside
  simp only [nodeCheck, then_eq_ok, require_eq_ok] at contract
  obtain ⟨_, _, _, _, _, _, _, _, _, fits, _⟩ := contract
  rw [Budget.fitsWithin, List.all_eq_true] at fits
  have here := fits dimension (by cases dimension <;> decide)
  simp only [bounded] at here
  cases mine : node.budget.limit dimension with
  | none => simp [mine] at here
  | some n =>
    simp only [mine, decide_eq_true_eq] at here
    exact ⟨n, rfl, here⟩

theorem Passes.promises {host : Host} {given proposal : TaskGraphProposal} {order : List String}
    (passes : Passes host mission settings given proposal order) :
    Promises host mission given (admittedGraph host proposal order) := by
  have distinct : (keys proposal.edges).Nodup := keys_ofEntries_nodup _
  have ordered := checkDependencies_spec distinct passes.ordered
  have entries := edges_of_distinct passes.distinct
  have names : keys proposal.edges = proposal.tasks.map TaskNode.key := by
    rw [entries]
    simp [keys, Function.comp_def]
  obtain ⟨reserve, known, _⟩ := normaliseBudgets_eq_ok.mp passes.completed
  have sums := passes.sums
  rw [checkSums, every_eq_ok] at sums
  simp only [List.forall_mem_cons, List.not_mem_nil, false_imp_iff, implies_true, and_true,
    checkSum_eq_ok known] at sums
  constructor
  · exact passes.completed
  · intro pool bounded
    obtain ⟨total, summed, bound⟩ := sums.1 pool bounded
    obtain ⟨_, rfl⟩ := sumDimension_eq_some.mp summed
    rw [reserveOn, if_pos rfl] at bound
    exact ⟨reserve, known, bound⟩
  · intro pool bounded
    obtain ⟨total, summed, bound⟩ := sums.2 pool bounded
    obtain ⟨_, rfl⟩ := sumDimension_eq_some.mp summed
    rw [reserveOn, if_neg (by decide), Int.add_zero] at bound
    exact Int.ofNat_le.mp bound
  · exact fits_of_nodeChecks passes.contracts
  · exact names ▸ ordered.perm
  · exact ordered.perm.nodup_iff.mpr distinct
  · intro node inside dep depends
    have edge : DependsOn proposal.edges node.key dep := by
      rw [dependsOn_iff distinct, entries]
      exact ⟨_, List.mem_map_of_mem inside, depends⟩
    exact ⟨ordered.perm.symm.subset (ordered.present _ _ edge), ordered.descends _ _ edge⟩
  · exact (ordered.depthOf_le_iff distinct maxGraphDepth).mp passes.depth
  · intro a first b second differ before after
    have pairs := siblingOutputConflicts_eq_nil.mp passes.outputs
    have unequal : a ≠ b := fun same => differ (congrArg TaskNode.key same)
    rcases pairs.forall first second unequal with older | newer | apart
    · exact absurd ((ordered.mem_ancestorsOf _ _).mp older) after
    · exact absurd ((ordered.mem_ancestorsOf _ _).mp newer) before
    · exact apart

/-- An admitted graph keeps every promise, and the shares the gate fills in never make it refuse:
where no task claims more than an even share, the sum is refused only by a token reserve that the
mission cannot hold, and then every share is nothing. -/
theorem validateGraph_promises (host : Host) (mission : Mission) (settings : GateSettings)
    (given : TaskGraphProposal) :
    (∀ graph, validateGraph host mission settings given = .ok graph →
      Promises host mission given graph) ∧
    ∀ proposal reserve, normaliseBudgets host mission given = .ok proposal →
      systemReserveTokens host mission = .ok reserve →
      ∀ dimension ∈ pooled, Modest mission reserve given dimension →
        checkSum host mission proposal.tasks dimension = .ok () ∨
        dimension = .maxTokens ∧ (∃ pool, mission.budget.maxTokens = some pool ∧ pool < reserve) ∧
          ∀ node ∈ proposal.tasks, node.budget.maxTokens = some 0 := by
  constructor
  · intro graph admitted
    obtain ⟨_, proposal, order, passes, rfl⟩ := (validateGraph_eq_ok graph).mp admitted
    exact passes.promises
  · intro proposal reserve completed known dimension shared modest
    by_cases room : ∀ pool, mission.budget.limit dimension = some pool →
        reserveOn reserve dimension ≤ pool
    · exact Or.inl (checkSum_of_modest known completed shared modest room)
    · push Not at room
      obtain ⟨pool, bounded, short⟩ := room
      have tokens : dimension = .maxTokens := by
        by_contra other
        rw [reserveOn, if_neg other] at short
        omega
      subst tokens
      rw [reserveOn, if_pos rfl] at short
      refine Or.inr ⟨rfl, ⟨pool, bounded, short⟩, ?_⟩
      intro node inside
      obtain ⟨held, limit, bound⟩ := completed_limit known completed modest bounded node inside
      have nothing : (pool - reserve).toNat = 0 := by omega
      rw [completedLimit, nothing, Nat.zero_div] at bound
      rw [show node.budget.maxTokens = node.budget.limit .maxTokens from rfl, limit,
        Nat.le_zero.mp bound]

theorem threeTasks_promises :
    Promises plainHost (missionWith 1) (threeTasks none) threeAdmitted ∧
    checkSum plainHost (missionWith 1) (threeTasks (some 30)).tasks .maxTokens = .ok () := by
  obtain ⟨promises, shares⟩ :=
    validateGraph_promises plainHost (missionWith 1) plainSettings (threeTasks none)
  refine ⟨promises threeAdmitted (by decide +kernel), ?_⟩
  have modest : Modest (missionWith 1) 10 (threeTasks none) .maxTokens := by
    intro pool _ node inside claimed given
    fin_cases inside <;> cases given
  rcases shares (threeTasks (some 30)) 10 (by decide +kernel) (by decide +kernel) .maxTokens
    (by decide) modest with fits | ⟨_, ⟨pool, held, short⟩, _⟩
  · exact fits
  · cases held
    exact absurd short (by decide)

end Graph
