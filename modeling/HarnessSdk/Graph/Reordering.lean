import HarnessSdk.Graph.ChangeOrder
import HarnessSdk.Graph.Depths

/-! Whether a change means the same in whatever order its operations stand. -/
namespace Graph
open PyDict PyText Checks Workflow

/-! The duplicate scan compares a task with the first task of its goal only. -/

section
variable (host : Host)

def sameGoal (a b : DuplicateItem) : Bool := normaliseGoal host a.goal = normaliseGoal host b.goal

def Repeats (a b : DuplicateItem) : Prop :=
  sameMembers a.dependencies b.dependencies ∧ sorted a.successCriteria = sorted b.successCriteria

instance (a b : DuplicateItem) : Decidable (Repeats a b) := by
  unfold Repeats
  infer_instance

theorem scanDuplicate_problems (scan : DuplicateScan) (item : DuplicateItem) :
    (scanDuplicate host scan item).report.problems = [] ↔
      scan.report.problems = [] ∧ item.key ∉ scan.seenKeys ∧
      ∀ other, get? scan.seenGoals (normaliseGoal host item.goal) = some other →
        ¬ Repeats other item := by
  have listed : scan.report.problems ++ (if item.key ∈ scan.seenKeys then
      [[Fragment.text "duplicate task key ", .repr item.key]] else []) = [] ↔
      scan.report.problems = [] ∧ item.key ∉ scan.seenKeys := by
    rw [List.append_eq_nil_iff]
    simp
  simp only [scanDuplicate]
  cases get? scan.seenGoals (normaliseGoal host item.goal) with
  | none => simp [listed]
  | some other =>
    by_cases again : Repeats other item
    · simp only [Repeats] at again
      simp [again, Repeats]
    · simp only [Option.some.injEq, forall_eq', again, not_false_eq_true, and_true]
      rw [Repeats] at again
      rw [if_neg again]
      exact listed

theorem scanDuplicate_goals (scan : DuplicateScan) (item : DuplicateItem) (goal : String) :
    get? (scanDuplicate host scan item).seenGoals goal =
      (get? scan.seenGoals goal).or
        (if normaliseGoal host item.goal = goal then some item else none) := by
  simp only [scanDuplicate]
  cases found : get? scan.seenGoals (normaliseGoal host item.goal) with
  | none =>
    simp only [get?_set]
    by_cases same : normaliseGoal host item.goal = goal
    · subst same
      simp [found]
    · simp [same]
  | some other =>
    have kept : get? scan.seenGoals goal = (get? scan.seenGoals goal).or
        (if normaliseGoal host item.goal = goal then some item else none) := by
      by_cases same : normaliseGoal host item.goal = goal
      · subst same
        simp [found]
      · simp [same]
    simp only
    split
    · exact kept
    · exact kept

structure Scanned (items : List DuplicateItem) (scan : DuplicateScan) : Prop where
  names : ∀ key, key ∈ scan.seenKeys ↔ key ∈ items.map DuplicateItem.key
  goals : ∀ goal, get? scan.seenGoals goal =
    items.find? fun item => normaliseGoal host item.goal = goal

def scanAll (items : List DuplicateItem) : DuplicateScan :=
  items.foldl (scanDuplicate host) ⟨[], [], ⟨[], []⟩⟩

theorem scanAll_concat (items : List DuplicateItem) (item : DuplicateItem) :
    scanAll host (items ++ [item]) = scanDuplicate host (scanAll host items) item := by
  rw [scanAll, List.foldl_append]
  rfl

theorem scanned_all (items : List DuplicateItem) : Scanned host items (scanAll host items) := by
  induction items using List.reverseRecOn with
  | nil =>
    constructor
    · simp [scanAll]
    · simp [scanAll]
  | append_singleton items item ih =>
    rw [scanAll_concat]
    constructor
    · intro key
      simp [ih.names, or_comm]
    · intro goal
      rw [scanDuplicate_goals, ih.goals, List.find?_append]
      by_cases same : normaliseGoal host item.goal = goal <;> simp [same]

structure Unduplicated (items : List DuplicateItem) : Prop where
  distinct : (items.map DuplicateItem.key).Nodup
  unrepeated : ∀ item ∈ items, ∀ first, items.find? (sameGoal host · item) = some first →
    first.key ≠ item.key → ¬ Repeats first item

theorem findDuplicates_eq_nil (items : List DuplicateItem) :
    (findDuplicates host items).problems = [] ↔ Unduplicated host items := by
  change (scanAll host items).report.problems = [] ↔ _
  induction items using List.reverseRecOn with
  | nil =>
    constructor
    · intro _
      exact ⟨by simp, by simp⟩
    · intro _
      rfl
  | append_singleton items item ih =>
    have scanned := scanned_all host items
    rw [scanAll_concat, scanDuplicate_problems, ih, scanned.names, scanned.goals]
    constructor
    · rintro ⟨before, fresh, new⟩
      constructor
      · rw [List.map_append, List.nodup_append_comm]
        exact List.nodup_cons.mpr ⟨fresh, before.distinct⟩
      · intro other inside first found differ
        rw [List.find?_append] at found
        rcases List.mem_append.mp inside with old | last
        · cases earlier : items.find? (sameGoal host · other) with
          | none =>
            have own := List.find?_eq_none.mp earlier other old
            simp [sameGoal] at own
          | some a =>
            rw [earlier, Option.some_or, Option.some.injEq] at found
            subst found
            exact before.unrepeated other old a earlier differ
        · rw [List.mem_singleton] at last
          subst last
          cases earlier : items.find? (sameGoal host · other) with
          | none =>
            rw [earlier, Option.none_or] at found
            have own := List.mem_singleton.mp (List.mem_of_find?_eq_some found)
            exact absurd (congrArg DuplicateItem.key own) differ
          | some a =>
            rw [earlier, Option.some_or, Option.some.injEq] at found
            subst found
            exact new a earlier
    · intro whole
      have names := whole.distinct
      rw [List.map_append, List.nodup_append_comm] at names
      have fresh := (List.nodup_cons.mp names).1
      refine ⟨⟨(List.nodup_cons.mp names).2, ?_⟩, fresh, ?_⟩
      · intro other inside first found differ
        apply whole.unrepeated other (List.mem_append_left _ inside) first _ differ
        rw [List.find?_append, found, Option.some_or]
      · intro first found
        apply whole.unrepeated item (List.mem_append_right _ List.mem_cons_self) first
        · rw [List.find?_append]
          unfold sameGoal
          rw [found, Option.some_or]
        · intro same
          exact fresh (same ▸ List.mem_map_of_mem (List.mem_of_find?_eq_some found))

end

/-! Operations by the task they restructure. -/

def Operation.superseding : Operation → Option (String × String)
  | .supersedeTask id replacement => some (id, replacement)
  | _ => none

def Operation.retargeting : Operation → Option (String × List String)
  | .retargetDependencies id dependencies => some (id, dependencies)
  | _ => none

def Operation.cancelling : Operation → Option (String × String)
  | .cancelTask id reason => some (id, reason)
  | _ => none

def Operation.subject : Operation → Option String
  | .supersedeTask id _ => some id
  | .retargetDependencies id _ => some id
  | .cancelTask id _ => some id
  | _ => none

section
variable (operations : List Operation)

def supersedings : Dict String String :=
  operations.filterMap Operation.superseding

def retargetings : Dict String (List String) :=
  operations.filterMap Operation.retargeting

def cancellings : Dict String String :=
  operations.filterMap Operation.cancelling

def subjects : List String :=
  operations.filterMap Operation.subject

end

structure Unrepeated (operations : List Operation) : Prop where
  superseded : (keys (supersedings operations)).Nodup
  retargeted : (keys (retargetings operations)).Nodup
  cancelled : (keys (cancellings operations)).Nodup

variable (operations : List Operation) (effects : Effects)

theorem subjects_perm :
    (subjects operations).Perm (keys (supersedings operations) ++
      (keys (retargetings operations) ++ keys (cancellings operations))) := by
  induction operations with
  | nil => exact List.Perm.refl []
  | cons op rest ih =>
    cases op with
    | supersedeTask id replacement => exact ih.cons id
    | retargetDependencies id dependencies => exact (ih.cons id).trans List.perm_middle.symm
    | cancelTask id reason =>
      apply (ih.cons id).trans
      rw [← List.append_assoc]
      exact List.perm_middle.symm.trans (List.append_assoc _ _ _ ▸ List.Perm.refl _)
    | _ => exact ih

theorem effects_fold :
    (operations.foldl Effects.record effects).superseded =
        update effects.superseded (supersedings operations) ∧
      (operations.foldl Effects.record effects).retargets =
        update effects.retargets (retargetings operations) ∧
      (operations.foldl Effects.record effects).cancels =
        update effects.cancels (cancellings operations) := by
  induction operations generalizing effects with
  | nil => exact ⟨rfl, rfl, rfl⟩
  | cons op rest ih =>
    rw [List.foldl_cons]
    cases op <;> exact ih _

theorem keys_effectsOf (change : TaskGraphChange) (id : String) :
    (id ∈ keys (effectsOf change).superseded ↔ id ∈ keys (supersedings change.operations)) ∧
      (id ∈ keys (effectsOf change).retargets ↔ id ∈ keys (retargetings change.operations)) ∧
      (id ∈ keys (effectsOf change).cancels ↔ id ∈ keys (cancellings change.operations)) := by
  obtain ⟨first, second, third⟩ := effects_fold change.operations Effects.none
  rw [effectsOf, first, second, third]
  exact ⟨mem_keys_ofEntries _ _, mem_keys_ofEntries _ _, mem_keys_ofEntries _ _⟩

theorem checkStructural_eq_ok : checkStructural effects = .ok () ↔
    List.Disjoint (keys effects.superseded) (keys effects.retargets) ∧
    List.Disjoint (keys effects.superseded) (keys effects.cancels) ∧
    List.Disjoint (keys effects.retargets) (keys effects.cancels) := by
  have apart : ∀ left right : List String, left.filter (· ∈ right) = [] ↔ left.Disjoint right := by
    intro left right
    simp only [List.filter_eq_nil_iff, decide_eq_true_eq, List.disjoint_left]
  simp only [checkStructural, then_eq_ok, require_eq_ok, apart]

variable {change : TaskGraphChange}

theorem subjects_nodup_iff (structural : checkStructural (effectsOf change) = .ok ()) :
    (subjects change.operations).Nodup ↔ Unrepeated change.operations := by
  rw [checkStructural_eq_ok] at structural
  simp only [List.disjoint_left, keys_effectsOf] at structural
  rw [(subjects_perm _).nodup_iff, List.nodup_append, List.nodup_append]
  constructor
  · rintro ⟨superseded, ⟨retargeted, cancelled, _⟩, _⟩
    exact ⟨superseded, retargeted, cancelled⟩
  · intro unrepeated
    refine ⟨unrepeated.superseded, ⟨unrepeated.retargeted, unrepeated.cancelled, ?_⟩, ?_⟩
    · rintro a first b second rfl
      exact structural.2.2 first second
    · rintro a first b second rfl
      rcases List.mem_append.mp second with retargeted | cancelled
      · exact structural.1 first retargeted
      · exact structural.2.1 first cancelled

/-! The budget check. -/

def nodeBudgets (nodes : List NewTaskNode) (share : Int) : Dict String Int :=
  nodes.map fun node => (node.key, (node.budget.maxTokens.map Int.ofNat).getD share)

def openShare (pool : Nat) (remaining : Int) (tasks : List Task) (nodes : List NewTaskNode) : Int :=
  max 1 (min (remaining / max 1 (nodes.length : Int))
    ((pool : Int) / max 4 (tasks.length + nodes.length : Int)))

/-- What a mission's pool still holds beside its reserve and what its tasks have committed. -/
def remainingTokens (tasks : List Task) (effects : Effects) (committed : Dict String Int)
    (pool : Nat) (reserve : Int) : Int :=
  pool - reserve - committedTokens tasks effects committed

section
variable {host : Host} {mission : Mission} {tasks : List Task} {effects : Effects}
  {nodes : List NewTaskNode} {committed budgets : Dict String Int}

theorem budgetPool_unbounded (unbounded : mission.budget.maxTokens = none) :
    budgetPool host mission tasks effects nodes committed = .ok budgets ↔ budgets = [] := by
  simp only [budgetPool, unbounded, Except.ok.injEq]
  exact eq_comm

theorem budgetPool_eq_ok (distinct : (nodes.map fun node => node.key).Nodup) {pool : Nat}
    (bounded : mission.budget.maxTokens = some pool) :
    budgetPool host mission tasks effects nodes committed = .ok budgets ↔
      ∃ reserve, unmaterializedSystemReserve host mission tasks = .ok reserve ∧
        budgets = nodeBudgets nodes
          (openShare pool (remainingTokens tasks effects committed pool reserve) tasks nodes) ∧
        (budgets.map Prod.snd).sum ≤ remainingTokens tasks effects committed pool reserve := by
  have named : ∀ share : Int, ofEntries (nodes.map fun node =>
      (node.key, (node.budget.maxTokens.map Int.ofNat).getD share)) = nodeBudgets nodes share := by
    intro share
    apply ofEntries_of_nodup
    simpa [keys, Function.comp_def] using distinct
  simp only [budgetPool, bounded, bind_eq_ok, named, Unique.exists_iff, PUnit.default_eq_unit,
    require_eq_ok]
  constructor
  · rintro ⟨reserve, known, room, made⟩
    cases made
    exact ⟨reserve, known, rfl, room⟩
  · rintro ⟨reserve, known, rfl, room⟩
    exact ⟨reserve, known, room, rfl⟩

end

/-! What the gate checks, as one structure. -/

section
variable (host : Host) (mission : Mission) (inputs : ChangeInputs) (tasks : List Task)

structure Cleared (change : TaskGraphChange) (order : List String) (budgets : Dict String Int) :
    Prop where
  pressure : inputs.limits.admitNewTasks = true ∨ proposedNodes inputs change = []
  distinct : ((proposedNodes inputs change).map fun node => node.key).Nodup
  legal : ∀ op ∈ change.operations, checkOperation host inputs.limits tasks
    ((proposedNodes inputs change).map fun node => node.key) op = .ok ()
  structural : checkStructural (effectsOf change) = .ok ()
  dependencies : ∀ entry ∈ edgesAfter tasks change (proposedNodes inputs change),
    ∀ dep ∈ entry.2, checkMergedDependency tasks (effectsOf change)
      ((proposedNodes inputs change).map fun node => node.key)
      (edgesAfter tasks change (proposedNodes inputs change)) entry.1 dep = .ok ()
  ordered : checkDependencies (edgesAfter tasks change (proposedNodes inputs change)) = .ok order
  size : ((edgesAfter tasks change (proposedNodes inputs change)).length : Int) ≤
    inputs.limits.maxTasks
  depth : (depthOf (edgesAfter tasks change (proposedNodes inputs change)) order : Int) ≤
    inputs.limits.maxGraphDepth
  proposals : checkProposals inputs.limits inputs.proposalsByAttempt change.sourceAttempt
    (proposedNodes inputs change) = .ok ()
  unduplicated : Unduplicated host
    (mergedItems tasks (effectsOf change) (proposedNodes inputs change))
  outputs : ∀ node ∈ proposedNodes inputs change,
    ∀ entry ∈ mergedOutputs tasks (effectsOf change) (proposedNodes inputs change),
      checkNewOutputs (edgesAfter tasks change (proposedNodes inputs change))
        (mergedOutputs tasks (effectsOf change) (proposedNodes inputs change)) node entry = .ok ()
  contracts : ∀ node ∈ proposedNodes inputs change,
    checkNewNode mission inputs.settings tasks node = .ok ()
  traced : ∀ node ∈ proposedNodes inputs change,
    checkTraced (edgesAfter tasks change (proposedNodes inputs change)) (effectsOf change) node =
      .ok ()
  pool : budgetPool host mission tasks (effectsOf change) (proposedNodes inputs change)
    inputs.committedTokensByTask = .ok budgets
  floor : ∀ node ∈ proposedNodes inputs change, checkFloor inputs.settings budgets node = .ok ()

def clearedChange (change : TaskGraphChange) (order : List String) (budgets : Dict String Int) :
    ValidatedChange where
  change := change
  newNodes := proposedNodes inputs change
  order := order.filter (· ∈ (proposedNodes inputs change).map fun node => node.key)
  effects := effectsOf change
  affectedTaskIds := affectedIds (effectsOf change)
    ((proposedNodes inputs change).map fun node => node.key)
  warnings := (findDuplicates host
    (mergedItems tasks (effectsOf change) (proposedNodes inputs change))).suspected
  depth := depthOf (edgesAfter tasks change (proposedNodes inputs change)) order
  budgetPool := budgets

theorem validateChange_eq_ok (change : TaskGraphChange) (validated : ValidatedChange) :
    validateChange host mission inputs tasks change = .ok validated ↔
      ∃ order budgets, Cleared host mission inputs tasks change order budgets ∧
        validated = clearedChange host inputs tasks change order budgets := by
  unfold validateChange
  simp only [bind_eq_ok, Unique.exists_iff, PUnit.default_eq_unit, require_eq_ok, every_eq_ok,
    mapError_eq_ok]
  constructor
  · rintro ⟨pressure, distinct, legal, structural, dependencies, order, ordered, size, depth,
      proposals, clean, outputs, contracts, traced, budgets, pool, floor, made⟩
    cases made
    exact ⟨order, budgets, ⟨pressure, distinct, legal, structural, dependencies, ordered, size,
      depth, proposals, (findDuplicates_eq_nil host _).mp clean, outputs, contracts, traced, pool,
      floor⟩, rfl⟩
  · rintro ⟨order, budgets, cleared, rfl⟩
    exact ⟨cleared.pressure, cleared.distinct, cleared.legal, cleared.structural,
      cleared.dependencies, order, cleared.ordered, cleared.size, cleared.depth, cleared.proposals,
      (findDuplicates_eq_nil host _).mpr cleared.unduplicated, cleared.outputs, cleared.contracts,
      cleared.traced, budgets, cleared.pool, cleared.floor, rfl⟩

end

/-! The same effects and the same new nodes, listed in another order. -/

structure Alike (effects' effects : Effects) : Prop where
  superseded : effects'.superseded.Perm effects.superseded
  retargets : effects'.retargets.Perm effects.retargets
  cancels : effects'.cancels.Perm effects.cancels
  once : (keys effects.superseded).Nodup ∧ (keys effects.retargets).Nodup

theorem effectsOf_unrepeated (once : Unrepeated change.operations) :
    (effectsOf change).superseded = supersedings change.operations ∧
      (effectsOf change).retargets = retargetings change.operations ∧
      (effectsOf change).cancels = cancellings change.operations := by
  obtain ⟨superseded, retargets, cancels⟩ := effects_fold change.operations Effects.none
  rw [effectsOf, superseded, retargets, cancels]
  exact ⟨ofEntries_of_nodup once.superseded, ofEntries_of_nodup once.retargeted,
    ofEntries_of_nodup once.cancelled⟩

theorem Unrepeated.of_perm {operations operations' : List Operation}
    (same : operations'.Perm operations) (once : Unrepeated operations) :
    Unrepeated operations' where
  superseded := ((same.filterMap _).map Prod.fst).nodup_iff.mpr once.superseded
  retargeted := ((same.filterMap _).map Prod.fst).nodup_iff.mpr once.retargeted
  cancelled := ((same.filterMap _).map Prod.fst).nodup_iff.mpr once.cancelled

theorem alike_of_perm {operations : List Operation} (same : operations.Perm change.operations)
    (once : Unrepeated change.operations) :
    Alike (effectsOf { change with operations := operations }) (effectsOf change) := by
  obtain ⟨superseded, retargets, cancels⟩ := effectsOf_unrepeated once
  have once' : Unrepeated ({ change with operations := operations } : TaskGraphChange).operations :=
    once.of_perm same
  obtain ⟨superseded', retargets', cancels'⟩ := effectsOf_unrepeated once'
  constructor
  · rw [superseded, superseded']
    exact same.filterMap _
  · rw [retargets, retargets']
    exact same.filterMap _
  · rw [cancels, cancels']
    exact same.filterMap _
  · rw [superseded, retargets]
    exact ⟨once.superseded, once.retargeted⟩

section
variable {effects' effects : Effects} (alike : Alike effects' effects)
include alike

theorem Alike.mem_removed (id : String) : id ∈ effects'.removed ↔ id ∈ effects.removed := by
  have superseded := (alike.superseded.map Prod.fst).mem_iff (a := id)
  have cancelled := (alike.cancels.map Prod.fst).mem_iff (a := id)
  rw [Effects.removed, Effects.removed, List.mem_append, List.mem_append]
  exact or_congr superseded cancelled

theorem Alike.survivors_eq (tasks : List Task) : survivors tasks effects' = survivors tasks effects := by
  apply List.filter_congr
  intro task _
  simp only [alike.mem_removed]

theorem Alike.dependenciesOf_eq (task : Task) :
    effects'.dependenciesOf task = effects.dependenciesOf task := by
  have superseded := get?_of_perm alike.superseded.symm alike.once.1
  have retargets := get?_of_perm alike.retargets.symm alike.once.2
  simp only [Effects.dependenciesOf, superseded, retargets]

theorem Alike.committed_eq (tasks : List Task) (committed : Dict String Int) :
    committedTokens tasks effects' committed = committedTokens tasks effects committed := by
  simp only [committedTokens, alike.mem_removed]

variable {tasks : List Task} {nodes' nodes : List NewTaskNode} (same : nodes'.Perm nodes)
  (apart : ((survivors tasks effects).map Task.id ++ nodes.map fun node => node.key).Nodup)
include same apart

theorem Alike.names_apart : ((survivors tasks effects').map Task.id ++
    nodes'.map fun node => node.key).Nodup := by
  rw [alike.survivors_eq]
  exact ((same.map _).append_left _).nodup_iff.mpr apart

theorem Alike.edges_perm :
    (mergedEdges tasks effects' nodes').Perm (mergedEdges tasks effects nodes) := by
  rw [mergedEdges, mergedEdges, merged_entries (alike.names_apart same apart), merged_entries apart]
  simp only [alike.survivors_eq, alike.dependenciesOf_eq]
  exact (same.map _).append_left _

theorem Alike.outputs_perm :
    (mergedOutputs tasks effects' nodes').Perm (mergedOutputs tasks effects nodes) := by
  rw [mergedOutputs, mergedOutputs, merged_entries (alike.names_apart same apart), merged_entries apart]
  simp only [alike.survivors_eq]
  exact (same.map _).append_left _

end

theorem mergedItems_eq {tasks : List Task} {effects : Effects} {nodes : List NewTaskNode}
    (apart : ((survivors tasks effects).map Task.id ++ nodes.map fun node => node.key).Nodup) :
    mergedItems tasks effects nodes =
      ((survivors tasks effects).map fun task =>
        ⟨task.id, task.goal, effects.dependenciesOf task, task.successCriteria⟩) ++
      nodes.map fun node => ⟨node.key, node.goal, node.dependencies, node.successCriteria⟩ := by
  have distinct := apart
  rw [← keys_mergedEdges apart] at distinct
  rw [mergedItems]
  congr 1
  apply List.map_congr_left
  intro task stays
  have entry : (task.id, effects.dependenciesOf task) ∈ mergedEdges tasks effects nodes := by
    rw [mergedEdges, merged_entries apart]
    exact List.mem_append_left _ (List.mem_map_of_mem stays)
  rw [get?_eq_some_of_mem distinct entry, Option.getD_some]

/-- New items may be listed in another order when those that repeat one another have the goal of an
old item, which then stands first. -/
theorem Unduplicated.reorder {host : Host} {olds news news' : List DuplicateItem}
    (whole : Unduplicated host (olds ++ news)) (same : news'.Perm news)
    (covered : ∀ a ∈ news, ∀ b ∈ news, a.key ≠ b.key → sameGoal host a b → Repeats a b →
      ∃ old ∈ olds, sameGoal host old a) : Unduplicated host (olds ++ news') := by
  constructor
  · exact ((same.append_left olds).map DuplicateItem.key).nodup_iff.mpr whole.distinct
  · intro item inside first found differ again
    have listed := (same.append_left olds).subset inside
    rw [List.find?_append] at found
    cases early : olds.find? (sameGoal host · item) with
    | some old =>
      rw [early, Option.some_or, Option.some.injEq] at found
      subst found
      refine whole.unrepeated item listed old ?_ differ again
      rw [List.find?_append, early, Option.some_or]
    | none =>
      rw [early, Option.none_or] at found
      have none := List.find?_eq_none.mp early
      have goal : sameGoal host first item = true := by
        simpa using List.find?_some found
      rcases List.mem_append.mp listed with old | new
      · exact none item old (by simp [sameGoal])
      · have fresh := same.subset (List.mem_of_find?_eq_some found)
        obtain ⟨old, known, shared⟩ := covered first fresh item new differ goal again
        apply none old known
        simp only [sameGoal, decide_eq_true_eq] at goal shared ⊢
        exact shared.trans goal

def NewTaskNode.item (node : NewTaskNode) : DuplicateItem :=
  ⟨node.key, node.goal, node.dependencies, node.successCriteria⟩

/-- Two new tasks that repeat one another, while no surviving task has their goal: the scan finds
the repetition only if none of their goal stands before both. -/
def HiddenTwins (host : Host) (tasks : List Task) (effects : Effects)
    (nodes : List NewTaskNode) : Prop :=
  ∃ a ∈ nodes, ∃ b ∈ nodes, a.key ≠ b.key ∧ sameGoal host a.item b.item ∧ Repeats a.item b.item ∧
    ∀ task ∈ survivors tasks effects, normaliseGoal host task.goal ≠ normaliseGoal host a.goal

section
variable {host : Host} {mission : Mission} {inputs : ChangeInputs} {tasks : List Task}
  {effects' effects : Effects} {nodes' nodes : List NewTaskNode}

theorem checkOperation_names {limits : ChangeLimits} {names names' : List String}
    (same : ∀ name, name ∈ names' ↔ name ∈ names) (op : Operation) :
    checkOperation host limits tasks names' op = checkOperation host limits tasks names op := by
  cases op with
  | supersedeTask id replacement => simp only [checkOperation, checkSupersede, same]
  | _ => rfl

theorem budgetPool_of_perm (alike : Alike effects' effects) (same : nodes'.Perm nodes)
    (distinct : (nodes.map fun node => node.key).Nodup) {committed budgets : Dict String Int}
    (ok : budgetPool host mission tasks effects nodes committed = .ok budgets) :
    ∃ budgets', budgetPool host mission tasks effects' nodes' committed = .ok budgets' ∧
      budgets'.Perm budgets ∧ (keys budgets).Nodup := by
  have distinct' := (same.map fun node : NewTaskNode => node.key).nodup_iff.mpr distinct
  cases bounded : mission.budget.maxTokens with
  | none =>
    rw [budgetPool_unbounded bounded] at ok
    subst ok
    exact ⟨[], (budgetPool_unbounded bounded).mpr rfl, List.Perm.refl _, List.nodup_nil⟩
  | some pool =>
    obtain ⟨reserve, known, rfl, room⟩ := (budgetPool_eq_ok distinct bounded).mp ok
    generalize shared : openShare pool _ tasks nodes = share at room ⊢
    have moved : (nodeBudgets nodes' share).Perm (nodeBudgets nodes share) := same.map _
    refine ⟨nodeBudgets nodes' share, ?_, moved, ?_⟩
    · rw [budgetPool_eq_ok distinct' bounded]
      refine ⟨reserve, known, ?_, ?_⟩
      · rw [← shared, openShare, openShare, same.length_eq, remainingTokens, remainingTokens,
          alike.committed_eq]
      · rw [(moved.map Prod.snd).sum_eq, remainingTokens, alike.committed_eq]
        exact room
    · simpa [nodeBudgets, keys, Function.comp_def] using distinct

theorem checkNewOutputs_of_perm {edges' edges : Edges} {outputs' outputs : Dict String (List String)}
    {order' order : List String} (same : edges'.Perm edges) (distinct : (keys edges).Nodup)
    (ordered' : Ordered edges' order') (ordered : Ordered edges order)
    (declared : outputs'.Perm outputs) (named : (keys outputs).Nodup) (node : NewTaskNode)
    (entry : String × List String) :
    checkNewOutputs edges' outputs' node entry = checkNewOutputs edges outputs node entry := by
  have above : ∀ a b, b ∈ ancestorsOf edges' a ↔ b ∈ ancestorsOf edges a := by
    intro a b
    rw [ordered'.mem_ancestorsOf, ordered.mem_ancestorsOf, ancestry_of_perm same distinct]
  simp only [checkNewOutputs, above, get?_of_perm declared.symm named]

theorem Cleared.reorder {change : TaskGraphChange} {order : List String}
    {budgets : Dict String Int}
    (cleared : Cleared host mission inputs tasks change order budgets)
    (once : Unrepeated change.operations)
    (open' : ¬ HiddenTwins host tasks (effectsOf change) (proposedNodes inputs change))
    {operations : List Operation} (moved : operations.Perm change.operations) :
    ∃ order' budgets', Cleared host mission inputs tasks { change with operations := operations }
        order' budgets' ∧ budgets'.Perm budgets ∧
      depthOf (edgesAfter tasks { change with operations := operations }
        (proposedNodes inputs { change with operations := operations })) order' =
      depthOf (edgesAfter tasks change (proposedNodes inputs change)) order := by
  have alike := alike_of_perm moved once
  have nodes : (proposedNodes inputs { change with operations := operations }).Perm
      (proposedNodes inputs change) := moved.filterMap _
  have names := fun name => (nodes.map fun node : NewTaskNode => node.key).mem_iff (a := name)
  have apart : ((survivors tasks (effectsOf change)).map Task.id ++
      (proposedNodes inputs change).map fun node => node.key).Nodup := by
    simpa [mergedItems, Function.comp_def] using cleared.unduplicated.distinct
  have apart' := alike.names_apart nodes apart
  have edges := alike.edges_perm nodes apart
  have outputs := alike.outputs_perm nodes apart
  have distinct := apart
  have named := apart
  rw [← keys_mergedEdges apart] at distinct
  rw [← keys_mergedOutputs apart] at named
  obtain ⟨order', ordered', spec', depth⟩ := checkDependencies_of_perm edges distinct cleared.ordered
  have spec := checkDependencies_spec distinct cleared.ordered
  obtain ⟨budgets', pool', shares, counted⟩ := budgetPool_of_perm alike nodes cleared.distinct
    cleared.pool
  have removed := alike.mem_removed
  have keys' := fun name => (edges.map Prod.fst).mem_iff (a := name)
  refine ⟨order', budgets', ?_, shares, depth⟩
  constructor
  · rcases cleared.pressure with admits | none
    · exact Or.inl admits
    · exact Or.inr (List.perm_nil.mp (none ▸ nodes))
  · exact (nodes.map _).nodup_iff.mpr cleared.distinct
  · intro op inside
    rw [checkOperation_names names]
    exact cleared.legal op (moved.subset inside)
  · rw [checkStructural_eq_ok]
    have disjoint := (checkStructural_eq_ok _).mp cleared.structural
    have superseded := fun id => (alike.superseded.map Prod.fst).mem_iff (a := id)
    have retargeted := fun id => (alike.retargets.map Prod.fst).mem_iff (a := id)
    have cancelled := fun id => (alike.cancels.map Prod.fst).mem_iff (a := id)
    simp only [List.disjoint_left, keys] at disjoint ⊢
    simpa only [superseded, retargeted, cancelled] using disjoint
  · intro entry inside dep depends
    have checked := cleared.dependencies entry (edges.subset inside) dep depends
    simp only [checkMergedDependency, then_eq_ok, require_eq_ok] at checked ⊢
    rw [removed, names, keys, edgesAfter, keys']
    exact checked
  · exact ordered'
  · rw [edgesAfter, edges.length_eq]
    exact cleared.size
  · rw [edgesAfter, depth]
    exact cleared.depth
  · have proposals := cleared.proposals
    simp only [checkProposals, require_eq_ok, ← nodes.length_eq] at proposals ⊢
    rcases proposals with unnamed | none | few
    · exact Or.inl unnamed
    · exact Or.inr (Or.inl (List.perm_nil.mp (none ▸ nodes)))
    · exact Or.inr (Or.inr few)
  · have whole := cleared.unduplicated
    rw [mergedItems_eq apart] at whole
    rw [mergedItems_eq apart', alike.survivors_eq]
    simp only [alike.dependenciesOf_eq]
    apply whole.reorder (nodes.map NewTaskNode.item)
    intro a first b second differ goal again
    obtain ⟨x, new, rfl⟩ := List.mem_map.mp first
    obtain ⟨y, other, rfl⟩ := List.mem_map.mp second
    by_contra none
    apply open'
    refine ⟨x, new, y, other, differ, goal, again, ?_⟩
    intro task stays shared
    exact none ⟨_, List.mem_map_of_mem stays, by simpa [sameGoal] using shared⟩
  · intro node inside entry listed
    rw [edgesAfter, checkNewOutputs_of_perm edges distinct spec' spec outputs named]
    exact cleared.outputs node (nodes.subset inside) entry (outputs.subset listed)
  · exact fun node inside => cleared.contracts node (nodes.subset inside)
  · intro node inside
    have traced := cleared.traced node (nodes.subset inside)
    simp only [checkTraced, require_eq_ok] at traced ⊢
    rw [edgesAfter, (edges.flatMap_right Prod.snd).mem_iff,
      (alike.superseded.map Prod.snd).mem_iff]
    exact traced
  · exact pool'
  · intro node inside
    have floor := cleared.floor node (nodes.subset inside)
    rw [checkFloor, get?_of_perm shares.symm counted]
    exact floor

end

/-! When an accepted change means the same in every order. -/

/-- Two orders of the operations give one graph: the same tasks stay with the same dependencies, and
the new tasks are the same in some order. -/
structure SameGraph (inputs : ChangeInputs) (tasks : List Task)
    (validated' validated : ValidatedChange) : Prop where
  stays : survivors tasks validated'.effects = survivors tasks validated.effects
  waits : ∀ task, validated'.effects.dependenciesOf task = validated.effects.dependenciesOf task
  nodes : validated'.newNodes.Perm validated.newNodes
  edges : (mergedEdges tasks validated'.effects validated'.newNodes).Perm
    (mergedEdges tasks validated.effects validated.newNodes)
  budgets : validated'.budgetPool.Perm validated.budgetPool
  depth : validated'.depth = validated.depth

/-- No task is restructured twice, and every order of the operations is accepted with one graph. -/
structure OrderFree (host : Host) (mission : Mission) (inputs : ChangeInputs) (tasks : List Task)
    (change : TaskGraphChange) (validated : ValidatedChange) : Prop where
  once : (subjects change.operations).Nodup
  reordered : ∀ operations, operations.Perm change.operations → ∃ validated',
    validateChange host mission inputs tasks { change with operations := operations } =
      .ok validated' ∧ SameGraph inputs tasks validated' validated

section
variable {host : Host} {mission : Mission} {inputs : ChangeInputs} {tasks : List Task}
  {change : TaskGraphChange} {order : List String} {budgets : Dict String Int}

theorem Cleared.orderFree (cleared : Cleared host mission inputs tasks change order budgets)
    (once : Unrepeated change.operations)
    (open' : ¬ HiddenTwins host tasks (effectsOf change) (proposedNodes inputs change)) :
    OrderFree host mission inputs tasks change
      (clearedChange host inputs tasks change order budgets) := by
  constructor
  · exact (subjects_nodup_iff cleared.structural).mpr once
  · intro operations moved
    obtain ⟨order', budgets', again, shares, depth⟩ := cleared.reorder once open' moved
    have alike := alike_of_perm moved once
    have nodes : (proposedNodes inputs { change with operations := operations }).Perm
        (proposedNodes inputs change) := moved.filterMap _
    have apart : ((survivors tasks (effectsOf change)).map Task.id ++
        (proposedNodes inputs change).map fun node => node.key).Nodup := by
      simpa [mergedItems, Function.comp_def] using cleared.unduplicated.distinct
    refine ⟨_, (validateChange_eq_ok ..).mpr ⟨order', budgets', again, rfl⟩, ?_⟩
    constructor
    · exact alike.survivors_eq tasks
    · exact alike.dependenciesOf_eq
    · exact nodes
    · exact alike.edges_perm nodes apart
    · exact shares
    · exact depth

theorem addTask_of_proposed {node : NewTaskNode} (new : node ∈ proposedNodes inputs change) :
    ∃ args, Operation.addTask args ∈ change.operations ∧
      args.node (defaultChangePolicy inputs.settings.deployedLayers) = node := by
  obtain ⟨op, inside, made⟩ := List.mem_filterMap.mp new
  cases op with
  | addTask args => exact ⟨args, inside, by simpa using made⟩
  | _ => simp at made

theorem OrderFree.no_twins {validated : ValidatedChange}
    (free : OrderFree host mission inputs tasks change validated)
    (once : Unrepeated change.operations) :
    ¬ HiddenTwins host tasks (effectsOf change) (proposedNodes inputs change) := by
  rintro ⟨a, newA, b, newB, differ, goal, again, uncovered⟩
  obtain ⟨argsA, insideA, rfl⟩ := addTask_of_proposed newA
  obtain ⟨argsB, insideB, rfl⟩ := addTask_of_proposed newB
  have unequal : Operation.addTask argsB ≠ Operation.addTask argsA := by
    intro same
    cases same
    exact differ rfl
  have second := (List.mem_erase_of_ne unequal).mpr insideB
  have moved := (List.perm_cons_erase insideA).trans ((List.perm_cons_erase second).cons _)
  obtain ⟨validated', accepted, _⟩ := free.reordered _ moved.symm
  obtain ⟨order, budgets, cleared, _⟩ := (validateChange_eq_ok ..).mp accepted
  have alike := alike_of_perm moved.symm once
  have whole := cleared.unduplicated
  have apart := whole.distinct
  rw [mergedItems_eq (by simpa [mergedItems, Function.comp_def] using apart),
    alike.survivors_eq] at whole
  refine whole.unrepeated (argsB.node _).item ?_ (argsA.node _).item ?_ differ again
  · apply List.mem_append_right
    apply List.mem_map_of_mem (f := NewTaskNode.item)
    exact List.mem_cons_of_mem _ List.mem_cons_self
  · rw [List.find?_append, List.find?_eq_none.mpr, Option.none_or]
    · exact List.find?_cons_of_pos goal
    · intro old known shared
      obtain ⟨task, stays, rfl⟩ := List.mem_map.mp known
      apply uncovered task stays
      simp only [sameGoal, decide_eq_true_eq] at shared goal
      exact shared.trans goal.symm

end

/-- An accepted change means the same in every order of its operations exactly when no two of one
kind restructure the same task and no two of its new tasks are twins that only their order hides. -/
theorem validateChange_orderFree_iff (host : Host) (mission : Mission) (inputs : ChangeInputs)
    (tasks : List Task) (change : TaskGraphChange) (validated : ValidatedChange)
    (ok : validateChange host mission inputs tasks change = .ok validated) :
    OrderFree host mission inputs tasks change validated ↔
      Unrepeated change.operations ∧
      ¬ HiddenTwins host tasks (effectsOf change) (proposedNodes inputs change) := by
  obtain ⟨order, budgets, cleared, rfl⟩ := (validateChange_eq_ok ..).mp ok
  constructor
  · intro free
    have once := (subjects_nodup_iff cleared.structural).mp free.once
    exact ⟨once, free.no_twins once⟩
  · rintro ⟨once, open'⟩
    exact cleared.orderFree once open'

/-! One task retargeted twice, and twins behind a task with their goal. -/

def retargetTwice (first second : List String) : TaskGraphChange :=
  ⟨"", [.retargetDependencies "b" first, .retargetDependencies "b" second]⟩

def retargetedTwice (first second order : List String) : ValidatedChange :=
  { retargeted second order with change := retargetTwice first second }

def survey (key criterion : String) : Operation :=
  .addTask {
    key := key
    goal := "survey the field"
    rationale := "the draft needs it"
    dependencies := []
    successCriteria := [criterion]
    verificationPolicy := none
    allowedTools := []
    budget := Budget.unlimited
    priority := "1.0"
    outputs := []
    parentTaskIds := ["a"]
    role := "explorer" }

def surveys (first second third : Operation) : TaskGraphChange := ⟨"", [first, second, third]⟩

def accepts (change : TaskGraphChange) : Bool :=
  (validateChange plainHost openMission plainInputs twoWriters change).isOk

/-- The last retarget wins, and the scan misses twins that stand behind another task. -/
theorem orders_disagree :
    validateChange plainHost openMission plainInputs twoWriters (retargetTwice ["a"] []) =
      .ok (retargetedTwice ["a"] [] ["a"]) ∧
    validateChange plainHost openMission plainInputs twoWriters (retargetTwice [] ["a"]) =
      .ok (retargetedTwice [] ["a"] ["a", "b"]) ∧
    ¬ OrderFree plainHost openMission plainInputs twoWriters (retargetTwice ["a"] [])
      (retargetedTwice ["a"] [] ["a"]) ∧
    accepts (surveys (survey "x" "ten sources") (survey "y" "two sources")
      (survey "z" "two sources")) = true ∧
    accepts (surveys (survey "y" "two sources") (survey "x" "ten sources")
      (survey "z" "two sources")) = false := by
  refine ⟨by decide +kernel, by decide +kernel, ?_, by decide +kernel, by decide +kernel⟩
  intro free
  have once := free.once
  revert once
  decide +kernel

def mixedChange : TaskGraphChange :=
  ⟨"", [.retargetDependencies "b" ["x"], survey "x" "ten sources", .cancelTask "a" "surveyed"]⟩

theorem mixed_orderFree : ∃ validated,
    validateChange plainHost openMission plainInputs twoWriters mixedChange = .ok validated ∧
      validated.newNodes.map (·.key) = ["x"] ∧
      OrderFree plainHost openMission plainInputs twoWriters mixedChange validated := by
  have keys : (validateChange plainHost openMission plainInputs twoWriters mixedChange).toOption.map
      (fun validated => validated.newNodes.map (·.key)) = some ["x"] := by
    decide +kernel
  obtain ⟨validated, ok, key⟩ := toOption_map_eq_some.mp keys
  refine ⟨validated, ok, key, ?_⟩
  apply (validateChange_orderFree_iff plainHost openMission plainInputs twoWriters mixedChange
    validated ok).mpr
  refine ⟨⟨by decide +kernel, by decide +kernel, by decide +kernel⟩, ?_⟩
  rintro ⟨a, newA, b, newB, differ, _⟩
  have single : (proposedNodes plainInputs mixedChange).length = 1 := by decide +kernel
  obtain ⟨only, nodes⟩ := List.length_eq_one_iff.mp single
  rw [nodes, List.mem_singleton] at newA newB
  subst newA newB
  exact differ rfl

end Graph
