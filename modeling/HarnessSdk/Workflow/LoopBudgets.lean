import HarnessSdk.Workflow.Joins

/-! Loop budgets: which budget a superstep checks before it schedules a target over a feedback
edge, and which epoch the new task gets. -/
namespace Workflow
open PyDict PyText

/-- The nodes over whose edges a candidate schedules its target, with the epoch of their tasks:
the one source task, or every source of the join. -/
def Candidate.ScheduledOver (c : Candidate) (source : String) (epoch : Nat) : Prop :=
  match c.origin with
  | .direct => source = c.source.nodeId ∧ epoch = c.source.joinEpoch
  | .join edge n => source ∈ edge.sources ∧ epoch = n

section
variable (w : CompiledWorkflow)

/-- The budget is the one `validate_loop_budget` reads for the candidate, and it allows it. -/
def Checks (state : State) (c : Candidate) (budget : String) : Prop :=
  w.budgetOf c.source.nodeId c.target = some budget ∧ w.budgetAllows budget state

/-- Every bound edge a candidate schedules over has its budget checked, and raises the epoch. -/
def Guarded (snap : NativeSnapshot) (state : State) (c : Candidate) : Prop :=
  ∃ task, taskOf w snap state c = .ok task ∧
    ∀ source epoch budget, c.ScheduledOver source epoch →
      w.budgetOf source c.target = some budget →
      Checks w state c budget ∧ epoch < task.joinEpoch

def GuardedStep (snap : NativeSnapshot) (input : StepInput) : Prop :=
  ∀ p state snap', progress w snap input.route = .ok p →
    mergedState w snap input.patch = .ok state → superstep w snap input = .ok snap' →
    ∀ c ∈ p.candidates, Guarded w snap state c

/-- The key under which a task reports to one of its joins. -/
def pairKey (pair : NativeTask × Edge) : String := joinKey pair.2.target pair.1.joinEpoch

def tokensFor (pairs : List (NativeTask × Edge)) (key : String) : List String :=
  (pairs.filter (pairKey · = key)).map fun pair => token pair.1

def CompletesAt (snap : NativeSnapshot) (before : List (NativeTask × Edge))
    (pair : NativeTask × Edge) : Prop :=
  pair.2.satisfiedBy (completedAt snap.completedActivations (pairKey pair) ++
    tokensFor (before ++ [pair]) (pairKey pair))

/-- The join fires at this task: its key has not fired, and no report before this one completes a
join under the key. -/
def FiresAt (snap : NativeSnapshot) (before : List (NativeTask × Edge))
    (pair : NativeTask × Edge) : Prop :=
  pairKey pair ∉ snap.joinFirings ∧ CompletesAt snap before pair ∧
    ∀ first earlier, first ++ [earlier] <+: before → pairKey earlier = pairKey pair →
      ¬ CompletesAt snap first earlier

/-- Where a join with a bound source edge fires, the task that stands for the join has its own
edge into the target bound to the same budget, and is no epoch behind. -/
def BoundRepresentatives (snap : NativeSnapshot) : Prop :=
  ∀ before task edge,
    before ++ [(task, edge)] <+: joinPairs w (sortedBy (·.taskId) snap.frontier) →
    FiresAt snap before (task, edge) → ∀ source ∈ edge.sources, ∀ budget,
    w.budgetOf source edge.target = some budget →
    w.budgetOf (representative snap.frontier edge task).nodeId edge.target = some budget ∧
      task.joinEpoch ≤ (representative snap.frontier edge task).joinEpoch

end

section
variable {w : CompiledWorkflow} {snap : NativeSnapshot} {state : State} {c : Candidate}

/-- A candidate that is not a direct one comes from the report at which its join fires. -/
def Candidate.Fired (snap : NativeSnapshot) (pairs : List (NativeTask × Edge)) (c : Candidate) :
    Prop :=
  c.origin = .direct ∨ ∃ before task edge, before ++ [(task, edge)] <+: pairs ∧
    FiresAt snap before (task, edge) ∧ c.origin = .join edge task.joinEpoch ∧
    c.target = edge.target ∧ c.source = representative snap.frontier edge task

/-- What the progress holds once these reports are processed. -/
structure Traced (snap : NativeSnapshot) (pairs : List (NativeTask × Edge)) (p : Progress) :
    Prop where
  tokens : ∀ key v, v ∈ completedAt p.completed key ↔
    v ∈ completedAt snap.completedActivations key ++ tokensFor pairs key
  fired : ∀ key, key ∈ p.firings ↔ key ∈ snap.joinFirings ∨
    ∃ first pair, first ++ [pair] <+: pairs ∧ pairKey pair = key ∧ CompletesAt snap first pair
  joins : ∀ c ∈ p.candidates, c.Fired snap pairs

theorem mem_tokensFor_snoc {pairs : List (NativeTask × Edge)} {pair : NativeTask × Edge}
    {key v : String} : v ∈ tokensFor (pairs ++ [pair]) key ↔
      v ∈ tokensFor pairs key ∨ pairKey pair = key ∧ v = token pair.1 := by
  by_cases same : pairKey pair = key <;> simp [tokensFor, List.filter_append, same]

theorem Traced.join {pairs : List (NativeTask × Edge)} {p : Progress} {task : NativeTask}
    {edge : Edge} (traced : Traced snap pairs p) :
    Traced snap (pairs ++ [(task, edge)]) (joinStep snap task p edge) := by
  obtain ⟨completed, cases⟩ := joinStep_cases snap task p edge
  have values : ∀ v, v ∈ addToken (completedAt p.completed (joinKey edge.target task.joinEpoch))
      (token task) ↔ v ∈ completedAt snap.completedActivations (pairKey (task, edge)) ++
        tokensFor (pairs ++ [(task, edge)]) (pairKey (task, edge)) := by
    intro v
    rw [mem_addToken, traced.tokens, List.mem_append, List.mem_append, mem_tokensFor_snoc,
      or_assoc]
    simp [pairKey]
  have completes : edge.satisfiedBy (addToken (completedAt p.completed
      (joinKey edge.target task.joinEpoch)) (token task)) ↔ CompletesAt snap pairs (task, edge) :=
    ⟨Edge.satisfiedBy_mono fun v hv => (values v).mp hv,
      Edge.satisfiedBy_mono fun v hv => (values v).mpr hv⟩
  have old : ∀ c ∈ p.candidates, c.Fired snap (pairs ++ [(task, edge)]) := by
    intro c hc
    rcases traced.joins c hc with direct | ⟨before, t, e, among, rest⟩
    · exact Or.inl direct
    · exact Or.inr ⟨before, t, e, among.trans (List.prefix_append ..), rest⟩
  have earlier : ∀ key, (∃ first pair, first ++ [pair] <+: pairs ++ [(task, edge)] ∧
      pairKey pair = key ∧ CompletesAt snap first pair) ↔
        (∃ first pair, first ++ [pair] <+: pairs ∧ pairKey pair = key ∧ CompletesAt snap first pair) ∨
          pairKey (task, edge) = key ∧ CompletesAt snap pairs (task, edge) := by
    intro key
    constructor
    · rintro ⟨first, pair, among, same, complete⟩
      rcases List.prefix_concat_iff.mp among with here | before
      · obtain ⟨rfl, rfl⟩ := List.append_singleton_inj.mp here
        exact Or.inr ⟨same, complete⟩
      · exact Or.inl ⟨first, pair, before, same, complete⟩
    · rintro (⟨first, pair, before, rest⟩ | ⟨same, complete⟩)
      · exact ⟨first, pair, before.trans (List.prefix_append ..), rest⟩
      · exact ⟨pairs, _, List.prefix_rfl, same, complete⟩
  refine ⟨?_, ?_, ?_⟩
  · intro key v
    rw [completed, completedAt_set]
    split
    · rename_i same
      rw [← same]
      exact values v
    · rename_i different
      rw [traced.tokens, List.mem_append, List.mem_append, mem_tokensFor_snoc]
      simp [pairKey, different]
  · intro key
    rw [earlier, ← or_assoc, ← traced.fired, ← completes]
    rcases cases with ⟨satisfied, _, firings, _⟩ | ⟨idle, firings, _⟩
    · rw [firings, mem_snoc]
      simp [satisfied, pairKey, eq_comm]
    · rw [firings]
      refine ⟨Or.inl, ?_⟩
      rintro (fired | ⟨rfl, satisfied⟩)
      · exact fired
      · by_contra fresh
        exact idle ⟨satisfied, fresh⟩
  · intro c hc
    rcases cases with ⟨satisfied, fresh, _, parts, candidates⟩ | ⟨_, _, candidates⟩
    · rw [candidates] at hc
      rcases mem_snoc.mp hc with before | rfl
      · exact old c before
      · have unfired := (not_congr (traced.fired _)).mp fresh
        refine Or.inr ⟨pairs, task, edge, List.prefix_rfl, ⟨fun fired => unfired (Or.inl fired),
          completes.mp satisfied, ?_⟩, rfl, rfl, rfl⟩
        intro first other among same complete
        exact unfired (Or.inr ⟨first, other, among, same, complete⟩)
    · rw [candidates] at hc
      exact old c hc

theorem progress_traced {route : NativeTask → Engine String} {p : Progress}
    (done : progress w snap route = .ok p) :
    Traced snap (joinPairs w (sortedBy (·.taskId) snap.frontier)) p := by
  have start : Traced snap [] ⟨snap.completedActivations, snap.joinFirings, []⟩ :=
    ⟨by simp [tokensFor], by simp, by simp⟩
  have inside : ∀ task ∈ sortedBy (·.taskId) snap.frontier, task ∈ snap.frontier := by
    intro task ht
    exact (mem_sortedBy _ _ _).mp ht
  refine collect_invariant (Traced snap) ?_ (fun _ _ _ _ _ _ traced => traced.join) inside [] start
    done
  intro pairs p task targets _ _ traced
  refine ⟨traced.tokens, traced.fired, ?_⟩
  intro c hc
  rcases List.mem_append.mp hc with old | new
  · exact traced.joins c old
  · obtain ⟨target, _, rfl⟩ := List.mem_map.mp new
    exact Or.inl rfl

theorem validateLoopBudget_eq_ok {source target budget : String}
    (checked : w.validateLoopBudget source target state = .ok ())
    (bound : w.budgetOf source target = some budget) : w.budgetAllows budget state := by
  rw [CompiledWorkflow.validateLoopBudget, bound] at checked
  by_contra refused
  simp [refused] at checked

theorem guarded_of_source {task : NativeTask} {budget : String}
    (made : taskOf w snap state c = .ok task)
    (bound : w.budgetOf c.source.nodeId c.target = some budget) :
    Checks w state c budget ∧ c.source.joinEpoch < task.joinEpoch := by
  obtain ⟨checked, _, epoch, _⟩ := taskOf_eq_ok made
  refine ⟨⟨bound, validateLoopBudget_eq_ok checked bound⟩, ?_⟩
  have cycle : w.isCycleEdge c.source.nodeId c.target = true := by
    simp [CompiledWorkflow.isCycleEdge, bound]
  rw [epoch, scheduledEpoch, if_pos cycle]
  omega

theorem guarded_of_fired {task : NativeTask} (represented : BoundRepresentatives w snap)
    (fired : c.Fired snap (joinPairs w (sortedBy (·.taskId) snap.frontier)))
    (made : taskOf w snap state c = .ok task) : Guarded w snap state c := by
  refine ⟨task, made, ?_⟩
  intro source epoch budget scheduled bound
  rcases fired with direct | ⟨before, reporter, edge, among, fires, origin, target, rep⟩
  · rw [Candidate.ScheduledOver, direct] at scheduled
    obtain ⟨rfl, rfl⟩ := scheduled
    exact guarded_of_source made bound
  · rw [Candidate.ScheduledOver, origin] at scheduled
    obtain ⟨inside, rfl⟩ := scheduled
    rw [target] at bound
    obtain ⟨same, behind⟩ := represented before reporter edge among fires source inside budget bound
    rw [← rep, ← target] at same
    obtain ⟨checked, raised⟩ := guarded_of_source made same
    rw [← rep] at behind
    exact ⟨checked, by omega⟩

end

/-- Every run in which each join that fires is represented by a source bound like its other
sources is a run of guarded supersteps. -/
theorem loop_budgets_guard {w : CompiledWorkflow} {inv : Invocation} {snap : NativeSnapshot}
    {done : List NativeTask} {fired : List Edge}
    (run : Run w inv (fun snap _ => BoundRepresentatives w snap) snap done fired) :
    Run w inv (GuardedStep w) snap done fired := by
  refine run.mono ?_
  intro snap input represented p state snap' collected merged committed c hc
  obtain ⟨state', next, _, merged', scheduled, _⟩ := superstep_eq_ok committed
  obtain rfl : state = state' := Except.ok.inj (merged.symm.trans merged')
  obtain ⟨q, collected', all, _⟩ := nextFrontier_tasks scheduled
  obtain rfl : p = q := Except.ok.inj (collected.symm.trans collected')
  obtain ⟨task, made⟩ := all c hc
  exact guarded_of_fired represented ((progress_traced collected).joins c hc) made

/-! ### A merge whose sources share one budget -/

/-- A draft, its review, and a merge of both that sends the draft back; both edges into the merge
and the one back are bound to the budget. -/
def balancedLoop : WorkflowDefinition := {
  reviewedDraft with
  name := "balanced_loop"
  edges := [⟨⟨["draft"], "review"⟩, draftEdge_ok⟩, mergeEdge, ⟨⟨["merge"], "draft"⟩, by decide⟩]
  loopBudgets := [("rounds", 1)]
  loopBudgetBindings := [("draft->merge", "rounds"), ("merge->draft", "rounds"),
    ("review->merge", "rounds")] }

def balancedWorkflow : CompiledWorkflow :=
  ⟨balancedLoop, by decide +kernel, [(("draft", "merge"), "rounds"), (("merge", "draft"), "rounds"),
    (("review", "merge"), "rounds")], by decide +kernel⟩

theorem balanced_reviewing : Reviewing balancedWorkflow := by
  constructor <;> decide +kernel

theorem balanced_represented {snap : NativeSnapshot} {task : NativeTask}
    (alone : snap.frontier = [task]) : BoundRepresentatives balancedWorkflow snap := by
  intro before reporter edge among _ source _ budget bound
  have inside := among.subset (List.mem_append_right before (List.mem_singleton_self _))
  obtain ⟨here, listed, reports⟩ := mem_joinPairs.mp inside
  have only : reporter = task := by
    rw [mem_sortedBy, alone] at here
    exact List.mem_singleton.mp here
  subst only
  rw [balanced_reviewing.joins, List.mem_singleton] at listed
  subst listed
  rw [representative_alone mergeEdge alone]
  refine ⟨?_, Nat.le_refl _⟩
  have each : ∀ source ∈ mergeEdge.sources,
      balancedWorkflow.budgetOf source mergeEdge.target = some "rounds" := by
    decide +kernel
  rw [each _ reports, ← bound, each source ‹_›]

theorem loop_budgets_guard_balanced :
    ∃ snap draft review,
      Run balancedWorkflow plainInvocation (fun snap _ => BoundRepresentatives balancedWorkflow
        snap) snap [draft, review] [mergeEdge] ∧
      Run balancedWorkflow plainInvocation (GuardedStep balancedWorkflow) snap [draft, review]
        [mergeEdge] := by
  obtain ⟨snap, draft, review, run, _⟩ := @Reviewing.fires
    (fun snap _ => BoundRepresentatives balancedWorkflow snap) _ balanced_reviewing [] rfl
    (fun _ _ alone => balanced_represented alone) (by decide +kernel)
  exact ⟨snap, draft, review, run, loop_budgets_guard run⟩

/-! ### A bound source edge that is not checked -/

/-- The same loop with the edge from the review unbound. -/
def reworkLoop : WorkflowDefinition :=
  { balancedLoop with
    name := "rework_loop"
    loopBudgetBindings := [("draft->merge", "rounds"), ("merge->draft", "rounds")] }

theorem reworkLoop_accepted : validateDefinition reworkLoop = .ok () := by decide +kernel

def reworkBindings : List (EdgeKey × String) :=
  [(("draft", "merge"), "rounds"), (("merge", "draft"), "rounds")]

theorem reworkLoop_bound :
    cycleBindings reworkLoop (adjacencyOf reworkLoop false) = .ok reworkBindings := by
  decide +kernel

def reworkWorkflow : CompiledWorkflow :=
  ⟨reworkLoop, reworkLoop_accepted, reworkBindings, reworkLoop_bound⟩

/-- The counter is already far beyond the budget of one round. -/
def spentInvocation : Invocation :=
  { plainInvocation with state := [("loop_counters", .obj [("rounds", .int 5)])] }

theorem reworkLoop_facts :
    reworkWorkflow.budgetOf "draft" "merge" = some "rounds" ∧
    reworkWorkflow.budgetOf "review" "merge" = none ∧
    reworkWorkflow.budgetAllows "rounds" spentInvocation.state = false := by
  decide +kernel

theorem rework_reviewing : Reviewing reworkWorkflow := by
  constructor <;> decide +kernel

/-- The rework loop is accepted; its merge is scheduled with the budget of the draft's edge long
spent, and at the epoch of the draft itself. -/
theorem reworkLoop_bypasses_budget :
    compileWorkflow reworkLoop = .ok reworkWorkflow ∧
    ∃ snap done fired input snap',
      Run reworkWorkflow spentInvocation anyStep snap done fired ∧ snap.frontier ≠ [] ∧
      reworkWorkflow.budgetAllows "rounds" snap.state = false ∧
      snap.step < reworkWorkflow.definition.maxSupersteps ∧
      superstep reworkWorkflow snap input = .ok snap' ∧
      ¬ GuardedStep reworkWorkflow snap input := by
  refine ⟨compileWorkflow_ok reworkLoop_accepted reworkLoop_bound, ?_⟩
  obtain ⟨draftBound, reviewFree, spent⟩ := reworkLoop_facts
  obtain ⟨s1, draft, review, run1, alone, _, node1, _, _, state1, step1, parts, collected⟩ :=
    @Reviewing.run anyStep _ rework_reviewing spentInvocation.state rfl (fun _ _ _ => trivial)
  obtain ⟨plain1, known1, _⟩ := rework_reviewing.each ("review", []) (by simp)
  have within1 : s1.step < reworkWorkflow.definition.maxSupersteps := by
    rw [step1]
    decide
  obtain ⟨s2, committed, _⟩ := run1.chainStep trivial alone (by rw [state1]; rfl) within1
    (by rw [node1]; exact known1) (by rw [node1]; exact plain1) collected (Or.inr ⟨_, rfl⟩)
    (by
      intro c hc
      obtain rfl := List.mem_singleton.mp hc
      refine ⟨?_, show strip "merge" = "merge" by decide +kernel, by simp,
        strip_stableId_ne_empty _⟩
      rw [node1, CompiledWorkflow.validateLoopBudget, reviewFree])
  refine ⟨s1, _, _, _, s2, run1, by simp [alone], by rw [state1]; exact spent, within1, committed,
    ?_⟩
  intro guarded
  obtain ⟨state, _, _, merged, _⟩ := superstep_eq_ok committed
  have listed : (⟨"merge", review, stableId parts, .join mergeEdge review.joinEpoch⟩ : Candidate) ∈
      (singleProgress reworkWorkflow s1 review).candidates := by
    simp [collected]
  obtain ⟨task, _, guard⟩ := guarded _ state s2
    (progress_single _ alone (by rw [node1]; exact plain1)) merged committed _ listed
  obtain ⟨⟨bound, _⟩, _⟩ := guard "draft" review.joinEpoch "rounds" ⟨by decide, rfl⟩ draftBound
  rw [node1, reviewFree] at bound
  cases bound

end Workflow
