import HarnessSdk.Library.Checks
import HarnessSdk.Workflow.Runs

/-! Joins over whole runs: what the recorded tokens and firings say about the tasks completed so
far, and when no join is lost. -/
namespace Workflow
open PyDict PyText

/-- Every source of the join has completed a task at this epoch. -/
def Meets (done : List NativeTask) (edge : Edge) (epoch : Nat) : Prop :=
  ∀ source ∈ edge.sources, ∃ task ∈ done, task.nodeId = source ∧ task.joinEpoch = epoch

def SourcesDone (done : List NativeTask) (edge : Edge) : Prop :=
  ∀ source ∈ edge.sources, ∃ task ∈ done, task.nodeId = source

def NoJoinLost (w : CompiledWorkflow) (done : List NativeTask) (fired : List Edge) : Prop :=
  ∀ edge ∈ w.joinEdges, SourcesDone done edge → edge ∈ fired

/-- A join whose sources are all done can be told apart from the other joins into its target: no
source of these has a colon in its id, and at some epoch this join alone has all its sources. -/
def JoinsMeet (w : CompiledWorkflow) (done : List NativeTask) : Prop :=
  ∀ edge ∈ w.joinEdges, SourcesDone done edge →
    (∀ other ∈ w.joinEdges, other.target = edge.target →
      ∀ source ∈ other.sources, ':' ∉ source.toList) ∧
    ∃ epoch, Meets done edge epoch ∧
      ∀ other ∈ w.joinEdges, other.target = edge.target → other ≠ edge → ¬ Meets done other epoch

def joinPairs (w : CompiledWorkflow) (tasks : List NativeTask) : List (NativeTask × Edge) :=
  tasks.flatMap fun task => (w.joinEdgesFor task.nodeId).map (task, ·)

/-- What `completed_activations` and `join_firings` hold after the pairs processed so far. -/
structure JoinLedger (pairs : List (NativeTask × Edge)) (fired : List Edge)
    (completed : Dict String (List String)) (firings : List String) : Prop where
  distinct : (keys completed).Nodup
  recorded : ∀ pair ∈ pairs,
    token pair.1 ∈ completedAt completed (joinKey pair.2.target pair.1.joinEpoch)
  reported : ∀ key, ∀ v ∈ completedAt completed key, ∃ pair ∈ pairs,
    v = token pair.1 ∧ key = joinKey pair.2.target pair.1.joinEpoch
  complete : ∀ edge epoch, (∀ source ∈ edge.sources, ':' ∉ source.toList) → edge.sources ≠ [] →
    (∀ source ∈ edge.sources, ∃ task, (task, edge) ∈ pairs ∧ task.nodeId = source ∧
      task.joinEpoch = epoch) → joinKey edge.target epoch ∈ firings
  sound : ∀ key ∈ firings, ∃ edge ∈ fired, ∃ epoch, key = joinKey edge.target epoch ∧
    edge.satisfiedBy (completedAt completed key)

theorem JoinLedger.empty : JoinLedger [] [] [] [] where
  distinct := by simp [keys]
  recorded := by simp
  reported := by simp [completedAt]
  complete := by
    intro edge epoch _ nonempty all
    obtain ⟨source, hs⟩ := List.exists_mem_of_ne_nil _ nonempty
    obtain ⟨task, found, _⟩ := all source hs
    cases found
  sound := by simp

variable {task : NativeTask} {Cond : NativeSnapshot → StepInput → Prop}

theorem token_split (plain : ':' ∉ task.nodeId.toList) :
    splitOnce ':' (token task) = (task.nodeId, task.taskId) :=
  splitOnce_append plain task.taskId

section
variable {w : CompiledWorkflow} {snap : NativeSnapshot} {pairs : List (NativeTask × Edge)}
  {fired : List Edge}

def firedBy (fired : List Edge) (p : Progress) : List Edge :=
  fired ++ p.candidates.filterMap firedEdge

variable {completed : Dict String (List String)}

theorem satisfied_of_recorded {edge : Edge} (task : NativeTask)
    (recorded : ∀ pair ∈ pairs, token pair.1 ∈ completedAt completed (joinKey pair.2.target
      pair.1.joinEpoch)) (plain : ∀ source ∈ edge.sources, ':' ∉ source.toList)
    (all : ∀ source ∈ edge.sources, ∃ other, (other, edge) ∈ pairs ++ [(task, edge)] ∧
      other.nodeId = source ∧ other.joinEpoch = task.joinEpoch) :
    edge.satisfiedBy (addToken
      (completedAt completed (joinKey edge.target task.joinEpoch)) (token task)) := by
  intro source hs
  obtain ⟨other, found, rfl, sameEpoch⟩ := all source hs
  have split := token_split (plain other.nodeId hs)
  refine (mem_keys_sourceTasks _ _).mpr ⟨token other, ?_, by rw [split]⟩
  rw [mem_addToken]
  rcases List.mem_append.mp found with old | new
  · left
    have here := recorded (other, edge) old
    rwa [sameEpoch] at here
  · right
    obtain ⟨rfl, _⟩ := Prod.mk.inj (List.mem_singleton.mp new)
    rfl

theorem JoinLedger.join {p : Progress} {task : NativeTask} {edge : Edge}
    (ledger : JoinLedger pairs (firedBy fired p) p.completed p.firings) :
    JoinLedger (pairs ++ [(task, edge)]) (firedBy fired (joinStep snap task p edge))
      (joinStep snap task p edge).completed (joinStep snap task p edge).firings := by
  obtain ⟨completed, cases⟩ := joinStep_cases snap task p edge
  have grows : ∀ key, ∀ v ∈ completedAt p.completed key,
      v ∈ completedAt (joinStep snap task p edge).completed key := by
    intro key v hv
    rw [completed, completedAt_set]
    split
    · rename_i same
      rw [mem_addToken, same]
      exact Or.inl hv
    · exact hv
  have firingsGrow : ∀ key ∈ p.firings, key ∈ (joinStep snap task p edge).firings := by
    intro key hk
    rcases cases with ⟨_, _, firings, _⟩ | ⟨_, firings, _⟩
    · rw [firings]
      exact List.mem_append_left _ hk
    · rw [firings]
      exact hk
  have oldSound : ∀ key ∈ p.firings, ∃ other ∈ firedBy fired (joinStep snap task p edge),
      ∃ epoch, key = joinKey other.target epoch ∧
        other.satisfiedBy (completedAt (joinStep snap task p edge).completed key) := by
    intro key hk
    obtain ⟨other, hother, epoch, rfl, satisfied⟩ := ledger.sound key hk
    refine ⟨other, ?_, epoch, rfl, Edge.satisfiedBy_mono (grows _) satisfied⟩
    rcases cases with ⟨_, _, _, _, candidates⟩ | ⟨_, _, candidates⟩
    · rw [firedBy, candidates, List.filterMap_append, ← List.append_assoc]
      exact List.mem_append_left _ hother
    · rw [firedBy, candidates]
      exact hother
  refine ⟨?_, ?_, ?_, ?_, ?_⟩
  · rw [completed]
    exact keys_set_nodup _ _ ledger.distinct
  · intro pair hp
    rcases mem_snoc.mp hp with old | rfl
    · exact grows _ _ (ledger.recorded pair old)
    · rw [completed, completedAt_set, if_pos rfl, mem_addToken]
      exact Or.inr rfl
  · intro key v hv
    rw [completed, completedAt_set] at hv
    split at hv
    · rename_i same
      rcases (mem_addToken _ _ _).mp hv with old | rfl
      · obtain ⟨pair, hpair, rest⟩ := ledger.reported key v (same ▸ old)
        exact ⟨pair, List.mem_append_left _ hpair, rest⟩
      · exact ⟨(task, edge), by simp, rfl, same.symm⟩
    · obtain ⟨pair, hpair, rest⟩ := ledger.reported key v hv
      exact ⟨pair, List.mem_append_left _ hpair, rest⟩
  · intro other epoch plain nonempty all
    -- either the new pair plays no part for this join and epoch, or it is the one just checked
    by_cases new : other = edge ∧ epoch = task.joinEpoch
    · obtain ⟨rfl, rfl⟩ := new
      have satisfied := satisfied_of_recorded task ledger.recorded plain all
      rcases cases with ⟨_, _, firings, _⟩ | ⟨idle, firings, _⟩
      · rw [firings]
        simp
      · rw [firings]
        by_contra unfired
        exact idle ⟨satisfied, unfired⟩
    · apply firingsGrow
      refine ledger.complete other epoch plain nonempty ?_
      intro source hs
      obtain ⟨t, found, hnode, hepoch⟩ := all source hs
      rcases List.mem_append.mp found with old | last
      · exact ⟨t, old, hnode, hepoch⟩
      · obtain ⟨rfl, rfl⟩ := Prod.mk.inj (List.mem_singleton.mp last)
        exact absurd ⟨rfl, hepoch.symm⟩ new
  · intro key hk
    rcases cases with ⟨satisfied, fresh, firings, parts, candidates⟩ | ⟨_, firings, _⟩
    · rw [firings] at hk
      rcases mem_snoc.mp hk with old | rfl
      · exact oldSound key old
      · refine ⟨edge, ?_, task.joinEpoch, rfl, ?_⟩
        · rw [firedBy, candidates, List.filterMap_append]
          simp [firedEdge]
        · rw [completed, completedAt_set, if_pos rfl]
          exact satisfied
    · exact oldSound key (firings ▸ hk)

theorem completedAt_sorted (distinct : (keys completed).Nodup) (key v : String) :
    v ∈ completedAt ((sortedBy Prod.fst completed).map fun entry => (entry.1, sorted entry.2)) key ↔
      v ∈ completedAt completed key := by
  have found := get?_of_perm (perm_sortedBy Prod.fst completed).symm distinct key
  unfold completedAt
  rw [get?_map, found]
  cases get? completed key <;> simp

variable {firings : List String}

theorem JoinLedger.sorted (ledger : JoinLedger pairs fired completed firings) :
    JoinLedger pairs fired
      ((sortedBy Prod.fst completed).map fun entry => (entry.1, PyText.sorted entry.2))
      (PyText.sorted firings) := by
  have members := completedAt_sorted ledger.distinct
  refine ⟨?_, ?_, ?_, ?_, ?_⟩
  · have sameKeys : keys ((sortedBy Prod.fst completed).map fun entry =>
        (entry.1, PyText.sorted entry.2)) = keys (sortedBy Prod.fst completed) := by
      simp [keys]
    rw [sameKeys]
    exact ((perm_sortedBy Prod.fst completed).map Prod.fst).nodup_iff.mpr ledger.distinct
  · intro pair hp
    exact (members _ _).mpr (ledger.recorded pair hp)
  · intro key v hv
    exact ledger.reported key v ((members key v).mp hv)
  · intro edge epoch plain nonempty all
    exact (mem_sorted _ _).mpr (ledger.complete edge epoch plain nonempty all)
  · intro key hk
    obtain ⟨edge, hedge, epoch, rfl, satisfied⟩ := ledger.sound key ((mem_sorted _ _).mp hk)
    exact ⟨edge, hedge, epoch, rfl,
      Edge.satisfiedBy_mono (fun v hv => (members _ v).mpr hv) satisfied⟩

theorem JoinLedger.congr {pairs' : List (NativeTask × Edge)}
    (same : ∀ pair, pair ∈ pairs ↔ pair ∈ pairs')
    (ledger : JoinLedger pairs fired completed firings) :
    JoinLedger pairs' fired completed firings := by
  refine ⟨ledger.distinct, ?_, ?_, ?_, ledger.sound⟩
  · intro pair hp
    exact ledger.recorded pair ((same pair).mpr hp)
  · intro key v hv
    obtain ⟨pair, hp, rest⟩ := ledger.reported key v hv
    exact ⟨pair, (same pair).mp hp, rest⟩
  · intro edge epoch plain nonempty all
    refine ledger.complete edge epoch plain nonempty fun source hs => ?_
    obtain ⟨task, hp, rest⟩ := all source hs
    exact ⟨task, (same _).mpr hp, rest⟩

theorem JoinLedger.collected {done : List NativeTask} {route : NativeTask → Engine String}
    {p : Progress}
    (ledger : JoinLedger (joinPairs w done) fired snap.completedActivations snap.joinFirings)
    (collected : progress w snap route = .ok p) :
    JoinLedger (joinPairs w (done ++ sortedBy (·.taskId) snap.frontier)) (firedBy fired p)
      p.completed p.firings := by
  have start : JoinLedger (joinPairs w done)
      (firedBy fired ⟨snap.completedActivations, snap.joinFirings, []⟩)
      snap.completedActivations snap.joinFirings := by
    simpa [firedBy] using ledger
  have inside : ∀ task ∈ sortedBy (·.taskId) snap.frontier, task ∈ snap.frontier := by
    intro task ht
    exact (mem_sortedBy _ _ _).mp ht
  have whole := collect_invariant
    (fun pairs p => JoinLedger pairs (firedBy fired p) p.completed p.firings)
    (by
      intro pairs p task targets _ _ inv
      simpa [firedBy, directCandidates_filterMap (f := firedEdge) fun _ _ => rfl] using inv)
    (fun _ _ _ _ _ _ inv => inv.join) inside (joinPairs w done) start collected
  simpa [joinPairs] using whole

theorem JoinLedger.superstep {done : List NativeTask} {snap' : NativeSnapshot}
    {input : StepInput} {p : Progress}
    (ledger : JoinLedger (joinPairs w done) fired snap.completedActivations snap.joinFirings)
    (collected : progress w snap input.route = .ok p)
    (committed : superstep w snap input = .ok snap') :
    JoinLedger (joinPairs w (done ++ snap.frontier)) (firedBy fired p)
      snap'.completedActivations snap'.joinFirings := by
  obtain ⟨state, next, _, _, scheduled, _, _, rfl⟩ := superstep_eq_ok committed
  obtain ⟨q, _, hq, _, _, completed, firings⟩ := nextFrontier_eq_ok scheduled
  obtain rfl : p = q := Except.ok.inj (collected.symm.trans hq)
  have result := (ledger.collected collected).sorted
  rw [← completed, ← firings] at result
  refine result.congr fun pair => ?_
  simp [joinPairs]

end

variable {w : CompiledWorkflow} {inv : Invocation} {snap : NativeSnapshot} {done : List NativeTask}
  {fired : List Edge} {edge : Edge}

theorem run_ledger (run : Run w inv Cond snap done fired) :
    JoinLedger (joinPairs w done) fired snap.completedActivations snap.joinFirings := by
  induction run with
  | genesis start =>
    obtain ⟨_, _, _, completed, firings, _⟩ := genesis_eq_ok start
    rw [completed, firings]
    exact JoinLedger.empty
  | step input _ _ _ _ collected committed ih => exact ih.superstep collected committed

theorem mem_joinPairs :
    (task, edge) ∈ joinPairs w done ↔
      task ∈ done ∧ edge ∈ w.joinEdges ∧ task.nodeId ∈ edge.sources := by
  simp [joinPairs, CompiledWorkflow.joinEdgesFor]

theorem sources_ne_nil (edge : Edge) : edge.sources ≠ [] := by
  intro empty
  have valid := edge.valid
  simp [EdgeFields.postInit, empty, definitionErrorText, definitionError, bind, Except.bind] at valid

theorem meets_of_satisfied {completed : Dict String (List String)} {firings : List String}
    (ledger : JoinLedger (joinPairs w done) fired completed firings) {epoch : Nat}
    (plain : ∀ other ∈ w.joinEdges, other.target = edge.target → ∀ source ∈ other.sources, ':' ∉
      source.toList)
    (satisfied : edge.satisfiedBy (completedAt completed (joinKey edge.target epoch))) :
    Meets done edge epoch := by
  intro source hs
  obtain ⟨v, hv, first⟩ := (mem_keys_sourceTasks _ _).mp (satisfied source hs)
  obtain ⟨⟨task, other⟩, hpair, rfl, sameKey⟩ := ledger.reported _ v hv
  obtain ⟨inside, hother, among⟩ := mem_joinPairs.mp hpair
  obtain ⟨sameTarget, sameEpoch⟩ := joinKey_inj sameKey
  rw [token_split (plain other hother sameTarget.symm _ among)] at first
  exact ⟨task, inside, first, sameEpoch.symm⟩

theorem firedEdge_mem (run : Run w inv Cond snap done fired) :
    ∀ edge ∈ fired, edge ∈ w.joinEdges := by
  induction run with
  | genesis => simp
  | step input _ _ _ _ collected _ ih =>
    intro edge hedge
    rcases List.mem_append.mp hedge with old | new
    · exact ih edge old
    · obtain ⟨c, hc, hfired⟩ := List.mem_filterMap.mp new
      rcases (progress_collected collected).justified c hc
        with ⟨direct, _⟩ | ⟨e, task, origin, asks, _⟩
      · obtain ⟨_, _, _, o⟩ := c
        cases direct
        cases hfired
      · obtain ⟨_, _, _, o⟩ := c
        cases origin
        cases hfired
        exact (List.mem_filter.mp asks.2.1).1

/-- In every run, joins that can be told apart and whose sources meet at some epoch all fire. -/
theorem no_join_lost {w : CompiledWorkflow} {inv : Invocation} {snap : NativeSnapshot}
    {done : List NativeTask} {fired : List Edge} (run : Run w inv anyStep snap done fired)
    (meet : JoinsMeet w done) : NoJoinLost w done fired := by
  have ledger := run_ledger run
  intro edge hedge sourcesDone
  obtain ⟨plain, epoch, met, alone⟩ := meet edge hedge sourcesDone
  have key : joinKey edge.target epoch ∈ snap.joinFirings := by
    refine ledger.complete edge epoch (plain edge hedge rfl) (sources_ne_nil edge) ?_
    intro source hs
    obtain ⟨task, inside, rfl, hepoch⟩ := met source hs
    exact ⟨task, mem_joinPairs.mpr ⟨inside, hedge, hs⟩, rfl, hepoch⟩
  obtain ⟨other, hother, n, sameKey, satisfied⟩ := ledger.sound _ key
  obtain ⟨sameTarget, rfl⟩ := joinKey_inj sameKey
  have otherMet : Meets done other epoch := by
    refine meets_of_satisfied ledger ?_ (by rwa [sameTarget] at satisfied)
    rw [← sameTarget]
    exact plain
  by_contra lost
  have different : other ≠ edge := by
    rintro rfl
    exact lost hother
  exact alone other (firedEdge_mem run other hother) sameTarget.symm different otherMet

/-! ### A join that fires -/

theorem draftNode_ok : ({ nodeId := "draft" } : NodeFields).postInit = .ok () := by decide

theorem reviewNode_ok : ({ nodeId := "review" } : NodeFields).postInit = .ok () := by decide

theorem mergeNode_ok : ({ nodeId := "merge" } : NodeFields).postInit = .ok () := by decide

theorem draftEdge_ok : (⟨["draft"], "review"⟩ : EdgeFields).postInit = .ok () := by decide

/-- A draft, its review, and a merge that waits for both. -/
def reviewedDraft : WorkflowDefinition where
  name := "reviewed_draft"
  version := "1"
  stateSchemaVersion := 1
  entryNode := "draft"
  nodes := [⟨{ nodeId := "draft" }, draftNode_ok⟩, ⟨{ nodeId := "review" }, reviewNode_ok⟩,
    ⟨{ nodeId := "merge" }, mergeNode_ok⟩]
  channels := []
  recursionLimit := 11
  maxSupersteps := 10
  edges := [⟨⟨["draft"], "review"⟩, draftEdge_ok⟩, ⟨⟨["draft", "review"], "merge"⟩, by decide⟩]

def reviewedDraftWorkflow : CompiledWorkflow :=
  ⟨reviewedDraft, by decide +kernel, [], by decide +kernel⟩

def mergeEdge : Edge := ⟨⟨["draft", "review"], "merge"⟩, by decide⟩

/-- A draft that leads to its review, and a merge that waits for both. -/
structure Reviewing (w : CompiledWorkflow) : Prop where
  entry : strip w.definition.entryNode = "draft"
  within : (2 : Int) ≤ w.definition.maxSupersteps
  joins : w.joinEdges = [mergeEdge]
  free : w.budgetOf "draft" "review" = none
  each : ∀ entry ∈ [("draft", ["review"]), ("review", [])],
    w.conditionalFor entry.1 = none ∧ (w.node entry.1).isSome ∧
      (w.singleTargets entry.1).filter (· ≠ endNode) = entry.2 ∧
      w.joinEdgesFor entry.1 = [mergeEdge]

theorem reviewedDraft_reviewing : Reviewing reviewedDraftWorkflow := by
  constructor <;> decide +kernel

theorem draft_waits (node : task.nodeId = "draft") (nothing : snap.completedActivations = [])
    (p : Progress) (start : p.completed = snap.completedActivations) :
    (joinStep snap task p mergeEdge).candidates = p.candidates := by
  rcases joinStep_cases snap task p mergeEdge with ⟨_, ⟨satisfied, _⟩ | ⟨_, _, candidates⟩⟩
  · obtain ⟨v, hv, first⟩ := (mem_keys_sourceTasks _ _).mp (satisfied "review" (by decide))
    rw [start, nothing] at hv
    have only : v = token task := by simpa [addToken, completedAt] using hv
    have plain : ':' ∉ task.nodeId.toList := by
      rw [node]
      decide
    rw [only, token_split plain, node] at first
    exact absurd first (show "draft" ≠ "review" by decide)
  · exact candidates

theorem representative_alone (edge : Edge) (alone : snap.frontier = [task]) :
    representative snap.frontier edge task = task := by
  rw [alone, representative]
  simp only [tasksByNode, ofEntries, update, List.map_cons, List.map_nil, List.foldl_cons,
    List.foldl_nil, PyDict.set, get?]
  split <;> rfl

theorem Reviewing.completes (reviewing : Reviewing w) {draft review : NativeTask}
    (alone : snap.frontier = [review]) (node0 : draft.nodeId = "draft")
    (node1 : review.nodeId = "review") (sameEpoch : draft.joinEpoch = review.joinEpoch)
    (ledger : JoinLedger (joinPairs w [draft]) [] snap.completedActivations snap.joinFirings) :
    ∃ parts, (singleProgress w snap review).candidates =
      [⟨"merge", review, stableId parts, .join mergeEdge review.joinEpoch⟩] := by
  obtain ⟨_, _, single, joins⟩ := reviewing.each ("review", []) (by simp)
  have nothing : directCandidates snap review (w.singleTargets "review") = [] := by
    simp only [directCandidates, single, List.map_nil]
  have plain : ∀ source ∈ mergeEdge.sources, ':' ∉ source.toList := by decide
  have pair : (draft, mergeEdge) ∈ joinPairs w [draft] := by
    refine mem_joinPairs.mpr ⟨by simp, ?_, ?_⟩
    · rw [reviewing.joins]
      simp
    · rw [node0]
      decide
  have satisfied := satisfied_of_recorded review ledger.recorded plain
    (by
      intro source hs
      simp only [mergeEdge, List.mem_cons, List.not_mem_nil, or_false] at hs
      rcases hs with rfl | rfl
      · exact ⟨draft, List.mem_append_left _ pair, node0, sameEpoch⟩
      · exact ⟨review, by simp, node1, rfl⟩)
  have unfired : joinKey mergeEdge.target review.joinEpoch ∉ snap.joinFirings := by
    intro fired
    obtain ⟨edge, none, _⟩ := ledger.sound _ fired
    cases none
  rw [singleProgress, node1, joins, nothing, List.foldl_cons, List.foldl_nil]
  rcases joinStep_cases snap review ⟨snap.completedActivations, snap.joinFirings, []⟩ mergeEdge
    with ⟨_, ⟨_, _, _, parts, candidates⟩ | ⟨idle, _⟩⟩
  · rw [representative_alone mergeEdge alone] at candidates
    exact ⟨parts, candidates⟩
  · exact absurd ⟨satisfied, unfired⟩ idle

theorem Reviewing.run (reviewing : Reviewing w) {state : State}
    (blobs : stateBlobRefs state = .ok ())
    (meets : ∀ snap task, snap.frontier = [task] → Cond snap (quietInput fun _ => .ok "")) :
    ∃ s1 draft review, Run w { plainInvocation with state := state } Cond s1 [draft] [] ∧
      s1.frontier = [review] ∧ draft.nodeId = "draft" ∧ review.nodeId = "review" ∧
      draft.joinEpoch = 0 ∧ review.joinEpoch = 0 ∧ s1.state = state ∧ s1.step = 1 ∧
      ∃ parts, (singleProgress w s1 review).candidates =
        [⟨"merge", review, stableId parts, .join mergeEdge review.joinEpoch⟩] := by
  obtain ⟨s0, start⟩ := genesis_ok w { plainInvocation with state := state }
    (by rw [reviewing.entry]; decide) (show strip "run" ≠ "" by decide +kernel)
    (show strip "thread" ≠ "" by decide +kernel)
  obtain ⟨t0, entry, f0, completed0, _, state0, step0, _⟩ := genesis_eq_ok start
  obtain ⟨_, node0, epoch0⟩ := entryTask_eq_ok entry
  have node0 : t0.nodeId = "draft" := node0.trans reviewing.entry
  obtain ⟨plain, known, single, joins⟩ := reviewing.each _ (List.mem_cons_self ..)
  have collected : (singleProgress w s0 t0).candidates =
      [⟨"review", t0, activationOf s0 t0, .direct⟩] := by
    rw [singleProgress, node0, joins, List.foldl_cons, List.foldl_nil,
      draft_waits node0 completed0 _ rfl]
    simp only [directCandidates, single]
    rfl
  have within := reviewing.within
  have run0 : Run w { plainInvocation with state := state } Cond s0 [] [] := .genesis start
  obtain ⟨s1, _, run1, state1, step1, _, one⟩ := run0.chainStep (meets s0 t0 f0) f0
    (by rw [state0]; exact blobs) (by rw [step0]; omega) (by rw [node0]; exact known)
    (by rw [node0]; exact plain) collected (Or.inr ⟨_, rfl⟩)
    (by
      intro c hc
      obtain rfl := List.mem_singleton.mp hc
      refine ⟨?_, show strip "review" = "review" by decide +kernel, by simp,
        strip_stableId_ne_empty _⟩
      rw [node0, CompiledWorkflow.validateLoopBudget, reviewing.free])
  obtain ⟨t1, f1, node1, epoch1⟩ := one _ rfl
  have epoch1 : t1.joinEpoch = 0 := by
    simp [epoch1, scheduledEpoch, CompiledWorkflow.isCycleEdge, node0, reviewing.free, epoch0]
  exact ⟨s1, t0, t1, run1, f1, node0, node1, epoch0, epoch1, state1.trans state0,
    by rw [step1, step0], reviewing.completes f1 node0 node1 (epoch0.trans epoch1.symm)
      (run_ledger run1)⟩

theorem Reviewing.fires (reviewing : Reviewing w) {state : State}
    (blobs : stateBlobRefs state = .ok ())
    (meets : ∀ snap task, snap.frontier = [task] → Cond snap (quietInput fun _ => .ok ""))
    (allowed : w.validateLoopBudget "review" "merge" state = .ok ()) :
    ∃ snap draft review, Run w { plainInvocation with state := state } Cond snap [draft, review]
      [mergeEdge] ∧ draft.nodeId = "draft" ∧ review.nodeId = "review" ∧ draft.joinEpoch = 0 ∧
      review.joinEpoch = 0 := by
  obtain ⟨s1, draft, review, run1, alone, node0, node1, epoch0, epoch1, state1, step1, parts,
    collected⟩ := reviewing.run blobs meets
  obtain ⟨plain, known, _⟩ := reviewing.each ("review", []) (by simp)
  have within := reviewing.within
  obtain ⟨s2, _, run2, _⟩ := run1.chainStep (meets s1 review alone) alone
    (by rw [state1]; exact blobs) (by rw [step1]; omega) (by rw [node1]; exact known)
    (by rw [node1]; exact plain) collected (Or.inr ⟨_, rfl⟩)
    (by
      intro c hc
      obtain rfl := List.mem_singleton.mp hc
      refine ⟨?_, show strip "merge" = "merge" by decide +kernel, by simp,
        strip_stableId_ne_empty _⟩
      rw [node1, state1]
      exact allowed)
  exact ⟨s2, draft, review, run2, node0, node1, epoch0, epoch1⟩

theorem reviewedDraft_fires :
    ∃ snap draft review, Run reviewedDraftWorkflow plainInvocation anyStep snap [draft, review]
      [mergeEdge] ∧ draft.nodeId = "draft" ∧ review.nodeId = "review" ∧ draft.joinEpoch = 0 ∧
      review.joinEpoch = 0 :=
  @Reviewing.fires anyStep _ reviewedDraft_reviewing [] rfl (fun _ _ _ => trivial)
    (validateLoopBudget_unbound rfl ..)

theorem no_join_lost_reviewedDraft :
    ∃ snap done fired, Run reviewedDraftWorkflow plainInvocation anyStep snap done fired ∧
      SourcesDone done mergeEdge ∧ JoinsMeet reviewedDraftWorkflow done ∧
      NoJoinLost reviewedDraftWorkflow done fired := by
  obtain ⟨snap, draft, review, run, node0, node1, epoch0, epoch1⟩ := reviewedDraft_fires
  have joins := reviewedDraft_reviewing.joins
  have tasks : ∀ source ∈ mergeEdge.sources, ∃ task ∈ [draft, review],
      task.nodeId = source ∧ task.joinEpoch = 0 := by
    intro source hs
    simp only [mergeEdge, List.mem_cons, List.not_mem_nil, or_false] at hs
    rcases hs with rfl | rfl
    · exact ⟨draft, by simp, node0, epoch0⟩
    · exact ⟨review, by simp, node1, epoch1⟩
  have meet : JoinsMeet reviewedDraftWorkflow [draft, review] := by
    intro edge hedge _
    rw [joins, List.mem_singleton] at hedge
    subst hedge
    refine ⟨?_, 0, tasks, ?_⟩
    · rw [joins]
      decide
    · intro other hother _ different
      rw [joins, List.mem_singleton] at hother
      exact absurd hother different
  refine ⟨snap, _, _, run, ?_, meet, no_join_lost run meet⟩
  intro source hs
  obtain ⟨task, inside, hnode, _⟩ := tasks source hs
  exact ⟨task, inside, hnode⟩

/-! ### No join fires early -/

variable {route : NativeTask → Engine String} {p : Progress}

theorem Collected.joined (sound : Collected w snap route p) :
    List.Forall₂ (fun edge key => ∃ epoch, key = joinKey edge.target epoch ∧
        JoinReady w snap edge epoch)
      (p.candidates.filterMap firedEdge) (p.candidates.filterMap firedKey) := by
  apply List.rel_filterMap (R := fun c c' => c = c' ∧ c ∈ p.candidates)
  · rintro ⟨_, _, _, o⟩ _ ⟨rfl, inside⟩
    rcases sound.justified _ inside with ⟨direct, _⟩ | ⟨edge, task, origin, asks, target, _⟩
    · cases direct
      exact .none
    · cases origin
      cases target
      exact .some ⟨task.joinEpoch, rfl, asks.2.2⟩
  · exact List.forall₂_same.mpr fun _ inside => ⟨rfl, inside⟩

/-- What the tokens of the frontier complete is recorded with them. -/
theorem JoinReady.meets {snap' : NativeSnapshot} {fired' : List Edge} {epoch : Nat}
    (ready : JoinReady w snap edge epoch)
    (ledger : JoinLedger (joinPairs w done) fired snap.completedActivations snap.joinFirings)
    (later : JoinLedger (joinPairs w (done ++ snap.frontier)) fired' snap'.completedActivations
      snap'.joinFirings)
    (plain : ∀ other ∈ w.joinEdges, ∀ source ∈ other.sources, ':' ∉ source.toList) :
    Meets (done ++ snap.frontier) edge epoch := by
  refine meets_of_satisfied later (fun other inside _ => plain other inside)
    (Edge.satisfiedBy_mono ?_ ready.2)
  intro v recorded
  rw [joinPairs, List.flatMap_append] at later
  rcases List.mem_append.mp recorded with old | new
  · obtain ⟨pair, known, rfl, same⟩ := ledger.reported _ v old
    exact same ▸ later.recorded pair (List.mem_append_left _ known)
  · obtain ⟨task, reports, rfl⟩ := List.mem_map.mp new
    obtain ⟨inside, among⟩ := List.mem_filter.mp reports
    obtain ⟨other, listed, same⟩ := of_decide_eq_true among
    exact same ▸ later.recorded (task, other) (List.mem_append_right _
      (List.mem_flatMap.mpr ⟨task, inside, List.mem_map_of_mem listed⟩))

/-- The joins fired along a run take different keys, and at the epoch of its key each has all its
sources: none fires early, and none fires twice. -/
theorem no_join_early (run : Run w inv Cond snap done fired)
    (plain : ∀ edge ∈ w.joinEdges, ∀ source ∈ edge.sources, ':' ∉ source.toList) :
    ∃ keys : List String, keys.Nodup ∧ keys.Perm snap.joinFirings ∧ List.Forall₂
      (fun edge key => ∃ epoch, key = joinKey edge.target epoch ∧ Meets done edge epoch)
        fired keys := by
  induction run with
  | genesis start =>
    obtain ⟨_, _, _, _, firings, _⟩ := genesis_eq_ok start
    exact ⟨[], .nil, by rw [firings], .nil⟩
  | @step snap snap' done fired p input before active within meets collected committed ih =>
    obtain ⟨keys, distinct, same, all⟩ := ih
    have later := run_ledger (.step input before active within meets collected committed)
    have sound := progress_collected collected
    obtain ⟨state, next, _, _, scheduled, _, _, rfl⟩ := superstep_eq_ok committed
    obtain ⟨q, _, again, _, _, _, firings⟩ := nextFrontier_eq_ok scheduled
    obtain rfl : p = q := Except.ok.inj (collected.symm.trans again)
    refine ⟨keys ++ p.candidates.filterMap firedKey, ?_, ?_, ?_⟩
    · refine List.nodup_append.mpr ⟨distinct, sound.distinct, ?_⟩
      rintro key old _ new rfl
      obtain ⟨edge, _, epoch, rfl, fresh, _⟩ := Checks.exists_of_forall₂ sound.joined new
      exact fresh (same.subset old)
    · refine (same.append_right _).trans ?_
      rw [← sound.fired]
      change p.firings.Perm next.firings
      rw [firings]
      exact (perm_sortedBy id _).symm
    · apply List.rel_append
      · apply all.imp
        rintro edge key ⟨epoch, named, met⟩
        refine ⟨epoch, named, fun source inside => ?_⟩
        obtain ⟨task, before, rest⟩ := met source inside
        exact ⟨task, List.mem_append_left _ before, rest⟩
      · apply sound.joined.imp
        rintro edge key ⟨epoch, named, ready⟩
        exact ⟨epoch, named, ready.meets (run_ledger before) later plain⟩

theorem no_join_early_reviewedDraft : ∃ snap draft review key epoch,
    Run reviewedDraftWorkflow plainInvocation anyStep snap [draft, review] [mergeEdge] ∧
      snap.joinFirings = [key] ∧ key = joinKey "merge" epoch ∧
      Meets [draft, review] mergeEdge epoch := by
  obtain ⟨snap, draft, review, run, _⟩ := reviewedDraft_fires
  obtain ⟨keys, _, same, all⟩ := no_join_early run (by
    rw [reviewedDraft_reviewing.joins]
    decide)
  cases all with
  | cons first rest =>
    cases rest
    obtain ⟨epoch, named, met⟩ := first
    exact ⟨snap, draft, review, _, epoch, run, (List.singleton_perm.mp same).symm, named, met⟩

/-! ### A join that is lost -/

theorem not_satisfied_of_colon {source : String} (among : source ∈ edge.sources)
    (colon : ':' ∈ source.toList) (values : List String) : ¬ edge.satisfiedBy values := by
  intro satisfied
  obtain ⟨v, _, first⟩ := (mem_keys_sourceTasks values source).mp (satisfied source among)
  rw [← first] at colon
  exact splitOnce_first_absent ':' v colon

theorem foldl_joinStep_colon (snap : NativeSnapshot) (task : NativeTask) {edges : List Edge}
    (colon : ∀ edge ∈ edges, ∃ source ∈ edge.sources, ':' ∈ source.toList) (p : Progress) :
    (edges.foldl (joinStep snap task) p).candidates = p.candidates := by
  induction edges generalizing p with
  | nil => rfl
  | cons edge rest ih =>
    obtain ⟨source, among, hcolon⟩ := colon edge (by simp)
    rw [List.foldl_cons, ih fun e he => colon e (by simp [he])]
    rcases joinStep_cases snap task p edge with ⟨_, ⟨satisfied, _⟩ | ⟨_, _, candidates⟩⟩
    · exact absurd satisfied (not_satisfied_of_colon among hcolon _)
    · exact candidates

/-- A plan, a stage, its review, and a merge that waits for the stage and the review. -/
def stagedReview : WorkflowDefinition where
  name := "staged_review"
  version := "1"
  stateSchemaVersion := 1
  entryNode := "plan"
  nodes := [⟨{ nodeId := "plan" }, by decide⟩, ⟨{ nodeId := "stage:1" }, by decide⟩,
    ⟨{ nodeId := "review" }, reviewNode_ok⟩, ⟨{ nodeId := "merge" }, mergeNode_ok⟩]
  channels := []
  recursionLimit := 11
  maxSupersteps := 10
  edges := [⟨⟨["plan"], "stage:1"⟩, by decide⟩, ⟨⟨["stage:1"], "review"⟩, by decide⟩,
    ⟨⟨["stage:1", "review"], "merge"⟩, by decide⟩]

theorem stagedReview_accepted : validateDefinition stagedReview = .ok () := by decide +kernel

theorem stagedReview_bound :
    cycleBindings stagedReview (adjacencyOf stagedReview false) = .ok [] := by decide +kernel

def stagedReviewWorkflow : CompiledWorkflow :=
  ⟨stagedReview, stagedReview_accepted, [], stagedReview_bound⟩

theorem stagedReview_facts : ∀ entry ∈ [("plan", ["stage:1"]), ("stage:1", ["review"]),
      ("review", [])],
    stagedReviewWorkflow.conditionalFor entry.1 = none ∧
    (stagedReviewWorkflow.node entry.1).isSome ∧
    (stagedReviewWorkflow.singleTargets entry.1).filter (· ≠ endNode) = entry.2 ∧
    (∀ target ∈ entry.2, strip target = target ∧ target ≠ "") ∧
    ∀ edge ∈ stagedReviewWorkflow.joinEdgesFor entry.1,
      ∃ source ∈ edge.sources, ':' ∈ source.toList := by
  decide +kernel

theorem stagedReview_step (targets : List String)
    (run : Run stagedReviewWorkflow plainInvocation anyStep snap done [])
    (alone : snap.frontier = [task]) (state : snap.state = []) (within : snap.step < 10)
    (next : (task.nodeId, targets) ∈ [("plan", ["stage:1"]), ("stage:1", ["review"]), ("review",
      [])]) (short : targets = [] ∨ ∃ target, targets = [target]) :
    ∃ snap', Run stagedReviewWorkflow plainInvocation anyStep snap' (done ++ [task]) [] ∧
      snap'.frontier.map (·.nodeId) = targets ∧ snap'.state = [] ∧
      snap'.step = snap.step + 1 := by
  obtain ⟨plain, known, single, named, colon⟩ := stagedReview_facts _ next
  have collected : (singleProgress stagedReviewWorkflow snap task).candidates =
      targets.map fun target => ⟨target, task, activationOf snap task, .direct⟩ := by
    rw [singleProgress, foldl_joinStep_colon snap task colon]
    simp only [directCandidates, single]
  obtain ⟨snap', _, run', state', step, none, one⟩ := run.chainStep trivial alone
    (by rw [state]; rfl)
    (by show (snap.step : Int) < 10; omega) known plain collected
    (by
      rcases short with rfl | ⟨target, rfl⟩
      · exact Or.inl rfl
      · exact Or.inr ⟨_, rfl⟩)
    (by
      intro c hc
      obtain ⟨target, htarget, rfl⟩ := List.mem_map.mp hc
      obtain ⟨trimmed, present⟩ := named target htarget
      exact ⟨validateLoopBudget_unbound rfl _ _ _, trimmed, present, strip_stableId_ne_empty _⟩)
  refine ⟨snap', ?_, ?_, state'.trans state, step⟩
  · have quiet : (targets.map fun target => (⟨target, task, activationOf snap task, .direct⟩ :
        Candidate)).filterMap firedEdge = [] := by
      simp [List.filterMap_map, Function.comp_def, firedEdge]
    rw [quiet] at run'
    exact run'
  · rcases short with rfl | ⟨target, rfl⟩
    · rw [none rfl, List.map_nil]
    · obtain ⟨t, ht, hnode, _⟩ := one _ rfl
      rw [ht, List.map_cons, hnode, List.map_nil]

theorem single_of_map {tasks : List NativeTask} {nodeId : String}
    (nodes : tasks.map (·.nodeId) = [nodeId]) : ∃ task, tasks = [task] ∧ task.nodeId = nodeId := by
  obtain ⟨task, rfl, hnode⟩ := List.map_eq_singleton_iff.mp nodes
  exact ⟨task, rfl, hnode⟩

/-- The staged review is accepted; it ends with an empty frontier after the stage and the review
have completed, and the merge that waits for both is never scheduled. -/
theorem stagedReview_loses_join :
    compileWorkflow stagedReview = .ok stagedReviewWorkflow ∧
    ∃ snap done, Run stagedReviewWorkflow plainInvocation anyStep snap done [] ∧
      snap.frontier = [] ∧ ¬ NoJoinLost stagedReviewWorkflow done [] := by
  refine ⟨compileWorkflow_ok stagedReview_accepted stagedReview_bound, ?_⟩
  obtain ⟨s0, start⟩ := genesis_ok stagedReviewWorkflow plainInvocation
    (by decide +kernel) (by decide +kernel) (by decide +kernel)
  obtain ⟨t0, entry, f0, _, _, state0, step0, _⟩ := genesis_eq_ok start
  have node0 : t0.nodeId = "plan" := by
    rw [(entryTask_eq_ok entry).2.1]
    decide +kernel
  obtain ⟨s1, run1, f1, state1, step1⟩ := stagedReview_step ["stage:1"]
    (.genesis start) f0 state0 (by omega) (by simp [node0]) (Or.inr ⟨_, rfl⟩)
  obtain ⟨t1, f1, node1⟩ := single_of_map f1
  obtain ⟨s2, run2, f2, state2, step2⟩ := stagedReview_step ["review"]
    run1 f1 state1 (by omega) (by simp [node1]) (Or.inr ⟨_, rfl⟩)
  obtain ⟨t2, f2, node2⟩ := single_of_map f2
  obtain ⟨s3, run3, f3, _, _⟩ := stagedReview_step []
    run2 f2 state2 (by omega) (by simp [node2]) (Or.inl rfl)
  refine ⟨s3, _, run3, List.map_eq_nil_iff.mp f3, ?_⟩
  intro kept
  have lost := kept ⟨⟨["stage:1", "review"], "merge"⟩, by decide⟩ (by decide +kernel)
    (by
      intro source hs
      simp only [List.mem_cons, List.not_mem_nil, or_false] at hs
      rcases hs with rfl | rfl
      · exact ⟨t1, by simp, node1⟩
      · exact ⟨t2, by simp, node2⟩)
  cases lost

end Workflow
