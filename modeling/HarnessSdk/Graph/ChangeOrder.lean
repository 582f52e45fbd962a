import HarnessSdk.Graph.Changes

/-! What an accepted change keeps of a valid task graph, and the order it may cut. -/
namespace Graph
open PyDict PyText Checks Workflow

def DisjointOutputs (edges : Edges) (outputs : String → List String) : Prop :=
  ∀ a ∈ keys edges, ∀ b ∈ keys edges, a ≠ b → ¬ Ancestry edges a b → ¬ Ancestry edges b a →
    List.Disjoint (outputs a) (outputs b)

def liveEdges (tasks : List Task) : Edges :=
  (live tasks).map fun entry => (entry.1, entry.2.dependencyIds)

def liveOutputs (tasks : List Task) (id : String) : List String :=
  ((get? (live tasks) id).map Task.outputs).getD []

structure ValidLive (tasks : List Task) : Prop where
  acyclic : Digraph.Acyclic (DependsOn (liveEdges tasks))
  disjoint : DisjointOutputs (liveEdges tasks) (liveOutputs tasks)

section
variable (tasks : List Task) (change : TaskGraphChange) (nodes : List NewTaskNode)

def edgesAfter : Edges := mergedEdges tasks (effectsOf change) nodes

def outputsAfter (id : String) : List String :=
  (get? (mergedOutputs tasks (effectsOf change) nodes) id).getD []

def Stands (id : String) : Prop :=
  (∃ node ∈ nodes, node.key = id) ∨ ∃ task ∈ survivors tasks (effectsOf change), task.id = id

structure ValidAfter : Prop where
  acyclic : Digraph.Acyclic (DependsOn (edgesAfter tasks change nodes))
  dependencies : ∀ a b, DependsOn (edgesAfter tasks change nodes) a b →
    b ∈ keys (edgesAfter tasks change nodes) ∧ Stands tasks change nodes b ∧
      isCancelled tasks b = false
  disjoint : DisjointOutputs (edgesAfter tasks change nodes) (outputsAfter tasks change nodes)

/-- Two tasks that stay and write one output were ordered, and no longer are. -/
def CutsOrder : Prop :=
  ∃ a ∈ survivors tasks (effectsOf change), ∃ b ∈ survivors tasks (effectsOf change),
    ¬ List.Disjoint a.outputs b.outputs ∧ Ancestry (liveEdges tasks) a.id b.id ∧
    ¬ Ancestry (edgesAfter tasks change nodes) a.id b.id ∧
    ¬ Ancestry (edgesAfter tasks change nodes) b.id a.id

end

variable {tasks : List Task}

theorem live_entry {id : String} {task : Task} (found : (id, task) ∈ live tasks) :
    id = task.id := by
  have distinct : (keys (live tasks)).Nodup := keys_ofEntries_nodup _
  rcases get?_update_cases (get?_eq_some_of_mem distinct found) with entry | empty
  · obtain ⟨other, _, same⟩ := List.mem_map.mp entry
    cases same
    rfl
  · simp at empty

theorem keys_live (tasks : List Task) :
    keys (live tasks) = ((live tasks).map Prod.snd).map Task.id := by
  rw [keys, List.map_map]
  apply List.map_congr_left
  rintro ⟨id, task⟩ found
  exact live_entry found

theorem survivors_nodup (tasks : List Task) (effects : Effects) :
    ((survivors tasks effects).map Task.id).Nodup := by
  have distinct : (keys (live tasks)).Nodup := keys_ofEntries_nodup _
  rw [keys_live] at distinct
  exact distinct.sublist (List.Sublist.map _ List.filter_sublist)

theorem get?_live_of_survivor {effects : Effects} {task : Task}
    (stays : task ∈ survivors tasks effects) : get? (live tasks) task.id = some task := by
  have distinct : (keys (live tasks)).Nodup := keys_ofEntries_nodup _
  obtain ⟨⟨id, other⟩, found, same⟩ := List.mem_map.mp (List.mem_of_mem_filter stays)
  simp only at same
  subst same
  have named := live_entry found
  subst named
  exact get?_eq_some_of_mem distinct found

section
variable {tasks : List Task} {effects : Effects} {nodes : List NewTaskNode}
  (apart : ((survivors tasks effects).map Task.id ++ nodes.map fun node => node.key).Nodup)
include apart

theorem merged_entries {β : Type} (ofTask : Task → β) (ofNode : NewTaskNode → β) :
    update (ofEntries ((survivors tasks effects).map fun task => (task.id, ofTask task)))
      (nodes.map fun node => (node.key, ofNode node)) =
    ((survivors tasks effects).map fun task => (task.id, ofTask task)) ++
      nodes.map fun node => (node.key, ofNode node) := by
  have first : (keys ((survivors tasks effects).map fun task => (task.id, ofTask task))).Nodup := by
    simpa [keys, Function.comp_def] using survivors_nodup tasks effects
  rw [ofEntries_of_nodup first]
  apply update_of_nodup
  simpa [keys, Function.comp_def] using apart

theorem keys_mergedEdges :
    keys (mergedEdges tasks effects nodes) =
      (survivors tasks effects).map Task.id ++ nodes.map fun node => node.key := by
  rw [mergedEdges, merged_entries apart]
  simp [keys, Function.comp_def]

theorem keys_mergedOutputs :
    keys (mergedOutputs tasks effects nodes) =
      (survivors tasks effects).map Task.id ++ nodes.map fun node => node.key := by
  rw [mergedOutputs, merged_entries apart]
  simp [keys, Function.comp_def]

theorem get?_mergedOutputs_survivor {task : Task} (stays : task ∈ survivors tasks effects) :
    get? (mergedOutputs tasks effects nodes) task.id = some task.outputs := by
  apply get?_eq_some_of_mem
  · rw [keys_mergedOutputs apart]
    exact apart
  · rw [mergedOutputs, merged_entries apart]
    exact List.mem_append_left _ (List.mem_map_of_mem stays)

end

structure Merges (tasks : List Task) (change : TaskGraphChange) (nodes : List NewTaskNode) : Prop
    where
  apart : ((survivors tasks (effectsOf change)).map Task.id ++
    nodes.map fun node => node.key).Nodup
  ordered : ∃ order, Ordered (edgesAfter tasks change nodes) order
  alive : ∀ a b, DependsOn (edgesAfter tasks change nodes) a b → isCancelled tasks b = false
  outputs : ∀ node ∈ nodes, ∀ entry ∈ mergedOutputs tasks (effectsOf change) nodes,
    checkNewOutputs (edgesAfter tasks change nodes) (mergedOutputs tasks (effectsOf change) nodes)
      node entry = .ok ()

/-- The new nodes of a change, with the policies the gate fills in. -/
def proposedNodes (inputs : ChangeInputs) (change : TaskGraphChange) : List NewTaskNode :=
  addTasks change (defaultChangePolicy inputs.settings.deployedLayers)

theorem merges_of_ok {host : Host} {mission : Mission} {inputs : ChangeInputs}
    {change : TaskGraphChange} {validated : ValidatedChange}
    (ok : validateChange host mission inputs tasks change = .ok validated) :
    Merges tasks change (proposedNodes inputs change) := by
  unfold validateChange at ok
  simp only [bind_eq_ok, Unique.exists_iff, PUnit.default_eq_unit, require_eq_ok, every_eq_ok,
    mapError_eq_ok] at ok
  obtain ⟨_, _, _, _, alive, order, ordered, _, _, _, clean, outputs, _, _, budgets, _, _, made⟩ := ok
  cases made
  have distinct := findDuplicates_nodup clean
  have apart : ((survivors tasks (effectsOf change)).map Task.id ++
      (proposedNodes inputs change).map fun node => node.key).Nodup := by
    simpa [mergedItems, proposedNodes, Function.comp_def] using distinct
  have nodup := apart
  rw [← keys_mergedEdges apart] at nodup
  refine ⟨apart, ⟨order, checkDependencies_spec nodup ordered⟩, ?_, outputs⟩
  intro a b depends
  obtain ⟨deps, entry, inside⟩ := (dependsOn_iff nodup a b).mp depends
  have checked := alive _ entry b inside
  unfold checkMergedDependency at checked
  simp only [bind_eq_ok, Unique.exists_iff, PUnit.default_eq_unit, require_eq_ok] at checked
  exact checked.2.2

section
variable {tasks : List Task} {change : TaskGraphChange} {nodes : List NewTaskNode}

section
variable (merges : Merges tasks change nodes)
include merges

theorem Merges.mem_keys_iff (id : String) :
    id ∈ keys (edgesAfter tasks change nodes) ↔ Stands tasks change nodes id := by
  rw [edgesAfter, keys_mergedEdges merges.apart]
  simp only [List.mem_append, List.mem_map, Stands]
  exact or_comm

theorem Merges.valid_dependencies (a b : String)
    (depends : DependsOn (edgesAfter tasks change nodes) a b) :
    b ∈ keys (edgesAfter tasks change nodes) ∧ Stands tasks change nodes b ∧
      isCancelled tasks b = false := by
  obtain ⟨order, ordered⟩ := merges.ordered
  have known := ordered.present a b depends
  exact ⟨known, (merges.mem_keys_iff b).mp known, merges.alive a b depends⟩

theorem Merges.new_disjoint {node : NewTaskNode}
    (new : node ∈ nodes) {other : String} (known : other ∈ keys (edgesAfter tasks change nodes))
    (differ : other ≠ node.key)
    (before : ¬ Ancestry (edgesAfter tasks change nodes) node.key other)
    (after : ¬ Ancestry (edgesAfter tasks change nodes) other node.key) :
    List.Disjoint (outputsAfter tasks change nodes node.key)
      (outputsAfter tasks change nodes other) := by
  obtain ⟨order, ordered⟩ := merges.ordered
  have listed : other ∈ keys (mergedOutputs tasks (effectsOf change) nodes) := by
    rw [keys_mergedOutputs merges.apart, ← keys_mergedEdges merges.apart]
    exact known
  obtain ⟨outs, found⟩ := Option.isSome_iff_exists.mp ((get?_isSome_iff _ _).mpr listed)
  have checked := merges.outputs node new _ (mem_of_get?_eq_some found)
  rw [checkNewOutputs, if_neg, require_eq_ok] at checked
  · intro output mine theirs
    have shared : output ∈ sortedSet (((get? (mergedOutputs tasks (effectsOf change) nodes)
        node.key).getD []).filter (· ∈ outs)) := by
      rw [mem_sortedSet, List.mem_filter]
      refine ⟨mine, ?_⟩
      simpa [outputsAfter, found] using theirs
    rw [checked] at shared
    simp at shared
  · rintro (same | older | newer)
    · exact differ same
    · exact before ((ordered.mem_ancestorsOf _ _).mp older)
    · exact after ((ordered.mem_ancestorsOf _ _).mp newer)

end

theorem liveEdges_key {task : Task} {effects : Effects} (stays : task ∈ survivors tasks effects) :
    task.id ∈ keys (liveEdges tasks) := by
  have found := mem_of_get?_eq_some (get?_live_of_survivor stays)
  rw [keys, liveEdges, List.map_map]
  exact List.mem_map_of_mem found

theorem ValidLive.old_disjoint (valid : ValidLive tasks)
    (uncut : ¬ CutsOrder tasks change nodes) {a b : Task}
    (first : a ∈ survivors tasks (effectsOf change))
    (second : b ∈ survivors tasks (effectsOf change)) (differ : a.id ≠ b.id)
    (before : ¬ Ancestry (edgesAfter tasks change nodes) a.id b.id)
    (after : ¬ Ancestry (edgesAfter tasks change nodes) b.id a.id) :
    List.Disjoint a.outputs b.outputs := by
  by_contra shared
  have unordered : ¬ List.Disjoint (liveOutputs tasks a.id) (liveOutputs tasks b.id) := by
    simpa [liveOutputs, get?_live_of_survivor first, get?_live_of_survivor second] using shared
  apply unordered
  apply valid.disjoint _ (liveEdges_key first) _ (liveEdges_key second) differ
  · intro path
    exact uncut ⟨a, first, b, second, shared, path, before, after⟩
  · intro path
    refine uncut ⟨b, second, a, first, fun swapped => shared swapped.symm, path, after, before⟩

theorem Merges.disjoint_of_uncut (merges : Merges tasks change nodes) (valid : ValidLive tasks)
    (uncut : ¬ CutsOrder tasks change nodes) :
    DisjointOutputs (edgesAfter tasks change nodes) (outputsAfter tasks change nodes) := by
  intro a knownA b knownB differ before after
  rcases (merges.mem_keys_iff a).mp knownA with ⟨node, new, rfl⟩ | ⟨x, staysA, rfl⟩
  · exact merges.new_disjoint new knownB differ.symm before after
  · rcases (merges.mem_keys_iff b).mp knownB with ⟨node, new, rfl⟩ | ⟨y, staysB, rfl⟩
    · exact (merges.new_disjoint new knownA differ after before).symm
    · have disjoint := valid.old_disjoint uncut staysA staysB differ before after
      simpa [outputsAfter, get?_mergedOutputs_survivor merges.apart staysA,
        get?_mergedOutputs_survivor merges.apart staysB] using disjoint

theorem Merges.uncut_of_disjoint (merges : Merges tasks change nodes) (valid : ValidLive tasks)
    (disjoint : DisjointOutputs (edgesAfter tasks change nodes)
      (outputsAfter tasks change nodes)) : ¬ CutsOrder tasks change nodes := by
  rintro ⟨a, staysA, b, staysB, shared, path, before, after⟩
  have differ : a.id ≠ b.id := by
    intro same
    rw [same] at path
    exact valid.acyclic _ path
  have knownA := (merges.mem_keys_iff a.id).mpr (Or.inr ⟨a, staysA, rfl⟩)
  have knownB := (merges.mem_keys_iff b.id).mpr (Or.inr ⟨b, staysB, rfl⟩)
  have apart := disjoint _ knownA _ knownB differ before after
  apply shared
  simpa [outputsAfter, get?_mergedOutputs_survivor merges.apart staysA,
    get?_mergedOutputs_survivor merges.apart staysB] using apart

end

/-- An accepted change of a valid graph gives a valid graph exactly when it cuts the order of no
two old tasks that write one output. -/
theorem validateChange_valid_iff (host : Host) (mission : Mission) (inputs : ChangeInputs)
    (tasks : List Task) (change : TaskGraphChange) (validated : ValidatedChange)
    (valid : ValidLive tasks)
    (ok : validateChange host mission inputs tasks change = .ok validated) :
    ValidAfter tasks change (proposedNodes inputs change) ↔
      ¬ CutsOrder tasks change (proposedNodes inputs change) := by
  have merges := merges_of_ok ok
  constructor
  · intro after
    exact merges.uncut_of_disjoint valid after.disjoint
  · intro uncut
    obtain ⟨order, ordered⟩ := merges.ordered
    constructor
    · exact ordered.sound.acyclic
    · exact merges.valid_dependencies
    · exact merges.disjoint_of_uncut valid uncut

/-! Two tasks that write one file, the second waiting for the first. -/

def writer (id goal : String) (status : TaskStatus) (dependencies : List String) : Task where
  id := id
  dependencyIds := dependencies
  goal := goal
  successCriteria := ["the report is written"]
  budget := Budget.unlimited
  status := status
  outputs := ["report.md"]
  kind := .work
  context := []

def twoWriters : List Task :=
  [writer "a" "draft the report" .ready [], writer "b" "revise the report" .blocked ["a"]]

def openMission : Mission := ⟨Budget.unlimited, [], none⟩

def plainInputs : ChangeInputs where
  limits := ⟨6, 3, 32, 2, true⟩
  settings := plainSettings
  proposalsByAttempt := []
  committedTokensByTask := []

def retargetSecond (dependencies : List String) : TaskGraphChange :=
  ⟨"", [.retargetDependencies "b" dependencies]⟩

def retargeted (dependencies order : List String) : ValidatedChange where
  change := retargetSecond dependencies
  newNodes := []
  order := []
  effects := { Effects.none with retargets := [("b", dependencies)] }
  affectedTaskIds := ["b"]
  warnings := []
  depth := order.length
  budgetPool := []

theorem twoWriters_ordered : Ordered (liveEdges twoWriters) ["a", "b"] :=
  checkDependencies_spec (by decide +kernel) (by decide +kernel)

theorem twoWriters_valid : ValidLive twoWriters where
  acyclic := twoWriters_ordered.sound.acyclic
  disjoint := by
    have names : keys (liveEdges twoWriters) = ["a", "b"] := by decide +kernel
    have waits : Ancestry (liveEdges twoWriters) "b" "a" := by
      apply Relation.TransGen.single
      unfold DependsOn
      decide +kernel
    intro a ha b hb differ before after
    rw [names] at ha hb
    simp only [List.mem_cons, List.not_mem_nil, or_false] at ha hb
    rcases ha with rfl | rfl
    · rcases hb with rfl | rfl
      · exact absurd rfl differ
      · exact absurd waits after
    · rcases hb with rfl | rfl
      · exact absurd waits before
      · exact absurd rfl differ

/-- Dropping the dependency is accepted and leaves two unordered writers of one file. -/
theorem retarget_cuts_writers :
    ValidLive twoWriters ∧
    validateChange plainHost openMission plainInputs twoWriters (retargetSecond []) =
      .ok (retargeted [] ["a"]) ∧
    ¬ ValidAfter twoWriters (retargetSecond []) (proposedNodes plainInputs (retargetSecond [])) := by
  refine ⟨twoWriters_valid, by decide +kernel, ?_⟩
  intro after
  have none : ∀ a b, ¬ DependsOn (edgesAfter twoWriters (retargetSecond [])
      (proposedNodes plainInputs (retargetSecond []))) a b := by
    have edges : edgesAfter twoWriters (retargetSecond [])
        (proposedNodes plainInputs (retargetSecond [])) = [("a", []), ("b", [])] := by
      decide +kernel
    intro a b
    rw [edges]
    by_cases first : "a" = a <;> by_cases second : "b" = a <;>
      simp [DependsOn, get?, first, second]
  have unordered : ∀ a b, ¬ Ancestry (edgesAfter twoWriters (retargetSecond [])
      (proposedNodes plainInputs (retargetSecond []))) a b := by
    intro a b path
    obtain ⟨dep, here, _⟩ := Relation.TransGen.head'_iff.mp path
    exact none a dep here
  have apart := after.disjoint "a" (by decide +kernel) "b" (by decide +kernel) (by decide)
    (unordered _ _) (unordered _ _)
  have first : "report.md" ∈ outputsAfter twoWriters (retargetSecond [])
      (proposedNodes plainInputs (retargetSecond [])) "a" := by decide +kernel
  have second : "report.md" ∈ outputsAfter twoWriters (retargetSecond [])
      (proposedNodes plainInputs (retargetSecond [])) "b" := by decide +kernel
  exact apart first second

theorem retarget_keeps_writers :
    ValidAfter twoWriters (retargetSecond ["a"])
        (proposedNodes plainInputs (retargetSecond ["a"])) ↔
      ¬ CutsOrder twoWriters (retargetSecond ["a"])
        (proposedNodes plainInputs (retargetSecond ["a"])) :=
  validateChange_valid_iff plainHost openMission plainInputs twoWriters (retargetSecond ["a"])
    (retargeted ["a"] ["a", "b"]) twoWriters_valid (by decide +kernel)

end Graph
