import HarnessSdk.Network.Projection
import HarnessSdk.Library.Gates

/-! What the compiled gates order: the nodes and edges of the projection, and the order they put on
the refinement hierarchy. -/
namespace Network
open PyDict PyText Relation

theorem nodeId_inj {a b role role' : String} (same : nodeId a role = nodeId b role') :
    a = b ∧ role = role' :=
  length_keyed_inj same

namespace TaskNetwork
variable (network : TaskNetwork)

def Opens (parent child : OccurrenceId) : Prop :=
  ∃ binding ∈ network.adoptedChildren parent, binding.occurrenceId = child

def Gating (parent child : OccurrenceId) : Prop :=
  ∃ binding ∈ network.adoptedChildren parent,
    binding.requiredness.gating = true ∧ binding.occurrenceId = child

def IsCompound (id : OccurrenceId) : Prop :=
  ∃ spec, network.occurrence? id = some spec ∧ spec.form = .compound

def entryId (id : OccurrenceId) : String :=
  match (network.occurrence? id).map (·.form) with
  | some TaskForm.compound => nodeId id "entry"
  | _ => nodeId id "node"

def exitId (id : OccurrenceId) : String :=
  match (network.occurrence? id).map (·.form) with
  | some TaskForm.compound => nodeId id "exit"
  | _ => nodeId id "node"

variable {network}

theorem Gating.opens {parent child : OccurrenceId} (gate : network.Gating parent child) :
    network.Opens parent child := by
  obtain ⟨binding, inside, _, names⟩ := gate
  exact ⟨binding, inside, names⟩

variable {parent child id : OccurrenceId}

theorem mem_childIds : child ∈ network.childIds parent ↔ network.Opens parent child := by
  simp [childIds, Opens]

theorem adoptedChildren_cases {child : ChildBinding} (inside : child ∈ network.adoptedChildren id) :
    network.IsCompound id ∧
      ∃ draft, network.adoptedInstanceFor id = some draft ∧ child ∈ draft.childBindings := by
  unfold adoptedChildren at inside
  split at inside
  · rename_i found
    split at inside
    · simp at inside
    · rename_i draft adopted
      exact ⟨⟨_, found, rfl⟩, draft, adopted, inside⟩
  · simp at inside

variable {draft : MethodInstanceDraft}

theorem mem_of_adoptedInstanceFor (found : network.adoptedInstanceFor id = some draft) :
    draft ∈ network.methodInstances ∧ network.isAdopted draft.instanceId = true ∧
      draft.effectiveGoalOccurrenceId = id := by
  have fits := List.find?_some found
  simp only [Bool.and_eq_true, beq_iff_eq] at fits
  exact ⟨List.mem_of_find?_eq_some found, fits.1, fits.2⟩

section
variable (consistent : network.Consistent)
include consistent

theorem adoptedInstanceFor_of_mem
    (inside : draft ∈ network.methodInstances)
    (adopted : network.isAdopted draft.instanceId = true) :
    network.adoptedInstanceFor draft.effectiveGoalOccurrenceId = some draft := by
  cases found : network.adoptedInstanceFor draft.effectiveGoalOccurrenceId with
  | none =>
    have absent := List.find?_eq_none.mp found draft inside
    simp [adopted] at absent
  | some other =>
    obtain ⟨here, adopted', goal⟩ := mem_of_adoptedInstanceFor found
    rw [List.inj_on_of_nodup_map consistent.adoptedOnce (List.mem_filter.mpr ⟨here, adopted'⟩)
      (List.mem_filter.mpr ⟨inside, adopted⟩) goal]

theorem opens_iff (parent child : OccurrenceId) :
    network.Opens parent child ↔ ∃ draft ∈ network.methodInstances,
      network.isAdopted draft.instanceId = true ∧ draft.effectiveGoalOccurrenceId = parent ∧
        ∃ binding ∈ draft.childBindings, binding.occurrenceId = child := by
  constructor
  · rintro ⟨binding, inside, rfl⟩
    obtain ⟨_, draft, found, owned⟩ := adoptedChildren_cases inside
    obtain ⟨here, adopted, goal⟩ := mem_of_adoptedInstanceFor found
    exact ⟨draft, here, adopted, goal, binding, owned, rfl⟩
  · rintro ⟨draft, here, adopted, rfl, binding, owned, rfl⟩
    obtain ⟨spec, found, _, form⟩ := consistent.refines draft here
    refine ⟨binding, ?_, rfl⟩
    obtain ⟨_, _, _, _, _⟩ := spec
    simp only at form
    subst form
    rw [adoptedChildren, found]
    simp only [adoptedInstanceFor_of_mem consistent here adopted]
    exact owned

theorem Opens.known (opens : network.Opens parent child) :
    child ∈ network.occurrenceIds := by
  obtain ⟨binding, inside, rfl⟩ := opens
  obtain ⟨_, draft, adopted, owned⟩ := adoptedChildren_cases inside
  exact consistent.childrenKnown draft (mem_of_adoptedInstanceFor adopted).1 binding owned

end

theorem mem_reachable_iff (id : OccurrenceId) :
    id ∈ network.reachableOccurrences ↔
      Digraph.Reached (fun id => (network.occurrence? id).isSome) network.childIds
        network.rootOccurrenceIds.reverse id := by
  apply Digraph.mem_explore_iff
  · intro id known
    exact (occurrence?_isSome_iff id).mp known
  · simp [Digraph.work]

theorem root_reachable (consistent : network.Consistent) {root : OccurrenceId}
    (inside : root ∈ network.rootOccurrenceIds) : root ∈ network.reachableOccurrences := by
  rw [mem_reachable_iff]
  have known := (occurrence?_isSome_iff root).mpr (consistent.rootsKnown root inside)
  exact ⟨root, List.mem_reverse.mpr inside, known, .refl⟩

theorem reachable_known (inside : id ∈ network.reachableOccurrences) :
    ∃ spec, network.occurrence? id = some spec := by
  rw [mem_reachable_iff] at inside
  exact Option.isSome_iff_exists.mp inside.is_known

theorem Opens.reachable (consistent : network.Consistent) (opens : network.Opens parent child)
    (inside : parent ∈ network.reachableOccurrences) : child ∈ network.reachableOccurrences := by
  rw [mem_reachable_iff] at inside ⊢
  have known := (occurrence?_isSome_iff child).mpr (opens.known consistent)
  exact inside.step ⟨mem_childIds.mpr opens, known⟩

theorem mem_reachable_iff_path (consistent : network.Consistent) (id : OccurrenceId) :
    id ∈ network.reachableOccurrences ↔ ∃ root ∈ network.rootOccurrenceIds,
      Relation.ReflTransGen network.Opens root id := by
  constructor
  · intro inside
    obtain ⟨root, here, _, path⟩ := (mem_reachable_iff id).mp inside
    refine ⟨root, List.mem_reverse.mp here, ?_⟩
    exact Relation.ReflTransGen.mono (fun _ _ opens => mem_childIds.mp opens.1) _ _ path
  · rintro ⟨root, here, path⟩
    induction path with
    | refl => exact root_reachable consistent here
    | tail _ opens ih => exact opens.reachable consistent ih

theorem reachable_nodup : network.reachableOccurrences.Nodup :=
  Digraph.explore_nodup List.nodup_nil

def raw (network : TaskNetwork) : List (String × ProjectionNodeKind × OccurrenceSpec) :=
  network.reachableOccurrences.flatMap fun id => (network.occurrence? id).toList.flatMap rawNodes

theorem mem_raw {item : String × ProjectionNodeKind × OccurrenceSpec} :
    item ∈ network.raw ↔ ∃ id ∈ network.reachableOccurrences, ∃ spec,
      network.occurrence? id = some spec ∧ item ∈ rawNodes spec := by
  simp [raw]

theorem compileNodes_nodeIds :
    (network.compileNodes network.reachableOccurrences).map (·.nodeId) =
      (sortedBy Prod.fst network.raw).map Prod.fst := by
  simp only [compileNodes, List.map_map]
  rw [← List.zipIdx_map_fst 0 (sortedBy Prod.fst network.raw), List.map_map]
  simp [raw, Function.comp_def]

theorem mem_compileNodes {node : ProjectionNode}
    (inside : node ∈ network.compileNodes network.reachableOccurrences) :
    ∃ spec, network.occurrence? node.occurrenceId = some spec ∧
      node.occurrenceId ∈ network.reachableOccurrences ∧
      (node.nodeId, node.kind, spec) ∈ rawNodes spec := by
  obtain ⟨⟨⟨nid, kind, spec⟩, ordinal⟩, numbered, rfl⟩ := List.mem_map.mp inside
  have listed : (nid, kind, spec) ∈ network.raw := by
    rw [← mem_sortedBy Prod.fst]
    have := List.mem_map_of_mem (f := Prod.fst) numbered
    rwa [List.zipIdx_map_fst] at this
  obtain ⟨id, reached, spec', found, item⟩ := mem_raw.mp listed
  obtain ⟨_, names⟩ := mem_of_occurrence? found
  have same : spec = spec' := by
    unfold rawNodes at item
    split at item <;> simp at item <;> tauto
  subst same
  rw [← names] at found reached
  exact ⟨spec, found, reached, item⟩

variable {spec : OccurrenceSpec} {nid : String} {kind : ProjectionNodeKind}

theorem node_compiled (reached : id ∈ network.reachableOccurrences)
    (found : network.occurrence? id = some spec) (item : (nid, kind, spec) ∈ rawNodes spec) :
    ∃ node ∈ network.compileNodes network.reachableOccurrences,
      node.nodeId = nid ∧ node.kind = kind ∧ node.occurrenceId = id := by
  have listed : (nid, kind, spec) ∈ sortedBy Prod.fst network.raw := by
    rw [mem_sortedBy, mem_raw]
    exact ⟨id, reached, spec, found, item⟩
  rw [← List.zipIdx_map_fst 0 (sortedBy Prod.fst network.raw)] at listed
  obtain ⟨⟨_, ordinal⟩, numbered, rfl⟩ := List.mem_map.mp listed
  refine ⟨_, List.mem_map.mpr ⟨_, numbered, rfl⟩, rfl, rfl, ?_⟩
  exact (mem_of_occurrence? found).2

theorem rawNodes_nodup (spec : OccurrenceSpec) : ((rawNodes spec).map Prod.fst).Nodup := by
  unfold rawNodes
  cases spec.form with
  | compound =>
    have apart : nodeId spec.occurrenceId "entry" ≠ nodeId spec.occurrenceId "exit" := by
      intro same
      exact absurd (nodeId_inj same).2 (by decide)
    simpa using apart
  | primitive => simp

theorem rawNodes_names (spec : OccurrenceSpec) (item : nid ∈ (rawNodes spec).map Prod.fst) :
    ∃ role, nid = nodeId spec.occurrenceId role := by
  unfold rawNodes at item
  cases form : spec.form with
  | compound =>
    simp only [form, List.map_cons, List.map_nil, List.mem_cons, List.not_mem_nil, or_false] at item
    rcases item with rfl | rfl
    · exact ⟨_, rfl⟩
    · exact ⟨_, rfl⟩
  | primitive =>
    simp only [form, List.map_cons, List.map_nil, List.mem_singleton] at item
    exact ⟨_, item⟩

theorem nodeIds_nodup :
    ((network.compileNodes network.reachableOccurrences).map (·.nodeId)).Nodup := by
  rw [compileNodes_nodeIds, ((perm_sortedBy Prod.fst network.raw).map Prod.fst).nodup_iff]
  rw [raw, List.map_flatMap, List.nodup_flatMap]
  constructor
  · intro id _
    cases network.occurrence? id with
    | none => simp
    | some spec => simpa using rawNodes_nodup spec
  · apply List.Pairwise.imp _ reachable_nodup
    intro a b different
    rw [Function.onFun, List.disjoint_left]
    intro nid left right
    cases foundA : network.occurrence? a with
    | none => simp [foundA] at left
    | some specA =>
      cases foundB : network.occurrence? b with
      | none => simp [foundB] at right
      | some specB =>
        obtain ⟨role, rfl⟩ := rawNodes_names specA (by simpa [foundA] using left)
        obtain ⟨role', same⟩ := rawNodes_names specB (by simpa [foundB] using right)
        apply different
        rw [← (mem_of_occurrence? foundA).2, ← (mem_of_occurrence? foundB).2]
        exact (nodeId_inj same).1

theorem mem_rawNodes (found : network.occurrence? id = some spec) :
    (nid, kind, spec) ∈ rawNodes spec ↔
      (kind ≠ .compoundExit ∧ kind = (if spec.form = .compound then .compoundEntry else .occurrence) ∧
        nid = network.entryId id) ∨
      (kind ≠ .compoundEntry ∧ kind = (if spec.form = .compound then .compoundExit else .occurrence) ∧
        nid = network.exitId id) := by
  have names := (mem_of_occurrence? found).2
  subst names
  cases form : spec.form <;> cases kind <;> simp [rawNodes, entryId, exitId, found, form]

theorem get?_gate {keep : ProjectionNode → Bool} {nodes : List ProjectionNode} {gate : String}
    (some_node : ∃ node ∈ nodes, keep node = true ∧ node.occurrenceId = id)
    (only : ∀ node ∈ nodes, keep node = true → node.occurrenceId = id → node.nodeId = gate) :
    get? (ofEntries ((nodes.filter keep).map fun node => (node.occurrenceId, node.nodeId))) id =
      some gate := by
  obtain ⟨node, inside, kept, names⟩ := some_node
  cases found : get? (ofEntries ((nodes.filter keep).map fun node =>
      (node.occurrenceId, node.nodeId))) id with
  | none =>
    rw [get?_eq_none_iff, mem_keys_ofEntries] at found
    have listed := List.mem_map_of_mem (f := fun node : ProjectionNode =>
      (node.occurrenceId, node.nodeId)) (List.mem_filter.mpr ⟨inside, kept⟩)
    exact absurd (List.mem_map.mpr ⟨_, listed, names⟩) found
  | some value =>
    rcases get?_update_cases found with entry | empty
    · obtain ⟨other, listed, pair⟩ := List.mem_map.mp entry
      cases pair
      obtain ⟨there, keeps⟩ := List.mem_filter.mp listed
      rw [only other there keeps rfl]
    · simp at empty

theorem get?_entryOf (reached : id ∈ network.reachableOccurrences) :
    get? (entryOf (network.compileNodes network.reachableOccurrences)) id =
      some (network.entryId id) := by
  obtain ⟨spec, found⟩ := reachable_known reached
  apply get?_gate
  · obtain ⟨node, inside, _, kind, names⟩ := node_compiled reached found
      ((mem_rawNodes found).mpr (Or.inl ⟨by split <;> decide, rfl, rfl⟩))
    refine ⟨node, inside, ?_, names⟩
    rw [kind]
    split <;> decide
  · intro node inside keeps names
    obtain ⟨spec', found', _, item⟩ := mem_compileNodes inside
    rw [names] at found'
    rcases (mem_rawNodes found').mp item with ⟨_, _, same⟩ | ⟨notEntry, kind, same⟩
    · exact same
    · cases form : spec'.form with
      | compound => simp [kind, form] at keeps
      | primitive => simp [same, entryId, exitId, found', form]

theorem get?_exitOf (reached : id ∈ network.reachableOccurrences) :
    get? (exitOf (network.compileNodes network.reachableOccurrences)) id =
      some (network.exitId id) := by
  obtain ⟨spec, found⟩ := reachable_known reached
  apply get?_gate
  · obtain ⟨node, inside, _, kind, names⟩ := node_compiled reached found
      ((mem_rawNodes found).mpr (Or.inr ⟨by split <;> decide, rfl, rfl⟩))
    refine ⟨node, inside, ?_, names⟩
    rw [kind]
    split <;> decide
  · intro node inside keeps names
    obtain ⟨spec', found', _, item⟩ := mem_compileNodes inside
    rw [names] at found'
    rcases (mem_rawNodes found').mp item with ⟨notExit, kind, same⟩ | ⟨_, _, same⟩
    · cases form : spec'.form with
      | compound => simp [kind, form] at keeps
      | primitive => simp [same, entryId, exitId, found', form]
    · exact same

section
variable (network : TaskNetwork)

def spanEdge (id : OccurrenceId) : ProjectionEdge where
  source := network.entryId id
  target := network.exitId id
  kind := .compoundSpan
  origin := "span:" ++ id ++ ":" ++
    if (network.adoptedChildren id).isEmpty then "unexpanded" else "no_gating_children"

def openEdge (id : OccurrenceId) (child : ChildBinding) :
    ProjectionEdge where
  source := network.entryId id
  target := network.entryId child.occurrenceId
  kind := .refinementOpen
  origin := "slot:" ++ child.slotKey

def closeEdge (id : OccurrenceId) (child : ChildBinding) :
    ProjectionEdge where
  source := network.exitId child.occurrenceId
  target := network.exitId id
  kind := .refinementClose
  origin := "slot:" ++ child.slotKey

def orderEdge (constraint : OrderConstraint) : ProjectionEdge where
  source := network.exitId constraint.before
  target := network.entryId constraint.after
  kind := .order
  origin := orderLabel constraint ++ ":" ++ constraint.releaseCondition.text

def dataEdge (requirement : DataRequirement) : ProjectionEdge where
  source := network.exitId requirement.producerOccurrence
  target := network.entryId requirement.consumerOccurrence
  kind := .data
  origin := dataLabel requirement

end

inductive Refining (network : TaskNetwork) (id : OccurrenceId) : ProjectionEdge → Prop
  | span (compound : network.IsCompound id)
      (ungated : ∀ child ∈ network.adoptedChildren id, child.requiredness.gating = false) :
      Refining network id (network.spanEdge id)
  | opens {child : ChildBinding} (inside : child ∈ network.adoptedChildren id) :
      Refining network id (network.openEdge id child)
  | closes {child : ChildBinding} (inside : child ∈ network.adoptedChildren id)
      (gating : child.requiredness.gating = true) :
      Refining network id (network.closeEdge id child)

inductive Compiled (network : TaskNetwork) : ProjectionEdge → Prop
  | refining {id : OccurrenceId} {edge : ProjectionEdge}
      (reached : id ∈ network.reachableOccurrences) (refining : network.Refining id edge) :
      Compiled network edge
  | order {constraint : OrderConstraint} (listed : constraint ∈ network.orderConstraints)
      (before : constraint.before ∈ network.reachableOccurrences)
      (after : constraint.after ∈ network.reachableOccurrences) :
      Compiled network (network.orderEdge constraint)
  | data {requirement : DataRequirement} (listed : requirement ∈ network.dataRequirements)
      (producer : requirement.producerOccurrence ∈ network.reachableOccurrences)
      (consumer : requirement.consumerOccurrence ∈ network.reachableOccurrences) :
      Compiled network (network.dataEdge requirement)

section
variable {entry exit : Dict OccurrenceId String}
  (entries : ∀ id ∈ network.reachableOccurrences, get? entry id = some (network.entryId id))
  (exits : ∀ id ∈ network.reachableOccurrences, get? exit id = some (network.exitId id))
include entries exits

theorem childEdges_spec {id : OccurrenceId} {child : ChildBinding}
    (reached : id ∈ network.reachableOccurrences)
    (below : child.occurrenceId ∈ network.reachableOccurrences) :
    ∃ out, childEdges entry exit id child = some out ∧ ∀ edge, edge ∈ out ↔
      edge = network.openEdge id child ∨
        child.requiredness.gating = true ∧ edge = network.closeEdge id child := by
  cases gating : child.requiredness.gating with
  | true =>
    refine ⟨[network.openEdge id child, network.closeEdge id child], ?_, by simp⟩
    simp [childEdges, gateEdge, entries, exits, reached, below, gating, openEdge, closeEdge]
  | false =>
    refine ⟨[network.openEdge id child], ?_, by simp⟩
    simp [childEdges, gateEdge, entries, reached, below, gating, openEdge]

theorem spanEdges_spec {id : OccurrenceId} (reached : id ∈ network.reachableOccurrences) :
    ∃ out, spanEdges entry exit id (network.adoptedChildren id) = some out ∧ ∀ edge, edge ∈ out ↔
      (∀ child ∈ network.adoptedChildren id, child.requiredness.gating = false) ∧
        edge = network.spanEdge id := by
  by_cases ungated : ∀ child ∈ network.adoptedChildren id, child.requiredness.gating = false
  · refine ⟨[network.spanEdge id], ?_, by simpa using ungated⟩
    have none_gates : ((network.adoptedChildren id).filter (·.requiredness.gating)).isEmpty := by
      simpa using ungated
    simp [spanEdges, none_gates, gateEdge, entries, exits, reached, spanEdge]
  · refine ⟨[], ?_, by simp [ungated]⟩
    have some_gates : ¬ ((network.adoptedChildren id).filter (·.requiredness.gating)).isEmpty := by
      simpa using ungated
    simp [spanEdges, some_gates]

theorem refinementEdges_spec (consistent : network.Consistent) {id : OccurrenceId}
    (reached : id ∈ network.reachableOccurrences) :
    ∃ out, network.refinementEdges entry exit id = some out ∧
      ∀ edge, edge ∈ out ↔ network.Refining id edge := by
  obtain ⟨spec, found⟩ := reachable_known reached
  have below : ∀ child ∈ network.adoptedChildren id,
      child.occurrenceId ∈ network.reachableOccurrences := fun child inside =>
    Opens.reachable consistent ⟨child, inside, rfl⟩ reached
  cases form : spec.form with
  | primitive =>
    refine ⟨[], by simp [refinementEdges, found, form], ?_⟩
    intro edge
    have leaf : ¬ network.IsCompound id := by
      rintro ⟨spec', found', compound⟩
      rw [found] at found'
      cases found'
      rw [form] at compound
      cases compound
    constructor
    · simp
    · intro refining
      cases refining with
      | span compound _ => exact absurd compound leaf
      | opens inside => exact absurd (adoptedChildren_cases inside).1 leaf
      | closes inside _ => exact absurd (adoptedChildren_cases inside).1 leaf
  | compound =>
    obtain ⟨span, spanned, spans⟩ := spanEdges_spec entries exits reached
    obtain ⟨inner, collected, holds⟩ := Checks.mapM_collects (network.adoptedChildren id)
      fun child inside => childEdges_spec entries exits reached (below child inside)
    refine ⟨span ++ inner.flatten, by simp [refinementEdges, found, form, spanned, collected], ?_⟩
    intro edge
    rw [List.mem_append, spans, holds]
    constructor
    · rintro (⟨ungated, rfl⟩ | ⟨child, inside, rfl | ⟨gating, rfl⟩⟩)
      · exact .span ⟨spec, found, form⟩ ungated
      · exact .opens inside
      · exact .closes inside gating
    · intro refining
      cases refining with
      | span _ ungated => exact Or.inl ⟨ungated, rfl⟩
      | opens inside => exact Or.inr ⟨_, inside, Or.inl rfl⟩
      | closes inside gating => exact Or.inr ⟨_, inside, Or.inr ⟨gating, rfl⟩⟩

theorem orderEdges_spec (constraint : OrderConstraint) :
    ∃ out, orderEdges entry exit network.reachableOccurrences constraint = some out ∧
      ∀ edge, edge ∈ out ↔ (constraint.before ∈ network.reachableOccurrences ∧
        constraint.after ∈ network.reachableOccurrences) ∧ edge = network.orderEdge constraint := by
  by_cases both : constraint.before ∈ network.reachableOccurrences ∧
      constraint.after ∈ network.reachableOccurrences
  · refine ⟨[network.orderEdge constraint], ?_, by simp [both]⟩
    simp [orderEdges, both, gateEdge, exits _ both.1, entries _ both.2, orderEdge]
  · exact ⟨[], by simp [orderEdges, both], by simp [both]⟩

theorem dataEdges_spec (requirement : DataRequirement) :
    ∃ out, dataEdges entry exit network.reachableOccurrences requirement = some out ∧
      ∀ edge, edge ∈ out ↔ (requirement.producerOccurrence ∈ network.reachableOccurrences ∧
        requirement.consumerOccurrence ∈ network.reachableOccurrences) ∧
          edge = network.dataEdge requirement := by
  by_cases both : requirement.producerOccurrence ∈ network.reachableOccurrences ∧
      requirement.consumerOccurrence ∈ network.reachableOccurrences
  · refine ⟨[network.dataEdge requirement], ?_, by simp [both]⟩
    simp [dataEdges, both, gateEdge, exits _ both.1, entries _ both.2, dataEdge]
  · exact ⟨[], by simp [dataEdges, both], by simp [both]⟩

theorem compileEdges_spec (consistent : network.Consistent) :
    ∃ edges, network.compileEdges entry exit network.reachableOccurrences = some edges ∧
      ∀ edge, edge ∈ edges ↔ network.Compiled edge := by
  obtain ⟨refinement, refined, refines⟩ := Checks.mapM_collects (sorted network.reachableOccurrences)
    fun id inside => refinementEdges_spec entries exits consistent ((mem_sorted _ id).mp inside)
  obtain ⟨order, ordered, orders⟩ := Checks.mapM_collects network.orderConstraints
    fun constraint _ => orderEdges_spec entries exits constraint
  obtain ⟨data, flowed, flows⟩ := Checks.mapM_collects network.dataRequirements
    fun requirement _ => dataEdges_spec entries exits requirement
  refine ⟨refinement.flatten ++ order.flatten ++ data.flatten,
    by simp [compileEdges, refined, ordered, flowed], ?_⟩
  intro edge
  rw [List.mem_append, List.mem_append, refines, orders, flows]
  constructor
  · rintro ((⟨id, inside, refining⟩ | ⟨constraint, listed, ⟨before, after⟩, rfl⟩) |
      ⟨requirement, listed, ⟨producer, consumer⟩, rfl⟩)
    · exact .refining ((mem_sorted _ id).mp inside) refining
    · exact .order listed before after
    · exact .data listed producer consumer
  · intro compiled
    cases compiled with
    | refining reached refining => exact Or.inl (Or.inl ⟨_, (mem_sorted _ _).mpr reached, refining⟩)
    | order listed before after => exact Or.inl (Or.inr ⟨_, listed, ⟨before, after⟩, rfl⟩)
    | data listed producer consumer => exact Or.inr ⟨_, listed, ⟨producer, consumer⟩, rfl⟩

end

end TaskNetwork

namespace ExecutionProjection
variable (projection : ExecutionProjection)

def entryNodeId? (id : OccurrenceId) : Option String := get? (entryOf projection.nodes) id

def exitNodeId? (id : OccurrenceId) : Option String := get? (exitOf projection.nodes) id

def NodeOf (id : OccurrenceId) (nid : String) : Prop :=
  ∃ node ∈ projection.nodes, node.occurrenceId = id ∧ node.nodeId = nid

/-- Exactly what adopted children reach from the roots is projected, each with its entry and exit. -/
def ProjectsReachable : Prop :=
  (∀ id, id ∈ projection.projectedOccurrences ↔ ∃ root ∈ projection.snapshot.rootOccurrenceIds,
    ReflTransGen projection.snapshot.Opens root id) ∧
  ∀ id ∈ projection.projectedOccurrences, ∃ entry exit, projection.entryNodeId? id = some entry ∧
    projection.exitNodeId? id = some exit ∧ projection.NodeOf id entry ∧ projection.NodeOf id exit

variable {projection} in
theorem nodeOf_get? {keep : ProjectionNode → Bool} {id : OccurrenceId} {nid : String}
    (found : get? (ofEntries ((projection.nodes.filter keep).map fun node =>
      (node.occurrenceId, node.nodeId))) id = some nid) : projection.NodeOf id nid := by
  rcases get?_update_cases found with entry | none
  · obtain ⟨node, kept, same⟩ := List.mem_map.mp entry
    obtain ⟨names, nid⟩ := Prod.mk.inj same
    exact ⟨node, (List.mem_filter.mp kept).1, names, nid⟩
  · cases none

/-- A path of the projection leads from one node to the other, and every topological order lists
them that way round. -/
def Precedes (first second : String) : Prop :=
  TransGen projection.Edge first second ∧
    ∀ order, Digraph.Topological projection.nodeIds projection.Edge order →
      Digraph.Before order first second

theorem precedes_of_path {first second : String} (path : TransGen projection.Edge first second) :
    projection.Precedes first second :=
  ⟨path, fun _ topological => topological.before path⟩

end ExecutionProjection

structure Projects (snapshot : TaskNetworkSnapshot) (projection : ExecutionProjection) : Prop where
  network : projection.snapshot = snapshot
  nodes : projection.nodes = snapshot.compileNodes snapshot.reachableOccurrences
  edges : ∀ edge, edge ∈ projection.edges ↔ snapshot.Compiled edge
  projected : projection.projectedOccurrences = snapshot.reachableOccurrences
  unprojected : ∀ item, item ∈ projection.unprojectedEndpoints ↔
    item ∈ snapshot.unprojectedEndpoints snapshot.reachableOccurrences

theorem executionProjection_projects (snapshot : TaskNetworkSnapshot) :
    ∃ projection, snapshot.executionProjection = some projection ∧ Projects snapshot projection := by
  obtain ⟨edges, compiled, holds⟩ := TaskNetwork.compileEdges_spec
    (fun _ => TaskNetwork.get?_entryOf) (fun _ => TaskNetwork.get?_exitOf) snapshot.consistent
  simp only [TaskNetworkSnapshot.executionProjection, compiled, Option.bind_eq_bind,
    Option.bind_some, Option.some.injEq, exists_eq_left']
  exact {
    network := rfl
    nodes := rfl
    edges := fun edge => by simp [holds]
    projected := rfl
    unprojected := fun item => by simp }

namespace Projects
variable {snapshot : TaskNetworkSnapshot} {projection : ExecutionProjection}
  (projects : Projects snapshot projection)
include projects

variable {id : OccurrenceId} {step : OccurrenceId → OccurrenceId → Prop}

theorem entry_eq (reached : id ∈ snapshot.reachableOccurrences) :
    projection.entryNodeId? id = some (snapshot.entryId id) := by
  rw [ExecutionProjection.entryNodeId?, projects.nodes]
  exact TaskNetwork.get?_entryOf reached

theorem exit_eq (reached : id ∈ snapshot.reachableOccurrences) :
    projection.exitNodeId? id = some (snapshot.exitId id) := by
  rw [ExecutionProjection.exitNodeId?, projects.nodes]
  exact TaskNetwork.get?_exitOf reached

theorem projectsReachable : projection.ProjectsReachable := by
  constructor
  · intro id
    rw [projects.projected, projects.network]
    exact TaskNetwork.mem_reachable_iff_path snapshot.consistent id
  · intro id inside
    rw [projects.projected] at inside
    exact ⟨_, _, projects.entry_eq inside, projects.exit_eq inside,
      ExecutionProjection.nodeOf_get? (projects.entry_eq inside), ExecutionProjection.nodeOf_get? (projects.exit_eq inside)⟩

theorem nodeOf_cases {nid : String} (node : projection.NodeOf id nid) :
    nid = snapshot.entryId id ∨ nid = snapshot.exitId id := by
  obtain ⟨node, inside, rfl, rfl⟩ := node
  rw [projects.nodes] at inside
  obtain ⟨spec, found, _, item⟩ := TaskNetwork.mem_compileNodes inside
  rcases (TaskNetwork.mem_rawNodes found).mp item with ⟨_, _, same⟩ | ⟨_, _, same⟩
  · exact Or.inl same
  · exact Or.inr same

def hierarchy : Gates.Hierarchy {id // id ∈ snapshot.reachableOccurrences} String where
  opens parent child := snapshot.Opens parent.1 child.1
  gates parent child := snapshot.Gating parent.1 child.1
  entry id := snapshot.entryId id.1
  exit id := snapshot.exitId id.1
  edge := projection.Edge
  gates_open gate := gate.opens
  open_edge := by
    rintro parent _ ⟨child, inside, names⟩
    have listed := (projects.edges _).mpr (.refining parent.2 (.opens inside))
    exact ⟨_, listed, rfl, by simp [TaskNetwork.openEdge, names]⟩
  close_edge := by
    rintro parent _ ⟨child, inside, gating, names⟩
    have listed := (projects.edges _).mpr (.refining parent.2 (.closes inside gating))
    exact ⟨_, listed, by simp [TaskNetwork.closeEdge, names], rfl⟩
  span := by
    rintro ⟨id, reached⟩ ungated
    obtain ⟨spec, found⟩ := TaskNetwork.reachable_known reached
    cases form : spec.form with
    | primitive => exact Or.inl (by simp [TaskNetwork.entryId, TaskNetwork.exitId, found, form])
    | compound =>
      have none_gates : ∀ child ∈ snapshot.adoptedChildren id,
          child.requiredness.gating = false := by
        intro child inside
        have below := TaskNetwork.Opens.reachable snapshot.consistent ⟨child, inside, rfl⟩ reached
        cases gating : child.requiredness.gating with
        | false => rfl
        | true => exact absurd ⟨child, inside, gating, rfl⟩ (ungated ⟨_, below⟩)
      exact Or.inr ⟨_, (projects.edges _).mpr
        (.refining reached (.span ⟨spec, found, form⟩ none_gates)), rfl, rfl⟩

theorem nodeOf {nid : String} (reached : id ∈ snapshot.reachableOccurrences)
    (node : projection.NodeOf id nid) : projects.hierarchy.NodeOf ⟨id, reached⟩ nid :=
  projects.nodeOf_cases node

omit projects in
theorem descends (opening : ∀ p c, step p c → snapshot.Opens p c) {parent : OccurrenceId}
    (reached : parent ∈ snapshot.reachableOccurrences) (below : ReflTransGen step parent id) :
    ∃ inside : id ∈ snapshot.reachableOccurrences,
      ReflTransGen (fun p c : {id // id ∈ snapshot.reachableOccurrences} => step p.1 c.1)
        ⟨parent, reached⟩ ⟨id, inside⟩ := by
  induction below with
  | refl => exact ⟨reached, .refl⟩
  | tail _ last ih =>
    obtain ⟨inside, path⟩ := ih
    have next := (opening _ _ last).reachable snapshot.consistent inside
    exact ⟨next, path.tail last⟩

omit projects in
theorem descends_strictly (opening : ∀ p c, step p c → snapshot.Opens p c) {parent : OccurrenceId}
    (reached : parent ∈ snapshot.reachableOccurrences) (below : TransGen step parent id) :
    ∃ inside : id ∈ snapshot.reachableOccurrences,
      TransGen (fun p c : {id // id ∈ snapshot.reachableOccurrences} => step p.1 c.1)
        ⟨parent, reached⟩ ⟨id, inside⟩ := by
  obtain ⟨middle, upper, last⟩ := TransGen.tail'_iff.mp below
  obtain ⟨inside, path⟩ := descends opening reached upper
  have next := (opening _ _ last).reachable snapshot.consistent inside
  exact ⟨next, TransGen.tail' path last⟩

end Projects

namespace TaskNetwork
variable (network : TaskNetwork)

/-- An ORDER constraint or a DATA requirement from the first occurrence to the second. -/
def Ordered (first second : OccurrenceId) : Prop :=
  (∃ constraint ∈ network.orderConstraints,
    constraint.before = first ∧ constraint.after = second) ∨
  ∃ requirement ∈ network.dataRequirements,
    requirement.producerOccurrence = first ∧ requirement.consumerOccurrence = second

end TaskNetwork

namespace ExecutionProjection
variable (projection : ExecutionProjection)

/-- The exit of every projected compound is reachable from its entry. -/
def CompoundsSpan : Prop :=
  ∀ id ∈ projection.projectedOccurrences, projection.snapshot.IsCompound id →
    ∃ entry exit, projection.entryNodeId? id = some entry ∧ projection.exitNodeId? id = some exit ∧
      TransGen projection.Edge entry exit

/-- What gates the first end of a relation comes before all that the second end opens. -/
def RelationsOrder : Prop :=
  ∀ first ∈ projection.projectedOccurrences, ∀ second ∈ projection.projectedOccurrences,
    projection.snapshot.Ordered first second →
    ∀ x y, ReflTransGen projection.snapshot.Gating first x →
      ReflTransGen projection.snapshot.Opens second y →
      ∀ n m, projection.NodeOf x n → projection.NodeOf y m → projection.Precedes n m

/-- The entry of a parent comes before all its descendants, its exit after its gating ones. -/
def ParentsBracket : Prop :=
  ∀ parent ∈ projection.projectedOccurrences, ∃ entry exit,
    projection.entryNodeId? parent = some entry ∧ projection.exitNodeId? parent = some exit ∧
    (∀ x n, TransGen projection.snapshot.Opens parent x → projection.NodeOf x n →
      projection.Precedes entry n) ∧
    ∀ x n, TransGen projection.snapshot.Gating parent x → projection.NodeOf x n →
      projection.Precedes n exit

def NodesDistinct : Prop :=
  projection.nodeIds.Nodup ∧
    ∀ first second role role', nodeId first role = nodeId second role' → first = second ∧ role = role'

end ExecutionProjection

namespace Projects
variable {snapshot : TaskNetworkSnapshot} {projection : ExecutionProjection}
  (projects : Projects snapshot projection)
include projects

theorem nodesDistinct : projection.NodesDistinct := by
  constructor
  · rw [ExecutionProjection.nodeIds, projects.nodes]
    exact TaskNetwork.nodeIds_nodup
  · intro first second role role' same
    exact nodeId_inj same

variable (dag : projection.IsDag)
include dag

theorem compoundsSpan : projection.CompoundsSpan := by
  intro id inside compound
  rw [projects.projected] at inside
  rw [projects.network] at compound
  refine ⟨_, _, projects.entry_eq inside, projects.exit_eq inside, ?_⟩
  have path : ReflTransGen projection.Edge (snapshot.entryId id) (snapshot.exitId id) :=
    Gates.Hierarchy.entry_reaches_exit (h := projects.hierarchy) dag ⟨id, inside⟩
  obtain ⟨spec, found, form⟩ := compound
  have apart : snapshot.exitId id ≠ snapshot.entryId id := by
    simp only [TaskNetwork.entryId, TaskNetwork.exitId, found, Option.map_some, form]
    intro same
    exact absurd (nodeId_inj same).2 (by decide)
  exact (reflTransGen_iff_eq_or_transGen.mp path).resolve_left apart

theorem relationsOrder : projection.RelationsOrder := by
  intro first inFirst second inSecond ordered x y left right n m hn hm
  rw [projects.projected] at inFirst inSecond
  rw [projects.network] at ordered left right
  obtain ⟨hx, gated⟩ := descends (fun _ _ gate => gate.opens) inFirst left
  obtain ⟨hy, opened⟩ := descends (fun _ _ opens => opens) inSecond right
  have edge : projection.Edge (snapshot.exitId first) (snapshot.entryId second) := by
    rcases ordered with ⟨constraint, listed, rfl, rfl⟩ | ⟨requirement, listed, rfl, rfl⟩
    · exact ⟨_, (projects.edges _).mpr (.order listed inFirst inSecond), rfl, rfl⟩
    · exact ⟨_, (projects.edges _).mpr (.data listed inFirst inSecond), rfl, rfl⟩
  apply projection.precedes_of_path
  exact Gates.Hierarchy.ordered_descendants (h := projects.hierarchy) dag
    (p := ⟨first, inFirst⟩) (q := ⟨second, inSecond⟩) edge gated opened (projects.nodeOf hx hn)
    (projects.nodeOf hy hm)

theorem parentsBracket : projection.ParentsBracket := by
  intro parent inside
  rw [projects.projected] at inside
  refine ⟨_, _, projects.entry_eq inside, projects.exit_eq inside, ?_, ?_⟩
  · intro x n below node
    rw [projects.network] at below
    obtain ⟨hx, opened⟩ := descends_strictly (fun _ _ opens => opens) inside below
    apply projection.precedes_of_path
    exact Gates.Hierarchy.entry_before_descendant (h := projects.hierarchy) dag
      (p := ⟨parent, inside⟩) opened (projects.nodeOf hx node)
  · intro x n below node
    rw [projects.network] at below
    obtain ⟨hx, gated⟩ := descends_strictly (fun _ _ gate => gate.opens) inside below
    apply projection.precedes_of_path
    exact Gates.Hierarchy.exit_after_gating_descendant (h := projects.hierarchy) dag
      (p := ⟨parent, inside⟩) gated (projects.nodeOf hx node)

end Projects

/-- The projection of every network orders its hierarchy: see the parts it names. -/
theorem execution_projection_orders_hierarchy (snapshot : TaskNetworkSnapshot) :
    ∃ projection, snapshot.executionProjection = some projection ∧
      projection.snapshot = snapshot ∧ projection.ProjectsReachable ∧ projection.NodesDistinct ∧
      (projection.IsDag →
        projection.CompoundsSpan ∧ projection.RelationsOrder ∧ projection.ParentsBracket) := by
  obtain ⟨projection, compiled, projects⟩ := executionProjection_projects snapshot
  refine ⟨projection, compiled, projects.network, projects.projectsReachable,
    projects.nodesDistinct, ?_⟩
  intro dag
  exact ⟨projects.compoundsSpan dag, projects.relationsOrder dag, projects.parentsBracket dag⟩

theorem TaskNetworkSnapshot.dag_of_rank {snapshot : TaskNetworkSnapshot} (rank : String → Nat)
    (climbs : snapshot.executionProjection.map (fun projection => projection.edges.all fun edge =>
      decide (rank edge.source < rank edge.target)) = some true)
    {projection : ExecutionProjection} (compiled : snapshot.executionProjection = some projection) :
    projection.IsDag := by
  apply Digraph.Acyclic.of_rank rank
  rintro _ _ ⟨edge, inside, rfl, rfl⟩
  rw [compiled, Option.map_some, Option.some.injEq, List.all_eq_true] at climbs
  exact of_decide_eq_true (climbs edge inside)

def emptyHash : String := "e3b0c44298fc1c149afbf4c8996fb92427ae41e4649b934ca495991b7852b855"

def compoundTask (task : TaskRef) : TaskSemanticBinding where
  taskId := task
  obligationId := "ship"
  form := .compound
  goalSignature := { signatureId := task }

def primitiveTask (task : TaskRef) : TaskSemanticBinding where
  taskId := task
  obligationId := "ship"
  form := .primitive
  goalSignature := { signatureId := task }
  operatorRef := some ⟨"op", 1, emptyHash⟩

def position (task : TaskRef) (form : TaskForm) : OccurrenceSpec where
  occurrenceId := task
  taskId := task
  obligationId := "ship"
  form := form

def slot (draft : MethodInstanceId) (task : TaskRef) (requiredness : Requiredness) : ChildBinding where
  instanceId := draft
  slotKey := task
  occurrenceId := task
  obligationId := "ship"
  requiredness := requiredness

def releaseNetwork : TaskNetwork where
  missionId := "m"
  planRevision := 1
  occurrences := [position "root" .compound, position "build" .compound,
    position "compile" .primitive, position "lint" .primitive, position "publish" .primitive]
  taskBindings := [compoundTask "root", compoundTask "build", primitiveTask "compile",
    primitiveTask "lint", primitiveTask "publish"]
  methodInstances := [
    { instanceId := "m-root"
      goalId := "root"
      obligationId := "ship"
      methodRef := ⟨"release", 1, emptyHash⟩
      childBindings := [slot "m-root" "build" .required, slot "m-root" "publish" .required] },
    { instanceId := "m-build"
      goalId := "build"
      obligationId := "ship"
      methodRef := ⟨"build", 1, emptyHash⟩
      childBindings := [slot "m-build" "compile" .required,
        slot "m-build" "lint" .optionalAuthorized] }]
  adoptedInstanceIds := ["m-root", "m-build"]
  rootOccurrenceIds := ["root"]
  orderConstraints := [{ before := "build", after := "publish" }]

def release : TaskNetworkSnapshot := ⟨releaseNetwork, by decide⟩

def releaseRank (nid : String) : Nat :=
  ["4:root:entry", "5:build:entry", "4:lint:node", "7:compile:node", "5:build:exit",
    "7:publish:node", "4:root:exit"].idxOf nid

theorem execution_projection_orders_release :
    ∃ projection, release.executionProjection = some projection ∧
      projection.projectedOccurrences = ["compile", "lint", "build", "publish", "root"] ∧
      projection.ProjectsReachable ∧ projection.IsDag ∧ projection.CompoundsSpan ∧
      projection.RelationsOrder ∧ projection.ParentsBracket := by
  obtain ⟨projection, compiled, _, reachable, _, orders⟩ :=
    execution_projection_orders_hierarchy release
  have dag := TaskNetworkSnapshot.dag_of_rank releaseRank (by decide +kernel) compiled
  have listed : release.executionProjection.map (·.projectedOccurrences) =
      some ["compile", "lint", "build", "publish", "root"] := by
    decide +kernel
  rw [compiled] at listed
  exact ⟨projection, compiled, Option.some.inj listed, reachable, dag, orders dag⟩

end Network
