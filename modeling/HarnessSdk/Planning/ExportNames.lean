import HarnessSdk.Planning.HddlExport

/-! What the HDDL export keeps: every occurrence that is reached and the order among the children of
each method; and when two occurrences get one label. -/
namespace Planning
open PyDict PyText Checks Workflow Network

/-! Labels. -/

section
variable (letters : Letters)

/-- What is left of an id: letters and digits in lower case, anything else an underscore, and none at
the end. -/
def folded (id : OccurrenceId) : String := dropLastUnderscores (letters.lower (alnumOnly letters id))

theorem alnumOnly_tagged (id : String) :
    alnumOnly letters ("occ_" ++ id) = "occ_" ++ alnumOnly letters id := by
  have tag : "occ_".toList = ['o', 'c', 'c', '_'] := by decide
  apply String.toList_injective
  simp only [alnumOnly, String.toList_ofList, String.toList_append, tag, List.map_append,
    List.map_cons, List.map_nil, letters.plain.1, letters.plain.2, if_true, ite_self]

theorem dropFirst_tagged (s : String) : dropFirstUnderscores ("occ_" ++ s) = "occ_" ++ s := by
  have tag : "occ_".toList = ['o', 'c', 'c', '_'] := by decide
  apply String.toList_injective
  rw [dropFirstUnderscores, String.toList_ofList, String.toList_append, tag]
  rfl

theorem dropLast_tagged (s : String) : dropLastUnderscores ("occ_" ++ s) =
    if dropLastUnderscores s = "" then "occ" else "occ_" ++ dropLastUnderscores s := by
  have tag : "occ_".toList = ['o', 'c', 'c', '_'] := by decide
  have short : "occ".toList = ['o', 'c', 'c'] := by decide
  apply String.toList_injective
  by_cases empty : s.toList.reverse.dropWhile (fun c => decide (c = '_')) = []
  · have none : dropLastUnderscores s = "" := by
      apply String.toList_injective
      rw [dropLastUnderscores, String.toList_ofList, empty]
      rfl
    rw [if_pos none, short, dropLastUnderscores, String.toList_ofList, String.toList_append, tag,
      List.reverse_append, List.dropWhile_append, empty]
    rfl
  · have some : dropLastUnderscores s ≠ "" := by
      intro none
      apply empty
      have chars := congrArg String.toList none
      rw [dropLastUnderscores, String.toList_ofList] at chars
      simpa using chars
    rw [if_neg some, String.toList_append, tag, dropLastUnderscores, String.toList_ofList,
      String.toList_append, tag, List.reverse_append, List.dropWhile_append]
    have full : (s.toList.reverse.dropWhile fun c => decide (c = '_')).isEmpty = false := by
      simpa using empty
    rw [full, dropLastUnderscores, String.toList_ofList]
    simp

theorem hddlName_tagged (id : OccurrenceId) : hddlName letters ("occ_" ++ id) =
    if folded letters id = "" then "occ" else "occ_" ++ folded letters id := by
  have name : dropLastUnderscores
      (dropFirstUnderscores (letters.lower (alnumOnly letters ("occ_" ++ id)))) =
      if folded letters id = "" then "occ" else "occ_" ++ folded letters id := by
    rw [alnumOnly_tagged, letters.tagged, dropFirst_tagged, dropLast_tagged]
    rfl
  have nonempty : (if folded letters id = "" then "occ" else "occ_" ++ folded letters id) ≠ "" := by
    intro none
    have size := congrArg String.length none
    split at size
    · exact absurd size (by decide)
    · rw [String.length_append] at size
      have four : "occ_".length = 4 := by decide
      have zero : "".length = 0 := by decide
      omega
  unfold hddlName
  dsimp only
  rw [name, if_neg nonempty]

theorem label_eq_iff (a b : OccurrenceId) :
    hddlName letters ("occ_" ++ a) = hddlName letters ("occ_" ++ b) ↔
      folded letters a = folded letters b := by
  constructor
  · intro same
    rw [hddlName_tagged, hddlName_tagged] at same
    have apart : ∀ s, "occ" ≠ "occ_" ++ s := by
      intro s level
      have size := congrArg String.length level
      rw [String.length_append] at size
      have three : "occ".length = 3 := by decide
      have four : "occ_".length = 4 := by decide
      omega
    split at same
    · next none =>
      split at same
      · next none' => rw [none, none']
      · exact absurd same (apart _)
    · split at same
      · exact absurd same.symm (apart _)
      · have chars := congrArg String.toList same
        rw [String.toList_append, String.toList_append] at chars
        exact String.toList_injective (List.append_cancel_left chars)
  · intro same
    rw [hddlName_tagged, hddlName_tagged, same]

end

/-! The walk. -/

section
variable (delta : ProposedPlanDelta) (network : TaskNetwork)

def Expands (id : OccurrenceId) (draft : MethodInstanceDraft) : Prop :=
  ∃ spec, network.occurrence? id = some spec ∧ spec.form = .compound ∧
    id ∉ reusedOccurrences delta network ∧ instanceFor delta network id = some draft

inductive Reached : OccurrenceId → Prop
  | root {id : OccurrenceId} (listed : id ∈ exportRoots delta) : Reached id
  | child {id : OccurrenceId} {draft : MethodInstanceDraft} {child : ChildBinding}
      (above : Reached id) (expands : Expands delta network id draft)
      (listed : child ∈ draft.childBindings) : Reached child.occurrenceId

end

section
variable {letters : Letters} {delta : ProposedPlanDelta} {network : TaskNetwork}

structure Visited (letters : Letters) (delta : ProposedPlanDelta) (network : TaskNetwork)
    (node : ExportNode) : Prop where
  known : node.occurrenceId ∈ network.occurrenceIds
  label : node.label = hddlName letters ("occ_" ++ node.occurrenceId)
  refined : ∀ draft, node.refined = some draft ↔ Expands delta network node.occurrenceId draft
  worked : ∀ draft, node.refined = some draft → node.reused = false

variable {id : OccurrenceId}

variable {node : ExportNode} {nodes' : List ExportNode}

theorem visit_node (visited : visitOccurrence letters delta network id = .ok (.node node)) :
    node.occurrenceId = id ∧ Visited letters delta network node := by
  unfold visitOccurrence at visited
  split at visited
  · cases visited
  · next spec found =>
    have known : id ∈ network.occurrenceIds := by
      rw [← TaskNetwork.occurrence?_isSome_iff, found]
      rfl
    split at visited
    · cases visited
    · dsimp only at visited
      split at visited
      · next reused =>
        cases visited
        refine ⟨rfl, known, by dsimp only, ?_, fun _ none => by cases none⟩
        intro draft
        constructor
        · intro none
          cases none
        · intro ⟨_, _, _, fresh, _⟩
          exact absurd reused fresh
      · next fresh =>
        split at visited
        · next primitive =>
          cases visited
          refine ⟨rfl, known, by dsimp only, ?_, fun _ none => by cases none⟩
          intro draft
          constructor
          · intro none
            cases none
          · intro ⟨other, same, compound, _, _⟩
            rw [found] at same
            cases same
            rw [primitive] at compound
            cases compound
        · next compound =>
          split at visited
          · cases visited
          · next draft refines =>
            cases visited
            have form : spec.form = .compound := by
              cases sort : spec.form with
              | compound => rfl
              | primitive => exact absurd sort compound
            refine ⟨rfl, known, by dsimp only, ?_, fun _ _ => rfl⟩
            intro other
            constructor
            · intro same
              cases same
              exact ⟨spec, found, form, fresh, refines⟩
            · intro ⟨_, _, _, _, refines'⟩
              rw [refines] at refines'
              exact refines'

theorem children_le (visited : Visited letters delta network node) :
    node.children.length ≤ (refinedChildren delta network node.occurrenceId).length := by
  unfold ExportNode.children refinedChildren
  cases sort : node.refined with
  | none => exact Nat.zero_le _
  | some draft =>
    obtain ⟨_, _, _, _, refines⟩ := (visited.refined draft).mp sort
    rw [refines]

structure Walking (letters : Letters) (delta : ProposedPlanDelta) (network : TaskNetwork)
    (pending seen : List OccurrenceId) (nodes : List ExportNode) : Prop where
  same : ∀ id, id ∈ seen ↔ id ∈ nodes.map (·.occurrenceId)
  nodup : (nodes.map (·.occurrenceId)).Nodup
  visited : ∀ node ∈ nodes, Visited letters delta network node
  sound : ∀ id, id ∈ seen ∨ id ∈ pending → Reached delta network id
  roots : ∀ id ∈ exportRoots delta, id ∈ seen ∨ id ∈ pending
  closed : ∀ node ∈ nodes, ∀ id ∈ node.children, id ∈ seen ∨ id ∈ pending

theorem mem_children : id ∈ node.children ↔
    ∃ draft, node.refined = some draft ∧ ∃ child ∈ draft.childBindings,
      child.occurrenceId = id := by
  unfold ExportNode.children
  cases node.refined with
  | none => simp
  | some draft => simp

namespace Walking
variable {pending seen : List OccurrenceId} {nodes : List ExportNode}

variable {id : OccurrenceId}

section
variable (walking : Walking letters delta network (id :: pending) seen nodes)
include walking

theorem skip
    (old : id ∈ seen) : Walking letters delta network pending seen nodes := by
  have still : ∀ other, other ∈ seen ∨ other ∈ id :: pending → other ∈ seen ∨ other ∈ pending := by
    intro other place
    rw [List.mem_cons] at place
    rcases place with done | rfl | later
    · exact Or.inl done
    · exact Or.inl old
    · exact Or.inr later
  constructor
  · exact walking.same
  · exact walking.nodup
  · exact walking.visited
  · exact fun other place => walking.sound other (place.imp_right (List.mem_cons_of_mem id))
  · exact fun other listed => still other (walking.roots other listed)
  · exact fun node inside other below => still other (walking.closed node inside other below)

theorem visit {node : ExportNode} (fresh : id ∉ seen)
    (visited : visitOccurrence letters delta network id = .ok (.node node)) :
    Walking letters delta network (pending ++ node.children) (id :: seen) (nodes ++ [node]) := by
  obtain ⟨rfl, told⟩ := visit_node visited
  have reached := walking.sound node.occurrenceId (Or.inr List.mem_cons_self)
  have still : ∀ other, other ∈ seen ∨ other ∈ node.occurrenceId :: pending →
      other ∈ node.occurrenceId :: seen ∨ other ∈ pending ++ node.children := by
    intro other place
    simp only [List.mem_cons, List.mem_append] at place ⊢
    tauto
  constructor
  · intro other
    rw [List.map_append, List.mem_append, List.mem_cons, walking.same]
    simp [or_comm]
  · rw [List.map_append, List.nodup_append]
    refine ⟨walking.nodup, by simp, ?_⟩
    intro a early b last same
    simp only [List.map_cons, List.map_nil, List.mem_singleton] at last
    exact fresh ((walking.same _).mpr (last ▸ same ▸ early))
  · intro other inside
    cases List.mem_append.mp inside with
    | inl early => exact walking.visited other early
    | inr last => exact List.mem_singleton.mp last ▸ told
  · intro other place
    simp only [List.mem_cons, List.mem_append] at place
    rcases place with (rfl | done) | later | below
    · exact reached
    · exact walking.sound other (Or.inl done)
    · exact walking.sound other (Or.inr (List.mem_cons_of_mem _ later))
    · obtain ⟨draft, refined, child, listed, rfl⟩ := mem_children.mp below
      exact .child reached ((told.refined draft).mp refined) listed
  · exact fun other listed => still other (walking.roots other listed)
  · intro other inside id below
    cases List.mem_append.mp inside with
    | inl early => exact still id (walking.closed other early id below)
    | inr last =>
      rw [List.mem_singleton.mp last] at below
      exact Or.inr (List.mem_append_right _ below)

end

theorem complete (walking : Walking letters delta network [] seen nodes) (id : OccurrenceId) :
    id ∈ nodes.map (·.occurrenceId) ↔ Reached delta network id := by
  rw [← walking.same]
  constructor
  · exact fun done => walking.sound id (Or.inl done)
  · intro reached
    induction reached with
    | root listed => exact (walking.roots _ listed).resolve_right List.not_mem_nil
    | child above expands listed ih =>
      obtain ⟨node, inside, rfl⟩ := List.mem_map.mp ((walking.same _).mp ih)
      have below := mem_children.mpr
        ⟨_, ((walking.visited node inside).refined _).mpr expands, _, listed, rfl⟩
      exact (walking.closed node inside _ below).resolve_right List.not_mem_nil

end Walking

variable {nodes : List ExportNode}

theorem collectFrom_problems {fuel : Nat} {pending seen : List OccurrenceId}
    {problems problems' : List String}
    (ran : collectFrom letters delta network fuel pending seen nodes problems = .ok (nodes',
      problems')) : problems ⊆ problems' := by
  induction fuel generalizing pending seen nodes problems with
  | zero =>
    cases ran
    exact fun _ inside => mem_fromkeys.mpr inside
  | succ fuel ih =>
    cases pending with
    | nil =>
      cases ran
      exact fun _ inside => mem_fromkeys.mpr inside
    | cons id pending =>
      rw [collectFrom] at ran
      split at ran
      · exact ih ran
      · rw [bind_eq_ok] at ran
        obtain ⟨visit, _, ran⟩ := ran
        cases visit with
        | problem text => exact fun p inside => ih ran (List.mem_append_left _ inside)
        | node node => exact ih ran

theorem collectFrom_walks {fuel : Nat} {pending seen : List OccurrenceId}
    (ran : collectFrom letters delta network fuel pending seen nodes [] = .ok (nodes', []))
    (enough : Digraph.work (refinedChildren delta network) network.occurrenceIds pending seen <
      fuel) (walking : Walking letters delta network pending seen nodes) :
    ∃ seen', Walking letters delta network [] seen' nodes' := by
  induction fuel generalizing pending seen nodes with
  | zero => omega
  | succ fuel ih =>
    cases pending with
    | nil =>
      cases ran
      exact ⟨seen, walking⟩
    | cons id pending =>
      rw [collectFrom] at ran
      split at ran
      · next old =>
        apply ih ran _ (walking.skip old)
        simp only [Digraph.work, List.length_cons] at enough ⊢
        omega
      · next fresh =>
        rw [bind_eq_ok] at ran
        obtain ⟨visit, visited, ran⟩ := ran
        cases visit with
        | problem text =>
          have kept := collectFrom_problems ran
            (List.mem_append_right _ (List.mem_singleton_self text))
          cases kept
        | node node =>
          apply ih ran _ (walking.visit fresh visited)
          obtain ⟨rfl, told⟩ := visit_node visited
          have fewer := children_le told
          have paid := Digraph.sum_owed_expand (refinedChildren delta network) told.known fresh
          simp only [Digraph.work, List.length_cons, List.length_append] at enough ⊢
          omega

theorem collectExportNodes_walks
    (ran : collectExportNodes letters delta network = .ok (nodes, [])) :
    ∃ seen, Walking letters delta network [] seen nodes := by
  apply collectFrom_walks ran
  · exact Nat.lt_succ_self _
  · constructor
    · simp
    · simp
    · simp
    · intro id place
      exact .root (place.resolve_left List.not_mem_nil)
    · exact fun id listed => Or.inr listed
    · simp

end

/-! The order among the children. -/

theorem label_ne_empty (n : Nat) : "t" ++ toString n ≠ "" := by
  intro none
  have size := congrArg String.length none
  rw [String.length_append] at size
  have one : "t".length = 1 := by decide
  have zero : "".length = 0 := by decide
  omega

theorem label_inj {m n : Nat} (same : "t" ++ toString m = "t" ++ toString n) : m = n := by
  have chars := congrArg String.toList same
  rw [String.toList_append, String.toList_append] at chars
  exact repr_inj (List.append_cancel_left chars)

variable {occurrenceMap : Dict String String} {draft : MethodInstanceDraft}

theorem childLabels_place {a label : String}
    (found : get? (childLabels occurrenceMap draft) a = some label) :
    ∃ (place : Nat) (child : ChildBinding), draft.childBindings[place]? = some child ∧
      child.occurrenceId = a ∧ label = "t" ++ toString place := by
  rcases get?_update_cases found with entry | empty
  · obtain ⟨place, inside, same⟩ := List.mem_map.mp entry
    have there := List.mem_zipIdx_iff_getElem?.mp (List.mem_of_mem_filter inside)
    obtain ⟨key, text⟩ := Prod.mk.inj same
    exact ⟨place.2, place.1, there, key, text.symm⟩
  · cases empty

/-- The orderings of a method are the pairs among its children, by their labels. -/
structure Exact (network : TaskNetwork) (draft : MethodInstanceDraft)
    (labels : Dict String String) : Prop where
  labelled : ∀ a, (∃ label, get? labels a = some label) ↔
    ∃ child ∈ draft.childBindings, child.occurrenceId = a
  apart : ∀ a b label, get? labels a = some label → get? labels b = some label → a = b
  pairs : ∀ before after, (before, after) ∈ orderingPairs network labels ↔
    ∃ a b, (a, b) ∈ precedencePairs network ∧ get? labels a = some before ∧
      get? labels b = some after

variable {network : TaskNetwork}

theorem mem_orderingPairs {labels : Dict String String}
    (nonempty : ∀ a label, get? labels a = some label → label ≠ "") (before after : String) :
    (before, after) ∈ orderingPairs network labels ↔
      ∃ a b, (a, b) ∈ precedencePairs network ∧ get? labels a = some before ∧
        get? labels b = some after := by
  rw [orderingPairs, mem_sortedByKeys, mem_fromkeys, List.mem_filterMap]
  constructor
  · intro ⟨pair, listed, made⟩
    obtain ⟨first, found, made⟩ := Option.bind_eq_some_iff.mp made
    obtain ⟨second, found', made⟩ := Option.bind_eq_some_iff.mp made
    split at made
    · cases made
      exact ⟨pair.1, pair.2, listed, found, found'⟩
    · cases made
  · intro ⟨a, b, listed, found, found'⟩
    refine ⟨(a, b), listed, ?_⟩
    apply Option.bind_eq_some_iff.mpr
    refine ⟨before, found, ?_⟩
    apply Option.bind_eq_some_iff.mpr
    exact ⟨after, found', if_pos ⟨nonempty a before found, nonempty b after found'⟩⟩

theorem childLabels_exact
    (named : ∀ child ∈ draft.childBindings, (get? occurrenceMap child.occurrenceId).isSome) :
    Exact network draft (childLabels occurrenceMap draft) := by
  constructor
  · intro a
    constructor
    · intro ⟨label, found⟩
      obtain ⟨place, child, there, same, _⟩ := childLabels_place found
      exact ⟨child, List.mem_of_getElem? there, same⟩
    · intro ⟨child, listed, same⟩
      apply Option.isSome_iff_exists.mp
      rw [get?_isSome_iff, childLabels, mem_keys_ofEntries]
      obtain ⟨place, there⟩ := List.mem_iff_getElem?.mp listed
      refine List.mem_map.mpr ⟨_, List.mem_map.mpr ⟨(child, place), ?_, rfl⟩, same⟩
      have target := named child listed
      exact List.mem_filter.mpr ⟨List.mem_zipIdx_iff_getElem?.mpr there, by simpa using target⟩
  · intro a b label found found'
    obtain ⟨place, child, there, same, text⟩ := childLabels_place found
    obtain ⟨place', child', there', same', text'⟩ := childLabels_place found'
    have level := label_inj (text.symm.trans text')
    rw [level, there'] at there
    cases there
    rw [← same, ← same']
  · apply mem_orderingPairs
    intro a label found
    obtain ⟨place, _, _, _, text⟩ := childLabels_place found
    exact text ▸ label_ne_empty place

/-! The export. -/

section
variable {letters : Letters} {delta : ProposedPlanDelta} {network : TaskNetwork}

theorem hddlDecomposition_congr {m m' : Dict String String}
    (same : ∀ id, get? m id = get? m' id) (label : String) (draft : MethodInstanceDraft) :
    hddlDecomposition letters label draft m network =
      hddlDecomposition letters label draft m' network := by
  have labels : childLabels m draft = childLabels m' draft := by
    unfold childLabels
    simp only [same]
  have lines : subtaskLines m draft = subtaskLines m' draft := by
    unfold subtaskLines
    simp only [same]
  unfold hddlDecomposition
  rw [labels, lines]

structure Keeps (letters : Letters) (delta : ProposedPlanDelta) (network : TaskNetwork)
    (value : HddlExport) : Prop where
  covers : ∀ id, id ∈ keys value.occurrenceMap ↔ Reached delta network id
  /-- Each refined occurrence has its method in the domain, ordered as its children are. -/
  written : ∃ lines, value.domainText = join "\n" lines ∧
    ∀ id draft, Reached delta network id → Expands delta network id draft →
      Exact network draft (childLabels value.occurrenceMap draft) ∧
      ∃ label, get? value.occurrenceMap id = some label ∧
        hddlDecomposition letters label draft value.occurrenceMap network ∈ lines

/-- No two occurrences share a label either. -/
structure Faithful (letters : Letters) (delta : ProposedPlanDelta) (network : TaskNetwork)
    (value : HddlExport) : Prop extends Keeps letters delta network value where
  distinct : ∀ a b label, get? value.occurrenceMap a = some label →
    get? value.occurrenceMap b = some label → a = b

section
variable {deltaId domainName : String} {nodes : List ExportNode}
  (nodup : (nodes.map (·.occurrenceId)).Nodup)
include nodup

theorem entries_nodup :
    (keys (nodes.map fun node => (node.occurrenceId, node.label))).Nodup := by
  rw [keys, List.map_map]
  exact nodup

theorem get?_occurrenceMap (id : OccurrenceId) :
    get? (exportOf letters deltaId domainName delta network nodes).occurrenceMap id =
      get? (nodes.map fun node => (node.occurrenceId, node.label)) id := by
  have distinct := entries_nodup nodup
  unfold exportOf
  dsimp only
  rw [ofEntries_of_nodup distinct]
  have perm := perm_sortedBy Prod.fst (nodes.map fun node => (node.occurrenceId, node.label))
  exact (get?_of_perm perm.symm distinct id)

theorem occurrenceMap_eq_some (id label : String) :
    get? (exportOf letters deltaId domainName delta network nodes).occurrenceMap id = some label ↔
      ∃ node ∈ nodes, node.occurrenceId = id ∧ node.label = label := by
  rw [get?_occurrenceMap nodup]
  constructor
  · intro found
    obtain ⟨node, inside, same⟩ := List.mem_map.mp (mem_of_get?_eq_some found)
    cases same
    exact ⟨node, inside, rfl, rfl⟩
  · intro ⟨node, inside, same, same'⟩
    subst same
    subst same'
    exact get?_eq_some_of_mem (entries_nodup nodup) (List.mem_map.mpr ⟨node, inside, rfl⟩)

end

theorem exportOf_keeps {deltaId domainName : String} {seen : List OccurrenceId}
    {nodes : List ExportNode} (walking : Walking letters delta network [] seen nodes) :
    Keeps letters delta network (exportOf letters deltaId domainName delta network nodes) := by
  have found := @occurrenceMap_eq_some letters delta network deltaId domainName nodes walking.nodup
  have covers : ∀ id, id ∈ keys (exportOf letters deltaId domainName delta network
      nodes).occurrenceMap ↔ Reached delta network id := by
    intro id
    rw [← get?_isSome_iff, Option.isSome_iff_exists, ← walking.complete id, List.mem_map]
    simp only [found]
    constructor
    · intro ⟨_, node, inside, same, _⟩
      exact ⟨node, inside, same⟩
    · intro ⟨node, inside, same⟩
      exact ⟨_, node, inside, same, rfl⟩
  refine ⟨covers, _, rfl, ?_⟩
  intro id draft reached expands
  constructor
  · apply childLabels_exact
    intro child listed
    rw [get?_isSome_iff]
    exact (covers _).mpr (.child reached expands listed)
  · obtain ⟨node, inside, rfl⟩ := List.mem_map.mp ((walking.complete id).mpr reached)
    have told := walking.visited node inside
    have refined := (told.refined draft).mpr expands
    refine ⟨node.label, (found _ _).mpr ⟨node, inside, rfl, rfl⟩, ?_⟩
    have block : methodBlock letters (ofEntries (nodes.map fun node =>
        (node.occurrenceId, node.label))) network node =
        hddlDecomposition letters node.label draft
          (exportOf letters deltaId domainName delta network nodes).occurrenceMap network := by
      have level : ∀ id, get? (exportOf letters deltaId domainName delta network
          nodes).occurrenceMap id =
          get? (ofEntries (nodes.map fun node => (node.occurrenceId, node.label))) id := by
        intro id
        rw [get?_occurrenceMap walking.nodup, ofEntries_of_nodup (entries_nodup walking.nodup)]
      rw [hddlDecomposition_congr level]
      unfold methodBlock
      simp only [told.worked draft refined, refined, Bool.false_eq_true, if_false]
    have listed : hddlDecomposition letters node.label draft
        (exportOf letters deltaId domainName delta network nodes).occurrenceMap network ∈
        methodBlocks letters (ofEntries (nodes.map fun node => (node.occurrenceId, node.label)))
          network nodes := by
      rw [← block]
      exact List.mem_map_of_mem ((mem_sortedBy _ _ _).mpr inside)
    unfold domainLines
    simp only [List.mem_append]
    exact Or.inl (Or.inl (Or.inl (Or.inr listed)))

theorem toHddl_exports {deltaId domainName : String} {snapshot : TaskNetworkSnapshot}
    {methods : Dict String Registry.MethodContract} {value : HddlExport}
    (ran : toHddl letters deltaId delta snapshot methods domainName = .ok (.exported value)) :
    ∃ seen nodes, Walking letters delta snapshot.toTaskNetwork [] seen nodes ∧
      value = exportOf letters deltaId domainName delta snapshot.toTaskNetwork nodes := by
  unfold toHddl at ran
  rw [bind_eq_ok] at ran
  obtain ⟨features, _, ran⟩ := ran
  dsimp only at ran
  rw [bind_eq_ok] at ran
  obtain ⟨⟨nodes, problems⟩, walked, ran⟩ := ran
  dsimp only at ran
  generalize (features ++ if delta.methodInstances.isEmpty = true then
    ["no-decomposition-to-export"] else []) = noted at ran
  split at ran
  · cases ran
  · next nothing =>
    rw [not_not, List.append_eq_nil_iff] at nothing
    obtain ⟨supported, none⟩ := nothing
    rw [supported] at none
    have clean : problems = [] := by simpa using none
    subst clean
    obtain ⟨seen, walking⟩ := collectExportNodes_walks walked
    cases ran
    exact ⟨seen, nodes, walking, rfl⟩

end

/-- The export tells all occurrences apart exactly when no two of those that are reached have ids
that fold alike. -/
theorem toHddl_faithful_iff (letters : Letters) (deltaId : String) (delta : ProposedPlanDelta)
    (network : TaskNetworkSnapshot) (methods : Dict String Registry.MethodContract)
    (domainName : String) (value : HddlExport)
    (exported : toHddl letters deltaId delta network methods domainName =
      .ok (.exported value)) :
    Faithful letters delta network.toTaskNetwork value ↔
      ∀ a b, Reached delta network.toTaskNetwork a → Reached delta network.toTaskNetwork b →
        folded letters a = folded letters b → a = b := by
  obtain ⟨seen, nodes, walking, rfl⟩ := toHddl_exports exported
  have found := @occurrenceMap_eq_some letters delta network.toTaskNetwork deltaId domainName nodes
    walking.nodup
  constructor
  · intro faithful a b first second level
    obtain ⟨node, inside, rfl⟩ := List.mem_map.mp ((walking.complete a).mpr first)
    obtain ⟨node', inside', rfl⟩ := List.mem_map.mp ((walking.complete b).mpr second)
    apply faithful.distinct _ _ node.label
    · exact (found _ _).mpr ⟨node, inside, rfl, rfl⟩
    · refine (found _ _).mpr ⟨node', inside', rfl, ?_⟩
      rw [(walking.visited node inside).label, (walking.visited node' inside').label]
      exact (label_eq_iff letters _ _).mpr level.symm
  · intro apart
    refine ⟨exportOf_keeps walking, ?_⟩
    intro a b label first second
    obtain ⟨node, inside, rfl, rfl⟩ := (found _ _).mp first
    obtain ⟨node', inside', rfl, same⟩ := (found _ _).mp second
    apply apart
    · exact (walking.complete _).mp (List.mem_map_of_mem inside)
    · exact (walking.complete _).mp (List.mem_map_of_mem inside')
    · rw [(walking.visited node inside).label, (walking.visited node' inside').label] at same
      exact ((label_eq_iff letters _ _).mp same).symm

def asciiLetters : Letters where
  isAlnum := Char.isAlphanum
  lower := fun s => String.ofList (s.toList.map Char.toLower)
  plain := by decide
  tagged := by
    intro s
    apply String.toList_injective
    simp only [String.toList_ofList, String.toList_append, List.map_append]
    congr 1

def siteNetwork (first second : OccurrenceId) (apart : first ≠ second) : TaskNetwork where
  missionId := "m"
  planRevision := 1
  occurrences := [position "site" .compound, position first .primitive, position second .primitive]
  taskBindings := [compoundTask "site", primitiveTask first, primitiveTask second]
  methodInstances := [
    { instanceId := "m-site"
      goalId := "site"
      obligationId := "ship"
      methodRef := ⟨"site", 1, emptyHash⟩
      childBindings := [slot "m-site" first .required, slot "m-site" second .required]
      slotsDistinct := by simpa [slot] using apart
      ownBindings := by simp [slot] }]
  adoptedInstanceIds := ["m-site"]
  rootOccurrenceIds := ["site"]
  orderConstraints := [{ before := first, after := second, differ := apart }]

def siteDelta (network : TaskNetwork) : ProposedPlanDelta where
  missionId := "m"
  basePlanRevision := 0
  methodInstances := network.methodInstances
  occurrences := network.occurrences
  retiredInstanceIds := []
  orderConstraints := network.orderConstraints
  dataRequirements := []
  obligationCoverage := []
  obligationOpenings := []
  referencedOccurrences := []

def plainSite : TaskNetworkSnapshot := ⟨siteNetwork "o-a" "o-b" (by decide), by decide⟩

def twinSite : TaskNetworkSnapshot := ⟨siteNetwork "o-a" "o_a" (by decide), by decide⟩

def exportSite (network : TaskNetworkSnapshot) : Except Message HddlResult :=
  toHddl asciiLetters "d" (siteDelta network.toTaskNetwork) network [] "plan"

def exportedMap : Except Message HddlResult → Option (Dict String String)
  | .ok (.exported value) => some value.occurrenceMap
  | _ => none

theorem exists_of_exportedMap {result : Except Message HddlResult} {map : Dict String String}
    (named : exportedMap result = some map) :
    ∃ value, result = .ok (.exported value) ∧ value.occurrenceMap = map := by
  unfold exportedMap at named
  split at named
  · cases named
    exact ⟨_, rfl, rfl⟩
  · cases named

theorem plain_site_faithful : ∃ value, exportSite plainSite = .ok (.exported value) ∧
    Faithful asciiLetters (siteDelta plainSite.toTaskNetwork) plainSite.toTaskNetwork value := by
  have named : exportedMap (exportSite plainSite) =
      some [("o-a", "occ_o_a"), ("o-b", "occ_o_b"), ("site", "occ_site")] := by
    decide +kernel
  obtain ⟨value, exported, map⟩ := exists_of_exportedMap named
  refine ⟨value, exported, (toHddl_faithful_iff _ _ _ _ _ _ _ exported).mpr ?_⟩
  obtain ⟨seen, nodes, walking, made⟩ := toHddl_exports exported
  have keeps : Keeps asciiLetters _ _ value := made ▸ exportOf_keeps walking
  have covers := keeps.covers
  rw [map] at covers
  have apart : ∀ a ∈ ["o-a", "o-b", "site"], ∀ b ∈ ["o-a", "o-b", "site"],
      folded asciiLetters a = folded asciiLetters b → a = b := by
    decide +kernel
  intro a b first second level
  exact apart a ((covers a).mpr first) b ((covers b).mpr second) level

/-- Ids that differ only in a dash and an underscore get one label, and the planner sees one task. -/
theorem twin_site_merged : ∃ value, exportSite twinSite = .ok (.exported value) ∧
    get? value.occurrenceMap "o-a" = some "occ_o_a" ∧
    get? value.occurrenceMap "o_a" = some "occ_o_a" ∧
    (siteDelta twinSite.toTaskNetwork).postInit = .ok () ∧
    ¬ Faithful asciiLetters (siteDelta twinSite.toTaskNetwork) twinSite.toTaskNetwork value := by
  have named : exportedMap (exportSite twinSite) =
      some [("o-a", "occ_o_a"), ("o_a", "occ_o_a"), ("site", "occ_site")] := by
    decide +kernel
  obtain ⟨value, exported, map⟩ := exists_of_exportedMap named
  have first : get? value.occurrenceMap "o-a" = some "occ_o_a" := by
    rw [map]
    decide
  have second : get? value.occurrenceMap "o_a" = some "occ_o_a" := by
    rw [map]
    decide
  refine ⟨value, exported, first, second, by decide +kernel, ?_⟩
  intro faithful
  exact absurd (faithful.distinct _ _ _ first second) (by decide)

end Planning
