import HarnessSdk.Network.KahnOrder
import HarnessSdk.Network.ProjectionWiring

/-! When the resource check of a projection reports the conflicts there are, each pair once. -/
namespace Network
open PyDict PyText Checks
open Relation

/-! Exploration in which every node counts as known. -/

variable {children : String → List String} {nodes : List String}

section
variable (closed : ∀ a ∈ nodes, ∀ b ∈ children a, b ∈ nodes)
include closed

theorem explore_known (fuel : Nat)
    {pending : List String} (seen : List String) (inside : pending ⊆ nodes) :
    Digraph.explore (fun _ => true) children fuel pending seen =
      Digraph.explore (· ∈ nodes) children fuel pending seen := by
  induction fuel generalizing pending seen with
  | zero => rfl
  | succ fuel ih =>
    cases pending with
    | nil => rfl
    | cons a rest =>
      obtain ⟨here, later⟩ := List.cons_subset.mp inside
      rw [Digraph.explore, Digraph.explore]
      simp only [here, decide_true, Bool.true_eq_false, or_false]
      split
      · exact ih seen later
      · apply ih
        rw [List.append_subset]
        exact ⟨fun b child => closed a here b (List.mem_reverse.mp child), later⟩

theorem mem_explore_children {start : String}
    (inside : children start ⊆ nodes) (a : String) :
    a ∈ Digraph.explore (fun _ => true) children
        (Digraph.work children nodes (children start) []) (children start).reverse [] ↔
      TransGen (fun a b => b ∈ children a) start a := by
  have reversed : (children start).reverse ⊆ nodes := fun b child =>
    inside (List.mem_reverse.mp child)
  rw [explore_known closed _ _ reversed, @Digraph.mem_explore_iff _ _ _ _ nodes]
  · have opens : Digraph.Opens (fun b => decide (b ∈ nodes)) children =
        fun a b => b ∈ children a ∧ b ∈ nodes := by
      funext a b
      simp [Digraph.Opens]
    simp only [Digraph.Reached, opens, List.mem_reverse, decide_eq_true_eq]
    rw [TransGen.head'_iff]
    constructor
    · intro ⟨first, step, _, path⟩
      exact ⟨first, step, ReflTransGen.mono (fun _ _ edge => edge.1) _ _ path⟩
    · intro ⟨first, step, path⟩
      refine ⟨first, step, inside step, ?_⟩
      have known : ∀ {b}, ReflTransGen (fun a b => b ∈ children a) first b →
          b ∈ nodes ∧ ReflTransGen (fun a b => b ∈ children a ∧ b ∈ nodes) first b := by
        intro b path
        induction path with
        | refl => exact ⟨inside step, .refl⟩
        | tail _ edge ih =>
          have next := closed _ ih.1 _ edge
          exact ⟨next, ih.2.tail ⟨edge, next⟩⟩
      exact (known path).2
  · exact fun a known => by simpa using known
  · rw [Digraph.work, Digraph.work, List.length_reverse]

end

/-! Pairs. -/

theorem mem_pairs_cases {α : Type} {items : List α} {pair : α × α} (inside : pair ∈ pairs items) :
    pair.1 ∈ items ∧ pair.2 ∈ items := by
  induction items with
  | nil => cases inside
  | cons a rest ih =>
    rw [pairs, List.mem_append, List.mem_map] at inside
    rcases inside with ⟨b, later, rfl⟩ | inner
    · exact ⟨List.mem_cons_self, List.mem_cons_of_mem _ later⟩
    · exact ⟨List.mem_cons_of_mem _ (ih inner).1, List.mem_cons_of_mem _ (ih inner).2⟩

theorem count_pairs {items : List String} {a b : String} (apart : a ≠ b) :
    ((pairs items).map fun pair => s(pair.1, pair.2)).count s(a, b) =
      items.count a * items.count b := by
  induction items with
  | nil => rfl
  | cons first rest ih =>
    have here : ((rest.map fun c => (first, c)).map fun pair => s(pair.1, pair.2)).count s(a, b) =
        if first = a then rest.count b else if first = b then rest.count a else 0 := by
      rw [List.map_map]
      rw [List.count_eq_countP, List.countP_map]
      simp only [Function.comp_def]
      split
      · next same =>
        rw [List.count_eq_countP]
        congr 1
        funext c
        simp [same, apart]
      · next other =>
        split
        · next same =>
          rw [List.count_eq_countP]
          congr 1
          funext c
          simp [same, Ne.symm apart]
        · next neither => simp [other, neither]
    rw [pairs, List.map_append, List.count_append, here, ih, List.count_cons, List.count_cons]
    by_cases same : first = a
    · subst same
      have other : (first == b) = false := by simpa using apart
      simp only [if_true, beq_self_eq_true, other, Bool.false_eq_true, if_false, Nat.add_zero,
        Nat.add_mul, Nat.one_mul]
      exact Nat.add_comm _ _
    · by_cases same' : first = b
      · subst same'
        have other : (first == a) = false := by simpa using same
        simp only [same, if_true, beq_self_eq_true, other, Bool.false_eq_true, if_false,
          Nat.add_zero, Nat.mul_add, Nat.mul_one]
        exact Nat.add_comm _ _
      · simp [same, same']

/-! The conflicts there are. -/

namespace TaskNetwork
variable (network : TaskNetwork)

def readKeys (id : OccurrenceId) : List (String × String) :=
  (network.bindingForOccurrence? id).toList.flatMap fun binding =>
    binding.resourceReads.map (·.key)

def writeKeys (id : OccurrenceId) : List (String × String) :=
  (network.bindingForOccurrence? id).toList.flatMap fun binding =>
    binding.resourceWrites.map (·.key)

def declarations (id : OccurrenceId) (key : String × String) : Nat :=
  (network.readKeys id).count key + (network.writeKeys id).count key

/-- The first occurrence is an adopted refinement ancestor of the second. -/
def RefinedFrom (ancestor id : OccurrenceId) : Prop :=
  TransGen (fun child parent => parent ∈ network.parentsOf child) id ancestor

end TaskNetwork

/-- The exit of the first occurrence reaches the entry of the second. -/
def ExecutionProjection.Runs (projection : ExecutionProjection) (first second : OccurrenceId) :
    Prop :=
  ∃ source target, projection.exitNodeId? first = some source ∧
    projection.entryNodeId? second = some target ∧ TransGen projection.Edge source target

/-- Two occurrences touch the key, one of them writing, and nothing keeps them apart. -/
structure InConflict (projection : ExecutionProjection) (key : String × String)
    (a b : OccurrenceId) : Prop where
  differ : a ≠ b
  projected : a ∈ projection.projectedOccurrences ∧ b ∈ projection.projectedOccurrences
  touches : 0 < projection.snapshot.declarations a key ∧ 0 < projection.snapshot.declarations b key
  writes : key ∈ projection.snapshot.writeKeys a ∨ key ∈ projection.snapshot.writeKeys b
  unordered : ¬ projection.Runs a b ∧ ¬ projection.Runs b a
  unrelated : ¬ projection.snapshot.RefinedFrom a b ∧ ¬ projection.snapshot.RefinedFrom b a

variable {projection : ExecutionProjection} {key : String × String} {network : TaskNetwork}

theorem InConflict.symm {a b : OccurrenceId} (conflict : InConflict projection key a b) :
    InConflict projection key b a where
  differ := conflict.differ.symm
  projected := conflict.projected.symm
  touches := conflict.touches.symm
  writes := conflict.writes.symm
  unordered := conflict.unordered.symm
  unrelated := conflict.unrelated.symm

/-- There are this many unordered pairs in conflict over the key. -/
def CountsPairs (projection : ExecutionProjection) (key : String × String) (n : Nat) : Prop :=
  ∃ conflicts : List (Sym2 OccurrenceId), conflicts.Nodup ∧ conflicts.length = n ∧
    ∀ pair, pair ∈ conflicts ↔ ∃ a b, pair = s(a, b) ∧ InConflict projection key a b

def conflictsIn (projection : ExecutionProjection)
    (bucket : (String × String) × List OccurrenceId) : List (OccurrenceId × OccurrenceId) :=
  (pairs bucket.2).filter (clash projection (declaredSuccessors projection) bucket.1)

/-! What a bucket holds. -/

theorem mem_resourceConflicts {left right : TaskSemanticBinding} :
    key ∈ resourceConflicts left right ↔
      (key ∈ left.resourceReads.map (·.key) ∨ key ∈ left.resourceWrites.map (·.key)) ∧
      (key ∈ right.resourceReads.map (·.key) ∨ key ∈ right.resourceWrites.map (·.key)) ∧
      (key ∈ left.resourceWrites.map (·.key) ∨ key ∈ right.resourceWrites.map (·.key)) := by
  simp only [resourceConflicts, List.mem_append, List.mem_filter, decide_eq_true_eq]
  tauto

theorem declarations_pos {id : OccurrenceId} :
    0 < network.declarations id key ↔ key ∈ network.readKeys id ∨ key ∈ network.writeKeys id := by
  rw [TaskNetwork.declarations, ← List.count_pos_iff, ← List.count_pos_iff]
  omega

theorem count_flatMap_replicate {ids : List OccurrenceId} (distinct : ids.Nodup)
    (times : OccurrenceId → Nat) (a : OccurrenceId) :
    (ids.flatMap fun id => List.replicate (times id) id).count a =
      if a ∈ ids then times a else 0 := by
  induction ids with
  | nil => rfl
  | cons first rest ih =>
    rw [List.nodup_cons] at distinct
    rw [List.flatMap_cons, List.count_append, ih distinct.2, List.count_replicate]
    by_cases same : first = a
    · subst same
      simp [distinct.1]
    · simp [same, Ne.symm same]

theorem refs_replicate (refs : List ResourceRef) (key : String × String) (id : OccurrenceId) :
    ((refs.map fun ref => (ref.key, id)).filter (·.1 = key)).map (·.2) =
      List.replicate ((refs.map (·.key)).count key) id := by
  induction refs with
  | nil => rfl
  | cons ref rest ih =>
    rw [List.map_cons, List.map_cons, List.count_cons]
    by_cases same : ref.key = key
    · rw [List.filter_cons_of_pos (by simpa using same), List.map_cons, ih, if_pos (by simp [same]),
        List.replicate_succ]
    · rw [List.filter_cons_of_neg (by simpa using same), ih, if_neg (by simp [same]), Nat.add_zero]

def touchesOf (projection : ExecutionProjection) (id : OccurrenceId) :
    List ((String × String) × OccurrenceId) :=
  (projection.snapshot.bindingForOccurrence? id).toList.flatMap fun binding =>
    (binding.resourceReads ++ binding.resourceWrites).map fun ref => (ref.key, id)

theorem touchesOf_replicate (projection : ExecutionProjection) (key : String × String)
    (id : OccurrenceId) :
    ((touchesOf projection id).filter (·.1 = key)).map (·.2) =
      List.replicate (projection.snapshot.declarations id key) id := by
  unfold touchesOf TaskNetwork.declarations TaskNetwork.readKeys TaskNetwork.writeKeys
  cases projection.snapshot.bindingForOccurrence? id with
  | none => rfl
  | some binding =>
    simp only [Option.toList_some, List.flatMap_singleton]
    rw [refs_replicate, List.map_append, List.count_append]

theorem bucket_count (distinct : projection.projectedOccurrences.Nodup)
    {bucket : (String × String) × List OccurrenceId}
    (inside : bucket ∈ resourceBuckets projection) (a : OccurrenceId) :
    bucket.2.count a =
      if a ∈ projection.projectedOccurrences then
        projection.snapshot.declarations a bucket.1
      else 0 := by
  simp only [resourceBuckets, List.mem_map] at inside
  obtain ⟨key, _, rfl⟩ := inside
  have ordered : (sorted projection.projectedOccurrences).Nodup :=
    (perm_sortedBy id _).nodup_iff.mpr distinct
  have part := touchesOf_replicate projection key
  unfold touchesOf at part
  dsimp only
  rw [List.filter_flatMap, List.map_flatMap]
  simp only [part]
  rw [count_flatMap_replicate ordered]
  simp only [mem_sorted]

theorem bucket_exists {a : OccurrenceId} (projected : a ∈ projection.projectedOccurrences)
    (touches : 0 < projection.snapshot.declarations a key) :
    ∃ bucket ∈ resourceBuckets projection, bucket.1 = key := by
  have held : key ∈ (touchesOf projection a).map (·.1) := by
    have some : ((touchesOf projection a).filter (·.1 = key)).map (·.2) ≠ [] := by
      rw [touchesOf_replicate, ne_eq, List.replicate_eq_nil_iff]
      omega
    rw [ne_eq, List.map_eq_nil_iff] at some
    obtain ⟨entry, inside⟩ := List.exists_mem_of_ne_nil _ some
    rw [List.mem_filter, decide_eq_true_eq] at inside
    exact List.mem_map.mpr ⟨entry, inside⟩
  obtain ⟨entry, inside, rfl⟩ := List.mem_map.mp held
  refine ⟨_, List.mem_map.mpr ⟨entry.1, ?_, rfl⟩, rfl⟩
  rw [mem_sortedByKeys, List.mem_dedup, List.mem_map]
  exact ⟨entry, List.mem_flatMap.mpr ⟨a, (mem_sorted _ _).mpr projected, inside⟩, rfl⟩

/-! The pairs that are counted. -/

theorem mem_ancestorsOf (consistent : network.Consistent) (ancestor id : OccurrenceId) :
    ancestor ∈ network.ancestorsOf id ↔ network.RefinedFrom ancestor id := by
  have known : ∀ a, network.parentsOf a ⊆ network.occurrenceIds := by
    intro a parent inside
    simp only [TaskNetwork.parentsOf, List.mem_map, List.mem_filter] at inside
    obtain ⟨draft, ⟨listed, _⟩, rfl⟩ := inside
    obtain ⟨spec, found, _⟩ := consistent.refines draft listed
    rw [← TaskNetwork.occurrence?_isSome_iff, found]
    rfl
  exact mem_explore_children (fun a _ b inside => known a inside) (known id) ancestor

section
variable {snapshot : TaskNetworkSnapshot} {projection : ExecutionProjection}
  (projects : Projects snapshot projection)
include projects

theorem Projects.mem_after (a b : String) :
    b ∈ (declaredSuccessors projection).after a ↔ projection.Edge a b := by
  have distinct := projects.nodesDistinct.1
  constructor
  · intro follows
    by_cases known : a ∈ projection.nodeIds
    · obtain ⟨edge, inside, source, target, _⟩ := mem_after_declared distinct known follows
      exact ⟨edge, inside, source, target⟩
    · have absent : get? (declaredSuccessors projection) a = none := by
        rw [get?_eq_none_iff, keys_declaredSuccessors]
        exact known
      rw [Adjacency.after, absent] at follows
      cases follows
  · rintro ⟨edge, inside, source, target⟩
    subst source target
    have ends := projects.ends_declared inside
    exact mem_declaredSuccessors distinct inside ends.1 ends.2

theorem Projects.ordered_iff (first second : OccurrenceId) :
    ordered projection (declaredSuccessors projection) first second = true ↔
      projection.Runs first second := by
  unfold ordered ExecutionProjection.Runs
  cases projection.exitNodeId? first with
  | none => simp
  | some source =>
    cases projection.entryNodeId? second with
    | none => simp
    | some target =>
      have edges : projection.Edge = fun a b => b ∈ (declaredSuccessors projection).after a := by
        funext a b
        rw [eq_iff_iff, projects.mem_after]
      have closed : ∀ a, (declaredSuccessors projection).after a ⊆
          keys (declaredSuccessors projection) := by
        intro a b follows
        obtain ⟨edge, inside, _, rfl⟩ := (projects.mem_after a b).mp follows
        rw [keys_declaredSuccessors]
        exact (projects.ends_declared inside).2
      have reached : target ∈ reachableFrom (declaredSuccessors projection) source ↔
          TransGen projection.Edge source target := by
        rw [edges]
        exact mem_explore_children (fun a _ b follows => closed a follows) (closed source) target
      simp only [Bool.and_eq_true, decide_eq_true_eq, reached, Option.some.injEq]
      constructor
      · intro ⟨_, path⟩
        exact ⟨source, target, rfl, rfl, path⟩
      · intro ⟨_, _, leaves, enters, path⟩
        subst leaves enters
        obtain ⟨_, ⟨edge, inside, rfl, _⟩, _⟩ := TransGen.head'_iff.mp path
        rw [keys_declaredSuccessors]
        exact ⟨(projects.ends_declared inside).1, path⟩

theorem Projects.clash_iff {key : String × String} {a b : OccurrenceId}
    (left : a ∈ projection.projectedOccurrences) (right : b ∈ projection.projectedOccurrences) :
    clash projection (declaredSuccessors projection) key (a, b) = true ↔
      InConflict projection key a b := by
  have related : ∀ x y, x ∈ projection.snapshot.ancestorsOf y ↔
      projection.snapshot.RefinedFrom x y := mem_ancestorsOf projection.snapshot.consistent
  have touching : ∀ x binding, projection.snapshot.bindingForOccurrence? x = some binding →
      (0 < projection.snapshot.declarations x key ↔
        key ∈ binding.resourceReads.map (·.key) ∨ key ∈ binding.resourceWrites.map (·.key)) ∧
      (key ∈ projection.snapshot.writeKeys x ↔ key ∈ binding.resourceWrites.map (·.key)) := by
    intro x binding found
    rw [declarations_pos, TaskNetwork.readKeys, TaskNetwork.writeKeys, found]
    simp
  have untouched : ∀ x, projection.snapshot.bindingForOccurrence? x = none →
      ¬ 0 < projection.snapshot.declarations x key := by
    intro x missing
    rw [declarations_pos, TaskNetwork.readKeys, TaskNetwork.writeKeys, missing]
    simp
  unfold clash
  dsimp only
  cases found : projection.snapshot.toTaskNetwork.bindingForOccurrence? a with
  | none =>
    simp only [Bool.false_eq_true, false_iff]
    exact fun conflict => untouched a found conflict.touches.1
  | some binding =>
    cases found' : projection.snapshot.toTaskNetwork.bindingForOccurrence? b with
    | none =>
      simp only [Bool.false_eq_true, false_iff]
      exact fun conflict => untouched b found' conflict.touches.2
    | some binding' =>
      have here := touching a binding found
      have there := touching b binding' found'
      have ahead := projects.ordered_iff a b
      have behind := projects.ordered_iff b a
      simp only [Bool.and_eq_true, Bool.not_eq_true', Bool.or_eq_false_iff, decide_eq_true_eq,
        decide_eq_false_iff_not, mem_resourceConflicts, related]
      rw [← Bool.not_eq_true, ← Bool.not_eq_true, ahead, behind]
      constructor
      · intro ⟨⟨⟨⟨differ, touches, touches', writes⟩, apart⟩, unordered⟩, unordered'⟩
        exact {
          differ := differ
          projected := ⟨left, right⟩
          touches := ⟨here.1.mpr touches, there.1.mpr touches'⟩
          writes := writes.imp here.2.mpr there.2.mpr
          unordered := ⟨unordered, unordered'⟩
          unrelated := apart.symm }
      · intro conflict
        exact ⟨⟨⟨⟨conflict.differ, here.1.mp conflict.touches.1, there.1.mp conflict.touches.2,
          conflict.writes.imp here.2.mp there.2.mp⟩, conflict.unrelated.symm⟩,
          conflict.unordered.1⟩, conflict.unordered.2⟩

theorem Projects.projected_nodup : projection.projectedOccurrences.Nodup := by
  rw [projects.projected]
  exact Digraph.explore_nodup List.nodup_nil

variable {bucket : (String × String) × List OccurrenceId}

section
variable (inside : bucket ∈ resourceBuckets projection)
include inside

theorem Projects.mem_bucket (a : OccurrenceId) :
    a ∈ bucket.2 ↔ a ∈ projection.projectedOccurrences ∧
      0 < projection.snapshot.declarations a bucket.1 := by
  rw [← List.count_pos_iff, bucket_count projects.projected_nodup inside]
  split
  · next projected => simp [projected]
  · next other => simp [other]

theorem Projects.count_conflicts
    {a b : OccurrenceId} (conflict : InConflict projection bucket.1 a b) :
    ((conflictsIn projection bucket).map fun pair => s(pair.1, pair.2)).count s(a, b) =
      projection.snapshot.declarations a bucket.1 *
        projection.snapshot.declarations b bucket.1 := by
  have whole := @count_pairs bucket.2 _ _ conflict.differ
  rw [bucket_count projects.projected_nodup inside, bucket_count projects.projected_nodup inside,
    if_pos conflict.projected.1, if_pos conflict.projected.2] at whole
  rw [← whole, conflictsIn, List.count_eq_countP, List.count_eq_countP, List.countP_map,
    List.countP_map, List.countP_filter]
  apply List.countP_congr
  intro pair member
  simp only [Function.comp_apply, beq_iff_eq, Bool.and_eq_true, and_iff_left_iff_imp]
  intro same
  rcases Sym2.eq_iff.mp same with ⟨first, second⟩ | ⟨first, second⟩
  · rw [← Prod.mk.eta (p := pair), first, second]
    exact (projects.clash_iff conflict.projected.1 conflict.projected.2).mpr conflict
  · rw [← Prod.mk.eta (p := pair), first, second]
    exact (projects.clash_iff conflict.projected.2 conflict.projected.1).mpr conflict.symm

theorem Projects.mem_conflicts
    (pair : Sym2 OccurrenceId) :
    pair ∈ (conflictsIn projection bucket).map (fun pair => s(pair.1, pair.2)) ↔
      ∃ a b, pair = s(a, b) ∧ InConflict projection bucket.1 a b := by
  constructor
  · intro counted
    obtain ⟨⟨a, b⟩, kept, rfl⟩ := List.mem_map.mp counted
    rw [conflictsIn, List.mem_filter] at kept
    obtain ⟨left, right⟩ := mem_pairs_cases kept.1
    exact ⟨a, b, rfl, (projects.clash_iff ((projects.mem_bucket inside a).mp left).1
      ((projects.mem_bucket inside b).mp right).1).mp kept.2⟩
  · intro ⟨a, b, same, conflict⟩
    rw [same, ← List.count_pos_iff, projects.count_conflicts inside conflict]
    exact Nat.mul_pos conflict.touches.1 conflict.touches.2

theorem Projects.countsPairs_iff :
    CountsPairs projection bucket.1 (conflictsIn projection bucket).length ↔
      ∀ a b, InConflict projection bucket.1 a b →
        projection.snapshot.declarations a bucket.1 = 1 := by
  have members := projects.mem_conflicts inside
  have nodup_iff : CountsPairs projection bucket.1 (conflictsIn projection bucket).length ↔
      ((conflictsIn projection bucket).map fun pair => s(pair.1, pair.2)).Nodup := by
    constructor
    · intro ⟨conflicts, distinct, size, same⟩
      have within : conflicts ⊆ (conflictsIn projection bucket).map fun pair =>
          s(pair.1, pair.2) := fun pair member => (members pair).mpr ((same pair).mp member)
      have perm := (List.subperm_of_subset distinct within).perm_of_length_le
        (by rw [List.length_map, size])
      exact perm.nodup_iff.mp distinct
    · intro distinct
      exact ⟨_, distinct, List.length_map _, members⟩
  rw [nodup_iff, List.nodup_iff_count_le_one]
  constructor
  · intro once a b conflict
    have product := once s(a, b)
    rw [projects.count_conflicts inside conflict] at product
    have left := conflict.touches.1
    have right := conflict.touches.2
    have bound := Nat.le_trans (Nat.le_mul_of_pos_right
      (projection.snapshot.declarations a bucket.1) right) product
    omega
  · intro once pair
    by_cases counted : pair ∈ (conflictsIn projection bucket).map fun pair => s(pair.1, pair.2)
    · obtain ⟨a, b, rfl, conflict⟩ := (members pair).mp counted
      rw [projects.count_conflicts inside conflict, once a b conflict, once b a conflict.symm]
    · rw [List.count_eq_zero.mpr counted]
      omega

end

end

/-! The report. -/

def conflictProblem (printable : Char → Bool) (key : String × String)
    (pair : OccurrenceId × OccurrenceId) : ProjectionProblem where
  kind := .resourceConflict
  detail := render printable [.repr pair.1, .text " and ", .repr pair.2,
    .text " both touch ", .text (key.1 ++ "/" ++ key.2),
    .text " (at least one writes) with no ordering between them"]

def cappedProblem (printable : Char → Bool) (key : String × String) (found listed : Nat) :
    ProjectionProblem where
  kind := .boundReached
  detail := render printable [.text "resource_conflict listing: ",
    .text (key.1 ++ "/" ++ key.2), .text " has ", .text (toString found),
    .text " unordered pairs, ", .text (toString listed),
    .text " listed; the rest are real and unreported, not absent"]

def bucketProblems (printable : Char → Bool) (projection : ExecutionProjection)
    (bucket : (String × String) × List OccurrenceId) : List ProjectionProblem :=
  let found := conflictsIn projection bucket
  let listed := found.take maxConflictsPerResource
  listed.map (conflictProblem printable bucket.1) ++
    if found.length > listed.length then
      [cappedProblem printable bucket.1 found.length listed.length]
    else []

variable (printable : Char → Bool)

theorem bucketProblems_conflicts (projection : ExecutionProjection)
    (bucket : (String × String) × List OccurrenceId) :
    (bucketProblems printable projection bucket).filter (·.kind = .resourceConflict) =
      ((conflictsIn projection bucket).take maxConflictsPerResource).map
        (conflictProblem printable bucket.1) := by
  have listed : ∀ found : List (OccurrenceId × OccurrenceId),
      (found.map (conflictProblem printable bucket.1)).filter (·.kind = .resourceConflict) =
        found.map (conflictProblem printable bucket.1) := by
    intro found
    rw [List.filter_eq_self]
    intro problem inside
    obtain ⟨pair, _, rfl⟩ := List.mem_map.mp inside
    rfl
  unfold bucketProblems
  rw [List.filter_append, listed]
  split
  · rw [List.filter_cons_of_neg (by exact nofun), List.filter_nil, List.append_nil]
  · rw [List.filter_nil, List.append_nil]

theorem checkResourceConflicts_eq (projection : ExecutionProjection) :
    checkResourceConflicts printable projection (declaredSuccessors projection) =
      (resourceBuckets projection).flatMap (bucketProblems printable projection) := rfl

theorem perm_sortedProblems (problems : List ProjectionProblem) :
    (sortedProblems problems).Perm problems := List.perm_insertionSort _ problems

theorem induced_all {successors : Adjacency} {keep : List String}
    (all : ∀ entry ∈ successors, entry.1 ∈ keep ∧ ∀ target ∈ entry.2, target ∈ keep) :
    induced successors keep = successors := by
  induction successors with
  | nil => rfl
  | cons entry rest ih =>
    obtain ⟨here, later⟩ := List.forall_mem_cons.mp all
    have targets : entry.2.filter (· ∈ keep) = entry.2 := by
      rw [List.filter_eq_self]
      exact fun target inside => by simpa using here.2 target inside
    have tail : (rest.filter fun entry => decide (entry.1 ∈ keep)).map
        (fun entry => (entry.1, entry.2.filter (· ∈ keep))) = rest := ih later
    rw [induced, List.filter_cons_of_pos (by simpa using here.1), List.map_cons, targets, tail]

section
variable {snapshot : TaskNetworkSnapshot} {projection : ExecutionProjection}
  (projects : Projects snapshot projection)
include projects

theorem Projects.report_conflicts {printable : Char → Bool} {budget : GraphStructureBudget}
    {report : ProjectionReport} (dag : projection.IsDag)
    (ok : validateExecutionProjection printable projection budget = .ok report) :
    (report.problems.filter (·.kind = .resourceConflict)).Perm
      ((resourceBuckets projection).flatMap fun bucket =>
        ((conflictsIn projection bucket).take maxConflictsPerResource).map
          (conflictProblem printable bucket.1)) ∧
    ∀ problem ∈ (resourceBuckets projection).flatMap (bucketProblems printable projection),
      problem ∈ report.problems := by
  have distinct := projects.nodesDistinct.1
  have edges : ∀ a b, Adjacency.Follows (declaredSuccessors projection) a b →
      projection.Edge a b := fun a b edge => (projects.mem_after a b).mp edge.2
  obtain ⟨placed, remaining, sorts, result⟩ := @kahnOrder_result _ _ _ printable
    (declaredSuccessors projection)
    (projection.nodes.map fun node => (node.nodeId, node.ordinal))
    (by rwa [keys_declaredSuccessors])
    (fun _ known _ follows => declaredSuccessors_closed distinct known follows)
  have none : remaining = [] := by
    rw [result.dag]
    intro a cycle
    exact dag a (TransGen.mono edges _ _ cycle)
  subst none
  have full : ∀ node ∈ keys (declaredSuccessors projection), node ∈ placed := fun node known =>
    ((result.divides node).mp known).resolve_right List.not_mem_nil
  have healthy : induced (declaredSuccessors projection) placed = declaredSuccessors projection := by
    apply induced_all
    intro entry inside
    have known : entry.1 ∈ keys (declaredSuccessors projection) := List.mem_map_of_mem inside
    refine ⟨full _ known, ?_⟩
    intro target follows
    have found := get?_eq_some_of_mem
      (by rwa [keys_declaredSuccessors] : (keys (declaredSuccessors projection)).Nodup) inside
    apply full _ (declaredSuccessors_closed distinct known _)
    rw [Adjacency.after, found]
    exact follows
  unfold validateExecutionProjection at ok
  dsimp only at ok
  rw [sorts] at ok
  cases ok
  rw [healthy, checkResourceConflicts_eq]
  dsimp only
  constructor
  · refine ((perm_sortedProblems _).filter _).trans ?_
    rw [List.filter_append, List.filter_eq_nil_iff.mpr]
    · rw [List.nil_append, List.filter_flatMap]
      simp only [bucketProblems_conflicts]
      exact List.Perm.refl _
    · intro problem inside
      rw [decide_eq_true_eq]
      intro kind
      simp only [List.mem_append] at inside
      rcases inside with (((((((bounds | dangling) | cycle) | depth) | wiring) | duplicate) |
        ports) | orphans) | root
      · simp [checkBounds_kind bounds] at kind
      · rw [projects.checkDangling_nil printable] at dangling
        cases dangling
      · rcases cycleProblems_kind cycle with other | other <;> simp [other] at kind
      · simp [checkDepth_kind depth] at kind
      · rcases projects.checkRefinementWiring_source printable wiring with other | ⟨_, _, rfl⟩
        · simp [other] at kind
        · cases kind
      · simp [checkDuplicateSlots_kind duplicate] at kind
      · have kinds := checkPorts_kind ports
        simp [kind] at kinds
      · rcases checkOrphans_kind orphans with other | other <;> simp [other] at kind
      · simp [checkRootCoverage_kind root] at kind
  · intro problem inside
    rw [mem_sortedProblems]
    exact List.mem_append_right _ inside

end

/-- The report tells of the conflicts there are: of none when there is none, each as one, every
bucket's in full up to the cap and their number beyond it. -/
structure ConflictsReported (printable : Char → Bool) (projection : ExecutionProjection)
    (report : ProjectionReport) : Prop where
  silent : (∀ problem ∈ report.problems, problem.kind ≠ .resourceConflict) ↔
    ∀ key a b, ¬ InConflict projection key a b
  listed : (report.problems.filter (·.kind = .resourceConflict)).Perm
    ((resourceBuckets projection).flatMap fun bucket =>
      ((conflictsIn projection bucket).take maxConflictsPerResource).map
        (conflictProblem printable bucket.1))
  told : ∀ bucket ∈ resourceBuckets projection,
    maxConflictsPerResource < (conflictsIn projection bucket).length →
      cappedProblem printable bucket.1 (conflictsIn projection bucket).length
        maxConflictsPerResource ∈ report.problems
  counted : ∀ bucket ∈ resourceBuckets projection,
    CountsPairs projection bucket.1 (conflictsIn projection bucket).length

/-- A report on a DAG counts the conflicts right exactly when no occurrence in conflict over a key
declares that key twice. -/
theorem conflicts_reported_iff (printable : Char → Bool) {snapshot : TaskNetworkSnapshot}
    {projection : ExecutionProjection} {budget : GraphStructureBudget} {report : ProjectionReport}
    (compiled : snapshot.executionProjection = some projection) (dag : projection.IsDag)
    (ok : validateExecutionProjection printable projection budget = .ok report) :
    ConflictsReported printable projection report ↔
      ∀ key a b, InConflict projection key a b →
        projection.snapshot.declarations a key = 1 := by
  obtain ⟨projection', compiled', projects⟩ := executionProjection_projects snapshot
  rw [compiled] at compiled'
  cases compiled'
  obtain ⟨listed, told⟩ := projects.report_conflicts dag ok
  have buckets : ∀ {key a b}, InConflict projection key a b →
      ∃ bucket ∈ resourceBuckets projection, bucket.1 = key := fun conflict =>
    bucket_exists conflict.projected.1 conflict.touches.1
  constructor
  · intro reported key a b conflict
    obtain ⟨bucket, inside, rfl⟩ := buckets conflict
    exact (projects.countsPairs_iff inside).mp (reported.counted bucket inside) a b conflict
  · intro once
    refine {
      silent := ?_
      listed := listed
      told := ?_
      counted := fun bucket inside =>
        (projects.countsPairs_iff inside).mpr fun a b conflict => once bucket.1 a b conflict }
    · constructor
      · intro quiet key a b conflict
        obtain ⟨bucket, inside, rfl⟩ := buckets conflict
        have member := (projects.mem_conflicts inside s(a, b)).mpr ⟨a, b, rfl, conflict⟩
        obtain ⟨pair, counted, _⟩ := List.mem_map.mp member
        have some : (conflictsIn projection bucket).take maxConflictsPerResource ≠ [] := by
          rw [ne_eq, List.take_eq_nil_iff, not_or]
          exact ⟨by decide, List.ne_nil_of_mem counted⟩
        obtain ⟨first, taken⟩ := List.exists_mem_of_ne_nil _ some
        have shown : conflictProblem printable bucket.1 first ∈
            report.problems.filter (·.kind = .resourceConflict) := by
          rw [listed.mem_iff, List.mem_flatMap]
          exact ⟨bucket, inside, List.mem_map_of_mem taken⟩
        exact quiet _ (List.mem_of_mem_filter shown) rfl
      · intro none problem inside kind
        have shown : problem ∈ report.problems.filter (·.kind = .resourceConflict) := by
          rw [List.mem_filter]
          exact ⟨inside, by simpa using kind⟩
        rw [listed.mem_iff, List.mem_flatMap] at shown
        obtain ⟨bucket, here, shown⟩ := shown
        obtain ⟨pair, taken, _⟩ := List.mem_map.mp shown
        obtain ⟨a, b, _, conflict⟩ := (projects.mem_conflicts here s(pair.1, pair.2)).mp
          (List.mem_map_of_mem (f := fun pair => s(pair.1, pair.2)) (List.mem_of_mem_take taken))
        exact none _ a b conflict
    · intro bucket inside many
      apply told
      rw [List.mem_flatMap]
      refine ⟨bucket, inside, List.mem_append_right _ ?_⟩
      have size : ((conflictsIn projection bucket).take maxConflictsPerResource).length =
          maxConflictsPerResource := by
        rw [List.length_take]
        omega
      rw [size, if_pos many]
      exact List.mem_cons_self

def shopCatalogue : ResourceRef := ⟨"workspace", "catalogue"⟩

/-- Two unordered steps on one catalogue: both write it, and the index also reads it or not. -/
def shopNetwork (reads : List ResourceRef) : TaskNetwork where
  missionId := "m"
  planRevision := 1
  occurrences := [position "shop" .compound, position "index" .primitive,
    position "prices" .primitive]
  taskBindings := [compoundTask "shop",
    { primitiveTask "index" with resourceReads := reads, resourceWrites := [shopCatalogue] },
    { primitiveTask "prices" with resourceWrites := [shopCatalogue] }]
  methodInstances := [
    { instanceId := "m-shop"
      goalId := "shop"
      obligationId := "ship"
      methodRef := ⟨"open", 1, emptyHash⟩
      childBindings := [slot "m-shop" "index" .required, slot "m-shop" "prices" .required] }]
  adoptedInstanceIds := ["m-shop"]
  rootOccurrenceIds := ["shop"]

def readShop : TaskNetworkSnapshot := ⟨shopNetwork [shopCatalogue], by decide⟩

def blindShop : TaskNetworkSnapshot := ⟨shopNetwork [], by decide⟩

def shopRank (nid : String) : Nat :=
  ["4:shop:entry", "5:index:node", "6:prices:node", "4:shop:exit"].idxOf nid

theorem shop_dag {snapshot : TaskNetworkSnapshot} (shop : snapshot ∈ [readShop, blindShop])
    (compiled : snapshot.executionProjection = some projection) : projection.IsDag := by
  apply TaskNetworkSnapshot.dag_of_rank shopRank _ compiled
  have climbs : ∀ snapshot ∈ [readShop, blindShop], snapshot.executionProjection.map
      (fun projection => projection.edges.all fun edge =>
        decide (shopRank edge.source < shopRank edge.target)) = some true := by
    decide +kernel
  exact climbs snapshot shop

/-- One pair in conflict over a key that one side reads and writes is reported as two. -/
theorem shared_key_counted_twice : ∃ projection report,
    readShop.executionProjection = some projection ∧ projection.IsDag ∧
    validateExecutionProjection (fun _ => true) projection defaultProjectionBudget = .ok report ∧
    (report.problems.filter (·.kind = .resourceConflict)).length = 2 ∧
    (∀ key a b, InConflict projection key a b → s(a, b) = s("index", "prices")) ∧
    ¬ ConflictsReported (fun _ => true) projection report := by
  obtain ⟨projection, compiled, projects⟩ := executionProjection_projects readShop
  obtain ⟨report, ok⟩ := validate_reports (fun _ => true) defaultProjectionBudget
    projects.nodesDistinct.1
  have dag := shop_dag List.mem_cons_self compiled
  obtain ⟨listed, _⟩ := projects.report_conflicts dag ok
  have counted : readShop.executionProjection.map (fun projection =>
      (resourceBuckets projection).map fun bucket => (bucket, conflictsIn projection bucket)) =
      some [((shopCatalogue.key, ["index", "index", "prices"]),
        [("index", "prices"), ("index", "prices")])] := by
    decide +kernel
  rw [compiled, Option.map_some, Option.some.injEq] at counted
  obtain ⟨bucket, buckets, both⟩ := List.map_eq_singleton_iff.mp counted
  obtain ⟨same, conflicts⟩ := Prod.mk.inj both
  have inside : bucket ∈ resourceBuckets projection := by
    rw [buckets]
    exact List.mem_cons_self
  have members := projects.mem_conflicts inside
  rw [conflicts] at members
  refine ⟨projection, report, compiled, dag, ok, ?_, ?_, ?_⟩
  · rw [listed.length_eq, buckets, List.flatMap_singleton, conflicts]
    rfl
  · intro key a b conflict
    obtain ⟨other, here, rfl⟩ := bucket_exists conflict.projected.1 conflict.touches.1
    rw [buckets, List.mem_singleton] at here
    subst here
    have member := (members s(a, b)).mpr ⟨a, b, rfl, conflict⟩
    simpa using member
  · intro reported
    obtain ⟨a, b, pair, conflict⟩ := (members s("index", "prices")).mp List.mem_cons_self
    have once := (projects.countsPairs_iff inside).mp (reported.counted bucket inside)
    have twice : readShop.declarations "index" bucket.1 = 2 := by
      rw [same]
      decide +kernel
    rw [projects.network] at once
    rcases Sym2.eq_iff.mp pair with ⟨first, _⟩ | ⟨first, _⟩
    · have single := once a b conflict
      rw [← first, twice] at single
      cases single
    · have single := once b a conflict.symm
      rw [← first, twice] at single
      cases single

/-- Where the index only writes, its one conflict is reported as one. -/
theorem conflicts_reported_at_blindShop : ∃ projection report,
    blindShop.executionProjection = some projection ∧
    validateExecutionProjection (fun _ => true) projection defaultProjectionBudget = .ok report ∧
    ConflictsReported (fun _ => true) projection report := by
  obtain ⟨projection, compiled, projects⟩ := executionProjection_projects blindShop
  obtain ⟨report, ok⟩ := validate_reports (fun _ => true) defaultProjectionBudget
    projects.nodesDistinct.1
  have dag := shop_dag (List.mem_cons_of_mem _ List.mem_cons_self) compiled
  refine ⟨projection, report, compiled, ok, (conflicts_reported_iff _ compiled dag ok).mpr ?_⟩
  intro key a b conflict
  obtain ⟨bucket, inside, rfl⟩ := bucket_exists conflict.projected.1 conflict.touches.1
  have declared : blindShop.executionProjection.map (fun projection =>
      (resourceBuckets projection).all fun bucket => bucket.2.all fun id =>
        blindShop.declarations id bucket.1 = 1) = some true := by
    decide +kernel
  rw [compiled, Option.map_some, Option.some.injEq, List.all_eq_true] at declared
  have each := declared bucket inside
  rw [List.all_eq_true] at each
  have here := (projects.mem_bucket inside a).mpr ⟨conflict.projected.1, conflict.touches.1⟩
  rw [projects.network]
  exact of_decide_eq_true (each a here)

end Network
