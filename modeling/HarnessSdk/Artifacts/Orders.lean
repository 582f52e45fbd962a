import HarnessSdk.Artifacts.Versioning

/-! The ancestors of a task are its transitive dependencies, and the orders Kahn's algorithm gives are
all those that keep every dependency. -/
namespace Artifacts
open PyDict PyText
open Kahn (Edge Ready Greedy Sorted Linear)

/-- What a part of the walk below `current` has added. -/
structure Grown (tasksById : TasksById) (current : String) (seen result : List String) : Prop where
  keeps : seen ⊆ result
  nodup : result.Nodup
  inside : result ⊆ keys tasksById
  sound : ∀ a ∈ result, a ∈ seen ∨ Relation.TransGen (Feeds tasksById) a current
  closed : ∀ a ∈ result, a ∉ seen → ∀ b, Feeds tasksById b a → b ∈ result

namespace Grown
variable {tasksById : TasksById} {current dep : String} {seen between result : List String}

theorem enter (grown : Grown tasksById current seen between)
    (deeper : Grown tasksById dep (between ++ [dep]) result)
    (entered : ∀ b, Feeds tasksById b dep → b ∈ result) (feeds : Feeds tasksById dep current) :
    Grown tasksById current seen result := by
  constructor
  · exact fun a early => deeper.keeps (List.mem_append_left _ (grown.keeps early))
  · exact deeper.nodup
  · exact deeper.inside
  · intro a inside
    cases deeper.sound a inside with
    | inl before =>
      rw [List.mem_append, List.mem_singleton] at before
      cases before with
      | inl early => exact grown.sound a early
      | inr same => exact Or.inr (same ▸ .single feeds)
    | inr path => exact Or.inr (path.tail feeds)
  · intro a inside late b edge
    by_cases early : a ∈ between
    · exact deeper.keeps (List.mem_append_left _ (grown.closed a early late b edge))
    · by_cases same : a = dep
      · exact entered b (same ▸ edge)
      · have fresh : a ∉ between ++ [dep] := by simp [early, same]
        exact deeper.closed a inside fresh b edge

end Grown

variable {ordinal : Numbering} {ready : List String} (tasks : TaskSet)

theorem visit_grown (fuel : Nat) (current : String) (seen : List String) (nodup : seen.Nodup)
    (inside : seen ⊆ keys tasks.tasksById) (enough : tasks.tasksById.length < seen.length + fuel) :
    Grown tasks.tasksById current seen (visit tasks.tasksById fuel current seen) ∧
      ∀ b, Feeds tasks.tasksById b current → b ∈ visit tasks.tasksById fuel current seen := by
  induction fuel generalizing current seen with
  | zero =>
    have few := nodup.length_le_of_subset inside
    rw [keys, List.length_map] at few
    omega
  | succ fuel ih =>
    rw [visit]
    cases found : get? tasks.tasksById current with
    | none =>
      constructor
      · exact ⟨fun _ h => h, nodup, inside, fun _ h => Or.inl h, fun _ h late => absurd h late⟩
      · rintro b ⟨task, other, _⟩
        rw [found] at other
        cases other
    | some task =>
      dsimp only
      have walk : ∀ deps : List String, deps ⊆ task.dependencyIds → ∀ between,
          Grown tasks.tasksById current seen between →
          Grown tasks.tasksById current seen (deps.foldl (fun seen dep => if dep ∈ seen then seen
            else visit tasks.tasksById fuel dep (seen ++ [dep])) between) ∧
          deps ⊆ deps.foldl (fun seen dep => if dep ∈ seen then seen
            else visit tasks.tasksById fuel dep (seen ++ [dep])) between ∧
          between ⊆ deps.foldl (fun seen dep => if dep ∈ seen then seen
            else visit tasks.tasksById fuel dep (seen ++ [dep])) between := by
        intro deps
        induction deps with
        | nil => exact fun _ between grown => ⟨grown, List.nil_subset _, fun _ h => h⟩
        | cons dep rest later =>
          intro part between grown
          have feeds : Feeds tasks.tasksById dep current :=
            ⟨task, found, part List.mem_cons_self⟩
          rw [List.cons_subset] at part
          rw [List.foldl_cons]
          by_cases known : dep ∈ between
          · rw [if_pos known]
            obtain ⟨whole, rest', kept⟩ := later part.2 between grown
            exact ⟨whole, List.cons_subset.mpr ⟨kept known, rest'⟩, kept⟩
          · rw [if_neg known]
            have longer := nodup.subperm grown.keeps |>.length_le
            obtain ⟨deeper, entered⟩ := ih dep (between ++ [dep])
              (List.nodup_append.mpr ⟨grown.nodup, List.nodup_singleton _, by
                intro a early b last same
                rw [List.mem_singleton] at last
                exact known (last ▸ same ▸ early)⟩)
              (List.append_subset.mpr ⟨grown.inside, by simpa using tasks.known _ _ feeds⟩)
              (by rw [List.length_append, List.length_singleton]; omega)
            obtain ⟨whole, rest', kept⟩ := later part.2 _ (grown.enter deeper entered feeds)
            refine ⟨whole, List.cons_subset.mpr ⟨kept ?_, rest'⟩, fun a early => kept ?_⟩
            · exact deeper.keeps (List.mem_append_right _ (List.mem_singleton_self _))
            · exact deeper.keeps (List.mem_append_left _ early)
      have start : Grown tasks.tasksById current seen seen :=
        ⟨fun _ h => h, nodup, inside, fun _ h => Or.inl h, fun _ h late => absurd h late⟩
      obtain ⟨grown, all, _⟩ := walk task.dependencyIds (fun _ h => h) seen start
      refine ⟨grown, ?_⟩
      rintro b ⟨other, same, edge⟩
      rw [found] at same
      cases same
      exact all edge

theorem mem_visit (current a : String) :
    a ∈ visit tasks.tasksById (tasks.tasksById.length + 1) current [] ↔
      Relation.TransGen (Feeds tasks.tasksById) a current := by
  obtain ⟨grown, entered⟩ := visit_grown tasks (tasks.tasksById.length + 1) current []
    List.nodup_nil (List.nil_subset _) (by rw [List.length_nil]; omega)
  constructor
  · intro seen
    exact (grown.sound a seen).resolve_left List.not_mem_nil
  · intro path
    induction path using Relation.TransGen.head_induction_on with
    | single edge => exact entered _ edge
    | head edge _ ih => exact grown.closed _ ih List.not_mem_nil _ edge

variable {rest : List String}

theorem pick_perm {a : String} (picked : pick ordinal ready = some (a, rest)) :
    ready.Perm (a :: rest) := by
  unfold pick at picked
  split at picked
  · cases picked
  · next current tail sorted =>
    cases picked
    rw [← sorted]
    exact (List.perm_insertionSort _ ready).symm

theorem pick_least {a : String} (picked : pick ordinal ready = some (a, rest)) {b : String}
    (inside : b ∈ ready) : ordinal a ≤ ordinal b := by
  have here := (pick_perm picked).subset inside
  unfold pick at picked
  have ascending := List.pairwise_insertionSort (fun a b => ordinal a ≤ ordinal b) ready
  split at picked
  · cases picked
  · next current tail sorted =>
    cases picked
    rw [sorted, List.pairwise_cons] at ascending
    cases List.mem_cons.mp here with
    | inl same => exact same ▸ le_refl _
    | inr later => exact ascending.1 b later

theorem pick_none (stopped : pick ordinal ready = none) : ready = [] := by
  unfold pick at stopped
  split at stopped
  · next sorted =>
    have same := List.perm_insertionSort (fun a b => ordinal a ≤ ordinal b) ready
    rw [sorted] at same
    exact List.nil_perm.mp same
  · cases stopped

section
variable {members : TasksById} (distinct : (keys members).Nodup)
  (once : ∀ id task, get? members id = some task → task.dependencyIds.Nodup)

include distinct in
theorem mem_dependents (a b : String) :
    b ∈ dependents members a ↔ ∃ task, get? members b = some task ∧ a ∈ task.dependencyIds := by
  simp only [dependents, keys, List.mem_map, List.mem_filter, decide_eq_true_eq]
  constructor
  · rintro ⟨entry, ⟨inside, edge⟩, same⟩
    exact ⟨entry.2, same ▸ get?_eq_some_of_mem distinct inside, edge⟩
  · rintro ⟨task, found, edge⟩
    exact ⟨(b, task), ⟨mem_of_get?_eq_some found, edge⟩, rfl⟩

include distinct in
theorem dependents_nodup (a : String) : (dependents members a).Nodup := by
  have sub : (dependents members a).Sublist (keys members) := List.filter_sublist.map _
  exact sub.nodup distinct

include distinct in
theorem dependents_closed : ∀ a ∈ keys members, ∀ b ∈ dependents members a, b ∈ keys members := by
  intro a _ b edge
  obtain ⟨task, found, _⟩ := (mem_dependents distinct a b).mp edge
  exact (get?_isSome_iff members b).mp (by rw [found]; rfl)

theorem sum_indicator (p : String → Prop) [DecidablePred p] (items : List String) :
    (items.map fun a => if p a then 1 else 0).sum = (items.filter p).length := by
  induction items with
  | nil => rfl
  | cons a rest ih =>
    rw [List.map_cons, List.sum_cons, ih]
    by_cases here : p a
    · simp only [here, if_true, decide_true, List.filter_cons_of_pos, List.length_cons]
      omega
    · simp [here]

include distinct once in
theorem degree_indegree (b : String) : Kahn.degree (indegree members) b =
    Kahn.pending (dependents members) (keys members) [] b := by
  have same : get? (indegree members) b = (get? members b).map fun task =>
      (task.dependencyIds.filter (· ∈ keys members)).length :=
    get?_map (fun task : Task => (task.dependencyIds.filter (· ∈ keys members)).length) members b
  unfold Kahn.degree Kahn.pending
  rw [same]
  have counts : ∀ a, (dependents members a).count b =
      if b ∈ dependents members a then 1 else 0 := by
    intro a
    split
    · next inside => exact List.count_eq_one_of_mem (dependents_nodup distinct a) inside
    · next outside => exact List.count_eq_zero.mpr outside
  simp only [counts, List.not_mem_nil, not_false_eq_true, decide_true, List.filter_true]
  rw [sum_indicator]
  cases found : get? members b with
  | none =>
    have none : ∀ a, b ∉ dependents members a := by
      intro a edge
      obtain ⟨_, other, _⟩ := (mem_dependents distinct a b).mp edge
      rw [found] at other
      cases other
    simp [none]
  | some task =>
    rw [Option.map_some, Option.getD_some]
    apply List.Perm.length_eq
    rw [List.perm_ext_iff_of_nodup ((once b task found).filter _) (distinct.filter _)]
    intro a
    simp only [List.mem_filter, decide_eq_true_eq, mem_dependents distinct, found,
      Option.some.injEq, exists_eq_left', and_comm]

include distinct once in
theorem placed_sorted (ordinal : Numbering) :
    Sorted (fun a b => ordinal a ≤ ordinal b) (dependents members) (keys members)
      (placed ordinal members) := by
  have start : Kahn.Placing (dependents members) (keys members) (indegree members)
      ((keys members).filter fun id => Kahn.degree (indegree members) id = 0) [] := by
    constructor
    · exact distinct.filter _
    · exact fun a inside => List.mem_of_mem_filter inside
    · exact degree_indegree distinct once
    · exact fun a inside => by simpa using List.of_mem_filter inside
    · simp
  have size : members.length = (keys members).length := (List.length_map _).symm
  rw [placed, size]
  apply start.sorted distinct (dependents_closed distinct) fun ready a rest => pick_perm
  · exact fun ready a rest picked b inside => pick_least picked inside
  · exact fun ready stopped => pick_none stopped
  · intro b known zero
    simpa [known] using zero

end

/-! The orders of a list of producers. -/

namespace Producers
variable {tasks : TaskSet} (producers : Producers tasks)

/-- The members that `topological` collects from the list. -/
def table : TasksById := ofEntries (producers.list.map fun task => (task.id, task))

def Direct (s t : Task) : Prop :=
  s ∈ producers.list ∧ t ∈ producers.list ∧ s.id ∈ t.dependencyIds

def Before : Task → Task → Prop := Relation.TransGen producers.Direct

/-- An order of the producers in which each stands after those it waits for. -/
structure Ordering (order : List Task) : Prop where
  nodup : order.Nodup
  same : ∀ task, task ∈ order ↔ task ∈ producers.list
  keeps : order.Pairwise fun s t => ¬ producers.Before t s

variable {producers}

variable {s t : Task} {order : List Task}

theorem id_injective (first : s ∈ producers.list) (second : t ∈ producers.list)
    (same : s.id = t.id) : s = t := by
  have found := producers.members s first
  rw [same, producers.members t second] at found
  exact (Option.some.inj found).symm

theorem get?_table (id : String) (task : Task) :
    get? producers.table id = some task ↔ task ∈ producers.list ∧ task.id = id := by
  have listed : ∀ id task, get? producers.table id = some task →
      task ∈ producers.list ∧ task.id = id := by
    intro id task found
    rcases get?_update_cases found with entry | empty
    · obtain ⟨other, inside, same⟩ := List.mem_map.mp entry
      cases same
      exact ⟨inside, rfl⟩
    · cases empty
  constructor
  · exact listed id task
  · intro ⟨inside, same⟩
    subst same
    have known : task.id ∈ keys producers.table := by
      rw [table, mem_keys_ofEntries]
      exact List.mem_map.mpr ⟨_, List.mem_map.mpr ⟨task, inside, rfl⟩, rfl⟩
    obtain ⟨other, found⟩ := Option.isSome_iff_exists.mp ((get?_isSome_iff _ _).mpr known)
    obtain ⟨inside', same⟩ := listed _ _ found
    rw [found, id_injective inside' inside same]

theorem table_distinct : (keys producers.table).Nodup := keys_ofEntries_nodup _

theorem mem_table {id : String} :
    id ∈ keys producers.table ↔ ∃ task ∈ producers.list, task.id = id := by
  rw [← get?_isSome_iff, Option.isSome_iff_exists]
  simp only [get?_table]

theorem table_once (id : String) (task : Task) (found : get? producers.table id = some task) :
    task.dependencyIds.Nodup := by
  obtain ⟨inside, _⟩ := (get?_table id task).mp found
  exact tasks.once task.id task (producers.members task inside)

theorem Direct.feeds (direct : producers.Direct s t) : Feeds tasks.tasksById s.id t.id :=
  ⟨t, producers.members t direct.2.1, direct.2.2⟩

theorem Before.feeds (before : producers.Before s t) :
    Relation.TransGen (Feeds tasks.tasksById) s.id t.id :=
  Relation.TransGen.lift Task.id (fun _ _ => Direct.feeds) _ _ before

theorem before_irrefl (task : Task) : ¬ producers.Before task task :=
  fun cycle => tasks.acyclic task.id (Before.feeds cycle)

theorem Before.members (before : producers.Before s t) :
    s ∈ producers.list ∧ t ∈ producers.list := by
  obtain ⟨_, first, _⟩ := Relation.TransGen.head'_iff.mp before
  obtain ⟨_, _, last⟩ := Relation.TransGen.tail'_iff.mp before
  exact ⟨first.1, last.2.1⟩

theorem Ordering.before_idxOf (ordering : producers.Ordering order)
    (before : producers.Before s t) : order.idxOf s < order.idxOf t := by
  obtain ⟨i, hi, rfl⟩ := List.getElem_of_mem ((ordering.same s).mpr before.members.1)
  obtain ⟨j, hj, rfl⟩ := List.getElem_of_mem ((ordering.same t).mpr before.members.2)
  rw [ordering.nodup.idxOf_getElem, ordering.nodup.idxOf_getElem]
  rcases Nat.lt_trichotomy i j with less | same | more
  · exact less
  · subst same
    exact absurd before (before_irrefl _)
  · exact absurd before ((List.pairwise_iff_getElem.mp ordering.keeps) j i hj hi more)

theorem edge_iff (a b : String) : Edge (dependents producers.table) (keys producers.table) a b ↔
    ∃ s t, producers.Direct s t ∧ s.id = a ∧ t.id = b := by
  rw [Edge, mem_dependents table_distinct, mem_table]
  constructor
  · intro ⟨⟨s, first, same⟩, t, found, edge⟩
    obtain ⟨second, same'⟩ := (get?_table b t).mp found
    exact ⟨s, t, ⟨first, second, same ▸ edge⟩, same, same'⟩
  · intro ⟨s, t, direct, same, same'⟩
    refine ⟨⟨s, direct.1, same⟩, t, (get?_table b t).mpr ⟨direct.2.1, same'⟩, same ▸ direct.2.2⟩

theorem edges_acyclic :
    Digraph.Acyclic (Edge (dependents producers.table) (keys producers.table)) := by
  intro a cycle
  apply tasks.acyclic a
  apply Relation.TransGen.mono _ _ _ cycle
  intro a b edge
  obtain ⟨s, t, direct, rfl, rfl⟩ := (edge_iff a b).mp edge
  exact direct.feeds

theorem placed_all (ordinal : Numbering) :
    (placed ordinal producers.table).Perm (keys producers.table) := by
  have sorted := placed_sorted table_distinct (@table_once _ producers) ordinal
  have all := (sorted.complete_iff (dependents_closed table_distinct)).mpr edges_acyclic
  exact (List.perm_ext_iff_of_nodup sorted.nodup table_distinct).mpr
    fun _ => ⟨fun here => sorted.inside here, fun known => all known⟩

theorem topological_eq (ordinal : Numbering) : topological ordinal producers.list =
    (placed ordinal producers.table).filterMap (get? producers.table) := by
  have full := @placed_all _ producers ordinal
  have found : ∀ a ∈ placed ordinal producers.table, (get? producers.table a).isSome :=
    fun a here => (get?_isSome_iff _ _).mpr (full.subset here)
  have size : ((placed ordinal producers.table).filterMap (get? producers.table)).length =
      producers.table.length := by
    rw [List.length_filterMap_eq_countP, List.countP_eq_length.mpr found, full.length_eq]
    exact List.length_map _
  unfold topological
  dsimp only
  exact if_neg (not_not.mpr size)

theorem ids_topological (ordinal : Numbering) :
    (topological ordinal producers.list).map Task.id = placed ordinal producers.table := by
  have full := @placed_all _ producers ordinal
  have each : ∀ ids : List String, ids ⊆ keys producers.table →
      (ids.filterMap (get? producers.table)).map Task.id = ids := by
    intro ids inside
    induction ids with
    | nil => rfl
    | cons id rest ih =>
      rw [List.cons_subset] at inside
      obtain ⟨task, found⟩ :=
        Option.isSome_iff_exists.mp ((get?_isSome_iff _ _).mpr inside.1)
      rw [List.filterMap_cons_some found, List.map_cons, ih inside.2,
        ((get?_table id task).mp found).2]
  rw [topological_eq]
  exact each _ full.subset

theorem mem_topological (ordinal : Numbering) (task : Task) :
    task ∈ topological ordinal producers.list ↔ task ∈ producers.list := by
  have full := @placed_all _ producers ordinal
  rw [topological_eq, List.mem_filterMap]
  simp only [full.mem_iff, mem_table, get?_table]
  constructor
  · rintro ⟨_, _, inside, _⟩
    exact inside
  · intro inside
    exact ⟨task.id, ⟨task, inside, rfl⟩, inside, rfl⟩

theorem topological_ordering (ordinal : Numbering) :
    producers.Ordering (topological ordinal producers.list) := by
  have sorted := placed_sorted table_distinct (@table_once _ producers) ordinal
  have ids := @ids_topological _ producers ordinal
  have nodup := sorted.nodup
  rw [← ids] at nodup
  constructor
  · exact List.Nodup.of_map _ nodup
  · exact mem_topological ordinal
  · rw [List.pairwise_iff_getElem]
    intro i j hi hj less before
    have path : Relation.TransGen (Edge (dependents producers.table) (keys producers.table))
        (topological ordinal producers.list)[j].id (topological ordinal producers.list)[i].id :=
      Relation.TransGen.lift Task.id
        (fun s t direct => (edge_iff s.id t.id).mpr ⟨s, t, direct, rfl, rfl⟩) _ _ before
    have place : ∀ k (hk : k < (topological ordinal producers.list).length),
        (placed ordinal producers.table).idxOf (topological ordinal producers.list)[k].id = k := by
      intro k hk
      have known : k < ((topological ordinal producers.list).map Task.id).length := by
        rwa [List.length_map]
      rw [← ids, ← List.getElem_map Task.id (h := known)]
      exact nodup.idxOf_getElem k known
    have here : (topological ordinal producers.list)[i].id ∈ placed ordinal producers.table := by
      rw [← ids]
      exact List.mem_map_of_mem (List.getElem_mem hi)
    have earlier := sorted.greedy.before_path path here
    rw [place i hi, place j hj] at earlier
    omega

theorem topological_of_ordering (ordering : producers.Ordering order) :
    topological (fun id => ((order.map Task.id).idxOf id : Int)) producers.list = order := by
  have sorted := placed_sorted table_distinct (@table_once _ producers)
    fun id => ((order.map Task.id).idxOf id : Int)
  have nodup : (order.map Task.id).Nodup := by
    apply ordering.nodup.map_on
    intro s first t second same
    exact id_injective ((ordering.same s).mp first) ((ordering.same t).mp second) same
  have linear : Linear (dependents producers.table) (keys producers.table)
      (order.map Task.id) := by
    constructor
    · rw [List.perm_ext_iff_of_nodup nodup table_distinct]
      intro id
      rw [mem_table, List.mem_map]
      simp only [ordering.same]
    · intro a b edge
      obtain ⟨s, t, direct, rfl, rfl⟩ := (edge_iff a b).mp edge
      have earlier := ordering.before_idxOf (.single direct)
      have place : ∀ task ∈ order, (order.map Task.id).idxOf task.id = order.idxOf task := by
        intro task here
        obtain ⟨k, hk, rfl⟩ := List.getElem_of_mem here
        have known : k < (order.map Task.id).length := by rwa [List.length_map]
        rw [← List.getElem_map Task.id (h := known), nodup.idxOf_getElem,
          ordering.nodup.idxOf_getElem]
      rwa [place s ((ordering.same s).mpr direct.1), place t ((ordering.same t).mpr direct.2.1)]
  have placed_eq : placed (fun id => ((order.map Task.id).idxOf id : Int)) producers.table =
      order.map Task.id := by
    apply Greedy.eq_linear table_distinct _ linear (placed_all _)
    intro before a after split
    obtain ⟨ready, least⟩ := sorted.greedy before a after split
    exact ⟨ready, fun b free => Int.ofNat_le.mp (least b free)⟩
  rw [topological_eq, placed_eq, List.filterMap_map]
  have found : ∀ task ∈ order, (get? producers.table ∘ Task.id) task = some task :=
    fun task here => (get?_table _ _).mpr ⟨(ordering.same task).mp here, rfl⟩
  rw [List.filterMap_congr found, List.filterMap_some]

end Producers

/-- The tasks that the walk of `ancestors` keeps, as a list of producers. -/
def TaskSet.live (tasks : TaskSet) (taskId : String) : Producers tasks where
  list := ((visit tasks.tasksById (tasks.tasksById.length + 1) taskId []).filterMap
    (get? tasks.tasksById)).filter (·.status ≠ .cancelled)
  members := by
    intro task inside
    obtain ⟨id, _, found⟩ := List.mem_filterMap.mp (List.mem_of_mem_filter inside)
    rwa [tasks.named id task found]

theorem mem_ancestors (ordinal : Numbering) (taskId : String) (task : Task) :
    task ∈ ancestors ordinal taskId tasks.tasksById ↔
      get? tasks.tasksById task.id = some task ∧ task.status ≠ .cancelled ∧
        Relation.TransGen (Feeds tasks.tasksById) task.id taskId := by
  have listed : task ∈ ancestors ordinal taskId tasks.tasksById ↔
      task ∈ (tasks.live taskId).list :=
    @Producers.mem_topological _ (tasks.live taskId) ordinal task
  rw [listed]
  constructor
  · intro inside
    obtain ⟨id, seen, found⟩ := List.mem_filterMap.mp (List.mem_of_mem_filter inside)
    have same := tasks.named id task found
    have live : task.status ≠ .cancelled := by simpa using List.of_mem_filter inside
    rw [mem_visit] at seen
    exact ⟨same ▸ found, live, same ▸ seen⟩
  · intro ⟨found, live, path⟩
    apply List.mem_filter.mpr
    constructor
    · exact List.mem_filterMap.mpr ⟨task.id, (mem_visit tasks taskId task.id).mpr path, found⟩
    · simpa using live

end Artifacts
