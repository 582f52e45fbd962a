import HarnessSdk.Artifacts.Orders

/-! What the merge of accepted artifacts returns, for every numbering of the tasks and every order of
the list, and when that is the same. -/
namespace Artifacts
open PyDict PyText Checks

abbrev Write := Task × Artifact

section
variable (artifactsByTask : Dict String (List Artifact))

def writes (order : List Task) : List Write :=
  order.flatMap fun task => (accepted artifactsByTask task).map fun artifact => (task, artifact)

def writesTo (path : String) (task : Task) : List Write :=
  ((accepted artifactsByTask task).filter (·.path = path)).map fun artifact => (task, artifact)

def contents (path : String) (task : Task) : List String :=
  ((accepted artifactsByTask task).filter (·.path = path)).map (·.contentHash)

theorem writes_filter (path : String) (order : List Task) :
    (writes artifactsByTask order).filter (·.2.path = path) =
      order.flatMap (writesTo artifactsByTask path) := by
  unfold writes writesTo
  rw [List.filter_flatMap]
  simp only [List.filter_map, Function.comp_def]

end

def Allowed (closure : Dict String (List String)) (earlier later : Write) : Prop :=
  earlier.2.contentHash = later.2.contentHash ∨
    earlier.1.id ∈ (get? closure later.1.id).getD []

def Write.input (write : Write) : UpstreamInput :=
  ⟨write.1.id, write.2.path, write.2.contentHash, write.2.id⟩

def mergeWrites (closure : Dict String (List String)) (items : List Write) :
    Except ArtifactConflict (Dict String UpstreamInput) :=
  items.foldlM (fun inputs write => mergeArtifact closure write.1 inputs write.2) []

theorem merge_writes (closure : Dict String (List String))
    (artifactsByTask : Dict String (List Artifact)) (order : List Task) :
    order.foldlM (fun inputs task =>
      (accepted artifactsByTask task).foldlM (mergeArtifact closure task) inputs) [] =
    mergeWrites closure (writes artifactsByTask order) := by
  have general : ∀ start : Dict String UpstreamInput, order.foldlM (fun inputs task =>
      (accepted artifactsByTask task).foldlM (mergeArtifact closure task) inputs) start =
      (writes artifactsByTask order).foldlM
        (fun inputs write => mergeArtifact closure write.1 inputs write.2) start := by
    induction order with
    | nil => exact fun _ => rfl
    | cons task rest ih =>
      intro start
      rw [List.foldlM_cons, writes, List.flatMap_cons, List.foldlM_append, List.foldlM_map]
      exact bind_congr ih
  exact general []

theorem mergeArtifact_eq (closure : Dict String (List String)) (write : Write)
    (inputs : Dict String UpstreamInput) :
    (∀ existing, get? inputs write.2.path = some existing →
      existing.contentHash = write.2.contentHash ∨
        existing.taskId ∈ (get? closure write.1.id).getD []) →
      mergeArtifact closure write.1 inputs write.2 =
        .ok (set inputs write.2.path write.input) := by
  intro allowed
  unfold mergeArtifact
  cases found : get? inputs write.2.path with
  | none => rfl
  | some existing =>
    have fine := allowed existing found
    have skip : ¬ (existing.contentHash ≠ write.2.contentHash ∧
        existing.taskId ∉ (get? closure write.1.id).getD []) := by
      intro ⟨differ, apart⟩
      exact fine.elim differ apart
    simp only [if_neg skip]
    rfl

variable {write : Write} {inputs : Dict String UpstreamInput}

theorem mergeArtifact_ok {closure : Dict String (List String)}
    {inputs' : Dict String UpstreamInput}
    (ok : mergeArtifact closure write.1 inputs write.2 = .ok inputs') :
    ∀ existing, get? inputs write.2.path = some existing →
      existing.contentHash = write.2.contentHash ∨
        existing.taskId ∈ (get? closure write.1.id).getD [] := by
  intro existing found
  by_contra refused
  rw [not_or] at refused
  unfold mergeArtifact at ok
  rw [found] at ok
  simp only [if_pos (show existing.contentHash ≠ write.2.contentHash ∧
    existing.taskId ∉ (get? closure write.1.id).getD [] from refused)] at ok
  cases ok

structure Merged (closure : Dict String (List String)) (items : List Write)
    (inputs : Dict String UpstreamInput) : Prop where
  distinct : (keys inputs).Nodup
  last : ∀ path, get? inputs path =
    ((items.filter (·.2.path = path)).getLast?).map Write.input
  chains : ∀ path, (items.filter (·.2.path = path)).IsChain (Allowed closure)

variable {items : List Write}

theorem Merged.snoc {closure : Dict String (List String)} (merged : Merged closure items inputs)
    (allowed : ∀ earlier ∈ (items.filter (·.2.path = write.2.path)).getLast?, Allowed closure
      earlier write) : Merged closure (items ++ [write]) (set inputs write.2.path write.input) := by
  constructor
  · exact keys_set_nodup _ _ merged.distinct
  · intro path
    rw [get?_set, List.filter_append]
    by_cases same : write.2.path = path
    · simp [same]
    · simp [same, merged.last path]
  · intro path
    rw [List.filter_append]
    by_cases same : write.2.path = path
    · subst same
      rw [List.filter_cons_of_pos (by simp), List.filter_nil, List.isChain_append]
      refine ⟨merged.chains _, List.isChain_singleton _, ?_⟩
      intro earlier last later first
      cases first
      exact allowed earlier last
    · rw [List.filter_cons_of_neg (by simpa using same), List.filter_nil, List.append_nil]
      exact merged.chains path

theorem mergeWrites_merged {closure : Dict String (List String)}
    (ok : mergeWrites closure items = .ok inputs) : Merged closure items inputs := by
  induction items using List.reverseRecOn generalizing inputs with
  | nil =>
    cases ok
    exact ⟨List.nodup_nil, fun _ => rfl, fun _ => List.isChain_nil⟩
  | append_singleton items write ih =>
    rw [mergeWrites, List.foldlM_append, bind_eq_ok] at ok
    obtain ⟨before, earlier, step⟩ := ok
    have merged := ih earlier
    rw [List.foldlM_cons, bind_eq_ok] at step
    obtain ⟨after, step, done⟩ := step
    cases done
    have allowed := mergeArtifact_ok step
    rw [mergeArtifact_eq closure write before allowed] at step
    cases step
    apply merged.snoc
    intro other last
    apply allowed other.input
    rw [merged.last, Option.mem_def.mp last]
    rfl

theorem mergeWrites_returns {closure : Dict String (List String)}
    (chains : ∀ path, (items.filter (·.2.path = path)).IsChain (Allowed closure)) :
    ∃ inputs, mergeWrites closure items = .ok inputs := by
  induction items using List.reverseRecOn with
  | nil => exact ⟨[], rfl⟩
  | append_singleton items write ih =>
    have earlier : ∀ path, (items.filter (·.2.path = path)).IsChain (Allowed closure) := by
      intro path
      have whole := chains path
      rw [List.filter_append, List.isChain_append] at whole
      exact whole.1
    obtain ⟨before, ok⟩ := ih earlier
    have merged := mergeWrites_merged ok
    refine ⟨set before write.2.path write.input, ?_⟩
    rw [mergeWrites, List.foldlM_append, bind_eq_ok]
    refine ⟨before, ok, ?_⟩
    rw [List.foldlM_cons, mergeArtifact_eq]
    · rfl
    · intro existing found
      rw [merged.last] at found
      obtain ⟨other, last, rfl⟩ := Option.map_eq_some_iff.mp found
      have whole := chains write.2.path
      rw [List.filter_append, List.filter_cons_of_pos (by simp), List.filter_nil,
        List.isChain_append] at whole
      exact whole.2.2 other last write rfl

/-- The merge of the later task knows the earlier one: it is below it and not cancelled. -/
def TaskSet.Sees (tasks : TaskSet) (later earlier : Task) : Prop :=
  Relation.TransGen (Feeds tasks.tasksById) earlier.id later.id ∧ earlier.status ≠ .cancelled

def TaskSet.Legal (tasks : TaskSet) (earlier later : Write) : Prop :=
  earlier.2.contentHash = later.2.contentHash ∨ tasks.Sees later.1 earlier.1

theorem TaskSet.not_sees_self (tasks : TaskSet) (task : Task) : ¬ tasks.Sees task task :=
  fun cycle => tasks.acyclic task.id cycle.1

namespace Producers
variable {tasks : TaskSet} (producers : Producers tasks)
  (artifactsByTask : Dict String (List Artifact))

/-- In the order each write of a path may follow the one before it. -/
def Mergeable (tasks : TaskSet) (artifactsByTask : Dict String (List Artifact))
    (order : List Task) : Prop :=
  ∀ path, (order.flatMap (writesTo artifactsByTask path)).IsChain tasks.Legal

/-- Some order puts the second right after the first among the producers of the path. -/
def Adjoining (path : String) (s t : Task) : Prop :=
  ¬ producers.Before t s ∧ ∀ w ∈ producers.list, contents artifactsByTask path w ≠ [] →
    ¬ (producers.Before s w ∧ producers.Before w t)

/-- Producers that can follow one another with different content for a path are seen. -/
def Clear : Prop :=
  ∀ path, ∀ s ∈ producers.list, ∀ t ∈ producers.list, ∀ c ∈ contents artifactsByTask path s,
    ∀ d ∈ contents artifactsByTask path t, c ≠ d →
      producers.Adjoining artifactsByTask path s t → tasks.Sees t s

def Hopeless : Prop :=
  ∀ order, producers.Ordering order → ¬ Mergeable tasks artifactsByTask order

def closure (ordinal : Numbering) : Dict String (List String) :=
  ofEntries (producers.list.map fun task =>
    (task.id, (ancestors ordinal task.id tasks.tasksById).map (·.id)))

variable {producers artifactsByTask}

variable {path : String}

theorem mem_writesTo {task : Task} {write : Write}
    (inside : write ∈ writesTo artifactsByTask path task) :
    write.1 = task ∧ write.2.path = path ∧
      write.2.contentHash ∈ contents artifactsByTask path task := by
  obtain ⟨artifact, given, rfl⟩ := List.mem_map.mp inside
  have there : artifact.path = path := by simpa using List.of_mem_filter given
  exact ⟨rfl, there, List.mem_map_of_mem given⟩

theorem writesTo_eq_nil {task : Task} :
    writesTo artifactsByTask path task = [] ↔ contents artifactsByTask path task = [] := by
  rw [writesTo, contents, List.map_eq_nil_iff, List.map_eq_nil_iff]

theorem mem_closure (ordinal : Numbering) {s t : Task} (first : s ∈ producers.list)
    (second : t ∈ producers.list) :
    s.id ∈ (get? (producers.closure ordinal) t.id).getD [] ↔ tasks.Sees t s := by
  have known : t.id ∈ keys (producers.closure ordinal) := by
    rw [closure, mem_keys_ofEntries]
    exact List.mem_map.mpr ⟨_, List.mem_map.mpr ⟨t, second, rfl⟩, rfl⟩
  obtain ⟨ids, found⟩ := Option.isSome_iff_exists.mp ((get?_isSome_iff _ _).mpr known)
  have value : ids = (ancestors ordinal t.id tasks.tasksById).map (·.id) := by
    rcases get?_update_cases found with entry | empty
    · obtain ⟨other, _, same⟩ := List.mem_map.mp entry
      obtain ⟨key, value⟩ := Prod.mk.inj same
      rw [← value, key]
    · cases empty
  rw [found, Option.getD_some, value, List.mem_map]
  constructor
  · intro ⟨other, below, same⟩
    obtain ⟨member, live, path⟩ := (mem_ancestors tasks ordinal t.id other).mp below
    rw [same, producers.members s first] at member
    cases member
    exact ⟨path, live⟩
  · intro ⟨path, live⟩
    exact ⟨s, (mem_ancestors tasks ordinal t.id s).mpr
      ⟨producers.members s first, live, path⟩, rfl⟩

theorem allowed_iff (ordinal : Numbering) {order : List Task}
    (listed : ∀ task ∈ order, task ∈ producers.list) :
    ((writes artifactsByTask order).filter (·.2.path = path)).IsChain
        (Allowed (producers.closure ordinal)) ↔
      (order.flatMap (writesTo artifactsByTask path)).IsChain tasks.Legal := by
  rw [writes_filter]
  apply List.IsChain.iff_of_mem_imp
  intro earlier later first second
  have member : ∀ write ∈ order.flatMap (writesTo artifactsByTask path),
      write.1 ∈ producers.list := by
    intro write inside
    obtain ⟨task, here, given⟩ := List.mem_flatMap.mp inside
    exact (mem_writesTo given).1 ▸ listed task here
  rw [Allowed, mem_closure ordinal (member earlier first) (member later second)]
  rfl

structure Handed (artifactsByTask : Dict String (List Artifact)) (order : List Task)
    (inputs : List UpstreamInput) : Prop where
  merged : ∃ d : Dict String UpstreamInput, (keys d).Nodup ∧
    inputs = (sorted (keys d)).filterMap (get? d) ∧
    ∀ path, get? d path =
      ((order.flatMap (writesTo artifactsByTask path)).getLast?).map Write.input

theorem mergeAccepted_ok {ordinal : Numbering} {inputs : List UpstreamInput}
    (ok : mergeAccepted ordinal producers.list artifactsByTask tasks.tasksById = .ok inputs) :
    Mergeable tasks artifactsByTask (topological ordinal producers.list) ∧
      Handed artifactsByTask (topological ordinal producers.list) inputs := by
  unfold mergeAccepted at ok
  dsimp only at ok
  rw [merge_writes, bind_eq_ok] at ok
  obtain ⟨d, ran, done⟩ := ok
  cases done
  have merged := mergeWrites_merged ran
  constructor
  · intro path
    rw [← allowed_iff ordinal fun task => (mem_topological ordinal task).mp]
    exact merged.chains path
  · refine ⟨d, merged.distinct, rfl, ?_⟩
    intro path
    rw [merged.last, writes_filter]

theorem mergeAccepted_returns {ordinal : Numbering}
    (mergeable : Mergeable tasks artifactsByTask (topological ordinal producers.list)) :
    ∃ inputs, mergeAccepted ordinal producers.list artifactsByTask tasks.tasksById =
      .ok inputs := by
  obtain ⟨d, ran⟩ := mergeWrites_returns fun path =>
    (allowed_iff ordinal fun task => (mem_topological ordinal task).mp).mpr (mergeable path)
  refine ⟨(sorted (keys d)).filterMap (get? d), ?_⟩
  unfold mergeAccepted
  dsimp only
  rw [merge_writes, bind_eq_ok]
  exact ⟨d, ran, rfl⟩

end Producers

end Artifacts
