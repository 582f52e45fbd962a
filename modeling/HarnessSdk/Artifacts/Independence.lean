import HarnessSdk.Artifacts.Merging

/-! When the merge of accepted artifacts ranks no independent producers. -/
namespace Artifacts
open PyDict PyText Checks

theorem chain_flatMap {α β : Type} {r : β → β → Prop} (block : α → List β)
    [DecidablePred fun a => block a ≠ []] (items : List α) :
    (items.flatMap block).IsChain r ↔ (∀ a ∈ items, (block a).IsChain r) ∧
      (items.filter fun a => block a ≠ []).IsChain
        fun a b => ∀ x ∈ (block a).getLast?, ∀ y ∈ (block b).head?, r x y := by
  have dropped : items.flatMap block =
      ((items.filter fun a => block a ≠ []).map block).flatten := by
    induction items with
    | nil => rfl
    | cons a rest ih =>
      rw [List.flatMap_cons, ih]
      by_cases empty : block a = []
      · simp [empty]
      · simp [empty]
  have nonempty : [] ∉ (items.filter fun a => block a ≠ []).map block := by
    intro inside
    obtain ⟨a, kept, empty⟩ := List.mem_map.mp inside
    have full := List.of_mem_filter kept
    simp [empty] at full
  rw [dropped, List.isChain_flatten nonempty, List.isChain_map, List.forall_mem_map]
  apply and_congr_left
  intro _
  constructor
  · intro kept a inside
    by_cases empty : block a = []
    · rw [empty]
      exact List.isChain_nil
    · exact kept a (List.mem_filter.mpr ⟨inside, by simpa using empty⟩)
  · exact fun all a kept => all a (List.mem_of_mem_filter kept)

namespace Producers
variable {tasks : TaskSet} {producers : Producers tasks}
  {artifactsByTask : Dict String (List Artifact)}

variable {path : String}

theorem contents_of_chain {task : Task}
    (chain : (writesTo artifactsByTask path task).IsChain tasks.Legal) {c d : String}
    (first : c ∈ contents artifactsByTask path task)
    (second : d ∈ contents artifactsByTask path task) : c = d := by
  have level : ((writesTo artifactsByTask path task).map (·.2.contentHash)).IsChain Eq := by
    rw [List.isChain_map]
    refine chain.imp_of_mem_imp ?_
    intro earlier later inside inside' legal
    refine legal.resolve_right ?_
    rw [(mem_writesTo inside).1, (mem_writesTo inside').1]
    exact tasks.not_sees_self task
  have hashes : (writesTo artifactsByTask path task).map (·.2.contentHash) =
      contents artifactsByTask path task := by
    rw [writesTo, contents, List.map_map]
    rfl
  rw [hashes, List.isChain_iff_pairwise] at level
  exact List.Pairwise.forall_of_forall (fun _ _ => rfl) level first second

namespace Clear
variable (clear : producers.Clear artifactsByTask)
include clear

variable {path : String}

theorem single {task : Task} (inside : task ∈ producers.list) {c d : String}
    (first : c ∈ contents artifactsByTask path task)
    (second : d ∈ contents artifactsByTask path task) : c = d := by
  by_contra differ
  apply tasks.not_sees_self task
  apply clear path task inside task inside c first d second differ
  exact ⟨before_irrefl task, fun w _ _ path => before_irrefl task (path.1.trans path.2)⟩

theorem mergeable {order : List Task} (ordering : producers.Ordering order) :
    Mergeable tasks artifactsByTask order := by
  intro path
  rw [chain_flatMap]
  constructor
  · intro task here
    have inside := (ordering.same task).mp here
    apply List.Pairwise.isChain
    apply List.pairwise_of_forall_mem_list
    intro earlier first later second
    obtain ⟨_, _, c⟩ := mem_writesTo first
    obtain ⟨_, _, d⟩ := mem_writesTo second
    exact Or.inl (clear.single inside c d)
  · have kept := ordering.keeps.sublist (List.filter_sublist (p := fun task =>
      decide (writesTo artifactsByTask path task ≠ [])))
    rw [List.pairwise_iff_getElem] at kept
    rw [List.isChain_iff_getElem]
    intro i hi earlier last later first
    have gives : ∀ k (hk : k < (order.filter fun task => writesTo artifactsByTask path task ≠
        []).length), (order.filter fun task => writesTo artifactsByTask path task ≠ [])[k] ∈
          producers.list := by
      intro k hk
      exact (ordering.same _).mp (List.mem_of_mem_filter (List.getElem_mem hk))
    obtain ⟨first', _, c⟩ := mem_writesTo (List.mem_of_mem_getLast? last)
    obtain ⟨second', _, d⟩ := mem_writesTo (List.mem_of_mem_head? first)
    by_cases same : earlier.2.contentHash = later.2.contentHash
    · exact Or.inl same
    · right
      rw [first', second']
      apply clear path _ (gives i (by omega)) _ (gives (i + 1) hi) _ c _ d same
      refine ⟨kept i (i + 1) (by omega) hi (by omega), ?_⟩
      -- A producer between the two would stand between them in the order too.
      intro w inside given between
      have there : w ∈ order.filter fun task => writesTo artifactsByTask path task ≠ [] := by
        apply List.mem_filter.mpr
        refine ⟨(ordering.same w).mpr inside, ?_⟩
        simpa [writesTo_eq_nil] using given
      obtain ⟨k, hk, rfl⟩ := List.getElem_of_mem there
      rcases Nat.lt_trichotomy k i with less | level | more
      · exact kept k i hk (by omega) less between.1
      · subst level
        exact before_irrefl _ between.1
      · rcases Nat.lt_trichotomy k (i + 1) with less' | level | more'
        · omega
        · subst level
          exact before_irrefl _ between.2
        · exact kept (i + 1) k hi hk more' between.2

theorem top {s t : Task} (first : s ∈ producers.list) (second : t ∈ producers.list)
    (last : ∀ w ∈ producers.list, contents artifactsByTask path w ≠ [] → ¬ producers.Before s w)
    (last' : ∀ w ∈ producers.list, contents artifactsByTask path w ≠ [] → ¬ producers.Before t w)
    {c d : String} (given : c ∈ contents artifactsByTask path s)
    (given' : d ∈ contents artifactsByTask path t) : c = d := by
  by_contra differ
  have below : tasks.Sees t s := by
    apply clear path s first t second c given d given' differ
    exact ⟨last' s first (List.ne_nil_of_mem given), fun w inside gives between =>
      last w inside gives between.1⟩
  have above : tasks.Sees s t := by
    apply clear path t second s first d given' c given (Ne.symm differ)
    exact ⟨last t second (List.ne_nil_of_mem given'), fun w inside gives between =>
      last' w inside gives between.1⟩
  exact tasks.acyclic s.id (below.1.trans above.1)

end Clear

variable {order : List Task}

theorem last_write (keeps : order.Pairwise fun s t => ¬ producers.Before t s) {write : Write}
    (last : (order.flatMap (writesTo artifactsByTask path)).getLast? = some write) :
    write ∈ order.flatMap (writesTo artifactsByTask path) ∧
      ∀ w ∈ order, contents artifactsByTask path w ≠ [] → ¬ producers.Before write.1 w := by
  refine ⟨List.mem_of_mem_getLast? last, ?_⟩
  induction order using List.reverseRecOn with
  | nil => cases last
  | append_singleton order task ih =>
    rw [List.pairwise_append] at keeps
    rw [List.flatMap_append, List.flatMap_singleton] at last
    intro w inside gives
    by_cases empty : writesTo artifactsByTask path task = []
    · rw [empty, List.append_nil] at last
      cases List.mem_append.mp inside with
      | inl early => exact ih keeps.1 last w early gives
      | inr here =>
        rw [List.mem_singleton] at here
        rw [here, ne_eq, ← writesTo_eq_nil] at gives
        exact absurd empty gives
    · rw [List.getLast?_append_of_ne_nil _ empty] at last
      rw [(mem_writesTo (List.mem_of_mem_getLast? last)).1]
      cases List.mem_append.mp inside with
      | inl early => exact keeps.2.2 w early task (List.mem_singleton_self task)
      | inr here =>
        rw [List.mem_singleton.mp here]
        exact before_irrefl task

theorem exists_top {task : Task} (inside : task ∈ producers.list)
    (gives : contents artifactsByTask path task ≠ []) :
    ∃ v ∈ producers.list, contents artifactsByTask path v ≠ [] ∧
      (v = task ∨ producers.Before task v) ∧
      ∀ w ∈ producers.list, contents artifactsByTask path w ≠ [] → ¬ producers.Before v w := by
  have acyclic : Digraph.Acyclic producers.Before := by
    intro s cycle
    have trans : Relation.TransGen producers.Before ≤ producers.Before := by
      intro s t path
      induction path with
      | single step => exact step
      | tail _ step ih => exact ih.trans step
    exact before_irrefl s (trans s s cycle)
  have wf := acyclic.wellFounded producers.list fun _ _ before => (Before.members before).2
  obtain ⟨v, ⟨listed, given, above⟩, most⟩ := wf.has_min
    {v | v ∈ producers.list ∧ contents artifactsByTask path v ≠ [] ∧
      (v = task ∨ producers.Before task v)} ⟨task, inside, gives, Or.inl rfl⟩
  refine ⟨v, listed, given, above, ?_⟩
  intro w listed' given' before
  refine most w ⟨listed', given', Or.inr ?_⟩ before
  cases above with
  | inl same => exact same ▸ before
  | inr lower => exact lower.trans before

theorem exists_staged (stage : Task → Nat)
    (climbs : ∀ s t, producers.Before s t → stage s ≤ stage t) :
    ∃ order, producers.Ordering order ∧ order.Pairwise fun s t => stage s ≤ stage t := by
  have base := @topological_ordering _ producers fun _ => 0
  let place (task : Task) : ℕ ×ₗ ℕ :=
    toLex (stage task, (topological (fun _ => 0) producers.list).idxOf task)
  let order := (topological (fun _ => 0) producers.list).insertionSort fun s t => place s ≤ place t
  have perm : order.Perm (topological (fun _ => 0) producers.list) := List.perm_insertionSort _ _
  have ascending : order.Pairwise fun s t => place s ≤ place t := List.pairwise_insertionSort _ _
  refine ⟨order, ⟨perm.nodup_iff.mpr base.nodup, ?_, ?_⟩, ?_⟩
  · exact fun task => perm.mem_iff.trans (base.same task)
  · refine ascending.imp ?_
    intro s t le before
    have lower : place t < place s := by
      rw [Prod.Lex.toLex_lt_toLex]
      rcases Nat.lt_or_eq_of_le (climbs t s before) with less | level
      · exact Or.inl less
      · exact Or.inr ⟨level, base.before_idxOf before⟩
    exact absurd lower (not_lt.mpr le)
  · refine ascending.imp ?_
    intro s t le
    rw [Prod.Lex.toLex_le_toLex] at le
    rcases le with less | ⟨level, _⟩
    · exact Nat.le_of_lt less
    · exact Nat.le_of_eq level

open Classical in
/-- What must come before two producers, the first, what lies between, the second, and the rest. -/
noncomputable def stage (producers : Producers tasks) (s t w : Task) : Nat :=
  if w = s then 1
  else if w = t then 3
  else if producers.Before s w then if producers.Before w t then 2 else 4
  else if producers.Before w s ∨ producers.Before w t then 0
  else 4

theorem stage_climbs {s t : Task} (free : ¬ producers.Before t s) (x w : Task)
    (before : producers.Before x w) : producers.stage s t x ≤ producers.stage s t w := by
  have selfless := @before_irrefl _ producers
  have down : ∀ y, producers.Before w y → producers.Before x y := fun _ later => before.trans later
  have up : ∀ y, producers.Before y x → producers.Before y w := fun _ early => early.trans before
  unfold stage
  by_cases last : w = s
  · subst last
    have differ : x ≠ w := fun same => selfless w (same ▸ before)
    have differ' : x ≠ t := fun same => free (same ▸ before)
    have late : ¬ producers.Before w x := fun early => selfless w (early.trans before)
    simp [differ, differ', late, before]
  · by_cases last' : w = t
    · subst last'
      have differ : x ≠ w := fun same => selfless w (same ▸ before)
      simp only [last, differ, before, if_true, if_false, or_true]
      split_ifs <;> omega
    · by_cases above : producers.Before s w
      · by_cases below : producers.Before w t
        · have differ : x ≠ t := fun same => selfless t (same ▸ down t below)
          simp only [last, last', above, below, differ, down t below, if_true, if_false, or_true]
          split_ifs <;> omega
        · simp only [last, last', above, below, if_true, if_false]
          split_ifs <;> omega
      · have differ : x ≠ s := fun same => above (same ▸ before)
        have late : ¬ producers.Before s x := fun early => above (up s early)
        by_cases below : producers.Before w s ∨ producers.Before w t
        · have differ' : x ≠ t := by
            intro same
            subst same
            cases below with
            | inl early => exact free (before.trans early)
            | inr cycle => exact selfless x (before.trans cycle)
          have below' : producers.Before x s ∨ producers.Before x t := below.imp (down s) (down t)
          simp [last, last', above, below, differ, differ', late, below']
        · simp only [last, last', above, below, if_false]
          split_ifs <;> omega

/-- In an order by stages the second comes right after the first among the producers of the path. -/
theorem stages_adjoin {s t : Task} (first : s ∈ producers.list) (second : t ∈ producers.list)
    (differ : s ≠ t) (given : contents artifactsByTask path s ≠ [])
    (given' : contents artifactsByTask path t ≠ [])
    (adjoining : producers.Adjoining artifactsByTask path s t)
    (ordering : producers.Ordering order)
    (staged : order.Pairwise fun x w => producers.stage s t x ≤ producers.stage s t w)
    {r : Task → Task → Prop}
    (chain : (order.filter fun task => writesTo artifactsByTask path task ≠ []).IsChain r) :
    r s t := by
  have at_first : producers.stage s t s = 1 := by simp [stage]
  have at_second : producers.stage s t t = 3 := by simp [stage, Ne.symm differ]
  have listed : ∀ w ∈ producers.list, contents artifactsByTask path w ≠ [] →
      w ∈ order.filter fun task => writesTo artifactsByTask path task ≠ [] := by
    intro w inside gives
    apply List.mem_filter.mpr
    exact ⟨(ordering.same w).mpr inside, by simpa [writesTo_eq_nil] using gives⟩
  have between : ∀ w ∈ order.filter fun task => writesTo artifactsByTask path task ≠ [],
      1 ≤ producers.stage s t w → producers.stage s t w ≤ 3 → w = s ∨ w = t := by
    intro w inside low high
    obtain ⟨here, gives⟩ := List.mem_filter.mp inside
    have apart := adjoining.2 w ((ordering.same w).mp here)
      (by simpa [writesTo_eq_nil] using gives)
    unfold stage at low high
    by_cases same : w = s
    · exact Or.inl same
    · by_cases same' : w = t
      · exact Or.inr same'
      · simp only [same, same', if_false] at low high
        split_ifs at low high
        · next above below => exact absurd ⟨above, below⟩ apart
        all_goals omega
  have nodup := ordering.nodup.filter fun task => decide (writesTo artifactsByTask path task ≠ [])
  have climbing := staged.sublist (List.filter_sublist (p := fun task =>
    decide (writesTo artifactsByTask path task ≠ [])))
  rw [List.pairwise_iff_getElem] at climbing
  obtain ⟨i, hi, place⟩ := List.getElem_of_mem (listed s first given)
  obtain ⟨j, hj, place'⟩ := List.getElem_of_mem (listed t second given')
  have less : i < j := by
    rcases Nat.lt_trichotomy i j with less | level | more
    · exact less
    · subst level
      exact absurd (place.symm.trans place') differ
    · have down := climbing j i hj hi more
      rw [place, place', at_first, at_second] at down
      omega
  have low := climbing i (i + 1) hi (by omega) (by omega)
  have high : producers.stage s t (order.filter fun task =>
      writesTo artifactsByTask path task ≠ [])[i + 1] ≤ 3 := by
    rcases Nat.lt_or_eq_of_le (Nat.succ_le_of_lt less) with earlier | level
    · have up := climbing (i + 1) j (by omega) hj earlier
      rwa [place', at_second] at up
    · subst level
      rw [place', at_second]
  rw [place, at_first] at low
  have next := between _ (List.getElem_mem (by omega)) low high
  have step := List.isChain_iff_getElem.mp chain i (by omega)
  rw [place] at step
  cases next with
  | inl again =>
    have same := (@List.Nodup.getElem_inj_iff _ _ nodup _ hi _ _).mp (place.trans again.symm)
    omega
  | inr here => rwa [here] at step

theorem exists_stuck (unclear : ¬ producers.Clear artifactsByTask) :
    ∃ order, producers.Ordering order ∧ ¬ Mergeable tasks artifactsByTask order := by
  simp only [Clear] at unclear
  push Not at unclear
  obtain ⟨path, s, first, t, second, c, given, d, given', differ, adjoining, unseen⟩ := unclear
  obtain ⟨order, ordering, staged⟩ := exists_staged (producers.stage s t)
    (stage_climbs adjoining.1)
  refine ⟨order, ordering, ?_⟩
  intro mergeable
  obtain ⟨own, next⟩ := (chain_flatMap (writesTo artifactsByTask path) order).mp (mergeable path)
  have own' : ∀ task ∈ producers.list, ∀ c ∈ contents artifactsByTask path task,
      ∀ d ∈ contents artifactsByTask path task, c = d := fun task inside _ here _ here' =>
    contents_of_chain (own task ((ordering.same task).mpr inside)) here here'
  by_cases same : s = t
  · subst same
    exact differ (own' s first c given d given')
  · have follows := stages_adjoin first second same (List.ne_nil_of_mem given)
      (List.ne_nil_of_mem given') adjoining ordering staged next
    have writing : ∀ task c, c ∈ contents artifactsByTask path task →
        writesTo artifactsByTask path task ≠ [] := by
      intro task c here
      rw [ne_eq, writesTo_eq_nil]
      exact List.ne_nil_of_mem here
    obtain ⟨earlier, last⟩ :=
      Option.isSome_iff_exists.mp (List.getLast?_isSome.mpr (writing s c given))
    obtain ⟨later, head⟩ :=
      Option.isSome_iff_exists.mp (List.isSome_head?.mpr (writing t d given'))
    obtain ⟨writer, _, here⟩ := mem_writesTo (List.mem_of_mem_getLast? last)
    obtain ⟨writer', _, here'⟩ := mem_writesTo (List.mem_of_mem_head? head)
    cases follows earlier last later head with
    | inl level =>
      apply differ
      rw [own' s first c given _ here, level]
      exact own' t second _ here' d given'
    | inr sees => exact unseen (writer ▸ writer' ▸ sees)

end Producers

/-- What the merge returns but for the tasks that are named: the content of each path. -/
def outcome (result : Except ArtifactConflict (List UpstreamInput)) :
    Option (List (String × String)) :=
  match result with
  | .ok inputs => some (inputs.map fun input => (input.path, input.contentHash))
  | .error _ => none

structure Producers.Lawful {tasks : TaskSet} (producers : Producers tasks)
    (artifactsByTask : Dict String (List Artifact)) : Prop where
  /-- A producer of other content is a transitive dependency of a producer of the content. -/
  dominated : ∀ ordinal inputs,
    mergeAccepted ordinal producers.list artifactsByTask tasks.tasksById = .ok inputs →
      ∀ input ∈ inputs, ∀ task ∈ producers.list,
        ∀ c ∈ contents artifactsByTask input.path task, c ≠ input.contentHash →
          ∃ other ∈ producers.list,
            input.contentHash ∈ contents artifactsByTask input.path other ∧
              Relation.TransGen (Feeds tasks.tasksById) task.id other.id
  /-- Neither the numbering of the tasks nor the order of the list changes the outcome. -/
  independent : ∀ ordinal ordinal' (list : List Task), list.Perm producers.list →
    outcome (mergeAccepted ordinal producers.list artifactsByTask tasks.tasksById) =
      outcome (mergeAccepted ordinal' list artifactsByTask tasks.tasksById)

namespace Producers
variable {tasks : TaskSet} {producers : Producers tasks}
  {artifactsByTask : Dict String (List Artifact)}

def reorder (producers : Producers tasks) (list : List Task) (perm : list.Perm producers.list) :
    Producers tasks :=
  ⟨list, fun task inside => producers.members task (perm.subset inside)⟩

variable {list : List Task}

theorem Ordering.of_reorder {perm : list.Perm producers.list} {order : List Task}
    (ordering : (producers.reorder list perm).Ordering order) : producers.Ordering order := by
  have members : ∀ task, task ∈ list ↔ task ∈ producers.list := fun _ => perm.mem_iff
  constructor
  · exact ordering.nodup
  · exact fun task => (ordering.same task).trans (members task)
  · refine ordering.keeps.imp ?_
    intro s t apart before
    apply apart
    refine Relation.TransGen.mono ?_ _ _ before
    intro s t direct
    exact ⟨(members s).mpr direct.1, (members t).mpr direct.2.1, direct.2.2⟩

theorem Hopeless.raises (hopeless : producers.Hopeless artifactsByTask) (ordinal : Numbering)
    (perm : list.Perm producers.list) :
    outcome (mergeAccepted ordinal list artifactsByTask tasks.tasksById) = none := by
  cases ran : mergeAccepted ordinal list artifactsByTask tasks.tasksById with
  | error e => rfl
  | ok inputs =>
    have ordering := @topological_ordering _ (producers.reorder list perm) ordinal
    have merged := @mergeAccepted_ok _ (producers.reorder list perm) _ _ _ ran
    exact absurd merged.1 (hopeless _ ordering.of_reorder)

namespace Clear
variable (clear : producers.Clear artifactsByTask)
include clear

theorem last_content {order order' : List Task} (ordering : producers.Ordering order)
    (ordering' : producers.Ordering order') (path : String) :
    (((order.flatMap (writesTo artifactsByTask path)).getLast?).map
      fun write => (write.2.path, write.2.contentHash)) =
    (((order'.flatMap (writesTo artifactsByTask path)).getLast?).map
      fun write => (write.2.path, write.2.contentHash)) := by
  have same : (order.flatMap (writesTo artifactsByTask path)).Perm
      (order'.flatMap (writesTo artifactsByTask path)) := by
    apply List.Perm.flatMap_right
    rw [List.perm_ext_iff_of_nodup ordering.nodup ordering'.nodup]
    exact fun task => (ordering.same task).trans (ordering'.same task).symm
  cases last : (order.flatMap (writesTo artifactsByTask path)).getLast? with
  | none =>
    rw [List.getLast?_eq_none_iff] at last
    rw [last] at same
    rw [List.nil_perm.mp same]
    rfl
  | some write =>
    have nonempty : order'.flatMap (writesTo artifactsByTask path) ≠ [] := by
      intro empty
      rw [empty] at same
      rw [List.perm_nil.mp same] at last
      cases last
    obtain ⟨write', last'⟩ := Option.isSome_iff_exists.mp (List.getLast?_isSome.mpr nonempty)
    rw [last', Option.map_some, Option.map_some]
    obtain ⟨inside, most⟩ := last_write ordering.keeps last
    obtain ⟨inside', most'⟩ := last_write ordering'.keeps last'
    obtain ⟨task, here, given⟩ := List.mem_flatMap.mp inside
    obtain ⟨task', here', given'⟩ := List.mem_flatMap.mp inside'
    obtain ⟨rfl, there, content⟩ := mem_writesTo given
    obtain ⟨rfl, there', content'⟩ := mem_writesTo given'
    rw [there, there', clear.top ((ordering.same _).mp here) ((ordering'.same _).mp here')
      (fun w listed => most w ((ordering.same w).mpr listed))
      (fun w listed => most' w ((ordering'.same w).mpr listed)) content content']

theorem same_outcome {order order' : List Task} (ordering : producers.Ordering order)
    (ordering' : producers.Ordering order') {inputs inputs' : List UpstreamInput}
    (handed : Handed artifactsByTask order inputs)
    (handed' : Handed artifactsByTask order' inputs') :
    outcome (.ok inputs) = outcome (.ok inputs') := by
  obtain ⟨d, distinct, rfl, last⟩ := handed.merged
  obtain ⟨d', distinct', rfl, last'⟩ := handed'.merged
  have level : ∀ path, ((get? d path).map fun input => (input.path, input.contentHash)) =
      (get? d' path).map fun input => (input.path, input.contentHash) := by
    intro path
    rw [last, last', Option.map_map, Option.map_map]
    exact clear.last_content ordering ordering' path
  have paths : (keys d).Perm (keys d') := by
    rw [List.perm_ext_iff_of_nodup distinct distinct']
    intro path
    rw [← get?_isSome_iff, ← get?_isSome_iff]
    have both := congrArg Option.isSome (level path)
    rw [Option.isSome_map, Option.isSome_map] at both
    rw [both]
  have sorts : sorted (keys d) = sorted (keys d') :=
    @sort_of_perm String String _ id _ _ paths fun _ _ _ _ same => same
  rw [outcome, outcome, sorts, List.map_filterMap, List.map_filterMap]
  exact congrArg some (List.filterMap_congr fun path _ => level path)

theorem lawful : producers.Lawful artifactsByTask := by
  constructor
  · intro ordinal inputs ran input handed task inside c given differ
    obtain ⟨_, ⟨d, _, rfl, last⟩⟩ := mergeAccepted_ok ran
    have ordering := @topological_ordering _ producers ordinal
    obtain ⟨path, _, found⟩ := List.mem_filterMap.mp handed
    rw [last, Option.map_eq_some_iff] at found
    obtain ⟨write, final, rfl⟩ := found
    obtain ⟨written, most⟩ := last_write ordering.keeps final
    obtain ⟨writer, here, own⟩ := List.mem_flatMap.mp written
    obtain ⟨rfl, rfl, content⟩ := mem_writesTo own
    obtain ⟨other, listed, gives, above, upmost⟩ := exists_top inside (List.ne_nil_of_mem given)
    obtain ⟨e, there⟩ := List.exists_mem_of_ne_nil _ gives
    have level : e = write.2.contentHash := clear.top listed ((ordering.same _).mp here) upmost
      (fun w member => most w ((ordering.same w).mpr member)) there content
    subst level
    refine ⟨other, listed, there, ?_⟩
    cases above with
    | inl same =>
      subst same
      exact absurd (clear.single listed given there) differ
    | inr before => exact Before.feeds before
  · intro ordinal ordinal' list perm
    have ordering := @topological_ordering _ producers ordinal
    have ordering' := (@topological_ordering _ (producers.reorder list perm) ordinal').of_reorder
    obtain ⟨inputs, ran⟩ := mergeAccepted_returns (clear.mergeable ordering)
    obtain ⟨inputs', ran'⟩ := @mergeAccepted_returns _ (producers.reorder list perm) _ _
      (clear.mergeable ordering')
    have handed := (mergeAccepted_ok ran).2
    have handed' := (@mergeAccepted_ok _ (producers.reorder list perm) _ _ _ ran').2
    have same := clear.same_outcome ordering ordering' handed handed'
    rw [ran, same]
    exact congrArg outcome ran'.symm

end Clear

end Producers

/-- The merge ranks no independent producers exactly when all producers that can follow one another
with different content depend on one another, or no order of them can be merged. -/
theorem mergeAccepted_lawful_iff (tasks : TaskSet) (producers : Producers tasks)
    (artifactsByTask : Dict String (List Artifact)) :
    producers.Lawful artifactsByTask ↔
      producers.Clear artifactsByTask ∨ producers.Hopeless artifactsByTask := by
  constructor
  · intro lawful
    by_contra neither
    rw [not_or] at neither
    obtain ⟨stuck, ordering, refused⟩ := Producers.exists_stuck neither.1
    have merging := neither.2
    simp only [Producers.Hopeless] at merging
    push Not at merging
    obtain ⟨order, ordering', mergeable⟩ := merging
    have same := lawful.independent (fun id => ((order.map Task.id).idxOf id : Int))
      (fun id => ((stuck.map Task.id).idxOf id : Int)) producers.list (.refl _)
    rw [← Producers.topological_of_ordering ordering'] at mergeable
    rw [← Producers.topological_of_ordering ordering] at refused
    obtain ⟨inputs, ran⟩ := Producers.mergeAccepted_returns mergeable
    rw [ran] at same
    cases ran' : mergeAccepted (fun id => ((stuck.map Task.id).idxOf id : Int)) producers.list
        artifactsByTask tasks.tasksById with
    | ok inputs' => exact refused (Producers.mergeAccepted_ok ran').1
    | error e =>
      rw [ran'] at same
      cases same
  · intro fine
    cases fine with
    | inl clear => exact clear.lawful
    | inr hopeless =>
      constructor
      · intro ordinal inputs ran
        have raised := hopeless.raises ordinal (.refl _)
        rw [ran] at raised
        cases raised
      · intro ordinal ordinal' list perm
        rw [hopeless.raises ordinal (.refl _), hopeless.raises ordinal' perm]

/-- Two branches write the same, and a task that depends on the second writes something else. -/
def hiddenTable : TasksById := [
  ("task-1", ⟨"task-1", [], .completed, ["a1"]⟩), ("task-2", ⟨"task-2", [], .completed, ["a2"]⟩),
  ("task-3", ⟨"task-3", ["task-2"], .completed, ["a3"]⟩)]

theorem hidden_feeds {a b : String} (feeds : Feeds hiddenTable a b) :
    a = "task-2" ∧ b = "task-3" := by
  obtain ⟨task, found, edge⟩ := feeds
  have each : ∀ entry ∈ hiddenTable, ∀ dep ∈ entry.2.dependencyIds,
      dep = "task-2" ∧ entry.1 = "task-3" := by decide
  exact each (b, task) (mem_of_get?_eq_some found) a edge

def hiddenTasks : TaskSet where
  tasksById := hiddenTable
  distinct := by decide
  named := by
    intro id task found
    have each : ∀ entry ∈ hiddenTable, entry.2.id = entry.1 := by decide
    exact each (id, task) (mem_of_get?_eq_some found)
  known := by
    intro a b feeds
    rw [(hidden_feeds feeds).1]
    decide
  once := by
    intro id task found
    have each : ∀ entry ∈ hiddenTable, entry.2.dependencyIds.Nodup := by decide
    exact each (id, task) (mem_of_get?_eq_some found)
  acyclic := by
    apply Digraph.Acyclic.of_rank fun id => if id = "task-3" then 1 else 0
    intro a b feeds
    obtain ⟨rfl, rfl⟩ := hidden_feeds feeds
    decide

def hiddenProducers : Producers hiddenTasks where
  list := hiddenTable.map Prod.snd
  members := by decide

def hiddenArtifacts : Dict String (List Artifact) := [
  ("task-1", [⟨"a1", "report.md", "x"⟩]), ("task-2", [⟨"a2", "report.md", "x"⟩]),
  ("task-3", [⟨"a3", "report.md", "y"⟩])]

/-- The second branch hides the first one, of which the third task never knew. -/
theorem equal_branch_hides_producer : ¬ ∀ (tasks : TaskSet) (producers : Producers tasks)
    (artifactsByTask : Dict String (List Artifact)), producers.Lawful artifactsByTask := by
  intro all
  have ran : mergeAccepted (ordinalOf fun _ => none) hiddenProducers.list hiddenArtifacts
      hiddenTasks.tasksById = .ok [⟨"task-3", "report.md", "y", "a3"⟩] := by
    decide +kernel
  have lawful := all hiddenTasks hiddenProducers hiddenArtifacts
  obtain ⟨other, _, _, path⟩ := lawful.dominated _ _ ran _ (List.mem_singleton_self _)
    ⟨"task-1", [], .completed, ["a1"]⟩ (by decide) "x" (by decide) (by decide)
  obtain ⟨_, first, _⟩ := Relation.TransGen.head'_iff.mp path
  exact absurd (hidden_feeds first).1 (by decide)

end Artifacts
