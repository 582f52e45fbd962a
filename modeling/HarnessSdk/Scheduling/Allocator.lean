import HarnessSdk.Graph.Changes
import HarnessSdk.Network.Readiness

/-!
The bounded allocator: which tasks get a new attempt now. The legacy entry takes the ready and the
active tasks, the new one only what the admission gate let through.
-/
namespace Allocator
open PyDict Graph Network

inductive AttemptStatus
  | pending
  | claimed
  | running
  | submitted
  | verifying
  | completed
  | retryWait
  | lost
  | timedOut
  | cancelled
  | superseded
deriving DecidableEq

def openAttemptStates : List AttemptStatus := [.pending, .claimed, .running, .submitted, .verifying]

structure Attempt where
  id : String
  taskId : String
  status : AttemptStatus

structure Task (σ : Type) where
  id : String
  status : TaskStatus
  paused : Bool
  priority : σ
  dependencyIds : List String

/-- The arguments of both entries. A score is any linear order; `scores` gives the tier beside it,
`reduced` is `int(limit * ratio)`. -/
structure Request (σ : Type) where
  tasks : List (Task σ)
  distinct : (tasks.map Task.id).Nodup
  attempts : List Attempt
  concurrencyLimit : Option Int
  candidatesPerTask : Int
  raised : Bool
  reduced : Int → Int
  explorationSlots : Int
  waitingAttemptIds : List String
  scores : String → Option (Nat × σ)
  ordinal : String → Int

/-- An admission record, and whether it carries the mark of the gate. -/
structure Admission where
  taskId : String
  gatePassed : Bool
deriving DecidableEq

structure Plan (σ α : Type) where
  grants : List (α × Nat)
  openAttempts : Nat
  eligible : List (Task σ)

namespace Request
variable {σ : Type} [LinearOrder σ] (r : Request σ)

def openAttempts : List Attempt :=
  r.attempts.filter fun a => a.status ∈ openAttemptStates ∧ a.id ∉ r.waitingAttemptIds

def openByTask (id : String) : Nat := (r.openAttempts.map Attempt.taskId).count id

/-- The limit in force: raised pressure lowers it, but not below one. -/
def limit : Option Int :=
  if r.raised then r.concurrencyLimit.map fun limit => max 1 (r.reduced limit)
  else r.concurrencyLimit

def allowance : Nat := (max 1 r.candidatesPerTask).toNat

def listed (task : Task σ) : Lex (σᵒᵈ × Int) :=
  toLex (OrderDual.toDual task.priority, r.ordinal task.id)

def frontier : List (Task σ) :=
  (r.tasks.filter fun task => task.status = .ready ∧ task.paused = false ∧
    ∀ dep ∈ task.dependencyIds, ∃ other ∈ r.tasks, other.id = dep ∧ other.status = .completed)
    |>.insertionSort fun a b => r.listed a ≤ r.listed b

def eligible (selectionTaskIds : List String) : List (Task σ) :=
  firsts Task.id [] (r.frontier ++ r.tasks.filter fun task =>
    (task.status = .active ∨ task.id ∈ selectionTaskIds ∧ task.status = .verifying) ∧
      task.paused = false)

def ranked (task : Task σ) : Nat × σ := (r.scores task.id).getD (2, task.priority)

def key (task : Task σ) : Lex (Nat × Lex (σᵒᵈ × Int)) :=
  toLex ((r.ranked task).1, toLex (OrderDual.toDual (r.ranked task).2, r.ordinal task.id))

/-- `_pressure_keep`, which `allocate` has inline. -/
def pressureKeep : Nat → List (Task σ) → List (Task σ)
  | _, [] => []
  | explored, task :: rest =>
    if (r.ranked task).1 ≤ 1 then task :: pressureKeep explored rest
    else if task.id ∉ r.attempts.map Attempt.taskId ∧ explored < max 0 r.explorationSlots then
      task :: pressureKeep (explored + 1) rest
    else pressureKeep explored rest

/-- The loop over the candidates of one task, which still may get so many. -/
def grantTask (task : Task σ) : Nat → Nat → Nat → List (Task σ × Nat) × Nat
  | 0, _, total => ([], total)
  | room + 1, here, total =>
    if r.limit.any (· ≤ (total : Int)) then ([], total)
    else
      let later := grantTask task room (here + 1) (total + 1)
      ((task, here + 1) :: later.1, later.2)

def grantEach : List (Task σ) → Nat → List (Task σ × Nat) × Nat
  | [], total => ([], total)
  | task :: rest, total =>
    let here := r.openByTask task.id
    let first := r.grantTask task (r.allowance - here) here total
    let later := grantEach rest first.2
    (first.1 ++ later.1, later.2)

def plan (tasks : List (Task σ)) : Plan σ (Task σ) :=
  let ordered := tasks.insertionSort fun a b => r.key a ≤ r.key b
  let ordered := if r.raised then r.pressureKeep 0 ordered else ordered
  let granted := r.grantEach ordered r.openAttempts.length
  ⟨granted.1, granted.2, ordered⟩

def allocate (selectionTaskIds : List String) : Plan σ (Task σ) :=
  r.plan (r.eligible selectionTaskIds)

variable (bindings : Dict String TaskForm) (readiness : Dict String Admission)

/-- Each task in `evaluate_frontier_v2`: without a binding the graph is corrupt, and the form is
asked before anything else. -/
def verdict (task : Task σ) : Except ReadinessReason Admission :=
  match get? bindings task.id with
  | none => .error .graphIntegrity
  | some .compound => .error .needsRefinement
  | some .primitive =>
    match get? readiness task.id with
    | none => .error .notSelected
    | some record =>
      if record.gatePassed = false then .error .graphIntegrity
      else if record.taskId ≠ task.id then .error .graphIntegrity
      else if task.paused then .error .notSelected
      else if task.status.terminal then .error .notSelected
      else .ok record

/-- The admitted half of `evaluate_frontier_v2`, each record with its task. -/
def frontierV2 : List (Task σ × Admission) :=
  (r.tasks.filterMap fun task => (verdict bindings readiness task).toOption.map (task, ·))
    |>.insertionSort fun a b => r.listed a.1 ≤ r.listed b.1

def allocateV2 : Plan σ Admission :=
  let admitted := r.frontierV2 bindings readiness
  let plan := r.plan (admitted.map (·.1))
  let byTask := admitted.map fun entry => (entry.1.id, entry.2)
  { plan with grants := plan.grants.filterMap fun grant =>
      (get? byTask grant.1.id).map (·, grant.2) }

/-! ## Grants -/

def Full (total : Nat) : Prop := ∃ limit ∈ r.limit, limit ≤ (total : Int)

/-- What an allocation among these tasks promises, by the ids it grants. -/
structure Bounded (tasks eligible : List (Task σ)) (ids : List String) (total : Nat) : Prop where
  competing : eligible ⊆ tasks ∧ (r.raised = false → tasks ⊆ eligible)
  granted : ∀ id ∈ ids, ∃ task ∈ eligible, task.id = id
  counted : total = r.openAttempts.length + ids.length
  bounded : ∀ limit ∈ r.limit, (total : Int) ≤ max limit r.openAttempts.length
  allowed : ∀ id, r.openByTask id + ids.count id ≤ max (r.openByTask id) r.allowance
  conserving : ∀ task ∈ eligible, r.openByTask task.id + ids.count task.id < r.allowance →
    r.Full total ∧ ∀ other ∈ eligible, other.id ∈ ids → r.key other ≤ r.key task

variable {r} {tasks tasks' : List (Task σ)}

omit [LinearOrder σ] in
theorem grantTask_grants (task : Task σ) (room here total : Nat) :
    (r.grantTask task room here total).2 =
        total + (r.grantTask task room here total).1.length ∧
      (∀ grant ∈ (r.grantTask task room here total).1, grant.1 = task) ∧
      (r.grantTask task room here total).1.length ≤ room ∧
      ((r.grantTask task room here total).1.length < room →
        r.Full (r.grantTask task room here total).2) ∧
      ∀ limit ∈ r.limit, ((r.grantTask task room here total).2 : Int) ≤ max limit total := by
  induction room generalizing here total with
  | zero => simp [grantTask]
  | succ room ih =>
    simp only [grantTask]
    split
    · rename_i full
      obtain ⟨limit, there, reached⟩ := (Option.any_eq_true _ _).mp full
      refine ⟨rfl, by simp, Nat.zero_le _, ?_, ?_⟩
      · exact fun _ => ⟨limit, there, of_decide_eq_true reached⟩
      · exact fun _ _ => le_max_right _ _
    · rename_i free
      obtain ⟨counted, own, within, full, bounded⟩ := ih (here + 1) (total + 1)
      refine ⟨?_, ?_, ?_, ?_, ?_⟩
      · rw [List.length_cons]
        omega
      · intro grant inside
        rcases List.mem_cons.mp inside with rfl | later
        · rfl
        · exact own grant later
      · rw [List.length_cons]
        omega
      · intro short
        rw [List.length_cons] at short
        exact full (by omega)
      · intro limit there
        have below : ¬ limit ≤ (total : Int) := by
          intro reached
          simp [Option.mem_def.mp there, reached] at free
        have under := bounded limit there
        push_cast at under
        simp only
        omega

/-- What `grantEach` does with tasks in order. -/
structure Grants (r : Request σ) (tasks : List (Task σ)) (total : Nat)
    (x : List (Task σ × Nat) × Nat) : Prop where
  member : ∀ grant ∈ x.1, grant.1 ∈ tasks
  counted : x.2 = total + x.1.length
  bounded : ∀ limit ∈ r.limit, (x.2 : Int) ≤ max limit total
  allowed : ∀ id, (x.1.map (·.1.id)).count id ≤ r.allowance - r.openByTask id
  conserving : ∀ task ∈ tasks,
    r.openByTask task.id + (x.1.map (·.1.id)).count task.id < r.allowance →
      r.Full x.2 ∧ ∀ grant ∈ x.1, r.key grant.1 ≤ r.key task

theorem grantEach_grants (distinct : (tasks.map Task.id).Nodup)
    (sorted : tasks.Pairwise fun a b => r.key a ≤ r.key b) (total : Nat) :
    r.Grants tasks total (r.grantEach tasks total) := by
  induction tasks generalizing total with
  | nil =>
    constructor <;> simp [grantEach]
  | cons task rest ih =>
    rw [List.map_cons, List.nodup_cons] at distinct
    rw [List.pairwise_cons] at sorted
    simp only [grantEach]
    obtain ⟨counted, own, within, full, bounded⟩ := @grantTask_grants _ r task
      (r.allowance - r.openByTask task.id) (r.openByTask task.id) total
    generalize r.grantTask task (r.allowance - r.openByTask task.id) (r.openByTask task.id)
      total = first at *
    have later := ih distinct.2 sorted.2 first.2
    generalize r.grantEach rest first.2 = x at *
    have mine : first.1.map (·.1.id) = List.replicate first.1.length task.id := by
      rw [List.eq_replicate_iff, List.length_map]
      refine ⟨rfl, ?_⟩
      intro id inside
      obtain ⟨grant, there, rfl⟩ := List.mem_map.mp inside
      rw [own grant there]
    have none_later : (x.1.map (·.1.id)).count task.id = 0 := by
      rw [List.count_eq_zero]
      intro again
      obtain ⟨grant, there, same⟩ := List.mem_map.mp again
      exact distinct.1 (same ▸ List.mem_map_of_mem (later.member grant there))
    have counts : ∀ id, ((first.1 ++ x.1).map (·.1.id)).count id =
        (if task.id = id then first.1.length else 0) + (x.1.map (·.1.id)).count id := by
      intro id
      rw [List.map_append, List.count_append, mine, List.count_replicate]
      simp
    constructor
    · intro grant inside
      rcases List.mem_append.mp inside with now | after
      · exact own grant now ▸ List.mem_cons_self
      · exact List.mem_cons_of_mem _ (later.member grant after)
    · have counted' := later.counted
      simp only [List.length_append]
      omega
    · intro limit there
      have under := bounded limit there
      have under' := later.bounded limit there
      simp only
      omega
    · intro id
      have allowed := later.allowed id
      simp only [counts]
      split
      · rename_i same
        subst same
        omega
      · omega
    · intro other inside short
      simp only [counts] at short
      rcases List.mem_cons.mp inside with rfl | below
      · rw [if_pos rfl, none_later] at short
        obtain ⟨limit, there, reached⟩ := full (by omega)
        have under := later.bounded limit there
        have counted' := later.counted
        have nothing : x.1 = [] := List.length_eq_zero_iff.mp (by omega)
        refine ⟨⟨limit, there, by simp only; omega⟩, ?_⟩
        intro grant inside
        rw [nothing, List.append_nil] at inside
        exact own grant inside ▸ le_refl _
      · have apart : task.id ≠ other.id := by
          intro same
          exact distinct.1 (same ▸ List.mem_map_of_mem below)
        rw [if_neg apart] at short
        obtain ⟨reached, first'⟩ := later.conserving other below (by omega)
        refine ⟨reached, ?_⟩
        intro grant inside
        rcases List.mem_append.mp inside with now | after
        · exact own grant now ▸ sorted.1 other below
        · exact first' grant after

/-! ## Plans -/

omit [LinearOrder σ] in
theorem pressureKeep_sublist (explored : Nat) (tasks : List (Task σ)) :
    (r.pressureKeep explored tasks).Sublist tasks := by
  induction tasks generalizing explored with
  | nil => exact List.Sublist.slnil
  | cons task rest ih =>
    rw [pressureKeep]
    split
    · exact (ih explored).cons_cons task
    · split
      · exact (ih (explored + 1)).cons_cons task
      · exact (ih explored).cons task

theorem plan_bounded (distinct : (tasks.map Task.id).Nodup) :
    r.Bounded tasks (r.plan tasks).eligible ((r.plan tasks).grants.map (·.1.id))
      (r.plan tasks).openAttempts := by
  have perm := List.perm_insertionSort (fun a b => r.key a ≤ r.key b) tasks
  have sorted := List.pairwise_insertionSort (fun a b => r.key a ≤ r.key b) tasks
  have kept : (r.plan tasks).eligible.Sublist
      (tasks.insertionSort fun a b => r.key a ≤ r.key b) := by
    rw [plan]
    dsimp only
    split
    · exact pressureKeep_sublist _ _
    · exact List.Sublist.refl _
  have grants : r.Grants (r.plan tasks).eligible r.openAttempts.length
      ((r.plan tasks).grants, (r.plan tasks).openAttempts) :=
    grantEach_grants (((perm.map Task.id).nodup_iff.mpr distinct).sublist (kept.map _))
      (sorted.sublist kept) _
  constructor
  · refine ⟨fun task inside => perm.subset (kept.subset inside), ?_⟩
    intro calm task inside
    rw [plan, calm]
    exact perm.mem_iff.mpr inside
  · intro id inside
    obtain ⟨grant, there, rfl⟩ := List.mem_map.mp inside
    exact ⟨grant.1, grants.member grant there, rfl⟩
  · rw [List.length_map]
    exact grants.counted
  · exact grants.bounded
  · intro id
    have allowed := grants.allowed id
    simp only at allowed
    omega
  · intro task inside short
    obtain ⟨full, first⟩ := grants.conserving task inside short
    refine ⟨full, ?_⟩
    intro other inside' granted
    obtain ⟨grant, there, same⟩ := List.mem_map.mp granted
    have unique : grant.1 = other := List.inj_on_of_nodup_map
      (((perm.map Task.id).nodup_iff.mpr distinct).sublist (kept.map _))
      (grants.member grant there) inside' same
    exact unique ▸ first grant there

theorem plan_perm (perm : tasks.Perm tasks') (untied : ∀ a ∈ tasks, ∀ b ∈ tasks,
    r.key a = r.key b → a = b) : r.plan tasks = r.plan tasks' := by
  rw [plan, plan, PyText.sort_of_perm perm untied]

theorem eligible_distinct (selectionTaskIds : List String) :
    ((r.eligible selectionTaskIds).map Task.id).Nodup :=
  (firsts_fresh _ _ _).1

variable {bindings : Dict String TaskForm} {readiness : Dict String Admission}

omit [LinearOrder σ] in
theorem verdict_eq_ok {task : Task σ} {record : Admission}
    (ok : verdict bindings readiness task = .ok record) :
    get? bindings task.id = some .primitive ∧ get? readiness task.id = some record ∧
      record.gatePassed = true ∧ record.taskId = task.id := by
  unfold verdict at ok
  split at ok
  · cases ok
  · cases ok
  · rename_i primitive
    split at ok
    · cases ok
    · rename_i found
      repeat' split at ok
      all_goals cases ok
      simp_all

theorem mem_frontierV2 {entry : Task σ × Admission}
    (inside : entry ∈ r.frontierV2 bindings readiness) :
    verdict bindings readiness entry.1 = .ok entry.2 := by
  rw [frontierV2, List.mem_insertionSort, List.mem_filterMap] at inside
  obtain ⟨task, _, made⟩ := inside
  obtain ⟨record, ok, rfl⟩ := Option.map_eq_some_iff.mp made
  cases result : verdict bindings readiness task with
  | error reason => simp [result, Except.toOption] at ok
  | ok record' =>
    simp only [result, Except.toOption, Option.some.injEq] at ok
    rw [ok]

theorem frontierV2_distinct :
    (((r.frontierV2 bindings readiness).map (·.1)).map Task.id).Nodup := by
  have narrow : ∀ tasks : List (Task σ), ((tasks.filterMap fun task =>
      (verdict bindings readiness task).toOption.map (task, ·)).map (·.1)).Sublist tasks := by
    intro tasks
    induction tasks with
    | nil => exact List.Sublist.slnil
    | cons task rest ih =>
      rw [List.filterMap_cons]
      split
      · exact ih.cons task
      · rename_i made
        obtain ⟨record, _, rfl⟩ := Option.map_eq_some_iff.mp made
        exact ih.cons_cons task
  rw [frontierV2, (((List.perm_insertionSort _ _).map _).map _).nodup_iff]
  exact r.distinct.sublist ((narrow r.tasks).map _)

theorem record_found {grant : Task σ × Nat}
    (granted : grant ∈ (r.plan ((r.frontierV2 bindings readiness).map (·.1))).grants) :
    ∃ record, get? ((r.frontierV2 bindings readiness).map fun entry => (entry.1.id, entry.2))
        grant.1.id = some record ∧ record.taskId = grant.1.id ∧
      get? bindings grant.1.id = some .primitive ∧ get? readiness grant.1.id = some record ∧
      record.gatePassed = true := by
  have distinct := @frontierV2_distinct _ _ r bindings readiness
  have bounded := @plan_bounded _ _ r _ distinct
  obtain ⟨task, inside, same⟩ := bounded.granted _ (List.mem_map_of_mem granted)
  obtain ⟨entry, there, rfl⟩ := List.mem_map.mp (bounded.competing.1 inside)
  obtain ⟨primitive, found, passed, named⟩ := verdict_eq_ok (mem_frontierV2 there)
  rw [← same]
  refine ⟨entry.2, ?_, named, primitive, found, passed⟩
  apply get?_eq_some_of_mem
  · rw [List.map_map] at distinct
    rwa [keys, List.map_map]
  · exact List.mem_map_of_mem (f := fun entry => (entry.1.id, entry.2)) there

theorem allocateV2_grants :
    (r.allocateV2 bindings readiness).grants.map (fun grant => (grant.1.taskId, grant.2)) =
      (r.plan ((r.frontierV2 bindings readiness).map (·.1))).grants.map
        (fun grant => (grant.1.id, grant.2)) := by
  rw [allocateV2]
  dsimp only
  have found := fun grant inside => @record_found _ _ r bindings readiness grant inside
  generalize (r.plan ((r.frontierV2 bindings readiness).map (·.1))).grants = grants at *
  induction grants with
  | nil => rfl
  | cons grant rest ih =>
    obtain ⟨record, there, named, _⟩ := found grant List.mem_cons_self
    rw [List.filterMap_cons, there, Option.map_some]
    simp only [List.map_cons, named]
    rw [ih fun other inside => found other (List.mem_cons_of_mem _ inside)]

/-- Both entries share the free slots out by the key of a task (its tier, then the higher score,
then the lower ordinal); the new one grants admitted primitives only, and the same where the same
tasks compete and no two of them tie. -/
theorem allocations_bounded (r : Request σ) (selectionTaskIds : List String)
    (bindings : Dict String TaskForm) (readiness : Dict String Admission) :
    r.Bounded (r.eligible selectionTaskIds) (r.allocate selectionTaskIds).eligible
        ((r.allocate selectionTaskIds).grants.map (·.1.id))
        (r.allocate selectionTaskIds).openAttempts ∧
      r.Bounded ((r.frontierV2 bindings readiness).map (·.1))
        (r.allocateV2 bindings readiness).eligible
        ((r.allocateV2 bindings readiness).grants.map (·.1.taskId))
        (r.allocateV2 bindings readiness).openAttempts ∧
      (∀ grant ∈ (r.allocateV2 bindings readiness).grants,
        get? bindings grant.1.taskId = some .primitive ∧
          get? readiness grant.1.taskId = some grant.1 ∧ grant.1.gatePassed = true) ∧
      ((∀ task, task ∈ (r.frontierV2 bindings readiness).map (·.1) ↔
          task ∈ r.eligible selectionTaskIds) →
        (∀ a ∈ r.eligible selectionTaskIds, ∀ b ∈ r.eligible selectionTaskIds,
          r.key a = r.key b → a = b) →
        (r.allocateV2 bindings readiness).grants.map (fun grant => (grant.1.taskId, grant.2)) =
          (r.allocate selectionTaskIds).grants.map fun grant => (grant.1.id, grant.2)) := by
  have distinct := @frontierV2_distinct _ _ r bindings readiness
  refine ⟨plan_bounded (eligible_distinct _), ?_, ?_, ?_⟩
  · have ids : (r.allocateV2 bindings readiness).grants.map (·.1.taskId) =
        (r.plan ((r.frontierV2 bindings readiness).map (·.1))).grants.map (·.1.id) := by
      have same := congrArg (List.map Prod.fst) (@allocateV2_grants _ _ r bindings readiness)
      rwa [List.map_map, List.map_map] at same
    rw [ids]
    exact plan_bounded distinct
  · intro grant inside
    rw [allocateV2, List.mem_filterMap] at inside
    obtain ⟨shared, granted, made⟩ := inside
    obtain ⟨record, there, named, primitive, found, passed⟩ := record_found granted
    rw [there] at made
    cases made
    rw [named]
    exact ⟨primitive, found, passed⟩
  · intro same untied
    have perm : (r.eligible selectionTaskIds).Perm
        ((r.frontierV2 bindings readiness).map (·.1)) := by
      rw [List.perm_ext_iff_of_nodup (eligible_distinct _).of_map distinct.of_map]
      exact fun task => (same task).symm
    rw [allocateV2_grants, allocate, plan_perm perm untied]

/-! ## Passes -/

/-- The next pass: the attempts that were granted stand beside the others, scored anew. -/
def after (r : Request σ) (made : List Attempt) (scores : String → Option (Nat × σ)) : Request σ :=
  { r with attempts := r.attempts ++ made, scores }

omit [LinearOrder σ] in
theorem grantEach_filled {total : Nat}
    (filled : ∀ task ∈ tasks, r.allowance ≤ r.openByTask task.id ∨ r.Full total) :
    r.grantEach tasks total = ([], total) := by
  induction tasks with
  | nil => rfl
  | cons task rest ih =>
    have nothing : r.grantTask task (r.allowance - r.openByTask task.id) (r.openByTask task.id)
        total = ([], total) := by
      rcases filled task List.mem_cons_self with done | ⟨limit, there, reached⟩
      · rw [Nat.sub_eq_zero_of_le done, grantTask]
      · cases r.allowance - r.openByTask task.id with
        | zero => rfl
        | succ room => simp [grantTask, Option.mem_def.mp there, reached]
    rw [grantEach, nothing, ih fun other below => filled other (List.mem_cons_of_mem _ below)]
    rfl

section
variable (calm : r.raised = false) {made : List Attempt} {scores : String → Option (Nat × σ)}
  (opened : ∀ attempt ∈ made,
    attempt.status ∈ openAttemptStates ∧ attempt.id ∉ r.waitingAttemptIds)
include calm opened

theorem plan_settled (distinct : (tasks.map Task.id).Nodup)
    (granted : made.map Attempt.taskId = (r.plan tasks).grants.map (·.1.id)) :
    ((r.after made scores).plan tasks).grants = [] := by
  have bounded := plan_bounded (r := r) distinct
  rw [← granted] at bounded
  have stands : (r.after made scores).openAttempts = r.openAttempts ++ made := by
    rw [openAttempts, after, List.filter_append, List.filter_eq_self (l := made) |>.mpr]
    · rfl
    · simpa using opened
  rw [plan, grantEach_filled]
  intro task inside
  rw [if_neg (by simp [after, calm]), List.mem_insertionSort] at inside
  by_contra open'
  rw [not_or, openByTask, stands, List.map_append, List.count_append] at open'
  obtain ⟨full, _⟩ := bounded.conserving task (bounded.competing.2 calm inside)
    (not_le.mp open'.1)
  rw [bounded.counted, List.length_map, ← List.length_append, ← stands] at full
  rw [← stands] at open'
  exact open'.2 full

/-- A pass leaves nothing to grant to the next one: once the granted attempts stand open, the same
tasks get no other, however they are scored then. -/
theorem passes_settle (selectionTaskIds : List String) (bindings : Dict String TaskForm)
    (readiness : Dict String Admission) :
    (made.map Attempt.taskId = (r.allocate selectionTaskIds).grants.map (·.1.id) →
        ((r.after made scores).allocate selectionTaskIds).grants = []) ∧
      (made.map Attempt.taskId = (r.allocateV2 bindings readiness).grants.map (·.1.taskId) →
        ((r.after made scores).allocateV2 bindings readiness).grants = []) := by
  refine ⟨plan_settled calm opened (eligible_distinct _), ?_⟩
  intro granted
  have same := congrArg (List.map Prod.fst) (@allocateV2_grants _ _ r bindings readiness)
  rw [List.map_map, List.map_map] at same
  have nothing := @plan_settled _ _ r _ calm made scores opened frontierV2_distinct
    (granted.trans same)
  exact congrArg (List.filterMap _) nothing

end

section

/-- Two tasks that nothing but the priority tells apart, and one slot for each task. -/
def trial (attempts : List Attempt) (limit : Option Int) (raised : Bool) : Request Int where
  tasks := [⟨"a-1", .ready, false, 1, []⟩, ⟨"b-1", .active, false, 2, []⟩]
  distinct := by decide
  attempts
  concurrencyLimit := limit
  candidatesPerTask := 1
  raised
  reduced := (· / 2)
  explorationSlots := 1
  waitingAttemptIds := []
  scores _ := some (2, 0)
  ordinal _ := 1

/-- A task keeps the attempts that it has beyond its candidates, raised pressure gives a slot
where the limit has none, and of two tied tasks each entry grants another one. -/
theorem allocations_differ :
    (trial [⟨"x", "a-1", .running⟩, ⟨"y", "a-1", .running⟩] none false).openByTask "a-1" = 2 ∧
      ((trial [] (some 0) true).allocate []).openAttempts = 1 ∧
      ((trial [] (some 1) false).allocate []).grants.map (·.1.id) = ["a-1"] ∧
      ((trial [] (some 1) false).allocateV2 [("a-1", .primitive), ("b-1", .primitive)]
        [("a-1", ⟨"a-1", true⟩), ("b-1", ⟨"b-1", true⟩)]).grants.map (·.1.taskId) = ["b-1"] := by
  decide +kernel

/-- Both tasks have room and get an attempt; unscored, neither gets another one. -/
theorem passes_settle_at_trial :
    let bindings : Dict String TaskForm := [("a-1", .primitive), ("b-1", .primitive)]
    let readiness : Dict String Admission := [("a-1", ⟨"a-1", true⟩), ("b-1", ⟨"b-1", true⟩)]
    let next := (trial [] none false).after [⟨"x", "b-1", .pending⟩, ⟨"y", "a-1", .pending⟩]
      fun _ => none
    (((trial [] none false).allocateV2 bindings readiness).grants.map (·.1.taskId) =
        ["b-1", "a-1"] ∧ (next.allocateV2 bindings readiness).grants = []) ∧
      ((trial [⟨"x", "a-1", .pending⟩] (some 1) false).allocate []).grants = [] := by
  intro bindings readiness next
  have first : ((trial [] none false).allocateV2 bindings readiness).grants.map (·.1.taskId) =
      ["b-1", "a-1"] := by
    decide +kernel
  exact ⟨⟨first, (@passes_settle _ _ (trial [] none false) rfl
      [⟨"x", "b-1", .pending⟩, ⟨"y", "a-1", .pending⟩] (fun _ => none)
      (by simp [openAttemptStates, trial]) [] bindings readiness).2 first.symm⟩,
    (@passes_settle _ _ (trial [] (some 1) false) rfl [⟨"x", "a-1", .pending⟩]
      (fun _ => some (2, 0)) (by simp [openAttemptStates, trial]) [] [] []).1 (by decide +kernel)⟩

end

end Request
end Allocator
