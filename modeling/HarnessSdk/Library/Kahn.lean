import HarnessSdk.Library.Dict
import HarnessSdk.Library.Digraph

/-! Kahn's algorithm over any rule for choosing among the ready nodes: when every node is placed the
graph is acyclic. -/
namespace Kahn
open PyDict
variable {α : Type} [DecidableEq α]

def degree (d : Dict α Nat) (a : α) : Nat := (get? d a).getD 0

def raise (d : Dict α Nat) (target : α) : Dict α Nat := set d target (degree d target + 1)

/-- One edge less into the target; it becomes ready with its last edge. -/
def lower (state : Dict α Nat × List α) (target : α) : Dict α Nat × List α :=
  let left := degree state.1 target - 1
  (set state.1 target left, if left = 0 then state.2 ++ [target] else state.2)

def indegrees (succ : α → List α) (nodes : List α) : Dict α Nat :=
  (nodes.flatMap succ).foldl raise (ofEntries (nodes.map fun a => (a, 0)))

def run (succ : α → List α) (pick : List α → Option (α × List α)) :
    Nat → Dict α Nat → List α → List α → List α
  | 0, _, _, placed => placed
  | fuel + 1, d, ready, placed =>
    match pick ready with
    | none => placed
    | some (a, rest) =>
      let state := (succ a).foldl lower (d, rest)
      run succ pick fuel state.1 state.2 (placed ++ [a])

def order (succ : α → List α) (pick : List α → Option (α × List α)) (nodes : List α) : List α :=
  let d := indegrees succ nodes
  run succ pick nodes.length d (nodes.filter fun a => degree d a = 0) []

/-- The edges into `b` from nodes that are not placed yet. -/
def pending (succ : α → List α) (nodes placed : List α) (b : α) : Nat :=
  ((nodes.filter (· ∉ placed)).map fun a => (succ a).count b).sum

theorem degree_set (d : Dict α Nat) (a b : α) (n : Nat) :
    degree (set d a n) b = if a = b then n else degree d b := by
  unfold degree
  rw [get?_set]
  split <;> rfl

variable {placed : List α} {pick : List α → Option (α × List α)} (targets : List α)

theorem degree_raise_all (d : Dict α Nat) (b : α) :
    degree (targets.foldl raise d) b = degree d b + targets.count b := by
  induction targets generalizing d with
  | nil => simp
  | cons target rest ih =>
    rw [List.foldl_cons, ih, raise, degree_set, List.count_cons]
    by_cases same : target = b
    · simp [same]
      omega
    · simp [same]

theorem degree_zeros (nodes : List α) (b : α) :
    degree (ofEntries (nodes.map fun a => (a, 0))) b = 0 := by
  unfold degree
  cases found : get? (ofEntries (nodes.map fun a => (a, 0))) b with
  | none => rfl
  | some n =>
    rcases get?_update_cases found with entry | empty
    · simp only [List.mem_map, Prod.mk.injEq] at entry
      obtain ⟨_, _, _, rfl⟩ := entry
      rfl
    · simp at empty

theorem degree_indegrees (succ : α → List α) (nodes : List α) (b : α) :
    degree (indegrees succ nodes) b = pending succ nodes [] b := by
  rw [indegrees, degree_raise_all, degree_zeros, Nat.zero_add, pending]
  simp [List.count_flatMap, Function.comp_def]

/-- Lowering along a list of edges: each target loses its edges, and those that lose the last one
become ready, once each. -/
theorem lower_all (d : Dict α Nat) (ready : List α) (enough : ∀ b, targets.count b ≤ degree d b) :
    (∀ b, degree (targets.foldl lower (d, ready)).1 b = degree d b - targets.count b) ∧
    ∃ fresh, (targets.foldl lower (d, ready)).2 = ready ++ fresh ∧ fresh.Nodup ∧
      ∀ b ∈ fresh, b ∈ targets ∧ degree d b = targets.count b := by
  induction targets generalizing d ready with
  | nil => simp
  | cons target rest ih =>
    have here := enough target
    rw [List.count_cons_self] at here
    have after : ∀ b, degree (set d target (degree d target - 1)) b =
        degree d b - if target = b then 1 else 0 := by
      intro b
      rw [degree_set]
      split
      · subst b
        rfl
      · rfl
    have count : ∀ b, (target :: rest).count b = rest.count b + if target = b then 1 else 0 := by
      intro b
      rw [List.count_cons]
      simp
    obtain ⟨degrees, fresh, grown, nodup, reached⟩ :=
      ih (set d target (degree d target - 1))
        (if degree d target - 1 = 0 then ready ++ [target] else ready) (by
          intro b
          have := enough b
          rw [count] at this
          rw [after]
          omega)
    rw [List.foldl_cons, lower]
    constructor
    · intro b
      rw [degrees, after, count]
      omega
    · by_cases last : degree d target - 1 = 0
      · refine ⟨target :: fresh, by simpa [last] using grown, ?_, ?_⟩
        · rw [List.nodup_cons]
          refine ⟨fun again => ?_, nodup⟩
          have left := reached target again
          rw [after, if_pos rfl, last] at left
          exact List.count_eq_zero.mp left.2.symm left.1
        · intro b hb
          rcases List.mem_cons.mp hb with rfl | later
          · constructor
            · exact List.mem_cons_self
            · rw [List.count_cons_self]
              omega
          · have left := reached b later
            have positive := enough b
            rw [after] at left
            rw [count] at positive ⊢
            exact ⟨List.mem_cons_of_mem _ left.1, by omega⟩
      · refine ⟨fresh, by simpa [last] using grown, nodup, ?_⟩
        intro b hb
        have left := reached b hb
        have positive := enough b
        rw [after] at left
        rw [count] at positive ⊢
        exact ⟨List.mem_cons_of_mem _ left.1, by omega⟩

variable {nodes rest : List α} {a : α}

theorem pending_snoc (succ : α → List α) (distinct : nodes.Nodup) (known : a ∈ nodes)
    (waiting : a ∉ placed) (b : α) :
    pending succ nodes placed b = (succ a).count b + pending succ nodes (placed ++ [a]) b := by
  have split : (nodes.filter (· ∉ placed)).Perm (a :: nodes.filter (· ∉ placed ++ [a])) := by
    rw [List.perm_ext_iff_of_nodup (distinct.filter _)
      (List.nodup_cons.mpr ⟨by simp, distinct.filter _⟩)]
    intro c
    by_cases same : c = a
    · subst c
      simp [known, waiting]
    · simp [same]
  unfold pending
  rw [(split.map _).sum_eq, List.map_cons, List.sum_cons]

variable {succ : α → List α}

theorem pending_eq_zero {b : α} (none : pending succ nodes placed b = 0) (known : a ∈ nodes)
    (edge : b ∈ succ a) : a ∈ placed := by
  by_contra waiting
  have member : (succ a).count b ∈ (nodes.filter (· ∉ placed)).map fun c => (succ c).count b :=
    List.mem_map_of_mem (by simp [known, waiting])
  have none' := List.sum_eq_zero_iff_forall_eq_nat.mp none _ member
  exact List.count_eq_zero.mp none' edge

theorem exists_pending {b : α} (some : pending succ nodes placed b ≠ 0) :
    ∃ a ∈ nodes, a ∉ placed ∧ b ∈ succ a := by
  by_contra none
  push Not at none
  apply some
  apply List.sum_eq_zero
  intro n counted
  obtain ⟨a, waiting, rfl⟩ := List.mem_map.mp counted
  simp only [List.mem_filter, decide_eq_true_eq] at waiting
  exact List.count_eq_zero.mpr (none a waiting.1 waiting.2)

structure Placing (succ : α → List α) (nodes : List α) (d : Dict α Nat) (ready placed : List α) :
    Prop where
  nodup : (placed ++ ready).Nodup
  inside : ∀ a ∈ placed ++ ready, a ∈ nodes
  degrees : ∀ b, degree d b = pending succ nodes placed b
  free : ∀ a ∈ placed ++ ready, degree d a = 0
  ordered : ∀ a ∈ nodes, ∀ b ∈ succ a, b ∈ placed → placed.idxOf a < placed.idxOf b

variable {d : Dict α Nat} {ready : List α}

section
variable (distinct : nodes.Nodup)
include distinct

theorem Placing.shrinks (placing : Placing succ nodes d ready placed)
    (picked : ready.Perm (a :: rest)) (b : α) :
    degree d b = (succ a).count b + pending succ nodes (placed ++ [a]) b := by
  have ready' : a ∈ ready := picked.symm.subset List.mem_cons_self
  rw [placing.degrees]
  exact pending_snoc succ distinct (placing.inside a (List.mem_append_right _ ready'))
    (fun before => List.disjoint_of_nodup_append placing.nodup before ready') b

theorem Placing.step (closed : ∀ a ∈ nodes, ∀ b ∈ succ a, b ∈ nodes)
    (placing : Placing succ nodes d ready placed) (picked : ready.Perm (a :: rest)) :
    Placing succ nodes ((succ a).foldl lower (d, rest)).1 ((succ a).foldl lower (d, rest)).2
      (placed ++ [a]) := by
  have ready' : a ∈ ready := picked.symm.subset List.mem_cons_self
  have known := placing.inside a (List.mem_append_right _ ready')
  have shrink := placing.shrinks distinct picked
  obtain ⟨degrees, fresh, grown, fresh_nodup, reached⟩ := lower_all (succ a) d rest (by
    intro b
    rw [shrink]
    omega)
  have same : (placed ++ [a] ++ rest).Perm (placed ++ ready) := by
    rw [List.append_assoc, List.singleton_append]
    exact picked.symm.append_left placed
  rw [grown]
  constructor
  · rw [← List.append_assoc, List.nodup_append]
    refine ⟨same.nodup_iff.mpr placing.nodup, fresh_nodup, ?_⟩
    intro c before b later same'
    subst same'
    have zero := placing.free c (same.subset before)
    have edge := reached c later
    exact List.count_eq_zero.mp (edge.2.symm.trans zero) edge.1
  · intro c hc
    rw [← List.append_assoc, List.mem_append] at hc
    rcases hc with before | later
    · exact placing.inside c (same.subset before)
    · exact closed a known c (reached c later).1
  · intro b
    rw [degrees, shrink]
    omega
  · intro c hc
    rw [← List.append_assoc, List.mem_append] at hc
    rw [degrees]
    rcases hc with before | later
    · rw [placing.free c (same.subset before), Nat.zero_sub]
    · rw [(reached c later).2, Nat.sub_self]
  · intro c hc b edge hb
    by_cases old : b ∈ placed
    · have before := placing.ordered c hc b edge old
      have inside : c ∈ placed := List.idxOf_lt_length_iff.mp
        (Nat.lt_trans before (List.idxOf_lt_length_iff.mpr old))
      rw [List.idxOf_append_of_mem inside, List.idxOf_append_of_mem old]
      exact before
    · have last : b = a := by simpa [old] using hb
      subst last
      have none := placing.free b (List.mem_append_right _ ready')
      rw [placing.degrees] at none
      have inside := pending_eq_zero none hc edge
      rw [List.idxOf_append_of_mem inside, List.idxOf_append_of_notMem old]
      have := List.idxOf_lt_length_iff.mpr inside
      omega

theorem Placing.run (closed : ∀ a ∈ nodes, ∀ b ∈ succ a, b ∈ nodes)
    (picks : ∀ ready a rest, pick ready = some (a, rest) → ready.Perm (a :: rest)) (fuel : Nat)
    (placing : Placing succ nodes d ready placed) :
    ∃ d' ready', Placing succ nodes d' ready' (Kahn.run succ pick fuel d ready placed) := by
  induction fuel generalizing d ready placed with
  | zero => exact ⟨d, ready, placing⟩
  | succ fuel ih =>
    rw [Kahn.run]
    cases chosen : pick ready with
    | none => exact ⟨d, ready, placing⟩
    | some pair => exact ih (placing.step distinct closed (picks ready _ _ chosen))

theorem Placing.start :
    Placing succ nodes (indegrees succ nodes)
      (nodes.filter fun a => degree (indegrees succ nodes) a = 0) [] := by
  constructor
  · exact distinct.filter _
  · intro a ha
    exact List.mem_of_mem_filter ha
  · exact degree_indegrees succ nodes
  · intro a ha
    simpa using List.of_mem_filter ha
  · simp

theorem acyclic_of_placed (closed : ∀ a ∈ nodes, ∀ b ∈ succ a, b ∈ nodes)
    (picks : ∀ ready a rest, pick ready = some (a, rest) → ready.Perm (a :: rest))
    (all : nodes ⊆ order succ pick nodes) : Digraph.Acyclic fun a b => a ∈ nodes ∧ b ∈ succ a := by
  obtain ⟨_, _, placing⟩ := (Placing.start distinct).run distinct closed picks nodes.length
  apply Digraph.Acyclic.of_rank (order succ pick nodes).idxOf
  rintro a b ⟨known, edge⟩
  exact placing.ordered a known b edge (all (closed a known b edge))

theorem subset_order_of_length
    (closed : ∀ a ∈ nodes, ∀ b ∈ succ a, b ∈ nodes)
    (picks : ∀ ready a rest, pick ready = some (a, rest) → ready.Perm (a :: rest))
    (all : (order succ pick nodes).length = nodes.length) : nodes ⊆ order succ pick nodes := by
  obtain ⟨_, _, placing⟩ := (Placing.start distinct).run distinct closed picks nodes.length
  have nodup : (order succ pick nodes).Nodup := (List.nodup_append.mp placing.nodup).1
  have inside : order succ pick nodes ⊆ nodes := fun a ha =>
    placing.inside a (List.mem_append_left _ ha)
  exact ((List.subperm_of_subset nodup inside).perm_of_length_le all.ge).symm.subset

end

theorem lower_ready (state : Dict α Nat × List α) {b : α} (ready : b ∈ state.2) :
    b ∈ (targets.foldl lower state).2 := by
  induction targets generalizing state with
  | nil => exact ready
  | cons target rest ih =>
    apply ih
    simp only [lower]
    split
    · exact List.mem_append_left _ ready
    · exact ready

theorem lower_last (d : Dict α Nat) (ready : List α) {b : α} (hit : b ∈ targets)
    (last : degree d b = targets.count b) : b ∈ (targets.foldl lower (d, ready)).2 := by
  induction targets generalizing d ready with
  | nil => cases hit
  | cons target rest ih =>
    rw [List.foldl_cons]
    by_cases same : target = b
    · subst same
      rw [List.count_cons_self] at last
      by_cases again : target ∈ rest
      · apply ih _ _ again
        simp only [degree_set, if_true]
        omega
      · apply lower_ready
        have none : rest.count target = 0 := List.count_eq_zero.mpr again
        have zero : degree d target - 1 = 0 := by omega
        simp [lower, zero]
    · rw [List.count_cons_of_ne same] at last
      apply ih _ _ (List.mem_of_ne_of_mem (Ne.symm same) hit)
      simpa only [degree_set, if_neg same] using last

/-- No node without pending edges is forgotten. -/
def Full (nodes : List α) (d : Dict α Nat) (ready placed : List α) : Prop :=
  ∀ b ∈ nodes, degree d b = 0 → b ∈ placed ++ ready

theorem Placing.full_step (distinct : nodes.Nodup) (placing : Placing succ nodes d ready placed)
    (full : Full nodes d ready placed) (picked : ready.Perm (a :: rest)) :
    Full nodes ((succ a).foldl lower (d, rest)).1 ((succ a).foldl lower (d, rest)).2
      (placed ++ [a]) := by
  have enough : ∀ b, (succ a).count b ≤ degree d b := by
    intro b
    rw [placing.shrinks distinct picked]
    omega
  intro b inside zero
  rw [(lower_all (succ a) d rest enough).1] at zero
  have last : degree d b = (succ a).count b := by
    have := enough b
    omega
  by_cases free : degree d b = 0
  · rw [List.append_assoc, List.mem_append]
    rcases List.mem_append.mp (full b inside free) with before | now
    · exact Or.inl before
    · right
      rcases List.mem_cons.mp (picked.subset now) with rfl | later
      · exact List.mem_append_left _ List.mem_cons_self
      · exact List.mem_append_right _ (lower_ready _ _ later)
  · apply List.mem_append_right
    apply lower_last _ _ _ _ last
    rw [← List.count_pos_iff]
    omega

theorem Placing.run_ends (distinct : nodes.Nodup) (closed : ∀ a ∈ nodes, ∀ b ∈ succ a, b ∈ nodes)
    (picks : ∀ ready a rest, pick ready = some (a, rest) → ready.Perm (a :: rest))
    (stops : ∀ ready, pick ready = none → ready = []) (fuel : Nat)
    (placing : Placing succ nodes d ready placed) (full : Full nodes d ready placed) :
    (Kahn.run succ pick fuel d ready placed).length = placed.length + fuel ∨
    ∃ d', Placing succ nodes d' [] (Kahn.run succ pick fuel d ready placed) ∧
      Full nodes d' [] (Kahn.run succ pick fuel d ready placed) := by
  induction fuel generalizing d ready placed with
  | zero => exact Or.inl rfl
  | succ fuel ih =>
    rw [Kahn.run]
    cases chosen : pick ready with
    | none =>
      have empty := stops ready chosen
      subst empty
      exact Or.inr ⟨d, placing, full⟩
    | some pair =>
      have picked := picks ready _ _ chosen
      rcases ih (placing.step distinct closed picked) (placing.full_step distinct full picked) with
        spent | ended
      · left
        rw [spent, List.length_append, List.length_singleton]
        omega
      · exact Or.inr ended

theorem Placing.complete (distinct : nodes.Nodup) (closed : ∀ a ∈ nodes, ∀ b ∈ succ a, b ∈ nodes)
    (picks : ∀ ready a rest, pick ready = some (a, rest) → ready.Perm (a :: rest))
    (stops : ∀ ready, pick ready = none → ready = []) (rank : α → Nat)
    (ascends : ∀ a ∈ nodes, ∀ b ∈ succ a, rank a < rank b)
    (placing : Placing succ nodes d ready []) (full : Full nodes d ready []) :
    (Kahn.run succ pick nodes.length d ready []).length = nodes.length := by
  rcases placing.run_ends distinct closed picks stops nodes.length full with spent | ended
  · simpa using spent
  · obtain ⟨d', final, fullness⟩ := ended
    have placed : ∀ n, ∀ b ∈ nodes, rank b = n →
        b ∈ Kahn.run succ pick nodes.length d ready [] := by
      intro n
      induction n using Nat.strongRecOn with
      | ind n ih =>
        intro b inside height
        by_contra missing
        have positive : degree d' b ≠ 0 := by
          intro zero
          simpa [missing] using fullness b inside zero
        rw [final.degrees] at positive
        obtain ⟨a, known, waiting, edge⟩ := exists_pending positive
        have lower := ascends a known b edge
        exact waiting (ih (rank a) (by omega) a known rfl)
    have nodup : (Kahn.run succ pick nodes.length d ready []).Nodup := by
      simpa using final.nodup
    apply Nat.le_antisymm
    · exact nodup.length_le_of_subset fun a ha => final.inside a (List.mem_append_left _ ha)
    · exact distinct.length_le_of_subset fun b inside => placed _ b inside rfl

end Kahn
