import HarnessSdk.Library.Kahn

/-! What Kahn's algorithm leaves and in which order it places: the nodes behind a cycle stay, and a
greedy choice gives the least order. A walk that repeats a node closes a cycle. -/
namespace Kahn
open PyDict
variable {α : Type} [DecidableEq α]

structure Ready (succ : α → List α) (nodes placed : List α) (a : α) : Prop where
  known : a ∈ nodes
  waiting : a ∉ placed
  free : ∀ b ∈ nodes, a ∈ succ b → b ∈ placed

/-- At each place stands a ready node, and no ready node comes before it in the preference. -/
def Greedy (prefers : α → α → Prop) (succ : α → List α) (nodes placed : List α) : Prop :=
  ∀ before a after, placed = before ++ a :: after →
    Ready succ nodes before a ∧ ∀ b, Ready succ nodes before b → prefers a b

structure Sorted (prefers : α → α → Prop) (succ : α → List α) (nodes placed : List α) : Prop where
  nodup : placed.Nodup
  inside : placed ⊆ nodes
  greedy : Greedy prefers succ nodes placed
  stuck : ∀ a, ¬ Ready succ nodes placed a

variable {succ : α → List α} {nodes placed : List α} {prefers : α → α → Prop}

theorem Placing.ready_iff {d : Dict α Nat} {ready : List α}
    (placing : Placing succ nodes d ready placed) (full : Full nodes d ready placed) (a : α) :
    a ∈ ready ↔ Ready succ nodes placed a := by
  constructor
  · intro here
    have none := placing.free a (List.mem_append_right _ here)
    rw [placing.degrees] at none
    constructor
    · exact placing.inside a (List.mem_append_right _ here)
    · exact fun before => List.disjoint_of_nodup_append placing.nodup before here
    · exact fun b known edge => pending_eq_zero none known edge
  · intro free
    have zero : degree d a = 0 := by
      rw [placing.degrees]
      by_contra some
      obtain ⟨b, known, waiting, edge⟩ := exists_pending some
      exact waiting (free.free b known edge)
    exact (List.mem_append.mp (full a free.known zero)).resolve_left free.waiting

variable {a : α}

omit [DecidableEq α] in
theorem Greedy.snoc (greedy : Greedy prefers succ nodes placed)
    (ready : Ready succ nodes placed a) (least : ∀ b, Ready succ nodes placed b → prefers a b) :
    Greedy prefers succ nodes (placed ++ [a]) := by
  intro before b after split
  cases after using List.reverseRecOn with
  | nil =>
    obtain ⟨rfl, last⟩ := List.append_inj' split rfl
    cases last
    exact ⟨ready, least⟩
  | append_singleton after c =>
    rw [← List.cons_append, ← List.append_assoc] at split
    obtain ⟨earlier, _⟩ := List.append_inj' split rfl
    exact greedy before b after earlier

section
variable {succ : α → List α} {nodes : List α} (distinct : nodes.Nodup)
  (closed : ∀ a ∈ nodes, ∀ b ∈ succ a, b ∈ nodes) {prefers : α → α → Prop}
  {pick : List α → Option (α × List α)}
  (picks : ∀ ready a rest, pick ready = some (a, rest) → ready.Perm (a :: rest))
  (best : ∀ ready a rest, pick ready = some (a, rest) → ∀ b ∈ ready, prefers a b)
  (stops : ∀ ready, pick ready = none → ready = [])
include distinct closed picks

variable {d : Dict α Nat}

include best in
theorem Placing.run_greedy (fuel : Nat) {ready placed : List α}
    (placing : Placing succ nodes d ready placed) (full : Full nodes d ready placed)
    (greedy : Greedy prefers succ nodes placed) :
    Greedy prefers succ nodes (Kahn.run succ pick fuel d ready placed) := by
  induction fuel generalizing d ready placed with
  | zero => exact greedy
  | succ fuel ih =>
    rw [Kahn.run]
    cases chosen : pick ready with
    | none => exact greedy
    | some pair =>
      have picked := picks ready _ _ chosen
      apply ih (placing.step distinct closed picked) (placing.full_step distinct full picked)
      apply greedy.snoc
      · exact (placing.ready_iff full _).mp (picked.symm.subset List.mem_cons_self)
      · intro b free
        exact best ready _ _ chosen b ((placing.ready_iff full b).mpr free)

include best stops in
/-- A run from the start with a node's fuel each ends sorted. -/
theorem Placing.sorted {ready : List α} (placing : Placing succ nodes d ready [])
    (full : Full nodes d ready []) :
    Sorted prefers succ nodes (Kahn.run succ pick nodes.length d ready []) := by
  have greedy : Greedy prefers succ nodes (Kahn.run succ pick nodes.length d ready []) := by
    apply placing.run_greedy distinct closed picks best nodes.length full
    intro before a after split
    simp at split
  obtain ⟨d', ready', final⟩ := placing.run distinct closed picks nodes.length
  have nodup := (List.nodup_append.mp final.nodup).1
  have inside : Kahn.run succ pick nodes.length d ready [] ⊆ nodes := fun a placed =>
    final.inside a (List.mem_append_left _ placed)
  refine ⟨nodup, inside, greedy, ?_⟩
  intro a free
  rcases placing.run_ends distinct closed picks stops nodes.length full with spent | ended
  · have every : nodes ⊆ Kahn.run succ pick nodes.length d ready [] := by
      apply ((List.subperm_of_subset nodup inside).perm_of_length_le _).symm.subset
      rw [spent, List.length_nil, Nat.zero_add]
    exact free.waiting (every free.known)
  · obtain ⟨_, over', full'⟩ := ended
    cases (over'.ready_iff full' a).mpr free

end

omit [DecidableEq α] in
theorem Sorted.unique {succ' : α → List α} {nodes' placed' : List α}
    (sorts : Sorted prefers succ nodes placed) (sorts' : Sorted prefers succ' nodes' placed')
    (antisymm : ∀ a ∈ nodes, ∀ b ∈ nodes, prefers a b → prefers b a → a = b)
    (same : ∀ before a, Ready succ nodes before a ↔ Ready succ' nodes' before a) :
    placed = placed' := by
  have tails : ∀ before after later, placed = before ++ after → placed' = before ++ later →
      after = later := by
    intro before after
    induction after generalizing before with
    | nil =>
      intro later split split'
      cases later with
      | nil => rfl
      | cons b later =>
        rw [List.append_nil] at split
        exact absurd ((same _ _).mpr (sorts'.greedy _ b later split').1) (split ▸ sorts.stuck b)
    | cons a after ih =>
      intro later split split'
      obtain ⟨ready, least⟩ := sorts.greedy before a after split
      cases later with
      | nil =>
        rw [List.append_nil] at split'
        exact absurd ((same _ _).mp ready) (split' ▸ sorts'.stuck a)
      | cons b later =>
        obtain ⟨ready', least'⟩ := sorts'.greedy before b later split'
        have free := (same _ _).mpr ready'
        have here := antisymm a ready.known b free.known (least b free)
          (least' a ((same _ _).mp ready))
        subst here
        rw [ih (before ++ [a]) later (by simpa using split) (by simpa using split')]
  exact tails [] placed placed' rfl rfl

/-! What stays behind. -/

def Edge (succ : α → List α) (nodes : List α) (a b : α) : Prop := a ∈ nodes ∧ b ∈ succ a

theorem Greedy.before (greedy : Greedy prefers succ nodes placed) {b : α}
    (edge : Edge succ nodes a b) (here : b ∈ placed) : placed.idxOf a < placed.idxOf b := by
  obtain ⟨before, after, split, fresh⟩ := List.eq_append_cons_of_mem here
  have earlier := (greedy before b after split).1.free a edge.1 edge.2
  rw [split, List.idxOf_append_of_mem earlier, List.idxOf_append_of_notMem fresh,
    List.idxOf_cons_self]
  exact List.idxOf_lt_length_iff.mpr earlier

theorem Greedy.before_path (greedy : Greedy prefers succ nodes placed) {b : α}
    (path : Relation.TransGen (Edge succ nodes) a b) (here : b ∈ placed) :
    placed.idxOf a < placed.idxOf b := by
  induction path with
  | single edge => exact greedy.before edge here
  | tail _ edge ih =>
    have step := greedy.before edge here
    have known := List.idxOf_lt_length_iff.mp
      (Nat.lt_trans step (List.idxOf_lt_length_iff.mpr here))
    exact Nat.lt_trans (ih known) step

omit [DecidableEq α] in
theorem Ready.not_of_unplaced (known : a ∈ nodes) (waiting : a ∉ placed)
    (stuck : ¬ Ready succ nodes placed a) : ∃ b, Edge succ nodes b a ∧ b ∉ placed := by
  by_contra none
  push Not at none
  exact stuck ⟨known, waiting, fun b inside edge => none b ⟨inside, edge⟩⟩

theorem Sorted.unplaced_iff (sorted : Sorted prefers succ nodes placed)
    (closed : ∀ a ∈ nodes, ∀ b ∈ succ a, b ∈ nodes) (b : α) :
    b ∈ nodes ∧ b ∉ placed ↔ ∃ c, Relation.TransGen (Edge succ nodes) c c ∧
      Relation.ReflTransGen (Edge succ nodes) c b := by
  constructor
  · intro ⟨known, waiting⟩
    by_contra none
    -- The nodes above `b` have no cycle, so they can be visited from their sources on.
    let above (x y : α) : Prop := Edge succ nodes y x ∧
      Relation.ReflTransGen (Edge succ nodes) x b
    have acyclic : Digraph.Acyclic above := by
      intro x cycle
      apply none
      have turned : Relation.TransGen (Edge succ nodes) x x := by
        have less : above ≤ Function.swap (Edge succ nodes) := fun _ _ step => step.1
        exact Relation.transGen_swap.mp (Relation.TransGen.mono less x x cycle)
      obtain ⟨y, step, _⟩ := Relation.TransGen.head'_iff.mp cycle
      exact ⟨x, turned, step.2⟩
    have wf := acyclic.wellFounded nodes fun _ _ step => step.1.1
    have all : ∀ a, a ∈ nodes → Relation.ReflTransGen (Edge succ nodes) a b → a ∈ placed := by
      intro a
      induction a using wf.induction with
      | _ a ih =>
        intro inside reaches
        by_contra missing
        obtain ⟨c, edge, unplaced⟩ := Ready.not_of_unplaced inside missing (sorted.stuck a)
        exact unplaced (ih c ⟨edge, reaches⟩ edge.1 (.head edge reaches))
    exact waiting (all b known .refl)
  · intro ⟨c, cycle, path⟩
    have known : ∀ {x y}, Relation.TransGen (Edge succ nodes) x y → y ∈ nodes := by
      intro x y steps
      obtain ⟨z, _, edge⟩ := Relation.TransGen.tail'_iff.mp steps
      exact closed z edge.1 y edge.2
    constructor
    · cases Relation.reflTransGen_iff_eq_or_transGen.mp path with
      | inl same => exact same ▸ known cycle
      | inr steps => exact known steps
    · intro here
      have first : c ∈ placed := by
        cases Relation.reflTransGen_iff_eq_or_transGen.mp path with
        | inl same => exact same ▸ here
        | inr steps =>
          have step := sorted.greedy.before_path steps here
          exact List.idxOf_lt_length_iff.mp
            (Nat.lt_trans step (List.idxOf_lt_length_iff.mpr here))
      exact Nat.lt_irrefl _ (sorted.greedy.before_path cycle first)

theorem Sorted.complete_iff (sorted : Sorted prefers succ nodes placed)
    (closed : ∀ a ∈ nodes, ∀ b ∈ succ a, b ∈ nodes) :
    nodes ⊆ placed ↔ Digraph.Acyclic (Edge succ nodes) := by
  constructor
  · intro all a cycle
    obtain ⟨known, waiting⟩ := (sorted.unplaced_iff closed a).mpr ⟨a, cycle, .refl⟩
    exact waiting (all known)
  · intro acyclic a known
    by_contra waiting
    obtain ⟨c, cycle, _⟩ := (sorted.unplaced_iff closed a).mp ⟨known, waiting⟩
    exact acyclic c cycle

/-! The least order. -/

/-- At the first place where the lists differ, the first has the lower rank. -/
def LexLe (rank : α → Nat) : List α → List α → Prop
  | [], _ => True
  | _ :: _, [] => False
  | a :: as, b :: bs => rank a < rank b ∨ a = b ∧ LexLe rank as bs

structure Linear (succ : α → List α) (nodes order : List α) : Prop where
  perm : order.Perm nodes
  respects : ∀ a b, Edge succ nodes a b → order.idxOf a < order.idxOf b

theorem Linear.ready {order : List α} (distinct : nodes.Nodup) (linear : Linear succ nodes order)
    {before after : List α} (split : order = before ++ a :: after) : Ready succ nodes before a := by
  have nodup := linear.perm.nodup_iff.mpr distinct
  have here : a ∈ order := split ▸ List.mem_append_right _ List.mem_cons_self
  rw [split] at nodup
  have waiting : a ∉ before := fun early =>
    List.disjoint_of_nodup_append nodup early List.mem_cons_self
  refine ⟨linear.perm.subset here, waiting, ?_⟩
  intro b known edge
  have earlier := linear.respects b a ⟨known, edge⟩
  by_contra late
  rw [split, List.idxOf_append_of_notMem waiting, List.idxOf_append_of_notMem late,
    List.idxOf_cons_self] at earlier
  omega

theorem Greedy.least (rank : α → Nat) (distinct : nodes.Nodup)
    (injective : ∀ a ∈ nodes, ∀ b ∈ nodes, rank a = rank b → a = b)
    (greedy : Greedy (fun a b => rank a ≤ rank b) succ nodes placed) {other : List α}
    (linear : Linear succ nodes other) (full : placed.Perm nodes) : LexLe rank placed other := by
  have tails : ∀ before after later, placed = before ++ after → other = before ++ later →
      LexLe rank after later := by
    intro before after
    induction after generalizing before with
    | nil =>
      intro later _ _
      trivial
    | cons a after ih =>
      intro later split split'
      cases later with
      | nil =>
        have sizes := (full.trans linear.perm.symm).length_eq
        rw [split, split'] at sizes
        simp at sizes
      | cons b later =>
        have free := linear.ready distinct split'
        obtain ⟨ready, least⟩ := greedy before a after split
        rw [LexLe]
        cases Nat.lt_or_eq_of_le (least b free) with
        | inl less => exact Or.inl less
        | inr level =>
          have same := injective a ready.known b free.known level
          subst same
          refine Or.inr ⟨rfl, ?_⟩
          apply ih (before ++ [a]) later
          · rw [List.append_assoc, List.singleton_append, split]
          · rw [List.append_assoc, List.singleton_append, split']
  exact tails [] placed other rfl rfl

omit [DecidableEq α] in
theorem Greedy.sorted (greedy : Greedy prefers succ nodes placed) (distinct : nodes.Nodup)
    (full : placed.Perm nodes) : Sorted prefers succ nodes placed :=
  ⟨full.nodup_iff.mpr distinct, full.subset, greedy,
    fun _ ready => ready.waiting (full.mem_iff.mpr ready.known)⟩

theorem Greedy.eq_linear {order : List α} (distinct : nodes.Nodup)
    (greedy : Greedy (fun a b => order.idxOf a ≤ order.idxOf b) succ nodes placed)
    (linear : Linear succ nodes order) (full : placed.Perm nodes) : placed = order := by
  have own : Greedy (fun a b => order.idxOf a ≤ order.idxOf b) succ nodes order := by
    intro before b later split
    have ready := linear.ready distinct split
    refine ⟨ready, fun a free => ?_⟩
    dsimp only
    rw [split, List.idxOf_append_of_notMem ready.waiting,
      List.idxOf_append_of_notMem free.waiting, List.idxOf_cons_self]
    omega
  refine (greedy.sorted distinct full).unique (own.sorted distinct linear.perm) ?_
    fun _ _ => Iff.rfl
  intro a known b _ below above
  exact (List.idxOf_inj (linear.perm.mem_iff.mpr known)).mp (Nat.le_antisymm below above)

/-! Walks that close. -/

structure ClosedWalk (edge : α → α → Prop) (walk : List α) : Prop where
  steps : 2 ≤ walk.length
  closes : walk.head? = walk.getLast?
  chain : walk.IsChain edge

/-- Follows the next node until one comes again, and gives the walk from its first visit on. -/
def lasso (next : α → Option α) : Nat → α → List α → Option (List α)
  | 0, _, _ => none
  | fuel + 1, current, path =>
    match next current with
    | none => none
    | some found =>
      if found ∈ path then some (path.drop (path.idxOf found) ++ [found])
      else lasso next fuel found (path ++ [found])

omit [DecidableEq α] in
theorem ClosedWalk.reverse {edge : α → α → Prop} {walk : List α} (closed : ClosedWalk edge walk) :
    ClosedWalk (fun a b => edge b a) walk.reverse where
  steps := by simpa using closed.steps
  closes := by simpa using closed.closes.symm
  chain := List.isChain_reverse.mpr closed.chain

theorem lasso_closes {next : α → Option α} {pool : List α}
    (total : ∀ a ∈ pool, ∃ b ∈ pool, next a = some b) (fuel : Nat) {current : α}
    {path : List α} (distinct : path.Nodup) (inside : path ⊆ pool)
    (last : path.getLast? = some current) (chain : path.IsChain fun a b => next a = some b)
    (enough : pool.length < path.length + fuel) :
    ∃ walk, lasso next fuel current path = some walk ∧
      ClosedWalk (fun a b => next a = some b) walk ∧ walk ⊆ pool := by
  induction fuel generalizing current path with
  | zero =>
    have few := distinct.length_le_of_subset inside
    omega
  | succ fuel ih =>
    have here : current ∈ path := List.mem_of_getLast? last
    obtain ⟨found, known, step⟩ := total current (inside here)
    rw [lasso, step]
    dsimp only
    have longer : (path ++ [found]).IsChain fun a b => next a = some b := by
      rw [List.isChain_append]
      refine ⟨chain, List.isChain_singleton _, ?_⟩
      intro a final b first
      rw [last] at final
      cases final
      cases first
      exact step
    split
    · next again =>
      refine ⟨_, rfl, ⟨?_, ?_, ?_⟩, ?_⟩
      · have place := List.idxOf_lt_length_iff.mpr again
        rw [List.length_append, List.length_drop, List.length_singleton]
        omega
      · have place := List.idxOf_lt_length_iff.mpr again
        rw [List.getLast?_concat, List.drop_eq_getElem_cons place, List.cons_append,
          List.head?_cons, List.getElem_idxOf]
      · have whole := longer.drop (path.idxOf found)
        rwa [List.drop_append_of_le_length (Nat.le_of_lt (List.idxOf_lt_length_iff.mpr again))]
          at whole
      · rw [List.append_subset]
        exact ⟨fun a later => inside (List.mem_of_mem_drop later), by simpa using known⟩
    · next fresh =>
      apply ih
      · rw [List.nodup_append]
        refine ⟨distinct, List.nodup_singleton _, ?_⟩
        intro a before b again same
        rw [List.mem_singleton] at again
        exact fresh (again ▸ same ▸ before)
      · rw [List.append_subset]
        exact ⟨inside, by simpa using known⟩
      · exact List.getLast?_concat
      · exact longer
      · rw [List.length_append, List.length_singleton]
        omega

end Kahn
