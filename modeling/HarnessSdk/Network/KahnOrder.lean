import HarnessSdk.Network.ProjectionChecks
import HarnessSdk.Library.Cycles

/-! What the sort of a projection returns: the least ready node at each place, and for a graph with
a cycle the nodes behind one, with one cycle read off them. -/
namespace Network
open PyDict PyText Checks
open Kahn (Edge Ready Greedy Sorted ClosedWalk lasso)

def Prefers {ι : Type} [LinearOrder ι] [Zero ι] (ordinals : Dict String ι) (a b : String) : Prop :=
  (get? ordinals a).getD 0 < (get? ordinals b).getD 0 ∨
    (get? ordinals a).getD 0 = (get? ordinals b).getD 0 ∧ a ≤ b

section
variable {ι : Type} [LinearOrder ι] [Zero ι] {ordinals : Dict String ι}

theorem Prefers.refl (a : String) : Prefers ordinals a a := Or.inr ⟨rfl, String.le_refl a⟩

variable {b : String} {ready : List String}

theorem Prefers.antisymm {a : String} (first : Prefers ordinals a b)
    (second : Prefers ordinals b a) : a = b := by
  rcases first with less | ⟨level, before⟩
  · rcases second with less' | ⟨level', _⟩
    · exact absurd less' less.asymm
    · exact absurd level' less.ne'
  · rcases second with less' | ⟨_, before'⟩
    · exact absurd level less'.ne'
    · exact String.le_antisymm before before'

theorem Prefers.trans {a c : String} (first : Prefers ordinals a b)
    (second : Prefers ordinals b c) : Prefers ordinals a c := by
  rcases first with less | ⟨level, before⟩
  · rcases second with less' | ⟨level', _⟩
    · exact Or.inl (less.trans less')
    · exact Or.inl (level' ▸ less)
  · rcases second with less' | ⟨level', before'⟩
    · exact Or.inl (level ▸ less')
    · exact Or.inr ⟨level.trans level', String.le_trans before before'⟩

theorem least_none (none : least ordinals ready = none) : ready = [] := by
  cases ready with
  | nil => rfl
  | cons node rest =>
    rw [least] at none
    split at none
    · cases none
    · dsimp only at none
      split at none <;> cases none

theorem least_prefers {node : String} (found : least ordinals ready = some node)
    (inside : b ∈ ready) : Prefers ordinals node b := by
  induction ready generalizing node with
  | nil => cases inside
  | cons first rest ih =>
    rw [least] at found
    split at found
    · next none =>
      cases found
      rw [least_none none, List.mem_singleton] at inside
      exact inside ▸ Prefers.refl _
    · next other later =>
      dsimp only at found
      split at found
      · next less =>
        cases found
        rcases List.mem_cons.mp inside with rfl | tail
        · rcases less with less | ⟨level, before⟩
          · exact Or.inl less
          · exact Or.inr ⟨level, String.not_lt.mp (String.lt_asymm before)⟩
        · exact ih later tail
      · next more =>
        cases found
        rw [not_or, not_and, not_lt] at more
        rcases List.mem_cons.mp inside with rfl | tail
        · exact Prefers.refl _
        · apply Prefers.trans _ (ih later tail)
          rcases more.1.lt_or_eq with less | level
          · exact Or.inl less
          · exact Or.inr ⟨level, String.not_lt.mp (more.2 level.symm)⟩

theorem pop_prefers {rest : List String} {node : String}
    (popped : pop ordinals ready = some (node, rest)) (inside : b ∈ ready) :
    Prefers ordinals node b := by
  simp only [pop, Option.map_eq_some_iff, Prod.mk.injEq] at popped
  obtain ⟨first, found, rfl, rfl⟩ := popped
  exact least_prefers found inside

theorem pop_none (stopped : pop ordinals ready = none) : ready = [] :=
  least_none (Option.map_eq_none_iff.mp stopped)

variable {successors : Adjacency} (distinct : (keys successors).Nodup)
  (closed : ∀ node ∈ keys successors, ∀ target ∈ successors.after node, target ∈ keys successors)
include distinct closed

theorem order_sorted (ordinals : Dict String ι) :
    Sorted (Prefers ordinals) successors.after (keys successors)
      (Kahn.order successors.after (pop ordinals) (keys successors)) := by
  apply (Kahn.Placing.start distinct).sorted distinct closed pop_perm
  · intro ready a rest popped b inside
    exact pop_prefers popped inside
  · exact fun ready stopped => pop_none stopped
  · intro b known zero
    simpa [known] using zero

end

abbrev Adjacency.Follows (successors : Adjacency) : String → String → Prop :=
  Edge successors.after (keys successors)

structure SortResult {ι : Type} [LinearOrder ι] [Zero ι] (successors : Adjacency)
    (ordinals : Dict String ι) (placed remaining : List String) : Prop where
  dag : remaining = [] ↔ Digraph.Acyclic successors.Follows
  once : placed.Nodup
  divides : ∀ node, node ∈ keys successors ↔ node ∈ placed ∨ node ∈ remaining
  apart : ∀ node ∈ placed, node ∉ remaining
  /-- A placed node stands after all its predecessors. -/
  after : ∀ a b, successors.Follows a b → b ∈ placed → placed.idxOf a < placed.idxOf b
  /-- At each place stands the least of the nodes that are ready. -/
  least : Greedy (Prefers ordinals) successors.after (keys successors) placed
  /-- What is left over is what a cycle reaches. -/
  behind : ∀ node, node ∈ remaining ↔ ∃ c, Relation.TransGen successors.Follows c c ∧
    Relation.ReflTransGen successors.Follows c node
  cycle : remaining ≠ [] → ClosedWalk
    (fun a b => successors.Follows a b ∧ a ∈ remaining ∧ b ∈ remaining)
    (findCycle successors remaining)

theorem walkBack_eq (predecessors : String → List String) (fuel : Nat) (current : String)
    (path : List String) :
    walkBack predecessors fuel current path =
      ((lasso (fun node => (sorted (predecessors node)).head?) fuel current path).map
        List.reverse).getD [] := by
  induction fuel generalizing current path with
  | zero => rfl
  | succ fuel ih =>
    rw [walkBack, lasso]
    cases (sorted (predecessors current)).head? with
    | none => rfl
    | some next =>
      dsimp only
      split
      · rw [Option.map_some, Option.getD_some, List.reverse_append, List.reverse_singleton,
          List.singleton_append]
      · exact ih next (path ++ [next])

theorem findCycle_closes {successors : Adjacency} {remaining : List String}
    (nonempty : remaining ≠ [])
    (blocked : ∀ b ∈ remaining, ∃ a ∈ remaining, successors.Follows a b) :
    ClosedWalk (fun a b => successors.Follows a b ∧ a ∈ remaining ∧ b ∈ remaining)
      (findCycle successors remaining) := by
  let predecessors (node : String) : List String :=
    ((keys successors).filter (· ∈ remaining)).flatMap fun key =>
      ((successors.after key).filter (· = node)).map fun _ => key
  have members : ∀ a b, a ∈ predecessors b ↔ a ∈ remaining ∧ successors.Follows a b := by
    intro a b
    simp only [predecessors, List.mem_flatMap, List.mem_filter, List.mem_map, decide_eq_true_eq,
      Edge]
    constructor
    · intro ⟨key, ⟨known, left⟩, target, ⟨edge, same⟩, same'⟩
      subst same same'
      exact ⟨left, known, edge⟩
    · intro ⟨left, known, edge⟩
      exact ⟨a, ⟨known, left⟩, b, ⟨edge, rfl⟩, rfl⟩
  let next (node : String) : Option String := (sorted (predecessors node)).head?
  have follows : ∀ b a, next b = some a → a ∈ remaining ∧ successors.Follows a b := by
    intro b a step
    rw [← members, ← mem_sorted]
    exact List.mem_of_head? step
  have total : ∀ b ∈ remaining, ∃ a ∈ remaining, next b = some a := by
    intro b left
    obtain ⟨a, left', edge⟩ := blocked b left
    have inside : a ∈ sorted (predecessors b) := by
      rw [mem_sorted, members]
      exact ⟨left', edge⟩
    obtain ⟨first, step⟩ := Option.isSome_iff_exists.mp
      (List.isSome_head?.mpr (List.ne_nil_of_mem inside))
    exact ⟨first, (follows b first step).1, step⟩
  obtain ⟨node, inside⟩ := List.exists_mem_of_ne_nil _ nonempty
  have here : node ∈ sorted remaining := (mem_sorted _ _).mpr inside
  obtain ⟨start, first⟩ := Option.isSome_iff_exists.mp
    (List.isSome_head?.mpr (List.ne_nil_of_mem here))
  have start' : start ∈ remaining := (mem_sorted _ _).mp (List.mem_of_head? first)
  obtain ⟨walk, closed, circle, within⟩ := @Kahn.lasso_closes _ _ _ _ total (remaining.length + 1)
    start [start] (List.nodup_singleton start) (by simpa using start') rfl
    (List.isChain_singleton _) (by rw [List.length_singleton]; omega)
  have same : findCycle successors remaining = walk.reverse := by
    rw [findCycle, first]
    dsimp only
    rw [walkBack_eq]
    have closed' : lasso (fun node => (sorted (predecessors node)).head?)
      (remaining.length + 1) start [start] = some walk := closed
    rw [closed', Option.map_some, Option.getD_some]
  rw [same]
  have chain := (circle.reverse).chain.imp_of_mem_imp fun a b inside inside' step =>
    (⟨(follows b a step).2, within (List.mem_reverse.mp inside),
      within (List.mem_reverse.mp inside')⟩ :
      successors.Follows a b ∧ a ∈ remaining ∧ b ∈ remaining)
  exact ⟨circle.reverse.steps, circle.reverse.closes, chain⟩

section
variable {ι : Type} [LinearOrder ι] [Zero ι] (printable : Char → Bool) {successors : Adjacency}
  (ordinals : Dict String ι) (distinct : (keys successors).Nodup)
  (closed : ∀ node ∈ keys successors, ∀ target ∈ successors.after node, target ∈ keys successors)
include distinct closed

theorem kahnOrder_ok :
    let placed := Kahn.order successors.after (pop ordinals) (keys successors)
    kahnOrder printable successors ordinals =
      .ok (placed, sorted ((keys successors).filter (· ∉ placed))) := by
  intro placed
  have sorts := order_sorted distinct closed ordinals
  simp only [kahnOrder, then_eq_ok, every_eq_ok, require_eq_ok]
  refine ⟨closed, ?_⟩
  split
  · next all =>
    have full : keys successors ⊆ placed :=
      ((List.subperm_of_subset sorts.nodup sorts.inside).perm_of_length_le
        ((List.length_map _).trans_le all.ge)).symm.subset
    have none : (keys successors).filter (· ∉ placed) = [] :=
      List.filter_eq_nil_iff.mpr fun node known => by simpa using full known
    rw [none]
    rfl
  · rfl

theorem kahnOrder_result :
    ∃ placed remaining, kahnOrder printable successors ordinals = .ok (placed, remaining) ∧
      SortResult successors ordinals placed remaining := by
  refine ⟨_, _, kahnOrder_ok printable ordinals distinct closed, ?_⟩
  have sorts := order_sorted distinct closed ordinals
  generalize Kahn.order successors.after (pop ordinals) (keys successors) = placed at sorts ⊢
  have left : ∀ node, node ∈ sorted ((keys successors).filter (· ∉ placed)) ↔
      node ∈ keys successors ∧ node ∉ placed := by
    intro node
    rw [mem_sorted, List.mem_filter, decide_eq_true_eq]
  refine {
    dag := ?_
    once := sorts.nodup
    divides := ?_
    apart := fun node inside left' => ((left node).mp left').2 inside
    after := fun a b edge inside => sorts.greedy.before edge inside
    least := sorts.greedy
    behind := fun node => (left node).trans (sorts.unplaced_iff closed node)
    cycle := ?_ }
  · rw [← sorts.complete_iff closed]
    constructor
    · intro none node known
      by_contra waiting
      have inside := (left node).mpr ⟨known, waiting⟩
      rw [none] at inside
      cases inside
    · intro full
      rw [List.eq_nil_iff_forall_not_mem]
      intro node inside
      obtain ⟨known, waiting⟩ := (left node).mp inside
      exact waiting (full known)
  · intro node
    rw [left]
    constructor
    · intro known
      by_cases inside : node ∈ placed
      · exact Or.inl inside
      · exact Or.inr ⟨known, inside⟩
    · rintro (inside | ⟨known, _⟩)
      · exact sorts.inside inside
      · exact known
  · intro some
    apply findCycle_closes some
    intro b inside
    obtain ⟨known, waiting⟩ := (left b).mp inside
    obtain ⟨a, edge, waiting'⟩ := Kahn.Ready.not_of_unplaced known waiting (sorts.stuck b)
    exact ⟨a, (left a).mpr ⟨edge.1, waiting'⟩, edge⟩

end

/-- The sort of any finite graph, with any ordinals. -/
theorem kahnOrder_correct (printable : Char → Bool) (successors : Adjacency)
    (ordinals : Dict String Int) (distinct : (keys successors).Nodup)
    (closed : ∀ node ∈ keys successors, ∀ target ∈ successors.after node,
      target ∈ keys successors) :
    ∃ placed remaining, kahnOrder printable successors ordinals = .ok (placed, remaining) ∧
      SortResult successors ordinals placed remaining :=
  kahnOrder_result printable ordinals distinct closed

/-- Two nodes of a circle and one behind it are left over. -/
theorem kahnOrder_correct_at_circle : ∃ placed remaining,
    kahnOrder (fun _ => true)
      [("a", ["b", "c"]), ("b", ["a", "a"]), ("c", []), ("d", ["c"])] [("a", -1)] =
        .ok (placed, remaining) ∧
    SortResult [("a", ["b", "c"]), ("b", ["a", "a"]), ("c", []), ("d", ["c"])]
      [("a", (-1 : Int))] placed remaining :=
  kahnOrder_correct (fun _ => true) _ _ (by decide) (by decide)

theorem head?_sorted {items : List String} {x : String} :
    (sorted items).head? = some x ↔ x ∈ items ∧ ∀ y ∈ items, x ≤ y := by
  have order : (sorted items).Pairwise (· ≤ ·) := List.pairwise_insertionSort _ items
  simp only [← mem_sorted items]
  generalize sorted items = l at order ⊢
  cases l with
  | nil => simp
  | cons a rest =>
    rw [List.pairwise_cons] at order
    constructor
    · rintro ⟨rfl⟩
      refine ⟨List.mem_cons_self, fun y inside => ?_⟩
      rcases List.mem_cons.mp inside with rfl | later
      · exact String.le_refl _
      · exact order.1 y later
    · rintro ⟨inside, least⟩
      rcases List.mem_cons.mp inside with rfl | later
      · rfl
      · exact congrArg some (String.le_antisymm (order.1 x later) (least a List.mem_cons_self))

/-- The sort, what it leaves over and the cycle that is read off it depend on what the nodes and
edges are, not on the order in which they are listed or on how often an edge is. -/
theorem kahnOrder_listing (printable : Char → Bool) {successors successors' : Adjacency}
    {ordinals ordinals' : Dict String Int} (distinct : (keys successors).Nodup)
    (distinct' : (keys successors').Nodup)
    (closed : ∀ node ∈ keys successors, ∀ target ∈ successors.after node,
      target ∈ keys successors)
    (nodes : ∀ node, node ∈ keys successors' ↔ node ∈ keys successors)
    (edges : ∀ node target, target ∈ successors'.after node ↔ target ∈ successors.after node)
    (levels : ∀ node, (get? ordinals' node).getD 0 = (get? ordinals node).getD 0) :
    kahnOrder printable successors' ordinals' = kahnOrder printable successors ordinals ∧
      ∀ remaining, findCycle successors' remaining = findCycle successors remaining := by
  have closed' : ∀ node ∈ keys successors', ∀ target ∈ successors'.after node,
      target ∈ keys successors' := fun node known target edge =>
    (nodes target).mpr (closed node ((nodes node).mp known) target ((edges node target).mp edge))
  have prefers : ∀ a b, Prefers ordinals' a b → Prefers ordinals a b := by
    intro a b before
    rwa [Prefers, levels, levels] at before
  have sorts' := order_sorted distinct' closed' ordinals'
  constructor
  · rw [kahnOrder_ok printable _ distinct closed, kahnOrder_ok printable _ distinct' closed']
    have placed := Sorted.unique (order_sorted distinct closed ordinals)
      { sorts' with greedy := fun before a after split =>
          ⟨(sorts'.greedy before a after split).1,
            fun b ready => prefers a b ((sorts'.greedy before a after split).2 b ready)⟩ }
      (fun _ _ _ _ => Prefers.antisymm) (by
        intro before a
        constructor
        · intro ready
          exact ⟨(nodes a).mpr ready.known, ready.waiting, fun b known edge =>
            ready.free b ((nodes b).mp known) ((edges b a).mp edge)⟩
        · intro ready
          exact ⟨(nodes a).mp ready.known, ready.waiting, fun b known edge =>
            ready.free b ((nodes b).mpr known) ((edges b a).mpr edge)⟩)
    rw [placed]
    refine congrArg (fun left => Except.ok (_, left)) (sort_of_perm ?_ fun _ _ _ _ => id)
    exact ((List.perm_ext_iff_of_nodup distinct' distinct).mpr nodes).filter _
  · intro remaining
    unfold findCycle
    dsimp only
    cases (sorted remaining).head? with
    | none => rfl
    | some start =>
      dsimp only
      rw [walkBack_eq, walkBack_eq]
      congr 3
      funext node
      apply Option.ext
      intro key
      simp only [head?_sorted, List.mem_flatMap, List.mem_filter, List.mem_map, decide_eq_true_eq,
        nodes, edges]

/-- The circle again, listed backwards, with an edge once that was there twice. -/
theorem kahnOrder_listing_at_circle :
    kahnOrder (fun _ => true) [("d", ["c"]), ("c", []), ("b", ["a"]), ("a", ["c", "b"])]
        [("c", 0), ("a", -1)] =
      kahnOrder (fun _ => true) [("a", ["b", "c"]), ("b", ["a", "a"]), ("c", []), ("d", ["c"])]
        [("a", (-1 : Int))] := by
  apply (kahnOrder_listing (fun _ => true) (by decide) (by decide) (by decide) _ _ _).1
  · intro node
    simp [keys]
    tauto
  · intro node target
    simp only [Adjacency.after, get?]
    grind
  · intro node
    simp only [get?]
    grind

end Network
