import HarnessSdk.Graph.Depths
import HarnessSdk.Library.Cycles

/-! What the dependency check returns: the least of the orders that respect every dependency, or an
error, and a cycle it reports is one. -/
namespace Graph
open PyDict PyText Checks
open Kahn (Edge Sorted ClosedWalk LexLe lasso)

theorem every_eq_error {ε α : Type} {check : α → Except ε Unit} {items : List α} {e : ε}
    (raised : every check items = .error e) : ∃ a ∈ items, check a = .error e := by
  induction items with
  | nil => cases raised
  | cons a rest ih =>
    rw [every, bind_eq_error] at raised
    cases raised with
    | inl first => exact ⟨a, List.mem_cons_self, first⟩
    | inr later =>
      obtain ⟨_, _, later⟩ := later
      obtain ⟨b, inside, raised⟩ := ih later
      exact ⟨b, List.mem_cons_of_mem _ inside, raised⟩

theorem pick_best {names ready : List String} {a : String} {rest : List String}
    (picked : pick names ready = some (a, rest)) {b : String} (inside : b ∈ ready) :
    names.idxOf a ≤ names.idxOf b := by
  unfold pick at picked
  have ascending := List.pairwise_insertionSort (fun a b => names.idxOf a ≤ names.idxOf b) ready
  have members := List.mem_insertionSort (fun a b => names.idxOf a ≤ names.idxOf b)
    (l := ready) (x := b)
  split at picked
  · cases picked
  · next current tail sorted =>
    cases picked
    rw [sorted] at ascending members
    rw [List.pairwise_cons] at ascending
    cases List.mem_cons.mp (members.mpr inside) with
    | inl same => exact same ▸ Nat.le_refl _
    | inr later => exact ascending.1 b later

/-- What a dependency map must be: no key waits for itself, for an unknown key or twice for the same
key, and nothing waits for itself in a circle. -/
structure WellFormed (edges : Edges) : Prop where
  notSelf : ∀ a b, DependsOn edges a b → b ≠ a
  present : ∀ a b, DependsOn edges a b → b ∈ keys edges
  once : ∀ entry ∈ edges, entry.2.Nodup
  acyclic : Digraph.Acyclic (DependsOn edges)

/-- An order of all keys in which each stands after what it waits for. -/
structure Respects (edges : Edges) (order : List String) : Prop where
  perm : order.Perm (keys edges)
  descends : ∀ a b, DependsOn edges a b → order.idxOf b < order.idxOf a

section
variable {edges : Edges} (distinct : (keys edges).Nodup)
include distinct

theorem checked_iff : (∀ entry ∈ edges, checkEntry (keys edges) entry = .ok ()) ↔
    (∀ a b, DependsOn edges a b → b ≠ a ∧ b ∈ keys edges) ∧ ∀ entry ∈ edges, entry.2.Nodup := by
  constructor
  · intro checked
    constructor
    · intro a b depends
      obtain ⟨deps, entry, inside⟩ := (dependsOn_iff distinct a b).mp depends
      exact (checkEntry_spec checked entry).1 b inside
    · intro entry inside
      exact (checkEntry_spec checked inside).2
  · intro ⟨known, once⟩ entry inside
    rw [checkEntry, then_eq_ok, every_eq_ok, require_eq_ok]
    constructor
    · intro dep held
      rw [checkDependency, then_eq_ok, require_eq_ok, require_eq_ok]
      exact known entry.1 dep ((dependsOn_iff distinct _ _).mpr ⟨entry.2, inside, held⟩)
    · rw [(once entry inside).dedup]

theorem dependents_closed : ∀ a ∈ keys edges, ∀ b ∈ dependents edges a, b ∈ keys edges := by
  intro a _ b edge
  exact ((mem_dependents distinct b a).mp edge).mem_keys

theorem edge_iff {a b : String} :
    Edge (dependents edges) (keys edges) b a ↔ b ∈ keys edges ∧ DependsOn edges a b := by
  rw [Edge, mem_dependents distinct]

variable (checked : ∀ entry ∈ edges, checkEntry (keys edges) entry = .ok ())
include checked

theorem topologicalOrder_sorted :
    Sorted (fun a b => (keys edges).idxOf a ≤ (keys edges).idxOf b) (dependents edges)
      (keys edges) (topologicalOrder edges) := by
  apply (start_placing distinct checked).sorted distinct (dependents_closed distinct)
    (pick_perm (keys edges))
  · intro ready a rest picked b inside
    exact pick_best picked inside
  · exact fun ready stopped => pick_none stopped
  · intro b known zero
    simpa [known] using zero

theorem acyclic_edge_iff : Digraph.Acyclic (Edge (dependents edges) (keys edges)) ↔
    Digraph.Acyclic (DependsOn edges) := by
  have known := ((checked_iff distinct).mp checked).1
  have turned : Edge (dependents edges) (keys edges) = Function.swap (DependsOn edges) := by
    funext b a
    rw [eq_iff_iff, edge_iff distinct]
    exact ⟨fun edge => edge.2, fun depends => ⟨(known a b depends).2, depends⟩⟩
  unfold Digraph.Acyclic
  simp only [turned, Relation.transGen_swap]

omit distinct checked in
theorem checkEntry_reason {names : List String} {entry : String × List String}
    {error : DependencyError} (raised : checkEntry names entry = .error error) :
    error.reason ≠ "cycle" := by
  rw [checkEntry, bind_eq_error, require_eq_error] at raised
  cases raised with
  | inl inner =>
    obtain ⟨dep, _, inner⟩ := every_eq_error inner
    rw [checkDependency, bind_eq_error, require_eq_error, require_eq_error] at inner
    rcases inner with ⟨_, rfl⟩ | ⟨_, _, _, rfl⟩ <;> simp
  | inr again =>
    obtain ⟨_, _, _, rfl⟩ := again
    simp

theorem cyclePath_closes {start : String} {others : List String}
    (left : (keys edges).filter (· ∉ topologicalOrder edges) = start :: others) :
    ClosedWalk (DependsOn edges) (cyclePath edges (start :: others)
      ((start :: others).length + 1) start [start]) := by
  let next (current : String) : Option String :=
    ((get? edges current).getD []).find? (· ∈ start :: others)
  have follows : ∀ a b, next a = some b → DependsOn edges a b := by
    intro a b step
    exact List.mem_of_find?_eq_some step
  have total : ∀ a ∈ start :: others, ∃ b ∈ start :: others, next a = some b := by
    intro a inside
    rw [← left, List.mem_filter, decide_eq_true_eq] at inside
    have sorted := topologicalOrder_sorted distinct checked
    obtain ⟨b, edge, waiting⟩ := Kahn.Ready.not_of_unplaced inside.1 inside.2 (sorted.stuck a)
    have behind : b ∈ start :: others := by
      rw [← left, List.mem_filter, decide_eq_true_eq]
      exact ⟨edge.1, waiting⟩
    cases step : next a with
    | none =>
      have blocked := List.find?_eq_none.mp step b ((edge_iff distinct).mp edge).2
      simp [behind] at blocked
    | some found =>
      have here := List.find?_some step
      exact ⟨found, by simpa using here, rfl⟩
  have same : ∀ fuel current path walk, lasso next fuel current path = some walk →
      cyclePath edges (start :: others) fuel current path = walk := by
    intro fuel
    induction fuel with
    | zero => exact fun _ _ _ none => nomatch none
    | succ fuel ih =>
      intro current path walk closed
      rw [lasso] at closed
      rw [cyclePath]
      cases step : next current with
      | none => simp [step] at closed
      | some found =>
        have step' : ((get? edges current).getD []).find? (· ∈ start :: others) = some found := step
        rw [step] at closed
        rw [step']
        dsimp only at closed ⊢
        split
        · next again =>
          rw [if_pos again] at closed
          exact Option.some.inj closed
        · next fresh =>
          rw [if_neg fresh] at closed
          exact ih _ _ _ closed
  obtain ⟨walk, closed, circle, _⟩ := @Kahn.lasso_closes _ _ _ _ total
    ((start :: others).length + 1) start [start] (List.nodup_singleton start) (by simp) rfl (List.isChain_singleton _)
    (by rw [List.length_singleton]; omega)
  rw [same _ _ _ _ closed]
  exact ⟨circle.steps, circle.closes, circle.chain.imp follows⟩

end

/-- The check returns the least order that respects every dependency exactly for a well-formed map,
and a cycle it reports is one. -/
theorem checkDependencies_correct (edges : Edges) (distinct : (keys edges).Nodup) :
    ((∃ order, checkDependencies edges = .ok order) ↔ WellFormed edges) ∧
    (∀ order, checkDependencies edges = .ok order → Respects edges order ∧
      ∀ other, Respects edges other → LexLe (keys edges).idxOf order other) ∧
    ∀ error, checkDependencies edges = .error error → error.reason = "cycle" →
      ∃ walk, error.detail = join " -> " walk ∧ ClosedWalk (DependsOn edges) walk := by
  refine ⟨⟨?_, ?_⟩, ?_, ?_⟩
  · intro ⟨order, ok⟩
    have ordered := checkDependencies_spec distinct ok
    rw [checkDependencies, then_eq_ok, every_eq_ok] at ok
    have known := ((checked_iff distinct).mp ok.1).1
    exact ⟨fun a b depends => (known a b depends).1, ordered.present, ordered.distinctDeps,
      ordered.sound.acyclic⟩
  · intro formed
    have checked : ∀ entry ∈ edges, checkEntry (keys edges) entry = .ok () :=
      (checked_iff distinct).mpr
        ⟨fun a b depends => ⟨formed.notSelf a b depends, formed.present a b depends⟩, formed.once⟩
    have sorted := topologicalOrder_sorted distinct checked
    have full : keys edges ⊆ topologicalOrder edges :=
      (sorted.complete_iff (dependents_closed distinct)).mpr
        ((acyclic_edge_iff distinct checked).mpr formed.acyclic)
    have perm := (List.subperm_of_subset sorted.nodup sorted.inside).perm_of_length_le
      (distinct.length_le_of_subset full)
    refine ⟨topologicalOrder edges, ?_⟩
    rw [checkDependencies, then_eq_ok, every_eq_ok, then_eq_ok, require_eq_ok]
    exact ⟨checked, perm.length_eq, rfl⟩
  · intro order ok
    have ordered := checkDependencies_spec distinct ok
    refine ⟨⟨ordered.perm, ordered.descends⟩, ?_⟩
    intro other respects
    rw [checkDependencies, then_eq_ok, every_eq_ok, then_eq_ok, require_eq_ok] at ok
    obtain ⟨checked, _, same⟩ := ok
    cases same
    have sorted := topologicalOrder_sorted distinct checked
    apply sorted.greedy.least (keys edges).idxOf distinct _ _ ordered.perm
    · intro a known b _ level
      exact (List.idxOf_inj known).mp level
    · exact ⟨respects.perm, fun a b edge => respects.descends b a ((edge_iff distinct).mp edge).2⟩
  · intro error raised cyclic
    rw [checkDependencies, bind_eq_error] at raised
    cases raised with
    | inl inner =>
      obtain ⟨entry, _, inner⟩ := every_eq_error inner
      exact absurd cyclic (checkEntry_reason inner)
    | inr later =>
      obtain ⟨_, checked, later⟩ := later
      rw [every_eq_ok] at checked
      dsimp only at later
      rw [bind_eq_error, require_eq_error] at later
      cases later with
      | inr done => obtain ⟨_, _, done⟩ := done; cases done
      | inl stopped =>
        obtain ⟨short, rfl⟩ := stopped
        cases left : (keys edges).filter (· ∉ topologicalOrder edges) with
        | nil =>
          have sorted := topologicalOrder_sorted distinct checked
          have full : keys edges ⊆ topologicalOrder edges := by
            intro a known
            simpa using List.filter_eq_nil_iff.mp left a known
          exact absurd ((List.subperm_of_subset sorted.nodup sorted.inside).perm_of_length_le
            (distinct.length_le_of_subset full)).length_eq short
        | cons start others =>
          refine ⟨_, ?_, cyclePath_closes distinct checked left⟩
          rw [cycleDetail]

theorem checkDependencies_correct_at_build :
    WellFormed [("test", ["build"]), ("build", []), ("lint", [])] :=
  (checkDependencies_correct _ (by decide)).1.mp ⟨["build", "test", "lint"], by decide +kernel⟩

end Graph
