import HarnessSdk.Library.Digraph

/-! Refinement hierarchies compiled to gates. Each task has an entry and an exit; opening a child
follows the entry of its parent, and a gating child closes before the exit of its parent. -/
namespace Gates
open Relation

structure Hierarchy (T N : Type) where
  opens : T → T → Prop
  gates : T → T → Prop
  entry : T → N
  exit : T → N
  edge : N → N → Prop
  gates_open : ∀ {p c}, gates p c → opens p c
  open_edge : ∀ {p c}, opens p c → edge (entry p) (entry c)
  close_edge : ∀ {p c}, gates p c → edge (exit c) (exit p)
  /-- A task no child closes is a single node, or its entry leads to its exit. -/
  span : ∀ p, (∀ c, ¬ gates p c) → entry p = exit p ∨ edge (entry p) (exit p)

namespace Hierarchy
variable {T N : Type} (h : Hierarchy T N)

def NodeOf (t : T) (n : N) : Prop := n = h.entry t ∨ n = h.exit t

variable {h}

theorem entries_descend {p c : T} (below : ReflTransGen h.opens p c) :
    ReflTransGen h.edge (h.entry p) (h.entry c) :=
  below.lift h.entry fun _ _ => h.open_edge

theorem exits_ascend {p c : T} (below : ReflTransGen h.gates p c) :
    ReflTransGen h.edge (h.exit c) (h.exit p) := by
  induction below with
  | refl => exact .refl
  | tail _ step ih => exact (ReflTransGen.single (h.close_edge step)).trans ih

theorem opens_acyclic (acyclic : Digraph.Acyclic h.edge) : Digraph.Acyclic h.opens := by
  intro t cycle
  exact acyclic (h.entry t) (cycle.lift h.entry fun _ _ => h.open_edge)

theorem opens_wellFounded [Finite T] (acyclic : Digraph.Acyclic h.edge) :
    WellFounded fun c p => h.opens p c := by
  obtain ⟨tasks, all⟩ := Finite.exists_univ_list T
  exact (opens_acyclic acyclic).wellFounded tasks fun _ c _ => all.2 c

variable [Finite T] (acyclic : Digraph.Acyclic h.edge)
include acyclic

theorem entry_reaches_exit (t : T) : ReflTransGen h.edge (h.entry t) (h.exit t) := by
  induction t using (opens_wellFounded acyclic).induction with
  | _ p ih =>
    by_cases closing : ∃ c, h.gates p c
    · obtain ⟨c, gate⟩ := closing
      have down := ReflTransGen.single (h.open_edge (h.gates_open gate))
      have up := ReflTransGen.single (h.close_edge gate)
      exact (down.trans (ih c (h.gates_open gate))).trans up
    · rcases h.span p (fun c gate => closing ⟨c, gate⟩) with same | step
      · rw [same]
      · exact .single step

theorem entry_reaches_node {t : T} {n : N} (node : h.NodeOf t n) :
    ReflTransGen h.edge (h.entry t) n := by
  rcases node with rfl | rfl
  · exact .refl
  · exact entry_reaches_exit acyclic t

theorem node_reaches_exit {t : T} {n : N} (node : h.NodeOf t n) :
    ReflTransGen h.edge n (h.exit t) := by
  rcases node with rfl | rfl
  · exact entry_reaches_exit acyclic t
  · exact .refl

/-- An edge from the exit of `p` to the entry of `q` orders everything that closes `p` before
everything opened under `q`. -/
theorem ordered_descendants {p q x y : T} {n m : N} (order : h.edge (h.exit p) (h.entry q))
    (left : ReflTransGen h.gates p x) (right : ReflTransGen h.opens q y) (hn : h.NodeOf x n)
    (hm : h.NodeOf y m) : TransGen h.edge n m := by
  have before : ReflTransGen h.edge n (h.exit p) :=
    (node_reaches_exit acyclic hn).trans (exits_ascend left)
  have after : ReflTransGen h.edge (h.entry q) m :=
    (entries_descend right).trans (entry_reaches_node acyclic hm)
  exact TransGen.trans_left (TransGen.tail' before order) after

theorem entry_before_descendant {p x : T} {n : N} (below : TransGen h.opens p x)
    (node : h.NodeOf x n) : TransGen h.edge (h.entry p) n := by
  have down : TransGen h.edge (h.entry p) (h.entry x) :=
    below.lift h.entry fun _ _ => h.open_edge
  exact down.trans_left (entry_reaches_node acyclic node)

theorem exit_after_gating_descendant {p x : T} {n : N} (below : TransGen h.gates p x)
    (node : h.NodeOf x n) : TransGen h.edge n (h.exit p) := by
  obtain ⟨c, gate, rest⟩ := TransGen.head'_iff.mp below
  have up := (node_reaches_exit acyclic node).trans (exits_ascend rest)
  exact TransGen.tail' up (h.close_edge gate)

end Hierarchy
end Gates
