import HarnessSdk.Library.Digraph

/-! Strongly connected components: the classes of mutual reachability, and what they say about
cycles. -/
namespace Digraph
open Relation
variable {α : Type} {edge : α → α → Prop}

def Mutual (edge : α → α → Prop) (a b : α) : Prop :=
  ReflTransGen edge a b ∧ ReflTransGen edge b a

theorem Mutual.refl (a : α) : Mutual edge a a := ⟨.refl, .refl⟩

variable {a : α}

theorem Mutual.symm {b : α} (both : Mutual edge a b) : Mutual edge b a := ⟨both.2, both.1⟩

theorem Mutual.trans {b c : α} (first : Mutual edge a b) (later : Mutual edge b c) :
    Mutual edge a c :=
  ⟨first.1.trans later.1, later.2.trans first.2⟩

/-- The parts of the graph that can be reached from the starts, one for each class. -/
structure Components (edge : α → α → Prop) (starts : List α) (parts : List (List α)) : Prop where
  covers : ∀ v, (∃ part ∈ parts, v ∈ part) ↔ ∃ a ∈ starts, ReflTransGen edge a v
  classes : ∀ part ∈ parts, ∀ a ∈ part, ∀ b, b ∈ part ↔ Mutual edge a b
  inhabited : ∀ part ∈ parts, part ≠ []
  distinct : ∀ part ∈ parts, part.Nodup
  apart : parts.Pairwise List.Disjoint

variable {starts : List α} {parts : List (List α)}

theorem Components.perm {parts' : List (List α)} (components : Components edge starts parts)
    (same : parts.Perm parts') : Components edge starts parts' := by
  constructor
  · intro v
    rw [← components.covers v]
    constructor
    · intro found
      obtain ⟨part, inside, here⟩ := found
      exact ⟨part, same.mem_iff.mpr inside, here⟩
    · intro found
      obtain ⟨part, inside, here⟩ := found
      exact ⟨part, same.mem_iff.mp inside, here⟩
  · exact fun part inside => components.classes part (same.mem_iff.mpr inside)
  · exact fun part inside => components.inhabited part (same.mem_iff.mpr inside)
  · exact fun part inside => components.distinct part (same.mem_iff.mpr inside)
  · exact (same.pairwise_iff List.Disjoint.symm).mp components.apart

variable {part : List α}

theorem Components.unique (components : Components edge starts parts) {part' : List α}
    (inside : part ∈ parts) (inside' : part' ∈ parts) (here : a ∈ part) (here' : a ∈ part') :
    part = part' := by
  have alike : parts.Pairwise fun p q => p = q ∨ List.Disjoint p q :=
    components.apart.imp Or.inr
  have flipped : parts.Pairwise (flip fun p q => p = q ∨ List.Disjoint p q) :=
    components.apart.imp fun apart => Or.inr apart.symm
  have same : ∀ p ∈ parts, p = p ∨ List.Disjoint p p := fun _ _ => Or.inl rfl
  have either := List.Pairwise.forall_of_forall_of_flip same alike flipped inside inside'
  exact either.resolve_right fun apart => apart here here'

def Cyclic (edge : α → α → Prop) (part : List α) : Prop :=
  1 < part.length ∨ ∃ a ∈ part, edge a a

theorem cycle_in_class {some : α → α → Prop} (sub : ∀ x y, some x y → edge x y)
    (cycle : TransGen some a a) :
    TransGen (fun x y => some x y ∧ Mutual edge a x ∧ Mutual edge a y) a a := by
  have walk : ∀ b, TransGen some a b → ReflTransGen edge b a →
      TransGen (fun x y => some x y ∧ Mutual edge a x ∧ Mutual edge a y) a b := by
    intro b path back
    induction path with
    | single step =>
      exact .single ⟨step, Mutual.refl a, .single (sub _ _ step), back⟩
    | tail path step ih =>
      have there : ReflTransGen edge a _ := (TransGen.mono sub _ _ path).to_reflTransGen
      have home := ReflTransGen.head (sub _ _ step) back
      exact (ih home).tail ⟨step, ⟨there, home⟩, there.tail (sub _ _ step), back⟩
  exact walk a cycle .refl

theorem cycle_of_mutual {b : α} (both : Mutual edge a b) (different : a ≠ b) :
    TransGen edge a a := by
  rcases Relation.reflTransGen_iff_eq_or_transGen.mp both.1 with same | path
  · exact absurd same.symm different
  · exact path.trans_left both.2

section
variable (components : Components edge starts parts)
include components

theorem Components.cyclic_of_cycle
    (inside : part ∈ parts) (here : a ∈ part) (cycle : TransGen edge a a) : Cyclic edge part := by
  by_cases long : 1 < part.length
  · exact Or.inl long
  · have alone : ∀ x ∈ part, x = a := by
      intro x held
      match part, long, held, here with
      | [y], _, held, here =>
        rw [List.mem_singleton.mp held, List.mem_singleton.mp here]
      | _ :: _ :: _, long, _, _ => exact absurd (by simp) long
    have stays := cycle_in_class (fun _ _ step => step) cycle
    obtain ⟨b, step, _⟩ := TransGen.head'_iff.mp stays
    have target := (components.classes part inside a here b).mpr step.2.2
    rw [alone b target] at step
    exact Or.inr ⟨a, here, step.1⟩

theorem Components.cycle_of_cyclic
    (inside : part ∈ parts) (cyclic : Cyclic edge part) : ∃ a ∈ part, TransGen edge a a := by
  rcases cyclic with long | loop
  · match part, long, inside with
    | a :: b :: rest, _, inside =>
      have different : a ≠ b := by
        have distinct := components.distinct _ inside
        simp only [List.nodup_cons, List.mem_cons, not_or] at distinct
        exact distinct.1.1
      have both := (components.classes _ inside a List.mem_cons_self b).mp (by simp)
      exact ⟨a, List.mem_cons_self, cycle_of_mutual both different⟩
    | [], long, _ => exact absurd long (by simp)
    | [_], long, _ => exact absurd long (by simp)
  · obtain ⟨a, here, step⟩ := loop
    exact ⟨a, here, .single step⟩

/-- A graph whose edges start at reached vertices is acyclic if no part holds a cycle. -/
theorem Components.acyclic_iff
    (grounded : ∀ a b, edge a b → a ∈ starts) :
    Acyclic edge ↔ ∀ part ∈ parts, ¬ Cyclic edge part := by
  constructor
  · intro acyclic part inside cyclic
    obtain ⟨a, _, cycle⟩ := components.cycle_of_cyclic inside cyclic
    exact acyclic a cycle
  · intro clear a cycle
    obtain ⟨b, step, _⟩ := TransGen.head'_iff.mp cycle
    obtain ⟨part, inside, here⟩ := (components.covers a).mpr ⟨a, grounded a b step, .refl⟩
    exact clear part inside (components.cyclic_of_cycle inside here cycle)

end

end Digraph
