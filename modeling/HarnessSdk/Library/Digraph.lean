import Mathlib

/-! Finite directed graphs: acyclicity, topological orders, and worklist exploration. -/
namespace Digraph
variable {α : Type}

def Acyclic (edge : α → α → Prop) : Prop := ∀ a, ¬ Relation.TransGen edge a a

variable {edge : α → α → Prop}

theorem Acyclic.of_rank (rank : α → Nat) (ascends : ∀ a b, edge a b → rank a < rank b) :
    Acyclic edge := by
  have climbs : ∀ a b, Relation.TransGen edge a b → rank a < rank b := by
    intro a b path
    induction path with
    | single step => exact ascends a _ step
    | tail _ step ih => exact Nat.lt_trans ih (ascends _ _ step)
  intro a cycle
  exact Nat.lt_irrefl _ (climbs a a cycle)

theorem Acyclic.wellFounded (acyclic : Acyclic edge) (nodes : List α)
    (inside : ∀ a b, edge a b → b ∈ nodes) : WellFounded fun b a => edge a b := by
  let below : {a // a ∈ nodes} → {a // a ∈ nodes} → Prop := fun b a => Relation.TransGen edge a b
  have : Finite {a // a ∈ nodes} := nodes.finite_toSet
  have : IsTrans _ below := ⟨fun _ _ _ first second => second.trans first⟩
  have : Std.Irrefl below := ⟨fun a => acyclic a⟩
  have wf : WellFounded below := Finite.wellFounded_of_trans_of_irrefl below
  have accessible : ∀ a : {a // a ∈ nodes}, Acc (fun b a => edge a b) a.1 := by
    intro a
    induction a using wf.induction with
    | _ a ih =>
      constructor
      intro b step
      exact ih ⟨b, inside a.1 b step⟩ (.single step)
  constructor
  intro a
  constructor
  intro b step
  exact accessible ⟨b, inside a b step⟩

def Before [DecidableEq α] (order : List α) (a b : α) : Prop := order.idxOf a < order.idxOf b

structure Topological [DecidableEq α] (nodes : List α) (edge : α → α → Prop) (order : List α) :
    Prop where
  perm : order.Perm nodes
  ascending : ∀ a b, edge a b → Before order a b

theorem Topological.before [DecidableEq α] {nodes order : List α}
    (topological : Topological nodes edge order) {a b : α} (path : Relation.TransGen edge a b) :
    Before order a b := by
  induction path with
  | single step => exact topological.ascending a _ step
  | tail _ step ih => exact Nat.lt_trans ih (topological.ascending _ _ step)

section Exploration
variable [DecidableEq α] (known : α → Bool) (children : α → List α)

/-- Depth-first exploration with an explicit stack: a node is expanded on its first pop. -/
def explore : Nat → List α → List α → List α
  | 0, _, seen => seen
  | _ + 1, [], seen => seen
  | fuel + 1, a :: pending, seen =>
    if a ∈ seen ∨ known a = false then explore fuel pending seen
    else explore fuel ((children a).reverse ++ pending) (a :: seen)

def owed (seen : List α) (a : α) : Nat := if a ∈ seen then 0 else (children a).length

/-- One pop for each entry of the stack and for each child still to be pushed. -/
def work (nodes pending seen : List α) : Nat :=
  pending.length + (nodes.map (owed children seen)).sum

def Opens (a b : α) : Prop := b ∈ children a ∧ known b = true

/-- Reachable from a start that is known, through known nodes. -/
def Reached (starts : List α) (a : α) : Prop :=
  ∃ start ∈ starts, known start = true ∧ Relation.ReflTransGen (Opens known children) start a

section
variable {known children}

variable {starts : List α}

omit [DecidableEq α] in
theorem Reached.step {a b : α} (reached : Reached known children starts a)
    (opens : Opens known children a b) : Reached known children starts b := by
  obtain ⟨start, inside, hknown, path⟩ := reached
  exact ⟨start, inside, hknown, path.tail opens⟩

omit [DecidableEq α] in
theorem Reached.is_known {a : α} (reached : Reached known children starts a) : known a = true := by
  obtain ⟨start, _, hknown, path⟩ := reached
  cases path with
  | refl => exact hknown
  | tail _ opens => exact opens.2

end

theorem owed_expand_le (seen : List α) (a b : α) :
    owed children (a :: seen) b ≤ owed children seen b := by
  unfold owed
  by_cases here : b ∈ seen
  · simp [here]
  · by_cases same : b = a <;> simp [here, same]

theorem sum_owed_expand_le (nodes seen : List α) (a : α) :
    (nodes.map (owed children (a :: seen))).sum ≤ (nodes.map (owed children seen)).sum := by
  induction nodes with
  | nil => simp
  | cons b rest ih =>
    have head := owed_expand_le children seen a b
    simp only [List.map_cons, List.sum_cons]
    omega

variable {nodes seen : List α} {fuel : Nat}

theorem sum_owed_expand {a : α} (inside : a ∈ nodes) (fresh : a ∉ seen) :
    (nodes.map (owed children (a :: seen))).sum + (children a).length ≤
      (nodes.map (owed children seen)).sum := by
  induction nodes with
  | nil => simp at inside
  | cons b rest ih =>
    simp only [List.map_cons, List.sum_cons]
    by_cases same : b = a
    · subst same
      have tail := sum_owed_expand_le children rest seen b
      have paid : owed children (b :: seen) b = 0 := by simp [owed]
      have due : owed children seen b = (children b).length := by simp [owed, fresh]
      omega
    · have head := owed_expand_le children seen a b
      have tail := ih ((List.mem_cons.mp inside).resolve_left (Ne.symm same))
      omega

theorem work_expand {a : α} (pending : List α) (inside : a ∈ nodes) (fresh : a ∉ seen) :
    work children nodes ((children a).reverse ++ pending) (a :: seen) <
      work children nodes (a :: pending) seen := by
  have shrinks := sum_owed_expand children inside fresh
  simp only [work, List.length_append, List.length_reverse, List.length_cons]
  omega

variable {known children}

variable {pending : List α}

theorem explore_nodup (distinct : seen.Nodup) :
    (explore known children fuel pending seen).Nodup := by
  induction fuel, pending, seen using explore.induct known children with
  | case1 => simpa [explore] using distinct
  | case2 => simpa [explore] using distinct
  | case3 fuel a pending seen skip ih =>
    rw [explore, if_pos skip]
    exact ih distinct
  | case4 fuel a pending seen skip ih =>
    rw [explore, if_neg skip]
    exact ih (List.nodup_cons.mpr ⟨fun here => skip (Or.inl here), distinct⟩)

theorem explore_sound {starts : List α} (visited : ∀ a ∈ seen, Reached known children starts a)
    (waiting : ∀ a ∈ pending, known a = true → Reached known children starts a) :
    ∀ a ∈ explore known children fuel pending seen, Reached known children starts a := by
  induction fuel, pending, seen using explore.induct known children with
  | case1 => simpa [explore] using visited
  | case2 => simpa [explore] using visited
  | case3 fuel a pending seen skip ih =>
    rw [explore, if_pos skip]
    exact ih visited fun b hb => waiting b (List.mem_cons_of_mem a hb)
  | case4 fuel a pending seen skip ih =>
    rw [explore, if_neg skip]
    simp only [not_or, Bool.not_eq_false] at skip
    have here : Reached known children starts a := waiting a List.mem_cons_self skip.2
    apply ih
    · intro b hb
      rcases List.mem_cons.mp hb with rfl | hb
      · exact here
      · exact visited b hb
    · intro b hb hknown
      rcases List.mem_append.mp hb with child | hb
      · exact here.step ⟨List.mem_reverse.mp child, hknown⟩
      · exact waiting b (List.mem_cons_of_mem a hb) hknown

/-- With fuel for all the work left, the result holds what was seen and what was waiting, and is
closed under opening. -/
theorem explore_closed (finite : ∀ a, known a = true → a ∈ nodes)
    (enough : work children nodes pending seen ≤ fuel)
    (frontier : ∀ a ∈ seen, ∀ b, Opens known children a b → b ∈ seen ∨ b ∈ pending) :
    (∀ a ∈ seen, a ∈ explore known children fuel pending seen) ∧
    (∀ a ∈ pending, known a = true → a ∈ explore known children fuel pending seen) ∧
    ∀ a ∈ explore known children fuel pending seen, ∀ b, Opens known children a b →
      b ∈ explore known children fuel pending seen := by
  induction fuel, pending, seen using explore.induct known children with
  | case1 pending seen =>
    have drained : pending = [] := by
      apply List.eq_nil_of_length_eq_zero
      unfold work at enough
      omega
    subst drained
    simpa [explore] using frontier
  | case2 fuel seen => simpa [explore] using frontier
  | case3 fuel a pending seen skip ih =>
    rw [explore, if_pos skip]
    have budget : work children nodes pending seen ≤ fuel := by
      simp only [work, List.length_cons] at enough ⊢
      omega
    have settled : ∀ b ∈ seen, ∀ c, Opens known children b c → c ∈ seen ∨ c ∈ pending := by
      intro b hb c opens
      rcases frontier b hb c opens with seenC | waiting
      · exact Or.inl seenC
      · rcases List.mem_cons.mp waiting with rfl | waiting
        · rcases skip with here | unknown
          · exact Or.inl here
          · exact absurd (opens.2.symm.trans unknown) (by decide)
        · exact Or.inr waiting
    obtain ⟨kept, done, closed⟩ := ih budget settled
    refine ⟨kept, ?_, closed⟩
    intro b hb hknown
    rcases List.mem_cons.mp hb with rfl | hb
    · rcases skip with here | unknown
      · exact kept b here
      · exact absurd (hknown.symm.trans unknown) (by decide)
    · exact done b hb hknown
  | case4 fuel a pending seen skip ih =>
    rw [explore, if_neg skip]
    simp only [not_or, Bool.not_eq_false] at skip
    have budget : work children nodes ((children a).reverse ++ pending) (a :: seen) ≤ fuel := by
      have spent := work_expand children pending (finite a skip.2) skip.1
      omega
    have settled : ∀ b ∈ a :: seen, ∀ c, Opens known children b c →
        c ∈ a :: seen ∨ c ∈ (children a).reverse ++ pending := by
      intro b hb c opens
      rcases List.mem_cons.mp hb with rfl | hb
      · exact Or.inr (List.mem_append_left _ (List.mem_reverse.mpr opens.1))
      · rcases frontier b hb c opens with seenC | waiting
        · exact Or.inl (List.mem_cons_of_mem a seenC)
        · rcases List.mem_cons.mp waiting with rfl | waiting
          · exact Or.inl List.mem_cons_self
          · exact Or.inr (List.mem_append_right _ waiting)
    obtain ⟨kept, done, closed⟩ := ih budget settled
    refine ⟨fun b hb => kept b (List.mem_cons_of_mem a hb), ?_, closed⟩
    intro b hb hknown
    rcases List.mem_cons.mp hb with rfl | hb
    · exact kept b List.mem_cons_self
    · exact done b (List.mem_append_right _ hb) hknown

theorem mem_explore_iff {nodes starts : List α} {fuel : Nat}
    (finite : ∀ a, known a = true → a ∈ nodes) (enough : work children nodes starts [] ≤ fuel)
    (a : α) :
    a ∈ explore known children fuel starts [] ↔ Reached known children starts a := by
  constructor
  · apply explore_sound
    · simp
    · intro b hb hknown
      exact ⟨b, hb, hknown, .refl⟩
  · rintro ⟨start, inside, hknown, path⟩
    obtain ⟨_, done, closed⟩ := explore_closed finite enough (by simp)
    induction path with
    | refl => exact done start inside hknown
    | tail _ opens ih => exact closed _ ih _ opens

end Exploration
end Digraph
