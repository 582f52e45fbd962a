import HarnessSdk.Library.Components
import HarnessSdk.Workflow.Definition

/-! `_strongly_connected_components` finds the classes of mutual reachability. -/
namespace Workflow
open PyDict PyText Digraph Relation

def Adjacency.Edge (adjacency : Adjacency) (a b : String) : Prop := b ∈ adjacency.targets a

namespace Tarjan

def Seen (s : Tarjan) (v : String) : Prop := (get? s.indices v).isSome

def num (s : Tarjan) (v : String) : Nat := (get? s.indices v).getD 0

variable {s : Tarjan} {v : String}

theorem not_seen_iff : ¬ s.Seen v ↔ get? s.indices v = none := by
  rw [Seen, Option.isSome_iff_ne_none, not_not]

theorem isNone_iff : (get? s.indices v).isNone = true ↔ ¬ s.Seen v := by
  rw [not_seen_iff, Option.isNone_iff_eq_none]

theorem index_of_seen (seen : s.Seen v) : get? s.indices v = some (s.num v) := by
  obtain ⟨n, found⟩ := Option.isSome_iff_exists.mp seen
  rw [num, found]
  rfl

/-- The invariant of the search. `path` are the vertices whose visit has not ended: each reaches
whatever lies above it on the stack, and whatever is on the stack reaches one of them below it. -/
structure Sound (edge : String → String → Prop) (path : List String) (s : Tarjan) : Prop where
  below : ∀ v, s.Seen v → s.num v < s.index
  descending : s.stack.Pairwise fun a b => s.num b < s.num a
  seen : ∀ v, s.Seen v ↔ v ∈ s.stack ∨ ∃ part ∈ s.result, v ∈ part
  settled : ∀ part ∈ s.result, ∀ v ∈ part, v ∉ s.stack
  open_path : ∀ g ∈ path, g ∈ s.stack
  followed : ∀ v, s.Seen v → v ∉ path → ∀ w, edge v w → s.Seen w
  up : ∀ g ∈ path, ∀ v ∈ s.stack, s.num g ≤ s.num v → ReflTransGen edge g v
  down : ∀ v ∈ s.stack, ∃ g ∈ path, s.num g ≤ s.num v ∧ ReflTransGen edge v g
  classes : ∀ part ∈ s.result, ∀ a ∈ part, ∀ b, b ∈ part ↔ Mutual edge a b
  closed : ∀ part ∈ s.result, ∀ a ∈ part, ∀ b, edge a b → ∃ part' ∈ s.result, b ∈ part'
  inhabited : ∀ part ∈ s.result, part ≠ []
  distinct : ∀ part ∈ s.result, part.Nodup
  apart : s.result.Pairwise List.Disjoint

/-- What a visit of `node` leaves alone, and what it adds to the stack. -/
structure Grows (edge : String → String → Prop) (node : String) (s t : Tarjan)
    (added : List String) : Prop where
  kept : ∀ v, s.Seen v → t.Seen v ∧ t.num v = s.num v
  lowlinks : ∀ v, s.Seen v → get? t.lowlinks v = get? s.lowlinks v
  stack : t.stack = added ++ s.stack
  fresh : ∀ v ∈ added, ¬ s.Seen v
  later : ∀ v, t.Seen v → s.Seen v ∨ s.index ≤ t.num v ∧ ReflTransGen edge node v
  index : s.index ≤ t.index

section
variable {edge : String → String → Prop} {path : List String} {node : String} {s t : Tarjan}

variable {v : String}

theorem Sound.seen_stack (sound : Sound edge path s) (inside : v ∈ s.stack) : s.Seen v :=
  (sound.seen v).mpr (Or.inl inside)

theorem Sound.stack_nodup (sound : Sound edge path s) : s.stack.Nodup :=
  sound.descending.imp fun less same => by
    subst same
    exact Nat.lt_irrefl _ less

theorem Grows.trans {u : Tarjan} {target : String} {first later : List String}
    (here : Grows edge node s t first) (there : Grows edge target t u later)
    (reaches : ReflTransGen edge node target) : Grows edge node s u (later ++ first) := by
  constructor
  · intro v seen
    obtain ⟨between, same⟩ := here.kept v seen
    obtain ⟨after, same'⟩ := there.kept v between
    exact ⟨after, same'.trans same⟩
  · intro v seen
    exact (there.lowlinks v (here.kept v seen).1).trans (here.lowlinks v seen)
  · rw [there.stack, here.stack, List.append_assoc]
  · intro v inside old
    rcases List.mem_append.mp inside with new | before
    · exact there.fresh v new (here.kept v old).1
    · exact here.fresh v before old
  · intro v seen
    rcases there.later v seen with before | new
    · rcases here.later v before with old | new
      · exact Or.inl old
      · rw [(there.kept v before).2]
        exact Or.inr new
    · exact Or.inr ⟨Nat.le_trans here.index new.1, reaches.trans new.2⟩
  · exact Nat.le_trans here.index there.index

/-! Changing a low link. -/

theorem Sound.lower (sound : Sound edge path s) (bound : Option Nat) :
    Sound edge path (s.lower node bound) :=
  ⟨sound.below, sound.descending, sound.seen, sound.settled, sound.open_path, sound.followed,
    sound.up, sound.down, sound.classes, sound.closed, sound.inhabited, sound.distinct, sound.apart⟩

theorem Grows.lower {start : String} {added : List String} (grows : Grows edge start s t added)
    (fresh : ¬ s.Seen node) (bound : Option Nat) :
    Grows edge start s (t.lower node bound) added := by
  refine ⟨grows.kept, ?_, grows.stack, grows.fresh, grows.later, grows.index⟩
  intro v seen
  have other : node ≠ v := by
    intro same
    subst same
    exact fresh seen
  rw [Tarjan.lower, get?_set_ne _ _ other]
  exact grows.lowlinks v seen

theorem lower_lowlinks {low bound : Nat} (own : get? s.lowlinks node = some low) :
    get? (s.lower node (some bound)).lowlinks node = some (min low bound) := by
  rw [Tarjan.lower, get?_set_self, own]
  rfl

/-! Pushing a vertex. -/

theorem push_seen : (s.push node).Seen v ↔ v = node ∨ s.Seen v := by
  rw [Seen, Tarjan.push, get?_set]
  by_cases same : node = v
  · simp [same]
  · simp [same, Ne.symm same, Seen]

theorem push_num : (s.push node).num node = s.index := by
  rw [num, Tarjan.push, get?_set_self]
  rfl

theorem push_num_seen (fresh : ¬ s.Seen node) (seen : s.Seen v) :
    (s.push node).num v = s.num v := by
  have other : node ≠ v := by
    intro same
    subst same
    exact fresh seen
  rw [num, Tarjan.push, get?_set_ne _ _ other]
  rfl

theorem Sound.push (sound : Sound edge path s) (fresh : ¬ s.Seen node)
    (reached : ∀ g ∈ path, ReflTransGen edge g node) :
    Sound edge (node :: path) (s.push node) := by
  have same : ∀ v, s.Seen v → (s.push node).num v = s.num v := fun v => push_num_seen fresh
  have under : ∀ v ∈ s.stack, (s.push node).num v < s.index := by
    intro v inside
    rw [same v (sound.seen_stack inside)]
    exact sound.below v (sound.seen_stack inside)
  refine ⟨?_, ?_, ?_, ?_, ?_, ?_, ?_, ?_, sound.classes, sound.closed, sound.inhabited,
    sound.distinct, sound.apart⟩
  · intro v seen
    change _ < s.index + 1
    rcases push_seen.mp seen with rfl | old
    · rw [push_num]
      omega
    · have bound := sound.below v old
      rw [same v old]
      omega
  · refine List.pairwise_cons.mpr ⟨?_, ?_⟩
    · intro v inside
      rw [push_num]
      exact under v inside
    · apply sound.descending.imp_of_mem
      intro a b first second less
      rwa [same a (sound.seen_stack first), same b (sound.seen_stack second)]
  · intro v
    rw [push_seen, sound.seen]
    exact (or_assoc.trans Iff.rfl).symm.trans (by
      rw [Tarjan.push]
      simp only [List.mem_cons])
  · intro part inside v here onto
    rcases List.mem_cons.mp onto with rfl | old
    · exact fresh ((sound.seen v).mpr (Or.inr ⟨part, inside, here⟩))
    · exact sound.settled part inside v here old
  · intro g onpath
    rcases List.mem_cons.mp onpath with rfl | old
    · exact List.mem_cons_self
    · exact List.mem_cons_of_mem _ (sound.open_path g old)
  · intro v seen offpath w step
    rw [List.mem_cons, not_or] at offpath
    have old := (push_seen.mp seen).resolve_left offpath.1
    exact push_seen.mpr (Or.inr (sound.followed v old offpath.2 w step))
  · intro g onpath v inside less
    rcases List.mem_cons.mp inside with rfl | below
    · rcases List.mem_cons.mp onpath with rfl | old
      · exact .refl
      · exact reached g old
    · rcases List.mem_cons.mp onpath with rfl | old
      · have bound := under v below
        rw [push_num] at less
        omega
      · rw [same g (sound.seen_stack (sound.open_path g old)), same v (sound.seen_stack below)]
          at less
        exact sound.up g old v below less
  · intro v inside
    rcases List.mem_cons.mp inside with rfl | below
    · exact ⟨v, List.mem_cons_self, Nat.le_refl _, .refl⟩
    · obtain ⟨g, onpath, less, reach⟩ := sound.down v below
      refine ⟨g, List.mem_cons_of_mem _ onpath, ?_, reach⟩
      rwa [same g (sound.seen_stack (sound.open_path g onpath)), same v (sound.seen_stack below)]

theorem grows_push (fresh : ¬ s.Seen node) : Grows edge node s (s.push node) [node] := by
  refine ⟨?_, ?_, rfl, ?_, ?_, Nat.le_succ _⟩
  · intro v seen
    exact ⟨push_seen.mpr (Or.inr seen), push_num_seen fresh seen⟩
  · intro v seen
    have other : node ≠ v := by
      intro same
      subst same
      exact fresh seen
    rw [Tarjan.push, get?_set_ne _ _ other]
  · intro v inside
    rw [List.mem_singleton.mp inside]
    exact fresh
  · intro v seen
    rcases push_seen.mp seen with rfl | old
    · rw [push_num]
      exact Or.inr ⟨Nat.le_refl _, .refl⟩
    · exact Or.inl old

/-! One visit. `new` lies above `node` on the stack. -/

/-- The loop over the targets of `node`, entered in `s`: the low link is the number of a vertex
that `node` reaches, and no edge from above or from a target in `looked` goes below it. -/
structure Turn (edge : String → String → Prop) (path : List String) (node : String)
    (s t : Tarjan) (looked new : List String) (low : Nat) : Prop where
  sound : Sound edge (node :: path) t
  grows : Grows edge node s t (new ++ [node])
  own : get? t.lowlinks node = some low
  number : t.num node = s.index
  bound : low ≤ s.index
  reaches : ∃ y ∈ node :: s.stack, t.num y = low ∧ ReflTransGen edge node y
  above : ∀ u ∈ new, ∀ w ∈ s.stack, edge u w → low ≤ t.num w
  targets : ∀ w ∈ looked, t.Seen w ∧ (w ∈ s.stack → low ≤ t.num w)

/-- A visit that has ended: the vertex was popped with its component, or it stays on the stack
for a vertex below it that it reaches. -/
structure Visited (edge : String → String → Prop) (path : List String) (node : String)
    (s t : Tarjan) (new : List String) (low : Nat) : Prop where
  sound : Sound edge path t
  grows : Grows edge node s t new
  known : t.Seen node
  own : get? t.lowlinks node = some low
  reaches : (new = [] ∧ s.index ≤ low) ∨ ∃ y ∈ s.stack, t.num y = low ∧ ReflTransGen edge node y
  above : ∀ u ∈ new, ∀ w ∈ s.stack, edge u w → low ≤ t.num w

theorem Turn.start (sound : Sound edge path s) (fresh : ¬ s.Seen node)
    (reached : ∀ g ∈ path, ReflTransGen edge g node) :
    Turn edge path node s (s.push node) [] [] s.index := by
  refine ⟨sound.push fresh reached, grows_push fresh, ?_, push_num, Nat.le_refl _, ?_, nofun,
    nofun⟩
  · rw [Tarjan.push, get?_set_self]
  · exact ⟨node, List.mem_cons_self, push_num, .refl⟩

section
variable {looked new : List String} {low : Nat}

theorem Turn.on_stack (turn : Turn edge path node s t looked new low) :
    t.stack = new ++ node :: s.stack := by
  rw [turn.grows.stack, List.append_assoc]
  rfl

theorem Turn.node_mem (turn : Turn edge path node s t looked new low) : node ∈ t.stack := by
  rw [turn.on_stack]
  simp

variable {u w : String}

section
variable (turn : Turn edge path node s t looked new low)
include turn

theorem Turn.above_node (inside : u ∈ new) :
    s.index < t.num u := by
  have order := turn.sound.descending
  rw [turn.on_stack, List.pairwise_append] at order
  rw [← turn.number]
  exact order.2.2 u inside node List.mem_cons_self

theorem Turn.below_node (inside : w ∈ s.stack) :
    t.num w < s.index := by
  have order := turn.sound.descending
  rw [turn.on_stack, List.pairwise_append, List.pairwise_cons] at order
  rw [← turn.number]
  exact order.2.1.1 w inside

theorem Turn.mem_old {y : String}
    (inside : y ∈ t.stack) (less : t.num y < s.index) : y ∈ s.stack := by
  rw [turn.on_stack] at inside
  rcases List.mem_append.mp inside with over_node | rest
  · have bound := turn.above_node over_node
    omega
  · rcases List.mem_cons.mp rest with rfl | old
    · have number := turn.number
      omega
    · exact old

theorem Turn.skip (seen : t.Seen w)
    (off : w ∉ t.stack) : Turn edge path node s t (looked ++ [w]) new low := by
  refine { turn with targets := ?_ }
  intro v inside
  rcases mem_snoc.mp inside with before | rfl
  · exact turn.targets v before
  · refine ⟨seen, ?_⟩
    intro old
    refine absurd ?_ off
    rw [turn.grows.stack]
    exact List.mem_append_right _ old

theorem Turn.back (fresh : ¬ s.Seen node)
    (step : edge node w) (onto : w ∈ t.stack) :
    Turn edge path node s (t.lower node (get? t.indices w)) (looked ++ [w]) new
      (min low (t.num w)) := by
  have seen := turn.sound.seen_stack onto
  refine ⟨turn.sound.lower _, turn.grows.lower fresh _, ?_, turn.number, ?_, ?_, ?_, ?_⟩
  · rw [index_of_seen seen]
    exact lower_lowlinks turn.own
  · have bound := turn.bound
    omega
  · by_cases less : t.num w < low
    · have bound := turn.bound
      refine ⟨w, List.mem_cons_of_mem _ (turn.mem_old onto (by omega)), ?_, .single step⟩
      exact (Nat.min_eq_right (Nat.le_of_lt less)).symm
    · obtain ⟨y, inside, same, reach⟩ := turn.reaches
      refine ⟨y, inside, ?_, reach⟩
      exact same.trans (Nat.min_eq_left (Nat.le_of_not_lt less)).symm
  · intro u inside v old there
    exact Nat.le_trans (Nat.min_le_left ..) (turn.above u inside v old there)
  · intro v inside
    rcases mem_snoc.mp inside with before | rfl
    · obtain ⟨known, least⟩ := turn.targets v before
      exact ⟨known, fun old => Nat.le_trans (Nat.min_le_left ..) (least old)⟩
    · exact ⟨seen, fun _ => Nat.min_le_right ..⟩

theorem Turn.keeps_stack : ∀ v ∈ s.stack, v ∈ t.stack := by
  intro v inside
  rw [turn.grows.stack]
  exact List.mem_append_right _ inside

theorem Turn.descend (fresh : ¬ s.Seen node)
    (step : edge node w) (unseen : ¬ t.Seen w) {u : Tarjan} {more : List String} {lowest : Nat}
    (visited : Visited edge (node :: path) w t u more lowest) :
    Turn edge path node s (u.lower node (get? u.lowlinks w)) (looked ++ [w]) (more ++ new)
      (min low lowest) := by
  have seen := turn.sound.seen_stack turn.node_mem
  obtain ⟨kept, same⟩ := visited.grows.kept node seen
  have numbers : ∀ v ∈ t.stack, u.num v = t.num v :=
    fun v inside => (visited.grows.kept v (turn.sound.seen_stack inside)).2
  have below := turn.keeps_stack
  have grows := turn.grows.trans visited.grows (.single step)
  rw [← List.append_assoc] at grows
  refine ⟨visited.sound.lower _, grows.lower fresh _, ?_, same.trans turn.number, ?_, ?_, ?_, ?_⟩
  · rw [visited.own]
    exact lower_lowlinks ((visited.grows.lowlinks node seen).trans turn.own)
  · have bound := turn.bound
    omega
  · by_cases less : lowest < low
    · have bound := turn.bound
      rcases visited.reaches with popped | stays
      · have order := turn.sound.below node seen
        have number := turn.number
        omega
      · obtain ⟨y, inside, found, reach⟩ := stays
        have number := numbers y inside
        refine ⟨y, List.mem_cons_of_mem _ (turn.mem_old inside (by omega)), ?_, reach.head step⟩
        exact found.trans (Nat.min_eq_right (Nat.le_of_lt less)).symm
    · obtain ⟨y, inside, found, reach⟩ := turn.reaches
      refine ⟨y, inside, ?_, reach⟩
      have onto : y ∈ t.stack := by
        rcases List.mem_cons.mp inside with rfl | old
        · exact turn.node_mem
        · exact below y old
      exact ((numbers y onto).trans found).trans (Nat.min_eq_left (Nat.le_of_not_lt less)).symm
  · intro v inside x old there
    rcases List.mem_append.mp inside with recent | before
    · exact Nat.le_trans (Nat.min_le_right ..) (visited.above v recent x (below x old) there)
    · have least := turn.above v before x old there
      change min low lowest ≤ u.num x
      rw [numbers x (below x old)]
      omega
  · intro v inside
    rcases mem_snoc.mp inside with before | rfl
    · obtain ⟨known, least⟩ := turn.targets v before
      refine ⟨(visited.grows.kept v known).1, ?_⟩
      intro old
      have bound := least old
      change min low lowest ≤ u.num v
      rw [numbers v (below v old)]
      omega
    · refine ⟨visited.known, ?_⟩
      intro old
      exact absurd (turn.sound.seen_stack (below w old)) unseen

theorem Turn.stay
    (all : ∀ w, edge node w → w ∈ looked) (less : low < s.index) :
    Visited edge path node s t (new ++ [node]) low := by
  have old_reach : ∃ y ∈ s.stack, t.num y = low ∧ ReflTransGen edge node y := by
    obtain ⟨y, inside, found, reach⟩ := turn.reaches
    rcases List.mem_cons.mp inside with rfl | old
    · have number := turn.number
      omega
    · exact ⟨y, old, found, reach⟩
  have below := turn.keeps_stack
  refine ⟨?_, turn.grows, turn.sound.seen_stack turn.node_mem, turn.own, Or.inr old_reach, ?_⟩
  · refine { turn.sound with open_path := ?_, followed := ?_, up := ?_, down := ?_ }
    · exact fun g onpath => turn.sound.open_path g (List.mem_cons_of_mem _ onpath)
    · intro v seen offpath w step
      by_cases same : v = node
      · subst same
        exact (turn.targets w (all w step)).1
      · refine turn.sound.followed v seen ?_ w step
        simp [same, offpath]
    · exact fun g onpath => turn.sound.up g (List.mem_cons_of_mem _ onpath)
    · intro v inside
      obtain ⟨g, onpath, order, reach⟩ := turn.sound.down v inside
      rcases List.mem_cons.mp onpath with rfl | old
      · obtain ⟨y, before, found, further⟩ := old_reach
        obtain ⟨g', onpath', order', reach'⟩ := turn.sound.down y (below y before)
        have number := turn.number
        refine ⟨g', ?_, by omega, (reach.trans further).trans reach'⟩
        rcases List.mem_cons.mp onpath' with rfl | old'
        · omega
        · exact old'
      · exact ⟨g, old, order, reach⟩
  · intro u inside w before step
    rcases mem_snoc.mp inside with recent | rfl
    · exact turn.above u recent w before step
    · exact (turn.targets w (all w step)).2 before

theorem Turn.pop_eq :
    t.pop node = { t with stack := s.stack, result := t.result ++ [new ++ [node]] } := by
  have absent : ∀ u ∈ new, (decide (u ≠ node)) = true := by
    intro u inside
    have order := turn.above_node inside
    have number := turn.number
    rw [decide_eq_true_eq]
    intro same
    subst same
    omega
  have top : t.stack.takeWhile (fun v => decide (v ≠ node)) = new := by
    rw [turn.on_stack, List.takeWhile_append_of_pos absent]
    simp
  have rest : t.stack.drop (new.length + 1) = s.stack := by
    rw [turn.on_stack, ← List.drop_drop, List.drop_left]
    rfl
  unfold Tarjan.pop
  dsimp only
  rw [top, rest]

theorem Turn.mutual
    (reached : ∀ g ∈ path, ReflTransGen edge g node) (inside : u ∈ new ++ [node]) :
    Mutual edge node u := by
  rcases mem_snoc.mp inside with recent | rfl
  · have onto : u ∈ t.stack := by
      rw [turn.on_stack]
      exact List.mem_append_left _ recent
    have order := turn.above_node recent
    have number := turn.number
    refine ⟨turn.sound.up node List.mem_cons_self u onto (by omega), ?_⟩
    obtain ⟨g, onpath, _, reach⟩ := turn.sound.down u onto
    rcases List.mem_cons.mp onpath with rfl | old
    · exact reach
    · exact reach.trans (reached g old)
  · exact Mutual.refl node

theorem Turn.leaves (sound : Sound edge path s)
    (fresh : ¬ s.Seen node) (all : ∀ w, edge node w → w ∈ looked) (whole : s.index ≤ low)
    (inside : u ∈ new ++ [node]) (step : edge u w) :
    w ∈ new ++ [node] ∨ ∃ part ∈ t.result, w ∈ part := by
  have seen : t.Seen w := by
    rcases mem_snoc.mp inside with recent | rfl
    · have onto : u ∈ t.stack := by
        rw [turn.on_stack]
        exact List.mem_append_left _ recent
      refine turn.sound.followed u (turn.sound.seen_stack onto) ?_ w step
      intro onpath
      rcases List.mem_cons.mp onpath with rfl | old
      · have order := turn.above_node recent
        have number := turn.number
        omega
      · exact turn.grows.fresh u inside (sound.seen_stack (sound.open_path u old))
    · exact (turn.targets w (all w step)).1
  rcases (turn.sound.seen w).mp seen with onto | finished
  · rw [turn.grows.stack] at onto
    rcases List.mem_append.mp onto with recent | before
    · exact Or.inl recent
    · have least : low ≤ t.num w := by
        rcases mem_snoc.mp inside with recent | rfl
        · exact turn.above u recent w before step
        · exact (turn.targets w (all w step)).2 before
      have order := turn.below_node before
      omega
  · exact Or.inr finished

theorem Turn.finish (sound : Sound edge path s)
    (fresh : ¬ s.Seen node) (reached : ∀ g ∈ path, ReflTransGen edge g node)
    (all : ∀ w, edge node w → w ∈ looked) (whole : s.index ≤ low) :
    Visited edge path node s (t.pop node) [] low := by
  have below := turn.keeps_stack
  have onto : ∀ u ∈ new ++ [node], u ∈ t.stack := by
    intro u inside
    rw [turn.grows.stack]
    exact List.mem_append_left _ inside
  have stay : ∀ a ∈ new ++ [node], ∀ b, ReflTransGen edge a b →
      b ∈ new ++ [node] ∨ ∃ part ∈ t.result, b ∈ part := by
    intro a inside b reach
    induction reach with
    | refl => exact Or.inl inside
    | tail _ step ih =>
      rcases ih with here | finished
      · exact turn.leaves sound fresh all whole here step
      · obtain ⟨part, done, here⟩ := finished
        exact Or.inr (turn.sound.closed part done _ here _ step)
  have one_class : ∀ a ∈ new ++ [node], ∀ b, b ∈ new ++ [node] ↔ Mutual edge a b := by
    intro a inside b
    have own := turn.mutual reached inside
    constructor
    · intro other
      exact own.symm.trans (turn.mutual reached other)
    · intro both
      rcases stay a inside b both.1 with here | finished
      · exact here
      · obtain ⟨part, done, here⟩ := finished
        have old := (turn.sound.classes part done b here a).mpr both.symm
        exact absurd (onto a inside) (turn.sound.settled part done a old)
  rw [turn.pop_eq]
  refine ⟨?_, ?_, turn.sound.seen_stack turn.node_mem, turn.own, Or.inl ⟨rfl, whole⟩, nofun⟩
  · refine ⟨turn.sound.below, ?_, ?_, ?_, ?_, ?_, ?_, ?_, ?_, ?_, ?_, ?_, ?_⟩
    · have order := turn.sound.descending
      rw [turn.grows.stack, List.pairwise_append] at order
      exact order.2.1
    · intro v
      refine (turn.sound.seen v).trans ?_
      rw [turn.grows.stack, List.mem_append]
      simp only [List.mem_append, List.mem_singleton, or_and_right, exists_or, exists_eq_left]
      generalize (∃ part ∈ t.result, v ∈ part) = finished
      tauto
    · intro part inside v here old
      rcases mem_snoc.mp inside with before | rfl
      · exact turn.sound.settled part before v here (below v old)
      · exact turn.grows.fresh v here (sound.seen_stack old)
    · exact sound.open_path
    · intro v seen offpath w step
      by_cases same : v = node
      · subst same
        exact (turn.targets w (all w step)).1
      · refine turn.sound.followed v seen ?_ w step
        simp [same, offpath]
    · exact fun g onpath v old => turn.sound.up g (List.mem_cons_of_mem _ onpath) v (below v old)
    · intro v old
      obtain ⟨g, onpath, order, reach⟩ := turn.sound.down v (below v old)
      rcases List.mem_cons.mp onpath with rfl | older
      · have less := turn.below_node old
        have number := turn.number
        omega
      · exact ⟨g, older, order, reach⟩
    · intro part inside
      rcases mem_snoc.mp inside with before | rfl
      · exact turn.sound.classes part before
      · exact one_class
    · intro part inside a here b step
      rcases mem_snoc.mp inside with before | rfl
      · obtain ⟨part', done, there⟩ := turn.sound.closed part before a here b step
        exact ⟨part', List.mem_append_left _ done, there⟩
      · rcases turn.leaves sound fresh all whole here step with own | finished
        · exact ⟨_, List.mem_append_right _ List.mem_cons_self, own⟩
        · obtain ⟨part', done, there⟩ := finished
          exact ⟨part', List.mem_append_left _ done, there⟩
    · intro part inside
      rcases mem_snoc.mp inside with before | rfl
      · exact turn.sound.inhabited part before
      · simp
    · intro part inside
      rcases mem_snoc.mp inside with before | rfl
      · exact turn.sound.distinct part before
      · have order := turn.sound.stack_nodup
        rw [turn.grows.stack] at order
        exact (List.nodup_append.mp order).1
    · rw [List.pairwise_append]
      refine ⟨turn.sound.apart, List.pairwise_singleton .., ?_⟩
      intro part before last inside v here there
      rw [List.mem_singleton.mp inside] at there
      exact turn.sound.settled part before v here (onto v there)
  · exact ⟨turn.grows.kept, turn.grows.lowlinks, rfl, nofun, turn.grows.later, turn.grows.index⟩

end

end

end

/-! The search. -/

def look (adjacency : Adjacency) (fuel : Nat) (node : String) (s : Tarjan) (target : String) :
    Tarjan :=
  if get? s.indices target = none then
    let s := visit adjacency fuel target s
    s.lower node (get? s.lowlinks target)
  else if target ∈ s.stack then s.lower node (get? s.indices target)
  else s

theorem visit_succ (adjacency : Adjacency) (fuel : Nat) (node : String) (s : Tarjan) :
    visit adjacency (fuel + 1) node s =
      let t := (sorted (adjacency.targets node)).foldl (look adjacency fuel node) (s.push node)
      if get? t.lowlinks node ≠ get? t.indices node then t else t.pop node := rfl

/-- The vertices that were not seen yet; each visit sees one more. -/
def unseen (vertices : List String) (s : Tarjan) : Nat :=
  vertices.countP fun v => (get? s.indices v).isNone

theorem unseen_mono {vertices : List String} {s t : Tarjan} (kept : ∀ v, s.Seen v → t.Seen v) :
    unseen vertices t ≤ unseen vertices s := by
  apply List.countP_mono_left
  intro v _ absent
  rw [isNone_iff] at absent ⊢
  exact fun old => absent (kept v old)

theorem unseen_lt {vertices : List String} {t : Tarjan} (kept : ∀ v, s.Seen v → t.Seen v)
    (inside : v ∈ vertices) (fresh : ¬ s.Seen v) (seen : t.Seen v) :
    unseen vertices t < unseen vertices s := by
  induction vertices with
  | nil => cases inside
  | cons w rest ih =>
    have tail : unseen rest t ≤ unseen rest s := unseen_mono kept
    unfold unseen at ih tail ⊢
    rw [List.countP_cons, List.countP_cons]
    by_cases same : w = v
    · subst same
      simp only [isNone_iff, seen, fresh, not_true_eq_false, not_false_eq_true, if_true, if_false]
      omega
    · have less := ih ((List.mem_cons.mp inside).resolve_left (Ne.symm same))
      by_cases old : s.Seen w
      · have still := kept w old
        simp only [isNone_iff, still, old, not_true_eq_false, if_false]
        omega
      · simp only [isNone_iff, old, not_false_eq_true, if_true]
        split <;> omega

section
variable {adjacency : Adjacency} {vertices : List String}

/-- With this fuel, a visit does what it should wherever it may start. -/
def Visits (adjacency : Adjacency) (vertices : List String) (fuel : Nat) : Prop :=
  ∀ (path : List String) (node : String) (s : Tarjan), Sound adjacency.Edge path s →
    ¬ s.Seen node → (∀ g ∈ path, ReflTransGen adjacency.Edge g node) → node ∈ vertices →
    unseen vertices s ≤ fuel →
    ∃ new low, Visited adjacency.Edge path node s (visit adjacency fuel node s) new low

variable {path looked new : List String} {s t : Tarjan} {low : Nat}

theorem Turn.seen_of_push {node : String}
    (turn : Turn adjacency.Edge path node s t looked new low) :
    ∀ v, (s.push node).Seen v → t.Seen v := by
  intro v seen
  rcases push_seen.mp seen with rfl | old
  · exact turn.sound.seen_stack turn.node_mem
  · exact (turn.grows.kept v old).1

theorem look_turn {fuel : Nat} (visits : Visits adjacency vertices fuel) {node w : String}
    (turn : Turn adjacency.Edge path node s t looked new low) (fresh : ¬ s.Seen node)
    (reached : ∀ g ∈ path, ReflTransGen adjacency.Edge g node) (step : adjacency.Edge node w)
    (inside : w ∈ vertices) (enough : unseen vertices t ≤ fuel) :
    ∃ new' low', Turn adjacency.Edge path node s (look adjacency fuel node t w) (looked ++ [w])
      new' low' := by
  unfold look
  by_cases unseen : get? t.indices w = none
  · rw [if_pos unseen]
    have reaches : ∀ g ∈ node :: path, ReflTransGen adjacency.Edge g w := by
      intro g onpath
      rcases List.mem_cons.mp onpath with rfl | old
      · exact .single step
      · exact (reached g old).tail step
    obtain ⟨more, lowest, visited⟩ :=
      visits (node :: path) w t turn.sound (not_seen_iff.mpr unseen) reaches inside enough
    exact ⟨_, _, turn.descend fresh step (not_seen_iff.mpr unseen) visited⟩
  · rw [if_neg unseen]
    by_cases onto : w ∈ t.stack
    · rw [if_pos onto]
      exact ⟨_, _, turn.back fresh step onto⟩
    · rw [if_neg onto]
      rw [← not_seen_iff, not_not] at unseen
      exact ⟨_, _, turn.skip unseen onto⟩

theorem foldl_look {fuel : Nat} (visits : Visits adjacency vertices fuel) {node : String}
    (fresh : ¬ s.Seen node) (reached : ∀ g ∈ path, ReflTransGen adjacency.Edge g node)
    (enough : unseen vertices (s.push node) ≤ fuel) {todo : List String}
    (steps : ∀ w ∈ todo, adjacency.Edge node w ∧ w ∈ vertices)
    (turn : Turn adjacency.Edge path node s t looked new low) :
    ∃ new' low', Turn adjacency.Edge path node s (todo.foldl (look adjacency fuel node) t)
      (looked ++ todo) new' low' := by
  induction todo generalizing looked new t low with
  | nil =>
    rw [List.append_nil]
    exact ⟨new, low, turn⟩
  | cons w rest ih =>
    obtain ⟨step, inside⟩ := steps w List.mem_cons_self
    have left := Nat.le_trans (@unseen_mono vertices _ _ turn.seen_of_push) enough
    obtain ⟨new', low', next⟩ := look_turn visits turn fresh reached step inside left
    have rest_steps := fun v held => steps v (List.mem_cons_of_mem w held)
    have whole := ih rest_steps next
    rwa [List.append_assoc] at whole

theorem visit_spec (closed : ∀ a b, adjacency.Edge a b → b ∈ vertices) (fuel : Nat) :
    Visits adjacency vertices fuel := by
  induction fuel with
  | zero =>
    intro path node s _ fresh _ inside enough
    have less : unseen vertices (s.push node) < unseen vertices s :=
      unseen_lt (fun v old => push_seen.mpr (Or.inr old)) inside fresh
        (push_seen.mpr (Or.inl rfl))
    omega
  | succ fuel ih =>
    intro path node s sound fresh reached inside enough
    have less : unseen vertices (s.push node) < unseen vertices s :=
      unseen_lt (fun v old => push_seen.mpr (Or.inr old)) inside fresh
        (push_seen.mpr (Or.inl rfl))
    have steps : ∀ w ∈ sorted (adjacency.targets node), adjacency.Edge node w ∧ w ∈ vertices := by
      intro w target
      have step : adjacency.Edge node w := (mem_sorted ..).mp target
      exact ⟨step, closed node w step⟩
    obtain ⟨new, low, turn⟩ := foldl_look ih fresh reached (by omega) steps
      (Turn.start sound fresh reached)
    rw [List.nil_append] at turn
    have all : ∀ w, adjacency.Edge node w → w ∈ sorted (adjacency.targets node) :=
      fun w step => (mem_sorted ..).mpr step
    rw [visit_succ]
    dsimp only
    rw [turn.own, index_of_seen (turn.sound.seen_stack turn.node_mem), turn.number]
    have bound := turn.bound
    by_cases whole : s.index ≤ low
    · rw [if_neg (by
        rw [not_not]
        exact congrArg some (Nat.le_antisymm bound whole))]
      exact ⟨_, _, turn.finish sound fresh reached all whole⟩
    · rw [if_pos (by
        intro same
        have equal := Option.some.inj same
        omega)]
      exact ⟨_, _, turn.stay all (by omega)⟩

/-! Every vertex that can be reached. -/

theorem sound_start (edge : String → String → Prop) : Sound edge [] ({} : Tarjan) := by
  have none_seen : ∀ v, ¬ Seen {} v := by
    intro v
    rw [not_seen_iff]
    rfl
  refine ⟨fun v seen => absurd seen (none_seen v), List.Pairwise.nil, ?_, nofun, nofun, ?_, nofun,
    nofun, nofun, nofun, nofun, nofun, List.Pairwise.nil⟩
  · intro v
    constructor
    · exact fun seen => absurd seen (none_seen v)
    · intro impossible
      rcases impossible with onto | ⟨part, inside, _⟩
      · cases onto
      · cases inside
  · exact fun v seen => absurd seen (none_seen v)

theorem search_spec (closed : ∀ a b, adjacency.Edge a b → b ∈ vertices) {starts ids : List String}
    (among : ∀ a ∈ ids, a ∈ vertices ∧ a ∈ starts) {fuel : Nat}
    {s : Tarjan} (sound : Sound adjacency.Edge [] s) (enough : unseen vertices s ≤ fuel)
    (grounded : ∀ v, s.Seen v → ∃ a ∈ starts, ReflTransGen adjacency.Edge a v) {t : Tarjan}
    (searched : ids.foldl (fun s node =>
      if get? s.indices node = none then visit adjacency fuel node s else s) s = t) :
    Sound adjacency.Edge [] t ∧ (∀ v, s.Seen v → t.Seen v) ∧ (∀ a ∈ ids, t.Seen a) ∧
      ∀ v, t.Seen v → ∃ a ∈ starts, ReflTransGen adjacency.Edge a v := by
  induction ids generalizing s with
  | nil =>
    cases searched
    exact ⟨sound, fun _ old => old, nofun, grounded⟩
  | cons a rest ih =>
    rw [List.foldl_cons] at searched
    have rest_among := fun b inside => among b (List.mem_cons_of_mem a inside)
    by_cases new : get? s.indices a = none
    · rw [if_pos new] at searched
      obtain ⟨added, low, visited⟩ := visit_spec closed fuel [] a s sound (not_seen_iff.mpr new)
        nofun (among a List.mem_cons_self).1 enough
      have kept := fun v old => (visited.grows.kept v old).1
      obtain ⟨after, still, all, reach⟩ := ih rest_among visited.sound
        (Nat.le_trans (unseen_mono kept) enough) (by
          intro v seen
          rcases visited.grows.later v seen with old | recent
          · exact grounded v old
          · exact ⟨a, (among a List.mem_cons_self).2, recent.2⟩) searched
      refine ⟨after, fun v old => still v (kept v old), ?_, reach⟩
      exact List.forall_mem_cons.mpr ⟨still a visited.known, all⟩
    · rw [if_neg new] at searched
      obtain ⟨after, still, all, reach⟩ := ih rest_among sound enough grounded searched
      rw [← not_seen_iff, not_not] at new
      exact ⟨after, still, List.forall_mem_cons.mpr ⟨still a new, all⟩, reach⟩

end

theorem Sound.components {edge : String → String → Prop} (sound : Sound edge [] s)
    {nodeIds : List String} (all : ∀ a ∈ nodeIds, s.Seen a)
    (reach : ∀ v, s.Seen v → ∃ a ∈ nodeIds, ReflTransGen edge a v) :
    Components edge nodeIds s.result := by
  have empty : ∀ v, v ∉ s.stack := by
    intro v onto
    obtain ⟨g, impossible, _⟩ := sound.down v onto
    cases impossible
  refine ⟨?_, sound.classes, sound.inhabited, sound.distinct, sound.apart⟩
  intro v
  constructor
  · intro found
    exact reach v ((sound.seen v).mpr (Or.inr found))
  · intro found
    obtain ⟨a, inside, path⟩ := found
    have seen : s.Seen v := by
      induction path with
      | refl => exact all a inside
      | tail _ step ih => exact sound.followed _ ih nofun _ step
    exact ((sound.seen v).mp seen).resolve_left (empty v)

end Tarjan

theorem Adjacency.edge_mem_vertices {adjacency : Adjacency} {nodeIds : List String} {a b : String}
    (step : adjacency.Edge a b) : b ∈ vertices nodeIds adjacency := by
  unfold Adjacency.Edge Adjacency.targets at step
  cases found : get? adjacency a with
  | none =>
    rw [found] at step
    cases step
  | some targets =>
    rw [found] at step
    apply List.mem_append_right
    exact List.mem_flatMap.mpr ⟨(a, targets), mem_of_get?_eq_some found, step⟩

theorem stronglyConnectedComponents_spec (nodeIds : List String) (adjacency : Adjacency) :
    Components adjacency.Edge nodeIds (stronglyConnectedComponents nodeIds adjacency) := by
  have enough : Tarjan.unseen (vertices nodeIds adjacency) {} ≤
      (vertices nodeIds adjacency).length := List.countP_le_length
  have none_seen : ∀ v, Tarjan.Seen {} v →
      ∃ a ∈ nodeIds, ReflTransGen adjacency.Edge a v := by
    intro v seen
    cases seen
  have among : ∀ a ∈ sorted nodeIds, a ∈ vertices nodeIds adjacency ∧ a ∈ nodeIds := by
    intro a inside
    rw [mem_sorted] at inside
    exact ⟨List.mem_append_left _ inside, inside⟩
  have searched := @Tarjan.search_spec adjacency _ (fun _ _ step => Adjacency.edge_mem_vertices step) _ _
    among _ _ (Tarjan.sound_start adjacency.Edge) enough none_seen _ rfl
  obtain ⟨sound, _, all, reach⟩ := searched
  exact Components.perm (sound.components (fun a inside => all a ((mem_sorted ..).mpr inside)) reach)
    (List.perm_insertionSort _ _).symm

end Workflow
