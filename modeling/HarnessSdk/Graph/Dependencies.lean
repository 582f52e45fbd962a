import HarnessSdk.Library.Kahn
import HarnessSdk.Library.Checks
import HarnessSdk.Library.Text

/-! Dependency maps of a task graph: the checks, the order of the keys, and their ancestors. -/
namespace Graph
open PyDict PyText Checks

abbrev Edges := Dict String (List String)

structure DependencyError where
  reason : String
  detail : String
deriving DecidableEq

def checkDependency (names : List String) (key dependency : String) : Except DependencyError Unit :=
  do
  require (dependency ≠ key) ⟨"self_dependency", key⟩
  require (dependency ∈ names) ⟨"missing_dependency", key ++ " -> " ++ dependency⟩

def checkEntry (names : List String) (entry : String × List String) :
    Except DependencyError Unit := do
  every (checkDependency names entry.1) entry.2
  require (entry.2.dedup.length = entry.2.length) ⟨"duplicate_dependency", entry.1⟩

def dependents (edges : Edges) (key : String) : List String :=
  edges.flatMap fun entry => (entry.2.filter (· = key)).map fun _ => entry.1

def indegree (edges : Edges) : Dict String Nat :=
  ofEntries (edges.map fun entry => (entry.1, entry.2.dedup.length))

def pick (names ready : List String) : Option (String × List String) :=
  match ready.insertionSort fun a b => names.idxOf a ≤ names.idxOf b with
  | [] => none
  | current :: rest => some (current, rest)

def topologicalOrder (edges : Edges) : List String :=
  let names := keys edges
  Kahn.run (dependents edges) (pick names) names.length (indegree edges)
    (names.filter fun key => Kahn.degree (indegree edges) key = 0) []

def cyclePath (edges : Edges) (remaining : List String) :
    Nat → String → List String → List String
  | 0, _, path => path
  | fuel + 1, current, path =>
    match ((get? edges current).getD []).find? (· ∈ remaining) with
    | none => path
    | some next =>
      if next ∈ path then path.drop (path.idxOf next) ++ [next]
      else cyclePath edges remaining fuel next (path ++ [next])

def cycleDetail (edges : Edges) (remaining : List String) : String :=
  match remaining with
  | [] => ""
  | start :: _ => join " -> " (cyclePath edges remaining (remaining.length + 1) start [start])

def checkDependencies (edges : Edges) : Except DependencyError (List String) := do
  every (checkEntry (keys edges)) edges
  let order := topologicalOrder edges
  require (order.length = (keys edges).length)
    ⟨"cycle", cycleDetail edges ((keys edges).filter (· ∉ order))⟩
  pure order

def roots (edges : Edges) : List String :=
  (edges.filter fun entry => entry.2.isEmpty).map Prod.fst

def leaves (edges : Edges) : List String :=
  (keys edges).filter fun key => dependents edges key = []

/-- The transitive dependencies of a key; on an acyclic map one unit of fuel for each key is
enough. -/
def ancestors (edges : Edges) : Nat → String → List String
  | 0, _ => []
  | fuel + 1, key =>
    ((get? edges key).getD []).flatMap fun dep => dep :: ancestors edges fuel dep

section
variable (edges : Edges)

def ancestorsOf (key : String) : List String := ancestors edges edges.length key

def depths (order : List String) : Dict String Nat :=
  order.foldl (fun depth key => set depth key
    (1 + (((get? edges key).getD []).map fun dep => (get? depth dep).getD 0).foldl max 0)) []

def depthOf (order : List String) : Nat :=
  ((depths edges order).map Prod.snd).foldl max 0

def DependsOn (a b : String) : Prop := b ∈ (get? edges a).getD []

def Ancestry : String → String → Prop := Relation.TransGen (DependsOn edges)

end

structure Sound (edges : Edges) : Prop where
  acyclic : Digraph.Acyclic (DependsOn edges)
  present : ∀ a b, DependsOn edges a b → b ∈ keys edges

variable {edges : Edges}

theorem DependsOn.mem_keys {a b : String} (depends : DependsOn edges a b) : a ∈ keys edges := by
  unfold DependsOn at depends
  cases found : get? edges a with
  | none => simp [found] at depends
  | some deps => exact (get?_isSome_iff edges a).mp (by simp [found])

theorem dependsOn_iff (distinct : (keys edges).Nodup) (a b : String) :
    DependsOn edges a b ↔ ∃ deps, (a, deps) ∈ edges ∧ b ∈ deps := by
  unfold DependsOn
  constructor
  · intro depends
    cases found : get? edges a with
    | none => simp [found] at depends
    | some deps => exact ⟨deps, mem_of_get?_eq_some found, by simpa [found] using depends⟩
  · rintro ⟨deps, entry, inside⟩
    rw [get?_eq_some_of_mem distinct entry]
    exact inside

theorem mem_dependents (distinct : (keys edges).Nodup) (a b : String) :
    a ∈ dependents edges b ↔ DependsOn edges a b := by
  rw [dependsOn_iff distinct]
  simp only [dependents, List.mem_flatMap, List.mem_map, List.mem_filter, decide_eq_true_eq]
  constructor
  · rintro ⟨⟨key, deps⟩, entry, _, ⟨inside, rfl⟩, rfl⟩
    exact ⟨deps, entry, inside⟩
  · rintro ⟨deps, entry, inside⟩
    exact ⟨(a, deps), entry, b, ⟨inside, rfl⟩, rfl⟩

theorem pick_perm (names ready : List String) (a : String) (rest : List String)
    (picked : pick names ready = some (a, rest)) : ready.Perm (a :: rest) := by
  unfold pick at picked
  split at picked
  · cases picked
  · next current tail sorted =>
    cases picked
    rw [← sorted]
    exact (List.perm_insertionSort _ ready).symm

section
variable {edges : Edges} (distinct : (keys edges).Nodup)
  (checked : ∀ entry ∈ edges, checkEntry (keys edges) entry = .ok ())
include distinct checked

variable {deps : List String}

omit distinct in
theorem checkEntry_spec {key : String} (entry : (key, deps) ∈ edges) :
    (∀ dep ∈ deps, dep ≠ key ∧ dep ∈ keys edges) ∧ deps.Nodup := by
  have ok := checked _ entry
  rw [checkEntry, then_eq_ok, every_eq_ok, require_eq_ok] at ok
  constructor
  · intro dep inside
    have each := ok.1 dep inside
    rw [checkDependency, then_eq_ok, require_eq_ok, require_eq_ok] at each
    exact each
  · rw [← List.dedup_eq_self]
    exact (List.dedup_sublist deps).eq_of_length ok.2

omit checked in
theorem count_dependents (a : String) {key : String} (entry : (key, deps) ∈ edges) :
    (dependents edges a).count key = deps.count a := by
  have split := (perm_cons_filter_key distinct entry).flatMap_right
    fun e : String × List String => (e.2.filter (· = a)).map fun _ => e.1
  have others : key ∉ (edges.filter fun e => e.1 ≠ key).flatMap
      fun e : String × List String => (e.2.filter (· = a)).map fun _ => e.1 := by
    simp only [List.mem_flatMap, List.mem_map, List.mem_filter]
    rintro ⟨e, ⟨_, differ⟩, _, _, same⟩
    simp [same] at differ
  rw [dependents, split.count_eq]
  simp only [List.flatMap_cons, List.count_append]
  rw [List.count_eq_zero.mpr others, Nat.add_zero, List.map_const', List.count_replicate_self]
  rw [List.count_eq_length_filter]
  rfl

omit distinct checked in
theorem sum_count {names : List String} (nodup : names.Nodup) (inside : deps ⊆ names) :
    (names.map deps.count).sum = deps.length := by
  induction deps with
  | nil => simp
  | cons dep rest ih =>
    have once : names.count dep = 1 := List.count_eq_one_of_mem nodup (inside List.mem_cons_self)
    have split : ∀ l : List String, (l.map (dep :: rest).count).sum =
        (l.map rest.count).sum + l.count dep := by
      intro l
      induction l with
      | nil => simp
      | cons a l ih =>
        rw [List.map_cons, List.sum_cons, ih, List.map_cons, List.sum_cons, List.count_cons,
          List.count_cons]
        by_cases same : dep = a
        · simp only [same, beq_self_eq_true, if_true]
          omega
        · simp only [beq_iff_eq, same, Ne.symm same, if_false]
          omega
    rw [split, once, ih fun a ha => inside (List.mem_cons_of_mem dep ha), List.length_cons]

theorem degree_indegree (b : String) :
    Kahn.degree (indegree edges) b = Kahn.pending (dependents edges) (keys edges) [] b := by
  have entries : keys (edges.map fun entry => (entry.1, entry.2.dedup.length)) = keys edges := by
    simp [keys, Function.comp_def]
  by_cases known : b ∈ keys edges
  · obtain ⟨⟨key, deps⟩, entry, rfl⟩ := List.mem_map.mp known
    have spec := checkEntry_spec checked entry
    have held : get? (indegree edges) key = some deps.length := by
      rw [indegree, ofEntries_of_nodup (by rw [entries]; exact distinct)]
      apply get?_eq_some_of_mem (by rw [entries]; exact distinct)
      refine List.mem_map.mpr ⟨_, entry, ?_⟩
      simp [spec.2.dedup]
    have counts : (keys edges).map (fun a => (dependents edges a).count key) =
        (keys edges).map deps.count := by
      apply List.map_congr_left
      intro a _
      exact count_dependents distinct a entry
    have total := sum_count distinct fun dep hd => (spec.1 dep hd).2
    simp [Kahn.degree, held, Kahn.pending, counts, total]
  · have absent : get? (indegree edges) b = none := by
      rw [get?_eq_none_iff, indegree, mem_keys_ofEntries, entries]
      exact known
    have none : ∀ a, (dependents edges a).count b = 0 := by
      intro a
      rw [List.count_eq_zero, mem_dependents distinct]
      exact fun depends => known depends.mem_keys
    simp [Kahn.degree, absent, Kahn.pending, none]

theorem start_placing : Kahn.Placing (dependents edges) (keys edges) (indegree edges)
    ((keys edges).filter fun key => Kahn.degree (indegree edges) key = 0) [] := by
  constructor
  · exact distinct.filter _
  · intro a ha
    exact List.mem_of_mem_filter ha
  · exact degree_indegree distinct checked
  · intro a ha
    simpa using List.of_mem_filter ha
  · simp

theorem topologicalOrder_placing :
    ∃ d ready, Kahn.Placing (dependents edges) (keys edges) d ready (topologicalOrder edges) := by
  have closed : ∀ a ∈ keys edges, ∀ b ∈ dependents edges a, b ∈ keys edges := by
    intro a _ b edge
    exact ((mem_dependents distinct b a).mp edge).mem_keys
  exact (start_placing distinct checked).run distinct closed (pick_perm (keys edges)) _

end

/-- What an accepted map satisfies: its order holds every key once, each after what it waits for. -/
structure Ordered (edges : Edges) (order : List String) : Prop where
  perm : order.Perm (keys edges)
  present : ∀ a b, DependsOn edges a b → b ∈ keys edges
  descends : ∀ a b, DependsOn edges a b → order.idxOf b < order.idxOf a
  distinctDeps : ∀ entry ∈ edges, entry.2.Nodup

variable {order : List String}

theorem checkDependencies_spec (distinct : (keys edges).Nodup)
    (ok : checkDependencies edges = .ok order) : Ordered edges order := by
  rw [checkDependencies, then_eq_ok, every_eq_ok, then_eq_ok, require_eq_ok] at ok
  obtain ⟨checked, full, same⟩ := ok
  cases same
  have present : ∀ a b, DependsOn edges a b → b ∈ keys edges := by
    intro a b depends
    obtain ⟨deps, entry, inside⟩ := (dependsOn_iff distinct a b).mp depends
    exact ((checkEntry_spec checked entry).1 b inside).2
  obtain ⟨d, ready, placing⟩ := topologicalOrder_placing distinct checked
  have nodup : (topologicalOrder edges).Nodup := (List.nodup_append.mp placing.nodup).1
  have inside : topologicalOrder edges ⊆ keys edges := fun a ha =>
    placing.inside a (List.mem_append_left _ ha)
  have perm := (List.subperm_of_subset nodup inside).perm_of_length_le full.ge
  constructor
  · exact perm
  · exact present
  · intro a b depends
    have edge := (mem_dependents distinct a b).mpr depends
    exact placing.ordered b (present a b depends) a edge (perm.symm.subset depends.mem_keys)
  · intro entry inside
    exact (checkEntry_spec checked inside).2

theorem Ordered.sound (ordered : Ordered edges order) : Sound edges := by
  constructor
  · intro a cycle
    have climbs : ∀ b, Relation.TransGen (DependsOn edges) a b →
        order.idxOf b < order.idxOf a := by
      intro b path
      induction path with
      | single step => exact ordered.descends a _ step
      | tail _ step ih => exact Nat.lt_trans (ordered.descends _ _ step) ih
    exact Nat.lt_irrefl _ (climbs a cycle)
  · exact ordered.present

theorem ancestry_of_mem_ancestors {fuel : Nat} {a b : String} (found : b ∈ ancestors edges fuel a) :
    Ancestry edges a b := by
  induction fuel generalizing a with
  | zero => simp [ancestors] at found
  | succ fuel ih =>
    simp only [ancestors, List.mem_flatMap, List.mem_cons] at found
    obtain ⟨dep, here, rfl | later⟩ := found
    · exact .single here
    · exact Relation.TransGen.head here (ih later)

theorem Ordered.mem_ancestors (ordered : Ordered edges order) {fuel : Nat} {a b : String}
    (enough : order.idxOf a < fuel) (path : Ancestry edges a b) : b ∈ ancestors edges fuel a := by
  induction fuel generalizing a with
  | zero => omega
  | succ fuel ih =>
    simp only [ancestors, List.mem_flatMap, List.mem_cons]
    obtain ⟨dep, here, rest⟩ := Relation.TransGen.head'_iff.mp path
    refine ⟨dep, here, ?_⟩
    have lower := ordered.descends a dep here
    rcases Relation.reflTransGen_iff_eq_or_transGen.mp rest with same | longer
    · exact Or.inl same
    · exact Or.inr (ih (by omega) longer)

theorem Ordered.mem_ancestorsOf (ordered : Ordered edges order) (a b : String) :
    b ∈ ancestorsOf edges a ↔ Ancestry edges a b := by
  constructor
  · exact ancestry_of_mem_ancestors
  · intro path
    have known : a ∈ keys edges := by
      obtain ⟨dep, here, _⟩ := Relation.TransGen.head'_iff.mp path
      exact here.mem_keys
    have place := List.idxOf_lt_length_iff.mpr (ordered.perm.symm.subset known)
    have size : order.length = edges.length := by
      rw [ordered.perm.length_eq, keys, List.length_map]
    exact ordered.mem_ancestors (by omega) path

end Graph
