import HarnessSdk.Graph.Dependencies

/-! Chains of dependencies: the computed depth is the length of the longest, and neither it nor the
order check depends on how a map lists its entries. -/
namespace Graph
open PyDict PyText Checks

structure Chain (edges : Edges) (chain : List String) : Prop where
  linked : chain.IsChain (DependsOn edges)
  known : ∀ key ∈ chain, key ∈ keys edges

theorem foldl_max_le {numbers : List Nat} {start n : Nat} :
    numbers.foldl max start ≤ n ↔ start ≤ n ∧ ∀ m ∈ numbers, m ≤ n := by
  induction numbers generalizing start with
  | nil => simp
  | cons m rest ih =>
    rw [List.foldl_cons, ih, Nat.max_le, List.forall_mem_cons, and_assoc]

def depthFrom (edges : Edges) (depth : Dict String Nat) (key : String) : Nat :=
  1 + (((get? edges key).getD []).map fun dep => (get? depth dep).getD 0).foldl max 0

variable (edges : Edges) (order : List String)

theorem keys_depths_fold (depth : Dict String Nat) (key : String) :
    key ∈ keys (order.foldl (fun d k => set d k (depthFrom edges d k)) depth) ↔
      key ∈ order ∨ key ∈ keys depth := by
  induction order generalizing depth with
  | nil => simp
  | cons first rest ih =>
    rw [List.foldl_cons, ih, mem_keys_set, List.mem_cons]
    grind

theorem get?_depths_later {order : List String} {key : String} (absent : key ∉ order)
    (depth : Dict String Nat) :
    get? (order.foldl (fun d k => set d k (depthFrom edges d k)) depth) key = get? depth key := by
  induction order generalizing depth with
  | nil => rfl
  | cons first rest ih =>
    rw [List.mem_cons, not_or] at absent
    rw [List.foldl_cons, ih absent.2, get?_set_ne _ _ (Ne.symm absent.1)]

theorem depths_append (before after : List String) :
    depths edges (before ++ after) =
      after.foldl (fun d k => set d k (depthFrom edges d k)) (depths edges before) :=
  List.foldl_append

theorem depths_nodup : (keys (depths edges order)).Nodup := by
  have kept : ∀ depth : Dict String Nat, (keys depth).Nodup →
      (keys (order.foldl (fun d k => set d k (depthFrom edges d k)) depth)).Nodup := by
    induction order with
    | nil => exact fun _ distinct => distinct
    | cons first rest ih =>
      intro depth distinct
      exact ih _ (keys_set_nodup _ _ distinct)
  exact kept [] (by simp [keys])

def depthAt (edges : Edges) (order : List String) (key : String) : Nat :=
  (get? (depths edges order) key).getD 0

section
variable {edges : Edges} {order : List String} (ordered : Ordered edges order)
include ordered

section
variable (distinct : (keys edges).Nodup)
include distinct

theorem Ordered.depthAt_eq {key : String}
    (known : key ∈ keys edges) :
    depthAt edges order key =
      1 + (((get? edges key).getD []).map (depthAt edges order)).foldl max 0 := by
  have inside : key ∈ order := ordered.perm.symm.subset known
  have nodup : order.Nodup := ordered.perm.nodup_iff.mpr distinct
  obtain ⟨before, after, split⟩ := List.append_of_mem inside
  rw [split, List.nodup_append, List.nodup_cons] at nodup
  have later : ∀ dep ∈ before, dep ∉ key :: after := fun dep first second =>
    nodup.2.2 dep first dep second rfl
  have placed : key ∉ before := fun first => later key first List.mem_cons_self
  have same : ∀ dep ∈ (get? edges key).getD [],
      (get? (depths edges before) dep).getD 0 = depthAt edges order dep := by
    intro dep depends
    have lower := ordered.descends key dep depends
    have first : dep ∈ before := by
      rw [split, List.idxOf_append_of_notMem placed, List.idxOf_cons_self] at lower
      by_contra absent
      rw [List.idxOf_append_of_notMem absent] at lower
      omega
    rw [depthAt, split, depths_append, get?_depths_later edges (later dep first)]
  have entry : get? (depths edges order) key = some (depthFrom edges (depths edges before) key) := by
    rw [split, depths_append, List.foldl_cons, get?_depths_later edges nodup.2.1.1,
      get?_set_self]
  rw [depthAt, entry, Option.getD_some, depthFrom, List.map_congr_left same]

theorem Ordered.depthAt_le_iff {n : Nat} {key : String}
    (known : key ∈ keys edges) :
    depthAt edges order key ≤ n ↔
      ∀ chain, Chain edges (key :: chain) → (key :: chain).length ≤ n := by
  induction n generalizing key with
  | zero =>
    rw [ordered.depthAt_eq distinct known]
    constructor
    · intro none
      omega
    · intro short
      have single : Chain edges [key] := ⟨List.IsChain.singleton _, by simpa using known⟩
      exact absurd (short [] single) (by simp)
  | succ n ih =>
    rw [ordered.depthAt_eq distinct known, Nat.add_comm, Nat.succ_le_succ_iff, foldl_max_le]
    simp only [List.forall_mem_map, Nat.zero_le, true_and]
    constructor
    · intro deps chain linked
      cases chain with
      | nil => simp
      | cons dep rest =>
        have step := (List.isChain_cons_cons.mp linked.linked)
        have tail : Chain edges (dep :: rest) :=
          ⟨step.2, fun k hk => linked.known k (List.mem_cons_of_mem _ hk)⟩
        have present := ordered.present key dep step.1
        have short := (ih present).mp (deps dep step.1) rest tail
        simpa using short
    · intro short dep depends
      rw [ih (ordered.present key dep depends)]
      intro chain tail
      have whole : Chain edges (key :: dep :: chain) := by
        constructor
        · exact List.isChain_cons_cons.mpr ⟨depends, tail.linked⟩
        · intro k hk
          rcases List.mem_cons.mp hk with rfl | later
          · exact known
          · exact tail.known k later
      have bound := short (dep :: chain) whole
      simpa using bound

theorem Ordered.depthOf_le_iff (n : Nat) :
    depthOf edges order ≤ n ↔ ∀ chain, Chain edges chain → chain.length ≤ n := by
  have listed : ∀ key, key ∈ keys (depths edges order) ↔ key ∈ keys edges := by
    intro key
    rw [depths]
    refine (keys_depths_fold edges order [] key).trans ?_
    simpa [keys] using ordered.perm.mem_iff
  have each : depthOf edges order ≤ n ↔ ∀ key ∈ keys edges, depthAt edges order key ≤ n := by
    rw [depthOf, foldl_max_le]
    simp only [List.forall_mem_map, Nat.zero_le, true_and]
    constructor
    · intro all key known
      obtain ⟨d, found⟩ := Option.isSome_iff_exists.mp
        ((get?_isSome_iff _ _).mpr ((listed key).mpr known))
      have bound := all _ (mem_of_get?_eq_some found)
      simpa [depthAt, found] using bound
    · intro all entry inside
      have found := get?_eq_some_of_mem (depths_nodup edges order) inside
      have known := (listed entry.1).mp (List.mem_map_of_mem inside)
      simpa [depthAt, found] using all entry.1 known
  rw [each]
  constructor
  · intro all chain linked
    cases chain with
    | nil => exact Nat.zero_le n
    | cons key rest =>
      have known := linked.known key List.mem_cons_self
      exact (ordered.depthAt_le_iff distinct known).mp (all key known) rest linked
  · intro all key known
    exact (ordered.depthAt_le_iff distinct known).mpr fun chain linked => all _ linked

end

end

theorem pick_none {names ready : List String} (stopped : pick names ready = none) : ready = [] := by
  unfold pick at stopped
  split at stopped
  · next empty => exact List.perm_nil.mp (empty ▸ (List.perm_insertionSort _ ready).symm)
  · cases stopped

theorem checkDependencies_complete {edges : Edges} (distinct : (keys edges).Nodup)
    (checked : ∀ entry ∈ edges, checkEntry (keys edges) entry = .ok ()) (rank : String → Nat)
    (descends : ∀ a b, DependsOn edges a b → rank b < rank a) :
    ∃ order, checkDependencies edges = .ok order := by
  have closed : ∀ a ∈ keys edges, ∀ b ∈ dependents edges a, b ∈ keys edges := by
    intro a _ b edge
    exact ((mem_dependents distinct b a).mp edge).mem_keys
  have full : Kahn.Full (keys edges) (indegree edges)
      ((keys edges).filter fun key => Kahn.degree (indegree edges) key = 0) [] := by
    intro b inside zero
    simp [inside, zero]
  have placed := Kahn.Placing.complete distinct closed (pick_perm (keys edges))
    (fun _ => pick_none) rank
    (fun a _ b edge => descends b a ((mem_dependents distinct b a).mp edge))
    (start_placing distinct checked) full
  refine ⟨topologicalOrder edges, ?_⟩
  rw [checkDependencies, then_eq_ok, every_eq_ok, then_eq_ok, require_eq_ok]
  exact ⟨checked, placed, rfl⟩

section
variable {edges edges' : Edges} (same : edges'.Perm edges) (distinct : (keys edges).Nodup)
include same distinct

theorem dependsOn_of_perm (a b : String) : DependsOn edges' a b ↔ DependsOn edges a b := by
  unfold DependsOn
  rw [get?_of_perm same.symm distinct]

theorem chain_of_perm (chain : List String) : Chain edges' chain ↔ Chain edges chain := by
  have names : ∀ key, key ∈ keys edges' ↔ key ∈ keys edges := fun key => (same.map Prod.fst).mem_iff
  constructor
  · intro linked
    refine ⟨linked.linked.imp fun a b => (dependsOn_of_perm same distinct a b).mp, ?_⟩
    exact fun key inside => (names key).mp (linked.known key inside)
  · intro linked
    refine ⟨linked.linked.imp fun a b => (dependsOn_of_perm same distinct a b).mpr, ?_⟩
    exact fun key inside => (names key).mpr (linked.known key inside)

theorem ancestry_of_perm (a b : String) : Ancestry edges' a b ↔ Ancestry edges a b := by
  have relations : DependsOn edges' = DependsOn edges := by
    funext a b
    exact propext (dependsOn_of_perm same distinct a b)
  rw [Ancestry, Ancestry, relations]

theorem checkDependencies_of_perm {order : List String} (ok : checkDependencies edges = .ok order) :
    ∃ order', checkDependencies edges' = .ok order' ∧ Ordered edges' order' ∧
      depthOf edges' order' = depthOf edges order := by
  have ordered := checkDependencies_spec distinct ok
  have distinct' : (keys edges').Nodup := (same.map Prod.fst).nodup_iff.mpr distinct
  have checked : ∀ entry ∈ edges', checkEntry (keys edges') entry = .ok () := by
    intro entry inside
    rw [checkDependencies, then_eq_ok, every_eq_ok] at ok
    have once := ok.1 entry (same.subset inside)
    simpa only [checkEntry, checkDependency, then_eq_ok, every_eq_ok, require_eq_ok, keys,
      (same.map Prod.fst).mem_iff] using once
  obtain ⟨order', accepted⟩ := checkDependencies_complete distinct' checked order.idxOf
    fun a b depends => ordered.descends a b ((dependsOn_of_perm same distinct a b).mp depends)
  have ordered' := checkDependencies_spec distinct' accepted
  refine ⟨order', accepted, ordered', ?_⟩
  have bounds : ∀ n, depthOf edges' order' ≤ n ↔ depthOf edges order ≤ n := by
    intro n
    rw [ordered'.depthOf_le_iff distinct', ordered.depthOf_le_iff distinct]
    simp only [chain_of_perm same distinct]
  exact Nat.le_antisymm ((bounds _).mpr (Nat.le_refl _)) ((bounds _).mp (Nat.le_refl _))

end

end Graph
