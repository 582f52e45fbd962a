import HarnessSdk.Registry.Versions
import HarnessSdk.Registry.Applicability

/-! What the four-valued verdicts promise: definite ones last, the gate sees every leaf, and an
unknown one knows which atoms to ask about. -/
namespace Registry
open PyDict PyText Checks Workflow Contracts
open Network (TruthValue Validity Availability)
open Knowledge (SupportCount)

theorem mem_foldl_fromkeys {α : Type} [DecidableEq α] {out items : List α} {a : α} :
    a ∈ items.foldl (fun out item => if item ∈ out then out else out ++ [item]) out ↔
      a ∈ out ∨ a ∈ items := by
  induction items generalizing out with
  | nil => simp
  | cons item rest ih =>
    rw [List.foldl_cons, ih, List.mem_cons]
    by_cases known : item ∈ out
    · rw [if_pos known, or_left_comm]
      constructor
      · exact Or.inr
      · intro placed
        rcases placed with rfl | placed
        · exact Or.inl known
        · exact placed
    · rw [if_neg known, List.mem_append, List.mem_singleton, or_assoc]

theorem foldl_fromkeys {α : Type} [DecidableEq α] (out items : List α) :
    (fromkeys items).foldl (fun out item => if item ∈ out then out else out ++ [item]) out =
      items.foldl (fun out item => if item ∈ out then out else out ++ [item]) out := by
  induction items using List.reverseRecOn with
  | nil => rfl
  | append_singleton before item ih =>
    have last : fromkeys (before ++ [item]) =
        if item ∈ fromkeys before then fromkeys before else fromkeys before ++ [item] := by
      rw [fromkeys, List.foldl_append]
      rfl
    rw [last, List.foldl_append, List.foldl_cons, List.foldl_nil]
    split
    · next known =>
      rw [ih, if_pos (mem_foldl_fromkeys.mpr (Or.inr (mem_fromkeys.mp known)))]
    · rw [List.foldl_append, ih, List.foldl_cons, List.foldl_nil]

theorem fromkeys_fromkeys {α : Type} [DecidableEq α] (items : List α) :
    fromkeys (fromkeys items) = fromkeys items := foldl_fromkeys [] items

theorem fromkeys_append_left {α : Type} [DecidableEq α] (items others : List α) :
    fromkeys (fromkeys items ++ others) = fromkeys (items ++ others) := by
  have whole := foldl_fromkeys [] items
  rw [fromkeys, List.foldl_append, whole, ← List.foldl_append]
  rfl

theorem fromkeys_append_right {α : Type} [DecidableEq α] (items others : List α) :
    fromkeys (items ++ fromkeys others) = fromkeys (items ++ others) := by
  rw [fromkeys, List.foldl_append, foldl_fromkeys, ← List.foldl_append]
  rfl

/-! The connectives. -/

@[simp] theorem notTruth_notTruth (truth : TruthValue) : notTruth (notTruth truth) = truth := by
  cases truth <;> rfl

theorem notTruth_unknown {truth : TruthValue} : notTruth truth = .unknown ↔ truth = .unknown := by
  cases truth <;> decide

variable {values : List TruthValue}

theorem mem_map_notTruth {truth : TruthValue} :
    truth ∈ values.map notTruth ↔ notTruth truth ∈ values := by
  rw [List.mem_map]
  constructor
  · intro ⟨value, inside, same⟩
    rw [← same, notTruth_notTruth]
    exact inside
  · intro inside
    exact ⟨notTruth truth, inside, notTruth_notTruth truth⟩

theorem allTruth_false : allTruth values = .false ↔ .false ∈ values := by
  unfold allTruth
  split
  · simp [*]
  · split
    · simp [*]
    · split <;> simp [*]

theorem allTruth_true : allTruth values = .true ↔ ∀ value ∈ values, value = .true := by
  unfold allTruth
  constructor
  · intro holds value inside
    cases value with
    | true => rfl
    | false => simp [inside] at holds
    | conflict =>
      by_cases denied : TruthValue.false ∈ values <;> simp [inside, denied] at holds
    | unknown =>
      by_cases denied : TruthValue.false ∈ values <;>
        by_cases torn : TruthValue.conflict ∈ values <;> simp [inside, denied, torn] at holds
  · intro holds
    rw [if_neg (fun inside => by cases holds _ inside),
      if_neg (fun inside => by cases holds _ inside),
      if_neg (fun inside => by cases holds _ inside)]

theorem allTruth_known (known : ∀ value ∈ values, value ≠ .unknown) :
    allTruth values ≠ .unknown := by
  unfold allTruth
  have absent : TruthValue.unknown ∉ values := fun inside => known _ inside rfl
  split
  · decide
  · split
    · decide
    · decide

theorem anyTruth_not (values : List TruthValue) :
    anyTruth (values.map notTruth) = notTruth (allTruth values) := by
  unfold anyTruth allTruth
  simp only [mem_map_notTruth, notTruth]
  split
  · rfl
  · split
    · rfl
    · split <;> rfl

theorem allTruth_not (values : List TruthValue) :
    allTruth (values.map notTruth) = notTruth (anyTruth values) := by
  have flipped := anyTruth_not (values.map notTruth)
  rw [List.map_map, show notTruth ∘ notTruth = id from funext notTruth_notTruth, List.map_id]
    at flipped
  rw [flipped, notTruth_notTruth]

theorem anyTruth_known (known : ∀ value ∈ values, value ≠ .unknown) :
    anyTruth values ≠ .unknown := by
  rw [← notTruth_notTruth (anyTruth values), ← allTruth_not, Ne, notTruth_unknown]
  apply allTruth_known
  intro value inside unknown
  rw [mem_map_notTruth, unknown] at inside
  exact known _ inside rfl

/-! One atom. -/

namespace World
variable (world : World)

def propositionOf (atom : VersionedRef × Dict String ValueExpr) : Option String :=
  match world.registry.resolve PredicateSignature.predicateRef atom.1 with
  | none => none
  | some signature =>
    if world.argumentErrors "" atom.2 = [] ∧
        (checkArguments signature (world.grounded atom.2)).ok = true then
      some (world.propositionKey signature (world.grounded atom.2))
    else none

def valueOf (atom : VersionedRef × Dict String ValueExpr) : TruthValue :=
  match world.propositionOf atom with
  | none => .unknown
  | some key => world.atomTruth (world.snapshot.lookup key)

def withSnapshot (snapshot : EvidenceSnapshot) : World := { world with snapshot := snapshot }

end World

variable {atom : VersionedRef × Dict String ValueExpr}

variable {world : World}

theorem propositionOf_eq_some {key : String} : world.propositionOf atom = some key ↔
      ∃ signature, world.registry.resolve PredicateSignature.predicateRef atom.1 = some signature ∧
        (∀ argument ∈ atom.2, Grounds world.parameters argument.2) ∧
        (checkArguments signature (world.grounded atom.2)).ok = true ∧
        world.propositionKey signature (world.grounded atom.2) = key := by
  unfold World.propositionOf
  cases world.registry.resolve PredicateSignature.predicateRef atom.1 with
  | none => simp
  | some signature =>
    simp only [Option.some.injEq, exists_eq_left', ← @argumentErrors_eq_nil world ""]
    split
    · next right => simp [right]
    · next wrong =>
      constructor
      · exact nofun
      · intro ⟨grounds, ok, _⟩
        exact absurd ⟨grounds, ok⟩ wrong

theorem typed_iff : AtomTyped world atom ↔ ∃ key, world.propositionOf atom = some key := by
  simp only [propositionOf_eq_some, AtomTyped]
  constructor
  · intro ⟨signature, found, grounds, ok⟩
    exact ⟨_, signature, found, grounds, ok, rfl⟩
  · intro ⟨_, signature, found, grounds, ok, _⟩
    exact ⟨signature, found, grounds, ok⟩

theorem evaluateAtom_untyped {ref : VersionedRef} {arguments : Dict String ValueExpr}
    (untyped : world.propositionOf (ref, arguments) = none) (path : String) :
    ∃ errors, world.evaluateAtom ref arguments path = World.unresolved errors := by
  unfold World.propositionOf at untyped
  unfold World.evaluateAtom
  cases found : world.registry.resolve PredicateSignature.predicateRef ref with
  | none => exact ⟨_, rfl⟩
  | some signature =>
    rw [found] at untyped
    dsimp only at untyped ⊢
    split
    · exact ⟨_, rfl⟩
    · next clean =>
      split
      · exact ⟨_, rfl⟩
      · next ok =>
        rw [not_not, argumentErrors_eq_nil] at clean
        rw [Bool.not_eq_false] at ok
        rw [if_pos ⟨argumentErrors_eq_nil.mpr clean, ok⟩] at untyped
        cases untyped

variable {signature : PredicateSignature}

theorem evaluateAtom_typed_eq {ref : VersionedRef} {arguments : Dict String ValueExpr}
    (found : world.registry.resolve PredicateSignature.predicateRef ref = some signature)
    (grounds : ∀ argument ∈ arguments, Grounds world.parameters argument.2)
    (ok : (checkArguments signature (world.grounded arguments)).ok = true) (path : String) :
    let key := world.propositionKey signature (world.grounded arguments)
    let truth := world.atomTruth (world.snapshot.lookup key)
    world.evaluateAtom ref arguments path = {
      truth := truth
      provenance := [world.atomProvenance signature (world.snapshot.lookup key)]
      unknownPropositions := if truth = .unknown then [key] else []
      conflictingPropositions := if truth = .conflict then [key] else [] } := by
  unfold World.evaluateAtom
  rw [found]
  dsimp only
  rw [if_neg (not_not.mpr (argumentErrors_eq_nil.mpr grounds)), if_neg (by simp [ok])]

theorem evaluateAtom_valued (world : World) (ref : VersionedRef)
    (arguments : Dict String ValueExpr) (path : String) :
    (world.evaluateAtom ref arguments path).truth = world.valueOf (ref, arguments) ∧
    (world.evaluateAtom ref arguments path).unknownPropositions =
      if world.valueOf (ref, arguments) = .unknown then
        (world.propositionOf (ref, arguments)).toList else [] := by
  unfold World.valueOf
  cases proposition : world.propositionOf (ref, arguments) with
  | none =>
    obtain ⟨errors, same⟩ := evaluateAtom_untyped proposition path
    rw [same]
    exact ⟨rfl, rfl⟩
  | some key =>
    obtain ⟨signature, found, grounds, ok, rfl⟩ := propositionOf_eq_some.mp proposition
    rw [evaluateAtom_typed_eq found grounds ok]
    exact ⟨rfl, rfl⟩

/-! Whole conditions. -/

@[simp] theorem combine_truth (children : List ConditionEvaluation) (truth : TruthValue) :
    (combine children truth).truth = truth := by
  unfold combine
  split <;> rfl

@[simp] theorem mergedWith_truth (seed : ConditionEvaluation) (others : List ConditionEvaluation)
    (truth : TruthValue) : (seed.mergedWith others truth).truth = truth := rfl

/-- A later value that keeps what was decided. -/
def Lasts (truth later : TruthValue) : Prop :=
  truth = .true ∨ truth = .false → later = truth

theorem Lasts.not {truth later : TruthValue} (lasts : Lasts truth later) :
    Lasts (notTruth truth) (notTruth later) := by
  intro definite
  cases truth with
  | true => rw [lasts (Or.inl rfl)]
  | false => rw [lasts (Or.inr rfl)]
  | unknown => simp [notTruth] at definite
  | conflict => simp [notTruth] at definite

variable {later : List TruthValue}

theorem Lasts.all (lasts : List.Forall₂ Lasts values later) :
    Lasts (allTruth values) (allTruth later) := by
  intro definite
  cases definite with
  | inl holds =>
    rw [holds, allTruth_true]
    rw [allTruth_true] at holds
    induction lasts with
    | nil => simp
    | cons first _ ih =>
      obtain ⟨head, tail⟩ := List.forall_mem_cons.mp holds
      rw [List.forall_mem_cons]
      exact ⟨(first (Or.inl head)).trans head, ih tail⟩
  | inr fails =>
    rw [fails, allTruth_false]
    rw [allTruth_false] at fails
    induction lasts with
    | nil => cases fails
    | cons first _ ih =>
      cases List.mem_cons.mp fails with
      | inl head =>
        rw [first (Or.inr head.symm), ← head]
        exact List.mem_cons_self
      | inr tail => exact List.mem_cons_of_mem _ (ih tail)

theorem Lasts.any (lasts : List.Forall₂ Lasts values later) :
    Lasts (anyTruth values) (anyTruth later) := by
  have flipped : List.Forall₂ Lasts (values.map notTruth) (later.map notTruth) := by
    rw [List.forall₂_map_left_iff, List.forall₂_map_right_iff]
    exact lasts.imp fun _ _ => Lasts.not
  have dual := (Lasts.all flipped).not
  rwa [allTruth_not, allTruth_not, notTruth_notTruth, notTruth_notTruth] at dual

/-- A relation of values that the connectives respect. -/
structure Respected (R : TruthValue → TruthValue → Prop) : Prop where
  refl : ∀ truth, R truth truth
  not : ∀ {truth later}, R truth later → R (notTruth truth) (notTruth later)
  all : ∀ {values later}, List.Forall₂ R values later → R (allTruth values) (allTruth later)
  any : ∀ {values later}, List.Forall₂ R values later → R (anyTruth values) (anyTruth later)

section
variable {R : TruthValue → TruthValue → Prop} {world later : World}

mutual
theorem evaluate_related (respected : Respected R) (condition : Condition) (path route : String)
    (kept : ∀ atom ∈ condition.atoms, R (world.valueOf atom) (later.valueOf atom)) :
    R (world.evaluate condition path).truth (later.evaluate condition route).truth := by
  cases condition with
  | constant value => exact respected.refl _
  | not item => exact respected.not (evaluate_related respected item _ _ kept)
  | all items =>
    rw [World.evaluate, World.evaluate, combine_truth, combine_truth]
    exact respected.all (evaluateAll_related respected items _ _ 0 0 kept)
  | any items =>
    rw [World.evaluate, World.evaluate, combine_truth, combine_truth]
    exact respected.any (evaluateAll_related respected items _ _ 0 0 kept)
  | predicate ref arguments =>
    rw [World.evaluate, World.evaluate, (evaluateAtom_valued ..).1, (evaluateAtom_valued ..).1]
    exact kept _ List.mem_cons_self
termination_by structural condition

theorem evaluateAll_related (respected : Respected R) (items : List Condition)
    (path route : String) (position spot : Nat)
    (kept : ∀ atom ∈ atomsOf items, R (world.valueOf atom) (later.valueOf atom)) :
    List.Forall₂ R ((world.evaluateAll items path position).map (·.truth))
      ((later.evaluateAll items route spot).map (·.truth)) := by
  cases items with
  | nil => exact List.Forall₂.nil
  | cons item rest =>
    rw [atomsOf, List.forall_mem_append] at kept
    exact List.Forall₂.cons (evaluate_related respected item _ _ kept.1)
      (evaluateAll_related respected rest _ _ _ _ kept.2)
termination_by structural items
end

end

theorem evaluate_lasts {world later : World} (condition : Condition) (path route : String)
    (kept : ∀ atom ∈ condition.atoms, Lasts (world.valueOf atom) (later.valueOf atom)) :
    Lasts (world.evaluate condition path).truth (later.evaluate condition route).truth :=
  @evaluate_related Lasts _ _ ⟨fun _ _ => rfl, Lasts.not, Lasts.all, Lasts.any⟩ condition path
    route kept

theorem eq_respected : Respected Eq where
  refl := fun _ => rfl
  not := congrArg notTruth
  all := fun same => congrArg allTruth (List.forall₂_eq_eq_eq ▸ same)
  any := fun same => congrArg anyTruth (List.forall₂_eq_eq_eq ▸ same)

/-! What an evaluation rests on. -/

inductive Leaf
  | constant
  | vacuous
  | atom (ref : VersionedRef) (arguments : Dict String ValueExpr)

mutual
def Condition.leaves : Condition → List Leaf
  | .predicate ref arguments => [.atom ref arguments]
  | .all items => if items.isEmpty then [.vacuous] else leavesOf items
  | .any items => if items.isEmpty then [.vacuous] else leavesOf items
  | .not item => item.leaves
  | .constant _ => [.constant]

def leavesOf : List Condition → List Leaf
  | [] => []
  | item :: rest => item.leaves ++ leavesOf rest
end

namespace World
variable (world : World)

def leafProvenance : Leaf → SupportProvenance
  | .constant => .constant
  | .vacuous => .constant
  | .atom ref arguments =>
    match world.registry.resolve PredicateSignature.predicateRef ref,
        world.propositionOf (ref, arguments) with
    | some signature, some key => world.atomProvenance signature (world.snapshot.lookup key)
    | _, _ => .unresolved

def leafProposition (truth : TruthValue) : Leaf → List String
  | .atom ref arguments =>
    if world.valueOf (ref, arguments) = truth then
      (world.propositionOf (ref, arguments)).toList
    else []
  | _ => []

end World

/-- An evaluation's lists are those of its leaves, each thing once. -/
structure RestsOn (world : World) (evaluation : ConditionEvaluation) (leaves : List Leaf) :
    Prop where
  provenance : evaluation.provenance = fromkeys (leaves.map world.leafProvenance)
  unknown : evaluation.unknownPropositions =
    fromkeys (leaves.flatMap (world.leafProposition .unknown))
  conflicting : evaluation.conflictingPropositions =
    fromkeys (leaves.flatMap (world.leafProposition .conflict))

theorem evaluateAtom_restsOn (world : World) (ref : VersionedRef)
    (arguments : Dict String ValueExpr) (path : String) :
    RestsOn world (world.evaluateAtom ref arguments path) [.atom ref arguments] := by
  cases proposition : world.propositionOf (ref, arguments) with
  | none =>
    obtain ⟨errors, same⟩ := evaluateAtom_untyped proposition path
    rw [same]
    constructor
    · rw [List.map_singleton, World.leafProvenance, proposition]
      cases world.registry.resolve PredicateSignature.predicateRef ref <;> rfl
    all_goals
      rw [List.flatMap_singleton, World.leafProposition, proposition]
      split <;> rfl
  | some key =>
    obtain ⟨signature, found, grounds, ok, rfl⟩ := propositionOf_eq_some.mp proposition
    rw [evaluateAtom_typed_eq found grounds ok]
    constructor
    · simp only [List.map_singleton, World.leafProvenance, proposition, found]
      rfl
    all_goals
      simp only [List.flatMap_singleton, World.leafProposition, World.valueOf, proposition]
      split <;> rfl

variable {evaluation : ConditionEvaluation}

theorem RestsOn.not {leaves : List Leaf} (rests : RestsOn world evaluation leaves)
    (truth : TruthValue) :
    RestsOn world (evaluation.mergedWith [] truth) leaves where
  provenance := by
    dsimp only [ConditionEvaluation.mergedWith]
    rw [List.flatMap_nil, List.append_nil, rests.provenance, fromkeys_fromkeys]
  unknown := by
    dsimp only [ConditionEvaluation.mergedWith]
    rw [List.flatMap_nil, List.append_nil, rests.unknown, fromkeys_fromkeys]
  conflicting := by
    dsimp only [ConditionEvaluation.mergedWith]
    rw [List.flatMap_nil, List.append_nil, rests.conflicting, fromkeys_fromkeys]

structure RestOn (world : World) (children : List ConditionEvaluation) (leaves : List Leaf) :
    Prop where
  provenance : fromkeys (children.flatMap (·.provenance)) =
    fromkeys (leaves.map world.leafProvenance)
  unknown : fromkeys (children.flatMap (·.unknownPropositions)) =
    fromkeys (leaves.flatMap (world.leafProposition .unknown))
  conflicting : fromkeys (children.flatMap (·.conflictingPropositions)) =
    fromkeys (leaves.flatMap (world.leafProposition .conflict))

theorem fromkeys_cons_flat {α β : Type} [DecidableEq α] {first : List α} {part : β → List α}
    {rest : List β} {head tail : List α} (same : first = fromkeys head)
    (later : fromkeys (rest.flatMap part) = fromkeys tail) :
    fromkeys (first ++ rest.flatMap part) = fromkeys (head ++ tail) := by
  rw [same, fromkeys_append_left, ← fromkeys_append_right, later, fromkeys_append_right]

theorem RestOn.cons {world : World} {child : ConditionEvaluation} {leaf : List Leaf}
    {children : List ConditionEvaluation} {leaves : List Leaf} (first : RestsOn world child leaf)
    (rest : RestOn world children leaves) : RestOn world (child :: children) (leaf ++ leaves) where
  provenance := by
    rw [List.flatMap_cons, List.map_append]
    exact fromkeys_cons_flat first.provenance rest.provenance
  unknown := by
    rw [List.flatMap_cons, List.flatMap_append]
    exact fromkeys_cons_flat first.unknown rest.unknown
  conflicting := by
    rw [List.flatMap_cons, List.flatMap_append]
    exact fromkeys_cons_flat first.conflicting rest.conflicting

theorem combine_restsOn {children : List ConditionEvaluation} {leaves : List Leaf}
    (rest : RestOn world children leaves) (truth : TruthValue) :
    RestsOn world (combine children truth)
      (if children.isEmpty then [.vacuous] else leaves) := by
  unfold combine
  split
  · exact ⟨rfl, rfl, rfl⟩
  · exact ⟨rest.provenance, rest.unknown, rest.conflicting⟩

theorem evaluateAll_isEmpty (world : World) (items : List Condition) (path : String)
    (position : Nat) : (world.evaluateAll items path position).isEmpty = items.isEmpty := by
  cases items <;> rfl

mutual
theorem evaluate_restsOn (world : World) (condition : Condition) (path : String) :
    RestsOn world (world.evaluate condition path) condition.leaves := by
  cases condition with
  | constant value => exact ⟨rfl, rfl, rfl⟩
  | not item => exact (evaluate_restsOn world item _).not _
  | all items | any items =>
    rw [World.evaluate, Condition.leaves, ← evaluateAll_isEmpty world items path 0]
    exact combine_restsOn (evaluateAll_restOn world items path 0) _
  | predicate ref arguments => exact evaluateAtom_restsOn world ref arguments path
termination_by structural condition

theorem evaluateAll_restOn (world : World) (items : List Condition) (path : String)
    (position : Nat) :
    RestOn world (world.evaluateAll items path position) (leavesOf items) := by
  cases items with
  | nil => exact ⟨rfl, rfl, rfl⟩
  | cons item rest =>
    exact RestOn.cons (evaluate_restsOn world item _) (evaluateAll_restOn world rest path _)
termination_by structural items
end

/-! De Morgan's laws. -/

/-- Two evaluations that agree in everything but the places named in their type errors. -/
structure Alike (first second : ConditionEvaluation) : Prop where
  truth : first.truth = second.truth
  provenance : first.provenance = second.provenance
  unknown : first.unknownPropositions = second.unknownPropositions
  conflicting : first.conflictingPropositions = second.conflictingPropositions
  typed : first.typeErrors = [] ↔ second.typeErrors = []

variable (items : List Condition)

theorem leavesOf_not : leavesOf (items.map .not) = leavesOf items := by
  induction items with
  | nil => rfl
  | cons item rest ih => rw [List.map_cons, leavesOf, leavesOf, ih, Condition.leaves]

theorem atomsOf_not : atomsOf (items.map .not) = atomsOf items := by
  induction items with
  | nil => rfl
  | cons item rest ih => rw [List.map_cons, atomsOf, atomsOf, ih, Condition.atoms]

theorem evaluateAll_not (world : World) (items : List Condition) (path route : String)
    (position spot : Nat) :
    (world.evaluateAll (items.map .not) path position).map (·.truth) =
      ((world.evaluateAll items route spot).map (·.truth)).map notTruth := by
  induction items generalizing position spot with
  | nil => rfl
  | cons item rest ih =>
    simp only [List.map_cons, World.evaluateAll, World.evaluate, mergedWith_truth]
    rw [ih _ (spot + 1),
      evaluate_related eq_respected item _ s!"{route}[{spot}]" fun _ _ => rfl]

theorem alike_of_truth {first second : Condition} {path route : String}
    (truth : (world.evaluate first path).truth = (world.evaluate second route).truth)
    (leaves : first.leaves = second.leaves) (atoms : first.atoms = second.atoms) :
    Alike (world.evaluate first path) (world.evaluate second route) where
  truth := truth
  provenance := by
    rw [(evaluate_restsOn world first path).provenance, leaves,
      (evaluate_restsOn world second route).provenance]
  unknown := by
    rw [(evaluate_restsOn world first path).unknown, leaves,
      (evaluate_restsOn world second route).unknown]
  conflicting := by
    rw [(evaluate_restsOn world first path).conflicting, leaves,
      (evaluate_restsOn world second route).conflicting]
  typed := by rw [evaluate_typed, evaluate_typed, atoms]

theorem not_all_alike (world : World) (items : List Condition) (path route : String) :
    Alike (world.evaluate (.not (.all items)) path)
      (world.evaluate (.any (items.map .not)) route) := by
  apply alike_of_truth
  · rw [World.evaluate, World.evaluate, World.evaluate, mergedWith_truth, combine_truth,
      combine_truth, evaluateAll_not world items route s!"{path}.not" 0 0, anyTruth_not]
  · rw [Condition.leaves, Condition.leaves, Condition.leaves, leavesOf_not, List.isEmpty_map]
  · rw [Condition.atoms, Condition.atoms, Condition.atoms, atomsOf_not]

theorem not_any_alike (world : World) (items : List Condition) (path route : String) :
    Alike (world.evaluate (.not (.any items)) path)
      (world.evaluate (.all (items.map .not)) route) := by
  apply alike_of_truth
  · rw [World.evaluate, World.evaluate, World.evaluate, mergedWith_truth, combine_truth,
      combine_truth, evaluateAll_not world items route s!"{path}.not" 0 0, allTruth_not]
  · rw [Condition.leaves, Condition.leaves, Condition.leaves, leavesOf_not, List.isEmpty_map]
  · rw [Condition.atoms, Condition.atoms, Condition.atoms, atomsOf_not]

/-- More evidence never overturns a definite verdict, and NOT moves through ALL and ANY. -/
theorem verdicts_last_and_dualise (world : World) :
    (∀ (later : EvidenceSnapshot) (condition : Condition) (path : String),
      (∀ atom ∈ condition.atoms, world.valueOf atom ≠ .unknown →
        (world.withSnapshot later).valueOf atom = world.valueOf atom) →
      (world.evaluate condition path).truth = .true ∨
        (world.evaluate condition path).truth = .false →
      ((world.withSnapshot later).evaluate condition path).truth =
        (world.evaluate condition path).truth) ∧
    (∀ (items : List Condition) (path route : String),
      Alike (world.evaluate (.not (.all items)) path)
        (world.evaluate (.any (items.map .not)) route)) ∧
    ∀ (items : List Condition) (path route : String),
      Alike (world.evaluate (.not (.any items)) path)
        (world.evaluate (.all (items.map .not)) route) := by
  refine ⟨?_, not_all_alike world, not_any_alike world⟩
  intro later condition path kept definite
  apply evaluate_lasts condition path path _ definite
  intro atom inside settled
  apply kept atom inside
  cases settled with
  | inl holds => rw [holds]; decide
  | inr fails => rw [fails]; decide

/-! The gate. -/

/-- The entry counts now, and something was observed. -/
structure EvidenceEntry.Usable (entry : EvidenceEntry) (nowMs : Option Nat) : Prop where
  current : entry.validity = .current
  readable : entry.availability = .readable
  inTime : ∀ now deadline, nowMs = some now → entry.notAfterMs = some deadline → now ≤ deadline
  supported : 0 < entry.support.t ∨ 0 < entry.support.f

/-- The leaf is an atom that resolves and whose proposition has usable support. -/
def Leaf.Backed (world : World) : Leaf → Prop
  | .atom ref arguments => ∃ key entry, world.propositionOf (ref, arguments) = some key ∧
      world.snapshot.lookup key = some entry ∧ entry.Usable world.nowMs
  | _ => False

theorem support_truth {support : SupportCount} :
    support.truth ≠ .unknown ↔ 0 < support.t ∨ 0 < support.f := by
  unfold Knowledge.SupportCount.truth
  split
  · next both => simp [both]
  · split
    · next some => simp [some]
    · next none =>
      split
      · next some => simp [some]
      · next none' => simp [none, none']

theorem entry_truth {entry : EvidenceEntry} {nowMs : Option Nat} :
    entry.truth nowMs ≠ .unknown ↔ entry.Usable nowMs := by
  unfold EvidenceEntry.truth
  split
  · next unusable =>
    simp only [ne_eq, not_true, false_iff]
    intro usable
    exact unusable.elim (· usable.current) (· usable.readable)
  · next usable =>
    rw [not_or, not_not, not_not] at usable
    split
    · next expired =>
      rw [Option.any_eq_true] at expired
      obtain ⟨now, atNow, expired⟩ := expired
      rw [Option.any_eq_true] at expired
      obtain ⟨deadline, limit, past⟩ := expired
      simp only [ne_eq, not_true, false_iff]
      intro usable
      have inTime := usable.inTime now deadline atNow limit
      have late := of_decide_eq_true past
      omega
    · next inTime =>
      rw [support_truth]
      constructor
      · intro supported
        refine ⟨usable.1, usable.2, ?_, supported⟩
        intro now deadline atNow limit
        rw [atNow, limit] at inTime
        simpa using inTime
      · intro usable
        exact usable.supported

theorem atomProvenance_authorizes {entry : Option EvidenceEntry} :
    (world.atomProvenance signature entry).authorizes = true ↔
      ∃ found, entry = some found ∧ found.Usable world.nowMs := by
  cases entry with
  | none => simp [World.atomProvenance, SupportProvenance.authorizes]
  | some entry =>
    simp only [Option.some.injEq, exists_eq_left', ← entry_truth]
    unfold World.atomProvenance
    dsimp only
    split
    · next open_ =>
      rw [open_]
      split <;> simp [SupportProvenance.authorizes]
    · next settled =>
      split <;> simp [SupportProvenance.authorizes, settled]

theorem leaf_authorizes {leaf : Leaf} :
    (world.leafProvenance leaf).authorizes = true ↔ leaf.Backed world := by
  cases leaf with
  | constant | vacuous => simp [World.leafProvenance, SupportProvenance.authorizes, Leaf.Backed]
  | atom ref arguments =>
    unfold World.leafProvenance Leaf.Backed
    cases proposition : world.propositionOf (ref, arguments) with
    | none =>
      cases world.registry.resolve PredicateSignature.predicateRef ref <;>
        simp [proposition, SupportProvenance.authorizes]
    | some key =>
      obtain ⟨signature, found, _⟩ := propositionOf_eq_some.mp proposition
      dsimp only at found
      simp [found, proposition, atomProvenance_authorizes]

mutual
theorem leaves_ne_nil (condition : Condition) : condition.leaves ≠ [] := by
  cases condition with
  | constant value => exact List.cons_ne_nil _ _
  | not item => exact leaves_ne_nil item
  | all items | any items => exact branch_ne_nil items
  | predicate ref arguments => exact List.cons_ne_nil _ _
termination_by structural condition

theorem branch_ne_nil (items : List Condition) :
    (if items.isEmpty then [.vacuous] else leavesOf items) ≠ [] := by
  cases items with
  | nil => exact List.cons_ne_nil _ _
  | cons item rest =>
    intro none
    exact leaves_ne_nil item (List.append_eq_nil_iff.mp none).1
termination_by structural items
end

mutual
theorem atoms_of_leaves {condition : Condition} {ref : VersionedRef}
    {arguments : Dict String ValueExpr} :
    .atom ref arguments ∈ condition.leaves ↔ (ref, arguments) ∈ condition.atoms := by
  cases condition with
  | constant value => simp [Condition.leaves, Condition.atoms]
  | not item => exact @atoms_of_leaves item ref arguments
  | all items | any items => exact @atoms_of_branch items ref arguments
  | predicate ref' arguments' => simp [Condition.leaves, Condition.atoms]
termination_by structural condition

theorem atoms_of_branch {items : List Condition} {ref : VersionedRef}
    {arguments : Dict String ValueExpr} :
    .atom ref arguments ∈ (if items.isEmpty then [.vacuous] else leavesOf items) ↔
      (ref, arguments) ∈ atomsOf items := by
  cases items with
  | nil => simp [atomsOf]
  | cons item rest =>
    have later := @atoms_of_branch rest ref arguments
    rw [List.isEmpty_cons, if_neg (by decide), leavesOf, atomsOf, List.mem_append,
      List.mem_append, @atoms_of_leaves item ref arguments]
    cases rest with
    | nil => simp [leavesOf, atomsOf]
    | cons next others => rw [← later, List.isEmpty_cons, if_neg (by decide)]
termination_by structural items
end

theorem authorizationGate_allowed :
    (authorizationGate evaluation).allowed = true ↔
      evaluation.truth = .true ∧ evaluation.provenance ≠ [] ∧
        ∀ provenance ∈ evaluation.provenance, provenance.authorizes = true := by
  unfold authorizationGate
  dsimp only
  split
  · next untrue => simp [untrue]
  · next holds =>
    rw [ne_eq, not_not] at holds
    split
    · next unsupported =>
      simp only [Bool.false_eq_true, false_iff]
      intro ⟨_, _, supported⟩
      apply unsupported
      rw [List.filter_eq_nil_iff]
      intro provenance inside
      simp [supported provenance inside]
    · next supported =>
      rw [ne_eq, not_not, List.filter_eq_nil_iff] at supported
      split
      · next none => simp [none]
      · next some =>
        simp only [holds, true_and, true_iff]
        refine ⟨some, ?_⟩
        intro provenance inside
        simpa using supported provenance inside

/-- The gate opens for a TRUE condition whose every leaf is an atom with usable support. -/
theorem gate_opens_iff (world : World) (condition : Condition) (path : String) :
    (authorizationGate (world.evaluate condition path)).allowed = true ↔
      (world.evaluate condition path).truth = .true ∧ condition.atoms ≠ [] ∧
        ∀ leaf ∈ condition.leaves, leaf.Backed world := by
  have rests := (evaluate_restsOn world condition path).provenance
  have nonempty : (world.evaluate condition path).provenance ≠ [] := by
    rw [rests, ne_eq, fromkeys_eq_nil, List.map_eq_nil_iff]
    exact leaves_ne_nil condition
  have supported : (∀ provenance ∈ (world.evaluate condition path).provenance,
      provenance.authorizes = true) ↔ ∀ leaf ∈ condition.leaves, leaf.Backed world := by
    rw [rests]
    simp only [mem_fromkeys, List.forall_mem_map, leaf_authorizes]
  rw [authorizationGate_allowed, supported]
  constructor
  · intro ⟨holds, _, backed⟩
    refine ⟨holds, ?_, backed⟩
    obtain ⟨leaf, inside⟩ := List.exists_mem_of_ne_nil _ (leaves_ne_nil condition)
    cases leaf with
    | constant => exact absurd (backed _ inside) id
    | vacuous => exact absurd (backed _ inside) id
    | atom ref arguments => exact List.ne_nil_of_mem (atoms_of_leaves.mp inside)
  · intro ⟨holds, _, backed⟩
    exact ⟨holds, nonempty, backed⟩

/-! The questions asked. -/

/-- An atom whose value is not known, by the key an observer is asked under. -/
structure UnknownProposition where
  propositionKey : String
  predicateRef : VersionedRef
  truth : TruthValue

/-- What `unknown_predicates` adds for one atom. -/
def World.unknownOf (world : World) (atom : VersionedRef × Dict String ValueExpr) :
    List UnknownProposition :=
  let evaluation := world.evaluate (.predicate atom.1 atom.2) "precondition"
  if evaluation.truth ≠ .unknown then []
  else
    let keys := if evaluation.unknownPropositions = [] then
        [s!"{atom.1.id.text}@{atom.1.version.number}#unresolved"]
      else evaluation.unknownPropositions
    keys.map fun key => { propositionKey := key, predicateRef := atom.1, truth := evaluation.truth }

/-- `unknown_predicates`: the atoms whose truth is UNKNOWN right now, each key once. -/
def World.unknownPredicates (world : World) (conditions : List Condition) :
    List UnknownProposition :=
  firsts UnknownProposition.propositionKey [] ((atomsOf conditions).flatMap world.unknownOf)

theorem mem_unknownOf {key : String} (proposition : world.propositionOf atom = some key)
    {asked : UnknownProposition} :
    asked ∈ world.unknownOf atom ↔
      world.valueOf atom = .unknown ∧
        asked = { propositionKey := key, predicateRef := atom.1, truth := .unknown } := by
  unfold World.unknownOf
  dsimp only
  rw [World.evaluate, (evaluateAtom_valued ..).1, (evaluateAtom_valued ..).2]
  split
  · next known => simp [known]
  · next unknown =>
    rw [ne_eq, not_not] at unknown
    simp [unknown, proposition]

mutual
theorem evaluate_known {world : World} (condition : Condition) (path : String)
    (known : ∀ atom ∈ condition.atoms, world.valueOf atom ≠ .unknown) :
    (world.evaluate condition path).truth ≠ .unknown := by
  cases condition with
  | constant value => cases value <;> exact nofun
  | not item =>
    rw [World.evaluate, mergedWith_truth, ne_eq, notTruth_unknown]
    exact evaluate_known item _ known
  | all items =>
    rw [World.evaluate, combine_truth]
    exact allTruth_known (evaluateAll_known items path 0 known)
  | any items =>
    rw [World.evaluate, combine_truth]
    exact anyTruth_known (evaluateAll_known items path 0 known)
  | predicate ref arguments =>
    rw [World.evaluate, (evaluateAtom_valued ..).1]
    exact known _ List.mem_cons_self
termination_by structural condition

theorem evaluateAll_known {world : World} (items : List Condition) (path : String)
    (position : Nat) (known : ∀ atom ∈ atomsOf items, world.valueOf atom ≠ .unknown) :
    ∀ value ∈ (world.evaluateAll items path position).map (·.truth), value ≠ .unknown := by
  cases items with
  | nil => exact List.forall_mem_nil _
  | cons item rest =>
    rw [atomsOf, List.forall_mem_append] at known
    rw [World.evaluateAll, List.map_cons, List.forall_mem_cons]
    exact ⟨evaluate_known item _ known.1, evaluateAll_known rest path _ known.2⟩
termination_by structural items
end

/-- What asking about a condition brings: the questions are its open atoms, and answers to them
settle it. -/
structure Progress (world : World) (condition : Condition) (path : String) : Prop where
  someAsked : world.unknownPredicates [condition] ≠ []
  distinct : ((world.unknownPredicates [condition]).map (·.propositionKey)).Nodup
  /-- Only open atoms are asked about. -/
  sound : ∀ asked ∈ world.unknownPredicates [condition], ∃ atom ∈ condition.atoms,
    world.propositionOf atom = some asked.propositionKey ∧ world.valueOf atom = .unknown ∧
      asked.predicateRef = atom.1 ∧ asked.truth = .unknown
  /-- Every open atom is asked about. -/
  complete : ∀ atom ∈ condition.atoms, world.valueOf atom = .unknown →
    ∃ asked ∈ world.unknownPredicates [condition],
      world.propositionOf atom = some asked.propositionKey
  settles : ∀ later : EvidenceSnapshot,
    (∀ atom ∈ condition.atoms,
      if ∃ asked ∈ world.unknownPredicates [condition],
          world.propositionOf atom = some asked.propositionKey then
        (world.withSnapshot later).valueOf atom = .true ∨
          (world.withSnapshot later).valueOf atom = .false
      else (world.withSnapshot later).valueOf atom = world.valueOf atom) →
    ((world.withSnapshot later).evaluate condition path).truth ≠ .unknown

/-- Asking for the evidence of an UNKNOWN condition makes progress. -/
theorem unknown_asks (world : World) (condition : Condition) (path : String)
    (unknown : (world.evaluate condition path).truth = .unknown)
    (typed : (world.evaluate condition path).typeErrors = []) :
    Progress world condition path := by
  have propositions : ∀ atom ∈ condition.atoms, ∃ key, world.propositionOf atom = some key :=
    fun atom inside => typed_iff.mp ((evaluate_typed world condition path).mp typed atom inside)
  have atoms : atomsOf [condition] = condition.atoms := List.append_nil _
  have complete : ∀ atom ∈ condition.atoms, world.valueOf atom = .unknown →
      ∃ asked ∈ world.unknownPredicates [condition],
        world.propositionOf atom = some asked.propositionKey := by
    intro atom inside opened
    obtain ⟨key, proposition⟩ := propositions atom inside
    have met : UnknownProposition.mk key atom.1 .unknown ∈
        (atomsOf [condition]).flatMap world.unknownOf := by
      rw [List.mem_flatMap, atoms]
      exact ⟨atom, inside, (mem_unknownOf proposition).mpr ⟨opened, rfl⟩⟩
    obtain ⟨asked, listed, same⟩ :=
      exists_firsts UnknownProposition.propositionKey [] met (List.not_mem_nil)
    exact ⟨asked, listed, proposition.trans (congrArg some same.symm)⟩
  have someOpen : ∃ atom ∈ condition.atoms, world.valueOf atom = .unknown := by
    by_contra none
    apply evaluate_known condition path _ unknown
    intro atom inside opened
    exact none ⟨atom, inside, opened⟩
  refine ⟨?_, (firsts_fresh _ _ _).1, ?_, complete, ?_⟩
  · obtain ⟨atom, inside, opened⟩ := someOpen
    obtain ⟨asked, listed, _⟩ := complete atom inside opened
    exact List.ne_nil_of_mem listed
  · intro asked listed
    have met := (firsts_sublist _ _ _).subset listed
    rw [List.mem_flatMap, atoms] at met
    obtain ⟨atom, inside, met⟩ := met
    obtain ⟨key, proposition⟩ := propositions atom inside
    obtain ⟨opened, rfl⟩ := (mem_unknownOf proposition).mp met
    exact ⟨atom, inside, proposition, opened, rfl, rfl⟩
  · intro later answered
    apply evaluate_known
    intro atom inside
    have answer := answered atom inside
    split at answer
    · next listed =>
      cases answer with
      | inl holds => rw [holds]; decide
      | inr fails => rw [fails]; decide
    · next unlisted =>
      rw [answer]
      exact fun opened => unlisted (complete atom inside opened)

theorem suite_open : WorldAssumption.opened = .closed → ([] : List Identifier) ≠ [] := by decide

def suiteGreen : PredicateSignature where
  predicateRef := refTo ⟨"suite.green", by decide⟩
  distinct := by exact List.nodup_nil
  observed := suite_open

def unobserved : World where
  contentHashOf := fun _ =>
    ⟨"cd5b67b1800e07eb24165296288293d4f2dbcb8aacecb859a029a8a414da7d65", by decide⟩
  registry := [((⟨"suite.green", by decide⟩, first), suiteGreen)]
  snapshot := []
  parameters := []

theorem unknown_asks_suite : Progress unobserved
    (.all [.constant true, .not (.predicate suiteGreen.predicateRef [])]) "condition" :=
  unknown_asks unobserved _ _ rfl rfl

end Registry
