import HarnessSdk.Acceptance.Expressions

/-! What the witness path of a success expression shows about its verdict. -/
namespace Acceptance
open PyDict Contracts

def projected (outcomes : Outcomes) (id : Identifier) : CriterionVerdict :=
  ((get? outcomes id).map projectVerdict).getD .unknown

/-- What `any` and `all` share: the first child with the deciding verdict speaks for the node, which
has the neutral verdict only when every child has. -/
def decidedBy (decisive neutral : CriterionVerdict) (branches : List Branch) : Branch :=
  match branches.find? (·.1 = decisive) with
  | some branch => (decisive, branch.2)
  | none =>
    if ∀ branch ∈ branches, branch.1 = neutral then (neutral, pathsOf branches)
    else (.unknown, pathsOf (branches.filter (·.1 ≠ neutral)))

section
variable (outcomes : Outcomes)

theorem walk_criterion (id : Identifier) :
    walk outcomes (.criterion id) = (projected outcomes id, [id]) := by
  rw [walk, projected]
  cases get? outcomes id <;> rfl

theorem walk_all (children : List SuccessExpression) :
    walk outcomes (.all children) = decidedBy .fail .pass (children.map (walk outcomes)) := by
  rw [walk, walkAll_eq_map]
  rfl

theorem walk_any (children : List SuccessExpression) :
    walk outcomes (.any children) = decidedBy .pass .fail (children.map (walk outcomes)) := by
  rw [walk, walkAll_eq_map]
  rfl

end

theorem mem_pathsOf {branches : List Branch} {id : Identifier} :
    id ∈ pathsOf branches ↔ ∃ branch ∈ branches, id ∈ branch.2 := by
  rw [pathsOf, mem_fromkeys, List.mem_flatMap]

/-- How a node is decided: by one child, by all of them, or not yet. -/
inductive Decided (decisive neutral : CriterionVerdict) (branches : List Branch) : Branch → Prop
  | one {branch} (inside : branch ∈ branches) (decides : branch.1 = decisive) :
      Decided decisive neutral branches (decisive, branch.2)
  | every (alike : ∀ branch ∈ branches, branch.1 = neutral) :
      Decided decisive neutral branches (neutral, pathsOf branches)
  | stuck (undecided : ∀ branch ∈ branches, branch.1 ≠ decisive)
      (missed : ∃ branch ∈ branches, branch.1 ≠ neutral) :
      Decided decisive neutral branches (.unknown, pathsOf (branches.filter (·.1 ≠ neutral)))

theorem decidedBy_decided (decisive neutral : CriterionVerdict) (branches : List Branch) :
    Decided decisive neutral branches (decidedBy decisive neutral branches) := by
  unfold decidedBy
  cases found : branches.find? (·.1 = decisive) with
  | some branch =>
    exact .one (List.mem_of_find?_eq_some found) (by simpa using List.find?_some found)
  | none =>
    have undecided := List.find?_eq_none.mp found
    simp only [decide_eq_true_eq] at undecided
    by_cases alike : ∀ branch ∈ branches, branch.1 = neutral
    · simpa only [if_pos alike] using .every alike
    · simp only [if_neg alike]
      push Not at alike
      exact .stuck undecided alike

inductive Opposed : CriterionVerdict → CriterionVerdict → Prop
  | any : Opposed .pass .fail
  | all : Opposed .fail .pass

section
variable {decisive neutral : CriterionVerdict} (opposed : Opposed decisive neutral)
include opposed

theorem Opposed.cases (verdict : CriterionVerdict) :
    verdict = decisive ∨ verdict = neutral ∨ verdict = .unknown := by
  cases opposed <;> cases verdict <;> simp

theorem Opposed.definite : decisive ≠ .unknown ∧ neutral ≠ .unknown := by
  cases opposed <;> simp

theorem Opposed.ne : decisive ≠ neutral := by
  cases opposed <;> simp

theorem decidedBy_verdict {branches : List Branch} :
    ((∃ branch ∈ branches, branch.1 = decisive) → (decidedBy decisive neutral branches).1 = decisive) ∧
      ((∀ branch ∈ branches, branch.1 = neutral) →
        (decidedBy decisive neutral branches).1 = neutral) := by
  have decided := decidedBy_decided decisive neutral branches
  constructor
  · rintro ⟨branch, inside, decides⟩
    unfold decidedBy
    cases found : branches.find? (·.1 = decisive) with
    | some _ => rfl
    | none => exact absurd decides (by simpa using List.find?_eq_none.mp found branch inside)
  · intro alike
    generalize decidedBy decisive neutral branches = node at decided ⊢
    cases decided with
    | one inside decides => exact absurd (decides.symm.trans (alike _ inside)) opposed.ne
    | every _ => rfl
    | stuck _ missed =>
      obtain ⟨branch, inside, different⟩ := missed
      exact absurd (alike branch inside) different

def Marked (outcomes : Outcomes) (branch : Branch) : Prop :=
  ∀ id ∈ branch.2, projected outcomes id = branch.1

theorem decidedBy_marked {outcomes : Outcomes} {branches : List Branch}
    (marked : ∀ branch ∈ branches, Marked outcomes branch) :
    Marked outcomes (decidedBy decisive neutral branches) := by
  intro id listed
  have decided := decidedBy_decided decisive neutral branches
  generalize decidedBy decisive neutral branches = node at decided listed ⊢
  cases decided with
  | one inside decides => exact (marked _ inside id listed).trans decides
  | every alike =>
    obtain ⟨branch, inside, onPath⟩ := mem_pathsOf.mp listed
    exact (marked branch inside id onPath).trans (alike branch inside)
  | stuck undecided missed =>
    obtain ⟨branch, kept, onPath⟩ := mem_pathsOf.mp listed
    obtain ⟨inside, different⟩ := List.mem_filter.mp kept
    rcases opposed.cases branch.1 with same | same | same
    · exact absurd same (undecided branch inside)
    · simp [same] at different
    · exact (marked branch inside id onPath).trans same

omit opposed in
theorem walk_marked (outcomes : Outcomes) (expression : SuccessExpression) :
    Marked outcomes (walk outcomes expression) := by
  induction expression using SuccessExpression.byChildren with
  | criterion id =>
    rw [walk_criterion]
    simp [Marked]
  | all children ih =>
    rw [walk_all]
    exact decidedBy_marked .all (List.forall_mem_map.mpr ih)
  | any children ih =>
    rw [walk_any]
    exact decidedBy_marked .any (List.forall_mem_map.mpr ih)

def Settles (outcomes outcomes' : Outcomes) : Prop :=
  ∀ id, projected outcomes id ≠ .unknown → projected outcomes' id = projected outcomes id

/-- Other outcomes give a verdict to every id of a path, which has it already or has none. -/
structure Steers (outcomes outcomes' : Outcomes) (verdict : CriterionVerdict) (branch : Branch) :
    Prop where
  path : ∀ id ∈ branch.2, projected outcomes' id = verdict
  toward : branch.1 = verdict ∨ branch.1 = .unknown ∧ Settles outcomes outcomes'

theorem decidedBy_steered {outcomes outcomes' : Outcomes} {verdict : CriterionVerdict}
    {children : List SuccessExpression} (definite : verdict ≠ .unknown)
    (ih : ∀ child ∈ children, ∀ verdict ≠ .unknown,
      Steers outcomes outcomes' verdict (walk outcomes child) → (walk outcomes' child).1 = verdict)
    (steers : Steers outcomes outcomes' verdict
      (decidedBy decisive neutral (children.map (walk outcomes)))) :
    (decidedBy decisive neutral (children.map (walk outcomes'))).1 = verdict := by
  obtain ⟨path, toward⟩ := steers
  have once : ∀ child ∈ children, (walk outcomes' child).1 = decisive →
      (decidedBy decisive neutral (children.map (walk outcomes'))).1 = decisive :=
    fun child inside decides =>
      (decidedBy_verdict opposed).1 ⟨walk outcomes' child, List.mem_map_of_mem inside, decides⟩
  have throughout : (∀ child ∈ children, (walk outcomes' child).1 = neutral) →
      (decidedBy decisive neutral (children.map (walk outcomes'))).1 = neutral :=
    fun alike => (decidedBy_verdict opposed).2 (List.forall_mem_map.mpr alike)
  have decided := decidedBy_decided decisive neutral (children.map (walk outcomes))
  generalize decidedBy decisive neutral (children.map (walk outcomes)) = node at decided path toward
  cases decided with
  | one listed decides =>
    obtain ⟨child, inside, rfl⟩ := List.mem_map.mp listed
    rcases toward with rfl | ⟨unknown, _⟩
    · exact once child inside (ih child inside _ definite ⟨path, .inl decides⟩)
    · exact absurd unknown opposed.definite.1
  | every alike =>
    rw [List.forall_mem_map] at alike
    rcases toward with rfl | ⟨unknown, _⟩
    · refine throughout fun child inside => ih child inside _ definite ⟨?_, .inl (alike child inside)⟩
      exact fun id listed => path id (mem_pathsOf.mpr ⟨_, List.mem_map_of_mem inside, listed⟩)
    · exact absurd unknown opposed.definite.2
  | stuck undecided missed =>
    obtain same | ⟨_, settles⟩ := toward
    · exact absurd same.symm definite
    rw [List.forall_mem_map] at undecided
    have open_child : ∀ child ∈ children, (walk outcomes child).1 ≠ neutral →
        (walk outcomes' child).1 = verdict := by
      intro child inside different
      have unknown := ((opposed.cases _).resolve_left (undecided child inside)).resolve_left different
      refine ih child inside _ definite ⟨fun id listed => path id ?_, .inr ⟨unknown, settles⟩⟩
      exact mem_pathsOf.mpr ⟨_, List.mem_filter.mpr
        ⟨List.mem_map_of_mem inside, by simpa using different⟩, listed⟩
    rcases opposed.cases verdict with rfl | rfl | unknown
    · obtain ⟨branch, listed, different⟩ := missed
      obtain ⟨child, inside, rfl⟩ := List.mem_map.mp listed
      exact once child inside (open_child child inside different)
    · refine throughout fun child inside => ?_
      by_cases same : (walk outcomes child).1 = verdict
      · -- a neutral child stays so, since its path was settled before
        refine ih child inside _ definite ⟨fun id listed => ?_, .inl same⟩
        have before := (walk_marked outcomes child id listed).trans same
        exact (settles id (before ▸ definite)).trans before
      · exact open_child child inside same
    · exact absurd unknown definite

end

theorem walk_steered {outcomes outcomes' : Outcomes} (expression : SuccessExpression) :
    ∀ verdict ≠ .unknown, Steers outcomes outcomes' verdict (walk outcomes expression) →
      (walk outcomes' expression).1 = verdict := by
  induction expression using SuccessExpression.byChildren with
  | criterion id =>
    intro verdict _ steers
    rw [walk_criterion] at steers ⊢
    exact steers.path id List.mem_cons_self
  | all children ih =>
    intro verdict definite steers
    rw [walk_all] at steers ⊢
    exact decidedBy_steered .all definite ih steers
  | any children ih =>
    intro verdict definite steers
    rw [walk_any] at steers ⊢
    exact decidedBy_steered .any definite ih steers

def resolve (verdict : CriterionVerdict) (outcomes : Outcomes) : List Identifier → Outcomes
  | [] => outcomes
  | id :: rest => set (resolve verdict outcomes rest) id (concluded verdict id)

theorem projected_resolve (verdict : CriterionVerdict) (outcomes : Outcomes)
    (ids : List Identifier) (id : Identifier) : projected (resolve verdict outcomes ids) id =
      if id ∈ ids then verdict else projected outcomes id := by
  induction ids with
  | nil => rfl
  | cons first rest ih =>
    rw [projected, resolve, get?_set]
    by_cases same : first = id
    · simp [same, projectVerdict, concluded]
    · rw [if_neg same, ← projected, ih]
      simp [Ne.symm same]

/-- Outcomes in which all that a path left open has one verdict, and nothing else is changed. -/
def Resolves (outcomes outcomes' : Outcomes) (path : List Identifier)
    (verdict : CriterionVerdict) : Prop :=
  ∀ id, projected outcomes' id =
    if id ∈ path ∧ projected outcomes id = .unknown then verdict else projected outcomes id

structure Certified (expression : SuccessExpression) (outcomes : Outcomes)
    (result : ExpressionResult) : Prop where
  decided : result.verdict ≠ .unknown → ∀ outcomes' : Outcomes,
    (∀ id ∈ result.witnessPath, projected outcomes' id = projected outcomes id) →
      (evaluateSuccessExpression expression outcomes').verdict = result.verdict
  settled : result.verdict ≠ .unknown → ∀ outcomes' : Outcomes, Settles outcomes outcomes' →
    (evaluateSuccessExpression expression outcomes').verdict = result.verdict
  undecided : result.verdict = .unknown →
    ∃ id ∈ result.witnessPath, projected outcomes id = .unknown
  resolvable : result.verdict = .unknown → ∀ verdict ≠ .unknown,
    (∃ outcomes', Resolves outcomes outcomes' result.witnessPath verdict) ∧
      ∀ outcomes', Resolves outcomes outcomes' result.witnessPath verdict →
        (evaluateSuccessExpression expression outcomes').verdict = verdict
  unevaluated : ∀ id, id ∈ result.unevaluatedIds ↔
    id ∈ expression.criterionIds ∧ get? outcomes id = none

/-- Each verdict follows from the ids on its path, and an open one is in their hands. -/
theorem witness_path_certifies (expression : SuccessExpression) (outcomes : Outcomes) :
    Certified expression outcomes (evaluateSuccessExpression expression outcomes) := by
  have marked := walk_marked outcomes expression
  have steered := fun outcomes' => @walk_steered outcomes outcomes' expression
  refine ⟨?_, ?_, ?_, ?_, ?_⟩
  · intro definite outcomes' agrees
    exact steered outcomes' _ definite ⟨fun id listed => (agrees id listed).trans (marked id listed),
      .inl rfl⟩
  · intro definite outcomes' settles
    refine steered outcomes' _ definite ⟨fun id listed => ?_, .inl rfl⟩
    have before := marked id listed
    exact (settles id (before ▸ definite)).trans before
  · intro unknown
    -- an empty path would steer the verdict anywhere, without a change
    have path : (walk outcomes expression).2 ≠ [] := by
      intro empty
      have pass := steered outcomes .pass nofun ⟨by simp [empty], .inr ⟨unknown, fun _ _ => rfl⟩⟩
      cases unknown.symm.trans pass
    obtain ⟨id, listed⟩ := List.exists_mem_of_ne_nil _ path
    exact ⟨id, listed, (marked id listed).trans unknown⟩
  · intro unknown verdict definite
    have left : ∀ id ∈ (walk outcomes expression).2, projected outcomes id = .unknown :=
      fun id listed => (marked id listed).trans unknown
    refine ⟨⟨resolve verdict outcomes (walk outcomes expression).2, fun id => ?_⟩, ?_⟩
    · rw [projected_resolve]
      exact if_congr ⟨fun listed => ⟨listed, left id listed⟩, And.left⟩ rfl rfl
    · intro outcomes' resolves
      refine steered outcomes' _ definite ⟨fun id listed => ?_, .inr ⟨unknown, fun id known => ?_⟩⟩
      · rw [resolves, if_pos ⟨listed, left id listed⟩]
      · rw [resolves, if_neg fun open_id => known open_id.2]
  · intro id
    simp [evaluateSuccessExpression, mem_fromkeys]

end Acceptance
