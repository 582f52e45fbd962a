import HarnessSdk.Acceptance.Formula

/-! The two evaluators of a success expression, and when the assured one takes the expression at
all. -/
namespace Acceptance
open PyDict PyText Checks Workflow Contracts

mutual
def SuccessExpression.size : SuccessExpression → Nat
  | .criterion _ => 1
  | .all children => childrenSize children + 1
  | .any children => childrenSize children + 1

def childrenSize : List SuccessExpression → Nat
  | [] => 0
  | child :: rest => child.size + childrenSize rest
end

mutual
def SuccessExpression.height : SuccessExpression → Nat
  | .criterion _ => 1
  | .all children => childrenHeight children + 1
  | .any children => childrenHeight children + 1

def childrenHeight : List SuccessExpression → Nat
  | [] => 0
  | child :: rest => max child.height (childrenHeight rest)
end

mutual
/-- No node has more than 256 children. -/
def SuccessExpression.Narrow : SuccessExpression → Prop
  | .criterion _ => True
  | .all children => children.length ≤ maxList ∧ ChildrenNarrow children
  | .any children => children.length ≤ maxList ∧ ChildrenNarrow children

def ChildrenNarrow : List SuccessExpression → Prop
  | [] => True
  | child :: rest => child.Narrow ∧ ChildrenNarrow rest
end

mutual
def formulaOf : SuccessExpression → Formula
  | .criterion id => .criterion id.text
  | .all children => .all (formulasOf children)
  | .any children => .any (formulasOf children)

def formulasOf : List SuccessExpression → List Formula
  | [] => []
  | child :: rest => formulaOf child :: formulasOf rest
end

variable {levels : Nat} (children : List SuccessExpression)

theorem childrenSize_eq : childrenSize children = (children.map SuccessExpression.size).sum := by
  induction children with
  | nil => rfl
  | cons child rest ih => rw [childrenSize, ih, List.map_cons, List.sum_cons]

theorem childrenNarrow_iff {children : List SuccessExpression} :
    ChildrenNarrow children ↔ ∀ child ∈ children, child.Narrow := by
  induction children with
  | nil => simp [ChildrenNarrow]
  | cons child rest ih => rw [ChildrenNarrow, ih, List.forall_mem_cons]

theorem childrenFormed_iff {children : List SuccessExpression} :
    childrenFormed children = true ↔ ∀ child ∈ children, child.formed = true := by
  induction children with
  | nil => simp [childrenFormed]
  | cons child rest ih => rw [childrenFormed, Bool.and_eq_true, ih, List.forall_mem_cons]

theorem childrenHeight_le {children : List SuccessExpression} :
    childrenHeight children ≤ levels ↔ ∀ child ∈ children, child.height ≤ levels := by
  induction children with
  | nil => simp [childrenHeight]
  | cons child rest ih => rw [childrenHeight, Nat.max_le, ih, List.forall_mem_cons]

theorem assuranceFormulas_eq : assuranceFormulas children = children.map assuranceFormula := by
  induction children with
  | nil => rfl
  | cons child rest ih => rw [assuranceFormulas, ih, List.map_cons]

theorem formulasOf_eq : formulasOf children = children.map formulaOf := by
  induction children with
  | nil => rfl
  | cons child rest ih => rw [formulasOf, ih, List.map_cons]

@[simp] theorem childrenLeaves_eq (beneath : Bool) (children : List SuccessExpression) :
    childrenLeaves beneath children = children.flatMap (SuccessExpression.leaves beneath) := by
  induction children with
  | nil => rfl
  | cons child rest ih => rw [childrenLeaves, ih, List.flatMap_cons]

mutual
theorem leaves_ids (beneath : Bool) (expression : SuccessExpression) :
    (expression.leaves beneath).map (·.1) = expression.criterionIds := by
  cases expression with
  | criterion id => rfl
  | all children =>
    rw [SuccessExpression.criterionIds, SuccessExpression.leaves, SuccessExpression.leaves,
      childrenLeaves_ids beneath children, childrenLeaves_ids false children]
  | any children => rfl
termination_by structural expression

theorem childrenLeaves_ids (beneath : Bool) (children : List SuccessExpression) :
    (childrenLeaves beneath children).map (·.1) =
      children.flatMap SuccessExpression.criterionIds := by
  cases children with
  | nil => rfl
  | cons child rest =>
    rw [childrenLeaves, List.map_append, leaves_ids beneath child, childrenLeaves_ids beneath rest,
      List.flatMap_cons]
termination_by structural children
end

@[simp] theorem criterionIds_all :
    (SuccessExpression.all children).criterionIds =
      children.flatMap SuccessExpression.criterionIds :=
  childrenLeaves_ids false children

@[simp] theorem criterionIds_any :
    (SuccessExpression.any children).criterionIds =
      children.flatMap SuccessExpression.criterionIds :=
  childrenLeaves_ids true children

theorem of_parseSuccessExpression (value : Json) (name : String) (budget : Nat)
    (expression : SuccessExpression) (rest : Nat)
    (ok : parseSuccessExpression levels value name budget = .ok (expression, rest)) :
    expression.Narrow ∧ budget = expression.size + rest := by
  induction levels generalizing value name budget expression rest with
  | zero => cases ok
  | succ levels ih =>
    rw [parseSuccessExpression] at ok
    obtain ⟨left, spent, ok⟩ := bind_eq_ok.mp ok
    obtain ⟨_, ok⟩ := then_eq_ok.mp ok
    have paid : budget = left + 1 := by
      cases budget <;> cases spent
      rfl
    split at ok
    case h_2 => cases ok
    case h_1 given =>
      split at ok
      case h_1 =>
        obtain ⟨data, _, ok⟩ := bind_eq_ok.mp ok
        obtain ⟨id, _, ok⟩ := bind_eq_ok.mp ok
        cases ok
        exact ⟨trivial, by rw [SuccessExpression.size]; omega⟩
      case h_2 | h_3 =>
        obtain ⟨data, _, ok⟩ := bind_eq_ok.mp ok
        obtain ⟨⟨children, after⟩, parsed, ok⟩ := bind_eq_ok.mp ok
        cases ok
        obtain ⟨narrow, more, short⟩ := of_sequenceOf ih parsed
        rw [← childrenSize_eq] at more
        exact ⟨⟨short, childrenNarrow_iff.mpr narrow⟩, by rw [SuccessExpression.size]; omega⟩
      case h_4 => cases ok

theorem visitAll_map {α β : Type} {visit : Json → Nat → Except AssuranceError (β × Nat)}
    {encode : α → Json} {decode : α → β} {size : α → Nat} {items : List α} {count : Nat}
    (each : ∀ item ∈ items, ∀ count, count + size item ≤ maxFormulaNodes →
      visit (encode item) count = .ok (decode item, count + size item))
    (room : count + (items.map size).sum ≤ maxFormulaNodes) :
    visitAll visit (items.map encode) count =
      .ok (items.map decode, count + (items.map size).sum) := by
  induction items generalizing count with
  | nil => rfl
  | cons item rest ih =>
    simp only [List.map_cons, List.sum_cons] at room ⊢
    have first := each item List.mem_cons_self count (by omega)
    have later := @ih (count + size item)
      (fun other inside => each other (List.mem_cons_of_mem item inside)) (by omega)
    rw [visitAll, first]
    simp only [bind, Except.bind, later, Nat.add_assoc]

variable {items : List Json}

theorem visitAll_refuses {α : Type} {visit : Json → Nat → Except AssuranceError (α × Nat)}
    {item : Json} (inside : item ∈ items)
    (refused : ∀ count, ∃ error, visit item count = .error error) (count : Nat) :
    ∃ error, visitAll visit items count = .error error := by
  induction items generalizing count with
  | nil => cases inside
  | cons first rest ih =>
    rw [visitAll]
    cases here : visit first count with
    | error error => exact ⟨error, rfl⟩
    | ok read =>
      rcases List.mem_cons.mp inside with rfl | inside
      · obtain ⟨error, bad⟩ := refused count
        rw [here] at bad
        cases bad
      · obtain ⟨error, bad⟩ := ih inside read.2
        exact ⟨error, by simp only [bind, Except.bind, bad]⟩

theorem assuredText_id (id : Identifier) : assuredText (.str id.text) = .ok id.text := by
  have formed := id.wellFormed
  simp only [identifierOk, Bool.and_eq_true, decide_eq_true_eq] at formed
  have some : 1 ≤ id.text.length := by
    by_contra none
    have empty : id.text = "" := String.length_eq_zero_iff.mp (by omega)
    rw [empty] at formed
    exact formed.1.1 (by decide)
  rw [assuredText, if_pos ⟨some, by have := formed.1.2; simp only [maxId] at this; simp only [maxAssuredText]; omega⟩]

section
variable {criteria : List String}

theorem array_formulas {children : List SuccessExpression} (some : children ≠ [])
    (short : children.length ≤ maxList) :
    array 1 (.arr (assuranceFormulas children)) = .ok (children.map assuranceFormula) := by
  have positive := List.length_pos_iff.mpr some
  rw [assuranceFormulas_eq, array, List.length_map,
    if_pos ⟨positive, by simpa only [maxArray, maxList] using short⟩]

theorem visitFormula_eq_ok {levels : Nat} {expression : SuccessExpression} {count : Nat}
    (formed : expression.formed = true) (narrow : expression.Narrow)
    (known : ∀ id ∈ expression.criterionIds, id.text ∈ criteria)
    (low : expression.height ≤ levels) (room : count + expression.size ≤ maxFormulaNodes) :
    visitFormula criteria levels (assuranceFormula expression) count =
      .ok (formulaOf expression, count + expression.size) := by
  induction levels generalizing expression count with
  | zero => cases expression <;> simp [SuccessExpression.height] at low
  | succ levels ih =>
    have several : ∀ children : List SuccessExpression,
        (children ≠ [] ∧ childrenFormed children = true) →
        (children.length ≤ maxList ∧ ChildrenNarrow children) →
        (∀ id ∈ children.flatMap SuccessExpression.criterionIds, id.text ∈ criteria) →
        childrenHeight children + 1 ≤ levels + 1 →
        count + (childrenSize children + 1) ≤ maxFormulaNodes →
        visitAll (visitFormula criteria levels) (children.map assuranceFormula) (count + 1) =
          .ok (formulasOf children, count + (childrenSize children + 1)) := by
      intro children formed narrow known low room
      have each : ∀ child ∈ children, ∀ before, before + child.size ≤ maxFormulaNodes →
          visitFormula criteria levels (assuranceFormula child) before =
            .ok (formulaOf child, before + child.size) := fun child inside before fits =>
        ih (childrenFormed_iff.mp formed.2 child inside)
          (childrenNarrow_iff.mp narrow.2 child inside)
          (fun id there => known id (List.mem_flatMap.mpr ⟨child, inside, there⟩))
          (childrenHeight_le.mp (Nat.le_of_succ_le_succ low) child inside) fits
      rw [childrenSize_eq] at room ⊢
      have fits : count + 1 + (children.map SuccessExpression.size).sum ≤ maxFormulaNodes := by
        omega
      rw [formulasOf_eq, visitAll_map each fits, Nat.add_assoc, Nat.add_comm 1]
    cases expression with
    | criterion id =>
      have here := known id (by simp [SuccessExpression.criterionIds, SuccessExpression.leaves])
      simp only [SuccessExpression.size] at room
      simp [assuranceFormula, visitFormula, formulaOf, SuccessExpression.size, assuredText_id, here,
        Nat.not_lt.mpr room, bind, Except.bind]
    | all children | any children =>
      simp only [SuccessExpression.formed, Bool.and_eq_true, Bool.not_eq_true',
        List.isEmpty_eq_false_iff] at formed
      simp only [SuccessExpression.Narrow] at narrow
      simp only [criterionIds_all, criterionIds_any] at known
      simp only [SuccessExpression.height] at low
      simp only [SuccessExpression.size] at room ⊢
      have read := several children formed narrow known low room
      have fits : ¬ maxFormulaNodes < count + 1 := by omega
      simp [assuranceFormula, visitFormula, formulaOf, array_formulas formed.1 narrow.1, fits, read,
        bind, Except.bind]

theorem visitFormula_refuses {levels : Nat} {expression : SuccessExpression}
    (formed : expression.formed = true) (narrow : expression.Narrow)
    (high : levels < expression.height) (count : Nat) :
    ∃ error, visitFormula criteria levels (assuranceFormula expression) count = .error error := by
  induction levels generalizing expression count with
  | zero => exact ⟨_, rfl⟩
  | succ levels ih =>
    have several : ∀ children : List SuccessExpression, childrenFormed children = true →
        ChildrenNarrow children → levels + 1 < childrenHeight children + 1 →
        ∀ count, ∃ error, visitAll (visitFormula criteria levels)
          (children.map assuranceFormula) count = .error error := by
      intro children formed narrow high count
      have tall : ¬ childrenHeight children ≤ levels := by omega
      rw [childrenHeight_le] at tall
      push Not at tall
      obtain ⟨child, inside, taller⟩ := tall
      exact visitAll_refuses (List.mem_map_of_mem inside)
        (ih (childrenFormed_iff.mp formed child inside) (childrenNarrow_iff.mp narrow child inside)
          taller) count
    cases expression with
    | criterion id =>
      rw [SuccessExpression.height] at high
      omega
    | all children | any children =>
      simp only [SuccessExpression.formed, Bool.and_eq_true, Bool.not_eq_true',
        List.isEmpty_eq_false_iff] at formed
      simp only [SuccessExpression.Narrow] at narrow
      obtain ⟨error, refused⟩ := several children formed.2 narrow.2 high (count + 1)
      by_cases full : maxFormulaNodes < count + 1
      · simp [visitFormula, full]
      · simp [assuranceFormula, visitFormula, array_formulas formed.1 narrow.1, full, refused, bind,
          Except.bind]

end

theorem validateItems_eq_ok :
    validateItems levels items = .ok () ↔ ∀ item ∈ items, validateTree levels item = .ok () := by
  induction items with
  | nil => simp [validateItems]
  | cons item rest ih => rw [validateItems, then_eq_ok, ih, List.forall_mem_cons]

theorem validateTree_str (levels : Nat) (s : String) : validateTree levels (.str s) = .ok () := by
  cases levels <;> rfl

variable {expression : SuccessExpression}

theorem validateTree_formula (low : 2 * expression.height ≤ levels) :
    validateTree levels (assuranceFormula expression) = .ok () := by
  induction levels using Nat.strongRecOn generalizing expression with
  | ind levels ih =>
    have several : ∀ children : List SuccessExpression, 2 * (childrenHeight children + 1) ≤ levels →
        ∃ inner, levels = inner + 2 ∧
          validateItems inner (assuranceFormulas children) = .ok () := by
      intro children low
      refine ⟨levels - 2, by omega, ?_⟩
      rw [validateItems_eq_ok, assuranceFormulas_eq, List.forall_mem_map]
      intro child inside
      have part := childrenHeight_le.mp (le_refl _) child inside
      exact ih (levels - 2) (by omega) (by omega)
    cases expression with
    | criterion id =>
      simp only [SuccessExpression.height] at low
      obtain ⟨inner, rfl⟩ : ∃ inner, levels = inner + 1 := ⟨levels - 1, by omega⟩
      rw [assuranceFormula, validateTree, validateFields, validateTree_str]
      rfl
    | all children | any children =>
      obtain ⟨inner, rfl, items⟩ := several children low
      simp [assuranceFormula, validateTree, validateFields, items, bind, Except.bind]

/-- The limits of the assured path: 17 levels, the root among them, and 256 KiB of text. -/
structure SuccessExpression.Assurable (expression : SuccessExpression) : Prop where
  low : expression.height ≤ formulaLevels
  small : (canonicalText (assuranceFormula expression)).utf8ByteSize ≤ maxBytes

theorem canonical_formula (low : expression.height ≤ formulaLevels) :
    canonical (assuranceFormula expression) = .ok () ↔
      (canonicalText (assuranceFormula expression)).utf8ByteSize ≤ maxBytes := by
  have nested : validateTree 65 (assuranceFormula expression) = .ok () :=
    validateTree_formula (by simp only [formulaLevels] at low; omega)
  rw [canonical, nested]
  simp only [bind, Except.bind]
  split <;> simp_all

theorem fromJson_formula {criteria : List String} (formed : expression.formed = true)
    (narrow : expression.Narrow) (known : ∀ id ∈ expression.criterionIds, id.text ∈ criteria)
    (nodes : expression.size ≤ maxFormulaNodes) :
    (expression.Assurable →
      Formula.fromJson (assuranceFormula expression) criteria = .ok (formulaOf expression)) ∧
    (¬ expression.Assurable →
      ∃ error, Formula.fromJson (assuranceFormula expression) criteria = .error error) := by
  constructor
  · rintro ⟨low, small⟩
    have read := @visitFormula_eq_ok _ _ _ 0 formed narrow known low (by omega)
    rw [Formula.fromJson, (canonical_formula low).mpr small]
    simp only [bind, Except.bind, read]
  · intro outside
    rw [Formula.fromJson]
    cases here : canonical (assuranceFormula expression) with
    | error error => exact ⟨error, rfl⟩
    | ok _ =>
      have high : formulaLevels < expression.height := by
        by_contra low
        exact outside ⟨Nat.not_lt.mp low, (canonical_formula (Nat.not_lt.mp low)).mp here⟩
      obtain ⟨error, refused⟩ := @visitFormula_refuses criteria _ _ formed narrow high 0
      exact ⟨error, by simp only [bind, Except.bind, refused]⟩

theorem Grade.verdict_inj {a b : Grade} : a.verdict = b.verdict ↔ a = b := by
  cases a <;> cases b <;> simp [Grade.verdict]

/-- A graded node and an evaluated branch say the same, with the same witnesses of a pass. -/
structure Same (graded : Graded) (branch : Branch) : Prop where
  verdict : graded.1.verdict = branch.1
  witnesses : branch.1 = .pass → ∀ name, name ∈ graded.2 ↔ name ∈ branch.2.map (·.text)

theorem Same.is {graded : Graded} {branch : Branch} (same : Same graded branch) (grade : Grade) :
    graded.1 = grade ↔ branch.1 = grade.verdict := by
  rw [← same.verdict, Grade.verdict_inj]

section
variable {evaluated : List Graded} {branches : List Branch}

section
variable (same : List.Forall₂ Same evaluated branches)
include same

theorem grades_all (grade : Grade) :
    (∀ g ∈ evaluated.map (·.1), g = grade) ↔ ∀ branch ∈ branches, branch.1 = grade.verdict := by
  induction same with
  | nil => simp
  | cons first _ ih =>
    rw [List.map_cons, List.forall_mem_cons, List.forall_mem_cons, ih, first.is]

theorem grades_mem (grade : Grade) :
    grade ∈ evaluated.map (·.1) ↔ ∃ branch ∈ branches, branch.1 = grade.verdict := by
  induction same with
  | nil => simp
  | cons first _ ih =>
    rw [List.map_cons, List.mem_cons, List.exists_mem_cons_iff, ih, eq_comm, first.is]

theorem first_pass :
    (∃ graded branch, evaluated.find? (·.1 = .pass) = some graded ∧
      branches.find? (·.1 = .pass) = some branch ∧ Same graded branch) ∨
    (evaluated.find? (·.1 = .pass) = none ∧ branches.find? (·.1 = .pass) = none) := by
  induction same with
  | nil => exact .inr ⟨rfl, rfl⟩
  | @cons graded branch _ _ first _ ih =>
    have both := first.is .pass
    by_cases pass : branch.1 = .pass
    · exact .inl ⟨graded, branch, by simp [both.mpr pass], by simp [pass], first⟩
    · have other : graded.1 ≠ .pass := fun here => pass (both.mp here)
      simpa [List.find?_cons, other, pass] using ih

theorem filled (some : branches ≠ []) : evaluated.map (·.1) ≠ [] := by
  rwa [ne_eq, List.map_eq_nil_iff, ← List.length_eq_zero_iff, same.length_eq,
    List.length_eq_zero_iff]

theorem any_same (some : branches ≠ []) :
    ∃ graded, gradedAny evaluated = .ok graded ∧ Same graded (anyBranch branches) := by
  rcases first_pass same with ⟨graded, branch, here, there, agree⟩ | ⟨here, there⟩
  · have pass : branch.1 = .pass := by simpa using List.find?_some there
    refine ⟨graded, by rw [gradedAny, here], ?_⟩
    rw [anyBranch, there]
    exact ⟨by rw [agree.verdict, pass], fun _ => agree.witnesses pass⟩
  · have noPass : .pass ∉ evaluated.map (·.1) := by
      rw [grades_mem same]
      rintro ⟨branch, inside, pass⟩
      have missed := List.find?_eq_none.mp there branch inside
      simp [pass, Grade.verdict] at missed
    rw [gradedAny, here, anyBranch, there]
    rw [triAny, if_neg (filled same some), if_neg noPass]
    have allFail := grades_all same .fail
    by_cases fails : ∀ branch ∈ branches, branch.1 = .fail
    · refine ⟨(.fail, []), ?_, ?_⟩
      · rw [if_pos (allFail.mpr fails)]
        rfl
      · simp only [if_pos fails]
        exact ⟨rfl, nofun⟩
    · refine ⟨(.unknown, []), ?_, ?_⟩
      · rw [if_neg (mt allFail.mp fails)]
        rfl
      · simp only [if_neg fails]
        exact ⟨rfl, nofun⟩

theorem all_witnesses
    (passes : ∀ branch ∈ branches, branch.1 = .pass) (name : String) :
    name ∈ evaluated.flatMap (·.2) ↔ name ∈ (branches.flatMap (·.2)).map (·.text) := by
  induction same with
  | nil => simp
  | cons first _ ih =>
    rw [List.forall_mem_cons] at passes
    simp only [List.flatMap_cons, List.mem_append, List.map_append, ih passes.2,
      first.witnesses passes.1]

theorem all_same (some : branches ≠ []) :
    ∃ graded, gradedAll evaluated = .ok graded ∧ Same graded (allBranch branches) := by
  rw [gradedAll, triAll, if_neg (filled same some)]
  have someFail := grades_mem same .fail
  have allPass := grades_all same .pass
  cases found : branches.find? (·.1 = .fail) with
  | some branch =>
    have fails : ∃ branch ∈ branches, branch.1 = Grade.fail.verdict :=
      ⟨branch, List.mem_of_find?_eq_some found, by simpa [Grade.verdict] using List.find?_some found⟩
    refine ⟨(.fail, []), by rw [if_pos (someFail.mpr fails)]; rfl, ?_⟩
    rw [allBranch, found]
    exact ⟨rfl, nofun⟩
  | none =>
    have noFail : ¬ ∃ branch ∈ branches, branch.1 = Grade.fail.verdict := by
      rintro ⟨branch, inside, fail⟩
      have missed := List.find?_eq_none.mp found branch inside
      simp [fail, Grade.verdict] at missed
    by_cases passes : ∀ branch ∈ branches, branch.1 = .pass
    · refine ⟨(.pass, evaluated.flatMap (·.2)), ?_, ?_⟩
      · rw [if_neg (mt someFail.mp noFail), if_pos (allPass.mpr passes)]
        rfl
      · rw [allBranch, found]
        simp only [if_pos passes]
        refine ⟨rfl, fun _ name => ?_⟩
        rw [all_witnesses same passes]
        simp [pathsOf, mem_fromkeys]
    · refine ⟨(.unknown, []), ?_, ?_⟩
      · rw [if_neg (mt someFail.mp noFail), if_neg (mt allPass.mp passes)]
        rfl
      · rw [allBranch, found]
        simp only [if_neg passes]
        exact ⟨rfl, nofun⟩

end

end

/-- The grades of some ids carry the verdicts of the outcomes, a missing one unknown. -/
def GradesOf (grades : Dict String Grade) (outcomes : Outcomes) (ids : List Identifier) : Prop :=
  ∀ id ∈ ids, ∃ grade, get? grades id.text = some grade ∧
    grade.verdict = ((get? outcomes id).map projectVerdict).getD .unknown

theorem walkAll_ne_nil (outcomes : Outcomes) {children : List SuccessExpression}
    (some : children ≠ []) : walkAll outcomes children ≠ [] := by
  cases children with
  | nil => exact absurd rfl some
  | cons child rest => simp [walkAll]

variable {grades : Dict String Grade} {outcomes : Outcomes}

theorem evaluateAll_same {children : List SuccessExpression}
    (each : ∀ child ∈ children, ∃ graded, (formulaOf child).evaluate grades = .ok graded ∧
      Same graded (walk outcomes child)) :
    ∃ evaluated, evaluateAll grades (formulasOf children) = .ok evaluated ∧
      List.Forall₂ Same evaluated (walkAll outcomes children) := by
  induction children with
  | nil => exact ⟨[], rfl, .nil⟩
  | cons child rest ih =>
    obtain ⟨⟨graded, ok, same⟩, there⟩ := List.forall_mem_cons.mp each
    obtain ⟨evaluated, oks, sames⟩ := ih there
    refine ⟨graded :: evaluated, ?_, by rw [walkAll]; exact .cons same sames⟩
    simp only [formulasOf, evaluateAll, ok, oks, bind, Except.bind]

theorem evaluate_same (expression : SuccessExpression) (formed : expression.formed = true)
    (given : GradesOf grades outcomes expression.criterionIds) :
    ∃ graded, (formulaOf expression).evaluate grades = .ok graded ∧
      Same graded (walk outcomes expression) := by
  induction expression using SuccessExpression.byChildren with
  | criterion id =>
    obtain ⟨grade, found, verdict⟩ := given id List.mem_cons_self
    refine ⟨_, by rw [formulaOf, Formula.evaluate, found], ?_⟩
    rw [walk]
    cases here : get? outcomes id with
    | none =>
      rw [here] at verdict
      exact ⟨verdict, nofun⟩
    | some outcome =>
      rw [here] at verdict
      refine ⟨verdict, fun pass name => ?_⟩
      have passed : grade = .pass := by
        rw [← Grade.verdict_inj, verdict]
        exact pass
      simp [passed]
  | all children ih | any children ih =>
    simp only [SuccessExpression.formed, Bool.and_eq_true, Bool.not_eq_true',
      List.isEmpty_eq_false_iff] at formed
    simp only [criterionIds_all, criterionIds_any] at given
    obtain ⟨evaluated, ok, same⟩ := evaluateAll_same fun child inside =>
      ih child inside (childrenFormed_iff.mp formed.2 child inside) fun id there =>
        given id (List.mem_flatMap.mpr ⟨child, inside, there⟩)
    have some := walkAll_ne_nil outcomes formed.1
    rw [formulaOf, Formula.evaluate, ok, walk]
    first
    | exact all_same same some
    | exact any_same same some

def projectedGrade (outcomes : Outcomes) (id : Identifier) : Grade :=
  match ((get? outcomes id).map projectVerdict).getD .unknown with
  | .pass => .pass
  | .fail => .fail
  | .unknown => .unknown

/-- The grades of a catalogue by `project_verdict`, unknown where no outcome is recorded. -/
def projectedGrades (criteria : List Criterion) (outcomes : Outcomes) : Dict String Grade :=
  ofEntries (criteria.map fun criterion =>
    (criterion.criterionId.text, projectedGrade outcomes criterion.criterionId))

def criterionNames (criteria : List Criterion) : List String :=
  criteria.map fun criterion => criterion.criterionId.text

theorem Identifier.text_inj {a b : Identifier} (same : a.text = b.text) : a = b := by
  cases a
  cases b
  cases same
  rfl

theorem get?_graded {criteria : List Criterion} {grade : Identifier → Grade}
    (distinct : (criteria.map (·.criterionId)).Nodup) {id : Identifier}
    (inside : id ∈ criteria.map (·.criterionId)) :
    get? (ofEntries (criteria.map fun criterion =>
      (criterion.criterionId.text, grade criterion.criterionId))) id.text = some (grade id) := by
  obtain ⟨criterion, there, rfl⟩ := List.mem_map.mp inside
  have names : (keys (criteria.map fun criterion =>
      (criterion.criterionId.text, grade criterion.criterionId))).Nodup := by
    have texts := distinct.map_on fun a _ b _ same => Identifier.text_inj same
    simpa [keys, Function.comp_def] using texts
  rw [ofEntries_of_nodup names]
  exact get?_eq_some_of_mem names (List.mem_map_of_mem there)

theorem known_of_unknown_nil {criteria : List Criterion}
    (none : unknownExpressionCriteria expression criteria = []) :
    ∀ id ∈ expression.criterionIds, id ∈ criteria.map (·.criterionId) := by
  intro id inside
  by_contra outside
  have unknown : id ∈ unknownExpressionCriteria expression criteria := by
    simp only [unknownExpressionCriteria, sortedIds, mem_sortedBy, mem_fromkeys, List.mem_filter]
    exact ⟨inside, by simpa using outside⟩
  rw [none] at unknown
  cases unknown

theorem gradesOf_projected (revision : RequirementsRevision) (outcomes : Outcomes) :
    GradesOf (projectedGrades revision.criteria outcomes) outcomes
      revision.successExpression.criterionIds := by
  intro id inside
  have known := known_of_unknown_nil revision.expressionKnown id inside
  refine ⟨projectedGrade outcomes id, get?_graded revision.criteriaDistinct known, ?_⟩
  rw [projectedGrade]
  cases ((get? outcomes id).map projectVerdict).getD .unknown <;> rfl

theorem of_revision_fromJson {value : Json} {name : String} {revision : RequirementsRevision}
    (parsed : RequirementsRevision.fromJson value name = .ok revision) :
    revision.successExpression.Narrow ∧
      revision.successExpression.size ≤ maxSuccessExpressionNodes := by
  obtain ⟨data, _, ok⟩ := bind_eq_ok.mp parsed
  obtain ⟨⟨criteria, _⟩, _, ok⟩ := bind_eq_ok.mp ok
  obtain ⟨⟨expression, rest⟩, read, ok⟩ := bind_eq_ok.mp ok
  obtain ⟨source, _, ok⟩ := bind_eq_ok.mp ok
  obtain ⟨narrow, paid⟩ := of_parseSuccessExpression _ _ _ _ _ read
  have kept : revision.successExpression = expression := by
    iterate 3
      obtain ⟨_, _, ok⟩ := bind_eq_ok.mp ok
    dsimp only at ok
    iterate 5
      split at ok
      case isFalse => cases ok
    iterate 4
      obtain ⟨_, _, ok⟩ := bind_eq_ok.mp ok
    cases ok
    rfl
  rw [kept]
  exact ⟨narrow, by omega⟩

/-- The translated expression is decoded exactly within the limits of the assured path; there the
two evaluators agree on every outcome map, in the verdict and in what carries a pass. -/
theorem evaluators_agree {value : Json} {name : String} {revision : RequirementsRevision}
    (parsed : RequirementsRevision.fromJson value name = .ok revision) (outcomes : Outcomes) :
    (revision.successExpression.Assurable → ∃ formula graded,
      Formula.fromJson (assuranceFormula revision.successExpression)
        (criterionNames revision.criteria) = .ok formula ∧
      formula.evaluate (projectedGrades revision.criteria outcomes) = .ok graded ∧
      graded.1.verdict =
        (evaluateSuccessExpression revision.successExpression outcomes).verdict ∧
      (graded.1 = .pass → ∀ name, name ∈ graded.2 ↔ name ∈
        (evaluateSuccessExpression revision.successExpression outcomes).witnessPath.map (·.text))) ∧
    (¬ revision.successExpression.Assurable → ∃ error,
      Formula.fromJson (assuranceFormula revision.successExpression)
        (criterionNames revision.criteria) = .error error) := by
  obtain ⟨narrow, nodes⟩ := of_revision_fromJson parsed
  have known : ∀ id ∈ revision.successExpression.criterionIds,
      id.text ∈ criterionNames revision.criteria := by
    intro id inside
    have there := known_of_unknown_nil revision.expressionKnown id inside
    obtain ⟨criterion, listed, rfl⟩ := List.mem_map.mp there
    exact List.mem_map.mpr ⟨criterion, listed, rfl⟩
  obtain ⟨decoded, refused⟩ := fromJson_formula revision.formed narrow known nodes
  refine ⟨fun assurable => ?_, refused⟩
  obtain ⟨graded, evaluated, same⟩ := evaluate_same revision.successExpression revision.formed
    (gradesOf_projected revision outcomes)
  refine ⟨_, graded, decoded assurable, evaluated, same.verdict, ?_⟩
  intro pass
  exact same.witnesses ((same.is .pass).mp pass)

def asking (id : String) : Json := .obj [("op", .str "criterion"), ("criterion_id", .str id)]

def nestedAll : Nat → Json
  | 0 => asking "a"
  | levels + 1 => .obj [("op", .str "all"), ("children", .arr [nestedAll levels])]

def askedDocument (ids : List String) (expression : Json) : Json :=
  .obj [("revision_id", .str "rev-1"), ("mission_id", .str "mission-1"), ("revision", .int 0),
    ("criteria", .arr (ids.map fun id => .obj [("criterion_id", .str id), ("revision", .int 0),
      ("origin", .str "USER_EXPLICIT"), ("statement", .str "the report names its source"),
      ("requirement_class", .str "REQUIRED_OUTCOME"), ("evaluation_kind", .str "SEMANTIC")])),
    ("success_expression", expression)]

def assuredRefusal (revision : RequirementsRevision) : Option AssuranceError :=
  match Formula.fromJson (assuranceFormula revision.successExpression)
    (criterionNames revision.criteria) with
  | .error error => some error
  | .ok _ => none

/-- The contract accepts a criterion under 17 `all`s, the assured path does not. -/
theorem deep_expression_refused : ∃ revision,
    RequirementsRevision.fromJson (askedDocument ["a"] (nestedAll 17)) "requirements_revision" =
      .ok revision ∧
    assuredRefusal revision = some ⟨"FORMULA_LIMIT", ""⟩ := by
  have run : (RequirementsRevision.fromJson (askedDocument ["a"] (nestedAll 17))
      "requirements_revision").map assuredRefusal = .ok (some ⟨"FORMULA_LIMIT", ""⟩) := by decide +kernel
  exact map_eq_ok.mp run

/-- Either the first, or the second and the third. -/
def eitherWay : Json :=
  .obj [("op", .str "any"), ("children", .arr [asking "a",
    .obj [("op", .str "all"), ("children", .arr [asking "b", asking "c"])]])]

def secondWay : Outcomes :=
  outcomesById [concluded .fail ⟨"a", by decide⟩, concluded .pass ⟨"b", by decide⟩,
    concluded .pass ⟨"c", by decide⟩]

theorem evaluators_agree_second_way : ∃ revision,
    RequirementsRevision.fromJson (askedDocument ["a", "b", "c"] eitherWay)
      "requirements_revision" = .ok revision ∧
    ∃ formula graded,
      Formula.fromJson (assuranceFormula revision.successExpression)
        (criterionNames revision.criteria) = .ok formula ∧
      formula.evaluate (projectedGrades revision.criteria secondWay) = .ok graded ∧
      graded.1.verdict = .pass ∧ ∀ name, name ∈ graded.2 ↔ name ∈ ["b", "c"] := by
  have run : (RequirementsRevision.fromJson (askedDocument ["a", "b", "c"] eitherWay)
      "requirements_revision").map (fun revision => (assuredRefusal revision,
        (evaluateSuccessExpression revision.successExpression secondWay).verdict,
        (evaluateSuccessExpression revision.successExpression secondWay).witnessPath.map
          (·.text))) = .ok (none, .pass, ["b", "c"]) := by decide +kernel
  obtain ⟨revision, parsed, facts⟩ := map_eq_ok.mp run
  simp only [Prod.mk.injEq] at facts
  obtain ⟨accepted, passes, path⟩ := facts
  obtain ⟨agree, refused⟩ := evaluators_agree parsed secondWay
  refine ⟨revision, parsed, ?_⟩
  by_cases assurable : revision.successExpression.Assurable
  · obtain ⟨formula, graded, decoded, evaluated, same, witnesses⟩ := agree assurable
    rw [passes] at same
    rw [path] at witnesses
    refine ⟨formula, graded, decoded, evaluated, same, witnesses ?_⟩
    cases grade : graded.1 <;> rw [grade] at same <;> first | rfl | cases same
  · obtain ⟨error, bad⟩ := refused assurable
    rw [assuredRefusal, bad] at accepted
    cases accepted

end Acceptance
