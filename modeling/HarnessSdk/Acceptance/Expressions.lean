import HarnessSdk.Acceptance.Criteria

/-! The success expression of a requirements revision: its shape, its decoder and its three-valued
verdict. -/
namespace Acceptance
open PyDict PyText Checks Workflow Contracts

inductive SuccessExpression
  | criterion (id : Identifier)
  | all (children : List SuccessExpression)
  | any (children : List SuccessExpression)

mutual
def SuccessExpression.toJson : SuccessExpression → Json
  | .criterion id => .obj [("op", .str "criterion"), ("criterion_id", .str id.text)]
  | .all children => .obj [("op", .str "all"), ("children", .arr (childrenToJson children))]
  | .any children => .obj [("op", .str "any"), ("children", .arr (childrenToJson children))]

def childrenToJson : List SuccessExpression → List Json
  | [] => []
  | child :: rest => child.toJson :: childrenToJson rest
end

mutual
/-- No `all` or `any` is empty. -/
def SuccessExpression.formed : SuccessExpression → Bool
  | .criterion _ => true
  | .all children => !children.isEmpty && childrenFormed children
  | .any children => !children.isEmpty && childrenFormed children

def childrenFormed : List SuccessExpression → Bool
  | [] => true
  | child :: rest => child.formed && childrenFormed rest
end

mutual
/-- The criteria of an expression from left to right, each with whether it stands under an `any`. -/
def SuccessExpression.leaves (beneath : Bool) : SuccessExpression → List (Identifier × Bool)
  | .criterion id => [(id, beneath)]
  | .all children => childrenLeaves beneath children
  | .any children => childrenLeaves true children

def childrenLeaves (beneath : Bool) : List SuccessExpression → List (Identifier × Bool)
  | [] => []
  | child :: rest => child.leaves beneath ++ childrenLeaves beneath rest
end

section
variable (expression : SuccessExpression)

def SuccessExpression.criterionIds : List Identifier :=
  (expression.leaves false).map (·.1)

def sortedIds (ids : List Identifier) : List Identifier :=
  sortedBy Identifier.text (fromkeys ids)

def hardConstraintsNotIndependent (criteria : List Criterion) :
    List Identifier :=
  let hard := (criteria.filter (·.requirementClass = .hardConstraint)).map (·.criterionId)
  sortedIds (((expression.leaves false).filter fun leaf => leaf.2 && leaf.1 ∈ hard).map (·.1)) ++
    sortedIds (hard.filter (· ∉ expression.criterionIds))

def unknownExpressionCriteria (criteria : List Criterion) :
    List Identifier :=
  sortedIds (expression.criterionIds.filter (· ∉ criteria.map (·.criterionId)))

/-- `criteria_only_under_any`: what a reviewer may leave out by taking the other branch. -/
def criteriaOnlyUnderAny : List Identifier :=
  ((expression.leaves false).filter fun leaf => leaf.2 && (leaf.1, false) ∉ expression.leaves false).map
    (·.1)

end

def maxSuccessExpressionNodes : Nat := 512

def expressionOverspent (name : String) : Message :=
  [.text (name ++ s!" exceeds the {maxSuccessExpressionNodes}-node expression budget")]

def spendNode (name : String) : Nat → Except Message Nat
  | 0 => .error (expressionOverspent name)
  | left + 1 => .ok left

/-- The levels are never the first to run out: they start at the budget, and every level spends. -/
def parseSuccessExpression : Nat → Json → String → Nat → Except Message (SuccessExpression × Nat)
  | 0, _, name, _ => .error (expressionOverspent name)
  | levels + 1, value, name, budget => do
    let budget ← spendNode name budget
    rejectExecutable value name
    match value with
    | .obj given =>
      match field given "op" with
      | .str "criterion" =>
        let data ← fieldsOf value name ["op", "criterion_id"] []
        let id ← identifier (field data "criterion_id") "expression.criterion_id"
        .ok (.criterion id, budget)
      | .str "all" =>
        let data ← fieldsOf value name ["op", "children"] []
        let (children, budget) ← sequenceOf (field data "children") (name ++ ".children")
          (parseSuccessExpression levels) 1 budget
        .ok (.all children, budget)
      | .str "any" =>
        let data ← fieldsOf value name ["op", "children"] []
        let (children, budget) ← sequenceOf (field data "children") (name ++ ".children")
          (parseSuccessExpression levels) 1 budget
        .ok (.any children, budget)
      | _ => .error (.text (name ++ ".op must be one of ") :: listText ["all", "any", "criterion"])
    | _ => .error [.text (name ++ " must be a structured expression object")]

structure RequirementsRevision where
  revisionId : Identifier
  missionId : Identifier
  revision : Counter 0
  criteria : List Criterion
  successExpression : SuccessExpression
  sourceTextRef : Option TypedRef := none
  authoritySubject : Option Identifier := none
  interpretationScope : Option Identifier := none
  deliveryContractRef : Option Identifier := none
  amendmentCredentialRef : Option Identifier := none
  formed : successExpression.formed = true := by decide
  someCriterion : criteria ≠ [] := by simp
  criteriaDistinct : (criteria.map (·.criterionId)).Nodup := by decide
  expressionKnown : unknownExpressionCriteria successExpression criteria = [] := by decide
  hardIndependent : hardConstraintsNotIndependent successExpression criteria = [] := by decide

namespace RequirementsRevision

def requiredCriterionIds (revision : RequirementsRevision) : List Identifier :=
  (revision.criteria.filter (·.isRequired)).map (·.criterionId)

def toJson (revision : RequirementsRevision) : Json :=
  .obj [("revision_id", .str revision.revisionId.text),
    ("mission_id", .str revision.missionId.text), ("revision", .int revision.revision.number),
    ("criteria", .arr (revision.criteria.map Criterion.toJson)),
    ("success_expression", revision.successExpression.toJson),
    ("source_text_ref", optionalRefJson revision.sourceTextRef),
    ("authority_subject", optionalIdJson revision.authoritySubject),
    ("interpretation_scope", optionalIdJson revision.interpretationScope),
    ("delivery_contract_ref", optionalIdJson revision.deliveryContractRef),
    ("amendment_credential_ref", optionalIdJson revision.amendmentCredentialRef)]

def optionalId (data : Dict String Json) (key : String) : Except Message (Option Identifier) :=
  optionalIdentifier (field data key) ("requirements." ++ key)

/-- `RequirementsRevision.__post_init__`, over decoded parts. -/
def assemble (data : Dict String Json) (criteria : List Criterion)
    (successExpression : SuccessExpression) (sourceTextRef : Option TypedRef) :
    Except Message RequirementsRevision := do
  let revisionId ← identifier (field data "revision_id") "requirements.revision_id"
  let missionId ← identifier (field data "mission_id") "requirements.mission_id"
  let revision ← index 0 (field data "revision") "requirements.revision"
  let unknown := unknownExpressionCriteria successExpression criteria
  let violations := hardConstraintsNotIndependent successExpression criteria
  if formed : successExpression.formed = true then
    if someCriterion : criteria ≠ [] then
      if criteriaDistinct : (criteria.map (·.criterionId)).Nodup then
        if expressionKnown : unknown = [] then
          if hardIndependent : violations = [] then
            let authoritySubject ← optionalId data "authority_subject"
            let interpretationScope ← optionalId data "interpretation_scope"
            let deliveryContractRef ← optionalId data "delivery_contract_ref"
            let amendmentCredentialRef ← optionalId data "amendment_credential_ref"
            .ok {
              revisionId
              missionId
              revision
              criteria
              successExpression
              sourceTextRef
              authoritySubject
              interpretationScope
              deliveryContractRef
              amendmentCredentialRef
              formed
              someCriterion
              criteriaDistinct
              expressionKnown
              hardIndependent }
          else .error (.text ("every HARD_CONSTRAINT must be an independent AND conjunct of " ++
            "the success expression; these are not: ") :: listText (violations.map (·.text)))
        else .error (.text "requirements.success_expression names criteria outside the catalogue: "
          :: listText (unknown.map (·.text)))
      else .error [.text "requirements.criteria must not repeat a criterion_id"]
    else .error [.text "requirements.criteria must not be empty"]
  else .error [.text "expression children must not be empty (AER §4.1)"]

def fromJson (value : Json) (name : String) : Except Message RequirementsRevision := do
  let data ← fieldsOf value name
    ["revision_id", "mission_id", "revision", "criteria", "success_expression"]
    ["source_text_ref", "authority_subject", "interpretation_scope", "delivery_contract_ref",
      "amendment_credential_ref"]
  let (criteria, _) ←
    sequenceOf (field data "criteria") (name ++ ".criteria") (free Criterion.fromJson) 1 0
  let (successExpression, _) ← parseSuccessExpression maxSuccessExpressionNodes
    (field data "success_expression") (name ++ ".success_expression") maxSuccessExpressionNodes
  let sourceTextRef ←
    optionally TypedRef.fromJson (field data "source_text_ref") (name ++ ".source_text_ref")
  assemble data criteria successExpression sourceTextRef

end RequirementsRevision

inductive CriterionVerdict
  | pass
  | fail
  | unknown
deriving DecidableEq

def CriterionVerdict.text : CriterionVerdict → String
  | .pass => "PASS"
  | .fail => "FAIL"
  | .unknown => "UNKNOWN"

inductive CheckExecution
  | notRun
  | running
  | succeeded
  | error
  | cancelled
deriving DecidableEq

structure CriterionOutcome where
  criterionId : Identifier
  verdict : CriterionVerdict
  checkExecution : CheckExecution
  evidenceRefs : List TypedRef := []
  bounded : evidenceRefs.length ≤ maxList := by decide
  ranToPass : verdict = .pass → checkExecution = .running ∨ checkExecution = .succeeded := by decide
deriving DecidableEq

def concluded (verdict : CriterionVerdict) (id : Identifier) : CriterionOutcome where
  criterionId := id
  verdict
  checkExecution := .succeeded
  ranToPass := fun _ => .inr rfl

/-- `project_verdict`: only a check that finished carries its verdict. -/
def projectVerdict (outcome : CriterionOutcome) : CriterionVerdict :=
  if outcome.checkExecution = .succeeded then outcome.verdict else .unknown

abbrev Outcomes := Dict Identifier CriterionOutcome

def outcomesById (outcomes : List CriterionOutcome) : Outcomes :=
  ofEntries (outcomes.map fun outcome => (outcome.criterionId, outcome))

abbrev Branch := CriterionVerdict × List Identifier

def pathsOf (branches : List Branch) : List Identifier :=
  fromkeys (branches.flatMap (·.2))

def anyBranch (branches : List Branch) : Branch :=
  match branches.find? (·.1 = .pass) with
  | some branch => (.pass, branch.2)
  | none =>
    if ∀ branch ∈ branches, branch.1 = .fail then (.fail, pathsOf branches)
    else (.unknown, pathsOf (branches.filter (·.1 ≠ .fail)))

def allBranch (branches : List Branch) : Branch :=
  match branches.find? (·.1 = .fail) with
  | some branch => (.fail, branch.2)
  | none =>
    if ∀ branch ∈ branches, branch.1 = .pass then (.pass, pathsOf branches)
    else (.unknown, pathsOf (branches.filter (·.1 ≠ .pass)))

mutual
def walk (outcomes : Outcomes) : SuccessExpression → Branch
  | .criterion id =>
    match get? outcomes id with
    | none => (.unknown, [id])
    | some outcome => (projectVerdict outcome, [id])
  | .any children => anyBranch (walkAll outcomes children)
  | .all children => allBranch (walkAll outcomes children)

def walkAll (outcomes : Outcomes) : List SuccessExpression → List Branch
  | [] => []
  | child :: rest => walk outcomes child :: walkAll outcomes rest
end

theorem SuccessExpression.byChildren {motive : SuccessExpression → Prop}
    (criterion : ∀ id, motive (.criterion id))
    (all : ∀ children, (∀ child ∈ children, motive child) → motive (.all children))
    (any : ∀ children, (∀ child ∈ children, motive child) → motive (.any children))
    (expression : SuccessExpression) : motive expression :=
  @SuccessExpression.rec motive (fun children => ∀ child ∈ children, motive child) criterion all any
    (by simp) (fun _ _ here there => List.forall_mem_cons.mpr ⟨here, there⟩) expression

theorem walkAll_eq_map (outcomes : Outcomes) (children : List SuccessExpression) :
    walkAll outcomes children = children.map (walk outcomes) := by
  induction children with
  | nil => rfl
  | cons child rest ih => rw [walkAll, ih, List.map_cons]

structure ExpressionResult where
  verdict : CriterionVerdict
  witnessPath : List Identifier := []
  unevaluatedIds : List Identifier := []
deriving DecidableEq

def ExpressionResult.passed (result : ExpressionResult) : Bool := result.verdict = .pass

def evaluateSuccessExpression (expression : SuccessExpression) (outcomes : Outcomes) :
    ExpressionResult :=
  let branch := walk outcomes expression
  { verdict := branch.1
    witnessPath := branch.2
    unevaluatedIds := fromkeys (expression.criterionIds.filter fun id =>
      (get? outcomes id).isNone) }

end Acceptance
