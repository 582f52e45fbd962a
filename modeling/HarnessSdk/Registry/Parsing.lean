import HarnessSdk.Contracts.Decoding
import HarnessSdk.Registry.Definitions

/-! The decoders of a stored method definition. One budget bounds all its conditions and
arguments together. -/
namespace Registry
open PyDict PyText Checks Workflow Contracts

def maxConditionNodes : Nat := 512

def overspent (name : String) : Message :=
  [.text (name ++ s!" exceeds the {maxConditionNodes}-node structure budget")]

def spend (name : String) : Nat → Except Message Nat
  | 0 => .error (overspent name)
  | left + 1 => .ok left

mutual
/-- `json_value`, for a value that may nest so many levels more. -/
def jsonValue : Nat → Json → String → Except Message Unit
  | levels, .arr items, name => jsonItems levels items (name ++ "[]")
  | levels, .obj fields, name => jsonFields levels fields name
  | _, _, _ => .ok ()

def jsonItems : Nat → List Json → String → Except Message Unit
  | _, [], _ => .ok ()
  | 0, _ :: _, name => .error [.text (name ++ " nests deeper than 32 levels")]
  | levels + 1, item :: rest, name => do
    jsonValue levels item name
    jsonItems (levels + 1) rest name

def jsonFields : Nat → List (String × Json) → String → Except Message Unit
  | _, [], _ => .ok ()
  | 0, field :: _, name => .error [.text (name ++ "." ++ field.1 ++ " nests deeper than 32 levels")]
  | levels + 1, field :: rest, name => do
    jsonValue levels field.2 (name ++ "." ++ field.1)
    jsonFields (levels + 1) rest name
end

mutual
theorem jsonValue_eq_ok (levels : Nat) (value : Json) (name : String) :
    jsonValue levels value name = .ok () ↔ nestsWithin levels value = true := by
  cases value with
  | arr items =>
    rw [jsonValue, jsonItems_eq_ok levels items]
    cases levels <;> simp [nestsWithin]
  | obj fields =>
    rw [jsonValue, jsonFields_eq_ok levels fields]
    cases levels <;> simp [nestsWithin]
  | _ => cases levels <;> simp [jsonValue, nestsWithin]
termination_by structural value

theorem jsonItems_eq_ok (levels : Nat) (items : List Json) (name : String) :
    jsonItems levels items name = .ok () ↔
      (match levels with
        | 0 => items.isEmpty
        | levels + 1 => itemsNestWithin levels items) = true := by
  cases items with
  | nil => cases levels <;> simp [jsonItems, itemsNestWithin]
  | cons item rest =>
    cases levels with
    | zero => simp [jsonItems]
    | succ levels =>
      rw [jsonItems, then_eq_ok, jsonValue_eq_ok levels item, jsonItems_eq_ok (levels + 1) rest]
      simp [itemsNestWithin]
termination_by structural items

theorem jsonFields_eq_ok (levels : Nat) (fields : List (String × Json)) (name : String) :
    jsonFields levels fields name = .ok () ↔
      (match levels with
        | 0 => fields.isEmpty
        | levels + 1 => fieldsNestWithin levels fields) = true := by
  cases fields with
  | nil => cases levels <;> simp [jsonFields, fieldsNestWithin]
  | cons field rest =>
    obtain ⟨key, value⟩ := field
    cases levels with
    | zero => simp [jsonFields]
    | succ levels =>
      rw [jsonFields, then_eq_ok, jsonValue_eq_ok levels value,
        jsonFields_eq_ok (levels + 1) rest]
      simp [fieldsNestWithin]
termination_by structural fields
end

def constantValue (value : Json) : Except Message Constant :=
  match code : rejectExecutable value "value.constant" with
  | .error error => .error error
  | .ok () =>
    match nested : jsonValue 32 value "value.constant" with
    | .error error => .error error
    | .ok () => .ok ⟨value, code, (jsonValue_eq_ok 32 value _).mp nested⟩

/-- The levels are never the first to run out: they start at the budget, and every level spends. -/
def parseValue : Nat → Json → String → Nat → Except Message (ValueExpr × Nat)
  | 0, _, name, _ => .error (overspent name)
  | levels + 1, value, name, budget => do
    let budget ← spend name budget
    rejectExecutable value name
    match value with
    | .obj given =>
      match field given "op" with
      | .str "parameter" =>
        let data ← fieldsOf value name ["op", "name"] []
        let read ← identifier (field data "name") "value.parameter.name"
        .ok (.parameter read, budget)
      | .str "constant" =>
        let data ← fieldsOf value name ["op", "value"] []
        let plain ← constantValue (field data "value")
        .ok (.constant plain, budget)
      | .str "output" =>
        let data ← fieldsOf value name ["op", "step", "port"] []
        let step ← identifier (field data "step") "value.output.step"
        let port ← identifier (field data "port") "value.output.port"
        .ok (.output step port, budget)
      | .str "object" =>
        let data ← fieldsOf value name ["op", "fields"] []
        match field data "fields" with
        | .obj raw =>
          let (fields, budget) ←
            entriesWith (parseValue levels) (name ++ ".fields.key") name raw budget
          .ok (.object fields, budget)
        | _ => .error [.text (name ++ ".fields must be an object")]
      | .str "array" =>
        let data ← fieldsOf value name ["op", "items"] []
        let (items, budget) ←
          sequenceOf (field data "items") (name ++ ".items") (parseValue levels) 0 budget
        .ok (.array items, budget)
      | _ => .error (.text (name ++ ".op must be one of ") ::
          listText ["array", "constant", "object", "output", "parameter"])
    | _ => .error [.text (name ++ " must be a structured value object")]

def parseArguments (levels : Nat) (value : Json) (name : String) (budget : Nat) :
    Except Message (Dict String ValueExpr × Nat) :=
  match value with
  | .obj fields => entriesWith (parseValue levels) (name ++ ".key") name fields budget
  | _ => .error [.text (name ++ " must be an object")]

def parseCondition : Nat → Json → String → Nat → Except Message (Condition × Nat)
  | 0, _, name, _ => .error (overspent name)
  | levels + 1, value, name, budget => do
    let budget ← spend name budget
    rejectExecutable value name
    match value with
    | .obj given =>
      match field given "op" with
      | .str "predicate" =>
        let data ← fieldsOf value name ["op", "predicate_ref", "arguments"] []
        let ref ← VersionedRef.fromJson (field data "predicate_ref") (name ++ ".predicate_ref")
        let (arguments, budget) ←
          parseArguments levels (field data "arguments") (name ++ ".arguments") budget
        .ok (.predicate ref arguments, budget)
      | .str "all" =>
        let data ← fieldsOf value name ["op", "items"] []
        let (items, budget) ←
          sequenceOf (field data "items") (name ++ ".items") (parseCondition levels) 0 budget
        .ok (.all items, budget)
      | .str "any" =>
        let data ← fieldsOf value name ["op", "items"] []
        let (items, budget) ←
          sequenceOf (field data "items") (name ++ ".items") (parseCondition levels) 0 budget
        .ok (.any items, budget)
      | .str "not" =>
        let data ← fieldsOf value name ["op", "item"] []
        let (item, budget) ← parseCondition levels (field data "item") (name ++ ".item") budget
        .ok (.not item, budget)
      | .str "constant" =>
        let data ← fieldsOf value name ["op", "value"] []
        let plain ← flag (field data "value") "condition.constant.value"
        .ok (.constant plain, budget)
      | _ => .error (.text (name ++ ".op must be one of ") ::
          listText ["all", "any", "constant", "not", "predicate"])
    | _ => .error [.text (name ++ " must be a structured condition object")]

def parseConditions (value : Json) (name : String) (budget : Nat) :
    Except Message (List Condition × Nat) :=
  sequenceOf value name (parseCondition budget) 0 budget

def MethodStep.fromJson (value : Json) (name : String) (budget : Nat) :
    Except Message (MethodStep × Nat) := do
  let data ← fieldsOf value name ["local_id", "task_type_ref", "form", "arguments",
    "required_capabilities", "obligation_relation"] ["reuse_policy"]
  let taskTypeRef ← VersionedRef.fromJson (field data "task_type_ref") (name ++ ".task_type_ref")
  let (arguments, left) ←
    parseArguments budget (field data "arguments") (name ++ ".arguments") budget
  let capabilities ← tupleOf (field data "required_capabilities")
  let localId ← identifier (field data "local_id") "step.local_id"
  let form ← enumOf formMembers (field data "form") "step.form"
  let requiredCapabilities ← identifiers capabilities "step.required_capabilities"
  let obligationRelation ←
    enumOf relationMembers (field data "obligation_relation") "step.obligation_relation"
  let reusePolicy ←
    optionally (enumOf reuseMembers) (field data "reuse_policy") "step.reuse_policy"
  .ok ({
    localId
    taskTypeRef
    form
    arguments
    requiredCapabilities
    obligationRelation
    reusePolicy }, left)

def MethodOrdering.fromJson (value : Json) (name : String) : Except Message MethodOrdering := do
  let data ← fieldsOf value name ["before", "after"] []
  let before ← identifier (field data "before") "ordering.before"
  let after ← identifier (field data "after") "ordering.after"
  if differ : before ≠ after then .ok ⟨before, after, differ⟩
  else .error [.text "ordering.before and ordering.after must differ"]

def CriterionLink.fromJson (value : Json) (name : String) : Except Message CriterionLink := do
  let data ← fieldsOf value name
    ["parent_criterion_id", "child_step", "child_criterion_id", "evidence_requirement"] []
  let parent ←
    identifier (field data "parent_criterion_id") "criterion_link.parent_criterion_id"
  let childStep ← optionalIdentifier (field data "child_step") "criterion_link.child_step"
  let childCriterion ←
    optionalIdentifier (field data "child_criterion_id") "criterion_link.child_criterion_id"
  let evidence ←
    text (field data "evidence_requirement") "criterion_link.evidence_requirement"
  .ok ⟨parent, childStep, childCriterion, evidence⟩

def MethodComposition.fromJson (value : Json) (name : String) (budget : Nat) :
    Except Message (MethodComposition × Nat) := do
  let data ← fieldsOf value name
    ["criterion_links", "outputs", "finalizer_step", "independent_review_required"] []
  let (links, _) ← sequenceOf (field data "criterion_links") (name ++ ".criterion_links")
    (free CriterionLink.fromJson) 1 0
  let (outputs, left) ← parseArguments budget (field data "outputs") (name ++ ".outputs") budget
  if someLink : links ≠ [] then
    let finalizer ←
      optionalIdentifier (field data "finalizer_step") "composition.finalizer_step"
    match field data "independent_review_required" with
    | .bool true => .ok (⟨links, outputs, finalizer, someLink⟩, left)
    | _ => .error [.text ("composition.independent_review_required must be true " ++
        "(ADR-04: open content is accepted only after an independent review)")]
  else .error [.text "composition.criterion_links must not be empty"]

def schemaVersion (value : Json) (name : String) : Except Message Unit := do
  let got ← index 1 value name
  if got.number = 1 then .ok () else .error [.text (name ++ " must be 1")]

def unknownEndpoint (steps : List Identifier) (ordering : List MethodOrdering) :
    Option Identifier :=
  (ordering.flatMap fun order => [order.before, order.after]).find? (· ∉ steps)

/-- `MethodContract.__post_init__`, over decoded parts. -/
def assemble (methodId methodVersion : Json) (capabilities : List Json)
    (goal parameters output : VersionedRef) (applicable exploration : List Condition)
    (steps : List MethodStep) (ordering : List MethodOrdering) (effects : List Condition)
    (composition : MethodComposition) (basis : List EvidenceRef) :
    Except Message MethodContract := do
  let id ← identifier methodId "method.method_id"
  let version ← index 1 methodVersion "method.method_version"
  let requiredCapabilities ← identifiers capabilities "method.required_capabilities"
  if stepsDistinct : (steps.map (·.localId)).Nodup then
    if orderingKnown : ∀ order ∈ ordering,
        order.before ∈ steps.map (·.localId) ∧ order.after ∈ steps.map (·.localId) then
      if finalizerKnown : ∀ step ∈ composition.finalizerStep, step ∈ steps.map (·.localId) then
        .ok {
          methodId := id
          methodVersion := version
          goalTypeRef := goal
          parameterSchemaRef := parameters
          outputSchemaRef := output
          applicableWhen := applicable
          explorationAssumptions := exploration
          steps
          ordering
          requiredCapabilities
          expectedEffects := effects
          composition
          basisRefs := basis
          stepsDistinct
          orderingKnown
          finalizerKnown }
      else .error [.text "method.composition.finalizer_step is not a declared step"]
    else .error [.text "method.ordering refers to unknown step ",
      .repr (((unknownEndpoint (steps.map (·.localId)) ordering).map (·.text)).getD "")]
  else .error [.text "method.steps must not repeat a local_id"]

def MethodContract.fields : List String :=
  ["schema_version", "method_id", "method_version", "goal_type_ref", "parameter_schema_ref",
    "output_schema_ref", "applicable_when", "exploration_assumptions", "steps", "ordering",
    "required_capabilities", "expected_effects", "composition", "basis_refs"]

def MethodContract.fromJson (value : Json) (name : String) : Except Message MethodContract := do
  let data ← fieldsOf value name MethodContract.fields []
  schemaVersion (field data "schema_version") (name ++ ".schema_version")
  let goal ← VersionedRef.fromJson (field data "goal_type_ref") (name ++ ".goal_type_ref")
  let parameters ←
    VersionedRef.fromJson (field data "parameter_schema_ref") (name ++ ".parameter_schema_ref")
  let output ←
    VersionedRef.fromJson (field data "output_schema_ref") (name ++ ".output_schema_ref")
  let (applicable, budget) ← parseConditions (field data "applicable_when")
    (name ++ ".applicable_when") maxConditionNodes
  let (exploration, budget) ← parseConditions (field data "exploration_assumptions")
    (name ++ ".exploration_assumptions") budget
  let (steps, budget) ←
    sequenceOf (field data "steps") (name ++ ".steps") MethodStep.fromJson 0 budget
  let (ordering, _) ← sequenceOf (field data "ordering") (name ++ ".ordering")
    (free MethodOrdering.fromJson) 0 0
  let capabilities ← tupleOf (field data "required_capabilities")
  let (effects, budget) ← parseConditions (field data "expected_effects")
    (name ++ ".expected_effects") budget
  let (composition, _) ←
    MethodComposition.fromJson (field data "composition") (name ++ ".composition") budget
  let (basis, _) ← sequenceOf (field data "basis_refs") (name ++ ".basis_refs")
    (free EvidenceRef.fromJson) 0 0
  assemble (field data "method_id") (field data "method_version") capabilities goal parameters
    output applicable exploration steps ordering effects composition basis

end Registry
