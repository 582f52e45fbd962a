import HarnessSdk.Contracts.SemanticBase
import HarnessSdk.Planning.Compiler

/-! Method definitions with their structured conditions, and the JSON they are stored as. -/
namespace Registry
open PyDict PyText Checks Workflow Contracts
open Network (TaskForm ReusePolicy)
open Planning (ObligationRelation MethodRegistryStatus)

/-- A constant holds plain JSON and no code. -/
structure Constant where
  value : Json
  clean : rejectExecutable value "value.constant" = .ok () := by decide
  nested : nestsWithin 32 value = true := by decide

inductive ValueExpr
  | parameter (name : Identifier)
  | constant (value : Constant)
  | output (step port : Identifier)
  | object (fields : List (String × ValueExpr))
  | array (items : List ValueExpr)

mutual
def ValueExpr.toJson : ValueExpr → Json
  | .parameter name => .obj [("op", .str "parameter"), ("name", .str name.text)]
  | .constant value => .obj [("op", .str "constant"), ("value", value.value)]
  | .output step port =>
    .obj [("op", .str "output"), ("step", .str step.text), ("port", .str port.text)]
  | .object fields => .obj [("op", .str "object"), ("fields", .obj (fieldsToJson fields))]
  | .array items => .obj [("op", .str "array"), ("items", .arr (itemsToJson items))]

def fieldsToJson : List (String × ValueExpr) → List (String × Json)
  | [] => []
  | field :: rest => (field.1, field.2.toJson) :: fieldsToJson rest

def itemsToJson : List ValueExpr → List Json
  | [] => []
  | item :: rest => item.toJson :: itemsToJson rest
end

/-- `arguments_to_json`: written in key order. -/
def argumentsToJson (arguments : Dict String ValueExpr) : Json :=
  .obj (fieldsToJson (sortedBy Prod.fst arguments))

inductive Condition
  | predicate (ref : VersionedRef) (arguments : Dict String ValueExpr)
  | all (items : List Condition)
  | any (items : List Condition)
  | not (item : Condition)
  | constant (value : Bool)

mutual
def Condition.toJson : Condition → Json
  | .predicate ref arguments => .obj [("op", .str "predicate"), ("predicate_ref", ref.toJson),
      ("arguments", argumentsToJson arguments)]
  | .all items => .obj [("op", .str "all"), ("items", .arr (conditionsToJson items))]
  | .any items => .obj [("op", .str "any"), ("items", .arr (conditionsToJson items))]
  | .not item => .obj [("op", .str "not"), ("item", item.toJson)]
  | .constant value => .obj [("op", .str "constant"), ("value", .bool value)]

def conditionsToJson : List Condition → List Json
  | [] => []
  | item :: rest => item.toJson :: conditionsToJson rest
end

def formMembers : List (String × TaskForm) := [("compound", .compound), ("primitive", .primitive)]

def relationMembers : List (String × ObligationRelation) :=
  [("refines_parent", .refinesParent), ("independent_authorized", .independentAuthorized)]

def reuseMembers : List (String × ReusePolicy) :=
  [("new_work", .newWork), ("reuse_accepted", .reuseAccepted), ("share_active", .shareActive)]

structure MethodStep where
  localId : Identifier
  taskTypeRef : VersionedRef
  form : TaskForm
  arguments : Dict String ValueExpr := []
  requiredCapabilities : Identifiers := {}
  obligationRelation : ObligationRelation := .refinesParent
  reusePolicy : Option ReusePolicy := none

def MethodStep.toJson (step : MethodStep) : Json :=
  .obj ([("local_id", .str step.localId.text), ("task_type_ref", step.taskTypeRef.toJson),
    ("form", .str (memberText formMembers step.form)), ("arguments", argumentsToJson step.arguments),
    ("required_capabilities", step.requiredCapabilities.toJson),
    ("obligation_relation", .str (memberText relationMembers step.obligationRelation))] ++
    match step.reusePolicy with
    | none => []
    | some policy => [("reuse_policy", .str (memberText reuseMembers policy))])

structure MethodOrdering where
  before : Identifier
  after : Identifier
  differ : before ≠ after := by decide

def MethodOrdering.toJson (order : MethodOrdering) : Json :=
  .obj [("before", .str order.before.text), ("after", .str order.after.text)]

structure CriterionLink where
  parentCriterionId : Identifier
  childStep : Option Identifier
  childCriterionId : Option Identifier
  evidenceRequirement : BoundedText

def optionalText (id : Option Identifier) : Json :=
  match id with
  | none => .null
  | some id => .str id.text

def CriterionLink.toJson (link : CriterionLink) : Json :=
  .obj [("parent_criterion_id", .str link.parentCriterionId.text),
    ("child_step", optionalText link.childStep),
    ("child_criterion_id", optionalText link.childCriterionId),
    ("evidence_requirement", .str link.evidenceRequirement.text)]

/-- Independent review is always required, so the flag is not a field. -/
structure MethodComposition where
  criterionLinks : List CriterionLink
  outputs : Dict String ValueExpr := []
  finalizerStep : Option Identifier := none
  someLink : criterionLinks ≠ [] := by simp

def MethodComposition.toJson (composition : MethodComposition) : Json :=
  .obj [("criterion_links", .arr (composition.criterionLinks.map CriterionLink.toJson)),
    ("outputs", argumentsToJson composition.outputs),
    ("finalizer_step", optionalText composition.finalizerStep),
    ("independent_review_required", .bool true)]

/-- Immutable, versioned decomposition knowledge; it never carries its own admission. -/
structure MethodContract where
  methodId : Identifier
  methodVersion : Counter 1
  goalTypeRef : VersionedRef
  parameterSchemaRef : VersionedRef
  outputSchemaRef : VersionedRef
  applicableWhen : List Condition := []
  explorationAssumptions : List Condition := []
  steps : List MethodStep
  ordering : List MethodOrdering := []
  requiredCapabilities : Identifiers := {}
  expectedEffects : List Condition := []
  composition : MethodComposition
  basisRefs : List EvidenceRef := []
  stepsDistinct : (steps.map (·.localId)).Nodup := by decide
  orderingKnown : ∀ order ∈ ordering,
    order.before ∈ steps.map (·.localId) ∧ order.after ∈ steps.map (·.localId) := by decide
  finalizerKnown : ∀ step ∈ composition.finalizerStep, step ∈ steps.map (·.localId) := by decide

def MethodContract.toJson (method : MethodContract) : Json :=
  .obj [("schema_version", .int 1), ("method_id", .str method.methodId.text),
    ("method_version", .int method.methodVersion.number),
    ("goal_type_ref", method.goalTypeRef.toJson),
    ("parameter_schema_ref", method.parameterSchemaRef.toJson),
    ("output_schema_ref", method.outputSchemaRef.toJson),
    ("applicable_when", .arr (conditionsToJson method.applicableWhen)),
    ("exploration_assumptions", .arr (conditionsToJson method.explorationAssumptions)),
    ("steps", .arr (method.steps.map MethodStep.toJson)),
    ("ordering", .arr (method.ordering.map MethodOrdering.toJson)),
    ("required_capabilities", method.requiredCapabilities.toJson),
    ("expected_effects", .arr (conditionsToJson method.expectedEffects)),
    ("composition", method.composition.toJson),
    ("basis_refs", .arr (method.basisRefs.map EvidenceRef.toJson))]

structure MethodRef where
  methodId : Identifier
  version : Counter 1
  contentHash : HashHex
deriving DecidableEq

/-- `contentHashOf` is the digest of the canonical text. -/
def MethodContract.methodRef (contentHashOf : Json → HashHex) (method : MethodContract) :
    MethodRef :=
  ⟨method.methodId, method.methodVersion, contentHashOf method.toJson⟩

mutual
def ValueExpr.nodes : ValueExpr → List ValueExpr
  | .object fields => .object fields :: fieldNodes fields
  | .array items => .array items :: itemNodes items
  | value => [value]

def fieldNodes : List (String × ValueExpr) → List ValueExpr
  | [] => []
  | field :: rest => field.2.nodes ++ fieldNodes rest

def itemNodes : List ValueExpr → List ValueExpr
  | [] => []
  | item :: rest => item.nodes ++ itemNodes rest
end

mutual
/-- The predicate atoms of a condition, in the order `iter_conditions` walks them. -/
def Condition.atoms : Condition → List (VersionedRef × Dict String ValueExpr)
  | .predicate ref arguments => [(ref, arguments)]
  | .all items => atomsOf items
  | .any items => atomsOf items
  | .not item => item.atoms
  | .constant _ => []

def atomsOf : List Condition → List (VersionedRef × Dict String ValueExpr)
  | [] => []
  | item :: rest => item.atoms ++ atomsOf rest
end

def ValueExpr.outputs (value : ValueExpr) : List (Identifier × Identifier) :=
  value.nodes.filterMap fun node =>
    match node with
    | .output step port => some (step, port)
    | _ => none

end Registry
