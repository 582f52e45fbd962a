import HarnessSdk.Contracts.Decoding
import HarnessSdk.Network.Readiness

/-! The criteria of a requirements revision: their class, the evidence they ask for, and the JSON
they are stored as. -/
namespace Acceptance
open PyDict PyText Checks Workflow Contracts
open Network (TypedRefKind PreconditionPhase)

/-- `data.get(key, default)`. -/
def fieldOr (data : Dict String Json) (key : String) (default : Json) : Json :=
  (get? data key).getD default

def refKindMembers : List (String × TypedRefKind) :=
  [("task", .task), ("method", .method), ("requirements", .requirements), ("artifact", .artifact),
    ("source", .source), ("observation", .observation), ("review", .review),
    ("acceptance", .acceptance), ("resolution", .resolution), ("operation", .operation),
    ("tool_receipt", .toolReceipt), ("knowledge", .knowledge)]

structure TypedRef where
  kind : TypedRefKind
  id : Identifier
  revision : Counter 0
  contentHash : HashHex
  producedBy : Option Provenance := none
deriving DecidableEq

def TypedRef.toJson (ref : TypedRef) : Json :=
  .obj ([("kind", .str (memberText refKindMembers ref.kind)), ("id", .str ref.id.text),
    ("revision", .int ref.revision.number), ("content_hash", .str ref.contentHash.text)] ++
    match ref.producedBy with
    | none => []
    | some who => [("produced_by", .str (memberText Provenance.members who))])

def TypedRef.fromJson (value : Json) (name : String) : Except Message TypedRef := do
  let data ← fieldsOf value name ["kind", "id", "revision", "content_hash"] ["produced_by"]
  let kind ← enumOf refKindMembers (field data "kind") "typed_ref.kind"
  let id ← identifier (field data "id") "typed_ref.id"
  let revision ← index 0 (field data "revision") "typed_ref.revision"
  let contentHash ← hashHex (field data "content_hash") "typed_ref.content_hash"
  let producedBy ← optionally (enumOf Provenance.members) (field data "produced_by")
    "typed_ref.produced_by"
  .ok ⟨kind, id, revision, contentHash, producedBy⟩

def optionalRefJson (ref : Option TypedRef) : Json :=
  match ref with
  | none => .null
  | some ref => ref.toJson

def optionalIdJson (id : Option Identifier) : Json :=
  match id with
  | none => .null
  | some id => .str id.text

inductive CriterionOrigin
  | userExplicit
  | policyRequired
  | derived
deriving DecidableEq

def originMembers : List (String × CriterionOrigin) :=
  [("USER_EXPLICIT", .userExplicit), ("POLICY_REQUIRED", .policyRequired), ("DERIVED", .derived)]

inductive RequirementClass
  | hardConstraint
  | requiredOutcome
  | preference
deriving DecidableEq

def classMembers : List (String × RequirementClass) :=
  [("HARD_CONSTRAINT", .hardConstraint), ("REQUIRED_OUTCOME", .requiredOutcome),
    ("PREFERENCE", .preference)]

inductive EvaluationKind
  | semantic
  | executionReceipt
  | deterministic
  | formal
deriving DecidableEq

def evaluationMembers : List (String × EvaluationKind) :=
  [("SEMANTIC", .semantic), ("EXECUTION_RECEIPT", .executionReceipt),
    ("DETERMINISTIC", .deterministic), ("FORMAL", .formal)]

def phaseMembers : List (String × PreconditionPhase) :=
  [("SELECT", .select), ("MAINTAIN", .maintain), ("ACCEPT", .accept)]

/-- Two other spellings of the first phase decode too. -/
def parsePhase (value : Json) (name : String) : Except Message PreconditionPhase :=
  match value with
  | .str "START" => .ok .select
  | .str "SELECT/START" => .ok .select
  | _ => enumOf phaseMembers value name

inductive TemporalUse
  | historicalAsOf
  | currentAtUse
  | continuous
deriving DecidableEq

def temporalMembers : List (String × TemporalUse) :=
  [("HISTORICAL_AS_OF", .historicalAsOf), ("CURRENT_AT_USE", .currentAtUse),
    ("CONTINUOUS", .continuous)]

structure RequiredEvidencePolicy where
  requiredCheckIds : Identifiers := {}
  independenceRequired : Bool := false
  coverageStatement : Option BoundedText := none
deriving DecidableEq

def RequiredEvidencePolicy.toJson (policy : RequiredEvidencePolicy) : Json :=
  .obj [("required_check_ids", policy.requiredCheckIds.toJson),
    ("independence_required", .bool policy.independenceRequired),
    ("coverage_statement", match policy.coverageStatement with
      | none => .null
      | some statement => .str statement.text)]

def RequiredEvidencePolicy.fromJson (value : Json) (name : String) :
    Except Message RequiredEvidencePolicy := do
  let data ← fieldsOf value name [] ["required_check_ids", "independence_required",
    "coverage_statement"]
  let checks ← tupleOf (fieldOr data "required_check_ids" (.arr []))
  let requiredCheckIds ← identifiers checks "evidence_policy.required_check_ids"
  let independenceRequired ← flag (fieldOr data "independence_required" (.bool false))
    "evidence_policy.independence_required"
  let coverageStatement ← optionally text (field data "coverage_statement")
    "evidence_policy.coverage_statement"
  .ok ⟨requiredCheckIds, independenceRequired, coverageStatement⟩

structure AmendmentPolicy where
  amendableBy : Identifiers := {}
  modelExemptible : Bool := false
deriving DecidableEq

def AmendmentPolicy.toJson (policy : AmendmentPolicy) : Json :=
  .obj [("amendable_by", policy.amendableBy.toJson),
    ("model_exemptible", .bool policy.modelExemptible)]

def AmendmentPolicy.fromJson (value : Json) (name : String) : Except Message AmendmentPolicy := do
  let data ← fieldsOf value name [] ["amendable_by", "model_exemptible"]
  let agents ← tupleOf (fieldOr data "amendable_by" (.arr []))
  let amendableBy ← identifiers agents "amendment_policy.amendable_by"
  let modelExemptible ← flag (fieldOr data "model_exemptible" (.bool false))
    "amendment_policy.model_exemptible"
  .ok ⟨amendableBy, modelExemptible⟩

structure Criterion where
  criterionId : Identifier
  revision : Counter 0
  origin : CriterionOrigin
  statement : BoundedText
  requirementClass : RequirementClass
  evaluationKind : EvaluationKind
  sourceRef : Option TypedRef := none
  scope : Option Identifier := none
  requiredEvidencePolicy : RequiredEvidencePolicy := {}
  phase : Option PreconditionPhase := none
  temporalUse : TemporalUse := .currentAtUse
  amendmentPolicy : AmendmentPolicy := {}
  hardStays : requirementClass = .hardConstraint → amendmentPolicy.modelExemptible = false := by
    decide
deriving DecidableEq

def Criterion.isRequired (criterion : Criterion) : Bool :=
  criterion.requirementClass ≠ .preference

def Criterion.gated (criterion : Criterion) : Bool :=
  !criterion.requiredEvidencePolicy.requiredCheckIds.items.isEmpty

def Criterion.toJson (criterion : Criterion) : Json :=
  .obj [("criterion_id", .str criterion.criterionId.text),
    ("revision", .int criterion.revision.number),
    ("origin", .str (memberText originMembers criterion.origin)),
    ("statement", .str criterion.statement.text),
    ("requirement_class", .str (memberText classMembers criterion.requirementClass)),
    ("evaluation_kind", .str (memberText evaluationMembers criterion.evaluationKind)),
    ("source_ref", optionalRefJson criterion.sourceRef),
    ("scope", optionalIdJson criterion.scope),
    ("required_evidence_policy", criterion.requiredEvidencePolicy.toJson),
    ("phase", match criterion.phase with
      | none => .null
      | some phase => .str (memberText phaseMembers phase)),
    ("temporal_use", .str (memberText temporalMembers criterion.temporalUse)),
    ("amendment_policy", criterion.amendmentPolicy.toJson)]

def Criterion.fromJson (value : Json) (name : String) : Except Message Criterion := do
  let data ← fieldsOf value name ["criterion_id", "revision", "origin", "statement",
    "requirement_class", "evaluation_kind"] ["source_ref", "scope", "required_evidence_policy",
    "phase", "temporal_use", "amendment_policy"]
  let sourceRef ← optionally TypedRef.fromJson (field data "source_ref") (name ++ ".source_ref")
  let requiredEvidencePolicy ← RequiredEvidencePolicy.fromJson
    (fieldOr data "required_evidence_policy" (.obj [])) (name ++ ".required_evidence_policy")
  let amendmentPolicy ← AmendmentPolicy.fromJson (fieldOr data "amendment_policy" (.obj []))
    (name ++ ".amendment_policy")
  let criterionId ← identifier (field data "criterion_id") "criterion.criterion_id"
  let revision ← index 0 (field data "revision") "criterion.revision"
  let origin ← enumOf originMembers (field data "origin") "criterion.origin"
  let statement ← text (field data "statement") "criterion.statement"
  let requirementClass ←
    enumOf classMembers (field data "requirement_class") "criterion.requirement_class"
  let evaluationKind ←
    enumOf evaluationMembers (field data "evaluation_kind") "criterion.evaluation_kind"
  let scope ← optionalIdentifier (field data "scope") "criterion.scope"
  let phase ← optionally parsePhase (field data "phase") "criterion.phase"
  let temporalUse ← enumOf temporalMembers (fieldOr data "temporal_use" (.str "CURRENT_AT_USE"))
    "criterion.temporal_use"
  if hardStays : requirementClass = .hardConstraint →
      amendmentPolicy.modelExemptible = false then
    .ok {
      criterionId
      revision
      origin
      statement
      requirementClass
      evaluationKind
      sourceRef
      scope
      requiredEvidencePolicy
      phase
      temporalUse
      amendmentPolicy
      hardStays }
  else .error [.text "a HARD_CONSTRAINT may not be declared model-exemptible (AER §4.1)"]

end Acceptance
