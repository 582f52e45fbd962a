import HarnessSdk.Acceptance.Formula

/-! The acceptance formula: what a review package and its record must show before a goal may be
declared done. -/
namespace Acceptance
open PyDict PyText Checks Workflow Contracts
open Network (ChildBinding Requiredness ValidityWitness)

inductive ReviewPurpose
  | taskContent
  | methodPlan
  | composition
  | actionProposal
  | operationOutcome
  | missionFinal
deriving DecidableEq

inductive WorkspaceAccess
  | none
  | readOnly
  | write
deriving DecidableEq

inductive ReviewVerdict
  | accept
  | rework
  | inconclusive
  | rejected
deriving DecidableEq

structure ReviewBinding where
  missionId : Identifier
  obligationId : Identifier
  subjectRef : TypedRef
  requirementsRevision : Counter 0
  inputManifestHash : HashHex
  policyRef : TypedRef
deriving DecidableEq

/-- The immutable anchor of a review. Only a package that declares the requirements it mirrors must
keep its hard constraints independent. -/
structure ReviewPackage where
  packageId : Identifier
  purpose : ReviewPurpose
  binding : ReviewBinding
  criteria : List Criterion
  successExpression : SuccessExpression
  producerAgentIds : Identifiers := {}
  reviewerWorkspaceAccess : WorkspaceAccess := .readOnly
  requirementsContentHash : Option HashHex := none
  formed : successExpression.formed = true := by decide
  someCriterion : criteria ≠ [] := by simp
  criteriaDistinct : (criteria.map (·.criterionId)).Nodup := by decide
  expressionKnown : unknownExpressionCriteria successExpression criteria = [] := by decide
  readOnly : reviewerWorkspaceAccess ≠ .write := by decide
  mirrored : requirementsContentHash.isSome →
    hardConstraintsNotIndependent successExpression criteria = [] := by decide

section
variable (package : ReviewPackage)

def ReviewPackage.hardConstraintViolations : List Identifier :=
  hardConstraintsNotIndependent package.successExpression package.criteria

def ReviewPackage.criterionCatalogue : List Identifier :=
  package.criteria.map (·.criterionId)

structure ReviewRecord where
  packageId : Identifier
  purpose : ReviewPurpose
  binding : ReviewBinding
  reviewerAgentId : Identifier
  criteria : List CriterionOutcome
  verdict : ReviewVerdict
  someOutcome : criteria ≠ [] := by simp
  outcomesDistinct : (criteria.map (·.criterionId)).Nodup := by decide

def ReviewRecord.outcomes (record : ReviewRecord) : Outcomes := outcomesById record.criteria

structure CriterionMatch where
  unknown : List Identifier := []
  duplicated : List Identifier := []
  missingRequired : List Identifier := []
deriving DecidableEq

def CriterionMatch.matched (m : CriterionMatch) : Bool :=
  m.unknown.isEmpty && m.duplicated.isEmpty && m.missingRequired.isEmpty

/-- `match_review_criteria`, where declined `any` branches may stay unevaluated. -/
def matchReviewCriteria (record : ReviewRecord) (package : ReviewPackage) : CriterionMatch :=
  let reported := record.criteria.map (·.criterionId)
  let optional := criteriaOnlyUnderAny package.successExpression
  let required := (package.criteria.filter fun criterion =>
    criterion.isRequired && criterion.criterionId ∉ optional).map (·.criterionId)
  { unknown := sortedIds (reported.filter (· ∉ package.criterionCatalogue))
    duplicated := sortedIds (reported.filter fun id => 1 < reported.count id)
    missingRequired := sortedIds (required.filter (· ∉ reported)) }

structure GateResult where
  failedIds : List Identifier := []
  unknownIds : List Identifier := []
  missingIds : List Identifier := []
deriving DecidableEq

def hardCriteria (criteria : List Criterion) : List Identifier :=
  (criteria.filter (·.requirementClass = .hardConstraint)).map (·.criterionId)

def hardGate (revision : RequirementsRevision) (outcomes : Outcomes) : GateResult :=
  let hard := hardCriteria revision.criteria
  let verdict := fun id => (get? outcomes id).map projectVerdict
  { failedIds := hard.filter fun id => verdict id = some .fail
    unknownIds := hard.filter fun id => verdict id = some .unknown
    missingIds := hard.filter fun id => verdict id = none }

def needsReceipt (criterion : Criterion) : Bool :=
  criterion.gated || criterion.evaluationKind ≠ .semantic

inductive ReceiptSource
  | dispatcherAttributed
  | provenanceUnknown
  | notAReceipt
deriving DecidableEq

def dispatcherAttributed (ref : TypedRef) : Bool :=
  ref.producedBy = some .system || ref.producedBy = some .tool

def receiptByKind (ref : TypedRef) : Bool :=
  ref.producedBy = none && (ref.kind = .toolReceipt || ref.kind = .operation)

/-- `receipt_source`: attribution first, the kind only as a fallback. -/
def receiptSource (outcome : CriterionOutcome) : ReceiptSource :=
  if outcome.evidenceRefs.any dispatcherAttributed then .dispatcherAttributed
  else if outcome.evidenceRefs.any receiptByKind then .provenanceUnknown
  else .notAReceipt

structure CompletenessResult where
  criterionMatch : CriterionMatch
  notExecutedIds : List Identifier := []
  notPassedIds : List Identifier := []
  unsourcedIds : List Identifier := []
  provenanceUnknownIds : List Identifier := []
  declinedIds : List Identifier := []
  independenceRequiredIds : List Identifier := []
deriving DecidableEq

def CompletenessResult.complete (result : CompletenessResult) : Bool :=
  result.criterionMatch.matched && result.notExecutedIds.isEmpty && result.notPassedIds.isEmpty &&
    result.unsourcedIds.isEmpty

/-- The criteria of a catalogue that are required, reported, and of which something holds. -/
def reportedSuch (criteria : List Criterion) (outcomes : Outcomes)
    (such : Criterion → CriterionOutcome → Bool) : List Identifier :=
  (criteria.filter fun criterion =>
    (get? outcomes criterion.criterionId).any fun outcome =>
      criterion.isRequired && such criterion outcome).map (·.criterionId)

def independenceRequiredIds : List Identifier :=
  (package.criteria.filter (·.requiredEvidencePolicy.independenceRequired)).map (·.criterionId)

def requiredChecksComplete (record : ReviewRecord) :
    CompletenessResult :=
  let reported := record.outcomes
  let optional := criteriaOnlyUnderAny package.successExpression
  { criterionMatch := matchReviewCriteria record package
    notExecutedIds := reportedSuch package.criteria reported fun criterion outcome =>
      criterion.gated && outcome.checkExecution ≠ .succeeded
    notPassedIds := reportedSuch package.criteria reported fun criterion outcome =>
      criterion.gated && projectVerdict outcome ≠ .pass
    unsourcedIds := reportedSuch package.criteria reported fun criterion outcome =>
      needsReceipt criterion && receiptSource outcome = .notAReceipt
    provenanceUnknownIds := reportedSuch package.criteria reported fun criterion outcome =>
      needsReceipt criterion && receiptSource outcome = .provenanceUnknown
    declinedIds := sortedBy Identifier.text (package.criterionCatalogue.filter fun id =>
      (get? reported id).isNone && id ∈ optional)
    independenceRequiredIds := independenceRequiredIds package }

inductive IndependenceReason
  | selfReview
  | writeAccessToCandidate
  | reviewedOwnEdit
  | modelDiversityIsNotIndependence
  | factsContradictPackage
deriving DecidableEq

structure IndependenceFacts where
  producerAgentIds : List Identifier := []
  reviewerCanWriteCandidate : Bool := false
  reviewedRevisionAuthoredByReviewer : Bool := false
  reviewerModelId : Option String := none
  producerModelId : Option String := none

def reasonIf {α : Type} (p : Prop) [Decidable p] (reason : α) : List α := if p then [reason] else []

def IndependenceFacts.modelsDiffer (facts : IndependenceFacts) : Bool :=
  facts.reviewerModelId.isSome && facts.producerModelId.isSome &&
    facts.reviewerModelId ≠ facts.producerModelId

def sameMembers (a b : List Identifier) : Bool := a.all (· ∈ b) && b.all (· ∈ a)

/-- `independence_ok`: the minimum bar; the reasons against it. -/
def independenceReasons (record : ReviewRecord)
    (facts : IndependenceFacts) : List IndependenceReason :=
  let reviewer := record.reviewerAgentId
  let produced := reviewer ∈ facts.producerAgentIds ∨ reviewer ∈ package.producerAgentIds.items
  reasonIf produced .selfReview ++
  reasonIf (produced ∧ facts.modelsDiffer = true) .modelDiversityIsNotIndependence ++
  reasonIf (facts.reviewerCanWriteCandidate = true) .writeAccessToCandidate ++
  reasonIf (facts.reviewedRevisionAuthoredByReviewer = true) .reviewedOwnEdit ++
  reasonIf ((package.producerAgentIds.items ≠ [] ∧
      sameMembers package.producerAgentIds.items facts.producerAgentIds = false) ∨
    (facts.reviewerCanWriteCandidate = true ∧ package.reviewerWorkspaceAccess ≠ .write))
    .factsContradictPackage

end

inductive AcceptReason
  | identityMismatch
  | purposeMismatch
  | requirementsRevisionMismatch
  | requirementsContentMismatch
  | successExpressionMismatch
  | hardConstraintStructure
  | rootCriterionMissing
  | hardConstraintFailed
  | hardConstraintUnknown
  | successExpressionNotPass
  | criteriaNotMatched
  | requiredChecksIncomplete
  | reviewVerdictNotAccept
  | independentReviewMissing
  | witnessPurposeMismatch
  | witnessNotUsable
  | witnessStale
  | useCertificateMissing
  | useCertificateNotUsable
  | criticalOperationUnowned
  | cancellationPending
  | methodAdoptionStale
  | compoundMethodIllegal
  | requiredOccurrenceMissing
  | compositionObligationFailed
deriving DecidableEq

structure ExecutionPosture where
  unownedCriticalOperationIds : List String := []
  cancellationRequested : Bool := false
  methodAdoptionCurrent : Bool := true

structure CompoundFacts where
  selectedMethodLegal : Bool
  childBindings : List ChildBinding := []
  contributingOccurrenceIds : List String := []
  compositionObligationPassed : Bool := true

def CompoundFacts.missingRequiredOccurrences (facts : CompoundFacts) : List String :=
  (facts.childBindings.filter fun child =>
    child.requiredness = .required && child.occurrenceId ∉ facts.contributingOccurrenceIds).map
    (·.occurrenceId)

structure AcceptanceSubject where
  revision : RequirementsRevision
  package : ReviewPackage
  record : ReviewRecord
  independence : IndependenceFacts
  posture : ExecutionPosture
  semanticReviewRequired : Bool := true
  compound : Option CompoundFacts := none

structure AcceptDecision where
  reasons : List AcceptReason
  expression : ExpressionResult
  gate : GateResult
  completeness : CompletenessResult
  independence : List IndependenceReason
  missingRootIds : List Identifier := []
  missingOccurrenceIds : List String := []
  hardConstraintStructureIds : List Identifier := []

def witnessReasons (witness : ValidityWitness) (nowMs currentScopeEpoch : Nat) :
    List AcceptReason :=
  reasonIf (witness.purpose ≠ .accept) .witnessPurposeMismatch ++
  reasonIf (witness.decision ≠ .usable ∨ witness.truth ≠ .true ∨ witness.availability ≠ .readable)
    .witnessNotUsable ++
  reasonIf (witness.isFreshFor nowMs currentScopeEpoch = false) .witnessStale

section
variable (contentHashOf : Json → HashHex)

def RequirementsRevision.contentHash (revision : RequirementsRevision) : HashHex :=
  contentHashOf revision.toJson

def successExpressionDigest (expression : SuccessExpression) : HashHex :=
  contentHashOf expression.toJson

/-- Conjuncts 1 to 1c: everything names the same thing, and the package reviews what the revision
states. -/
def identityReasons (subject : AcceptanceSubject) (purpose : ReviewPurpose) : List AcceptReason :=
  let revision := subject.revision
  let package := subject.package
  let record := subject.record
  reasonIf (record.packageId ≠ package.packageId ∨ record.binding ≠ package.binding)
    .identityMismatch ++
  reasonIf (record.purpose ≠ package.purpose ∨ record.purpose ≠ purpose) .purposeMismatch ++
  reasonIf (package.binding.requirementsRevision ≠ revision.revision ∨
    package.binding.missionId ≠ revision.missionId) .requirementsRevisionMismatch ++
  (match package.requirementsContentHash with
    | some declared => reasonIf (declared ≠ revision.contentHash contentHashOf)
        .requirementsContentMismatch
    | none => reasonIf (successExpressionDigest contentHashOf package.successExpression ≠
        successExpressionDigest contentHashOf revision.successExpression)
        .successExpressionMismatch) ++
  reasonIf (package.hardConstraintViolations ≠ []) .hardConstraintStructure

end

section
variable (subject : AcceptanceSubject)

def missingRootIds : List Identifier :=
  subject.revision.requiredCriterionIds.filter (· ∉ subject.package.criterionCatalogue)

/-- Conjuncts 2 to 6, over a gate, an expression result and a completeness result. -/
def reviewReasons (gate : GateResult) (expression : ExpressionResult)
    (completeness : CompletenessResult) : List AcceptReason :=
  reasonIf (missingRootIds subject ≠ []) .rootCriterionMissing ++
  reasonIf (gate.failedIds ≠ []) .hardConstraintFailed ++
  reasonIf (gate.unknownIds ≠ [] ∨ gate.missingIds ≠ []) .hardConstraintUnknown ++
  reasonIf (expression.passed = false) .successExpressionNotPass ++
  reasonIf (completeness.criterionMatch.matched = false) .criteriaNotMatched ++
  reasonIf (completeness.complete = false) .requiredChecksIncomplete ++
  reasonIf (subject.record.verdict ≠ .accept) .reviewVerdictNotAccept ++
  reasonIf ((subject.semanticReviewRequired = true ∨ completeness.independenceRequiredIds ≠ []) ∧
    independenceReasons subject.package subject.record subject.independence ≠ [])
    .independentReviewMissing

def missingOccurrenceIds : List String :=
  (subject.compound.map (·.missingRequiredOccurrences)).getD []

/-- Conjuncts 8 and 9: in-flight work, adoption, and the extras of a compound goal. -/
def executionReasons : List AcceptReason :=
  let posture := subject.posture
  reasonIf (posture.unownedCriticalOperationIds ≠ []) .criticalOperationUnowned ++
  reasonIf (posture.cancellationRequested = true) .cancellationPending ++
  reasonIf (posture.methodAdoptionCurrent = false) .methodAdoptionStale ++
  match subject.compound with
  | none => []
  | some compound =>
    reasonIf (compound.selectedMethodLegal = false) .compoundMethodIllegal ++
    reasonIf (compound.missingRequiredOccurrences ≠ []) .requiredOccurrenceMissing ++
    reasonIf (compound.compositionObligationPassed = false) .compositionObligationFailed

end

/-- One conjunction; every unmet conjunct names its own reason. -/
def acceptable (contentHashOf : Json → HashHex) (subject : AcceptanceSubject) (nowMs : Nat)
    (purpose : ReviewPurpose) (witness : ValidityWitness) (currentScopeEpoch : Nat) :
    AcceptDecision :=
  let outcomes := subject.record.outcomes
  let gate := hardGate subject.revision outcomes
  let expression := evaluateSuccessExpression subject.revision.successExpression outcomes
  let completeness := requiredChecksComplete subject.package subject.record
  { reasons := identityReasons contentHashOf subject purpose ++
      reviewReasons subject gate expression completeness ++
      witnessReasons witness nowMs currentScopeEpoch ++ executionReasons subject
    expression
    gate
    completeness
    independence := independenceReasons subject.package subject.record subject.independence
    missingRootIds := missingRootIds subject
    missingOccurrenceIds := missingOccurrenceIds subject
    hardConstraintStructureIds := subject.package.hardConstraintViolations }

end Acceptance
