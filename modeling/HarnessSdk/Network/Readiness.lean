import HarnessSdk.Network.ProjectionOrder

/-! The readiness of one occurrence: nine gates in a fixed order, where the first refusal is the
answer. -/
namespace Network
open PyDict PyText Relation

inductive ReadinessReason
  | notSelected
  | needsRefinement
  | waitingOrder
  | waitingData
  | waitingEvidence
  | waitingApproval
  | staleBinding
  | readyCandidate
  | waitingOperationUnknown
  | observerUnavailable
  | graphIntegrity
  | validityRecheckPending
deriving DecidableEq

inductive OccurrenceOutcome
  | running
  | accepted
  | failed
  | cancelled
  | settledOther
  | unknown
deriving DecidableEq

def OccurrenceOutcome.text : OccurrenceOutcome → String
  | .running => "RUNNING"
  | .accepted => "ACCEPTED"
  | .failed => "FAILED"
  | .cancelled => "CANCELLED"
  | .settledOther => "SETTLED_OTHER"
  | .unknown => "UNKNOWN"

def OccurrenceOutcome.terminal : OccurrenceOutcome → Bool
  | .accepted | .failed | .cancelled | .settledOther => true
  | .running | .unknown => false

/-- An ORDER edge releases on acceptance; only `settled_terminal` takes a failure. -/
def orderReleased (outcome : OccurrenceOutcome) (condition : ReleaseCondition) : Bool :=
  if outcome = .accepted then true
  else if outcome = .unknown then false
  else if condition = .settledTerminal then outcome.terminal
  else false

inductive DispatchCandidacy
  | allowsDispatch
  | runningWorkExists
  | attemptsExhausted
  | withdrawn
deriving DecidableEq

def DispatchCandidacy.text : DispatchCandidacy → String
  | .allowsDispatch => "ALLOWS_DISPATCH"
  | .runningWorkExists => "RUNNING_WORK_EXISTS"
  | .attemptsExhausted => "ATTEMPTS_EXHAUSTED"
  | .withdrawn => "WITHDRAWN"

inductive ApprovalDecision
  | notRequired
  | pending
  | granted
  | denied
  | expired
deriving DecidableEq

def ApprovalDecision.text : ApprovalDecision → String
  | .notRequired => "NOT_REQUIRED"
  | .pending => "PENDING"
  | .granted => "GRANTED"
  | .denied => "DENIED"
  | .expired => "EXPIRED"

structure ApprovalState where
  decision : ApprovalDecision
  grantedBy : Option String := none
  grantedAtMs : Option Nat := none
  expiresAtMs : Option Nat := none
deriving DecidableEq

def ApprovalState.isEffective (approval : ApprovalState) (nowMs : Nat) : Bool :=
  decide (approval.decision = .granted) && approval.expiresAtMs.all (nowMs < ·)

structure ObligationAccountView where
  lifecycle : ObligationLifecycle := .unsatisfied
  hasAdmittedDemand : Bool := false
deriving DecidableEq

structure GraphIntegrityError where
  remaining : List String
  cycle : List String
deriving DecidableEq

def GraphIntegrityError.diagnose (error : GraphIntegrityError) : String :=
  "graph integrity failure: " ++ toString error.remaining.length ++
    " node(s) remain unordered [" ++ join ", " (sorted error.remaining) ++
    "]; one concrete cycle: " ++
    (if error.cycle.isEmpty then "not isolated" else join " -> " error.cycle) ++
    ". No topological order is reported for a damaged projection: the healthy " ++
    "prefix is a partial order, not a plan."

structure TaskView where
  occurrenceId : OccurrenceId
  taskId : TaskRef
  binding : Option TaskSemanticBinding := none
  legacyStatus : String := ""
  approval : ApprovalState := { decision := .notRequired }
  approvalRevision : Nat := 0
  dispatchCandidacy : DispatchCandidacy := .allowsDispatch

structure ActivePlanView where
  snapshot : TaskNetworkSnapshot
  missionAdmitsWork : Bool := true
  requirementsRevision : Nat := 0
  managerEpoch : Nat := 0
  budgetGrantRevision : Nat := 0
  scopeEpochs : Dict String Nat := []
  dispatchGenerations : Dict OccurrenceId Nat := []
  inputBindingRevisions : Dict TaskRef Nat := []
  obligationAccounts : Dict ObligationId ObligationAccountView := []
  integrityError : Option GraphIntegrityError := none

def ActivePlanView.adoptedOccurrences (plan : ActivePlanView) : List OccurrenceId :=
  match plan.snapshot.executionProjection with
  | some projection => projection.projectedOccurrences
  | none => []

def ActivePlanView.isAdopted (plan : ActivePlanView) (id : OccurrenceId) : Bool :=
  id ∈ plan.adoptedOccurrences

inductive EffectOutcome
  | notHandedOff
  | pending
  | applied
  | notApplied
  | partially
  | unknown
deriving DecidableEq

def EffectOutcome.text : EffectOutcome → String
  | .notHandedOff => "NOT_HANDED_OFF"
  | .pending => "PENDING"
  | .applied => "APPLIED"
  | .notApplied => "NOT_APPLIED"
  | .partially => "PARTIAL"
  | .unknown => "UNKNOWN"

/-- `UNSETTLED_EFFECTS`: an effect nobody can yet call done or not done. -/
def EffectOutcome.unsettled : EffectOutcome → Bool
  | .pending | .partially | .unknown => true
  | .notHandedOff | .applied | .notApplied => false

structure PendingOperation where
  operationId : String
  effectOutcome : EffectOutcome
  conflictsWith : List OccurrenceId := []
deriving DecidableEq

inductive WitnessPurpose
  | plan
  | start
  | maintain
  | accept
  | context
  | disclose
  | recovery
deriving DecidableEq

def WitnessPurpose.text : WitnessPurpose → String
  | .plan => "PLAN"
  | .start => "START"
  | .maintain => "MAINTAIN"
  | .accept => "ACCEPT"
  | .context => "CONTEXT"
  | .disclose => "DISCLOSE"
  | .recovery => "RECOVERY"

inductive TruthValue
  | «true»
  | «false»
  | unknown
  | conflict
deriving DecidableEq

def TruthValue.text : TruthValue → String
  | .true => "TRUE"
  | .false => "FALSE"
  | .unknown => "UNKNOWN"
  | .conflict => "CONFLICT"

inductive Validity
  | current
  | stale
  | revoked
deriving DecidableEq

def Validity.text : Validity → String
  | .current => "CURRENT"
  | .stale => "STALE"
  | .revoked => "REVOKED"

inductive Availability
  | readable
  | redacted
  | unavailable
deriving DecidableEq

inductive WitnessDecision
  | usable
  | needsReview
  | blocked
  | unavailable
deriving DecidableEq

def WitnessDecision.text : WitnessDecision → String
  | .usable => "USABLE"
  | .needsReview => "NEEDS_REVIEW"
  | .blocked => "BLOCKED"
  | .unavailable => "UNAVAILABLE"

structure ValidityWitness where
  witnessId : String
  consumerRef : TypedRef
  purpose : WitnessPurpose
  truth : TruthValue
  freshness : Validity
  availability : Availability
  decision : WitnessDecision
  scopeId : String
  scopeEpoch : Nat
  supportRevision : Nat := 0
  asOfMs : Nat := 0
  notAfterMs : Option Nat := none
  supportRefs : List TypedRef := []
  reasonCodes : List String := []
  /-- A usable witness is true, current and readable. -/
  usable : decision = .usable → truth = .true ∧ freshness = .current ∧ availability = .readable
deriving DecidableEq

def ValidityWitness.isFreshFor (witness : ValidityWitness) (nowMs currentScopeEpoch : Nat) : Bool :=
  decide (witness.scopeEpoch = currentScopeEpoch) && witness.notAfterMs.all (nowMs < ·) &&
    decide (witness.freshness = .current)

structure SupportSetRead where
  supportSetId : String
  revision : Nat
  memberDigest : String
deriving DecidableEq

structure EvidenceView where
  witnesses : Dict String ValidityWitness := []
  observerAvailable : Bool := true
  pendingOperations : List PendingOperation := []
  supportSets : List SupportSetRead := []
  operationRangeRevision : Nat := 0

inductive ResolutionProblemKind
  | ambiguousSinglePort
  | setPortUnordered
  | setPortOrderIncomplete
  | undeclaredPort
  | foreignRequirement
  | unboundRequiredPort
  | schemaMismatch
  | notDisclosable
  | witnessMissing
  | witnessNotUsable
  | witnessPurposeMismatch
  | witnessConsumerMismatch
  | witnessSupportMismatch
  | witnessEpochUnknown
  | pendingProducer
  | provisionalNotAuthorized
  | revisionNotAvailable
  | targetPathConflict
  | targetPathInvalid
deriving DecidableEq

def ResolutionProblemKind.text : ResolutionProblemKind → String
  | .ambiguousSinglePort => "ambiguous_single_port"
  | .setPortUnordered => "set_port_unordered"
  | .setPortOrderIncomplete => "set_port_order_incomplete"
  | .undeclaredPort => "undeclared_port"
  | .foreignRequirement => "foreign_requirement"
  | .unboundRequiredPort => "unbound_required_port"
  | .schemaMismatch => "schema_mismatch"
  | .notDisclosable => "not_disclosable"
  | .witnessMissing => "witness_missing"
  | .witnessNotUsable => "witness_not_usable"
  | .witnessPurposeMismatch => "witness_purpose_mismatch"
  | .witnessConsumerMismatch => "witness_consumer_mismatch"
  | .witnessSupportMismatch => "witness_support_mismatch"
  | .witnessEpochUnknown => "witness_epoch_unknown"
  | .pendingProducer => "pending_producer"
  | .provisionalNotAuthorized => "provisional_not_authorized"
  | .revisionNotAvailable => "revision_not_available"
  | .targetPathConflict => "target_path_conflict"
  | .targetPathInvalid => "target_path_invalid"

structure ResolutionProblem where
  kind : ResolutionProblemKind
  detail : String
  inputPort : Option String := none
  requirementIds : List String := []
  candidates : List String := []
  inputPorts : List String := []
deriving DecidableEq

structure BoundInput where
  requirementId : String
  producerResultId : String
  acceptanceId : String
  artifactId : String
  contentHash : String
  schemaRef : VersionedRef
  sourceRevision : String
deriving DecidableEq

structure ResourceIdentity where
  «namespace» : String
  path : String
deriving DecidableEq

structure ResolvedInputBinding where
  bindingId : String
  bound : BoundInput := ⟨"", "", "", "", "", ⟨"", 0, ""⟩, ""⟩
  producerTaskRef : TaskRef := ""
  producerOccurrence : OccurrenceId := ""
  outputPort : String := ""
  supportRevision : Nat := 0
  consumerTaskRef : TaskRef := ""
  inputPort : String
  portOrdinal : Nat := 0
  sourceIdentity : ResourceIdentity := ⟨"", ""⟩
  producedSchemaRef : VersionedRef := ⟨"", 0, ""⟩
  readPolicy : String := ""
  freshnessPolicy : String := ""
  disclosureScope : String := ""
  sourceRevisionPolicy : SourceRevisionPolicy := .pinned
  converterRef : Option String := none
  requiresReacceptance : Bool := false
  provisional : Bool := false
  witnessId : Option String := none
deriving DecidableEq

structure InputManifest where
  consumerTaskRef : TaskRef := ""
  bindings : List ResolvedInputBinding := []
  /-- The requirement ids of the inputs that are still symbolic. -/
  pending : List String := []
  bindingsDistinct : (bindings.map (·.bindingId)).Nodup := by
    first | exact List.nodup_nil | decide

def InputManifest.isFrozen (manifest : InputManifest) : Bool := manifest.pending.isEmpty

def InputManifest.requiredPortsSatisfied (manifest : InputManifest)
    (consumer : TaskSemanticBinding) : Bool :=
  consumer.inputPorts.all fun spec =>
    !spec.required ||
      manifest.bindings.any fun item => item.inputPort == spec.portKey && !item.provisional

structure ResolutionResult where
  manifest : Option InputManifest
  problems : List ResolutionProblem := []

structure SettledTerminalOccurrence where
  missionId : String
  planRevision : Nat
  occurrenceId : OccurrenceId
  contractRevision : Nat
  dispatchGeneration : Nat
  outcome : String
deriving DecidableEq

structure ReadinessDetail where
  code : String
  subject : String := ""
  message : Message := []
deriving DecidableEq

structure ReadinessReport where
  reason : ReadinessReason
  occurrenceId : OccurrenceId
  taskId : TaskRef
  missionId : String
  planRevision : Nat
  details : List ReadinessDetail := []
  evaluatedAtMs : Nat := 0
deriving DecidableEq

structure Context where
  view : TaskView
  plan : ActivePlanView
  resolutions : Dict OccurrenceId OccurrenceOutcome
  evidence : EvidenceView := {}
  inputResult : Option ResolutionResult := none
  nowMs : Nat := 0
  settlements : Option (Dict OccurrenceId SettledTerminalOccurrence) := none

abbrev GateResult := Option (ReadinessReason × List ReadinessDetail)

def refused (reason : ReadinessReason) (code subject : String) (message : Message) : GateResult :=
  some (reason, [{ code := code, subject := subject, message := message }])

namespace Context
variable (context : Context)

def integrityGate : GateResult :=
  match context.plan.integrityError with
  | some error => refused .graphIntegrity "projection_not_orderable"
      context.plan.snapshot.missionId [.text error.diagnose]
  | none =>
    match context.plan.snapshot.occurrence? context.view.occurrenceId, context.view.binding with
    | none, _ => refused .graphIntegrity "unknown_occurrence" context.view.occurrenceId
        [.text "this plan revision does not contain the occurrence being judged"]
    | some _, none => refused .graphIntegrity "semantic_binding_missing" context.view.taskId
        [.text ("a new-mode task without a TaskSemanticBindingV1 is corruption, " ++
          "not a legacy fallback (§18.5)")]
    | some spec, some binding =>
      if binding.taskId ≠ context.view.taskId ∨ spec.taskId ≠ context.view.taskId then
        refused .graphIntegrity "binding_task_mismatch" context.view.taskId
          [.text ("occurrence " ++ spec.occurrenceId ++ " names task " ++ spec.taskId ++
            " and the binding names " ++ binding.taskId)]
      else if spec.form ≠ binding.form then
        refused .graphIntegrity "form_mismatch" context.view.taskId
          [.text ("occurrence says " ++ spec.form.text ++ ", binding says " ++ binding.form.text)]
      else none

def refinementGate : GateResult :=
  match context.view.binding with
  | none => none
  | some binding =>
    if binding.form ≠ .compound then none
    else refused .needsRefinement "form_compound" binding.taskId
      [.text ("a compound task is refined by a MethodInstance, never dispatched to a Worker; the " ++
        "legacy status "), .repr context.view.legacyStatus,
        .text " is only a rebuildable display index (§18.5 hard constraint 4)"]

/-- A duty with no account record at all is refused: no account means no admitted demand. -/
def accountGate (binding : TaskSemanticBinding) : GateResult :=
  match get? context.plan.obligationAccounts binding.obligationId with
  | none => refused .notSelected "obligation_account_missing" binding.obligationId
      [.text ("no account record was read for this duty; no account means no admitted demand, " ++
        "and a missing ledger entry is not a permission")]
  | some record =>
    if record.lifecycle ≠ .unsatisfied then
      refused .notSelected ("obligation_" ++ record.lifecycle.text) binding.obligationId
        [.text "the duty behind this occurrence is no longer outstanding"]
    else if record.hasAdmittedDemand = false then
      refused .notSelected "obligation_demand_not_admitted" binding.obligationId
        [.text ("the duty is outstanding but no demand for it is currently admitted " ++
          "(TG decision 9)")]
    else none

def selectionGate : GateResult :=
  if context.plan.missionAdmitsWork = false then
    refused .notSelected "mission_does_not_admit_work" context.plan.snapshot.missionId
      [.text "the mission is not accepting new work in this revision"]
  else if context.plan.isAdopted context.view.occurrenceId = false then
    refused .notSelected "not_in_adopted_plan" context.view.occurrenceId
      [.text ("the occurrence is not reachable from a root through the adopted methods of this " ++
        "plan revision")]
  else
    (context.view.binding.bind context.accountGate).or
      (if context.view.dispatchCandidacy ≠ .allowsDispatch then
        refused .notSelected ("dispatch_candidacy_" ++ context.view.dispatchCandidacy.text)
          context.view.occurrenceId
          [.text "the current attempt / candidate policy does not want a new dispatch"]
      else none)

def settles (constraint : OrderConstraint) (outcome : OccurrenceOutcome)
    (facts : Dict OccurrenceId SettledTerminalOccurrence) : Bool :=
  match get? facts constraint.before,
      (context.plan.snapshot.occurrence? constraint.before).bind fun spec =>
        context.plan.snapshot.bindingForTask? spec.taskId with
  | some fact, some binding =>
    fact.missionId == context.plan.snapshot.missionId &&
      fact.planRevision == context.plan.snapshot.planRevision &&
      fact.occurrenceId == constraint.before &&
      fact.contractRevision == binding.contractRevision &&
      fact.dispatchGeneration == binding.dispatchGeneration && fact.outcome == outcome.text
  | _, _ => false

def orderProblem (constraint : OrderConstraint) : Option ReadinessDetail :=
  match get? context.resolutions constraint.before with
  | none => some {
      code := "order_outcome_unobserved"
      subject := constraint.before
      message := [.text ("no outcome has been observed for the predecessor; an unobserved " ++
        "predecessor is waiting, not released")] }
  | some outcome =>
    if constraint.releaseCondition = .settledTerminal ∧
        context.settlements.any (fun facts => !context.settles constraint outcome facts) then
      some {
        code := "order_settlement_pending"
        subject := constraint.before
        message := [.text ("the predecessor lacks complete original runtime, Operation and " ++
          "accounting settlement")] }
    else if orderReleased outcome constraint.releaseCondition then none
    else some {
      code := if outcome = .unknown then "order_outcome_unknown" else "order_not_released"
      subject := constraint.before
      message := [.text ("predecessor outcome " ++ outcome.text ++
        " does not satisfy release condition " ++ constraint.releaseCondition.text)] }

/-- The constraints that name this occurrence itself as their successor. -/
def orderGate : GateResult :=
  let problems := (context.plan.snapshot.orderConstraints.filter fun constraint =>
    constraint.after == context.view.occurrenceId).filterMap context.orderProblem
  if problems.isEmpty then none else some (.waitingOrder, problems)

def manifestProblems (binding : TaskSemanticBinding) : Option InputManifest → List ReadinessDetail
  | none => [{
      code := "manifest_absent"
      subject := binding.taskId
      message := [.text "the resolver produced no manifest for this consumer"] }]
  | some manifest =>
    (if manifest.isFrozen then [] else [{
      code := "manifest_not_frozen"
      subject := binding.taskId
      message := [.text (toString manifest.pending.length ++
        " input(s) are still symbolic, so the dispatch has no identity to hash " ++
        "(implementation annex §4.3)")] }]) ++
    if manifest.requiredPortsSatisfied binding then [] else [{
      code := "required_port_not_firmly_bound"
      subject := binding.taskId
      message := [.text ("a required input port has only a provisional binding; a " ++
        "provisional input may run but never claims DATA is met (TG §4.3)")] }]

def resolutionDetail (problem : ResolutionProblem) : ReadinessDetail where
  code := problem.kind.text
  subject := match problem.inputPort with
    | some port => if port = "" then join "," problem.inputPorts else port
    | none => join "," problem.inputPorts
  message := [.text problem.detail]

def dataGate : GateResult :=
  match context.view.binding, context.inputResult with
  | none, _ => none
  | some binding, none => refused .waitingData "input_resolution_missing" binding.taskId
      [.text ("no input resolution was supplied; a missing input is its own answer, " ++
        "not a task failure (TG §8.2)")]
  | some binding, some result =>
    let problems := result.problems.map resolutionDetail ++ manifestProblems binding result.manifest
    if problems.isEmpty then none else some (.waitingData, problems)

def freshnessCode (witness : ValidityWitness) (currentEpoch nowMs : Nat) : String :=
  if witness.scopeEpoch ≠ currentEpoch then "witness_epoch_stale"
  else if witness.notAfterMs.any (· ≤ nowMs) then "witness_deadline_passed"
  else if witness.freshness ≠ .current then "witness_freshness_" ++ witness.freshness.text
  else "witness_not_fresh"

def optionText : Option Nat → String
  | none => "None"
  | some n => toString n

def witnessVerdict (digest : String) (consumerTask : TaskRef) :
    Option ValidityWitness → Option (ReadinessReason × ReadinessDetail)
  | none => some (.waitingEvidence, {
      code := "witness_missing"
      subject := digest
      message := [.text "no ValidityWitness was supplied for this START precondition"] })
  | some witness =>
    if witness.purpose ≠ .start then some (.waitingEvidence, {
      code := "witness_purpose_not_start"
      subject := digest
      message := [.text ("the witness was issued for " ++ witness.purpose.text ++
        "; a dispatch consumes a purpose=START witness and a witness is not a transferable " ++
        "token (§11.5)")] })
    else if witness.consumerRef.kind ≠ .task ∨ witness.consumerRef.id ≠ consumerTask then
      some (.waitingEvidence, {
        code := "witness_consumer_mismatch"
        subject := witness.witnessId
        message := [.text ("the witness was issued to " ++ witness.consumerRef.kind.text ++ " "),
          .repr witness.consumerRef.id, .text ", not to task ", .repr consumerTask,
          .text "; it is that consumer's permission, not this one's (§11.5)"] })
    else match get? context.plan.scopeEpochs witness.scopeId with
    | none => some (.validityRecheckPending, {
        code := "witness_epoch_unknown"
        subject := witness.scopeId
        message := [.text "this plan view cannot confirm the witness's scope epoch (I19)"] })
    | some currentEpoch =>
      if witness.isFreshFor context.nowMs currentEpoch = false then
        some (.validityRecheckPending, {
          code := freshnessCode witness currentEpoch context.nowMs
          subject := witness.witnessId
          message := [.text ("the witness was taken at scope epoch " ++
            toString witness.scopeEpoch ++ " (now " ++ toString currentEpoch ++ "), expires at " ++
            optionText witness.notAfterMs ++ " and is " ++ witness.freshness.text ++
            "; recompute rather than reuse the old TRUE")] })
      else if witness.decision = .unavailable ∨ witness.availability = .unavailable then
        some (.observerUnavailable, {
          code := "witness_unavailable"
          subject := witness.witnessId
          message := [.text ("the source could not be read; that is not the proposition being " ++
            "false")] })
      else if witness.truth ≠ .true then some (.waitingEvidence, {
        code := "witness_truth_" ++ witness.truth.text
        subject := witness.witnessId
        message := [.text "the admissible evidence does not support the precondition"] })
      else if witness.decision ≠ .usable then some (.waitingEvidence, {
        code := "witness_decision_" ++ witness.decision.text
        subject := witness.witnessId
        message := [.text "the witness is not usable for execution"] })
      else none

/-- An undeclared phase defaults to SELECT, and is checked again at ACCEPT. -/
def phaseCheckPoints : Option PreconditionPhase → List PreconditionPhase
  | none => [.select, .accept]
  | some phase => [phase]

def startPreconditions (binding : TaskSemanticBinding) : List String :=
  (binding.preconditionRefs.filter fun ref => .select ∈ phaseCheckPoints ref.phase).map
    (·.conditionDigest)

def evidencePrecedence : List ReadinessReason :=
  [.observerUnavailable, .validityRecheckPending, .waitingEvidence]

def evidenceGate : GateResult :=
  if context.evidence.observerAvailable = false then
    refused .observerUnavailable "observation_service_unavailable" context.view.occurrenceId
      [.text ("the observation service could not be reached; readiness is unknown, which is not " ++
        "the same as the task being blocked or failed (TG §8.2)")]
  else match context.view.binding with
  | none => none
  | some binding =>
    let found := (startPreconditions binding).filterMap fun digest =>
      context.witnessVerdict digest binding.taskId (get? context.evidence.witnesses digest)
    (evidencePrecedence.find? fun reason => found.any fun item => item.1 == reason).map fun reason =>
      (reason, (found.filter fun item => item.1 == reason).map Prod.snd)

/-- An approval that is pending, denied or expired is a state to wait on. -/
def approvalGate : GateResult :=
  if context.view.approval.decision = .notRequired then none
  else if context.view.approval.isEffective context.nowMs then none
  else refused .waitingApproval
    (if context.view.approval.decision = .granted then "approval_expired_grant"
      else "approval_" ++ context.view.approval.decision.text)
    context.view.occurrenceId [.text "the approval this work needs is not in hand right now"]

/-- A plan value that has moved past the one the binding was read at. -/
def movedPast (current : Option Nat) (read : Nat) (detail : Nat → ReadinessDetail) :
    List ReadinessDetail :=
  match current with
  | none => []
  | some now => if now ≠ read then [detail now] else []

def staleGate : GateResult :=
  match context.view.binding with
  | none => none
  | some binding =>
    let problems :=
      movedPast (get? context.plan.dispatchGenerations context.view.occurrenceId)
        binding.dispatchGeneration (fun now => {
          code := "dispatch_generation_moved"
          subject := context.view.occurrenceId
          message := [.text ("the binding was read at generation " ++
            toString binding.dispatchGeneration ++ "; the plan is at " ++ toString now)] }) ++
      movedPast (get? context.plan.inputBindingRevisions binding.taskId)
        binding.inputBindingRevision (fun now => {
          code := "input_binding_revision_moved"
          subject := binding.taskId
          message := [.text ("the binding was read at input revision " ++
            toString binding.inputBindingRevision ++ "; the plan is at " ++ toString now)] })
    if problems.isEmpty then none else some (.staleBinding, problems)

def operationGate : GateResult :=
  let problems := (context.evidence.pendingOperations.filter fun operation =>
    operation.effectOutcome.unsettled && context.view.occurrenceId ∈ operation.conflictsWith).map
      fun operation => {
        code := "operation_" ++ operation.effectOutcome.text
        subject := operation.operationId
        message := [.text ("an external effect that is not settled conflicts with this work; keep " ++
          "reconciling the original OperationId (TG §11.5)")] : ReadinessDetail }
  if problems.isEmpty then none else some (.waitingOperationUnknown, problems)

def gates : List GateResult :=
  [context.integrityGate, context.refinementGate, context.selectionGate, context.orderGate,
    context.dataGate, context.evidenceGate, context.approvalGate, context.staleGate,
    context.operationGate]

def firstRefusal : List GateResult → ReadinessReason × List ReadinessDetail
  | [] => (.readyCandidate, [])
  | none :: rest => firstRefusal rest
  | some refusal :: _ => refusal

def evaluateReadiness : ReadinessReport where
  reason := (firstRefusal context.gates).1
  occurrenceId := context.view.occurrenceId
  taskId := context.view.taskId
  missionId := context.plan.snapshot.missionId
  planRevision := context.plan.snapshot.planRevision
  details := (firstRefusal context.gates).2
  evaluatedAtMs := context.nowMs

end Context
end Network
