import HarnessSdk.Network.ReadSets

/-! The admission of a ready primitive: a report is compared with the plan view it is admitted
against, and the identity of the dispatch is read off the task view passed along. -/
namespace Network
open PyDict PyText Checks

inductive AdmissionError
  | notEligible (reason : Message)
  | manifestNotFrozen (reason : Message)

structure EligiblePrimitiveTask where
  missionId : String
  planRevision : Nat
  occurrenceId : OccurrenceId
  taskId : TaskRef
  obligationId : ObligationId
  contractRevision : Nat
  contractHash : String
  dispatchGeneration : Nat
  inputBindingRevision : Nat
  inputManifestHash : String
  methodInstanceId : Option MethodInstanceId
  requirementRefs : List String
  acceptanceIds : List String
  readSet : SemanticReadSet
  admittedAtMs : Nat
deriving DecidableEq

def originMismatches (report : RecordedReport) (plan : ActivePlanView) : List String :=
  let revisions := [
    ("requirements_revision", report.readSet.requirementsRevision, plan.requirementsRevision),
    ("manager_epoch", report.readSet.managerEpoch, plan.managerEpoch),
    ("budget_grant_revision", report.readSet.budgetGrantRevision, plan.budgetGrantRevision)]
  (if report.missionId ≠ plan.snapshot.missionId then
    ["mission " ++ report.missionId ++ " vs " ++ plan.snapshot.missionId] else []) ++
  (if report.planRevision ≠ plan.snapshot.planRevision then
    ["plan revision " ++ toString report.planRevision ++ " vs " ++
      toString plan.snapshot.planRevision] else []) ++
  ((revisions.filter fun entry => entry.2.1 ≠ entry.2.2).map fun entry =>
    entry.1 ++ " " ++ toString entry.2.1 ++ " vs " ++ toString entry.2.2) ++
  ((report.readSet.scopeEpochs.filter fun scope =>
    get? plan.scopeEpochs scope.scopeId ≠ some scope.validityEpoch).map fun scope =>
    "scope " ++ scope.scopeId ++ " epoch " ++ toString scope.validityEpoch ++ " vs " ++
      Context.optionText (get? plan.scopeEpochs scope.scopeId))

/-- Refuse a report and a plan view that did not come from the same read. -/
def sameOrigin (report : RecordedReport) (plan : ActivePlanView) : Except AdmissionError Unit :=
  require (originMismatches report plan = [])
    (.notEligible [.text ("the readiness report and the plan view are not from the same read: " ++
      join "; " (originMismatches report plan))])

def primitiveBinding (view : TaskView) : Except AdmissionError TaskSemanticBinding :=
  match view.binding with
  | some binding =>
    if binding.form = .primitive then .ok binding
    else .error (.notEligible
      [.text "only a primitive task with a semantic binding may be dispatched"])
  | none => .error (.notEligible
      [.text "only a primitive task with a semantic binding may be dispatched"])

/-- The only way to build an `EligiblePrimitiveTask`. -/
def admitForDispatch (digests : Digests) (report : RecordedReport) (view : TaskView)
    (plan : ActivePlanView) (manifest : InputManifest) (nowMs : Nat) :
    Except AdmissionError EligiblePrimitiveTask := do
  require (report.reason = .readyCandidate)
    (.notEligible [.text ("readiness is " ++ report.reason.text ++
      "; only READY_CANDIDATE may be admitted")])
  require (report.occurrenceId = view.occurrenceId ∧ report.taskId = view.taskId)
    (.notEligible [.text ("the report judged " ++ report.occurrenceId ++ ", not " ++
      view.occurrenceId)])
  sameOrigin report plan
  let binding ← primitiveBinding view
  require (manifest.consumerTaskRef = view.taskId)
    (.notEligible [.text ("the manifest belongs to " ++ manifest.consumerTaskRef ++ ", not " ++
      view.taskId)])
  let manifestHash ← (manifest.manifestHash digests).mapError .manifestNotFrozen
  require (some manifestHash = report.inputManifestHash)
    (.notEligible [.text ("this is not the manifest readiness checked: admission takes the " ++
      "verdict's own input, not a second resolution or an empty stand-in (NEXT-TG-1.0 §5.2)")])
  .ok {
    missionId := plan.snapshot.missionId
    planRevision := plan.snapshot.planRevision
    occurrenceId := view.occurrenceId
    taskId := view.taskId
    obligationId := binding.obligationId
    contractRevision := binding.contractRevision
    contractHash := binding.contractHash
    dispatchGeneration := binding.dispatchGeneration
    inputBindingRevision := binding.inputBindingRevision
    inputManifestHash := manifestHash
    methodInstanceId := (currentMethodOwners plan binding).head?.map (·.instanceId)
    requirementRefs := binding.requirementRefs
    acceptanceIds := (acceptanceReads (some manifest)).map (·.id)
    readSet := report.readSet
    admittedAtMs := nowMs }

/-- The revision and hash a read-set records for a task or one of its channels. -/
def SemanticReadSet.goal? (readSet : SemanticReadSet) (id : String) : Option ReadItem :=
  readSet.goalRevisions.find? (·.id = id)

structure EligiblePrimitiveTask.Quotes (admitted : EligiblePrimitiveTask)
    (readSet : SemanticReadSet) : Prop where
  contract : (readSet.goal? admitted.taskId).map (fun item =>
    (item.semanticRevision, item.contentHash)) =
      some (admitted.contractRevision, admitted.contractHash)
  generation : (readSet.goal? (channelId admitted.taskId dispatchGenerationChannel)).map
    (·.semanticRevision) = some admitted.dispatchGeneration
  inputs : (readSet.goal? (channelId admitted.taskId inputBindingRevisionChannel)).map
    (·.semanticRevision) = some admitted.inputBindingRevision

structure TaskSemanticBinding.SameControl (judged admitted : TaskSemanticBinding) : Prop where
  revision : admitted.contractRevision = judged.contractRevision
  hash : admitted.contractHash = judged.contractHash
  generation : admitted.dispatchGeneration = judged.dispatchGeneration
  inputs : admitted.inputBindingRevision = judged.inputBindingRevision

/-- The binding passed to an admission is, in its control values, the one readiness judged. -/
def TaskView.SameControl (judged admitted : TaskView) : Prop :=
  ∃ binding binding', judged.binding = some binding ∧ admitted.binding = some binding' ∧
    binding.SameControl binding'

structure Admits (digests : Digests) (report : RecordedReport) (view : TaskView)
    (binding : TaskSemanticBinding) (admitted : EligiblePrimitiveTask) : Prop where
  ready : report.reason = .readyCandidate
  task : report.taskId = view.taskId
  bound : view.binding = some binding
  taskId : admitted.taskId = view.taskId
  revision : admitted.contractRevision = binding.contractRevision
  hash : admitted.contractHash = binding.contractHash
  generation : admitted.dispatchGeneration = binding.dispatchGeneration
  inputs : admitted.inputBindingRevision = binding.inputBindingRevision

theorem primitiveBinding_eq_ok {view : TaskView} {binding : TaskSemanticBinding}
    (found : primitiveBinding view = .ok binding) : view.binding = some binding := by
  unfold primitiveBinding at found
  split at found
  · next other bound =>
    split at found
    · cases found
      exact bound
    · cases found
  · cases found

theorem admitForDispatch_admits {digests : Digests} {report : RecordedReport} {view : TaskView}
    {plan : ActivePlanView} {manifest : InputManifest} {nowMs : Nat}
    {admitted : EligiblePrimitiveTask}
    (ok : admitForDispatch digests report view plan manifest nowMs = .ok admitted) :
    ∃ binding, Admits digests report view binding admitted := by
  unfold admitForDispatch at ok
  rw [then_eq_ok, then_eq_ok, then_eq_ok, bind_eq_ok, require_eq_ok, require_eq_ok] at ok
  obtain ⟨ready, ⟨_, task⟩, _, binding, found, ok⟩ := ok
  rw [then_eq_ok, bind_eq_ok] at ok
  obtain ⟨_, hash, _, ok⟩ := ok
  rw [then_eq_ok] at ok
  obtain ⟨_, ok⟩ := ok
  cases ok
  exact ⟨binding, ready, task, primitiveBinding_eq_ok found, rfl, rfl, rfl, rfl, rfl⟩

theorem channelId_ne (task : TaskRef) (channel : String) : task ≠ channelId task channel := by
  intro same
  have lengths := congrArg String.length same
  have hash : "#".length = 1 := rfl
  simp only [channelId, String.length_append, hash] at lengths
  omega

theorem channelId_inj {task : TaskRef} {channel channel' : String}
    (same : channelId task channel = channelId task channel') : channel = channel' := by
  have texts := congrArg String.toList same
  simp only [channelId, String.toList_append, List.append_assoc, List.append_cancel_left_eq] at texts
  exact String.toList_inj.mp texts

section Records
variable {digests : Digests} {context : Context} {binding : TaskSemanticBinding}
  (bound : context.view.binding = some binding)
include bound

theorem goalRevisions_eq : (context.recordedReport digests).readSet.goalRevisions =
    goalReads digests context.view context.plan binding := by
  simp [Context.recordedReport, buildReadSet, bound]

theorem goal?_contract :
    (context.recordedReport digests).readSet.goal? binding.taskId =
      some ⟨.task, binding.taskId, binding.contractRevision, binding.contractHash⟩ := by
  rw [SemanticReadSet.goal?, goalRevisions_eq bound]
  simp [goalReads]

theorem goal?_generation (current : context.staleGate = none) :
    ((context.recordedReport digests).readSet.goal?
      (channelId binding.taskId dispatchGenerationChannel)).map (·.semanticRevision) =
        some binding.dispatchGeneration := by
  have value := ((Context.staleGate_eq_none bound).mp current).1
  rw [SemanticReadSet.goal?, goalRevisions_eq bound]
  simp [goalReads, taskControlReads, channelId_ne, value]

theorem goal?_inputs (current : context.staleGate = none) :
    ((context.recordedReport digests).readSet.goal?
      (channelId binding.taskId inputBindingRevisionChannel)).map (·.semanticRevision) =
        some binding.inputBindingRevision := by
  have value := ((Context.staleGate_eq_none bound).mp current).2
  have apart : channelId binding.taskId dispatchGenerationChannel ≠
      channelId binding.taskId inputBindingRevisionChannel := fun same =>
    absurd (channelId_inj same) (by decide)
  rw [SemanticReadSet.goal?, goalRevisions_eq bound]
  simp [goalReads, taskControlReads, channelId_ne, apart, value]

end Records

/-- An admission quotes the read-set of the verdict exactly when the binding it is given is, in its
control values, the one the verdict was computed for. -/
theorem admission_quotes_verdict_iff (digests : Digests) (context : Context) (view : TaskView)
    (plan : ActivePlanView) (manifest : InputManifest) (nowMs : Nat)
    (admitted : EligiblePrimitiveTask)
    (ready : (context.recordedReport digests).reason = .readyCandidate)
    (admits : admitForDispatch digests (context.recordedReport digests) view plan manifest nowMs =
      .ok admitted) :
    admitted.Quotes (context.recordedReport digests).readSet ↔ context.view.SameControl view := by
  obtain ⟨intact, _, _, _, _, _, _, current, _⟩ := Context.ready_iff.mp ready
  obtain ⟨_, _, binding, _, bound, names, _⟩ := Context.integrityGate_eq_none.mp intact
  obtain ⟨binding', given⟩ := admitForDispatch_admits admits
  have task : admitted.taskId = binding.taskId := by
    rw [given.taskId, ← given.task, names]
    rfl
  have contract := @goal?_contract digests context binding bound
  have generation := @goal?_generation digests context binding bound current
  have inputs := @goal?_inputs digests context binding bound current
  constructor
  · intro quotes
    have pair := quotes.contract
    have moved := quotes.generation
    have revised := quotes.inputs
    rw [task] at pair moved revised
    rw [contract, Option.map_some, Option.some.injEq, Prod.mk.injEq, given.revision,
      given.hash] at pair
    rw [generation, Option.some.injEq, given.generation] at moved
    rw [inputs, Option.some.injEq, given.inputs] at revised
    exact ⟨binding, binding', bound, given.bound,
      ⟨pair.1.symm, pair.2.symm, moved.symm, revised.symm⟩⟩
  · rintro ⟨judged, passed, bound', given', same⟩
    rw [bound] at bound'
    rw [given.bound] at given'
    cases bound'
    cases given'
    constructor
    · rw [task, contract, given.revision, given.hash, same.revision, same.hash]
      rfl
    · rw [task, generation, given.generation, same.generation]
    · rw [task, inputs, given.inputs, same.inputs]

def plainDigests : Digests where
  of
    | .channel task name value => "channel " ++ channelId task name ++ " " ++ toString value
    | .witness witness => "witness " ++ witness.witnessId ++ " " ++ toString witness.supportRevision
    | .account none => "account absent"
    | .account (some record) =>
      "account " ++ record.lifecycle.text ++ " " ++ toString record.hasAdmittedDemand
    | .approval approval => "approval " ++ approval.decision.text
    | .manifest consumer bindings => "manifest " ++ consumer ++ " " ++ toString bindings.length
  ofDraft draft := "draft " ++ draft.instanceId

def approveContract (revision : Nat) (hash : String) : TaskSemanticBinding where
  taskId := "approve"
  obligationId := "ship"
  contractRevision := revision
  contractHash := hash
  form := .primitive
  goalSignature := { signatureId := "approve" }

def approveManifest : InputManifest where
  consumerTaskRef := "approve"

/-- The approval as it is judged ready, under the third revision of its contract. -/
def approveJudged : Context where
  view := {
    occurrenceId := "approve"
    taskId := "approve"
    binding := some (approveContract 3 emptyHash) }
  plan := {
    snapshot := TaskNetworkSnapshot.approvedBuild
    scopeEpochs := [("mission", 0)]
    obligationAccounts := [("ship", ⟨.unsatisfied, true⟩)] }
  resolutions := []
  inputResult := some ⟨some approveManifest, []⟩

/-- The task view after its contract was revised: a new revision, hash and generation. -/
def approveRevised : TaskView where
  occurrenceId := "approve"
  taskId := "approve"
  binding := some {
    approveContract 4 "a1fce4363854ff888cff4b8e7875d600c2682390412a8cf79b37d0b11148b0fa" with
    dispatchGeneration := 1 }

theorem admission_quotes_verdict_at_approve :
    ∃ admitted, admitForDispatch plainDigests (approveJudged.recordedReport plainDigests)
      approveJudged.view approveJudged.plan approveManifest 5 = .ok admitted ∧
      (admitted.Quotes (approveJudged.recordedReport plainDigests).readSet ↔
        approveJudged.view.SameControl approveJudged.view) := by
  refine ⟨_, rfl, ?_⟩
  exact admission_quotes_verdict_iff plainDigests approveJudged approveJudged.view
    approveJudged.plan approveManifest 5 _ (by decide +kernel) rfl

/-- A report of the third revision admits a dispatch under the fourth. -/
theorem admission_misses_contract :
    ¬ ∀ (context : Context) (view : TaskView) (plan : ActivePlanView) (manifest : InputManifest)
      (nowMs : Nat) (admitted : EligiblePrimitiveTask),
      (context.recordedReport plainDigests).reason = .readyCandidate →
      admitForDispatch plainDigests (context.recordedReport plainDigests) view plan manifest nowMs =
        .ok admitted →
      admitted.Quotes (context.recordedReport plainDigests).readSet := by
  intro holds
  have quotes := holds approveJudged approveRevised approveJudged.plan approveManifest 5 _
    (by decide +kernel) rfl
  have contract := quotes.contract
  revert contract
  decide +kernel

end Network
