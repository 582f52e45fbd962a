import HarnessSdk.Network.Reuse

/-! What `READY_CANDIDATE` says: the nine gates together, as one condition on what was read. -/
namespace Network.Context
open PyDict
variable {context : Context} {binding : TaskSemanticBinding}

structure Permits (context : Context) (task : TaskRef) (witness : ValidityWitness) : Prop where
  purpose : witness.purpose = .start
  consumer : witness.consumerRef.kind = .task ∧ witness.consumerRef.id = task
  epoch : get? context.plan.scopeEpochs witness.scopeId = some witness.scopeEpoch
  deadline : ∀ deadline ∈ witness.notAfterMs, context.nowMs < deadline
  decision : witness.decision = .usable

structure Releases (context : Context) (constraint : OrderConstraint)
    (outcome : OccurrenceOutcome) : Prop where
  observed : get? context.resolutions constraint.before = some outcome
  released : orderReleased outcome constraint.releaseCondition = true
  settled : constraint.releaseCondition = .settledTerminal → ∀ facts ∈ context.settlements,
    context.settles constraint outcome facts = true

structure Startable (context : Context) (spec : OccurrenceSpec) (binding : TaskSemanticBinding) :
    Prop where
  intact : context.plan.integrityError = none
  found : context.plan.snapshot.occurrence? context.view.occurrenceId = some spec
  bound : context.view.binding = some binding
  task : binding.taskId = context.view.taskId ∧ spec.taskId = context.view.taskId
  leaf : spec.form = binding.form ∧ binding.form ≠ .compound
  mission : context.plan.missionAdmitsWork = true
  adopted : context.view.occurrenceId ∈ context.plan.snapshot.reachableOccurrences
  duty : get? context.plan.obligationAccounts binding.obligationId = some ⟨.unsatisfied, true⟩
  wanted : context.view.dispatchCandidacy = .allowsDispatch
  order : ∀ constraint ∈ context.plan.snapshot.orderConstraints,
    constraint.after = context.view.occurrenceId → ∃ outcome, context.Releases constraint outcome
  inputs : ∃ manifest, context.inputResult = some ⟨some manifest, []⟩ ∧
    manifest.isFrozen = true ∧ manifest.requiredPortsSatisfied binding = true
  observer : context.evidence.observerAvailable = true
  witnesses : ∀ digest ∈ startPreconditions binding, ∃ witness,
    get? context.evidence.witnesses digest = some witness ∧
      context.Permits binding.taskId witness
  approval : context.view.approval.decision = .notRequired ∨
    context.view.approval.decision = .granted ∧
      ∀ expiry ∈ context.view.approval.expiresAtMs, context.nowMs < expiry
  current : (∀ now ∈ get? context.plan.dispatchGenerations context.view.occurrenceId,
      now = binding.dispatchGeneration) ∧
    ∀ now ∈ get? context.plan.inputBindingRevisions binding.taskId,
      now = binding.inputBindingRevision
  settled : ∀ operation ∈ context.evidence.pendingOperations,
    context.view.occurrenceId ∈ operation.conflictsWith → operation.effectOutcome.unsettled = false

theorem isFreshFor_iff {witness : ValidityWitness} (usable : witness.decision = .usable)
    {nowMs epoch : Nat} :
    witness.isFreshFor nowMs epoch = true ↔
      witness.scopeEpoch = epoch ∧ ∀ deadline ∈ witness.notAfterMs, nowMs < deadline := by
  simp [ValidityWitness.isFreshFor, (witness.usable usable).2.1, Option.all_eq_true]

theorem refusal_eq_none {α : Type} {p : Prop} [Decidable p] {refusal : α} {others : Option α} :
    (if p then some refusal else others) = none ↔ ¬ p ∧ others = none := by
  split <;> simp [*]

theorem witnessVerdict_eq_none {digest : String} {task : TaskRef}
    {found : Option ValidityWitness} :
    context.witnessVerdict digest task found = none ↔
      ∃ witness, found = some witness ∧ context.Permits task witness := by
  cases found with
  | none => simp [witnessVerdict]
  | some witness =>
    simp only [Option.some.injEq, exists_eq_left']
    constructor
    · intro passed
      obtain ⟨epoch, known⟩ := epoch_of_witnessVerdict passed
      simp only [witnessVerdict, known, refusal_eq_none, ne_eq, not_not, not_or,
        Bool.not_eq_false, and_true] at passed
      obtain ⟨purpose, ⟨kind, id⟩, fresh, _, _, usable⟩ := passed
      obtain ⟨rfl, deadline⟩ := (isFreshFor_iff usable).mp fresh
      exact ⟨purpose, ⟨kind, id⟩, known, deadline, usable⟩
    · intro permits
      obtain ⟨holds, _, readable⟩ := witness.usable permits.decision
      have fresh := (isFreshFor_iff permits.decision).mpr ⟨rfl, permits.deadline⟩
      simp [witnessVerdict, permits.purpose, permits.consumer, permits.epoch, fresh,
        permits.decision, holds, readable]

theorem getD_eq_self {current : Option Nat} {read : Nat} :
    current.getD read = read ↔ ∀ now ∈ current, now = read := by
  cases current <;> simp

theorem approvalGate_eq_none :
    context.approvalGate = none ↔ context.view.approval.decision = .notRequired ∨
      context.view.approval.decision = .granted ∧
        ∀ expiry ∈ context.view.approval.expiresAtMs, context.nowMs < expiry := by
  unfold approvalGate refused ApprovalState.isEffective
  by_cases waived : context.view.approval.decision = .notRequired
  · simp [waived]
  · simp [waived, Option.all_eq_true]

theorem operationGate_eq_none :
    context.operationGate = none ↔ ∀ operation ∈ context.evidence.pendingOperations,
      context.view.occurrenceId ∈ operation.conflictsWith →
        operation.effectOutcome.unsettled = false := by
  simp only [operationGate, List.isEmpty_iff, List.map_eq_nil_iff, List.filter_eq_nil_iff,
    ite_eq_left_iff, reduceCtorEq, imp_false, not_not, Bool.and_eq_true, decide_eq_true_eq,
    not_and]
  exact forall₂_congr fun operation _ => imp_not_comm.trans (by simp)

theorem orderProblem_released (constraint : OrderConstraint) :
    context.orderProblem constraint = none ↔ ∃ outcome, context.Releases constraint outcome := by
  rw [orderProblem_eq_none]
  refine exists_congr fun outcome => ⟨?_, ?_⟩
  · rintro ⟨observed, settled, released⟩
    refine ⟨observed, released, ?_⟩
    intro terminal facts given
    by_contra unsettled
    exact settled ⟨terminal,
      (Option.any_eq_true _ _).mpr ⟨facts, given, by simpa using unsettled⟩⟩
  · rintro ⟨observed, released, settled⟩
    refine ⟨observed, ?_, released⟩
    rintro ⟨terminal, unsettled⟩
    obtain ⟨facts, given, pending⟩ := (Option.any_eq_true _ _).mp unsettled
    simp [settled terminal facts given] at pending

end Network.Context
