import HarnessSdk.Acceptance.Weakening

/-! The assured root decision: the acceptance formula over grades of another source. -/
namespace Acceptance
open PyDict PyText Checks Workflow Contracts
open Network (ValidityWitness)

/-- What the validity evaluator re-decided: grades and gate reasons by criterion, and what its
certificate says of this use. -/
structure AssuredAcceptance where
  effectiveGrades : Dict String String
  gateReasons : Dict String String
  licenceReasons : List AcceptReason := []

section
variable (criteria : List Criterion) (assured : AssuredAcceptance)

def assuredGrades : Dict String Grade :=
  ofEntries (criteria.map fun criterion =>
    let value := (get? assured.effectiveGrades criterion.criterionId.text).getD "UNKNOWN"
    (criterion.criterionId.text, (get? gradeMembers value).getD .unknown))

def assuredHardGate : GateResult :=
  let hard := hardCriteria criteria
  let value := fun (id : Identifier) => get? assured.effectiveGrades id.text
  { failedIds := hard.filter fun id => value id = some "FAIL"
    unknownIds := hard.filter fun id =>
      (value id).isSome && value id ≠ some "FAIL" && value id ≠ some "PASS"
    missingIds := hard.filter fun id => value id = none }

/-- `_assured_expression`; the witness names criteria of the catalogue. -/
def assuredExpression (criteria : List Criterion) (expression : SuccessExpression)
    (assured : AssuredAcceptance) : Except AssuranceError ExpressionResult := do
  let grades := assuredGrades criteria assured
  let formula ← Formula.fromJson (assuranceFormula expression) (criterionNames criteria)
  let (verdict, witness) ← formula.evaluate grades
  let ids := criteria.map (·.criterionId)
  .ok {
    verdict := verdict.verdict
    witnessPath := sortedBy Identifier.text (ids.filter (·.text ∈ witness))
    unevaluatedIds := sortedBy Identifier.text
      (ids.filter fun id => (get? assured.effectiveGrades id.text).isNone) }

/-- The required criteria of a catalogue that name checks, are graded, and of which something
holds. -/
def gradedSuch
    (such : String → String → Bool) : List Identifier :=
  (criteria.filter fun criterion =>
    (get? assured.effectiveGrades criterion.criterionId.text).any fun grade =>
      criterion.isRequired && criterion.gated && such criterion.criterionId.text grade).map
    (·.criterionId)

end

/-- `_assured_completeness`: the required checks are complete when their current gate decided the
grade. -/
def assuredCompleteness (subject : AcceptanceSubject) (assured : AssuredAcceptance) :
    CompletenessResult :=
  let package := subject.package
  let optional := criteriaOnlyUnderAny package.successExpression
  { criterionMatch := matchReviewCriteria subject.record package
    notExecutedIds := gradedSuch package.criteria assured fun name _ =>
      get? assured.gateReasons name = some "CHECK_EVIDENCE_INCOMPLETE"
    notPassedIds := gradedSuch package.criteria assured fun _ grade => grade ≠ "PASS"
    declinedIds := sortedBy Identifier.text (package.criterionCatalogue.filter fun id =>
      (get? assured.effectiveGrades id.text).isNone && id ∈ optional)
    independenceRequiredIds := independenceRequiredIds package }

/-- `acceptable_assured_root`: the same conjunction, written out again. -/
def acceptableAssuredRoot (contentHashOf : Json → HashHex) (subject : AcceptanceSubject)
    (purpose : ReviewPurpose) (assured : AssuredAcceptance) :
    Except AssuranceError AcceptDecision := do
  let revision := subject.revision
  let package := subject.package
  let record := subject.record
  let posture := subject.posture
  let violations := package.hardConstraintViolations
  let missingRoot := revision.requiredCriterionIds.filter (· ∉ package.criterionCatalogue)
  let gate := assuredHardGate revision.criteria assured
  let expression ← assuredExpression revision.criteria revision.successExpression assured
  let completeness := assuredCompleteness subject assured
  let independence := independenceReasons package record subject.independence
  .ok {
    reasons :=
      reasonIf (record.packageId ≠ package.packageId ∨ record.binding ≠ package.binding)
        .identityMismatch ++
      reasonIf (record.purpose ≠ package.purpose ∨ record.purpose ≠ purpose) .purposeMismatch ++
      reasonIf (package.binding.requirementsRevision ≠ revision.revision ∨
        package.binding.missionId ≠ revision.missionId) .requirementsRevisionMismatch ++
      (match package.requirementsContentHash with
        | some declared => reasonIf (declared ≠ revision.contentHash contentHashOf)
            .requirementsContentMismatch
        | none => reasonIf (successExpressionDigest contentHashOf package.successExpression ≠
            successExpressionDigest contentHashOf revision.successExpression)
            .successExpressionMismatch) ++
      reasonIf (violations ≠ []) .hardConstraintStructure ++
      reasonIf (missingRoot ≠ []) .rootCriterionMissing ++
      reasonIf (gate.failedIds ≠ []) .hardConstraintFailed ++
      reasonIf (gate.unknownIds ≠ [] ∨ gate.missingIds ≠ []) .hardConstraintUnknown ++
      reasonIf (expression.passed = false) .successExpressionNotPass ++
      reasonIf (completeness.criterionMatch.matched = false) .criteriaNotMatched ++
      reasonIf (completeness.complete = false) .requiredChecksIncomplete ++
      reasonIf (record.verdict ≠ .accept) .reviewVerdictNotAccept ++
      reasonIf ((subject.semanticReviewRequired = true ∨
        completeness.independenceRequiredIds ≠ []) ∧ independence ≠ []) .independentReviewMissing ++
      assured.licenceReasons ++
      reasonIf (posture.unownedCriticalOperationIds ≠ []) .criticalOperationUnowned ++
      reasonIf (posture.cancellationRequested = true) .cancellationPending ++
      reasonIf (posture.methodAdoptionCurrent = false) .methodAdoptionStale ++
      match subject.compound with
      | none => []
      | some compound =>
        reasonIf (compound.selectedMethodLegal = false) .compoundMethodIllegal ++
        reasonIf (compound.missingRequiredOccurrences ≠ []) .requiredOccurrenceMissing ++
        reasonIf (compound.compositionObligationPassed = false) .compositionObligationFailed
    expression
    gate
    completeness
    independence
    missingRootIds := missingRoot
    missingOccurrenceIds := match subject.compound with
      | none => []
      | some compound => compound.missingRequiredOccurrences
    hardConstraintStructureIds := violations }

def projectedTexts (record : ReviewRecord) : Dict String String :=
  record.criteria.map fun outcome =>
    (outcome.criterionId.text, (projectVerdict outcome).text)

structure WithinLimits (expression : SuccessExpression) : Prop where
  narrow : expression.Narrow
  nodes : expression.size ≤ maxFormulaNodes
  assurable : expression.Assurable

/-- The assured facts say of a record what its outcomes say, and of the licence what the witness
says. -/
structure Mirrors (assured : AssuredAcceptance) (subject : AcceptanceSubject) (nowMs : Nat)
    (witness : ValidityWitness) (currentScopeEpoch : Nat) : Prop where
  grades : ∀ name,
    get? assured.effectiveGrades name = get? (projectedTexts subject.record) name
  gates : ∀ name, get? assured.gateReasons name = some "CHECK_EVIDENCE_INCOMPLETE" ↔
    ∃ outcome ∈ subject.record.criteria, outcome.criterionId.text = name ∧
      outcome.checkExecution ≠ .succeeded
  licence : assured.licenceReasons = witnessReasons witness nowMs currentScopeEpoch
  receipts : ∀ criterion ∈ subject.package.criteria, needsReceipt criterion = true → ∀ outcome,
    get? subject.record.outcomes criterion.criterionId = some outcome →
      receiptSource outcome = .dispatcherAttributed
  limits : WithinLimits subject.revision.successExpression

section
variable {assured : AssuredAcceptance} {subject : AcceptanceSubject} {nowMs : Nat}
  {witness : ValidityWitness} {currentScopeEpoch : Nat}

section
variable (mirrors : Mirrors assured subject nowMs witness currentScopeEpoch)
include mirrors

theorem Mirrors.grade
    (id : Identifier) : get? assured.effectiveGrades id.text =
      (get? subject.record.outcomes id).map fun outcome => (projectVerdict outcome).text := by
  have names : (keys (projectedTexts subject.record)).Nodup := by
    have texts := subject.record.outcomesDistinct.map_on fun a _ b _ same =>
      Identifier.text_inj same
    simpa [keys, projectedTexts, Function.comp_def] using texts
  rw [mirrors.grades]
  cases found : get? subject.record.outcomes id with
  | some outcome =>
    obtain ⟨inside, rfl⟩ := get?_outcomes.mp found
    exact get?_eq_some_of_mem names (List.mem_map_of_mem inside)
  | none =>
    rw [Option.map_none, get?_eq_none_iff]
    intro named
    simp only [keys, projectedTexts, List.map_map, List.mem_map, Function.comp_apply] at named
    obtain ⟨outcome, inside, same⟩ := named
    have reported := get?_outcomes.mpr ⟨inside, Identifier.text_inj same⟩
    rw [found] at reported
    cases reported

theorem assuredHardGate_eq :
    assuredHardGate subject.revision.criteria assured =
      hardGate subject.revision subject.record.outcomes := by
  obtain ⟨failed, unknown⟩ := forall_and.mp (show ∀ id : Identifier,
      decide (get? assured.effectiveGrades id.text = some "FAIL") =
        decide ((get? subject.record.outcomes id).map projectVerdict = some .fail) ∧
      ((get? assured.effectiveGrades id.text).isSome &&
          get? assured.effectiveGrades id.text ≠ some "FAIL" &&
          get? assured.effectiveGrades id.text ≠ some "PASS") =
        decide ((get? subject.record.outcomes id).map projectVerdict = some .unknown) by
    intro id
    rw [mirrors.grade]
    cases get? subject.record.outcomes id with
    | none => exact ⟨rfl, rfl⟩
    | some outcome =>
      cases verdict : projectVerdict outcome <;> simp [verdict, CriterionVerdict.text])
  have missing : ∀ id : Identifier, decide (get? assured.effectiveGrades id.text = none) =
      decide ((get? subject.record.outcomes id).map projectVerdict = none) := by
    intro id
    simp [mirrors.grade]
  simp only [assuredHardGate, hardGate, failed, unknown, missing]

theorem gradedSuch_eq
    {such : String → String → Bool} {holds : CriterionOutcome → Bool}
    (agree : ∀ id outcome, get? subject.record.outcomes id = some outcome →
      such id.text (projectVerdict outcome).text = holds outcome) :
    gradedSuch subject.package.criteria assured such =
      reportedSuch subject.package.criteria subject.record.outcomes fun criterion outcome =>
        criterion.gated && holds outcome := by
  rw [gradedSuch, reportedSuch]
  congr 1
  apply List.filter_congr
  intro criterion _
  rw [mirrors.grade]
  cases found : get? subject.record.outcomes criterion.criterionId with
  | none => rfl
  | some outcome =>
    simp only [Option.map_some, Option.any_some, agree _ _ found, Bool.and_assoc]

theorem assuredCompleteness_eq :
    assuredCompleteness subject assured =
      requiredChecksComplete subject.package subject.record := by
  have executed : ∀ id outcome, get? subject.record.outcomes id = some outcome →
      decide (get? assured.gateReasons id.text = some "CHECK_EVIDENCE_INCOMPLETE") =
        decide (outcome.checkExecution ≠ .succeeded) := by
    intro id outcome found
    rw [decide_eq_decide, mirrors.gates]
    constructor
    · rintro ⟨other, inside, same, short⟩
      have reported := get?_outcomes.mpr ⟨inside, Identifier.text_inj same⟩
      obtain rfl := Option.some.inj (found.symm.trans reported)
      exact short
    · intro short
      obtain ⟨inside, rfl⟩ := get?_outcomes.mp found
      exact ⟨outcome, inside, rfl, short⟩
  have passed : ∀ id outcome, get? subject.record.outcomes id = some outcome →
      decide ((projectVerdict outcome).text ≠ "PASS") =
        decide (projectVerdict outcome ≠ .pass) := by
    intro id outcome _
    cases projectVerdict outcome <;> rfl
  have sourced : ∀ source ≠ ReceiptSource.dispatcherAttributed,
      reportedSuch subject.package.criteria subject.record.outcomes (fun criterion outcome =>
        needsReceipt criterion && receiptSource outcome = source) = [] := by
    intro source other
    rw [reportedSuch_eq_nil]
    intro own inside _ outcome found
    by_cases needs : needsReceipt own = true
    · simp [mirrors.receipts own inside needs outcome found, Ne.symm other]
    · simp [needs]
  have declined : ∀ id : Identifier, (get? assured.effectiveGrades id.text).isNone =
      (get? subject.record.outcomes id).isNone := by
    intro id
    rw [mirrors.grade, Option.isNone_map]
  have notExecuted : gradedSuch subject.package.criteria assured (fun name _ =>
      get? assured.gateReasons name = some "CHECK_EVIDENCE_INCOMPLETE") = _ :=
    gradedSuch_eq mirrors executed
  have notPassed : gradedSuch subject.package.criteria assured
      (fun _ grade => grade ≠ "PASS") = _ := gradedSuch_eq mirrors passed
  rw [assuredCompleteness, requiredChecksComplete, notExecuted, notPassed]
  simp only [declined, sourced .notAReceipt (by simp), sourced .provenanceUnknown (by simp)]

theorem assuredExpression_ok :
    ∃ result, assuredExpression subject.revision.criteria subject.revision.successExpression
      assured = .ok result ∧
      result.verdict = (evaluateSuccessExpression subject.revision.successExpression
        subject.record.outcomes).verdict := by
  have inside := known_of_unknown_nil subject.revision.expressionKnown
  have known : ∀ id ∈ subject.revision.successExpression.criterionIds,
      id.text ∈ criterionNames subject.revision.criteria := by
    intro id leaf
    obtain ⟨criterion, listed, rfl⟩ := List.mem_map.mp (inside id leaf)
    exact List.mem_map.mpr ⟨criterion, listed, rfl⟩
  have given : GradesOf (assuredGrades subject.revision.criteria assured) subject.record.outcomes
      subject.revision.successExpression.criterionIds := by
    intro id leaf
    let grade := fun id : Identifier => (get? gradeMembers
      ((get? assured.effectiveGrades id.text).getD "UNKNOWN")).getD .unknown
    refine ⟨grade id, @get?_graded _ grade subject.revision.criteriaDistinct id (inside id leaf), ?_⟩
    simp only [grade, mirrors.grade]
    cases get? subject.record.outcomes id with
    | none => rfl
    | some outcome => cases verdict : projectVerdict outcome <;> simp [verdict] <;> rfl
  obtain ⟨decoded, _⟩ := fromJson_formula subject.revision.formed mirrors.limits.narrow known
    mirrors.limits.nodes
  obtain ⟨graded, evaluated, same⟩ := evaluate_same _ subject.revision.formed given
  have run : ∃ path missed, assuredExpression subject.revision.criteria
      subject.revision.successExpression assured = .ok ⟨graded.1.verdict, path, missed⟩ := by
    rw [assuredExpression, decoded mirrors.limits.assurable]
    simp only [bind, Except.bind, evaluated]
    exact ⟨_, _, rfl⟩
  obtain ⟨path, missed, run⟩ := run
  exact ⟨_, run, same.verdict⟩

end

/-- The assured root decision is the acceptance formula: the same reasons, gate and missing ids. -/
theorem assured_root_agrees (contentHashOf : Json → HashHex) (purpose : ReviewPurpose)
    (mirrors : Mirrors assured subject nowMs witness currentScopeEpoch) :
    ∃ decision, acceptableAssuredRoot contentHashOf subject purpose assured = .ok decision ∧
      let original := acceptable contentHashOf subject nowMs purpose witness currentScopeEpoch
      decision.reasons = original.reasons ∧ decision.gate = original.gate ∧
      decision.missingRootIds = original.missingRootIds ∧
      decision.missingOccurrenceIds = original.missingOccurrenceIds := by
  obtain ⟨result, evaluated, verdict⟩ := assuredExpression_ok mirrors
  have passed : result.passed = (evaluateSuccessExpression subject.revision.successExpression
      subject.record.outcomes).passed := by
    rw [ExpressionResult.passed, ExpressionResult.passed, verdict]
  rw [acceptableAssuredRoot]
  simp only [evaluated, bind, Except.bind]
  refine ⟨_, rfl, ?_, assuredHardGate_eq mirrors, rfl, ?_⟩
  · simp only [acceptable, identityReasons, reviewReasons, executionReasons, missingRootIds,
      assuredHardGate_eq mirrors, assuredCompleteness_eq mirrors, passed, mirrors.licence,
      List.append_assoc]
    rfl
  · cases here : subject.compound <;> simp [acceptable, missingOccurrenceIds, here]

end

def failedNumbersAssured : AssuredAcceptance :=
  { effectiveGrades := [("report", "PASS"), ("numbers", "FAIL")], gateReasons := [] }

/-- The review of a goal that is being cancelled and lacks one of its two drafts. -/
def cancelledDrafts : AcceptanceSubject := {
  failedNumbers with
  posture := { cancellationRequested := true }
  compound := some {
    selectedMethodLegal := true
    childBindings := ["first", "second"].map fun id => {
      instanceId := "mi"
      slotKey := id
      occurrenceId := id
      obligationId := id }
    contributingOccurrenceIds := ["first"] } }

theorem assured_root_agrees_at_cancelled : ∃ decision,
    acceptableAssuredRoot (fun _ => emptyDigest) cancelledDrafts .taskContent failedNumbersAssured =
      .ok decision ∧ decision.reasons = [.cancellationPending, .requiredOccurrenceMissing] ∧
      decision.missingOccurrenceIds = ["second"] := by
  have projected : projectedTexts cancelledDrafts.record =
      [("report", "PASS"), ("numbers", "FAIL")] := by
    decide
  have mirrors : Mirrors failedNumbersAssured cancelledDrafts 0 readyWitness 0 := by
    refine ⟨fun name => ?_, fun name => ?_, rfl, ?_, ⟨trivial, by decide, ⟨by decide, ?_⟩⟩⟩
    · rw [projected]
      rfl
    · constructor
      · nofun
      · rintro ⟨outcome, inside, _, short⟩
        obtain ⟨id, _, rfl⟩ := List.mem_map.mp inside
        exact absurd rfl short
    · intro criterion _ _ outcome found
      obtain ⟨id, _, rfl⟩ := List.mem_map.mp (get?_outcomes.mp found).1
      rfl
    · decide +kernel
  obtain ⟨decision, decided, reasons, _, _, missing⟩ :=
    assured_root_agrees (fun _ => emptyDigest) .taskContent mirrors
  refine ⟨decision, decided, reasons.trans ?_, missing.trans ?_⟩
  · decide +kernel
  · decide +kernel

end Acceptance
