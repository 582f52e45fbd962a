import HarnessSdk.Acceptance.Evaluators
import HarnessSdk.Acceptance.Rules

/-! What an acceptance says about the requirements revision itself. -/
namespace Acceptance
open PyDict PyText Checks Workflow Contracts
open Network (ValidityWitness)

mutual
def SuccessExpression.passesOn (passed : Identifier → Bool) : SuccessExpression → Bool
  | .criterion id => passed id
  | .all children => allPassOn passed children
  | .any children => somePassOn passed children

def allPassOn (passed : Identifier → Bool) : List SuccessExpression → Bool
  | [] => true
  | child :: rest => child.passesOn passed && allPassOn passed rest

def somePassOn (passed : Identifier → Bool) : List SuccessExpression → Bool
  | [] => false
  | child :: rest => child.passesOn passed || somePassOn passed rest
end

def Passed (outcomes : Outcomes) (id : Identifier) : Prop :=
  ∃ outcome, get? outcomes id = some outcome ∧ outcome.checkExecution = .succeeded ∧
    outcome.verdict = .pass

variable {outcome : CriterionOutcome} {branches : List Branch} {passed : Identifier → Bool}
  {children : List SuccessExpression} {outcomes : Outcomes} {subject : AcceptanceSubject}

theorem projectVerdict_eq_pass :
    projectVerdict outcome = .pass ↔
      outcome.checkExecution = .succeeded ∧ outcome.verdict = .pass := by
  unfold projectVerdict
  split <;> simp [*]

theorem anyBranch_pass :
    (anyBranch branches).1 = .pass ↔ ∃ branch ∈ branches, branch.1 = .pass := by
  unfold anyBranch
  cases found : branches.find? (·.1 = .pass) with
  | some branch =>
    simp only [true_iff]
    exact ⟨branch, List.mem_of_find?_eq_some found, by simpa using List.find?_some found⟩
  | none =>
    have missed := List.find?_eq_none.mp found
    simp only [decide_eq_true_eq] at missed
    constructor
    · intro pass
      by_cases fails : ∀ branch ∈ branches, branch.1 = .fail
      · simp [if_pos fails] at pass
      · simp [if_neg fails] at pass
    · rintro ⟨branch, inside, pass⟩
      exact absurd pass (missed branch inside)

theorem allBranch_pass :
    (allBranch branches).1 = .pass ↔ ∀ branch ∈ branches, branch.1 = .pass := by
  unfold allBranch
  cases found : branches.find? (·.1 = .fail) with
  | some branch =>
    have fail : branch.1 = .fail := by simpa using List.find?_some found
    constructor
    · nofun
    · intro passes
      have pass := passes branch (List.mem_of_find?_eq_some found)
      rw [fail] at pass
      cases pass
  | none =>
    by_cases passes : ∀ branch ∈ branches, branch.1 = .pass
    · simp only [if_pos passes, true_iff]
      exact passes
    · simp only [if_neg passes]
      exact ⟨nofun, fun all => absurd all passes⟩

theorem allPassOn_iff :
    allPassOn passed children = true ↔ ∀ child ∈ children, child.passesOn passed = true := by
  induction children with
  | nil => simp [allPassOn]
  | cons child rest ih => rw [allPassOn, Bool.and_eq_true, ih, List.forall_mem_cons]

theorem somePassOn_iff :
    somePassOn passed children = true ↔ ∃ child ∈ children, child.passesOn passed = true := by
  induction children with
  | nil => simp [somePassOn]
  | cons child rest ih => rw [somePassOn, Bool.or_eq_true, ih, List.exists_mem_cons_iff]

theorem walk_pass (agree : ∀ id, passed id = true ↔ Passed outcomes id)
    (expression : SuccessExpression) :
    (walk outcomes expression).1 = .pass ↔ expression.passesOn passed = true := by
  induction expression using SuccessExpression.byChildren with
  | criterion id =>
    rw [SuccessExpression.passesOn, agree, Passed, walk]
    cases get? outcomes id with
    | none => simp
    | some outcome => simp [projectVerdict_eq_pass]
  | all children ih =>
    rw [walk, allBranch_pass, SuccessExpression.passesOn, allPassOn_iff, walkAll_eq_map,
      List.forall_mem_map]
    exact forall₂_congr ih
  | any children ih =>
    rw [walk, anyBranch_pass, SuccessExpression.passesOn, somePassOn_iff, walkAll_eq_map]
    simpa using exists_congr fun child => and_congr_right (ih child)

variable (expression : SuccessExpression)

theorem passesOn_mono {passed' : Identifier → Bool}
    (more : ∀ id ∈ expression.criterionIds, passed id = true → passed' id = true)
    (passes : expression.passesOn passed = true) : expression.passesOn passed' = true := by
  induction expression using SuccessExpression.byChildren with
  | criterion id => exact more id List.mem_cons_self passes
  | all children ih =>
    rw [criterionIds_all] at more
    rw [SuccessExpression.passesOn, allPassOn_iff] at passes ⊢
    exact fun child inside => ih child inside
      (fun id listed => more id (List.mem_flatMap_of_mem inside listed)) (passes child inside)
  | any children ih =>
    rw [criterionIds_any] at more
    rw [SuccessExpression.passesOn, somePassOn_iff] at passes ⊢
    obtain ⟨child, inside, pass⟩ := passes
    exact ⟨child, inside, ih child inside
      (fun id listed => more id (List.mem_flatMap_of_mem inside listed)) pass⟩

theorem beneath_leaves : ∀ leaf ∈ expression.leaves true, leaf.2 = true := by
  have each : ∀ children : List SuccessExpression,
      (∀ child ∈ children, ∀ leaf ∈ child.leaves true, leaf.2 = true) →
        ∀ leaf ∈ childrenLeaves true children, leaf.2 = true := by
    intro children ih leaf listed
    rw [childrenLeaves_eq, List.mem_flatMap] at listed
    obtain ⟨child, inside, here⟩ := listed
    exact ih child inside leaf here
  induction expression using SuccessExpression.byChildren with
  | criterion id => simp [SuccessExpression.leaves]
  | all children ih => exact each children ih
  | any children ih => exact each children ih

variable {id : Identifier}

theorem passed_of_outside (passes : expression.passesOn passed = true)
    (outside : (id, false) ∈ expression.leaves false) : passed id = true := by
  induction expression using SuccessExpression.byChildren with
  | criterion leaf =>
    simp only [SuccessExpression.leaves, List.mem_singleton, Prod.mk.injEq, and_true] at outside
    rw [outside]
    exact passes
  | all children ih =>
    rw [SuccessExpression.passesOn, allPassOn_iff] at passes
    rw [SuccessExpression.leaves, childrenLeaves_eq, List.mem_flatMap] at outside
    obtain ⟨child, inside, here⟩ := outside
    exact ih child inside (passes child inside) here
  | any children => cases beneath_leaves (.any children) _ outside

structure SoundFor (revision : RequirementsRevision) (record : ReviewRecord) : Prop where
  passes : (evaluateSuccessExpression revision.successExpression record.outcomes).verdict = .pass
  required : ∀ criterion ∈ revision.criteria, criterion.isRequired = true →
    criterion.criterionId ∉ criteriaOnlyUnderAny revision.successExpression →
      Passed record.outcomes criterion.criterionId
  gated : ∀ criterion ∈ revision.criteria, criterion.isRequired = true → criterion.gated = true →
    ∀ outcome, get? record.outcomes criterion.criterionId = some outcome →
      (outcome.checkExecution = .succeeded ∧ outcome.verdict = .pass) ∧
        ∃ ref ∈ outcome.evidenceRefs, (dispatcherAttributed ref || receiptByKind ref) = true

/-- The package has an entry of its own for the criterion, which is required and more. -/
def OwnEntry (package : ReviewPackage) (id : Identifier) (more : Criterion → Prop) : Prop :=
  ∃ own ∈ package.criteria, own.criterionId = id ∧ own.isRequired = true ∧ more own

/-- The package's criteria satisfy the revision's expression only with this one. -/
def Needs (revision : RequirementsRevision) (package : ReviewPackage) (id : Identifier) : Prop :=
  revision.successExpression.passesOn
    (fun other => decide (other ∈ package.criterionCatalogue ∧ other ≠ id)) = false

/-- The package ties the required criteria of the revision: one that the expression leaves out to
named checks that cannot be declined, one that names checks to a receipt of a passing check. -/
structure Tied (revision : RequirementsRevision) (package : ReviewPackage) : Prop where
  leftOut : ∀ criterion ∈ revision.criteria, criterion.isRequired = true →
    criterion.criterionId ∉ revision.successExpression.criterionIds →
      OwnEntry package criterion.criterionId fun own => own.gated = true ∧
        own.criterionId ∉ criteriaOnlyUnderAny package.successExpression
  gated : ∀ criterion ∈ revision.criteria, criterion.isRequired = true → criterion.gated = true →
    OwnEntry package criterion.criterionId fun own => own.gated = true ∨
      (needsReceipt own = true ∧ Needs revision package criterion.criterionId)

structure Reviewable (contentHashOf : Json → HashHex) (revision : RequirementsRevision)
    (package : ReviewPackage) : Prop where
  sameRevision : package.binding.requirementsRevision = revision.revision
  sameMission : package.binding.missionId = revision.missionId
  declared : match package.requirementsContentHash with
    | some declared => declared = revision.contentHash contentHashOf
    | none => successExpressionDigest contentHashOf package.successExpression =
        successExpressionDigest contentHashOf revision.successExpression
  structural : package.hardConstraintViolations = []
  covered : ∀ id ∈ revision.requiredCriterionIds, id ∈ package.criterionCatalogue
  attainable : revision.successExpression.passesOn
    (fun id => decide (id ∈ package.criterionCatalogue)) = true

@[simp] theorem reasonIf_eq_nil {α : Type} {p : Prop} {_ : Decidable p} {reason : α} :
    reasonIf p reason = [] ↔ ¬ p := by
  by_cases h : p <;> simp [reasonIf, h]

theorem sortedIds_eq_nil {ids : List Identifier} : sortedIds ids = [] ↔ ids = [] := by
  simp [List.eq_nil_iff_forall_not_mem, sortedIds, mem_fromkeys]

variable {record : ReviewRecord} {package : ReviewPackage}

theorem matched_iff :
    (matchReviewCriteria record package).matched = true ↔
      (∀ id ∈ record.criteria.map (·.criterionId), id ∈ package.criterionCatalogue) ∧
      ∀ own ∈ package.criteria, own.isRequired = true →
        own.criterionId ∉ criteriaOnlyUnderAny package.successExpression →
          own.criterionId ∈ record.criteria.map (·.criterionId) := by
  have once : (record.criteria.map (·.criterionId)).filter
      (fun id => 1 < (record.criteria.map (·.criterionId)).count id) = [] := by
    rw [List.filter_eq_nil_iff]
    intro id inside
    have count := List.nodup_iff_count_le_one.mp record.outcomesDistinct id
    simpa using count
  simp only [CriterionMatch.matched, matchReviewCriteria, Bool.and_eq_true, List.isEmpty_iff,
    sortedIds_eq_nil, once, List.filter_eq_nil_iff, decide_eq_true_eq, not_not, and_true,
    List.forall_mem_map, List.mem_filter, and_imp]

theorem reportedSuch_eq_nil {criteria : List Criterion}
    {such : Criterion → CriterionOutcome → Bool} :
    reportedSuch criteria outcomes such = [] ↔ ∀ own ∈ criteria, own.isRequired = true →
      ∀ outcome, get? outcomes own.criterionId = some outcome → such own outcome = false := by
  rw [reportedSuch, List.map_eq_nil_iff, List.filter_eq_nil_iff]
  constructor
  · intro none own inside required outcome found
    have here := none own inside
    simpa [found, required] using here
  · intro none own inside found
    cases reported : get? outcomes own.criterionId with
    | none => simp [reported] at found
    | some outcome =>
      simp only [reported, Option.any_some, Bool.and_eq_true] at found
      rw [none own inside found.1 outcome reported] at found
      cases found.2

theorem complete_iff :
    (requiredChecksComplete package record).complete = true ↔
      (matchReviewCriteria record package).matched = true ∧
      ∀ own ∈ package.criteria, own.isRequired = true → ∀ outcome,
        get? record.outcomes own.criterionId = some outcome →
        (own.gated = true → outcome.checkExecution = .succeeded ∧ outcome.verdict = .pass) ∧
        (needsReceipt own = true → receiptSource outcome ≠ .notAReceipt) := by
  simp only [CompletenessResult.complete, requiredChecksComplete, Bool.and_eq_true,
    List.isEmpty_iff, reportedSuch_eq_nil]
  constructor
  · rintro ⟨⟨⟨matched, executed⟩, passed⟩, sourced⟩
    refine ⟨matched, fun own inside required outcome found => ⟨fun gated => ?_, fun needs => ?_⟩⟩
    · have one := executed own inside required outcome found
      have two := passed own inside required outcome found
      simp only [gated, Bool.true_and, decide_eq_false_iff_not, not_not] at one two
      exact ⟨one, (projectVerdict_eq_pass.mp two).2⟩
    · have three := sourced own inside required outcome found
      simpa [needs] using three
  · rintro ⟨matched, each⟩
    refine ⟨⟨⟨matched, ?_⟩, ?_⟩, ?_⟩ <;> intro own inside required outcome found <;>
      obtain ⟨checked, sourced⟩ := each own inside required outcome found
    · by_cases gated : own.gated = true <;> simp [gated, checked]
    · by_cases gated : own.gated = true
      · simp [gated, projectVerdict_eq_pass.mpr (checked gated)]
      · simp [gated]
    · by_cases needs : needsReceipt own = true <;> simp [needs, sourced]

theorem receiptSource_eq :
    receiptSource outcome ≠ .notAReceipt ↔
      ∃ ref ∈ outcome.evidenceRefs, (dispatcherAttributed ref || receiptByKind ref) = true := by
  have both : (∃ ref ∈ outcome.evidenceRefs,
      (dispatcherAttributed ref || receiptByKind ref) = true) ↔
      outcome.evidenceRefs.any dispatcherAttributed = true ∨
        outcome.evidenceRefs.any receiptByKind = true := by
    simp only [List.any_eq_true, Bool.or_eq_true]
    constructor
    · rintro ⟨ref, inside, yes | yes⟩
      · exact .inl ⟨ref, inside, yes⟩
      · exact .inr ⟨ref, inside, yes⟩
    · rintro (⟨ref, inside, yes⟩ | ⟨ref, inside, yes⟩)
      · exact ⟨ref, inside, .inl yes⟩
      · exact ⟨ref, inside, .inr yes⟩
  rw [both, receiptSource]
  cases outcome.evidenceRefs.any dispatcherAttributed <;>
    cases outcome.evidenceRefs.any receiptByKind <;> simp

theorem identityReasons_eq_nil {contentHashOf : Json → HashHex} {purpose : ReviewPurpose} :
    identityReasons contentHashOf subject purpose = [] ↔
      (subject.record.packageId = subject.package.packageId ∧
        subject.record.binding = subject.package.binding) ∧
      (subject.record.purpose = subject.package.purpose ∧ subject.record.purpose = purpose) ∧
      (subject.package.binding.requirementsRevision = subject.revision.revision ∧
        subject.package.binding.missionId = subject.revision.missionId) ∧
      (match subject.package.requirementsContentHash with
        | some declared => declared = subject.revision.contentHash contentHashOf
        | none => successExpressionDigest contentHashOf subject.package.successExpression =
            successExpressionDigest contentHashOf subject.revision.successExpression) ∧
      subject.package.hardConstraintViolations = [] := by
  simp only [identityReasons, List.append_eq_nil_iff, reasonIf_eq_nil, not_or, not_not, ne_eq,
    and_assoc]
  cases subject.package.requirementsContentHash <;> simp

theorem reviewReasons_eq_nil {gate : GateResult} {expression : ExpressionResult}
    {completeness : CompletenessResult} :
    reviewReasons subject gate expression completeness = [] ↔
      missingRootIds subject = [] ∧ gate = {} ∧ expression.verdict = .pass ∧
      completeness.criterionMatch.matched = true ∧ completeness.complete = true ∧
      subject.record.verdict = .accept ∧
      (subject.semanticReviewRequired = true ∨ completeness.independenceRequiredIds ≠ [] →
        independenceReasons subject.package subject.record subject.independence = []) := by
  have clear : gate = {} ↔
      gate.failedIds = [] ∧ gate.unknownIds = [] ∧ gate.missingIds = [] := by
    cases gate
    simp
  have verdict : ¬ expression.passed = false ↔ expression.verdict = .pass := by
    simp [ExpressionResult.passed]
  simp only [reviewReasons, List.append_eq_nil_iff, reasonIf_eq_nil, verdict, not_or, not_not,
    ne_eq, and_assoc, clear, not_and, Bool.not_eq_false]

def passedIn (outcomes : Outcomes) (id : Identifier) : Bool :=
  (get? outcomes id).any (projectVerdict · = .pass)

theorem passedIn_iff : passedIn outcomes id = true ↔ Passed outcomes id := by
  rw [passedIn, Passed]
  cases get? outcomes id <;> simp [projectVerdict_eq_pass]

theorem get?_outcomes :
    get? record.outcomes id = some outcome ↔
      outcome ∈ record.criteria ∧ outcome.criterionId = id := by
  have names : (keys (record.criteria.map fun outcome => (outcome.criterionId, outcome))).Nodup := by
    simpa [keys, Function.comp_def] using record.outcomesDistinct
  rw [ReviewRecord.outcomes, outcomesById, ofEntries_of_nodup names, get?_eq_some_iff names]
  simp [and_comm]

theorem reported_of_get? (found : get? record.outcomes id = some outcome) :
    id ∈ record.criteria.map (·.criterionId) := by
  obtain ⟨inside, rfl⟩ := get?_outcomes.mp found
  exact List.mem_map_of_mem inside

theorem exists_own {revision : RequirementsRevision}
    (covered : ∀ id ∈ revision.requiredCriterionIds, id ∈ package.criterionCatalogue)
    {criterion : Criterion} (listed : criterion ∈ revision.criteria)
    (required : criterion.isRequired = true) :
    ∃ own ∈ package.criteria, own.criterionId = criterion.criterionId := by
  have id : criterion.criterionId ∈ revision.requiredCriterionIds :=
    List.mem_map_of_mem (List.mem_filter.mpr ⟨listed, required⟩)
  exact List.mem_map.mp (covered _ id)

section
variable {contentHashOf : Json → HashHex} {subject : AcceptanceSubject} {nowMs : Nat}
  {purpose : ReviewPurpose} {witness : ValidityWitness} {epoch : Nat}

section
variable (accepted : (acceptable contentHashOf subject nowMs purpose witness epoch).reasons = [])
include accepted

theorem reviewable_of_accepted :
    Reviewable contentHashOf subject.revision subject.package := by
  simp only [acceptable, List.append_eq_nil_iff] at accepted
  obtain ⟨⟨⟨identity, review⟩, _⟩, _⟩ := accepted
  obtain ⟨_, _, ⟨sameRevision, sameMission⟩, declared, structural⟩ :=
    identityReasons_eq_nil.mp identity
  obtain ⟨root, _, pass, matched, _⟩ := reviewReasons_eq_nil.mp review
  refine ⟨sameRevision, sameMission, declared, structural, ?_, ?_⟩
  · intro id listed
    by_contra absent
    exact List.filter_eq_nil_iff.mp root id listed (by simpa using absent)
  · have passes := (walk_pass (fun _ => passedIn_iff) _).mp pass
    refine passesOn_mono _ (fun id _ passed => ?_) passes
    obtain ⟨outcome, found, _⟩ := passedIn_iff.mp passed
    exact decide_eq_true ((matched_iff.mp matched).1 id (reported_of_get? found))

theorem sound_of_tied
    (tied : Tied subject.revision subject.package) : SoundFor subject.revision subject.record := by
  simp only [acceptable, List.append_eq_nil_iff] at accepted
  obtain ⟨_, _, pass, matched, complete, _⟩ := reviewReasons_eq_nil.mp accepted.1.1.2
  have checks := (complete_iff.mp complete).2
  have passes := (walk_pass (fun _ => passedIn_iff) _).mp pass
  refine ⟨pass, ?_, ?_⟩
  · intro criterion listed required notOptional
    by_cases inside : criterion.criterionId ∈ subject.revision.successExpression.criterionIds
    · obtain ⟨⟨id, beneath⟩, leaf, same⟩ := List.mem_map.mp inside
      have outside : (criterion.criterionId, false) ∈
          subject.revision.successExpression.leaves false := by
        by_contra absent
        cases beneath with
        | false => exact absent (same ▸ leaf)
        | true =>
          rw [← same] at absent
          refine notOptional (List.mem_map.mpr ⟨(id, true), List.mem_filter.mpr ⟨leaf, ?_⟩, same⟩)
          simpa using absent
      exact passedIn_iff.mp (passed_of_outside _ passes outside)
    · obtain ⟨own, there, same, ownRequired, gated, demanded⟩ :=
        tied.leftOut criterion listed required inside
      have reported := (matched_iff.mp matched).2 own there ownRequired demanded
      obtain ⟨outcome, inside, here⟩ := List.mem_map.mp reported
      have found := get?_outcomes.mpr ⟨inside, here⟩
      exact ⟨outcome, same ▸ found, (checks own there ownRequired outcome found).1 gated⟩
  · intro criterion listed required gated outcome found
    obtain ⟨own, there, same, ownRequired, strong⟩ := tied.gated criterion listed required gated
    obtain ⟨ran, sourced⟩ := checks own there ownRequired outcome (same ▸ found)
    rcases strong with ownGated | ⟨needs, needed⟩
    · refine ⟨ran ownGated, receiptSource_eq.mp (sourced ?_)⟩
      rw [needsReceipt, ownGated, Bool.true_or]
    · refine ⟨?_, receiptSource_eq.mp (sourced needs)⟩
      by_contra short
      have others : subject.revision.successExpression.passesOn (fun other =>
          decide (other ∈ subject.package.criterionCatalogue ∧
            other ≠ criterion.criterionId)) = true := by
        refine passesOn_mono _ (fun id _ passed => decide_eq_true ?_) passes
        obtain ⟨other, reported, pass⟩ := passedIn_iff.mp passed
        refine ⟨(matched_iff.mp matched).1 id (reported_of_get? reported), ?_⟩
        rintro rfl
        obtain rfl := Option.some.inj (found.symm.trans reported)
        exact short pass
      rw [Needs, others] at needed
      cases needed

end

end

end Acceptance
