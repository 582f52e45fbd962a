import HarnessSdk.Acceptance.Soundness

/-! Which packages let an acceptance pass by the requirements it was meant for. -/
namespace Acceptance
open PyDict PyText Checks Workflow Contracts
open Network (ValidityWitness)

theorem exists_passed {passed : Identifier → Bool} (expression : SuccessExpression)
    (formed : expression.formed = true) (passes : expression.passesOn passed = true) :
    ∃ id, passed id = true := by
  induction expression using SuccessExpression.byChildren with
  | criterion id => exact ⟨id, passes⟩
  | all children ih =>
    rw [SuccessExpression.passesOn, allPassOn_iff] at passes
    simp only [SuccessExpression.formed, Bool.and_eq_true, Bool.not_eq_true',
      List.isEmpty_eq_false_iff, childrenFormed_iff] at formed
    obtain ⟨child, inside⟩ := List.exists_mem_of_ne_nil children formed.1
    exact ih child inside (formed.2 child inside) (passes child inside)
  | any children ih =>
    rw [SuccessExpression.passesOn, somePassOn_iff] at passes
    simp only [SuccessExpression.formed, Bool.and_eq_true, childrenFormed_iff] at formed
    obtain ⟨child, inside, pass⟩ := passes
    exact ih child inside (formed.2 child inside) pass

theorem hardGate_clear {revision : RequirementsRevision} {outcomes : Outcomes}
    (passed : ∀ id ∈ hardCriteria revision.criteria, Passed outcomes id) :
    hardGate revision outcomes = {} := by
  have verdict : ∀ id ∈ hardCriteria revision.criteria,
      (get? outcomes id).map projectVerdict = some .pass := by
    intro id inside
    obtain ⟨outcome, found, pass⟩ := passed id inside
    rw [found, Option.map_some, projectVerdict_eq_pass.mpr pass]
  have empty : ∀ value ≠ some CriterionVerdict.pass,
      (hardCriteria revision.criteria).filter
        (fun id => (get? outcomes id).map projectVerdict = value) = [] := by
    intro value other
    rw [List.filter_eq_nil_iff]
    intro id inside
    rw [verdict id inside, decide_eq_true_eq]
    exact Ne.symm other
  rw [hardGate, empty (some .fail) nofun, empty (some .unknown) nofun, empty none nofun]

variable {revision : RequirementsRevision} {id : Identifier} {package : ReviewPackage}
  {own : Criterion} {contentHashOf : Json → HashHex}

theorem hard_outside (hard : id ∈ hardCriteria revision.criteria) :
    (id, false) ∈ revision.successExpression.leaves false := by
  obtain ⟨beneath, absent⟩ := List.append_eq_nil_iff.mp revision.hardIndependent
  rw [sortedIds_eq_nil] at beneath absent
  rw [List.map_eq_nil_iff, List.filter_eq_nil_iff] at beneath
  have present : id ∈ revision.successExpression.criterionIds := by
    by_contra outside
    have lost := List.filter_eq_nil_iff.mp absent id hard
    exact lost (by simpa using outside)
  obtain ⟨⟨_, under⟩, leaf, rfl⟩ := List.mem_map.mp present
  cases under with
  | false => exact leaf
  | true =>
    have free := beneath _ leaf
    rw [Bool.true_and, decide_eq_true_eq] at free
    exact absurd hard free

theorem own_unique {other : Criterion} (inside : own ∈ package.criteria)
    (there : other ∈ package.criteria) (same : own.criterionId = other.criterionId) : own = other :=
  List.inj_on_of_nodup_map package.criteriaDistinct inside there same

def spareAgent (n : Nat) : String := String.ofList (List.replicate (n + 1) 'r')

theorem spareAgent_ok {n : Nat} (short : n < maxId) : identifierOk (spareAgent n) = true := by
  have solid : ∀ c ∈ (spareAgent n).toList, c = 'r' := by
    intro c inside
    rw [spareAgent, String.toList_ofList] at inside
    exact List.eq_of_mem_replicate inside
  have printable : (spareAgent n).toList.any isControl = false := by
    rw [List.any_eq_false]
    intro c inside
    rw [solid c inside]
    decide
  have first : 'r' ∈ (spareAgent n).toList := by
    simp [spareAgent]
  have long : (spareAgent n).length ≤ maxId := by
    simp only [spareAgent, String.length_ofList, List.length_replicate]
    omega
  simp [identifierOk, strip_ne_empty first (by decide), long, printable]

theorem exists_spare (ids : List Identifier) (few : ids.length ≤ maxList) :
    ∃ id : Identifier, id ∉ ids := by
  by_contra none
  simp only [not_exists, not_not] at none
  have subset : (List.range (maxList + 1)).map spareAgent ⊆ ids.map (·.text) := by
    intro name inside
    obtain ⟨n, small, rfl⟩ := List.mem_map.mp inside
    rw [List.mem_range, maxList] at small
    have short : n < maxId := by
      rw [maxId]
      omega
    exact List.mem_map.mpr ⟨⟨spareAgent n, spareAgent_ok short⟩, none _, rfl⟩
  have distinct : ((List.range (maxList + 1)).map spareAgent).Nodup := by
    refine List.nodup_range.map fun a b same => ?_
    have lengths := congrArg String.length same
    simpa [spareAgent] using lengths
  have count := distinct.length_le_of_subset subset
  simp only [List.length_map, List.length_range] at count
  omega

/-- One way a criterion of the package can be reported short of what was asked. -/
inductive Slip
  | omitted
  | failed
  | unsourced
deriving DecidableEq

section
variable (package : ReviewPackage)

def systemReceipt : TypedRef :=
  { kind := .toolReceipt, id := package.packageId, revision := package.binding.requirementsRevision,
    contentHash := package.binding.inputManifestHash, producedBy := some .system }

/-- The package's criteria are reported as passed with a receipt, but for one slip. -/
def slipOutcome (slip : Slip) (slipped id : Identifier) :
    CriterionOutcome :=
  { criterionId := id
    verdict := if slip = .failed ∧ id = slipped then .fail else .pass
    checkExecution := .succeeded
    evidenceRefs := if slip = .unsourced ∧ id = slipped then [] else [systemReceipt package]
    bounded := by split <;> simp [maxList]
    ranToPass := fun _ => .inr rfl }

def slipIds (slip : Slip) (slipped : Identifier) : List Identifier :=
  package.criterionCatalogue.filter fun id => ¬ (slip = .omitted ∧ id = slipped)

def slipPassed (slip : Slip) (slipped id : Identifier) : Bool :=
  id ∈ package.criterionCatalogue ∧ (slip ≠ .unsourced → id ≠ slipped)

def slipRecord (reviewer : Identifier) (slip : Slip)
    (slipped : Identifier) (some : slipIds package slip slipped ≠ []) : ReviewRecord :=
  { packageId := package.packageId
    purpose := package.purpose
    binding := package.binding
    reviewerAgentId := reviewer
    criteria := (slipIds package slip slipped).map (slipOutcome package slip slipped)
    verdict := .accept
    someOutcome := by simpa using some
    outcomesDistinct := by
      rw [List.map_map]
      exact (package.criteriaDistinct.filter _).map fun a b same => same }

end

def slipSubject (revision : RequirementsRevision) (package : ReviewPackage)
    (record : ReviewRecord) : AcceptanceSubject :=
  { revision
    package
    record
    independence := { producerAgentIds := package.producerAgentIds.items }
    posture := {} }

def readyWitness : ValidityWitness :=
  { witnessId := "witness-1"
    consumerRef := ⟨.task, "task-1", 0, ""⟩
    purpose := .accept
    truth := .true
    freshness := .current
    availability := .readable
    decision := .usable
    scopeId := "scope-1"
    scopeEpoch := 0
    usable := fun _ => ⟨rfl, rfl, rfl⟩ }

section
variable {package : ReviewPackage} {reviewer : Identifier} {slip : Slip} {slipped : Identifier}
  {some : slipIds package slip slipped ≠ []}

theorem reported_slipRecord :
    (slipRecord package reviewer slip slipped some).criteria.map (·.criterionId) =
      slipIds package slip slipped := by
  rw [slipRecord, List.map_map]
  exact List.map_id _

variable {id : Identifier}

theorem mem_slipIds : id ∈ slipIds package slip slipped ↔
    id ∈ package.criterionCatalogue ∧ (slip = .omitted → id ≠ slipped) := by
  simp [slipIds, imp_iff_not_or]

theorem get?_slipRecord {outcome : CriterionOutcome} :
    get? (slipRecord package reviewer slip slipped some).outcomes id = .some outcome ↔
      id ∈ slipIds package slip slipped ∧ outcome = slipOutcome package slip slipped id := by
  have names : (keys ((slipIds package slip slipped).map fun id =>
      (id, slipOutcome package slip slipped id))).Nodup := by
    have distinct : (slipIds package slip slipped).Nodup := package.criteriaDistinct.filter _
    simpa [keys, Function.comp_def] using distinct
  have entries : (slipRecord package reviewer slip slipped some).outcomes =
      (slipIds package slip slipped).map fun id => (id, slipOutcome package slip slipped id) := by
    rw [ReviewRecord.outcomes, outcomesById, slipRecord, List.map_map]
    exact ofEntries_of_nodup names
  rw [entries, get?_eq_some_iff names]
  simp [eq_comm]

theorem slipPassed_iff : slipPassed package slip slipped id = true ↔
    Passed (slipRecord package reviewer slip slipped some).outcomes id := by
  simp only [slipPassed, decide_eq_true_eq, Passed, get?_slipRecord, mem_slipIds]
  constructor
  · rintro ⟨inside, elsewhere⟩
    refine ⟨_, ⟨⟨inside, fun omitted => elsewhere (by simp [omitted])⟩, rfl⟩, rfl, ?_⟩
    cases slip with
    | failed => simp [slipOutcome, elsewhere (by simp)]
    | omitted | unsourced => rfl
  · rintro ⟨outcome, ⟨⟨inside, kept⟩, rfl⟩, -, pass⟩
    refine ⟨inside, fun short here => ?_⟩
    cases slip with
    | omitted => exact kept rfl here
    | failed => simp [slipOutcome, here] at pass
    | unsourced => exact short rfl

end

/-- The package does not notice the slip at its entry, nor does the revision's expression. -/
def Slack (revision : RequirementsRevision) (package : ReviewPackage) (own : Criterion) :
    Slip → Prop
  | .omitted => (own.isRequired = true →
      own.criterionId ∈ criteriaOnlyUnderAny package.successExpression) ∧
        ¬ Needs revision package own.criterionId
  | .failed => (own.isRequired = true → own.gated = false) ∧
      ¬ Needs revision package own.criterionId
  | .unsourced => own.isRequired = true → needsReceipt own = false

variable {slip : Slip}

theorem Slack.passes (slack : Slack revision package own slip)
    (attainable : revision.successExpression.passesOn (fun id => decide (id ∈
      package.criterionCatalogue)) = true) :
    revision.successExpression.passesOn (slipPassed package slip own.criterionId) = true := by
  have enough : (slip ≠ .unsourced → ¬ Needs revision package own.criterionId) := by
    cases slip with
    | omitted => exact fun _ => slack.2
    | failed => exact fun _ => slack.2
    | unsourced => simp
  by_cases whole : slip = .unsourced
  · refine passesOn_mono _ (fun id _ => ?_) attainable
    simp [slipPassed, whole]
  · rw [Needs, Bool.not_eq_false] at enough
    refine passesOn_mono _ (fun id _ => ?_) (enough whole)
    simp [slipPassed, whole]

theorem slip_some
    (passes : revision.successExpression.passesOn (slipPassed package slip own.criterionId) =
      true) : slipIds package slip own.criterionId ≠ [] := by
  obtain ⟨id, good⟩ := exists_passed revision.successExpression revision.formed passes
  rw [slipPassed, decide_eq_true_eq] at good
  refine List.ne_nil_of_mem (mem_slipIds.mpr ⟨good.1, fun omitted => good.2 ?_⟩)
  rw [omitted]
  nofun

theorem slip_complete {revision : RequirementsRevision} {package : ReviewPackage}
    {reviewer : Identifier} {own : Criterion} (inside : own ∈ package.criteria) {slip : Slip}
    (slack : Slack revision package own slip)
    (some : slipIds package slip own.criterionId ≠ []) :
    (requiredChecksComplete package
      (slipRecord package reviewer slip own.criterionId some)).complete = true := by
  rw [complete_iff, matched_iff, reported_slipRecord]
  refine ⟨⟨fun id listed => (mem_slipIds.mp listed).1, ?_⟩, ?_⟩
  · intro other there required demanded
    refine mem_slipIds.mpr ⟨List.mem_map_of_mem there, fun omitted same => ?_⟩
    obtain rfl := own_unique there inside same
    subst omitted
    exact demanded (slack.1 required)
  · intro other there required outcome found
    obtain ⟨_, rfl⟩ := get?_slipRecord.mp found
    by_cases same : other.criterionId = own.criterionId
    · obtain rfl := own_unique there inside same
      cases slip with
      | omitted => simp [slipOutcome, receiptSource, dispatcherAttributed, systemReceipt]
      | failed =>
        simp [slipOutcome, receiptSource, dispatcherAttributed, systemReceipt, slack.1 required]
      | unsourced =>
        have free := slack required
        have plain : other.gated = false := by
          rw [needsReceipt, Bool.or_eq_false_iff] at free
          exact free.1
        simp [plain, free]
    · simp [slipOutcome, receiptSource, dispatcherAttributed, systemReceipt, same]

section
variable (reviewable : Reviewable contentHashOf revision package)
include reviewable

theorem slip_accepted
    (inside : own ∈ package.criteria) (slack : Slack revision package own slip) : ∃ reviewer some,
      (acceptable contentHashOf (slipSubject revision package
        (slipRecord package reviewer slip own.criterionId some)) 0 package.purpose
        readyWitness 0).reasons = [] := by
  have passes := slack.passes reviewable.attainable
  obtain ⟨reviewer, spare⟩ := exists_spare package.producerAgentIds.items
    package.producerAgentIds.bounded
  refine ⟨reviewer, slip_some passes, ?_⟩
  generalize slip_some passes = some
  have complete := @slip_complete _ _ reviewer _ inside _ slack some
  have passed : (evaluateSuccessExpression revision.successExpression
      (slipRecord package reviewer slip own.criterionId some).outcomes).passed = true := by
    rw [ExpressionResult.passed, decide_eq_true_eq, evaluateSuccessExpression,
      walk_pass fun id => slipPassed_iff]
    exact passes
  have gate := @hardGate_clear revision
    (slipRecord package reviewer slip own.criterionId some).outcomes fun id hard =>
      slipPassed_iff.mp (passed_of_outside _ passes (hard_outside hard))
  have free : independenceReasons package
      (slipRecord package reviewer slip own.criterionId some)
      { producerAgentIds := package.producerAgentIds.items } = [] := by
    simp [independenceReasons, sameMembers, slipRecord, spare]
  have root : missingRootIds (slipSubject revision package
      (slipRecord package reviewer slip own.criterionId some)) = [] := by
    rw [missingRootIds, List.filter_eq_nil_iff]
    intro id listed
    exact fun lost => (of_decide_eq_true lost) (reviewable.covered id listed)
  simp only [acceptable, List.append_eq_nil_iff]
  refine ⟨⟨⟨identityReasons_eq_nil.mpr ?_, reviewReasons_eq_nil.mpr ?_⟩, rfl⟩, rfl⟩
  · exact ⟨⟨rfl, rfl⟩, ⟨rfl, rfl⟩, ⟨reviewable.sameRevision, reviewable.sameMission⟩,
      reviewable.declared, reviewable.structural⟩
  · exact ⟨root, gate, of_decide_eq_true passed, (complete_iff.mp complete).1, complete, rfl,
      fun _ => free⟩

theorem not_needs_of_outside
    (outside : id ∉ revision.successExpression.criterionIds) : ¬ Needs revision package id := by
  rw [Needs, Bool.not_eq_false]
  refine passesOn_mono _ (fun other inside known => ?_) reviewable.attainable
  simp only [decide_eq_true_eq] at known ⊢
  refine ⟨known, ?_⟩
  rintro rfl
  exact outside inside

end

structure Harms (revision : RequirementsRevision) (own criterion : Criterion) (slip : Slip) :
    Prop where
  listed : criterion ∈ revision.criteria
  same : criterion.criterionId = own.criterionId
  required : criterion.isRequired = true
  omitted : slip = .omitted → own.criterionId ∉ revision.successExpression.criterionIds
  unsourced : slip = .unsourced → criterion.gated = true
  failed : slip = .failed →
    own.criterionId ∉ revision.successExpression.criterionIds ∨ criterion.gated = true

theorem exists_slack (reviewable : Reviewable contentHashOf revision package)
    (loose : ¬ Tied revision package) : ∃ own ∈ package.criteria, ∃ criterion slip,
      Slack revision package own slip ∧ Harms revision own criterion slip := by
  by_cases leftOut : ∀ criterion ∈ revision.criteria, criterion.isRequired = true →
      criterion.criterionId ∉ revision.successExpression.criterionIds →
        OwnEntry package criterion.criterionId fun own => own.gated = true ∧
          own.criterionId ∉ criteriaOnlyUnderAny package.successExpression
  · have gated := mt (Tied.mk leftOut) loose
    push Not at gated
    obtain ⟨criterion, listed, required, checked, weak⟩ := gated
    obtain ⟨own, there, same⟩ := exists_own reviewable.covered listed required
    have entry : own.isRequired = true → ¬ (own.gated = true ∨
        needsReceipt own = true ∧ Needs revision package criterion.criterionId) :=
      fun ownRequired strong => weak ⟨own, there, same, ownRequired, strong⟩
    by_cases needs : own.isRequired = true ∧ needsReceipt own = true
    · have weak := not_or.mp (entry needs.1)
      refine ⟨own, there, criterion, .failed, ⟨fun _ => by simpa using weak.1, ?_⟩,
        ⟨listed, same.symm, required, nofun, nofun, fun _ => .inr checked⟩⟩
      exact fun needed => weak.2 ⟨needs.2, same ▸ needed⟩
    · refine ⟨own, there, criterion, .unsourced, fun ownRequired => ?_,
        ⟨listed, same.symm, required, nofun, fun _ => checked, nofun⟩⟩
      simpa [ownRequired] using needs
  · push Not at leftOut
    obtain ⟨criterion, listed, required, outside, weak⟩ := leftOut
    obtain ⟨own, there, same⟩ := exists_own reviewable.covered listed required
    rw [← same] at outside
    have free := not_needs_of_outside reviewable outside
    by_cases gated : own.isRequired = true ∧ own.gated = true
    · refine ⟨own, there, criterion, .omitted, ⟨fun ownRequired => ?_, free⟩,
        ⟨listed, same.symm, required, fun _ => outside, nofun, nofun⟩⟩
      by_contra demanded
      exact weak ⟨own, there, same, ownRequired, gated.2, demanded⟩
    · refine ⟨own, there, criterion, .failed, ⟨fun ownRequired => ?_, free⟩,
        ⟨listed, same.symm, required, nofun, nofun, fun _ => .inl outside⟩⟩
      simpa [ownRequired] using gated

theorem Harms.unsound {reviewer : Identifier} {criterion : Criterion}
    (harms : Harms revision own criterion slip) (inside : own ∈ package.criteria)
    (some : slipIds package slip own.criterionId ≠ []) :
    ¬ SoundFor revision (slipRecord package reviewer slip own.criterionId some) := by
  intro sound
  have left : own.criterionId ∉ revision.successExpression.criterionIds → slip = .unsourced := by
    intro outside
    have asked : criterion.criterionId ∉ criteriaOnlyUnderAny revision.successExpression := by
      rw [harms.same]
      intro under
      obtain ⟨leaf, inside, here⟩ := List.mem_map.mp under
      exact outside (here ▸ List.mem_map_of_mem (List.mem_filter.mp inside).1)
    have passed := slipPassed_iff.mpr
      (harms.same ▸ sound.required criterion harms.listed harms.required asked)
    by_contra short
    simp [slipPassed, short] at passed
  have reported : slip ≠ .omitted → get? (slipRecord package reviewer slip own.criterionId
      some).outcomes criterion.criterionId =
        .some (slipOutcome package slip own.criterionId own.criterionId) := by
    intro kept
    rw [harms.same, get?_slipRecord, mem_slipIds]
    exact ⟨⟨List.mem_map_of_mem inside, fun omitted => absurd omitted kept⟩, rfl⟩
  have gated := sound.gated criterion harms.listed harms.required
  cases slip with
  | omitted => cases left (harms.omitted rfl)
  | failed =>
    rcases harms.failed rfl with outside | checked
    · cases left outside
    · have pass := (gated checked _ (reported nofun)).1.2
      simp [slipOutcome] at pass
  | unsourced =>
    obtain ⟨ref, held, _⟩ := (gated (harms.unsourced rfl) _ (reported nofun)).2
    simp [slipOutcome] at held

/-- Every acceptance of a package under a revision is sound exactly when the package, should any
record of it be acceptable, ties what the revision requires. -/
theorem sound_iff_tied (contentHashOf : Json → HashHex) (revision : RequirementsRevision)
    (package : ReviewPackage) :
    (∀ subject nowMs purpose witness currentScopeEpoch, subject.revision = revision →
      subject.package = package →
      (acceptable contentHashOf subject nowMs purpose witness currentScopeEpoch).reasons = [] →
        SoundFor revision subject.record) ↔
      (Reviewable contentHashOf revision package → Tied revision package) := by
  constructor
  · intro sound reviewable
    by_contra loose
    obtain ⟨own, inside, criterion, slip, slack, harms⟩ := exists_slack reviewable loose
    obtain ⟨reviewer, some, accepted⟩ := slip_accepted reviewable inside slack
    exact harms.unsound inside some (sound _ _ _ _ _ rfl rfl accepted)
  · rintro tied subject nowMs purpose witness epoch rfl rfl accepted
    exact sound_of_tied accepted (tied (reviewable_of_accepted accepted))

def emptyDigest : HashHex :=
  ⟨String.ofList (List.replicate 64 '0'), by decide⟩

def requiredOutcome (id : Identifier) (kind : EvaluationKind) (checks : Identifiers) : Criterion :=
  { criterionId := id
    revision := { number := 0 }
    origin := .userExplicit
    statement := ⟨"done", by decide⟩
    requirementClass := .requiredOutcome
    evaluationKind := kind
    requiredEvidencePolicy := { requiredCheckIds := checks } }

def reportRevision : RequirementsRevision :=
  { revisionId := ⟨"rev-1", by decide⟩
    missionId := ⟨"mission-1", by decide⟩
    revision := { number := 0 }
    criteria := [requiredOutcome ⟨"report", by decide⟩ .semantic {},
      requiredOutcome ⟨"numbers", by decide⟩ .deterministic { items := [⟨"recount", by decide⟩] }]
    successExpression := .criterion ⟨"report", by decide⟩ }

/-- A package with the same expression whose entry for the numbers names no check. -/
def reportPackage : ReviewPackage :=
  { packageId := ⟨"package-1", by decide⟩
    purpose := .taskContent
    binding := {
      missionId := ⟨"mission-1", by decide⟩
      obligationId := ⟨"obligation-1", by decide⟩
      subjectRef := ⟨.task, ⟨"task-1", by decide⟩, { number := 0 }, emptyDigest, none⟩
      requirementsRevision := { number := 0 }
      inputManifestHash := emptyDigest
      policyRef := ⟨.task, ⟨"policy-1", by decide⟩, { number := 0 }, emptyDigest, none⟩ }
    criteria := [requiredOutcome ⟨"report", by decide⟩ .semantic {},
      requiredOutcome ⟨"numbers", by decide⟩ .deterministic {}]
    successExpression := .criterion ⟨"report", by decide⟩ }

def failedNumbers : AcceptanceSubject :=
  slipSubject reportRevision reportPackage
    (slipRecord reportPackage ⟨"reviewer-1", by decide⟩ .failed ⟨"numbers", by decide⟩ (by decide))

/-- A required criterion whose check ran and failed does not keep the goal from being accepted. -/
theorem failed_check_accepted :
    (∀ contentHashOf, (acceptable contentHashOf failedNumbers 0 .taskContent readyWitness 0).reasons =
      []) ∧ ¬ SoundFor failedNumbers.revision failedNumbers.record := by
  constructor
  · intro contentHashOf
    simp only [acceptable, List.append_eq_nil_iff]
    refine ⟨⟨⟨identityReasons_eq_nil.mpr ?_, ?_⟩, rfl⟩, rfl⟩
    · exact ⟨⟨rfl, rfl⟩, ⟨rfl, rfl⟩, ⟨rfl, rfl⟩, rfl, by decide⟩
    · decide
  · intro sound
    have passed := sound.required _ (List.mem_cons_of_mem _ List.mem_cons_self) rfl (by decide)
    exact absurd (passedIn_iff.mpr passed) (by decide)

end Acceptance
