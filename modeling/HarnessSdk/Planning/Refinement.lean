import HarnessSdk.Obligations.Runs
import HarnessSdk.Registry.Verdicts

/-! The refinement step: for each open position of a plan, whether a method expands it. -/
namespace Refinement
open PyDict PyText Checks Workflow Metered
open Contracts (Identifier Counter HashHex)
open Network (OccurrenceId TaskRef ObligationId MethodInstanceId TaskForm TaskSemanticBinding
  MethodInstanceDraft TaskNetworkSnapshot ReusePolicy)
open Registry (World Catalog PredicateSignature EvidenceSnapshot CapabilitySnapshot Condition
  UnknownProposition ApplicabilityStatus ApplicabilityReport MethodCandidate MethodRegistry)
open Obligations (ObligationLedger ExpansionRecord FuelDecision)

abbrev Message := List Fragment

inductive RefinementOutcome
  | refined
  | leaf
  | needsEvidence
  | noApplicableMethod
  | notAuthorized
  | boundReached
  | repeatedExpansion
  | noStateChange
  | obligationNotOpened
  | notRefinable
deriving DecidableEq

inductive AttemptPolicy
  | boundedAttemptFirst
  | planBeforeAttempt
deriving DecidableEq

structure FrontierItem where
  occurrenceId : OccurrenceId
  taskId : TaskRef
  obligationId : ObligationId
  bindings : Dict String Json := []

structure TaskType where
  spec : Registry.TaskTypeSpec
  signatureId : String
  signatureVersion : Nat := 1
  preconditions : List Condition := []
  lowRisk : Bool := false

structure LeafDecision where
  isLeaf : Bool
  reason : String
  attemptPolicy : AttemptPolicy
  checkableDeliverable : Bool := false
  missingCapabilities : List Identifier := []
  unresolvedPreconditions : List String := []

/-- A read-only occurrence that would answer one UNKNOWN proposition. -/
structure EvidenceOccurrenceRequest where
  propositionKey : String
  predicateRef : Contracts.VersionedRef
  forOccurrence : OccurrenceId
  observer : Option TaskType

/-- How grounding fails: a refusal is caught and becomes a decision, anything else goes through. -/
inductive GroundingFailure
  | refused (reason : Message)
  | raised (error : Message)

/-- What every item of one call is decided against. Grounding a method and building an evidence
request read the same data and write nothing. -/
structure Planner where
  contentHashOf : Json → HashHex
  network : TaskNetworkSnapshot
  missionId : Identifier
  ofNetwork : missionId.text = network.missionId
  capabilityRequirements : TaskRef → List Identifier
  worldSnapshots : MethodInstanceId → Option String
  taskTypes : List TaskType
  predicates : Catalog PredicateSignature
  snapshot : EvidenceSnapshot
  capabilities : CapabilitySnapshot
  maxCandidates : Counter 1
  worldSnapshotId : String
  nowMs : Option Nat := none
  groundMethod : TaskSemanticBinding → Registry.MethodContract → Dict String Json →
    ApplicabilityReport → OccurrenceId → Except GroundingFailure MethodInstanceDraft
  evidenceRequest : FrontierItem → TaskSemanticBinding → UnknownProposition →
    Except Message EvidenceOccurrenceRequest

structure Books where
  ledger : ObligationLedger
  registry : MethodRegistry

abbrev Refining (α : Type) := Metered Books Message α

/-! Candidates. -/

def statusRank : ApplicabilityStatus → Nat
  | .applicable => 0
  | .needsEvidence => 1
  | .conflict => 2
  | .capabilityUnavailable => 3
  | .preconditionFalse => 4
  | .typeError => 5

def statusText : ApplicabilityStatus → String
  | .applicable => "APPLICABLE"
  | .needsEvidence => "NEEDS_EVIDENCE"
  | .conflict => "CONFLICT"
  | .capabilityUnavailable => "CAPABILITY_UNAVAILABLE"
  | .preconditionFalse => "PRECONDITION_FALSE"
  | .typeError => "TYPE_ERROR"

structure CandidateAssessment where
  candidate : MethodCandidate
  report : ApplicabilityReport
  selectable : Bool
  reason : String

def CandidateAssessment.rank (entry : CandidateAssessment) : Nat := statusRank entry.report.status

def assess (world : World) (capabilities : CapabilitySnapshot) (candidate : MethodCandidate) :
    CandidateAssessment :=
  let report := Registry.assessMethod world candidate.method capabilities
  let applicable : Bool := report.status = .applicable
  let selectable :=
    applicable && (candidate.method.applicableWhen.isEmpty || report.authorization.allowed)
  { candidate := candidate
    report := report
    selectable := selectable
    reason :=
      if applicable && !selectable then
        "the preconditions are TRUE but not evidence-backed; an authorisation gate " ++
          "accepts only observed or authoritative leaves (§6.6 rule 2)"
      else if selectable then "applicable and evidence-backed"
      else statusText report.status }

def CandidateAssessment.sortKey (entry : CandidateAssessment) :
    Nat ×ₗ Nat ×ₗ Nat ×ₗ Nat ×ₗ String ×ₗ Nat :=
  toLex (entry.rank, toLex (if entry.selectable then 0 else 1,
    toLex (entry.report.unmetCapabilities.length, toLex (entry.report.needsEvidence.length,
      toLex (entry.candidate.method.methodId.text, entry.candidate.methodRef.version.number)))))

/-- Every alternative is assessed before the cut. -/
def assessCandidates (world : World) (capabilities : CapabilitySnapshot) (maxCandidates : Counter 1)
    (candidates : List MethodCandidate) : List CandidateAssessment :=
  ((candidates.map (assess world capabilities)).insertionSort fun a b =>
    a.sortKey ≤ b.sortKey).take maxCandidates.number

/-! Decisions. -/

structure RejectedCandidate where
  methodId : Identifier
  version : Nat
  status : ApplicabilityStatus
  reason : String

structure MethodProposalRequest where
  goalSignature : Network.GoalSignature
  goalTypeRef : Option Contracts.VersionedRef
  rejected : List RejectedCandidate := []
  reason : String

structure BoundReachedReport where
  expansions : List (String × String)
  openChildObligationIds : List ObligationId
  reason : String := "recursion fuel exhausted"

structure RefinementDecision where
  item : FrontierItem
  outcome : RefinementOutcome
  reason : Message
  draft : Option MethodInstanceDraft := none
  chosen : Option CandidateAssessment := none
  candidates : List CandidateAssessment := []
  evidence : List EvidenceOccurrenceRequest := []
  proposalRequest : Option MethodProposalRequest := none
  boundReport : Option BoundReachedReport := none
  leaf : Option LeafDecision := none
  fuelRemaining : Option Int := none

namespace Planner
variable (planner : Planner)

def world (binding : TaskSemanticBinding) : World where
  contentHashOf := planner.contentHashOf
  registry := planner.predicates
  snapshot := planner.snapshot
  parameters := binding.typedParameters
  nowMs := planner.nowMs

section
variable (item : FrontierItem)

def bindingFor : Except Message TaskSemanticBinding :=
  match planner.network.bindingForOccurrence? item.occurrenceId with
  | none => .error [.text "KeyError"]
  | some binding => .ok binding

/-- `_task_type_for`: a signature names one type. -/
def taskTypeFor (binding : TaskSemanticBinding) : Except Message (Option TaskType) :=
  let claims := planner.taskTypes.filter fun type => type.spec.form = binding.form ∧
    type.signatureId = binding.goalSignature.signatureId ∧
    type.signatureVersion = binding.goalSignature.version
  match claims with
  | [] => .ok none
  | [type] => .ok (some type)
  | _ => .error [.text "goal signature ", .repr binding.goalSignature.signatureId,
      .text (s!" v{binding.goalSignature.version} is claimed by {claims.length} registered task " ++
        "types; a signature names one type")]

/-! Leaves. -/

def leafDecision (binding : TaskSemanticBinding) (type : Option TaskType) : LeafDecision :=
  if binding.form = .compound then {
    isLeaf := false
    reason := "a compound task is refined by a method, never dispatched (§6.2)"
    attemptPolicy := .planBeforeAttempt }
  else match type.filter (·.spec.operatorRef.isSome) with
  | none => {
      isLeaf := false
      reason := "no registered operator provides this task type; it is not executable here (§6.4)"
      attemptPolicy := .planBeforeAttempt }
  | some type =>
    let policy := if type.lowRisk then .boundedAttemptFirst else .planBeforeAttempt
    let missing := planner.capabilities.missingFrom (fromkeys
      (planner.capabilityRequirements binding.taskId ++ type.spec.requiredCapabilities.items))
    let unresolved := ((planner.world binding).unknownPredicates type.preconditions).map
      (·.propositionKey)
    if missing ≠ [] then {
      isLeaf := false
      reason := "this deployment cannot execute the operator: missing " ++
        join ", " (missing.map (·.text))
      attemptPolicy := policy
      checkableDeliverable := !type.spec.outputPorts.isEmpty
      missingCapabilities := missing
      unresolvedPreconditions := unresolved }
    else if type.spec.outputPorts.isEmpty then {
      isLeaf := false
      reason := "the task type declares no output port, so its deliverable could not be " ++
        "checked; a leaf has to produce something an acceptance can read"
      attemptPolicy := policy
      unresolvedPreconditions := unresolved }
    else if unresolved ≠ [] then {
      isLeaf := false
      reason := "a required precondition is unresolved; gather evidence before dispatching " ++
        "(ADR-07: UNKNOWN is not FALSE and not TRUE)"
      attemptPolicy := policy
      checkableDeliverable := true
      unresolvedPreconditions := unresolved }
    else {
      isLeaf := true
      reason := "a registered operator can complete this in one bounded attempt and its " ++
        "deliverable is readable through declared output ports"
      attemptPolicy := policy
      checkableDeliverable := true }

def refineLeaf (binding : TaskSemanticBinding) (type : Option TaskType) :
    Except Message RefinementDecision :=
  let decision := planner.leafDecision binding type
  match type with
  | some type =>
    if decision.unresolvedPreconditions ≠ [] then do
      let evidence ← ((planner.world binding).unknownPredicates type.preconditions).mapM
        (planner.evidenceRequest item binding)
      .ok {
        item := item
        outcome := .needsEvidence
        reason := [.text decision.reason]
        evidence := evidence
        leaf := some decision }
    else .ok {
      item := item
      outcome := if decision.isLeaf then .leaf else .notRefinable
      reason := [.text decision.reason]
      leaf := some decision }
  | none => .ok {
      item := item
      outcome := if decision.isLeaf then .leaf else .notRefinable
      reason := [.text decision.reason]
      leaf := some decision }

/-! Compound goals. -/

/-- `_no_method`: gather evidence if that could help, otherwise ask for a method. -/
def noMethod (binding : TaskSemanticBinding)
    (goalTypeRef : Contracts.VersionedRef) (assessed : List CandidateAssessment) :
    Except Message RefinementDecision :=
  let needing := assessed.filter (·.report.status = .needsEvidence)
  if needing ≠ [] then do
    let unknowns := firsts UnknownProposition.propositionKey [] (needing.flatMap fun entry =>
      (planner.world binding).unknownPredicates entry.candidate.method.applicableWhen)
    let evidence ← unknowns.mapM (planner.evidenceRequest item binding)
    .ok {
      item := item
      outcome := .needsEvidence
      reason := [.text (s!"{needing.length} candidate method(s) rest on propositions nothing has " ++
        "observed yet; gather evidence rather than guess (ADR-07)")]
      candidates := assessed
      evidence := evidence }
  else if assessed.any fun entry => entry.report.status = .applicable && !entry.selectable then
    .ok {
      item := item
      outcome := .notAuthorized
      reason := [.text ("every applicable method's TRUE rests on a constant or an unresolved " ++
        "leaf; an empty or unsupported expression never opens a gate (§6.6 rule 2)")]
      candidates := assessed }
  else .ok {
    item := item
    outcome := .noApplicableMethod
    reason := [.text s!"{assessed.length} method(s) are offered for ", .repr goalTypeRef.id.text,
      .text " and none applies here"]
    candidates := assessed
    proposalRequest := some {
      goalSignature := binding.goalSignature
      goalTypeRef := some goalTypeRef
      rejected := assessed.map fun entry => ⟨entry.candidate.method.methodId,
        entry.candidate.methodRef.version.number, entry.report.status, entry.reason⟩
      reason := "no admitted method applies; a synthesiser may propose one, and it goes " ++
        "through the same admission protocol (§7.3)" } }

def parametersDigest (draft : MethodInstanceDraft) : String :=
  (planner.contentHashOf (.arr (draft.groundedParameters.map fun parameter =>
    .obj [("name", .str parameter.1), ("value", parameter.2)]))).text

/-- What an expansion is told apart by: the method, its parameters, the world it was read in. -/
def signature (draft : MethodInstanceDraft) (worldSnapshotId : String) : String × String × String :=
  (draft.methodRef.methodId, planner.parametersDigest draft, worldSnapshotId)

/-- `_ancestor_repeat`: expanding an ancestor's goal again with nothing changed is no progress. -/
def ancestorRepeat (draft : MethodInstanceDraft) (item : FrontierItem) : Option Message :=
  let repeats := (sorted (planner.network.ancestorsOf item.occurrenceId)).find? fun ancestor =>
    (planner.network.adoptedInstanceFor ancestor).any fun adopted =>
      planner.signature adopted
        ((planner.worldSnapshots adopted.instanceId).getD planner.worldSnapshotId) =
      planner.signature draft planner.worldSnapshotId
  repeats.map fun ancestor => [.text s!"occurrence {ancestor} above this one already expanded ",
    .repr draft.methodRef.methodId, .text (" with the same parameters against the same " ++
      "world snapshot; expanding it again changes no state (§6.4)")]

/-- `_open_children`: the duties already opened beneath an occurrence. -/
def openChildren (id : OccurrenceId) : List ObligationId :=
  let children (current : OccurrenceId) : List OccurrenceId :=
    (planner.network.adoptedChildren current).map (·.occurrenceId)
  let seen := Digraph.explore (fun _ => true) children
    (Digraph.work children planner.network.occurrenceIds [id] []) [id] []
  fromkeys ((seen.reverse.flatMap children).filterMap fun child =>
    (planner.network.occurrence? child).map (·.obligationId))

def onLedger {α : Type} (work : Obligations.Work α) : Refining α := fun books =>
  ((work books.ledger).1, { books with ledger := (work books.ledger).2 })

/-- From the spending on: nothing is spent unless the expansion is produced. -/
def expand (assessed : List CandidateAssessment) (chosen : CandidateAssessment)
    (draft : MethodInstanceDraft) : Refining RefinementDecision := do
  let fuel ← onLedger (Obligations.consumeFuel item.obligationId
    { methodId := chosen.candidate.method.methodId.text
      parametersDigest := planner.parametersDigest draft
      taskId := some item.taskId })
  match fuel.status with
  | .repeatedExpansion =>
    pure {
      item := item
      outcome := .repeatedExpansion
      reason := [.text fuel.reason]
      candidates := assessed
      chosen := some chosen
      fuelRemaining := some fuel.remainingFuel }
  | .boundReached => do
    let expansions ← view fun books =>
      ((get? books.ledger.accounts item.obligationId).map (·.expansionKeys)).getD []
    let children := planner.openChildren item.occurrenceId
    lift (Obligations.identifiers children "report.open_child_obligation_ids")
    pure {
      item := item
      outcome := .boundReached
      reason := [.text ("recursion fuel for this obligation is exhausted; the structure " ++
        "expanded so far is kept and reported as a bound, not as an impossible goal (ADR-08)")]
      candidates := assessed
      chosen := some chosen
      boundReport := some { expansions := expansions, openChildObligationIds := children }
      fuelRemaining := some 0 }
  | .granted => do
    let registry ← view Books.registry
    let noted ← lift (registry.noteTrialUse chosen.candidate.methodRef (.str planner.missionId.text))
    write fun books => { books with registry := noted }
    pure {
      item := item
      outcome := .refined
      reason := [.text (s!"refined with {chosen.candidate.method.methodId.text}@" ++
        s!"{chosen.candidate.methodRef.version.number}; {fuel.remainingFuel} fuel left on " ++
        s!"obligation {item.obligationId}")]
      draft := some draft
      chosen := some chosen
      candidates := assessed
      fuelRemaining := some fuel.remainingFuel }

/-- One compound goal of a registered type: every refusal comes before the spending. -/
def refineGoal (binding : TaskSemanticBinding) (type : TaskType) :
    Refining RefinementDecision := do
  let registry ← view Books.registry
  let candidates ← lift (registry.candidatesFor type.spec.taskTypeRef planner.missionId)
  let assessed := assessCandidates (planner.world binding) planner.capabilities
    planner.maxCandidates candidates
  match assessed.find? (·.selectable) with
  | none => lift (planner.noMethod item binding type.spec.taskTypeRef assessed)
  | some chosen =>
    match planner.groundMethod binding chosen.candidate.method item.bindings chosen.report
        item.occurrenceId with
    | .error (.raised error) => stop error
    | .error (.refused reason) =>
      pure {
        item := item
        outcome := .notRefinable
        reason := reason
        candidates := assessed
        chosen := some chosen }
    | .ok draft =>
      match planner.ancestorRepeat draft item with
      | some reason => do
        let remaining ← view fun books =>
          (get? books.ledger.accounts item.obligationId).map (·.remaining)
        pure {
          item := item
          outcome := .noStateChange
          reason := reason
          candidates := assessed
          chosen := some chosen
          fuelRemaining := remaining }
      | none => planner.expand item assessed chosen draft

def refineOne : Refining RefinementDecision := do
  let binding ← lift (planner.bindingFor item)
  let type ← lift (planner.taskTypeFor binding)
  let opened ← view fun books => get? books.ledger.accounts item.obligationId
  match binding.form, opened, type with
  | .primitive, _, type => lift (planner.refineLeaf item binding type)
  | .compound, none, _ =>
    pure {
      item := item
      outcome := .obligationNotOpened
      reason := [.text (s!"duty {item.obligationId} has no ledger account; open the increment's " ++
        "ObligationOpening against its parent before refining this sub-goal (§6.1)")] }
  | .compound, some _, none =>
    pure {
      item := item
      outcome := .noApplicableMethod
      reason := [.text "no registered compound task type carries goal signature ",
        .repr binding.goalSignature.signatureId, .text s!" v{binding.goalSignature.version}"]
      proposalRequest := some {
        goalSignature := binding.goalSignature
        goalTypeRef := none
        reason := "the goal type itself is not registered" } }
  | .compound, some _, some type => planner.refineGoal item binding type

end

def refine (frontier : List FrontierItem) : Refining (List RefinementDecision) :=
  frontier.mapM planner.refineOne

end Planner

/-! The fuel. -/

/-- One unit of the duty's fuel goes to one new expansion, and nothing else changes. -/
def Spends (target : ObligationId) (s t : ObligationLedger) : Prop :=
  ∃ row key, get? s.accounts target = some row ∧ row.fuelUsed < row.fuelLimit ∧
    key ∉ row.expansionKeys ∧
    t = { s with accounts := set s.accounts target { row with
      fuelUsed := row.fuelUsed + 1
      expansionKeys := row.expansionKeys ++ [key] } }

def Settles (item : FrontierItem) (decision : RefinementDecision) (s t : ObligationLedger) : Prop :=
  decision.item = item ∧
    if decision.outcome = .refined then Spends item.obligationId s t else t = s

inductive Accounted :
    List FrontierItem → List RefinementDecision → ObligationLedger → ObligationLedger → Prop
  | nil {s : ObligationLedger} : Accounted [] [] s s
  | cons {item : FrontierItem} {rest : List FrontierItem} {decision : RefinementDecision}
      {decisions : List RefinementDecision} {s m t : ObligationLedger} :
      Settles item decision s m → Accounted rest decisions m t →
      Accounted (item :: rest) (decision :: decisions) s t

variable {planner : Planner} {item : FrontierItem} {books : Books}

variable {decision : RefinementDecision} {binding : TaskSemanticBinding}

theorem settles_idle {s : ObligationLedger} (own : decision.item = item)
    (idle : decision.outcome ≠ .refined) : Settles item decision s s :=
  ⟨own, (if_neg idle).mpr rfl⟩

theorem consumeFuel_spends (target : ObligationId) (expansion : ExpansionRecord)
    (s : ObligationLedger) :
    Atomic (Obligations.consumeFuel target expansion) s fun fuel t =>
      if fuel.status = .granted then Spends target s t else t = s := by
  unfold Obligations.consumeFuel
  apply Obligations.atomic_require
  intro row found
  split
  · exact atomic_pure ((if_neg nofun).mpr rfl)
  · next fresh =>
    split
    · exact atomic_pure ((if_neg nofun).mpr rfl)
    · next left =>
      apply Ends.atomic
      apply ends_after rfl
      apply ends_pure
      exact (if_pos rfl).mpr ⟨row, expansion.key, found, Int.not_le.mp left, fresh, rfl⟩

theorem onLedger_atomic {α : Type} {work : Obligations.Work α} {post : α → ObligationLedger → Prop}
    (atomic : Atomic work books.ledger post) :
    Atomic (Planner.onLedger work) books fun a after =>
      post a after.ledger ∧ after = { books with ledger := after.ledger } := by
  unfold Atomic at atomic ⊢
  unfold Planner.onLedger
  cases run : work books.ledger with
  | mk outcome t =>
    rw [run] at atomic
    cases outcome with
    | ok a => exact ⟨atomic, rfl⟩
    | error e =>
      change { books with ledger := t } = books
      rw [atomic]

theorem noteTrialUse_ends (ref : Registry.MethodRef) (mission : Identifier)
    (registry : MethodRegistry) :
    ∃ noted, registry.noteTrialUse ref (.str mission.text) = .ok noted := by
  unfold MethodRegistry.noteTrialUse
  rw [Contracts.identifier_str]
  exact ⟨_, rfl⟩

theorem expand_settles (assessed : List CandidateAssessment) (chosen : CandidateAssessment)
    (draft : MethodInstanceDraft) :
    Atomic (planner.expand item assessed chosen draft) books fun decision after =>
      Settles item decision books.ledger after.ledger := by
  unfold Planner.expand
  apply (onLedger_atomic (consumeFuel_spends item.obligationId _ books.ledger)).bind_either
  rintro ⟨status, remaining, reason⟩ after ⟨spent, rest⟩
  have idle (same : after.ledger = books.ledger) : after = books := by
    rw [rest, same]
  cases status with
  | repeatedExpansion =>
    left
    exact ⟨idle ((if_neg nofun).mp spent), atomic_pure (settles_idle rfl nofun)⟩
  | boundReached =>
    left
    refine ⟨idle ((if_neg nofun).mp spent), ?_⟩
    apply atomic_view
    apply atomic_lift
    intro _ _
    exact atomic_pure (settles_idle rfl nofun)
  | granted =>
    right
    obtain ⟨noted, notes⟩ :=
      noteTrialUse_ends chosen.candidate.methodRef planner.missionId after.registry
    have ran : (lift (after.registry.noteTrialUse chosen.candidate.methodRef
        (.str planner.missionId.text)) : Refining MethodRegistry) after = (.ok noted, after) := by
      rw [notes]
      rfl
    apply ends_after (m := after) rfl
    apply ends_after ran
    apply ends_after rfl
    exact ends_pure ⟨rfl, (if_pos rfl).mpr ((if_pos rfl).mp spent)⟩

theorem refineLeaf_idle {type : Option TaskType}
    (ok : planner.refineLeaf item binding type = .ok decision) :
    decision.item = item ∧ decision.outcome ≠ .refined := by
  have either (leaf : Bool) :
      (if leaf then RefinementOutcome.leaf else .notRefinable) ≠ .refined := by
    cases leaf <;> nofun
  unfold Planner.refineLeaf at ok
  cases type with
  | none =>
    cases ok
    exact ⟨rfl, either _⟩
  | some type =>
    dsimp only at ok
    split at ok
    · rw [bind_eq_ok] at ok
      obtain ⟨evidence, _, ok⟩ := ok
      cases ok
      exact ⟨rfl, nofun⟩
    · cases ok
      exact ⟨rfl, either _⟩

theorem noMethod_idle {goal : Contracts.VersionedRef} {assessed : List CandidateAssessment}
    (ok : planner.noMethod item binding goal assessed = .ok decision) :
    decision.item = item ∧ decision.outcome ≠ .refined := by
  unfold Planner.noMethod at ok
  dsimp only at ok
  split at ok
  · rw [bind_eq_ok] at ok
    obtain ⟨evidence, _, ok⟩ := ok
    cases ok
    simp
  · split at ok
    · cases ok
      simp
    · cases ok
      simp

theorem refineGoal_settles (binding : TaskSemanticBinding) (type : TaskType) :
    Atomic (planner.refineGoal item binding type) books fun decision after =>
      Settles item decision books.ledger after.ledger := by
  unfold Planner.refineGoal
  apply atomic_view
  apply atomic_lift
  intro candidates _
  dsimp only
  split
  · exact atomic_lifted fun decision ok => settles_idle (noMethod_idle ok).1 (noMethod_idle ok).2
  · next chosen _ =>
    split
    · exact atomic_stop
    · exact atomic_pure (settles_idle rfl nofun)
    · next draft _ =>
      split
      · apply atomic_view
        exact atomic_pure (settles_idle rfl nofun)
      · exact expand_settles _ chosen draft

theorem refineOne_settles :
    Atomic (planner.refineOne item) books fun decision after =>
      Settles item decision books.ledger after.ledger := by
  unfold Planner.refineOne
  apply atomic_lift
  intro binding _
  apply atomic_lift
  intro type _
  apply atomic_view
  split
  · exact atomic_lifted fun decision ok =>
      settles_idle (refineLeaf_idle ok).1 (refineLeaf_idle ok).2
  · exact atomic_pure (settles_idle rfl nofun)
  · exact atomic_pure (settles_idle rfl nofun)
  · exact refineGoal_settles binding _

/-- A run settles its items in order; one that raises has settled those before the item at which
it raised, and that item left the ledger alone. -/
theorem refine_settles (frontier : List FrontierItem) (books : Books) :
    match planner.refine frontier books with
    | (.ok decisions, after) => Accounted frontier decisions books.ledger after.ledger
    | (.error _, after) => ∃ done item later decisions, frontier = done ++ item :: later ∧
        Accounted done decisions books.ledger after.ledger := by
  unfold Planner.refine
  induction frontier generalizing books with
  | nil => exact .nil
  | cons item rest ih =>
    have first := @refineOne_settles planner item books
    rw [List.mapM_cons]
    cases run : planner.refineOne item books with
    | mk outcome m =>
      cases outcome with
      | error e =>
        rw [bind_of_stopped run]
        have same := first.stopped run
        subst same
        exact ⟨[], item, rest, [], rfl, .nil⟩
      | ok decision =>
        rw [bind_of_ran run]
        have settled := first.ended run
        have others := ih m
        cases run' : rest.mapM planner.refineOne m with
        | mk outcome' t =>
          rw [run'] at others
          cases outcome' with
          | error e =>
            rw [bind_of_stopped run']
            obtain ⟨done, stopped, later, decisions, split, accounted⟩ := others
            exact ⟨item :: done, stopped, later, decision :: decisions, by rw [split]; rfl,
              .cons settled accounted⟩
          | ok decisions =>
            rw [bind_of_ran run']
            exact .cons settled others

/-! The cut. -/

theorem exists_take_insertionSort {α β : Type} [LinearOrder β] (key : α → β) {p : α → Prop}
    {items : List α} {n : Nat} (room : 1 ≤ n)
    (first : ∀ a ∈ items, ∀ b ∈ items, p a → ¬p b → key a < key b) {a : α} (inside : a ∈ items)
    (holds : p a) : ∃ b ∈ (items.insertionSort fun a b => key a ≤ key b).take n, p b := by
  have perm := List.perm_insertionSort (fun a b => key a ≤ key b) items
  have ordered := List.pairwise_insertionSort (fun a b => key a ≤ key b) items
  cases sorted : items.insertionSort fun a b => key a ≤ key b with
  | nil =>
    rw [sorted] at perm
    exact absurd (perm.mem_iff.mpr inside) List.not_mem_nil
  | cons head tail =>
    rw [sorted] at perm ordered
    have taken : head ∈ (head :: tail).take n := by
      cases n with
      | zero => omega
      | succ n => exact List.mem_cons_self
    by_cases best : p head
    · exact ⟨head, taken, best⟩
    · have below := first a inside head (perm.mem_iff.mp List.mem_cons_self) holds best
      cases perm.mem_iff.mpr inside with
      | head => exact absurd holds best
      | tail _ later =>
        exact absurd (List.rel_of_pairwise_cons ordered later) (not_le.mpr below)

theorem statusRank_pos {status : ApplicabilityStatus} (other : status ≠ .applicable) :
    0 < statusRank status := by
  cases status with
  | applicable => exact absurd rfl other
  | _ => exact Nat.succ_pos _

theorem sortKey_lt_of_applicable {a b : CandidateAssessment}
    (applicable : a.report.status = .applicable) (other : b.report.status ≠ .applicable) :
    a.sortKey < b.sortKey := by
  unfold CandidateAssessment.sortKey CandidateAssessment.rank
  rw [Prod.Lex.toLex_lt_toLex, applicable]
  exact Or.inl (statusRank_pos other)

theorem sortKey_lt_of_selectable {a b : CandidateAssessment}
    (applicable : a.report.status = .applicable) (selectable : a.selectable = true)
    (other : b.selectable = false) : a.sortKey < b.sortKey := by
  by_cases same : b.report.status = .applicable
  · unfold CandidateAssessment.sortKey CandidateAssessment.rank
    rw [Prod.Lex.toLex_lt_toLex, applicable, same, selectable, other]
    refine Or.inr ⟨rfl, ?_⟩
    rw [Prod.Lex.toLex_lt_toLex]
    exact Or.inl Nat.one_pos
  · exact sortKey_lt_of_applicable applicable same

theorem applicable_of_selectable {world : World} {capabilities : CapabilitySnapshot}
    {candidate : MethodCandidate} (selectable : (assess world capabilities candidate).selectable = true) :
    (assess world capabilities candidate).report.status = .applicable := by
  have both := (Bool.and_eq_true _ _).mp selectable
  exact of_decide_eq_true both.1

/-- Fuel is spent for what is refined and for nothing else, and the cut of the alternatives keeps
one that applies. -/
structure Disciplined (planner : Planner) : Prop where
  accounted : ∀ frontier books decisions after,
    planner.refine frontier books = (.ok decisions, after) →
      Accounted frontier decisions books.ledger after.ledger
  halted : ∀ frontier books error after, planner.refine frontier books = (.error error, after) →
    ∃ done item later decisions, frontier = done ++ item :: later ∧
      Accounted done decisions books.ledger after.ledger
  keepsApplicable : ∀ world capabilities candidates,
    (∃ candidate ∈ candidates,
      (assess world capabilities candidate).report.status = .applicable) →
    ∃ entry ∈ assessCandidates world capabilities planner.maxCandidates candidates,
      entry.report.status = .applicable
  keepsSelectable : ∀ world capabilities candidates,
    (∃ candidate ∈ candidates, (assess world capabilities candidate).selectable = true) →
    ∃ entry ∈ assessCandidates world capabilities planner.maxCandidates candidates,
      entry.selectable = true

theorem refinement_disciplined (planner : Planner) : Disciplined planner where
  accounted frontier books decisions after run := by
    have settles := @refine_settles planner frontier books
    rw [run] at settles
    exact settles
  halted frontier books error after run := by
    have settles := @refine_settles planner frontier books
    rw [run] at settles
    exact settles
  keepsApplicable world capabilities candidates := by
    rintro ⟨candidate, inside, applicable⟩
    apply exists_take_insertionSort CandidateAssessment.sortKey planner.maxCandidates.atLeast _
      (List.mem_map_of_mem inside) applicable
    intro a _ b _ holds other
    exact sortKey_lt_of_applicable holds other
  keepsSelectable world capabilities candidates := by
    rintro ⟨candidate, inside, selectable⟩
    apply exists_take_insertionSort CandidateAssessment.sortKey planner.maxCandidates.atLeast _
      (List.mem_map_of_mem inside) selectable
    intro a listed b _ holds other
    obtain ⟨origin, _, rfl⟩ := List.mem_map.mp listed
    exact sortKey_lt_of_selectable (applicable_of_selectable holds) holds
      (Bool.eq_false_iff.mpr other)

end Refinement
