import HarnessSdk.Network.ReadinessOrder

/-! The semantic read-set of a readiness verdict: what the judgement depended on, with versions, and
the comparison that retires a cached verdict. -/
namespace Network
open PyDict PyText

def ReadinessReason.text : ReadinessReason → String
  | .notSelected => "NOT_SELECTED"
  | .needsRefinement => "NEEDS_REFINEMENT"
  | .waitingOrder => "WAITING_ORDER"
  | .waitingData => "WAITING_DATA"
  | .waitingEvidence => "WAITING_EVIDENCE"
  | .waitingApproval => "WAITING_APPROVAL"
  | .staleBinding => "STALE_BINDING"
  | .readyCandidate => "READY_CANDIDATE"
  | .waitingOperationUnknown => "WAITING_OPERATION_UNKNOWN"
  | .observerUnavailable => "OBSERVER_UNAVAILABLE"
  | .graphIntegrity => "GRAPH_INTEGRITY"
  | .validityRecheckPending => "VALIDITY_RECHECK_PENDING"

inductive ReadItemKind
  | requirements
  | obligation
  | task
  | method
  | fact
  | acceptance
  | operation
  | authority
  | capability
deriving DecidableEq

structure ReadItem where
  kind : ReadItemKind
  id : String
  semanticRevision : Nat
  contentHash : String
deriving DecidableEq

structure ScopeEpochRead where
  scopeId : String
  validityEpoch : Nat
deriving DecidableEq

/-- That nothing is there is a read too, over a range with a version. -/
structure AbsenceRead where
  predicate : String
  scopeId : String
  rangeRevision : Nat
deriving DecidableEq

structure SemanticReadSet where
  requirementsRevision : Nat
  goalRevisions : List ReadItem := []
  methodRevisions : List ReadItem := []
  observationRevisions : List ReadItem := []
  acceptanceRevisions : List ReadItem := []
  obligationRevisions : List ReadItem := []
  authorityRevisions : List ReadItem := []
  managerEpoch : Nat := 0
  budgetGrantRevision : Nat := 0
  supportSets : List SupportSetRead := []
  scopeEpochs : List ScopeEpochRead := []
  absences : List AbsenceRead := []
deriving DecidableEq

inductive Hashed
  | channel (task : TaskRef) (channel : String) (value : Nat)
  | witness (witness : ValidityWitness)
  | account (account : Option ObligationAccountView)
  | approval (approval : ApprovalState)
  | manifest (consumer : TaskRef) (bindings : List ResolvedInputBinding)
deriving DecidableEq

/-- The content hashes of the records, and those of the method drafts. -/
structure Digests where
  of : Hashed → String
  ofDraft : MethodInstanceDraft → String

def dispatchGenerationChannel : String := "dispatch_generation"

def inputBindingRevisionChannel : String := "input_binding_revision"

/-- `<task>#<channel>` keeps a task's revisions apart. -/
def channelId (task : TaskRef) (channel : String) : String := task ++ "#" ++ channel

section Reads
variable (digests : Digests) (view : TaskView) (plan : ActivePlanView)
  (binding : TaskSemanticBinding)

/-- Live memberships, including retained goals whose creation owner retired. -/
def currentMethodOwners : List MethodInstanceDraft :=
  let occurrences := (plan.snapshot.occurrences.filter (·.taskId = binding.taskId)).map
    (·.occurrenceId)
  sortedBy (·.instanceId) (plan.snapshot.methodInstances.filter fun draft =>
    plan.snapshot.isAdopted draft.instanceId && draft.childBindings.any fun child =>
      child.goalOccurrenceId.getD child.occurrenceId ∈ occurrences)

def methodRead : List ReadItem :=
  (currentMethodOwners plan binding).map fun draft =>
    { kind := .method
      id := draft.instanceId
      semanticRevision := draft.planRevision
      contentHash := digests.ofDraft draft }

def acceptanceReads : Option InputManifest → List ReadItem
  | none => []
  | some manifest =>
    let seen := manifest.bindings.foldl (fun seen item =>
      setDefault seen item.bound.acceptanceId
        ({ kind := .acceptance
           id := item.bound.acceptanceId
           semanticRevision := item.supportRevision
           contentHash := item.bound.contentHash } : ReadItem)) []
    (sortedBy Prod.fst seen).map Prod.snd

def taskControlReads : List ReadItem :=
  let generation := (get? plan.dispatchGenerations view.occurrenceId).getD binding.dispatchGeneration
  let revision := (get? plan.inputBindingRevisions binding.taskId).getD binding.inputBindingRevision
  let channel (name : String) (value : Nat) : ReadItem :=
    { kind := .task
      id := channelId binding.taskId name
      semanticRevision := value
      contentHash := digests.of (.channel binding.taskId name value) }
  [channel dispatchGenerationChannel generation, channel inputBindingRevisionChannel revision]

/-- A duty without an account hashes to a value of its own. -/
def obligationReads : List ReadItem :=
  [{ kind := .obligation
     id := binding.obligationId
     semanticRevision := 0
     contentHash := digests.of (.account (get? plan.obligationAccounts binding.obligationId)) }]

def authorityReads : List ReadItem :=
  [{ kind := .authority
     id := binding.taskId
     semanticRevision := view.approvalRevision
     contentHash := digests.of (.approval view.approval) }]

def goalReads : List ReadItem :=
  { kind := .task
    id := binding.taskId
    semanticRevision := binding.contractRevision
    contentHash := binding.contractHash } :: taskControlReads digests view plan binding

def startWitnesses (binding : TaskSemanticBinding) (evidence : EvidenceView) :
    List ValidityWitness :=
  (Context.startPreconditions binding).filterMap fun digest => get? evidence.witnesses digest

def factRead (witness : ValidityWitness) : ReadItem where
  kind := .fact
  id := witness.witnessId
  semanticRevision := witness.supportRevision
  contentHash := digests.of (.witness witness)

def conflictingOperation (binding : TaskSemanticBinding) (evidence : EvidenceView) :
    AbsenceRead where
  predicate := "conflicting_unsettled_operation"
  scopeId := binding.semanticScope
  rangeRevision := evidence.operationRangeRevision

def scopeReads (scopes : List String) : List ScopeEpochRead :=
  (sorted scopes.dedup).filterMap fun scope =>
    (get? plan.scopeEpochs scope).map fun epoch => { scopeId := scope, validityEpoch := epoch }

variable (evidence : EvidenceView) (inputResult : Option ResolutionResult)

def buildReadSet : SemanticReadSet :=
  let plain : SemanticReadSet :=
    { requirementsRevision := plan.requirementsRevision
      acceptanceRevisions := acceptanceReads (inputResult.bind (·.manifest))
      managerEpoch := plan.managerEpoch
      budgetGrantRevision := plan.budgetGrantRevision
      supportSets := evidence.supportSets }
  match view.binding with
  | none => plain
  | some binding => {
      plain with
      goalRevisions := goalReads digests view plan binding
      methodRevisions := methodRead digests plan binding
      observationRevisions :=
        sortedBy (·.id) ((startWitnesses binding evidence).map (factRead digests))
      obligationRevisions := obligationReads digests plan binding
      authorityRevisions := authorityReads digests view binding
      scopeEpochs := scopeReads plan
        ((startWitnesses binding evidence).map (·.scopeId) ++ [binding.semanticScope])
      absences := [conflictingOperation binding evidence] }

end Reads

def InputManifest.manifestHash (digests : Digests) (manifest : InputManifest) :
    Except Message String :=
  if manifest.isFrozen then .ok (digests.of (.manifest manifest.consumerTaskRef manifest.bindings))
  else .error [.text (toString manifest.pending.length ++ " input(s) are still symbolic; " ++
    "a dispatch identity needs every input resolved (implementation annex §4.3)")]

theorem Context.staleGate_eq_none {context : Context} {binding : TaskSemanticBinding}
    (bound : context.view.binding = some binding) :
    context.staleGate = none ↔
      (get? context.plan.dispatchGenerations context.view.occurrenceId).getD
        binding.dispatchGeneration = binding.dispatchGeneration ∧
      (get? context.plan.inputBindingRevisions binding.taskId).getD
        binding.inputBindingRevision = binding.inputBindingRevision := by
  have moved (current : Option Nat) (read : Nat) (detail : Nat → ReadinessDetail) :
      movedPast current read detail = [] ↔ current.getD read = read := by
    cases current with
    | none => simp [movedPast]
    | some now => by_cases same : now = read <;> simp [movedPast, same]
  simp [staleGate, bound, moved]

/-- A report with its read-set and the hash of the frozen manifest it checked. -/
structure RecordedReport extends ReadinessReport where
  readSet : SemanticReadSet
  inputManifestHash : Option String := none

def Context.recordedReport (digests : Digests) (context : Context) : RecordedReport where
  toReadinessReport := context.evaluateReadiness
  readSet := buildReadSet digests context.view context.plan context.evidence context.inputResult
  inputManifestHash := (context.inputResult.bind (·.manifest)).bind fun manifest =>
    (manifest.manifestHash digests).toOption

def itemsChanged (recorded current : List ReadItem) : Bool :=
  let byId := ofEntries (current.map fun item => ((item.kind, item.id), item))
  recorded.any fun item =>
    match get? byId (item.kind, item.id) with
    | none => true
    | some observed => observed.semanticRevision ≠ item.semanticRevision ||
        observed.contentHash ≠ item.contentHash

def supportsChanged (recorded current : List SupportSetRead) : Bool :=
  let supports := ofEntries (current.map fun item => (item.supportSetId, item))
  recorded.any fun support =>
    match get? supports support.supportSetId with
    | none => true
    | some observed => (observed.revision, observed.memberDigest) ≠
        (support.revision, support.memberDigest)

def scopesChanged (recorded current : List ScopeEpochRead) : Bool :=
  let epochs := ofEntries (current.map fun item => (item.scopeId, item.validityEpoch))
  recorded.any fun scope => get? epochs scope.scopeId ≠ some scope.validityEpoch

def absencesChanged (recorded current : List AbsenceRead) : Bool :=
  let ranges := ofEntries (current.map fun item => ((item.predicate, item.scopeId),
    item.rangeRevision))
  recorded.any fun absence =>
    get? ranges (absence.predicate, absence.scopeId) ≠ some absence.rangeRevision

/-- A cached readiness dies when a recorded item moves; a wider observation is no change. -/
def staleAfter (report : RecordedReport) (current : SemanticReadSet) : Bool :=
  let recorded := report.readSet
  recorded.requirementsRevision ≠ current.requirementsRevision ||
    recorded.managerEpoch ≠ current.managerEpoch ||
    recorded.budgetGrantRevision ≠ current.budgetGrantRevision ||
    itemsChanged recorded.goalRevisions current.goalRevisions ||
    itemsChanged recorded.methodRevisions current.methodRevisions ||
    itemsChanged recorded.observationRevisions current.observationRevisions ||
    itemsChanged recorded.acceptanceRevisions current.acceptanceRevisions ||
    itemsChanged recorded.obligationRevisions current.obligationRevisions ||
    itemsChanged recorded.authorityRevisions current.authorityRevisions ||
    supportsChanged recorded.supportSets current.supportSets ||
    scopesChanged recorded.scopeEpochs current.scopeEpochs ||
    absencesChanged recorded.absences current.absences

theorem mem_of_itemsChanged {recorded current : List ReadItem}
    (same : itemsChanged recorded current = false) {item : ReadItem} (inside : item ∈ recorded) :
    item ∈ current := by
  simp only [itemsChanged, List.any_eq_false] at same
  have here := same item inside
  cases found : get? (ofEntries (current.map fun item => ((item.kind, item.id), item)))
      (item.kind, item.id) with
  | none => simp [found] at here
  | some observed =>
    simp only [found, ne_eq, decide_not, Bool.or_eq_true, Bool.not_eq_eq_eq_not, Bool.not_true,
      decide_eq_false_iff_not, not_or, not_not] at here
    rcases get?_update_cases found with entry | empty
    · obtain ⟨other, listed, pair⟩ := List.mem_map.mp entry
      simp only [Prod.mk.injEq] at pair
      obtain ⟨⟨kind, id⟩, rfl⟩ := pair
      have whole : item = other := by
        cases item
        cases other
        simp_all
      exact whole ▸ listed
    · simp at empty

theorem mem_of_scopesChanged {recorded current : List ScopeEpochRead}
    (same : scopesChanged recorded current = false) {scope : ScopeEpochRead}
    (inside : scope ∈ recorded) : scope ∈ current := by
  simp only [scopesChanged, List.any_eq_false, decide_eq_true_eq, ne_eq, not_not] at same
  rcases get?_update_cases (same scope inside) with entry | empty
  · obtain ⟨other, listed, pair⟩ := List.mem_map.mp entry
    cases scope
    cases other
    simp_all
  · simp at empty

theorem mem_of_absencesChanged {recorded current : List AbsenceRead}
    (same : absencesChanged recorded current = false) {absence : AbsenceRead}
    (inside : absence ∈ recorded) : absence ∈ current := by
  simp only [absencesChanged, List.any_eq_false, decide_eq_true_eq, ne_eq, not_not] at same
  rcases get?_update_cases (same absence inside) with entry | empty
  · obtain ⟨other, listed, pair⟩ := List.mem_map.mp entry
    cases absence
    cases other
    simp_all
  · simp at empty

structure Kept (recorded current : SemanticReadSet) : Prop where
  goals : recorded.goalRevisions ⊆ current.goalRevisions
  facts : recorded.observationRevisions ⊆ current.observationRevisions
  acceptances : recorded.acceptanceRevisions ⊆ current.acceptanceRevisions
  duties : recorded.obligationRevisions ⊆ current.obligationRevisions
  authorities : recorded.authorityRevisions ⊆ current.authorityRevisions
  scopes : recorded.scopeEpochs ⊆ current.scopeEpochs
  absences : recorded.absences ⊆ current.absences

theorem kept_of_fresh {report : RecordedReport} {current : SemanticReadSet}
    (fresh : staleAfter report current = false) : Kept report.readSet current := by
  simp only [staleAfter, Bool.or_eq_false_iff] at fresh
  obtain ⟨⟨⟨⟨⟨⟨⟨⟨⟨_, goals⟩, _⟩, facts⟩, acceptances⟩, duties⟩, authorities⟩, _⟩, scopes⟩,
    absences⟩ := fresh
  exact {
    goals := fun _ => mem_of_itemsChanged goals
    facts := fun _ => mem_of_itemsChanged facts
    acceptances := fun _ => mem_of_itemsChanged acceptances
    duties := fun _ => mem_of_itemsChanged duties
    authorities := fun _ => mem_of_itemsChanged authorities
    scopes := fun _ => mem_of_scopesChanged scopes
    absences := fun _ => mem_of_absencesChanged absences }

end Network
