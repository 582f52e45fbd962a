import HarnessSdk.Network.Dispatch

/-! When a cached readiness verdict may be reused: the same judgement made twice, compared through
the read-set of the first. -/
namespace Network
open PyDict PyText

/-- Two judgements of one occurrence that agree on what a read-set leaves out by intention: the
world's outcomes, the mission's state and the clock. -/
structure SameReading (first second : Context) : Prop where
  occurrence : second.view.occurrenceId = first.view.occurrenceId
  task : second.view.taskId = first.view.taskId
  outcomes : second.resolutions = first.resolutions
  settlements : second.settlements = first.settlements
  integrity : second.plan.integrityError = first.plan.integrityError
  mission : second.plan.missionAdmitsWork = first.plan.missionAdmitsWork
  adopted : second.plan.isAdopted second.view.occurrenceId =
    first.plan.isAdopted first.view.occurrenceId
  candidacy : second.view.dispatchCandidacy = first.view.dispatchCandidacy
  observer : second.evidence.observerAvailable = first.evidence.observerAvailable
  clock : second.nowMs = first.nowMs

def Digests.Distinguishes (digests : Digests) (values : List Hashed) : Prop :=
  ∀ a ∈ values, ∀ b ∈ values, digests.of a = digests.of b → a = b

def Context.account (context : Context) : Option ObligationAccountView :=
  context.view.binding.bind fun binding => get? context.plan.obligationAccounts binding.obligationId

def Context.hashed (context : Context) : List Hashed :=
  [.account context.account, .approval context.view.approval] ++
    (context.view.binding.toList.flatMap fun binding =>
      (startWitnesses binding context.evidence).map .witness) ++
    (context.inputResult.bind (·.manifest)).toList.map fun manifest =>
      .manifest manifest.consumerTaskRef manifest.bindings

structure VersionsName (digests : Digests) (first second : Context) : Prop where
  /-- A network is frozen at its plan revision, which is compared beside the read-set. -/
  network : second.plan.snapshot = first.plan.snapshot
  /-- The store keys a binding by its task and contract revision. -/
  contract : ∀ binding binding', first.view.binding = some binding →
    second.view.binding = some binding' → binding'.taskId = binding.taskId →
    binding'.contractRevision = binding.contractRevision → binding' = binding
  /-- The second resolution yields the manifest the report checked. -/
  inputs : ∃ result manifest, second.inputResult = some result ∧ result.problems = [] ∧
    result.manifest = some manifest ∧
    (manifest.manifestHash digests).toOption = (first.recordedReport digests).inputManifestHash
  /-- A witness answers the one precondition it was computed for. -/
  witnesses : ∀ digest digest' witness witness',
    get? first.evidence.witnesses digest = some witness →
    get? second.evidence.witnesses digest' = some witness' →
    witness'.witnessId = witness.witnessId → digest' = digest
  /-- The range of unsettled operations has a version. -/
  operations : second.evidence.operationRangeRevision = first.evidence.operationRangeRevision →
    second.evidence.pendingOperations = first.evidence.pendingOperations
  digests : digests.Distinguishes (first.hashed ++ second.hashed)

namespace Context
variable {context : Context} {binding : TaskSemanticBinding}

theorem manifestProblems_eq_nil {found : Option InputManifest} :
    manifestProblems binding found = [] ↔ ∃ manifest, found = some manifest ∧
      manifest.isFrozen = true ∧ manifest.requiredPortsSatisfied binding = true := by
  cases found with
  | none =>
    constructor
    · intro clear
      cases clear
    · rintro ⟨_, missing, _⟩
      cases missing
  | some manifest =>
    cases frozen : manifest.isFrozen <;> cases firm : manifest.requiredPortsSatisfied binding <;>
      simp [manifestProblems, frozen, firm]

theorem dataGate_eq_none (bound : context.view.binding = some binding) :
    context.dataGate = none ↔ ∃ result manifest, context.inputResult = some result ∧
      result.problems = [] ∧ result.manifest = some manifest ∧ manifest.isFrozen = true ∧
        manifest.requiredPortsSatisfied binding = true := by
  unfold dataGate
  rw [bound]
  cases context.inputResult with
  | none => simp [refused]
  | some result => simp [manifestProblems_eq_nil]

variable {digest : String} {task : TaskRef} {other : Context}

theorem witnessVerdict_ranked {found : Option ValidityWitness}
    {answer : ReadinessReason × ReadinessDetail}
    (verdict : context.witnessVerdict digest task found = some answer) :
    answer.1 ∈ evidencePrecedence := by
  cases found with
  | none =>
    cases verdict
    simp [evidencePrecedence]
  | some witness =>
    unfold witnessVerdict at verdict
    dsimp only at verdict
    repeat' split at verdict
    all_goals
      cases verdict
      try simp [evidencePrecedence]

theorem evidenceGate_eq_none (bound : context.view.binding = some binding) :
    context.evidenceGate = none ↔ context.evidence.observerAvailable = true ∧
      ∀ digest ∈ startPreconditions binding, context.witnessVerdict digest binding.taskId
        (get? context.evidence.witnesses digest) = none := by
  constructor
  · intro passed
    unfold evidenceGate at passed
    split at passed
    · cases passed
    · next available =>
      refine ⟨by simpa using available, ?_⟩
      simp only [bound, Option.map_eq_none_iff, List.find?_eq_none] at passed
      intro digest asked
      by_contra refused
      obtain ⟨answer, verdict⟩ := Option.ne_none_iff_exists'.mp refused
      have ranked := passed answer.1 (witnessVerdict_ranked verdict)
      simp only [List.any_eq_true, beq_iff_eq, List.mem_filterMap, not_exists, not_and] at ranked
      exact ranked answer ⟨digest, asked, verdict⟩ rfl
  · rintro ⟨available, witnessed⟩
    exact evidenceGate_eq_none_of binding bound available witnessed

variable {witness : ValidityWitness}

theorem epoch_of_witnessVerdict
    (usable : context.witnessVerdict digest task (some witness) = none) :
    ∃ epoch, get? context.plan.scopeEpochs witness.scopeId = some epoch := by
  cases known : get? context.plan.scopeEpochs witness.scopeId with
  | some epoch => exact ⟨epoch, rfl⟩
  | none =>
    simp only [witnessVerdict, known] at usable
    split at usable
    · cases usable
    · split at usable <;> cases usable

theorem witnessVerdict_congr
    (epochs : get? other.plan.scopeEpochs witness.scopeId = get? context.plan.scopeEpochs
      witness.scopeId) (clock : other.nowMs = context.nowMs) :
    other.witnessVerdict digest task (some witness) =
      context.witnessVerdict digest task (some witness) := by
  simp only [witnessVerdict, epochs, clock]

theorem operationGate_congr
    (operations : other.evidence.pendingOperations = context.evidence.pendingOperations)
    (occurrence : other.view.occurrenceId = context.view.occurrenceId) :
    other.operationGate = context.operationGate := by
  simp only [operationGate, operations, occurrence]

theorem orderGate_congr (network : other.plan.snapshot = context.plan.snapshot)
    (occurrence : other.view.occurrenceId = context.view.occurrenceId)
    (outcomes : other.resolutions = context.resolutions)
    (settlements : other.settlements = context.settlements) :
    other.orderGate = context.orderGate := by
  have settles : other.settles = context.settles := by
    funext constraint outcome facts
    unfold Context.settles
    rw [network]
  have problems : other.orderProblem = context.orderProblem := by
    funext constraint
    unfold orderProblem
    rw [outcomes, settlements, settles]
  simp only [orderGate, network, occurrence, problems]

theorem approvalGate_congr (approval : other.view.approval = context.view.approval)
    (occurrence : other.view.occurrenceId = context.view.occurrenceId)
    (clock : other.nowMs = context.nowMs) : other.approvalGate = context.approvalGate := by
  simp only [approvalGate, approval, occurrence, clock]

end Context

theorem channelId_nested (task : TaskRef) {inner : String}
    (channel : inner = dispatchGenerationChannel ∨ inner = inputBindingRevisionChannel) {id : String}
    (listed : id = task ∨ id = channelId task dispatchGenerationChannel ∨
      id = channelId task inputBindingRevisionChannel) :
    channelId (channelId task inner) dispatchGenerationChannel ≠ id := by
  intro same
  have hash : "#".length = 1 := rfl
  have generation : dispatchGenerationChannel.length = 19 := rfl
  have revision : inputBindingRevisionChannel.length = 22 := rfl
  have lengths := congrArg String.length same
  simp only [channelId, String.length_append, hash, generation] at lengths
  rcases channel with rfl | rfl <;> rcases listed with rfl | rfl | rfl <;>
    simp only [channelId, String.length_append, hash, generation, revision] at lengths <;> omega

section
variable {digests : Digests} {first second : Context} {binding : TaskSemanticBinding}
  (bound : first.view.binding = some binding) (names : VersionsName digests first second)
  (kept : Kept (first.recordedReport digests).readSet (second.recordedReport digests).readSet)
include bound names kept

theorem binding_kept : second.view.binding = some binding := by
  have goals := kept.goals
  rw [goalRevisions_eq bound] at goals
  have contract := goals (a := ⟨.task, binding.taskId, binding.contractRevision,
    binding.contractHash⟩) List.mem_cons_self
  have channel := goals (List.mem_cons_of_mem _ List.mem_cons_self)
  cases bound' : second.view.binding with
  | none => simp [Context.recordedReport, buildReadSet, bound'] at contract
  | some binding' =>
    rw [goalRevisions_eq bound'] at contract channel
    simp only [goalReads, taskControlReads, List.mem_cons, ReadItem.mk.injEq, List.not_mem_nil,
      or_false, true_and] at contract channel
    have task : binding.taskId = binding'.taskId ∧
        binding.contractRevision = binding'.contractRevision := by
      have nested {inner : String} (known : inner = dispatchGenerationChannel ∨
          inner = inputBindingRevisionChannel) : binding.taskId ≠ channelId binding'.taskId inner := by
        intro same
        rw [same] at channel
        rcases channel with ⟨id, _⟩ | ⟨id, _⟩ | ⟨id, _⟩
        · exact channelId_nested _ known (Or.inl rfl) id
        · exact channelId_nested _ known (Or.inr (Or.inl rfl)) id
        · exact channelId_nested _ known (Or.inr (Or.inr rfl)) id
      rcases contract with ⟨task, revision, _⟩ | ⟨task, _⟩ | ⟨task, _⟩
      · exact ⟨task, revision⟩
      · exact absurd task (nested (Or.inl rfl))
      · exact absurd task (nested (Or.inr rfl))
    rw [names.contract binding binding' bound bound' task.1.symm task.2.symm]

theorem stale_kept (current : first.staleGate = none) : second.staleGate = none := by
  have bound' := binding_kept bound names kept
  obtain ⟨generation, revision⟩ := (Context.staleGate_eq_none bound).mp current
  have goals := kept.goals
  rw [goalRevisions_eq bound, goalRevisions_eq bound'] at goals
  have moved := goals (List.mem_cons_of_mem _ List.mem_cons_self)
  have revised := goals (List.mem_cons_of_mem _ (List.mem_cons_of_mem _ List.mem_cons_self))
  have apart : dispatchGenerationChannel ≠ inputBindingRevisionChannel := by decide
  have other {name name' : String} (same : channelId binding.taskId name =
      channelId binding.taskId name') : name = name' := channelId_inj same
  simp only [goalReads, taskControlReads, List.mem_cons, ReadItem.mk.injEq, List.not_mem_nil,
    or_false, true_and, (channelId_ne _ _).symm, false_and, false_or] at moved revised
  rw [Context.staleGate_eq_none bound']
  constructor
  · rcases moved with ⟨value, _⟩ | ⟨id, _⟩
    · rw [← value, generation]
    · exact absurd (other id) apart
  · rcases revised with ⟨id, _⟩ | ⟨value, _⟩
    · exact absurd (other id).symm apart
    · rw [← value, revision]

theorem account_kept : second.account = first.account := by
  have bound' := binding_kept bound names kept
  have duties := kept.duties
  simp only [Context.recordedReport, buildReadSet, bound, bound', obligationReads,
    List.cons_subset, List.mem_singleton, ReadItem.mk.injEq, true_and, List.nil_subset,
    and_true] at duties
  have same := names.digests (.account first.account) (by simp [Context.hashed])
    (.account second.account) (by simp [Context.hashed])
    (by simpa [Context.account, bound, bound'] using duties)
  simpa using same.symm

theorem approval_kept : second.view.approval = first.view.approval := by
  have bound' := binding_kept bound names kept
  have authorities := kept.authorities
  simp only [Context.recordedReport, buildReadSet, bound, bound', authorityReads,
    List.cons_subset, List.mem_singleton, ReadItem.mk.injEq, true_and, List.nil_subset,
    and_true] at authorities
  have same := names.digests (.approval first.view.approval) (by simp [Context.hashed])
    (.approval second.view.approval) (by simp [Context.hashed]) authorities.2
  simpa using same.symm

variable {witness : ValidityWitness}

theorem witness_kept {digest : String} (asked : digest ∈ Context.startPreconditions binding)
    (held : get? first.evidence.witnesses digest = some witness) :
    get? second.evidence.witnesses digest = some witness := by
  have bound' := binding_kept bound names kept
  have facts := kept.facts
  simp only [Context.recordedReport, buildReadSet, bound, bound'] at facts
  have started : witness ∈ startWitnesses binding first.evidence :=
    List.mem_filterMap.mpr ⟨digest, asked, held⟩
  have recorded := facts ((mem_sortedBy _ _ _).mpr (List.mem_map_of_mem started))
  obtain ⟨other, listed, same⟩ := List.mem_map.mp ((mem_sortedBy _ _ _).mp recorded)
  simp only [factRead, ReadItem.mk.injEq, true_and] at same
  obtain ⟨digest', _, held'⟩ := List.mem_filterMap.mp listed
  have whole := names.digests (.witness other) (by simp [Context.hashed, bound', listed])
    (.witness witness) (by simp [Context.hashed, bound, started]) same.2.2
  have name := names.witnesses digest digest' witness other held held' same.1
  rw [← name, held']
  simpa using whole

theorem epoch_kept (started : witness ∈ startWitnesses binding first.evidence) {epoch : Nat}
    (known : get? first.plan.scopeEpochs witness.scopeId = some epoch) :
    get? second.plan.scopeEpochs witness.scopeId = some epoch := by
  have bound' := binding_kept bound names kept
  have scopes := kept.scopes
  simp only [Context.recordedReport, buildReadSet, bound, bound', scopeReads] at scopes
  have recorded := scopes (a := ⟨witness.scopeId, epoch⟩) (List.mem_filterMap.mpr
    ⟨witness.scopeId, by simpa using Or.inl ⟨witness, started, rfl⟩, by simp [known]⟩)
  obtain ⟨scope, _, found⟩ := List.mem_filterMap.mp recorded
  simp only [Option.map_eq_some_iff, ScopeEpochRead.mk.injEq] at found
  obtain ⟨_, found, rfl, rfl⟩ := found
  exact found

theorem evidence_kept (observer : second.evidence.observerAvailable = first.evidence.observerAvailable)
    (clock : second.nowMs = first.nowMs) (passed : first.evidenceGate = none) :
    second.evidenceGate = none := by
  have bound' := binding_kept bound names kept
  obtain ⟨available, witnessed⟩ := (Context.evidenceGate_eq_none bound).mp passed
  rw [Context.evidenceGate_eq_none bound']
  refine ⟨observer.trans available, ?_⟩
  intro digest asked
  have verdict := witnessed digest asked
  cases held : get? first.evidence.witnesses digest with
  | none =>
    rw [held] at verdict
    cases verdict
  | some witness =>
    rw [held] at verdict
    have started : witness ∈ startWitnesses binding first.evidence :=
      List.mem_filterMap.mpr ⟨digest, asked, held⟩
    obtain ⟨epoch, known⟩ := Context.epoch_of_witnessVerdict verdict
    have known' := epoch_kept bound names kept started known
    rw [witness_kept bound names kept asked held,
      Context.witnessVerdict_congr (known'.trans known.symm) clock]
    exact verdict

theorem operations_kept :
    second.evidence.pendingOperations = first.evidence.pendingOperations := by
  have bound' := binding_kept bound names kept
  have absences := kept.absences
  simp only [Context.recordedReport, buildReadSet, bound, bound', conflictingOperation,
    List.cons_subset, List.mem_singleton, AbsenceRead.mk.injEq, true_and, List.nil_subset,
    and_true] at absences
  exact names.operations absences.symm

theorem data_kept (passed : first.dataGate = none) : second.dataGate = none := by
  have bound' := binding_kept bound names kept
  obtain ⟨result, manifest, resolved, _, found, frozen, firm⟩ :=
    (Context.dataGate_eq_none bound).mp passed
  obtain ⟨result', manifest', resolved', clear, found', hash⟩ := names.inputs
  have recorded : (first.recordedReport digests).inputManifestHash =
      some (digests.of (.manifest manifest.consumerTaskRef manifest.bindings)) := by
    simp [Context.recordedReport, resolved, found, InputManifest.manifestHash, frozen,
      Except.toOption]
  have frozen' : manifest'.isFrozen = true := by
    by_contra pending
    simp [recorded, InputManifest.manifestHash, pending, Except.toOption] at hash
  have bindings : manifest'.bindings = manifest.bindings := by
    have same := names.digests
      (.manifest manifest'.consumerTaskRef manifest'.bindings)
      (by simp [Context.hashed, resolved', found'])
      (.manifest manifest.consumerTaskRef manifest.bindings)
      (by simp [Context.hashed, resolved, found])
      (by simpa [recorded, InputManifest.manifestHash, frozen', Except.toOption] using hash)
    simp only [Hashed.manifest.injEq] at same
    exact same.2
  rw [Context.dataGate_eq_none bound']
  refine ⟨result', manifest', resolved', clear, found', frozen', ?_⟩
  rw [InputManifest.requiredPortsSatisfied, bindings]
  exact firm

end

/-- A verdict that is not stale is the verdict the second judgement would give. -/
theorem reuse_sound (digests : Digests) (first second : Context) (same : SameReading first second)
    (names : VersionsName digests first second)
    (ready : (first.recordedReport digests).reason = .readyCandidate)
    (fresh : staleAfter (first.recordedReport digests) (second.recordedReport digests).readSet =
      false) :
    (second.recordedReport digests).reason = .readyCandidate := by
  obtain ⟨intact, leaf, selected, order, data, evidence, approved, current, settled⟩ :=
    Context.ready_iff.mp ready
  have kept := kept_of_fresh fresh
  obtain ⟨whole, spec, binding, found, bound, task, place, form⟩ :=
    Context.integrityGate_eq_none.mp intact
  have bound' := binding_kept bound names kept
  refine Context.ready_iff.mpr ⟨?_, ?_, ?_, ?_, data_kept bound names kept data,
    evidence_kept bound names kept same.observer same.clock evidence, ?_,
    stale_kept bound names kept current, ?_⟩
  · rw [Context.integrityGate_eq_none, same.integrity, names.network, same.occurrence, same.task]
    exact ⟨whole, spec, binding, found, bound', task, place, form⟩
  · rw [Context.refinementGate_eq_none] at leaf ⊢
    rwa [bound', ← bound]
  · obtain ⟨admits, reached, accounts, wanted⟩ := Context.selectionGate_eq_none.mp selected
    rw [Context.selectionGate_eq_none, same.mission, names.network, same.occurrence, same.candidacy]
    refine ⟨admits, reached, ?_, wanted⟩
    intro other given
    rw [bound'] at given
    cases given
    have duty := accounts binding bound
    rw [Context.accountGate_eq_none] at duty ⊢
    have account := account_kept bound names kept
    simpa only [Context.account, bound, bound', Option.bind_some, duty] using account
  · rw [Context.orderGate_congr names.network same.occurrence same.outcomes same.settlements]
    exact order
  · rw [Context.approvalGate_congr (approval_kept bound names kept) same.occurrence same.clock]
    exact approved
  · rw [Context.operationGate_congr (operations_kept bound names kept) same.occurrence]
    exact settled

def compileWitness (name : String) : ValidityWitness where
  witnessId := name
  consumerRef := ⟨.task, "compile", 0, emptyHash⟩
  purpose := .start
  truth := .true
  freshness := .current
  availability := .readable
  decision := .usable
  scopeId := "mission"
  scopeEpoch := 0
  usable := TaskNetworkSnapshot.usable_judged

/-- The compilation with two START preconditions, in a generation of its binding. -/
def compileContract (generation : Nat) : TaskSemanticBinding where
  taskId := "compile"
  obligationId := "ship"
  contractRevision := 3
  contractHash := emptyHash
  form := .primitive
  goalSignature := { signatureId := "compile" }
  preconditionRefs := [⟨"sources-present", none⟩, ⟨"toolchain-pinned", none⟩]
  dispatchGeneration := generation

/-- The compilation as it is judged, with what is at hand for its preconditions. -/
def compileJudged (witnesses : Dict String ValidityWitness) : Context where
  view := {
    occurrenceId := "compile"
    taskId := "compile"
    binding := some (compileContract 1) }
  plan := {
    snapshot := TaskNetworkSnapshot.approvedBuild
    scopeEpochs := [("mission", 0)]
    dispatchGenerations := [("compile", 1)]
    obligationAccounts := [("ship", ⟨.unsatisfied, true⟩)] }
  resolutions := []
  evidence := { witnesses := witnesses }
  inputResult := some ⟨some { consumerTaskRef := "compile" }, []⟩

def ownWitnesses : Dict String ValidityWitness :=
  [("sources-present", compileWitness "w-1"), ("toolchain-pinned", compileWitness "w-2")]

def sharedWitness : Dict String ValidityWitness :=
  [("sources-present", compileWitness "w-1"), ("toolchain-pinned", compileWitness "w-1")]

theorem approve_ne_build : "approve" ≠ "build" := by decide

/-- The next plan revision orders the approval before the compilation too. -/
def reorderedBuild : TaskNetworkSnapshot where
  toTaskNetwork := {
    TaskNetworkSnapshot.approvedBuild.toTaskNetwork with
    planRevision := 2
    orderConstraints := [{ before := "approve", after := "build", differ := approve_ne_build },
      { before := "approve", after := "compile" }] }
  checked := by decide

def compileReordered : Context :=
  let judged := compileJudged sharedWitness
  { judged with
    plan := { judged.plan with
      snapshot := reorderedBuild } }

def compileUnresolved : Context :=
  { compileJudged sharedWitness with
    inputResult := none }

def compileOutdated : Context :=
  let judged := compileJudged sharedWitness
  { judged with
    view := { judged.view with
      binding := some (compileContract 0) } }

def compileUnwitnessed : Context :=
  { compileJudged sharedWitness with
    evidence := { witnesses := [("sources-present", compileWitness "w-1")] } }

def compileContended : Context :=
  let judged := compileJudged sharedWitness
  { judged with
    evidence := { judged.evidence with
      pendingOperations := [⟨"op-1", .unknown, ["compile"]⟩] } }

/-- The read-set leaves out the network, the input resolution, the binding's own generation, which
precondition a witness is for, and the operations behind the range revision: each can move alone. -/
theorem reuse_misses :
    ((compileJudged sharedWitness).recordedReport plainDigests).reason = .readyCandidate ∧
    ∀ second ∈ [compileReordered, compileUnresolved, compileOutdated, compileUnwitnessed,
        compileContended],
      SameReading (compileJudged sharedWitness) second ∧
      staleAfter ((compileJudged sharedWitness).recordedReport plainDigests)
        (second.recordedReport plainDigests).readSet = false ∧
      (second.recordedReport plainDigests).reason ≠ .readyCandidate := by
  refine ⟨by decide +kernel, ?_⟩
  simp only [List.forall_mem_cons, List.not_mem_nil, false_imp_iff, implies_true, and_true]
  refine ⟨⟨⟨rfl, rfl, rfl, rfl, rfl, rfl, by decide +kernel, rfl, rfl, rfl⟩, ?_⟩,
    ⟨⟨rfl, rfl, rfl, rfl, rfl, rfl, rfl, rfl, rfl, rfl⟩, ?_⟩,
    ⟨⟨rfl, rfl, rfl, rfl, rfl, rfl, rfl, rfl, rfl, rfl⟩, ?_⟩,
    ⟨⟨rfl, rfl, rfl, rfl, rfl, rfl, rfl, rfl, rfl, rfl⟩, ?_⟩,
    ⟨⟨rfl, rfl, rfl, rfl, rfl, rfl, rfl, rfl, rfl, rfl⟩, ?_⟩⟩ <;>
    exact ⟨by decide +kernel, by decide +kernel⟩

def compileLater : Context :=
  let judged := compileJudged ownWitnesses
  { judged with
    plan := { judged.plan with
      scopeEpochs := [("mission", 0), ("release", 4)]
      obligationAccounts := [("archive", ⟨.satisfied, false⟩), ("ship", ⟨.unsatisfied, true⟩)] } }

theorem reuse_sound_at_compile :
    (compileLater.recordedReport plainDigests).reason = .readyCandidate := by
  have names : VersionsName plainDigests (compileJudged ownWitnesses) compileLater := {
    network := rfl
    contract := by
      rintro _ _ ⟨⟩ ⟨⟩ _ _
      rfl
    inputs := ⟨_, _, rfl, rfl, rfl, rfl⟩
    witnesses := by
      intro digest digest' witness witness' held held' same
      have here := mem_of_get?_eq_some held
      have there := mem_of_get?_eq_some held'
      simp only [compileJudged, compileLater, ownWitnesses, List.mem_cons, Prod.mk.injEq,
        List.not_mem_nil, or_false] at here there
      rcases here with ⟨rfl, rfl⟩ | ⟨rfl, rfl⟩ <;> rcases there with ⟨rfl, rfl⟩ | ⟨rfl, rfl⟩ <;>
        first | rfl | exact absurd same (by decide)
    operations := fun _ => rfl
    digests := by
      unfold Digests.Distinguishes
      decide +kernel }
  exact reuse_sound plainDigests (compileJudged ownWitnesses) compileLater
    ⟨rfl, rfl, rfl, rfl, rfl, rfl, rfl, rfl, rfl, rfl⟩ names (by decide +kernel) (by decide +kernel)

end Network
