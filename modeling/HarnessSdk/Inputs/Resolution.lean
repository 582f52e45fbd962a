import HarnessSdk.Inputs.Paths
import HarnessSdk.Library.Grouping

/-! From declared data requirements to an input manifest. -/
namespace Inputs
open PyDict PyText Checks Contracts Workflow
open Network (OccurrenceId TaskRef DataRequirement PortSpec PortOrdering SourceRevisionPolicy
  TaskSemanticBinding ValidityWitness WitnessPurpose WitnessDecision ResolutionProblem
  ResolutionProblemKind BoundInput ResourceIdentity ResolvedInputBinding)

/-- Revocation, deletion and purpose limits are checked now; a pin carries no permission. -/
inductive DisclosureState
  | disclosable
  | revoked
  | deleted
  | purposeRestricted
deriving DecidableEq

def DisclosureState.text : DisclosureState → String
  | .disclosable => "disclosable"
  | .revoked => "revoked"
  | .deleted => "deleted"
  | .purposeRestricted => "purpose_restricted"

structure AcceptedOutput where
  producerOccurrence : OccurrenceId
  producerTaskRef : TaskRef
  outputPort : String
  producerResultId : String
  acceptanceId : String
  supportRevision : Nat
  artifactId : String
  contentHash : String
  schemaRef : Network.VersionedRef
  sourceRevision : String
  sourceIdentity : ResourceIdentity
  producerOrdinal : Int := 0
  orderKeys : Dict String String := []
  disclosure : DisclosureState := .disclosable
  disclosureScope : String := "mission"
  provisional : Bool := false

structure AcceptedOutputsIndex where
  outputs : List AcceptedOutput := []
  completedProducers : List OccurrenceId := []
  authorizedRevisions : Dict (OccurrenceId × String) String := []

def AcceptedOutputsIndex.at_ (accepted : AcceptedOutputsIndex) (occurrence : OccurrenceId)
    (outputPort : String) : List AcceptedOutput :=
  sortedByKeys (fun item => [item.sourceRevision, item.artifactId])
    (accepted.outputs.filter fun item =>
      item.producerOccurrence = occurrence ∧ item.outputPort = outputPort)

structure SchemaCompatibilityRule where
  produced : Network.VersionedRef
  required : Network.VersionedRef
  declarationRef : String
  converterRef : Option String := none

structure ExplicitPortOrder where
  inputPort : String
  orderedRequirementIds : List String

structure ResolutionPolicy where
  schemaRegistry : List SchemaCompatibilityRule := []
  explicitOrders : List ExplicitPortOrder := []
  pinnedRevisions : Dict String String := []
  provisionalPorts : List String := []
  requireWitness : Bool := true
  witnessPurposes : List WitnessPurpose := [.start]
  nowMs : Nat := 0
  scopeEpochs : Dict String Nat := []
  allowUnknownScope : Bool := false

def ResolutionPolicy.explicitOrder (policy : ResolutionPolicy) (inputPort : String) :
    Option (List String) :=
  (policy.explicitOrders.find? (·.inputPort = inputPort)).map (·.orderedRequirementIds)

structure SymbolicBinding where
  requirementId : String
  producerOccurrence : OccurrenceId
  outputPort : String
  consumerTaskRef : TaskRef
  inputPort : String
deriving DecidableEq

structure InputManifest where
  consumerTaskRef : TaskRef
  bindings : List ResolvedInputBinding := []
  pending : List SymbolicBinding := []
  bindingsDistinct : (bindings.map (·.bindingId)).Nodup := by decide
deriving DecidableEq

def InputManifest.isFrozen (manifest : InputManifest) : Bool := manifest.pending.isEmpty

def bindingKey (binding : ResolvedInputBinding) : Lex (String × Lex (Nat × String)) :=
  toLex (binding.inputPort, toLex (binding.portOrdinal, binding.bindingId))

def inputManifest (consumerTaskRef : TaskRef) (bindings : List ResolvedInputBinding)
    (pending : List SymbolicBinding) : Except Message InputManifest :=
  let ordered := bindings.insertionSort fun a b => bindingKey a ≤ bindingKey b
  if bindingsDistinct : (ordered.map (·.bindingId)).Nodup then
    .ok {
      consumerTaskRef
      bindings := ordered
      pending := sortedByKeys (fun item => [item.inputPort, item.requirementId]) pending
      bindingsDistinct }
  else .error [.text "manifest must not repeat a binding_id"]

structure ResolutionResult where
  manifest : Option InputManifest
  problems : List ResolutionProblem := []
deriving DecidableEq

structure Entry where
  requirement : DataRequirement
  candidate : AcceptedOutput
  converterRef : Option String
  witnessId : Option String

section
variable (printable : Char → Bool) (requirement : DataRequirement)

/-- `_select_by_revision`: the candidates of the revision that the source policy names. -/
def selectByRevision
    (candidates : List AcceptedOutput) (accepted : AcceptedOutputsIndex)
    (policy : ResolutionPolicy) : Except ResolutionProblem (List AcceptedOutput) :=
  let pinned := get? policy.pinnedRevisions requirement.requirementId
  let authorized := get? accepted.authorizedRevisions
    (requirement.producerOccurrence, requirement.outputPort)
  let target := match requirement.sourceRevisionPolicy with
    | .pinned => pinned
    | .followAuthorizedRevision => authorized <|> pinned
  match target with
  | none => .ok candidates
  | some target =>
    let matching := candidates.filter (·.sourceRevision = target)
    if matching = [] then
      .error {
        kind := .revisionNotAvailable
        detail := render printable [.text "revision ", .repr target,
          .text (" of " ++ requirement.producerOccurrence ++ "." ++ requirement.outputPort ++
            " is not among the accepted outputs")]
        inputPort := some requirement.inputPort
        inputPorts := [requirement.inputPort]
        requirementIds := [requirement.requirementId] }
    else .ok matching

def refusal (kind : ResolutionProblemKind) (detail : String) (requirement : DataRequirement)
    (candidates : List String) : ResolutionProblem :=
  { kind
    detail
    inputPort := some requirement.inputPort
    inputPorts := [requirement.inputPort]
    requirementIds := [requirement.requirementId]
    candidates }

def schemaText (ref : Network.VersionedRef) : Message :=
  [.repr ref.id, .text (" v" ++ toString ref.version)]

/-- `_check_schema`: exact identity, or a registered declaration, or a refusal. -/
def checkSchema (portSpec : PortSpec)
    (candidate : AcceptedOutput) (policy : ResolutionPolicy) :
    Except ResolutionProblem (Option String) :=
  let required := requirement.schemaRef
  if required ≠ portSpec.schemaRef then
    .error (refusal .schemaMismatch (render printable ([.text "requirement ",
      .repr requirement.requirementId, .text " declares schema "] ++ schemaText required ++
      [.text " but port ", .repr portSpec.portKey, .text " declares "] ++
      schemaText portSpec.schemaRef)) requirement [])
  else if candidate.schemaRef = required then .ok none
  else
    match policy.schemaRegistry.find? fun rule =>
      rule.produced = candidate.schemaRef ∧ rule.required = required with
    | some rule => .ok rule.converterRef
    | none =>
      .error (refusal .schemaMismatch (render printable
        ([.text (candidate.artifactId ++ " carries schema ")] ++ schemaText candidate.schemaRef ++
          [.text " and no registered declaration maps it onto "] ++ schemaText required ++
          [.text "; containment is never inferred"])) requirement [candidate.artifactId])

def optionText : Option Nat → String
  | none => "None"
  | some n => toString n

/-- `_check_witness`: permission for this consumer to use this support, now. -/
def checkWitness
    (candidate : AcceptedOutput) (consumerTaskRef : TaskRef)
    (witnesses : Dict String ValidityWitness) (policy : ResolutionPolicy) :
    Except ResolutionProblem (Option String) :=
  let refuse := fun (kind : ResolutionProblemKind) (detail : Message) =>
    Except.error (refusal kind (render printable detail) requirement [candidate.artifactId])
  match get? witnesses candidate.acceptanceId with
  | none =>
    if policy.requireWitness then
      refuse .witnessMissing
        [.text ("no validity witness covers acceptance " ++ candidate.acceptanceId)]
    else .ok none
  | some witness =>
    if witness.purpose ∉ policy.witnessPurposes then
      refuse .witnessPurposeMismatch (.text ("witness " ++ witness.witnessId ++
        " was issued for " ++ witness.purpose.text ++ "; binding an input needs one of ") ::
        listText (sorted (fromkeys (policy.witnessPurposes.map (·.text)))))
    else if witness.consumerRef.kind ≠ .task ∨ witness.consumerRef.id ≠ consumerTaskRef then
      refuse .witnessConsumerMismatch [.text ("witness " ++ witness.witnessId ++
        " was issued to " ++ witness.consumerRef.kind.text ++ " "), .repr witness.consumerRef.id,
        .text ", not to task ", .repr consumerTaskRef]
    else if witness.supportRevision ≠ candidate.supportRevision then
      refuse .witnessSupportMismatch [.text ("witness " ++ witness.witnessId ++
        " was taken over support revision " ++ toString witness.supportRevision ++ " but " ++
        candidate.artifactId ++ " carries " ++ toString candidate.supportRevision)]
    else if witness.decision ≠ .usable then
      refuse .witnessNotUsable
        [.text ("witness " ++ witness.witnessId ++ " decided " ++ witness.decision.text)]
    else
      let known := get? policy.scopeEpochs witness.scopeId
      if known = none ∧ ¬ policy.allowUnknownScope then
        refuse .witnessEpochUnknown [.text "the current epoch of scope ", .repr witness.scopeId,
          .text (" is unknown, so witness " ++ witness.witnessId ++
            " cannot be compared against it (I19); set allow_unknown_scope to accept that risk " ++
            "explicitly")]
      else
        let currentEpoch := known.getD witness.scopeEpoch
        if witness.isFreshFor policy.nowMs currentEpoch = false then
          refuse .witnessNotUsable [.text ("witness " ++ witness.witnessId ++
            " is stale: it was taken at scope epoch " ++ toString witness.scopeEpoch ++ " (now " ++
            toString currentEpoch ++ ") and expires at " ++ optionText witness.notAfterMs)]
        else .ok (some witness.witnessId)

end

/-- The rank of each key among them all; none when two share a position. -/
def ranks {α : Type} [LinearOrder α] (keys : List α) : Option (List Nat) :=
  if keys.Nodup then
    some (keys.map fun key => (keys.insertionSort (· ≤ ·)).idxOf key)
  else none

/-- `_order_entries`: each entry of a set port has its ordinal, or the port cannot be ordered. -/
def orderEntries (printable : Char → Bool) (portSpec : PortSpec) (entries : List Entry)
    (policy : ResolutionPolicy) : Except ResolutionProblem (List Nat) :=
  let requirementIds := entries.map (·.requirement.requirementId)
  let refuse := fun (kind : ResolutionProblemKind) (detail : Message) =>
    Except.error {
      kind
      detail := render printable ([.text "set port ", .repr portSpec.portKey] ++ detail)
      inputPort := some portSpec.portKey
      inputPorts := [portSpec.portKey]
      requirementIds }
  let shared := fun (label : Message) => refuse .setPortOrderIncomplete
    ([.text " orders by "] ++ label ++
      [.text " and two bindings share one position, so the order is not determined"])
  match portSpec.ordering with
  | none => refuse .setPortUnordered [.text (s!" has {entries.length} binding(s) and no declared " ++
      "ordering; a set port may not fall back to whichever producer finished most recently")]
  | some .byProducerOrdinal =>
    match ranks (entries.map (·.candidate.producerOrdinal)) with
    | some ordinals => .ok ordinals
    | none => shared [.text "producer ordinal"]
  | some .byKey =>
    let keyName := portSpec.orderKey.getD ""
    let raw := entries.map fun entry => get? entry.candidate.orderKeys keyName
    if none ∈ raw then
      refuse .setPortOrderIncomplete [.text " orders by key ", .repr keyName,
        .text s!" but {raw.count none} candidate(s) do not carry it"]
    else
      match ranks (raw.filterMap id) with
      | some ordinals => .ok ordinals
      | none => shared [.text "order key ", .repr keyName]
  | some .explicit =>
    match policy.explicitOrder portSpec.portKey with
    | none => refuse .setPortUnordered
        [.text " declares an EXPLICIT order but no order was supplied"]
    | some declared =>
      if sorted declared ≠ sorted requirementIds ∨ ¬ declared.Nodup then
        .error {
          kind := .setPortOrderIncomplete
          detail := render printable ([.text "the EXPLICIT order of ", .repr portSpec.portKey,
            .text " is "] ++ listText declared ++ [.text " but the bindings are "] ++
            listText (sorted requirementIds) ++
            [.text "; every binding needs exactly one position"])
          inputPort := some portSpec.portKey
          inputPorts := [portSpec.portKey]
          requirementIds }
      else
        match ranks (requirementIds.map fun id => declared.idxOf id) with
        | some ordinals => .ok ordinals
        | none => shared [.text "explicit order"]

def boundInput (requirement : DataRequirement) (candidate : AcceptedOutput) :
    Except Message BoundInput := do
  let _ ← identifier (.str requirement.requirementId) "bound_input.requirement_id"
  let _ ← identifier (.str candidate.producerResultId) "bound_input.producer_result_id"
  let _ ← identifier (.str candidate.acceptanceId) "bound_input.acceptance_id"
  let _ ← identifier (.str candidate.artifactId) "bound_input.artifact_id"
  let _ ← hashHex (.str candidate.contentHash) "bound_input.content_hash"
  let _ ← identifier (.str candidate.sourceRevision) "bound_input.source_revision"
  .ok {
    requirementId := requirement.requirementId
    producerResultId := candidate.producerResultId
    acceptanceId := candidate.acceptanceId
    artifactId := candidate.artifactId
    contentHash := candidate.contentHash
    schemaRef := requirement.schemaRef
    sourceRevision := candidate.sourceRevision }

section
variable (printable : Char → Bool) (contentHashOf : Json → HashHex)

def bindingId (requirement : DataRequirement) (candidate : AcceptedOutput) (consumer : TaskRef) :
    String :=
  let digest := contentHashOf (.obj [("requirement_id", .str requirement.requirementId),
    ("consumer_task_ref", .str consumer), ("input_port", .str requirement.inputPort),
    ("artifact_id", .str candidate.artifactId), ("content_hash", .str candidate.contentHash),
    ("source_revision", .str candidate.sourceRevision)])
  "binding-" ++ String.ofList (digest.text.toList.take 16)

section
variable (consumer : TaskSemanticBinding)

def resolvedBinding (policy : ResolutionPolicy) (entry : Entry)
    (ordinal : Nat) : Except Message ResolvedInputBinding := do
  let requirement := entry.requirement
  let candidate := entry.candidate
  let pin := get? policy.pinnedRevisions requirement.requirementId
  let bound ← boundInput requirement candidate
  .ok {
    bindingId := bindingId contentHashOf requirement candidate consumer.taskId
    bound
    producerTaskRef := candidate.producerTaskRef
    producerOccurrence := candidate.producerOccurrence
    outputPort := candidate.outputPort
    supportRevision := candidate.supportRevision
    consumerTaskRef := consumer.taskId
    inputPort := requirement.inputPort
    portOrdinal := ordinal
    sourceIdentity := candidate.sourceIdentity
    producedSchemaRef := candidate.schemaRef
    readPolicy := requirement.assurancePolicyRef
    freshnessPolicy := requirement.freshnessPolicyRef
    disclosureScope := candidate.disclosureScope
    sourceRevisionPolicy := requirement.sourceRevisionPolicy
    converterRef := entry.converterRef
    -- the first binding of a followed input is a change as well
    requiresReacceptance :=
      requirement.sourceRevisionPolicy = .followAuthorizedRevision ∧
        pin ≠ some candidate.sourceRevision
    provisional := candidate.provisional
    witnessId := entry.witnessId }

structure Judged where
  problems : List ResolutionProblem := []
  pending : List SymbolicBinding := []
  entries : List Entry := []

def Judged.append (a b : Judged) : Judged :=
  { problems := a.problems ++ b.problems
    pending := a.pending ++ b.pending
    entries := a.entries ++ b.entries }

def judgeCandidate (portSpec : PortSpec)
    (witnesses : Dict String ValidityWitness) (policy : ResolutionPolicy)
    (requirement : DataRequirement) (candidate : AcceptedOutput) : Judged :=
  if candidate.disclosure ≠ .disclosable then
    { problems := [refusal .notDisclosable (candidate.artifactId ++ " is " ++
        candidate.disclosure.text ++ "; a pinned revision does not carry a permission forward")
        requirement [candidate.artifactId]] }
  else
    match checkSchema printable requirement portSpec candidate policy with
    | .error problem => { problems := [problem] }
    | .ok converterRef =>
      if candidate.provisional = true ∧ requirement.inputPort ∉ policy.provisionalPorts then
        { problems := [refusal .provisionalNotAuthorized (render printable
            [.text (candidate.artifactId ++ " is provisional and port "),
              .repr requirement.inputPort, .text " is not in the authorised speculation scope"])
            requirement [candidate.artifactId]] }
      else
        match checkWitness printable requirement candidate consumer.taskId witnesses policy with
        | .error problem => { problems := [problem] }
        | .ok witnessId => { entries := [⟨requirement, candidate, converterRef, witnessId⟩] }

def judgeRequirement (accepted : AcceptedOutputsIndex)
    (witnesses : Dict String ValidityWitness) (policy : ResolutionPolicy)
    (consumerOccurrence : OccurrenceId) (requirement : DataRequirement) : Judged :=
  let ports := ofEntries (consumer.inputPorts.map fun spec => (spec.portKey, spec))
  let named := [.text "requirement ", .repr requirement.requirementId]
  if requirement.consumerOccurrence ≠ consumerOccurrence then
    { problems := [refusal .foreignRequirement (render printable (named ++
        [.text (" feeds " ++ requirement.consumerOccurrence ++ ", not " ++ consumerOccurrence)]))
        requirement []] }
  else
    match get? ports requirement.inputPort with
    | none =>
      { problems := [refusal .undeclaredPort (render printable (named ++
          [.text " targets input port ", .repr requirement.inputPort,
            .text (", which " ++ consumer.taskId ++ " does not declare")])) requirement []] }
    | some portSpec =>
      if requirement.producerOccurrence ∉ accepted.completedProducers then
        { pending := [{
            requirementId := requirement.requirementId
            producerOccurrence := requirement.producerOccurrence
            outputPort := requirement.outputPort
            consumerTaskRef := consumer.taskId
            inputPort := requirement.inputPort }]
          problems := [refusal .pendingProducer (render printable
            [.text (requirement.producerOccurrence ++ " has not finished; requirement "),
              .repr requirement.requirementId,
              .text " stays symbolic and the manifest cannot be frozen"]) requirement []] }
      else
        let candidates := accepted.at_ requirement.producerOccurrence requirement.outputPort
        match selectByRevision printable requirement candidates accepted policy with
        | .error problem => { problems := [problem] }
        | .ok narrowed =>
          (narrowed.map (judgeCandidate printable consumer portSpec witnesses policy
            requirement)).foldl Judged.append {}

def bindPort (policy : ResolutionPolicy) (portKey : String)
    (entries : List Entry) : Except Message (Except ResolutionProblem (List ResolvedInputBinding)) :=
  match get? (ofEntries (consumer.inputPorts.map fun spec => (spec.portKey, spec))) portKey with
  | none => .ok (.ok [])
  | some portSpec =>
    if portSpec.cardinality = .single ∧ 1 < entries.length then
      .ok (.error {
        kind := .ambiguousSinglePort
        detail := render printable [.text "single-valued port ", .repr portKey,
          .text (s!" has {entries.length} live candidates; choose one explicitly or introduce a " ++
            "synthesis task")]
        inputPort := some portKey
        inputPorts := [portKey]
        requirementIds := sorted (fromkeys (entries.map (·.requirement.requirementId)))
        candidates := sorted (entries.map (·.candidate.artifactId)) })
    else
      let ordinals := match portSpec.cardinality with
        | .set => orderEntries printable portSpec entries policy
        | .single => .ok (List.replicate entries.length 0)
      match ordinals with
      | .error problem => .ok (.error problem)
      | .ok ordinals => do
        let bindings ← (entries.zip ordinals).mapM fun pair =>
          resolvedBinding contentHashOf consumer policy pair.1 pair.2
        .ok (.ok bindings)

def unboundProblem (portKey : String) : ResolutionProblem :=
  { kind := .unboundRequiredPort
    detail := render printable [.text "required input port ", .repr portKey,
      .text (" of " ++ consumer.taskId ++ " has no accepted binding")]
    inputPort := some portKey
    inputPorts := [portKey] }

/-- The problems and the bindings of the ports, in the order of their keys. -/
def bindPorts (policy : ResolutionPolicy)
    (entries : List Entry) : Except Message (List ResolutionProblem × List ResolvedInputBinding) :=
  do
  let perPort := sortedBy Prod.fst (group (·.requirement.inputPort) entries)
  let bound ← perPort.mapM fun port =>
    bindPort printable contentHashOf consumer policy port.1 port.2
  .ok (bound.filterMap fun port => match port with
      | .error problem => some problem
      | .ok _ => none,
    bound.flatMap fun port => match port with
      | .error _ => []
      | .ok bindings => bindings)

def resolveDeclaredInputs (requirements : List DataRequirement)
    (accepted : AcceptedOutputsIndex) (witnesses : Dict String ValidityWitness)
    (policy : ResolutionPolicy) (consumerOccurrence : OccurrenceId) :
    Except Message ResolutionResult := do
  let judged := ((sortedBy (·.requirementId) requirements).map (judgeRequirement printable consumer
    accepted witnesses policy consumerOccurrence)).foldl Judged.append {}
  let (unordered, bindings) ← bindPorts printable contentHashOf consumer policy judged.entries
  let problems := judged.problems ++ unordered
  let explained := bindings.map (some ·.inputPort) ++ judged.pending.map (some ·.inputPort) ++
    problems.map (·.inputPort)
  let unbound := (consumer.inputPorts.filter fun spec =>
    spec.required && some spec.portKey ∉ explained).map fun spec =>
      unboundProblem printable consumer spec.portKey
  let ordered := sortedByKeys (fun problem => [problem.kind.text, problem.inputPort.getD "",
    problem.detail]) (problems ++ unbound)
  if ordered.any (·.kind ≠ .pendingProducer) then .ok { manifest := none, problems := ordered }
  else do
    let manifest ← inputManifest consumer.taskId bindings judged.pending
    .ok { manifest := some manifest, problems := ordered }

end

end

def AcceptedOutput.identity (item : AcceptedOutput) : OccurrenceId × String × String × String :=
  (item.producerOccurrence, item.outputPort, item.sourceRevision, item.artifactId)

variable {accepted : AcceptedOutputsIndex} {outputs : List AcceptedOutput}

theorem at_of_perm (same : accepted.outputs.Perm outputs)
    (apart : (accepted.outputs.map AcceptedOutput.identity).Nodup) :
    AcceptedOutputsIndex.at_ { accepted with outputs } = accepted.at_ := by
  funext occurrence outputPort
  refine (sortedByKeys_of_perm (same.filter _) fun a ha b hb keys => ?_).symm
  simp only [List.mem_filter, decide_eq_true_eq] at ha hb
  simp only [List.cons.injEq, and_true] at keys
  refine List.inj_on_of_nodup_map apart ha.1 hb.1 ?_
  simp only [AcceptedOutput.identity, ha.2.1, ha.2.2, hb.2.1, hb.2.2, keys.1, keys.2]

/-- What is resolved depends neither on the order of the requirements nor on that of the accepted
outputs. -/
theorem resolve_of_perm {requirements requirements' : List DataRequirement}
    (asked : requirements.Perm requirements')
    (distinct : (requirements.map (·.requirementId)).Nodup)
    (offered : accepted.outputs.Perm outputs)
    (apart : (accepted.outputs.map AcceptedOutput.identity).Nodup) (printable : Char → Bool)
    (contentHashOf : Json → HashHex) (consumer : TaskSemanticBinding)
    (witnesses : Dict String ValidityWitness) (policy : ResolutionPolicy)
    (consumerOccurrence : OccurrenceId) :
    resolveDeclaredInputs printable contentHashOf consumer requirements' { accepted with outputs }
      witnesses policy consumerOccurrence =
    resolveDeclaredInputs printable contentHashOf consumer requirements accepted witnesses policy
      consumerOccurrence := by
  have order : sortedBy (·.requirementId) requirements' =
      sortedBy (·.requirementId) requirements :=
    (sort_of_perm asked fun a ha b hb id => List.inj_on_of_nodup_map distinct ha hb id).symm
  have round : judgeRequirement printable consumer { accepted with outputs } witnesses policy
      consumerOccurrence =
        judgeRequirement printable consumer accepted witnesses policy consumerOccurrence := by
    funext requirement
    unfold judgeRequirement selectByRevision
    rw [at_of_perm offered apart]
  rw [resolveDeclaredInputs, order, round, resolveDeclaredInputs]

end Inputs
