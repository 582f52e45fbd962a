import HarnessSdk.Registry.Admission
import HarnessSdk.Library.Transitions

/-! The method registry: what is stored under a definition's identity, and the operations that
write it. -/
namespace Registry
open PyDict PyText Checks Workflow Contracts
open Network (TypedRef)
open Planning (MethodRegistryStatus)

inductive RegistryAuthor
  | system
  | human
  | model
deriving DecidableEq

def RegistryAuthor.text : RegistryAuthor → String
  | .system => "system"
  | .human => "human"
  | .model => "model"

structure MethodRegistration where
  methodRef : MethodRef
  status : MethodRegistryStatus
  author : RegistryAuthor
  admissionReceiptRef : Option TypedRef := none
  trialScopeMission : Option Identifier := none
  modelDrafts : author = .model → status = .draft := by simp
  trialScoped : status = .trialAdmitted → trialScopeMission.isSome := by decide
deriving DecidableEq

inductive StepOutcome
  | passed
  | failed
  | deferred
  | notReached
deriving DecidableEq

inductive AdmissionVerdict
  | trialAdmitted
  | rejected
deriving DecidableEq

def AdmissionVerdict.text : AdmissionVerdict → String
  | .trialAdmitted => "TRIAL_ADMITTED"
  | .rejected => "REJECTED"

structure AdmissionStepRecord where
  step : AdmissionStepId
  outcome : StepOutcome
  detail : String := ""
deriving DecidableEq

structure AdmissionReceipt where
  methodRef : MethodRef
  verdict : AdmissionVerdict
  author : RegistryAuthor
  policyRef : Identifier
  policyVersion : Counter 1
  missionId : Identifier
  steps : List AdmissionStepRecord
  transitions : List MethodRegistryStatus
  problems : List AdmissionProblem := []
  missingOperators : List Identifier := []
  missingCapabilities : List Identifier := []
  missingPredicates : List String := []
  recursive : Bool := false
  registration : Option MethodRegistration := none
deriving DecidableEq

def MethodRef.toJson (ref : MethodRef) : Json :=
  .obj [("method_id", .str ref.methodId.text), ("version", .int ref.version.number),
    ("content_hash", .str ref.contentHash.text)]

def AdmissionProblem.toJson (printable : Char → Bool) (problem : AdmissionProblem) : Json :=
  .obj [("code", .str problem.code.text), ("detail", .str (render printable problem.detail)),
    ("step", .str problem.step.text)]

/-- `receipt_ref`: a content-addressed reference the registration can point at. -/
def AdmissionReceipt.receiptRef (contentHashOf : Json → HashHex) (printable : Char → Bool)
    (receipt : AdmissionReceipt) : TypedRef :=
  let digest := contentHashOf (.obj [("method_ref", receipt.methodRef.toJson),
    ("verdict", .str receipt.verdict.text), ("policy_ref", .str receipt.policyRef.text),
    ("policy_version", .int receipt.policyVersion.number),
    ("mission_id", .str receipt.missionId.text),
    ("problems", .arr (receipt.problems.map (AdmissionProblem.toJson printable)))])
  { kind := .review
    id := "method-admission-" ++ String.ofList (digest.text.toList.take 32)
    revision := 1
    contentHash := digest.text }

/-- A submission, model-authored or not, with the status it claims. -/
structure MethodProposal where
  method : MethodContract
  author : RegistryAuthor
  declaredStatus : MethodRegistryStatus := .draft

structure MethodRegistry where
  definitions : Dict MethodRef MethodContract := []
  registrations : Dict MethodRef MethodRegistration := []
  receipts : Dict MethodRef AdmissionReceipt := []
  trialUses : Dict (MethodRef × Identifier) Nat := []
  evaluationScopes : Dict MethodRef (List Identifier) := []
  byGoalType : Dict VersionedRef (List MethodRef) := []
  byGoalTypeId : Dict Identifier (List MethodRef) := []

def joinBucket {κ : Type} [DecidableEq κ] (buckets : Dict κ (List MethodRef)) (bucket : κ)
    (key : MethodRef) : Dict κ (List MethodRef) :=
  let members := (get? buckets bucket).getD []
  set buckets bucket (if key ∈ members then members else members ++ [key])

namespace MethodRegistry

def index (registry : MethodRegistry) (method : MethodContract) (key : MethodRef) :
    MethodRegistry :=
  { registry with
    byGoalType := joinBucket registry.byGoalType method.goalTypeRef key
    byGoalTypeId := joinBucket registry.byGoalTypeId method.goalTypeRef.id key }

def restore (contentHashOf : Json → HashHex) (registry : MethodRegistry) (contract : MethodContract)
    (registration : MethodRegistration) : Except Message MethodRegistry :=
  let key := contract.methodRef contentHashOf
  if registration.methodRef ≠ key ∨ registration.author = .model then
    .error [.text "persisted registration does not describe the system-admitted method"]
  else if ∃ other ∈ keys registry.definitions, other.methodId = key.methodId ∧
      other.version = key.version ∧ other ≠ key then
    .error [.text "stored method version conflicts with loaded definition"]
  else
    .ok {
      registry.index contract key with
      definitions := set registry.definitions key contract
      registrations := set registry.registrations key registration
      evaluationScopes := registry.evaluationScopes.filter (·.1 ≠ key) }

def requireRegistration (registry : MethodRegistry) (ref : MethodRef) :
    Except Message MethodRegistration :=
  match get? registry.registrations ref with
  | some registration => .ok registration
  | none => .error [.text "method ", .repr ref.methodId.text,
      .text s!" v{ref.version.number} is not registered"]

def missionIds (values : List Json) : Except Message (List Identifier) :=
  values.mapM fun value => identifier value "evaluation.mission_id"

def allowEvaluationTrials (registry : MethodRegistry) (ref : MethodRef) (missions : List Json) :
    Except Message MethodRegistry := do
  let registration ← registry.requireRegistration ref
  if registration.status ≠ .trialAdmitted then .ok registry
  else
    let scope ← missionIds missions
    .ok { registry with evaluationScopes := set registry.evaluationScopes ref scope }

structure Refusal where
  steps : List AdmissionStepRecord := []
  problems : List AdmissionProblem
  missingOperators : List Identifier := []
  missingCapabilities : List Identifier := []
  missingPredicates : List String := []
  recursive : Bool := false

def refusalReceipt (ref : MethodRef) (author : RegistryAuthor) (policy : AdmissionPolicy)
    (refusal : Refusal) : AdmissionReceipt where
  methodRef := ref
  verdict := .rejected
  author := author
  policyRef := policy.policyRef
  policyVersion := policy.policyVersion
  missionId := policy.missionId
  steps := refusal.steps
  transitions := [.draft, .rejected]
  problems := refusal.problems
  missingOperators := fromkeys refusal.missingOperators
  missingCapabilities := fromkeys refusal.missingCapabilities
  missingPredicates := fromkeys refusal.missingPredicates
  recursive := refusal.recursive

/-- `admit_method` with a status that is not a trial. -/
def settled (ref : MethodRef) (status : MethodRegistryStatus) (receipt : Option TypedRef)
    (apart : status ≠ .trialAdmitted := by decide) : MethodRegistration where
  methodRef := ref
  status := status
  author := .system
  admissionReceiptRef := receipt
  trialScoped := fun trial => absurd trial apart

def trial (ref : MethodRef) (receipt : Option TypedRef) (mission : Identifier) :
    MethodRegistration where
  methodRef := ref
  status := .trialAdmitted
  author := .system
  admissionReceiptRef := receipt
  trialScopeMission := some mission
  trialScoped := fun _ => rfl

def refuse (contentHashOf : Json → HashHex) (printable : Char → Bool)
    (registry : MethodRegistry) (ref : MethodRef) (author : RegistryAuthor) (policy : AdmissionPolicy) (refusal : Refusal) :
    AdmissionReceipt × MethodRegistry :=
  let receipt := refusalReceipt ref author policy refusal
  let registration := settled ref .rejected (some (receipt.receiptRef contentHashOf printable))
  let receipt := { receipt with registration := some registration }
  (receipt, {
    registry with
    registrations := set registry.registrations ref registration
    receipts := set registry.receipts ref receipt })

def notReached (after : AdmissionStepId) : List AdmissionStepRecord :=
  (AdmissionStepId.all.drop (AdmissionStepId.all.idxOf after + 1)).map fun step =>
    ⟨step, .notReached, "an earlier step failed; this one was not attempted"⟩

def checkDetail : AdmissionStepId → String
  | .structureAndTypes => "JSON / type / reference / scope check (§7.3 step 1)"
  | .registryTypeCheck => "predicate / operator / capability type check (§7.3 step 2)"
  | _ => "bounded expansion / acyclic order / ports / root coverage (§7.3 step 3)"

def checked (step : AdmissionStepId) (outcome : StepOutcome) : AdmissionStepRecord :=
  ⟨step, outcome, checkDetail step⟩

def failedAt (step : AdmissionStepId) : List AdmissionStepRecord :=
  (AdmissionStepId.all.take (AdmissionStepId.all.idxOf step)).map (checked · .passed) ++
    checked step .failed :: notReached step

def claimProblem (proposal : MethodProposal) (author : RegistryAuthor) :
    Option AdmissionProblem :=
  if author = .model ∧ proposal.declaredStatus ≠ .draft then
    some {
      code := .modelClaimedStatus
      detail := [.text (s!"a model-authored submission claimed registry_status " ++
        s!"{proposal.declaredStatus.text}; only DRAFT may be submitted (§7.3)")]
      step := .structureAndTypes }
  else if proposal.author ≠ author then
    some {
      code := .modelClaimedStatus
      detail := [.text (s!"the submission declares author {proposal.author.text} but was " ++
        s!"presented as {author.text}; authorship is not self-asserted")]
      step := .structureAndTypes }
  else none

section
variable (contentHashOf : Json → HashHex)

def clashProblem (registry : MethodRegistry)
    (method : MethodContract) : Option AdmissionProblem :=
  match get? registry.definitions (method.methodRef contentHashOf) with
  | none => none
  | some existing =>
    if existing.toJson.sameText method.toJson then none
    else some {
      code := .alreadyRegistered
      detail := [.text "method ", .repr method.methodId.text,
        .text s!" v{method.methodVersion.number} is registered with other content at this hash"]
      step := .structureAndTypes }

/-- The first step that fails decides; the chain is walked no further. -/
def refusalOf (registry : MethodRegistry)
    (proposal : MethodProposal) (author : RegistryAuthor) (policy : AdmissionPolicy) :
    Option Refusal :=
  match claimProblem proposal author with
  | some problem => some { problems := [problem] }
  | none =>
    match registry.clashProblem contentHashOf proposal.method with
    | some problem => some { problems := [problem] }
    | none =>
      let one := checkStructureAndTypes proposal.method policy
      let two := checkRegistries proposal.method policy
      let three := checkStructure proposal.method policy
      if one.1 ≠ [] then
        some {
          steps := failedAt .structureAndTypes
          problems := one.1
          missingOperators := one.2 }
      else if two.problems ≠ [] then
        some {
          steps := failedAt .registryTypeCheck
          problems := two.problems
          missingOperators := two.missingOperators
          missingCapabilities := two.missingCapabilities
          missingPredicates := two.missingPredicates }
      else if three.1 ≠ [] then
        some {
          steps := failedAt .structuralChecks
          problems := three.1
          recursive := three.2 }
      else none

def acceptedSteps (mission : Identifier) : List AdmissionStepRecord :=
  [checked .structureAndTypes .passed, checked .registryTypeCheck .passed,
    checked .structuralChecks .passed,
    ⟨.independentPlanReview, .deferred,
      "independent planning review is a real review, delivered with P2.3"⟩,
    ⟨.formalModeling, .deferred,
      "HDDL export / PANDA verification is P2.2; unavailable is UNSUPPORTED"⟩,
    ⟨.trialAdmission, .passed, s!"trial admitted for mission {mission.text} only (§7.3 step 6)"⟩]

def acceptedReceipt (method : MethodContract)
    (author : RegistryAuthor) (policy : AdmissionPolicy) : AdmissionReceipt where
  methodRef := method.methodRef contentHashOf
  verdict := .trialAdmitted
  author := author
  policyRef := policy.policyRef
  policyVersion := policy.policyVersion
  missionId := policy.missionId
  steps := acceptedSteps policy.missionId
  transitions := [.draft, .structurallyValid, .trialAdmitted]
  recursive := (checkStructure method policy).2

def accept (printable : Char → Bool)
    (registry : MethodRegistry) (method : MethodContract) (author : RegistryAuthor)
    (policy : AdmissionPolicy) : AdmissionReceipt × MethodRegistry :=
  let ref := method.methodRef contentHashOf
  let receipt := acceptedReceipt contentHashOf method author policy
  let registration := trial ref (some (receipt.receiptRef contentHashOf printable)) policy.missionId
  let receipt := { receipt with registration := some registration }
  (receipt, {
    registry.index method ref with
    definitions := set registry.definitions ref method
    registrations := set registry.registrations ref registration
    receipts := set registry.receipts ref receipt })

/-- A problem's detail is itself a bounded text; a longer one raises before anything is written. -/
def admitMethod (printable : Char → Bool)
    (registry : MethodRegistry) (proposal : MethodProposal) (author : RegistryAuthor)
    (policy : AdmissionPolicy) : Except Message (AdmissionReceipt × MethodRegistry) :=
  match registry.refusalOf contentHashOf proposal author policy with
  | none => .ok (registry.accept contentHashOf printable proposal.method author policy)
  | some refusal =>
    if refusal.problems.all fun problem => (render printable problem.detail).length ≤ maxText then
      .ok (registry.refuse contentHashOf printable (proposal.method.methodRef contentHashOf) author
        policy refusal)
    else .error [.text "problem.detail exceeds 20000 characters"]

end

section
variable (registry : MethodRegistry) (ref : MethodRef)

def withdraw (status : MethodRegistryStatus)
    (reason : Json) (apart : status ≠ .trialAdmitted) : Except Message MethodRegistry := do
  let registration ← registry.requireRegistration ref
  let _ ← text reason "reason"
  .ok {
    registry with
    registrations := set registry.registrations ref
      (settled ref status registration.admissionReceiptRef apart) }

def suspend (reason : Json) :
    Except Message MethodRegistry :=
  registry.withdraw ref .suspended reason (by decide)

def retire (reason : Json) :
    Except Message MethodRegistry :=
  registry.withdraw ref .retired reason (by decide)

def reinstate (mission reason : Json) :
    Except Message MethodRegistry := do
  let registration ← registry.requireRegistration ref
  if registration.status ≠ .suspended then
    .error [.text "method ", .repr ref.methodId.text,
      .text s!" is {registration.status.text}, not SUSPENDED"]
  else
    let _ ← text reason "reason"
    let mission ← identifier mission "mission_id"
    .ok {
      registry with
      registrations := set registry.registrations ref
        (trial ref registration.admissionReceiptRef mission) }

def noteTrialUse (mission : Json) :
    Except Message MethodRegistry := do
  let mission ← identifier mission "mission_id"
  let key := (ref, mission)
  .ok {
    registry with
    trialUses := set registry.trialUses key ((get? registry.trialUses key).getD 0 + 1) }

def retrievable (mission : Identifier) : Bool :=
  match get? registry.registrations ref with
  | none => false
  | some registration =>
    registration.status = .admitted || (registration.status = .trialAdmitted &&
      (registration.trialScopeMission = some mission ||
        mission ∈ (get? registry.evaluationScopes ref).getD []))

end

end MethodRegistry

structure MethodCandidate where
  method : MethodContract
  methodRef : MethodRef
  registration : MethodRegistration
  trialUses : Nat := 0

def MethodRef.comesBefore (a b : MethodRef) : Prop :=
  a.methodId.text < b.methodId.text ∨ a.methodId.text = b.methodId.text ∧
    (a.version.number < b.version.number ∨ a.version.number = b.version.number ∧
      a.contentHash.text ≤ b.contentHash.text)

instance (a b : MethodRef) : Decidable (MethodRef.comesBefore a b) := by
  unfold MethodRef.comesBefore
  infer_instance

namespace MethodRegistry

/-- One offered method: its definition has to be there. -/
def candidate (registry : MethodRegistry) (mission : Identifier) (key : MethodRef) :
    Except Message (Option MethodCandidate) :=
  match get? registry.definitions key with
  | none => .error [.text "KeyError"]
  | some method =>
    if registry.retrievable key mission then
      match get? registry.registrations key with
      | none => .error [.text "KeyError"]
      | some registration => .ok (some {
          method := method
          methodRef := key
          registration := registration
          trialUses := (get? registry.trialUses (key, mission)).getD 0 })
    else .ok none

def candidatesFor (registry : MethodRegistry) (goal : VersionedRef) (mission : Identifier) :
    Except Message (List MethodCandidate) := do
  let offered := (get? registry.byGoalType goal).getD []
  let found ← (offered.insertionSort MethodRef.comesBefore).mapM (registry.candidate mission)
  .ok (found.filterMap id)

end MethodRegistry

inductive Operation
  | admitMethod (proposal : MethodProposal) (author : RegistryAuthor) (policy : AdmissionPolicy)
  | restore (contract : MethodContract) (registration : MethodRegistration)
  | suspend (ref : MethodRef) (reason : Json)
  | reinstate (ref : MethodRef) (mission reason : Json)
  | retire (ref : MethodRef) (reason : Json)
  | allowEvaluationTrials (ref : MethodRef) (missions : List Json)
  | noteTrialUse (ref : MethodRef) (mission : Json)

/-- An operation that raises leaves the registry as it was. -/
def Operation.apply (contentHashOf : Json → HashHex) (printable : Char → Bool)
    (registry : MethodRegistry) : Operation → MethodRegistry
  | .admitMethod proposal author policy =>
    match registry.admitMethod contentHashOf printable proposal author policy with
    | .ok (_, next) => next
    | .error _ => registry
  | .restore contract registration =>
    (registry.restore contentHashOf contract registration).toOption.getD registry
  | .suspend ref reason => (registry.suspend ref reason).toOption.getD registry
  | .reinstate ref mission reason =>
    (registry.reinstate ref mission reason).toOption.getD registry
  | .retire ref reason => (registry.retire ref reason).toOption.getD registry
  | .allowEvaluationTrials ref missions =>
    (registry.allowEvaluationTrials ref missions).toOption.getD registry
  | .noteTrialUse ref mission => (registry.noteTrialUse ref mission).toOption.getD registry

end Registry
