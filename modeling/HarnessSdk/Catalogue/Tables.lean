import HarnessSdk.Library.Checks
import HarnessSdk.Library.Dict

/-!
The catalogue of one namespace: definition revisions, their lifecycle rows, the health of the
deployments and the registry epoch, with the three commands that write them. A command that raises
leaves the catalogue as it was.
-/
namespace Catalogue
open Checks PyDict

inductive Raised
  | arp (code : String)
  | other (exception : String)
deriving DecidableEq

structure Pin where
  kind : String
  id : String
  revision : Nat
  contentHash : String
deriving DecidableEq

/-- `Pin(…)`: an id has 1 to 256 characters. -/
def Pin.made (pin : Pin) : Except Raised Pin :=
  if 1 ≤ pin.id.length ∧ pin.id.length ≤ 256 then .ok pin else .error (.arp "STRING_LIMIT")

inductive EntryKind
  | capability
  | provider
  | deployment
  | tool
  | skill
  | schema
  | workflow
deriving DecidableEq

def EntryKind.pinKind : EntryKind → String
  | .capability => "capability"
  | .provider => "provider"
  | .deployment => "deployment"
  | .tool => "tool"
  | .skill => "skill"
  | .schema => "schema"
  | .workflow => "workflow"

def entryKinds : List EntryKind :=
  [.capability, .provider, .deployment, .tool, .skill, .schema, .workflow]

/-- The fields of a definition's body that the plane reads, each of the kinds that have it. -/
structure Definition where
  name : Option String
  toolId : Option String
  providerId : Option String
  capabilityId : Option String
  description : Option String
  providerRef : Pin
  requiredCapabilities : List Pin
  capabilityRef : Pin
  inputSchemaRef : Pin
  outputSchemaRef : Pin
  supportedCapabilities : List Pin
  platforms : List String
  fileSizes : List Nat
  /-- The text of the rest. -/
  rest : String
deriving DecidableEq

abbrev EntryKey := EntryKind × String × Nat

structure RevisionRow where
  entryKind : EntryKind
  entryId : String
  revision : Nat
  contentHash : String
  body : Definition
  sourceReceiptRef : Pin
deriving DecidableEq

def RevisionRow.pin (row : RevisionRow) : Pin :=
  ⟨row.entryKind.pinKind, row.entryId, row.revision, row.contentHash⟩

def RevisionRow.key (row : RevisionRow) : EntryKey := (row.entryKind, row.entryId, row.revision)

inductive LifecycleState
  | quarantined
  | trial
  | admitted
  | suspended
  | retired
deriving DecidableEq

def LifecycleState.transitions : LifecycleState → List LifecycleState
  | .quarantined => [.trial, .retired]
  | .trial => [.admitted, .suspended, .retired]
  | .admitted => [.suspended, .retired]
  | .suspended => [.trial, .admitted, .retired]
  | .retired => []

structure ActivationRow where
  entryKind : EntryKind
  entryId : String
  revision : Nat
  contentHash : String
  state : LifecycleState
  rowVersion : Nat
  authorityRef : Pin
  evaluationRef : Option Pin
  scopeRef : Pin
deriving DecidableEq

inductive Health
  | ready
  | unavailable
  | unknown
deriving DecidableEq

structure HealthRow where
  healthRevision : Nat
  health : Health
  registered : Bool
  configured : Bool
  compatible : Bool
  observedAtMs : Nat
  expiresAtMs : Nat
deriving DecidableEq

def HealthRow.category (row : HealthRow) : Bool × Bool × Bool × Bool :=
  (decide (row.health = .ready), row.registered, row.configured, row.compatible)

structure Registry where
  revisions : Dict EntryKey RevisionRow
  activations : Dict EntryKey ActivationRow
  health : Dict (String × Nat) HealthRow
  epoch : Nat
deriving DecidableEq

structure TrustedCaller where
  principalId : String
  commandReceiptRef : Pin
deriving DecidableEq

structure Service where
  namespaceId : String
  scopeRef : Pin
  digest : Definition → String
  authorityHash : TrustedCaller → Pin → String
  receiptHash : List String → Pin → TrustedCaller → String
  /-- The schema of the kind. -/
  check : EntryKind → Definition → Except Raised Unit

namespace Registry

section
variable (registry : Registry)

def readRevision (kind : EntryKind) (entryId : String) (revision : Nat) :
    Option RevisionRow :=
  get? registry.revisions (kind, entryId, revision)

def readActivation (kind : EntryKind) (entryId : String) (revision : Nat) :
    Option ActivationRow :=
  get? registry.activations (kind, entryId, revision)

def latestHealth (deploymentId : String) (revision : Nat) :
    Option HealthRow :=
  get? registry.health (deploymentId, revision)

def isLatest (row : RevisionRow) : Bool :=
  registry.revisions.all fun other =>
    !(other.2.entryKind = row.entryKind && other.2.entryId = row.entryId) ||
      other.2.revision ≤ row.revision

def latestRevision (kind : EntryKind) (entryId : String) :
    Option RevisionRow :=
  (registry.revisions.map (·.2)).find? fun row =>
    row.entryKind = kind && row.entryId = entryId && registry.isLatest row

def listLatest (kind : EntryKind) : List RevisionRow :=
  ((registry.revisions.map (·.2)).filter fun row =>
    row.entryKind = kind && registry.isLatest row).insertionSort (·.entryId ≤ ·.entryId)

def resolvePin (pin : Pin) : Except Raised RevisionRow :=
  match entryKinds.find? (·.pinKind = pin.kind) with
  | none => .error (.arp "REF_KIND_MISMATCH")
  | some kind =>
    match registry.readRevision kind pin.id pin.revision with
    | none => .error (.arp "REF_OUTSIDE_SCOPE")
    | some row =>
      if row.contentHash = pin.contentHash then .ok row
      else .error (.arp "REF_IDENTITY_MISMATCH")

end

end Registry

namespace Service
variable (service : Service)

def authority (caller : TrustedCaller) (source : Pin) : Except Raised Pin :=
  Pin.made ⟨"authority", "catalogue:" ++ caller.principalId ++ ":" ++ source.id, source.revision,
    service.authorityHash caller source⟩

def validateEntry (kind : EntryKind) (body : Definition) : Except Raised Unit :=
  if kind = .workflow then .error (.arp "WORKFLOW_UNAVAILABLE") else service.check kind body

section
variable (registry : Registry)

/-- `put_activation_locked`: a lifecycle row that is there is kept. -/
def putActivation (row : RevisionRow) (authorityRef : Pin) :
    Registry × ActivationRow :=
  match registry.readActivation row.entryKind row.entryId row.revision with
  | some existing => (registry, existing)
  | none =>
    let activation : ActivationRow := {
      entryKind := row.entryKind
      entryId := row.entryId
      revision := row.revision
      contentHash := row.contentHash
      state := .quarantined
      rowVersion := 1
      authorityRef
      evaluationRef := none
      scopeRef := service.scopeRef }
    ({ registry with activations := set registry.activations row.key activation }, activation)

def changed : Registry := { registry with epoch := registry.epoch + 1 }

structure Register where
  kind : EntryKind
  body : Definition
  entryId : String
  caller : TrustedCaller
  commandId : String
  revision : Option Nat
deriving DecidableEq

/-- The same body again is the latest revision, with no epoch step. -/
def register (command : Register) :
    Except Raised (Registry × RevisionRow × ActivationRow) := do
  service.validateEntry command.kind command.body
  let authorityRef ← service.authority command.caller command.caller.commandReceiptRef
  let latest := registry.latestRevision command.kind command.entryId
  match latest.filter fun row =>
      command.revision = none && row.contentHash = service.digest command.body with
  | some row =>
    let (registry, activation) := service.putActivation registry row authorityRef
    .ok (registry, row, activation)
  | none => do
    let target := command.revision.getD (latest.elim 1 (·.revision + 1))
    let receipt ← Pin.made ⟨"receipt", "catalogue:" ++ command.commandId, 0,
      service.receiptHash [command.commandId, command.entryId, toString target]
        ⟨command.kind.pinKind, command.entryId, target, ""⟩ command.caller⟩
    match registry.readRevision command.kind command.entryId target with
    | some existing =>
      if existing.contentHash ≠ service.digest command.body then
        .error (.arp "SOURCE_HASH_CONFLICT")
      else
        let (registry, activation) := service.putActivation registry existing authorityRef
        .ok (registry, existing, activation)
    | none =>
      if target = 0 then .error (.other "CHECK constraint failed")
      else
        let row : RevisionRow := {
          entryKind := command.kind
          entryId := command.entryId
          revision := target
          contentHash := service.digest command.body
          body := command.body
          sourceReceiptRef := receipt }
        let inserted := { registry with revisions := set registry.revisions row.key row }
        let (registry, activation) := service.putActivation inserted row authorityRef
        match row.pin.made with
        | .ok _ => .ok (changed registry, row, activation)
        | .error e => .error e

/-- What the tables of locks and of admissions say of a skill when its transition is made. -/
structure SkillFacts where
  lockComplete : Bool
  /-- The acceptance recorded for an evaluation. -/
  acceptance : Pin → Option Pin

structure Transition where
  pin : Pin
  state : LifecycleState
  caller : TrustedCaller
  commandId : String
  evaluationRef : Option Pin
  admissionRef : Option Pin
deriving DecidableEq

/-- `transition_activation_locked`, from another state. -/
def transitionActivation (current : ActivationRow) (command : Transition)
    (facts : SkillFacts) (authorityRef : Pin) : Except Raised (Registry × ActivationRow) := do
  require (∀ pin ∈ command.evaluationRef, pin.kind = "evaluation") (.arp "REF_KIND_MISMATCH")
  require (current.state ≠ .retired ∧ command.state ∈ current.state.transitions)
    (.arp "STATE_COMBINATION_INVALID")
  let keepEval := command.evaluationRef.or current.evaluationRef
  require (command.state = .admitted → current.entryKind = .skill →
      ∃ pin ∈ keepEval, command.admissionRef ≠ none ∧
        facts.acceptance pin = command.admissionRef) (.arp "SKILL_EVALUATION_INCOMPLETE")
  let row := { current with
    state := command.state
    rowVersion := current.rowVersion + 1
    authorityRef
    evaluationRef := keepEval }
  .ok ({ registry with
    activations :=
      set registry.activations (current.entryKind, current.entryId, current.revision) row }, row)

/-- A command that is sent again finds its outcome, with no second epoch. -/
def transition (command : Transition) (facts : SkillFacts) :
    Except Raised (Registry × ActivationRow) := do
  let revision ← registry.resolvePin command.pin
  match registry.readActivation revision.entryKind revision.entryId revision.revision with
  | none => .error (.arp "CATALOGUE_STALE")
  | some current =>
    if current.state = command.state then .ok (registry, current)
    else do
      require (revision.entryKind = .skill →
          command.state = .trial ∨ command.state = .admitted → facts.lockComplete = true)
        (.arp "DEPENDENCY_UNRESOLVED")
      let receipt ← Pin.made ⟨"receipt", "catalogue:" ++ command.commandId, 0,
        service.receiptHash [command.commandId] command.pin command.caller⟩
      let authorityRef ← service.authority command.caller receipt
      let (registry, row) ←
        transitionActivation registry current command facts authorityRef
      .ok (changed registry, row)

end

structure Probe where
  pin : Pin
  health : Health
  registered : Bool
  configured : Bool
  compatible : Bool
  ttlMs : Nat
  commandId : String
deriving DecidableEq

/-- Only a change of category advances the epoch. -/
def probe (registry : Registry) (command : Probe) (nowMs : Nat) :
    Except Raised (Registry × HealthRow) := do
  let revision ← registry.resolvePin command.pin
  let previous := registry.latestHealth revision.entryId revision.revision
  let _ ← Pin.made ⟨"receipt", "probe:" ++ command.commandId, 0, ""⟩
  require (command.pin.kind = "deployment") (.arp "ENUM")
  let row : HealthRow := {
    healthRevision := previous.elim 1 (·.healthRevision + 1)
    health := command.health
    registered := command.registered
    configured := command.configured
    compatible := command.compatible
    observedAtMs := nowMs
    expiresAtMs := nowMs + command.ttlMs }
  let probed := { registry with
    health := set registry.health (revision.entryId, revision.revision) row }
  if previous.map HealthRow.category = some row.category then .ok (probed, row)
  else .ok (changed probed, row)

end Service

end Catalogue
