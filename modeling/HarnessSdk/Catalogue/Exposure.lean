import HarnessSdk.Catalogue.Tables

/-!
Which definitions are usable, and the snapshot of the tools that one request is exposed to.
-/
namespace Catalogue
open Checks PyDict

def LifecycleState.text : LifecycleState → String
  | .quarantined => "QUARANTINED"
  | .trial => "TRIAL"
  | .admitted => "ADMITTED"
  | .suspended => "SUSPENDED"
  | .retired => "RETIRED"

def Health.text : Health → String
  | .ready => "READY"
  | .unavailable => "UNAVAILABLE"
  | .unknown => "UNKNOWN"

def Raised.code : Raised → String
  | .arp code => code
  | .other exception => exception

def Pin.upperKind (pin : Pin) : String := String.ofList (pin.kind.toList.map Char.toUpper)

namespace Registry

section
variable (registry : Registry)

def healthReasons (activation : ActivationRow) (nowMs : Nat) :
    List String :=
  match registry.latestHealth activation.entryId activation.revision with
  | none => ["HEALTH_UNKNOWN"]
  | some health =>
    if health.health ≠ .ready || !(health.registered && health.configured && health.compatible)
    then ["HEALTH_" ++ health.health.text]
    else if health.expiresAtMs < nowMs then ["HEALTH_EXPIRED"]
    else []

/-- The reasons that do not depend on other definitions; a deployment has no others. -/
def ownReasons (activation : ActivationRow) (nowMs : Nat) : List String :=
  (if activation.state ≠ .admitted then ["STATE_" ++ activation.state.text] else []) ++
    if activation.entryKind = .deployment then registry.healthReasons activation nowMs else []

def usableDeployments (providerPin : Pin) (nowMs : Nat) :
    List RevisionRow :=
  (registry.listLatest .deployment).filter fun row =>
    row.body.providerRef = providerPin &&
      match registry.readActivation .deployment row.entryId row.revision with
      | none => false
      | some activation => (registry.ownReasons activation nowMs).isEmpty

def providerReasons (providerPin : Pin) (nowMs : Nat) : List String :=
  match registry.resolvePin providerPin with
  | .error e => ["PROVIDER_" ++ e.code]
  | .ok provider =>
    match registry.readActivation .provider provider.entryId provider.revision with
    | none => ["PROVIDER_NOT_ADMITTED"]
    | some activation =>
      if activation.state ≠ .admitted then ["PROVIDER_NOT_ADMITTED"]
      else if (registry.usableDeployments provider.pin nowMs).isEmpty then
        ["NO_USABLE_DEPLOYMENT"]
      else []

def dependencyReasons (pin : Pin) : List String :=
  match registry.resolvePin pin with
  | .error e => [pin.upperKind ++ "_" ++ e.code]
  | .ok row =>
    match registry.readActivation row.entryKind row.entryId row.revision with
    | none => [pin.upperKind ++ "_NOT_ADMITTED:" ++ pin.id]
    | some activation =>
      if activation.state ≠ .admitted then [pin.upperKind ++ "_NOT_ADMITTED:" ++ pin.id] else []

/-- `usable`: the named reasons against the use of one revision, none when it is usable. -/
def reasons (activation : ActivationRow) (nowMs : Nat) : List String :=
  registry.ownReasons activation nowMs ++
    if activation.entryKind = .tool ∨ activation.entryKind = .skill then
      match registry.readRevision activation.entryKind activation.entryId activation.revision with
      | none => []
      | some row =>
        let skill := activation.entryKind = .skill
        (if skill then [] else registry.providerReasons row.body.providerRef nowMs) ++
          (row.body.requiredCapabilities ++ (if skill then [row.body.capabilityRef] else []) ++
            [row.body.inputSchemaRef, row.body.outputSchemaRef]).flatMap
              registry.dependencyReasons
    else []

end

end Registry

structure ExposedTool where
  modelName : String
  tool : RevisionRow
  activation : ActivationRow
  provider : RevisionRow
  schemaRef : Pin
deriving DecidableEq

namespace Registry

def exposes (registry : Registry) (name : String) (nowMs : Nat) :
    Except Raised (Option ExposedTool) :=
  match registry.latestRevision .tool name with
  | none => .ok none
  | some row =>
    match registry.readActivation .tool row.entryId row.revision with
    | none => .ok none
    | some activation =>
      if (registry.reasons activation nowMs).isEmpty then do
        let provider ← registry.resolvePin row.body.providerRef
        .ok (some ⟨name, row, activation, provider, row.body.inputSchemaRef⟩)
      else .ok none

def renamed (exposed : List ExposedTool) : List ExposedTool :=
  exposed.map fun item =>
    if (exposed.filter (·.modelName = item.modelName)).length = 1 then item
    else { item with
      modelName := item.modelName ++ "-" ++
        String.ofList (item.tool.contentHash.toList.take 8) }

def exposed (registry : Registry) (requested : List String) (nowMs : Nat) :
    Except Raised (List ExposedTool) := do
  let found ← (requested.dedup.insertionSort (· ≤ ·)).mapM fun name =>
    registry.exposes name nowMs
  .ok (renamed (found.filterMap id))

end Registry

structure ToolEntry where
  modelName : String
  toolRef : Pin
  schemaRef : Pin
  providerRef : Pin
  effectiveAuthorityRefs : List Pin
deriving DecidableEq

/-- The digest of these is the id of a snapshot; the witness of a tool is the digest of its
lifecycle row. -/
structure SnapshotId where
  sessionId : String
  generation : Nat
  epoch : Nat
  catalogue : List (Pin × Pin × Pin × ActivationRow)
deriving DecidableEq

structure ToolSnapshot where
  snapshotId : SnapshotId
  tools : List ToolEntry
deriving DecidableEq

structure Plane where
  registry : Registry
  exposures : Dict SnapshotId ToolSnapshot
deriving DecidableEq

structure Prepare where
  sessionId : String
  generation : Nat
  requested : List String
  authorityRefs : List Pin
  nowMs : Nat
deriving DecidableEq

def ExposedTool.entry (authorityRefs : List Pin) (item : ExposedTool) : ToolEntry :=
  ⟨item.modelName, item.tool.pin, item.schemaRef, item.provider.pin, authorityRefs⟩

def ExposedTool.witness (item : ExposedTool) : Pin × Pin × Pin × ActivationRow :=
  (item.tool.pin, item.schemaRef, item.provider.pin, item.activation)

def ToolSnapshot.Valid (snapshot : ToolSnapshot) : Prop :=
  1 ≤ snapshot.snapshotId.generation ∧ snapshot.tools.length ≤ 256 ∧
    ∀ tool ∈ snapshot.tools, 1 ≤ tool.modelName.length ∧ tool.modelName.length ≤ 256 ∧
      tool.schemaRef.kind = "schema" ∧ tool.providerRef.kind = "provider" ∧
      tool.effectiveAuthorityRefs.length ≤ 32 ∧
      ∀ pin ∈ tool.effectiveAuthorityRefs, pin.kind = "authority"

instance (snapshot : ToolSnapshot) : Decidable snapshot.Valid :=
  inferInstanceAs (Decidable (_ ∧ _))

def Plane.snapshot (plane : Plane) (request : Prepare) (tools : List ExposedTool) :
    ToolSnapshot where
  snapshotId := {
    sessionId := request.sessionId
    generation := request.generation
    epoch := plane.registry.epoch
    catalogue := tools.map ExposedTool.witness }
  tools := tools.map (ExposedTool.entry request.authorityRefs)

/-- `prepare`: a snapshot id that is recorded with another body is refused. -/
def Plane.prepare (plane : Plane) (request : Prepare) : Except Raised (Plane × ToolSnapshot) := do
  let tools ← plane.registry.exposed request.requested request.nowMs
  let value := plane.snapshot request tools
  require value.Valid (.arp "SCHEMA")
  match get? plane.exposures value.snapshotId with
  | none =>
    .ok ({ plane with exposures := set plane.exposures value.snapshotId value }, value)
  | some existing =>
    if existing = value then .ok (plane, value) else .error (.arp "SOURCE_HASH_CONFLICT")

end Catalogue
