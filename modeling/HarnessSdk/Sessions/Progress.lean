import HarnessSdk.Library.Checks

/-!
The progress of a session's destruction, and the one step that is allowed from what the two
directories look like.
-/
namespace Sessions
open Checks

inductive Raised
  | arp (code : String)
  | integrity (message : String)
deriving DecidableEq

/-- `Pin("receipt", …)`, by its kind and key. -/
structure Receipt where
  kind : String
  key : String
deriving DecidableEq

def Receipt.id (receipt : Receipt) : String := receipt.kind ++ ":" ++ receipt.key

/-- The name of a pin has at most 256 characters. -/
def Receipt.made (receipt : Receipt) : Except Raised Receipt :=
  if receipt.id.length ≤ 256 then .ok receipt else .error (.arp "STRING_LIMIT")

inductive Phase
  | draining
  | renamePending
  | renamed
  | deleteConfirmed
deriving DecidableEq

inductive BlockCode
  | dualDirectory
  | markerMismatch
  | deleteStateAmbiguous
  | fileBusy
  | ioError
deriving DecidableEq

inductive RetryMode
  | manual
  | sameDestroyBackoff
deriving DecidableEq

structure PurgeBlock where
  code : BlockCode
  observationRef : Receipt
  retryMode : RetryMode
  retryAtMs : Option Nat
  firstSeenAtMs : Nat
deriving DecidableEq

structure PurgeProgress where
  sessionId : String
  agentId : String
  rootIncarnation : String
  destroyCommandId : String
  destroyCommandHash : String
  destroyReceiptRef : Receipt
  controlGeneration : Nat
  sourceRelativeDirectory : String
  trashRelativeDirectory : String
  expectedMarkerHash : String
  phase : Phase
  renameReceiptRef : Option Receipt
  deleteReceiptRef : Option Receipt
  blocking : Option PurgeBlock
  inspectionReceiptRef : Option Receipt
deriving DecidableEq

def PurgeProgress.stepped (p : PurgeProgress) (phase : Phase) (rename delete : Option Receipt)
    (inspection : Receipt) : PurgeProgress :=
  { p with
    phase
    renameReceiptRef := rename
    deleteReceiptRef := delete
    blocking := none
    inspectionReceiptRef := some inspection }

def need (p : Prop) [Decidable p] (code : String := "PURGE_STATE_INVALID") : Except Raised Unit :=
  require p (.arp code)

@[simp] theorem need_eq_ok (p : Prop) [Decidable p] (code : String) :
    need p code = .ok () ↔ p :=
  require_eq_ok p _

/-- A relative path in its normal form: no empty part, no `.` and no `..`. -/
def validateRelativeDirectory (path : String) : Except Raised String := do
  need (path ≠ "")
  need ('/' ≠ path.toList.headD ' ' ∧ '\\' ∉ path.toList ∧ ':' ∉ path.toList)
  need (∀ part ∈ path.toList.splitOn '/', part ≠ [] ∧ part ≠ ['.'] ∧ part ≠ ['.', '.'])
  .ok path

def validateProgress (p : PurgeProgress) : Except Raised Unit := do
  let _ ← validateRelativeDirectory p.sourceRelativeDirectory
  let _ ← validateRelativeDirectory p.trashRelativeDirectory
  need (p.sourceRelativeDirectory ≠ p.trashRelativeDirectory)
  need (p.phase = .renamed ∨ p.phase = .deleteConfirmed → p.renameReceiptRef ≠ none)
  need (p.phase = .deleteConfirmed ↔ p.deleteReceiptRef ≠ none)
  need (p.phase = .draining ∨ p.phase = .renamePending → p.renameReceiptRef = none)
  match p.blocking with
  | none => .ok ()
  | some block => do
    need (p.inspectionReceiptRef ≠ none)
    need (block.retryMode =
      if block.code = .fileBusy then .sameDestroyBackoff else .manual)
    need (block.retryAtMs ≠ none ↔ block.retryMode = .sameDestroyBackoff)

inductive PathState
  | absent
  | match
  | mismatch
deriving DecidableEq

structure PurgePathObservation where
  sessionId : String
  destroyCommandId : String
  controlGeneration : Nat
  expectedMarkerHash : String
  sourceState : PathState
  trashState : PathState
  receiptRef : Receipt
deriving DecidableEq

inductive RecoveryAction
  | waitDisposalProof
  | renameExact
  | recordRecoveredRename
  | deleteExact
  | recordDeletionAbsence
  | finalizeSameDestroy
  | block (code : BlockCode)
deriving DecidableEq

def recoveryStep (phase : Phase) (source trash : PathState) : RecoveryAction :=
  if source = .mismatch ∨ trash = .mismatch then .block .markerMismatch
  else if source ≠ .absent ∧ trash ≠ .absent then .block .dualDirectory
  else if phase = .draining then .waitDisposalProof
  else if source = .match ∧ trash = .absent then
    if phase = .renamePending then .renameExact else .block .deleteStateAmbiguous
  else if source = .absent ∧ trash = .match then
    if phase = .renamePending then .recordRecoveredRename
    else if phase = .renamed then .deleteExact
    else .block .deleteStateAmbiguous
  else if phase = .renamed then .recordDeletionAbsence
  else if phase = .deleteConfirmed then .finalizeSameDestroy
  else .block .deleteStateAmbiguous

def recoveryAction (progress : PurgeProgress) (observation : PurgePathObservation) :
    Except Raised RecoveryAction := do
  validateProgress progress
  need (progress.sessionId = observation.sessionId) "PURGE_IDENTITY_MISMATCH"
  need (progress.destroyCommandId = observation.destroyCommandId) "PURGE_IDENTITY_MISMATCH"
  need (progress.controlGeneration = observation.controlGeneration) "PURGE_IDENTITY_MISMATCH"
  need (progress.expectedMarkerHash = observation.expectedMarkerHash) "PURGE_IDENTITY_MISMATCH"
  .ok (recoveryStep progress.phase observation.sourceState observation.trashState)

end Sessions
