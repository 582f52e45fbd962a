import HarnessSdk.Sessions.Progress

/-!
The rows of sessions and of their jobs: the updates the store makes, and what the tables allow.
A column that no update sets and no rule compares is left out.
-/
namespace Sessions
open Checks

inductive SessionState
  | creating
  | active
  | draining
  | purging
  | purged
  | quarantined
deriving DecidableEq

structure SessionRow where
  sessionId : String
  agentId : String
  rootIncarnation : String
  relativeDirectory : String
  state : SessionState
  generation : Nat
  rowVersion : Nat
  journalSeqFrom : Nat
  sealedHighwater : Option Nat
  destroyCommandId : Option String
  destroyCommandHash : Option String
  purgeProgress : Option PurgeProgress
  deleteProofRef : Option Receipt
  createdAtMs : Nat
  updatedAtMs : Nat
deriving DecidableEq

namespace SessionRow

/-- The checks of `arp_agent_sessions`. -/
def Checked (row : SessionRow) : Prop :=
  0 < row.generation ∧ 0 < row.rowVersion ∧ 0 < row.journalSeqFrom ∧
    (∀ n ∈ row.sealedHighwater, row.journalSeqFrom - 1 ≤ n) ∧
    row.createdAtMs ≤ row.updatedAtMs ∧
    (row.destroyCommandId = none ↔ row.destroyCommandHash = none) ∧
    (row.state = .purging ∨ row.state = .purged →
      row.sealedHighwater ≠ none ∧ row.deleteProofRef ≠ none)

instance (row : SessionRow) : Decidable row.Checked :=
  inferInstanceAs (Decidable (_ ∧ _))

/-- The states one update can lead to. -/
def follows : SessionState → SessionState → Bool
  | .creating, .active | .creating, .draining | .creating, .quarantined => true
  | .active, .draining | .active, .quarantined => true
  | .quarantined, .active | .quarantined, .draining => true
  | .draining, .purging => true
  | .purging, .purged => true
  | old, new => old = new

/-- A state without a destroy identity. -/
def kept (state : SessionState) : Prop :=
  state = .active ∨ state = .creating ∨ state = .quarantined

instance (state : SessionState) : Decidable (kept state) := inferInstanceAs (Decidable (_ ∨ _))

/-- The trigger `arp_session_transition`. -/
def Transition (old new : SessionRow) : Prop :=
  new.rowVersion = old.rowVersion + 1 ∧ old.generation ≤ new.generation ∧
    old.state ≠ .purged ∧
    (old.destroyCommandId ≠ none →
      new.destroyCommandId = old.destroyCommandId ∧
        new.destroyCommandHash = old.destroyCommandHash ∧ new.generation = old.generation ∧
        ¬ kept new.state) ∧
    (kept new.state → new.destroyCommandId = none) ∧
    follows old.state new.state = true ∧
    ((new.state = .draining ∨ new.state = .quarantined) → new.state ≠ old.state →
      new.generation = old.generation + 1)

instance (old new : SessionRow) : Decidable (Transition old new) :=
  inferInstanceAs (Decidable (_ ∧ _))

/-- The trigger `arp_session_identity`. -/
def Identity (old new : SessionRow) : Prop :=
  (old.sealedHighwater ≠ none → new.sealedHighwater = old.sealedHighwater) ∧
    (new.state = old.state → new.generation = old.generation)

instance (old new : SessionRow) : Decidable (Identity old new) :=
  inferInstanceAs (Decidable (_ ∧ _))

def phases : SessionState → List Phase
  | .draining => [.draining]
  | .purging => [.renamePending, .renamed, .deleteConfirmed]
  | .purged => [.deleteConfirmed]
  | _ => []

def destroyed (state : SessionState) : Prop :=
  state = .draining ∨ state = .purging ∨ state = .purged

instance (state : SessionState) : Decidable (destroyed state) :=
  inferInstanceAs (Decidable (_ ∨ _))

/-- The trigger `arp_purge_progress_shape`. -/
def Shape (row : SessionRow) : Prop :=
  match row.purgeProgress with
  | none => ¬ destroyed row.state
  | some p =>
    destroyed row.state ∧ row.destroyCommandId = some p.destroyCommandId ∧
      row.destroyCommandHash = some p.destroyCommandHash ∧ p.sessionId = row.sessionId ∧
      p.agentId = row.agentId ∧ p.rootIncarnation = row.rootIncarnation ∧
      p.controlGeneration = row.generation ∧ p.phase ∈ phases row.state ∧
      (row.state = .purged → p.deleteReceiptRef ≠ none ∧ p.blocking = none)

instance (row : SessionRow) : Decidable row.Shape := by
  unfold Shape
  cases row.purgeProgress with
  | none => exact inferInstanceAs (Decidable (¬ _))
  | some p => exact inferInstanceAs (Decidable (_ ∧ _))

/-- One step of the phases, or none. -/
def forth : Phase → Phase → Bool
  | .renamePending, .renamed => true
  | .renamed, .deleteConfirmed => true
  | old, new => old = new

/-- The trigger `arp_purge_progress_identity`. -/
def ProgressIdentity (old new : SessionRow) : Prop :=
  ∀ p ∈ old.purgeProgress, ∃ p' ∈ new.purgeProgress,
    p'.sourceRelativeDirectory = p.sourceRelativeDirectory ∧
      p'.trashRelativeDirectory = p.trashRelativeDirectory ∧
      p'.expectedMarkerHash = p.expectedMarkerHash ∧
      p'.destroyReceiptRef = p.destroyReceiptRef ∧
      (old.state = .draining → new.state = .purging → p'.phase = .renamePending) ∧
      (p.renameReceiptRef ≠ none → p'.renameReceiptRef = p.renameReceiptRef) ∧
      (p.deleteReceiptRef ≠ none → p'.deleteReceiptRef = p.deleteReceiptRef) ∧
      (old.state = .purging → forth p.phase p'.phase = true)

instance (old new : SessionRow) : Decidable (ProgressIdentity old new) :=
  inferInstanceAs (Decidable (∀ p ∈ old.purgeProgress, ∃ p' ∈ new.purgeProgress, _))

end SessionRow

/-- What one update sets, where it sets anything. -/
structure SessionChange where
  nowMs : Nat
  state : Option SessionState := none
  generation : Option Nat := none
  sealedHighwater : Option Nat := none
  destroyCommand : Option (String × String) := none
  purgeProgress : Option PurgeProgress := none
  deleteProofRef : Option Receipt := none

def SessionChange.set (change : SessionChange) (row : SessionRow) : SessionRow :=
  { row with
    state := change.state.getD row.state
    generation := change.generation.getD row.generation
    rowVersion := row.rowVersion + 1
    updatedAtMs := max change.nowMs row.createdAtMs
    sealedHighwater := change.sealedHighwater.or row.sealedHighwater
    destroyCommandId := (change.destroyCommand.map (·.1)).or row.destroyCommandId
    destroyCommandHash := (change.destroyCommand.map (·.2)).or row.destroyCommandHash
    purgeProgress := change.purgeProgress.or row.purgeProgress
    deleteProofRef := change.deleteProofRef.or row.deleteProofRef }

def SessionChange.progressValid (change : SessionChange) : Except Raised Unit :=
  match change.purgeProgress with
  | none => .ok ()
  | some p => validateProgress p

/-- One compare-and-set on the row version; what the table refuses comes back as an `ArpError`. -/
def transitionSession (stored current : SessionRow) (change : SessionChange) :
    Except Raised SessionRow := do
  change.progressValid
  need (stored.rowVersion = current.rowVersion) "GENERATION_STALE"
  let row := change.set stored
  need (row.Shape ∧ SessionRow.ProgressIdentity stored row)
  need (SessionRow.Transition stored row ∧ SessionRow.Identity stored row ∧ row.Checked)
    "STATE_COMBINATION_INVALID"
  .ok row

inductive JobKind
  | index
  | purge
  | bindImport
deriving DecidableEq

inductive JobState
  | pending
  | leased
  | done
  | blocked
  | cancelled
deriving DecidableEq

structure JobRow where
  jobId : String
  sessionId : String
  kind : JobKind
  semanticKey : String
  /-- The control generation its payload was made for. -/
  controlGeneration : Nat
  payloadHash : String
  generation : Nat
  state : JobState
  rowVersion : Nat
  attempts : Nat
  nextAtMs : Nat
  deadlineMs : Nat
  ownerId : Option String
  leaseUntilMs : Option Nat
  resultReceiptRef : Option Receipt
deriving DecidableEq

namespace JobRow

/-- The checks of `arp_jobs`. -/
def Checked (row : JobRow) : Prop :=
  0 < row.generation ∧ 0 < row.rowVersion ∧ row.nextAtMs ≤ row.deadlineMs ∧
    (row.state = .leased ↔ row.ownerId ≠ none ∧ row.leaseUntilMs ≠ none) ∧
    (row.state = .done → row.resultReceiptRef ≠ none)

instance (row : JobRow) : Decidable row.Checked := inferInstanceAs (Decidable (_ ∧ _))

/-- The states one update can lead to. -/
def follows : JobState → JobState → Bool
  | .pending, .leased | .pending, .blocked | .pending, .cancelled => true
  | .leased, .pending | .leased, .done | .leased, .blocked | .leased, .cancelled => true
  | .blocked, .pending | .blocked, .cancelled => true
  | old, new => old = new

/-- The trigger `arp_job_transition`. -/
def Transition (old new : JobRow) : Prop :=
  new.rowVersion = old.rowVersion + 1 ∧ old.attempts ≤ new.attempts ∧
    old.state ≠ .done ∧ old.state ≠ .cancelled ∧ new.sessionId = old.sessionId ∧
    new.kind = old.kind ∧ new.semanticKey = old.semanticKey ∧
    new.payloadHash = old.payloadHash ∧ new.generation = old.generation ∧
    follows old.state new.state = true

instance (old new : JobRow) : Decidable (Transition old new) :=
  inferInstanceAs (Decidable (_ ∧ _))

end JobRow

def updateJob (old new : JobRow) : Except Raised JobRow := do
  require (JobRow.Transition old new) (.integrity "invalid job state")
  require new.Checked (.integrity "CHECK constraint failed")
  .ok new

def JobRow.completed (row : JobRow) (state : JobState) (result : Option Receipt)
    (nextAtMs : Option Nat) : JobRow :=
  { row with
    state
    rowVersion := row.rowVersion + 1
    nextAtMs := nextAtMs.getD row.nextAtMs
    ownerId := none
    leaseUntilMs := none
    resultReceiptRef := result }

/-- `complete_job_locked`: `current` is the row as the caller has read it. -/
def completeJob (stored current : JobRow) (state : JobState) (ownerId : String)
    (result : Option Receipt) (nextAtMs : Option Nat) : Except Raised JobRow := do
  need (state ≠ .leased) "ENUM"
  need (state = .done → result ≠ none) "MISSING_FIELD"
  need (current.state = .leased → current.ownerId = some ownerId) "JOB_STALE"
  need (stored.rowVersion = current.rowVersion) "JOB_STALE"
  updateJob stored (stored.completed state result nextAtMs)

end Sessions
