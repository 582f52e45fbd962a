import HarnessSdk.Sessions.Destruction
import HarnessSdk.Library.Dict

/-!
The two tables as every transaction of the coordinator and of the lifecycle service leaves them. An
update that a table refuses rolls its transaction back.
-/
namespace Sessions
open Checks PyDict

abbrev JobKey := String × JobKind × String

/-- The job id is a digest of this key. -/
def JobRow.key (job : JobRow) : JobKey := (job.sessionId, job.kind, job.semanticKey)

structure Ledger where
  sessions : Dict String SessionRow
  jobs : Dict JobKey JobRow
  /-- The session of each recorded destroy command. -/
  destroys : Dict String String
  /-- The rows that claims have handed to a worker and that it has not answered. -/
  claimed : List JobRow

inductive Update
  | session (old new : SessionRow)
  | job (old new : JobRow)

/-- What the checks and the triggers ask of an update. -/
def Update.Admitted (ledger : Ledger) : Update → Prop
  | .session old new =>
    (new.Shape ∧ SessionRow.ProgressIdentity old new) ∧ SessionRow.Transition old new ∧
      SessionRow.Identity old new ∧ new.Checked ∧
      ∀ entry ∈ ledger.sessions, entry.1 ≠ new.sessionId →
        new.destroyCommandId = none ∨ entry.2.destroyCommandId ≠ new.destroyCommandId
  | .job old new => JobRow.Transition old new ∧ new.Checked

instance (ledger : Ledger) (update : Update) : Decidable (update.Admitted ledger) := by
  cases update with
  | session old new => exact inferInstanceAs (Decidable (_ ∧ _))
  | job old new => exact inferInstanceAs (Decidable (_ ∧ _))

/-- Why a transaction is rolled back: by the service, or because a table refuses an update. -/
inductive Failure
  | arp (code : String)
  | refused (update : Update)

/-- What the caller sees: only a session's refused update is wrapped. -/
def Failure.raised : Failure → Raised
  | .arp code => .arp code
  | .refused (.session _ _) => .arp "STATE_COMBINATION_INVALID"
  | .refused (.job _ _) => .integrity "invalid job state"

/-- What nothing but the service itself can raise. -/
def checked {α : Type} : Except Raised α → Except Failure α
  | .ok a => .ok a
  | .error (.arp code) => .error (.arp code)
  | .error (.integrity message) => .error (.arp message)

namespace Ledger

section
variable (ledger : Ledger)

def write (update : Update) : Except Failure Ledger :=
  if update.Admitted ledger then
    match update with
    | .session _ new => .ok { ledger with sessions := set ledger.sessions new.sessionId new }
    | .job _ new => .ok { ledger with jobs := set ledger.jobs new.key new }
  else .error (.refused update)

/-! ## Sessions -/

/-- The row a caller has read earlier is the stored one, or its update finds another version. -/
def session (sessionId : String) (version : Nat) : Except Failure SessionRow :=
  match get? ledger.sessions sessionId with
  | none => .error (.arp "SESSION_NOT_ACTIVE")
  | some row => if row.rowVersion = version then .ok row else .error (.arp "GENERATION_STALE")

def transition (stored : SessionRow) (change : SessionChange) :
    Except Failure (Ledger × SessionRow) := do
  checked change.progressValid
  let ledger ← ledger.write (.session stored (change.set stored))
  .ok (ledger, change.set stored)

/-- `insert_session_locked`, where there is no row yet. -/
def create (sessionId agentId rootIncarnation relativeDirectory : String)
    (nowMs : Nat) : Ledger :=
  match get? ledger.sessions sessionId with
  | some _ => ledger
  | none =>
    { ledger with sessions := set ledger.sessions sessionId {
        sessionId
        agentId
        rootIncarnation
        relativeDirectory
        state := .creating
        generation := 1
        rowVersion := 1
        journalSeqFrom := 1
        sealedHighwater := none
        destroyCommandId := none
        destroyCommandHash := none
        purgeProgress := none
        deleteProofRef := none
        createdAtMs := nowMs
        updatedAtMs := nowMs } }

def activate (sessionId : String) (version nowMs : Nat) :
    Except Failure Ledger := do
  let row ← ledger.session sessionId version
  if row.state = .creating then
    let (ledger, _) ← ledger.transition row { nowMs, state := some .active }
    .ok ledger
  else .ok ledger

/-! ## Jobs -/

/-- `UPDATE … WHERE job_id=? AND row_version=?`, from the row as it was read. -/
def amendJob (read : JobRow) (change : JobRow → JobRow) :
    Except Failure (Option (Ledger × JobRow)) :=
  match get? ledger.jobs read.key with
  | none => .ok none
  | some stored =>
    if stored.rowVersion = read.rowVersion then
      match ledger.write (.job stored (change stored)) with
      | .ok ledger => .ok (some (ledger, change stored))
      | .error failure => .error failure
    else .ok none

def putJob (fresh : JobRow) : Except Failure Ledger :=
  match get? ledger.jobs fresh.key with
  | some existing =>
    if existing.payloadHash = fresh.payloadHash then .ok ledger
    else .error (.arp "SOURCE_HASH_CONFLICT")
  | none => .ok { ledger with jobs := set ledger.jobs fresh.key fresh }

def complete (job : JobRow) (state : JobState) (ownerId : String)
    (result : Option Receipt) (nextAtMs : Option Nat) : Except Failure Ledger := do
  require (state ≠ .leased) (.arp "ENUM")
  require (state = .done → result ≠ none) (.arp "MISSING_FIELD")
  require (job.state = .leased → job.ownerId = some ownerId) (.arp "JOB_STALE")
  match ← ledger.amendJob job (·.completed state result nextAtMs) with
  | none => .error (.arp "JOB_STALE")
  | some (ledger, _) => .ok ledger

def current (job : JobRow) : JobRow := (get? ledger.jobs job.key).getD job

def finish (job : JobRow) (state : JobState) (ownerId : String)
    (nextAtMs : Option Nat) : Except Failure Ledger :=
  ledger.complete (ledger.current job) state ownerId
    (if state = .pending then none else some ⟨"job", job.jobId⟩) nextAtMs

end

/-! ## Claims -/

end Ledger

def JobRow.released (job : JobRow) : JobRow :=
  { job with
    state := .pending
    rowVersion := job.rowVersion + 1
    ownerId := none
    leaseUntilMs := none }

def JobRow.leasedTo (ownerId : String) (leaseUntilMs : Nat) (job : JobRow) : JobRow :=
  { job with
    state := .leased
    rowVersion := job.rowVersion + 1
    attempts := job.attempts + 1
    ownerId := some ownerId
    leaseUntilMs := some leaseUntilMs }

/-- One pass of a coordinator: at most so many jobs, of one session where it names one. -/
structure Pass where
  ownerId : String
  nowMs : Nat
  limit : Nat
  perSession : Nat
  scope : Option String

def Pass.due (pass : Pass) (job : JobRow) : Bool :=
  (job.state = .pending && job.nextAtMs ≤ pass.nowMs ||
    job.state = .leased && job.leaseUntilMs.any (· < pass.nowMs)) &&
    pass.scope.all (· = job.sessionId)

/-- `ORDER BY next_at_ms, job_id` -/
def JobRow.before (job job' : JobRow) : Prop :=
  job.nextAtMs < job'.nextAtMs ∨ job.nextAtMs = job'.nextAtMs ∧ job.jobId ≤ job'.jobId

instance : DecidableRel JobRow.before := fun _ _ => inferInstanceAs (Decidable (_ ∨ _))

namespace Ledger

def candidates (ledger : Ledger) (pass : Pass) : List JobRow :=
  (((ledger.jobs.map (·.2)).filter pass.due).insertionSort JobRow.before).take (pass.limit * 4)

/-- One candidate: an expired lease is released first. -/
def claimOne (ledger : Ledger) (pass : Pass) (job : JobRow) :
    Except Failure (Ledger × Option JobRow) := do
  let released ←
    if job.state = .leased then ledger.amendJob job JobRow.released
    else .ok (some (ledger, job))
  match released with
  | none => .ok (ledger, none)
  | some (ledger, job) =>
    if job.state = .pending then
      match ← ledger.amendJob job (JobRow.leasedTo pass.ownerId (pass.nowMs + leaseMs)) with
      | none => .ok (ledger, none)
      | some (ledger, job) => .ok (ledger, some job)
    else .ok (ledger, none)

def claimEach (pass : Pass) (claimed : List JobRow) :
    List JobRow → Ledger → Except Failure (Ledger × List JobRow)
  | [], ledger => .ok (ledger, claimed)
  | job :: rest, ledger =>
    if pass.limit ≤ claimed.length ∨
        pass.perSession ≤ (claimed.filter (·.sessionId = job.sessionId)).length then
      claimEach pass claimed rest ledger
    else do
      let (ledger, leased) ← ledger.claimOne pass job
      claimEach pass (claimed ++ leased.toList) rest ledger

def claim (ledger : Ledger) (pass : Pass) : Except Failure Ledger := do
  let (ledger, rows) ← claimEach pass [] (ledger.candidates pass) ledger
  .ok { ledger with claimed := ledger.claimed ++ rows }

/-! ## What a session's transactions do to its jobs -/

def cancelEach (ownerId : String) : List JobRow → Ledger → Except Failure Ledger
  | [], ledger => .ok ledger
  | job :: rest, ledger => do
    let ledger ← ledger.finish job .cancelled ownerId none
    cancelEach ownerId rest ledger

def queued (sessionId : String) (job : JobRow) : Bool :=
  job.sessionId = sessionId && job.kind != .purge &&
    (job.state = .pending || job.state = .blocked)

/-- `_cancel_queued_jobs_locked`: work that never started stops here. -/
def cancelQueued (ledger : Ledger) (ownerId sessionId : String) : Except Failure Ledger :=
  cancelEach ownerId ((ledger.jobs.map (·.2)).filter (queued sessionId)) ledger

end Ledger

def indexDeadlineMs : Nat := 300000

/-- An index job for a closed group, by its key and the hash of its payload. -/
def indexJob (service : Service) (row : SessionRow) (nowMs : Nat) (group : String × String) :
    JobRow where
  jobId := service.jobId row.sessionId group.1
  sessionId := row.sessionId
  kind := .index
  semanticKey := group.1
  controlGeneration := row.generation
  payloadHash := group.2
  generation := row.generation
  state := .pending
  rowVersion := 1
  attempts := 0
  nextAtMs := nowMs
  deadlineMs := nowMs + indexDeadlineMs
  ownerId := none
  leaseUntilMs := none
  resultReceiptRef := none

namespace Ledger

/-- `enqueue_closed_groups_locked`: a group that has a job is passed over. -/
def enqueueEach (service : Service) (row : SessionRow) (nowMs : Nat) :
    List (String × String) → Ledger → Except Failure Ledger
  | [], ledger => .ok ledger
  | group :: rest, ledger =>
    if (get? ledger.jobs (row.sessionId, .index, group.1)).isSome then
      enqueueEach service row nowMs rest ledger
    else do
      let ledger ← ledger.putJob (indexJob service row nowMs group)
      enqueueEach service row nowMs rest ledger

section
variable (service : Service) (ledger : Ledger)

/-- The jobs are of the generation that the caller has read, which may be an earlier one. -/
def enqueue (sessionId : String) (generation : { n // 0 < n }) (nowMs : Nat)
    (groups : List (String × String)) : Except Failure Ledger :=
  match get? ledger.sessions sessionId with
  | none => .error (.arp "SESSION_NOT_ACTIVE")
  | some row => enqueueEach service { row with generation } nowMs groups ledger

def quarantine (sessionId : String) (version nowMs : Nat) :
    Except Failure Ledger := do
  let row ← ledger.session sessionId version
  require (row.state = .active) (.arp (Service.notDestroyable row.state))
  let (ledger, after) ← ledger.transition row {
    nowMs
    state := some .quarantined
    generation := some (row.generation + 1) }
  ledger.cancelQueued service.ownerId after.sessionId

/-- QUARANTINED → ACTIVE, with the groups of the journal enqueued again. -/
def rebuild (sessionId : String)
    (version expectedGeneration nowMs : Nat) (groups : List (String × String)) :
    Except Failure Ledger := do
  let row ← ledger.session sessionId version
  require (row.destroyCommandId = none ∧ row.purgeProgress = none)
    (.arp (Service.notDestroyable row.state))
  require (row.state = .quarantined) (.arp "STATE_COMBINATION_INVALID")
  require (row.generation = expectedGeneration) (.arp "GENERATION_STALE")
  let (ledger, after) ← ledger.transition row { nowMs, state := some .active }
  enqueueEach service after nowMs groups ledger

/-- The transaction of `destroy`: the receipt of the command is of one session. -/
def destroy (command : DestroyCommand)
    (version nowMs : Nat) : Except Failure Ledger := do
  let row ← ledger.session command.sessionId version
  let change ← checked (service.destroyChange command nowMs row)
  require ((get? ledger.destroys command.commandId).getD row.sessionId = row.sessionId)
    (.arp "SOURCE_HASH_CONFLICT")
  let recorded := { ledger with destroys := set ledger.destroys command.commandId row.sessionId }
  let (ledger, after) ← recorded.transition row change
  ledger.cancelQueued service.ownerId after.sessionId

def seals (sessionId : String) (version : Nat)
    (force : Bool) (nowMs : Nat) (readings : Readings) : Except Failure Ledger := do
  let row ← ledger.session sessionId version
  match row.destroyCommandId, row.purgeProgress with
  | some commandId, some progress =>
    if Service.heldBack progress.blocking force nowMs || row.state != .draining then .ok ledger
    else do
      let (_, allSafe) ← checked (service.captureDisposal row commandId readings)
      if allSafe then do
        let proof ← checked
          (Receipt.mk "session_disposal" (row.sessionId ++ ":" ++ commandId)).made
        let (ledger, after) ← ledger.transition row
          (Service.sealedChange progress proof readings.journalHighwater nowMs)
        let _ ← checked (Receipt.mk "disposal" (row.sessionId ++ ":" ++ commandId)).made
        ledger.putJob (service.purgeJob after commandId nowMs)
      else .ok ledger
  | _, _ => .error (.arp "PURGE_STATE_INVALID")

end

end Ledger

/-- The progress that the step of a PURGING session records, and the state where it changes. -/
def decided (row : SessionRow) (progress : PurgeProgress) (commandId : String)
    (inspection : Receipt) (nowMs : Nat) (io : Option IoCode) :
    RecoveryAction → Except Raised (PurgeProgress × Option SessionState)
  | .renameExact =>
    match io with
    | some io => .ok (Service.blockedProgress progress inspection io.block nowMs, none)
    | none => renamed
  | .recordRecoveredRename => renamed
  | .deleteExact =>
    match io with
    | some io => .ok (Service.blockedProgress progress inspection io.block nowMs, none)
    | none => deleted
  | .recordDeletionAbsence => deleted
  | .finalizeSameDestroy =>
    .ok (progress.stepped progress.phase progress.renameReceiptRef progress.deleteReceiptRef
      inspection, some .purged)
  | .block code => .ok (Service.blockedProgress progress inspection code nowMs, none)
  | .waitDisposalProof => .error (.arp "PURGE_STATE_INVALID")
where
  renamed := do
    let rename ← (Receipt.mk "purge_rename" (row.sessionId ++ ":" ++ commandId)).made
    .ok (progress.stepped .renamed (some rename) progress.deleteReceiptRef inspection, none)
  deleted := do
    let delete ← (Receipt.mk "purge_delete" (row.sessionId ++ ":" ++ commandId)).made
    .ok (progress.stepped .deleteConfirmed progress.renameReceiptRef (some delete) inspection,
      none)

/-- What a step of a PURGING session sees of the directories, and how its action ends. -/
structure Sight where
  source : PathState
  trash : PathState
  io : Option IoCode

namespace Ledger

def record (ledger : Ledger) (sessionId : String) (version : Nat) (force : Bool) (nowMs : Nat)
    (sight : Sight) : Except Failure Ledger := do
  let row ← ledger.session sessionId version
  match row.destroyCommandId, row.purgeProgress with
  | some commandId, some progress =>
    if Service.heldBack progress.blocking force nowMs || row.state != .purging then .ok ledger
    else do
      let inspection ← checked
        (Receipt.mk "purge_observation" (Service.stepKey row commandId)).made
      let action ← checked (recoveryAction progress {
        sessionId := row.sessionId
        destroyCommandId := commandId
        controlGeneration := row.generation
        expectedMarkerHash := progress.expectedMarkerHash
        sourceState := sight.source
        trashState := sight.trash
        receiptRef := inspection })
      let (after, state) ←
        checked (decided row progress commandId inspection nowMs sight.io action)
      let (ledger, _) ← ledger.transition row { nowMs, state, purgeProgress := some after }
      .ok ledger
  | _, _ => .error (.arp "PURGE_STATE_INVALID")

end Ledger

/-! ## Answers -/

inductive Outcome
  /-- No handler takes jobs of its kind. -/
  | unhandled
  | indexed
  | cancelled
  | blocked
  | fileBusy
  /-- The step of a purge ended in this row. -/
  | advanced (after : SessionRow)
deriving DecidableEq

def Outcome.answer (nowMs : Nat) : Outcome → JobState × Option Nat
  | .unhandled => (.pending, some (nowMs + leaseMs))
  | .indexed => (.done, none)
  | .cancelled => (.cancelled, none)
  | .blocked => (.blocked, none)
  | .fileBusy => (.pending, some (nowMs + leaseMs))
  | .advanced after =>
    if after.state = .purged then (.done, none)
    else
      match after.purgeProgress.bind (·.blocking) with
      | none => (.pending, some nowMs)
      | some block =>
        if block.retryMode = .sameDestroyBackoff then (.pending, block.retryAtMs)
        else (.blocked, none)

namespace Ledger

/-- The answer to a claim. Only a job without a handler is given back by the row that was claimed;
all others read it again. -/
def answers (ledger : Ledger) (n nowMs : Nat) (outcome : Outcome) : Except Failure Ledger :=
  match ledger.claimed[n]? with
  | none => .ok ledger
  | some job => do
    let (state, nextAtMs) := outcome.answer nowMs
    let ownerId := job.ownerId.getD ""
    let answered ←
      if outcome = .unhandled then ledger.complete job state ownerId none nextAtMs
      else ledger.finish job state ownerId nextAtMs
    .ok { answered with claimed := answered.claimed.eraseIdx n }

def dueAgain (after : SessionRow) (nowMs : Nat) : Option Nat :=
  match after.purgeProgress.bind (·.blocking) with
  | none => some nowMs
  | some block => block.retryAtMs

/-- `_requeue_purge_job`, with the row that the resumed step ended in. -/
def requeue (service : Service) (ledger : Ledger) (after : SessionRow) (nowMs : Nat) :
    Except Failure Ledger :=
  match after.destroyCommandId with
  | none => .ok ledger
  | some commandId =>
    if after.state ≠ .purging then .ok ledger
    else
      match get? ledger.jobs (after.sessionId, .purge, commandId) with
      | none => .ok ledger
      | some job =>
        if job.state = .blocked ∨ job.state = .pending then
          match dueAgain after nowMs with
          | none => .ok ledger
          | some nextAtMs =>
            ledger.complete job .pending service.ownerId none (some nextAtMs)
        else .ok ledger

end Ledger

inductive Write
  | create (sessionId agentId rootIncarnation relativeDirectory : String) (nowMs : Nat)
  | activate (sessionId : String) (version nowMs : Nat)
  | quarantine (sessionId : String) (version nowMs : Nat)
  | rebuild (sessionId : String) (version expectedGeneration nowMs : Nat)
      (groups : List (String × String))
  | destroy (command : DestroyCommand) (version nowMs : Nat)
  | cancelQueued (sessionId : String)
  | seals (sessionId : String) (version : Nat) (force : Bool) (nowMs : Nat) (readings : Readings)
  | record (sessionId : String) (version : Nat) (force : Bool) (nowMs : Nat) (sight : Sight)
  | enqueue (sessionId : String) (generation : { n // 0 < n }) (nowMs : Nat)
      (groups : List (String × String))
  | claim (pass : Pass)
  | answers (n nowMs : Nat) (outcome : Outcome)
  | requeue (after : SessionRow) (nowMs : Nat)

def Ledger.attempt (service : Service) (ledger : Ledger) : Write → Except Failure Ledger
  | .create sessionId agentId rootIncarnation relativeDirectory nowMs =>
    .ok (ledger.create sessionId agentId rootIncarnation relativeDirectory nowMs)
  | .activate sessionId version nowMs => ledger.activate sessionId version nowMs
  | .quarantine sessionId version nowMs => ledger.quarantine service sessionId version nowMs
  | .rebuild sessionId version expectedGeneration nowMs groups =>
    ledger.rebuild service sessionId version expectedGeneration nowMs groups
  | .destroy command version nowMs => ledger.destroy service command version nowMs
  | .cancelQueued sessionId => ledger.cancelQueued service.ownerId sessionId
  | .seals sessionId version force nowMs readings =>
    ledger.seals service sessionId version force nowMs readings
  | .record sessionId version force nowMs sight =>
    ledger.record sessionId version force nowMs sight
  | .enqueue sessionId generation nowMs groups =>
    ledger.enqueue service sessionId generation nowMs groups
  | .claim pass => ledger.claim pass
  | .answers n nowMs outcome => ledger.answers n nowMs outcome
  | .requeue after nowMs => ledger.requeue service after nowMs

def Ledger.after (service : Service) (ledger : Ledger) (w : Write) : Ledger :=
  match ledger.attempt service w with
  | .ok ledger => ledger
  | .error _ => ledger

end Sessions
