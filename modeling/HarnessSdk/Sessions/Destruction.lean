import HarnessSdk.Library.Crashes
import HarnessSdk.Sessions.Tables

/-!
The destruction of a session: one transaction that gives it a destroy identity, a proof that
nothing of it is open, and then a rename and a deletion of its directory, each step chosen from
what the two directories look like and recorded after it is done.
-/
namespace Sessions
open Checks Crashes

/-! ## Directories -/

mutual
/-- What a directory holds beside its marker; a link is never followed. -/
inductive Node
  | file
  | link
  | folder (inside : Entries)

inductive Entries
  | nothing
  | more (name : String) (node : Node) (rest : Entries)
end

mutual
def Node.removals : Node → Nat
  | .file => 1
  | .link => 1
  | .folder inside => inside.removals + 1

def Entries.removals : Entries → Nat
  | .nothing => 0
  | .more _ node rest => node.removals + rest.removals
end

mutual
/-- The first removal inside a folder, or `none` where the node itself goes. -/
def Node.removed : Node → Option Node
  | .file => none
  | .link => none
  | .folder .nothing => none
  | .folder (.more name node rest) => some (.folder (Entries.removed (.more name node rest)))

def Entries.removed : Entries → Entries
  | .nothing => .nothing
  | .more name node rest =>
    match node.removed with
    | none => rest
    | some node => .more name node rest
end

structure Directory where
  /-- The text of its marker file. -/
  marker : Option String
  entries : Entries

inductive FileAction
  | mkdir (folder : String)
  | rename (source trash : String)
  | removeEntry (trash : String)
  | unlinkMarker (trash : String)
  | rmdir (trash : String)
deriving DecidableEq

/-! ## The world of one session -/

inductive DisposalKind
  | turns
  | calls
  | unknown
  | pendingImports
  | indexWriters
  | tempRoots
  | readHandles
deriving DecidableEq

def DisposalKind.text : DisposalKind → String
  | .turns => "TURNS"
  | .calls => "CALLS"
  | .unknown => "UNKNOWN"
  | .pendingImports => "PENDING_IMPORTS"
  | .indexWriters => "INDEX_WRITERS"
  | .tempRoots => "TEMP_ROOTS"
  | .readHandles => "READ_HANDLES"

def disposalKinds : List DisposalKind :=
  [.turns, .calls, .unknown, .pendingImports, .indexWriters, .tempRoots, .readHandles]

structure CollectionWitness where
  kind : DisposalKind
  complete : Bool
  count : Nat
  refs : List String
  setHash : String
  readerReceiptRef : Receipt
deriving DecidableEq

structure World where
  session : SessionRow
  /-- The job that drives its purge. -/
  job : Option JobRow
  /-- The collections in the proof that sealed it. -/
  disposal : Option (List CollectionWitness)
  /-- The resume commands that are recorded. -/
  resumed : List String
  /-- The directories under the managed root. -/
  files : String → Option Directory
  /-- The folders they are kept in. -/
  folders : List String

namespace World

def place (w : World) (path : String) (directory : Option Directory) : World :=
  { w with files := fun other => if other = path then directory else w.files other }

def amend (w : World) (path : String) (change : Directory → Directory) : World :=
  w.place path ((w.files path).map change)

end World

def FileAction.apply : FileAction → World → World
  | .mkdir folder, w =>
    if folder ∈ w.folders then w else { w with folders := folder :: w.folders }
  | .rename source trash, w => (w.place trash (w.files source)).place source none
  | .removeEntry trash, w => w.amend trash fun d => { d with entries := d.entries.removed }
  | .unlinkMarker trash, w => w.amend trash fun d => { d with marker := none }
  | .rmdir trash, w =>
    match w.files trash with
    | some ⟨none, .nothing⟩ => w.place trash none
    | _ => w

inductive IoCode
  | busy
  | other
deriving DecidableEq

def IoCode.block : IoCode → BlockCode
  | .busy => .fileBusy
  | .other => .ioError

abbrev Steps := Program World FileAction IoCode (Except Raised SessionRow)

def commits (tx : World → Except Raised World) : Steps :=
  .looks fun w =>
    match tx w with
    | .ok w' => .saves w' (.returns (.ok w'.session))
    | .error e => .returns (.error e)

/-! ## The service -/

def trashDir : String := "trash"

def fileBusyBackoffMs : Nat := 60000

def purgeDeadlineMs : Nat := 86400000

def leaseMs : Nat := 30000

structure DestroyCommand where
  commandId : String
  payloadCommandId : String
  sessionId : String
  expectedGeneration : Nat
  retentionPolicyRef : String
  caller : String
deriving DecidableEq

structure ResumeCommand where
  commandId : String
  payloadCommandId : String
  sessionId : String
  agentId : String
  expectedGeneration : Nat
  expectedRowVersion : Nat
  destroyCommandId : String
  destroyCommandHash : String
deriving DecidableEq

structure Service where
  ownerId : String
  retentionPolicyRef : String
  /-- The marker hash in the protocol row of the agent. -/
  protocolMarkerHash : Option String
  destroyDigest : String → String
  /-- Of the command and of the session, its agent and its root. -/
  commandHash : DestroyCommand → String → String → String → String
  setHash : List String → String
  jobId : String → String → String
  jobPayloadHash : SessionRow → Nat → String
  /-- The digest of a marker that is read, where it is one. -/
  markerHash : String → Option String

/-- What the readers of the seven collections find, and the journal's highwater. -/
structure Readings where
  refs : DisposalKind → List String
  journalHighwater : Nat

namespace Service
variable (service : Service)

def trashDirectory (sessionId commandId : String) : String :=
  trashDir ++ "/" ++ sessionId ++ "-" ++
    String.ofList ((service.destroyDigest commandId).toList.take 16)

def pathState (w : World) (path expectedMarkerHash : String) : PathState :=
  match w.files path with
  | none => .absent
  | some directory =>
    match directory.marker.bind service.markerHash with
    | none => .mismatch
    | some found => if found = expectedMarkerHash then .match else .mismatch

def stepKey (session : SessionRow) (commandId : String) : String :=
  session.sessionId ++ ":" ++ commandId ++ ":" ++ toString session.rowVersion

def observe (w : World) (progress : PurgeProgress) (commandId : String) :
    Except Raised PurgePathObservation := do
  let receiptRef ←
    (Receipt.mk "purge_observation" (stepKey w.session commandId)).made
  .ok {
    sessionId := w.session.sessionId
    destroyCommandId := commandId
    controlGeneration := w.session.generation
    expectedMarkerHash := progress.expectedMarkerHash
    sourceState :=
      service.pathState w progress.sourceRelativeDirectory progress.expectedMarkerHash
    trashState :=
      service.pathState w progress.trashRelativeDirectory progress.expectedMarkerHash
    receiptRef }

def witness (session : SessionRow) (commandId : String) (readings : Readings)
    (kind : DisposalKind) : Except Raised CollectionWitness := do
  let reader ←
    (Receipt.mk "disposal_reader" (kind.text ++ ":" ++ stepKey session commandId)).made
  .ok {
    kind
    complete := true
    count := (readings.refs kind).length
    refs := readings.refs kind
    setHash := service.setHash (readings.refs kind)
    readerReceiptRef := reader }

/-- `complete_disposal`: all seven collections are witnessed; whether they are empty. -/
def completeDisposal (collections : List CollectionWitness) : Except Raised Bool := do
  need (collections.length = 7 ∧ ∀ kind ∈ disposalKinds, ∃ c ∈ collections, c.kind = kind)
    "RETENTION_PROOF_INCOMPLETE"
  need (∀ c ∈ collections,
      c.complete = true ∧ c.count = c.refs.length ∧ c.setHash = service.setHash c.refs)
    "RETENTION_PROOF_INCOMPLETE"
  .ok (collections.all fun c => c.count = 0)

/-- The seven witnesses, and whether all of them are empty. -/
def captureDisposal (session : SessionRow) (commandId : String) (readings : Readings) :
    Except Raised (List CollectionWitness × Bool) := do
  let witnesses ← disposalKinds.mapM (service.witness session commandId readings)
  let _ ← (Receipt.mk "file_guard" (stepKey session commandId)).made
  let _ ← (Receipt.mk "disposal-readset" (session.sessionId ++ ":" ++ commandId)).made
  let allSafe ← service.completeDisposal witnesses
  .ok (witnesses, allSafe)

section
variable (progress : PurgeProgress)

/-- DRAINING → PURGING, with the proof persisted first. -/
def sealedChange (proof : Receipt) (highwater nowMs : Nat) :
    SessionChange where
  nowMs
  state := some .purging
  sealedHighwater := some highwater
  purgeProgress := some { progress with phase := .renamePending }
  deleteProofRef := some proof

def purgeJob (after : SessionRow) (commandId : String) (nowMs : Nat) : JobRow where
  jobId := service.jobId after.sessionId commandId
  sessionId := after.sessionId
  kind := .purge
  semanticKey := commandId
  controlGeneration := after.generation
  payloadHash := service.jobPayloadHash after (nowMs + purgeDeadlineMs)
  generation := after.generation
  state := .pending
  rowVersion := 1
  attempts := 0
  nextAtMs := nowMs
  deadlineMs := nowMs + purgeDeadlineMs
  ownerId := none
  leaseUntilMs := none
  resultReceiptRef := none

def sealed (commandId : String)
    (witnesses : List CollectionWitness) (highwater nowMs : Nat) (w : World) :
    Except Raised World := do
  let proof ← (Receipt.mk "session_disposal" (w.session.sessionId ++ ":" ++ commandId)).made
  let after ← transitionSession w.session w.session (sealedChange progress proof highwater nowMs)
  let _ ← (Receipt.mk "disposal" (w.session.sessionId ++ ":" ++ commandId)).made
  let fresh := service.purgeJob after commandId nowMs
  match w.job with
  | none => .ok { w with session := after, job := some fresh, disposal := some witnesses }
  | some job =>
    if job.payloadHash = fresh.payloadHash then
      .ok { w with session := after, disposal := some witnesses }
    else .error (.arp "SOURCE_HASH_CONFLICT")

def progressed (nowMs : Nat) (state : Option SessionState)
    (w : World) : Except Raised World := do
  let after ← transitionSession w.session w.session
    { nowMs, state, purgeProgress := some progress }
  .ok { w with session := after }

/-- A typed block: the same phase, the same destroy identity. -/
def blockedProgress (inspection : Receipt) (code : BlockCode)
    (nowMs : Nat) : PurgeProgress :=
  let busy := code = .fileBusy
  { progress with
    blocking := some {
      code
      observationRef := inspection
      retryMode := if busy then .sameDestroyBackoff else .manual
      retryAtMs := if busy then some (nowMs + fileBusyBackoffMs) else none
      firstSeenAtMs :=
        match progress.blocking with
        | some previous => if previous.code = code then previous.firstSeenAtMs else nowMs
        | none => nowMs }
    inspectionReceiptRef := some inspection }

def blocked (inspection : Receipt) (code : BlockCode)
    (nowMs : Nat) : World → Except Raised World :=
  progressed (blockedProgress progress inspection code nowMs) nowMs none

def recordedRename (commandId : String) (inspection : Receipt)
    (nowMs : Nat) (w : World) : Except Raised World := do
  let renameRef ←
    (Receipt.mk "purge_rename" (w.session.sessionId ++ ":" ++ commandId)).made
  progressed (progress.stepped .renamed (some renameRef) progress.deleteReceiptRef inspection)
    nowMs none w

def recordedDelete (commandId : String) (inspection : Receipt)
    (nowMs : Nat) (w : World) : Except Raised World := do
  let deleteRef ←
    (Receipt.mk "purge_delete" (w.session.sessionId ++ ":" ++ commandId)).made
  progressed (progress.stepped .deleteConfirmed progress.renameReceiptRef (some deleteRef)
    inspection) nowMs none w

def finalized (inspection : Receipt) (nowMs : Nat) :
    World → Except Raised World :=
  progressed (progress.stepped progress.phase progress.renameReceiptRef progress.deleteReceiptRef
    inspection) nowMs (some .purged)

/-- The contents first, then the marker, then the directory. -/
def removeTrash (trash : String) (refused : IoCode → Steps) (next : Steps) : Steps :=
  .looks fun w =>
    match w.files trash with
    | none => refused .other
    | some directory =>
      let last := .tries (.rmdir trash) refused next
      Program.repeats (.removeEntry trash) refused
        (if directory.marker.isSome then .tries (.unlinkMarker trash) refused last else last)
        directory.entries.removals

/-- A block that is not up for a retry. -/
def heldBack (blocking : Option PurgeBlock) (force : Bool) (nowMs : Nat) : Bool :=
  match blocking with
  | none => false
  | some block =>
    !force && (block.retryMode != .sameDestroyBackoff || nowMs < block.retryAtMs.getD 0)

/-- What `recovery_action` names, done and recorded. -/
def actOn (commandId : String) (inspection : Receipt)
    (nowMs : Nat) : RecoveryAction → Steps
  | .renameExact =>
    let refused := fun io : IoCode =>
      commits (blocked progress inspection io.block nowMs)
    .tries (.mkdir trashDir) refused
      (.tries (.rename progress.sourceRelativeDirectory progress.trashRelativeDirectory) refused
        (commits (recordedRename progress commandId inspection nowMs)))
  | .recordRecoveredRename => commits (recordedRename progress commandId inspection nowMs)
  | .deleteExact =>
    removeTrash progress.trashRelativeDirectory
      (fun io => commits (blocked progress inspection io.block nowMs))
      (commits (recordedDelete progress commandId inspection nowMs))
  | .recordDeletionAbsence => commits (recordedDelete progress commandId inspection nowMs)
  | .finalizeSameDestroy => commits (finalized progress inspection nowMs)
  | .block code => commits (blocked progress inspection code nowMs)
  | .waitDisposalProof => .returns (.error (.arp "PURGE_STATE_INVALID"))

end

/-- One observation and one action for a destroyed session. The jobs that `DRAINING` cancels
first are those of its index. -/
def advance (force : Bool) (nowMs : Nat) (readings : Readings) : Steps :=
  .looks fun w =>
    match w.session.destroyCommandId, w.session.purgeProgress with
    | some commandId, some progress =>
      if w.session.state = .purged then .returns (.ok w.session)
      else if heldBack progress.blocking force nowMs then .returns (.ok w.session)
      else if w.session.state = .draining then
        match service.captureDisposal w.session commandId readings with
        | .error e => .returns (.error e)
        | .ok (witnesses, allSafe) =>
          if allSafe then
            commits (service.sealed progress commandId witnesses readings.journalHighwater nowMs)
          else .returns (.ok w.session)
      else
        match service.observe w progress commandId with
        | .error e => .returns (.error e)
        | .ok observation =>
          match recoveryAction progress observation with
          | .error e => .returns (.error e)
          | .ok action =>
            actOn progress commandId observation.receiptRef nowMs action
    | _, _ => .returns (.error (.arp "PURGE_STATE_INVALID"))

def notDestroyable : SessionState → String
  | .draining => "SESSION_DRAINING"
  | .purging | .purged => "SESSION_PURGED"
  | _ => "SESSION_NOT_ACTIVE"

section
variable (command : DestroyCommand)

def destroyProgress (session : SessionRow)
    (markerHash source trash : String) (destroyRef : Receipt) : PurgeProgress where
  sessionId := session.sessionId
  agentId := session.agentId
  rootIncarnation := session.rootIncarnation
  destroyCommandId := command.commandId
  destroyCommandHash :=
    service.commandHash command session.sessionId session.agentId session.rootIncarnation
  destroyReceiptRef := destroyRef
  controlGeneration := session.generation + 1
  sourceRelativeDirectory := source
  trashRelativeDirectory := trash
  expectedMarkerHash := markerHash
  phase := .draining
  renameReceiptRef := none
  deleteReceiptRef := none
  blocking := none
  inspectionReceiptRef := none

def destroyChange (nowMs : Nat) (session : SessionRow) :
    Except Raised SessionChange := do
  need (session.state = .active ∨ session.state = .quarantined) (notDestroyable session.state)
  need (session.generation = command.expectedGeneration) "GENERATION_STALE"
  let some markerHash := service.protocolMarkerHash
    | .error (.arp "RUNTIME_CREATION_MARKER_MISSING")
  let trash ←
    validateRelativeDirectory (service.trashDirectory session.sessionId command.commandId)
  let source ← validateRelativeDirectory session.relativeDirectory
  let destroyRef ← (Receipt.mk "session_destroy" command.commandId).made
  let progress := service.destroyProgress command session markerHash source trash destroyRef
  .ok {
    nowMs
    state := some .draining
    generation := some (session.generation + 1)
    destroyCommand := some (progress.destroyCommandId, progress.destroyCommandHash)
    purgeProgress := some progress }

def beginDestroy (nowMs : Nat) (w : World) : Except Raised World := do
  let change ← service.destroyChange command nowMs w.session
  let after ← transitionSession w.session w.session change
  .ok { w with session := after }

/-- The same command again returns the row; any other on a destroyed session is refused. Closing
the agent and its open turn, before the transaction, is not the session's. -/
def destroy (nowMs : Nat) (readings : Readings) : Steps :=
  .looks fun w =>
    if command.payloadCommandId ≠ command.commandId then
      .returns (.error (.arp "SESSION_IDENTITY_MISMATCH"))
    else if command.retentionPolicyRef ≠ service.retentionPolicyRef then
      .returns (.error (.arp "POLICY_CONFLICT"))
    else if command.sessionId ≠ w.session.sessionId then
      .returns (.error (.arp "SESSION_NOT_ACTIVE"))
    else
      match w.session.destroyCommandId with
      | some destroying =>
        if destroying ≠ command.commandId then
          .returns (.error (.arp (notDestroyable w.session.state)))
        else if w.session.destroyCommandHash ≠ some (service.commandHash command
            w.session.sessionId w.session.agentId w.session.rootIncarnation) then
          .returns (.error (.arp "SOURCE_HASH_CONFLICT"))
        else .returns (.ok w.session)
      | none =>
        (commits (service.beginDestroy command nowMs)).bind fun begun =>
          match begun with
          | .error e => .returns (.error e)
          | .ok _ => service.advance false nowMs readings

end

def acked (job : JobRow) (state : JobState) (nextAtMs : Option Nat) (w : World) :
    Except Raised World := do
  match w.job with
  | none => .error (.arp "JOB_STALE")
  | some stored =>
    let after ← completeJob stored stored state service.ownerId
      (if state = .pending then none else some ⟨"job", job.jobId⟩) nextAtMs
    .ok { w with job := some after }

def processPurgeJob (job : JobRow) (nowMs : Nat) (readings : Readings) : Steps :=
  .looks fun w =>
    if w.session.destroyCommandId ≠ some job.semanticKey ∨
        w.session.generation ≠ job.controlGeneration then
      commits (service.acked job .cancelled none)
    else
      (service.advance false nowMs readings).bind fun advanced =>
        match advanced with
        | .error (.arp code) =>
          if code = "FILE_BUSY" then
            commits (service.acked job .pending (some (nowMs + leaseMs)))
          else commits (service.acked job .blocked none)
        | .error (.integrity message) => .returns (.error (.integrity message))
        | .ok after =>
          if after.state = .purged then commits (service.acked job .done none)
          else
            match after.purgeProgress.bind (·.blocking) with
            | none => commits (service.acked job .pending (some nowMs))
            | some block =>
              if block.retryMode = .sameDestroyBackoff then
                commits (service.acked job .pending block.retryAtMs)
              else commits (service.acked job .blocked none)

def requeued (nowMs : Nat) (w : World) : Except Raised World := do
  if w.session.destroyCommandId = none ∨ w.session.state ≠ .purging then .ok w
  else
    match w.job with
    | none => .ok w
    | some job =>
      if job.state ≠ .blocked ∧ job.state ≠ .pending then .ok w
      else
        let nextAtMs :=
          match w.session.purgeProgress.bind (·.blocking) with
          | none => some nowMs
          | some block => block.retryAtMs
        match nextAtMs with
        | none => .ok w
        | some nextAtMs =>
          let after ← completeJob job job .pending service.ownerId none (some nextAtMs)
          .ok { w with job := some after }

/-- The same destroy identity is inspected again, whatever blocks it. -/
def resumeDestroy (command : ResumeCommand) (nowMs : Nat) (readings : Readings) : Steps :=
  .looks fun w =>
    if command.payloadCommandId ≠ command.commandId then
      .returns (.error (.arp "SESSION_IDENTITY_MISMATCH"))
    else if command.sessionId ≠ w.session.sessionId then
      .returns (.error (.arp "SESSION_NOT_ACTIVE"))
    else if w.session.agentId ≠ command.agentId ∨
        w.session.destroyCommandId ≠ some command.destroyCommandId ∨
        w.session.destroyCommandHash ≠ some command.destroyCommandHash then
      .returns (.error (.arp "PURGE_IDENTITY_MISMATCH"))
    else if command.commandId ∈ w.resumed then .returns (.ok w.session)
    else if w.session.generation ≠ command.expectedGeneration ∨
        w.session.rowVersion ≠ command.expectedRowVersion then
      .returns (.error (.arp "GENERATION_STALE"))
    else
      .saves { w with resumed := command.commandId :: w.resumed }
        ((service.advance true nowMs readings).bind fun advanced =>
          match advanced with
          | .error e => .returns (.error e)
          | .ok _ => commits (service.requeued nowMs))

end Service

/-- A call of the service, or what the coordinator of the jobs does with the purge job. -/
inductive Call
  | destroy (command : DestroyCommand) (nowMs : Nat) (readings : Readings)
  | advance (nowMs : Nat) (readings : Readings)
  | processPurgeJob (job : JobRow) (nowMs : Nat) (readings : Readings)
  | resumeDestroy (command : ResumeCommand) (nowMs : Nat) (readings : Readings)
  | coordinates (change : JobRow → JobRow)

def Call.steps (service : Service) : Call → Steps
  | .destroy command nowMs readings => service.destroy command nowMs readings
  | .advance nowMs readings => service.advance false nowMs readings
  | .processPurgeJob job nowMs readings => service.processPurgeJob job nowMs readings
  | .resumeDestroy command nowMs readings => service.resumeDestroy command nowMs readings
  | .coordinates change =>
    .looks fun w => .saves { w with job := w.job.map change } (.returns (.ok w.session))

end Sessions
