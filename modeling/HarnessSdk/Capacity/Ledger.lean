import HarnessSdk.Library.Checks
import HarnessSdk.Library.Tables
import HarnessSdk.Library.Text

/-! The capacity that the dispatchers of one host share: a first-in, first-out ledger. -/
namespace Capacity
open PyDict PyText Checks Tables

inductive EntryState
  | waiting
  | reserved
  | handedOff
  | unknown
  | released
  | settled
deriving DecidableEq

def EntryState.text : EntryState → String
  | .waiting => "WAITING"
  | .reserved => "RESERVED"
  | .handedOff => "HANDED_OFF"
  | .unknown => "UNKNOWN"
  | .released => "RELEASED"
  | .settled => "SETTLED"

def active : List EntryState := [.waiting, .reserved, .handedOff, .unknown]

def held : List EntryState := [.reserved, .handedOff, .unknown]

inductive CapacityError
  | type (message : String)
  | value (message : String)
  | configuration (message : List Fragment)
  | key (message : String)
  | ticket (message : String)
  | transition (message : String)
  | integrity
  | runtime (message : String)
deriving DecidableEq

structure Entry where
  sequence : Nat
  poolId : String
  key : String
  owner : String
  epoch : String
  pid : Int
  weight : Int
  state : EntryState
  evidenceRef : Option String
  processIdentity : Option String
deriving DecidableEq

structure CapacityTicket where
  poolId : String
  key : String
  owner : String
  epoch : String
  weight : Int
deriving DecidableEq

structure CapacityLedger where
  poolId : String
  maxSlots : Int
  maxTokens : Int
deriving DecidableEq

structure Database where
  pools : Dict String (Int × Int)
  entries : List Entry
  lastSequence : Nat

/-- What a transaction learns of the processes; each row's process is looked at once, and a look may
fail. -/
structure Probe where
  pidAlive : Nat → Int → Bool
  processIdentity : Nat → Int → Except CapacityError (Option String)

def nonEmptyText (name value : String) : Except CapacityError Unit :=
  require (value ≠ "") (.type (name ++ " must be a non-empty str"))

def positiveInt (name : String) (value : Int) : Except CapacityError Unit :=
  require (0 < value) (.type (name ++ " must be a positive int"))

/-- `_initialize`: the limits of a pool are fixed when it is first opened. -/
def Database.initializePool (db : Database) (ledger : CapacityLedger) :
    Except CapacityError Database := do
  nonEmptyText "pool_id" ledger.poolId
  positiveInt "max_slots" ledger.maxSlots
  positiveInt "max_tokens" ledger.maxTokens
  match get? db.pools ledger.poolId with
  | none => pure { db with pools := set db.pools ledger.poolId (ledger.maxSlots, ledger.maxTokens) }
  | some limits => do
    require (limits = (ledger.maxSlots, ledger.maxTokens)) (.configuration
      [.text "pool ", .repr ledger.poolId, .text " already has different fixed limits"])
    pure db

section
variable (ledger : CapacityLedger) (probe : Probe)

/-- Whether the process of a row is still the one that enqueued it, as far as can be told. -/
def stillRuns (row : Entry) : Except CapacityError Bool :=
  if probe.pidAlive row.sequence row.pid then do
    let current ← probe.processIdentity row.sequence row.pid
    pure (row.processIdentity.isNone || current.isNone || current == row.processIdentity)
  else pure false

def recoverRow (row : Entry) : Except CapacityError Entry :=
  if row.poolId = ledger.poolId ∧ row.state ∈ [.waiting, .reserved, .handedOff] then do
    let runs ← stillRuns probe row
    if runs then pure row
    else pure { row with state := if row.state = .handedOff then .unknown else .released }
  else pure row

def recoverDead (db : Database) : Except CapacityError Database := do
  let entries ← db.entries.mapM (recoverRow ledger probe)
  pure { db with entries := entries }

def rowFor (db : Database) (key : String) : Option Entry :=
  db.entries.find? fun row => row.poolId == ledger.poolId && row.key == key

def CapacityTicket.names (ticket : CapacityTicket) (row : Entry) : Bool :=
  row.poolId == ticket.poolId && row.key == ticket.key && row.owner == ticket.owner &&
    row.epoch == ticket.epoch && row.weight == ticket.weight

def ticketRow (db : Database) (ticket : CapacityTicket) : Except CapacityError Entry := do
  let refused : CapacityError := .ticket "ticket does not match its durable owner epoch"
  match db.entries.find? ticket.names with
  | none => .error refused
  | some row => do
    require (ticket.poolId = ledger.poolId) refused
    pure row

def moveTo (db : Database) (ticket : CapacityTicket) (row : Entry) (target : EntryState) : Database :=
  { db with
    entries := amend (fun r => r.sequence = row.sequence ∧ r.owner = ticket.owner ∧
        r.epoch = ticket.epoch ∧ r.state = row.state)
      (fun r => { r with state := target }) db.entries }

def enqueue (epoch key owner : String) (weight pid : Int) (db : Database) :
    Except CapacityError (Database × CapacityTicket) := do
  nonEmptyText "key" key
  nonEmptyText "owner" owner
  positiveInt "weight" weight
  positiveInt "pid" pid
  require (weight ≤ ledger.maxTokens) (.value "weight exceeds pool token capacity")
  let db ← recoverDead ledger probe db
  match rowFor ledger db key with
  | some row => do
    require (row.state ∈ active ∧ row.owner = owner ∧ row.weight = weight)
      (.key "key is terminal or belongs to another owner/weight")
    pure (db, ⟨ledger.poolId, key, owner, row.epoch, weight⟩)
  | none => do
    require (∀ row ∈ db.entries, ¬ (row.poolId = ledger.poolId ∧ row.epoch = epoch)) .integrity
    let identity ← probe.processIdentity (db.lastSequence + 1) pid
    pure ({ db with
      entries := db.entries ++ [⟨db.lastSequence + 1, ledger.poolId, key, owner, epoch, pid, weight,
        .waiting, none, identity⟩]
      lastSequence := db.lastSequence + 1 }, ⟨ledger.poolId, key, owner, epoch, weight⟩)

def waitingRows (entries : List Entry) : List Entry :=
  (entries.filter fun row => row.poolId = ledger.poolId ∧ row.state = .waiting).insertionSort
    fun a b => a.sequence ≤ b.sequence

section
variable (poolId : String) (entries : List Entry)

def heldRows : List Entry :=
  entries.filter fun row => row.poolId = poolId ∧ row.state ∈ held

def heldSlots : Nat := (heldRows poolId entries).length

def heldTokens : Int :=
  ((heldRows poolId entries).map Entry.weight).sum

end

def tryAcquire (ticket : CapacityTicket) (db : Database) :
    Except CapacityError (Database × Bool) := do
  let db ← recoverDead ledger probe db
  let row ← ticketRow ledger db ticket
  if row.state = .reserved then pure (db, true)
  else do
    require (row.state = .waiting) (.transition ("cannot acquire from " ++ row.state.text))
    match waitingRows ledger db.entries with
    | [] => .error (.type "the queue has no head")
    | head :: _ =>
      if head.sequence ≠ row.sequence ∨ ledger.maxSlots ≤ heldSlots ledger.poolId db.entries ∨
          ledger.maxTokens < heldTokens ledger.poolId db.entries + row.weight then
        pure (db, false)
      else pure (moveTo db ticket row .reserved, true)

def transition (ticket : CapacityTicket) (source target : EntryState) (db : Database) :
    Except CapacityError Database := do
  let db ← recoverDead ledger probe db
  let row ← ticketRow ledger db ticket
  if row.state = target then pure db
  else do
    require (row.state = source)
      (.transition ("cannot transition from " ++ row.state.text ++ " to " ++ target.text))
    pure (moveTo db ticket row target)

def markHandedOff (ticket : CapacityTicket) (db : Database) : Except CapacityError Database :=
  transition ledger probe ticket .reserved .handedOff db

def finish (ticket : CapacityTicket) (knownTerminal : Bool) (db : Database) :
    Except CapacityError Database := do
  let db ← recoverDead ledger probe db
  let row ← ticketRow ledger db ticket
  match row.state with
  | .reserved => pure (moveTo db ticket row .released)
  | .handedOff => pure (moveTo db ticket row (if knownTerminal then .settled else .unknown))
  | .unknown => pure (moveTo db ticket row (if knownTerminal then .settled else .unknown))
  | .released => pure db
  | .settled => pure db
  | .waiting => .error (.transition ("cannot finish from " ++ row.state.text))

def cancelWaiter (ticket : CapacityTicket) (db : Database) : Except CapacityError Database := do
  let db ← recoverDead ledger probe db
  let row ← ticketRow ledger db ticket
  require (row.state ∈ [.waiting, .reserved]) (.transition ("cannot cancel from " ++ row.state.text))
  pure (moveTo db ticket row .released)

def reconcile (key evidenceRef : String) (db : Database) : Except CapacityError Database := do
  nonEmptyText "key" key
  nonEmptyText "evidence_ref" evidenceRef
  let db ← recoverDead ledger probe db
  match rowFor ledger db key with
  | none => .error (.key "unknown reconciliation key")
  | some row =>
    if row.state = .settled then do
      require (row.evidenceRef = some evidenceRef)
        (.transition "settled key has different reconciliation proof")
      pure db
    else do
      require (row.state ∈ [.handedOff, .unknown])
        (.transition ("cannot reconcile from " ++ row.state.text))
      pure { db with
        entries := amend (fun r => r.sequence = row.sequence ∧ r.state ∈ [.handedOff, .unknown])
          (fun r => { r with state := .settled, evidenceRef := some evidenceRef }) db.entries }

structure CapacitySnapshot where
  heldSlots : Nat
  heldTokens : Int
  rows : List Entry

def snapshot (db : Database) : Except CapacityError (Database × CapacitySnapshot) := do
  let db ← recoverDead ledger probe db
  let rows := (db.entries.filter (·.poolId = ledger.poolId)).insertionSort
    fun a b => a.sequence ≤ b.sequence
  let taken := rows.filter (·.state ∈ held)
  pure (db, ⟨taken.length, (taken.map Entry.weight).sum, rows⟩)

end

/-! The system: a shared file and the handles that were opened on it. -/

inductive Operation
  | enqueue (epoch key owner : String) (weight pid : Int)
  | tryAcquire (ticket : CapacityTicket)
  | markHandedOff (ticket : CapacityTicket)
  | finish (ticket : CapacityTicket) (knownTerminal : Bool)
  | cancelWaiter (ticket : CapacityTicket)
  | reconcile (key evidenceRef : String)
  | snapshot

def perform (ledger : CapacityLedger) (probe : Probe) (db : Database) :
    Operation → Except CapacityError Database
  | .enqueue epoch key owner weight pid =>
    (enqueue ledger probe epoch key owner weight pid db).map Prod.fst
  | .tryAcquire ticket => (tryAcquire ledger probe ticket db).map Prod.fst
  | .markHandedOff ticket => markHandedOff ledger probe ticket db
  | .finish ticket knownTerminal => finish ledger probe ticket knownTerminal db
  | .cancelWaiter ticket => cancelWaiter ledger probe ticket db
  | .reconcile key evidenceRef => reconcile ledger probe key evidenceRef db
  | .snapshot => (snapshot ledger probe db).map Prod.fst

structure System where
  db : Database
  handles : List CapacityLedger

/-- A process opens a handle, or uses one; what the probe sees says who has died by then. -/
inductive Action
  | connect (ledger : CapacityLedger)
  | call (ledger : CapacityLedger) (probe : Probe) (operation : Operation)

def System.act (s : System) : Action → System
  | .connect ledger =>
    match s.db.initializePool ledger with
    | .ok db => ⟨db, ledger :: s.handles⟩
    | .error _ => s
  | .call ledger probe operation =>
    if ledger ∈ s.handles then
      match perform ledger probe s.db operation with
      | .ok db => { s with db := db }
      | .error _ => s
    else s

def System.empty : System := ⟨⟨[], [], 0⟩, []⟩

end Capacity
