import HarnessSdk.Budgets.Accounts

/-! The budget ledger: reservations on accounts, usage facts, and settlements. -/
namespace Budgets
open PyDict PyText Checks Graph Tables Metered

inductive ReservationState
  | reserved
  | settled
deriving DecidableEq

structure Reservation where
  reservationId : String
  accountId : String
  missionId : String
  subjectId : String
  state : ReservationState
  reservedTokens : Int
  reservedCostMicros : Int
  reservedToolCalls : Int
  settledTokens : Option Int
  settledCostMicros : Option Int
  settledToolCalls : Option Int
  unpriced : Bool
deriving DecidableEq

def Reservation.held (row : Reservation) : Figures :=
  ⟨row.reservedTokens, row.reservedCostMicros, row.reservedToolCalls, 0⟩

def Reservation.settledAt (row : Reservation) : Figures :=
  ⟨row.settledTokens.getD 0, row.settledCostMicros.getD 0, row.settledToolCalls.getD 0, 0⟩

structure ImportedUsage where
  usageRef : String
  subjectId : String
  missionId : String
  inputTokens : Int
  outputTokens : Int
  costMicros : Option Int
  unpriced : Bool
  unknown : Bool
deriving DecidableEq

structure UsageFact where
  usageRef : String
  inputTokens : Int
  outputTokens : Int
  costMicros : Option Int
  unknown : Bool

structure TailReserve where
  tokens : Nat
  costMicros : Nat
  toolCalls : Nat
  attempts : Nat
deriving DecidableEq

/-- An amount for one subject; every attempt of a conflict or a synthesis counts. -/
structure TailAllocation where
  subjectId : String
  accountId : String
  role : String
  tokens : Nat
  costMicros : Nat
  toolCalls : Nat
  countsAttempt : Bool
  named : strip subjectId ≠ "" ∧ strip accountId ≠ ""
  known : role ∈ ["critic", "conflict", "synthesis"]
  counted : countsAttempt = decide (role ≠ "critic")
deriving DecidableEq

inductive HoldState
  | held
  | released
deriving DecidableEq

structure ReserveRequest where
  holdId : String
  accountId : String
  missionId : String
  taskRevision : String
  purpose : String
  reserve : TailReserve
deriving DecidableEq

structure TailHold where
  holdId : String
  missionId : String
  accountId : String
  subjectId : String
  taskRevision : String
  purpose : String
  request : ReserveRequest
  remainingAttempts : Int
  state : HoldState
  releaseReason : Option String
deriving DecidableEq

structure TransferRequest where
  holdId : String
  transferId : String
  taskRevision : String
  allocations : List TailAllocation
deriving DecidableEq

structure TransferReceipt where
  request : TransferRequest
  reservations : List String
deriving DecidableEq

structure TailTransfer where
  holdId : String
  transferId : String
  request : TransferRequest
  receipt : TransferReceipt

structure Store where
  accounts : List Account
  reservations : List Reservation
  usage : List ImportedUsage
  holds : List TailHold
  transfers : List TailTransfer

structure TaskFacts where
  id : String
  missionId : String
  terminal : Bool
  kind : String
  parentTaskIds : List String
  dependencyIds : List String

/-- The rest of the library's tables, which other components write: provider grants that are not
final, tasks, whether a mission is terminal, and commit receipts. -/
structure Surroundings where
  grantHeld : String → Bool
  task : String → Option TaskFacts
  missionTerminal : String → Option Bool
  receipt : String → Bool

abbrev Work (α : Type) := Metered Store LedgerError α

def refuse (message : String) : LedgerError := .refused [.text message]

/-! Reading. -/

def account (accountId : String) : Work Account := do
  let accounts ← view Store.accounts
  lift (accountOf accounts accountId)

def chain (accountId : String) : Work (List Account) := do
  let accounts ← view Store.accounts
  lift (chainOf accounts accountId)

section
variable (store : Store) (subjectId : String)

def Store.reservation : Option Reservation :=
  store.reservations.find? (·.subjectId == subjectId)

def Store.hold (store : Store) (holdId : String) : Option TailHold :=
  store.holds.find? (·.holdId == holdId)

structure Usage where
  tokens : Int
  cost : Option Int
  unpriced : Bool

def usageOf (rows : List ImportedUsage) : Usage :=
  let costs := rows.filterMap ImportedUsage.costMicros
  let unpriced := rows.any ImportedUsage.unpriced
  { tokens := total (fun row => row.inputTokens + row.outputTokens) rows
    cost := if unpriced ∨ costs = [] then none else some costs.sum
    unpriced := unpriced }

def Store.usageFor : Usage :=
  usageOf (store.usage.filter (·.subjectId = subjectId))

def Store.knownUsageFor : Usage :=
  usageOf (store.usage.filter fun row => row.subjectId = subjectId ∧ row.unknown = false)

end

def Store.hasUnknownUsage (store : Store) (around : Surroundings) (subjectId : String) : Bool :=
  store.usage.any (fun row => row.subjectId == subjectId && row.unknown) ||
    around.grantHeld subjectId

/-! Writing. -/

def applyDeltas (deltas : Deltas) (accountId : String) : Work Unit := do
  let known ← view fun store => store.accounts.any (·.accountId == accountId)
  if known then
    write fun store => { store with
      accounts := amend (·.accountId = accountId) (·.add deltas) store.accounts }
  else stop (refuse ("unknown budget account " ++ accountId))

def applyAlong (deltas : Deltas) (snapshots : List Account) : Work Unit :=
  snapshots.forM fun snapshot => applyDeltas deltas snapshot.accountId

def amendReservation (subjectId : String) (f : Reservation → Reservation) : Work Unit :=
  write fun store => { store with
    reservations := amend (·.subjectId = subjectId) f store.reservations }

def amendHold (holdId : String) (f : TailHold → TailHold) : Work Unit :=
  write fun store => { store with holds := amend (·.holdId = holdId) f store.holds }

/-! The ledger. -/

def openAccount (accountId scope : String) (parentId : Option String) (missionId : String)
    (limits : Budget) : Work Account := do
  match parentId with
  | none => pure ()
  | some parentId => do
    let parent ← account parentId
    ensure (limits.fitsWithin parent.limits = true) (.refused ([.text (scope ++ " budget ")] ++
      limits.text ++ [.text " exceeds parent "] ++ parent.limits.text ++ [.text " (§18.2)"]))
  write fun store =>
    if store.accounts.any (·.accountId == accountId) then store
    else { store with
      accounts := store.accounts ++ [⟨accountId, scope, parentId, missionId, limits, 0, 0, 0, 1⟩] }
  account accountId

def checkRoom (snapshot : Account) (demand : Resource × Int) : Work Unit :=
  match snapshot.remaining demand.1 with
  | none => pure ()
  | some remaining =>
    ensure (demand.2 ≤ remaining)
      (.exhausted snapshot.accountId demand.1.name demand.2 remaining)

def demands (tokens costMicros toolCalls : Int) (countsAttempt : Bool) : List (Resource × Int) :=
  [(.tokens, tokens), (.costMicros, costMicros)] ++
    (if countsAttempt then [(.attempts, 1)] else []) ++ [(.toolCalls, toolCalls)]

def removePrefix (lead s : String) : String :=
  if s.toList.take lead.length = lead.toList then String.ofList (s.toList.drop lead.length) else s

def missionOf (snapshots : List Account) : String :=
  match snapshots.find? (·.scope == "mission") with
  | some snapshot => removePrefix "budget:" snapshot.accountId
  | none => removePrefix "budget:" ((snapshots.getLast?.map Account.accountId).getD "")

def reserve (accountId subjectId : String) (tokens costMicros : Int) (countsAttempt : Bool)
    (toolCalls : Int) (missionId : Option String) : Work String := do
  let existing ← view (·.reservation subjectId)
  match existing with
  | some row => pure row.reservationId
  | none => do
    let snapshots ← chain accountId
    snapshots.forM fun snapshot =>
      (demands tokens costMicros toolCalls countsAttempt).forM (checkRoom snapshot)
    applyAlong ⟨⟨tokens, costMicros, toolCalls, 0⟩, ⟨0, 0, 0, if countsAttempt then 1 else 0⟩, 0⟩
      snapshots
    write fun store => { store with
      reservations := store.reservations ++ [⟨"reservation-" ++ subjectId, accountId,
        missionId.getD (missionOf snapshots), subjectId, .reserved, tokens, costMicros, toolCalls,
        none, none, none, false⟩] }
    pure ("reservation-" ++ subjectId)

def releaseAttempt (accountId : String) : Work Unit := do
  let snapshots ← chain accountId
  ensure (∀ snapshot ∈ snapshots, 1 ≤ snapshot.charged.attempts)
    (refuse ("no attempt to release on " ++ accountId))
  applyAlong ⟨0, ⟨0, 0, 0, -1⟩, 0⟩ snapshots

def liveReservation (subjectId message : String) : Work Reservation := do
  let found ← view (·.reservation subjectId)
  let row ← orStop found (refuse message)
  ensure (row.state = .reserved) (refuse message)
  pure row

def grow (subjectId : String) (tokens costMicros : Int) : Work Unit := do
  ensure (0 ≤ tokens ∧ 0 ≤ costMicros) (refuse "reservation allowance must be nonnegative integers")
  let row ← liveReservation subjectId "reservation grow requires a live original subject"
  let more : Figures :=
    ⟨max 0 (tokens - row.reservedTokens), max 0 (costMicros - row.reservedCostMicros), 0, 0⟩
  if more = 0 then pure ()
  else do
    let snapshots ← chain row.accountId
    snapshots.forM fun snapshot =>
      [(Resource.tokens, more.tokens), (.costMicros, more.costMicros)].forM (checkRoom snapshot)
    applyAlong ⟨more, 0, 0⟩ snapshots
    amendReservation subjectId fun r => { r with
      reservedTokens := r.reservedTokens + more.tokens
      reservedCostMicros := r.reservedCostMicros + more.costMicros }

/-- Each reference lands once; a known fact replaces an unknown row. The count is of rows written. -/
def importFact (subjectId missionId : String) (usage : List ImportedUsage × Nat) (fact : UsageFact) :
    List ImportedUsage × Nat :=
  let unpriced := decide (fact.costMicros = none) && !fact.unknown
  match usage.1.find? (·.usageRef == fact.usageRef) with
  | none => (usage.1 ++ [⟨fact.usageRef, subjectId, missionId, fact.inputTokens, fact.outputTokens,
      fact.costMicros, unpriced, fact.unknown⟩], usage.2 + 1)
  | some row =>
    if row.unknown ∧ fact.unknown = false then
      (amend (·.usageRef = fact.usageRef) (fun r => { r with
        inputTokens := fact.inputTokens
        outputTokens := fact.outputTokens
        costMicros := fact.costMicros
        unpriced := unpriced
        unknown := fact.unknown }) usage.1, usage.2 + 1)
    else usage

def importUsage (subjectId missionId : String) (facts : List UsageFact) : Work Nat := do
  let imported ← view fun store =>
    facts.foldl (importFact subjectId missionId) (store.usage, 0)
  write fun store => { store with usage := imported.1 }
  pure imported.2

/-- The writes of a settlement: the chain gives back what was held and takes the charge. -/
def closeReservation (row : Reservation) (charge : Figures) (cost : Option Int) (unpriced : Bool) :
    Work Reservation := do
  let snapshots ← chain row.accountId
  applyAlong ⟨-row.held, charge, if unpriced then 1 else 0⟩ snapshots
  let close := fun r : Reservation => { r with
    state := .settled
    settledTokens := some charge.tokens
    settledCostMicros := cost
    settledToolCalls := some charge.toolCalls
    unpriced := unpriced }
  amendReservation row.subjectId close
  pure (close row)

def settling (subjectId : String) (close : Reservation → Work Reservation) : Work Reservation := do
  let found ← view (·.reservation subjectId)
  let row ← orStop found (refuse ("no reservation for " ++ subjectId))
  if row.state = .settled then pure row else close row

def chargeOf (usage : Usage) (toolCalls : Int) : Figures :=
  ⟨usage.tokens, usage.cost.getD 0, toolCalls, 0⟩

def settle (around : Surroundings) (subjectId : String) (toolCalls : Int) : Work Reservation :=
  settling subjectId fun row => do
    let unknown ← view (·.hasUnknownUsage around subjectId)
    ensure (unknown = false)
      (refuse (subjectId ++ " has an unknown provider charge; reservation held"))
    let usage ← view (·.usageFor subjectId)
    closeReservation row (chargeOf usage toolCalls) usage.cost usage.unpriced

def settleKnown (subjectId : String) (toolCalls : Int) : Work Reservation :=
  settling subjectId fun row => do
    let usage ← view (·.knownUsageFor subjectId)
    closeReservation row (chargeOf usage toolCalls) usage.cost usage.unpriced

def upperCharge (row : Reservation) (usage : Usage) : Figures :=
  ⟨max row.reservedTokens usage.tokens, max row.reservedCostMicros (usage.cost.getD 0), 0, 0⟩

def settleAtUpperBound (subjectId : String) : Work Reservation :=
  settling subjectId fun row => do
    let usage ← view (·.knownUsageFor subjectId)
    let charge := upperCharge row usage
    closeReservation row charge (some charge.costMicros) usage.unpriced

end Budgets
