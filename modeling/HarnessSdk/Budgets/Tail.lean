import HarnessSdk.Budgets.Ledger

/-! Tail reservations on the same accounts, and the runs of both ledgers. -/
namespace Budgets
open PyDict PyText Checks Graph Tables Metered

def tailText (value name : String) : Work Unit :=
  ensure (strip value ≠ "") (refuse ("tail " ++ name ++ " must be nonempty"))

section
variable (around : Surroundings)

def tailAccount (accountId missionId : String) : Work TaskFacts := do
  let found ← account accountId
  ensure (found.missionId = missionId ∧ found.scope = "task")
    (refuse "tail must stay on a real Task in the original Mission")
  let task ← orStop (around.task (removePrefix "budget:" accountId))
    (refuse "tail Task account has no matching Task")
  ensure (task.missionId = missionId) (refuse "tail Task account has no matching Task")
  ensure (around.missionTerminal missionId = some false) (refuse "tail Mission is terminal")
  ensure (task.terminal = false) (refuse "tail Task is terminal")
  pure task

def purposes : List String := ["selection", "critic", "conflict", "synthesis"]

def reserveTail (holdId taskAccount : String) (reserved : TailReserve)
    (missionId taskRevision purpose : String) : Work TailHold := do
  tailText holdId "identity"
  tailText taskRevision "Task revision"
  ensure (purpose ∈ purposes) (refuse "unknown tail purpose")
  let request : ReserveRequest := ⟨holdId, taskAccount, missionId, taskRevision, purpose, reserved⟩
  let prior ← view (·.hold holdId)
  match prior with
  | some hold => do
    ensure (hold.request = request) (refuse "tail reserve replay changed its frozen contract")
    pure hold
  | none => do
    let _ ← tailAccount around taskAccount missionId
    let snapshots ← chain taskAccount
    snapshots.forM fun snapshot => checkRoom snapshot (.attempts, reserved.attempts)
    let subject := "tail:" ++ holdId
    let used ← view (·.reservation subject)
    ensure (used = none) (refuse "tail subject already belongs to another reservation")
    let _ ← reserve taskAccount subject reserved.tokens reserved.costMicros false reserved.toolCalls
      (some missionId)
    let snapshots ← chain taskAccount
    if reserved.attempts = 0 then pure ()
    else applyAlong ⟨⟨0, 0, 0, reserved.attempts⟩, 0, 0⟩ snapshots
    let hold : TailHold := ⟨holdId, missionId, taskAccount, subject, taskRevision, purpose, request,
      reserved.attempts, .held, none⟩
    write fun store => { store with holds := store.holds ++ [hold] }
    pure hold

def allowedRoles (purpose : String) : List String :=
  if purpose = "selection" then ["synthesis", "critic"]
  else if purpose = "critic" then ["critic"]
  else if purpose = "conflict" then ["conflict", "critic"]
  else if purpose = "synthesis" then ["synthesis", "critic"]
  else []

def TailAllocation.figures (a : TailAllocation) : Figures :=
  ⟨a.tokens, a.costMicros, a.toolCalls, if a.countsAttempt then 1 else 0⟩

def totals (allocations : List TailAllocation) : Figures :=
  ⟨total (·.figures.tokens) allocations, total (·.figures.costMicros) allocations,
    total (·.figures.toolCalls) allocations, total (·.figures.attempts) allocations⟩

/-- The net demand on each account, in the order in which the accounts are met. -/
def bump (figures : Figures) (deltas : Dict String Figures) (snapshots : List Account) :
    Dict String Figures :=
  snapshots.foldl (fun deltas snapshot => set deltas snapshot.accountId
    ((get? deltas snapshot.accountId).getD 0 + figures)) deltas

/-- Whether the allocation may leave the hold's account for its own. -/
def checkDestination (hold : TailHold) (origin : TaskFacts) (a : TailAllocation) : Work Unit := do
  let used ← view (·.reservation a.subjectId)
  ensure (used = none) (refuse "tail destination already has a reservation; no double reserve")
  let target ← tailAccount around a.accountId hold.missionId
  ensure (a.accountId = hold.accountId ∨ (target.kind ∈ ["conflict", "synthesis"] ∧
      (a.role = "critic" ∨ target.kind = a.role) ∧
      origin.id ∈ target.parentTaskIds ++ target.dependencyIds))
    (refuse "tail cannot be diverted to an unrelated Task")
  ensure (a.role ∈ allowedRoles hold.purpose)
    (refuse "tail allocation changed its protected purpose")

def netDemands (hold : TailHold) (origin : TaskFacts) :
    List TailAllocation → Dict String Figures → Work (Dict String Figures)
  | [], deltas => pure deltas
  | a :: rest, deltas => do
    checkDestination around hold origin a
    let snapshots ← chain a.accountId
    netDemands hold origin rest (bump a.figures deltas snapshots)

def resources : List Resource := [.tokens, .costMicros, .toolCalls, .attempts]

def preflight (deltas : Dict String Figures) : Work Unit :=
  deltas.forM fun entry => do
    let snapshot ← account entry.1
    resources.forM fun resource => checkRoom snapshot (resource, entry.2.at resource)

def reserveAllocations (missionId : String) : List TailAllocation → Work (List String)
  | [] => pure []
  | a :: rest => do
    let reservation ← reserve a.accountId a.subjectId a.tokens a.costMicros a.countsAttempt
      a.toolCalls (some missionId)
    let later ← reserveAllocations missionId rest
    pure (reservation :: later)

def checkHold (hold : TailHold) (resource : Resource) (amount left : Int) : Work Unit :=
  ensure (amount ≤ left) (.exhausted hold.accountId resource.name amount left)

def transferTail (holdId transferId : String) (allocations : List TailAllocation)
    (taskRevision : String) : Work TransferReceipt := do
  tailText transferId "transfer identity"
  ensure (allocations ≠ [] ∧ (allocations.map TailAllocation.subjectId).Nodup)
    (refuse "tail transfer requires distinct actual subjects")
  let ordered := sortedBy TailAllocation.subjectId allocations
  let request : TransferRequest := ⟨holdId, transferId, taskRevision, ordered⟩
  let prior ← view fun store =>
    store.transfers.find? fun t => t.holdId == holdId && t.transferId == transferId
  match prior with
  | some transfer => do
    ensure (transfer.request = request) (refuse "tail transfer replay changed allocations")
    pure transfer.receipt
  | none => do
    let bound := refuse "tail hold missing, released or bound to another Task revision"
    let found ← view (·.hold holdId)
    let hold ← orStop found bound
    ensure (hold.state = .held ∧ hold.taskRevision = taskRevision) bound
    let origin ← tailAccount around hold.accountId hold.missionId
    let row ← liveReservation hold.subjectId "tail reservation is not live"
    let unknown ← view (·.hasUnknownUsage around hold.subjectId)
    let usage ← view (·.usageFor hold.subjectId)
    ensure (unknown = false ∧ usage.tokens = 0) (refuse "tail is not an unused hold")
    let amounts := totals ordered
    checkHold hold .attempts amounts.attempts hold.remainingAttempts
    [Resource.tokens, .costMicros, .toolCalls].forM fun resource =>
      checkHold hold resource (amounts.at resource) (row.held.at resource)
    let snapshots ← chain hold.accountId
    let deltas ← netDemands around hold origin ordered (bump (-amounts) [] snapshots)
    preflight deltas
    applyAlong ⟨-amounts, 0, 0⟩ snapshots
    amendHold holdId fun h => { h with remainingAttempts := h.remainingAttempts - amounts.attempts }
    amendReservation hold.subjectId fun r => { r with
      reservedTokens := r.reservedTokens - amounts.tokens
      reservedCostMicros := r.reservedCostMicros - amounts.costMicros
      reservedToolCalls := r.reservedToolCalls - amounts.toolCalls }
    let reservations ← reserveAllocations hold.missionId ordered
    let receipt : TransferReceipt := ⟨request, reservations⟩
    write fun store => { store with
      transfers := store.transfers ++ [⟨holdId, transferId, request, receipt⟩] }
    pure receipt

def growTailAllocation (holdId subjectId taskRevision : String) (tokens costMicros : Nat)
    (minimum : TailReserve) : Work Unit := do
  let bound := refuse "system growth requires its original live Task hold"
  let found ← view (·.hold holdId)
  let hold ← orStop found bound
  ensure (hold.state = .held ∧ hold.taskRevision = taskRevision ∧
    hold.purpose ∈ ["synthesis", "conflict"]) bound
  let _ ← tailAccount around hold.accountId hold.missionId
  let destination := "system growth destination is not its original live reservation"
  let source ← liveReservation hold.subjectId destination
  let target ← liveReservation subjectId destination
  ensure (target.accountId = hold.accountId ∧ target.missionId = hold.missionId ∧
    subjectId ≠ hold.subjectId) (refuse destination)
  let original ← view fun store =>
    store.transfers.find? fun t => t.holdId == holdId && t.transferId == subjectId
  let allocations := (original.map fun t => t.request.allocations).getD []
  ensure (allocations.any (fun a => a.subjectId = subjectId ∧ a.accountId = hold.accountId ∧
      a.role = hold.purpose ∧ a.countsAttempt = true) = true)
    (refuse "system growth has no original Worker transfer receipt")
  let unknown ← view (·.hasUnknownUsage around subjectId)
  let unknown' ← view (·.hasUnknownUsage around hold.subjectId)
  let usage ← view (·.usageFor hold.subjectId)
  ensure (unknown = false ∧ unknown' = false ∧ usage.tokens = 0)
    (refuse "system growth cannot move unresolved or spent allowance")
  let moreTokens := max (tokens : Int) target.reservedTokens - target.reservedTokens
  let moreCost := max (costMicros : Int) target.reservedCostMicros - target.reservedCostMicros
  if moreTokens = 0 ∧ moreCost = 0 then pure ()
  else do
    checkHold hold .tokens moreTokens (max 0 (source.reservedTokens - minimum.tokens))
    checkHold hold .costMicros moreCost (max 0 (source.reservedCostMicros - minimum.costMicros))
    let snapshots ← chain hold.accountId
    snapshots.forM fun snapshot =>
      [(Resource.tokens, (0 : Int)), (.costMicros, 0)].forM (checkRoom snapshot)
    let transferId := "growth:" ++ holdId ++ ":" ++ subjectId ++ ":" ++
      toString (max (tokens : Int) target.reservedTokens) ++ ":" ++
      toString (max (costMicros : Int) target.reservedCostMicros)
    ensure (around.receipt transferId = false)
      (refuse "system growth receipt conflicts with current reservation")
    amendReservation hold.subjectId fun r => { r with
      reservedTokens := r.reservedTokens - moreTokens
      reservedCostMicros := r.reservedCostMicros - moreCost }
    amendReservation subjectId fun r => { r with
      reservedTokens := max (tokens : Int) target.reservedTokens
      reservedCostMicros := max (costMicros : Int) target.reservedCostMicros }

def releaseTail (holdId taskRevision reason : String) : Work Reservation := do
  tailText reason "release reason"
  let found ← view (·.hold holdId)
  let hold ← orStop found (refuse "tail release identity differs")
  ensure (hold.taskRevision = taskRevision) (refuse "tail release identity differs")
  if hold.state = .released then do
    ensure (hold.releaseReason = some reason) (refuse "tail release replay changed reason")
    let row ← view (·.reservation hold.subjectId)
    orStop row (refuse "the hold has no reservation")
  else do
    let row ← settle around hold.subjectId 0
    let snapshots ← chain hold.accountId
    if hold.remainingAttempts = 0 then pure ()
    else applyAlong ⟨⟨0, 0, 0, -hold.remainingAttempts⟩, 0, 0⟩ snapshots
    amendHold holdId fun h => { h with
      state := .released
      remainingAttempts := 0
      releaseReason := some reason }
    pure row

end

/-! Runs. -/

inductive Operation
  | openAccount (accountId scope : String) (parentId : Option String) (missionId : String)
      (limits : Budget)
  | reserve (accountId subjectId : String) (tokens costMicros : Int) (countsAttempt : Bool)
      (toolCalls : Int) (missionId : Option String)
  | grow (subjectId : String) (tokens costMicros : Int)
  | releaseAttempt (accountId : String)
  | importUsage (subjectId missionId : String) (facts : List UsageFact)
  | settle (subjectId : String) (toolCalls : Int)
  | settleKnown (subjectId : String) (toolCalls : Int)
  | settleAtUpperBound (subjectId : String)
  | reserveTail (holdId taskAccount : String) (reserved : TailReserve)
      (missionId taskRevision purpose : String)
  | transferTail (holdId transferId : String) (allocations : List TailAllocation)
      (taskRevision : String)
  | growTailAllocation (holdId subjectId taskRevision : String) (tokens costMicros : Nat)
      (minimum : TailReserve)
  | releaseTail (holdId taskRevision reason : String)

def perform (around : Surroundings) : Operation → Work Unit
  | .openAccount accountId scope parentId missionId limits => do
    let _ ← openAccount accountId scope parentId missionId limits
    pure ()
  | .reserve accountId subjectId tokens costMicros countsAttempt toolCalls missionId => do
    let _ ← reserve accountId subjectId tokens costMicros countsAttempt toolCalls missionId
    pure ()
  | .grow subjectId tokens costMicros => grow subjectId tokens costMicros
  | .releaseAttempt accountId => releaseAttempt accountId
  | .importUsage subjectId missionId facts => do
    let _ ← importUsage subjectId missionId facts
    pure ()
  | .settle subjectId toolCalls => do
    let _ ← settle around subjectId toolCalls
    pure ()
  | .settleKnown subjectId toolCalls => do
    let _ ← settleKnown subjectId toolCalls
    pure ()
  | .settleAtUpperBound subjectId => do
    let _ ← settleAtUpperBound subjectId
    pure ()
  | .reserveTail holdId taskAccount reserved missionId taskRevision purpose => do
    let _ ← reserveTail around holdId taskAccount reserved missionId taskRevision purpose
    pure ()
  | .transferTail holdId transferId allocations taskRevision => do
    let _ ← transferTail around holdId transferId allocations taskRevision
    pure ()
  | .growTailAllocation holdId subjectId taskRevision tokens costMicros minimum =>
    growTailAllocation around holdId subjectId taskRevision tokens costMicros minimum
  | .releaseTail holdId taskRevision reason => do
    let _ ← releaseTail around holdId taskRevision reason
    pure ()

def Store.empty : Store := ⟨[], [], [], [], []⟩

/-- One step of a run: the other tables as they are then, and the operation. -/
structure Action where
  around : Surroundings
  operation : Operation

end Budgets
