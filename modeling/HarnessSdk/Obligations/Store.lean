import HarnessSdk.Obligations.Ledger

/-! The durable twin of the ledger: the obligations tables with their constraints, and the
operations of the store on them. -/
namespace Obligations
open PyDict PyText Checks Network Planning Metered

/-! Rows. -/

/-- The largest integer of a column; what is larger becomes REAL, which a STRICT table refuses. -/
def maxInteger : Int := 9223372036854775807

structure ObligationRow where
  missionId : String
  obligationId : ObligationId
  lifecycle : ObligationLifecycle
  resolutionRef : Option String
  parentObligationId : Option ObligationId
  failureCount : Int := 0
  spentTokens : Int := 0
  spentCostMicros : Int := 0
  spentAttempts : Int := 0
  fuelLimit : Int
  fuelUsed : Int := 0
  fuelRemaining : Int
  demandAdmitted : Bool := false
  document : Obligation
  createdAt : Nat
deriving DecidableEq

inductive StoreError
  | contract (message : Message)
  | conflict (message : Message)
  | integrity (text : String)
deriving DecidableEq

def ObligationRow.counters (row : ObligationRow) : List (String × Int) :=
  [("failure_count", row.failureCount), ("spent_tokens", row.spentTokens),
    ("spent_cost_micros", row.spentCostMicros), ("spent_attempts", row.spentAttempts),
    ("fuel_limit", row.fuelLimit), ("fuel_used", row.fuelUsed),
    ("fuel_remaining", row.fuelRemaining)]

def ObligationRow.check (row : ObligationRow) : Except StoreError Unit := do
  every (fun counter => require (counter.2 ≤ maxInteger)
    (.integrity ("cannot store REAL value in INTEGER column obligations." ++ counter.1)))
    row.counters
  every (fun counter => require (0 ≤ counter.2)
    (.integrity ("CHECK constraint failed: " ++ counter.1 ++ ">=0"))) row.counters
  require (row.fuelUsed ≤ row.fuelLimit)
    (.integrity "CHECK constraint failed: fuel_used<=fuel_limit")
  require (row.demandAdmitted = false ∨ row.lifecycle = .unsatisfied)
    (.integrity "CHECK constraint failed: demand_admitted=0 OR lifecycle='UNSATISFIED'")
  require (row.fuelRemaining = row.fuelLimit - row.fuelUsed)
    (.integrity "CHECK constraint failed: fuel_remaining=fuel_limit-fuel_used")
  require (row.parentObligationId ≠ some row.obligationId)
    (.integrity "CHECK constraint failed: obligation_id<>parent_obligation_id")
  require (row.lifecycle = .satisfied → row.resolutionRef.isSome)
    (.integrity "CHECK constraint failed: lifecycle<>'SATISFIED' OR resolution_ref IS NOT NULL")

structure ExpansionRow where
  record : ExpansionRecord
  ordinal : Nat
deriving DecidableEq

structure ShapeChangeRow where
  change : ShapeChange
  detail : String
  ordinal : Nat
deriving DecidableEq

/-- A duty with the rows of `obligation_expansions` and `obligation_shape_changes` that refer to
it by their foreign keys. -/
structure DutyRows where
  row : ObligationRow
  expansions : List ExpansionRow := []
  shapeChanges : List ShapeChangeRow := []
deriving DecidableEq

structure ObligationRelationRow where
  missionId : String
  parentObligationId : ObligationId
  childObligationId : ObligationId
  kind : ObligationRelation
  activeRevision : Int
  detail : String
deriving DecidableEq

/-- `PRIMARY KEY(mission_id, obligation_id)`. -/
abbrev DutyKey := String × ObligationId

structure Tables where
  duties : Dict DutyKey DutyRows := []
  relations : List ObligationRelationRow := []
deriving DecidableEq

abbrev Stored (α : Type) := Metered Tables StoreError α

def transaction {α : Type} (body : Stored α) : Stored α := fun t =>
  match body t with
  | (.ok a, t') => (.ok a, t')
  | (.error e, _) => (.error e, t)

def orConflict {α : Type} (text : String) (statement : Stored α) : Stored α := fun t =>
  match statement t with
  | (.error (.integrity e), t') => (.error (.conflict [.text (text ++ e)]), t')
  | outcome => outcome

def validated {α : Type} (x : Except Message α) : Stored α := lift (x.mapError .contract)

def DutyRows.view (duty : DutyRows) : ObligationAccountView where
  obligationId := duty.row.obligationId
  failureCount := duty.row.failureCount
  consumedCostMicros := duty.row.spentCostMicros
  consumedAttempts := duty.row.spentAttempts
  consumedTokens := duty.row.spentTokens
  hasAdmittedDemand := duty.row.demandAdmitted
  fuelLimit := duty.row.fuelLimit
  fuelUsed := duty.row.fuelUsed
  expansions := duty.expansions.length
  shapeChanges := duty.shapeChanges.length
  lifecycle := duty.row.lifecycle
  resolutionRef := duty.row.resolutionRef

def ExpansionRow.ordered (rows : List ExpansionRow) : List ExpansionRow :=
  rows.insertionSort (fun a b => a.ordinal ≤ b.ordinal)

def ShapeChangeRow.ordered (rows : List ShapeChangeRow) : List ShapeChangeRow :=
  rows.insertionSort (fun a b => a.ordinal ≤ b.ordinal)

def nextOrdinal (ordinals : List Nat) : Nat := ordinals.foldl max 0 + 1

namespace ObligationStore

def defaultRecursionFuel : Int := 3

def notRegistered (mission duty : String) : StoreError :=
  .conflict [.text ("obligation " ++ duty ++ " is not registered in mission " ++ mission)]

def requireRow (mission duty : String) : Stored DutyRows := do
  let found ← view fun t => get? t.duties (mission, duty)
  orStop found (notRegistered mission duty)

def write (mission duty : String) (rows : DutyRows) : Stored Unit :=
  Metered.write fun t => { t with duties := set t.duties (mission, duty) rows }

/-- `UPDATE obligations SET … WHERE mission_id = ? AND obligation_id = ?`, with its row count. -/
def updateRow (mission duty : String) (change : ObligationRow → ObligationRow) : Stored Nat := do
  let found ← view fun t => get? t.duties (mission, duty)
  match found with
  | none => pure 0
  | some rows => do
    lift (change rows.row).check
    write mission duty { rows with row := change rows.row }
    pure 1

/-- `INSERT INTO obligations`, under the primary key and `obligations_identity_idx`. -/
def insertRow (row : ObligationRow) : Stored Unit := do
  let duties ← view Tables.duties
  lift row.check
  ensure (get? duties (row.missionId, row.obligationId) = none)
    (.integrity "UNIQUE constraint failed: obligations.mission_id, obligations.obligation_id")
  ensure (∀ key ∈ keys duties, key.2 ≠ row.obligationId)
    (.integrity "UNIQUE constraint failed: obligations.obligation_id")
  write row.missionId row.obligationId { row := row }

section
variable (mission target : String)

def account : Stored ObligationAccountView := do
  validated (identifier mission "mission_id")
  validated (identifier target "obligation_id")
  let rows ← requireRow mission target
  pure rows.view

def register (obligation : Obligation) (recursionFuel : Option Int) (now : Nat) : Stored Unit := do
  let fuel ← validated (match recursionFuel with
    | none => .ok defaultRecursionFuel
    | some fuel => index fuel "recursion_fuel" 0)
  transaction (orConflict ("obligation " ++ obligation.obligationId ++
      " is already registered; a genuinely new duty needs a new obligation_id (§6.1): ")
    (insertRow {
      missionId := obligation.missionId
      obligationId := obligation.obligationId
      lifecycle := obligation.lifecycle
      resolutionRef := obligation.resolutionRef
      parentObligationId := obligation.parentObligationId
      fuelLimit := fuel
      fuelRemaining := fuel
      document := obligation
      createdAt := now }))

def recordFailure (count : Int) : Stored Int := do
  let steps ← validated (index count "count" 1)
  validated (identifier mission "mission_id")
  validated (identifier target "obligation_id")
  transaction do
    let changed ← updateRow mission target fun row =>
      { row with failureCount := row.failureCount + steps }
    ensure (changed ≠ 0) (notRegistered mission target)
    let rows ← requireRow mission target
    pure rows.row.failureCount

def recordSpend (costMicros attempts tokens : Int) :
    Stored ObligationAccountView := do
  let spent ← validated (index costMicros "cost_micros" 0)
  let tries ← validated (index attempts "attempts" 0)
  let usedTokens ← validated (index tokens "tokens" 0)
  validated (identifier mission "mission_id")
  validated (identifier target "obligation_id")
  transaction do
    let changed ← updateRow mission target fun row =>
      { row with
        spentCostMicros := row.spentCostMicros + spent
        spentAttempts := row.spentAttempts + tries
        spentTokens := row.spentTokens + usedTokens }
    ensure (changed ≠ 0) (notRegistered mission target)
    account mission target

def noteShapeChange (change : ShapeChange) (detail : String) :
    Stored ObligationAccountView := do
  validated (text detail "detail" 512)
  validated (identifier mission "mission_id")
  validated (identifier target "obligation_id")
  transaction do
    let rows ← requireRow mission target
    let ordinal := nextOrdinal (rows.shapeChanges.map (·.ordinal))
    orConflict ("shape change for " ++ target ++ " was rejected: ")
      (ensure (∀ row ∈ rows.shapeChanges, row.ordinal ≠ ordinal)
        (.integrity ("UNIQUE constraint failed: obligation_shape_changes.mission_id, " ++
          "obligation_shape_changes.obligation_id, obligation_shape_changes.ordinal")))
    write mission target { rows with
      shapeChanges := rows.shapeChanges ++ [⟨change, detail, ordinal⟩] }
    account mission target

def setLifecycle (lifecycle : ObligationLifecycle)
    (resolutionRef : Option String) : Stored ObligationAccountView := do
  validated (optionalIdentifier resolutionRef "resolution_ref")
  validated (identifier mission "mission_id")
  validated (identifier target "obligation_id")
  transaction do
    let rows ← requireRow mission target
    let stored := resolutionRef.or rows.row.resolutionRef
    ensure (lifecycle = .satisfied → stored.isSome)
      (.conflict [.text "a SATISFIED obligation needs a resolution_ref"])
    let _ ← orConflict ("obligation " ++ target ++ " may not move to " ++ lifecycle.text ++
        " in its current state: ")
      (updateRow mission target fun row =>
        { row with
          lifecycle := lifecycle
          resolutionRef := stored
          document := { row.document with lifecycle := lifecycle, resolutionRef := stored } })
    account mission target

def admitDemand : Stored ObligationAccountView := do
  validated (identifier mission "mission_id")
  validated (identifier target "obligation_id")
  transaction do
    let rows ← requireRow mission target
    ensure (rows.row.lifecycle = .unsatisfied)
      (.conflict [.text "a demand may only be admitted against an open obligation"])
    ensure (rows.row.demandAdmitted = false)
      (.conflict [.text ("obligation " ++ target ++ " already has an admitted demand; " ++
        "a second consumer registers its own DemandRef")])
    let _ ← updateRow mission target fun row => { row with demandAdmitted := true }
    account mission target

def withdrawDemand : Stored ObligationAccountView := do
  validated (identifier mission "mission_id")
  validated (identifier target "obligation_id")
  transaction do
    let rows ← requireRow mission target
    ensure (rows.row.demandAdmitted = true)
      (.conflict [.text ("obligation " ++ target ++ " has no admitted demand to withdraw")])
    let _ ← updateRow mission target fun row => { row with demandAdmitted := false }
    account mission target

def insertExpansion (rows : DutyRows) (expansion : ExpansionRecord) :
    Stored Unit := do
  let ordinal := nextOrdinal (rows.expansions.map (·.ordinal))
  ensure (∀ row ∈ rows.expansions, row.record.key ≠ expansion.key)
    (.integrity ("UNIQUE constraint failed: obligation_expansions.mission_id, " ++
      "obligation_expansions.obligation_id, obligation_expansions.method_id, " ++
      "obligation_expansions.parameters_digest"))
  ensure (∀ row ∈ rows.expansions, row.ordinal ≠ ordinal)
    (.integrity ("UNIQUE constraint failed: obligation_expansions.mission_id, " ++
      "obligation_expansions.obligation_id, obligation_expansions.ordinal"))
  write mission target { rows with expansions := rows.expansions ++ [⟨expansion, ordinal⟩] }
  let _ ← updateRow mission target fun row =>
    { row with fuelUsed := row.fuelUsed + 1, fuelRemaining := row.fuelRemaining - 1 }

def consumeFuel (expansion : ExpansionRecord) : Stored FuelDecision := do
  validated (identifier mission "mission_id")
  validated (identifier target "obligation_id")
  transaction do
    let rows ← requireRow mission target
    if ∃ row ∈ rows.expansions, row.record.key = expansion.key then
      pure ⟨.repeatedExpansion, rows.row.fuelRemaining,
        "this obligation was already expanded with the same method and parameters"⟩
    else if rows.row.fuelRemaining ≤ 0 then
      pure ⟨.boundReached, 0, "recursion fuel for this obligation is exhausted"⟩
    else do
      orConflict ("expansion of " ++ target ++ " was rejected: ")
        (insertExpansion mission target rows expansion)
      pure ⟨.granted, rows.row.fuelRemaining - 1, "expansion admitted"⟩

end

/-- Relations join duties of one mission; each pair has one row for each kind. -/
def addRelation (mission parent child : String) (kind : ObligationRelation) (activeRevision : Int)
    (detail : String) : Stored ObligationRelationRow := do
  validated (identifier mission "mission_id")
  validated (identifier parent "parent")
  validated (identifier child "child")
  let revision ← validated (index activeRevision "active_revision" 0)
  ensure (parent ≠ child) (.conflict [.text "an obligation may not refine itself"])
  transaction (orConflict "obligation relation rejected: " (do
    let tables ← view id
    ensure (∀ row ∈ tables.relations, row.missionId = mission → row.parentObligationId = parent →
        row.childObligationId = child → row.kind ≠ kind)
      (.integrity ("UNIQUE constraint failed: obligation_relations.mission_id, " ++
        "obligation_relations.parent_obligation_id, obligation_relations.child_obligation_id, " ++
        "obligation_relations.kind"))
    ensure ((get? tables.duties (mission, parent)).isSome ∧
        (get? tables.duties (mission, child)).isSome)
      (.integrity "FOREIGN KEY constraint failed")
    Metered.write fun t =>
      { t with relations := t.relations ++ [⟨mission, parent, child, kind, revision, detail⟩] }
    pure ⟨mission, parent, child, kind, revision, detail⟩))

end ObligationStore

/-! The bridge to the ledger. -/

def ExpansionRecord.postInit (expansion : ExpansionRecord) : Except Message Unit := do
  identifier expansion.methodId "expansion.method_id"
  identifier expansion.parametersDigest "expansion.parameters_digest"
  optionalIdentifier expansion.taskId "expansion.task_id"

/-- One round of `load_ledger`: the ledger's own operations, in a fixed order. -/
def replay (duty : DutyRows) : Work Unit := do
  lift duty.row.document.postInit
  register duty.row.document (some duty.row.fuelLimit)
  let target := duty.row.document.obligationId
  if duty.row.failureCount ≠ 0 then
    let _ ← recordFailure target duty.row.failureCount
  let _ ← recordSpend target duty.row.spentCostMicros duty.row.spentAttempts duty.row.spentTokens
  (ExpansionRow.ordered duty.expansions).forM fun expansion => do
    lift expansion.record.postInit
    let _ ← consumeFuel target expansion.record
  (ShapeChangeRow.ordered duty.shapeChanges).forM fun shape => do
    let _ ← noteShapeChange target shape.change shape.detail
  if duty.row.demandAdmitted then
    let _ ← admitDemand target
  if duty.row.lifecycle ≠ duty.row.document.lifecycle ∨
      duty.row.resolutionRef ≠ duty.row.document.resolutionRef then
    let _ ← setLifecycle target duty.row.lifecycle duty.row.resolutionRef

namespace ObligationStore

def createdBefore (a b : DutyRows) : Bool :=
  a.row.createdAt < b.row.createdAt ||
    a.row.createdAt == b.row.createdAt && decide (a.row.obligationId ≤ b.row.obligationId)

def dutiesOf (t : Tables) (mission : String) : List DutyRows :=
  ((t.duties.filter (·.1.1 = mission)).map Prod.snd).insertionSort fun a b => createdBefore a b

def loadLedger (t : Tables) (mission : String) : Except Message ObligationLedger := do
  identifier mission "mission_id"
  match (dutiesOf t mission).forM replay ⟨defaultRecursionFuel, []⟩ with
  | (.ok _, ledger) => .ok ledger
  | (.error e, _) => .error e

def rowOf (acc : Account) (now : Nat) : ObligationRow where
  missionId := acc.obligation.missionId
  obligationId := acc.obligation.obligationId
  lifecycle := acc.lifecycle
  resolutionRef := acc.resolutionRef
  parentObligationId := acc.obligation.parentObligationId
  failureCount := acc.failureCount
  spentTokens := acc.consumedTokens
  spentCostMicros := acc.consumedCostMicros
  spentAttempts := acc.consumedAttempts
  fuelLimit := acc.fuelLimit
  fuelUsed := acc.fuelUsed
  fuelRemaining := acc.remaining
  demandAdmitted := acc.demandAdmitted
  document := { acc.obligation with
    lifecycle := acc.lifecycle, resolutionRef := acc.resolutionRef }
  createdAt := now

/-- `INSERT … ON CONFLICT(mission_id,obligation_id) DO UPDATE`, which keeps the identity columns,
the parent and the time of creation. -/
def upsertRow (row : ObligationRow) : Stored Unit := do
  let found ← view fun t => get? t.duties (row.missionId, row.obligationId)
  match found with
  | none => insertRow row
  | some _ => do
    lift row.check
    let _ ← updateRow row.missionId row.obligationId fun old =>
      { row with
        parentObligationId := old.parentObligationId
        createdAt := old.createdAt }

/-- `INSERT INTO obligation_expansions … ON CONFLICT DO NOTHING`. -/
def addExpansion (rows : List ExpansionRow) (key : String × String) (ordinal : Nat) :
    List ExpansionRow :=
  if ∃ row ∈ rows, row.record.key = key ∨ row.ordinal = ordinal then rows
  else rows ++ [⟨⟨key.1, key.2, none⟩, ordinal⟩]

def persistDuty (acc : Account) (now : Nat) : Stored Unit := do
  let mission := acc.obligation.missionId
  let target := acc.obligation.obligationId
  upsertRow (rowOf acc now)
  let rows ← requireRow mission target
  write mission target { rows with
    expansions := (acc.expansionKeys.zipIdx 1).foldl
      (fun expansions entry => addExpansion expansions entry.1 entry.2) rows.expansions
    shapeChanges := (acc.shapeChanges.zipIdx 1).map
      fun entry => ⟨entry.1.1, entry.1.2, entry.2⟩ }

def persist (ledger : ObligationLedger) (now : Nat) : Stored Unit :=
  transaction (ledger.accounts.forM fun entry => persistDuty entry.2 now)

end ObligationStore
end Obligations
