import HarnessSdk.Planning.Methods
import HarnessSdk.Library.Metered

/-! The in-memory ledger of duties: what each has cost, and the recursion fuel it has left. -/
namespace Obligations
open PyDict PyText Checks Network Planning Metered

/-! Boundary validators. -/

def maxId : Nat := 512

def maxList : Nat := 256

def maxJsonInt : Int := 9007199254740991

def isControl (c : Char) : Bool :=
  let n := c.toNat
  n ≤ 8 ∨ n = 11 ∨ n = 12 ∨ 14 ≤ n ∧ n ≤ 31 ∨ n = 127

def identifier (value name : String) : Except Message Unit := do
  require (strip value ≠ "") [.text (name ++ " must not be blank")]
  require (value.length ≤ maxId) [.text (name ++ " exceeds 512 characters")]
  require (value.toList.any isControl = false)
    [.text (name ++ " must not contain control characters")]

def optionalIdentifier (value : Option String) (name : String) : Except Message Unit :=
  match value with
  | none => .ok ()
  | some value => identifier value name

def identifiers (values : List String) (name : String) : Except Message Unit := do
  every (fun entry => identifier entry.1 (name ++ "[" ++ toString entry.2 ++ "]")) values.zipIdx
  require (values.length ≤ maxList) [.text (name ++ " has more than 256 entries")]
  require values.Nodup [.text (name ++ " must not contain duplicates")]

def text (value name : String) (limit : Nat) : Except Message Unit := do
  require (strip value ≠ "") [.text (name ++ " must not be blank")]
  require (value.length ≤ limit) [.text (name ++ " exceeds " ++ toString limit ++ " characters")]

def index (value : Int) (name : String) (minimum : Int) : Except Message Int := do
  require (minimum ≤ value) [.text (name ++ " must be >= " ++ toString minimum)]
  require (value ≤ maxJsonInt) [.text (name ++ " exceeds the safe JSON integer range")]
  pure value

def indexOf (value : Option Int) (name : String) (minimum : Int) : Except Message Int :=
  match value with
  | none => .error [.text (name ++ " must be an integer")]
  | some value => index value name minimum

/-! Duties. -/

inductive FuelStatus
  | granted
  | boundReached
  | repeatedExpansion
deriving DecidableEq

inductive ShapeChange
  | taskRenamed
  | methodSwitched
  | agentReassigned
  | parametersRebound
  | successorTask
deriving DecidableEq

structure Obligation where
  obligationId : ObligationId
  missionId : String
  requirementRefs : List String
  goalSignatureId : String
  scope : String := "mission"
  authorityRef : Option String := none
  budgetLineageRef : Option String := none
  lifecycle : ObligationLifecycle := .unsatisfied
  resolutionRef : Option String := none
  parentObligationId : Option ObligationId := none
deriving DecidableEq

def Obligation.postInit (duty : Obligation) : Except Message Unit := do
  identifier duty.obligationId "obligation.obligation_id"
  identifier duty.missionId "obligation.mission_id"
  identifiers duty.requirementRefs "obligation.requirement_refs"
  identifier duty.goalSignatureId "obligation.goal_signature_id"
  identifier duty.scope "obligation.scope"
  optionalIdentifier duty.authorityRef "obligation.authority_ref"
  optionalIdentifier duty.budgetLineageRef "obligation.budget_lineage_ref"
  optionalIdentifier duty.resolutionRef "obligation.resolution_ref"
  optionalIdentifier duty.parentObligationId "obligation.parent_obligation_id"
  require (duty.parentObligationId ≠ some duty.obligationId)
    [.text "an obligation may not be its own parent"]
  require (duty.lifecycle = .satisfied → duty.resolutionRef.isSome)
    [.text "a SATISFIED obligation needs its current resolution_ref (§6.1)"]

structure ExpansionRecord where
  methodId : String
  parametersDigest : String
  taskId : Option String := none
deriving DecidableEq

def ExpansionRecord.key (expansion : ExpansionRecord) : String × String :=
  (expansion.methodId, expansion.parametersDigest)

structure Account where
  obligation : Obligation
  fuelLimit : Int
  fuelUsed : Int := 0
  failureCount : Int := 0
  consumedCostMicros : Int := 0
  consumedAttempts : Int := 0
  consumedTokens : Int := 0
  demandAdmitted : Bool := false
  expansionKeys : List (String × String) := []
  shapeChanges : List (ShapeChange × String) := []
  lifecycle : ObligationLifecycle := obligation.lifecycle
  resolutionRef : Option String := obligation.resolutionRef
deriving DecidableEq

structure ObligationAccountView where
  obligationId : ObligationId
  failureCount : Int
  consumedCostMicros : Int
  consumedAttempts : Int
  consumedTokens : Int
  hasAdmittedDemand : Bool
  fuelLimit : Int
  fuelUsed : Int
  expansions : Nat
  shapeChanges : Nat
  lifecycle : ObligationLifecycle
  resolutionRef : Option String
deriving DecidableEq

def Account.view (account : Account) : ObligationAccountView where
  obligationId := account.obligation.obligationId
  failureCount := account.failureCount
  consumedCostMicros := account.consumedCostMicros
  consumedAttempts := account.consumedAttempts
  consumedTokens := account.consumedTokens
  hasAdmittedDemand := account.demandAdmitted
  fuelLimit := account.fuelLimit
  fuelUsed := account.fuelUsed
  expansions := account.expansionKeys.length
  shapeChanges := account.shapeChanges.length
  lifecycle := account.lifecycle
  resolutionRef := account.resolutionRef

def Account.remaining (account : Account) : Int := max (account.fuelLimit - account.fuelUsed) 0

structure FuelDecision where
  status : FuelStatus
  remainingFuel : Int
  reason : String
deriving DecidableEq

/-! The ledger. -/

structure ObligationLedger where
  defaultFuel : Int
  accounts : Dict ObligationId Account

def ObligationLedger.init (defaultFuel : Int) : Except Message ObligationLedger := do
  require (0 ≤ defaultFuel) [.text "default_fuel must be a non-negative integer"]
  pure ⟨defaultFuel, []⟩

abbrev Work (α : Type) := Metered ObligationLedger Message α

section
variable (target : ObligationId)

def requireAccount : Work Account := do
  let found ← view fun ledger => get? ledger.accounts target
  orStop found [.text ("obligation " ++ target ++ " is not registered")]

def account : Work ObligationAccountView := do
  let row ← requireAccount target
  pure row.view

def put (row : Account) : Work Unit :=
  write fun ledger => { ledger with accounts := set ledger.accounts target row }

def register (obligation : Obligation) (recursionFuel : Option Int) : Work Unit := do
  let defaultFuel ← view ObligationLedger.defaultFuel
  let known ← view fun ledger => get? ledger.accounts obligation.obligationId
  ensure (known = none) [.text ("obligation " ++ obligation.obligationId ++
    " is already registered; a genuinely new duty needs a new obligation_id (§6.1)")]
  let fuel ← lift (match recursionFuel with
    | none => .ok defaultFuel
    | some fuel => index fuel "fuel" 0)
  put obligation.obligationId ⟨obligation, fuel, 0, 0, 0, 0, 0, false, [], [],
    obligation.lifecycle, obligation.resolutionRef⟩

def fundingOf (opening : ObligationOpening) (parent : Account) (grantedFuel : Option Int) :
    Except Message (Int × Int) :=
  match opening.budgetInheritance with
  | .inheritParentFuelShare => do
    require (grantedFuel = none)
      [.text "an inherited allowance takes its fuel from the parent, not from a grant"]
    let share ← indexOf (opening.fuelShare.map Int.ofNat) "opening.fuel_share" 1
    require (share ≤ parent.remaining) [.text ("the parent duty has " ++
      toString parent.remaining ++ " fuel left and cannot hand over " ++ toString share ++
      "; report BOUND_REACHED instead of over-allocating (ADR-08)")]
    pure (share, share)
  | .separateGrant => do
    require grantedFuel.isSome
      [.text "a separately granted duty needs the fuel its grant actually provides"]
    let fuel ← indexOf grantedFuel "granted_fuel" 0
    pure (fuel, 0)

def childOf (opening : ObligationOpening) (parent : Account) : Obligation where
  obligationId := opening.obligationId
  missionId := parent.obligation.missionId
  requirementRefs := opening.requirementRefs
  goalSignatureId := opening.goalSignature.signatureId
  scope := parent.obligation.scope
  authorityRef := match opening.authorizationRef with
    | none => parent.obligation.authorityRef
    | some ref => some ref.id
  budgetLineageRef := match opening.budgetInheritance with
    | .separateGrant => opening.grantRef
    | .inheritParentFuelShare => parent.obligation.budgetLineageRef
  parentObligationId := some opening.parentObligationId

def openFrom (opening : ObligationOpening) (parentAccount : ObligationAccountView)
    (grantedFuel : Option Int) : Work ObligationAccountView := do
  ensure (parentAccount.obligationId = opening.parentObligationId)
    [.text "open_from was given another duty's account than the opening's parent"]
  let parent ← requireAccount opening.parentObligationId
  let current ← account opening.parentObligationId
  ensure (current = parentAccount) [.text ("the parent account for " ++
    opening.parentObligationId ++
    " has changed since it was read; re-read it and decide again")]
  let known ← view fun ledger => get? ledger.accounts opening.obligationId
  ensure (known = none) [.text ("obligation " ++ opening.obligationId ++
    " is already registered; a duty that exists is referenced, not opened again (§6.1)")]
  ensure (parent.lifecycle = .unsatisfied) [.text ("the parent duty " ++
    opening.parentObligationId ++ " is " ++ parent.lifecycle.text ++
    " and cannot fund new work")]
  let (childFuel, share) ← lift (fundingOf opening parent grantedFuel)
  let child := childOf opening parent
  lift child.postInit
  put opening.parentObligationId { parent with fuelLimit := parent.fuelLimit - share }
  put opening.obligationId ⟨child, childFuel, 0, 0, 0, 0, 0, false, [], [], child.lifecycle,
    child.resolutionRef⟩
  account opening.obligationId

/-! Accumulation. -/

def recordFailure (count : Int) : Work Int := do
  let row ← requireAccount target
  let count ← lift (index count "count" 1)
  put target { row with failureCount := row.failureCount + count }
  pure (row.failureCount + count)

def recordSpend (costMicros attempts tokens : Int) :
    Work ObligationAccountView := do
  let row ← requireAccount target
  let spent ← lift (index costMicros "cost_micros" 0)
  let tries ← lift (index attempts "attempts" 0)
  let spentTokens ← lift (index tokens "tokens" 0)
  put target { row with
    consumedCostMicros := row.consumedCostMicros + spent
    consumedAttempts := row.consumedAttempts + tries
    consumedTokens := row.consumedTokens + spentTokens }
  account target

def admitDemand : Work ObligationAccountView := do
  let row ← requireAccount target
  ensure (row.lifecycle = .unsatisfied)
    [.text "a demand may only be admitted against an open obligation"]
  ensure (row.demandAdmitted = false) [.text ("obligation " ++ target ++
    " already has an admitted demand; a second consumer registers its own DemandRef")]
  put target { row with demandAdmitted := true }
  account target

def withdrawDemand : Work ObligationAccountView := do
  let row ← requireAccount target
  ensure (row.demandAdmitted = true)
    [.text ("obligation " ++ target ++ " has no admitted demand to withdraw")]
  put target { row with demandAdmitted := false }
  account target

def noteShapeChange (change : ShapeChange) (detail : String) :
    Work ObligationAccountView := do
  let row ← requireAccount target
  lift (text detail "detail" 512)
  put target { row with shapeChanges := row.shapeChanges ++ [(change, detail)] }
  account target

def setLifecycle (lifecycle : ObligationLifecycle)
    (resolutionRef : Option String) : Work ObligationAccountView := do
  let row ← requireAccount target
  lift (optionalIdentifier resolutionRef "resolution_ref")
  ensure (lifecycle = .satisfied → resolutionRef.isSome)
    [.text "a SATISFIED obligation needs a resolution_ref"]
  put target { row with
    lifecycle := lifecycle
    resolutionRef := resolutionRef.or row.resolutionRef }
  account target

/-! Recursion fuel. -/

/-- Spends one unit; a repeated expansion is free, and a spent allowance is a bound. -/
def consumeFuel (expansion : ExpansionRecord) : Work FuelDecision := do
  let row ← requireAccount target
  if expansion.key ∈ row.expansionKeys then
    pure ⟨.repeatedExpansion, row.remaining,
      "this obligation was already expanded with the same method and parameters"⟩
  else if row.fuelLimit ≤ row.fuelUsed then
    pure ⟨.boundReached, 0, "recursion fuel for this obligation is exhausted"⟩
  else do
    let spent := { row with
      fuelUsed := row.fuelUsed + 1
      expansionKeys := row.expansionKeys ++ [expansion.key] }
    put target spent
    pure ⟨.granted, spent.remaining, "expansion admitted"⟩

end

/-! Runs. -/

inductive Operation
  | register (obligation : Obligation) (recursionFuel : Option Int)
  | openFrom (opening : ObligationOpening) (parentAccount : ObligationAccountView)
      (grantedFuel : Option Int)
  | recordFailure (target : ObligationId) (count : Int)
  | recordSpend (target : ObligationId) (costMicros attempts tokens : Int)
  | admitDemand (target : ObligationId)
  | withdrawDemand (target : ObligationId)
  | noteShapeChange (target : ObligationId) (change : ShapeChange) (detail : String)
  | setLifecycle (target : ObligationId) (lifecycle : ObligationLifecycle)
      (resolutionRef : Option String)
  | consumeFuel (target : ObligationId) (expansion : ExpansionRecord)

def perform : Operation → Work (Option FuelDecision)
  | .register obligation recursionFuel => do
    register obligation recursionFuel
    pure none
  | .openFrom opening parentAccount grantedFuel => do
    let _ ← openFrom opening parentAccount grantedFuel
    pure none
  | .recordFailure target count => do
    let _ ← recordFailure target count
    pure none
  | .recordSpend target costMicros attempts tokens => do
    let _ ← recordSpend target costMicros attempts tokens
    pure none
  | .admitDemand target => do
    let _ ← admitDemand target
    pure none
  | .withdrawDemand target => do
    let _ ← withdrawDemand target
    pure none
  | .noteShapeChange target change detail => do
    let _ ← noteShapeChange target change detail
    pure none
  | .setLifecycle target lifecycle resolutionRef => do
    let _ ← setLifecycle target lifecycle resolutionRef
    pure none
  | .consumeFuel target expansion => do
    let decision ← consumeFuel target expansion
    pure (some decision)

end Obligations
