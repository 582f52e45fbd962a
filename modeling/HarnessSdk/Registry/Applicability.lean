import HarnessSdk.Knowledge.Support
import HarnessSdk.Registry.Admission

/-! The interpreter of structured conditions, and the report on one method. -/
namespace Registry
open PyDict PyText Checks Workflow Contracts
open Network (TruthValue Validity Availability)
open Knowledge (SupportCount)

inductive SupportProvenance
  | observed
  | closedWorldAuthoritative
  | missing
  | stale
  | constant
  | unresolved
deriving DecidableEq

def SupportProvenance.text : SupportProvenance → String
  | .observed => "observed"
  | .closedWorldAuthoritative => "closed_world_authoritative"
  | .missing => "missing"
  | .stale => "stale"
  | .constant => "constant"
  | .unresolved => "unresolved"

/-- `AUTHORIZING_PROVENANCE`. -/
def SupportProvenance.authorizes : SupportProvenance → Bool
  | .observed => true
  | .closedWorldAuthoritative => true
  | _ => false

structure EvidenceEntry where
  propositionKey : String
  support : SupportCount
  validity : Validity := .current
  availability : Availability := .readable
  authoritativeNegative : Bool := false
  notAfterMs : Option Nat := none

def EvidenceEntry.truth (entry : EvidenceEntry) (nowMs : Option Nat) : TruthValue :=
  if entry.validity ≠ .current ∨ entry.availability ≠ .readable then .unknown
  else if nowMs.any (fun now => entry.notAfterMs.any (· < now)) then .unknown
  else entry.support.truth

abbrev EvidenceSnapshot := List EvidenceEntry

def EvidenceSnapshot.lookup (snapshot : EvidenceSnapshot) (key : String) : Option EvidenceEntry :=
  snapshot.find? (·.propositionKey = key)

def notTruth : TruthValue → TruthValue
  | .true => .false
  | .false => .true
  | truth => truth

def allTruth (values : List TruthValue) : TruthValue :=
  if .false ∈ values then .false
  else if .conflict ∈ values then .conflict
  else if .unknown ∈ values then .unknown
  else .true

def anyTruth (values : List TruthValue) : TruthValue :=
  if .true ∈ values then .true
  else if .conflict ∈ values then .conflict
  else if .unknown ∈ values then .unknown
  else .false

/-- The value of one condition plus what would be needed to improve it. -/
structure ConditionEvaluation where
  truth : TruthValue
  provenance : List SupportProvenance := []
  typeErrors : List Message := []
  unknownPropositions : List String := []
  conflictingPropositions : List String := []

def ConditionEvaluation.mergedWith (seed : ConditionEvaluation)
    (others : List ConditionEvaluation) (truth : TruthValue) : ConditionEvaluation where
  truth := truth
  provenance := fromkeys (seed.provenance ++ others.flatMap (·.provenance))
  typeErrors := fromkeys (seed.typeErrors ++ others.flatMap (·.typeErrors))
  unknownPropositions :=
    fromkeys (seed.unknownPropositions ++ others.flatMap (·.unknownPropositions))
  conflictingPropositions :=
    fromkeys (seed.conflictingPropositions ++ others.flatMap (·.conflictingPropositions))

def combine (children : List ConditionEvaluation) (truth : TruthValue) : ConditionEvaluation :=
  if children.isEmpty then { truth := truth, provenance := [.constant] }
  else ConditionEvaluation.mergedWith { truth := truth } children truth

mutual
/-- `ground_value`: what an expression becomes. A read that fails becomes nothing. -/
def groundValue (parameters : Dict String Json) : ValueExpr → Json
  | .constant value => value.value
  | .parameter name => (get? parameters name.text).getD .null
  | .output _ _ => .null
  | .object fields => .obj (groundFields parameters fields)
  | .array items => .arr (groundItems parameters items)

def groundFields (parameters : Dict String Json) :
    List (String × ValueExpr) → List (String × Json)
  | [] => []
  | field :: rest => (field.1, groundValue parameters field.2) :: groundFields parameters rest

def groundItems (parameters : Dict String Json) : List ValueExpr → List Json
  | [] => []
  | item :: rest => groundValue parameters item :: groundItems parameters rest
end

mutual
/-- The errors `ground_value` notes on its way. -/
def groundErrors (parameters : Dict String Json) (path : String) : ValueExpr → List Message
  | .constant _ => []
  | .parameter name =>
    if (get? parameters name.text).isSome then []
    else [[.text s!"{path}: no bound parameter named ", .repr name.text]]
  | .output step port =>
    [[.text (s!"{path}: a precondition may not read step output {step.text}.{port.text} (§6.6)")]]
  | .object fields => fieldErrors parameters path fields
  | .array items => itemErrors parameters path 0 items

def fieldErrors (parameters : Dict String Json) (path : String) :
    List (String × ValueExpr) → List Message
  | [] => []
  | field :: rest =>
    groundErrors parameters s!"{path}.{field.1}" field.2 ++ fieldErrors parameters path rest

def itemErrors (parameters : Dict String Json) (path : String) :
    Nat → List ValueExpr → List Message
  | _, [] => []
  | position, item :: rest =>
    groundErrors parameters s!"{path}[{position}]" item ++
      itemErrors parameters path (position + 1) rest
end

structure World where
  contentHashOf : Json → HashHex
  registry : Catalog PredicateSignature
  snapshot : EvidenceSnapshot
  parameters : Dict String Json
  nowMs : Option Nat := none

namespace World
variable (world : World)

def propositionKey (signature : PredicateSignature) (arguments : Dict String Json) : String :=
  let digest := world.contentHashOf (.obj [("predicate", signature.predicateRef.toJson),
    ("arguments", .obj (sortedBy Prod.fst arguments))])
  s!"{signature.predicateRef.id.text}@{signature.predicateRef.version.number}#" ++
    String.ofList (digest.text.toList.take 32)

def atomTruth (entry : Option EvidenceEntry) : TruthValue :=
  match entry with
  | none => .unknown
  | some entry => entry.truth world.nowMs

def atomProvenance (signature : PredicateSignature) (entry : Option EvidenceEntry) :
    SupportProvenance :=
  match entry with
  | none => .missing
  | some entry =>
    if entry.truth world.nowMs = .unknown then
      if 0 < entry.support.t ∨ 0 < entry.support.f then .stale else .missing
    else if signature.worldAssumption = .closed ∧ entry.authoritativeNegative = true ∧
        0 < entry.support.f then .closedWorldAuthoritative
    else .observed

def unresolved (errors : List Message) : ConditionEvaluation where
  truth := .unknown
  provenance := [.unresolved]
  typeErrors := errors

def grounded (arguments : Dict String ValueExpr) : Dict String Json :=
  arguments.map fun argument => (argument.1, groundValue world.parameters argument.2)

def argumentErrors (path : String) (arguments : Dict String ValueExpr) : List Message :=
  arguments.flatMap fun argument =>
    groundErrors world.parameters s!"{path}.{argument.1}" argument.2

def evaluateAtom (ref : VersionedRef) (arguments : Dict String ValueExpr) (path : String) :
    ConditionEvaluation :=
  match world.registry.resolve PredicateSignature.predicateRef ref with
  | none => unresolved [[.text s!"{path}: predicate ", .repr ref.id.text,
      .text s!" v{ref.version.number} is not registered"]]
  | some signature =>
    let errors := world.argumentErrors path arguments
    let check := checkArguments signature (world.grounded arguments)
    if errors ≠ [] then unresolved errors
    else if check.ok = false then
      unresolved (check.messages.map fun message => .text s!"{path}: " :: message)
    else
      let key := world.propositionKey signature (world.grounded arguments)
      let entry := world.snapshot.lookup key
      let truth := world.atomTruth entry
      { truth := truth
        provenance := [world.atomProvenance signature entry]
        unknownPropositions := if truth = .unknown then [key] else []
        conflictingPropositions := if truth = .conflict then [key] else [] }

mutual
def evaluate : Condition → String → ConditionEvaluation
  | .constant value, _ => {
      truth := if value then .true else .false
      provenance := [.constant] }
  | .not item, path =>
    let inner := evaluate item s!"{path}.not"
    inner.mergedWith [] (notTruth inner.truth)
  | .all items, path =>
    let children := evaluateAll items path 0
    combine children (allTruth (children.map (·.truth)))
  | .any items, path =>
    let children := evaluateAll items path 0
    combine children (anyTruth (children.map (·.truth)))
  | .predicate ref arguments, path => world.evaluateAtom ref arguments path

def evaluateAll : List Condition → String → Nat → List ConditionEvaluation
  | [], _, _ => []
  | item :: rest, path, position =>
    evaluate item s!"{path}[{position}]" :: evaluateAll rest path (position + 1)
end

end World

structure GateDecision where
  allowed : Bool
  reason : String
  truth : TruthValue
  provenance : List SupportProvenance := []

/-- `authorization_gate`: only a TRUE that every leaf backed with evidence. -/
def authorizationGate (evaluation : ConditionEvaluation) : GateDecision :=
  let decide := fun allowed reason =>
    GateDecision.mk allowed reason evaluation.truth evaluation.provenance
  let unsupported := evaluation.provenance.filter (!·.authorizes)
  if evaluation.truth ≠ .true then
    decide false s!"authorisation requires TRUE, not {evaluation.truth.text}"
  else if unsupported ≠ [] then
    decide false ("authorisation accepts only evidence-backed leaves; this TRUE also rests on " ++
      join ", " (sorted (unsupported.map SupportProvenance.text)))
  else if evaluation.provenance = [] then
    decide false "authorisation needs at least one evidential leaf"
  else
    decide true "every leaf is supported by a current observation or an authoritative denial"

inductive ApplicabilityStatus
  | applicable
  | preconditionFalse
  | needsEvidence
  | conflict
  | capabilityUnavailable
  | typeError
deriving DecidableEq

structure ApplicabilityReport where
  status : ApplicabilityStatus
  truth : TruthValue
  provenance : List SupportProvenance
  unmetCapabilities : List Identifier
  needsEvidence : List String
  conflicts : List String
  typeErrors : List Message
  authorization : GateDecision
  preconditionDigests : List HashHex

def assessMethod (world : World) (method : MethodContract) (capabilities : CapabilitySnapshot) :
    ApplicabilityReport :=
  let children := world.evaluateAll method.applicableWhen "applicable_when" 0
  let evaluation := combine children (allTruth (children.map (·.truth)))
  let unmet := capabilities.missingFrom (requiredCapabilities method)
  { status :=
      if evaluation.typeErrors ≠ [] then .typeError
      else if unmet ≠ [] then .capabilityUnavailable
      else match evaluation.truth with
        | .false => .preconditionFalse
        | .conflict => .conflict
        | .unknown => .needsEvidence
        | .true => .applicable
    truth := evaluation.truth
    provenance := evaluation.provenance
    unmetCapabilities := unmet
    needsEvidence := evaluation.unknownPropositions
    conflicts := evaluation.conflictingPropositions
    typeErrors := evaluation.typeErrors
    authorization := authorizationGate evaluation
    preconditionDigests := method.applicableWhen.map fun item => world.contentHashOf item.toJson }

theorem fromkeys_eq_nil {α : Type} [DecidableEq α] {items : List α} :
    fromkeys items = [] ↔ items = [] := by
  simp only [List.eq_nil_iff_forall_not_mem, mem_fromkeys]

mutual
/-- Nothing in the expression reads an output or a parameter that is not bound. -/
def Grounds (parameters : Dict String Json) : ValueExpr → Prop
  | .constant _ => True
  | .parameter name => (get? parameters name.text).isSome
  | .output _ _ => False
  | .object fields => FieldsGround parameters fields
  | .array items => ItemsGround parameters items

def FieldsGround (parameters : Dict String Json) : List (String × ValueExpr) → Prop
  | [] => True
  | field :: rest => Grounds parameters field.2 ∧ FieldsGround parameters rest

def ItemsGround (parameters : Dict String Json) : List ValueExpr → Prop
  | [] => True
  | item :: rest => Grounds parameters item ∧ ItemsGround parameters rest
end

mutual
theorem groundErrors_eq_nil (parameters : Dict String Json) (value : ValueExpr) (path : String) :
    groundErrors parameters path value = [] ↔ Grounds parameters value := by
  cases value with
  | constant value => simp [groundErrors, Grounds]
  | parameter name =>
    rw [groundErrors, Grounds]
    split
    · next bound => simp [bound]
    · next free => simp [free]
  | output step port => simp [groundErrors, Grounds]
  | object fields =>
    rw [groundErrors, Grounds]
    exact fieldErrors_eq_nil parameters fields path
  | array items =>
    rw [groundErrors, Grounds]
    exact itemErrors_eq_nil parameters items path 0
termination_by structural value

theorem fieldErrors_eq_nil (parameters : Dict String Json) (fields : List (String × ValueExpr))
    (path : String) : fieldErrors parameters path fields = [] ↔ FieldsGround parameters fields := by
  cases fields with
  | nil => simp [fieldErrors, FieldsGround]
  | cons field rest =>
    obtain ⟨key, value⟩ := field
    rw [fieldErrors, FieldsGround, List.append_eq_nil_iff, groundErrors_eq_nil parameters value,
      fieldErrors_eq_nil parameters rest]
termination_by structural fields

theorem itemErrors_eq_nil (parameters : Dict String Json) (items : List ValueExpr)
    (path : String) (position : Nat) :
    itemErrors parameters path position items = [] ↔ ItemsGround parameters items := by
  cases items with
  | nil => simp [itemErrors, ItemsGround]
  | cons item rest =>
    rw [itemErrors, ItemsGround, List.append_eq_nil_iff, groundErrors_eq_nil parameters item,
      itemErrors_eq_nil parameters rest]
termination_by structural items
end

/-- The atom names a registered predicate and its arguments ground to what the predicate takes. -/
def AtomTyped (world : World) (atom : VersionedRef × Dict String ValueExpr) : Prop :=
  ∃ signature, world.registry.resolve PredicateSignature.predicateRef atom.1 = some signature ∧
    (∀ argument ∈ atom.2, Grounds world.parameters argument.2) ∧
    (checkArguments signature (world.grounded atom.2)).ok = true

theorem messages_eq_nil {check : ArgumentCheck} : check.messages = [] ↔ check.ok = true := by
  simp only [ArgumentCheck.messages, ArgumentCheck.ok, List.append_eq_nil_iff,
    List.map_eq_nil_iff, Bool.and_eq_true, List.isEmpty_iff]

theorem argumentErrors_eq_nil {world : World} {path : String}
    {arguments : Dict String ValueExpr} : world.argumentErrors path arguments = [] ↔
      ∀ argument ∈ arguments, Grounds world.parameters argument.2 := by
  simp only [World.argumentErrors, List.flatMap_eq_nil_iff, groundErrors_eq_nil]

theorem evaluateAtom_typed (world : World) (ref : VersionedRef)
    (arguments : Dict String ValueExpr) (path : String) :
    (world.evaluateAtom ref arguments path).typeErrors = [] ↔ AtomTyped world (ref, arguments) := by
  unfold World.evaluateAtom AtomTyped
  cases world.registry.resolve PredicateSignature.predicateRef ref with
  | none => simp [World.unresolved]
  | some signature =>
    simp only [Option.some.injEq, exists_eq_left', ← @argumentErrors_eq_nil _ path]
    by_cases clean : world.argumentErrors path arguments = []
    · by_cases ok : (checkArguments signature (world.grounded arguments)).ok = true
      · simp [clean, ok]
      · rw [Bool.not_eq_true] at ok
        simp [clean, ok, World.unresolved, messages_eq_nil]
    · simp [clean, World.unresolved]

theorem combine_typeErrors {children : List ConditionEvaluation} {truth : TruthValue} :
    (combine children truth).typeErrors = [] ↔ ∀ child ∈ children, child.typeErrors = [] := by
  cases children with
  | nil => simp [combine]
  | cons child rest =>
    simp [combine, ConditionEvaluation.mergedWith, fromkeys_eq_nil]

mutual
theorem evaluate_typed (world : World) (condition : Condition) (path : String) :
    (world.evaluate condition path).typeErrors = [] ↔
      ∀ atom ∈ condition.atoms, AtomTyped world atom := by
  cases condition with
  | predicate ref arguments =>
    rw [World.evaluate, Condition.atoms, evaluateAtom_typed, List.forall_mem_singleton]
  | all items | any items =>
    rw [World.evaluate, Condition.atoms, combine_typeErrors, evaluateAll_typed world items]
  | not item =>
    rw [World.evaluate, Condition.atoms, ← evaluate_typed world item s!"{path}.not"]
    simp [ConditionEvaluation.mergedWith, fromkeys_eq_nil]
  | constant value => simp [World.evaluate, Condition.atoms]
termination_by structural condition

theorem evaluateAll_typed (world : World) (items : List Condition) (path : String)
    (position : Nat) :
    (∀ child ∈ world.evaluateAll items path position, child.typeErrors = []) ↔
      ∀ atom ∈ atomsOf items, AtomTyped world atom := by
  cases items with
  | nil => simp [World.evaluateAll, atomsOf]
  | cons item rest =>
    rw [World.evaluateAll, atomsOf, List.forall_mem_cons, evaluate_typed world item,
      evaluateAll_typed world rest, List.forall_mem_append]
termination_by structural items
end

theorem assess_typed (world : World) (method : MethodContract)
    (capabilities : CapabilitySnapshot) :
    (assessMethod world method capabilities).status ≠ .typeError ↔
      ∀ atom ∈ atomsOf method.applicableWhen, AtomTyped world atom := by
  rw [← evaluateAll_typed world method.applicableWhen "applicable_when" 0]
  rw [← @combine_typeErrors _
    (allTruth ((world.evaluateAll method.applicableWhen "applicable_when" 0).map (·.truth)))]
  unfold assessMethod
  dsimp only
  split
  · next errors => simp [errors]
  · next clean =>
    rw [not_not] at clean
    simp only [clean, iff_true]
    split
    · simp
    · split <;> simp

end Registry
