import HarnessSdk.Contracts.SemanticBase
import HarnessSdk.Network.Readiness

/-! Support graphs, anchors, and the grounded closure of positive rules. -/
namespace Knowledge
open PyDict PyText Checks Workflow
open Contracts (Provenance EvidenceRefKind memberText)

inductive Polarity
  | positive
  | negative
deriving DecidableEq

def Polarity.text : Polarity → String
  | .positive => "POSITIVE"
  | .negative => "NEGATIVE"

structure Atom where
  key : String
  polarity : Polarity
deriving DecidableEq

structure EvidenceRef where
  kind : EvidenceRefKind
  id : String
  revision : Nat
  contentHash : String
  producedBy : Option Provenance
deriving DecidableEq

structure ReceiptRef extends Network.TypedRef where
  producedBy : Option Provenance
deriving DecidableEq

def refJson (kind id : String) (revision : Nat) (contentHash : String)
    (producedBy : Option Provenance) : Json :=
  .obj ([("kind", .str kind), ("id", .str id), ("revision", .int revision),
    ("content_hash", .str contentHash)] ++
      (producedBy.map fun by_ => ("produced_by", Json.str (memberText Contracts.Provenance.members by_))).toList)

inductive Premise
  | proposition (atom : Atom)
  | evidence (ref : EvidenceRef)
deriving DecidableEq

structure RuleCondition where
  name : String
  defeasible : Bool
deriving DecidableEq

/-- One jointly sufficient group of premises for one polarised conclusion. -/
structure JustificationSet where
  conclusion : String
  polarity : Polarity
  premises : List Premise
  conditions : List RuleCondition
  ruleVersion : String
  receiptRef : Option ReceiptRef
  sourceGroup : Option String
  grounded : premises ≠ []
  premisesNodup : premises.Nodup
  conditionsNodup : (conditions.map RuleCondition.name).Nodup
deriving DecidableEq

def JustificationSet.atom (entry : JustificationSet) : Atom := ⟨entry.conclusion, entry.polarity⟩

def Atom.toJson (atom : Atom) : Json :=
  .obj [("key", .str atom.key), ("polarity", .str atom.polarity.text)]

def Premise.toJson : Premise → Json
  | .proposition atom => .obj [("kind", .str "proposition"), ("atom", atom.toJson)]
  | .evidence ref => .obj [("kind", .str "evidence"),
      ("ref", refJson (memberText Contracts.EvidenceRefKind.members ref.kind) ref.id ref.revision
        ref.contentHash ref.producedBy)]

def optionalText : Option String → Json
  | none => .null
  | some s => .str s

def JustificationSet.toJson (entry : JustificationSet) : Json :=
  .obj [("conclusion", .str entry.conclusion),
    ("polarity", .str entry.polarity.text),
    ("premises", .arr (entry.premises.map Premise.toJson)),
    ("conditions", .arr (entry.conditions.map fun condition =>
      .obj [("name", .str condition.name), ("defeasible", .bool condition.defeasible)])),
    ("rule_version", .str entry.ruleVersion),
    ("receipt_ref", match entry.receiptRef with
      | none => .null
      | some ref => refJson ref.kind.text ref.id ref.revision ref.contentHash ref.producedBy),
    ("source_group", optionalText entry.sourceGroup)]

/-! The graph. -/

section
variable (contentHashOf : Json → String)

def JustificationSet.signature (entry : JustificationSet) : String := contentHashOf entry.toJson

structure SupportGraph where
  groups : List JustificationSet
  distinct : (groups.map (JustificationSet.signature contentHashOf)).Nodup

/-- The same group offered twice is still one group. -/
def SupportGraph.ofGroups (entries : List JustificationSet) : SupportGraph contentHashOf where
  groups := firsts (JustificationSet.signature contentHashOf) [] entries
  distinct := (firsts_fresh _ _ _).1

variable {contentHashOf}

def SupportGraph.justifications (graph : SupportGraph contentHashOf) : List JustificationSet :=
  sortedByKeys (fun entry : JustificationSet =>
    [entry.conclusion, entry.polarity.text, entry.signature contentHashOf]) graph.groups

end

/-! Anchors and witnesses. -/

inductive AnchorOrigin
  | observation
  | check
deriving DecidableEq

structure Anchor where
  atom : Atom
  anchorId : String
  sourceGroup : String
  origin : AnchorOrigin
  evidenceRef : Option EvidenceRef
  historical : Bool
deriving DecidableEq

def Anchor.signature (anchor : Anchor) : String := "anchor:" ++ anchor.anchorId

inductive WitnessKind
  | anchor
  | derived
deriving DecidableEq

structure SupportWitness where
  atom : Atom
  kind : WitnessKind
  signature : String
  ruleVersion : Option String
  premises : List Premise
  sourceGroup : Option String
  depth : Nat
  assumptions : List String
deriving DecidableEq

structure SupportCount where
  t : Nat := 0
  f : Nat := 0
deriving DecidableEq

def SupportCount.truth (count : SupportCount) : Network.TruthValue :=
  if 0 < count.t ∧ 0 < count.f then .conflict
  else if 0 < count.t then .true
  else if 0 < count.f then .false
  else .unknown

abbrev Witnesses := Dict Atom (List SupportWitness)

def Anchor.witness (anchor : Anchor) : SupportWitness where
  atom := anchor.atom
  kind := .anchor
  signature := anchor.signature
  ruleVersion := none
  premises := []
  sourceGroup := some anchor.sourceGroup
  depth := 0
  assumptions := []

def JustificationSet.witness (contentHashOf : Json → String) (entry : JustificationSet)
    (depth : Nat) (used : List String) : SupportWitness where
  atom := entry.atom
  kind := .derived
  signature := entry.signature contentHashOf
  ruleVersion := some entry.ruleVersion
  premises := entry.premises
  sourceGroup := entry.sourceGroup
  depth := depth + 1
  assumptions := used

def addTo {α : Type} [DecidableEq α] (items : List α) (x : α) : List α :=
  if x ∈ items then items else items ++ [x]

def unionOf {α : Type} [DecidableEq α] (left right : List α) : List α := right.foldl addTo left

@[simp] theorem mem_addTo {α : Type} [DecidableEq α] (items : List α) (x y : α) :
    y ∈ addTo items x ↔ y ∈ items ∨ y = x := by
  unfold addTo
  by_cases known : x ∈ items
  · rw [if_pos known]
    constructor
    · exact Or.inl
    · rintro (old | rfl)
      · exact old
      · exact known
  · simp [known]

@[simp] theorem mem_unionOf {α : Type} [DecidableEq α] (left right : List α) (y : α) :
    y ∈ unionOf left right ↔ y ∈ left ∨ y ∈ right := by
  unfold unionOf
  induction right generalizing left with
  | nil => simp
  | cons x rest ih =>
    rw [List.foldl_cons, ih, mem_addTo, List.mem_cons, or_assoc]

theorem addTo_nodup {α : Type} [DecidableEq α] {items : List α} (nodup : items.Nodup) (x : α) :
    (addTo items x).Nodup := by
  unfold addTo
  split
  · exact nodup
  · next fresh => simpa using nodup.concat fresh

/-! The engine's state. -/

structure Support where
  witnesses : Witnesses
  admitted : List String
  evidenceRefs : List EvidenceRef
  refGroups : Dict EvidenceRef (List String)
  nodes : Nat
deriving DecidableEq

def Support.none : Support := ⟨[], [], [], [], 0⟩

def Support.witnessesFor (support : Support) (atom : Atom) : List SupportWitness :=
  (get? support.witnesses atom).getD []

def Support.record (support : Support) (witness : SupportWitness) : Support :=
  { support with
    witnesses := set support.witnesses witness.atom
      (support.witnessesFor witness.atom ++ [witness])
    admitted := addTo support.admitted witness.signature
    nodes := support.nodes + 1 }

def Support.cite (support : Support) (anchor : Anchor) : Support :=
  match anchor.evidenceRef with
  | .none => support
  | some ref =>
    { support with
      evidenceRefs := addTo support.evidenceRefs ref
      refGroups := set support.refGroups ref
        (addTo ((get? support.refGroups ref).getD []) anchor.sourceGroup) }

def Support.admitAnchor (support : Support) (anchor : Anchor) : Support :=
  (support.record anchor.witness).cite anchor

/-- The flag says that the node budget cut the loop short. -/
def seed (budget : Nat) : List Anchor → Support → Support × Bool
  | [], support => (support, false)
  | anchor :: rest, support =>
    if anchor.signature ∈ support.admitted then seed budget rest support
    else if budget ≤ support.nodes then (support, true)
    else seed budget rest (support.admitAnchor anchor)

def minDepth : List SupportWitness → Option Nat
  | [] => none
  | first :: rest => some (rest.foldl (fun least support => min least support.depth) first.depth)

abbrev AssumptionState := Dict String Bool

def premiseDepth (witnesses : Witnesses) (evidenceRefs : List EvidenceRef) :
    Nat → List Premise → Option Nat
  | depth, [] => some depth
  | depth, .evidence ref :: rest =>
    if ref ∈ evidenceRefs then premiseDepth witnesses evidenceRefs depth rest else none
  | depth, .proposition atom :: rest =>
    match minDepth ((get? witnesses atom).getD []) with
    | none => none
    | some least => premiseDepth witnesses evidenceRefs (max depth least) rest

def asserted (state : AssumptionState) (condition : RuleCondition) : Bool :=
  get? state condition.name == some true

def premisesSatisfied (entry : JustificationSet) (witnesses : Witnesses)
    (evidenceRefs : List EvidenceRef) (state : AssumptionState) : Option (Nat × List String) := do
  let depth ← premiseDepth witnesses evidenceRefs 0 entry.premises
  if entry.conditions.all (asserted state) then
    some (depth, entry.conditions.map RuleCondition.name)
  else none

section
variable (contentHashOf : Json → String)

abbrev Fired := JustificationSet × Nat × List String

def fireAll (budget : Nat) : List Fired → Support → Support × Bool
  | [], support => (support, false)
  | (entry, depth, used) :: rest, support =>
    if budget ≤ support.nodes then (support, true)
    else fireAll budget rest (support.record (entry.witness contentHashOf depth used))

def Support.satisfies (support : Support) (state : AssumptionState) (entry : JustificationSet) :
    Option (Nat × List String) :=
  premisesSatisfied entry support.witnesses support.evidenceRefs state

def firedIn (state : AssumptionState) (support : Support) (pending : List JustificationSet) :
    List Fired :=
  pending.filterMap fun entry => (support.satisfies state entry).map fun held => (entry, held)

/-- Synchronous rounds: every group is tried against what held when the round began. -/
def rounds (budget : Nat) (state : AssumptionState) :
    Nat → List JustificationSet → Support → Support × Bool
  | 0, _, support => (support, false)
  | fuel + 1, pending, support =>
    let fired := firedIn state support pending
    let remaining := pending.filter fun entry => (support.satisfies state entry).isNone
    if fired.isEmpty then (support, false)
    else
      match fireAll contentHashOf budget fired support with
      | (after, true) => (after, true)
      | (after, false) => rounds budget state fuel remaining after

end

end Knowledge
