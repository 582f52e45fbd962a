import HarnessSdk.Knowledge.Closure
import HarnessSdk.Library.Metered

/-! The bounded worklist engine and the grounded closure it repeats. -/
namespace Knowledge
open PyDict PyText Checks Workflow Metered

structure ClosureLimits where
  literals : Nat
  rules : Nat
  premiseVisits : Nat

/-- The visits charged so far, the clock readings taken, the literals met, and the nodes admitted. -/
structure Meter where
  visits : Nat
  readings : Nat
  literals : List Atom
  nodes : Nat

inductive Stop
  | exhausted
  | bookkeepingDisagrees
  | indexError
  | keyError
deriving DecidableEq

structure SetOrder where
  arrange : List Atom → List Atom
  perm : ∀ items, (arrange items).Perm items

/-- What bounds a run: the limits, and for each reading of the clock whether the deadline is past. -/
structure Bounds where
  limits : ClosureLimits
  late : Nat → Bool
  order : SetOrder

abbrev Engine (α : Type) := Metered Meter Stop α

section
variable (bounds : Bounds)

def checkBudget (charge : Nat) : Engine Unit := fun meter =>
  let charged := { meter with visits := meter.visits + charge }
  if bounds.limits.premiseVisits < charged.visits then (.error .exhausted, charged)
  else
    let read := { charged with readings := meter.readings + 1 }
    if bounds.late meter.readings then (.error .exhausted, read) else (.ok (), read)

def literal (atom : Atom) : Engine Unit := fun meter =>
  let met := { meter with literals := addTo meter.literals atom }
  if bounds.limits.literals < met.literals.length then (.error .exhausted, met) else (.ok (), met)

/-- The handler of an exhausted run reads how many nodes were admitted. -/
def countNode (support : Support) (witness : SupportWitness) : Engine Support := fun meter =>
  (.ok (support.record witness), { meter with nodes := support.nodes + 1 })

def admitNode (budget : Nat) (support : Support) (witness : SupportWitness) : Engine Support :=
  if budget ≤ support.nodes then stop .exhausted else countNode support witness

def boundedSeed (budget : Nat) (excluded : List String) : List Anchor → Support → Engine Support
  | [], support => pure support
  | anchor :: rest, support => do
    checkBudget bounds 0
    literal bounds anchor.atom
    if anchor.atom.key ∈ excluded then boundedSeed budget excluded rest support
    else if anchor.signature ∈ support.admitted then boundedSeed budget excluded rest support
    else do
      let support ← admitNode budget support anchor.witness
      boundedSeed budget excluded rest (support.cite anchor)

/-- The rules that wait for an atom, the atoms a rule still misses, and the rules ready to fire. -/
structure Worklist where
  waiting : Dict Atom (List Nat)
  missing : Dict Nat (List Atom)
  ready : List Nat

def scanPremise (support : Support) (scan : List Atom × Bool) (premise : Premise) :
    Engine (List Atom × Bool) := do
  checkBudget bounds 1
  match premise with
  | .evidence ref => pure (scan.1, scan.2 && decide (ref ∈ support.evidenceRefs))
  | .proposition atom => do
    literal bounds atom
    if (get? support.witnesses atom).isNone then pure (addTo scan.1 atom, scan.2) else pure scan

def scanCondition (state : AssumptionState) (usable : Bool) (condition : RuleCondition) :
    Engine Bool := do
  checkBudget bounds 1
  pure (usable && asserted state condition)

def waitFor (position : Nat) (waiting : Dict Atom (List Nat)) (atom : Atom) :
    Dict Atom (List Nat) :=
  set waiting atom ((get? waiting atom).getD [] ++ [position])

def indexRule (excluded : List String) (state : AssumptionState) (support : Support)
    (list : Worklist) (rule : JustificationSet × Nat) : Engine Worklist := do
  checkBudget bounds 0
  literal bounds rule.1.atom
  let scan ← rule.1.premises.foldlM (scanPremise bounds support) ([], true)
  let usable ← rule.1.conditions.foldlM (scanCondition bounds state) scan.2
  if usable && decide (rule.1.atom.key ∉ excluded) then
    pure ⟨scan.1.foldl (waitFor rule.2) list.waiting, set list.missing rule.2 scan.1,
      if scan.1 = [] then list.ready ++ [rule.2] else list.ready⟩
  else pure list

def tryRule (rules : List JustificationSet) (state : AssumptionState) (support : Support)
    (position : Nat) : Engine Fired :=
  match rules[position]? with
  | none => stop .indexError
  | some entry => do
    checkBudget bounds (entry.premises.length + entry.conditions.length)
    match support.satisfies state entry with
    | none => stop .bookkeepingDisagrees
    | some held => pure (entry, held)

def recordRule (contentHashOf : Json → String) (budget : Nat) (out : Support × List Atom)
    (fired : Fired) : Engine (Support × List Atom) := do
  checkBudget bounds 0
  let added := if (get? out.1.witnesses fired.1.atom).isNone then addTo out.2 fired.1.atom else out.2
  let support ← admitNode budget out.1 (fired.1.witness contentHashOf fired.2.1 fired.2.2)
  pure (support, added)

def releaseRule (atom : Atom) (list : Worklist) (position : Nat) : Engine Worklist := do
  checkBudget bounds 1
  match get? list.missing position with
  | none => stop .keyError
  | some absent =>
    if atom ∈ absent then
      let left := absent.filter (· ≠ atom)
      pure { list with
        missing := set list.missing position left
        ready := if left = [] then list.ready ++ [position] else list.ready }
    else stop .keyError

def releaseAtom (list : Worklist) (atom : Atom) : Engine Worklist :=
  ((get? list.waiting atom).getD []).foldlM (releaseRule bounds atom)
    { list with waiting := list.waiting.filter (·.1 ≠ atom) }

/-- Only the rules whose last missing atom arrived are visited. -/
def boundedRounds (contentHashOf : Json → String) (budget : Nat) (rules : List JustificationSet)
    (state : AssumptionState) : Nat → Worklist → Support → Engine Support
  | 0, _, support => pure support
  | fuel + 1, list, support =>
    if list.ready.isEmpty then pure support
    else do
      let fired ← (list.ready.insertionSort (· ≤ ·)).mapM (tryRule bounds rules state support)
      let out ← fired.foldlM (recordRule bounds contentHashOf budget) (support, [])
      let next ← (bounds.order.arrange out.2).foldlM (releaseAtom bounds) { list with ready := [] }
      boundedRounds contentHashOf budget rules state fuel next out.1

section
variable {contentHashOf : Json → String}

def boundedRun (budget : Nat) (excluded : List String) (graph : SupportGraph contentHashOf)
    (anchors : List Anchor) (state : AssumptionState) : Engine ClosureResult := do
  checkBudget bounds 0
  if bounds.limits.rules < graph.groups.length then stop .exhausted
  else do
    let support ← boundedSeed bounds budget excluded anchors Support.none
    let rules := graph.justifications
    checkBudget bounds 0
    let list ← rules.zipIdx.foldlM (indexRule bounds excluded state support) ⟨[], [], []⟩
    let closed ← boundedRounds bounds contentHashOf budget rules state rules.length list support
    let groups ← sourceGroups (checkBudget bounds 1) closed.witnesses closed.refGroups
    let paths ← pathGroups (checkBudget bounds 1) closed.witnesses groups closed.refGroups
    let assumed ← assumptionBacked (checkBudget bounds 1) closed.witnesses
    checkBudget bounds 0
    pure {
      status := .complete
      witnesses := closed.witnesses
      sourceGroups := groups
      pathGroups := paths
      assumptionBacked := assumed
      admittedSignatures := closed.admitted
      nodeCount := closed.nodes
      nodeBudget := budget }

def incompleteResult (nodes budget : Nat) : ClosureResult where
  status := .evaluationIncomplete
  witnesses := []
  sourceGroups := []
  pathGroups := []
  assumptionBacked := []
  admittedSignatures := []
  nodeCount := nodes
  nodeBudget := budget

/-- `bounded_grounded_closure` with a budget that `visits` and `readings` were taken of before. -/
def boundedGroundedClosure (visits readings budget : Nat) (excluded : List String)
    (graph : SupportGraph contentHashOf) (anchors : List Anchor) (state : AssumptionState) :
    Except Stop ClosureResult :=
  match boundedRun bounds budget excluded graph anchors state ⟨visits, readings, [], 0⟩ with
  | (.ok result, _) => .ok result
  | (.error .exhausted, meter) => .ok (incompleteResult meter.nodes budget)
  | (.error other, _) => .error other

end
end
end Knowledge
