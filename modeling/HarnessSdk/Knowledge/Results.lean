import HarnessSdk.Knowledge.Support

/-! What a closure reports: sources, support paths, assumed atoms, and the answers read off them. -/
namespace Knowledge
open PyDict PyText Checks Workflow

section
variable {m : Type → Type} [Monad m] (check : m Unit)

def premiseSources (refGroups : Dict EvidenceRef (List String)) (groups : Dict Atom (List String)) :
    Premise → List String
  | .evidence ref => (get? refGroups ref).getD []
  | .proposition atom => (get? groups atom).getD []

/-- `check` is called once for the support and once for each of its premises. -/
def supportSources (refGroups : Dict EvidenceRef (List String)) (groups : Dict Atom (List String))
    (collected : List String) (support : SupportWitness) : m (List String) := do
  check
  support.premises.foldlM (fun acc premise => do
    check
    pure (unionOf acc (premiseSources refGroups groups premise)))
    (unionOf collected support.sourceGroup.toList)

def sourcePass (witnesses : Witnesses) (refGroups : Dict EvidenceRef (List String))
    (groups : Dict Atom (List String)) : m (Dict Atom (List String) × Bool) :=
  witnesses.foldlM (fun state entry => do
    let collected ← entry.2.foldlM (supportSources check refGroups state.1) []
    let known := (get? state.1 entry.1).getD []
    if collected.all (· ∈ known) then pure state
    else pure (set state.1 entry.1 (unionOf known collected), true)) (groups, false)

def sourceLoop (witnesses : Witnesses) (refGroups : Dict EvidenceRef (List String)) :
    Nat → Dict Atom (List String) → m (Dict Atom (List String))
  | 0, groups => pure groups
  | fuel + 1, groups => do
    let next ← sourcePass check witnesses refGroups groups
    if next.2 then sourceLoop witnesses refGroups fuel next.1 else pure next.1

def sourceNames (witnesses : Witnesses) (refGroups : Dict EvidenceRef (List String)) :
    List String :=
  (witnesses.flatMap fun entry => entry.2.flatMap fun w => w.sourceGroup.toList) ++
    refGroups.flatMap Prod.snd

/-- Every pass but the last adds a source to some atom, so the fuel is never used up. -/
def sourceGroups (witnesses : Witnesses) (refGroups : Dict EvidenceRef (List String)) :
    m (Dict Atom (List String)) :=
  sourceLoop check witnesses refGroups
    (witnesses.length * (sourceNames witnesses refGroups).length + 1)
    (witnesses.map fun entry => (entry.1, []))

def pathGroups (witnesses : Witnesses) (atomGroups : Dict Atom (List String))
    (refGroups : Dict EvidenceRef (List String)) : m (Dict Atom (List (List String))) :=
  witnesses.mapM fun entry => do
    let paths ← entry.2.mapM (supportSources check refGroups atomGroups [])
    pure (entry.1, paths)

def propositionAtoms (premises : List Premise) : List Atom :=
  premises.filterMap fun
    | .proposition atom => some atom
    | .evidence _ => none

def countPremises (premises : List Premise) : m Unit :=
  premises.foldlM (fun _ _ => check) ()

/-- Some support rests on no assumption and on atoms that are already clean. -/
def hasCleanSupport (clean : List Atom) : List SupportWitness → m Bool
  | [] => pure false
  | support :: rest => do
    check
    if support.assumptions ≠ [] then hasCleanSupport clean rest
    else do
      countPremises check support.premises
      if (propositionAtoms support.premises).all (· ∈ clean) then pure true
      else hasCleanSupport clean rest

def cleanPass (witnesses : Witnesses) (clean : List Atom) : m (List Atom × Bool) :=
  witnesses.foldlM (fun state entry => do
    check
    if entry.1 ∈ state.1 then pure state
    else do
      let found ← hasCleanSupport check state.1 entry.2
      if found then pure (state.1 ++ [entry.1], true) else pure state) (clean, false)

def cleanLoop (witnesses : Witnesses) : Nat → List Atom → m (List Atom)
  | 0, clean => pure clean
  | fuel + 1, clean => do
    let next ← cleanPass check witnesses clean
    if next.2 then cleanLoop witnesses fuel next.1 else pure next.1

/-- The atoms every witness of which passes through an asserted assumption. -/
def assumptionBacked (witnesses : Witnesses) : m (List Atom) := do
  let clean ← cleanLoop check witnesses (witnesses.length + 1) []
  pure ((keys witnesses).filter (· ∉ clean))

end

inductive ClosureStatus
  | complete
  | evaluationIncomplete
deriving DecidableEq

structure ClosureResult where
  status : ClosureStatus
  witnesses : Witnesses
  sourceGroups : Dict Atom (List String)
  pathGroups : Dict Atom (List (List String))
  assumptionBacked : List Atom
  admittedSignatures : List String
  nodeCount : Nat
  nodeBudget : Nat
deriving DecidableEq

def Support.result (support : Support) (status : ClosureStatus) (budget : Nat) : ClosureResult :=
  let groups : Dict Atom (List String) :=
    Id.run (sourceGroups (pure ()) support.witnesses support.refGroups)
  { status := status
    witnesses := support.witnesses
    sourceGroups := groups
    pathGroups := Id.run (pathGroups (pure ()) support.witnesses groups support.refGroups)
    assumptionBacked := Id.run (assumptionBacked (pure ()) support.witnesses)
    admittedSignatures := support.admitted
    nodeCount := support.nodes
    nodeBudget := budget }

section
variable {contentHashOf : Json → String}

/-- The seeds, then the rounds; the flag says that the budget cut the run short. -/
def close (budget : Nat) (graph : SupportGraph contentHashOf) (anchors : List Anchor)
    (state : AssumptionState) : Support × Bool :=
  match seed budget anchors Support.none with
  | (support, true) => (support, true)
  | (support, false) =>
    rounds contentHashOf budget state graph.justifications.length graph.justifications support

/-- `grounded_closure` without limits. -/
def groundedClosure (budget : Nat) (graph : SupportGraph contentHashOf) (anchors : List Anchor)
    (state : AssumptionState) : ClosureResult :=
  let closed := close budget graph anchors state
  closed.1.result (if closed.2 then .evaluationIncomplete else .complete) budget

end

/-! Answers. -/

def ClosureResult.witnessesFor (result : ClosureResult) (atom : Atom) : List SupportWitness :=
  (get? result.witnesses atom).getD []

def ClosureResult.reached (result : ClosureResult) (atom : Atom) : Prop :=
  result.witnessesFor atom ≠ []

instance (result : ClosureResult) (atom : Atom) : Decidable (result.reached atom) :=
  inferInstanceAs (Decidable (_ ≠ _))

section
variable (result : ClosureResult) (key : String)

def ClosureResult.supportFor : SupportCount :=
  ⟨(result.witnessesFor ⟨key, .positive⟩).length, (result.witnessesFor ⟨key, .negative⟩).length⟩

def ClosureResult.truthFor : Network.TruthValue :=
  (result.supportFor key).truth

def ClosureResult.supportPaths (polarity : Polarity) :
    List (List String) :=
  (get? result.pathGroups ⟨key, polarity⟩).getD []

def ClosureResult.restsOnAssumption (polarity : Polarity) :
    Bool :=
  decide (Atom.mk key polarity ∈ result.assumptionBacked)

inductive BlockReason
  | evaluationIncomplete
  | unknownEvidence
  | conflictingEvidence
  | refuted
  | unverifiedAssumption
deriving DecidableEq

def ClosureResult.releaseBlockReason (highRisk : Bool)
    (polarity : Polarity) : Option BlockReason :=
  if result.status = .evaluationIncomplete then some .evaluationIncomplete
  else
    let support := result.supportFor key
    if support.truth = .conflict then some .conflictingEvidence
    else
      let wanted := match polarity with
        | .positive => support.t
        | .negative => support.f
      if wanted = 0 then
        some (if support.truth = .unknown then .unknownEvidence else .refuted)
      else if highRisk ∧ result.restsOnAssumption key polarity then some .unverifiedAssumption
      else none

end

/-! Independent support. -/

def maxIndependencePaths : Nat := 64

/-- The search behind `walk`: the best count so far is threaded through, and a branch ends as soon
as it is enough. -/
def walk (wanted : Nat) : List (List String) → List String → Nat → Nat → Nat
  | [], _, chosen, best => max best chosen
  | groups :: rest, used, chosen, best =>
    let best := max best chosen
    if wanted ≤ best then best
    else if groups.any (· ∈ used) then walk wanted rest used chosen best
    else
      let taken := walk wanted rest (unionOf used groups) (chosen + 1) best
      if wanted ≤ taken then taken else walk wanted rest used chosen taken

def maxDisjointPaths (paths : List (List String)) (wanted : Nat) : Nat :=
  if wanted = 0 then 0
  else walk wanted ((paths.take maxIndependencePaths).insertionSort fun a b => a.length ≤ b.length)
    [] 0 0

/-- `required` is at least one. -/
def ClosureResult.satisfiesIndependence (result : ClosureResult) (key : String) (required : Nat)
    (polarity : Polarity) : Bool :=
  decide (required ≤ maxDisjointPaths
    ((result.supportPaths key polarity).filter (!·.isEmpty)) required)

end Knowledge
