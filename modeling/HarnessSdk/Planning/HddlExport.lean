import HarnessSdk.Registry.Definitions

/-! The minimal HDDL export of one increment: one ground task for each occurrence that the refined
goals reach, or the features the fragment cannot express. -/
namespace Planning
open PyDict PyText Checks Workflow Network

def hddlFragment : String := "strips-typed-partial-order"

/-- `str.isalnum` of a character and `str.lower` of a text. An underscore is no letter, so what
stands before it does not change how the rest is lowered. -/
structure Letters where
  isAlnum : Char → Bool
  lower : String → String
  plain : isAlnum 'o' = true ∧ isAlnum 'c' = true
  tagged : ∀ s, lower ("occ_" ++ s) = "occ_" ++ lower s

structure UnsupportedFeature where
  features : List String
  detail : String
  fragment : String := hddlFragment

structure HddlExport where
  domainText : String
  problemText : String
  occurrenceMap : Dict String String
  reusedOccurrences : List String := []
  fragment : String := hddlFragment

inductive HddlResult
  | exported (value : HddlExport)
  | unsupported (value : UnsupportedFeature)

section
variable (letters : Letters)

def alnumOnly (value : String) : String :=
  String.ofList (value.toList.map fun c => if letters.isAlnum c then c else '_')

def dropLastUnderscores (s : String) : String :=
  String.ofList (s.toList.reverse.dropWhile (· = '_')).reverse

def dropFirstUnderscores (s : String) : String := String.ofList (s.toList.dropWhile (· = '_'))

def hddlName (value : String) : String :=
  let name := dropLastUnderscores
    (dropFirstUnderscores (letters.lower (alnumOnly letters value)))
  if name = "" then "x" else name

structure ExportNode where
  occurrenceId : OccurrenceId
  label : String
  signature : String
  form : TaskForm
  refined : Option MethodInstanceDraft := none
  reused : Bool := false

section
variable (delta : ProposedPlanDelta)

def exportRoots : List OccurrenceId :=
  fromkeys (delta.methodInstances.map (·.effectiveGoalOccurrenceId))

/-- A slot binds a result that exists already instead of doing the work. -/
def reusedOccurrences (network : TaskNetwork) : List OccurrenceId :=
  ((delta.methodInstances ++ network.methodInstances).flatMap fun draft =>
    draft.childBindings.filter fun binding => binding.reusePolicy ≠ .newWork).map (·.occurrenceId)

/-- The delta's own refinement comes before the adopted one. -/
def instanceFor (network : TaskNetwork) (id : OccurrenceId) :
    Option MethodInstanceDraft :=
  let byDelta := ofEntries
    (delta.methodInstances.map fun draft => (draft.effectiveGoalOccurrenceId, draft))
  match get? byDelta id with
  | some draft => some draft
  | none => network.adoptedInstanceFor id

inductive Visit
  | problem (text : String)
  | node (node : ExportNode)

def visitOccurrence (network : TaskNetwork) (id : OccurrenceId) :
    Except Message Visit :=
  match network.occurrence? id with
  | none => .ok (.problem "occurrence-outside-network")
  | some spec =>
    match network.bindingForTask? spec.taskId with
    | none => .error [.repr spec.taskId]
    | some semantics =>
      let label := hddlName letters ("occ_" ++ id)
      let signature := hddlName letters semantics.goalSignature.signatureId
      if id ∈ reusedOccurrences delta network then
        .ok (.node { occurrenceId := id, label, signature, form := spec.form, reused := true })
      else if spec.form = .primitive then
        .ok (.node { occurrenceId := id, label, signature, form := spec.form })
      else
        match instanceFor delta network id with
        | none => .ok (.problem "unexpanded-compound-occurrence")
        | some draft =>
          .ok (.node { occurrenceId := id, label, signature, form := spec.form, refined := draft })

end

def ExportNode.children (node : ExportNode) : List OccurrenceId :=
  match node.refined with
  | none => []
  | some draft => draft.childBindings.map (·.occurrenceId)

def collectFrom (delta : ProposedPlanDelta) (network : TaskNetwork) :
    Nat → List OccurrenceId → List OccurrenceId → List ExportNode → List String →
      Except Message (List ExportNode × List String)
  | 0, _, _, nodes, problems => .ok (nodes, fromkeys problems)
  | _ + 1, [], _, nodes, problems => .ok (nodes, fromkeys problems)
  | fuel + 1, id :: pending, seen, nodes, problems => do
    if id ∈ seen then collectFrom delta network fuel pending seen nodes problems
    else
      match ← visitOccurrence letters delta network id with
      | .problem text =>
        collectFrom delta network fuel pending (id :: seen) nodes (problems ++ [text])
      | .node node =>
        collectFrom delta network fuel (pending ++ node.children) (id :: seen) (nodes ++ [node])
          problems

section
variable (delta : ProposedPlanDelta) (network : TaskNetwork)

def refinedChildren (id : OccurrenceId) :
    List OccurrenceId :=
  match instanceFor delta network id with
  | none => []
  | some draft => draft.childBindings.map (·.occurrenceId)

/-- The pops of a walk: the roots, and each child once for each refinement in the network. -/
def collectFuel : Nat :=
  Digraph.work (refinedChildren delta network) network.occurrenceIds (exportRoots delta) [] + 1

def collectExportNodes :
    Except Message (List ExportNode × List String) :=
  collectFrom letters delta network (collectFuel delta network) (exportRoots delta) [] [] []

end

end

/-! What the fragment cannot express. -/

def valueFeature : Json → List String
  | .obj _ => ["structured-objects"]
  | .arr _ => ["structured-objects"]
  | .float _ => ["numeric-fluents"]
  | _ => []

def argumentFeature : Registry.ValueExpr → List String
  | .object _ => ["structured-objects"]
  | .array _ => ["structured-objects"]
  | .constant value =>
    match value.value with
    | .float _ => ["numeric-fluents"]
    | _ => []
  | _ => []

mutual
/-- The `any` nodes that `iter_conditions` meets. -/
def conditionFeature : Registry.Condition → List String
  | .any items => "disjunctive-preconditions" :: conditionFeatures items
  | .all items => conditionFeatures items
  | .not item => conditionFeature item
  | .predicate _ _ => []
  | .constant _ => []

def conditionFeatures : List Registry.Condition → List String
  | [] => []
  | item :: rest => conditionFeature item ++ conditionFeatures rest
end

def methodFeatures (method : Registry.MethodContract) : List String :=
  conditionFeatures method.applicableWhen ++
    method.steps.flatMap fun step => step.arguments.flatMap fun argument =>
      argumentFeature argument.2

def bindingFeatures (binding : TaskSemanticBinding) : List String :=
  ((binding.inputPorts ++ binding.outputPorts).filter (·.cardinality = .set)).map
      (fun _ => "set-valued-ports") ++
    binding.typedParameters.flatMap fun parameter => valueFeature parameter.2

section
variable (network : TaskNetwork)

def occurrenceFeatures (spec : OccurrenceSpec) :
    Except Message (List String) :=
  if spec.occurrenceId ∈ network.occurrenceIds then
    match network.bindingForTask? spec.taskId with
    | none => .error [.repr spec.taskId]
    | some binding => .ok (bindingFeatures binding)
  else .ok []

def unsupportedFeatures (delta : ProposedPlanDelta) (network : TaskNetwork)
    (methods : Dict String Registry.MethodContract) : Except Message (List String) := do
  let data := (delta.dataRequirements.filter
    (·.sourceRevisionPolicy = .followAuthorizedRevision)).map fun _ => "revision-following-data"
  let order := (delta.orderConstraints.filter (·.releaseCondition ≠ .accepted)).map
    fun _ => "non-acceptance-release-conditions"
  let occurrences ← delta.occurrences.mapM (occurrenceFeatures network)
  let drafts := delta.methodInstances.flatMap fun draft =>
    draft.groundedParameters.flatMap (fun parameter => valueFeature parameter.2) ++
      match get? methods draft.methodRef.methodId with
      | none => []
      | some method => methodFeatures method
  return fromkeys (data ++ order ++ occurrences.flatten ++ drafts)

/-! The texts. -/

def childLabels (occurrenceMap : Dict String String) (draft : MethodInstanceDraft) :
    Dict String String :=
  ofEntries ((draft.childBindings.zipIdx.filter fun place =>
    (get? occurrenceMap place.1.occurrenceId).isSome).map fun place =>
      (place.1.occurrenceId, "t" ++ toString place.2))

def subtaskLines (occurrenceMap : Dict String String) (draft : MethodInstanceDraft) :
    List String :=
  draft.childBindings.zipIdx.filterMap fun place =>
    (get? occurrenceMap place.1.occurrenceId).map fun target =>
      "      (t" ++ toString place.2 ++ " (t_available " ++ target ++ "))"

/-- The two ends of every ORDER constraint, then of every DATA requirement. -/
def precedencePairs : List (OccurrenceId × OccurrenceId) :=
  network.orderConstraints.map (fun constraint => (constraint.before, constraint.after)) ++
    network.dataRequirements.map fun requirement =>
      (requirement.producerOccurrence, requirement.consumerOccurrence)

/-- The pairs whose ends both have a label, each once and sorted. -/
def orderingPairs (labels : Dict String String) :
    List (String × String) :=
  sortedByKeys (fun pair => [pair.1, pair.2]) (fromkeys ((precedencePairs network).filterMap
    fun pair => do
      let before ← get? labels pair.1
      let after ← get? labels pair.2
      if before ≠ "" ∧ after ≠ "" then some (before, after) else none))

def hddlOrderings (labels : Dict String String) : List String :=
  (orderingPairs network labels).map fun pair =>
    "      (< " ++ pair.1 ++ " " ++ pair.2 ++ ")"

end

section
variable (letters : Letters)

def hddlDecomposition (label : String) (draft : MethodInstanceDraft)
    (occurrenceMap : Dict String String) (network : TaskNetwork) : String :=
  let orderings := hddlOrderings network (childLabels occurrenceMap draft)
  let body := ["  (:method m_" ++ hddlName letters draft.instanceId, "    :parameters ()",
    "    :task (t_available " ++ label ++ ")", "    :subtasks (and"] ++
    subtaskLines occurrenceMap draft ++ ["    )"]
  join "\n" (body ++
    if orderings ≠ [] then ["    :ordering (and"] ++ orderings ++ ["    ))"] else ["  )"])

def methodBlock (occurrenceMap : Dict String String) (network : TaskNetwork)
    (node : ExportNode) : String :=
  if node.reused then
    "  (:method m_reuse_" ++ node.label ++ "\n    :parameters ()\n    :task (t_available " ++
      node.label ++ ")\n    :precondition (accepted_result " ++ node.label ++
      ")\n    :subtasks ())"
  else
    match node.refined with
    | none => "  (:method m_do_" ++ node.label ++
        "\n    :parameters ()\n    :task (t_available " ++ node.label ++
        ")\n    :subtasks (and\n      (t1 (a_" ++ node.signature ++ " " ++ node.label ++ "))))"
    | some draft => hddlDecomposition letters node.label draft occurrenceMap network

def methodBlocks (occurrenceMap : Dict String String) (network : TaskNetwork)
    (nodes : List ExportNode) : List String :=
  (sortedBy (·.label) nodes).map (methodBlock letters occurrenceMap network)

def domainLines (domainName : String) (occurrenceMap : Dict String String)
    (network : TaskNetwork) (nodes : List ExportNode) : List String :=
  let constants := sorted (nodes.map (·.label))
  let actions := sorted (fromkeys
    ((nodes.filter fun node => node.form = .primitive ∧ node.reused = false).map (·.signature)))
  ["(define (domain " ++ hddlName letters domainName ++ ")",
    "  (:requirements :strips :typing :hierarchy " ++
      ":negative-preconditions :method-preconditions)",
    "  (:types occurrence - object)", "  (:constants"] ++
  constants.map (fun label => "    " ++ label ++ " - occurrence") ++
  ["  )", "  (:predicates", "    (done ?o - occurrence)", "    (accepted_result ?o - occurrence)",
    "  )", "", "  (:task t_available :parameters (?o - occurrence))", ""] ++
  methodBlocks letters occurrenceMap network nodes ++ [""] ++
  actions.map (fun signature => "  (:action a_" ++ signature ++
    "\n    :parameters (?o - occurrence)\n    :precondition ()\n    :effect (done ?o))") ++ [")"]

def problemLines (deltaId domainName : String) (occurrenceMap : Dict String String)
    (roots : List OccurrenceId) (reused : List String) : List String :=
  ["(define (problem " ++ hddlName letters deltaId ++ ")",
    "  (:domain " ++ hddlName letters domainName ++ ")", "  (:htn", "    :parameters ()",
    "    :subtasks (and"] ++
  (roots.zipIdx.filterMap fun place => (get? occurrenceMap place.1).map fun label =>
    "      (root" ++ toString place.2 ++ " (t_available " ++ label ++ "))") ++
  ["    ))", "  (:init"] ++
  reused.filterMap (fun item => (get? occurrenceMap item).map fun label =>
    "    (accepted_result " ++ label ++ ")") ++ ["  )", ")"]

def exportOf (deltaId domainName : String) (delta : ProposedPlanDelta) (network : TaskNetwork)
    (nodes : List ExportNode) : HddlExport :=
  let occurrenceMap := ofEntries (nodes.map fun node => (node.occurrenceId, node.label))
  let reused := sorted ((nodes.filter (·.reused)).map (·.occurrenceId))
  { domainText := join "\n" (domainLines letters domainName occurrenceMap network nodes)
    problemText := join "\n"
      (problemLines letters deltaId domainName occurrenceMap (exportRoots delta) reused)
    occurrenceMap := sortedBy Prod.fst occurrenceMap
    reusedOccurrences := reused }

def toHddl (deltaId : String) (delta : ProposedPlanDelta) (network : TaskNetworkSnapshot)
    (methods : Dict String Registry.MethodContract) (domainName : String) :
    Except Message HddlResult := do
  let features ← unsupportedFeatures delta network.toTaskNetwork methods
  let features := features ++
    if delta.methodInstances.isEmpty then ["no-decomposition-to-export"] else []
  let (nodes, problems) ← collectExportNodes letters delta network.toTaskNetwork
  let unsupported := features ++ problems.filter (· ∉ features)
  if unsupported ≠ [] then
    return .unsupported ⟨unsupported, "this increment uses semantics outside '" ++ hddlFragment ++
      "': " ++ join ", " unsupported, hddlFragment⟩
  return .exported (exportOf letters deltaId domainName delta network.toTaskNetwork nodes)

end

end Planning
