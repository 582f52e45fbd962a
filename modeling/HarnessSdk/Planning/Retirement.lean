import HarnessSdk.Planning.Compiler

/-! What a compilation that retires instances keeps of the memberships that stay adopted. -/
namespace Planning
open PyDict PyText Checks Workflow Network

def Binds (draft : MethodInstanceDraft) (id : OccurrenceId) : Prop :=
  ∃ child ∈ draft.childBindings, child.occurrenceId = id

def Survives (current : TaskNetwork) (retired : List MethodInstanceId)
    (draft : MethodInstanceDraft) : Prop :=
  draft ∈ current.methodInstances ∧ draft.instanceId ∈ current.adoptedInstanceIds ∧
    draft.instanceId ∉ retired

def BoundByRetired (current : TaskNetwork) (retired : List MethodInstanceId)
    (id : OccurrenceId) : Prop :=
  ∃ draft ∈ current.methodInstances, draft.instanceId ∈ retired ∧ Binds draft id

/-- The whole membership of every surviving instance is still there. -/
structure KeepsMembership (current after : TaskNetwork) (retired : List MethodInstanceId) :
    Prop where
  occurrences : ∀ draft, Survives current retired draft → ∀ spec ∈ current.occurrences,
    Binds draft spec.occurrenceId → spec ∈ after.occurrences
  orders : ∀ draft, Survives current retired draft → ∀ constraint ∈ current.orderConstraints,
    Binds draft constraint.before → Binds draft constraint.after →
      constraint ∈ after.orderConstraints
  requirements : ∀ draft, Survives current retired draft →
    ∀ requirement ∈ current.dataRequirements, Binds draft requirement.producerOccurrence →
      Binds draft requirement.consumerOccurrence → requirement ∈ after.dataRequirements

/-- The method declares this very order between two slots of the draft. -/
def OrderedAgain (draft : MethodInstanceDraft) (method : MethodContract)
    (constraint : OrderConstraint) : Prop :=
  constraint.releaseCondition = .accepted ∧ ∃ ordering ∈ method.ordering,
    (ordering.before, constraint.before) ∈ draftSlots draft ∧
      (ordering.after, constraint.after) ∈ draftSlots draft

/-- The method declares this very data link between two slots of the draft. -/
def BoundAgain (contentHashOf : Json → String) (draft : MethodInstanceDraft)
    (inputs : CompileInputs) (requirement : DataRequirement) : Prop :=
  ∃ flow ∈ dataFlows inputs.method, ∃ step ∈ inputs.method.steps, ∃ spec port,
    step.localId = flow.1 ∧ inputs.catalog.resolve step.taskTypeRef = some spec ∧
      spec.outputPort flow.2.1 = some port ∧
      (flow.1, requirement.producerOccurrence) ∈ draftSlots draft ∧
      (flow.2.2.1, requirement.consumerOccurrence) ∈ draftSlots draft ∧
      joinPorts contentHashOf flow requirement.producerOccurrence requirement.consumerOccurrence
        port.schemaRef = .ok requirement

/-- No edge inside a surviving membership touches a child of a retired instance, unless the method
declares it again. -/
structure EdgesSpared (contentHashOf : Json → String) (draft : MethodInstanceDraft)
    (current : TaskNetwork) (inputs : CompileInputs) : Prop where
  orders : ∀ stays, Survives current inputs.retireInstanceIds stays →
    ∀ constraint ∈ current.orderConstraints, Binds stays constraint.before →
      Binds stays constraint.after →
      (¬ BoundByRetired current inputs.retireInstanceIds constraint.before ∧
        ¬ BoundByRetired current inputs.retireInstanceIds constraint.after) ∨
      OrderedAgain draft inputs.method constraint
  requirements : ∀ stays, Survives current inputs.retireInstanceIds stays →
    ∀ requirement ∈ current.dataRequirements, Binds stays requirement.producerOccurrence →
      Binds stays requirement.consumerOccurrence →
      (¬ BoundByRetired current inputs.retireInstanceIds requirement.producerOccurrence ∧
        ¬ BoundByRetired current inputs.retireInstanceIds requirement.consumerOccurrence) ∨
      BoundAgain contentHashOf draft inputs requirement

variable {increment : Increment} {id : OccurrenceId}

theorem mem_retiredChildren {current : TaskNetwork} :
    id ∈ increment.retiredChildren current ↔
      BoundByRetired current increment.retireInstanceIds id := by
  simp [Increment.retiredChildren, BoundByRetired, Binds, and_assoc]

theorem Survives.not_orphaned {current : TaskNetwork} {draft : MethodInstanceDraft}
    (survives : Survives current increment.retireInstanceIds draft) (binds : Binds draft id) :
    id ∉ increment.orphaned current := by
  obtain ⟨inside, adopted, stays⟩ := survives
  obtain ⟨child, bound, rfl⟩ := binds
  have surviving : child.occurrenceId ∈ increment.surviving current := by
    rw [Increment.surviving, List.mem_flatMap]
    refine ⟨draft, ?_, List.mem_map_of_mem bound⟩
    simp [inside, stays, Increment.adopted, adopted]
  intro orphaned
  have lost := List.mem_of_mem_filter orphaned
  simp [Increment.orphanedOccurrences, surviving] at lost

section
variable {contentHashOf : Json → String} {draft : MethodInstanceDraft}
  {current : TaskNetworkSnapshot} {inputs : CompileInputs} {plans : List SlotPlan}
  {increment : Increment}

theorem Plans.mem_orders (made : Plans contentHashOf draft current inputs plans increment)
    (constraint : OrderConstraint) :
    constraint ∈ increment.orderConstraints ↔ OrderedAgain draft inputs.method constraint := by
  rw [mem_of_mapM made.orders]
  constructor
  · rintro ⟨ordering, declared, ok⟩
    unfold compileOrdering at ok
    split at ok
    · next before after hb ha =>
      split at ok
      · cases ok
        exact ⟨rfl, ordering, declared, (made.findSlot_iff _ _).mp ⟨before, hb, rfl⟩,
          (made.findSlot_iff _ _).mp ⟨after, ha, rfl⟩⟩
      · cases ok
    · cases ok
  · rintro ⟨accepted, ordering, declared, hb, ha⟩
    obtain ⟨before, foundBefore, first⟩ := (made.findSlot_iff _ _).mpr hb
    obtain ⟨after, foundAfter, second⟩ := (made.findSlot_iff _ _).mpr ha
    refine ⟨ordering, declared, ?_⟩
    obtain ⟨_, _, _, differ⟩ := constraint
    simp only at accepted first second
    subst accepted first second
    simp [compileOrdering, foundBefore, foundAfter, differ]

variable {flow : String × String × String × String} {requirement : DataRequirement}
  {spec : TaskTypeSpec}

theorem joinPorts_ends {producer consumer : OccurrenceId} {schema : VersionedRef}
    (ok : joinPorts contentHashOf flow producer consumer schema = .ok requirement) :
    requirement.producerOccurrence = producer ∧ requirement.consumerOccurrence = consumer := by
  unfold joinPorts at ok
  split at ok
  · cases ok
    exact ⟨rfl, rfl⟩
  · cases ok

theorem requireTaskType_eq_ok {catalog : TaskTypeCatalog} {ref : VersionedRef} :
    requireTaskType catalog ref = .ok spec ↔ catalog.resolve ref = some spec := by
  unfold requireTaskType
  cases catalog.resolve ref <;> simp

theorem requirePort_eq_ok {found : Option PortSpec} {side key : String} {port : PortSpec} :
    requirePort spec found side key = .ok port ↔ found = some port := by
  unfold requirePort
  cases found <;> simp

theorem compileFlow_cases (made : Plans contentHashOf draft current inputs plans increment)
    (ok : compileFlow contentHashOf plans inputs.catalog flow = .ok requirement) :
    ∃ step ∈ inputs.method.steps, ∃ spec port,
      step.localId = flow.1 ∧ inputs.catalog.resolve step.taskTypeRef = some spec ∧
        spec.outputPort flow.2.1 = some port ∧
        (flow.1, requirement.producerOccurrence) ∈ draftSlots draft ∧
        (flow.2.2.1, requirement.consumerOccurrence) ∈ draftSlots draft ∧
        joinPorts contentHashOf flow requirement.producerOccurrence
          requirement.consumerOccurrence port.schemaRef = .ok requirement := by
  unfold compileFlow at ok
  split at ok
  · next producer consumer hp hc =>
    obtain ⟨spec, resolved, ok⟩ := bind_eq_ok.mp ok
    obtain ⟨_, _, ok⟩ := bind_eq_ok.mp ok
    obtain ⟨port, output, ok⟩ := bind_eq_ok.mp ok
    obtain ⟨_, _, ok⟩ := bind_eq_ok.mp ok
    obtain ⟨_, joined⟩ := then_eq_ok.mp ok
    obtain ⟨first, second⟩ := joinPorts_ends joined
    obtain ⟨declared, key⟩ := made.step_mem (List.mem_of_find?_eq_some hp)
    have slot : producer.identity.slotKey = flow.1 := by simpa using List.find?_some hp
    rw [first, second]
    exact ⟨producer.step, declared, spec, port, key.symm.trans slot,
      requireTaskType_eq_ok.mp resolved, requirePort_eq_ok.mp output,
      (made.findSlot_iff _ _).mp ⟨producer, hp, rfl⟩,
      (made.findSlot_iff _ _).mp ⟨consumer, hc, rfl⟩, joined⟩
  · cases ok

theorem draftSlots_distinct (draft : MethodInstanceDraft) : (keys (draftSlots draft)).Nodup := by
  have names : keys (draftSlots draft) = draft.childBindings.map (·.slotKey) := by
    simp [keys, draftSlots]
  rw [names]
  exact draft.slotsDistinct

theorem draftSlots_functional {slot : String} {first second : OccurrenceId}
    (one : (slot, first) ∈ draftSlots draft) (two : (slot, second) ∈ draftSlots draft) :
    first = second := by
  have here := get?_eq_some_of_mem (draftSlots_distinct draft) one
  rw [get?_eq_some_of_mem (draftSlots_distinct draft) two] at here
  exact (Option.some.inj here).symm

theorem Plans.mem_requirements (made : Plans contentHashOf draft current inputs plans increment)
    (requirement : DataRequirement) :
    requirement ∈ increment.dataRequirements ↔
      BoundAgain contentHashOf draft inputs requirement := by
  constructor
  · intro inside
    obtain ⟨flow, declared, ok⟩ := (mem_of_mapM made.requirements requirement).mp inside
    exact ⟨flow, declared, compileFlow_cases made ok⟩
  · rintro ⟨flow, declared, step, known, spec, port, name, resolved, output, hp, hc, joined⟩
    obtain ⟨compiled, inside, ok⟩ := round_of_mapM made.requirements declared
    obtain ⟨step', known', spec', port', name', resolved', output', hp', hc', joined'⟩ :=
      compileFlow_cases made ok
    have sameStep := List.inj_on_of_nodup_map inputs.method.stepsDistinct known known'
      (name.trans name'.symm)
    subst sameStep
    rw [resolved, Option.some.injEq] at resolved'
    subst resolved'
    rw [output, Option.some.injEq] at output'
    subst output'
    rw [← draftSlots_functional hp hp', ← draftSlots_functional hc hc', joined] at joined'
    cases joined'
    exact inside

end

/-- Occurrences of surviving memberships always stay; their edges stay exactly when none of them
touches a retired child without being declared again. -/
theorem retirement_keeps_membership_iff (printable : Char → Bool) (contentHashOf : Json → String)
    (draft : MethodInstanceDraft) (current : TaskNetworkSnapshot) (inputs : CompileInputs)
    (compilation : RefinementCompilation)
    (ok : compileRefinementBundle printable contentHashOf draft current inputs = .ok compilation) :
    KeepsMembership current.toTaskNetwork compilation.network.toTaskNetwork
        inputs.retireInstanceIds ↔
      EdgesSpared contentHashOf draft current.toTaskNetwork inputs := by
  obtain ⟨plans, increment, openings, projection, compiles⟩ := compiles_of_ok ok
  have made := plans_of_ok compiles.planned
  rw [compiles.network, ← made.retireKept]
  constructor
  · intro keeps
    constructor
    · intro stays survives constraint inside before after
      rw [← made.retireKept] at survives
      have kept := keeps.orders stays survives constraint inside before after
      simpa [Increment.merged, mem_retiredChildren, made.mem_orders, inside, made.retireKept]
        using kept
    · intro stays survives requirement inside producer consumer
      rw [← made.retireKept] at survives
      have kept := keeps.requirements stays survives requirement inside producer consumer
      simpa [Increment.merged, mem_retiredChildren, made.mem_requirements, inside, made.retireKept]
        using kept
  · intro spared
    constructor
    · intro stays survives spec inside binds
      simp [Increment.merged, Increment.keptOccurrences, inside, survives.not_orphaned binds]
    · intro stays survives constraint inside before after
      rw [made.retireKept] at survives
      have kept := spared.orders stays survives constraint inside before after
      simpa [Increment.merged, mem_retiredChildren, made.mem_orders, inside, made.retireKept]
        using kept
    · intro stays survives requirement inside producer consumer
      rw [made.retireKept] at survives
      have kept := spared.requirements stays survives requirement inside producer consumer
      simpa [Increment.merged, mem_retiredChildren, made.mem_requirements, inside, made.retireKept]
        using kept

def tabulated (table : List (String × String)) (payload : Json) : String :=
  (table.lookup (canonicalJson payload)).getD emptyHash

theorem tabulated_eq_read (table : List (String × String)) :
    tabulated table = fun payload => (table.lookup (canonicalRead payload)).getD emptyHash := by
  funext payload
  rw [tabulated, canonicalJson_eq_read]

def apiOnSketch : MethodInstanceDraft where
  instanceId := "mi-api-1"
  goalId := "api"
  obligationId := "ship"
  methodRef := ⟨"design", 1, emptyHash⟩
  childBindings := [slot "mi-api-1" "sketch" .required]

def apiOnSchema : MethodInstanceDraft where
  instanceId := "mi-api-1"
  goalId := "api"
  obligationId := "ship"
  methodRef := ⟨"design", 1, emptyHash⟩
  childBindings := [slot "mi-api-1" "sketch" .required, slot "mi-api-1" "schema" .required]

/-- The docs are made from a schema and then a guide. -/
def apiNetwork (api : MethodInstanceDraft) : TaskNetwork where
  missionId := "m"
  planRevision := 1
  occurrences := [position "api" .compound, position "docs" .compound,
    position "schema" .primitive, position "guide" .primitive, position "sketch" .primitive]
  taskBindings := [compoundTask "api", compoundTask "docs", primitiveTask "schema",
    primitiveTask "guide", primitiveTask "sketch"]
  methodInstances := [api,
    { instanceId := "mi-docs"
      goalId := "docs"
      obligationId := "ship"
      methodRef := ⟨"write", 1, emptyHash⟩
      childBindings := [slot "mi-docs" "schema" .required, slot "mi-docs" "guide" .required] }]
  adoptedInstanceIds := ["mi-api-1", "mi-docs"]
  rootOccurrenceIds := ["api", "docs"]
  orderConstraints := [{ before := "schema", after := "guide" }]

/-- The api reads the schema of the docs too. -/
def sharedSchema : TaskNetworkSnapshot := ⟨apiNetwork apiOnSchema, by decide⟩

/-- The api stands on a sketch of its own. -/
def ownSketch : TaskNetworkSnapshot := ⟨apiNetwork apiOnSketch, by decide⟩

def rebuild : MethodContract where
  methodId := "rebuild"
  methodVersion := 1
  contentHash := "beb3957c37facf19830e975695acbd82b370163564e41805555eb8193c4ba564"
  steps := [
    { localId := "build"
      taskTypeRef := ⟨"build", 1, emptyHash⟩
      form := .primitive }]
  composition := { criterionLinks := [⟨"built", some "build"⟩] }

def buildType : TaskTypeSpec where
  taskTypeRef := ⟨"build", 1, emptyHash⟩
  form := .primitive
  goalSignature := { signatureId := "build" }
  operatorRef := some ⟨"op", 1, emptyHash⟩

def rebuildDraft : MethodInstanceDraft where
  instanceId := "mi-api-2"
  goalId := "api"
  obligationId := "ship"
  methodRef := rebuild.methodRef
  childBindings := [
    { instanceId := "mi-api-2"
      slotKey := "build"
      occurrenceId := "occ-ab88ad4dd22bef794f6360a83cb33b46"
      obligationId := "ship" }]

def rebuildInputs : CompileInputs where
  method := rebuild
  catalog := [(("build", 1), buildType)]
  retireInstanceIds := ["mi-api-1"]

def rebuildHash : Json → String := tabulated [
  ("[\"occ\",\"mi-api-2\",\"build\"]",
    "ab88ad4dd22bef794f6360a83cb33b46ee5653d11349d59535e17e89a73157e8"),
  ("[\"task\",\"mi-api-2\",\"build\"]",
    "12422425ef42b1f61597ad264afbb179c4c5096add1774acdfc4a32a242a968f")]

def compileRebuild (current : TaskNetworkSnapshot) : Except Message RefinementCompilation :=
  compileRefinementBundle (fun _ => true) rebuildHash rebuildDraft current rebuildInputs

/-- Retiring the first way to the api loses the order of the docs, which stay adopted. -/
theorem retirement_drops_order_of_survivor : ∃ compilation,
    compileRefinementBundle (fun _ => true) rebuildHash rebuildDraft sharedSchema rebuildInputs =
      .ok compilation ∧
    ¬ KeepsMembership sharedSchema.toTaskNetwork compilation.network.toTaskNetwork
      rebuildInputs.retireInstanceIds := by
  have outcome : (compileRebuild sharedSchema).toOption.map (·.network.orderConstraints) =
      some [] := by
    unfold compileRebuild rebuildHash
    rw [tabulated_eq_read]
    decide +kernel
  obtain ⟨compilation, compiled, empty⟩ := toOption_map_eq_some.mp outcome
  refine ⟨compilation, compiled, fun keeps => ?_⟩
  have docs : ∃ draft, Survives sharedSchema.toTaskNetwork rebuildInputs.retireInstanceIds draft ∧
      Binds draft "schema" ∧ Binds draft "guide" := by
    refine ⟨(apiNetwork apiOnSchema).methodInstances[1], ⟨?_, ?_, ?_⟩, ?_, ?_⟩
    · exact List.getElem_mem _
    · decide
    · decide
    · exact ⟨slot "mi-docs" "schema" .required, by simp [apiNetwork], rfl⟩
    · exact ⟨slot "mi-docs" "guide" .required, by simp [apiNetwork], rfl⟩
  obtain ⟨draft, survives, first, second⟩ := docs
  have kept := keeps.orders draft survives { before := "schema", after := "guide" } (by decide)
    first second
  rw [empty] at kept
  cases kept

/-- Where the api has a sketch of its own, the docs keep their order. -/
theorem retirement_keeps_membership_of_docs : ∃ compilation,
    compileRebuild ownSketch = .ok compilation ∧
    KeepsMembership ownSketch.toTaskNetwork compilation.network.toTaskNetwork
      rebuildInputs.retireInstanceIds ∧
    compilation.network.orderConstraints = [{ before := "schema", after := "guide" }] := by
  have outcome : (compileRebuild ownSketch).toOption.map (·.network.orderConstraints) =
      some [{ before := "schema", after := "guide" }] := by
    unfold compileRebuild rebuildHash
    rw [tabulated_eq_read]
    decide +kernel
  obtain ⟨compilation, compiled, orders⟩ := toOption_map_eq_some.mp outcome
  refine ⟨compilation, compiled,
    (retirement_keeps_membership_iff _ _ _ _ _ compilation compiled).mpr
      ⟨?_, by simp [ownSketch, apiNetwork]⟩, orders⟩
  intro stays _ constraint inside _ _
  obtain rfl := List.mem_singleton.mp inside
  exact Or.inl (by simp [BoundByRetired, Binds, ownSketch, apiNetwork, apiOnSketch, rebuildInputs, slot])

end Planning
