import HarnessSdk.Planning.Retirement

/-! The occurrences that the steps of a method bind instead of doing the work again: the index built
from the network, and what a step and the occurrence it binds agree on. -/
namespace Planning
open PyDict PyText Checks Workflow Network

def TaskTypeSpec.key (spec : TaskTypeSpec) : String × Nat :=
  (spec.taskTypeRef.id, spec.taskTypeRef.version)

def TaskTypeCatalog.register (catalog : TaskTypeCatalog) (spec : TaskTypeSpec) :
    Except Message TaskTypeCatalog :=
  match get? catalog spec.key with
  | none => .ok (set catalog spec.key spec)
  | some existing => do
    require (existing.taskTypeRef.contentHash = spec.taskTypeRef.contentHash)
      [.text "task type ", .repr spec.key.1, .text " v", .text (toString spec.key.2),
        .text " is already registered with different content; publish a new version instead"]
    .ok catalog

def TaskTypeCatalog.registerAll (specs : List TaskTypeSpec) : Except Message TaskTypeCatalog :=
  specs.foldlM TaskTypeCatalog.register []

def signatureKey (signature : GoalSignature) : String × Nat :=
  (signature.signatureId, signature.version)

/-- Of the types that declare one goal signature, the last one registered stands. -/
def bySignature (catalog : TaskTypeCatalog) : Dict (String × Nat) TaskTypeSpec :=
  ofEntries (catalog.map fun entry => (signatureKey entry.2.goalSignature, entry.2))

def sharedGoalEntry (network : TaskNetwork) (catalog : TaskTypeCatalog)
    (occurrence : OccurrenceSpec) : Option SharedGoalEntry := do
  let spec ← network.occurrence? occurrence.occurrenceId
  let binding ← network.bindingForTask? spec.taskId
  let declared ← get? (bySignature catalog) (signatureKey binding.goalSignature)
  return {
    occurrenceId := occurrence.occurrenceId
    taskId := binding.taskId
    obligationId := binding.obligationId
    signature := SharingSignature.of declared binding.typedParameters binding.semanticScope
    reusePolicy := declared.reusePolicy }

section Hashing
variable (contentHashOf : Json → String)

/-- The first entry with a digest stays. -/
def SharedGoalIndex.add (sharing : SharedGoalIndex) (entry : SharedGoalEntry) : SharedGoalIndex :=
  setDefault sharing (contentHashOf entry.signature.toJson) entry

def sharedGoalIndex (network : TaskNetwork) (catalog : TaskTypeCatalog)
    (excludeOccurrenceIds : List OccurrenceId) : SharedGoalIndex :=
  ((network.occurrences.filter (·.occurrenceId ∉ excludeOccurrenceIds)).filterMap
    (sharedGoalEntry network catalog)).foldl (SharedGoalIndex.add contentHashOf) []

end Hashing

/-! What a step and the work it shares agree on. -/

def Reads (network : TaskNetwork) (consumer producer : OccurrenceId) (port input : String) : Prop :=
  ∃ requirement ∈ network.dataRequirements, requirement.consumerOccurrence = consumer ∧
    requirement.producerOccurrence = producer ∧ requirement.outputPort = port ∧
    requirement.inputPort = input

/-- What a step of the method reads, from the occurrences that the plan binds its producers to. -/
def StepReads (method : MethodContract) (plans : List SlotPlan) (step : MethodStep)
    (producer : OccurrenceId) (port input : String) : Prop :=
  ∃ source ∈ plans, (source.step.localId, port, step.localId, input) ∈ dataFlows method ∧
    source.boundOccurrenceId = producer

section Agreement
variable (network : TaskNetwork) (catalog : TaskTypeCatalog) (task : TaskSemanticBinding)
  (method : MethodContract) (parameters : Dict String Json) (plans : List SlotPlan)

structure AgreesWith (plan : SlotPlan) (stored : TaskSemanticBinding) : Prop where
  /-- The stored task's goal is of the type that the step asks for. -/
  sameType : ∃ declared, (declared.key, declared) ∈ catalog ∧
    signatureKey declared.goalSignature = signatureKey stored.goalSignature ∧
    declared.taskTypeRef = plan.step.taskTypeRef
  /-- The scope is also the authority under which each of the two stands. -/
  scope : stored.semanticScope = task.semanticScope
  resolved : resolveArguments parameters ("step[" ++ plan.step.localId ++ "]")
    plan.step.arguments = .ok plan.arguments
  arguments : (Json.obj (sortedBy Prod.fst stored.typedParameters)).sameText
    (.obj (sortedBy Prod.fst plan.arguments)) = true
  reads : ∀ producer port input, StepReads method plans plan.step producer port input ↔
    Reads network plan.boundOccurrenceId producer port input

/-- A step that binds what exists already agrees with it, and two steps that bind the same
occurrence read the same. -/
structure SharesSoundly : Prop where
  agrees : ∀ plan ∈ plans, plan.reusePolicy ≠ .newWork →
    ∃ spec stored, network.occurrence? plan.boundOccurrenceId = some spec ∧
      network.bindingForTask? spec.taskId = some stored ∧
      AgreesWith network catalog task method parameters plans plan stored
  producers : ∀ a ∈ plans, ∀ b ∈ plans, a.reusePolicy ≠ .newWork → b.reusePolicy ≠ .newWork →
    a.boundOccurrenceId = b.boundOccurrenceId → ∀ producer port input,
      StepReads method plans a.step producer port input ↔
        StepReads method plans b.step producer port input

end Agreement

/-! The condition, in terms of what planning is given. -/

section Inputs
variable (contentHashOf : Json → String) (network : TaskNetwork) (catalog : TaskTypeCatalog)
  (excluded : List OccurrenceId) (task : TaskSemanticBinding) (parameters : Dict String Json)
  (draftId : MethodInstanceId) (method : MethodContract)

def offered (step : MethodStep) : Option SharedGoalEntry :=
  match catalog.resolve step.taskTypeRef with
  | none => none
  | some spec =>
    match resolveArguments parameters ("step[" ++ step.localId ++ "]") step.arguments with
    | .error _ => none
    | .ok arguments => (sharedGoalIndex contentHashOf network catalog excluded).lookup contentHashOf
        (SharingSignature.of spec arguments task.semanticScope) (effectiveReusePolicy step spec)

def sourceOf (step : MethodStep) : OccurrenceId :=
  match offered contentHashOf network catalog excluded task parameters step with
  | none => deriveId contentHashOf "occ" [draftId, step.localId]
  | some entry => entry.occurrenceId

/-- Each data input of the step comes from the occurrence that feeds the same input of the work
offered to it, and that work has no other. -/
def InputsMatch (step : MethodStep) (entry : SharedGoalEntry) : Prop :=
  ∀ producer port input,
    (∃ source ∈ method.steps, (source.localId, port, step.localId, input) ∈ dataFlows method ∧
      sourceOf contentHashOf network catalog excluded task parameters draftId source = producer) ↔
    Reads network entry.occurrenceId producer port input

end Inputs

/-! What the index holds. -/

theorem registerAll_keyed {specs : List TaskTypeSpec} {start catalog : TaskTypeCatalog}
    (registered : specs.foldlM TaskTypeCatalog.register start = .ok catalog)
    (keyed : ∀ entry ∈ start, entry.1 = entry.2.key) : ∀ entry ∈ catalog, entry.1 = entry.2.key := by
  induction specs generalizing start with
  | nil =>
    cases registered
    exact keyed
  | cons spec rest ih =>
    rw [List.foldlM_cons, bind_eq_ok] at registered
    obtain ⟨next, one, registered⟩ := registered
    apply ih registered
    unfold TaskTypeCatalog.register at one
    split at one
    · cases one
      intro entry inside
      cases mem_set inside with
      | inl new => rw [new]
      | inr old => exact keyed entry old
    · rw [then_eq_ok] at one
      obtain ⟨_, one⟩ := one
      cases one
      exact keyed

theorem resolve_ref {catalog : TaskTypeCatalog} (keyed : ∀ entry ∈ catalog, entry.1 = entry.2.key)
    {ref : VersionedRef} {spec : TaskTypeSpec} (resolved : catalog.resolve ref = some spec) :
    spec.taskTypeRef = ref := by
  unfold TaskTypeCatalog.resolve at resolved
  rw [Option.filter_eq_some_iff] at resolved
  obtain ⟨found, hash⟩ := resolved
  have key := keyed _ (mem_of_get?_eq_some found)
  obtain ⟨name, version⟩ := Prod.mk.inj key
  obtain ⟨id, number, content⟩ := ref
  rw [VersionedRef.mk.injEq]
  exact ⟨name.symm, version.symm, of_decide_eq_true hash⟩

theorem mem_index {contentHashOf : Json → String} {entries : List SharedGoalEntry}
    {start : SharedGoalIndex} {digest : String} {entry : SharedGoalEntry}
    (found : get? (entries.foldl (SharedGoalIndex.add contentHashOf) start) digest = some entry) :
    entry ∈ entries ∨ get? start digest = some entry := by
  induction entries generalizing start with
  | nil => exact Or.inr found
  | cons first rest ih =>
    cases ih found with
    | inl later => exact Or.inl (List.mem_cons_of_mem _ later)
    | inr now =>
      rw [SharedGoalIndex.add, get?_setDefault] at now
      split at now
      · next same =>
        subst same
        cases old : get? start (contentHashOf first.signature.toJson) with
        | none =>
          rw [old, Option.getD_none, Option.some.injEq] at now
          exact Or.inl (now ▸ List.mem_cons_self)
        | some held =>
          rw [old, Option.getD_some] at now
          exact Or.inr now
      · exact Or.inr now

section
variable {contentHashOf : Json → String} {network : TaskNetwork} {catalog : TaskTypeCatalog}
  {excluded : List OccurrenceId} {task : TaskSemanticBinding} {parameters : Dict String Json}
  {draftId : MethodInstanceId} {method : MethodContract}

structure Indexed (network : TaskNetwork) (catalog : TaskTypeCatalog) (entry : SharedGoalEntry)
    (declared : TaskTypeSpec) (spec : OccurrenceSpec) (stored : TaskSemanticBinding) : Prop where
  place : network.occurrence? entry.occurrenceId = some spec
  binding : network.bindingForTask? spec.taskId = some stored
  declares : ∃ key, (key, declared) ∈ catalog
  goal : signatureKey declared.goalSignature = signatureKey stored.goalSignature
  signature : entry.signature =
    SharingSignature.of declared stored.typedParameters stored.semanticScope

variable {entry : SharedGoalEntry} {step : MethodStep} {acceptances : Dict String TypedRef}

theorem indexed_of_get? {digest : String}
    (found : get? (sharedGoalIndex contentHashOf network catalog excluded) digest = some entry) :
    ∃ declared spec stored, Indexed network catalog entry declared spec stored := by
  cases mem_index found with
  | inr none => cases none
  | inl listed =>
    obtain ⟨occurrence, _, made⟩ := List.mem_filterMap.mp listed
    obtain ⟨spec, place, made⟩ := Option.bind_eq_some_iff.mp made
    obtain ⟨stored, binding, made⟩ := Option.bind_eq_some_iff.mp made
    obtain ⟨declared, typed, made⟩ := Option.bind_eq_some_iff.mp made
    cases made
    have declares : (signatureKey stored.goalSignature, declared) ∈
        catalog.map fun entry => (signatureKey entry.2.goalSignature, entry.2) := by
      rcases get?_update_cases typed with entry | empty
      · exact entry
      · cases empty
    obtain ⟨entry, inside, same⟩ := List.mem_map.mp declares
    obtain ⟨goal, rfl⟩ := Prod.mk.inj same
    exact ⟨entry.2, spec, stored, place, binding, ⟨entry.1, inside⟩, goal, rfl⟩

theorem offered_cases
    (offers : offered contentHashOf network catalog excluded task parameters step = some entry) :
    ∃ spec arguments declared place stored, catalog.resolve step.taskTypeRef = some spec ∧
      resolveArguments parameters ("step[" ++ step.localId ++ "]") step.arguments =
        .ok arguments ∧
      Indexed network catalog entry declared place stored ∧
      declared.taskTypeRef = spec.taskTypeRef ∧ stored.semanticScope = task.semanticScope ∧
      (Json.obj (sortedBy Prod.fst stored.typedParameters)).sameText
        (.obj (sortedBy Prod.fst arguments)) = true := by
  unfold offered at offers
  split at offers
  · cases offers
  · next spec resolved =>
    split at offers
    · cases offers
    · next arguments ground =>
      unfold SharedGoalIndex.lookup at offers
      rw [Option.filter_eq_some_iff] at offers
      obtain ⟨found, shares⟩ := offers
      obtain ⟨declared, place, stored, indexed⟩ := indexed_of_get? found
      rw [indexed.signature] at shares
      simp only [mayShare, SharingSignature.agrees, SharingSignature.of, Bool.and_eq_true,
        decide_eq_true_eq] at shares
      obtain ⟨⟨⟨⟨⟨⟨⟨⟨⟨⟨⟨type, values⟩, _⟩, scope⟩, _⟩, _⟩, _⟩, _⟩, _⟩, _⟩, _⟩, _⟩ := shares
      exact ⟨spec, arguments, declared, place, stored, resolved, ground, indexed,
        of_decide_eq_true type, of_decide_eq_true scope, values⟩

structure Planned (contentHashOf : Json → String) (network : TaskNetwork)
    (catalog : TaskTypeCatalog) (excluded : List OccurrenceId) (task : TaskSemanticBinding)
    (parameters : Dict String Json) (draftId : MethodInstanceId) (step : MethodStep)
    (plan : SlotPlan) : Prop where
  same : plan.step = step
  resolved : resolveArguments parameters ("step[" ++ step.localId ++ "]") step.arguments =
    .ok plan.arguments
  shared : plan.reusePolicy ≠ .newWork ↔
    (offered contentHashOf network catalog excluded task parameters step).isSome
  bound : plan.boundOccurrenceId =
    sourceOf contentHashOf network catalog excluded task parameters draftId step

theorem planSlot_planned {plan : SlotPlan}
    (ok : planSlot contentHashOf task parameters draftId catalog (some (sharedGoalIndex
      contentHashOf network catalog excluded)) acceptances step = .ok plan) :
    Planned contentHashOf network catalog excluded task parameters draftId step plan := by
  unfold planSlot at ok
  split at ok
  · cases ok
  · next spec resolved =>
    obtain ⟨_, ok⟩ := then_eq_ok.mp ok
    obtain ⟨arguments, ground, ok⟩ := bind_eq_ok.mp ok
    have offers : offered contentHashOf network catalog excluded task parameters step =
        (sharedGoalIndex contentHashOf network catalog excluded).lookup contentHashOf
          (SharingSignature.of spec arguments task.semanticScope)
          (effectiveReusePolicy step spec) := by
      unfold offered
      simp only [resolved, ground]
    cases ok
    unfold bindSlot
    rw [Option.bind_some, ← offers]
    split
    · next none =>
      constructor
      · dsimp only
      · exact ground
      · simp [none]
      · unfold sourceOf
        rw [none]
        rfl
    · next entry some =>
      constructor
      · dsimp only
      · exact ground
      · simp only [some, Option.isSome_some, iff_true]
        split <;> simp
      · unfold sourceOf
        rw [some]

namespace Planned
variable {step : MethodStep} {plan : SlotPlan}
  (told : Planned contentHashOf network catalog excluded task parameters draftId step plan)
include told

theorem bound_entry {entry : SharedGoalEntry}
    (offers : offered contentHashOf network catalog excluded task parameters step = some entry) :
    plan.boundOccurrenceId = entry.occurrenceId := by
  rw [told.bound, sourceOf, offers]

theorem agrees {plans : List SlotPlan} (keyed : ∀ entry ∈ catalog, entry.1 = entry.2.key)
    (old : plan.reusePolicy ≠ .newWork)
    (reads : ∀ producer port input, StepReads method plans plan.step producer port input ↔
      Reads network plan.boundOccurrenceId producer port input) :
    ∃ spec stored, network.occurrence? plan.boundOccurrenceId = some spec ∧
      network.bindingForTask? spec.taskId = some stored ∧
      AgreesWith network catalog task method parameters plans plan stored := by
  obtain ⟨entry, offers⟩ := Option.isSome_iff_exists.mp (told.shared.mp old)
  obtain ⟨spec, arguments, declared, place, stored, resolved, ground, indexed, type, scope,
    values⟩ := offered_cases offers
  have same : arguments = plan.arguments := by
    have twice := told.resolved
    rw [ground, Except.ok.injEq] at twice
    exact twice
  refine ⟨place, stored, told.bound_entry offers ▸ indexed.place, indexed.binding, ?_⟩
  constructor
  · obtain ⟨key, listed⟩ := indexed.declares
    have named : key = declared.key := keyed _ listed
    refine ⟨declared, named ▸ listed, indexed.goal, ?_⟩
    rw [type, resolve_ref keyed resolved, told.same]
  · exact scope
  · rw [told.same]
    exact told.resolved
  · exact same ▸ values
  · exact reads

end Planned

variable {plans : List SlotPlan}

theorem stepReads_iff
    (planned : planSlots contentHashOf task method parameters draftId catalog (some
      (sharedGoalIndex contentHashOf network catalog excluded)) acceptances = .ok plans)
    (step : MethodStep) (producer : OccurrenceId) (port input : String) :
    StepReads method plans step producer port input ↔
      ∃ source ∈ method.steps, (source.localId, port, step.localId, input) ∈ dataFlows method ∧
        sourceOf contentHashOf network catalog excluded task parameters draftId source =
          producer := by
  constructor
  · intro ⟨plan, inside, flows, bound⟩
    obtain ⟨source, listed, ok⟩ := (mem_of_mapM planned plan).mp inside
    have told := planSlot_planned ok
    rw [told.same] at flows
    exact ⟨source, listed, flows, told.bound.symm.trans bound⟩
  · intro ⟨source, listed, flows, bound⟩
    obtain ⟨plan, inside, ok⟩ := round_of_mapM planned listed
    have told := planSlot_planned ok
    refine ⟨plan, inside, ?_, told.bound.trans bound⟩
    rw [told.same]
    exact flows

end

/-- Sharing is sound exactly when each step that is offered work reads what that work reads. -/
theorem plan_slots_shares_soundly_iff (contentHashOf : Json → String) (network : TaskNetwork)
    (specs : List TaskTypeSpec) (catalog : TaskTypeCatalog)
    (registered : TaskTypeCatalog.registerAll specs = .ok catalog)
    (excluded : List OccurrenceId) (task : TaskSemanticBinding) (method : MethodContract)
    (parameters : Dict String Json) (draftId : MethodInstanceId)
    (acceptances : Dict String TypedRef) (plans : List SlotPlan)
    (planned : planSlots contentHashOf task method parameters draftId catalog
      (some (sharedGoalIndex contentHashOf network catalog excluded)) acceptances = .ok plans) :
    SharesSoundly network catalog task method parameters plans ↔
      ∀ step ∈ method.steps, ∀ entry,
        offered contentHashOf network catalog excluded task parameters step = some entry →
          InputsMatch contentHashOf network catalog excluded task parameters draftId method step
            entry := by
  have keyed := registerAll_keyed registered fun _ none => absurd none List.not_mem_nil
  have reads := stepReads_iff planned
  constructor
  · intro sound step listed entry offers
    obtain ⟨plan, inside, ok⟩ := round_of_mapM planned listed
    have told := planSlot_planned ok
    obtain ⟨spec, stored, _, _, agrees⟩ := sound.agrees plan inside (told.shared.mpr (by
      rw [offers]
      rfl))
    intro producer port input
    rw [← reads step producer port input, ← told.bound_entry offers, ← agrees.reads, told.same]
  · intro fits
    have alike : ∀ plan ∈ plans, plan.reusePolicy ≠ .newWork → ∀ producer port input,
        StepReads method plans plan.step producer port input ↔
          Reads network plan.boundOccurrenceId producer port input := by
      intro plan inside old producer port input
      obtain ⟨step, listed, ok⟩ := (mem_of_mapM planned plan).mp inside
      have told := planSlot_planned ok
      obtain ⟨entry, offers⟩ := Option.isSome_iff_exists.mp (told.shared.mp old)
      rw [told.same, told.bound_entry offers, reads]
      exact fits step listed entry offers producer port input
    constructor
    · intro plan inside old
      obtain ⟨step, _, ok⟩ := (mem_of_mapM planned plan).mp inside
      exact (planSlot_planned ok).agrees keyed old (alike plan inside old)
    · intro a insideA b insideB oldA oldB same producer port input
      rw [alike a insideA oldA, alike b insideB oldB, same]

def ratesNetwork : TaskNetwork where
  missionId := "m"
  planRevision := 1
  occurrences := [position "memo" .compound, position "d" .primitive, position "r" .primitive]
  taskBindings := [compoundTask "memo",
    { primitiveTask "d" with
      goalSignature := { signatureId := "draft" }
      typedParameters := [("topic", .str "rates")] },
    { primitiveTask "r" with goalSignature := { signatureId := "review" } }]
  rootOccurrenceIds := ["memo"]
  dataRequirements := [
    { requirementId := "text-of-d"
      producerOccurrence := "d"
      outputPort := "text"
      consumerOccurrence := "r"
      inputPort := "text"
      schemaRef := ⟨"text", 1, emptyHash⟩
      assurancePolicyRef := defaultAssurancePolicy
      freshnessPolicyRef := defaultFreshnessPolicy }]

def sharedType (name : String) : TaskTypeSpec where
  taskTypeRef := ⟨name, 1, emptyHash⟩
  form := .primitive
  goalSignature := { signatureId := name }
  operatorRef := some ⟨"op", 1, emptyHash⟩
  reusePolicy := .shareActive

def officeTypes : TaskTypeCatalog :=
  [(("draft", 1), sharedType "draft"), (("review", 1), sharedType "review")]

def memoMethod : MethodContract where
  methodId := "memo"
  methodVersion := 1
  contentHash := emptyHash
  steps := [
    { localId := "draft"
      taskTypeRef := ⟨"draft", 1, emptyHash⟩
      form := .primitive
      arguments := [("topic", .parameter "topic")] },
    { localId := "review"
      taskTypeRef := ⟨"review", 1, emptyHash⟩
      form := .primitive
      arguments := [("text", .output "draft" "text")] }]
  composition := { criterionLinks := [⟨"done", some "review"⟩] }

def officeSignature (name parameters : String) : String :=
  "\x7b\"assurance_policy_ref\":\"assurance.default\",\"authority_scope\":\"mission\"," ++
    "\"domain_semantics\":\"\",\"effect_identity\":null," ++
    "\"freshness_policy_ref\":\"freshness.default\",\"goal_type_ref\":\x7b\"content_hash\":\"" ++
    emptyHash ++ "\",\"id\":\"" ++ name ++ "\",\"version\":1\x7d,\"input_versions\":[]," ++
    "\"semantic_scope\":\"mission\",\"side_effect_kind\":\"none\",\"typed_parameters\":[" ++
    parameters ++ "]\x7d"

def officeHash : Json → String := tabulated [
  (officeSignature "draft" "[\"topic\",\"rates\"]",
    "1d6f456fa898ae110cb7df958f24304cda359239088ba1b276935e30ffc1e976"),
  (officeSignature "draft" "[\"topic\",\"wages\"]",
    "0e7deb30af804ac4bd7f159c00e5f1f1e66a62adebd6290f6ab99faaa61dd8e4"),
  (officeSignature "review" "", "133ccedf3e68e8df09cefa617734380fa3952162b371f329c3b7ae7c125564b7"),
  ("[\"occ\",\"mi-memo\",\"draft\"]",
    "55a96e582d7dc44401d5828519842767935fe01ab9c1435a3d3b62848b0a6d26"),
  ("[\"occ\",\"mi-memo\",\"review\"]",
    "5c139ea67f3e6f818b1ac905743061bff228a53db46a80e8de83f5444754bff5"),
  ("[\"task\",\"mi-memo\",\"draft\"]",
    "8a188159b254089086af47ee4585ab41f86298c5c8012ab042cf405f75ce84fc"),
  ("[\"task\",\"mi-memo\",\"review\"]",
    "2b3a00448c57e85b4b84986735c7eda8da7a6490a7f1e06413cc8ae8f5d30e1c")]

def planMemo (topic : String) : Except Message (List SlotPlan) :=
  planSlots officeHash (compoundTask "memo") memoMethod [("topic", .str topic)] "mi-memo"
    officeTypes (some (sharedGoalIndex officeHash ratesNetwork officeTypes [])) []

def slotFacts (plans : List SlotPlan) : List (String × ReusePolicy × OccurrenceId) :=
  plans.map fun plan => (plan.step.localId, plan.reusePolicy, plan.boundOccurrenceId)

theorem memo_flows : dataFlows memoMethod = [("draft", "text", "review", "text")] := by
  decide

theorem reads_rates {consumer producer : OccurrenceId} {port input : String} :
    Reads ratesNetwork consumer producer port input ↔
      consumer = "r" ∧ producer = "d" ∧ port = "text" ∧ input = "text" := by
  simp only [Reads, ratesNetwork, List.mem_singleton, exists_eq_left, eq_comm]

theorem officeTypes_registered :
    TaskTypeCatalog.registerAll [sharedType "draft", sharedType "review"] = .ok officeTypes :=
  rfl

theorem rates_sources : ∀ step ∈ memoMethod.steps,
    sourceOf officeHash ratesNetwork officeTypes [] (compoundTask "memo")
      [("topic", .str "rates")] "mi-memo" step = if step.localId = "draft" then "d" else "r" := by
  unfold officeHash
  rw [tabulated_eq_read]
  decide +kernel

theorem rates_memo_shares_soundly : ∃ plans, planMemo "rates" = .ok plans ∧
    slotFacts plans = [("draft", .shareActive, "d"), ("review", .shareActive, "r")] ∧
    SharesSoundly ratesNetwork officeTypes (compoundTask "memo") memoMethod
      [("topic", .str "rates")] plans := by
  have facts : (planMemo "rates").toOption.map slotFacts =
      some [("draft", .shareActive, "d"), ("review", .shareActive, "r")] := by
    unfold planMemo officeHash
    rw [tabulated_eq_read]
    decide +kernel
  obtain ⟨plans, planned, slots⟩ := toOption_map_eq_some.mp facts
  refine ⟨plans, planned, slots, ?_⟩
  apply (plan_slots_shares_soundly_iff officeHash ratesNetwork _ officeTypes
    officeTypes_registered [] (compoundTask "memo") memoMethod [("topic", .str "rates")] "mi-memo"
    [] plans planned).mpr
  intro step listed entry offers producer port input
  have work : (step.localId, entry.occurrenceId) ∈ [("draft", "d"), ("review", "r")] := by
    have all : ∀ step ∈ memoMethod.steps, ∀ id ∈ (offered officeHash ratesNetwork officeTypes []
        (compoundTask "memo") [("topic", .str "rates")] step).map (·.occurrenceId),
        (step.localId, id) ∈ [("draft", "d"), ("review", "r")] := by
      unfold officeHash
      rw [tabulated_eq_read]
      decide +kernel
    apply all step listed
    rw [offers]
    rfl
  rw [reads_rates, memo_flows]
  constructor
  · intro ⟨source, known, flows, from_source⟩
    simp only [List.mem_singleton, Prod.mk.injEq] at flows
    obtain ⟨first, rfl, second, rfl⟩ := flows
    rw [rates_sources source known, first] at from_source
    rw [second] at work
    have home : entry.occurrenceId = "r" := by simpa using work
    exact ⟨home, from_source.symm, rfl, rfl⟩
  · intro ⟨home, from_d, text, text'⟩
    subst from_d text text'
    rw [home] at work
    have second : step.localId = "review" := by simpa using work
    have draft : "draft" ∈ memoMethod.steps.map (·.localId) := by decide
    obtain ⟨source, known, first⟩ := List.mem_map.mp draft
    refine ⟨source, known, ?_, ?_⟩
    · rw [first, second]
      exact List.mem_singleton_self _
    · rw [rates_sources source known, first]
      rfl

/-- The review of a text about wages is bound to the review that read the rates. -/
theorem wages_review_bound_to_rates : ∃ plans, planMemo "wages" = .ok plans ∧
    slotFacts plans = [("draft", .newWork, "occ-55a96e582d7dc44401d5828519842767"),
      ("review", .shareActive, "r")] ∧
    ¬ SharesSoundly ratesNetwork officeTypes (compoundTask "memo") memoMethod
      [("topic", .str "wages")] plans := by
  have facts : (planMemo "wages").toOption.map slotFacts =
      some [("draft", .newWork, "occ-55a96e582d7dc44401d5828519842767"),
        ("review", .shareActive, "r")] := by
    unfold planMemo officeHash
    rw [tabulated_eq_read]
    decide +kernel
  obtain ⟨plans, planned, slots⟩ := toOption_map_eq_some.mp facts
  refine ⟨plans, planned, slots, ?_⟩
  intro sound
  have review : ("review", ReusePolicy.shareActive, "r") ∈ slotFacts plans := by
    rw [slots]
    decide
  obtain ⟨plan, inside, same⟩ := List.mem_map.mp review
  simp only [Prod.mk.injEq] at same
  obtain ⟨name, policy, bound⟩ := same
  obtain ⟨_, _, _, _, agrees⟩ := sound.agrees plan inside (by
    rw [policy]
    decide)
  have stored : Reads ratesNetwork plan.boundOccurrenceId "d" "text" "text" :=
    reads_rates.mpr ⟨bound, rfl, rfl, rfl⟩
  obtain ⟨source, here, flows, from_d⟩ := (agrees.reads _ _ _).mpr stored
  rw [memo_flows, List.mem_singleton] at flows
  have listed : (source.step.localId, source.reusePolicy, source.boundOccurrenceId) ∈
      slotFacts plans := List.mem_map_of_mem here
  rw [slots, from_d, (Prod.mk.inj flows).1] at listed
  simp at listed

end Planning
