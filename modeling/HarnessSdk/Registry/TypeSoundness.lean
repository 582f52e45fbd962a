import HarnessSdk.Registry.Applicability
import HarnessSdk.Registry.Versions

/-! When the conditions of an admitted method evaluate without a type error for every well-typed
task. -/
namespace Registry
open PyDict PyText Checks Workflow Contracts

/-- The parameter record conforms to the method's parameter schema. -/
def Conforms (method : MethodContract) (policy : AdmissionPolicy) (parameters : Dict String Json) :
    Prop :=
  ∃ schema, policy.schema method.parameterSchemaRef = some schema ∧
    (schema.check parameters).ok = true

/-- A constant, or a parameter that every conforming record holds. -/
def AlwaysThere (fields : List TypedField) : ValueExpr → Prop
  | .constant _ => True
  | .parameter name => ∃ item ∈ fields, item.name = name ∧ item.required = true
  | _ => False

/-- Every atom of the method's conditions is given what its predicate requires, by constants and by
required parameters only. -/
def WellArgued (method : MethodContract) (policy : AdmissionPolicy) : Prop :=
  ∀ atom ∈ atomsOf method.applicableWhen, ∀ signature schema,
    policy.predicate atom.1 = some signature →
    policy.schema method.parameterSchemaRef = some schema →
    (∀ item ∈ signature.parameters, item.required = true → item.name.text ∈ keys atom.2) ∧
      ∀ argument ∈ atom.2, AlwaysThere schema.fields argument.2

def NeverIllTyped (contentHashOf : Json → HashHex) (method : MethodContract)
    (policy : AdmissionPolicy) (parameters : Dict String Json) : Prop :=
  ∀ snapshot nowMs,
    (∀ condition ∈ method.applicableWhen, ∀ path,
      (World.evaluate ⟨contentHashOf, policy.predicates, snapshot, parameters, nowMs⟩ condition
        path).typeErrors = []) ∧
    ∀ capabilities, (assessMethod ⟨contentHashOf, policy.predicates, snapshot, parameters, nowMs⟩
      method capabilities).status ≠ .typeError

variable {atom : VersionedRef × Dict String ValueExpr} {contentHashOf : Json → HashHex}
  {method : MethodContract} {policy : AdmissionPolicy} {parameters : Dict String Json}
  (type : ArgumentType)

theorem mem_atomsOf {conditions : List Condition} :
    atom ∈ atomsOf conditions ↔ ∃ condition ∈ conditions, atom ∈ condition.atoms := by
  induction conditions with
  | nil => simp [atomsOf]
  | cons condition rest ih => rw [atomsOf, List.mem_append, ih, List.exists_mem_cons_iff]

theorem neverIllTyped_iff :
    NeverIllTyped contentHashOf method policy parameters ↔ ∀ snapshot nowMs,
      ∀ atom ∈ atomsOf method.applicableWhen,
        AtomTyped ⟨contentHashOf, policy.predicates, snapshot, parameters, nowMs⟩ atom := by
  constructor
  · intro typed snapshot nowMs
    exact (assess_typed _ method []).mp ((typed snapshot nowMs).2 [])
  · intro atoms snapshot nowMs
    constructor
    · intro condition inside path
      rw [evaluate_typed]
      intro atom there
      exact atoms snapshot nowMs atom (mem_atomsOf.mpr ⟨condition, inside, there⟩)
    · intro capabilities
      exact (assess_typed _ method capabilities).mpr (atoms snapshot nowMs)

def sampleOf : ArgumentType → Json
  | .string => .str ""
  | .integer => .int 0
  | .number => .int 0
  | .boolean => .bool false
  | .ref => .str "r"

theorem sampleOf_matches : valueMatches type (sampleOf type) = true := by
  cases type <;> decide

def smallestRecord (fields : List TypedField) : Dict String Json :=
  (fields.filter (·.required)).map fun item => (item.name.text, sampleOf item.type)

variable {fields : List TypedField}

theorem smallestRecord_ok (distinct : (fields.map (·.name)).Nodup) :
    (checkFields fields (smallestRecord fields)).ok = true := by
  rw [checkFields_ok]
  constructor
  · intro item inside needed
    simp only [keys, smallestRecord, List.map_map, List.mem_map, List.mem_filter]
    exact ⟨item, ⟨inside, needed⟩, rfl⟩
  · intro entry inside
    obtain ⟨item, there, rfl⟩ := List.mem_map.mp inside
    exact ⟨item, named_of_mem distinct (List.mem_filter.mp there).1, sampleOf_matches item.type⟩

theorem required_of_smallest {name : Identifier}
    (bound : (get? (smallestRecord fields) name.text).isSome) :
    ∃ item ∈ fields, item.name = name ∧ item.required = true := by
  rw [get?_isSome_iff] at bound
  simp only [keys, smallestRecord, List.map_map, List.mem_map, List.mem_filter] at bound
  obtain ⟨item, ⟨inside, needed⟩, same⟩ := bound
  exact ⟨item, inside, Identifier.ext_text same, needed⟩

theorem not_matches_obj (fields : List (String × Json)) :
    valueMatches type (.obj fields) = false := by
  cases type <;> rfl

theorem not_matches_arr (items : List Json) : valueMatches type (.arr items) = false := by
  cases type <;> rfl

theorem keys_grounded (world : World) (arguments : Dict String ValueExpr) :
    keys (world.grounded arguments) = keys arguments := by
  simp [keys, World.grounded, Function.comp_def]

/-- An atom that is typed for the smallest record takes constants and required parameters only. -/
theorem wellArgued_of_smallest {world : World} {signature : PredicateSignature}
    (record : world.parameters = smallestRecord fields)
    (resolved : world.registry.resolve PredicateSignature.predicateRef atom.1 = some signature)
    (typed : AtomTyped world atom) :
    (∀ item ∈ signature.parameters, item.required = true → item.name.text ∈ keys atom.2) ∧
      ∀ argument ∈ atom.2, AlwaysThere fields argument.2 := by
  obtain ⟨other, found, grounds, ok⟩ := typed
  rw [resolved, Option.some.injEq] at found
  subst found
  obtain ⟨required, fits⟩ := (checkFields_ok _ _).mp ok
  rw [keys_grounded] at required
  refine ⟨required, ?_⟩
  intro argument inside
  have grounded := grounds argument inside
  obtain ⟨item, _, right⟩ := fits _ (List.mem_map_of_mem inside)
  cases expression : argument.2 with
  | constant value => trivial
  | parameter name =>
    rw [expression, Grounds, record] at grounded
    exact required_of_smallest grounded
  | output step port => simp [expression, Grounds] at grounded
  | object inner => simp [expression, groundValue, not_matches_obj] at right
  | array items => simp [expression, groundValue, not_matches_arr] at right

theorem argument_fits {ref : VersionedRef} {signature : PredicateSignature} {name : String}
    {argument : ValueExpr} {schema : ObjectSchema}
    (clean : argumentProblems method policy ref signature name argument = [])
    (found : policy.schema method.parameterSchemaRef = some schema)
    (there : AlwaysThere schema.fields argument) (conforms : (schema.check parameters).ok = true) :
    Grounds parameters argument ∧ ∃ item, fieldNamed signature.parameters name = some item ∧
      valueMatches item.type (groundValue parameters argument) = true := by
  unfold argumentProblems at clean
  split at clean
  · cases clean
  · next parameter declared =>
    cases argument with
    | constant value =>
      rw [refusing_eq_nil, Bool.not_eq_false] at clean
      exact ⟨trivial, parameter, declared, clean⟩
    | parameter read =>
      obtain ⟨item, inside, rfl, needed⟩ := there
      obtain ⟨required, typed⟩ := (checkFields_ok _ _).mp conforms
      have bound := required item inside needed
      rw [← get?_isSome_iff] at bound
      obtain ⟨value, got⟩ := Option.isSome_iff_exists.mp bound
      have named := named_of_mem schema.distinct inside
      obtain ⟨same, here, right⟩ := typed _ (mem_of_get?_eq_some got)
      rw [named, Option.some.injEq] at here
      subst here
      refine ⟨bound, parameter, declared, ?_⟩
      dsimp only at clean
      rw [found, Option.map_some, Option.getD_some, named] at clean
      split at clean
      · cases clean
      · rw [refusing_eq_nil, not_not] at clean
        rw [groundValue, got, Option.getD_some, ← clean]
        exact right
    | output step port => exact absurd there id
    | object inner => exact absurd there id
    | array items => exact absurd there id

section
variable {method : MethodContract} {policy : AdmissionPolicy} (passes : Passes method policy)
include passes

variable {atom : VersionedRef × Dict String ValueExpr}

theorem atom_of_passes (inside : atom ∈ atomsOf method.applicableWhen) :
    ∃ signature, policy.predicate atom.1 = some signature ∧ ∀ argument ∈ atom.2,
      argumentProblems method policy atom.1 signature argument.1 argument.2 = [] := by
  obtain ⟨_, two, _⟩ := passes
  have there : atom ∈ atomsOf (allConditions method) := by
    obtain ⟨condition, listed, named⟩ := mem_atomsOf.mp inside
    exact mem_atomsOf.mpr ⟨condition, by simp [allConditions, listed], named⟩
  simp only [checkRegistries, List.append_eq_nil_iff, List.flatMap_eq_nil_iff] at two
  have clean := two.1.1 atom there
  unfold atomProblems at clean
  split at clean
  · cases clean
  · next signature resolved =>
    exact ⟨signature, resolved, List.flatMap_eq_nil_iff.mp clean⟩

theorem atom_typed {contentHashOf : Json → HashHex} {snapshot : EvidenceSnapshot}
    {nowMs : Option Nat} {parameters : Dict String Json} {schema : ObjectSchema}
    (argued : WellArgued method policy)
    (found : policy.schema method.parameterSchemaRef = some schema)
    (conforms : (schema.check parameters).ok = true)
    (inside : atom ∈ atomsOf method.applicableWhen) :
    AtomTyped ⟨contentHashOf, policy.predicates, snapshot, parameters, nowMs⟩ atom := by
  obtain ⟨signature, resolved, clean⟩ := atom_of_passes passes inside
  obtain ⟨required, there⟩ := argued atom inside signature schema resolved found
  have fits := fun argument (listed : argument ∈ atom.2) =>
    argument_fits (clean argument listed) found (there argument listed) conforms
  refine ⟨signature, resolved, fun argument listed => (fits argument listed).1, ?_⟩
  rw [checkArguments, checkFields_ok, keys_grounded]
  refine ⟨required, ?_⟩
  intro entry listed
  obtain ⟨argument, here, rfl⟩ := List.mem_map.mp listed
  exact (fits argument here).2

theorem typed_iff_wellArgued (contentHashOf : Json → HashHex) :
    (∀ parameters, Conforms method policy parameters →
      NeverIllTyped contentHashOf method policy parameters) ↔ WellArgued method policy := by
  constructor
  · intro typed atom inside signature schema resolved found
    have smallest := typed (smallestRecord schema.fields)
      ⟨schema, found, smallestRecord_ok schema.distinct⟩
    have atomic := neverIllTyped_iff.mp smallest [] none atom inside
    refine wellArgued_of_smallest ?_ ?_ atomic
    · rfl
    · exact resolved
  · rintro argued parameters ⟨schema, found, conforms⟩
    rw [neverIllTyped_iff]
    intro snapshot nowMs atom inside
    exact atom_typed passes argued found conforms inside

end

theorem passes_of_admitted {printable : Char → Bool} {registry next : MethodRegistry}
    {proposal : MethodProposal} {author : RegistryAuthor} {receipt : AdmissionReceipt}
    (admitted : registry.admitMethod contentHashOf printable proposal author policy = .ok
      (receipt, next)) (accepted : receipt.verdict = .trialAdmitted) :
    Passes proposal.method policy := by
  rcases admit_cases contentHashOf printable registry proposal author policy with
    ⟨decided, _⟩ | ⟨refusal, _, ok | ⟨raised, ok⟩⟩
  · exact ((refusalOf_eq_none contentHashOf).mp decided).1.passes
  · rw [ok] at admitted
    obtain ⟨rfl, _⟩ := Prod.mk.inj (Except.ok.inj admitted)
    cases accepted
  · rw [ok] at admitted
    cases admitted

/-- The conditions of an admitted method evaluate without a type error for every conforming
parameter record exactly when its atoms are given every required argument, as constants and
required parameters. -/
theorem admitted_typed_iff {contentHashOf : Json → HashHex} {printable : Char → Bool}
    {registry next : MethodRegistry} {proposal : MethodProposal} {author : RegistryAuthor}
    {policy : AdmissionPolicy} {receipt : AdmissionReceipt}
    (admitted : registry.admitMethod contentHashOf printable proposal author policy = .ok (receipt, next))
    (accepted : receipt.verdict = .trialAdmitted) :
    (∀ parameters, Conforms proposal.method policy parameters →
      NeverIllTyped contentHashOf proposal.method policy parameters) ↔
      WellArgued proposal.method policy :=
  typed_iff_wellArgued (passes_of_admitted admitted accepted) contentHashOf

def cleanRef : VersionedRef := refTo ⟨"repo.clean", by decide⟩

def cleanTree : PredicateSignature where
  predicateRef := cleanRef
  parameters := [⟨⟨"path", by decide⟩, .string, true⟩]

def rootField : TypedField := ⟨⟨"root", by decide⟩, .string, true⟩

def noFields : ObjectSchema := emptySchema (fixBy edit).parameterSchemaRef.id

def rootSchema : ObjectSchema where
  schemaRef := (fixBy edit).parameterSchemaRef
  fields := [rootField]

def guardPolicy (schema : ObjectSchema) : AdmissionPolicy := {
  fixPolicy missionOne with
  predicates := [((⟨"repo.clean", by decide⟩, first), cleanTree)]
  schemas := set (fixPolicy missionOne).schemas (schema.schemaRef.id, first) schema }

def guardedFix (guard : Condition) : MethodContract := {
  fixBy edit with
  applicableWhen := [guard]
  stepsDistinct := by decide
  orderingKnown := by simp [fixBy]
  finalizerKnown := by simp [fixBy] }

def bareGuard : Condition := .predicate cleanRef []

def rootGuard : Condition :=
  .not (.any [.predicate cleanRef [("path", .parameter rootField.name)], .constant false])

/-- A guard that gives no path, and one that gives the task's root. -/
def guardCases : List (Condition × ObjectSchema) :=
  [(bareGuard, noFields), (rootGuard, rootSchema)]

section
variable {case : Condition × ObjectSchema} (inside : case ∈ guardCases)
include inside

theorem guardedFix_passes : Passes (guardedFix case.1) (guardPolicy case.2) := by
  have plain : ∀ case ∈ guardCases, cleanRead (guardedFix case.1).toJson = true := by
    decide +kernel
  rw [Passes, checkStructureAndTypes, accepted_of_read (plain case inside)]
  revert case
  decide +kernel

theorem guardedFix_admissible :
    Admissible ⟨guardedFix case.1, .human, .draft⟩ .human (guardPolicy case.2) :=
  ⟨by simp, rfl, guardedFix_passes inside⟩

end

theorem accept_verdict (contentHashOf : Json → HashHex) (printable : Char → Bool)
    (registry : MethodRegistry) (method : MethodContract) (author : RegistryAuthor)
    (policy : AdmissionPolicy) :
    (registry.accept contentHashOf printable method author policy).1.verdict = .trialAdmitted := rfl

theorem guardedFix_admitted {case : Condition × ObjectSchema} (inside : case ∈ guardCases) :
    ∃ receipt next,
      MethodRegistry.admitMethod fixHashes (fun _ => true) {} ⟨guardedFix case.1, .human, .draft⟩
        .human (guardPolicy case.2) = .ok (receipt, next) ∧ receipt.verdict = .trialAdmitted := by
  rcases admit_cases fixHashes (fun _ => true) {} ⟨guardedFix case.1, .human, .draft⟩ .human
    (guardPolicy case.2) with ⟨_, ok⟩ | ⟨refusal, decided, _⟩
  · rw [← Prod.mk.eta (p := MethodRegistry.accept _ _ _ _ _ _)] at ok
    exact ⟨_, _, ok, accept_verdict _ _ _ _ _ _⟩
  · rw [(refusalOf_eq_none fixHashes).mpr ⟨guardedFix_admissible inside, by simp [ClashFree]⟩]
      at decided
    cases decided

theorem guard_inside : (cleanRef, []) ∈ atomsOf (guardedFix bareGuard).applicableWhen :=
  List.mem_cons_self

/-- An admitted method whose condition lacks a required argument is a type error for the empty
record, which conforms. -/
theorem admitted_ill_typed : ∃ receipt next,
    MethodRegistry.admitMethod fixHashes (fun _ => true) {} ⟨guardedFix bareGuard, .human, .draft⟩
      .human (guardPolicy noFields) = .ok (receipt, next) ∧ receipt.verdict = .trialAdmitted ∧
    Conforms (guardedFix bareGuard) (guardPolicy noFields) [] ∧
    ¬ NeverIllTyped fixHashes (guardedFix bareGuard) (guardPolicy noFields) [] := by
  obtain ⟨receipt, next, admitted, accepted⟩ := guardedFix_admitted (List.mem_cons_self ..)
  refine ⟨receipt, next, admitted, accepted, ⟨noFields, rfl, by decide⟩, ?_⟩
  intro typed
  have atomic := neverIllTyped_iff.mp typed [] none _ guard_inside
  obtain ⟨signature, resolved, _, ok⟩ := atomic
  cases resolved
  exact absurd ok (by decide)

theorem rootGuard_wellArgued : WellArgued (guardedFix rootGuard) (guardPolicy rootSchema) := by
  intro atom inside signature schema resolved found
  obtain rfl : (cleanRef, [("path", .parameter rootField.name)]) = atom := by
    simpa [guardedFix, rootGuard, atomsOf, Condition.atoms, eq_comm] using inside
  obtain rfl : cleanTree = signature := Option.some.inj resolved
  obtain rfl : rootSchema = schema := Option.some.inj found
  refine ⟨by decide, ?_⟩
  intro argument given
  rw [List.mem_singleton.mp given]
  exact ⟨rootField, List.mem_singleton_self _, rfl, rfl⟩

/-- Given the required root of the record, the guard is no type error. -/
theorem admitted_typed_at_root :
    Conforms (guardedFix rootGuard) (guardPolicy rootSchema) [("root", .str "/src")] ∧
      NeverIllTyped fixHashes (guardedFix rootGuard) (guardPolicy rootSchema)
        [("root", .str "/src")] := by
  have inside : (rootGuard, rootSchema) ∈ guardCases := by simp [guardCases]
  obtain ⟨receipt, next, admitted, accepted⟩ := guardedFix_admitted inside
  have conforms : Conforms (guardedFix rootGuard) (guardPolicy rootSchema)
      [("root", .str "/src")] := ⟨rootSchema, rfl, by decide⟩
  exact ⟨conforms,
    (admitted_typed_iff admitted accepted).mpr rootGuard_wellArgued _ conforms⟩

end Registry
