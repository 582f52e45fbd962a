import HarnessSdk.Registry.Definitions

/-! The declared schemas, predicates, task types and capabilities an admission is decided against. -/
namespace Registry
open PyDict PyText Checks Workflow Contracts
open Network (TaskForm ReusePolicy SideEffectKind PortSpec)

inductive ArgumentType
  | string
  | integer
  | number
  | boolean
  | ref
deriving DecidableEq

def ArgumentType.text : ArgumentType → String
  | .string => "string"
  | .integer => "integer"
  | .number => "number"
  | .boolean => "boolean"
  | .ref => "ref"

/-- `value_matches`, and the same table again in the predicate registry. -/
def valueMatches : ArgumentType → Json → Bool
  | .string, .str _ => true
  | .integer, .int _ => true
  | .number, .int _ => true
  | .number, .float _ => true
  | .boolean, .bool _ => true
  | .ref, .str s => strip s ≠ ""
  | _, _ => false

/-- One declared field: of a schema, or of a predicate's parameters. -/
structure TypedField where
  name : Identifier
  type : ArgumentType
  required : Bool := true
deriving DecidableEq

structure ArgumentCheck where
  missing : List String := []
  unknown : List String := []
  wrongType : List String := []
deriving DecidableEq

def ArgumentCheck.ok (check : ArgumentCheck) : Bool :=
  check.missing.isEmpty && check.unknown.isEmpty && check.wrongType.isEmpty

def ArgumentCheck.messages (check : ArgumentCheck) : List Message :=
  check.missing.map (fun name => [.text "missing argument ", .repr name]) ++
    check.unknown.map (fun name => [.text "unknown argument ", .repr name]) ++
    check.wrongType.map fun name => [.text "argument ", .repr name, .text " has the wrong type"]

def fieldNamed (declared : List TypedField) (name : String) : Option TypedField :=
  declared.find? (·.name.text = name)

/-- `ObjectSchema.check`, and the same check again in `check_arguments`. -/
def checkFields (declared : List TypedField) (values : Dict String Json) : ArgumentCheck where
  missing := sorted ((declared.filter fun item =>
    item.required && !(item.name.text ∈ keys values)).map (·.name.text))
  unknown := sorted ((keys values).filter fun name => (fieldNamed declared name).isNone)
  wrongType := sorted ((values.filter fun entry =>
    (fieldNamed declared entry.1).any fun item => !valueMatches item.type entry.2).map Prod.fst)

/-- The declared shape behind one reference: a flat record of typed fields. -/
structure ObjectSchema where
  schemaRef : VersionedRef
  fields : List TypedField := []
  distinct : (fields.map (·.name)).Nodup := by decide

def ObjectSchema.check (schema : ObjectSchema) (values : Dict String Json) : ArgumentCheck :=
  checkFields schema.fields values

inductive WorldAssumption
  | opened
  | closed
deriving DecidableEq

/-- A declared predicate: what it takes, who can observe it, how its absence is read. -/
structure PredicateSignature where
  predicateRef : VersionedRef
  parameters : List TypedField := []
  worldAssumption : WorldAssumption := .opened
  observerIds : List Identifier := []
  distinct : (parameters.map (·.name)).Nodup := by decide
  observed : worldAssumption = .closed → observerIds ≠ [] := by decide

def checkArguments (signature : PredicateSignature) (arguments : Dict String Json) :
    ArgumentCheck :=
  checkFields signature.parameters arguments

abbrev Catalog (α : Type) := Dict (Identifier × Counter 1) α

def Catalog.resolve {α : Type} (pinned : α → VersionedRef) (catalog : Catalog α)
    (ref : VersionedRef) : Option α :=
  (get? catalog (ref.id, ref.version)).filter fun found =>
    (pinned found).contentHash = ref.contentHash

structure GoalSignature where
  statement : BoundedText
  coverageCriteria : Identifiers := {}

/-- One declared task type: what it is, what it takes, what it does. -/
structure TaskTypeSpec where
  taskTypeRef : VersionedRef
  form : TaskForm
  goalSignature : GoalSignature
  inputPorts : List PortSpec := []
  outputPorts : List PortSpec := []
  operatorRef : Option VersionedRef := none
  requiredCapabilities : Identifiers := {}
  sideEffectKind : SideEffectKind := .none
  effectIdentity : Option Identifier := none
  operated : form = .primitive ↔ operatorRef.isSome := by decide

def TaskTypeSpec.readOnly (spec : TaskTypeSpec) : Bool := Planning.readOnly spec.sideEffectKind

def TaskTypeSpec.outputPort (spec : TaskTypeSpec) (key : String) : Option PortSpec :=
  spec.outputPorts.find? (·.portKey = key)

def TaskTypeSpec.inputPort (spec : TaskTypeSpec) (key : String) : Option PortSpec :=
  spec.inputPorts.find? (·.portKey = key)

structure CapabilityRecord where
  capabilityId : Identifier
  registered : Bool := true
  configured : Bool := true
  reachable : Bool := true
  healthy : Bool := true
  authorized : Bool := true
  compatible : Bool := true

def CapabilityRecord.available (record : CapabilityRecord) : Bool :=
  record.registered && record.configured && record.reachable && record.healthy &&
    record.authorized && record.compatible

abbrev CapabilitySnapshot := List CapabilityRecord

namespace CapabilitySnapshot

def lookup (snapshot : CapabilitySnapshot) (id : Identifier) : Option CapabilityRecord :=
  snapshot.find? (·.capabilityId = id)

def missingFrom (snapshot : CapabilitySnapshot) (required : List Identifier) : List Identifier :=
  required.filter fun id => !(snapshot.lookup id).any CapabilityRecord.available

end CapabilitySnapshot

/-- The versioned deployment facts one admission is decided against. -/
structure AdmissionPolicy where
  policyRef : Identifier
  policyVersion : Counter 1
  missionId : Identifier
  predicates : Catalog PredicateSignature := []
  taskTypes : Catalog TaskTypeSpec := []
  schemas : Catalog ObjectSchema := []
  capabilities : CapabilitySnapshot := []
  maxSteps : Counter 1 := ⟨64, by decide, by decide⟩
  maxPortsPerStep : Counter 1 := ⟨32, by decide, by decide⟩

namespace AdmissionPolicy
variable (policy : AdmissionPolicy)

def predicate (ref : VersionedRef) : Option PredicateSignature :=
  policy.predicates.resolve PredicateSignature.predicateRef ref

def taskType (ref : VersionedRef) : Option TaskTypeSpec :=
  policy.taskTypes.resolve TaskTypeSpec.taskTypeRef ref

def schema (ref : VersionedRef) : Option ObjectSchema :=
  policy.schemas.resolve ObjectSchema.schemaRef ref

end AdmissionPolicy

variable {declared : List TypedField} {item : TypedField}

theorem mem_fields_of_named {name : String} (found : fieldNamed declared name = some item) :
    item ∈ declared ∧ item.name.text = name := by
  constructor
  · exact List.mem_of_find?_eq_some found
  · simpa using List.find?_some found

theorem Identifier.ext_text {a b : Identifier} (same : a.text = b.text) : a = b := by
  cases a
  cases b
  cases same
  rfl

theorem named_of_mem (distinct : (declared.map (·.name)).Nodup) (inside : item ∈ declared) :
    fieldNamed declared item.name.text = some item := by
  cases found : fieldNamed declared item.name.text with
  | none =>
    have absent := List.find?_eq_none.mp found item inside
    simp at absent
  | some other =>
    obtain ⟨there, named⟩ := mem_fields_of_named found
    rw [List.inj_on_of_nodup_map distinct there inside (Identifier.ext_text named)]

theorem sorted_isEmpty (items : List String) : (sorted items).isEmpty = items.isEmpty := by
  cases items with
  | nil => rfl
  | cons item rest =>
    have there : item ∈ sorted (item :: rest) := (mem_sorted _ _).mpr List.mem_cons_self
    cases h : sorted (item :: rest) with
    | nil =>
      rw [h] at there
      cases there
    | cons _ _ => rfl

theorem checkFields_ok (declared : List TypedField) (values : Dict String Json) :
    (checkFields declared values).ok = true ↔
      (∀ item ∈ declared, item.required = true → item.name.text ∈ keys values) ∧
      ∀ entry ∈ values, ∃ item, fieldNamed declared entry.1 = some item ∧
        valueMatches item.type entry.2 = true := by
  simp only [ArgumentCheck.ok, checkFields, sorted_isEmpty, Bool.and_eq_true, List.isEmpty_iff,
    List.map_eq_nil_iff, List.filter_eq_nil_iff, Bool.not_eq_true', decide_eq_false_iff_not,
    not_and, not_not, Option.any_eq_true, not_exists, Bool.not_eq_false]
  constructor
  · rintro ⟨⟨missing, unknown⟩, wrong⟩
    refine ⟨fun item inside needed => missing item inside needed, ?_⟩
    intro entry inside
    cases found : fieldNamed declared entry.1 with
    | none =>
      have refused := unknown entry.1 (List.mem_map_of_mem inside)
      simp [found] at refused
    | some item => exact ⟨item, rfl, wrong entry inside item found⟩
  · rintro ⟨missing, fits⟩
    refine ⟨⟨fun item inside needed => missing item inside needed, ?_⟩, ?_⟩
    · intro name inside
      obtain ⟨entry, there, rfl⟩ := List.mem_map.mp inside
      obtain ⟨item, found, _⟩ := fits entry there
      simp [found]
    · intro entry inside item found
      obtain ⟨other, found', right⟩ := fits entry inside
      rw [found] at found'
      cases found'
      exact right

end Registry
