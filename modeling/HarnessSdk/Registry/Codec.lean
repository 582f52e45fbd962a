import HarnessSdk.Registry.Parsing
import HarnessSdk.Registry.TypeSoundness

/-! What a stored method definition is read back as. -/
namespace Registry
open PyDict PyText Checks Workflow Contracts

mutual
def ValueExpr.size : ValueExpr → Nat
  | .object fields => fieldsSize fields + 1
  | .array items => itemsSize items + 1
  | _ => 1

def fieldsSize : List (String × ValueExpr) → Nat
  | [] => 0
  | field :: rest => field.2.size + fieldsSize rest

def itemsSize : List ValueExpr → Nat
  | [] => 0
  | item :: rest => item.size + itemsSize rest
end

mutual
/-- Keys are identifiers and lists are short, all the way down. -/
def ValueExpr.Fits : ValueExpr → Prop
  | .object fields => FieldsFit fields
  | .array items => items.length ≤ maxList ∧ ItemsFit items
  | _ => True

def FieldsFit : List (String × ValueExpr) → Prop
  | [] => True
  | field :: rest => (identifierOk field.1 = true ∧ field.2.Fits) ∧ FieldsFit rest

def ItemsFit : List ValueExpr → Prop
  | [] => True
  | item :: rest => item.Fits ∧ ItemsFit rest
end

mutual
def Condition.size : Condition → Nat
  | .predicate _ arguments => fieldsSize arguments + 1
  | .all items => conditionsSize items + 1
  | .any items => conditionsSize items + 1
  | .not item => item.size + 1
  | .constant _ => 1

def conditionsSize : List Condition → Nat
  | [] => 0
  | item :: rest => item.size + conditionsSize rest
end

mutual
def Condition.Fits : Condition → Prop
  | .predicate _ arguments => FieldsFit arguments
  | .all items => items.length ≤ maxList ∧ ConditionsFit items
  | .any items => items.length ≤ maxList ∧ ConditionsFit items
  | .not item => item.Fits
  | .constant _ => True

def ConditionsFit : List Condition → Prop
  | [] => True
  | item :: rest => item.Fits ∧ ConditionsFit rest
end

mutual
def Condition.inKeyOrder : Condition → Condition
  | .predicate ref arguments => .predicate ref (sortedBy Prod.fst arguments)
  | .all items => .all (inKeyOrders items)
  | .any items => .any (inKeyOrders items)
  | .not item => .not item.inKeyOrder
  | .constant value => .constant value

def inKeyOrders : List Condition → List Condition
  | [] => []
  | item :: rest => item.inKeyOrder :: inKeyOrders rest
end

def MethodStep.inKeyOrder (step : MethodStep) : MethodStep :=
  { step with arguments := sortedBy Prod.fst step.arguments }

/-- The same contract with its conditions and arguments in key order, which equality of mappings
does not see. -/
def MethodContract.inKeyOrder (method : MethodContract) : MethodContract := {
  method with
  applicableWhen := inKeyOrders method.applicableWhen
  explorationAssumptions := inKeyOrders method.explorationAssumptions
  expectedEffects := inKeyOrders method.expectedEffects
  steps := method.steps.map MethodStep.inKeyOrder
  composition := {
    method.composition with
    outputs := sortedBy Prod.fst method.composition.outputs }
  stepsDistinct := by
    simpa [Function.comp_def, MethodStep.inKeyOrder] using method.stepsDistinct
  orderingKnown := by
    simpa [Function.comp_def, MethodStep.inKeyOrder] using method.orderingKnown
  finalizerKnown := by
    simpa [Function.comp_def, MethodStep.inKeyOrder] using method.finalizerKnown }

def MethodContract.nodeCount (method : MethodContract) : Nat :=
  conditionsSize method.applicableWhen + conditionsSize method.explorationAssumptions +
    (method.steps.map fun step => fieldsSize step.arguments).sum +
    conditionsSize method.expectedEffects + fieldsSize method.composition.outputs

/-- Within the limits of the decoder: at most 512 nodes, lists of at most 256 entries, and
identifiers for keys. -/
structure MethodContract.Storable (method : MethodContract) : Prop where
  nodes : method.nodeCount ≤ maxConditionNodes
  conditions : ∀ conditions ∈
    [method.applicableWhen, method.explorationAssumptions, method.expectedEffects],
    conditions.length ≤ maxList ∧ ConditionsFit conditions
  steps : method.steps.length ≤ maxList
  arguments : ∀ step ∈ method.steps, FieldsFit step.arguments
  ordering : method.ordering.length ≤ maxList
  links : method.composition.criterionLinks.length ≤ maxList
  outputs : FieldsFit method.composition.outputs
  basis : method.basisRefs.length ≤ maxList

/-- What is written is read back as the same contract, of the same reference, which writes the
same again. -/
def SurvivesStore (contentHashOf : Json → HashHex) (method : MethodContract) : Prop :=
  ∃ back, MethodContract.fromJson method.toJson "method_contract" = .ok back ∧
    back.inKeyOrder = method.inKeyOrder ∧ back.toJson = method.toJson ∧
    back.methodRef contentHashOf = method.methodRef contentHashOf

variable {composition : MethodComposition} {conditions : List Condition}
  (fields : List (String × ValueExpr))

theorem fieldsToJson_eq :
    fieldsToJson fields = fields.map fun field => (field.1, field.2.toJson) := by
  induction fields with
  | nil => rfl
  | cons field rest ih => rw [fieldsToJson, ih, List.map_cons]

theorem itemsToJson_eq (items : List ValueExpr) :
    itemsToJson items = items.map ValueExpr.toJson := by
  induction items with
  | nil => rfl
  | cons item rest ih => rw [itemsToJson, ih, List.map_cons]

variable (items : List Condition)

theorem conditionsToJson_eq : conditionsToJson items = items.map Condition.toJson := by
  induction items with
  | nil => rfl
  | cons item rest ih => rw [conditionsToJson, ih, List.map_cons]

theorem inKeyOrders_eq : inKeyOrders items = items.map Condition.inKeyOrder := by
  induction items with
  | nil => rfl
  | cons item rest ih => rw [inKeyOrders, ih, List.map_cons]

theorem fieldsSize_eq : fieldsSize fields = (fields.map fun field => field.2.size).sum := by
  induction fields with
  | nil => rfl
  | cons field rest ih => rw [fieldsSize, ih, List.map_cons, List.sum_cons]

theorem itemsSize_eq (items : List ValueExpr) :
    itemsSize items = (items.map ValueExpr.size).sum := by
  induction items with
  | nil => rfl
  | cons item rest ih => rw [itemsSize, ih, List.map_cons, List.sum_cons]

theorem conditionsSize_eq : conditionsSize items = (items.map Condition.size).sum := by
  induction items with
  | nil => rfl
  | cons item rest ih => rw [conditionsSize, ih, List.map_cons, List.sum_cons]

theorem fieldsFit_iff {fields : List (String × ValueExpr)} :
    FieldsFit fields ↔ ∀ field ∈ fields, identifierOk field.1 = true ∧ field.2.Fits := by
  induction fields with
  | nil => simp [FieldsFit]
  | cons field rest ih => rw [FieldsFit, ih, List.forall_mem_cons]

theorem itemsFit_iff {items : List ValueExpr} : ItemsFit items ↔ ∀ item ∈ items, item.Fits := by
  induction items with
  | nil => simp [ItemsFit]
  | cons item rest ih => rw [ItemsFit, ih, List.forall_mem_cons]

theorem conditionsFit_iff {items : List Condition} :
    ConditionsFit items ↔ ∀ item ∈ items, item.Fits := by
  induction items with
  | nil => simp [ConditionsFit]
  | cons item rest ih => rw [ConditionsFit, ih, List.forall_mem_cons]

@[simp] theorem fieldsSize_sorted : fieldsSize (sortedBy Prod.fst fields) = fieldsSize fields := by
  rw [fieldsSize_eq, fieldsSize_eq]
  exact ((perm_sortedBy Prod.fst fields).map _).sum_eq

@[simp] theorem fieldsFit_sorted {fields : List (String × ValueExpr)} :
    FieldsFit (sortedBy Prod.fst fields) ↔ FieldsFit fields := by
  simp only [fieldsFit_iff, mem_sortedBy]

@[simp] theorem argumentsToJson_sorted (arguments : Dict String ValueExpr) :
    argumentsToJson (sortedBy Prod.fst arguments) = argumentsToJson arguments := by
  rw [argumentsToJson, sortedBy_idem, argumentsToJson]

@[simp] theorem length_inKeyOrders : (inKeyOrders items).length = items.length := by
  rw [inKeyOrders_eq, List.length_map]

mutual
theorem Condition.inKeyOrder_same (condition : Condition) :
    condition.inKeyOrder.size = condition.size ∧
    (condition.inKeyOrder.Fits ↔ condition.Fits) ∧
    condition.inKeyOrder.toJson = condition.toJson ∧
    condition.inKeyOrder.inKeyOrder = condition.inKeyOrder := by
  cases condition with
  | predicate ref arguments =>
    simp [Condition.inKeyOrder, Condition.size, Condition.Fits, Condition.toJson, sortedBy_idem]
  | all items | any items =>
    simp [Condition.inKeyOrder, Condition.size, Condition.Fits, Condition.toJson,
      inKeyOrders_same items]
  | not item =>
    simp [Condition.inKeyOrder, Condition.size, Condition.Fits, Condition.toJson,
      Condition.inKeyOrder_same item]
  | constant value => exact ⟨rfl, Iff.rfl, rfl, rfl⟩
termination_by structural condition

theorem inKeyOrders_same (items : List Condition) :
    conditionsSize (inKeyOrders items) = conditionsSize items ∧
    (ConditionsFit (inKeyOrders items) ↔ ConditionsFit items) ∧
    conditionsToJson (inKeyOrders items) = conditionsToJson items ∧
    inKeyOrders (inKeyOrders items) = inKeyOrders items := by
  cases items with
  | nil => exact ⟨rfl, Iff.rfl, rfl, rfl⟩
  | cons item rest =>
    simp [inKeyOrders, conditionsSize, ConditionsFit, conditionsToJson,
      Condition.inKeyOrder_same item, inKeyOrders_same rest]
termination_by structural items
end

theorem ValueExpr.size_pos (value : ValueExpr) : 0 < value.size := by
  cases value <;> simp [ValueExpr.size]

theorem Condition.size_pos (condition : Condition) : 0 < condition.size := by
  cases condition <;> simp [Condition.size]

theorem spend_succ (name : String) (size budget : Nat) :
    spend name (size + 1 + budget) = .ok (size + budget) := by
  rw [Nat.add_right_comm]
  rfl

variable {value : Json} {rest : Nat}

theorem constantValue_eq_ok {plain : Constant} :
    constantValue value = .ok plain ↔ value = plain.value := by
  constructor
  · intro ok
    simp only [constantValue] at ok
    split at ok
    · cases ok
    · split at ok <;> cases ok
      rfl
  · rintro rfl
    simp only [constantValue]
    split
    case h_1 error refused =>
      rw [plain.clean] at refused
      cases refused
    case h_2 =>
      split
      case h_1 error deep =>
        rw [(jsonValue_eq_ok 32 plain.value _).mpr plain.nested] at deep
        cases deep
      case h_2 => rfl

theorem constantValue_value (plain : Constant) : constantValue plain.value = .ok plain :=
  constantValue_eq_ok.mpr rfl

theorem le_sum_sizes {α : Type} (size : α → Nat) {items : List α} {a : α} (inside : a ∈ items) :
    size a ≤ (items.map size).sum :=
  List.single_le_sum (by simp) _ (List.mem_map_of_mem inside)

section
variable {levels : Nat}

def ReadBack (levels : Nat) (value : ValueExpr) : Prop :=
  ∀ name budget, parseValue levels value.toJson name (value.size + budget) = .ok (value, budget)

variable {fields : List (String × ValueExpr)} {items : List ValueExpr}
  {arguments : Dict String ValueExpr}

theorem fields_read (fits : FieldsFit fields) (each : ∀ field ∈ fields, ReadBack levels field.2)
    (keyName name : String) (budget : Nat) :
    entriesWith (parseValue levels) keyName name (fieldsToJson fields)
      (fieldsSize fields + budget) = .ok (fields, budget) := by
  rw [fieldsToJson_eq, fieldsSize_eq]
  exact entriesWith_map (fun field inside => (fieldsFit_iff.mp fits field inside).1) each
    keyName name budget

theorem items_read (short : items.length ≤ maxList) (each : ∀ item ∈ items, ReadBack levels item)
    (name : String) (budget : Nat) :
    sequenceOf (.arr (itemsToJson items)) name (parseValue levels) 0 (itemsSize items + budget) =
      .ok (items, budget) := by
  rw [itemsToJson_eq, itemsSize_eq, ← List.map_id items]
  have read : sequenceOf (.arr (items.map ValueExpr.toJson)) name (parseValue levels) 0
      ((items.map ValueExpr.size).sum + budget) = .ok (items.map id, budget) :=
    sequenceOf_map each (Nat.zero_le _) short name budget
  simpa using read

theorem clean_fields (whole : cleanFields (fieldsToJson fields) = true) :
    ∀ field ∈ fields, clean field.2.toJson = true := by
  rw [fieldsToJson_eq, cleanFields_iff, List.forall_mem_map] at whole
  exact fun field inside => (whole field inside).2

theorem clean_items (whole : cleanItems (itemsToJson items) = true) :
    ∀ item ∈ items, clean item.toJson = true := by
  rw [itemsToJson_eq, cleanItems_iff, List.forall_mem_map] at whole
  exact whole

theorem readBack_of_fits {value : ValueExpr} (fits : value.Fits)
    (whole : clean value.toJson = true) (deep : value.size ≤ levels) : ReadBack levels value := by
  intro name budget
  induction levels generalizing value name budget with
  | zero => exact absurd value.size_pos (by omega)
  | succ levels ih =>
    have code := (rejectExecutable_eq_ok value.toJson name).mpr whole
    cases value with
    | parameter read | constant plain | output step port =>
      have paid := spend_succ name 0 budget
      simp only [ValueExpr.toJson, ValueExpr.size] at code ⊢
      rw [parseValue, ← Nat.zero_add 1, paid]
      simp [bind, Except.bind, code, field, get?, fieldsOf_obj, keys, constantValue_value]
    | object fields =>
      have paid := spend_succ name (fieldsSize fields) budget
      simp only [ValueExpr.toJson, ValueExpr.size, ValueExpr.Fits] at code whole fits deep ⊢
      simp only [clean, cleanFields, Bool.and_eq_true] at whole
      have inner := clean_fields whole.2.1.2
      have shallow : ∀ field ∈ fields, field.2.size ≤ levels := by
        intro field inside
        have part := le_sum_sizes (fun field : String × ValueExpr => field.2.size) inside
        rw [← fieldsSize_eq] at part
        omega
      have read := fields_read fits (fun field inside => ih (fieldsFit_iff.mp fits field inside).2
        (inner field inside) (shallow field inside)) (name ++ ".fields.key") name budget
      rw [parseValue, paid]
      simp [bind, Except.bind, code, field, get?, fieldsOf_obj, keys, read]
    | array items =>
      have paid := spend_succ name (itemsSize items) budget
      simp only [ValueExpr.toJson, ValueExpr.size, ValueExpr.Fits] at code whole fits deep ⊢
      simp only [clean, cleanFields, Bool.and_eq_true] at whole
      have inner := clean_items whole.2.1.2
      have shallow : ∀ item ∈ items, item.size ≤ levels := by
        intro item inside
        have part := le_sum_sizes ValueExpr.size inside
        rw [← itemsSize_eq] at part
        omega
      have read := items_read fits.1 (fun item inside => ih (itemsFit_iff.mp fits.2 item inside)
        (inner item inside) (shallow item inside)) (name ++ ".items") budget
      rw [parseValue, paid]
      simp [bind, Except.bind, code, field, get?, fieldsOf_obj, keys, read]

theorem parseArguments_toJson (fits : FieldsFit arguments)
    (inner : ∀ argument ∈ arguments, clean argument.2.toJson = true)
    (deep : fieldsSize arguments ≤ levels) (name : String) (budget : Nat) :
    parseArguments levels (argumentsToJson arguments) name (fieldsSize arguments + budget) =
      .ok (sortedBy Prod.fst arguments, budget) := by
  rw [← fieldsSize_sorted] at deep ⊢
  apply fields_read (fieldsFit_sorted.mpr fits)
  intro field inside
  have part := le_sum_sizes (fun field : String × ValueExpr => field.2.size) inside
  rw [← fieldsSize_eq] at part
  exact readBack_of_fits (fieldsFit_iff.mp (fieldsFit_sorted.mpr fits) field inside).2
    (inner field ((mem_sortedBy _ _ _).mp inside)) (by omega)

theorem clean_arguments (whole : clean (argumentsToJson arguments) = true) :
    ∀ argument ∈ arguments, clean argument.2.toJson = true := by
  rw [argumentsToJson, clean] at whole
  exact fun argument inside => clean_fields whole argument ((mem_sortedBy _ _ _).mpr inside)

def ReadSorted (levels : Nat) (condition : Condition) : Prop :=
  ∀ name budget, parseCondition levels condition.toJson name (condition.size + budget) =
    .ok (condition.inKeyOrder, budget)

theorem conditions_read {items : List Condition} (short : items.length ≤ maxList)
    (each : ∀ item ∈ items, ReadSorted levels item) (name : String) (budget : Nat) :
    sequenceOf (.arr (conditionsToJson items)) name (parseCondition levels) 0
      (conditionsSize items + budget) = .ok (inKeyOrders items, budget) := by
  rw [conditionsToJson_eq, conditionsSize_eq, inKeyOrders_eq]
  exact sequenceOf_map each (Nat.zero_le _) short name budget

theorem clean_conditions {items : List Condition}
    (whole : cleanItems (conditionsToJson items) = true) :
    ∀ item ∈ items, clean item.toJson = true := by
  rw [conditionsToJson_eq, cleanItems_iff, List.forall_mem_map] at whole
  exact whole

theorem readSorted_of_fits {condition : Condition} (fits : condition.Fits)
    (whole : clean condition.toJson = true) (deep : condition.size ≤ levels) :
    ReadSorted levels condition := by
  intro name budget
  induction levels generalizing condition name budget with
  | zero => exact absurd condition.size_pos (by omega)
  | succ levels ih =>
    have code := (rejectExecutable_eq_ok condition.toJson name).mpr whole
    have several : ∀ items : List Condition, items.length ≤ maxList ∧ ConditionsFit items →
        cleanItems (conditionsToJson items) = true → conditionsSize items + 1 ≤ levels + 1 →
        ∀ name budget, sequenceOf (.arr (conditionsToJson items)) name (parseCondition levels) 0
          (conditionsSize items + budget) = .ok (inKeyOrders items, budget) := by
      intro items fits whole deep
      apply conditions_read fits.1
      intro item inside
      have part := le_sum_sizes Condition.size inside
      rw [← conditionsSize_eq] at part
      exact ih (conditionsFit_iff.mp fits.2 item inside) (clean_conditions whole item inside)
        (by omega)
    cases condition with
    | predicate ref arguments =>
      have paid := spend_succ name (fieldsSize arguments) budget
      simp only [Condition.toJson, Condition.size, Condition.Fits] at code whole fits deep ⊢
      simp only [clean, cleanFields, Bool.and_eq_true] at whole
      have read := parseArguments_toJson fits (clean_arguments whole.2.2.1.2) (Nat.le_of_succ_le_succ deep)
        (name ++ ".arguments") budget
      rw [parseCondition, paid]
      simp [bind, Except.bind, code, field, get?, fieldsOf_obj, keys, read, Condition.inKeyOrder]
    | all items | any items =>
      have paid := spend_succ name (conditionsSize items) budget
      simp only [Condition.toJson, Condition.size, Condition.Fits] at code whole fits deep ⊢
      simp only [clean, cleanFields, Bool.and_eq_true] at whole
      have read := several items fits whole.2.1.2 deep (name ++ ".items") budget
      rw [parseCondition, paid]
      simp [bind, Except.bind, code, field, get?, fieldsOf_obj, keys, read, Condition.inKeyOrder]
    | not item =>
      have paid := spend_succ name item.size budget
      simp only [Condition.toJson, Condition.size, Condition.Fits] at code whole fits deep ⊢
      simp only [clean, cleanFields, Bool.and_eq_true] at whole
      have read := ih fits whole.2.1.2 (Nat.le_of_succ_le_succ deep) (name ++ ".item") budget
      rw [parseCondition, paid]
      simp [bind, Except.bind, code, field, get?, fieldsOf_obj, keys, read, Condition.inKeyOrder]
    | constant value =>
      have paid := spend_succ name 0 budget
      simp only [Condition.toJson, Condition.size] at code ⊢
      rw [parseCondition, ← Nat.zero_add 1, paid]
      simp [bind, Except.bind, code, field, get?, fieldsOf_obj, keys, flag, Condition.inKeyOrder]

end

theorem vocabulary_clean : ∀ word ∈ ["op", "parameter", "name", "constant", "value", "output",
    "step", "port", "object", "fields", "array", "items", "predicate", "predicate_ref",
    "arguments", "all", "any", "not", "item"], looksLikeCode word = false := by
  rw [looksLikeCode_eq_reads]
  decide +kernel

variable {levels : Nat} {arguments : Dict String ValueExpr}

variable {name : String} {budget : Nat}

theorem spend_eq_ok : spend name budget = .ok rest ↔ budget = rest + 1 := by
  cases budget with
  | zero => simp [spend]
  | succ left => simp [spend]

structure ValueExpr.Sound (value : ValueExpr) : Prop where
  fits : value.Fits
  noCode : clean value.toJson = true

structure FieldsSound (fields : List (String × ValueExpr)) : Prop where
  fits : FieldsFit fields
  noCode : cleanFields (fieldsToJson fields) = true

theorem of_parsedFields
    (each : ∀ value name budget expr rest, parseValue levels value name budget = .ok (expr, rest)
      → expr.Sound ∧ budget = expr.size + rest) {keyName : String} {raw : List (String × Json)}
    {fields : List (String × ValueExpr)} (whole : cleanFields raw = true)
    (ok : entriesWith (parseValue levels) keyName name raw budget = .ok (fields, rest)) :
    FieldsSound fields ∧ budget = fieldsSize fields + rest := by
  obtain ⟨all, paid, sameKeys⟩ := of_entriesWith each ok
  rw [← fieldsSize_eq] at paid
  refine ⟨⟨fieldsFit_iff.mpr fun field inside => ?_, ?_⟩, paid⟩
  · exact ⟨(all field inside).1, (all field inside).2.fits⟩
  · rw [fieldsToJson_eq, cleanFields_iff, List.forall_mem_map]
    intro field inside
    have key : field.1 ∈ keys raw := sameKeys ▸ List.mem_map_of_mem inside
    obtain ⟨source, there, same⟩ := List.mem_map.mp key
    rw [← same]
    exact ⟨(cleanFields_iff.mp whole source there).1, (all field inside).2.noCode⟩

theorem of_parseValue (value : Json) (name : String) (budget : Nat) (expr : ValueExpr)
    (rest : Nat) (ok : parseValue levels value name budget = .ok (expr, rest)) :
    expr.Sound ∧ budget = expr.size + rest := by
  induction levels generalizing value name budget expr rest with
  | zero => cases ok
  | succ levels ih =>
    rw [parseValue] at ok
    obtain ⟨left, spent, ok⟩ := bind_eq_ok.mp ok
    obtain ⟨whole, ok⟩ := then_eq_ok.mp ok
    have paid := spend_eq_ok.mp spent
    rw [rejectExecutable_eq_ok] at whole
    split at ok
    case h_2 => cases ok
    case h_1 given =>
      split at ok
      case h_1 =>
        obtain ⟨data, object, ok⟩ := bind_eq_ok.mp ok
        obtain ⟨read, named, ok⟩ := bind_eq_ok.mp ok
        cases ok
        rw [fieldsOf_eq_ok object] at whole
        have part := clean_field whole "name"
        rw [identifier_eq_ok.mp named] at part
        refine ⟨⟨trivial, ?_⟩, by simp only [ValueExpr.size]; omega⟩
        simp [ValueExpr.toJson, clean, cleanFields, vocabulary_clean] at part ⊢
        exact part
      case h_2 =>
        obtain ⟨data, object, ok⟩ := bind_eq_ok.mp ok
        obtain ⟨plain, made, ok⟩ := bind_eq_ok.mp ok
        cases ok
        rw [fieldsOf_eq_ok object] at whole
        have part := clean_field whole "value"
        rw [constantValue_eq_ok.mp made] at part
        refine ⟨⟨trivial, ?_⟩, by simp only [ValueExpr.size]; omega⟩
        simpa [ValueExpr.toJson, clean, cleanFields, vocabulary_clean] using part
      case h_3 =>
        obtain ⟨data, object, ok⟩ := bind_eq_ok.mp ok
        obtain ⟨step, stepNamed, ok⟩ := bind_eq_ok.mp ok
        obtain ⟨port, portNamed, ok⟩ := bind_eq_ok.mp ok
        cases ok
        rw [fieldsOf_eq_ok object] at whole
        have stepPart := clean_field whole "step"
        have portPart := clean_field whole "port"
        rw [identifier_eq_ok.mp stepNamed] at stepPart
        rw [identifier_eq_ok.mp portNamed] at portPart
        refine ⟨⟨trivial, ?_⟩, by simp only [ValueExpr.size]; omega⟩
        simp [ValueExpr.toJson, clean, cleanFields, vocabulary_clean] at stepPart portPart ⊢
        exact ⟨stepPart, portPart⟩
      case h_4 =>
        obtain ⟨data, object, ok⟩ := bind_eq_ok.mp ok
        split at ok
        case h_2 => cases ok
        case h_1 raw found =>
          obtain ⟨⟨fields, after⟩, parsed, ok⟩ := bind_eq_ok.mp ok
          cases ok
          rw [fieldsOf_eq_ok object] at whole
          have part := clean_field whole "fields"
          rw [found, clean] at part
          obtain ⟨sound, more⟩ := of_parsedFields ih part parsed
          refine ⟨⟨sound.fits, ?_⟩, by simp only [ValueExpr.size]; omega⟩
          simpa [ValueExpr.toJson, clean, cleanFields, vocabulary_clean] using sound.noCode
      case h_5 =>
        obtain ⟨data, object, ok⟩ := bind_eq_ok.mp ok
        obtain ⟨⟨items, after⟩, parsed, ok⟩ := bind_eq_ok.mp ok
        cases ok
        obtain ⟨sound, more, short⟩ := of_sequenceOf ih parsed
        rw [← itemsSize_eq] at more
        have inner : cleanItems (itemsToJson items) = true := by
          rw [itemsToJson_eq, cleanItems_iff, List.forall_mem_map]
          exact fun item inside => (sound item inside).noCode
        refine ⟨⟨⟨short, itemsFit_iff.mpr fun item inside => (sound item inside).fits⟩, ?_⟩,
          by simp only [ValueExpr.size]; omega⟩
        simpa [ValueExpr.toJson, clean, cleanFields, vocabulary_clean] using inner
      case h_6 => cases ok

theorem sorted_noCode (noCode : cleanFields (fieldsToJson arguments) = true) :
    clean (argumentsToJson arguments) = true := by
  rw [fieldsToJson_eq, cleanFields_iff, List.forall_mem_map] at noCode
  rw [argumentsToJson, clean, fieldsToJson_eq, cleanFields_iff, List.forall_mem_map]
  exact fun field inside => noCode field ((mem_sortedBy _ _ _).mp inside)

theorem of_parseArguments (ok : parseArguments levels value name budget = .ok (arguments, rest)) :
    FieldsFit arguments ∧ (∀ argument ∈ arguments, argument.2.Sound) ∧
      budget = fieldsSize arguments + rest ∧
      (clean value = true → clean (argumentsToJson arguments) = true) := by
  simp only [parseArguments] at ok
  split at ok
  case h_2 => cases ok
  case h_1 fields =>
    obtain ⟨all, paid, _⟩ := of_entriesWith of_parseValue ok
    rw [← fieldsSize_eq] at paid
    refine ⟨fieldsFit_iff.mpr fun field inside => ?_, fun argument inside => (all argument inside).2,
      paid, fun whole => ?_⟩
    · exact ⟨(all field inside).1, (all field inside).2.fits⟩
    · exact sorted_noCode (of_parsedFields of_parseValue whole ok).1.noCode

structure Condition.Sound (condition : Condition) : Prop where
  fits : condition.Fits
  noCode : clean condition.toJson = true

theorem of_parsedConditions
    (each : ∀ value name budget condition rest, parseCondition levels value name budget = .ok
      (condition, rest) → condition.Sound ∧ budget = condition.size + rest)
    {items : List Condition}
    (ok : sequenceOf value name (parseCondition levels) 0 budget = .ok (items, rest)) :
    (items.length ≤ maxList ∧ ConditionsFit items) ∧
      cleanItems (conditionsToJson items) = true ∧ budget = conditionsSize items + rest := by
  obtain ⟨sound, paid, short⟩ := of_sequenceOf each ok
  rw [← conditionsSize_eq] at paid
  refine ⟨⟨short, conditionsFit_iff.mpr fun item inside => (sound item inside).fits⟩, ?_, paid⟩
  rw [conditionsToJson_eq, cleanItems_iff, List.forall_mem_map]
  exact fun item inside => (sound item inside).noCode

theorem of_parseCondition (value : Json) (name : String) (budget : Nat) (condition : Condition)
    (rest : Nat) (ok : parseCondition levels value name budget = .ok (condition, rest)) :
    condition.Sound ∧ budget = condition.size + rest := by
  induction levels generalizing value name budget condition rest with
  | zero => cases ok
  | succ levels ih =>
    rw [parseCondition] at ok
    obtain ⟨left, spent, ok⟩ := bind_eq_ok.mp ok
    obtain ⟨whole, ok⟩ := then_eq_ok.mp ok
    have paid := spend_eq_ok.mp spent
    rw [rejectExecutable_eq_ok] at whole
    split at ok
    case h_2 => cases ok
    case h_1 given =>
      split at ok
      case h_1 =>
        obtain ⟨data, object, ok⟩ := bind_eq_ok.mp ok
        obtain ⟨ref, referred, ok⟩ := bind_eq_ok.mp ok
        obtain ⟨⟨arguments, after⟩, parsed, ok⟩ := bind_eq_ok.mp ok
        cases ok
        rw [fieldsOf_eq_ok object] at whole
        have refPart := VersionedRef.clean_toJson referred (clean_field whole "predicate_ref")
        obtain ⟨fits, _, more, noCode⟩ := of_parseArguments parsed
        have argumentsPart := noCode (clean_field whole "arguments")
        refine ⟨⟨fits, ?_⟩, by simp only [Condition.size]; omega⟩
        simp [Condition.toJson, clean, cleanFields, vocabulary_clean, refPart, argumentsPart]
      case h_2 | h_3 =>
        obtain ⟨data, object, ok⟩ := bind_eq_ok.mp ok
        obtain ⟨⟨items, after⟩, parsed, ok⟩ := bind_eq_ok.mp ok
        cases ok
        obtain ⟨fits, noCode, more⟩ := of_parsedConditions ih parsed
        refine ⟨⟨fits, ?_⟩, by simp only [Condition.size]; omega⟩
        simpa [Condition.toJson, clean, cleanFields, vocabulary_clean] using noCode
      case h_4 =>
        obtain ⟨data, object, ok⟩ := bind_eq_ok.mp ok
        obtain ⟨⟨item, after⟩, parsed, ok⟩ := bind_eq_ok.mp ok
        cases ok
        obtain ⟨sound, more⟩ := ih _ _ _ _ _ parsed
        refine ⟨⟨sound.fits, ?_⟩, by simp only [Condition.size]; omega⟩
        simpa [Condition.toJson, clean, cleanFields, vocabulary_clean] using sound.noCode
      case h_5 =>
        obtain ⟨data, object, ok⟩ := bind_eq_ok.mp ok
        obtain ⟨plain, _, ok⟩ := bind_eq_ok.mp ok
        cases ok
        refine ⟨⟨trivial, ?_⟩, by simp only [Condition.size]; omega⟩
        simp [Condition.toJson, clean, cleanFields, vocabulary_clean]
      case h_6 => cases ok

theorem form_read (form : Network.TaskForm) (name : String) :
    enumOf formMembers (.str (memberText formMembers form)) name = .ok form :=
  enumOf_memberText (by decide) (by cases form <;> decide) name

theorem relation_read (relation : Planning.ObligationRelation) (name : String) :
    enumOf relationMembers (.str (memberText relationMembers relation)) name = .ok relation :=
  enumOf_memberText (by decide) (by cases relation <;> decide) name

theorem reuse_read (policy : Network.ReusePolicy) (name : String) :
    enumOf reuseMembers (.str (memberText reuseMembers policy)) name = .ok policy :=
  enumOf_memberText (by decide) (by cases policy <;> decide) name

theorem MethodStep.read {step : MethodStep} (fits : FieldsFit step.arguments)
    (inner : ∀ argument ∈ step.arguments, clean argument.2.toJson = true) (name : String)
    (budget : Nat) :
    MethodStep.fromJson step.toJson name (fieldsSize step.arguments + budget) =
      .ok (step.inKeyOrder, budget) := by
  have read := parseArguments_toJson fits inner (Nat.le_add_right _ budget)
    (name ++ ".arguments") budget
  rw [MethodStep.fromJson, MethodStep.toJson]
  cases reuse : step.reusePolicy with
  | none =>
    simp [bind, Except.bind, field, get?, fieldsOf_obj, keys, read, tupleOf, Identifiers.toJson,
      form_read, identifiers_toJson, relation_read, optionally, reuse, MethodStep.inKeyOrder]
  | some policy =>
    simp [bind, Except.bind, field, get?, fieldsOf_obj, keys, read, tupleOf, Identifiers.toJson,
      form_read, identifiers_toJson, relation_read, optionally, reuse_read, Except.map, reuse,
      MethodStep.inKeyOrder]

@[simp] theorem MethodOrdering.read (order : MethodOrdering) (name : String) :
    MethodOrdering.fromJson order.toJson name = .ok order := by
  rw [MethodOrdering.fromJson, MethodOrdering.toJson]
  simp [bind, Except.bind, field, get?, fieldsOf_obj, keys, order.differ]

theorem optionalText_read (id : Option Identifier) (name : String) :
    optionalIdentifier (optionalText id) name = .ok id := by
  cases id with
  | none => rfl
  | some id => simp [optionalText, optionalIdentifier, Except.map]

@[simp] theorem CriterionLink.read (link : CriterionLink) (name : String) :
    CriterionLink.fromJson link.toJson name = .ok link := by
  rw [CriterionLink.fromJson, CriterionLink.toJson]
  simp [bind, Except.bind, field, get?, fieldsOf_obj, keys, optionalText_read]

variable {policy : AdmissionPolicy}

theorem MethodComposition.read (links : composition.criterionLinks.length ≤ maxList)
    (fits : FieldsFit composition.outputs)
    (inner : ∀ output ∈ composition.outputs, clean output.2.toJson = true) (name : String)
    (budget : Nat) :
    MethodComposition.fromJson composition.toJson name (fieldsSize composition.outputs + budget) =
      .ok ({ composition with outputs := sortedBy Prod.fst composition.outputs }, budget) := by
  have least : 1 ≤ composition.criterionLinks.length :=
    List.length_pos_iff.mpr composition.someLink
  have linked := sequenceOf_free (fun (link : CriterionLink) _ => CriterionLink.read link) least
    links (name ++ ".criterion_links") 0
  have read := parseArguments_toJson fits inner (Nat.le_add_right _ budget)
    (name ++ ".outputs") budget
  rw [MethodComposition.fromJson, MethodComposition.toJson]
  simp [bind, Except.bind, field, get?, fieldsOf_obj, keys, optionalText_read, linked, read,
    composition.someLink]

theorem conditions_parsed (fits : conditions.length ≤ maxList ∧ ConditionsFit conditions)
    (noCode : ∀ condition ∈ conditions, clean condition.toJson = true) (name : String)
    (budget : Nat) :
    parseConditions (.arr (conditionsToJson conditions)) name
      (conditionsSize conditions + budget) = .ok (inKeyOrders conditions, budget) := by
  apply conditions_read fits.1
  intro condition inside
  have part := le_sum_sizes Condition.size inside
  rw [← conditionsSize_eq] at part
  exact readSorted_of_fits (conditionsFit_iff.mp fits.2 condition inside)
    (noCode condition inside) (by omega)

structure MethodContract.NoCode (method : MethodContract) : Prop where
  conditions : ∀ conditions ∈
    [method.applicableWhen, method.explorationAssumptions, method.expectedEffects],
    ∀ condition ∈ conditions, clean condition.toJson = true
  arguments : ∀ step ∈ method.steps, ∀ argument ∈ step.arguments,
    clean argument.2.toJson = true
  outputs : ∀ output ∈ method.composition.outputs, clean output.2.toJson = true

theorem assemble_parts (method : MethodContract) :
    assemble (.str method.methodId.text) (.int method.methodVersion.number)
      (method.requiredCapabilities.items.map fun id => .str id.text) method.goalTypeRef
      method.parameterSchemaRef method.outputSchemaRef method.applicableWhen
      method.explorationAssumptions method.steps method.ordering method.expectedEffects
      method.composition method.basisRefs = .ok method := by
  simp only [assemble, identifier_str, index_int, identifiers_toJson, bind, Except.bind]
  rw [dif_pos method.stepsDistinct, dif_pos method.orderingKnown, dif_pos method.finalizerKnown]

theorem MethodContract.fields_written (method : MethodContract) :
    ∃ data, method.toJson = .obj data ∧ keys data = MethodContract.fields ∧
      field data "schema_version" = .int 1 ∧
      field data "method_id" = .str method.methodId.text ∧
      field data "method_version" = .int method.methodVersion.number ∧
      field data "goal_type_ref" = method.goalTypeRef.toJson ∧
      field data "parameter_schema_ref" = method.parameterSchemaRef.toJson ∧
      field data "output_schema_ref" = method.outputSchemaRef.toJson ∧
      field data "applicable_when" = .arr (conditionsToJson method.applicableWhen) ∧
      field data "exploration_assumptions" =
        .arr (conditionsToJson method.explorationAssumptions) ∧
      field data "steps" = .arr (method.steps.map MethodStep.toJson) ∧
      field data "ordering" = .arr (method.ordering.map MethodOrdering.toJson) ∧
      field data "required_capabilities" = method.requiredCapabilities.toJson ∧
      field data "expected_effects" = .arr (conditionsToJson method.expectedEffects) ∧
      field data "composition" = method.composition.toJson ∧
      field data "basis_refs" = .arr (method.basisRefs.map EvidenceRef.toJson) := by
  refine ⟨_, rfl, rfl, ?_⟩
  simp only [field_cons, String.reduceEq, reduceIte, and_self]

variable {method : MethodContract}

theorem MethodContract.read (storable : method.Storable) (noCode : method.NoCode) (name : String) :
    MethodContract.fromJson method.toJson name = .ok method.inKeyOrder := by
  obtain ⟨left, whole⟩ := Nat.exists_eq_add_of_le storable.nodes
  have applicable := conditions_parsed (storable.conditions _ (by simp))
    (noCode.conditions method.applicableWhen (by simp)) (name ++ ".applicable_when")
  have exploration := conditions_parsed (storable.conditions _ (by simp))
    (noCode.conditions method.explorationAssumptions (by simp))
    (name ++ ".exploration_assumptions")
  have effects := conditions_parsed (storable.conditions _ (by simp))
    (noCode.conditions method.expectedEffects (by simp)) (name ++ ".expected_effects")
  have steps : ∀ budget, sequenceOf (.arr (method.steps.map MethodStep.toJson)) (name ++ ".steps")
      MethodStep.fromJson 0 ((method.steps.map fun step => fieldsSize step.arguments).sum + budget)
        = .ok (method.steps.map MethodStep.inKeyOrder, budget) :=
    sequenceOf_map (fun step inside => MethodStep.read (storable.arguments step inside)
      (noCode.arguments step inside)) (Nat.zero_le _) storable.steps _
  have ordering := sequenceOf_free (fun (order : MethodOrdering) _ => MethodOrdering.read order)
    (Nat.zero_le _) storable.ordering (name ++ ".ordering") 0
  have composition := MethodComposition.read storable.links storable.outputs noCode.outputs
    (name ++ ".composition")
  have basis := sequenceOf_free (fun (ref : EvidenceRef) _ => EvidenceRef.fromJson_toJson ref)
    (Nat.zero_le _) storable.basis (name ++ ".basis_refs") 0
  have total : maxConditionNodes = conditionsSize method.applicableWhen +
      (conditionsSize method.explorationAssumptions +
        ((method.steps.map fun step => fieldsSize step.arguments).sum +
          (conditionsSize method.expectedEffects +
            (fieldsSize method.composition.outputs + left)))) := by
    rw [whole, MethodContract.nodeCount]
    omega
  have assembled := assemble_parts method.inKeyOrder
  obtain ⟨data, object, names, schema, id, version, goal, parameters, output, applicableWhen,
    explorationAssumptions, stepList, orderList, capabilities, effectList, composed, basisRefs⟩ :=
    method.fields_written
  rw [MethodContract.fromJson, object, fieldsOf_obj (by simp [names]) (by simp [names]), total]
  simp only [bind, Except.bind, schema, id, version, goal, parameters, output, applicableWhen,
    explorationAssumptions, stepList, orderList, capabilities, effectList, composed, basisRefs,
    schemaVersion, VersionedRef.fromJson_toJson, applicable, exploration, steps, ordering,
    effects, composition, basis, tupleOf, Identifiers.toJson]
  exact assembled

theorem MethodStep.of_fromJson (value : Json) (name : String) (budget : Nat) (step : MethodStep)
    (rest : Nat) (ok : MethodStep.fromJson value name budget = .ok (step, rest)) :
    (FieldsFit step.arguments ∧ ∀ argument ∈ step.arguments, argument.2.Sound) ∧
      budget = fieldsSize step.arguments + rest := by
  simp only [MethodStep.fromJson, bind_eq_ok] at ok
  obtain ⟨_, _, _, _, ⟨arguments, left⟩, parsed, _, _, _, _, _, _, _, _, _, _, _, _, ok⟩ := ok
  cases ok
  obtain ⟨fits, sound, paid, _⟩ := of_parseArguments parsed
  exact ⟨⟨fits, sound⟩, paid⟩

theorem MethodComposition.of_fromJson
    (ok : MethodComposition.fromJson value name budget = .ok (composition, rest)) :
    composition.criterionLinks.length ≤ maxList ∧ FieldsFit composition.outputs ∧
      (∀ output ∈ composition.outputs, output.2.Sound) ∧
      budget = fieldsSize composition.outputs + rest := by
  obtain ⟨data, _, ok⟩ := bind_eq_ok.mp ok
  obtain ⟨⟨links, _⟩, linked, ok⟩ := bind_eq_ok.mp ok
  obtain ⟨⟨outputs, left⟩, parsed, ok⟩ := bind_eq_ok.mp ok
  dsimp only at ok
  split at ok
  case isFalse => cases ok
  case isTrue someLink =>
    obtain ⟨finalizer, _, ok⟩ := bind_eq_ok.mp ok
    split at ok
    case h_2 => cases ok
    case h_1 =>
      cases ok
      obtain ⟨fits, sound, paid, _⟩ := of_parseArguments parsed
      exact ⟨length_of_sequenceOf linked, fits, sound, paid⟩

theorem of_assemble {methodId methodVersion : Json} {capabilities : List Json}
    {goal parameters output : VersionedRef} {applicable exploration effects : List Condition}
    {steps : List MethodStep} {ordering : List MethodOrdering} {basis : List EvidenceRef}
    (ok : assemble methodId methodVersion capabilities goal parameters output applicable
      exploration steps ordering effects composition basis = .ok method) :
    method.applicableWhen = applicable ∧ method.explorationAssumptions = exploration ∧
      method.expectedEffects = effects ∧ method.steps = steps ∧ method.ordering = ordering ∧
      method.composition = composition ∧ method.basisRefs = basis := by
  obtain ⟨id, _, ok⟩ := bind_eq_ok.mp ok
  obtain ⟨version, _, ok⟩ := bind_eq_ok.mp ok
  obtain ⟨requiredCapabilities, _, ok⟩ := bind_eq_ok.mp ok
  split at ok
  case isFalse => cases ok
  case isTrue =>
    split at ok
    case isFalse => cases ok
    case isTrue =>
      split at ok <;> cases ok
      exact ⟨rfl, rfl, rfl, rfl, rfl, rfl, rfl⟩

theorem parseConditions_ok (ok : parseConditions value name budget = .ok (conditions, rest)) :
    (conditions.length ≤ maxList ∧ ConditionsFit conditions) ∧
      (∀ condition ∈ conditions, clean condition.toJson = true) ∧
      budget = conditionsSize conditions + rest := by
  obtain ⟨fits, noCode, paid⟩ := of_parsedConditions of_parseCondition ok
  exact ⟨fits, clean_conditions noCode, paid⟩

theorem MethodContract.of_fromJson (ok : MethodContract.fromJson value name = .ok method) :
    method.Storable ∧ method.NoCode := by
  simp only [MethodContract.fromJson, bind_eq_ok, Unique.exists_iff, PUnit.default_eq_unit] at ok
  obtain ⟨_, _, _, goal, _, parameters, _, output, _, ⟨applicable, left₁⟩, whenOk,
    ⟨exploration, left₂⟩, exploreOk, ⟨steps, left₃⟩, stepsOk, ⟨ordering, _⟩, orderOk, _, _,
    ⟨effects, left₄⟩, effectsOk, ⟨composition, left₅⟩, composeOk, ⟨basis, _⟩, basisOk, ok⟩ := ok
  obtain ⟨rfl, rfl, rfl, rfl, rfl, rfl, rfl⟩ := of_assemble ok
  obtain ⟨whenFits, whenClean, paid₁⟩ := parseConditions_ok whenOk
  obtain ⟨exploreFits, exploreClean, paid₂⟩ := parseConditions_ok exploreOk
  obtain ⟨stepsSound, paid₃, stepsShort⟩ := of_sequenceOf MethodStep.of_fromJson stepsOk
  obtain ⟨effectsFit, effectsClean, paid₄⟩ := parseConditions_ok effectsOk
  obtain ⟨linksShort, outputsFit, outputsSound, paid₅⟩ := MethodComposition.of_fromJson composeOk
  refine ⟨?_, ?_⟩
  · exact {
      nodes := by rw [MethodContract.nodeCount]; omega
      conditions := by simpa using ⟨whenFits, exploreFits, effectsFit⟩
      steps := stepsShort
      arguments := fun step inside => (stepsSound step inside).1
      ordering := length_of_sequenceOf orderOk
      links := linksShort
      outputs := outputsFit
      basis := length_of_sequenceOf basisOk }
  · exact {
      conditions := by simpa using ⟨whenClean, exploreClean, effectsClean⟩
      arguments := fun step inside argument there => ((stepsSound step inside).2 argument there).noCode
      outputs := fun output inside => (outputsSound output inside).noCode }

theorem MethodContract.noCode_of_clean (whole : clean method.toJson = true) : method.NoCode := by
  obtain ⟨data, object, _, _, _, _, _, _, _, applicable, exploration, steps, _, _, effects,
    composition, _⟩ := method.fields_written
  rw [object] at whole
  have part := clean_field whole
  have first := part "applicable_when"
  have second := part "exploration_assumptions"
  have third := part "expected_effects"
  have stepsPart := part "steps"
  have composed := part "composition"
  rw [applicable, clean] at first
  rw [exploration, clean] at second
  rw [effects, clean] at third
  rw [steps, clean, cleanItems_iff, List.forall_mem_map] at stepsPart
  rw [composition, MethodComposition.toJson] at composed
  have outputs := clean_field composed "outputs"
  simp only [field_cons, String.reduceEq, reduceIte] at outputs
  exact {
    conditions := by
      simpa using ⟨clean_conditions first, clean_conditions second, clean_conditions third⟩
    arguments := by
      intro step inside
      have written := stepsPart step inside
      rw [MethodStep.toJson] at written
      have arguments := clean_field written "arguments"
      simp only [List.cons_append, field_cons, String.reduceEq, reduceIte] at arguments
      exact clean_arguments arguments
    outputs := clean_arguments outputs }

theorem MethodContract.inKeyOrder_idem (method : MethodContract) :
    method.inKeyOrder.inKeyOrder = method.inKeyOrder := by
  simp [MethodContract.inKeyOrder, inKeyOrders_same, sortedBy_idem, MethodStep.inKeyOrder,
    Function.comp_def]

theorem MethodContract.toJson_inKeyOrder (method : MethodContract) :
    method.inKeyOrder.toJson = method.toJson := by
  have step : MethodStep.toJson ∘ MethodStep.inKeyOrder = MethodStep.toJson := by
    funext step
    simp [MethodStep.toJson, MethodStep.inKeyOrder]
  simp [MethodContract.toJson, MethodContract.inKeyOrder, inKeyOrders_same, step,
    MethodComposition.toJson]

theorem MethodContract.storable_inKeyOrder : method.inKeyOrder.Storable ↔ method.Storable := by
  have count : method.inKeyOrder.nodeCount = method.nodeCount := by
    simp [MethodContract.nodeCount, MethodContract.inKeyOrder, inKeyOrders_same,
      MethodStep.inKeyOrder, Function.comp_def]
  have conditions : (∀ conditions ∈ [method.inKeyOrder.applicableWhen,
        method.inKeyOrder.explorationAssumptions, method.inKeyOrder.expectedEffects],
        conditions.length ≤ maxList ∧ ConditionsFit conditions) ↔
      ∀ conditions ∈ [method.applicableWhen, method.explorationAssumptions,
        method.expectedEffects], conditions.length ≤ maxList ∧ ConditionsFit conditions := by
    simp [MethodContract.inKeyOrder, inKeyOrders_same]
  have steps : method.inKeyOrder.steps.length = method.steps.length := List.length_map _
  have arguments : (∀ step ∈ method.inKeyOrder.steps, FieldsFit step.arguments) ↔
      ∀ step ∈ method.steps, FieldsFit step.arguments := by
    simp [MethodContract.inKeyOrder, MethodStep.inKeyOrder]
  have outputs : FieldsFit method.inKeyOrder.composition.outputs ↔
      FieldsFit method.composition.outputs := fieldsFit_sorted
  constructor
  · intro back
    exact ⟨count ▸ back.nodes, conditions.mp back.conditions, steps ▸ back.steps,
      arguments.mp back.arguments, back.ordering, back.links, outputs.mp back.outputs, back.basis⟩
  · intro storable
    exact ⟨count ▸ storable.nodes, conditions.mpr storable.conditions, steps ▸ storable.steps,
      arguments.mpr storable.arguments, storable.ordering, storable.links,
      outputs.mpr storable.outputs, storable.basis⟩

theorem survivesStore_of_storable (storable : method.Storable) (noCode : method.NoCode)
    (contentHashOf : Json → HashHex) : SurvivesStore contentHashOf method := by
  refine ⟨method.inKeyOrder, MethodContract.read storable noCode _, method.inKeyOrder_idem,
    method.toJson_inKeyOrder, ?_⟩
  rw [MethodContract.methodRef, method.toJson_inKeyOrder]
  rfl

theorem survivesStore_iff (noCode : method.NoCode) (contentHashOf : Json → HashHex) :
    SurvivesStore contentHashOf method ↔ method.Storable := by
  constructor
  · rintro ⟨back, read, same, _⟩
    rw [← MethodContract.storable_inKeyOrder, ← same, MethodContract.storable_inKeyOrder]
    exact (MethodContract.of_fromJson read).1
  · exact fun storable => survivesStore_of_storable storable noCode contentHashOf

theorem noCode_of_passes (passes : Passes method policy) : method.NoCode := by
  have first := passes.1
  simp only [checkStructureAndTypes] at first
  split at first
  · cases first
  · next accepted =>
    exact MethodContract.noCode_of_clean ((rejectExecutable_eq_ok _ _).mp accepted)

/-- Every decoded contract survives the store. An admitted one does exactly when it is within the
limits of the decoder, which the admission does not check. -/
theorem survives_store_iff (contentHashOf : Json → HashHex) (printable : Char → Bool) :
    (∀ value method, MethodContract.fromJson value "method_contract" = .ok method →
      SurvivesStore contentHashOf method) ∧
    ∀ (registry next : MethodRegistry) (proposal : MethodProposal) (author : RegistryAuthor)
      (policy : AdmissionPolicy) (receipt : AdmissionReceipt),
      registry.admitMethod contentHashOf printable proposal author policy = .ok (receipt, next) →
      receipt.verdict = .trialAdmitted →
      (SurvivesStore contentHashOf proposal.method ↔ proposal.method.Storable) := by
  refine ⟨?_, ?_⟩
  · intro value method decoded
    obtain ⟨storable, noCode⟩ := MethodContract.of_fromJson decoded
    exact survivesStore_of_storable storable noCode contentHashOf
  · intro registry next proposal author policy receipt admitted accepted
    exact survivesStore_iff (noCode_of_passes (passes_of_admitted admitted accepted)) contentHashOf

theorem admitted_of_admissible {proposal : MethodProposal} {author : RegistryAuthor}
    (admissible : Admissible proposal author policy) (contentHashOf : Json → HashHex)
    (printable : Char → Bool) : ∃ receipt next,
    MethodRegistry.admitMethod contentHashOf printable {} proposal author policy =
      .ok (receipt, next) ∧ receipt.verdict = .trialAdmitted := by
  rcases admit_cases contentHashOf printable {} proposal author policy
    with ⟨_, ok⟩ | ⟨refusal, decided, _⟩
  · exact ⟨_, _, ok, accept_verdict contentHashOf printable {} proposal.method author policy⟩
  · rw [(refusalOf_eq_none contentHashOf).mpr ⟨admissible, by simp [ClashFree]⟩] at decided
    cases decided

theorem codeEdit_ok : identifierOk "code.edit" = true := by decide

/-- A guarded definition whose step is told where to look and what for. -/
def rootedFix : MethodContract := {
  guardedFix rootGuard with
  steps := [{
    localId := edit
    taskTypeRef := refTo ⟨"code.edit", codeEdit_ok⟩
    form := .primitive
    arguments := [("where", .parameter rootField.name),
      ("goal", .object [("kinds", .array [.constant ⟨.str "fault", by decide, by decide⟩])])] }]
  stepsDistinct := by decide
  orderingKnown := by simp [guardedFix, fixBy]
  finalizerKnown := by simp [guardedFix, fixBy] }

theorem rootedFix_clean : cleanRead rootedFix.toJson = true := by decide +kernel

theorem rootedFix_passes : Passes rootedFix (guardPolicy rootSchema) := by
  rw [Passes, checkStructureAndTypes, accepted_of_read rootedFix_clean]
  decide +kernel

theorem rootedFix_storable : rootedFix.Storable where
  nodes := by decide
  conditions := by
    simp [rootedFix, guardedFix, rootGuard, fixBy, ConditionsFit, Condition.Fits, FieldsFit,
      ValueExpr.Fits, maxList]
    decide
  steps := by decide
  arguments := by
    simp [rootedFix, FieldsFit, ValueExpr.Fits, ItemsFit, maxList]
    decide
  ordering := by decide
  links := by decide
  outputs := trivial
  basis := by decide

def rootedHash : HashHex :=
  ⟨"35219f3d094529f86a2db8973422b2b685a6f99b77854cccee57988228585a9f", by decide⟩

/-- The arguments come back in another order, and the definition under the same reference. -/
theorem survives_store_at_root :
    SurvivesStore (fun _ => rootedHash) rootedFix.inKeyOrder ∧
      SurvivesStore (fun _ => rootedHash) rootedFix := by
  have decoded := MethodContract.read rootedFix_storable (noCode_of_passes rootedFix_passes)
    "method_contract"
  have admissible : Admissible ⟨rootedFix, .human, .draft⟩ .human (guardPolicy rootSchema) :=
    ⟨by simp, rfl, rootedFix_passes⟩
  obtain ⟨receipt, next, admitted, accepted⟩ := admitted_of_admissible admissible
    (fun _ => rootedHash) fun _ => true
  exact ⟨(survives_store_iff (fun _ => rootedHash) fun _ => true).1 _ _ decoded,
    ((survives_store_iff (fun _ => rootedHash) fun _ => true).2 {} next
      ⟨rootedFix, .human, .draft⟩ .human (guardPolicy rootSchema) receipt admitted accepted).mpr
      rootedFix_storable⟩

def blankFix : MethodContract := {
  fixBy edit with
  steps := [{
    localId := edit
    taskTypeRef := refTo ⟨"code.edit", codeEdit_ok⟩
    form := .primitive
    arguments := [("", .constant ⟨.null, by decide, by decide⟩)] }]
  stepsDistinct := by decide
  orderingKnown := by simp [fixBy]
  finalizerKnown := by simp [fixBy] }

theorem blankFix_passes : Passes blankFix (fixPolicy missionOne) := by
  have plain : cleanRead blankFix.toJson = true := by decide +kernel
  rw [Passes, checkStructureAndTypes, accepted_of_read plain]
  decide +kernel

def blankHash : HashHex :=
  ⟨"3c7c347c87012a0c1490e755c434e607bca7b6e2ee4b7593bb2a649f4b38b77c", by decide⟩

/-- The blank argument name is admitted, and lost at the next restart. -/
theorem blank_name_lost : ∃ receipt next,
    MethodRegistry.admitMethod (fun _ => blankHash) (fun _ => true) {} ⟨blankFix, .human, .draft⟩ .human
      (fixPolicy missionOne) = .ok (receipt, next) ∧ receipt.verdict = .trialAdmitted ∧
    ¬ SurvivesStore (fun _ => blankHash) blankFix := by
  have admissible : Admissible ⟨blankFix, .human, .draft⟩ .human (fixPolicy missionOne) :=
    ⟨by simp, rfl, blankFix_passes⟩
  obtain ⟨receipt, next, admitted, accepted⟩ := admitted_of_admissible admissible
    (fun _ => blankHash) fun _ => true
  refine ⟨receipt, next, admitted, accepted, ?_⟩
  rw [survivesStore_iff (noCode_of_passes blankFix_passes)]
  intro storable
  have named := storable.arguments _ List.mem_cons_self
  exact absurd (fieldsFit_iff.mp named _ List.mem_cons_self).1 (by decide)

end Registry
