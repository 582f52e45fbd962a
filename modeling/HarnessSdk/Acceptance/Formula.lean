import HarnessSdk.Acceptance.Expressions

/-! The assured path's own evaluator: formulas over grades, decoded under limits of their own. -/
namespace Acceptance
open PyDict PyText Checks Workflow Contracts

inductive Grade
  | pass
  | fail
  | unknown
deriving DecidableEq

def Grade.verdict : Grade → CriterionVerdict
  | .pass => .pass
  | .fail => .fail
  | .unknown => .unknown

def gradeMembers : List (String × Grade) := [("PASS", .pass), ("FAIL", .fail), ("UNKNOWN", .unknown)]

structure AssuranceError where
  code : String
  locator : String := ""
deriving DecidableEq

def triAll (grades : List Grade) : Except AssuranceError Grade :=
  if grades = [] then .error ⟨"EMPTY_CHECK_SET", ""⟩
  else if .fail ∈ grades then .ok .fail
  else if ∀ grade ∈ grades, grade = .pass then .ok .pass
  else .ok .unknown

def triAny (grades : List Grade) : Except AssuranceError Grade :=
  if grades = [] then .error ⟨"EMPTY_CHECK_SET", ""⟩
  else if .pass ∈ grades then .ok .pass
  else if ∀ grade ∈ grades, grade = .fail then .ok .fail
  else .ok .unknown

inductive Formula
  | criterion (name : String)
  | all (children : List Formula)
  | any (children : List Formula)

def maxInteger : Nat := 9007199254740991

def maxBytes : Nat := 256 * 1024

def maxArray : Nat := 256

def maxAssuredText : Nat := 2048

mutual
/-- `_validate_tree`, where the containers may nest so many levels more. -/
def validateTree : Nat → Json → Except AssuranceError Unit
  | 0, .arr _ => .error ⟨"JSON_DEPTH_LIMIT", ""⟩
  | 0, .obj _ => .error ⟨"JSON_DEPTH_LIMIT", ""⟩
  | levels + 1, .arr items => validateItems levels items
  | levels + 1, .obj fields => validateFields levels fields
  | _, .int n => if n.natAbs ≤ maxInteger then .ok () else .error ⟨"JSON_INTEGER_OVERFLOW", ""⟩
  | _, _ => .ok ()

def validateItems : Nat → List Json → Except AssuranceError Unit
  | _, [] => .ok ()
  | levels, item :: rest => do
    validateTree levels item
    validateItems levels rest

def validateFields : Nat → List (String × Json) → Except AssuranceError Unit
  | _, [] => .ok ()
  | levels, field :: rest => do
    validateTree levels field.2
    validateFields levels rest
end

/-- The escapes of `json.dumps` without `ensure_ascii`. -/
def escapeControl (c : Char) : List Char :=
  if c.toNat < 32 ∨ c = '"' ∨ c = '\\' then escapeChar c else [c]

def quoted (s : String) : String :=
  String.ofList ('"' :: s.toList.flatMap escapeControl ++ ['"'])

mutual
def canonicalText : Json → String
  | .null => "null"
  | .bool b => if b then "true" else "false"
  | .int n => toString n
  | .float text => text
  | .str s => quoted s
  | .arr items => "[" ++ join "," (itemTexts items) ++ "]"
  | .obj fields =>
    "\x7b" ++ join "," ((sortedBy Prod.fst (fieldTexts fields)).map fun field =>
      quoted field.1 ++ ":" ++ field.2) ++ "\x7d"

def itemTexts : List Json → List String
  | [] => []
  | item :: rest => canonicalText item :: itemTexts rest

def fieldTexts : List (String × Json) → List (String × String)
  | [] => []
  | field :: rest => (field.1, canonicalText field.2) :: fieldTexts rest
end

/-- `canonical`: bounded nesting, safe integers and at most 256 KiB of text. -/
def canonical (value : Json) : Except AssuranceError Unit := do
  validateTree 65 value
  if (canonicalText value).utf8ByteSize ≤ maxBytes then .ok ()
  else .error ⟨"JSON_BYTES_LIMIT", ""⟩

def assuredText (value : Json) : Except AssuranceError String :=
  match value with
  | .str s => if 1 ≤ s.length ∧ s.length ≤ maxAssuredText then .ok s else .error ⟨"TEXT_INVALID", ""⟩
  | _ => .error ⟨"TEXT_INVALID", ""⟩

def array (minimum : Nat) (value : Json) : Except AssuranceError (List Json) :=
  match value with
  | .arr items =>
    if minimum ≤ items.length ∧ items.length ≤ maxArray then .ok items
    else .error ⟨"ARRAY_INVALID", ""⟩
  | _ => .error ⟨"ARRAY_INVALID", ""⟩

def visitAll {α : Type} (visit : Json → Nat → Except AssuranceError (α × Nat)) :
    List Json → Nat → Except AssuranceError (List α × Nat)
  | [], count => .ok ([], count)
  | child :: rest, count => do
    let (first, count) ← visit child count
    let (later, count) ← visitAll visit rest count
    .ok (first :: later, count)

def maxFormulaNodes : Nat := 512

/-- The root stands at depth 0, so 17 levels may hold nodes. -/
def formulaLevels : Nat := 17

/-- `visit`, with the levels that are left and the nodes counted so far. -/
def visitFormula (criteria : List String) :
    Nat → Json → Nat → Except AssuranceError (Formula × Nat)
  | 0, _, _ => .error ⟨"FORMULA_LIMIT", ""⟩
  | levels + 1, node, before => do
    let count := before + 1
    if maxFormulaNodes < count then .error ⟨"FORMULA_LIMIT", ""⟩
    else match node with
      | .obj [("criterion", value)] =>
        let name ← assuredText value
        if name ∈ criteria then .ok (.criterion name, count)
        else .error ⟨"FORMULA_UNKNOWN_CRITERION", name⟩
      | .obj [("all", value)] =>
        let items ← array 1 value
        let (children, count) ← visitAll (visitFormula criteria levels) items count
        .ok (.all children, count)
      | .obj [("any", value)] =>
        let items ← array 1 value
        let (children, count) ← visitAll (visitFormula criteria levels) items count
        .ok (.any children, count)
      | _ => .error ⟨"FORMULA_INVALID", ""⟩

def Formula.fromJson (value : Json) (criteria : List String) : Except AssuranceError Formula := do
  canonical value
  let (formula, _) ← visitFormula criteria formulaLevels value 0
  .ok formula

/-- What an evaluated node says: its grade and the criteria that carry it. -/
abbrev Graded := Grade × List String

def gradedAny (evaluated : List Graded) : Except AssuranceError Graded :=
  match evaluated.find? (·.1 = .pass) with
  | some found => .ok found
  | none => (triAny (evaluated.map (·.1))).map (·, [])

def gradedAll (evaluated : List Graded) : Except AssuranceError Graded :=
  (triAll (evaluated.map (·.1))).map fun grade =>
    (grade, if grade = .pass then evaluated.flatMap (·.2) else [])

mutual
def Formula.evaluate (grades : Dict String Grade) : Formula → Except AssuranceError Graded
  | .criterion name =>
    match get? grades name with
    | none => .error ⟨"FORMULA_UNKNOWN_CRITERION", ""⟩
    | some grade => .ok (grade, if grade = .pass then [name] else [])
  | .any children => do
    let evaluated ← evaluateAll grades children
    gradedAny evaluated
  | .all children => do
    let evaluated ← evaluateAll grades children
    gradedAll evaluated

def evaluateAll (grades : Dict String Grade) : List Formula → Except AssuranceError (List Graded)
  | [] => .ok []
  | child :: rest => do
    let first ← child.evaluate grades
    let later ← evaluateAll grades rest
    .ok (first :: later)
end

mutual
def assuranceFormula : SuccessExpression → Json
  | .criterion id => .obj [("criterion", .str id.text)]
  | .all children => .obj [("all", .arr (assuranceFormulas children))]
  | .any children => .obj [("any", .arr (assuranceFormulas children))]

def assuranceFormulas : List SuccessExpression → List Json
  | [] => []
  | child :: rest => assuranceFormula child :: assuranceFormulas rest
end

end Acceptance
