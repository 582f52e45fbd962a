import HarnessSdk.Library.Bytes
import HarnessSdk.Library.Dict
import HarnessSdk.Library.Sha256
import HarnessSdk.Library.Text

/-! Strict JSON values, their canonical text, and the errors of the workflow engine. -/
namespace Workflow
open PyDict PyText

/-- Only finite numbers exist here: a float is its shortest decimal text. -/
inductive Json
  | null
  | bool (b : Bool)
  | int (n : Int)
  | float (text : String)
  | str (s : String)
  | arr (items : List Json)
  | obj (fields : List (String × Json))

abbrev State := Dict String Json

abbrev StatePatch := Dict String Json

def escapeUnit (n : Nat) : List Char := '\\' :: 'u' :: Sha256.hexWord 4 n

def escapeChar (c : Char) : List Char :=
  let n := c.toNat
  if c = '"' then ['\\', '"']
  else if c = '\\' then ['\\', '\\']
  else if n = 10 then ['\\', 'n']
  else if n = 13 then ['\\', 'r']
  else if n = 9 then ['\\', 't']
  else if n = 12 then ['\\', 'f']
  else if n = 8 then ['\\', 'b']
  else if 32 ≤ n ∧ n ≤ 126 then [c]
  else if n < 0x10000 then escapeUnit n
  else escapeUnit (0xD800 + (n - 0x10000) / 1024) ++ escapeUnit (0xDC00 + (n - 0x10000) % 1024)

def quote (s : String) : String :=
  String.ofList ('"' :: s.toList.flatMap escapeChar ++ ['"'])

mutual
def canonicalJson : Json → String
  | .null => "null"
  | .bool b => if b then "true" else "false"
  | .int n => toString n
  | .float text => text
  | .str s => quote s
  | .arr items => "[" ++ join "," (canonicalItems items) ++ "]"
  | .obj fields =>
    "\x7b" ++ join "," ((sortedBy Prod.fst (canonicalFields fields)).map fun field =>
      quote field.1 ++ ":" ++ field.2) ++ "\x7d"

def canonicalItems : List Json → List String
  | [] => []
  | item :: rest => canonicalJson item :: canonicalItems rest

def canonicalFields : List (String × Json) → List (String × String)
  | [] => []
  | field :: rest => (field.1, canonicalJson field.2) :: canonicalFields rest
end

example : canonicalJson (.obj [("b", .arr [.int 1, .null]), ("a", .str "x\ny")]) =
    "\x7b\"a\":\"x\\ny\",\"b\":[1,null]\x7d" := by decide +kernel

/-! The canonical text again, as a proof by computation builds it fast. -/

def quoteRead (s : String) : String :=
  String.ofList ('"' :: (chars s).flatMap escapeChar ++ ['"'])

mutual
def canonicalRead : Json → String
  | .null => "null"
  | .bool b => if b then "true" else "false"
  | .int n => toString n
  | .float text => text
  | .str s => quoteRead s
  | .arr items => "[" ++ join "," (readItems items) ++ "]"
  | .obj fields =>
    "\x7b" ++ join "," ((sortedBy Prod.fst (readFields fields)).map fun field =>
      quoteRead field.1 ++ ":" ++ field.2) ++ "\x7d"

def readItems : List Json → List String
  | [] => []
  | item :: rest => canonicalRead item :: readItems rest

def readFields : List (String × Json) → List (String × String)
  | [] => []
  | field :: rest => (field.1, canonicalRead field.2) :: readFields rest
end

theorem quote_eq_read : quote = quoteRead :=
  funext fun s => by rw [quote, quoteRead, chars_eq]

mutual
theorem canonicalJson_read (value : Json) : canonicalJson value = canonicalRead value := by
  cases value with
  | str s => exact congrFun quote_eq_read s
  | arr items => rw [canonicalJson, canonicalRead, canonicalItems_read items]
  | obj fields => rw [canonicalJson, canonicalRead, canonicalFields_read fields, quote_eq_read]
  | _ => rfl
termination_by structural value

theorem canonicalItems_read (items : List Json) : canonicalItems items = readItems items := by
  cases items with
  | nil => rfl
  | cons item rest => rw [canonicalItems, readItems, canonicalJson_read item, canonicalItems_read rest]
termination_by structural items

theorem canonicalFields_read (fields : List (String × Json)) :
    canonicalFields fields = readFields fields := by
  cases fields with
  | nil => rfl
  | cons field rest =>
    obtain ⟨name, value⟩ := field
    rw [canonicalFields, readFields, canonicalJson_read value, canonicalFields_read rest]
termination_by structural fields
end

theorem canonicalJson_eq_read : canonicalJson = canonicalRead := funext canonicalJson_read

def Json.sameText (a b : Json) : Bool := canonicalJson a == canonicalJson b

inductive WorkflowErrorCode
  | retryableProvider
  | retryableTool
  | invalidState
  | checkpointCorrupt
  | permissionDenied
  | cancelled
  | leaseLost
  | effectUncertain
  | permanent
deriving DecidableEq

def WorkflowErrorCode.value : WorkflowErrorCode → String
  | .retryableProvider => "retryable_provider"
  | .retryableTool => "retryable_tool"
  | .invalidState => "invalid_state"
  | .checkpointCorrupt => "checkpoint_corrupt"
  | .permissionDenied => "permission_denied"
  | .cancelled => "cancelled"
  | .leaseLost => "lease_lost"
  | .effectUncertain => "effect_uncertain"
  | .permanent => "permanent"

structure WorkflowNodeError where
  code : WorkflowErrorCode
  messageRef : String
  retryable : Bool
  nodeId : Option String
deriving DecidableEq

structure WorkflowDefinitionError where
  code : String
  message : List Fragment
deriving DecidableEq

/-- The exceptions a superstep can meet before its frontier is committed. -/
inductive EngineError
  | invalidStatePatch (code : String) (message : List Fragment)
  | stateMergeConflict (code : String) (message : List Fragment)
  | node (error : WorkflowNodeError)
  | keyError (key : String)
deriving DecidableEq

def stableId (parts : List String) : String := Sha256.hexdigest (join "|" parts)

variable (parts : List String)

theorem toList_stableId :
    (stableId parts).toList =
      Sha256.digestChars (List.intercalate ['|'] (parts.map String.toList)) := by
  rw [stableId, Sha256.toList_hexdigest, toList_join]
  rfl

theorem stableId_hex : ∀ c ∈ (stableId parts).toList, c ∈ Sha256.hexDigits :=
  Sha256.hexdigest_hex _

theorem stableId_solid : ∀ c ∈ (stableId parts).toList, isSpace c = false := by
  have digits : Sha256.hexDigits.all (fun c => !isSpace c) = true := by decide +kernel
  intro c hc
  simpa using List.all_eq_true.mp digits c (stableId_hex parts c hc)

end Workflow
