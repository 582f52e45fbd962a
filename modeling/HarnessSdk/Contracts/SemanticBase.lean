import HarnessSdk.Workflow.Json
import HarnessSdk.Library.Checks

/-! The boundary validators every contract shares, and values that cannot be built without passing
them. -/
namespace Contracts
open PyDict PyText Checks Workflow

abbrev Message := List Fragment

def maxId : Nat := 512

def maxText : Nat := 20000

def maxList : Nat := 256

def maxJsonInt : Nat := 9007199254740991

def isControl (c : Char) : Bool :=
  let n := c.toNat
  n ≤ 8 || n = 11 || n = 12 || (14 ≤ n && n ≤ 31) || n = 127

def identifierOk (s : String) : Bool :=
  strip s ≠ "" && s.length ≤ maxId && !s.toList.any isControl

structure Identifier where
  text : String
  wellFormed : identifierOk text = true := by decide
deriving DecidableEq

def textOk (s : String) : Bool := strip s ≠ "" && s.length ≤ maxText

structure BoundedText where
  text : String
  wellFormed : textOk text = true := by decide
deriving DecidableEq

def hashOk (s : String) : Bool := s.length = 64 && s.toList.all (· ∈ Sha256.hexDigits)

structure HashHex where
  text : String
  wellFormed : hashOk text = true
deriving DecidableEq

/-- A revision or counter of at least `least`. -/
structure Counter (least : Nat) where
  number : Nat
  atLeast : least ≤ number := by decide
  safe : number ≤ maxJsonInt := by decide
deriving DecidableEq

def blankRefusal (s : String) (limit : Nat) : String :=
  if strip s = "" then " must not be blank"
  else s!" exceeds {limit} characters"

def identifier (value : Json) (name : String) : Except Message Identifier :=
  match value with
  | .str s =>
    if ok : identifierOk s = true then .ok ⟨s, ok⟩
    else if strip s = "" ∨ maxId < s.length then .error [.text (name ++ blankRefusal s maxId)]
    else .error [.text (name ++ " must not contain control characters")]
  | _ => .error [.text (name ++ " must be a string")]

def optionalIdentifier (value : Json) (name : String) : Except Message (Option Identifier) :=
  match value with
  | .null => .ok none
  | _ => (identifier value name).map some

def text (value : Json) (name : String) : Except Message BoundedText :=
  match value with
  | .str s =>
    if ok : textOk s = true then .ok ⟨s, ok⟩
    else .error [.text (name ++ blankRefusal s maxText)]
  | _ => .error [.text (name ++ " must be a string")]

def hashHex (value : Json) (name : String) : Except Message HashHex :=
  let refusal := [.text (name ++ " must be a lowercase SHA-256 hex digest")]
  match value with
  | .str s => if ok : hashOk s = true then .ok ⟨s, ok⟩ else .error refusal
  | _ => .error refusal

def index (least : Nat) (value : Json) (name : String) : Except Message (Counter least) :=
  match value with
  | .int (.ofNat n) =>
    if low : least ≤ n then
      if high : n ≤ maxJsonInt then .ok ⟨n, low, high⟩
      else .error [.text (name ++ " exceeds the safe JSON integer range")]
    else .error [.text (name ++ s!" must be >= {least}")]
  | .int (.negSucc _) => .error [.text (name ++ s!" must be >= {least}")]
  | _ => .error [.text (name ++ " must be an integer")]

def flag (value : Json) (name : String) : Except Message Bool :=
  match value with
  | .bool b => .ok b
  | _ => .error [.text (name ++ " must be a boolean")]

def listText (items : List String) : Message :=
  .text "[" :: (items.map Fragment.repr).intersperse (.text ", ") ++ [.text "]"]

def enumOf {α : Type} (members : List (String × α)) (value : Json) (name : String) :
    Except Message α :=
  match value with
  | .str s =>
    match get? members s with
    | some member => .ok member
    | none => .error (.text (name ++ " must be one of ") :: listText (sorted (keys members)))
  | _ => .error [.text (name ++ " must be a string")]

/-- Strict object decoding: every required key present, no unknown key tolerated. -/
def fieldsOf (value : Json) (name : String) (required optional : List String) :
    Except Message (Dict String Json) :=
  match value with
  | .obj fields =>
    let missing := required.filter (· ∉ keys fields)
    let unknown := (keys fields).filter fun key => key ∉ required ∧ key ∉ optional
    if missing ≠ [] then
      .error (.text (name ++ " is missing required fields: ") :: listText (sorted missing))
    else if unknown ≠ [] then
      .error (.text (name ++ " has unknown fields: ") :: listText (sorted unknown))
    else .ok fields
  | _ => .error [.text (name ++ " must be an object")]

def field (data : Dict String Json) (key : String) : Json := (get? data key).getD .null

def codeMarkers : List String :=
  ["eval(", "exec(", "lambda ", "__import__", "import os", "subprocess", "select ", "insert into",
    "update ", "delete from", "drop table", "union all", "--;"]

/-- A code point in lower case, as far as ASCII goes. -/
def lowerCode (n : Nat) : Nat := bif Nat.ble 65 n && Nat.ble n 90 then n + 32 else n

def standsIn (needle : List Nat) : List Nat → Bool
  | [] => needle.isEmpty
  | c :: rest => needle.isPrefixOf (c :: rest) || standsIn needle rest

/-- `any(marker in text.lower() for marker in markers)`: no character beyond ASCII has a lower case
that could complete a marker in use. -/
def marked (markers : List String) (text : List Char) : Bool :=
  markers.any fun marker =>
    standsIn (marker.toList.map Char.toNat) (text.map fun c => lowerCode c.toNat)

def looksLikeCode (value : String) : Bool := marked codeMarkers (stripChars value.toList)

def executableRefusal (name : String) : Message :=
  [.text (name ++ " must not contain executable code or a query fragment")]

mutual
def rejectExecutable : Json → String → Except Message Unit
  | .str s, name => if looksLikeCode s then .error (executableRefusal name) else .ok ()
  | .arr items, name => rejectItems items (name ++ "[]")
  | .obj fields, name => rejectFields fields name
  | _, _ => .ok ()

def rejectItems : List Json → String → Except Message Unit
  | [], _ => .ok ()
  | item :: rest, name => do
    rejectExecutable item name
    rejectItems rest name

def rejectFields : List (String × Json) → String → Except Message Unit
  | [], _ => .ok ()
  | field :: rest, name => do
    if looksLikeCode field.1 then .error (executableRefusal (name ++ ".key")) else .ok ()
    rejectExecutable field.2 (name ++ "." ++ field.1)
    rejectFields rest name
end

mutual
/-- `json_value` accepts the nesting: the value stands at most 32 levels deep. -/
def nestsWithin : Nat → Json → Bool
  | levels + 1, .arr items => itemsNestWithin levels items
  | levels + 1, .obj fields => fieldsNestWithin levels fields
  | 0, .arr items => items.isEmpty
  | 0, .obj fields => fields.isEmpty
  | _, _ => true

def itemsNestWithin : Nat → List Json → Bool
  | _, [] => true
  | levels, item :: rest => nestsWithin levels item && itemsNestWithin levels rest

def fieldsNestWithin : Nat → List (String × Json) → Bool
  | _, [] => true
  | levels, field :: rest => nestsWithin levels field.2 && fieldsNestWithin levels rest
end

/-- `sequence_of`, where each entry may spend from a shared budget. -/
def sequenceWith {α : Type} (item : Json → String → Nat → Except Message (α × Nat))
    (name : String) : Nat → List Json → Nat → Except Message (List α × Nat)
  | _, [], budget => .ok ([], budget)
  | position, entry :: rest, budget => do
    let (first, budget) ← item entry s!"{name}[{position}]" budget
    let (later, budget) ← sequenceWith item name (position + 1) rest budget
    .ok (first :: later, budget)

def checkLength {α : Type} (name : String) (minimum : Nat) (items : List α) :
    Except Message Unit :=
  if items.length < minimum then .error [.text (name ++ s!" must have at least {minimum} entries")]
  else if maxList < items.length then
    .error [.text (name ++ s!" has more than {maxList} entries")]
  else .ok ()

def sequenceOf {α : Type} (value : Json) (name : String)
    (item : Json → String → Nat → Except Message (α × Nat)) (minimum budget : Nat) :
    Except Message (List α × Nat) :=
  match value with
  | .arr entries => do
    let (items, budget) ← sequenceWith item name 0 entries budget
    checkLength name minimum items
    .ok (items, budget)
  | _ => .error [.text (name ++ " must be a list")]

def free {α : Type} (item : Json → String → Except Message α) (value : Json) (name : String)
    (budget : Nat) : Except Message (α × Nat) :=
  (item value name).map (·, budget)

def tupleOf : Json → Except Message (List Json)
  | .arr items => .ok items
  | .str s => .ok (s.toList.map fun c => .str (String.ofList [c]))
  | .obj fields => .ok (fields.map fun field => .str field.1)
  | _ => .error [.text "object is not iterable"]

structure Identifiers where
  items : List Identifier := []
  distinct : items.Nodup := by first | exact List.nodup_nil | decide
  bounded : items.length ≤ maxList := by first | exact Nat.zero_le _ | decide
deriving DecidableEq

def identifiers (entries : List Json) (name : String) : Except Message Identifiers := do
  let (items, _) ← sequenceWith (free identifier) name 0 entries 0
  if short : items.length ≤ maxList then
    if distinct : items.Nodup then .ok ⟨items, distinct, short⟩
    else .error [.text (name ++ " must not contain duplicates")]
  else .error [.text (name ++ s!" has more than {maxList} entries")]

def Identifiers.toJson (ids : Identifiers) : Json := .arr (ids.items.map fun id => .str id.text)

structure VersionedRef where
  id : Identifier
  version : Counter 1
  contentHash : HashHex
deriving DecidableEq

def VersionedRef.toJson (ref : VersionedRef) : Json :=
  .obj [("id", .str ref.id.text), ("version", .int ref.version.number),
    ("content_hash", .str ref.contentHash.text)]

def VersionedRef.fromJson (value : Json) (name : String) : Except Message VersionedRef := do
  let data ← fieldsOf value name ["id", "version", "content_hash"] []
  let id ← identifier (field data "id") "versioned_ref.id"
  let version ← index 1 (field data "version") "versioned_ref.version"
  let contentHash ← hashHex (field data "content_hash") "versioned_ref.content_hash"
  .ok ⟨id, version, contentHash⟩

inductive Provenance
  | system
  | tool
  | model
  | human
deriving DecidableEq

def Provenance.members : List (String × Provenance) :=
  [("system", .system), ("tool", .tool), ("model", .model), ("human", .human)]

inductive EvidenceRefKind
  | observation
  | toolReceipt
  | artifact
  | knowledge
  | review
  | source
  | operation
deriving DecidableEq

def EvidenceRefKind.members : List (String × EvidenceRefKind) :=
  [("observation", .observation), ("tool_receipt", .toolReceipt), ("artifact", .artifact),
    ("knowledge", .knowledge), ("review", .review), ("source", .source), ("operation", .operation)]

def memberText {α : Type} [DecidableEq α] (members : List (String × α)) (member : α) : String :=
  ((members.find? (·.2 = member)).map Prod.fst).getD ""

structure EvidenceRef where
  kind : EvidenceRefKind
  id : Identifier
  revision : Counter 0
  contentHash : HashHex
  producedBy : Option Provenance := none
deriving DecidableEq

def EvidenceRef.toJson (ref : EvidenceRef) : Json :=
  .obj ([("kind", .str (memberText EvidenceRefKind.members ref.kind)), ("id", .str ref.id.text),
    ("revision", .int ref.revision.number), ("content_hash", .str ref.contentHash.text)] ++
    match ref.producedBy with
    | none => []
    | some who => [("produced_by", .str (memberText Provenance.members who))])

/-- `None if raw is None else decode(raw)`, where an absent key reads as null. -/
def optionally {α : Type} (decode : Json → String → Except Message α) (value : Json)
    (name : String) : Except Message (Option α) :=
  match value with
  | .null => .ok none
  | _ => (decode value name).map some

def EvidenceRef.fromJson (value : Json) (name : String) : Except Message EvidenceRef := do
  let data ← fieldsOf value name ["kind", "id", "revision", "content_hash"] ["produced_by"]
  let kind ← enumOf EvidenceRefKind.members (field data "kind") "evidence_ref.kind"
  let id ← identifier (field data "id") "evidence_ref.id"
  let revision ← index 0 (field data "revision") "evidence_ref.revision"
  let contentHash ← hashHex (field data "content_hash") "evidence_ref.content_hash"
  let producedBy ← optionally (enumOf Provenance.members) (field data "produced_by")
    "evidence_ref.produced_by"
  .ok ⟨kind, id, revision, contentHash, producedBy⟩

end Contracts
