import HarnessSdk.Catalogue.Exposure
import HarnessSdk.Library.Numerals

/-! The read view: bounded pages of summaries, with a cursor that is bound to the epoch. -/
namespace Catalogue
open Checks PyDict PyText

def pageItemsMax : Nat := 64

def pageBytesMax : Nat := 65536

inductive AccessView
  | model
  | management
deriving DecidableEq

structure CatalogueSummary where
  kind : EntryKind
  definitionRef : Pin
  name : String
  description : String
  state : LifecycleState
  stateRevision : Nat
  currentUsable : Bool
  reasonCodes : List String
  registryEpoch : Nat
  fileCount : Nat
  totalPayloadBytes : Nat
  detailRef : Pin
  accessView : AccessView
deriving DecidableEq

/-- The schema of a summary, as far as its parts are not checked where they are made. -/
def CatalogueSummary.Valid (item : CatalogueSummary) : Prop :=
  item.kind ∈ [EntryKind.capability, .provider, .tool, .skill] ∧
    (1 ≤ item.name.length ∧ item.name.length ≤ 128) ∧
    (1 ≤ item.description.length ∧ item.description.length ≤ 2048) ∧
    item.reasonCodes.length ≤ 16 ∧
    ∀ reason ∈ item.reasonCodes, 1 ≤ reason.length ∧ reason.length ≤ 256

instance (item : CatalogueSummary) : Decidable item.Valid :=
  inferInstanceAs (Decidable (_ ∧ _))

def orElse (first : Option String) (otherwise : String) : String :=
  match first with
  | none => otherwise
  | some text => if text = "" then otherwise else text

def cut (text : String) (length : Nat) : String := String.ofList (text.toList.take length)

namespace Registry

def summary (registry : Registry) (row : RevisionRow) (activation : ActivationRow)
    (accessView : AccessView) (nowMs : Nat) : Except Raised CatalogueSummary := do
  let reasons := registry.reasons activation nowMs
  let body := row.body
  let name := cut (orElse body.name (orElse body.toolId (orElse body.providerId
    (orElse body.capabilityId row.entryId)))) 128
  let described := cut (orElse body.description (row.entryKind.pinKind ++ " " ++ row.entryId)) 2048
  let files := if row.entryKind = .skill then body.fileSizes else []
  let item : CatalogueSummary := {
    kind := row.entryKind
    definitionRef := row.pin
    name
    description := orElse (some described) row.entryId
    state := activation.state
    stateRevision := activation.rowVersion
    currentUsable := reasons.isEmpty
    reasonCodes := reasons.take 16
    registryEpoch := registry.epoch
    fileCount := files.length
    totalPayloadBytes := files.sum
    detailRef := row.pin
    accessView }
  require item.Valid (.arp "SCHEMA")
  .ok item

end Registry

structure CataloguePage where
  namespaceId : String
  registryEpoch : Nat
  items : List CatalogueSummary
  hasMore : Bool
  nextCursor : Option String
  accessView : AccessView
  bodyBytes : Nat
deriving DecidableEq

/-- The length of the canonical text, and the decimal digits beyond ASCII. -/
structure Host where
  canonicalLength : CataloguePage → Nat
  decimal : Char → Option Nat

/-- `_page`: the size is written until it is its own. -/
def measured (host : Host) (page : CataloguePage) : Nat → CataloguePage
  | 0 => page
  | rounds + 1 =>
    let size := host.canonicalLength page
    if size = page.bodyBytes then page
    else measured host { page with bodyBytes := size } rounds

structure ReadCommand where
  namespaceId : String
  kind : EntryKind
  cursor : Option String
  limit : Nat
  accessView : AccessView
  nowMs : Nat
deriving DecidableEq

def cursorText (epoch : Nat) (index : Int) : String := toString epoch ++ ":" ++ toString index

def splitColon (text : String) : Option (String × String) :=
  if ':' ∈ text.toList then some (splitOnce ':' text) else none

/-- Only the offset is read where a `ValueError` is caught. -/
def cursorOffset (host : Host) (epoch : Nat) (cursor : String) : Except Raised Int :=
  match splitColon cursor with
  | none => .error (.arp "CURSOR_UNKNOWN")
  | some (cursorEpoch, offsetText) =>
    match pyInt host.decimal offsetText with
    | none => .error (.arp "CURSOR_UNKNOWN")
    | some offset =>
      match pyInt host.decimal cursorEpoch with
      | none => .error (.other "ValueError")
      | some stated =>
        if stated ≠ epoch then .error (.arp "CATALOGUE_STALE") else .ok offset

def startOf (host : Host) (epoch : Nat) : Option String → Except Raised Int
  | none => .ok 0
  | some cursor => cursorOffset host epoch cursor

/-- `entries[index]`: a negative index counts from the end. -/
def pyIndex {α : Type} (entries : List α) (index : Int) : Option α :=
  if 0 ≤ index then entries[index.toNat]?
  else if 0 ≤ entries.length + index then entries[(entries.length + index).toNat]?
  else none

namespace Service
variable (service : Service) (host : Host)

def pageOf (registry : Registry) (command : ReadCommand) (items : List CatalogueSummary)
    (hasMore : Bool) (nextCursor : Option String) : CataloguePage :=
  measured host {
    namespaceId := service.namespaceId
    registryEpoch := registry.epoch
    items
    hasMore
    nextCursor
    accessView := command.accessView
    bodyBytes := 0 } 4

/-- The loop of `page`; the first argument bounds its turns. -/
def fillPage (registry : Registry) (command : ReadCommand) (entries : List RevisionRow) :
    Nat → Int → List CatalogueSummary → Except Raised (List CatalogueSummary × Int)
  | 0, index, items => .ok (items, index)
  | turns + 1, index, items =>
    if index < entries.length ∧ items.length < min command.limit pageItemsMax then
      match pyIndex entries index with
      | none => .error (.other "IndexError")
      | some row =>
        match registry.readActivation row.entryKind row.entryId row.revision with
        | none => fillPage registry command entries turns (index + 1) items
        | some activation => do
          let candidate ← registry.summary row activation command.accessView command.nowMs
          let page := service.pageOf host registry command (items ++ [candidate]) true
            (some (cursorText registry.epoch (index + 1)))
          if pageBytesMax < page.bodyBytes then
            if items = [] then .error (.arp "ITEM_TOO_LARGE") else .ok (items, index)
          else fillPage registry command entries turns (index + 1) (items ++ [candidate])
    else .ok (items, index)

def CursorFits (cursor : String) : Prop := 1 ≤ cursor.length ∧ cursor.length ≤ 256

instance (cursor : String) : Decidable (CursorFits cursor) := inferInstanceAs (Decidable (_ ∧ _))

/-- `CatalogueService.page`: the command's schema comes first. The service's own namespace passes
it, and no other is served. -/
def page (registry : Registry) (command : ReadCommand) : Except Raised CataloguePage := do
  require (command.kind ∈ [EntryKind.capability, .provider, .tool, .skill]) (.arp "ENUM")
  require (∀ cursor ∈ command.cursor, CursorFits cursor) (.arp "UNION_MISMATCH")
  require (1 ≤ command.limit ∧ command.limit ≤ 64) (.arp "NUMBER_LIMIT")
  require (command.namespaceId = service.namespaceId) (.arp "REF_OUTSIDE_SCOPE")
  let offset ← startOf host registry.epoch command.cursor
  let entries := registry.listLatest command.kind
  let (items, index) ←
    service.fillPage host registry command entries (entries.length - offset).toNat offset []
  let hasMore := decide (index < entries.length)
  .ok (service.pageOf host registry command items hasMore
    (if hasMore then some (cursorText registry.epoch index) else none))

end Service

end Catalogue
