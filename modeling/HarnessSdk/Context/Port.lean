import HarnessSdk.Context.Selection

/-! The context port of an agent: a bounded read of its journal, the assembly under the policy
budget, the recall beside it and the selection that is recorded. -/
namespace AgentContext
open Workflow (Json canonicalJson)
open PyDict PyText

structure ContextPolicy where
  maxInputTokens : Int
  maxTotalTokens : Option Int := none
  outputReserve : Int
  safetyMargin : Int
  maxToolResultTokens : Nat
  toolResultPreviewChars : Nat

def ContextPolicy.inputBudget (policy : ContextPolicy) : Int :=
  match policy.maxTotalTokens with
  | none => policy.maxInputTokens
  | some total =>
    min policy.maxInputTokens (total - policy.outputReserve - policy.safetyMargin)

structure ToolSpec where
  name : String
  description : String
  parameters : Json

structure ToolCallRow where
  rawCallId : String
  toolName : String
  arguments : Json

/-- What the execution ledger answers: the tool calls of a turn in call order, and the settled
response of a request, if it parses. -/
structure TurnLedger where
  toolCalls : Nat → List ToolCallRow
  response : String → Option (Option Json)

inductive CountKey
  | content (hash : String)
  | group (protocolGroupId : String)
  | reasoning (protocolGroupId : String)
deriving DecidableEq

abbrev Counts := Dict CountKey Nat

abbrev Recall := String → Int → List Nat → List Message

structure JournalContextPort where
  tokenizer : Tokenizer
  policy : ContextPolicy
  requestedPageSize : Int
  replayReasoning : Bool
  recallShare : Nat → Int

namespace JournalContextPort
variable (port : JournalContextPort)

def pageSize : Nat := (max 8 port.requestedPageSize).toNat

def callsText (rows : List ToolCallRow) : String :=
  canonicalJson (.arr (rows.map fun row => .obj [("id", .str row.rawCallId),
    ("name", .str row.toolName), ("arguments", row.arguments)]))

/-- Tokens of the tool calls that the wire restores; nothing is cached while there are none. -/
def toolCallsOverhead (ledger : TurnLedger) (r : Record) (counts : Counts) : Nat × Counts :=
  match get? counts (.group r.protocolGroupId) with
  | some cached => (cached, counts)
  | none =>
    match turnOrdinal r.protocolGroupId with
    | none => (0, counts)
    | some ordinal =>
      match ledger.toolCalls ordinal with
      | [] => (0, counts)
      | rows =>
        let overhead := port.tokenizer.countText (callsText rows)
        (overhead, PyDict.set counts (.group r.protocolGroupId) overhead)

def reasoningText : Option Json → Option String
  | some (.obj fields) =>
    match get? fields "continuation" with
    | some (.obj continuation) =>
      match get? continuation "reasoning_content" with
      | some (.str text) => if text != "" then some text else none
      | _ => none
    | _ => none
  | _ => none

def reasoningTokens (response : Option Json) : Nat :=
  match reasoningText response with
  | some text => port.tokenizer.countText text
  | none => 0

def reasoningOverhead (ledger : TurnLedger) (r : Record) (counts : Counts) : Nat × Counts :=
  match get? counts (.reasoning r.protocolGroupId) with
  | some cached => (cached, counts)
  | none =>
    match ledger.response r.protocolGroupId with
    | none => (0, counts)
    | some response =>
      let overhead := port.reasoningTokens response
      (overhead, PyDict.set counts (.reasoning r.protocolGroupId) overhead)

def contentCount (r : Record) (counts : Counts) : Nat × Counts :=
  match get? counts (.content r.contentHash) with
  | some cached => (cached, counts)
  | none =>
    let counted := countMessage port.tokenizer r.message
    (counted, PyDict.set counts (.content r.contentHash) counted)

/-- The cached counter of the port: an assistant row is charged what the wire restores for it. -/
def count (ledger : TurnLedger) : Counter Counts := fun r counts =>
  let content := port.contentCount r counts
  if r.kind = .assistant then
    let calls := port.toolCallsOverhead ledger r content.2
    if port.replayReasoning then
      let reasoning := port.reasoningOverhead ledger r calls.2
      (content.1 + calls.1 + reasoning.1, reasoning.2)
    else (content.1 + calls.1, calls.2)
  else content

def toolTokens (specs : List ToolSpec) : Nat :=
  let rendered := specs.map fun tool =>
    port.tokenizer.countText (canonicalJson (.obj [("name", .str tool.name),
      ("description", .str tool.description), ("parameters", tool.parameters)])) +
      TOOL_OVERHEAD_TOKENS
  rendered.sum + (if specs.isEmpty then 0 else port.tokenizer.margin.toNat)

end JournalContextPort

section
variable {σ : Type} (count : Counter σ)

/-- Pages from the newest row back, at least two, until their count exceeds the budget. -/
def readPages (page : Nat) (j : Journal) (available : Nat) :
    Nat → Nat → Nat → Nat → List Record → σ → (List Record × Nat) × σ
  | 0, toSeq, _, _, collected, s => ((collected, toSeq), s)
  | fuel + 1, toSeq, pages, used, collected, s =>
    if toSeq = 0 then ((collected, 0), s)
    else
      let fromSeq := max 1 (toSeq + 1 - page)
      let rows := j.read fromSeq toSeq
      let cost := tally count (visible rows) s
      if available < used + cost.1 ∧ 2 ≤ pages + 1 then ((rows ++ collected, fromSeq - 1), cost.2)
      else
        readPages page j available fuel (fromSeq - 1) (pages + 1) (used + cost.1)
          (rows ++ collected) cost.2

def bySeq (records : List Record) : List Record := records.insertionSort fun r t => r.seq ≤ t.seq

def instructionRows (j : Journal) : List Record :=
  (j.read 1 (min j.highwater 8)).filter fun r => r.kind = .instructions

/-- Extend the pages back to the start of the group that the oldest row belongs to. -/
def withGroupHead (j : Journal) : List Record → Nat → List Record
  | [], _ => []
  | oldest :: later, toSeq =>
    if 1 ≤ toSeq ∧ oldest.kind.inGroup then
      j.groupHead oldest.protocolGroupId oldest.seq ++ oldest :: later
    else oldest :: later

/-- The instruction rows among the first eight and the newest user input join what was collected. -/
def mergeRows (j : Journal) (collected : List Record) : List Record :=
  let covered := collected.map Record.seq
  let missing := (instructionRows j).filter fun r => r.seq ∉ covered
  let input := (j.latest .userInput).toList.filter fun r => r.seq ∉ covered
  bySeq (missing ++ collected ++ input)

def readBounded (page : Nat) (j : Journal) (available : Nat) (s : σ) : List Record × σ :=
  let instructions := tally count (instructionRows j) s
  let pages := readPages count page j available j.highwater j.highwater 0 instructions.1 []
    instructions.2
  (mergeRows j (withGroupHead j pages.1.1 pages.1.2), pages.2)

def currentInput (units : List ContextUnit) : Option ContextUnit :=
  units.reverse.find? fun u => u.kind = .userInput

/-- Recalled messages stand right behind the leading system messages. -/
def splice (messages : List Emitted) (recalled : List Message) : List Emitted :=
  let lead := messages.takeWhile fun m => m.message.role = .system
  let body := messages.dropWhile fun m => m.message.role = .system
  lead ++ recalled.map Emitted.recalled ++ body

structure Prepared where
  assembly : Assembly
  messages : List Emitted
  currentTurn : Option String
  query : Option String
  recalled : List Message
  recallTokens : Nat

def JournalContextPort.recallCap (port : JournalContextPort) (available : Nat)
    (assembly : Assembly) : Int :=
  if assembly.requiredOverBudget then 0
  else min (port.recallShare available) (max 0 ((available : Int) - assembly.requiredTokens))

/-- The recall, where there is room for it, a question to ask and an answer. -/
def JournalContextPort.recalls (port : JournalContextPort) (recaller : Option Recall)
    (available : Nat) (units : List ContextUnit) (assembly : Assembly) :
    Option (String × List Message) :=
  match recaller with
  | none => none
  | some ask =>
    let cap := port.recallCap available assembly
    let query := match currentInput units with
      | none => ""
      | some u => join "\n" (u.records.map fun r => r.message.content.rendered)
    if 0 < cap ∧ strip query ≠ "" then
      match ask query cap assembly.selectedSeqs with
      | [] => none
      | recalled => some (strip query, recalled)
    else none

def JournalContextPort.assembleContext (port : JournalContextPort) (j : Journal)
    (available : Nat) (recaller : Option Recall) (s : σ) : Except String Prepared × σ :=
  let read := readBounded count port.pageSize j available s
  let units := buildUnits read.1
  let first := assemble count units available read.2
  let turn := (currentInput units).bind ContextUnit.turnId
  match first.1 with
  | .error e => (.error e, first.2)
  | .ok assembly =>
    match port.recalls recaller available units assembly with
    | none => (.ok ⟨assembly, assembly.messages, turn, none, [], 0⟩, first.2)
    | some (query, recalled) =>
      let tokens := (recalled.map (countMessage port.tokenizer)).sum
      let second := assemble count units ((available : Int) - tokens) first.2
      match second.1 with
      | .error e => (.error e, second.2)
      | .ok assembly =>
        (.ok ⟨assembly, splice assembly.messages recalled, turn, some query, recalled, tokens⟩,
          second.2)

end

/-- What a selection is identified by. The payload digest names the recalled messages, each by its
JSON and the text it renders to. -/
structure SelectionKey where
  revision : Nat
  seqs : List Nat
  dropped : List Spans.Span
  tools : Nat
  recallQuery : Option String
  recallPayload : Option (List (String × String))
deriving DecidableEq

structure Selection where
  turnId : Option String
  revision : Nat
  selectedSeqs : List Nat
  droppedRanges : List Spans.Span
  requiredOverBudget : Bool
  messageTokens : Nat
  toolTokens : Nat
  budgetTokens : Int
  query : Option String

/-- The count cache of a port, and the selections recorded for its agent. -/
structure PortState where
  counts : Counts
  selections : Dict SelectionKey Selection

def PortState.fresh : PortState := ⟨[], []⟩

/-- What a load meets: the journal and the ledger as they are, the tools of the run, the memory
that answers recalls, and whether the request at this revision is already frozen. -/
structure Load where
  journal : Journal
  ledger : TurnLedger
  tools : List ToolSpec
  recaller : Option Recall
  frozen : Bool

structure Loaded where
  revision : Nat
  prepared : Option Prepared
  selection : Option Selection

namespace JournalContextPort
variable (port : JournalContextPort)

def available (x : Load) : Nat := (port.policy.inputBudget - port.toolTokens x.tools).toNat

section
variable (x : Load) (prepared : Prepared)

def selectionKey : SelectionKey where
  revision := x.journal.highwater
  seqs := prepared.assembly.selectedSeqs
  dropped := prepared.assembly.droppedRanges
  tools := port.toolTokens x.tools
  recallQuery := prepared.query
  recallPayload := prepared.query.map fun _ =>
    prepared.recalled.map fun m => (canonicalJson m.toJson, messageText m)

def selectionOf : Selection where
  turnId := prepared.currentTurn
  revision := x.journal.highwater
  selectedSeqs := prepared.assembly.selectedSeqs
  droppedRanges := prepared.assembly.droppedRanges
  requiredOverBudget := prepared.assembly.requiredOverBudget
  messageTokens := prepared.assembly.messageTokens
  toolTokens := port.toolTokens x.tools
  budgetTokens := port.policy.inputBudget
  query := prepared.query

def record (selections : Dict SelectionKey Selection) :
    Selection × Dict SelectionKey Selection :=
  let key := port.selectionKey x prepared
  match get? selections key with
  | some stored => (stored, selections)
  | none => (port.selectionOf x prepared, PyDict.set selections key (port.selectionOf x prepared))

end

/-- Load the context: a frozen request is assembled again without recall or recording. -/
def load (x : Load) (state : PortState) : Except String Loaded × PortState :=
  if x.journal.highwater = 0 then (.ok ⟨0, none, none⟩, state)
  else
    let run := port.assembleContext (port.count x.ledger) x.journal (port.available x)
      (if x.frozen then none else x.recaller) state.counts
    match run.1 with
    | .error e => (.error e, ⟨run.2, state.selections⟩)
    | .ok prepared =>
      if x.frozen then
        (.ok ⟨x.journal.highwater, some prepared, none⟩, ⟨run.2, state.selections⟩)
      else
        let stored := port.record x prepared state.selections
        (.ok ⟨x.journal.highwater, some prepared, some stored.1⟩, ⟨run.2, stored.2⟩)

end JournalContextPort

end AgentContext
