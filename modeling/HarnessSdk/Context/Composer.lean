import HarnessSdk.Context.Journal
import HarnessSdk.Library.Spans

/-! One model request from journal rows: whole units, required ones first, older ones while the
budget lasts, one summary for what was dropped. -/
namespace AgentContext
open Workflow (Json canonicalJson)
open PyDict PyText

inductive UnitKind
  | instructions
  | userInput
  | group
deriving DecidableEq

def unitKey (r : Record) : UnitKind × String :=
  match r.kind with
  | .instructions => (.instructions, "instructions")
  | .userInput => (.userInput, r.protocolGroupId)
  | _ => (.group, r.protocolGroupId)

/-- Rows with one key, next to each other in the order read; there is at least one. -/
structure ContextUnit where
  head : Record
  rest : List Record

namespace ContextUnit
variable (u : ContextUnit)

def records : List Record := u.head :: u.rest

def kind : UnitKind := (unitKey u.head).1

def turnId : Option String := u.head.turnId

def seqFrom : Nat := u.head.seq

def seqTo : Nat := (u.records.getLast (List.cons_ne_nil u.head u.rest)).seq

/-- A group without the assistant message that its rows answer. -/
def headless : Bool := decide (u.kind = .group ∧ u.head.kind ≠ .assistant)

end ContextUnit

def unitOf : List Record → Option ContextUnit
  | [] => none
  | r :: rest => some ⟨r, rest⟩

def visible (records : List Record) : List Record :=
  records.filter fun r => r.visibility = .context

/-- Chronological units; hidden rows never enter one, headless groups at the front are discarded. -/
def buildUnits (records : List Record) : List ContextUnit :=
  ((Spans.runs unitKey (visible records)).filterMap unitOf).dropWhile ContextUnit.headless

/-- A counter may keep a state, such as a cache. -/
abbrev Counter (σ : Type) := Record → σ → Nat × σ

section
variable {σ : Type} (count : Counter σ)

def tally : List Record → σ → Nat × σ
  | [], s => (0, s)
  | r :: rest, s =>
    let one := count r s
    let more := tally rest one.2
    (one.1 + more.1, more.2)

def probeContentHash : String := String.ofList (List.replicate 64 '0')

/-- The stand-in row under which a message outside the journal is counted. -/
def probe (m : Message) : Record where
  seq := 1
  appendId := "probe"
  kind := .feedback
  turnId := none
  protocolGroupId := "probe"
  message := m
  contentHash := probeContentHash
  visibility := .context
  fullRecordSeq := none

def countMessageTokens (m : Message) (s : σ) : Nat × σ := count (probe m) s

structure Summary where
  message : Message
  sourceHash : String

/-- The summary of the units that left the window, in the full or the compact form. -/
def structuralSummary (dropped : List ContextUnit) (compact : Bool) : Summary :=
  let turns := (dropped.filter fun u => u.kind = .userInput).length
  let groups := (dropped.filter fun u => u.kind = .group).length
  let seqFrom := (dropped.map ContextUnit.seqFrom).min?.getD 0
  let seqTo := (dropped.map ContextUnit.seqTo).max?.getD 0
  let sourceHash := Sha256.hexdigest
    (canonicalJson (.arr (dropped.flatMap fun u => u.records.map fun r => .str r.contentHash)))
  let text :=
    if compact then
      "[历史已折叠] seq " ++ toString seqFrom ++ "–" ++ toString seqTo ++
        " 已退出窗口，可用 session_history.read 回读。"
    else
      "[历史已折叠] 本会话更早的 " ++ toString turns ++ " 条用户输入与 " ++ toString groups ++
        " 个工具协议组（记录 seq " ++ toString seqFrom ++ "–" ++ toString seqTo ++
        "）已退出工作窗口；原文完整保存在会话 Journal，可用 session_history.read(seq) 精确回读。" ++
        "此摘要为结构性派生内容，不是执行状态或授权依据。"
  { message := {
      role := .system
      content := .text text
      metadata := [("derived", .bool true), ("source_seq_from", .int seqFrom),
        ("source_seq_to", .int seqTo), ("source_hash", .str sourceHash)] }
    sourceHash := sourceHash }

def currentInputIndex (body : List ContextUnit) : Option Nat :=
  ((body.zipIdx.filter fun place => place.1.kind = .userInput).map Prod.snd).max?

def keeps (body : List ContextUnit) (index : Nat) : Bool :=
  decide (index + 1 = body.length ∨ currentInputIndex body = some index)

section
variable (units : List ContextUnit)

def instructionsOf : List ContextUnit :=
  units.filter fun u => u.kind = .instructions

def bodyOf : List ContextUnit :=
  units.filter fun u => u.kind ≠ .instructions

def requiredUnits : List ContextUnit :=
  instructionsOf units ++
    ((bodyOf units).zipIdx.filter fun place => keeps (bodyOf units) place.2).map Prod.fst

def optionalUnits : List ContextUnit :=
  ((bodyOf units).zipIdx.filter fun place => !keeps (bodyOf units) place.2).map Prod.fst

end

structure Admission where
  used : Nat
  selected : List ContextUnit
  dropped : List ContextUnit

/-- Admit from the newest unit back; the first that does not fit is dropped with all older ones. -/
def admitUnits (room : Int) : List ContextUnit → Bool → Admission → σ → Admission × σ
  | [], _, a, s => (a, s)
  | u :: older, admitting, a, s =>
    let cost := tally count u.records s
    if admitting ∧ (a.used + cost.1 : Int) ≤ room then
      admitUnits room older true
        { a with
          used := a.used + cost.1
          selected := a.selected ++ [u] } cost.2
    else
      admitUnits room older false
        { a with
          dropped := a.dropped ++ [u] } cost.2

/-- Admit, then again with the count of the summary held back, until that count is covered. -/
def settle (budget : Int) (overBudget : Bool) (required : Admission) (newest : List ContextUnit) :
    Nat → Nat → Admission × Option Summary → σ → (Admission × Option Summary) × σ
  | 0, _, last, s => (last, s)
  | rounds + 1, reserve, _, s =>
    let round := admitUnits count (budget - reserve) newest (!overBudget) required s
    if round.1.dropped.isEmpty then ((round.1, none), round.2)
    else
      let summary := structuralSummary round.1.dropped false
      let needed := countMessageTokens count summary.message round.2
      if needed.1 ≤ reserve then ((round.1, some summary), needed.2)
      else settle budget overBudget required newest rounds needed.1 (round.1, some summary) needed.2

structure Pointer where
  summary : Option Message
  sourceHash : Option String
  tokens : Nat

def pointer (budget : Int) (overBudget : Bool) (a : Admission) :
    Option Summary → σ → Pointer × σ
  | none, s => (⟨none, none, 0⟩, s)
  | some full, s =>
    let needed := countMessageTokens count full.message s
    if budget < (a.used + needed.1 : Int) ∧ overBudget = false then
      let compact := structuralSummary a.dropped true
      let fewer := countMessageTokens count compact.message needed.2
      if (a.used + fewer.1 : Int) ≤ budget then
        (⟨some compact.message, some compact.sourceHash, fewer.1⟩, fewer.2)
      else (⟨none, some compact.sourceHash, 0⟩, fewer.2)
    else (⟨some full.message, some full.sourceHash, needed.1⟩, needed.2)

inductive Emitted
  | record (r : Record)
  | summary (m : Message)
  | recalled (m : Message)

def cutAt (sep : List Char) : List Char → Option (List Char × List Char)
  | [] => none
  | c :: rest =>
    if sep.isPrefixOf (c :: rest) then some ([], (c :: rest).drop sep.length)
    else (cutAt sep rest).map fun parts => (c :: parts.1, parts.2)

def afterLast (sep text : String) : String :=
  match cutAt sep.toList.reverse text.toList.reverse with
  | some parts => String.ofList parts.1.reverse
  | none => text

def digits (text : String) : Option Nat :=
  if text.toList ≠ [] ∧ text.toList.all Char.isDigit then
    some (text.toList.foldl (fun n c => 10 * n + (c.toNat - 48)) 0)
  else none

def turnOrdinal (protocolGroupId : String) : Option Nat :=
  digits (afterLast ":provider-turn:" protocolGroupId)

def messageOf (r : Record) : Message :=
  if r.kind = .assistant then
    match turnOrdinal r.protocolGroupId with
    | some ordinal =>
      { r.message with
        metadata := PyDict.set r.message.metadata "provider_turn_ordinal" (.int ordinal) }
    | none => r.message
  else r.message

def Emitted.message : Emitted → Message
  | .record r => messageOf r
  | .summary m => m
  | .recalled m => m

def droppedRanges (dropped : List ContextUnit) : List Spans.Span :=
  Spans.merge ((dropped.insertionSort fun u v => u.seqFrom ≤ v.seqFrom).map fun u =>
    (u.seqFrom, u.seqTo))

def recordsOf (units : List ContextUnit) : List Record := units.flatMap ContextUnit.records

structure Assembly where
  messages : List Emitted
  selectedSeqs : List Nat
  droppedRanges : List Spans.Span
  droppedUnits : List ContextUnit
  messageTokens : Nat
  requiredOverBudget : Bool
  summary : Option Message
  summarySourceHash : Option String
  requiredTokens : Nat

def layOut (ordered : List ContextUnit) (summary : Option Message) : List Emitted :=
  let lead := ordered.takeWhile fun u => u.kind = .instructions
  let body := ordered.dropWhile fun u => u.kind = .instructions
  (recordsOf lead).map Emitted.record ++ summary.toList.map Emitted.summary ++
    (recordsOf body).map Emitted.record

def assembled (a : Admission) (sent : Pointer) (overBudget : Bool) (requiredUsed : Nat) :
    Assembly :=
  let ordered := a.selected.insertionSort fun u v => u.seqFrom ≤ v.seqFrom
  { messages := layOut ordered sent.summary
    selectedSeqs := (recordsOf ordered).map Record.seq
    droppedRanges := droppedRanges a.dropped
    droppedUnits := a.dropped
    messageTokens := a.used + sent.tokens
    requiredOverBudget := overBudget
    summary := sent.summary
    summarySourceHash := sent.sourceHash
    requiredTokens := requiredUsed }

def emptyAssembly : Assembly where
  messages := []
  selectedSeqs := []
  droppedRanges := []
  droppedUnits := []
  messageTokens := 0
  requiredOverBudget := false
  summary := none
  summarySourceHash := none
  requiredTokens := 0

def assemble (units : List ContextUnit) (budget : Int) (s : σ) : Except String Assembly × σ :=
  if units.isEmpty then (.ok emptyAssembly, s)
  else
    let requiredUsed := tally count (recordsOf (requiredUnits units)) s
    let overBudget := decide (budget < requiredUsed.1)
    let required : Admission := ⟨requiredUsed.1, requiredUnits units, []⟩
    let settled := settle count budget overBudget required (optionalUnits units).reverse 4 0
      (required, none) requiredUsed.2
    let sent := pointer count budget overBudget settled.1.1 settled.1.2 settled.2
    if overBudget = false ∧ budget < (settled.1.1.used + sent.1.tokens : Int) then
      (.error "context assembly exceeded its budget", sent.2)
    else (.ok (assembled settled.1.1 sent.1 overBudget requiredUsed.1), sent.2)

end

end AgentContext
