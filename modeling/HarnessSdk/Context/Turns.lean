import HarnessSdk.Context.Capture
import HarnessSdk.Library.Transitions

/-! How an agent writes its journal: inputs, and the provider turns of the loop with the calls that
the effect ledger takes and the results that are appended, each append under its own id. -/
namespace AgentContext
open PyDict PyText

inductive AppendId
  | instructions
  | user (name : String)
  | assistant (ordinal : Nat)
  | result (ordinal : Nat) (call : String) (callOrdinal : Nat)
  | mandatoryFeedback (ordinal : Nat)
deriving DecidableEq

structure AgentHost where
  runId : String
  contentHash : Message → String
  large : Message → Bool
  preview : Message → Nat → MessageContent

namespace AgentHost
variable (host : AgentHost)

def providerTurn (ordinal : Nat) : String := host.runId ++ ":provider-turn:" ++ toString ordinal

def appendText : AppendId → String
  | .instructions => host.runId ++ ":context:instructions"
  | .user name => name ++ ":context:user"
  | .assistant ordinal => host.providerTurn ordinal ++ ":assistant"
  | .result ordinal call callOrdinal =>
    host.runId ++ ":turn:" ++ toString ordinal ++ ":raw-call:" ++ call ++ ":ordinal:" ++
      toString callOrdinal ++ ":context"
  | .mandatoryFeedback ordinal => host.providerTurn ordinal ++ ":mandatory-context-feedback"

def classify (appendId : AppendId) : Kind × Option String × String :=
  match appendId with
  | .instructions => (.instructions, none, "instructions")
  | .user name =>
    if occursIn ":input:" (host.appendText appendId) then
      (.userInput, some name, host.appendText appendId)
    else (.feedback, none, host.appendText appendId)
  | .assistant ordinal => (.assistant, none, host.providerTurn ordinal)
  | .result ordinal _ _ => (.toolResult, none, host.providerTurn ordinal)
  | .mandatoryFeedback ordinal => (.feedback, none, host.providerTurn ordinal)

end AgentHost

structure Entry where
  kind : Kind
  turnId : Option String
  protocolGroupId : String
  message : Message
  visibility : Visibility
  fullRecordOffset : Option Nat
  hidden : visibility = .journalOnly → kind = .toolResult

def Entry.record (hash : Message → String) (appendText : String) (start : Nat) (e : Entry)
    (offset : Nat) : Record where
  seq := start + 1 + offset
  appendId := appendText
  kind := e.kind
  turnId := e.turnId
  protocolGroupId := e.protocolGroupId
  message := e.message
  contentHash := hash e.message
  visibility := e.visibility
  fullRecordSeq := e.fullRecordOffset.map (start + 1 + ·)

def numberedFrom (hash : Message → String) (appendText : String) (start : Nat)
    (entries : List Entry) : List Record :=
  entries.zipIdx.map fun entry => entry.1.record hash appendText start entry.2

def Journal.append (j : Journal) (hash : Message → String) (appendText : String)
    (entries : List Entry) : Journal where
  rows := j.rows ++ numberedFrom hash appendText j.rows.length entries
  numbered := by
    have seqs : (numberedFrom hash appendText j.rows.length entries).map Record.seq =
        List.range' (j.rows.length + 1) entries.length := by
      have indices : entries.zipIdx.map Prod.snd = List.range' 0 entries.length :=
        List.zipIdx_map_snd 0 entries
      have moved : (numberedFrom hash appendText j.rows.length entries).map Record.seq =
          (entries.zipIdx.map Prod.snd).map (j.rows.length + 1 + ·) := by
        rw [numberedFrom, List.map_map, List.map_map]
        rfl
      rw [moved, indices, List.map_add_range']
    have length : (numberedFrom hash appendText j.rows.length entries).length = entries.length := by
      simp [numberedFrom]
    rw [List.map_append, j.numbered, seqs, List.length_append, length, Nat.add_comm j.rows.length 1]
    exact List.range'_append_1 ..
  hidden := by
    intro r inside look
    rcases List.mem_append.mp inside with old | new
    · exact j.hidden r old look
    · obtain ⟨entry, _, rfl⟩ := List.mem_map.mp new
      exact entry.1.hidden look

inductive Phase
  | ready
  | providerReserved
  /-- The response is reserved: its calls, and how many results are counted. -/
  | responseReserved (calls : List String) (progress : Nat)
  | contextActionReserved
deriving DecidableEq

structure AgentState where
  journal : Journal
  appends : List AppendId
  effects : List EffectRow
  ended : List String
  /-- `provider_turns_reserved_total` -/
  ordinal : Nat
  phase : Phase

def AgentState.start : AgentState := ⟨.empty, [], [], [], 0, .ready⟩

inductive Event
  | instructions (messages : List Message)
  | user (name : String) (message : Message)
  | reserve
  | respond (calls : List String)
  | assistant (message : Message)
  /-- The effect of the call in hand is prepared. -/
  | effect
  | result (name : String) (content : MessageContent)
  | advance
  /-- A mandatory context action is missing: a repair is reserved. -/
  | repair
  | feedback (message : Message)
  | repaired
  | finish
  /-- The turn is given up. -/
  | settle
  | turnEnded (turnId : String)

namespace AgentState
variable (host : AgentHost) (s : AgentState)

/-- An id that is known changes nothing: a replay, or a conflict. -/
def append (appendId : AppendId) (entries : List Entry) : AgentState :=
  if appendId ∈ s.appends then s
  else { s with
    journal := s.journal.append host.contentHash (host.appendText appendId) entries
    appends := s.appends ++ [appendId] }

def shown (appendId : AppendId) (message : Message) : Entry where
  kind := (host.classify appendId).1
  turnId := (host.classify appendId).2.1
  protocolGroupId := (host.classify appendId).2.2
  message
  visibility := .context
  fullRecordOffset := none
  hidden := by simp

def previewOf (message : Message) (fullSeq : Nat) : Message :=
  { message with
    content := host.preview message fullSeq
    metadata := set message.metadata "journal_full_record_seq" (.int fullSeq) }

def resultEntries (ordinal : Nat) (call : String) (callOrdinal : Nat) (message : Message) :
    List Entry :=
  let appendId := AppendId.result ordinal call callOrdinal
  if host.large message then
    [{ shown host appendId message with visibility := .journalOnly, hidden := fun _ => rfl },
      { shown host appendId (previewOf host message (s.journal.rows.length + 1)) with
        fullRecordOffset := some 0 }]
  else [shown host appendId message]

def step (e : Event) : AgentState :=
  match e with
  | .instructions messages =>
    if s.journal.rows = [] then
      s.append host .instructions (messages.map (shown host .instructions))
    else s
  | .user name message => s.append host (.user name) [shown host (.user name) message]
  | .reserve =>
    if s.phase = .ready then { s with ordinal := s.ordinal + 1, phase := .providerReserved } else s
  | .respond calls =>
    if s.phase = .providerReserved ∧ calls.Nodup ∧ ∀ c ∈ calls, c ≠ "" then
      { s with phase := .responseReserved calls 0 }
    else s
  | .assistant message =>
    match s.phase with
    | .responseReserved _ _ =>
      s.append host (.assistant s.ordinal) [shown host (.assistant s.ordinal) message]
    | _ => s
  | .effect =>
    match s.phase with
    | .responseReserved calls progress =>
      match calls[progress]? with
      | some call =>
        if .assistant s.ordinal ∈ s.appends ∧ ⟨s.ordinal, progress, call⟩ ∉ s.effects then
          { s with effects := s.effects ++ [⟨s.ordinal, progress, call⟩] }
        else s
      | none => s
    | _ => s
  | .result name content =>
    match s.phase with
    | .responseReserved calls progress =>
      match calls[progress]? with
      | some call =>
        if .assistant s.ordinal ∈ s.appends then
          s.append host (.result s.ordinal call progress)
            (s.resultEntries host s.ordinal call progress
              ⟨.tool, content, some name, some call, []⟩)
        else s
      | none => s
    | _ => s
  | .advance =>
    match s.phase with
    | .responseReserved calls progress =>
      match calls[progress]? with
      | some call =>
        if .result s.ordinal call progress ∈ s.appends then
          { s with phase := .responseReserved calls (progress + 1) }
        else s
      | none => s
    | _ => s
  | .repair =>
    if s.phase = .responseReserved [] 0 then { s with phase := .contextActionReserved } else s
  | .feedback message =>
    if s.phase = .contextActionReserved then
      s.append host (.mandatoryFeedback s.ordinal)
        [shown host (.mandatoryFeedback s.ordinal) message]
    else s
  | .repaired =>
    if s.phase = .contextActionReserved ∧ .mandatoryFeedback s.ordinal ∈ s.appends then
      { s with phase := .ready }
    else s
  | .finish =>
    match s.phase with
    | .responseReserved calls progress =>
      if progress = calls.length ∧ .assistant s.ordinal ∈ s.appends then { s with phase := .ready }
      else s
    | _ => s
  | .settle => { s with phase := .ready }
  | .turnEnded turnId => { s with ended := s.ended ++ [turnId] }

abbrev run (s : AgentState) (events : List Event) : AgentState :=
  Transitions.run (step host) s events

def source (host : AgentHost) (sessionId : String) (digest : List (String × String) → String)
    (charge : Record → Nat) (s : AgentState) : CaptureSource where
  sessionId
  agentId := host.runId
  digest
  charge
  effects := s.effects
  ended := s.ended

end AgentState

end AgentContext
