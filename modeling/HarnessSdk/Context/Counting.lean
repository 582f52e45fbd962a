import HarnessSdk.Context.Agreement
import HarnessSdk.Library.Transitions

/-! The count cache of the port: what it holds for the rows of a journal, and the one entry that
all summaries share. -/
namespace AgentContext
open PyDict

namespace JournalContextPort
variable (port : JournalContextPort)

section
variable (ledger : TurnLedger)

def callsTokens (protocolGroupId : String) : Nat :=
  match turnOrdinal protocolGroupId with
  | none => 0
  | some ordinal =>
    match ledger.toolCalls ordinal with
    | [] => 0
    | rows => port.tokenizer.countText (callsText rows)

def replayTokens (protocolGroupId : String) : Nat :=
  match ledger.response protocolGroupId with
  | none => 0
  | some response => port.reasoningTokens response

def overhead (r : Record) : Nat :=
  if r.kind = .assistant then
    port.callsTokens ledger r.protocolGroupId +
      (if port.replayReasoning then port.replayTokens ledger r.protocolGroupId else 0)
  else 0

def rowTokens (r : Record) : Nat :=
  countMessage port.tokenizer r.message + port.overhead ledger r

end

/-- The cached totals of the turns in a journal are those of the ledger as it is now. -/
structure Current (x : Load) (counts : Counts) : Prop where
  calls : ∀ r ∈ x.journal.rows, r.kind = .assistant → ∀ n,
    get? counts (.group r.protocolGroupId) = some n → n = port.callsTokens x.ledger r.protocolGroupId
  replays : port.replayReasoning = true → ∀ r ∈ x.journal.rows, r.kind = .assistant → ∀ n,
    get? counts (.reasoning r.protocolGroupId) = some n →
      n = port.replayTokens x.ledger r.protocolGroupId

/-- A cached content count is that of a row that some load of the history has met. -/
def Origin (history : List Load) (counts : Counts) : Prop :=
  ∀ hash n, get? counts (.content hash) = some n → hash ≠ probeContentHash →
    ∃ y ∈ history, ∃ r ∈ y.journal.rows, r.contentHash = hash ∧
      n = countMessage port.tokenizer r.message

end JournalContextPort

/-- Content hashes tell the messages met so far from each other and from the probe. -/
structure HashesTell (history : List Load) (x : Load) : Prop where
  rows : ∀ y ∈ history, ∀ r ∈ y.journal.rows, ∀ t ∈ x.journal.rows,
    r.contentHash = t.contentHash → r.message = t.message
  probes : ∀ r ∈ x.journal.rows, r.contentHash ≠ probeContentHash

def probeKey : CountKey := .content probeContentHash

/-- The cache serves the rows of this load, and what it holds for summaries is the count of one of
these. -/
structure Sound (port : JournalContextPort) (history : List Load) (x : Load)
    (folded : List Message) (counts : Counts) : Prop where
  origin : port.Origin history counts
  current : port.Current x counts
  summaries : ∀ n, get? counts probeKey = some n →
    ∃ m ∈ folded, n = countMessage port.tokenizer m

section
variable {port : JournalContextPort} {history : List Load} {x : Load}
  {folded : List Message} {counts : Counts}

variable {r : Record}

theorem JournalContextPort.Current.content (current : port.Current x counts) (hash : String)
    (count : Nat) : port.Current x (set counts (.content hash) count) where
  calls := by
    intro t ht sort n found
    rw [get?_set_ne _ _ (by simp)] at found
    exact current.calls t ht sort n found
  replays := by
    intro replay t ht sort n found
    rw [get?_set_ne _ _ (by simp)] at found
    exact current.replays replay t ht sort n found

theorem contentCount_sound (tell : HashesTell history x) (met : x ∈ history)
    (ok : Sound port history x folded counts) (row : r ∈ x.journal.rows) :
    (port.contentCount r counts).1 = countMessage port.tokenizer r.message ∧
      Sound port history x folded (port.contentCount r counts).2 := by
  unfold JournalContextPort.contentCount
  cases cached : get? counts (.content r.contentHash) with
  | some n =>
    obtain ⟨y, hy, t, ht, same, counted⟩ := ok.origin r.contentHash n cached (tell.probes r row)
    rw [tell.rows y hy t ht r row same] at counted
    exact ⟨counted, ok⟩
  | none =>
    refine ⟨rfl, ?_, ok.current.content .., ?_⟩
    · intro hash n found other
      by_cases same : r.contentHash = hash
      · rw [same, get?_set_self] at found
        exact ⟨x, met, r, row, same, (Option.some.inj found).symm⟩
      · rw [get?_set_ne _ _ (by simp [same])] at found
        exact ok.origin hash n found other
    · have other : CountKey.content r.contentHash ≠ probeKey := by
        simp [probeKey, tell.probes r row]
      rw [get?_set_ne _ _ other]
      exact ok.summaries

theorem toolCallsOverhead_sound (ok : Sound port history x folded counts)
    (row : r ∈ x.journal.rows) (sort : r.kind = .assistant) :
    (port.toolCallsOverhead x.ledger r counts).1 =
        port.callsTokens x.ledger r.protocolGroupId ∧
      Sound port history x folded (port.toolCallsOverhead x.ledger r counts).2 := by
  unfold JournalContextPort.toolCallsOverhead
  cases cached : get? counts (.group r.protocolGroupId) with
  | some n => exact ⟨ok.current.calls r row sort n cached, ok⟩
  | none =>
    unfold JournalContextPort.callsTokens
    cases ordinal : turnOrdinal r.protocolGroupId with
    | none => exact ⟨rfl, ok⟩
    | some turn =>
      cases calls : x.ledger.toolCalls turn with
      | nil =>
        simp only [calls]
        exact ⟨trivial, ok⟩
      | cons call rest =>
        simp only [calls]
        refine ⟨trivial, ?_, ?_, ?_⟩
        · intro hash n found other
          rw [get?_set_ne _ _ (by simp)] at found
          exact ok.origin hash n found other
        · constructor
          · intro t ht kind n found
            by_cases same : r.protocolGroupId = t.protocolGroupId
            · rw [← same, get?_set_self] at found
              unfold JournalContextPort.callsTokens
              rw [← same, ordinal]
              simp only [calls]
              exact (Option.some.inj found).symm
            · rw [get?_set_ne _ _ (by simp [same])] at found
              exact ok.current.calls t ht kind n found
          · intro replay t ht kind n found
            rw [get?_set_ne _ _ (by simp)] at found
            exact ok.current.replays replay t ht kind n found
        · rw [get?_set_ne _ _ (by simp [probeKey])]
          exact ok.summaries

theorem reasoningOverhead_sound (ok : Sound port history x folded counts)
    (row : r ∈ x.journal.rows) (sort : r.kind = .assistant) (replay : port.replayReasoning = true) :
    (port.reasoningOverhead x.ledger r counts).1 =
        port.replayTokens x.ledger r.protocolGroupId ∧
      Sound port history x folded (port.reasoningOverhead x.ledger r counts).2 := by
  unfold JournalContextPort.reasoningOverhead
  cases cached : get? counts (.reasoning r.protocolGroupId) with
  | some n => exact ⟨ok.current.replays replay r row sort n cached, ok⟩
  | none =>
    unfold JournalContextPort.replayTokens
    cases settled : x.ledger.response r.protocolGroupId with
    | none => exact ⟨rfl, ok⟩
    | some response =>
      refine ⟨rfl, ?_, ?_, ?_⟩
      · intro hash n found other
        rw [get?_set_ne _ _ (by simp)] at found
        exact ok.origin hash n found other
      · constructor
        · intro t ht kind n found
          rw [get?_set_ne _ _ (by simp)] at found
          exact ok.current.calls t ht kind n found
        · intro _ t ht kind n found
          by_cases same : r.protocolGroupId = t.protocolGroupId
          · rw [← same, get?_set_self] at found
            unfold JournalContextPort.replayTokens
            rw [← same, settled]
            exact (Option.some.inj found).symm
          · rw [get?_set_ne _ _ (by simp [same])] at found
            exact ok.current.replays replay t ht kind n found
      · rw [get?_set_ne _ _ (by simp [probeKey])]
        exact ok.summaries

theorem count_sound (tell : HashesTell history x) (met : x ∈ history)
    (ok : Sound port history x folded counts) (row : r ∈ x.journal.rows) :
    (port.count x.ledger r counts).1 = port.rowTokens x.ledger r ∧
      Sound port history x folded (port.count x.ledger r counts).2 := by
  obtain ⟨content, ok₁⟩ := contentCount_sound tell met ok row
  unfold JournalContextPort.count JournalContextPort.rowTokens JournalContextPort.overhead
  dsimp only
  by_cases sort : r.kind = .assistant
  · obtain ⟨calls, ok₂⟩ := toolCallsOverhead_sound ok₁ row sort
    rw [if_pos sort, if_pos sort]
    by_cases replay : port.replayReasoning = true
    · obtain ⟨reasoning, ok₃⟩ := reasoningOverhead_sound ok₂ row sort replay
      rw [if_pos replay, if_pos replay]
      exact ⟨by rw [content, calls, reasoning]; omega, ok₃⟩
    · rw [if_neg replay, if_neg replay]
      exact ⟨by rw [content, calls]; omega, ok₂⟩
  · rw [if_neg sort, if_neg sort]
    exact ⟨content, ok₁⟩

theorem count_probe (ledger : TurnLedger) (m : Message) (counts : Counts) :
    port.count ledger (probe m) counts = port.contentCount (probe m) counts := by
  unfold JournalContextPort.count
  exact if_neg (by simp [probe])

/-- A cached count of the only summary is that of this one. -/
theorem probe_sound (ok : Sound port history x folded counts) {m : Message} (inside : m ∈ folded)
    (one : ∀ m' ∈ folded, m' = m) :
    (port.count x.ledger (probe m) counts).1 = countMessage port.tokenizer m ∧
      Sound port history x folded (port.count x.ledger (probe m) counts).2 := by
  rw [count_probe]
  unfold JournalContextPort.contentCount
  cases cached : get? counts (.content (probe m).contentHash) with
  | some n =>
    obtain ⟨m', there, counted⟩ := ok.summaries n cached
    rw [one m' there] at counted
    exact ⟨counted, ok⟩
  | none =>
    refine ⟨rfl, ?_, ok.current.content .., ?_⟩
    · intro hash n found other
      have apart : CountKey.content (probe m).contentHash ≠ .content hash := by
        intro same
        exact other (CountKey.content.inj same).symm
      rw [get?_set_ne _ _ apart] at found
      exact ok.origin hash n found other
    · intro n found
      have same : probeKey = .content (probe m).contentHash := rfl
      rw [same, get?_set_self] at found
      exact ⟨m, inside, (Option.some.inj found).symm⟩

/-- A row of the journal, or the stand-in for one of these summaries. -/
def Counted (x : Load) (folded : List Message) (r : Record) : Prop :=
  r ∈ x.journal.rows ∨ ∃ m ∈ folded, r = probe m

theorem count_agrees (tell : HashesTell history x) (met : x ∈ history) {own : List Message}
    (kept : ∀ m ∈ own, m ∈ folded) (one : ∀ m' ∈ folded, ∀ m ∈ own, m' = m) :
    Agrees (port.count x.ledger) (port.rowTokens x.ledger) (Counted x own)
      (Sound port history x folded) := by
  intro r counts which ok
  rcases which with row | ⟨m, inside, rfl⟩
  · exact count_sound tell met ok row
  · exact probe_sound ok (kept m inside) fun m' there => one m' there m inside

end

end AgentContext
