import HarnessSdk.Library.Checks
import HarnessSdk.Workflow.Json

/-! The session journal of an agent: one row per message, numbered without a gap, only appended. -/
namespace AgentContext
open Workflow (Json canonicalJson)
open PyDict PyText Checks

inductive MessageRole
  | system
  | user
  | assistant
  | tool
deriving DecidableEq

def MessageRole.text : MessageRole → String
  | .system => "system"
  | .user => "user"
  | .assistant => "assistant"
  | .tool => "tool"

inductive MessageContent
  | text (s : String)
  | blocks (items : List Json)

structure Message where
  role : MessageRole
  content : MessageContent
  name : Option String := none
  callId : Option String := none
  metadata : Dict String Json := []

def MessageContent.rendered : MessageContent → String
  | .text s => s
  | .blocks items => canonicalJson (.arr items)

def MessageContent.toJson : MessageContent → Json
  | .text s => .str s
  | .blocks items => .arr items

def Message.toJson (m : Message) : Json :=
  .obj ([("role", .str m.role.text), ("content", m.content.toJson),
      ("metadata", .obj m.metadata)] ++
    (m.name.toList.map fun name => ("name", .str name)) ++
    (m.callId.toList.map fun callId => ("call_id", .str callId)))

def MESSAGE_OVERHEAD_TOKENS : Nat := 4

def TOOL_OVERHEAD_TOKENS : Nat := 8

structure Tokenizer where
  countText : String → Nat
  margin : Int := 0

def truthy : Json → Bool
  | .null => false
  | .bool b => b
  | .int n => n != 0
  | .float text => text != "0.0" && text != "-0.0"
  | .str s => s != ""
  | .arr items => !items.isEmpty
  | .obj fields => !fields.isEmpty

def messageText (m : Message) : String :=
  join "\n" ([m.content.rendered] ++
    (m.name.toList.filter fun name => name != "") ++
    m.callId.toList ++
    (match get? m.metadata "provider_tool_calls" with
      | some calls => if truthy calls then [canonicalJson calls] else []
      | none => []) ++
    (match get? m.metadata "provider_reasoning_content" with
      | some (.str reasoning) => if reasoning != "" then [reasoning] else []
      | _ => []))

def countMessage (tokenizer : Tokenizer) (m : Message) : Nat :=
  tokenizer.countText (messageText m) + MESSAGE_OVERHEAD_TOKENS

inductive Kind
  | instructions
  | userInput
  | assistant
  | toolResult
  | feedback
deriving DecidableEq

inductive Visibility
  | context
  | journalOnly
deriving DecidableEq

structure Record where
  seq : Nat
  appendId : String
  kind : Kind
  turnId : Option String
  protocolGroupId : String
  message : Message
  contentHash : String
  visibility : Visibility
  fullRecordSeq : Option Nat

def Kind.inGroup : Kind → Bool
  | .assistant | .toolResult | .feedback => true
  | .instructions | .userInput => false

/-- Rows numbered from one; only the original of a large tool result is hidden from the model. -/
structure Journal where
  rows : List Record
  numbered : rows.map Record.seq = List.range' 1 rows.length
  hidden : ∀ r ∈ rows, r.visibility = .journalOnly → r.kind = .toolResult

def Journal.empty : Journal where
  rows := []
  numbered := rfl
  hidden := by simp

namespace Journal
variable (j : Journal)

def highwater : Nat := (j.rows.map Record.seq).foldl max 0

def read (fromSeq toSeq : Nat) : List Record :=
  j.rows.filter fun r => fromSeq ≤ r.seq ∧ r.seq ≤ toSeq

def latest (kind : Kind) : Option Record := (j.rows.filter fun r => r.kind = kind).getLast?

def groupHead (protocolGroupId : String) (beforeSeq : Nat) : List Record :=
  j.rows.filter fun r => r.protocolGroupId = protocolGroupId ∧ r.seq < beforeSeq

variable {j}

theorem ext_rows {j k : Journal} (same : j.rows = k.rows) : j = k := by
  cases j
  cases k
  simp_all

theorem seq_increases : j.rows.Pairwise fun r t => r.seq < t.seq := by
  have order : (j.rows.map Record.seq).Pairwise (· < ·) := by
    rw [j.numbered]
    exact List.pairwise_lt_range'
  exact List.pairwise_map.mp order

variable {r : Record}

theorem seq_bounds (inside : r ∈ j.rows) : 1 ≤ r.seq ∧ r.seq ≤ j.rows.length := by
  have listed : r.seq ∈ List.range' 1 j.rows.length := by
    rw [← j.numbered]
    exact List.mem_map_of_mem inside
  have bounds := List.mem_range'_1.mp listed
  omega

theorem exists_row {n : Nat} (low : 1 ≤ n) (high : n ≤ j.rows.length) :
    ∃ r ∈ j.rows, r.seq = n := by
  have listed : n ∈ j.rows.map Record.seq := by
    rw [j.numbered]
    exact List.mem_range'_1.mpr (by omega)
  exact List.mem_map.mp listed

theorem seq_inj {t : Record} (hr : r ∈ j.rows) (ht : t ∈ j.rows) (same : r.seq = t.seq) :
    r = t := by
  have distinct : (j.rows.map Record.seq).Nodup := by
    rw [j.numbered]
    exact List.nodup_range'
  exact List.inj_on_of_nodup_map distinct hr ht same

theorem highwater_eq : j.highwater = j.rows.length := by
  have bound : ∀ (n start : Nat), start ≤ n →
      (List.range' 1 n).foldl max start = n := by
    intro n
    induction n with
    | zero =>
      intro start low
      simp only [List.range'_zero, List.foldl_nil]
      omega
    | succ n ih =>
      intro start low
      rw [List.range'_1_concat, List.foldl_append]
      by_cases small : start ≤ n
      · rw [ih start small]
        simp only [List.foldl_cons, List.foldl_nil]
        omega
      · have top : (List.range' 1 n).foldl max start = start := by
          apply List.foldlRecOn (motive := fun best => best = start) _ _ rfl
          intro best stays m inside
          have := List.mem_range'_1.mp inside
          omega
        rw [top]
        simp only [List.foldl_cons, List.foldl_nil]
        omega
  unfold highwater
  rw [j.numbered]
  exact bound j.rows.length 0 (Nat.zero_le _)

theorem mem_read {fromSeq toSeq : Nat} :
    r ∈ j.read fromSeq toSeq ↔ r ∈ j.rows ∧ fromSeq ≤ r.seq ∧ r.seq ≤ toSeq := by
  simp [read]

theorem mem_groupHead {group : String} {before : Nat} :
    r ∈ j.groupHead group before ↔ r ∈ j.rows ∧ r.protocolGroupId = group ∧ r.seq < before := by
  simp [groupHead]

theorem latest_eq_some {kind : Kind} (found : j.latest kind = some r) :
    r ∈ j.rows ∧ r.kind = kind ∧ ∀ t ∈ j.rows, t.kind = kind → t.seq ≤ r.seq := by
  have inside := List.mem_of_getLast? found
  have facts : r ∈ j.rows ∧ r.kind = kind := by simpa using inside
  refine ⟨facts.1, facts.2, ?_⟩
  intro t ht sort
  have order := (seq_increases (j := j)).sublist (List.filter_sublist (p := fun r => r.kind = kind))
  obtain ⟨front, split⟩ := List.getLast?_eq_some_iff.mp found
  have listed : t ∈ j.rows.filter fun r => r.kind = kind := by simp [ht, sort]
  rw [split] at order listed
  rcases mem_snoc.mp listed with earlier | rfl
  · exact Nat.le_of_lt ((List.pairwise_append.mp order).2.2 t earlier r List.mem_cons_self)
  · exact le_rfl

end Journal

end AgentContext
