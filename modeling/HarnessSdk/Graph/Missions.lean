import HarnessSdk.Library.Checks
import HarnessSdk.Workflow.Json

/-! Budgets and missions, as the graph gates and the budget ledger read them. -/
namespace Graph
open PyDict PyText Checks Workflow

/-- Conversions of the host language: `folded` is NFKC in lower case, `truncated` the whole part of
a float given by its text, `parsed` the integer a text spells. -/
structure Host where
  folded : String → String
  truncated : String → Int
  parsed : String → Option Int

/-- A gate refuses with a reason and a detail; other exceptions pass through it. -/
inductive Refusal
  | rejected (reason : String) (detail : List Fragment)
  | uncaught (exception : String)
deriving DecidableEq

def listed (items : List String) : List Fragment :=
  .text "[" :: (items.map Fragment.repr).intersperse (.text ", ") ++ [.text "]"]

def joined (sep : String) (parts : List (List Fragment)) : List Fragment :=
  (parts.intersperse [.text sep]).flatten

def sortedSet (items : List String) : List String := sorted items.dedup

@[simp] theorem mem_sortedSet (items : List String) (x : String) :
    x ∈ sortedSet items ↔ x ∈ items := by
  rw [sortedSet, mem_sorted, List.mem_dedup]

inductive Dimension
  | maxTokens
  | maxCostMicros
  | maxAttempts
  | maxRuntimeSeconds
  | maxConcurrency
  | maxToolCalls
deriving DecidableEq

def Dimension.name : Dimension → String
  | .maxTokens => "max_tokens"
  | .maxCostMicros => "max_cost_micros"
  | .maxAttempts => "max_attempts"
  | .maxRuntimeSeconds => "max_runtime_seconds"
  | .maxConcurrency => "max_concurrency"
  | .maxToolCalls => "max_tool_calls"

def dimensions : List Dimension :=
  [.maxTokens, .maxCostMicros, .maxAttempts, .maxRuntimeSeconds, .maxConcurrency, .maxToolCalls]

/-- A limit that is absent is not set at this level. -/
structure Budget where
  maxTokens : Option Nat
  maxCostMicros : Option Nat
  maxAttempts : Option Nat
  maxRuntimeSeconds : Option Nat
  maxConcurrency : Option Nat
  maxToolCalls : Option Nat
deriving DecidableEq

def Budget.unlimited : Budget := ⟨none, none, none, none, none, none⟩

def Budget.limit (budget : Budget) : Dimension → Option Nat
  | .maxTokens => budget.maxTokens
  | .maxCostMicros => budget.maxCostMicros
  | .maxAttempts => budget.maxAttempts
  | .maxRuntimeSeconds => budget.maxRuntimeSeconds
  | .maxConcurrency => budget.maxConcurrency
  | .maxToolCalls => budget.maxToolCalls

def Budget.withLimit (budget : Budget) (dimension : Dimension) (limit : Option Nat) : Budget :=
  match dimension with
  | .maxTokens => { budget with maxTokens := limit }
  | .maxCostMicros => { budget with maxCostMicros := limit }
  | .maxAttempts => { budget with maxAttempts := limit }
  | .maxRuntimeSeconds => { budget with maxRuntimeSeconds := limit }
  | .maxConcurrency => { budget with maxConcurrency := limit }
  | .maxToolCalls => { budget with maxToolCalls := limit }

def limitText : Option Nat → String
  | none => "None"
  | some n => toString n

def Budget.text (budget : Budget) : List Fragment :=
  .text "\x7b" :: joined ", " (dimensions.map fun dimension =>
    [.repr dimension.name, .text (": " ++ limitText (budget.limit dimension))]) ++ [.text "\x7d"]

def Budget.fitsWithin (budget parent : Budget) : Bool :=
  dimensions.all fun dimension =>
    match parent.limit dimension, budget.limit dimension with
    | none, _ => true
    | some _, none => false
    | some theirs, some mine => mine ≤ theirs

def optionalInt (name : String) : Option Json → Except (List Fragment) (Option Nat)
  | none => .ok none
  | some .null => .ok none
  | some (.int (.ofNat n)) => .ok (some n)
  | some _ => .error [.text (name ++ " must be a non-negative integer or null")]

def Budget.fromJson : Json → Except (List Fragment) Budget
  | .obj data => do
    let unknown := (keys data).filter (· ∉ dimensions.map Dimension.name)
    require (unknown = [])
      (.text "budget has unknown fields: " :: listed (sortedSet unknown))
    let read := fun dimension : Dimension =>
      optionalInt dimension.name (get? data dimension.name)
    let tokens ← read .maxTokens
    let cost ← read .maxCostMicros
    let attempts ← read .maxAttempts
    let runtime ← read .maxRuntimeSeconds
    let concurrency ← read .maxConcurrency
    let calls ← read .maxToolCalls
    pure ⟨tokens, cost, attempts, runtime, concurrency, calls⟩
  | _ => .error [.text "budget must be an object"]

structure Mission where
  budget : Budget
  allowedTools : List String
  finalReport : Option (List (String × Json))

/-- Every dimension the parent bounds and the budget does not is inherited. -/
def inheritLimits (budget parent : Budget) : Budget :=
  dimensions.foldl (fun b dimension =>
    match b.limit dimension, parent.limit dimension with
    | none, some cap => b.withLimit dimension (some cap)
    | _, _ => b) budget

def truthy : Json → Bool
  | .null => false
  | .bool b => b
  | .int n => n != 0
  | .float text => text != "0.0" && text != "-0.0"
  | .str s => s != ""
  | .arr items => !items.isEmpty
  | .obj fields => !fields.isEmpty

def orElse (value : Option Json) (default : Json) : Json :=
  match value with
  | none => default
  | some v => if truthy v then v else default

def asMapping : Json → Except Refusal (List (String × Json))
  | .obj fields => .ok fields
  | _ => .error (.uncaught "AttributeError")

def Host.int (host : Host) : Json → Except Refusal Int
  | .bool b => .ok (if b then 1 else 0)
  | .int n => .ok n
  | .float text => .ok (host.truncated text)
  | .str s =>
    match host.parsed s with
    | some n => .ok n
    | none => .error (.uncaught "ValueError")
  | _ => .error (.uncaught "TypeError")

def Mission.report (mission : Mission) : List (String × Json) := mission.finalReport.getD []

/-- Tokens the planner's graph may not use: the synthesis budget and the conflict reserve. -/
def systemReserveTokens (host : Host) (mission : Mission) : Except Refusal Int := do
  let synthesis ← asMapping (orElse (get? mission.report "synthesis") (.obj []))
  let budget ← asMapping (orElse (get? synthesis "budget") (.obj []))
  let synthTokens ← host.int (orElse (get? budget "max_tokens") (.int 0))
  let conflict ← host.int (orElse (get? mission.report "conflict_reserve_tokens") (.int 0))
  pure (synthTokens + conflict)

end Graph
