import HarnessSdk.Context.Counting

/-! The tokens recorded with a selection, over any sequence of loads of one port. -/
namespace AgentContext
open PyDict

namespace JournalContextPort
variable (port : JournalContextPort)

/-- A message of the request, counted anew: a row with what the wire restores for it. Recalled
messages have their tokens taken from the budget before. -/
def emittedTokens (ledger : TurnLedger) : Emitted → Nat
  | .record r => countMessage port.tokenizer (messageOf r) + port.overhead ledger r
  | .summary m => countMessage port.tokenizer m
  | .recalled _ => 0

def requestTokens (ledger : TurnLedger) (messages : List Emitted) : Nat :=
  (messages.map (port.emittedTokens ledger)).sum

def Exact (x : Load) (loaded : Loaded) : Prop :=
  ∀ prepared selection, loaded.prepared = some prepared → loaded.selection = some selection →
    selection.requiredOverBudget = false →
      selection.messageTokens = port.requestTokens x.ledger prepared.messages ∧
        selection.messageTokens ≤ port.available x

def recallOf (x : Load) : Option Recall := if x.frozen then none else x.recaller

/-- The request of a load when nothing is taken from the cache. -/
def planned (x : Load) : Except String Prepared :=
  (port.assembleContext (exactly (port.rowTokens x.ledger)) x.journal (port.available x)
    (recallOf x) ()).1

def plannedUnits (x : Load) : List ContextUnit :=
  port.unitsOf (exactly (port.rowTokens x.ledger)) x.journal (port.available x) ()

def budgetsOf (x : Load) : List Int :=
  port.budgets (port.rowTokens x.ledger) x.journal (port.available x) (recallOf x)

/-- The summaries of what does not fit at once, by pass. -/
def foldedIn (x : Load) : List Message :=
  ((port.budgetsOf x).filter fun budget =>
    !(firstLeft (port.rowTokens x.ledger) (port.plannedUnits x) budget).isEmpty).map fun budget =>
      (foldedSummary (port.rowTokens x.ledger) (port.plannedUnits x) budget).message

/-- The rows that a load counts by the cache as it finds it, the stand-ins of summaries among
them. -/
def counted (x : Load) (counts : Counts) : List Record :=
  (port.assembleContext (noting (port.count x.ledger)) x.journal (port.available x) (recallOf x)
    (counts, [])).2.2

/-- At one revision the ledger gives the turns of the journal the same tokens. -/
def SameTurns (y x : Load) : Prop :=
  y.journal.highwater = x.journal.highwater → ∀ r ∈ x.journal.rows,
    port.overhead y.ledger r = port.overhead x.ledger r

def after (loads : List Load) : PortState :=
  Transitions.run (fun state x => (port.load x state).2) PortState.fresh loads

/-- The cached totals of the turns are up to date, and what does not fit is folded at once, into the
summary that the loads so far have folded. -/
structure Steady (before : List Load) (x : Load) : Prop where
  current : port.Current x (port.after before).counts
  turns : ∀ y ∈ before, port.SameTurns y x
  settles : ∀ budget ∈ port.budgetsOf x,
    Settles (port.rowTokens x.ledger) (port.plannedUnits x) budget
  one : ∀ y ∈ before ++ [x], ∀ m ∈ port.foldedIn y, ∀ m' ∈ port.foldedIn x, m = m'

/-- A row whose count the run asks for, from the cache or anew. -/
def Counts (loads : List Load) (r : Record) : Prop :=
  ∃ before x later, loads = before ++ x :: later ∧ r ∈ port.counted x (port.after before).counts

end JournalContextPort

/-- The journal of the loads grows, and content hashes tell its messages apart. -/
structure Growing (loads : List Load) : Prop where
  grows : loads.Pairwise fun y x => y.journal.rows <+: x.journal.rows
  hashes : ∀ x ∈ loads, ∀ r ∈ x.journal.rows, ∀ t ∈ x.journal.rows,
    r.contentHash = t.contentHash → r.message = t.message
  probes : ∀ x ∈ loads, ∀ r ∈ x.journal.rows, r.contentHash ≠ probeContentHash

theorem messageText_set {m : Message} {key : String} {value : Workflow.Json}
    (calls : key ≠ "provider_tool_calls") (reasoning : key ≠ "provider_reasoning_content") :
    messageText { m with
      metadata := PyDict.set m.metadata key value } = messageText m := by
  unfold messageText
  simp only [get?_set_ne m.metadata value calls, get?_set_ne m.metadata value reasoning]

theorem countMessage_messageOf (tokenizer : Tokenizer) (r : Record) :
    countMessage tokenizer (messageOf r) = countMessage tokenizer r.message := by
  unfold countMessage messageOf
  split
  · split
    · rw [messageText_set (by decide) (by decide)]
    · rfl
  · rfl

section
variable {f : Record → Nat}

def unitsSum (f : Record → Nat) (units : List ContextUnit) : Nat := ((recordsOf units).map f).sum

theorem unitsSum_append (units more : List ContextUnit) :
    unitsSum f (units ++ more) = unitsSum f units + unitsSum f more := by
  simp [unitsSum, recordsOf]

theorem unitsSum_perm {units units' : List ContextUnit} (same : units.Perm units') :
    unitsSum f units = unitsSum f units' :=
  ((same.flatMap_right ContextUnit.records).map f).sum_nat

theorem admit_used (room : Int) (us : List ContextUnit) (admitting : Bool) (a : Admission)
    (counted : a.used = unitsSum f a.selected) :
    (admitUnits (exactly f) room us admitting a ()).1.used =
      unitsSum f (admitUnits (exactly f) room us admitting a ()).1.selected := by
  induction us generalizing admitting a with
  | nil => exact counted
  | cons u older ih =>
    unfold admitUnits
    simp only [tally_exactly]
    split
    · apply ih
      rw [unitsSum_append, ← counted]
      simp [unitsSum, recordsOf]
    · exact ih _ _ counted

theorem settle_used {budget : Int} {overBudget : Bool} {required : Admission}
    {newest : List ContextUnit} (counted : required.used = unitsSum f required.selected)
    (rounds reserve : Nat) (last : Admission × Option Summary)
    (ready : last.1.used = unitsSum f last.1.selected) :
    (settle (exactly f) budget overBudget required newest rounds reserve last ()).1.1.used =
      unitsSum f
        (settle (exactly f) budget overBudget required newest rounds reserve last ()).1.1.selected := by
  induction rounds generalizing reserve last with
  | zero => exact ready
  | succ rounds ih =>
    have round := admit_used (f := f) (budget - reserve) newest (!overBudget) required counted
    cases nothing : (admitUnits (exactly f) (budget - reserve) newest (!overBudget) required
        ()).1.dropped.isEmpty with
    | true =>
      rw [settle_done (exactly f) rfl nothing]
      exact round
    | false =>
      rw [settle_more (exactly f) rfl nothing rfl]
      split
      · exact round
      · exact ih _ _ round

variable {assembly : Assembly}

theorem pointer_tokens (budget : Int) (overBudget : Bool) (a : Admission)
    (summary : Option Summary) :
    (pointer (exactly f) budget overBudget a summary ()).1.tokens =
      ((pointer (exactly f) budget overBudget a summary ()).1.summary.map
        fun m => f (probe m)).getD 0 := by
  cases summary with
  | none => rfl
  | some full =>
    have plain : ∀ m, countMessageTokens (exactly f) m () = (f (probe m), ()) := fun _ => rfl
    simp only [pointer, plain]
    split
    · split <;> rfl
    · rfl

theorem conclude_eq_ok {budget : Int} {requiredUsed : Nat} {a : Admission} {sent : Pointer}
    (made : conclude budget requiredUsed a sent = .ok assembly) :
    assembly = assembled a sent (decide (budget < requiredUsed)) requiredUsed := by
  unfold conclude at made
  split at made
  · cases made
  · exact (Except.ok.inj made).symm

theorem assembly_tokens {units : List ContextUnit} {budget : Int} (made : (assemble (exactly f) units budget ()).1 = .ok assembly) :
    ∃ ordered, assembly.messages = layOut ordered assembly.summary ∧
      assembly.messageTokens =
        unitsSum f ordered + (assembly.summary.map fun m => f (probe m)).getD 0 ∧
      ∀ u ∈ ordered, u ∈ units := by
  cases present : units.isEmpty with
  | true =>
    have empty : units = [] := List.isEmpty_iff.mp present
    subst empty
    have same : emptyAssembly = assembly := Except.ok.inj made
    rw [← same]
    exact ⟨[], rfl, rfl, by simp⟩
  | false =>
    have tallied : tally (exactly f) (recordsOf (requiredUnits units)) () =
        (requiredSum f units, ()) := tally_exactly f _ ()
    have used := @settle_used f budget (tight f units budget) (base f units)
      (optionalUnits units).reverse rfl 4 0 (base f units, none) rfl
    have settled := @settle_settled _ (exactly f) budget (tight f units budget) (base f units)
      (optionalUnits units).reverse rfl 4 0 (base f units, none) () (by simp)
    cases rounds : settleAll f units budget (exactly f) () with
    | mk out u =>
      unfold settleAll at rounds
      rw [rounds] at used settled
      have cost := pointer_tokens (f := f) budget (tight f units budget) out.1 out.2
      cases pointed : pointer (exactly f) budget (tight f units budget) out.1 out.2 () with
      | mk sent u' =>
        rw [pointed] at cost
        have run := assemble_pieces (exactly f) present budget () tallied rounds pointed
        have shape := conclude_eq_ok ((congrArg Prod.fst run).symm.trans made)
        rw [shape]
        refine ⟨_, rfl, ?_, ?_⟩
        · have tokens : out.1.used + sent.tokens = unitsSum f out.1.selected +
              (sent.summary.map fun m => f (probe m)).getD 0 := by
            rw [used, cost]
          rw [unitsSum_perm (List.perm_insertionSort (fun u v : ContextUnit =>
            u.seqFrom ≤ v.seqFrom) out.1.selected).symm] at tokens
          exact tokens
        · intro u inside
          obtain ⟨n, chosen, _⟩ := settled.splits
          have there := (List.mem_insertionSort _).mp inside
          rw [chosen] at there
          apply (required_optional_perm units).mem_iff.mp
          rcases List.mem_append.mp there with required | admitted
          · exact List.mem_append_left _ required
          · exact List.mem_append_right _
              (List.mem_reverse.mp (List.mem_of_mem_take admitted))

end

section
variable (port : JournalContextPort) (ledger : TurnLedger)

theorem requestTokens_append (messages more : List Emitted) :
    port.requestTokens ledger (messages ++ more) =
      port.requestTokens ledger messages + port.requestTokens ledger more := by
  simp [JournalContextPort.requestTokens]

theorem requestTokens_rows (records : List Record) :
    port.requestTokens ledger (records.map Emitted.record) =
      (records.map (port.rowTokens ledger)).sum := by
  unfold JournalContextPort.requestTokens
  rw [List.map_map]
  congr 1
  apply List.map_congr_left
  intro r _
  simp only [Function.comp, JournalContextPort.emittedTokens, countMessage_messageOf,
    JournalContextPort.rowTokens]

theorem requestTokens_recalled (recalled : List Message) :
    port.requestTokens ledger (recalled.map Emitted.recalled) = 0 := by
  induction recalled with
  | nil => rfl
  | cons m rest ih =>
    unfold JournalContextPort.requestTokens at ih ⊢
    simp only [List.map_cons, List.sum_cons, ih, JournalContextPort.emittedTokens]

theorem requestTokens_splice (messages : List Emitted) (recalled : List Message) :
    port.requestTokens ledger (splice messages recalled) =
      port.requestTokens ledger messages := by
  unfold splice
  rw [requestTokens_append, requestTokens_append, requestTokens_recalled, Nat.add_zero,
    ← requestTokens_append, List.takeWhile_append_dropWhile]

theorem requestTokens_layOut (ordered : List ContextUnit) (summary : Option Message) :
    port.requestTokens ledger (layOut ordered summary) =
      unitsSum (port.rowTokens ledger) ordered +
        (summary.map (countMessage port.tokenizer)).getD 0 := by
  have pointer : port.requestTokens ledger (summary.toList.map Emitted.summary) =
      (summary.map (countMessage port.tokenizer)).getD 0 := by
    cases summary with
    | none => rfl
    | some m => simp [JournalContextPort.requestTokens, JournalContextPort.emittedTokens]
  have parts : unitsSum (port.rowTokens ledger) ordered =
      unitsSum (port.rowTokens ledger) (ordered.takeWhile fun u => u.kind = .instructions) +
        unitsSum (port.rowTokens ledger) (ordered.dropWhile fun u => u.kind = .instructions) := by
    rw [← unitsSum_append, List.takeWhile_append_dropWhile]
  unfold layOut
  rw [requestTokens_append, requestTokens_append, requestTokens_rows, requestTokens_rows, pointer,
    parts]
  unfold unitsSum
  omega

end

section
variable {port : JournalContextPort}

structure PlannedParts (port : JournalContextPort) (x : Load) (prepared : Prepared) : Prop where
  assembly : (assemble (exactly (port.rowTokens x.ledger)) (port.plannedUnits x)
    ((port.available x : Int) - prepared.recallTokens) ()).1 = .ok prepared.assembly
  pass : (port.available x : Int) - prepared.recallTokens ∈ port.budgetsOf x
  tokens : prepared.recallTokens = (prepared.recalled.map (countMessage port.tokenizer)).sum
  silent : prepared.query = none → prepared.recalled = []
  messages : ∀ ledger, port.requestTokens ledger prepared.messages =
    port.requestTokens ledger prepared.assembly.messages
  within : prepared.assembly.requiredOverBudget = false →
    prepared.assembly.messageTokens ≤ port.available x

variable {x : Load} {prepared : Prepared}

theorem planned_parts (made : port.planned x = .ok prepared) : PlannedParts port x prepared := by
  obtain ⟨prepared', made', _, _, within⟩ := assembleContext_sides
    (exactly (port.rowTokens x.ledger)) port x.journal (port.available x)
    (JournalContextPort.recallOf x) ()
  have same : prepared' = prepared := Except.ok.inj (made'.symm.trans made)
  rw [same] at within
  have bound : prepared.assembly.requiredOverBudget = false →
      prepared.assembly.messageTokens ≤ port.available x := by
    intro fits
    have := within fits
    omega
  obtain ⟨assembly, plain, _⟩ := assemble_sides (exactly (port.rowTokens x.ledger))
    (port.plannedUnits x) (port.available x : Int) ()
  have answer : port.answered _ _ _ (JournalContextPort.recallOf x) = _ :=
    answered_of_assembly plain
  cases asked : port.recalls (JournalContextPort.recallOf x) (port.available x)
      (port.plannedUnits x) assembly with
  | none =>
    have run := assembleContext_plain rfl (Prod.ext plain rfl) asked
    have shape := Except.ok.inj ((congrArg Prod.fst run).symm.trans made)
    rw [← shape] at bound ⊢
    refine ⟨?_, ?_, rfl, fun _ => rfl, fun _ => rfl, bound⟩
    · simpa using plain
    · simp [JournalContextPort.budgetsOf, JournalContextPort.budgets]
  | some found =>
    obtain ⟨query, recalled⟩ := found
    obtain ⟨assembly', plain', _⟩ := assemble_sides
      (exactly (port.rowTokens x.ledger)) (port.plannedUnits x)
      ((port.available x : Int) - ((recalled.map (countMessage port.tokenizer)).sum : Nat)) ()
    have run := assembleContext_recalled rfl (Prod.ext plain rfl) asked (Prod.ext plain' rfl)
    have shape := Except.ok.inj ((congrArg Prod.fst run).symm.trans made)
    rw [← shape] at bound ⊢
    refine ⟨plain', ?_, rfl, by simp, fun ledger => requestTokens_splice port ledger _ _, bound⟩
    unfold JournalContextPort.budgetsOf JournalContextPort.budgets
    rw [answer.trans asked]
    simp

theorem planned_exact (made : port.planned x = .ok prepared) :
    prepared.assembly.messageTokens = port.requestTokens x.ledger prepared.messages := by
  have parts := planned_parts made
  obtain ⟨ordered, laid, tokens, _⟩ := assembly_tokens parts.assembly
  rw [parts.messages, laid, requestTokens_layOut, tokens]
  rfl

theorem agrees_turns {x y : Load}
    (turns : ∀ r ∈ x.journal.rows, port.overhead y.ledger r = port.overhead x.ledger r) :
    Agrees (exactly (port.rowTokens y.ledger)) (port.rowTokens x.ledger)
      (fun r => r ∈ x.journal.rows ∨ ∃ m, r = probe m) fun _ => True := by
  intro r _ which _
  refine ⟨?_, trivial⟩
  rcases which with row | ⟨m, rfl⟩
  · change port.rowTokens y.ledger r = port.rowTokens x.ledger r
    unfold JournalContextPort.rowTokens
    rw [turns r row]
  · rfl

theorem planned_of_sameKey {y : Load} {prepared' : Prepared}
    (grown : y.journal.rows <+: x.journal.rows) (turns : port.SameTurns y x)
    (settles : ∀ budget ∈ port.budgetsOf x,
      Settles (port.rowTokens x.ledger) (port.plannedUnits x) budget)
    (made : port.planned x = .ok prepared) (made' : port.planned y = .ok prepared')
    (key : port.selectionKey x prepared = port.selectionKey y prepared') :
    prepared'.assembly = prepared.assembly ∧ port.available y = port.available x := by
  have parts := planned_parts made
  have parts' := planned_parts made'
  have revision : x.journal.highwater = y.journal.highwater := congrArg SelectionKey.revision key
  have tools : port.toolTokens x.tools = port.toolTokens y.tools :=
    congrArg SelectionKey.tools key
  have journal : y.journal = x.journal := by
    rw [Journal.highwater_eq, Journal.highwater_eq] at revision
    have rows := grown.eq_of_length revision.symm
    exact Journal.ext_rows rows
  have available : port.available y = port.available x := by
    unfold JournalContextPort.available
    rw [tools]
  have recalled : prepared'.recallTokens = prepared.recallTokens := by
    have query : prepared.query = prepared'.query := congrArg SelectionKey.recallQuery key
    have payload := congrArg SelectionKey.recallPayload key
    simp only [JournalContextPort.selectionKey] at payload
    rw [parts.tokens, parts'.tokens]
    cases asked : prepared.query with
    | none =>
      rw [parts.silent asked, parts'.silent (query ▸ asked)]
    | some q =>
      rw [← query, asked] at payload
      simp only [Option.map_some, Option.some.injEq] at payload
      have texts := congrArg (List.map fun part : String × String =>
        port.tokenizer.countText part.2 + MESSAGE_OVERHEAD_TOKENS) payload
      rw [List.map_map, List.map_map] at texts
      exact congrArg List.sum texts.symm
  have agrees := @agrees_turns port x y (turns revision.symm)
  have units : port.plannedUnits y = port.plannedUnits x := by
    unfold JournalContextPort.plannedUnits
    rw [journal, available]
    exact (unitsOf_agrees agrees (fun r row => .inl row) port (port.available x) trivial).1
  have assembled := assemble_agrees (s := ()) agrees
    (fun r (inside : r ∈ recordsOf (port.plannedUnits x)) => .inl (units_rows port inside))
    (fun _ => .inr ⟨_, rfl⟩) (settles _ parts.pass) trivial
  have made_y := parts'.assembly
  rw [units, available, recalled] at made_y
  exact ⟨Except.ok.inj ((made_y.symm.trans assembled.1).trans parts.assembly), available⟩

/-- What holds of the state after some loads: cached counts are those of rows that were met and
summaries that were folded, and each stored selection is that of a planned request. -/
structure Consistent (port : JournalContextPort) (history : List Load) (state : PortState) :
    Prop where
  origin : port.Origin history state.counts
  summaries : ∀ n, get? state.counts probeKey = some n →
    ∃ m ∈ history.flatMap port.foldedIn, n = countMessage port.tokenizer m
  stored : ∀ key selection, get? state.selections key = some selection → ∃ y ∈ history,
    ∃ prepared, port.planned y = .ok prepared ∧ key = port.selectionKey y prepared ∧
      selection = port.selectionOf y prepared

theorem consistent_more {history more : List Load} {state : PortState}
    (known : Consistent port history state) (kept : history ⊆ more) :
    Consistent port more state := by
  constructor
  · intro hash n found other
    obtain ⟨y, there, facts⟩ := known.origin hash n found other
    exact ⟨y, kept there, facts⟩
  · intro n found
    obtain ⟨m, there, facts⟩ := known.summaries n found
    obtain ⟨y, met, folded⟩ := List.mem_flatMap.mp there
    exact ⟨m, List.mem_flatMap.mpr ⟨y, kept met, folded⟩, facts⟩
  · intro key selection found
    obtain ⟨y, there, facts⟩ := known.stored key selection found
    exact ⟨y, kept there, facts⟩

/-- A steady load plans as if it counted anew, and counts nothing but its rows and its summary. -/
theorem load_planned {before : List Load} (tell : HashesTell (before ++ [x]) x)
    (steady : port.Steady before x)
    (known : Consistent port (before ++ [x]) (port.after before)) :
    ∃ counts, port.assembleContext (port.count x.ledger) x.journal (port.available x)
        (JournalContextPort.recallOf x) (port.after before).counts = (port.planned x, counts) ∧
      Sound port (before ++ [x]) x ((before ++ [x]).flatMap port.foldedIn) counts ∧
      ∀ r ∈ port.counted x (port.after before).counts, Counted x (port.foldedIn x) r := by
  have agrees : Agrees (port.count x.ledger) (port.rowTokens x.ledger)
      (Counted x (port.foldedIn x))
      (Sound port (before ++ [x]) x ((before ++ [x]).flatMap port.foldedIn)) := by
    apply count_agrees tell (by simp)
    · intro m inside
      exact List.mem_flatMap.mpr ⟨x, by simp, inside⟩
    · intro m' there m inside
      obtain ⟨y, met, folded⟩ := List.mem_flatMap.mp there
      exact steady.one y met m' folded m inside
  have counted : ∀ budget ∈ port.budgetsOf x,
      firstLeft (port.rowTokens x.ledger) (port.plannedUnits x) budget ≠ [] →
        Counted x (port.foldedIn x) (probe (foldedSummary (port.rowTokens x.ledger)
          (port.plannedUnits x) budget).message) := by
    intro budget inside some_left
    refine .inr ⟨_, List.mem_map.mpr ⟨budget, List.mem_filter.mpr ⟨inside, ?_⟩, rfl⟩, rfl⟩
    simpa using some_left
  have ok : Sound port (before ++ [x]) x ((before ++ [x]).flatMap port.foldedIn)
      (port.after before).counts := ⟨known.origin, steady.current, known.summaries⟩
  obtain ⟨run, sound⟩ := assembleContext_agrees agrees (fun r row => .inl row) port
    (port.available x) (JournalContextPort.recallOf x) steady.settles counted ok
  have noted := assembleContext_agrees (s := ((port.after before).counts, []))
    (agrees_noting agrees) (fun r row => .inl row) port
    (port.available x) (JournalContextPort.recallOf x) steady.settles counted
    ⟨ok, fun r none_yet => absurd none_yet List.not_mem_nil⟩
  exact ⟨_, Prod.ext run rfl, sound, noted.2.2⟩

theorem load_of_rows {x : Load} (some_rows : x.journal.highwater ≠ 0) {state : PortState}
    {prepared : Prepared} {counts : Counts}
    (run : port.assembleContext (port.count x.ledger) x.journal (port.available x)
      (JournalContextPort.recallOf x) state.counts = (.ok prepared, counts)) :
    port.load x state =
      if x.frozen then
        (.ok ⟨x.journal.highwater, some prepared, none⟩, ⟨counts, state.selections⟩)
      else
        (.ok ⟨x.journal.highwater, some prepared,
            some (port.record x prepared state.selections).1⟩,
          ⟨counts, (port.record x prepared state.selections).2⟩) := by
  unfold JournalContextPort.recallOf at run
  unfold JournalContextPort.load
  rw [if_neg some_rows]
  simp only [run]

variable {selections : Dict SelectionKey Selection}

theorem record_old {old : Selection}
    (stored : get? selections (port.selectionKey x prepared) = some old) :
    port.record x prepared selections = (old, selections) := by
  unfold JournalContextPort.record
  simp only [stored]

theorem record_new (fresh : get? selections (port.selectionKey x prepared) = none) :
    port.record x prepared selections = (port.selectionOf x prepared,
      PyDict.set selections (port.selectionKey x prepared) (port.selectionOf x prepared)) := by
  unfold JournalContextPort.record
  simp only [fresh]

theorem load_step {before : List Load} (tell : HashesTell (before ++ [x]) x)
    (grown : ∀ y ∈ before, y.journal.rows <+: x.journal.rows) (steady : port.Steady before x)
    (known : Consistent port before (port.after before)) :
    (∃ loaded, (port.load x (port.after before)).1 = .ok loaded ∧ port.Exact x loaded) ∧
      Consistent port (before ++ [x]) (port.load x (port.after before)).2 := by
  have wider := consistent_more known (List.subset_append_left before [x])
  by_cases empty : x.journal.highwater = 0
  · unfold JournalContextPort.load
    rw [if_pos empty]
    refine ⟨⟨_, rfl, ?_⟩, wider⟩
    intro prepared selection there
    cases there
  · have met : x ∈ before ++ [x] := by simp
    obtain ⟨counts, run, ok, _⟩ := load_planned tell steady wider
    obtain ⟨prepared, planned, _⟩ := assembleContext_sides
      (exactly (port.rowTokens x.ledger)) port x.journal (port.available x)
      (JournalContextPort.recallOf x) ()
    replace planned : port.planned x = .ok prepared := planned
    rw [planned] at run
    have loaded := load_of_rows empty run
    by_cases frozen : x.frozen = true
    · rw [if_pos frozen] at loaded
      rw [loaded]
      refine ⟨⟨_, rfl, ?_⟩, ok.origin, ok.summaries, wider.stored⟩
      intro _ selection _ there
      cases there
    · rw [if_neg frozen] at loaded
      rw [loaded]
      cases stored : get? (port.after before).selections (port.selectionKey x prepared) with
      | some old =>
        rw [record_old stored]
        obtain ⟨y, there, prepared', made', key, same⟩ := known.stored _ old stored
        obtain ⟨assembly, available⟩ := planned_of_sameKey (grown y there)
          (steady.turns y there) steady.settles planned made' key
        refine ⟨⟨_, rfl, ?_⟩, ok.origin, ok.summaries, wider.stored⟩
        intro p selection hp hs fits
        have hp' : prepared = p := Option.some.inj hp
        have hs' : old = selection := Option.some.inj hs
        subst hp' hs'
        rw [same] at fits ⊢
        simp only [JournalContextPort.selectionOf, assembly] at fits ⊢
        exact ⟨planned_exact planned, (planned_parts planned).within fits⟩
      | none =>
        rw [record_new stored]
        refine ⟨⟨_, rfl, ?_⟩, ok.origin, ok.summaries, ?_⟩
        · intro p selection hp hs fits
          have hp' : prepared = p := Option.some.inj hp
          have hs' : port.selectionOf x prepared = selection := Option.some.inj hs
          subst hp' hs'
          exact ⟨planned_exact planned, (planned_parts planned).within fits⟩
        · intro key' selection found
          by_cases here : port.selectionKey x prepared = key'
          · subst here
            rw [get?_set_self] at found
            exact ⟨x, met, prepared, planned, rfl, (Option.some.inj found).symm⟩
          · rw [get?_set_ne _ _ here] at found
            exact wider.stored key' selection found

theorem after_concat (before : List Load) (x : Load) :
    port.after (before ++ [x]) = (port.load x (port.after before)).2 := by
  unfold JournalContextPort.after
  rw [Transitions.run_append]
  rfl

theorem growing_start {loads before later : List Load} (growing : Growing loads)
    (split : loads = before ++ x :: later) :
    HashesTell (before ++ [x]) x ∧ ∀ y ∈ before, y.journal.rows <+: x.journal.rows := by
  have inside : x ∈ loads := split ▸ by simp
  have order := growing.grows
  rw [split] at order
  have grown : ∀ y ∈ before, y.journal.rows <+: x.journal.rows := fun y there =>
    (List.pairwise_append.mp order).2.2 y there x List.mem_cons_self
  refine ⟨⟨?_, growing.probes x inside⟩, grown⟩
  intro y there r row t
  apply growing.hashes x inside r
  rcases List.mem_append.mp there with early | last
  · exact (grown y early).subset row
  · rw [← List.mem_singleton.mp last]
    exact row

section
variable {loads : List Load} (growing : Growing loads)
  (steady : ∀ before x later, loads = before ++ x :: later → port.Steady before x)
include growing steady

theorem run_consistent (before : List Load) : ∀ later, loads = before ++ later →
    Consistent port before (port.after before) := by
  induction before using List.reverseRecOn with
  | nil =>
    intro later _
    constructor
    · intro hash n found
      cases found
    · intro n found
      cases found
    · intro key selection found
      cases found
  | append_singleton before x ih =>
    intro later split
    have split' : loads = before ++ x :: later := by
      rw [split, List.append_assoc]
      rfl
    obtain ⟨tell, grown⟩ := growing_start growing split'
    rw [after_concat]
    exact (load_step tell grown (steady before x later split') (ih (x :: later) split')).2

omit growing in
theorem run_one (before : List Load) : ∀ later, loads = before ++ later →
    ∀ y ∈ before, ∀ z ∈ before, ∀ m ∈ port.foldedIn y, ∀ m' ∈ port.foldedIn z, m = m' := by
  induction before using List.reverseRecOn with
  | nil =>
    intro later _ y inside
    cases inside
  | append_singleton before x ih =>
    intro later split y hy z hz m hm m' hm'
    have split' : loads = before ++ x :: later := by
      rw [split, List.append_assoc]
      rfl
    have one := (steady before x later split').one
    rcases List.mem_append.mp hz with early | last
    · rcases List.mem_append.mp hy with early' | last'
      · exact ih (x :: later) split' y early' z early m hm m' hm'
      · rw [List.mem_singleton.mp last'] at hm
        exact (one z hz m' hm' m hm).symm
    · rw [List.mem_singleton.mp last] at hm'
      exact one y hy m hm m' hm'

theorem counts_counted {r : Record} (asked : port.Counts loads r) :
    ∃ x ∈ loads, Counted x (port.foldedIn x) r := by
  obtain ⟨before, x, later, split, inside⟩ := asked
  have known := run_consistent growing steady before (x :: later) split
  obtain ⟨_, _, _, counted⟩ := load_planned (growing_start growing split).1
    (steady before x later split) (consistent_more known (List.subset_append_left before [x]))
  exact ⟨x, split ▸ by simp, counted r inside⟩

omit steady in
theorem rows_tell {x y : Load} (hx : x ∈ loads) (hy : y ∈ loads) {r t : Record}
    (row : r ∈ x.journal.rows) (row' : t ∈ y.journal.rows)
    (same : r.contentHash = t.contentHash) : r.message = t.message := by
  have either : x.journal.rows <+: y.journal.rows ∨ y.journal.rows <+: x.journal.rows :=
    List.Pairwise.forall_of_forall_of_flip (R := fun x y : Load =>
        x.journal.rows <+: y.journal.rows ∨ y.journal.rows <+: x.journal.rows)
      (fun _ _ => Or.inl (List.prefix_refl _)) (growing.grows.imp fun grown => Or.inl grown)
      (growing.grows.imp fun grown => Or.inr grown) hx hy
  rcases either with grown | grown
  · exact growing.hashes y hy r (grown.subset row) t row' same
  · exact growing.hashes x hx r row t (grown.subset row') same

theorem counts_tell {r t : Record} (asked : port.Counts loads r) (asked' : port.Counts loads t)
    (same : r.contentHash = t.contentHash) : r.message = t.message := by
  obtain ⟨x, hx, which⟩ := counts_counted growing steady asked
  obtain ⟨y, hy, which'⟩ := counts_counted growing steady asked'
  rcases which with row | ⟨m, hm, rfl⟩
  · rcases which' with row' | ⟨m', _, rfl⟩
    · exact rows_tell growing hx hy row row' same
    · exact absurd same (growing.probes x hx r row)
  · rcases which' with row' | ⟨m', hm', rfl⟩
    · exact absurd same.symm (growing.probes y hy t row')
    · exact run_one steady loads [] (by simp) x hx y hy m hm m' hm'

/-- In every run of loads that are all steady, each load records exactly the tokens it sends, and
no two messages that the run counts share an entry of the cache. -/
theorem accounting_exact :
    (∀ before x later, loads = before ++ x :: later →
      ∃ loaded, (port.load x (port.after before)).1 = .ok loaded ∧ port.Exact x loaded) ∧
    ∀ r t, port.Counts loads r → port.Counts loads t → r.contentHash = t.contentHash →
      r.message = t.message := by
  refine ⟨fun before x later split => ?_, fun _ _ => counts_tell growing steady⟩
  obtain ⟨tell, grown⟩ := growing_start growing split
  exact (load_step tell grown (steady before x later split)
    (run_consistent growing steady before (x :: later) split)).1

end

end

def turnGroup : String := "run:provider-turn:1"

def textOf (role : MessageRole) (length : Nat) : Message :=
  ⟨role, .text (String.ofList (List.replicate length 'x')), none, none, []⟩

def sampleMessage : Kind → Message × String
  | .assistant => (textOf .assistant 8, "a0")
  | .toolResult => (textOf .tool 160, "b0")
  | _ => (textOf .user 40, "e0")

def sampleKind (seq : Nat) : Kind :=
  if seq = 2 then .assistant else if seq = 3 then .toolResult else .userInput

def sampleRow (seq : Nat) : Record where
  seq := seq
  appendId := toString seq
  kind := sampleKind seq
  turnId := none
  protocolGroupId := if (sampleKind seq).inGroup then turnGroup else toString seq
  message := (sampleMessage (sampleKind seq)).1
  contentHash := (sampleMessage (sampleKind seq)).2
  visibility := .context
  fullRecordSeq := none

def sampleJournal (n : Nat) : Journal where
  rows := (List.range' 1 n).map sampleRow
  numbered := by
    rw [List.map_map, List.length_map, List.length_range']
    exact List.map_id'' (fun _ => rfl) _
  hidden := by
    intro r row look
    obtain ⟨seq, _, rfl⟩ := List.mem_map.mp row
    cases look

def sampleLedger : TurnLedger where
  toolCalls ordinal := if ordinal = 1 then [⟨"call-1", "read", .obj []⟩] else []
  response request :=
    if request = turnGroup then
      some (some (.obj [("continuation", .obj [("reasoning_content", .str "read first")])]))
    else none

def sampleLoad (n : Nat) : Load where
  journal := sampleJournal n
  ledger := sampleLedger
  tools := []
  recaller := none
  frozen := false

def narrowPort : JournalContextPort where
  tokenizer := ⟨String.length, 0⟩
  policy := {
    maxInputTokens := 310
    outputReserve := 1
    safetyMargin := 0
    maxToolResultTokens := 1000
    toolResultPreviewChars := 10 }
  requestedPageSize := 8
  replayReasoning := true
  recallShare := fun _ => 0

theorem narrowPort_chars :
    narrowPort = { narrowPort with tokenizer := ⟨fun s => (PyText.chars s).length, 0⟩ } := by
  unfold narrowPort
  rw [PyText.length_eq_chars]

theorem sampleMessage_tells {k k' : Kind} (same : (sampleMessage k).2 = (sampleMessage k').2) :
    (sampleMessage k).1 = (sampleMessage k').1 := by
  cases k <;> cases k' <;> first | rfl | simp [sampleMessage] at same

theorem mem_sample {n : Nat} {r : Record} (row : r ∈ (sampleLoad n).journal.rows) :
    sampleRow r.seq = r := by
  obtain ⟨seq, _, rfl⟩ := List.mem_map.mp row
  rfl

theorem sampleJournal_prefix {m n : Nat} (more : m ≤ n) :
    (sampleJournal m).rows <+: (sampleJournal n).rows := by
  refine ⟨(List.range' (1 + m) (n - m)).map sampleRow, ?_⟩
  change (List.range' 1 m).map sampleRow ++ _ = (List.range' 1 n).map sampleRow
  rw [← List.map_append, List.range'_append_1]
  congr 2
  omega

theorem sampleLoads_growing {sizes : List Nat} (more : sizes.Pairwise (· ≤ ·)) :
    Growing (sizes.map sampleLoad) := by
  constructor
  · exact List.pairwise_map.mpr (more.imp fun le => sampleJournal_prefix le)
  · intro x inside r row t row' same
    obtain ⟨n, _, rfl⟩ := List.mem_map.mp inside
    rw [← mem_sample row, ← mem_sample row'] at same ⊢
    exact sampleMessage_tells same
  · intro x inside r row same
    obtain ⟨n, _, rfl⟩ := List.mem_map.mp inside
    obtain ⟨seq, _, rfl⟩ := List.mem_map.mp row
    have different : ∀ k, (sampleMessage k).2 ≠ probeContentHash := by
      intro k
      cases k <;> decide
    exact different (sampleKind seq) same

/-- The second load is charged the tokens of the first summary. -/
theorem accounting_drifts :
    Growing [sampleLoad 8, sampleLoad 20] ∧
      ∃ loaded, (narrowPort.load (sampleLoad 20) (narrowPort.after [sampleLoad 8])).1 =
          .ok loaded ∧ ¬ narrowPort.Exact (sampleLoad 20) loaded := by
  refine ⟨@sampleLoads_growing [8, 20] (by decide), ?_⟩
  have facts : ((narrowPort.load (sampleLoad 20) (narrowPort.after [sampleLoad 8])).1.toOption.any
      fun loaded => loaded.prepared.any fun prepared => loaded.selection.any fun selection =>
        decide (selection.requiredOverBudget = false ∧ selection.messageTokens ≠
          narrowPort.requestTokens (sampleLoad 20).ledger prepared.messages)) = true := by
    rw [narrowPort_chars]
    decide +kernel
  obtain ⟨loaded, run, seen⟩ := Checks.toOption_any_eq_true.mp facts
  refine ⟨loaded, run, ?_⟩
  intro counted
  obtain ⟨prepared, planned, seen⟩ := (Option.any_eq_true _ _).mp seen
  obtain ⟨selection, selected, seen⟩ := (Option.any_eq_true _ _).mp seen
  obtain ⟨fits, drift⟩ := of_decide_eq_true seen
  exact drift (counted prepared selection planned selected fits).1

def seqsOf (units : List ContextUnit) : List (List Nat) := units.map (·.records.map Record.seq)

theorem sampleUnits_eq {us vs : List ContextUnit}
    (rows : ∀ u ∈ us, ∀ r ∈ u.records, sampleRow r.seq = r)
    (rows' : ∀ u ∈ vs, ∀ r ∈ u.records, sampleRow r.seq = r)
    (same : seqsOf us = seqsOf vs) : us = vs := by
  have back : ∀ ws : List ContextUnit, (∀ u ∈ ws, ∀ r ∈ u.records, sampleRow r.seq = r) →
      (seqsOf ws).map (List.map sampleRow) = ws.map ContextUnit.records := by
    intro ws each
    unfold seqsOf
    rw [List.map_map]
    apply List.map_congr_left
    intro u inside
    rw [Function.comp_apply, List.map_map]
    exact (List.map_congr_left fun r row => each u inside r row).trans (List.map_id' _)
  have records := (back us rows).symm.trans ((congrArg _ same).trans (back vs rows'))
  refine List.map_injective_iff.mpr ?_ records
  intro u v same
  obtain ⟨head, rest⟩ := List.cons.inj same
  cases u
  cases v
  cases head
  cases rest
  rfl

section
variable (n : Nat)

def sampleOut (reserve : Nat) : Admission :=
  leftOut (narrowPort.rowTokens (sampleLoad n).ledger) (narrowPort.plannedUnits (sampleLoad n))
    (narrowPort.available (sampleLoad n)) reserve

def sampleTokens : Nat :=
  foldedTokens (narrowPort.rowTokens (sampleLoad n).ledger)
    (narrowPort.plannedUnits (sampleLoad n)) (narrowPort.available (sampleLoad n))

def sampleFolds (out : List (List Nat)) : Bool :=
  decide (seqsOf (sampleOut n 0).dropped = out ∧ (out = [] ∨
    (seqsOf (sampleOut n (sampleTokens n)).dropped = out ∧
      (sampleOut n (sampleTokens n)).used + sampleTokens n ≤
        narrowPort.available (sampleLoad n))))

theorem sampleOut_rows (reserve : Nat) :
    ∀ u ∈ (sampleOut n reserve).dropped, ∀ r ∈ u.records, sampleRow r.seq = r :=
  fun u inside _ row => mem_sample (n := n)
    (units_rows narrowPort (List.mem_flatMap.mpr ⟨u, mem_leftOut inside, row⟩))

theorem sample_budgets :
    narrowPort.budgetsOf (sampleLoad n) = [(narrowPort.available (sampleLoad n) : Int)] := by
  unfold JournalContextPort.budgetsOf JournalContextPort.budgets JournalContextPort.answered
  split <;> rfl

variable {n} {out : List (List Nat)} (folds : sampleFolds n out = true)
include folds

theorem sample_settles : ∀ budget ∈ narrowPort.budgetsOf (sampleLoad n),
    Settles (narrowPort.rowTokens (sampleLoad n).ledger) (narrowPort.plannedUnits (sampleLoad n))
      budget := by
  intro budget inside some_left
  rw [sample_budgets, List.mem_singleton] at inside
  subst inside
  obtain ⟨first, nothing | ⟨again, fits⟩⟩ := of_decide_eq_true folds
  · rw [nothing] at first
    exact absurd (List.map_eq_nil_iff.mp first) some_left
  · refine ⟨?_, .inr ?_⟩
    · exact sampleUnits_eq (sampleOut_rows n _) (sampleOut_rows n 0) (again.trans first.symm)
    · exact_mod_cast fits

theorem sample_folded {m : Message} (inside : m ∈ narrowPort.foldedIn (sampleLoad n)) :
    out ≠ [] ∧ m = (structuralSummary (sampleOut n 0).dropped false).message := by
  obtain ⟨budget, there, rfl⟩ := List.mem_map.mp inside
  obtain ⟨there, some_left⟩ := List.mem_filter.mp there
  rw [sample_budgets, List.mem_singleton] at there
  subst there
  obtain ⟨first, _⟩ := of_decide_eq_true folds
  refine ⟨?_, rfl⟩
  rintro rfl
  have nothing := List.map_eq_nil_iff.mp first
  have present : (!(sampleOut n 0).dropped.isEmpty) = true := some_left
  rw [nothing] at present
  cases present

end

/-- Two sample loads that fold the same rows fold them into one summary. -/
theorem sample_one {n n' : Nat} {out out' : List (List Nat)} (folds : sampleFolds n out = true)
    (folds' : sampleFolds n' out' = true) (alike : out = out' ∨ out = [] ∨ out' = []) :
    ∀ m ∈ narrowPort.foldedIn (sampleLoad n), ∀ m' ∈ narrowPort.foldedIn (sampleLoad n'),
      m = m' := by
  intro m inside m' inside'
  obtain ⟨present, rfl⟩ := sample_folded folds inside
  obtain ⟨present', rfl⟩ := sample_folded folds' inside'
  rcases alike with rfl | nothing | nothing
  · rw [sampleUnits_eq (sampleOut_rows n 0) (sampleOut_rows n' 0)
      ((of_decide_eq_true folds).1.trans (of_decide_eq_true folds').1.symm)]
  · exact absurd nothing present
  · exact absurd nothing present'

def turnCached (counts : Counts) : Bool :=
  (get? counts (.group turnGroup)).all (fun n =>
    decide (n = narrowPort.callsTokens sampleLedger turnGroup)) &&
  (get? counts (.reasoning turnGroup)).all fun n =>
    decide (n = narrowPort.replayTokens sampleLedger turnGroup)

theorem sample_current {n : Nat} {counts : Counts} (cached : turnCached counts = true) :
    narrowPort.Current (sampleLoad n) counts := by
  obtain ⟨calls, replays⟩ := (Bool.and_eq_true _ _).mp cached
  have turn : ∀ r ∈ (sampleLoad n).journal.rows, r.kind = .assistant →
      r.protocolGroupId = turnGroup := by
    intro r row sort
    rw [← mem_sample row] at sort ⊢
    change sampleKind r.seq = .assistant at sort
    simp [sampleRow, sort, Kind.inGroup]
  constructor
  · intro r row sort k found
    rw [turn r row sort] at found ⊢
    rw [found] at calls
    exact of_decide_eq_true calls
  · intro _ r row sort k found
    rw [turn r row sort] at found ⊢
    rw [found] at replays
    exact of_decide_eq_true replays

theorem sample_steady {sizes : List Nat} {n : Nat} {out : List (List Nat)}
    (cached : turnCached (narrowPort.after (sizes.map sampleLoad)).counts = true)
    (folds : sampleFolds n out = true)
    (earlier : ∀ k ∈ sizes, ∃ out', sampleFolds k out' = true ∧ (out' = out ∨ out' = [])) :
    narrowPort.Steady (sizes.map sampleLoad) (sampleLoad n) where
  current := sample_current cached
  turns := by
    intro y there
    obtain ⟨k, _, rfl⟩ := List.mem_map.mp there
    exact fun _ _ _ => rfl
  settles := sample_settles folds
  one := by
    intro y there
    rcases List.mem_append.mp there with before | last
    · obtain ⟨k, inside, rfl⟩ := List.mem_map.mp before
      obtain ⟨out', folds', same | nothing⟩ := earlier k inside
      · exact sample_one folds' folds (.inl same)
      · exact sample_one folds' folds (.inr (.inl nothing))
    · rw [List.mem_singleton.mp last]
      exact sample_one folds folds (.inl rfl)

/-- The turn fits at first; then it is folded away, twice into the same summary. -/
theorem accounting_exact_at_turn :
    let loads := [sampleLoad 3, sampleLoad 5, sampleLoad 6]
    (∃ loaded, (narrowPort.load (sampleLoad 6)
        (narrowPort.after [sampleLoad 3, sampleLoad 5])).1 = .ok loaded ∧
      narrowPort.Exact (sampleLoad 6) loaded) ∧
    ∀ r t, narrowPort.Counts loads r → narrowPort.Counts loads t →
      r.contentHash = t.contentHash → r.message = t.message := by
  have fits : ∀ n ∈ [3], sampleFolds n [] = true := by
    unfold sampleFolds sampleTokens sampleOut
    rw [narrowPort_chars]
    decide +kernel
  have folds : ∀ n ∈ [5, 6], sampleFolds n [[2, 3], [1]] = true := by
    unfold sampleFolds sampleTokens sampleOut
    rw [narrowPort_chars]
    decide +kernel
  have cached : ∀ sizes ∈ [[], [3], [3, 5]],
      turnCached (narrowPort.after (sizes.map sampleLoad)).counts = true := by
    unfold turnCached
    rw [narrowPort_chars]
    decide +kernel
  have both := @accounting_exact narrowPort ([3, 5, 6].map sampleLoad)
    (sampleLoads_growing (by decide)) ?_
  · exact ⟨both.1 [sampleLoad 3, sampleLoad 5] (sampleLoad 6) [] rfl, both.2⟩
  intro before x later split
  rcases before with _ | ⟨a, _ | ⟨b, _ | ⟨c, rest⟩⟩⟩
  · obtain ⟨rfl, _⟩ := List.cons.inj split
    exact sample_steady (cached [] (by simp)) (fits 3 (by simp)) (by simp)
  · obtain ⟨first, split⟩ := List.cons.inj split
    obtain ⟨rfl, _⟩ := List.cons.inj split
    subst first
    apply sample_steady (cached [3] (by simp)) (folds 5 (by simp))
    intro k inside
    rw [List.mem_singleton.mp inside]
    exact ⟨[], fits 3 (by simp), .inr rfl⟩
  · obtain ⟨first, split⟩ := List.cons.inj split
    obtain ⟨second, split⟩ := List.cons.inj split
    obtain ⟨rfl, _⟩ := List.cons.inj split
    subst first second
    apply sample_steady (cached [3, 5] (by simp)) (folds 6 (by simp))
    intro k inside
    rcases List.mem_pair.mp inside with rfl | rfl
    · exact ⟨[], fits 3 (by simp), .inr rfl⟩
    · exact ⟨_, folds 5 (by simp), .inl rfl⟩
  · obtain ⟨_, split⟩ := List.cons.inj split
    obtain ⟨_, split⟩ := List.cons.inj split
    obtain ⟨_, split⟩ := List.cons.inj split
    simp at split

end AgentContext
