import HarnessSdk.Context.Coverage

/-! Protocol groups in the request: an assistant message with all the rows that answer it, or
nothing of the group. -/
namespace AgentContext

/-- The rows of a protocol group stand together and begin with their assistant row. -/
structure Journal.WholeGroups (j : Journal) : Prop where
  together : ∀ group, Spans.Convex unitKey j.rows (.group, group)
  headed : ∀ r ∈ j.rows, r.kind.inGroup = true → ∃ a ∈ j.rows, a.kind = .assistant ∧
    a.protocolGroupId = r.protocolGroupId ∧ ∀ t ∈ j.rows, t.kind.inGroup = true →
      t.protocolGroupId = r.protocolGroupId → a.seq ≤ t.seq

structure GroupsKept (j : Journal) (messages : List Emitted) : Prop where
  answered : ∀ before r after, messages = before ++ .record r :: after →
    r.kind.answers = true → ∃ a, .record a ∈ before ∧ a.kind = .assistant ∧
      a.protocolGroupId = r.protocolGroupId
  complete : ∀ r, .record r ∈ messages → r.kind.inGroup = true → ∀ t ∈ j.rows,
    t.visibility = .context → t.kind.inGroup = true → t.protocolGroupId = r.protocolGroupId →
      .record t ∈ messages

theorem unitKey_of_inGroup {r : Record} (grouped : r.kind.inGroup = true) :
    unitKey r = (.group, r.protocolGroupId) := by
  unfold unitKey
  cases sort : r.kind <;> simp_all [Kind.inGroup]

theorem inGroup_of_unitKey {r : Record} {group : String} (key : unitKey r = (.group, group)) :
    r.kind.inGroup = true ∧ r.protocolGroupId = group := by
  unfold unitKey at key
  cases sort : r.kind <;> simp_all [Kind.inGroup]

theorem answers_inGroup {r : Record} (answers : r.kind.answers = true) :
    r.kind.inGroup = true ∧ r.kind ≠ .assistant := by
  cases sort : r.kind <;> simp_all [Kind.inGroup, Kind.answers]

theorem assistant_shown {j : Journal} {a : Record} (row : a ∈ j.rows)
    (sort : a.kind = .assistant) : a.visibility = .context := by
  cases look : a.visibility with
  | context => rfl
  | journalOnly =>
    have hidden := j.hidden a row look
    rw [sort] at hidden
    cases hidden

theorem ordered_ascending {units : List ContextUnit}
    (within : ∀ u ∈ units, Ascending u.records)
    (apart : units.Pairwise fun u v => Before u v ∨ Before v u) :
    Ascending (recordsOf (units.insertionSort fun u v => u.seqFrom ≤ v.seqFrom)) := by
  have perm := List.perm_insertionSort (fun u v : ContextUnit => u.seqFrom ≤ v.seqFrom) units
  apply List.pairwise_flatMap.mpr
  constructor
  · intro u inside
    exact within u (perm.mem_iff.mp inside)
  · have apart' := (perm.pairwise_iff fun swap => swap.symm).mpr apart
    have sorted : (units.insertionSort fun u v => u.seqFrom ≤ v.seqFrom).Pairwise
        fun u v => u.seqFrom ≤ v.seqFrom := List.pairwise_insertionSort _ units
    refine (apart'.and sorted).imp ?_
    rintro u v ⟨before | after, low⟩
    · exact before
    · have above := after v.head (head_mem v) u.head (head_mem u)
      unfold ContextUnit.seqFrom at low
      omega

section
variable {σ : Type} (count : Counter σ) (port : JournalContextPort) {j : Journal}
  {available : Nat} {s : σ}

theorem group_read (whole : j.WholeGroups) {r t : Record}
    (read : r ∈ (readBounded count port.pageSize j available s).1) (ht : t ∈ j.rows)
    (rg : r.kind.inGroup = true) (tg : t.kind.inGroup = true)
    (same : t.protocolGroupId = r.protocolGroupId) :
    t ∈ (readBounded count port.pageSize j available s).1 := by
  obtain ⟨rowsOf, cut, _, members⟩ :=
    readBounded_reads count (pageSize_pos port) j available s
  have hr := rowsOf.rows r read
  apply (members t ht).mpr
  rcases (members r hr).mp read with above | early | input | ⟨oldest, there, place, grouped, own⟩
  · by_cases high : cut < t.seq
    · exact .inl high
    · have bounds := Journal.seq_bounds hr
      obtain ⟨o, ho, place⟩ := Journal.exists_row (j := j) (n := cut + 1) (by omega) (by omega)
      have key : o.kind.inGroup = true ∧ o.protocolGroupId = r.protocolGroupId := by
        by_cases last : o.seq = r.seq
        · rw [Journal.seq_inj ho hr last]
          exact ⟨rg, rfl⟩
        · have order := sublist_of_ascending Journal.seq_increases ht ho hr
            (by omega) (by omega)
          apply inGroup_of_unitKey
          apply whole.together r.protocolGroupId t o r order
          · rw [unitKey_of_inGroup tg, same]
          · exact unitKey_of_inGroup rg
      exact .inr (.inr (.inr ⟨o, ho, place, key.1, same.trans key.2.symm⟩))
  · rw [early.1] at rg
    cases rg
  · have sort := (Journal.latest_eq_some input).2.1
    rw [sort] at rg
    cases rg
  · exact .inr (.inr (.inr ⟨oldest, there, place, grouped, same.trans own⟩))

theorem unit_of_group (whole : j.WholeGroups) {u : ContextUnit}
    (inside : u ∈ allUnits (readBounded count port.pageSize j available s).1) {r : Record}
    (row : r ∈ u.records) (grouped : r.kind.inGroup = true) :
    (u.head.kind = .assistant ∧ u.head.protocolGroupId = r.protocolGroupId) ∧
      ∀ t ∈ j.rows, t.visibility = .context → t.kind.inGroup = true →
        t.protocolGroupId = r.protocolGroupId → t ∈ u.records := by
  obtain ⟨rowsOf, _⟩ :=
    readBounded_reads count (pageSize_pos port) j available s
  have read := (mem_records_read inside row).1
  have convex : Spans.Convex unitKey
      (visible (readBounded count port.pageSize j available s).1) (.group, r.protocolGroupId) := by
    intro x y z order hx hz
    have rows : (visible (readBounded count port.pageSize j available s).1).Sublist j.rows :=
      List.filter_sublist.trans rowsOf.sublist
    exact whole.together r.protocolGroupId x y z (order.trans rows) hx hz
  have all : ∀ t ∈ j.rows, t.visibility = .context → t.kind.inGroup = true →
      t.protocolGroupId = r.protocolGroupId → t ∈ u.records := by
    intro t ht shown tg same
    have there := group_read count port whole read ht grouped tg same
    have listed : t ∈ visible (readBounded count port.pageSize j available s).1 :=
      List.mem_filter.mpr ⟨there, by simpa using shown⟩
    exact Spans.mem_run_of_key (records_run inside) convex row (unitKey_of_inGroup grouped) listed
      (by rw [unitKey_of_inGroup tg, same])
  refine ⟨?_, all⟩
  obtain ⟨a, ha, sort, own, least⟩ := whole.headed r (rowsOf.rows r read) grouped
  have member := all a ha (assistant_shown ha sort) (by rw [sort]; rfl) own
  have head_read := (mem_records_read inside (head_mem u)).1
  have head_row := rowsOf.rows _ head_read
  have head_key := (key_of_unit inside row).symm.trans (unitKey_of_inGroup grouped)
  have head_group := inGroup_of_unitKey head_key
  have low := least u.head head_row head_group.1 head_group.2
  have high := (seq_within ((allUnits_ordered rowsOf.order).1 u inside) member).1
  have equal : a = u.head := Journal.seq_inj ha head_row (by
    unfold ContextUnit.seqFrom at high
    omega)
  rw [← equal]
  exact ⟨sort, own⟩

theorem mem_record_iff {messages : List Emitted} {r : Record} :
    .record r ∈ messages ↔ r ∈ messages.filterMap Emitted.record? := by
  rw [List.mem_filterMap]
  constructor
  · intro inside
    exact ⟨_, inside, rfl⟩
  · rintro ⟨emitted, inside, same⟩
    cases emitted with
    | record t =>
      rw [← Option.some.inj same]
      exact inside
    | summary m => cases same
    | recalled m => cases same

/-- Groups are never split, for every counter, budget, page size and recall. -/
theorem groups_never_split (whole : j.WholeGroups) (recaller : Option Recall) :
    ∃ prepared, (port.assembleContext count j available recaller s).1 = .ok prepared ∧
      GroupsKept j prepared.messages := by
  obtain ⟨prepared, run, ⟨selected, dropped, sides⟩, rows, _⟩ :=
    assembleContext_sides count port j available recaller s
  obtain ⟨rowsOf, _⟩ :=
    readBounded_reads count (pageSize_pos port) j available s
  obtain ⟨within, order⟩ := allUnits_ordered rowsOf.order
  have laid := rows.trans sides.laid
  have unit : ∀ u ∈ selected, u ∈ allUnits (readBounded count port.pageSize j available s).1 :=
    fun u inside => mem_allUnits_of_units count port (mem_units_of_side sides (.inl inside))
  have emitted : ∀ r, .record r ∈ prepared.messages ↔ ∃ u ∈ selected, r ∈ u.records := by
    intro r
    rw [mem_record_iff, laid]
    unfold recordsOf
    simp only [List.mem_flatMap, List.mem_insertionSort]
  have ascending : Ascending (prepared.messages.filterMap Emitted.record?) := by
    rw [laid]
    have sub := (buildUnits_suffix (readBounded count port.pageSize j available s).1).sublist
    have apart : (selected ++ dropped).Pairwise fun u v => Before u v ∨ Before v u :=
      (sides.all.pairwise_iff fun swap => swap.symm).mpr
        ((order.sublist sub).imp fun before => .inl before)
    exact ordered_ascending (fun u inside => within u (unit u inside))
      (List.pairwise_append.mp apart).1
  refine ⟨prepared, run, ?_, ?_⟩
  · intro before r after split answers
    obtain ⟨grouped, other⟩ := answers_inGroup answers
    obtain ⟨u, inside, row⟩ := (emitted r).mp (by rw [split]; simp)
    obtain ⟨⟨sort, own⟩, _⟩ := unit_of_group count port whole (unit u inside) row grouped
    refine ⟨u.head, ?_, sort, own⟩
    have head_emitted : .record u.head ∈ prepared.messages :=
      (emitted u.head).mpr ⟨u, inside, head_mem u⟩
    have low := (seq_within (within u (unit u inside)) row).1
    rw [split, List.filterMap_append] at ascending
    have later := (List.pairwise_append.mp ascending).2.1
    rw [split] at head_emitted
    rcases List.mem_append.mp head_emitted with early | late
    · exact early
    · rcases List.mem_cons.mp late with same | behind
      · rw [Emitted.record.inj same] at sort
        exact absurd sort other
      · have above := (List.pairwise_cons.mp later).1 u.head (mem_record_iff.mp behind)
        unfold ContextUnit.seqFrom at low
        omega
  · intro r there grouped t ht shown tg same
    obtain ⟨u, inside, row⟩ := (emitted r).mp there
    obtain ⟨_, all⟩ := unit_of_group count port whole (unit u inside) row grouped
    exact (emitted t).mpr ⟨u, inside, all t ht shown tg same⟩

end

def exampleRow (seq : Nat) (kind : Kind) (visibility : Visibility) (text : String) : Record where
  seq := seq
  appendId := toString seq
  kind := kind
  turnId := none
  protocolGroupId := "run:provider-turn:1"
  message := ⟨.user, .text text, none, none, []⟩
  contentHash := text
  visibility := visibility
  fullRecordSeq := none

/-- An assistant row and five large results, each as its hidden original and its preview. -/
def previewRows : List Record :=
  exampleRow 1 .assistant .context "call" :: (List.range' 2 10).map fun seq =>
    if seq % 2 = 0 then exampleRow seq .toolResult .journalOnly "whole"
    else exampleRow seq .toolResult .context "preview"

def previewJournal : Journal where
  rows := previewRows
  numbered := by decide
  hidden := by decide

theorem previewJournal_whole : previewJournal.WholeGroups := by
  have keys : ∀ r ∈ previewRows, unitKey r = (.group, "run:provider-turn:1") := by decide
  constructor
  · intro group x y z order hx _
    rw [← hx, keys x (order.subset (by simp)), keys y (order.subset (by simp))]
  · intro r row _
    refine ⟨exampleRow 1 .assistant .context "call", List.mem_cons_self, rfl, ?_, ?_⟩
    · revert r
      decide
    · intro t ht _ _
      exact (Journal.seq_bounds (j := previewJournal) ht).1

/-- The group comes in two pages, the rows from the fourth on and then the first three. -/
theorem groups_never_split_across_pages :
    ∃ prepared, (plainPort.assembleContext (fun _ (s : Unit) => (1, s)) previewJournal 10 none
        ()).1 = .ok prepared ∧ prepared.messages.length = 6 ∧
      GroupsKept previewJournal prepared.messages := by
  have six : (plainPort.assembleContext (fun _ (s : Unit) => (1, s)) previewJournal 10 none
      ()).1.toOption.map (·.messages.length) = some 6 := by decide +kernel
  obtain ⟨prepared, run, kept⟩ :=
    groups_never_split (fun _ (s : Unit) => (1, s)) plainPort previewJournal_whole none
  rw [run] at six
  exact ⟨prepared, run, Option.some.inj six, kept⟩

end AgentContext
