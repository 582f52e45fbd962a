import HarnessSdk.Context.Units

/-! Where the history goes that is not in the request: rows are selected, in a dropped range, or
left behind without a word. -/
namespace AgentContext

/-- Every visible row is selected or in a recorded dropped range, no row is both, and the parts
that must be there are selected. -/
structure NothingLost (j : Journal) (assembly : Assembly) : Prop where
  covered : ∀ r ∈ j.rows, r.visibility = .context →
    r.seq ∈ assembly.selectedSeqs ∨ Spans.Covers assembly.droppedRanges r.seq
  apart : ∀ n ∈ assembly.selectedSeqs, ¬ Spans.Covers assembly.droppedRanges n
  instructions : ∀ r ∈ j.rows, r.visibility = .context → r.kind = .instructions →
    r.seq ∈ assembly.selectedSeqs
  input : ∀ r, j.latest .userInput = some r → r.seq ∈ assembly.selectedSeqs
  newest : ∀ run, (Spans.runs unitKey (visible j.rows)).getLast? = some run →
    ∀ r ∈ run, r.seq ∈ assembly.selectedSeqs

/-- No row of another unit stands between the rows of one group or of one user input. -/
def Journal.Contiguous (j : Journal) : Prop :=
  ∀ k : UnitKind × String, k.1 ≠ .instructions → Spans.Convex unitKey j.rows k

def Kind.answers (kind : Kind) : Bool := decide (kind = .toolResult ∨ kind = .feedback)

section
variable {σ : Type} (count : Counter σ)

/-- The bounded read meets every visible row, and the first of them does not answer a message that
is missing. -/
structure ReadsAll (page : Nat) (j : Journal) (available : Nat) (s : σ) : Prop where
  reached : ∀ r ∈ visible j.rows, Reached count page j available s r
  headed : ∀ r, (visible j.rows).head? = some r → r.kind.answers = false

variable (port : JournalContextPort) {j : Journal} {available : Nat} {s : σ}

theorem visible_read (all : ∀ r ∈ visible j.rows, Reached count port.pageSize j available s r) :
    visible (readBounded count port.pageSize j available s).1 = visible j.rows := by
  obtain ⟨rowsOf, _⟩ :=
    readBounded_reads count (pageSize_pos port) j available s
  apply Ascending.ext (rowsOf.order.filter _) (Ascending.filter Journal.seq_increases _)
  intro r
  rw [List.mem_filter, List.mem_filter]
  constructor
  · rintro ⟨inside, seen⟩
    exact ⟨rowsOf.rows r inside, seen⟩
  · rintro ⟨row, seen⟩
    have here : r ∈ visible j.rows := List.mem_filter.mpr ⟨row, seen⟩
    exact ⟨(mem_readBounded_iff count (pageSize_pos port) row).mpr (all r here), seen⟩

theorem headless_iff (u : ContextUnit) : u.headless = u.head.kind.answers := by
  unfold ContextUnit.headless ContextUnit.kind unitKey Kind.answers
  cases u.head.kind <;> simp

variable {records : List Record} {u : ContextUnit} {selected dropped : List ContextUnit}
  {assembly : Assembly}

theorem head_of_units {later : List ContextUnit} (split : allUnits records = u :: later) :
    (visible records).head? = some u.head := by
  rw [← recordsOf_allUnits, split]
  rfl

theorem buildUnits_of_headed
    (headed : ∀ r, (visible records).head? = some r → r.kind.answers = false) :
    buildUnits records = allUnits records := by
  change (allUnits records).dropWhile ContextUnit.headless = allUnits records
  cases split : allUnits records with
  | nil => rfl
  | cons u later =>
    have whole : u.headless = false := by
      rw [headless_iff]
      exact headed u.head (head_of_units split)
    rw [List.dropWhile_cons_of_neg (by simp [whole])]

theorem kind_instructions_iff (r : Record) :
    (unitKey r).1 = .instructions ↔ r.kind = .instructions := by
  unfold unitKey
  cases r.kind <;> simp

theorem kind_userInput_iff (r : Record) : (unitKey r).1 = .userInput ↔ r.kind = .userInput := by
  unfold unitKey
  cases r.kind <;> simp

variable {r : Record}

theorem exists_unit (row : r ∈ visible records) : ∃ u ∈ allUnits records, r ∈ u.records := by
  rw [← recordsOf_allUnits] at row
  exact List.mem_flatMap.mp row

theorem last_unit {run : List Record}
    (last : (Spans.runs unitKey (visible records)).getLast? = some run) :
    ∃ u, (allUnits records).getLast? = some u ∧ u.records = run := by
  obtain ⟨front, split⟩ := List.getLast?_eq_some_iff.mp last
  have there : run ∈ Spans.runs unitKey (visible records) := by
    rw [split]
    exact List.mem_append_right front List.mem_cons_self
  have filled : run ≠ [] := Spans.run_ne_nil there
  cases run with
  | nil => exact absurd rfl filled
  | cons r rest =>
    refine ⟨⟨r, rest⟩, ?_, rfl⟩
    unfold allUnits
    rw [split, List.filterMap_append]
    exact List.getLast?_concat

theorem input_required (order : Ascending records) (inside : u ∈ allUnits records)
    (row : r ∈ u.records) (sort : r.kind = .userInput)
    (newest : ∀ t ∈ records, t.kind = .userInput → t.seq ≤ r.seq) :
    u ∈ requiredUnits (allUnits records) := by
  obtain ⟨front, back, split⟩ := List.append_of_mem inside
  have key := key_of_unit inside row
  have unit_sort : u.kind = .userInput := by
    unfold ContextUnit.kind
    rw [← key]
    exact (kind_userInput_iff r).mpr sort
  have ordered := (allUnits_ordered order).2
  rw [split] at ordered ⊢
  apply userInput_required unit_sort
  intro v later same
  have after := (List.pairwise_cons.mp (List.pairwise_append.mp ordered).2.1).1 v later
  have there : v ∈ allUnits records := split ▸ by simp [later]
  have head_sort : v.head.kind = .userInput := (kind_userInput_iff v.head).mp same
  have bound := newest v.head (mem_records_read there (head_mem v)).1 head_sort
  have above := after r row v.head (head_mem v)
  omega

theorem nothingLost_of_reads (all : ReadsAll count port.pageSize j available s)
    (sides : Sides (port.unitsOf count j available s) selected dropped assembly) :
    NothingLost j assembly := by
  obtain ⟨rowsOf, _⟩ :=
    readBounded_reads count (pageSize_pos port) j available s
  have seen := visible_read count port all.reached
  have units : port.unitsOf count j available s =
      allUnits (readBounded count port.pageSize j available s).1 := by
    apply buildUnits_of_headed
    rw [seen]
    exact all.headed
  rw [units] at sides
  obtain ⟨within, order⟩ := allUnits_ordered rowsOf.order
  have unit_of : ∀ r ∈ j.rows, r.visibility = .context →
      ∃ u ∈ allUnits (readBounded count port.pageSize j available s).1, r ∈ u.records := by
    intro r row shown
    apply exists_unit
    rw [seen]
    exact List.mem_filter.mpr ⟨row, by simpa using shown⟩
  have chosen : ∀ u ∈ requiredUnits (allUnits (readBounded count port.pageSize j available s).1),
      ∀ r ∈ u.records, r.seq ∈ assembly.selectedSeqs := by
    intro u required r row
    exact (sides.seqs r.seq).mpr ⟨u, sides.required u required, r, row, rfl⟩
  constructor
  · intro r row shown
    obtain ⟨u, inside, there⟩ := unit_of r row shown
    exact sides_cover sides within inside there
  · intro n inside
    exact sides_apart sides order inside
  · intro r row shown sort
    obtain ⟨u, inside, there⟩ := unit_of r row shown
    apply chosen u _ r there
    apply instructions_required inside
    unfold ContextUnit.kind
    rw [← key_of_unit inside there]
    exact (kind_instructions_iff r).mpr sort
  · intro r found
    obtain ⟨row, sort, last⟩ := Journal.latest_eq_some found
    have shown : r.visibility = .context := by
      cases look : r.visibility with
      | context => rfl
      | journalOnly =>
        have hidden := j.hidden r row look
        rw [sort] at hidden
        cases hidden
    obtain ⟨u, inside, there⟩ := unit_of r row shown
    apply chosen u _ r there
    exact input_required rowsOf.order inside there sort
      fun t ht same => last t (rowsOf.rows t ht) same
  · intro run last r row
    rw [← seen] at last
    obtain ⟨u, tail, same⟩ := last_unit last
    exact chosen u (tail_required tail) r (same ▸ row)

theorem mem_allUnits_of_units (inside : u ∈ port.unitsOf count j available s) :
    u ∈ allUnits (readBounded count port.pageSize j available s).1 :=
  (buildUnits_suffix _).subset inside

theorem mem_units_of_side {units : List ContextUnit}
    (sides : Sides units selected dropped assembly) (inside : u ∈ selected ∨ u ∈ dropped) :
    u ∈ units :=
  sides.all.mem_iff.mp (List.mem_append.mpr inside)

theorem reached_between {x z : Record} (hx : x ∈ j.rows) (hr : r ∈ j.rows)
    (key : unitKey r = unitKey x) (last : unitKey z = unitKey x) (hz : z ∈ j.rows)
    (low : x.seq ≤ r.seq) (high : r.seq ≤ z.seq) (grouped : (unitKey x).1 ≠ .instructions)
    (reached : Reached count port.pageSize j available s x) :
    Reached count port.pageSize j available s r := by
  have group : r.kind ≠ .instructions → x.kind ≠ .instructions →
      r.protocolGroupId = x.protocolGroupId := by
    intro rk xk
    unfold unitKey at key
    cases rsort : r.kind <;> cases xsort : x.kind <;> simp_all
  have rsort : r.kind ≠ .instructions := by
    intro same
    have := (kind_instructions_iff r).mpr same
    rw [key] at this
    exact grouped this
  have xsort : x.kind ≠ .instructions := fun same => grouped ((kind_instructions_iff x).mpr same)
  rcases reached with affords | early | input | head
  · left
    intro k two outside
    exact affords k two (by omega)
  · exact absurd early.1 xsort
  · obtain ⟨_, sort, newest⟩ := Journal.latest_eq_some input
    have zsort : z.kind = .userInput := by
      rw [← kind_userInput_iff, last]
      exact (kind_userInput_iff x).mpr sort
    have bound := newest z hz zsort
    have same : r = x := Journal.seq_inj hr hx (by omega)
    rw [same]
    exact .inr (.inr (.inl input))
  · obtain ⟨oldest, there, afforded, first, sort, same⟩ := head
    exact .inr (.inr (.inr ⟨oldest, there, afforded, first, sort,
      (group rsort xsort).trans same⟩))

theorem sublist_of_ascending (order : Ascending records) {x y z : Record} (hx : x ∈ records)
    (hy : y ∈ records) (hz : z ∈ records) (first : x.seq < y.seq) (second : y.seq < z.seq) :
    [x, y, z].Sublist records := by
  obtain ⟨front, rest, split⟩ := List.append_of_mem hy
  rw [split] at order hx hz ⊢
  obtain ⟨_, tail, cross⟩ := List.pairwise_append.mp order
  have before : x ∈ front := by
    rcases List.mem_append.mp hx with early | late
    · exact early
    · rcases List.mem_cons.mp late with rfl | later
      · omega
      · have := (List.pairwise_cons.mp tail).1 x later
        omega
  have after : z ∈ rest := by
    rcases List.mem_append.mp hz with early | late
    · have := cross z early y List.mem_cons_self
      omega
    · rcases List.mem_cons.mp late with rfl | later
      · omega
      · exact later
  have both : ([x] ++ ([y] ++ [z])).Sublist (front ++ ([y] ++ rest)) :=
    (List.singleton_sublist.mpr before).append
      ((List.Sublist.refl [y]).append (List.singleton_sublist.mpr after))
  exact both

theorem read_of_dropped (whole : j.Contiguous)
    (inside : u ∈ allUnits (readBounded count port.pageSize j available s).1)
    (body : u.kind ≠ .instructions) (row : r ∈ j.rows) (low : u.seqFrom ≤ r.seq)
    (high : r.seq ≤ u.seqTo) : Reached count port.pageSize j available s r := by
  obtain ⟨rowsOf, _⟩ :=
    readBounded_reads count (pageSize_pos port) j available s
  obtain ⟨z, last, place⟩ := last_mem u
  have head_read := (mem_records_read inside (head_mem u)).1
  have last_read := (mem_records_read inside last).1
  have head_row := rowsOf.rows _ head_read
  have last_row := rowsOf.rows _ last_read
  have head_reached := (mem_readBounded_iff count (pageSize_pos port) head_row).mp head_read
  have last_reached := (mem_readBounded_iff count (pageSize_pos port) last_row).mp last_read
  have last_key := key_of_unit inside last
  by_cases first : r.seq = u.head.seq
  · rw [Journal.seq_inj row head_row first]
    exact head_reached
  · by_cases final : r.seq = z.seq
    · rw [Journal.seq_inj row last_row final]
      exact last_reached
    · have from_head : u.head.seq ≤ r.seq := low
      have between := sublist_of_ascending Journal.seq_increases head_row row last_row
        (by omega) (by omega)
      have key := whole (unitKey u.head) body u.head r z between rfl last_key
      exact reached_between count port head_row row key last_key last_row (by omega) (by omega)
        body head_reached

theorem reads_of_nothingLost (whole : j.Contiguous)
    (sides : Sides (port.unitsOf count j available s) selected dropped assembly)
    (kept : NothingLost j assembly) : ReadsAll count port.pageSize j available s := by
  obtain ⟨rowsOf, _⟩ :=
    readBounded_reads count (pageSize_pos port) j available s
  have reached : ∀ r ∈ visible j.rows, Reached count port.pageSize j available s r := by
    intro r shown
    obtain ⟨row, seen⟩ := List.mem_filter.mp shown
    rcases kept.covered r row (by simpa using seen) with chosen | range
    · obtain ⟨u, hu, t, there, same⟩ := (sides.seqs r.seq).mp chosen
      have inside := mem_allUnits_of_units count port (mem_units_of_side sides (.inl hu))
      have read := (mem_records_read inside there).1
      rw [← Journal.seq_inj (rowsOf.rows t read) row same]
      exact (mem_readBounded_iff count (pageSize_pos port) (rowsOf.rows t read)).mp read
    · obtain ⟨u, hu, low, high⟩ := (sides.ranges r.seq).mp range
      have inside := mem_allUnits_of_units count port (mem_units_of_side sides (.inr hu))
      exact read_of_dropped count port whole inside (sides.body u hu) row low high
  refine ⟨reached, ?_⟩
  intro r first
  by_contra orphan
  have seen := visible_read count port reached
  rw [← seen] at first
  cases split : allUnits (readBounded count port.pageSize j available s).1 with
  | nil =>
    have none_visible := recordsOf_allUnits (readBounded count port.pageSize j available s).1
    rw [split] at none_visible
    rw [← none_visible] at first
    simp [recordsOf] at first
  | cons u later =>
    have head : r = u.head := by
      rw [head_of_units split] at first
      exact (Option.some.inj first).symm
    have headless : u.headless = true := by
      rw [headless_iff, ← head]
      simpa using orphan
    have after : ∀ v ∈ port.unitsOf count j available s, r.seq < v.seqFrom := by
      intro v inside
      have discarded : v ∈ later := by
        have there : v ∈ (u :: later).dropWhile ContextUnit.headless := by
          rw [← split]
          exact inside
        rw [List.dropWhile_cons_of_pos headless] at there
        exact (List.dropWhile_suffix _).subset there
      have order := (allUnits_ordered rowsOf.order).2
      rw [split] at order
      have before := (List.pairwise_cons.mp order).1 v discarded
      rw [head]
      exact before u.head (head_mem u) v.head (head_mem v)
    have shown : r ∈ visible j.rows := by
      rw [← seen]
      exact List.mem_of_mem_head? first
    obtain ⟨row, context⟩ := List.mem_filter.mp shown
    rcases kept.covered r row (by simpa using context) with chosen | range
    · obtain ⟨v, hv, t, there, same⟩ := (sides.seqs r.seq).mp chosen
      have unit := mem_units_of_side sides (.inl hv)
      have inside := mem_allUnits_of_units count port unit
      have bounds := seq_within ((allUnits_ordered rowsOf.order).1 v inside) there
      have := after v unit
      omega
    · obtain ⟨v, hv, low, _⟩ := (sides.ranges r.seq).mp range
      have := after v (mem_units_of_side sides (.inr hv))
      omega

/-- Loading the context loses no history in silence exactly where the bounded read meets every
visible row; for journals with torn groups the read of every row is still enough. -/
theorem nothing_lost_iff_reads_all (recaller : Option Recall) :
    ∃ prepared, (port.assembleContext count j available recaller s).1 = .ok prepared ∧
      (ReadsAll count port.pageSize j available s → NothingLost j prepared.assembly) ∧
      (j.Contiguous → NothingLost j prepared.assembly →
        ReadsAll count port.pageSize j available s) := by
  obtain ⟨prepared, run, ⟨selected, dropped, sides⟩, _⟩ :=
    assembleContext_sides count port j available recaller s
  exact ⟨prepared, run, fun all => nothingLost_of_reads count port all sides,
    fun whole kept => reads_of_nothingLost count port whole sides kept⟩

end

def longJournal : Journal where
  rows := (List.range' 1 20).map fun n =>
    { seq := n
      appendId := toString n
      kind := if n = 1 then .instructions else .userInput
      turnId := none
      protocolGroupId := toString n
      message := ⟨.user, .text "", none, none, []⟩
      contentHash := toString n
      visibility := .context
      fullRecordSeq := none }
  numbered := by decide
  hidden := by
    intro r row
    obtain ⟨n, _, rfl⟩ := List.mem_map.mp row
    intro look
    cases look

def plainPort : JournalContextPort where
  tokenizer := ⟨String.length, 0⟩
  policy := {
    maxInputTokens := 10
    outputReserve := 1
    safetyMargin := 0
    maxToolResultTokens := 100
    toolResultPreviewChars := 10 }
  requestedPageSize := 8
  replayReasoning := false
  recallShare := fun _ => 0

/-- The second row is in no page, and nothing says so. -/
theorem history_lost_in_silence :
    ∃ prepared, (plainPort.assembleContext (fun _ (s : Unit) => (1, s)) longJournal 10 none
        ()).1 = .ok prepared ∧ ¬ NothingLost longJournal prepared.assembly := by
  have facts : ((plainPort.assembleContext (fun _ (s : Unit) => (1, s)) longJournal 10 none
      ()).1.toOption.any fun prepared => decide (2 ∉ prepared.assembly.selectedSeqs ∧
        ¬ Spans.Covers prepared.assembly.droppedRanges 2)) = true := by decide +kernel
  obtain ⟨prepared, run, seen⟩ := Checks.toOption_any_eq_true.mp facts
  obtain ⟨unselected, undropped⟩ := of_decide_eq_true seen
  refine ⟨prepared, run, ?_⟩
  intro kept
  obtain ⟨r, row, second⟩ := Journal.exists_row (j := longJournal) (n := 2) (by decide)
    (by decide)
  have shown : r.visibility = .context := by
    obtain ⟨n, _, rfl⟩ := List.mem_map.mp row
    rfl
  rcases kept.covered r row shown with chosen | range
  · exact unselected (second ▸ chosen)
  · exact undropped (second ▸ range)

end AgentContext
