import HarnessSdk.Context.Reading

/-! Units of the rows that were read: they hold every visible row, in order, and none overlaps
another; an assembly splits them into what it selects and what it drops. -/
namespace AgentContext

def allUnits (records : List Record) : List ContextUnit :=
  (Spans.runs unitKey (visible records)).filterMap unitOf

theorem recordsOf_unitOf (stretches : List (List Record)) :
    recordsOf (stretches.filterMap unitOf) = stretches.flatten := by
  induction stretches with
  | nil => rfl
  | cons first rest ih =>
    unfold recordsOf at ih
    cases first with
    | nil =>
      have skipped : unitOf [] = none := rfl
      rw [List.filterMap_cons_none skipped]
      exact ih
    | cons r later => simp [recordsOf, unitOf, ContextUnit.records, ih]

theorem recordsOf_allUnits (records : List Record) :
    recordsOf (allUnits records) = visible records := by
  unfold allUnits
  rw [recordsOf_unitOf, Spans.flatten_runs]

variable {records : List Record} {u : ContextUnit} {units dropped : List ContextUnit}

theorem records_run (inside : u ∈ allUnits records) :
    u.records ∈ Spans.runs unitKey (visible records) := by
  obtain ⟨stretch, there, made⟩ := List.mem_filterMap.mp inside
  cases stretch with
  | nil => simp [unitOf] at made
  | cons r later =>
    have same : u = ⟨r, later⟩ := (Option.some.inj made).symm
    rw [same]
    exact there

theorem head_mem (u : ContextUnit) : u.head ∈ u.records := List.mem_cons_self

variable {r : Record}

theorem key_of_unit (inside : u ∈ allUnits records) (row : r ∈ u.records) :
    unitKey r = unitKey u.head :=
  Spans.key_of_run (records_run inside) row (head_mem u)

theorem buildUnits_suffix (records : List Record) : buildUnits records <:+ allUnits records :=
  List.dropWhile_suffix _

theorem mem_records_read (inside : u ∈ allUnits records) (row : r ∈ u.records) :
    r ∈ records ∧ r.visibility = .context := by
  have flat : r ∈ recordsOf (allUnits records) := List.mem_flatMap.mpr ⟨u, inside, row⟩
  rw [recordsOf_allUnits] at flat
  simpa [visible] using flat

def Before (u v : ContextUnit) : Prop := ∀ r ∈ u.records, ∀ t ∈ v.records, r.seq < t.seq

theorem units_ordered (order : Ascending (recordsOf units)) :
    (∀ u ∈ units, Ascending u.records) ∧ units.Pairwise Before :=
  List.pairwise_flatMap.mp order

theorem allUnits_ordered (order : Ascending records) :
    (∀ u ∈ allUnits records, Ascending u.records) ∧ (allUnits records).Pairwise Before := by
  apply units_ordered
  rw [recordsOf_allUnits]
  exact order.filter _

theorem seq_within (order : Ascending u.records) (row : r ∈ u.records) :
    u.seqFrom ≤ r.seq ∧ r.seq ≤ u.seqTo := by
  constructor
  · rcases List.mem_cons.mp row with rfl | later
    · exact Nat.le_refl _
    · exact Nat.le_of_lt ((List.pairwise_cons.mp order).1 r later)
  · have split := List.dropLast_append_getLast (List.cons_ne_nil u.head u.rest)
    have row' : r ∈ (u.head :: u.rest).dropLast ++
        [(u.head :: u.rest).getLast (List.cons_ne_nil u.head u.rest)] := by
      rw [split]
      exact row
    have order' : Ascending ((u.head :: u.rest).dropLast ++
        [(u.head :: u.rest).getLast (List.cons_ne_nil u.head u.rest)]) := by
      rw [split]
      exact order
    rcases PyDict.mem_snoc.mp row' with earlier | rfl
    · exact Nat.le_of_lt ((List.pairwise_append.mp order').2.2 r earlier _ List.mem_cons_self)
    · exact le_rfl

theorem last_mem (u : ContextUnit) : ∃ z ∈ u.records, z.seq = u.seqTo :=
  ⟨_, List.getLast_mem (List.cons_ne_nil u.head u.rest), rfl⟩

theorem outside_of_before {v : ContextUnit} (apart : Before u v ∨ Before v u)
    (row : r ∈ u.records) : ¬ (v.seqFrom ≤ r.seq ∧ r.seq ≤ v.seqTo) := by
  rintro ⟨low, high⟩
  rcases apart with before | after
  · have := before r row v.head (head_mem v)
    unfold ContextUnit.seqFrom at low
    omega
  · obtain ⟨z, last, place⟩ := last_mem v
    have := after z last r row
    omega

theorem covers_droppedRanges (n : Nat) :
    Spans.Covers (droppedRanges dropped) n ↔
      ∃ u ∈ dropped, u.seqFrom ≤ n ∧ n ≤ u.seqTo := by
  have sorted : ((dropped.insertionSort fun u v => u.seqFrom ≤ v.seqFrom).map fun u =>
      (u.seqFrom, u.seqTo)).Pairwise fun s t => s.1 ≤ t.1 :=
    List.pairwise_map.mpr (List.pairwise_insertionSort _ dropped)
  unfold droppedRanges
  rw [Spans.covers_merge sorted]
  unfold Spans.Covers
  constructor
  · rintro ⟨s, listed, bounds⟩
    obtain ⟨u, inside, rfl⟩ := List.mem_map.mp listed
    exact ⟨u, (List.mem_insertionSort _).mp inside, bounds⟩
  · rintro ⟨u, inside, bounds⟩
    exact ⟨_, List.mem_map_of_mem ((List.mem_insertionSort _).mpr inside), bounds⟩

def Emitted.record? : Emitted → Option Record
  | .record r => some r
  | _ => none

/-- The two sides of an assembly: the units it selects, with all required ones, and those it
drops. -/
structure Sides (units selected dropped : List ContextUnit) (assembly : Assembly) : Prop where
  all : (selected ++ dropped).Perm units
  required : ∀ u ∈ requiredUnits units, u ∈ selected
  body : ∀ u ∈ dropped, u.kind ≠ .instructions
  seqs : ∀ n, n ∈ assembly.selectedSeqs ↔ ∃ u ∈ selected, ∃ r ∈ u.records, r.seq = n
  ranges : ∀ n, Spans.Covers assembly.droppedRanges n ↔
    ∃ u ∈ dropped, u.seqFrom ≤ n ∧ n ≤ u.seqTo
  laid : assembly.messages.filterMap Emitted.record? =
    recordsOf (selected.insertionSort fun u v => u.seqFrom ≤ v.seqFrom)

theorem records_layOut (ordered : List ContextUnit) (summary : Option Message) :
    (layOut ordered summary).filterMap Emitted.record? = recordsOf ordered := by
  have rows : ∀ records : List Record,
      (records.map Emitted.record).filterMap Emitted.record? = records := by
    intro records
    rw [List.filterMap_map]
    exact List.filterMap_some
  have pointer : (summary.toList.map Emitted.summary).filterMap Emitted.record? = [] := by
    cases summary <;> rfl
  unfold layOut
  simp only [List.filterMap_append, rows, pointer, List.append_nil]
  unfold recordsOf
  rw [← List.flatMap_append, List.takeWhile_append_dropWhile]

theorem sides_empty : Sides [] [] [] emptyAssembly := by
  refine ⟨List.Perm.refl _, ?_, by simp, by simp [emptyAssembly], ?_, rfl⟩
  · intro u inside
    simp [requiredUnits, instructionsOf, bodyOf] at inside
  · simp [emptyAssembly, Spans.Covers]

variable {assembly : Assembly}

theorem exists_sides {budget : Int} (composed : Composed units budget assembly) :
    ∃ selected dropped, Sides units selected dropped assembly := by
  obtain ⟨a, sent, requiredUsed, rfl, ⟨n, chosen, left⟩, _⟩ := composed.shape
  have optional : (a.selected ++ a.dropped).Perm units := by
    rw [chosen, left, List.append_assoc, List.take_append_drop]
    exact ((List.reverse_perm _).append_left _).trans (required_optional_perm units)
  refine ⟨a.selected, a.dropped, optional, ?_, ?_, ?_, covers_droppedRanges,
    records_layOut _ _⟩
  · intro u inside
    rw [chosen]
    exact List.mem_append_left _ inside
  · intro u inside
    rw [left] at inside
    have listed := List.mem_reverse.mp (List.mem_of_mem_drop inside)
    obtain ⟨place, kept, rfl⟩ := List.mem_map.mp listed
    have there := List.mem_zipIdx_iff_getElem?.mp (List.mem_of_mem_filter kept)
    have body := List.mem_of_getElem? there
    simpa [bodyOf] using (List.mem_filter.mp body).2
  · intro n
    simp only [assembled, recordsOf, List.mem_map, List.mem_flatMap, List.mem_insertionSort]
    constructor
    · rintro ⟨r, ⟨u, inside, row⟩, same⟩
      exact ⟨u, inside, r, row, same⟩
    · rintro ⟨u, inside, r, row, same⟩
      exact ⟨r, ⟨u, inside, row⟩, same⟩

theorem sides_apart {selected : List ContextUnit} (sides : Sides units selected dropped assembly)
    (order : units.Pairwise Before) {n : Nat} (chosen : n ∈ assembly.selectedSeqs) :
    ¬ Spans.Covers assembly.droppedRanges n := by
  intro covered
  obtain ⟨u, hu, r, row, rfl⟩ := (sides.seqs n).mp chosen
  obtain ⟨v, hv, bounds⟩ := (sides.ranges r.seq).mp covered
  have apart : (selected ++ dropped).Pairwise fun u v => Before u v ∨ Before v u :=
    (sides.all.pairwise_iff fun swap => swap.symm).mpr (order.imp fun before => .inl before)
  exact outside_of_before ((List.pairwise_append.mp apart).2.2 u hu v hv) row bounds

theorem sides_cover {selected : List ContextUnit} (sides : Sides units selected dropped assembly)
    (order : ∀ u ∈ units, Ascending u.records) (inside : u ∈ units) (row : r ∈ u.records) :
    r.seq ∈ assembly.selectedSeqs ∨ Spans.Covers assembly.droppedRanges r.seq := by
  rcases List.mem_append.mp (sides.all.mem_iff.mpr inside) with chosen | left
  · exact .inl ((sides.seqs r.seq).mpr ⟨u, chosen, r, row, rfl⟩)
  · exact .inr ((sides.ranges r.seq).mpr ⟨u, left, seq_within (order u inside) row⟩)

theorem records_splice (messages : List Emitted) (recalled : List Message) :
    (splice messages recalled).filterMap Emitted.record? =
      messages.filterMap Emitted.record? := by
  have nothing : (recalled.map Emitted.recalled).filterMap Emitted.record? = [] := by
    rw [List.filterMap_map]
    exact List.filterMap_eq_nil_iff.mpr fun _ _ => rfl
  unfold splice
  simp only [List.filterMap_append, nothing, List.append_nil]
  rw [← List.filterMap_append, List.takeWhile_append_dropWhile]

section
variable {σ : Type} (count : Counter σ)

theorem assemble_sides (units : List ContextUnit) (budget : Int) (s : σ) :
    ∃ assembly, (assemble count units budget s).1 = .ok assembly ∧
      (∃ selected dropped, Sides units selected dropped assembly) ∧
      (0 ≤ budget ∨ units ≠ [] → assembly.requiredOverBudget = false →
        (assembly.messageTokens : Int) ≤ budget) := by
  by_cases empty : units = []
  · subst empty
    refine ⟨emptyAssembly, rfl, ⟨[], [], sides_empty⟩, ?_⟩
    intro room _
    simpa [emptyAssembly] using room
  · obtain ⟨assembly, run, composed⟩ := assemble_composed count empty budget s
    exact ⟨assembly, run, exists_sides composed, fun _ => composed.within⟩

def JournalContextPort.unitsOf (port : JournalContextPort) (j : Journal) (available : Nat)
    (s : σ) : List ContextUnit :=
  buildUnits (readBounded count port.pageSize j available s).1

theorem no_recall_of_no_units (port : JournalContextPort) (recaller : Option Recall)
    (available : Nat) (assembly : Assembly) : port.recalls recaller available [] assembly = none := by
  have blank : PyText.strip "" = "" := by decide +kernel
  cases recaller with
  | none => rfl
  | some ask => simp [JournalContextPort.recalls, currentInput, blank]

variable {port : JournalContextPort} {available : Nat} {recaller : Option Recall}
  {units : List ContextUnit}

theorem assembleContext_plain {count : Counter σ} {j : Journal} {s s' : σ} {assembly : Assembly}
    (read : port.unitsOf count j available s = units)
    (first : assemble count units available (readBounded count port.pageSize j available s).2 =
      (.ok assembly, s')) (asked : port.recalls recaller available units assembly = none) :
    port.assembleContext count j available recaller s =
      (.ok ⟨assembly, assembly.messages, (currentInput units).bind ContextUnit.turnId, none, [],
        0⟩, s') := by
  unfold JournalContextPort.unitsOf at read
  unfold JournalContextPort.assembleContext
  simp only [read, first, asked]

theorem assembleContext_recalled {count : Counter σ} {j : Journal} {s s' s'' : σ}
    {assembly assembly' : Assembly} {query : String} {recalled : List Message}
    (read : port.unitsOf count j available s = units)
    (first : assemble count units available (readBounded count port.pageSize j available s).2 =
      (.ok assembly, s'))
    (asked : port.recalls recaller available units assembly = some (query, recalled))
    (second : assemble count units ((available : Int) - ((recalled.map (countMessage
      port.tokenizer)).sum : Nat)) s' = (.ok assembly', s'')) :
    port.assembleContext count j available recaller s =
      (.ok ⟨assembly', splice assembly'.messages recalled,
        (currentInput units).bind ContextUnit.turnId, some query, recalled,
        (recalled.map (countMessage port.tokenizer)).sum⟩, s'') := by
  unfold JournalContextPort.unitsOf at read
  unfold JournalContextPort.assembleContext
  simp only [read, first, asked, second]

theorem assembleContext_sides (port : JournalContextPort) (j : Journal) (available : Nat)
    (recaller : Option Recall) (s : σ) :
    ∃ prepared, (port.assembleContext count j available recaller s).1 = .ok prepared ∧
      (∃ selected dropped,
        Sides (port.unitsOf count j available s) selected dropped prepared.assembly) ∧
      prepared.messages.filterMap Emitted.record? =
        prepared.assembly.messages.filterMap Emitted.record? ∧
      (prepared.assembly.requiredOverBudget = false →
        prepared.assembly.messageTokens + prepared.recallTokens ≤ available) := by
  obtain ⟨assembly, first, sides, within⟩ := assemble_sides count
    (port.unitsOf count j available s) (available : Int)
    (readBounded count port.pageSize j available s).2
  cases asked : port.recalls recaller available (port.unitsOf count j available s) assembly with
  | none =>
    rw [assembleContext_plain rfl (Prod.ext first rfl) asked]
    refine ⟨_, rfl, sides, rfl, ?_⟩
    intro fits
    have bound := within (.inl (by omega)) fits
    simp only [Nat.add_zero]
    omega
  | some answer =>
    obtain ⟨query, recalled⟩ := answer
    have some_units : port.unitsOf count j available s ≠ [] := by
      intro empty
      rw [empty, no_recall_of_no_units] at asked
      simp at asked
    obtain ⟨assembly', second, sides', within'⟩ := assemble_sides count
      (port.unitsOf count j available s)
      ((available : Int) - ((recalled.map (countMessage port.tokenizer)).sum : Nat))
      (assemble count (port.unitsOf count j available s) (available : Int)
        (readBounded count port.pageSize j available s).2).2
    rw [assembleContext_recalled rfl (Prod.ext first rfl) asked (Prod.ext second rfl)]
    refine ⟨_, rfl, sides', records_splice _ _, ?_⟩
    intro fits
    have bound := within' (.inr some_units) fits
    dsimp only
    omega

end

theorem pageSize_pos (port : JournalContextPort) : 1 ≤ port.pageSize := by
  unfold JournalContextPort.pageSize
  omega

end AgentContext
