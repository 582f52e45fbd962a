import HarnessSdk.Context.Units

/-! A counter with a state, and the plain counts it agrees with: the same rows are read, the same
units admitted and the same summary folded. -/
namespace AgentContext

def exactly (f : Record → Nat) : Counter Unit := fun r s => (f r, s)

/-- As long as the state is sound, the counter gives these counts to these rows and stays sound. -/
def Agrees {σ : Type} (count : Counter σ) (f : Record → Nat) (rows : Record → Prop)
    (sound : σ → Prop) : Prop :=
  ∀ r s, rows r → sound s → (count r s).1 = f r ∧ sound (count r s).2

/-- The counter, keeping a list of the rows that it counts. -/
def noting {σ : Type} (count : Counter σ) : Counter (σ × List Record) := fun r s =>
  let counted := count r s.1
  (counted.1, (counted.2, s.2 ++ [r]))

/-- The result of the plain counts, from a state that is sound afterwards. -/
abbrev Same {σ α : Type} (sound : σ → Prop) (x : α × σ) (y : α × Unit) : Prop :=
  x.1 = y.1 ∧ sound x.2

section
variable {σ : Type} {count : Counter σ} {f : Record → Nat} {rows : Record → Prop}
  {sound : σ → Prop} {s : σ} {units : List ContextUnit} {j : Journal} {budget : Int}
  {overBudget : Bool}

theorem agrees_noting (agrees : Agrees count f rows sound) :
    Agrees (noting count) f rows fun s => sound s.1 ∧ ∀ r ∈ s.2, rows r := by
  intro r s row ⟨ok, noted⟩
  obtain ⟨same, ok'⟩ := agrees r s.1 row ok
  refine ⟨same, ok', fun t inside => ?_⟩
  rcases List.mem_append.mp inside with before | now
  · exact noted t before
  · rw [List.mem_singleton.mp now]
    exact row

theorem tally_exactly (f : Record → Nat) (records : List Record) (u : Unit) :
    tally (exactly f) records u = ((records.map f).sum, u) := by
  induction records with
  | nil => rfl
  | cons r rest ih =>
    unfold tally
    simp only [ih, exactly, List.map_cons, List.sum_cons]

section
variable (agrees : Agrees count f rows sound)
include agrees

theorem tally_agrees (records : List Record) (known : ∀ r ∈ records, rows r) (ok : sound s) :
    (tally count records s).1 = (records.map f).sum ∧ sound (tally count records s).2 := by
  induction records generalizing s with
  | nil => exact ⟨rfl, ok⟩
  | cons r rest ih =>
    obtain ⟨one, ok'⟩ := agrees r s (known r List.mem_cons_self) ok
    obtain ⟨more, ok''⟩ := ih (fun t inside => known t (List.mem_cons_of_mem r inside)) ok'
    unfold tally
    dsimp only
    exact ⟨by rw [one, more, List.map_cons, List.sum_cons], ok''⟩

theorem admit_agrees (room : Int) (us : List ContextUnit)
    (known : ∀ u ∈ us, ∀ r ∈ u.records, rows r) (admitting : Bool) (a : Admission) (ok : sound s) :
    Same sound (admitUnits count room us admitting a s)
      (admitUnits (exactly f) room us admitting a ()) := by
  induction us generalizing admitting a s with
  | nil => exact ⟨rfl, ok⟩
  | cons u older ih =>
    obtain ⟨cost, ok'⟩ := tally_agrees agrees u.records (known u List.mem_cons_self) ok
    have rest := fun v inside => known v (List.mem_cons_of_mem u inside)
    unfold admitUnits
    simp only [tally_exactly, cost]
    split
    · exact ih rest _ _ ok'
    · exact ih rest _ _ ok'

end

theorem settle_done (count : Counter σ) {required a : Admission} {newest : List ContextUnit} {rounds reserve : Nat}
    {last : Admission × Option Summary} {s₁ : σ}
    (round : admitUnits count (budget - reserve) newest (!overBudget) required s = (a, s₁))
    (nothing : a.dropped.isEmpty = true) :
    settle count budget overBudget required newest (rounds + 1) reserve last s =
      ((a, none), s₁) := by
  unfold settle
  simp only [round, nothing, if_true]

theorem settle_more (count : Counter σ) {required a : Admission} {newest : List ContextUnit} {rounds reserve needed : Nat}
    {last : Admission × Option Summary} {s s₁ s₂ : σ}
    (round : admitUnits count (budget - reserve) newest (!overBudget) required s = (a, s₁))
    (something : a.dropped.isEmpty = false)
    (counted : count (probe (structuralSummary a.dropped false).message) s₁ = (needed, s₂)) :
    settle count budget overBudget required newest (rounds + 1) reserve last s =
      if needed ≤ reserve then ((a, some (structuralSummary a.dropped false)), s₂)
      else settle count budget overBudget required newest rounds needed
        (a, some (structuralSummary a.dropped false)) s₂ := by
  rw [settle]
  simp only [round, something, countMessageTokens, counted, Bool.false_eq_true, if_false]

theorem units_known (known : ∀ r ∈ recordsOf units, rows r) :
    (∀ r ∈ recordsOf (requiredUnits units), rows r) ∧
      ∀ u ∈ (optionalUnits units).reverse, ∀ r ∈ u.records, rows r := by
  have part : ∀ u, u ∈ requiredUnits units ∨ u ∈ optionalUnits units → ∀ r ∈ u.records, rows r := by
    intro u inside r row
    have there := (required_optional_perm units).mem_iff.mp (List.mem_append.mpr inside)
    exact known r (List.mem_flatMap.mpr ⟨u, there, row⟩)
  constructor
  · intro r inside
    obtain ⟨u, there, row⟩ := List.mem_flatMap.mp inside
    exact part u (.inl there) r row
  · intro u inside r row
    exact part u (.inr (List.mem_reverse.mp inside)) r row

def requiredSum (f : Record → Nat) (units : List ContextUnit) : Nat :=
  ((recordsOf (requiredUnits units)).map f).sum

def leftOut (f : Record → Nat) (units : List ContextUnit) (budget : Int) (reserve : Nat) :
    Admission :=
  (admitUnits (exactly f) (budget - reserve) (optionalUnits units).reverse
    (!decide (budget < requiredSum f units))
    ⟨requiredSum f units, requiredUnits units, []⟩ ()).1

def conclude (budget : Int) (requiredUsed : Nat) (a : Admission) (sent : Pointer) :
    Except String Assembly :=
  if decide (budget < requiredUsed) = false ∧ budget < (a.used + sent.tokens : Int) then
    .error "context assembly exceeded its budget"
  else .ok (assembled a sent (decide (budget < requiredUsed)) requiredUsed)

def firstLeft (f : Record → Nat) (units : List ContextUnit) (budget : Int) : List ContextUnit :=
  (leftOut f units budget 0).dropped

section
variable (f : Record → Nat) (units : List ContextUnit) (budget : Int)

def foldedSummary : Summary := structuralSummary (firstLeft f units budget) false

def foldedTokens : Nat := f (probe (foldedSummary f units budget).message)

/-- What does not fit is folded at once: with the tokens of its summary held back the same units are
left out, and the summary fits in full beside the others. -/
structure FoldsAtOnce : Prop where
  held : (leftOut f units budget (foldedTokens f units budget)).dropped = firstLeft f units budget
  fits : budget < requiredSum f units ∨
    ((leftOut f units budget (foldedTokens f units budget)).used + foldedTokens f units budget : Int)
      ≤ budget

def Settles : Prop := firstLeft f units budget ≠ [] → FoldsAtOnce f units budget

end

theorem assemble_pieces (count : Counter σ) (present : units.isEmpty = false) (budget : Int)
    (s : σ) {used : Nat} {s₁ : σ}
    (tallied : tally count (recordsOf (requiredUnits units)) s = (used, s₁))
    {out : Admission × Option Summary} {s₂ : σ}
    (settled : settle count budget (decide (budget < used)) ⟨used, requiredUnits units, []⟩
      (optionalUnits units).reverse 4 0 (⟨used, requiredUnits units, []⟩, none) s₁ = (out, s₂))
    {sent : Pointer} {s₃ : σ}
    (pointed : pointer count budget (decide (budget < used)) out.1 out.2 s₂ = (sent, s₃)) :
    assemble count units budget s = (conclude budget used out.1 sent, s₃) := by
  unfold assemble conclude
  simp only [present, Bool.false_eq_true, if_false, tallied, settled, pointed]
  split <;> rfl

section
variable (f units budget)

abbrev tight : Bool := decide (budget < requiredSum f units)

abbrev base : Admission := ⟨requiredSum f units, requiredUnits units, []⟩

abbrev settleAll (count : Counter σ) (s : σ) : (Admission × Option Summary) × σ :=
  settle count budget (tight f units budget) (base f units) (optionalUnits units).reverse 4 0
    (base f units, none) s

end

theorem mem_leftOut {reserve : Nat} {u : ContextUnit}
    (inside : u ∈ (leftOut f units budget reserve).dropped) : u ∈ units := by
  obtain ⟨n, _, left⟩ := admit_splits (exactly f) (budget - reserve)
    (optionalUnits units).reverse (!tight f units budget) (base f units) ()
  have there : u ∈ [] ++ (optionalUnits units).reverse.drop n := by
    rw [← left]
    exact inside
  exact (required_optional_perm units).subset (List.mem_append_right _
    (List.mem_reverse.mp (List.mem_of_mem_drop there)))

section
variable (agrees : Agrees count f rows sound) (known : ∀ r ∈ recordsOf units, rows r)
include agrees known

variable (budget) in
theorem leftOut_agrees (reserve : Nat) (ok : sound s) :
    ∃ s', admitUnits count (budget - reserve) (optionalUnits units).reverse
        (!tight f units budget) (base f units) s = (leftOut f units budget reserve, s') ∧
      sound s' := by
  obtain ⟨round, ok'⟩ := admit_agrees agrees (budget - reserve) _ (units_known known).2
    (!tight f units budget) (base f units) ok
  exact ⟨_, Prod.ext round rfl, ok'⟩

/-- Where everything fits, no summary is counted. -/
theorem settle_quiet (nothing : firstLeft f units budget = []) (ok : sound s) :
    ∃ s', settleAll f units budget count s = ((leftOut f units budget 0, none), s') ∧ sound s' := by
  obtain ⟨s', round, ok'⟩ := leftOut_agrees budget agrees known 0 ok
  exact ⟨s', settle_done count round (List.isEmpty_iff.mpr nothing), ok'⟩

variable (some_left : firstLeft f units budget ≠ [])
  (counted : rows (probe (foldedSummary f units budget).message))
include some_left counted

/-- The first round counts the summary, and the second leaves out what the first has. -/
theorem settle_folded (folds : FoldsAtOnce f units budget) (ok : sound s) :
    ∃ s', settleAll f units budget count s =
        ((leftOut f units budget (foldedTokens f units budget),
          some (foldedSummary f units budget)), s') ∧ sound s' := by
  have left : ∀ a : Admission, a.dropped = firstLeft f units budget →
      a.dropped.isEmpty = false := by
    intro a same
    rw [same]
    simpa using some_left
  obtain ⟨s₁, round, ok₁⟩ := leftOut_agrees budget agrees known 0 ok
  obtain ⟨needed, ok₂⟩ := agrees _ s₁ counted ok₁
  unfold settleAll
  rw [settle_more count round (left _ rfl) (Prod.ext needed rfl)]
  by_cases none_held : foldedTokens f units budget = 0
  · rw [none_held]
    exact ⟨_, if_pos none_held.le, ok₂⟩
  · obtain ⟨s₃, again, ok₃⟩ :=
      leftOut_agrees budget agrees known (foldedTokens f units budget) ok₂
    have counted' : rows (probe (structuralSummary (leftOut f units budget
        (foldedTokens f units budget)).dropped false).message) := by
      rw [folds.held]
      exact counted
    obtain ⟨needed', ok₄⟩ := agrees _ s₃ counted' ok₃
    refine ⟨_, ?_, ok₄⟩
    refine (if_neg fun le => none_held (Nat.le_zero.mp le)).trans ?_
    refine (settle_more count again (left _ folds.held) (Prod.ext needed' rfl)).trans ?_
    rw [folds.held]
    exact if_pos (le_refl _)

end

/-- The summary is counted again, and sent in full. -/
theorem pointer_folded (agrees : Agrees count f rows sound)
    (counted : rows (probe (foldedSummary f units budget).message))
    (folds : FoldsAtOnce f units budget) (ok : sound s) :
    ∃ s', pointer count budget (tight f units budget)
        (leftOut f units budget (foldedTokens f units budget))
        (some (foldedSummary f units budget)) s =
      (⟨some (foldedSummary f units budget).message,
        some (foldedSummary f units budget).sourceHash, foldedTokens f units budget⟩, s') ∧
      sound s' := by
  obtain ⟨needed, ok'⟩ := agrees _ s counted ok
  have first : countMessageTokens count (foldedSummary f units budget).message s =
      (foldedTokens f units budget,
        (count (probe (foldedSummary f units budget).message) s).2) := Prod.ext needed rfl
  refine ⟨_, ?_, ok'⟩
  simp only [pointer, first]
  rw [if_neg]
  rintro ⟨above, fits⟩
  rcases folds.fits with tight | within
  · exact absurd tight (of_decide_eq_false fits)
  · omega

section
variable (agrees : Agrees count f rows sound) (known : ∀ r ∈ recordsOf units, rows r)
  (counted : firstLeft f units budget ≠ [] → rows (probe (foldedSummary f units budget).message))
  (settles : Settles f units budget)
include agrees known counted settles

theorem settled_pointed (ok : sound s) :
    ∃ out sent s₁ s₂, settleAll f units budget count s = (out, s₁) ∧
      pointer count budget (tight f units budget) out.1 out.2 s₁ = (sent, s₂) ∧ sound s₂ ∧
      (settleAll f units budget (exactly f) ()).1 = out ∧
      (pointer (exactly f) budget (tight f units budget) out.1 out.2 ()).1 = sent := by
  have plain : Agrees (exactly f) f (fun _ => True) fun _ => True := fun _ _ _ _ => ⟨rfl, trivial⟩
  by_cases nothing : firstLeft f units budget = []
  · obtain ⟨s₁, settled, ok₁⟩ := settle_quiet agrees known nothing ok
    obtain ⟨_, settled', _⟩ := settle_quiet (s := ()) plain (fun _ _ => trivial) nothing trivial
    exact ⟨_, _, s₁, s₁, settled, rfl, ok₁, congrArg Prod.fst settled', rfl⟩
  · have folds := settles nothing
    obtain ⟨s₁, settled, ok₁⟩ := settle_folded agrees known nothing (counted nothing) folds ok
    obtain ⟨s₂, pointed, ok₂⟩ :=
      pointer_folded agrees (counted nothing) folds ok₁
    obtain ⟨_, settled', _⟩ :=
      settle_folded (s := ()) plain (fun _ _ => trivial) nothing trivial folds trivial
    obtain ⟨_, pointed', _⟩ :=
      pointer_folded (s := ()) plain trivial folds trivial
    exact ⟨_, _, s₁, s₂, settled, pointed, ok₂, congrArg Prod.fst settled',
      congrArg Prod.fst pointed'⟩

theorem assemble_agrees (ok : sound s) :
    Same sound (assemble count units budget s) (assemble (exactly f) units budget ()) := by
  cases present : units.isEmpty with
  | true =>
    unfold assemble
    simp only [present, if_true]
    exact ⟨rfl, ok⟩
  | false =>
    obtain ⟨used, ok₁⟩ := tally_agrees agrees _ (units_known known).1 ok
    obtain ⟨out, sent, s₁, s₂, settled, pointed, ok₂, settled', pointed'⟩ :=
      settled_pointed agrees known counted settles ok₁
    have plainTally : tally (exactly f) (recordsOf (requiredUnits units)) () =
        (requiredSum f units, ()) := tally_exactly f _ ()
    rw [assemble_pieces count present budget s (Prod.ext used rfl) settled pointed,
      assemble_pieces (exactly f) present budget () plainTally (Prod.ext settled' rfl)
        (Prod.ext pointed' rfl)]
    exact ⟨rfl, ok₂⟩

end

theorem leftOut_nil (f : Record → Nat) (budget : Int) (reserve : Nat) :
    (leftOut f [] budget reserve).dropped = [] := rfl

theorem visible_rows {a b : Nat} (known : ∀ r ∈ j.rows, rows r) :
    ∀ r ∈ visible (j.read a b), rows r := by
  intro r inside
  exact known r (Journal.mem_read.mp (List.mem_of_mem_filter inside)).1

section
variable (agrees : Agrees count f rows sound) (known : ∀ r ∈ j.rows, rows r)
include agrees known

theorem readPages_agrees (page available fuel toSeq pages used : Nat) (collected : List Record)
    (ok : sound s) :
    Same sound (readPages count page j available fuel toSeq pages used collected s)
      (readPages (exactly f) page j available fuel toSeq pages used collected ()) := by
  induction fuel generalizing toSeq pages used collected s with
  | zero => exact ⟨rfl, ok⟩
  | succ fuel ih =>
    obtain ⟨cost, ok'⟩ := tally_agrees agrees
      (visible (j.read (max 1 (toSeq + 1 - page)) toSeq)) (visible_rows known) ok
    unfold readPages
    simp only [tally_exactly, cost]
    split
    · exact ⟨rfl, ok⟩
    · split
      · exact ⟨rfl, ok'⟩
      · exact ih _ _ _ _ ok'

theorem readBounded_agrees (page available : Nat) (ok : sound s) :
    Same sound (readBounded count page j available s)
      (readBounded (exactly f) page j available ()) := by
  obtain ⟨early, ok'⟩ := tally_agrees agrees (instructionRows j)
    (fun r inside => known r (mem_instructionRows.mp inside).1) ok
  obtain ⟨read, ok''⟩ := readPages_agrees agrees known page available j.highwater j.highwater 0
    ((instructionRows j).map f).sum [] ok'
  unfold readBounded
  simp only [tally_exactly, early]
  rw [read]
  exact ⟨rfl, ok''⟩

end

theorem units_rows (port : JournalContextPort) {available : Nat} {r : Record}
    (inside : r ∈ recordsOf (port.unitsOf count j available s)) : r ∈ j.rows := by
  obtain ⟨rowsOf, _⟩ := readBounded_reads count (pageSize_pos port) j available s
  obtain ⟨u, unit, row⟩ := List.mem_flatMap.mp inside
  exact rowsOf.rows r (mem_records_read ((buildUnits_suffix _).subset unit) row).1

theorem unitsOf_agrees (agrees : Agrees count f rows sound) (known : ∀ r ∈ j.rows, rows r)
    (port : JournalContextPort) (available : Nat) (ok : sound s) :
    port.unitsOf count j available s = port.unitsOf (exactly f) j available () ∧
      sound (readBounded count port.pageSize j available s).2 := by
  obtain ⟨read, ok'⟩ := readBounded_agrees agrees known port.pageSize available ok
  exact ⟨congrArg buildUnits read, ok'⟩

theorem assemble_pair {budget : Int} {assembly : Assembly}
    (same : (assemble count units budget s).1 = (assemble (exactly f) units budget ()).1)
    (plain : (assemble (exactly f) units budget ()).1 = .ok assembly) :
    assemble count units budget s = (.ok assembly, (assemble count units budget s).2) ∧
      assemble (exactly f) units budget () = (.ok assembly, ()) :=
  ⟨Prod.ext (same.trans plain) rfl, Prod.ext plain rfl⟩

section
variable (port : JournalContextPort) (f : Record → Nat) (j : Journal) (available : Nat)
  (recaller : Option Recall)

def JournalContextPort.answered : Option (String × List Message) :=
  match (assemble (exactly f) (port.unitsOf (exactly f) j available ()) available ()).1 with
  | .ok assembly =>
    port.recalls recaller available (port.unitsOf (exactly f) j available ()) assembly
  | .error _ => none

/-- The budgets of the passes: the second has the tokens of the recalled messages less. -/
def JournalContextPort.budgets : List Int :=
  (available : Int) :: (port.answered f j available recaller).toList.map fun answer =>
    (available : Int) - ((answer.2.map (countMessage port.tokenizer)).sum : Nat)

end

theorem answered_of_assembly {port : JournalContextPort} {available : Nat}
    {recaller : Option Recall} {assembly : Assembly}
    (plain : (assemble (exactly f) (port.unitsOf (exactly f) j available ()) available ()).1 =
      .ok assembly) : port.answered f j available recaller =
        port.recalls recaller available (port.unitsOf (exactly f) j available ()) assembly := by
  unfold JournalContextPort.answered
  rw [plain]

theorem assembleContext_agrees (agrees : Agrees count f rows sound) (known : ∀ r ∈ j.rows, rows r)
    (port : JournalContextPort) (available : Nat) (recaller : Option Recall)
    (settles : ∀ budget ∈ port.budgets f j available recaller,
      Settles f (port.unitsOf (exactly f) j available ()) budget)
    (counted : ∀ budget ∈ port.budgets f j available recaller,
      firstLeft f (port.unitsOf (exactly f) j available ()) budget ≠ [] →
        rows (probe (foldedSummary f (port.unitsOf (exactly f) j available ()) budget).message))
    (ok : sound s) :
    Same sound (port.assembleContext count j available recaller s)
      (port.assembleContext (exactly f) j available recaller ()) := by
  obtain ⟨listed, ok₁⟩ := unitsOf_agrees agrees known port available ok
  have each : ∀ budget ∈ port.budgets f j available recaller, ∀ s, sound s → Same sound
      (assemble count (port.unitsOf (exactly f) j available ()) budget s)
      (assemble (exactly f) (port.unitsOf (exactly f) j available ()) budget ()) :=
    fun budget inside _ ok => assemble_agrees agrees (fun r row => known r (units_rows port row))
      (counted budget inside) (settles budget inside) ok
  obtain ⟨same, ok₂⟩ := each available List.mem_cons_self _ ok₁
  obtain ⟨assembly, plain, _⟩ :=
    assemble_sides (exactly f) (port.unitsOf (exactly f) j available ()) (available : Int) ()
  obtain ⟨first, first'⟩ := assemble_pair same plain
  have answer : port.answered f j available recaller = _ := answered_of_assembly plain
  cases asked : port.recalls recaller available (port.unitsOf (exactly f) j available ())
      assembly with
  | none =>
    rw [assembleContext_plain listed first asked, assembleContext_plain rfl first' asked]
    exact ⟨rfl, ok₂⟩
  | some found =>
    obtain ⟨query, recalled⟩ := found
    have second := each ((available : Int) -
      ((recalled.map (countMessage port.tokenizer)).sum : Nat)) (by
        unfold JournalContextPort.budgets
        rw [answer, asked]
        simp) _ ok₂
    obtain ⟨assembly', plain', _⟩ := assemble_sides (exactly f)
      (port.unitsOf (exactly f) j available ())
      ((available : Int) - ((recalled.map (countMessage port.tokenizer)).sum : Nat)) ()
    rw [assembleContext_recalled listed first asked (Prod.ext (second.1.trans plain') rfl),
      assembleContext_recalled rfl first' asked (Prod.ext plain' rfl)]
    exact ⟨rfl, second.2⟩

end

end AgentContext
