import HarnessSdk.Context.Agreement

/-! One assembly for one counting function: what is admitted, with which reserve, and where the
messages stand. -/
namespace AgentContext

def cost (f : Record → Nat) (u : ContextUnit) : Nat := (u.records.map f).sum

def costs (f : Record → Nat) (units : List ContextUnit) : Nat := (units.map (cost f)).sum

variable (f : Record → Nat)

theorem admit_prefix (room : Int) (us : List ContextUnit) (a : Admission) :
    ∃ n, (admitUnits (exactly f) room us true a ()).1 =
        ⟨a.used + costs f (us.take n), a.selected ++ us.take n, a.dropped ++ us.drop n⟩ ∧
      ∀ u ∈ (us.drop n).head?, room < (a.used + costs f (us.take n) + cost f u : Int) := by
  induction us generalizing a with
  | nil => exact ⟨0, by simp [admitUnits, costs], by simp⟩
  | cons u older ih =>
    rw [admitUnits]
    simp only [tally_exactly, true_and]
    split
    · obtain ⟨n, out, stops⟩ := ih ⟨a.used + cost f u, a.selected ++ [u], a.dropped⟩
      refine ⟨n + 1, ?_, ?_⟩
      · rw [show (u.records.map f).sum = cost f u from rfl, out]
        simp [costs, Nat.add_assoc]
      · intro v first
        have above := stops v first
        simp only [List.take_succ_cons, costs, List.map_cons, List.sum_cons] at above ⊢
        omega
    · next tight =>
      refine ⟨0, ?_, ?_⟩
      · rw [admit_none]
        simp [costs]
      · intro v first
        cases first
        simp only [List.take_zero, costs, List.map_nil, List.sum_nil]
        unfold cost
        omega

variable {u : ContextUnit}

theorem refused_behind {f : Record → Nat} {room : Int} {us : List ContextUnit} {used n : Nat}
    (stops : ∀ u ∈ (us.drop n).head?, room < (used + costs f (us.take n) + cost f u : Int))
    {newer older : List ContextUnit} (split : us = newer ++ u :: older)
    (behind : n ≤ newer.length) : room < (used + costs f newer + cost f u : Int) := by
  have front : us.take n = newer.take n := by
    rw [split, List.take_append_of_le_length behind]
  have back : us.drop n = newer.drop n ++ u :: older := by
    rw [split, List.drop_append_of_le_length behind]
  rw [front, back] at stops
  have whole : costs f newer = costs f (newer.take n) + costs f (newer.drop n) := by
    unfold costs
    rw [← List.sum_append, ← List.map_append, List.take_append_drop]
  cases between : newer.drop n with
  | nil =>
    have first := stops u (by rw [between]; rfl)
    rw [whole, between]
    simpa [costs] using first
  | cons v more =>
    have first := stops v (by rw [between]; rfl)
    rw [whole, between]
    simp only [costs, List.map_cons, List.sum_cons] at first ⊢
    omega

/-- The tokens held back in a round: none in the first, then those of the summary of what the round
before has dropped. -/
def reserveAt (f : Record → Nat) (units : List ContextUnit) (budget : Int) : Nat → Nat
  | 0 => 0
  | round + 1 => f (probe (structuralSummary
      (leftOut f units budget (reserveAt f units budget round)).dropped false).message)

/-- The admission stops in this round: before it the reserve grew each time, and then nothing is
dropped, the reserve covers the summary, or it was the fourth round. -/
structure Ends (f : Record → Nat) (units : List ContextUnit) (budget : Int) (round : Nat) :
    Prop where
  few : round ≤ 3
  grew : ∀ earlier < round,
    reserveAt f units budget earlier < reserveAt f units budget (earlier + 1)
  stops : round = 3 ∨
    (leftOut f units budget (reserveAt f units budget round)).dropped = [] ∨
    reserveAt f units budget (round + 1) ≤ reserveAt f units budget round

variable (units : List ContextUnit)

theorem settle_ends (budget : Int) (rounds done : Nat) (count : done + rounds = 4)
    (last : Admission × Option Summary)
    (grew : ∀ earlier < done, reserveAt f units budget earlier < reserveAt f units budget (earlier
      + 1))
    (same : rounds = 0 → ∃ round, Ends f units budget round ∧ last.1 = leftOut f units budget
      (reserveAt f units budget round)) :
    ∃ round, Ends f units budget round ∧
      (settle (exactly f) budget (decide (budget < requiredSum f units))
        ⟨requiredSum f units, requiredUnits units, []⟩ (optionalUnits units).reverse rounds
        (reserveAt f units budget done) last ()).1.1 =
          leftOut f units budget (reserveAt f units budget round) := by
  induction rounds generalizing done last with
  | zero => exact same rfl
  | succ rounds ih =>
    cases nothing : (leftOut f units budget (reserveAt f units budget done)).dropped.isEmpty with
    | true =>
      rw [settle_done (exactly f) (Prod.ext rfl rfl) nothing]
      refine ⟨done, ⟨by omega, grew, ?_⟩, rfl⟩
      exact Or.inr (Or.inl (List.isEmpty_iff.mp nothing))
    | false =>
      rw [settle_more (exactly f) (Prod.ext rfl rfl) nothing (Prod.ext rfl rfl)]
      split
      · next covered =>
        exact ⟨done, ⟨by omega, grew, Or.inr (Or.inr covered)⟩, rfl⟩
      · next short =>
        have grew' : ∀ earlier < done + 1,
            reserveAt f units budget earlier < reserveAt f units budget (earlier + 1) := by
          intro earlier before
          rcases Nat.lt_succ_iff_lt_or_eq.mp before with less | level
          · exact grew earlier less
          · subst level
            exact Nat.not_le.mp short
        apply ih (done + 1) (by omega) _ grew'
        intro finished
        exact ⟨done, ⟨by omega, grew, Or.inl (by omega)⟩, rfl⟩

def selectedUnits (units : List ContextUnit) (admitted : Nat) : List ContextUnit :=
  requiredUnits units ++ (optionalUnits units).reverse.take admitted

def orderedUnits (units : List ContextUnit) (admitted : Nat) : List ContextUnit :=
  (selectedUnits units admitted).insertionSort fun u v => u.seqFrom ≤ v.seqFrom

def Apart (u v : ContextUnit) : Prop := Before u v ∨ Before v u

/-- The summary stands behind the leading instructions, in front of the first other unit. -/
structure Placed (units ordered : List ContextUnit) (assembly : Assembly)
    (lead body : List ContextUnit) : Prop where
  splits : ordered = lead ++ body
  leading : ∀ u ∈ lead, u.kind = .instructions
  first : ∀ u ∈ body.head?, u.kind ≠ .instructions
  laid : assembly.messages = (recordsOf lead).map Emitted.record ++
    assembly.summary.toList.map Emitted.summary ++ (recordsOf body).map Emitted.record
  all : (∀ u ∈ units, ∀ v ∈ units, u.kind = .instructions → v.kind ≠ .instructions →
    u.seqFrom < v.seqFrom) → ∀ u ∈ body, u.kind ≠ .instructions

structure Outcome (f : Record → Nat) (units : List ContextUnit) (budget : Int)
    (assembly : Assembly) (admitted round : Nat) : Prop where
  /-- The newest optional units are selected and the others dropped. -/
  newest : assembly.droppedUnits = (optionalUnits units).reverse.drop admitted
  partition : (selectedUnits units admitted ++ assembly.droppedUnits).Perm units
  /-- The units come out whole, by their first row. -/
  whole : assembly.messages.filterMap Emitted.record? = recordsOf (orderedUnits units admitted)
  ordered : (orderedUnits units admitted).Pairwise fun u v => u.seqFrom ≤ v.seqFrom
  sequence : (∀ u ∈ units, Ascending u.records) → units.Pairwise Apart →
    Ascending (assembly.messages.filterMap Emitted.record?)
  placed : ∃ lead body, Placed units (orderedUnits units admitted) assembly lead body
  named : ∀ m, assembly.summary = some m → assembly.droppedUnits ≠ [] ∧
    ∃ compact, m = (structuralSummary assembly.droppedUnits compact).message
  ends : Ends f units budget round
  /-- A dropped unit does not fit next to the newer ones and what is held back. -/
  refused : assembly.requiredOverBudget = false → ∀ newer u older,
    (optionalUnits units).reverse = newer ++ u :: older → admitted ≤ newer.length →
      budget < (requiredSum f units + costs f newer + cost f u +
        reserveAt f units budget round : Int)

variable (admitted : Nat)

theorem selected_dropped_perm :
    (selectedUnits units admitted ++ (optionalUnits units).reverse.drop admitted).Perm units := by
  rw [selectedUnits, List.append_assoc, List.take_append_drop]
  exact ((List.reverse_perm _).append_left _).trans (required_optional_perm units)

theorem mem_ordered {units : List ContextUnit} {admitted : Nat}
    (inside : u ∈ orderedUnits units admitted) : u ∈ units := by
  have chosen : u ∈ selectedUnits units admitted := (List.mem_insertionSort _).mp inside
  exact (selected_dropped_perm units admitted).subset (List.mem_append_left _ chosen)

theorem orderedUnits_ascending {units : List ContextUnit} {admitted : Nat}
    (each : ∀ u ∈ units, Ascending u.records) (apart : units.Pairwise Apart) :
    Ascending (recordsOf (orderedUnits units admitted)) := by
  have chosen : (selectedUnits units admitted).Pairwise Apart := by
    have all := ((selected_dropped_perm units admitted).pairwise_iff
      fun swap => Or.symm swap).mpr apart
    exact (List.pairwise_append.mp all).1
  have sorted : (orderedUnits units admitted).Pairwise Apart :=
    ((List.perm_insertionSort _ _).pairwise_iff fun swap => Or.symm swap).mpr chosen
  have firsts : (orderedUnits units admitted).Pairwise fun u v => u.seqFrom ≤ v.seqFrom :=
    List.pairwise_insertionSort _ _
  apply List.pairwise_flatMap.mpr
  constructor
  · exact fun u inside => each u (mem_ordered inside)
  · refine (sorted.and firsts).imp ?_
    intro u v ⟨either, le⟩
    cases either with
    | inl before => exact before
    | inr after =>
      have less := after v.head (head_mem v) u.head (head_mem u)
      unfold ContextUnit.seqFrom at le
      omega

theorem placed_layOut (assembly : Assembly)
    (laid : assembly.messages = layOut (orderedUnits units admitted) assembly.summary) :
    ∃ lead body, Placed units (orderedUnits units admitted) assembly lead body := by
  have firsts : (orderedUnits units admitted).Pairwise fun u v => u.seqFrom ≤ v.seqFrom :=
    List.pairwise_insertionSort _ _
  refine ⟨_, _, (List.takeWhile_append_dropWhile
    (p := fun u : ContextUnit => decide (u.kind = .instructions))).symm, ?_, ?_, laid, ?_⟩
  · intro u inside
    have leading := List.mem_takeWhile_imp inside
    simpa using leading
  · intro u first
    have stops := List.head?_dropWhile_not (fun u : ContextUnit => decide (u.kind = .instructions))
      (orderedUnits units admitted)
    rw [Option.mem_def.mp first] at stops
    simpa using stops
  · intro before u inside sort
    -- The first unit behind the instructions is no instruction and does not stand behind `u`.
    cases rest : (orderedUnits units admitted).dropWhile
        fun u => decide (u.kind = .instructions) with
    | nil =>
      rw [rest] at inside
      cases inside
    | cons v more =>
      have stops := List.head?_dropWhile_not
        (fun u : ContextUnit => decide (u.kind = .instructions)) (orderedUnits units admitted)
      rw [rest, List.head?_cons] at stops
      have other : v.kind ≠ .instructions := by simpa using stops
      rw [rest] at inside
      have sub : (v :: more).Sublist (orderedUnits units admitted) :=
        rest ▸ (List.dropWhile_suffix _).sublist
      have less := before u (mem_ordered (sub.subset inside)) v
        (mem_ordered (sub.subset List.mem_cons_self)) sort other
      cases List.mem_cons.mp inside with
      | inl same => exact other (same ▸ sort)
      | inr later =>
        have le := (List.pairwise_cons.mp (firsts.sublist sub)).1 u later
        omega

theorem leftOut_prefix (budget : Int) (reserve : Nat) : ∃ admitted,
      (leftOut f units budget reserve).selected = selectedUnits units admitted ∧
      (leftOut f units budget reserve).dropped = (optionalUnits units).reverse.drop admitted ∧
      (¬ budget < requiredSum f units → ∀ newer u older,
        (optionalUnits units).reverse = newer ++ u :: older → admitted ≤ newer.length →
          budget < (requiredSum f units + costs f newer + cost f u + reserve : Int)) := by
  unfold leftOut selectedUnits
  by_cases above : budget < requiredSum f units
  · rw [decide_eq_true above, Bool.not_true, admit_none]
    exact ⟨0, by simp, by simp, fun fits => absurd above fits⟩
  · rw [decide_eq_false above, Bool.not_false]
    obtain ⟨admitted, out, stops⟩ := admit_prefix f (budget - reserve)
      (optionalUnits units).reverse ⟨requiredSum f units, requiredUnits units, []⟩
    rw [out]
    refine ⟨admitted, rfl, rfl, ?_⟩
    intro _ newer u older split behind
    have refused := refused_behind stops split behind
    dsimp only at refused
    omega

/-- Assembly succeeds for every list of units, every budget and every counting function. -/
theorem assemble_outcome (f : Record → Nat) (units : List ContextUnit) (budget : Int) :
    ∃ assembly, (assemble (exactly f) units budget ()).1 = .ok assembly ∧
      ∃ admitted round, Outcome f units budget assembly admitted round := by
  cases present : units.isEmpty with
  | true =>
    have empty := List.isEmpty_iff.mp present
    subst empty
    have nothing : recordsOf (orderedUnits [] 0) = [] := rfl
    refine ⟨emptyAssembly, rfl, 0, 0, rfl, List.Perm.refl _, nothing.symm, List.Pairwise.nil,
      ?_, ?_, ?_, ?_, ?_⟩
    · exact fun _ _ => List.Pairwise.nil
    · exact placed_layOut [] 0 emptyAssembly rfl
    · exact fun m sent => by cases sent
    · exact ⟨by omega, fun _ none => by omega, Or.inr (Or.inl (leftOut_nil f budget _))⟩
    · intro _ newer u older split
      cases newer <;> cases split
  | false =>
    have tallied : tally (exactly f) (recordsOf (requiredUnits units)) () =
        (requiredSum f units, ()) := tally_exactly f _ ()
    obtain ⟨round, ends, last⟩ := settle_ends f units budget 4 0 rfl
      (⟨requiredSum f units, requiredUnits units, []⟩, none) (fun _ none => by omega)
      (fun none => by omega)
    have settled := @settle_settled _ (exactly f) budget (decide (budget < requiredSum f units))
      ⟨requiredSum f units, requiredUnits units, []⟩ (optionalUnits units).reverse rfl 4 0
      (⟨requiredSum f units, requiredUnits units, []⟩, none) () (by simp)
    cases ran : settle (exactly f) budget (decide (budget < requiredSum f units))
        ⟨requiredSum f units, requiredUnits units, []⟩ (optionalUnits units).reverse 4 0
        (⟨requiredSum f units, requiredUnits units, []⟩, none) () with
    | mk out s₁ =>
      rw [show reserveAt f units budget 0 = 0 from rfl, ran] at last
      rw [ran] at settled
      have points := pointer_points (exactly f) settled s₁
      cases pointed : pointer (exactly f) budget (decide (budget < requiredSum f units)) out.1
          out.2 s₁ with
      | mk sent s₂ =>
        rw [pointed] at points
        dsimp only at last settled points
        obtain ⟨admitted, chosen, left, refused⟩ :=
          leftOut_prefix f units budget (reserveAt f units budget round)
        rw [← last] at chosen left
        have within : ¬ (decide (budget < requiredSum f units) = false ∧
            budget < (out.1.used + sent.tokens : Int)) := by
          intro ⟨fits, above⟩
          have room : ¬ budget < (requiredSum f units : Int) := of_decide_eq_false fits
          have bound := points.within fits (settled.within fits (by dsimp only; omega))
          omega
        rw [assemble_pieces (exactly f) present budget () tallied ran pointed, conclude,
          if_neg within]
        refine ⟨_, rfl, admitted, round, left, ?_, ?_, ?_, ?_, ?_, points.named, ends, ?_⟩
        · dsimp only [assembled]
          rw [left]
          exact selected_dropped_perm units admitted
        · dsimp only [assembled]
          rw [records_layOut, chosen]
          rfl
        · exact List.pairwise_insertionSort _ _
        · intro each apart
          dsimp only [assembled]
          rw [records_layOut, chosen]
          exact orderedUnits_ascending each apart
        · apply placed_layOut
          dsimp only [assembled]
          rw [chosen]
          rfl
        · exact fun fits => refused (of_decide_eq_false fits)

def rowUnit (seq : Nat) (kind : Kind) (groupId : String) : ContextUnit where
  head := {
    seq := seq
    appendId := groupId
    kind := kind
    turnId := none
    protocolGroupId := groupId
    message := { role := .system, content := .text groupId }
    contentHash := groupId
    visibility := .context
    fullRecordSeq := none }
  rest := []

def renewedUnits : List ContextUnit := [
  rowUnit 1 .instructions "instructions", rowUnit 2 .userInput "a", rowUnit 3 .assistant "b",
  rowUnit 4 .userInput "c", rowUnit 5 .instructions "instructions", rowUnit 6 .assistant "d"]

def summaryThenInstructions : List Emitted → Bool
  | [.record _, .summary _, .record _, .record r, .record _] => decide (r.kind = .instructions)
  | _ => false

/-- The summary comes before the instructions that stand later. -/
theorem summary_before_instructions : ¬ ∀ (f : Record → Nat) (units : List ContextUnit)
    (budget : Int) (assembly : Assembly),
    (assemble (exactly f) units budget ()).1 = .ok assembly →
      ∀ before m after, assembly.messages = before ++ .summary m :: after →
        ∀ r, .record r ∈ after → r.kind ≠ .instructions := by
  intro all
  have shown : (assemble (exactly fun _ => 1) renewedUnits 5 ()).1.toOption.any
      (fun assembly => summaryThenInstructions assembly.messages) = true := by
    decide +kernel
  obtain ⟨assembly, ran, shown⟩ := Checks.toOption_any_eq_true.mp shown
  unfold summaryThenInstructions at shown
  split at shown
  · next first m second later last laid =>
    have wrong := all _ renewedUnits 5 assembly ran [.record first] m
      [.record second, .record later, .record last] laid later (by simp)
    exact wrong (of_decide_eq_true shown)
  · cases shown

end AgentContext
