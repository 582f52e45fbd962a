import HarnessSdk.Context.Composer

/-! What an assembly selects and what it drops, whatever the counter and the budget: every unit is
on one of the two sides, and the budget is never exceeded by parts that could have been left out. -/
namespace AgentContext

variable (units : List ContextUnit)

theorem body_perm : (instructionsOf units ++ bodyOf units).Perm units := by
  have complement : bodyOf units = units.filter fun u => !decide (u.kind = .instructions) := by
    apply List.filter_congr
    intro u _
    simp
  rw [complement]
  exact List.filter_append_perm _ units

theorem required_optional_perm : (requiredUnits units ++ optionalUnits units).Perm units := by
  have places := List.filter_append_perm (fun place => keeps (bodyOf units) place.2)
    (bodyOf units).zipIdx
  have body : ((bodyOf units).zipIdx.map Prod.fst) = bodyOf units := by simp
  have mapped := places.map Prod.fst
  rw [List.map_append, body] at mapped
  unfold requiredUnits optionalUnits
  rw [List.append_assoc]
  exact (mapped.append_left (instructionsOf units)).trans (body_perm units)

theorem mem_required_of_keeps {units : List ContextUnit} {u : ContextUnit} {index : Nat}
    (place : (bodyOf units)[index]? = some u) (kept : keeps (bodyOf units) index = true) :
    u ∈ requiredUnits units := by
  have listed : (u, index) ∈ (bodyOf units).zipIdx :=
    List.mem_zipIdx_iff_getElem?.mpr place
  apply List.mem_append_right
  exact List.mem_map.mpr ⟨(u, index), by simp [listed, kept], rfl⟩

variable {u : ContextUnit}

theorem instructions_required {units : List ContextUnit} (inside : u ∈ units)
    (sort : u.kind = .instructions) : u ∈ requiredUnits units := by
  apply List.mem_append_left
  simp [instructionsOf, inside, sort]

theorem tail_required {units : List ContextUnit} (last : units.getLast? = some u) :
    u ∈ requiredUnits units := by
  by_cases sort : u.kind = .instructions
  · exact instructions_required (List.mem_of_getLast? last) sort
  · obtain ⟨front, split⟩ := List.getLast?_eq_some_iff.mp last
    have tail : bodyOf units = bodyOf front ++ [u] := by
      rw [split]
      simp [bodyOf, sort]
    apply @mem_required_of_keeps _ _ (bodyOf front).length
    · rw [tail]
      simp
    · rw [tail]
      simp [keeps]

theorem userInput_required {front back : List ContextUnit} (sort : u.kind = .userInput)
    (newest : ∀ v ∈ back, v.kind ≠ .userInput) : u ∈ requiredUnits (front ++ u :: back) := by
  have body : bodyOf (front ++ u :: back) = bodyOf front ++ u :: bodyOf back := by
    simp [bodyOf, sort]
  have place : (bodyOf (front ++ u :: back))[(bodyOf front).length]? = some u := by
    rw [body]
    simp
  apply mem_required_of_keeps place
  have latest : currentInputIndex (bodyOf (front ++ u :: back)) = some (bodyOf front).length := by
    unfold currentInputIndex
    rw [List.max?_eq_some_iff]
    constructor
    · refine List.mem_map.mpr ⟨(u, (bodyOf front).length), ?_, rfl⟩
      simp [List.mem_zipIdx_iff_getElem?, place, sort]
    · intro index listed
      obtain ⟨⟨v, i⟩, kept, rfl⟩ := List.mem_map.mp listed
      simp only [List.mem_filter, decide_eq_true_eq] at kept
      by_contra above
      have later : (bodyOf front).length < i := by
        simpa using above
      have there := List.mem_zipIdx_iff_getElem?.mp kept.1
      rw [body, List.getElem?_append_right (by omega)] at there
      obtain ⟨k, hk⟩ : ∃ k, i - (bodyOf front).length = k + 1 :=
        ⟨i - (bodyOf front).length - 1, by omega⟩
      simp only at there
      rw [hk, List.getElem?_cons_succ] at there
      have inside : v ∈ bodyOf back := List.mem_of_getElem? there
      exact newest v (List.mem_of_mem_filter inside) kept.2
  simp [keeps, latest]

section
variable {σ : Type} (count : Counter σ)

/-- The newest units up to some point are admitted, all older ones dropped. -/
def SplitsAt (required newest : List ContextUnit) (a : Admission) : Prop :=
  ∃ n, a.selected = required ++ newest.take n ∧ a.dropped = newest.drop n

theorem admit_none (room : Int) (us : List ContextUnit) (a : Admission) (s : σ) :
    (admitUnits count room us false a s).1 =
      { a with
        dropped := a.dropped ++ us } := by
  induction us generalizing a s with
  | nil => simp [admitUnits]
  | cons u older ih =>
    unfold admitUnits
    simp [ih]

theorem admit_splits (room : Int) (us : List ContextUnit) (admitting : Bool) (a : Admission)
    (s : σ) : ∃ n, (admitUnits count room us admitting a s).1.selected = a.selected ++ us.take n ∧
      (admitUnits count room us admitting a s).1.dropped = a.dropped ++ us.drop n := by
  induction us generalizing a s admitting with
  | nil => exact ⟨0, by simp [admitUnits]⟩
  | cons u older ih =>
    unfold admitUnits
    dsimp only
    split
    · obtain ⟨n, chosen, left⟩ := ih true
        { a with
          used := a.used + (tally count u.records s).1
          selected := a.selected ++ [u] } (tally count u.records s).2
      exact ⟨n + 1, by simp [chosen], by simp [left]⟩
    · rw [admit_none]
      exact ⟨0, by simp⟩

theorem admit_within (room : Int) (us : List ContextUnit) (admitting : Bool) (a : Admission)
    (s : σ) : (admitUnits count room us admitting a s).1.used = a.used ∨
      ((admitUnits count room us admitting a s).1.used : Int) ≤ room := by
  induction us generalizing a s admitting with
  | nil => exact .inl rfl
  | cons u older ih =>
    unfold admitUnits
    dsimp only
    split
    next fits =>
      rcases ih true
        { a with
          used := a.used + (tally count u.records s).1
          selected := a.selected ++ [u] } (tally count u.records s).2 with same | within
      · right
        rw [same]
        push_cast
        exact fits.2
      · exact .inr within
    next =>
      rw [admit_none]
      exact .inl rfl

structure Settled (budget : Int) (overBudget : Bool) (required : Admission)
    (newest : List ContextUnit) (out : Admission × Option Summary) : Prop where
  splits : SplitsAt required.selected newest out.1
  within : overBudget = false → (required.used : Int) ≤ budget → (out.1.used : Int) ≤ budget
  silent : out.2 = none → out.1.dropped = []
  named : ∀ summary, out.2 = some summary →
    out.1.dropped ≠ [] ∧ summary = structuralSummary out.1.dropped false

theorem round_settled {budget : Int} {overBudget : Bool} {required : Admission}
    {newest : List ContextUnit} (fresh : required.dropped = []) (reserve : Nat) (s : σ) :
    SplitsAt required.selected newest
        (admitUnits count (budget - reserve) newest (!overBudget) required s).1 ∧
      (overBudget = false → (required.used : Int) ≤ budget →
        ((admitUnits count (budget - reserve) newest (!overBudget) required s).1.used : Int) ≤
          budget) := by
  constructor
  · obtain ⟨n, chosen, left⟩ :=
      admit_splits count (budget - reserve) newest (!overBudget) required s
    exact ⟨n, chosen, by rw [left, fresh, List.nil_append]⟩
  · intro _ fits
    rcases admit_within count (budget - reserve) newest (!overBudget) required s with same | within
    · rw [same]
      exact fits
    · omega

theorem settle_settled {budget : Int} {overBudget : Bool} {required : Admission}
    {newest : List ContextUnit} (fresh : required.dropped = []) (rounds reserve : Nat)
    (last : Admission × Option Summary) (s : σ)
    (ready : rounds = 0 → Settled budget overBudget required newest last) :
    Settled budget overBudget required newest
      (settle count budget overBudget required newest rounds reserve last s).1 := by
  induction rounds generalizing reserve last s with
  | zero => exact ready rfl
  | succ rounds ih =>
    obtain ⟨splits, within⟩ := @round_settled _ count budget overBudget _ newest fresh reserve s
    unfold settle
    dsimp only
    split
    next nothing =>
      exact ⟨splits, within, fun _ => List.isEmpty_iff.mp nothing, by simp⟩
    next something =>
      have named : Settled budget overBudget required newest
          ((admitUnits count (budget - reserve) newest (!overBudget) required s).1,
            some (structuralSummary
              (admitUnits count (budget - reserve) newest (!overBudget) required s).1.dropped
              false)) := by
        refine ⟨splits, within, by simp, ?_⟩
        intro summary same
        exact ⟨by simpa using something, (Option.some.inj same).symm⟩
      split
      · exact named
      · exact ih _ _ _ fun _ => named

structure Points (budget : Int) (overBudget : Bool) (a : Admission) (sent : Pointer) : Prop where
  within : overBudget = false → (a.used : Int) ≤ budget → (a.used + sent.tokens : Int) ≤ budget
  named : ∀ m, sent.summary = some m → a.dropped ≠ [] ∧
    ∃ compact, m = (structuralSummary a.dropped compact).message

theorem pointer_points {budget : Int} {overBudget : Bool} {required : Admission}
    {newest : List ContextUnit} {out : Admission × Option Summary}
    (settled : Settled budget overBudget required newest out) (s : σ) :
    Points budget overBudget out.1 (pointer count budget overBudget out.1 out.2 s).1 := by
  obtain ⟨a, summary⟩ := out
  cases summary with
  | none =>
    refine ⟨?_, by simp [pointer]⟩
    intro _ fits
    simpa [pointer] using fits
  | some full =>
    obtain ⟨some_dropped, same⟩ := settled.named full rfl
    unfold pointer
    dsimp only
    split
    next tight =>
      split
      next compactFits =>
        refine ⟨fun _ _ => compactFits, ?_⟩
        intro m sent
        exact ⟨some_dropped, true, (Option.some.inj sent).symm⟩
      next =>
        refine ⟨?_, by simp⟩
        intro _ fits
        simpa using fits
    next roomy =>
      refine ⟨?_, ?_⟩
      · intro counted _
        by_contra above
        have tight := Int.not_le.mp above
        exact roomy ⟨tight, counted⟩
      · intro m sent
        exact ⟨some_dropped, false, by rw [← Option.some.inj sent, same]⟩

structure Composed (units : List ContextUnit) (budget : Int) (assembly : Assembly) : Prop where
  shape : ∃ (a : Admission) (sent : Pointer) (requiredUsed : Nat),
    assembly = assembled a sent (decide (budget < requiredUsed)) requiredUsed ∧
      SplitsAt (requiredUnits units) (optionalUnits units).reverse a ∧
      Points budget (decide (budget < requiredUsed)) a sent
  within : assembly.requiredOverBudget = false → (assembly.messageTokens : Int) ≤ budget

theorem assemble_composed {units : List ContextUnit} (some_units : units ≠ []) (budget : Int)
    (s : σ) : ∃ assembly, (assemble count units budget s).1 = .ok assembly ∧
      Composed units budget assembly := by
  have present : units.isEmpty = false := by simp [some_units]
  let requiredUsed := tally count (recordsOf (requiredUnits units)) s
  let overBudget := decide (budget < requiredUsed.1)
  let required : Admission := ⟨requiredUsed.1, requiredUnits units, []⟩
  let out := settle count budget overBudget required (optionalUnits units).reverse 4 0
    (required, none) requiredUsed.2
  have settled : Settled budget overBudget required (optionalUnits units).reverse out.1 :=
    settle_settled count rfl 4 0 (required, none) requiredUsed.2 (by simp)
  let sent := pointer count budget overBudget out.1.1 out.1.2 out.2
  have points : Points budget overBudget out.1.1 sent.1 := pointer_points count settled out.2
  have kept : overBudget = false → (out.1.1.used + sent.1.tokens : Int) ≤ budget := by
    intro fits
    have required_fits : ¬ budget < (required.used : Int) := of_decide_eq_false fits
    exact points.within fits (settled.within fits (by omega))
  have run : (assemble count units budget s).1 =
      .ok (assembled out.1.1 sent.1 overBudget requiredUsed.1) := by
    have no_error : ¬ (overBudget = false ∧ budget < (out.1.1.used + sent.1.tokens : Int)) := by
      rintro ⟨fits, above⟩
      have := kept fits
      omega
    unfold assemble
    rw [present]
    exact congrArg Prod.fst (if_neg no_error)
  refine ⟨_, run, ⟨out.1.1, sent.1, requiredUsed.1, rfl, settled.splits, points⟩, ?_⟩
  intro fits
  have bound := kept fits
  simpa [assembled] using bound

end

end AgentContext
