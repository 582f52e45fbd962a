import HarnessSdk.Context.Port

/-! What the bounded read of a journal returns: the newest pages, the group they cut, the early
instructions and the newest user input. -/
namespace AgentContext

def Ascending (records : List Record) : Prop := records.Pairwise fun r t => r.seq < t.seq

variable {records : List Record}

theorem Ascending.filter (order : Ascending records) (p : Record → Bool) :
    Ascending (records.filter p) :=
  List.Pairwise.filter p order

theorem Ascending.ext {a b : List Record} (ha : Ascending a) (hb : Ascending b)
    (same : ∀ r, r ∈ a ↔ r ∈ b) : a = b := by
  have distinct : ∀ {l : List Record}, Ascending l → l.Nodup := by
    intro l order
    apply order.imp
    intro r t before equal
    rw [equal] at before
    omega
  have perm : a.Perm b := (List.perm_ext_iff_of_nodup (distinct ha) (distinct hb)).mpr same
  exact perm.eq_of_pairwise (fun r t _ _ before after => by omega) ha hb

theorem bySeq_perm (records : List Record) : (bySeq records).Perm records :=
  List.perm_insertionSort _ records

theorem bySeq_ascending (distinct : (records.map Record.seq).Nodup) :
    Ascending (bySeq records) := by
  have weak : (bySeq records).Pairwise fun r t => r.seq ≤ t.seq :=
    List.pairwise_insertionSort _ records
  have apart : (bySeq records).Pairwise fun r t => r.seq ≠ t.seq := by
    have nodup : ((bySeq records).map Record.seq).Nodup :=
      ((bySeq_perm records).map Record.seq).nodup_iff.mpr distinct
    exact List.pairwise_map.mp nodup
  exact (weak.and apart).imp fun both => by omega

section
variable {j : Journal}

structure RowsOf (j : Journal) (records : List Record) : Prop where
  order : Ascending records
  rows : ∀ r ∈ records, r ∈ j.rows

theorem read_rowsOf (j : Journal) (a b : Nat) : RowsOf j (j.read a b) :=
  ⟨Ascending.filter Journal.seq_increases _, fun _ inside => (Journal.mem_read.mp inside).1⟩

variable {records : List Record} {r : Record}

theorem RowsOf.mem_of_seq (known : RowsOf j records) (row : r ∈ j.rows)
    (listed : r.seq ∈ records.map Record.seq) : r ∈ records := by
  obtain ⟨t, inside, same⟩ := List.mem_map.mp listed
  rw [← Journal.seq_inj (known.rows t inside) row same]
  exact inside

theorem RowsOf.sublist (known : RowsOf j records) : records.Sublist j.rows := by
  have same : records = j.rows.filter fun r => r.seq ∈ records.map Record.seq := by
    apply Ascending.ext known.order (Ascending.filter Journal.seq_increases _)
    intro r
    rw [List.mem_filter, decide_eq_true_eq]
    constructor
    · intro inside
      exact ⟨known.rows r inside, List.mem_map_of_mem inside⟩
    · rintro ⟨row, listed⟩
      exact known.mem_of_seq row listed
  rw [same]
  exact List.filter_sublist

theorem mem_instructionRows :
    r ∈ instructionRows j ↔ r ∈ j.rows ∧ r.kind = .instructions ∧ r.seq ≤ 8 := by
  unfold instructionRows
  rw [List.mem_filter, Journal.mem_read, Journal.highwater_eq]
  constructor
  · rintro ⟨⟨row, _, high⟩, sort⟩
    exact ⟨row, by simpa using sort, by omega⟩
  · rintro ⟨row, sort, high⟩
    have bounds := Journal.seq_bounds row
    exact ⟨⟨row, bounds.1, by omega⟩, by simpa using sort⟩

structure ReadAbove (j : Journal) (cut : Nat) (collected : List Record) : Prop where
  rowsOf : RowsOf j collected
  above : ∀ r ∈ j.rows, r ∈ collected ↔ cut < r.seq

theorem readAbove_start (j : Journal) : ReadAbove j j.highwater [] := by
  refine ⟨⟨List.Pairwise.nil, by simp⟩, ?_⟩
  intro r row
  have bounds := Journal.seq_bounds row
  rw [Journal.highwater_eq]
  simp only [List.not_mem_nil, false_iff]
  omega

variable {collected : List Record} {cut : Nat}

theorem ReadAbove.page {toSeq fromSeq : Nat} (known : ReadAbove j toSeq collected)
    (positive : 1 ≤ fromSeq) (below : fromSeq ≤ toSeq + 1) :
    ReadAbove j (fromSeq - 1) (j.read fromSeq toSeq ++ collected) := by
  have page := read_rowsOf j fromSeq toSeq
  refine ⟨⟨?_, ?_⟩, ?_⟩
  · apply List.pairwise_append.mpr
    refine ⟨page.order, known.rowsOf.order, ?_⟩
    intro r older t newer
    have low := (Journal.mem_read.mp older).2.2
    have high := (known.above t (known.rowsOf.rows t newer)).mp newer
    omega
  · intro r inside
    rcases List.mem_append.mp inside with older | newer
    · exact page.rows r older
    · exact known.rowsOf.rows r newer
  · intro r row
    rw [List.mem_append, Journal.mem_read, known.above r row]
    constructor
    · rintro (⟨_, low, _⟩ | high) <;> omega
    · intro low
      by_cases high : r.seq ≤ toSeq
      · exact .inl ⟨row, by omega, high⟩
      · exact .inr (by omega)

theorem ReadAbove.oldest {oldest : Record} {later : List Record}
    (known : ReadAbove j cut (oldest :: later)) : oldest.seq = cut + 1 := by
  have row := known.rowsOf.rows oldest List.mem_cons_self
  have low : cut < oldest.seq := (known.above oldest row).mp List.mem_cons_self
  have bounds := Journal.seq_bounds row
  obtain ⟨first, there, same⟩ : ∃ r ∈ j.rows, r.seq = cut + 1 :=
    Journal.exists_row (by omega) (by omega)
  have inside := (known.above first there).mpr (by omega)
  rcases List.mem_cons.mp inside with rfl | after
  · exact same
  · have := (List.pairwise_cons.mp known.rowsOf.order).1 first after
    omega

def Joins (j : Journal) (cut : Nat) (r : Record) : Prop :=
  (r.kind = .instructions ∧ r.seq ≤ 8) ∨ j.latest .userInput = some r ∨
    ∃ oldest ∈ j.rows, oldest.seq = cut + 1 ∧ oldest.kind.inGroup = true ∧
      r.protocolGroupId = oldest.protocolGroupId

theorem withGroupHead_rowsOf (known : ReadAbove j cut collected) :
    RowsOf j (withGroupHead j collected cut) := by
  cases collected with
  | nil => exact ⟨List.Pairwise.nil, by simp [withGroupHead]⟩
  | cons oldest later =>
    simp only [withGroupHead]
    split
    · refine ⟨List.pairwise_append.mpr ⟨?_, known.rowsOf.order, ?_⟩, ?_⟩
      · exact Ascending.filter Journal.seq_increases _
      · intro r older t newer
        have before := (Journal.mem_groupHead.mp older).2.2
        have start := known.oldest
        have above := (known.above t (known.rowsOf.rows t newer)).mp newer
        omega
      · intro r inside
        rcases List.mem_append.mp inside with older | newer
        · exact (Journal.mem_groupHead.mp older).1
        · exact known.rowsOf.rows r newer
    · exact known.rowsOf

theorem mem_withGroupHead (known : ReadAbove j cut collected) (present : collected ≠ [])
    (row : r ∈ j.rows) :
    r ∈ withGroupHead j collected cut ↔ cut < r.seq ∨
      ∃ oldest ∈ j.rows, oldest.seq = cut + 1 ∧ oldest.kind.inGroup = true ∧
        r.protocolGroupId = oldest.protocolGroupId := by
  cases collected with
  | nil => exact absurd rfl present
  | cons oldest later =>
    have start := known.oldest
    have head := known.rowsOf.rows oldest List.mem_cons_self
    have bounds := Journal.seq_bounds row
    have only : ∀ t ∈ j.rows, t.seq = cut + 1 → t = oldest := fun t ht same =>
      Journal.seq_inj ht head (same.trans start.symm)
    simp only [withGroupHead]
    split
    next cuts =>
      rw [List.mem_append, Journal.mem_groupHead, known.above r row]
      constructor
      · rintro (⟨_, same, _⟩ | above)
        · exact .inr ⟨oldest, head, start, cuts.2, same⟩
        · exact .inl above
      · rintro (above | ⟨t, ht, place, _, same⟩)
        · exact .inr above
        · by_cases above : cut < r.seq
          · exact .inr above
          · rw [only t ht place] at same
            exact .inl ⟨row, same, by omega⟩
    next whole =>
      rw [known.above r row]
      constructor
      · exact .inl
      · rintro (above | ⟨t, ht, place, grouped, _⟩)
        · exact above
        · rw [only t ht place] at grouped
          have none_below : ¬ 1 ≤ cut := fun more => whole ⟨more, grouped⟩
          omega

theorem mergeRows_rowsOf (known : RowsOf j collected) :
    RowsOf j (mergeRows j collected) ∧ ∀ r, r ∈ mergeRows j collected ↔
      r ∈ instructionRows j ∨ r ∈ collected ∨ j.latest .userInput = some r := by
  have members : ∀ r, r ∈ mergeRows j collected ↔
      r ∈ instructionRows j ∨ r ∈ collected ∨ j.latest .userInput = some r := by
    intro r
    unfold mergeRows
    rw [(bySeq_perm _).mem_iff]
    simp only [List.mem_append, List.mem_filter, Option.mem_toList, decide_eq_true_eq]
    constructor
    · rintro ((⟨early, _⟩ | there) | ⟨input, _⟩)
      · exact .inl early
      · exact .inr (.inl there)
      · exact .inr (.inr input)
    · intro known_row
      by_cases covered : r.seq ∈ collected.map Record.seq
      · refine .inl (.inr ?_)
        apply known.mem_of_seq _ covered
        rcases known_row with early | there | input
        · exact (mem_instructionRows.mp early).1
        · exact known.rows r there
        · exact (Journal.latest_eq_some input).1
      · rcases known_row with early | there | input
        · exact .inl (.inl ⟨early, covered⟩)
        · exact .inl (.inr there)
        · exact .inr ⟨input, covered⟩
  refine ⟨⟨?_, ?_⟩, members⟩
  · apply bySeq_ascending
    have early : ((instructionRows j).map Record.seq).Nodup := by
      have order : Ascending (instructionRows j) :=
        Ascending.filter (read_rowsOf j _ _).order _
      exact List.pairwise_map.mpr (order.imp fun before => by omega)
    have there : (collected.map Record.seq).Nodup :=
      List.pairwise_map.mpr (known.order.imp fun before => by omega)
    rw [List.map_append, List.map_append]
    refine List.nodup_append.mpr ⟨List.nodup_append.mpr ⟨?_, there, ?_⟩, ?_, ?_⟩
    · exact early.sublist (List.filter_sublist.map Record.seq)
    · intro n first m second same
      obtain ⟨r, kept, rfl⟩ := List.mem_map.mp first
      have fresh := (List.mem_filter.mp kept).2
      rw [same] at fresh
      simp only [decide_eq_true_eq] at fresh
      exact fresh second
    · exact (List.Nodup.sublist (List.filter_sublist.map Record.seq)
        (by cases j.latest .userInput <;> simp))
    · intro n first m second same
      obtain ⟨input, kept, rfl⟩ := List.mem_map.mp second
      obtain ⟨found, fresh⟩ := List.mem_filter.mp kept
      have latest := Journal.latest_eq_some (Option.mem_toList.mp found)
      simp only [decide_eq_true_eq] at fresh
      rcases List.mem_append.mp first with early_seq | there_seq
      · obtain ⟨r, kept', rfl⟩ := List.mem_map.mp early_seq
        have facts := mem_instructionRows.mp (List.mem_of_mem_filter kept')
        have equal := Journal.seq_inj facts.1 latest.1 same
        rw [equal, latest.2.1] at facts
        exact absurd facts.2.1 (by decide)
      · rw [same] at there_seq
        exact fresh there_seq
  · intro r inside
    rcases (members r).mp inside with early | there | input
    · exact (mem_instructionRows.mp early).1
    · exact known.rows r there
    · exact (Journal.latest_eq_some input).1

section
variable {σ : Type} (count : Counter σ) (page : Nat)

/-- The tokens of the early instructions and of some number of newest pages. -/
def spend (j : Journal) : Nat → σ → Nat × σ
  | 0, s => tally count (instructionRows j) s
  | k + 1, s =>
    let before := spend j k s
    let toSeq := j.highwater - k * page
    let cost := tally count (visible (j.read (max 1 (toSeq + 1 - page)) toSeq)) before.2
    (before.1 + cost.1, cost.2)

/-- Any two or more newest pages without this row fit in the budget with the instructions. -/
def Affords (j : Journal) (available : Nat) (s : σ) (r : Record) : Prop :=
  ∀ k, 2 ≤ k → r.seq + k * page ≤ j.highwater → (spend count page j k s).1 ≤ available

variable {page}

variable {j : Journal} {available : Nat} {s : σ} {r : Record}

theorem affords_all {k : Nat} (reached : j.highwater ≤ k * page)
    (fits : ∀ k', 2 ≤ k' → k' ≤ k → (spend count page j k' s).1 ≤ available) (row : r ∈ j.rows) :
    Affords count page j available s r := by
  intro k' two outside
  have bounds := Journal.seq_bounds row
  apply fits k' two
  by_contra above
  have more : k * page ≤ k' * page := Nat.mul_le_mul_right page (by omega)
  omega

theorem affords_iff_above {k : Nat} (two : 2 ≤ k) (above : available < (spend count page j k s).1)
    (fits : ∀ k', 2 ≤ k' → k' < k → (spend count page j k' s).1 ≤ available) (row : r ∈ j.rows) :
    j.highwater - k * page < r.seq ↔ Affords count page j available s r := by
  have bounds := Journal.seq_bounds row
  constructor
  · intro high k' two' outside
    apply fits k' two'
    by_contra more
    have larger : k * page ≤ k' * page := Nat.mul_le_mul_right page (by omega)
    omega
  · intro affords
    by_contra low
    have := affords k two (by omega)
    omega

theorem readPages_reads (positive : 1 ≤ page) (j : Journal) (available : Nat) (s : σ)
    (fuel k : Nat) (collected : List Record) (enough : j.highwater - k * page ≤ fuel)
    (known : ReadAbove j (j.highwater - k * page) collected)
    (fits : ∀ k', 2 ≤ k' → k' ≤ k → (spend count page j k' s).1 ≤ available) :
    ∃ collected' cut, (readPages count page j available fuel (j.highwater - k * page) k
        (spend count page j k s).1 collected (spend count page j k s).2).1 = (collected', cut) ∧
      ReadAbove j cut collected' ∧ (1 ≤ j.highwater → cut < j.highwater) ∧
      ∀ r ∈ j.rows, cut < r.seq ↔ Affords count page j available s r := by
  have ended : j.highwater - k * page = 0 → ∀ r ∈ j.rows,
      0 < r.seq ↔ Affords count page j available s r := by
    intro zero r row
    have bounds := Journal.seq_bounds row
    exact ⟨fun _ => affords_all count (by omega) fits row, fun _ => by omega⟩
  induction fuel generalizing k collected with
  | zero =>
    have zero : j.highwater - k * page = 0 := by omega
    refine ⟨collected, 0, ?_, zero ▸ known, id, ended zero⟩
    simp [readPages, zero]
  | succ fuel ih =>
    unfold readPages
    split
    next zero => exact ⟨collected, 0, rfl, zero ▸ known, id, ended zero⟩
    next more =>
      have further : (k + 1) * page = k * page + page := Nat.succ_mul k page
      have lower : max 1 (j.highwater - k * page + 1 - page) - 1 =
          j.highwater - (k + 1) * page := by
        omega
      have next : ReadAbove j (j.highwater - (k + 1) * page)
          (j.read (max 1 (j.highwater - k * page + 1 - page)) (j.highwater - k * page) ++
            collected) := by
        rw [← lower]
        exact known.page (by omega) (by omega)
      dsimp only
      split
      next stops =>
        refine ⟨_, _, rfl, lower ▸ next, fun _ => by omega, ?_⟩
        intro r row
        rw [lower]
        exact affords_iff_above count stops.2 stops.1
          (fun k' two below => fits k' two (by omega)) row
      next goes_on =>
        have fits' : ∀ k', 2 ≤ k' → k' ≤ k + 1 →
            (spend count page j k' s).1 ≤ available := by
          intro k' two below
          by_cases last : k' = k + 1
          · subst last
            by_contra above
            exact goes_on ⟨Nat.not_le.mp above, two⟩
          · exact fits k' two (by omega)
        have zero_or : j.highwater - (k + 1) * page = 0 → ∀ r ∈ j.rows,
            0 < r.seq ↔ Affords count page j available s r := by
          intro zero r row
          have bounds := Journal.seq_bounds row
          exact ⟨fun _ => affords_all count (by omega) fits' row, fun _ => by omega⟩
        have rest := ih (k + 1) _ (by omega) next fits' zero_or
        rw [lower]
        exact rest

def Reached (page : Nat) (j : Journal) (available : Nat) (s : σ) (r : Record) : Prop :=
  Affords count page j available s r ∨ (r.kind = .instructions ∧ r.seq ≤ 8) ∨
    j.latest .userInput = some r ∨
    ∃ oldest ∈ j.rows, Affords count page j available s oldest ∧
      (∀ t ∈ j.rows, t.seq < oldest.seq → ¬ Affords count page j available s t) ∧
      oldest.kind.inGroup = true ∧ r.protocolGroupId = oldest.protocolGroupId

theorem readBounded_reads (positive : 1 ≤ page) (j : Journal) (available : Nat) (s : σ) :
    RowsOf j (readBounded count page j available s).1 ∧ ∃ cut,
      (∀ r ∈ j.rows, cut < r.seq ↔ Affords count page j available s r) ∧
      ∀ r ∈ j.rows, r ∈ (readBounded count page j available s).1 ↔
        cut < r.seq ∨ Joins j cut r := by
  have start : ReadAbove j (j.highwater - 0 * page) [] := by
    rw [Nat.zero_mul, Nat.sub_zero]
    exact readAbove_start j
  obtain ⟨collected, cut, run, known, below, exact_cut⟩ :=
    readPages_reads count positive j available s j.highwater 0 []
      (by omega) start (by omega)
  rw [Nat.zero_mul, Nat.sub_zero] at run
  have shape : (readBounded count page j available s).1 =
      mergeRows j (withGroupHead j collected cut) := by
    unfold readBounded
    dsimp only
    change mergeRows j (withGroupHead j
      (readPages count page j available j.highwater j.highwater 0 (spend count page j 0 s).1 []
        (spend count page j 0 s).2).1.1
      (readPages count page j available j.highwater j.highwater 0 (spend count page j 0 s).1 []
        (spend count page j 0 s).2).1.2) = _
    rw [run]
  obtain ⟨rowsOf, members⟩ := mergeRows_rowsOf (withGroupHead_rowsOf known)
  rw [shape]
  refine ⟨rowsOf, cut, exact_cut, ?_⟩
  intro r row
  have bounds := Journal.seq_bounds row
  have present : collected ≠ [] := by
    rw [Journal.highwater_eq] at below
    obtain ⟨newest, there, last⟩ := Journal.exists_row (j := j) (n := j.rows.length) (by omega)
      (Nat.le_refl _)
    have inside := (known.above newest there).mpr (by omega)
    exact List.ne_nil_of_mem inside
  rw [members r, mem_withGroupHead known present row, mem_instructionRows]
  unfold Joins
  constructor
  · rintro (⟨_, early⟩ | (above | group) | input)
    · exact .inr (.inl early)
    · exact .inl above
    · exact .inr (.inr (.inr group))
    · exact .inr (.inr (.inl input))
  · rintro (above | early | input | group)
    · exact .inr (.inl (.inl above))
    · exact .inl ⟨row, early⟩
    · exact .inr (.inr input)
    · exact .inr (.inl (.inr group))

theorem mem_readBounded_iff (positive : 1 ≤ page) (row : r ∈ j.rows) :
    r ∈ (readBounded count page j available s).1 ↔ Reached count page j available s r := by
  obtain ⟨_, cut, exact_cut, members⟩ :=
    readBounded_reads count positive j available s
  rw [members r row, exact_cut r row]
  unfold Joins Reached
  apply or_congr Iff.rfl
  apply or_congr Iff.rfl
  apply or_congr Iff.rfl
  constructor
  · rintro ⟨oldest, there, place, grouped, same⟩
    refine ⟨oldest, there, (exact_cut oldest there).mp (by omega), ?_, grouped, same⟩
    intro t ht older afforded
    have := (exact_cut t ht).mpr afforded
    omega
  · rintro ⟨oldest, there, afforded, first, grouped, same⟩
    refine ⟨oldest, there, ?_, grouped, same⟩
    have above := (exact_cut oldest there).mpr afforded
    by_contra apart
    have bounds := Journal.seq_bounds there
    obtain ⟨t, ht, place⟩ := Journal.exists_row (j := j) (n := cut + 1) (by omega) (by omega)
    exact first t ht (by omega) ((exact_cut t ht).mp (by omega))

end

end

end AgentContext
