import HarnessSdk.Library.Dict

/-! Tables of rows: updates by a condition, and sums over the rows. -/
namespace Tables
variable {α κ : Type}

/-- `UPDATE … WHERE p`. -/
def amend (p : α → Prop) [DecidablePred p] (f : α → α) (rows : List α) : List α :=
  rows.map fun row => if p row then f row else row

def total (amount : α → Int) (rows : List α) : Int := (rows.map amount).sum

variable {f : α → α} (amount : α → Int)

@[simp] theorem total_nil : total amount [] = 0 := rfl

@[simp] theorem total_cons (row : α) (rows : List α) :
    total amount (row :: rows) = amount row + total amount rows := by
  simp [total]

@[simp] theorem total_append (rows rows' : List α) :
    total amount (rows ++ rows') = total amount rows + total amount rows' := by
  simp [total]

theorem total_filter (p : α → Prop) [DecidablePred p] (rows : List α) :
    total amount (rows.filter p) = total (fun row => if p row then amount row else 0) rows := by
  induction rows with
  | nil => rfl
  | cons row rest ih =>
    by_cases h : p row <;> simp [h, ih]

variable {rows : List α} {p : α → Prop}

theorem total_le_of_forall₂ {amount : α → Int} {rows' : List α}
    (less : List.Forall₂ (fun row row' => amount row' ≤ amount row) rows rows') :
    total amount rows' ≤ total amount rows := by
  induction less with
  | nil => exact Int.le_refl _
  | cons first _ ih =>
    rw [total_cons, total_cons]
    omega

theorem amend_congr {q : α → Prop} [DecidablePred p] [DecidablePred q]
    (same : ∀ row ∈ rows, p row ↔ q row) : amend p f rows = amend q f rows := by
  apply List.map_congr_left
  intro row inside
  by_cases h : p row
  · rw [if_pos h, if_pos ((same row inside).mp h)]
  · rw [if_neg h, if_neg fun hq => h ((same row inside).mpr hq)]

theorem amend_same [DecidablePred p] {g : α → α} (same : ∀ row ∈ rows, p row → f row = g row) :
    amend p f rows = amend p g rows := by
  apply List.map_congr_left
  intro row inside
  by_cases h : p row
  · rw [if_pos h, if_pos h, same row inside h]
  · rw [if_neg h, if_neg h]

theorem mem_amend [DecidablePred p] {row : α} :
    row ∈ amend p f rows ↔ ∃ old ∈ rows, row = if p old then f old else old := by
  simp only [amend, List.mem_map, eq_comm]

theorem map_amend [DecidablePred p] {column : α → κ} (keeps : ∀ row, column (f row) = column row)
    (rows : List α) : (amend p f rows).map column = rows.map column := by
  unfold amend
  rw [List.map_map]
  apply List.map_congr_left
  intro row _
  simp only [Function.comp_apply]
  split
  · exact keeps row
  · rfl

theorem amend_amend {q : α → Prop} [DecidablePred p] [DecidablePred q]
    (apart : ∀ row ∈ rows, p row → ¬ q (f row)) :
    amend q f (amend p f rows) = amend (fun row => p row ∨ q row) f rows := by
  unfold amend
  rw [List.map_map]
  apply List.map_congr_left
  intro row inside
  simp only [Function.comp_apply]
  by_cases first : p row
  · rw [if_pos first, if_neg (apart row inside first), if_pos (Or.inl first)]
  · rw [if_neg first]
    by_cases second : q row
    · rw [if_pos second, if_pos (Or.inr second)]
    · rw [if_neg second, if_neg (not_or.mpr ⟨first, second⟩)]

section
variable [DecidableEq κ] {key : α → κ} {rows : List α} {row : α}

theorem total_amend_key (amount : α → Int) (f : α → α) (distinct : (rows.map key).Nodup)
    (inside : row ∈ rows) :
    total amount (amend (key · = key row) f rows) =
      total amount rows + (amount (f row) - amount row) := by
  induction rows with
  | nil => cases inside
  | cons first rest ih =>
    rw [List.map_cons, List.nodup_cons] at distinct
    have step : amend (key · = key row) f (first :: rest) =
        (if key first = key row then f first else first) :: amend (key · = key row) f rest := rfl
    rw [step, total_cons, total_cons]
    rcases List.mem_cons.mp inside with rfl | later
    · have others : amend (key · = key row) f rest = rest := by
        conv_rhs => rw [← List.map_id rest]
        apply List.map_congr_left
        intro other hother
        apply if_neg
        intro same
        exact distinct.1 (same ▸ List.mem_map_of_mem hother)
      rw [others, if_pos rfl]
      omega
    · have differ : key first ≠ key row := fun same =>
        distinct.1 (same ▸ List.mem_map_of_mem later)
      rw [if_neg differ, ih distinct.2 later]
      omega

end

/-! Sums over a dictionary. -/

section
open PyDict
variable {β : Type} [DecidableEq κ] {d : Dict κ β} {k : κ} {v v' : β}

variable (amount : κ × β → Int)

theorem total_set_new (fresh : k ∉ keys d) :
    total amount (set d k v) = total amount d + amount (k, v) := by
  rw [set_of_not_mem v fresh, total_append, total_cons, total_nil, Int.add_zero]

theorem total_set_old (found : get? d k = some v) :
    total amount (set d k v') = total amount d + (amount (k, v') - amount (k, v)) := by
  induction d with
  | nil => cases found
  | cons entry rest ih =>
    obtain ⟨k₀, v₀⟩ := entry
    by_cases here : k₀ = k
    · subst here
      rw [get?, if_pos rfl, Option.some.injEq] at found
      subst found
      rw [PyDict.set, if_pos rfl, total_cons, total_cons]
      omega
    · rw [get?, if_neg here] at found
      rw [PyDict.set, if_neg here, total_cons, total_cons, ih found]
      omega

end
end Tables
