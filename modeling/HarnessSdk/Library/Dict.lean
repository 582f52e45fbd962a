import Mathlib

/-! Insertion-ordered dictionaries as association lists: a write to a present key replaces the
value in place, a write to a new key appends. -/
namespace PyDict
variable {κ β γ : Type} [DecidableEq κ]

abbrev Dict (κ β : Type) := List (κ × β)

instance pairLawful : LawfulBEq (String × String) := inferInstance

theorem mem_snoc {a b : β} {items : List β} : b ∈ items ++ [a] ↔ b ∈ items ∨ a = b := by
  rw [List.mem_append, List.mem_singleton, eq_comm]

def get? : Dict κ β → κ → Option β
  | [], _ => none
  | (k, v) :: rest, key => if k = key then some v else get? rest key

def set : Dict κ β → κ → β → Dict κ β
  | [], key, value => [(key, value)]
  | (k, v) :: rest, key, value =>
    if k = key then (k, value) :: rest else (k, v) :: set rest key value

def setDefault (d : Dict κ β) (key : κ) (value : β) : Dict κ β :=
  if (get? d key).isSome then d else set d key value

def keys (d : Dict κ β) : List κ := d.map Prod.fst

def update (d : Dict κ β) (entries : List (κ × β)) : Dict κ β :=
  entries.foldl (fun acc entry => set acc entry.1 entry.2) d

/-- A dictionary display or comprehension: later entries win. -/
def ofEntries (entries : List (κ × β)) : Dict κ β := update [] entries

/-- The keys of `dict.fromkeys(items)`: each item once, where it first stands. -/
def fromkeys (items : List κ) : List κ :=
  items.foldl (fun out item => if item ∈ out then out else out ++ [item]) []

def firsts {α : Type} (key : α → κ) : List κ → List α → List α
  | _, [] => []
  | seen, a :: rest =>
    if key a ∈ seen then firsts key seen rest else a :: firsts key (key a :: seen) rest

@[simp] theorem get?_nil (key : κ) : get? ([] : Dict κ β) key = none := rfl

theorem get?_set (d : Dict κ β) (k k' : κ) (v : β) :
    get? (set d k v) k' = if k = k' then some v else get? d k' := by
  induction d with
  | nil => rfl
  | cons entry rest ih =>
    obtain ⟨j, w⟩ := entry
    by_cases same : j = k
    · subst same
      by_cases here : j = k' <;> simp [set, get?, here]
    · by_cases here : j = k'
      · subst here
        simp [set, get?, same, Ne.symm same]
      · simp [set, get?, same, here, ih]

@[simp] theorem get?_set_self (d : Dict κ β) (k : κ) (v : β) : get? (set d k v) k = some v := by
  simp [get?_set]

variable {k : κ}

theorem get?_set_ne (d : Dict κ β) {k' : κ} (v : β) (different : k ≠ k') :
    get? (set d k v) k' = get? d k' := by
  simp [get?_set, different]

variable {d : Dict κ β} {items : List κ}

theorem every_set {p : κ → β → Prop} {v : β} (each : ∀ k' w, get? d k' = some w → p k' w)
    (new : p k v) : ∀ k' w, get? (set d k v) k' = some w → p k' w := by
  intro k' w found
  rw [get?_set] at found
  split at found
  · next here =>
    cases found
    exact here ▸ new
  · exact each k' w found

theorem set_same {v : β} (found : get? d k = some v) : set d k v = d := by
  induction d with
  | nil => cases found
  | cons entry rest ih =>
    obtain ⟨j, w⟩ := entry
    by_cases here : j = k
    · rw [get?, if_pos here, Option.some.injEq] at found
      rw [set, if_pos here, found, here]
    · rw [get?, if_neg here] at found
      rw [set, if_neg here, ih found]

theorem set_set (d : Dict κ β) (k : κ) (v w : β) : set (set d k v) k w = set d k w := by
  induction d with
  | nil => simp [set]
  | cons entry rest ih =>
    obtain ⟨j, u⟩ := entry
    by_cases here : j = k <;> simp [set, here, ih]

theorem get?_setDefault (d : Dict κ β) (k k' : κ) (v : β) :
    get? (setDefault d k v) k' = if k = k' then some ((get? d k).getD v) else get? d k' := by
  unfold setDefault
  cases found : get? d k with
  | none => simp [get?_set]
  | some old =>
    by_cases same : k = k'
    · simp [← same, found]
    · simp [same]

theorem get?_isSome_iff (d : Dict κ β) (k : κ) : (get? d k).isSome ↔ k ∈ keys d := by
  induction d with
  | nil => simp [keys]
  | cons entry rest ih =>
    obtain ⟨j, w⟩ := entry
    by_cases same : j = k
    · simp [get?, keys, same]
    · simpa [get?, keys, same, Ne.symm same] using ih

theorem get?_eq_none_iff (d : Dict κ β) (k : κ) : get? d k = none ↔ k ∉ keys d := by
  rw [← get?_isSome_iff]
  cases get? d k <;> simp

theorem mem_of_get?_eq_some {v : β} (found : get? d k = some v) : (k, v) ∈ d := by
  induction d with
  | nil => simp at found
  | cons entry rest ih =>
    obtain ⟨j, w⟩ := entry
    by_cases same : j = k
    · simp only [get?, same, if_true, Option.some.injEq] at found
      simp [same, found]
    · simp only [get?, same, if_false] at found
      exact List.mem_cons_of_mem _ (ih found)

theorem mem_set {v : β} {entry : κ × β} (found : entry ∈ set d k v) :
    entry = (k, v) ∨ entry ∈ d := by
  induction d with
  | nil => exact Or.inl (List.mem_singleton.mp found)
  | cons first rest ih =>
    obtain ⟨j, w⟩ := first
    by_cases same : j = k
    · simp only [set, same, if_true, List.mem_cons] at found
      rcases found with here | later
      · exact Or.inl here
      · exact Or.inr (List.mem_cons_of_mem _ later)
    · simp only [set, same, if_false, List.mem_cons] at found
      rcases found with here | later
      · exact Or.inr (by simp [here])
      · rcases ih later with new | old
        · exact Or.inl new
        · exact Or.inr (List.mem_cons_of_mem _ old)

theorem mem_keys_set (d : Dict κ β) (k k' : κ) (v : β) :
    k' ∈ keys (set d k v) ↔ k' = k ∨ k' ∈ keys d := by
  rw [← get?_isSome_iff, ← get?_isSome_iff, get?_set]
  by_cases same : k = k'
  · simp [same]
  · simp [same, Ne.symm same]

theorem keys_set_nodup (k : κ) (v : β) (distinct : (keys d).Nodup) : (keys (set d k v)).Nodup := by
  induction d with
  | nil => simp [set, keys]
  | cons entry rest ih =>
    obtain ⟨j, w⟩ := entry
    simp only [keys, List.map_cons, List.nodup_cons] at distinct
    by_cases same : j = k
    · simpa [set, same, keys] using distinct
    · have fresh : j ∉ keys (set rest k v) := by
        rw [mem_keys_set]
        rintro (rfl | old)
        · exact same rfl
        · exact distinct.1 old
      simp only [set, same, if_false]
      exact List.nodup_cons.mpr ⟨fresh, ih distinct.2⟩

theorem keys_set_of_some {v w : β} (found : get? d k = some w) : keys (set d k v) = keys d := by
  induction d with
  | nil => cases found
  | cons entry rest ih =>
    obtain ⟨j, u⟩ := entry
    by_cases same : j = k
    · simp [set, keys, same]
    · simp only [get?, same, if_false] at found
      have later := ih found
      unfold keys at later ⊢
      simp only [set, same, if_false, List.map_cons]
      rw [later]

theorem keys_set_of_none {v : β} (fresh : get? d k = none) : keys (set d k v) = keys d ++ [k] := by
  induction d with
  | nil => rfl
  | cons entry rest ih =>
    obtain ⟨j, u⟩ := entry
    by_cases same : j = k
    · simp [get?, same] at fresh
    · simp only [get?, same, if_false] at fresh
      have later := ih fresh
      unfold keys at later ⊢
      simp only [set, same, if_false, List.map_cons, List.cons_append]
      rw [later]

theorem get?_update_cases {entries : List (κ × β)} {v : β}
    (found : get? (update d entries) k = some v) : (k, v) ∈ entries ∨ get? d k = some v := by
  induction entries generalizing d with
  | nil => exact Or.inr found
  | cons entry rest ih =>
    rcases ih found with later | here
    · exact Or.inl (List.mem_cons_of_mem _ later)
    · rw [get?_set] at here
      split at here
      · rename_i same
        cases here
        exact Or.inl (by simp [← same])
      · exact Or.inr here

variable (entries : List (κ × β))

theorem keys_update_nodup (distinct : (keys d).Nodup) : (keys (update d entries)).Nodup := by
  induction entries generalizing d with
  | nil => exact distinct
  | cons entry rest ih => exact ih (keys_set_nodup entry.1 entry.2 distinct)

theorem keys_ofEntries_nodup : (keys (ofEntries entries)).Nodup :=
  keys_update_nodup entries (by simp [keys])

theorem mem_keys_update (d : Dict κ β) (k : κ) :
    k ∈ keys (update d entries) ↔ k ∈ keys d ∨ k ∈ keys entries := by
  induction entries generalizing d with
  | nil => simp [update, keys]
  | cons entry rest ih =>
    have unfolded : update d (entry :: rest) = update (set d entry.1 entry.2) rest := rfl
    rw [unfolded, ih, mem_keys_set]
    simp only [keys, List.map_cons, List.mem_cons]
    tauto

theorem mem_keys_ofEntries (k : κ) : k ∈ keys (ofEntries entries) ↔ k ∈ keys entries := by
  have nothing : k ∉ keys ([] : Dict κ β) := by simp [keys]
  rw [ofEntries, mem_keys_update]
  exact or_iff_right nothing

theorem get?_ofEntries_const (v : β) (inside : k ∈ items) :
    get? (ofEntries (items.map fun item => (item, v))) k = some v := by
  cases found : get? (ofEntries (items.map fun item => (item, v))) k with
  | none =>
    rw [get?_eq_none_iff, mem_keys_ofEntries] at found
    exact absurd (by simpa [keys, Function.comp_def] using inside) found
  | some value =>
    rcases get?_update_cases found with entry | empty
    · simp only [List.mem_map, Prod.mk.injEq] at entry
      obtain ⟨_, _, _, rfl⟩ := entry
      rfl
    · simp at empty

theorem get?_eq_some_of_mem (distinct : (keys d).Nodup) {v : β} (entry : (k, v) ∈ d) :
    get? d k = some v := by
  induction d with
  | nil => simp at entry
  | cons first rest ih =>
    obtain ⟨j, w⟩ := first
    simp only [keys, List.map_cons, List.nodup_cons] at distinct
    rcases List.mem_cons.mp entry with here | later
    · obtain ⟨rfl, rfl⟩ := Prod.mk.inj here
      simp [get?]
    · have different : j ≠ k := by
        rintro rfl
        exact distinct.1 (List.mem_map_of_mem later)
      simpa [get?, different] using ih distinct.2 later

theorem get?_eq_some_iff (distinct : (keys d).Nodup) {v : β} :
    get? d k = some v ↔ (k, v) ∈ d :=
  ⟨mem_of_get?_eq_some, get?_eq_some_of_mem distinct⟩

theorem get?_of_perm {d' : Dict κ β} (same : d.Perm d') (distinct : (keys d).Nodup) (k : κ) :
    get? d' k = get? d k := by
  have distinct' : (keys d').Nodup := (same.map Prod.fst).nodup_iff.mp distinct
  apply Option.ext
  intro v
  rw [get?_eq_some_iff distinct', get?_eq_some_iff distinct, same.mem_iff]

theorem get?_map (f : β → γ) (d : Dict κ β) (k : κ) :
    get? (d.map fun entry => (entry.1, f entry.2)) k = (get? d k).map f := by
  induction d with
  | nil => rfl
  | cons entry rest ih =>
    obtain ⟨j, w⟩ := entry
    by_cases same : j = k
    · simp [get?, same]
    · simpa [get?, same] using ih

theorem get?_erase (d : Dict κ β) (k k' : κ) :
    get? (d.filter (·.1 ≠ k)) k' = if k' = k then none else get? d k' := by
  induction d with
  | nil => simp
  | cons entry rest ih =>
    obtain ⟨first, v⟩ := entry
    by_cases gone : first = k
    · subst gone
      rw [List.filter_cons_of_neg (by simp), ih]
      by_cases same : k' = first
      · simp [same]
      · simp [get?, same, Ne.symm same]
    · rw [List.filter_cons_of_pos (by simpa using gone), get?, get?, ih]
      by_cases here : first = k'
      · subst here
        simp [gone]
      · simp [here]

theorem set_of_not_mem (v : β) (fresh : k ∉ keys d) : set d k v = d ++ [(k, v)] := by
  induction d with
  | nil => rfl
  | cons entry rest ih =>
    obtain ⟨j, w⟩ := entry
    simp only [keys, List.map_cons, List.mem_cons, not_or] at fresh
    simp [set, Ne.symm fresh.1, ih fresh.2]

theorem update_of_nodup {entries : List (κ × β)} (distinct : (keys (d ++ entries)).Nodup) :
    update d entries = d ++ entries := by
  induction entries generalizing d with
  | nil => simp [update]
  | cons entry rest ih =>
    have unfolded : update d (entry :: rest) = update (set d entry.1 entry.2) rest := rfl
    have fresh : entry.1 ∉ keys d := by
      rw [keys, List.map_append] at distinct
      intro old
      exact (List.nodup_append.mp distinct).2.2 _ old entry.1 (by simp) rfl
    rw [unfolded, set_of_not_mem entry.2 fresh, ih (by simpa using distinct)]
    simp

theorem ofEntries_of_nodup {entries : List (κ × β)} (distinct : (keys entries).Nodup) :
    ofEntries entries = entries := by
  rw [ofEntries, update_of_nodup (by simpa using distinct), List.nil_append]

theorem find?_key_eq_some {α : Type} {key : α → κ} {items : List α}
    (distinct : (items.map key).Nodup) (k : κ) (a : α) :
    (items.find? fun b => key b == k) = some a ↔ a ∈ items ∧ key a = k := by
  constructor
  · intro found
    exact ⟨List.mem_of_find?_eq_some found, by simpa using List.find?_some found⟩
  · rintro ⟨inside, named⟩
    cases found : items.find? fun b => key b == k with
    | none =>
      have absent := List.find?_eq_none.mp found a inside
      simp [named] at absent
    | some b =>
      have named' : key b = k := by simpa using List.find?_some found
      rw [List.inj_on_of_nodup_map distinct (List.mem_of_find?_eq_some found) inside
        (named'.trans named.symm)]

theorem perm_cons_filter_key {α : Type} {key : α → κ} {items : List α}
    (distinct : (items.map key).Nodup) {a : α} (inside : a ∈ items) :
    items.Perm (a :: items.filter fun b => key b ≠ key a) := by
  have items_nodup : items.Nodup := distinct.of_map key
  rw [List.perm_ext_iff_of_nodup items_nodup
    (List.nodup_cons.mpr ⟨by simp, items_nodup.filter _⟩)]
  intro b
  by_cases same : key b = key a
  · constructor
    · intro hb
      rw [List.inj_on_of_nodup_map distinct hb inside same]
      exact List.mem_cons_self
    · intro hb
      simp only [List.mem_cons, List.mem_filter, same, ne_eq, not_true_eq_false, decide_false,
        Bool.false_eq_true, and_false, or_false] at hb
      exact hb ▸ inside
  · have differ : b ≠ a := fun h => same (h ▸ rfl)
    simp [same, differ]

theorem firsts_sublist {α : Type} (key : α → κ) (seen : List κ) (items : List α) :
    (firsts key seen items).Sublist items := by
  induction items generalizing seen with
  | nil => exact List.Sublist.refl _
  | cons a rest ih =>
    rw [firsts]
    split
    · exact (ih seen).cons a
    · exact (ih _).cons_cons a

theorem firsts_fresh {α : Type} (key : α → κ) (seen : List κ) (items : List α) :
    ((firsts key seen items).map key).Nodup ∧ ∀ a ∈ firsts key seen items, key a ∉ seen := by
  induction items generalizing seen with
  | nil => simp [firsts]
  | cons a rest ih =>
    rw [firsts]
    split
    · exact ih seen
    · next fresh =>
      obtain ⟨nodup, apart⟩ := ih (key a :: seen)
      simp only [List.mem_cons, not_or] at apart
      constructor
      · rw [List.map_cons, List.nodup_cons]
        refine ⟨fun again => ?_, nodup⟩
        obtain ⟨b, inside, same⟩ := List.mem_map.mp again
        exact (apart b inside).1 same
      · intro b hb
        rcases List.mem_cons.mp hb with rfl | later
        · exact fresh
        · exact (apart b later).2

theorem exists_firsts {α : Type} (key : α → κ) (seen : List κ) {items : List α} {a : α}
    (inside : a ∈ items) (fresh : key a ∉ seen) : ∃ b ∈ firsts key seen items, key b = key a := by
  induction items generalizing seen with
  | nil => cases inside
  | cons c rest ih =>
    rw [firsts]
    split
    · next known =>
      rcases List.mem_cons.mp inside with rfl | later
      · exact absurd known fresh
      · exact ih seen later fresh
    · by_cases same : key c = key a
      · exact ⟨c, List.mem_cons_self, same⟩
      · rcases List.mem_cons.mp inside with rfl | later
        · exact absurd rfl same
        · obtain ⟨b, found, named⟩ := ih (key c :: seen) later (by
            simp only [List.mem_cons, not_or]
            exact ⟨Ne.symm same, fresh⟩)
          exact ⟨b, List.mem_cons_of_mem c found, named⟩

theorem firsts_of_nodup {α : Type} {key : α → κ} {seen : List κ} {items : List α}
    (distinct : (items.map key).Nodup) (apart : ∀ a ∈ items, key a ∉ seen) :
    firsts key seen items = items := by
  induction items generalizing seen with
  | nil => rfl
  | cons a rest ih =>
    rw [List.map_cons, List.nodup_cons] at distinct
    rw [firsts, if_neg (apart a List.mem_cons_self), ih distinct.2]
    intro b hb
    rw [List.mem_cons, not_or]
    refine ⟨fun same => ?_, apart b (List.mem_cons_of_mem a hb)⟩
    exact distinct.1 (same ▸ List.mem_map_of_mem hb)

theorem firsts_congr {α : Type} (key : α → κ) {seen seen' : List κ}
    (same : ∀ k, k ∈ seen ↔ k ∈ seen') (items : List α) :
    firsts key seen items = firsts key seen' items := by
  induction items generalizing seen seen' with
  | nil => rfl
  | cons a rest ih =>
    rw [firsts, firsts]
    by_cases known : key a ∈ seen
    · rw [if_pos known, if_pos ((same _).mp known), ih same]
    · have unknown : key a ∉ seen' := fun h => known ((same _).mpr h)
      rw [if_neg known, if_neg unknown]
      congr 1
      apply ih
      intro k
      rw [List.mem_cons, List.mem_cons, same]

theorem fromkeys_nodup : (fromkeys items).Nodup := by
  have grows : ∀ out : List κ, out.Nodup → (items.foldl
      (fun out item => if item ∈ out then out else out ++ [item]) out).Nodup := by
    induction items with
    | nil => exact fun _ distinct => distinct
    | cons item rest ih =>
      intro out distinct
      rw [List.foldl_cons]
      apply ih
      split
      · exact distinct
      · rename_i fresh
        rw [← List.concat_eq_append]
        exact distinct.concat fresh
  exact grows [] .nil

theorem mem_fromkeys {a : κ} : a ∈ fromkeys items ↔ a ∈ items := by
  have grows : ∀ out : List κ, a ∈ items.foldl
      (fun out item => if item ∈ out then out else out ++ [item]) out ↔ a ∈ out ∨ a ∈ items := by
    induction items with
    | nil => simp
    | cons item rest ih =>
      intro out
      rw [List.foldl_cons, ih]
      by_cases known : item ∈ out
      · rw [if_pos known, List.mem_cons]
        constructor
        · rintro (old | later)
          · exact Or.inl old
          · exact Or.inr (Or.inr later)
        · rintro (old | rfl | later)
          · exact Or.inl old
          · exact Or.inl known
          · exact Or.inr later
      · simp [known, or_assoc]
  rw [fromkeys, grows]
  simp

end PyDict
