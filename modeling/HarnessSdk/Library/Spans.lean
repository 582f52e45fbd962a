import Mathlib

/-! Closed ranges of numbers and the joining of those that touch; runs of equal keys in a list. -/
namespace Spans

abbrev Span := Nat × Nat

def Covers (spans : List Span) (n : Nat) : Prop := ∃ s ∈ spans, s.1 ≤ n ∧ n ≤ s.2

instance (spans : List Span) (n : Nat) : Decidable (Covers spans n) :=
  inferInstanceAs (Decidable (∃ s ∈ spans, s.1 ≤ n ∧ n ≤ s.2))

def mergeFrom (current : Span) : List Span → List Span
  | [] => [current]
  | s :: rest =>
    if s.1 ≤ current.2 + 1 then mergeFrom (current.1, max current.2 s.2) rest
    else current :: mergeFrom s rest

/-- Join each span to the one before it when no number lies between them. -/
def merge : List Span → List Span
  | [] => []
  | s :: rest => mergeFrom s rest

@[simp] theorem covers_cons (s : Span) (rest : List Span) (n : Nat) :
    Covers (s :: rest) n ↔ (s.1 ≤ n ∧ n ≤ s.2) ∨ Covers rest n := by
  simp [Covers]

theorem covers_mergeFrom {rest : List Span} {current : Span}
    (ordered : (current :: rest).Pairwise fun s t => s.1 ≤ t.1) (n : Nat) :
    Covers (mergeFrom current rest) n ↔ Covers (current :: rest) n := by
  induction rest generalizing current with
  | nil => rfl
  | cons s rest ih =>
    obtain ⟨below, later⟩ := List.pairwise_cons.mp ordered
    have first : current.1 ≤ s.1 := below s List.mem_cons_self
    unfold mergeFrom
    split
    next touching =>
      have joined : ((current.1, max current.2 s.2) :: rest).Pairwise fun s t => s.1 ≤ t.1 :=
        List.pairwise_cons.mpr
          ⟨fun t inside => below t (List.mem_cons_of_mem s inside), (List.pairwise_cons.mp later).2⟩
      rw [ih joined]
      simp only [covers_cons]
      have union : (current.1 ≤ n ∧ n ≤ max current.2 s.2) ↔
          (current.1 ≤ n ∧ n ≤ current.2) ∨ (s.1 ≤ n ∧ n ≤ s.2) := by
        omega
      rw [union, or_assoc]
    next apart =>
      rw [covers_cons, ih later, covers_cons, covers_cons, covers_cons]

theorem covers_merge {spans : List Span} (ordered : spans.Pairwise fun s t => s.1 ≤ t.1)
    (n : Nat) : Covers (merge spans) n ↔ Covers spans n := by
  cases spans with
  | nil => rfl
  | cons s rest => exact covers_mergeFrom ordered n

section
variable {α κ : Type} [DecidableEq κ] (key : α → κ)

def runs (items : List α) : List (List α) := items.splitBy fun a b => key a = key b

theorem flatten_runs (items : List α) : (runs key items).flatten = items :=
  List.flatten_splitBy _ items

variable {key}

variable {items m : List α}

theorem run_ne_nil (found : m ∈ runs key items) : m ≠ [] :=
  List.ne_nil_of_mem_splitBy found

theorem key_eq_of_chain {a : α} {rest : List α}
    (linked : (a :: rest).IsChain fun x y => decide (key x = key y) = true) :
    ∀ b ∈ rest, key a = key b := by
  induction rest generalizing a with
  | nil => simp
  | cons c rest ih =>
    intro b inside
    have step : key a = key c := by simpa using linked.rel
    rcases List.mem_cons.mp inside with rfl | later
    · exact step
    · exact step.trans (ih linked.tail b later)

theorem key_of_run (found : m ∈ runs key items) {a b : α} (ha : a ∈ m) (hb : b ∈ m) :
    key a = key b := by
  have linked := List.isChain_of_mem_splitBy found
  cases m with
  | nil => simp at ha
  | cons c rest =>
    have same := @key_eq_of_chain _ _ _ key _ _ linked
    have toHead : ∀ x ∈ c :: rest, key x = key c := by
      intro x inside
      rcases List.mem_cons.mp inside with rfl | later
      · rfl
      · exact (same x later).symm
    exact (toHead a ha).trans (toHead b hb).symm

/-- No other key stands between two items with this one. -/
def Convex (key : α → κ) (items : List α) (k : κ) : Prop :=
  ∀ x y z, [x, y, z].Sublist items → key x = k → key z = k → key y = k

theorem sublist_of_blocks {x y z : α} {front back : List (List α)} {p : List α} (hx : x ∈ m)
    (hz : z ∈ back.flatten) : [x, y, z].Sublist (front ++ m :: (y :: p) :: back).flatten := by
  have one : [x].Sublist m := List.singleton_sublist.mpr hx
  have two : [y, z].Sublist ((y :: p) ++ back.flatten) :=
    (List.cons_sublist_cons.mpr (List.nil_sublist p)).append (List.singleton_sublist.mpr hz)
  have both : ([x] ++ [y, z]).Sublist (m ++ ((y :: p) ++ back.flatten)) := one.append two
  simp only [List.flatten_append, List.flatten_cons]
  exact both.trans (List.sublist_append_right _ _)

theorem key_ne_after {front back : List (List α)} {k : κ}
    (split : runs key items = front ++ m :: back) (convex : Convex key items k) {x z : α}
    (hx : x ∈ m) (own : key x = k) (hz : z ∈ back.flatten) : key z ≠ k := by
  intro again
  cases back with
  | nil => simp at hz
  | cons p back =>
    have linked := List.isChain_getLast_head_splitBy (fun a b => decide (key a = key b)) items
    change (runs key items).IsChain _ at linked
    rw [split] at linked
    have inside : m ∈ runs key items := split ▸ by simp
    have next : p ∈ runs key items := split ▸ by simp
    obtain ⟨hm, hp, different⟩ := (List.isChain_append.mp linked).2.1.rel
    have lastKey : key (m.getLast hm) = k :=
      (key_of_run inside (List.getLast_mem hm) hx).trans own
    have headKey : key (p.head hp) ≠ k := by
      intro same
      simp [lastKey, same] at different
    apply headKey
    cases p with
    | nil => exact absurd rfl hp
    | cons y rest =>
      simp only [List.flatten_cons, List.mem_append] at hz
      rcases hz with here | later
      · exact (key_of_run next List.mem_cons_self here).trans again
      · have order : [x, y, z].Sublist items := by
          rw [← flatten_runs key items, split]
          exact sublist_of_blocks hx later
        exact convex x y z order own again

/-- Items whose key is convex in the list stand in one run. -/
theorem mem_run_of_key {k : κ} (found : m ∈ runs key items) (convex : Convex key items k)
    {x z : α} (hx : x ∈ m) (own : key x = k) (hz : z ∈ items) (same : key z = k) : z ∈ m := by
  obtain ⟨front, back, split⟩ := List.append_of_mem found
  rw [← flatten_runs key items, split] at hz
  simp only [List.flatten_append, List.flatten_cons, List.mem_append] at hz
  rcases hz with before | here | after
  · obtain ⟨p, hp, inside⟩ := List.mem_flatten.mp before
    obtain ⟨far, near, cut⟩ := List.append_of_mem hp
    have split' : runs key items = far ++ p :: (near ++ m :: back) := by
      rw [split, cut, List.append_assoc, List.cons_append]
    have later : x ∈ (near ++ m :: back).flatten :=
      List.mem_flatten.mpr ⟨m, by simp, hx⟩
    exact absurd own (key_ne_after split' convex inside same later)
  · exact here
  · exact absurd same (key_ne_after split convex hx own after)

end

end Spans
