import Mathlib

/-! The first items of a stable sort, kept while more items come in. -/
namespace Leaders
variable {α κ : Type} [LinearOrder κ] (key : α → κ) (k : Nat)

def leaders (items : List α) : List α :=
  (items.insertionSort fun a b => key a ≤ key b).take k

def upTo (a b : α) : Bool := key a ≤ key b

variable (a : α) (xs ys : List α)

theorem insert_merge :
    (xs.merge ys (upTo key)).orderedInsert (fun a b => key a ≤ key b) a =
      (xs.orderedInsert (fun a b => key a ≤ key b) a).merge ys (upTo key) := by
  induction xs generalizing ys with
  | nil =>
    induction ys with
    | nil => simp
    | cons y ys ih =>
      by_cases first : key a ≤ key y
      · simp [upTo, first]
      · simpa [upTo, first] using ih
  | cons x xs left =>
    induction ys with
    | nil => simp
    | cons y ys right =>
      by_cases first : key a ≤ key x <;> by_cases before : key x ≤ key y
      · simp [upTo, before, first, first.trans before]
      · by_cases least : key a ≤ key y
        · simp [upTo, before, first, least]
        · simpa [upTo, before, first, least] using right
      · simpa [upTo, before, first] using left (y :: ys)
      · have last : ¬ key a ≤ key y := fun le => first (le.trans (not_le.mp before).le)
        simpa [upTo, before, first, last] using right

theorem sort_append :
    ((xs ++ ys).insertionSort fun a b => key a ≤ key b) =
      (xs.insertionSort fun a b => key a ≤ key b).merge
        (ys.insertionSort fun a b => key a ≤ key b) (upTo key) := by
  induction xs with
  | nil => simp
  | cons x xs ih =>
    rw [List.cons_append, List.insertionSort_cons, ih, insert_merge, List.insertionSort_cons]

theorem take_merge {le : α → α → Bool} :
    (xs.merge ys le).take k = ((xs.take k).merge ys le).take k := by
  induction k generalizing xs ys with
  | zero => simp
  | succ k ih =>
    cases xs with
    | nil => simp
    | cons x xs =>
      cases ys with
      | nil => simp [List.take_take]
      | cons y ys =>
        have same : (x :: xs.take k).take k = (x :: xs).take k := by
          rw [← List.take_succ_cons, List.take_take, min_eq_left (Nat.le_succ k)]
        rw [List.take_succ_cons, List.cons_merge_cons, List.cons_merge_cons]
        split
        · rw [List.take_succ_cons, List.take_succ_cons, ih]
        · rw [List.take_succ_cons, List.take_succ_cons, ih, ih (x :: xs.take k), same]

theorem leaders_append : leaders key k (leaders key k xs ++ ys) = leaders key k (xs ++ ys) := by
  have sorted := (List.pairwise_insertionSort (fun a b => key a ≤ key b) xs).sublist
    (List.take_sublist k _)
  rw [leaders, sort_append, leaders, sorted.insertionSort_eq, ← take_merge, leaders, sort_append]

end Leaders
