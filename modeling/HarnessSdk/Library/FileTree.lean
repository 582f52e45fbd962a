import HarnessSdk.Library.Dict

/-! A tree of files, named by the paths that lead to them; a directory is what stands above one. -/
namespace FileTree
open PyDict

variable {κ β : Type}

def Above (p q : List κ) : Prop := p <+: q ∧ p ≠ q

def Free (paths : List (List κ)) : Prop :=
  ∀ p ∈ paths, p ≠ [] ∧ ∀ q ∈ paths, ¬ Above p q

theorem Free.of_subset {paths more : List (List κ)} (free : Free more) (inside : paths ⊆ more) :
    Free paths :=
  fun p here => ⟨(free p (inside here)).1, fun q there => (free p (inside here)).2 q (inside there)⟩

theorem free_concat {paths : List (List κ)} {path : List κ} (free : Free paths) :
    Free (paths ++ [path]) ↔
      path ≠ [] ∧ ∀ file ∈ paths, ¬ Above file path ∧ ¬ Above path file := by
  constructor
  · intro together
    have last : path ∈ paths ++ [path] := by simp
    exact ⟨(together path last).1, fun file inside =>
      ⟨(together file (List.mem_append_left _ inside)).2 path last,
        (together path last).2 file (List.mem_append_left _ inside)⟩⟩
  · rintro ⟨named, apart⟩ p inside
    simp only [List.mem_append, List.mem_singleton] at inside ⊢
    rcases inside with old | rfl
    · refine ⟨(free p old).1, ?_⟩
      rintro q (there | rfl)
      · exact (free p old).2 q there
      · exact (apart p old).1
    · refine ⟨named, ?_⟩
      rintro q (there | rfl)
      · exact (apart q there).2
      · exact fun above => above.2 rfl

variable [DecidableEq κ]

instance (p q : List κ) : Decidable (Above p q) := inferInstanceAs (Decidable (p <+: q ∧ p ≠ q))

abbrev Tree (κ β : Type) := Dict (List κ) β

/-- Why a file cannot be written: its place is a directory, or a file stands on its way. -/
inductive Obstacle (κ : Type)
  | directory (path : List κ)
  | file (path : List κ)

def write (tree : Tree κ β) (path : List κ) (data : β) : Except (Obstacle κ) (Tree κ β) :=
  match (keys tree).find? (Above · path) with
  | some file => .error (.file file)
  | none =>
    if path = [] ∨ ∃ file ∈ keys tree, Above path file then .error (.directory path)
    else .ok (set tree path data)

def writeAll (tree : Tree κ β) : List (List κ × β) → Except (Obstacle κ) (Tree κ β)
  | [] => .ok tree
  | (path, data) :: rest => do
    let tree ← write tree path data
    writeAll tree rest

theorem write_eq_ok {tree tree' : Tree κ β} {path : List κ} {data : β} :
    write tree path data = .ok tree' ↔
      (path ≠ [] ∧ ∀ file ∈ keys tree, ¬ Above file path ∧ ¬ Above path file) ∧
        set tree path data = tree' := by
  unfold write
  cases found : (keys tree).find? (Above · path) with
  | some file =>
    have above := List.find?_some found
    have inside := List.mem_of_find?_eq_some found
    rw [decide_eq_true_eq] at above
    simp only [reduceCtorEq, false_iff]
    rintro ⟨⟨_, free⟩, _⟩
    exact (free file inside).1 above
  | none =>
    have clear := List.find?_eq_none.mp found
    simp only [decide_eq_true_eq] at clear
    by_cases blocked : path = [] ∨ ∃ file ∈ keys tree, Above path file
    · rw [if_pos blocked]
      simp only [reduceCtorEq, false_iff]
      rintro ⟨⟨named, free⟩, _⟩
      rcases blocked with empty | ⟨file, inside, above⟩
      · exact named empty
      · exact (free file inside).2 above
    · rw [if_neg blocked, Except.ok.injEq, and_iff_right]
      rw [not_or, not_exists] at blocked
      exact ⟨blocked.1, fun file inside =>
        ⟨clear file inside, fun above => blocked.2 file ⟨inside, above⟩⟩⟩

theorem free_set {tree : Tree κ β} {path : List κ} {data : β} {rest : List (List κ)} :
    Free (keys (set tree path data) ++ rest) ↔ Free (keys tree ++ path :: rest) := by
  have same : ∀ p, p ∈ keys (set tree path data) ++ rest ↔ p ∈ keys tree ++ path :: rest := by
    intro p
    simp only [List.mem_append, mem_keys_set, List.mem_cons, or_assoc, or_left_comm]
  simp only [Free, same]

theorem writeAll_eq_ok {tree tree' : Tree κ β} {entries : List (List κ × β)}
    (free : Free (keys tree)) : writeAll tree entries = .ok tree' ↔
      Free (keys tree ++ entries.map (·.1)) ∧ update tree entries = tree' := by
  induction entries generalizing tree with
  | nil =>
    simp only [writeAll, List.map_nil, List.append_nil, update, List.foldl_nil, Except.ok.injEq]
    exact (and_iff_right free).symm
  | cons entry rest ih =>
    obtain ⟨path, data⟩ := entry
    rw [writeAll]
    cases first : write tree path data with
    | ok next =>
      obtain ⟨⟨named, apart⟩, rfl⟩ := write_eq_ok.mp first
      have kept := (@free_set _ _ _ tree path data []).mpr ((free_concat free).mpr ⟨named, apart⟩)
      rw [List.append_nil] at kept
      simp only [bind, Except.bind]
      rw [ih kept, free_set]
      rfl
    | error obstacle =>
      simp only [bind, Except.bind, reduceCtorEq, false_iff]
      rintro ⟨together, _⟩
      have inside : keys tree ++ [path] ⊆ keys tree ++ ((path, data) :: rest).map (·.1) := by
        simp
      have alone := (free_concat free).mp (together.of_subset inside)
      rw [write_eq_ok.mpr ⟨alone, rfl⟩] at first
      cases first

end FileTree
