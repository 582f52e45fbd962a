import HarnessSdk.Library.Dict

/-! Back-pressure: which queues are raised, with a low mark at which they are cleared again. -/
namespace Backpressure
open PyDict

inductive Dimension
  | runningAttempts
  | pendingDispatch
  | pendingVerifications
deriving DecidableEq

def observedDimensions : List Dimension := [.runningAttempts, .pendingDispatch, .pendingVerifications]

inductive Level
  | normal
  | raised
deriving DecidableEq

/-- The marks of `BackpressureLimits`; the low one is the floor of the other times the ratio. -/
structure Limits where
  high : Dimension → Int
  low : Dimension → Int

section
variable {τ : Type}

structure Observation (τ : Type) where
  value : Dimension → Int
  observedAt : τ

structure Transition where
  dimension : Dimension
  toLevel : Level
  observed : Int
  high : Int
  low : Int

structure Raise (τ : Type) where
  observed : Int
  high : Int
  low : Int
  since : τ

structure BackpressureState (τ : Type) where
  level : Level := .normal
  raised : Dict Dimension (Raise τ) := []
  since : Option τ := none
  observation : Option (Observation τ) := none
  changes : Nat := 0

def look (limits : Limits) (observation : Observation τ)
    (seen : Dict Dimension (Raise τ) × List Transition) (dimension : Dimension) :
    Dict Dimension (Raise τ) × List Transition :=
  let observed := observation.value dimension
  let high := limits.high dimension
  let low := limits.low dimension
  match get? seen.1 dimension with
  | none =>
    if high ≤ observed then
      (set seen.1 dimension ⟨observed, high, low, observation.observedAt⟩,
        seen.2 ++ [⟨dimension, .raised, observed, high, low⟩])
    else seen
  | some raise =>
    if observed ≤ low then
      (seen.1.filter (·.1 ≠ dimension), seen.2 ++ [⟨dimension, .normal, observed, high, low⟩])
    else (set seen.1 dimension { raise with observed }, seen.2)

def evaluate (limits : Limits) (previous : BackpressureState τ) (observation : Observation τ) :
    BackpressureState τ × List Transition :=
  let (raised, transitions) := observedDimensions.foldl (look limits observation) (previous.raised, [])
  let level := if raised = [] then Level.normal else .raised
  ({ level
     raised
     since := if level ≠ previous.level then some observation.observedAt else previous.since
     observation := some observation
     changes := previous.changes + transitions.length }, transitions)

def run (limits : Limits) (observations : List (Observation τ)) : BackpressureState τ :=
  observations.foldl (fun state observation => (evaluate limits state observation).1) {}

def BackpressureState.raises (state : BackpressureState τ) (dimension : Dimension) : Bool :=
  (get? state.raised dimension).isSome

def turned (state next : BackpressureState τ) (dimension : Dimension) : Nat :=
  if state.raises dimension = next.raises dimension then 0 else 1

def turns (limits : Limits) : BackpressureState τ → List (Observation τ) → Nat
  | _, [] => 0
  | state, observation :: rest =>
    let next := (evaluate limits state observation).1
    (observedDimensions.map (turned state next)).sum + turns limits next rest

/-- Some observation reached the high mark and no later one fell to the low mark. -/
def Latched (limits : Limits) (observations : List (Observation τ)) (dimension : Dimension) : Prop :=
  ∃ before reached after, observations = before ++ reached :: after ∧
    limits.high dimension ≤ reached.value dimension ∧
    ∀ later ∈ after, limits.low dimension < later.value dimension

variable {limits : Limits} {observation : Observation τ}

variable (observations : List (Observation τ)) (seen : Dict Dimension (Raise τ) × List Transition)
  (state : BackpressureState τ) (looked dimension : Dimension)

theorem look_raises :
    (get? (look limits observation seen looked).1 dimension).isSome =
      if dimension = looked then
        if (get? seen.1 dimension).isSome then
          decide (limits.low dimension < observation.value dimension)
        else decide (limits.high dimension ≤ observation.value dimension)
      else (get? seen.1 dimension).isSome := by
  unfold look
  dsimp only
  split
  next found =>
    split
    next reached => grind [get?_set]
    next under => grind
  next raise found =>
    split
    next fell =>
      rw [get?_erase]
      grind
    next still => grind [get?_set]

theorem look_transitions :
    (look limits observation seen looked).2.length = seen.2.length +
      if (get? seen.1 looked).isSome = (get? (look limits observation seen looked).1 looked).isSome
      then 0 else 1 := by
  rw [look_raises, if_pos rfl]
  unfold look
  cases found : get? seen.1 looked with
  | none =>
    by_cases reached : limits.high looked ≤ observation.value looked <;> simp [reached]
  | some raise =>
    by_cases fell : observation.value looked ≤ limits.low looked
    · simp [fell]
    · simp [fell, Int.not_le.mp fell]

theorem evaluate_raises :
    (evaluate limits state observation).1.raises dimension =
      if state.raises dimension then
        decide (limits.low dimension < observation.value dimension)
      else decide (limits.high dimension ≤ observation.value dimension) := by
  unfold BackpressureState.raises
  cases dimension <;> simp [evaluate, observedDimensions, look_raises]

theorem evaluate_changes :
    (evaluate limits state observation).1.changes = state.changes +
      (observedDimensions.map (turned state (evaluate limits state observation).1)).sum := by
  simp only [evaluate, observedDimensions, List.foldl, look_transitions, look_raises, turned,
    BackpressureState.raises, List.map, List.sum_cons, List.sum_nil, List.length_nil]
  simp
  omega

theorem evaluate_level :
    (evaluate limits state observation).1.level = .raised ↔
      ∃ dimension, (evaluate limits state observation).1.raises dimension = true := by
  unfold BackpressureState.raises
  simp only [get?_isSome_iff, evaluate]
  generalize observedDimensions.foldl (look limits observation) (state.raised, []) = looked
  obtain ⟨raised, transitions⟩ := looked
  cases raised with
  | nil => simp [keys]
  | cons entry rest => simp [keys]

theorem latched_snoc :
    Latched limits (observations ++ [observation]) dimension ↔
      Latched limits observations dimension ∧ limits.low dimension < observation.value dimension ∨
        limits.high dimension ≤ observation.value dimension := by
  constructor
  · rintro ⟨before, reached, after, split, high, stays⟩
    cases after using List.reverseRecOn with
    | nil =>
      obtain ⟨_, last⟩ := List.append_inj' split rfl
      cases last
      exact Or.inr high
    | append_singleton after last =>
      rw [← List.cons_append, ← List.append_assoc] at split
      obtain ⟨earlier, same⟩ := List.append_inj' split rfl
      cases same
      exact Or.inl ⟨⟨before, reached, after, earlier, high, fun later inside =>
        stays later (List.mem_append_left _ inside)⟩, stays _ (by simp)⟩
  · rintro (⟨⟨before, reached, after, split, high, stays⟩, above⟩ | high)
    · refine ⟨before, reached, after ++ [observation], by simp [split], high, ?_⟩
      intro later inside
      rcases mem_snoc.mp inside with inside | rfl
      · exact stays later inside
      · assumption
    · exact ⟨observations, observation, [], rfl, high, nofun⟩

theorem run_snoc :
    run limits (observations ++ [observation]) =
      (evaluate limits (run limits observations) observation).1 := by
  simp [run]

theorem turns_changes :
    (observations.foldl (fun state observation => (evaluate limits state observation).1) state).changes =
      state.changes + turns limits state observations := by
  induction observations generalizing state with
  | nil => rfl
  | cons observation rest ih =>
    rw [List.foldl_cons, ih, evaluate_changes, turns]
    omega

/-- After any run a dimension is raised when it has latched, the level tells whether one is, and
each turn of a dimension is counted. -/
theorem run_latches (limits : Limits)
    (apart : ∀ dimension, limits.low dimension < limits.high dimension)
    (observations : List (Observation τ)) :
    (∀ dimension, (run limits observations).raises dimension = true ↔
      Latched limits observations dimension) ∧
    ((run limits observations).level = .raised ↔
      ∃ dimension, (run limits observations).raises dimension = true) ∧
    (run limits observations).changes = turns limits {} observations := by
  refine ⟨?_, ?_, ?_⟩
  · intro dimension
    induction observations using List.reverseRecOn with
    | nil => simp [run, BackpressureState.raises, Latched]
    | append_singleton observations observation ih =>
      have above := apart dimension
      rw [run_snoc, evaluate_raises, latched_snoc, ← ih]
      by_cases raised : (run limits observations).raises dimension = true
      · rw [if_pos raised, decide_eq_true_eq]
        constructor
        · exact fun above => Or.inl ⟨raised, above⟩
        · rintro (⟨_, above⟩ | high)
          · exact above
          · omega
      · simp [raised]
  · cases observations using List.reverseRecOn with
    | nil => simp [run, BackpressureState.raises]
    | append_singleton observations observation =>
      rw [run_snoc]
      exact evaluate_level _
  · exact (turns_changes observations {}).trans (Nat.zero_add _)

def levelTurns (limits : Limits) : BackpressureState τ → List (Observation τ) → Nat
  | _, [] => 0
  | state, observation :: rest =>
    let next := (evaluate limits state observation).1
    (if state.level = next.level then 0 else 1) + levelTurns limits next rest

end

/-- Two queues that fill at once are two changes under one turn of the level. -/
theorem changes_exceed_level_turns :
    let limits : Limits := ⟨fun _ => 8, fun _ => 4⟩
    let observations : List (Observation Nat) := [⟨fun _ => 8, 0⟩]
    (∀ dimension, limits.low dimension < limits.high dimension) ∧
      (run limits observations).changes = 3 ∧ levelTurns limits {} observations = 1 := by
  exact ⟨fun _ => show (4 : Int) < 8 by decide, by decide, by decide⟩

theorem run_latches_between :
    let limits : Limits := ⟨fun _ => 8, fun _ => 4⟩
    let observations : List (Observation Nat) := [⟨fun _ => 8, 0⟩, ⟨fun _ => 5, 1⟩]
    (run limits observations).raises .pendingDispatch = true ∧
      Latched limits observations .pendingDispatch := by
  have latches := (run_latches ⟨fun _ => 8, fun _ => 4⟩ (fun _ => show (4 : Int) < 8 by decide)
    [⟨fun _ => 8, 0⟩, ⟨fun _ => 5, (1 : Nat)⟩]).1 .pendingDispatch
  have raised : (run ⟨fun _ => 8, fun _ => 4⟩ [⟨fun _ => 8, 0⟩, ⟨fun _ => 5, (1 : Nat)⟩]).raises
      .pendingDispatch = true := by decide
  exact ⟨raised, latches.mp raised⟩

end Backpressure
