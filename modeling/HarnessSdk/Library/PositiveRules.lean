import Mathlib

/-! Positive rules over any atoms: the least closed set, derivations and their heights, and what
synchronous rounds of firing compute. -/
namespace PositiveRules
variable {α ρ : Type}

structure Program (α ρ : Type) where
  seed : α → Prop
  enabled : ρ → Prop
  head : ρ → α
  body : ρ → List α

def top (heights : List Nat) : Nat := heights.foldr max 0

variable {heights : List Nat} {n : Nat}

theorem le_top (inside : n ∈ heights) : n ≤ top heights := by
  induction heights with
  | nil => cases inside
  | cons m rest ih =>
    rw [top, List.foldr_cons]
    rcases List.mem_cons.mp inside with rfl | later
    · exact le_max_left _ _
    · exact le_trans (ih later) (le_max_right _ _)

theorem top_le {k : Nat} (bound : ∀ n ∈ heights, n ≤ k) : top heights ≤ k := by
  induction heights with
  | nil => exact Nat.zero_le k
  | cons m rest ih =>
    rw [top, List.foldr_cons]
    exact max_le (bound m List.mem_cons_self) (ih fun n hn => bound n (List.mem_cons_of_mem m hn))

theorem top_map_le {items : List α} {f g : α → Nat} (le : ∀ a ∈ items, f a ≤ g a) :
    top (items.map f) ≤ top (items.map g) := by
  apply top_le
  intro n hn
  obtain ⟨a, inside, rfl⟩ := List.mem_map.mp hn
  exact le_trans (le a inside) (le_top (List.mem_map_of_mem inside))

section
variable (P : Program α ρ)

def BodyHolds (S : α → Prop) (r : ρ) : Prop := P.enabled r ∧ ∀ a ∈ P.body r, S a

structure Closed (S : α → Prop) : Prop where
  seeds : ∀ a, P.seed a → S a
  rules : ∀ r, BodyHolds P S r → S (P.head r)

structure LeastClosed (S : α → Prop) : Prop where
  closed : Closed P S
  least : ∀ T, Closed P T → ∀ a, S a → T a

/-- Derivation trees, by their height: a seed is a leaf. -/
inductive Derives : α → Nat → Prop
  | seed {a : α} (given : P.seed a) : Derives a 0
  | rule {r : ρ} (height : α → Nat) (enabled : P.enabled r)
      (body : ∀ a ∈ P.body r, Derives a (height a)) :
      Derives (P.head r) (top ((P.body r).map height) + 1)

def Through (r : ρ) (n : Nat) : Prop :=
  P.enabled r ∧ ∃ height : α → Nat, (∀ a ∈ P.body r, Derives P a (height a)) ∧
    n = top ((P.body r).map height) + 1

def Derivable (a : α) : Prop := ∃ n, Derives P a n

end

variable {P : Program α ρ}

theorem Through.derives {r : ρ} (through : Through P r n) : Derives P (P.head r) n := by
  obtain ⟨enabled, height, body, rfl⟩ := through
  exact .rule height enabled body

theorem derives_cases {a : α} (derives : Derives P a n) :
    (P.seed a ∧ n = 0) ∨ ∃ r, P.head r = a ∧ Through P r n := by
  cases derives with
  | seed given => exact Or.inl ⟨given, rfl⟩
  | @rule r height enabled body => exact Or.inr ⟨r, rfl, enabled, height, body, rfl⟩

theorem isLeast_through {r : ρ} {least : α → Nat} (enabled : P.enabled r)
    (body : ∀ a ∈ P.body r, IsLeast {n | Derives P a n} (least a)) :
    IsLeast {n | Through P r n} (top ((P.body r).map least) + 1) := by
  constructor
  · exact ⟨enabled, least, fun a ha => (body a ha).1, rfl⟩
  · rintro n ⟨_, height, derived, rfl⟩
    have le := top_map_le fun a ha => (body a ha).2 (derived a ha)
    omega

theorem derivable_leastClosed : LeastClosed P (Derivable P) := by
  constructor
  · constructor
    · intro a given
      exact ⟨0, .seed given⟩
    · rintro r ⟨enabled, body⟩
      choose! height derived using body
      exact ⟨_, .rule height enabled derived⟩
  · rintro T closed a ⟨n, derives⟩
    induction derives with
    | seed given => exact closed.seeds _ given
    | rule height enabled body ih => exact closed.rules _ ⟨enabled, ih⟩

theorem Derives.mono {Q : Program α ρ} (head : Q.head = P.head) (body : Q.body = P.body)
    (seeds : ∀ a, P.seed a → Q.seed a) (rules : ∀ r, P.enabled r → Q.enabled r) {a : α}
    (derives : Derives P a n) : Derives Q a n := by
  induction derives with
  | seed given => exact .seed (seeds _ given)
  | rule height enabled _ ih =>
    rw [← head]
    rw [← body] at ih ⊢
    exact .rule height (rules _ enabled) ih

variable {S : α → Prop}

theorem LeastClosed.iff_derivable (least : LeastClosed P S) (a : α) : S a ↔ Derivable P a := by
  constructor
  · exact least.least _ derivable_leastClosed.closed a
  · exact derivable_leastClosed.least _ least.closed a

/-- Atoms that are not seeds and that rules only reach through one another are not reached. -/
theorem LeastClosed.not_of_cycle (least : LeastClosed P S) {C : α → Prop}
    (unseeded : ∀ a, C a → ¬ P.seed a)
    (circular : ∀ r, P.enabled r → C (P.head r) → ∃ a ∈ P.body r, C a) {a : α} (inside : C a) :
    ¬ S a := by
  have without : Closed P fun b => S b ∧ ¬ C b := by
    constructor
    · intro b given
      exact ⟨least.closed.seeds b given, fun again => unseeded b again given⟩
    · rintro r ⟨enabled, body⟩
      refine ⟨least.closed.rules r ⟨enabled, fun b hb => (body b hb).1⟩, fun again => ?_⟩
      obtain ⟨b, hb, cb⟩ := circular r enabled again
      exact (body b hb).2 cb
  intro reached
  exact (least.least _ without a reached).2 inside

/-- The state after `k` synchronous rounds: the recorded heights are heights of derivations, and
every derivation of height at most `k` is matched by a recorded one no higher. -/
structure AfterRounds (P : Program α ρ) (k : Nat) (heights : α → List Nat) : Prop where
  sound : ∀ a, ∀ n ∈ heights a, Derives P a n ∧ n ≤ k
  complete : ∀ a n, Derives P a n → n ≤ k → ∃ m ∈ heights a, m ≤ n

section
variable {k : Nat} {heights : α → List Nat} (rounds : AfterRounds P k heights)
include rounds

theorem AfterRounds.least {a : α} {n : Nat} (inside : n ∈ heights a)
    (smallest : ∀ m ∈ heights a, n ≤ m) : IsLeast {n | Derives P a n} n := by
  constructor
  · exact (rounds.sound a n inside).1
  · intro m derives
    by_cases early : m ≤ k
    · obtain ⟨l, recorded, le⟩ := rounds.complete a m derives early
      exact le_trans (smallest l recorded) le
    · have := (rounds.sound a n inside).2
      omega

theorem AfterRounds.through_iff {r : ρ} :
    (∃ n ≤ k + 1, Through P r n) ↔ BodyHolds P (fun a => heights a ≠ []) r := by
  constructor
  · rintro ⟨n, le, enabled, height, body, rfl⟩
    refine ⟨enabled, fun a ha => ?_⟩
    have below := le_top (List.mem_map_of_mem (f := height) ha)
    obtain ⟨m, recorded, _⟩ := rounds.complete a _ (body a ha) (by omega)
    exact List.ne_nil_of_mem recorded
  · rintro ⟨enabled, body⟩
    have each : ∀ a ∈ P.body r, ∃ n, Derives P a n ∧ n ≤ k := by
      intro a ha
      obtain ⟨n, recorded⟩ := List.exists_mem_of_ne_nil _ (body a ha)
      exact ⟨n, rounds.sound a n recorded⟩
    choose! height derived using each
    refine ⟨_, ?_, enabled, height, fun a ha => (derived a ha).1, rfl⟩
    have bound : top ((P.body r).map height) ≤ k := by
      apply top_le
      intro n hn
      obtain ⟨a, ha, rfl⟩ := List.mem_map.mp hn
      exact (derived a ha).2
    omega

/-- One more round: the rules whose body just came to hold fire, at height `k + 1`. -/
theorem AfterRounds.step {fires : ρ → Prop} {heights' : α → List Nat}
    (fresh : ∀ r, fires r ↔ BodyHolds P (fun a => heights a ≠ []) r ∧ ¬ ∃ n ≤ k, Through P r n)
    (grown : ∀ a n, n ∈ heights' a ↔ n ∈ heights a ∨ n = k + 1 ∧ ∃ r, fires r ∧ P.head r = a) :
    AfterRounds P (k + 1) heights' := by
  constructor
  · intro a n recorded
    rcases (grown a n).mp recorded with old | ⟨rfl, r, fired, rfl⟩
    · have := rounds.sound a n old
      exact ⟨this.1, by omega⟩
    · obtain ⟨holds, unfired⟩ := (fresh r).mp fired
      obtain ⟨n, le, through⟩ := rounds.through_iff.mpr holds
      have exact : n = k + 1 := by
        by_contra differ
        exact unfired ⟨n, by omega, through⟩
      subst exact
      exact ⟨through.derives, le_rfl⟩
  · intro a n derives le
    by_cases early : n ≤ k
    · obtain ⟨m, recorded, below⟩ := rounds.complete a n derives early
      exact ⟨m, (grown a m).mpr (Or.inl recorded), below⟩
    · rcases derives_cases derives with ⟨_, zero⟩ | ⟨r, rfl, through⟩
      · omega
      · by_cases done : ∃ m ≤ k, Through P r m
        · obtain ⟨m, small, other⟩ := done
          obtain ⟨l, recorded, below⟩ := rounds.complete _ m other.derives small
          exact ⟨l, (grown _ l).mpr (Or.inl recorded), by omega⟩
        · have holds := rounds.through_iff.mp ⟨n, le, through⟩
          have fired := (fresh r).mpr ⟨holds, done⟩
          exact ⟨k + 1, (grown _ _).mpr (Or.inr ⟨rfl, r, fired, rfl⟩), by omega⟩

theorem AfterRounds.leastClosed
    (still : ∀ r, BodyHolds P (fun a => heights a ≠ []) r → ∃ n ≤ k, Through P r n) :
    LeastClosed P fun a => heights a ≠ [] := by
  constructor
  · constructor
    · intro a given
      obtain ⟨m, recorded, _⟩ := rounds.complete a 0 (.seed given) (Nat.zero_le k)
      exact List.ne_nil_of_mem recorded
    · intro r holds
      obtain ⟨n, le, through⟩ := still r holds
      obtain ⟨m, recorded, _⟩ := rounds.complete _ n through.derives le
      exact List.ne_nil_of_mem recorded
  · intro T closed a reached
    obtain ⟨n, recorded⟩ := List.exists_mem_of_ne_nil _ reached
    exact derivable_leastClosed.least T closed a ⟨n, (rounds.sound a n recorded).1⟩

end

theorem AfterRounds.start {heights : α → List Nat}
    (seeds : ∀ a n, n ∈ heights a ↔ P.seed a ∧ n = 0) : AfterRounds P 0 heights := by
  constructor
  · intro a n recorded
    obtain ⟨given, rfl⟩ := (seeds a n).mp recorded
    exact ⟨.seed given, le_rfl⟩
  · intro a n derives le
    rcases derives_cases derives with ⟨given, rfl⟩ | ⟨r, _, _, _, _, rfl⟩
    · exact ⟨0, (seeds a 0).mpr ⟨given, rfl⟩, le_rfl⟩
    · omega

end PositiveRules
