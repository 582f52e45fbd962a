import Mathlib

/-! Validators: sequences of checks that stop at the first refusal. -/
namespace Checks
variable {ε α β κ : Type}

def require (p : Prop) [Decidable p] (refusal : ε) : Except ε Unit :=
  if p then .ok () else .error refusal

def every (check : α → Except ε Unit) : List α → Except ε Unit
  | [] => .ok ()
  | a :: rest => do
    check a
    every check rest

/-- No two entries share a key, and no key is among those already seen. -/
def distinct [DecidableEq κ] (key : α → κ) (refusal : α → ε) : List κ → List α → Except ε Unit
  | _, [] => .ok ()
  | seen, a :: rest => do
    require (key a ∉ seen) (refusal a)
    distinct key refusal (key a :: seen) rest

@[simp] theorem require_eq_ok (p : Prop) [Decidable p] (refusal : ε) :
    require p refusal = .ok () ↔ p := by
  unfold require
  by_cases h : p <;> simp [h]

variable {x : Except ε α} {f : α → Except ε β} {b : β} {R : α → β → Prop}

theorem bind_eq_ok : (x >>= f) = .ok b ↔ ∃ a, x = .ok a ∧ f a = .ok b := by
  cases x <;> simp [bind, Except.bind]

theorem ok_bind (a : α) : (Except.ok a >>= f) = f a := rfl

theorem then_eq_ok {x : Except ε Unit} {y : Except ε β} :
    (do x; y) = .ok b ↔ x = .ok () ∧ y = .ok b := by
  rw [bind_eq_ok]
  constructor
  · rintro ⟨_, hx, hy⟩
    exact ⟨hx, hy⟩
  · rintro ⟨hx, hy⟩
    exact ⟨(), hx, hy⟩

theorem require_eq_error {p : Prop} [Decidable p] {refusal e : ε} :
    require p refusal = .error e ↔ ¬ p ∧ refusal = e := by
  unfold require
  by_cases h : p <;> simp [h]

theorem bind_eq_error {e : ε} :
    (x >>= f) = .error e ↔ x = .error e ∨ ∃ a, x = .ok a ∧ f a = .error e := by
  cases x <;> simp [bind, Except.bind]

theorem map_eq_ok {f : α → β} : x.map f = .ok b ↔ ∃ a, x = .ok a ∧ f a = b := by
  cases x <;> simp [Except.map]

theorem toOption_map_eq_some {f : α → β} :
    x.toOption.map f = some b ↔ ∃ a, x = .ok a ∧ f a = b := by
  cases x <;> simp [Except.toOption]

theorem toOption_any_eq_true {p : α → Bool} :
    x.toOption.any p = true ↔ ∃ a, x = .ok a ∧ p a = true := by
  cases x <;> simp [Except.toOption]

@[simp] theorem mapError_eq_ok {δ : Type} {f : ε → δ} {a : α} :
    x.mapError f = .ok a ↔ x = .ok a := by
  cases x <;> simp [Except.mapError]

@[simp] theorem every_eq_ok (check : α → Except ε Unit) (items : List α) :
    every check items = .ok () ↔ ∀ a ∈ items, check a = .ok () := by
  induction items with
  | nil => simp [every]
  | cons a rest ih => rw [every, then_eq_ok, ih, List.forall_mem_cons]

theorem distinct_eq_ok [DecidableEq κ] (key : α → κ) (refusal : α → ε) (seen : List κ)
    (items : List α) :
    distinct key refusal seen items = .ok () ↔
      (items.map key).Nodup ∧ ∀ a ∈ items, key a ∉ seen := by
  induction items generalizing seen with
  | nil => simp [distinct]
  | cons a rest ih =>
    rw [distinct, then_eq_ok, ih, require_eq_ok]
    simp only [List.map_cons, List.nodup_cons, List.mem_map, List.mem_cons, not_or,
      forall_eq_or_imp]
    constructor
    · rintro ⟨fresh, nodup, apart⟩
      refine ⟨⟨?_, nodup⟩, fresh, fun b hb => (apart b hb).2⟩
      rintro ⟨b, hb, same⟩
      exact (apart b hb).1 same
    · rintro ⟨⟨absent, nodup⟩, fresh, apart⟩
      exact ⟨fresh, nodup, fun b hb => ⟨fun same => absent ⟨b, hb, same⟩, apart b hb⟩⟩

theorem mapM_collects {f : α → Option (List β)} {holds : α → β → Prop} (items : List α)
    (rounds : ∀ a ∈ items, ∃ out, f a = some out ∧ ∀ b, b ∈ out ↔ holds a b) :
    ∃ outs, items.mapM f = some outs ∧ ∀ b, b ∈ outs.flatten ↔ ∃ a ∈ items, holds a b := by
  induction items with
  | nil => exact ⟨[], by simp⟩
  | cons a rest ih =>
    obtain ⟨out, first, here⟩ := rounds a List.mem_cons_self
    obtain ⟨outs, later, there⟩ := ih fun c hc => rounds c (List.mem_cons_of_mem a hc)
    refine ⟨out :: outs, by simp [first, later], ?_⟩
    intro b
    simp only [List.flatten_cons, List.mem_append, here, there, List.exists_mem_cons_iff]

variable {items : List α} {out : List β}

theorem cons_mapM {a : α} (ok : (a :: items).mapM f = .ok out) :
    ∃ first later, f a = .ok first ∧ items.mapM f = .ok later ∧ out = first :: later := by
  rw [List.mapM_cons] at ok
  obtain ⟨first, here, ok⟩ := bind_eq_ok.mp ok
  obtain ⟨later, there, ok⟩ := bind_eq_ok.mp ok
  cases ok
  exact ⟨first, later, here, there, rfl⟩

theorem mem_of_mapM (ok : items.mapM f = .ok out) (b : β) : b ∈ out ↔ ∃ a ∈ items, f a = .ok b := by
  induction items generalizing out with
  | nil =>
    cases ok
    simp
  | cons a rest ih =>
    obtain ⟨first, later, here, there, rfl⟩ := cons_mapM ok
    simp [ih there, here, eq_comm]

theorem round_of_mapM (ok : items.mapM f = .ok out) {a : α} (inside : a ∈ items) :
    ∃ b ∈ out, f a = .ok b := by
  induction items generalizing out with
  | nil => cases inside
  | cons first rest ih =>
    obtain ⟨here, later, hf, there, rfl⟩ := cons_mapM ok
    rcases List.mem_cons.mp inside with rfl | inside
    · exact ⟨here, List.mem_cons_self, hf⟩
    · obtain ⟨b, hb, ok⟩ := ih there inside
      exact ⟨b, List.mem_cons_of_mem _ hb, ok⟩

theorem exists_mapM (each : ∀ a ∈ items, ∃ b, f a = .ok b) : ∃ out, items.mapM f = .ok out := by
  induction items with
  | nil => exact ⟨[], rfl⟩
  | cons a rest ih =>
    obtain ⟨b, here⟩ := each a List.mem_cons_self
    obtain ⟨later, there⟩ := ih fun c inside => each c (List.mem_cons_of_mem a inside)
    refine ⟨b :: later, ?_⟩
    rw [List.mapM_cons, here]
    dsimp only [bind, Except.bind]
    rw [there]
    rfl

theorem map_of_mapM {γ : Type} {f : α → Except ε β} {items : List α} {out : List β} {g : α → γ}
    {h : β → γ} (ok : items.mapM f = .ok out) (same : ∀ a b, f a = .ok b → h b = g a) :
    out.map h = items.map g := by
  induction items generalizing out with
  | nil =>
    cases ok
    rfl
  | cons a rest ih =>
    obtain ⟨first, later, here, there, rfl⟩ := cons_mapM ok
    rw [List.map_cons, List.map_cons, same a first here, ih there]

theorem forall₂_of_mapM (each : ∀ a b, f a = .ok b → R a b) (ok : items.mapM f = .ok out) :
    List.Forall₂ R items out := by
  induction items generalizing out with
  | nil =>
    cases ok
    exact .nil
  | cons a rest ih =>
    obtain ⟨first, later, here, there, rfl⟩ := cons_mapM ok
    exact .cons (each a first here) (ih there)

theorem mapM_follows {γ : Type} {g : α → Except ε γ} {R : β → γ → Prop}
    (ok : items.mapM f = .ok out)
    (each : ∀ a ∈ items, ∀ b, f a = .ok b → ∃ c, g a = .ok c ∧ R b c) :
    ∃ out', items.mapM g = .ok out' ∧ List.Forall₂ R out out' := by
  induction items generalizing out with
  | nil =>
    cases ok
    exact ⟨[], rfl, .nil⟩
  | cons a rest ih =>
    obtain ⟨first, later, here, there, rfl⟩ := cons_mapM ok
    obtain ⟨first', here', same⟩ := each a List.mem_cons_self first here
    obtain ⟨later', there', alike⟩ := ih there fun a inside => each a (List.mem_cons_of_mem _ inside)
    exact ⟨first' :: later', by rw [List.mapM_cons, here', there']; rfl, .cons same alike⟩

theorem exists_of_forall₂ (both : List.Forall₂ R items out) (inside : b ∈ out) :
    ∃ a ∈ items, R a b := by
  induction both with
  | nil => cases inside
  | @cons a c items out here later ih =>
    rcases List.mem_cons.mp inside with rfl | there
    · exact ⟨a, List.mem_cons_self, here⟩
    · obtain ⟨a', found, other⟩ := ih there
      exact ⟨a', List.mem_cons_of_mem a found, other⟩

theorem pairwise_of_forall₂ {P : α → α → Prop} {Q : β → β → Prop}
    (both : List.Forall₂ R items out) (pairs : items.Pairwise P)
    (turn : ∀ a b a' b', R a b → R a' b' → P a a' → Q b b') : out.Pairwise Q := by
  induction both with
  | nil => exact .nil
  | @cons a b items out here later ih =>
    obtain ⟨first, rest⟩ := List.pairwise_cons.mp pairs
    refine .cons (fun b' inside => ?_) (ih rest)
    obtain ⟨a', there, other⟩ := exists_of_forall₂ later inside
    exact turn a b a' b' here other (first a' there)

theorem eq_of_short (short : items.length ≤ 1) {a b : α} (ha : a ∈ items) (hb : b ∈ items) :
    a = b := by
  match items, short with
  | [c], _ =>
    rw [List.mem_singleton] at ha hb
    rw [ha, hb]

end Checks
