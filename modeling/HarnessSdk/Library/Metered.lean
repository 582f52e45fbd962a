import Mathlib

/-! Computations under a meter: they may be stopped at any point, and the meter outlives the stop. -/

def Metered (σ ε α : Type) : Type := σ → Except ε α × σ

namespace Metered
variable {σ ε α β γ : Type}

instance : Monad (Metered σ ε) where
  pure a := fun s => (.ok a, s)
  bind x f := fun s =>
    match x s with
    | (.ok a, s') => f a s'
    | (.error e, s') => (.error e, s')

instance : LawfulMonad (Metered σ ε) := by
  refine LawfulMonad.mk' _ ?_ ?_ ?_
  · intro α x
    funext s
    change (match x s with
      | (.ok a, s') => (Except.ok a, s')
      | (.error e, s') => (.error e, s')) = x s
    cases run : x s with
    | mk outcome s' => cases outcome <;> rfl
  · intro α β a f
    rfl
  · intro α β γ x f g
    funext s
    change (match (match x s with
      | (.ok a, s') => f a s'
      | (.error e, s') => (.error e, s')) with
      | (.ok b, s'') => g b s''
      | (.error e, s'') => (.error e, s'')) = match x s with
      | (.ok a, s') => (match f a s' with
        | (.ok b, s'') => g b s''
        | (.error e, s'') => (.error e, s''))
      | (.error e, s') => (.error e, s')
    cases run : x s with
    | mk outcome s' => cases outcome <;> rfl

def stop (e : ε) : Metered σ ε α := fun s => (.error e, s)

/-- From every meter the computation gives a value with the property, or a stop that is allowed. -/
def Only (allowed : ε → Prop) (x : Metered σ ε α) (post : α → Prop) : Prop :=
  ∀ s, match x s with
    | (.ok a, _) => post a
    | (.error e, _) => allowed e

def Yields (allowed : ε → Prop) (x : Metered σ ε α) (a : α) : Prop := Only allowed x (· = a)

variable {allowed : ε → Prop}

variable {post : α → Prop} {x : Metered σ ε α} {f : α → Metered σ ε β} {g : α → Id β}
  (items : List α)

theorem only_pure {a : α} (holds : post a) : Only allowed (pure a : Metered σ ε α) post :=
  fun _ => holds

theorem only_stop {e : ε} (expected : allowed e) : Only allowed (stop e : Metered σ ε α) post :=
  fun _ => expected

theorem only_bind {mid : α → Prop} {post : β → Prop} (first : Only allowed x mid)
    (second : ∀ a, mid a → Only allowed (f a) post) : Only allowed (x >>= f) post := by
  intro s
  have here := first s
  change match (match x s with
    | (.ok a, s') => f a s'
    | (.error e, s') => (.error e, s')) with
    | (.ok b, _) => post b
    | (.error e, _) => allowed e
  cases run : x s with
  | mk outcome s' =>
    rw [run] at here
    cases outcome with
    | ok a => exact second a here s'
    | error e => exact here

theorem Only.mono {post' : α → Prop} (only : Only allowed x post) (weaker : ∀ a, post a → post' a) :
    Only allowed x post' := by
  intro s
  have here := only s
  cases run : x s with
  | mk outcome s' =>
    rw [run] at here
    cases outcome with
    | ok a => exact weaker a here
    | error e => exact here

theorem yields_pure (a : α) : Yields allowed (pure a : Metered σ ε α) a := only_pure rfl

theorem yields_bind {a : α} {b : β} (first : Yields allowed x a) (second : Yields allowed (f a) b) :
    Yields allowed (x >>= f) b := by
  apply only_bind first
  rintro _ rfl
  exact second

def Erases (allowed : ε → Prop) (x : Metered σ ε α) (y : Id α) : Prop :=
  Yields allowed x y.run

theorem erases_pure (a : α) : Erases allowed (pure a : Metered σ ε α) (pure a) := yields_pure a

theorem erases_bind {y : Id α} (first : Erases allowed x y)
    (second : ∀ a, Erases allowed (f a) (g a)) : Erases allowed (x >>= f) (y >>= g) :=
  yields_bind first (second _)

theorem erases_foldlM {f : β → α → Metered σ ε β} {g : β → α → Id β} (start : β)
    (each : ∀ b a, Erases allowed (f b a) (g b a)) :
    Erases allowed (items.foldlM f start) (items.foldlM g start) := by
  induction items generalizing start with
  | nil => exact erases_pure start
  | cons a rest ih =>
    rw [List.foldlM_cons, List.foldlM_cons]
    exact erases_bind (each start a) fun b => ih b

theorem erases_mapM (each : ∀ a, Erases allowed (f a) (g a)) :
    Erases allowed (items.mapM f) (items.mapM g) := by
  induction items with
  | nil => exact erases_pure []
  | cons a rest ih =>
    rw [List.mapM_cons, List.mapM_cons]
    apply erases_bind (each a)
    intro b
    exact erases_bind ih fun bs => erases_pure _

theorem erases_ite {p : Prop} [Decidable p] {x' : Metered σ ε α} {y y' : Id α}
    (yes : Erases allowed x y) (no : Erases allowed x' y') :
    Erases allowed (if p then x else x') (if p then y else y') := by
  by_cases h : p
  · rw [if_pos h, if_pos h]
    exact yes
  · rw [if_neg h, if_neg h]
    exact no

theorem only_foldlM_from {f : β → α → Metered σ ε β} {inv : List α → β → Prop} (whole done : List α)
    (rest : List α) (start : β) (split : whole = done ++ rest) (holds : inv done start)
    (each : ∀ done a rest b, whole = done ++ a :: rest → inv done b →
      Only allowed (f b a) (inv (done ++ [a]))) :
    Only allowed (rest.foldlM f start) (inv whole) := by
  induction rest generalizing done start with
  | nil =>
    rw [split, List.append_nil]
    exact only_pure holds
  | cons a rest ih =>
    rw [List.foldlM_cons]
    apply only_bind (each done a rest start split holds)
    intro b hb
    exact ih (done ++ [a]) b (by simpa using split) hb

/-- A loop under an invariant on the part already done. -/
theorem only_foldlM {f : β → α → Metered σ ε β} {items : List α} {start : β}
    (inv : List α → β → Prop) (holds : inv [] start)
    (each : ∀ done a rest b, items = done ++ a :: rest → inv done b →
      Only allowed (f b a) (inv (done ++ [a]))) :
    Only allowed (items.foldlM f start) (inv items) :=
  only_foldlM_from items [] items start rfl holds each

/-! Computations on a store: reading, writing, and refusing. -/

def view (f : σ → α) : Metered σ ε α := fun s => (.ok (f s), s)

def write (f : σ → σ) : Metered σ ε Unit := fun s => (.ok (), f s)

def ensure (p : Prop) [Decidable p] (e : ε) : Metered σ ε Unit :=
  fun s => if p then (.ok (), s) else (.error e, s)

def lift (x : Except ε α) : Metered σ ε α := fun s => (x, s)

def orStop (x : Option α) (e : ε) : Metered σ ε α :=
  match x with
  | none => stop e
  | some a => pure a

def Reads (x : Metered σ ε α) : Prop := ∀ s, (x s).2 = s

def Ends (x : Metered σ ε α) (s : σ) (post : α → σ → Prop) : Prop :=
  ∃ a t, x s = (.ok a, t) ∧ post a t

/-- The computation ends with this property, or it is stopped and the store is as it was. -/
def Atomic (x : Metered σ ε α) (s : σ) (post : α → σ → Prop) : Prop :=
  match x s with
  | (.ok a, t) => post a t
  | (.error _, t) => t = s

section
variable {s : σ} {post : α → σ → Prop}

variable {x : Metered σ ε α} {t m : σ} {a : α} {e : ε} {f : α → Metered σ ε β} {mid : α → σ → Prop}
  (items : List α)

theorem Reads.same (reads : Reads x) {outcome : Except ε α} (ran : x s = (outcome, t)) : t = s := by
  have same := reads s
  rw [ran] at same
  exact same

section
variable (atomic : Atomic x s post)
include atomic

theorem Atomic.ended (ran : x s = (.ok a, t)) : post a t := by
  unfold Atomic at atomic
  rw [ran] at atomic
  exact atomic

theorem Atomic.stopped (ran : x s = (.error e, t)) : t = s := by
  unfold Atomic at atomic
  rw [ran] at atomic
  exact atomic

theorem Atomic.after (inv : σ → Prop) (before : inv s)
    (ends : ∀ a t, post a t → inv t) : inv (x s).2 := by
  cases run : x s with
  | mk outcome t =>
    cases outcome with
    | ok a => exact ends a t (atomic.ended run)
    | error e => exact atomic.stopped run ▸ before

end

theorem Ends.atomic (ends : Ends x s post) : Atomic x s post := by
  obtain ⟨a, t, ran, holds⟩ := ends
  unfold Atomic
  rw [ran]
  exact holds

theorem Atomic.mono {post' : α → σ → Prop} (atomic : Atomic x s post)
    (weaker : ∀ a t, post a t → post' a t) : Atomic x s post' := by
  unfold Atomic at atomic ⊢
  cases run : x s with
  | mk outcome t =>
    rw [run] at atomic
    cases outcome with
    | ok a => exact weaker a t atomic
    | error e => exact atomic

theorem bind_of_ran (ran : x s = (.ok a, m)) : (x >>= f) s = f a m := by
  change (match x s with
    | (.ok a, s') => f a s'
    | (.error e, s') => (.error e, s')) = _
  rw [ran]

theorem bind_of_stopped (ran : x s = (.error e, m)) : (x >>= f) s = (.error e, m) := by
  change (match x s with
    | (.ok a, s') => f a s'
    | (.error e, s') => (.error e, s')) = _
  rw [ran]

theorem ends_after {post : β → σ → Prop} (ran : x s = (.ok a, m)) (rest : Ends (f a) m post) :
    Ends (x >>= f) s post := by
  obtain ⟨b, t, ran', holds⟩ := rest
  exact ⟨b, t, (bind_of_ran ran).trans ran', holds⟩

theorem ends_pure (holds : post a s) : Ends (pure a : Metered σ ε α) s post :=
  ⟨a, s, rfl, holds⟩

theorem atomic_pure (holds : post a s) : Atomic (pure a : Metered σ ε α) s post := holds

theorem atomic_stop : Atomic (stop e : Metered σ ε α) s post := rfl

/-- After an atomic part only what surely ends may follow. -/
theorem Atomic.bind {post : β → σ → Prop} (first : Atomic x s mid)
    (rest : ∀ a m, mid a m → Ends (f a) m post) : Atomic (x >>= f) s post := by
  cases run : x s with
  | mk outcome m =>
    cases outcome with
    | ok a =>
      obtain ⟨b, t, ran, holds⟩ := rest a m (first.ended run)
      exact Ends.atomic ⟨b, t, (bind_of_ran run).trans ran, holds⟩
    | error e =>
      unfold Atomic
      rw [bind_of_stopped run]
      exact first.stopped run

theorem Atomic.bind_either {post : β → σ → Prop} (first : Atomic x s mid)
    (rest : ∀ a m, mid a m → m = s ∧ Atomic (f a) s post ∨ Ends (f a) m post) :
    Atomic (x >>= f) s post := by
  cases run : x s with
  | mk outcome m =>
    cases outcome with
    | ok a =>
      cases rest a m (first.ended run) with
      | inl idle =>
        obtain ⟨rfl, atomic⟩ := idle
        unfold Atomic
        rw [bind_of_ran run]
        exact atomic
      | inr ends =>
        obtain ⟨b, t, ran, holds⟩ := ends
        exact Ends.atomic ⟨b, t, (bind_of_ran run).trans ran, holds⟩
    | error e =>
      unfold Atomic
      rw [bind_of_stopped run]
      exact first.stopped run

theorem atomic_lifted {x : Except ε α} (holds : ∀ a, x = .ok a → post a s) :
    Atomic (lift x : Metered σ ε α) s post := by
  cases x with
  | error e => exact atomic_stop
  | ok a => exact holds a rfl

section
variable {f : α → Metered σ ε β} {post : β → σ → Prop}

theorem atomic_bind {x : Metered σ ε α} (reads : Reads x)
    (rest : ∀ a, x s = (.ok a, s) → Atomic (f a) s post) : Atomic (x >>= f) s post := by
  cases run : x s with
  | mk outcome m =>
    have same := reads.same run
    subst same
    unfold Atomic
    cases outcome with
    | ok a =>
      rw [bind_of_ran run]
      exact rest a run
    | error e => rw [bind_of_stopped run]

theorem atomic_view {g : σ → α} (rest : Atomic (f (g s)) s post) : Atomic (view g >>= f) s post :=
  rest

theorem atomic_orStop {x : Option α} {e : ε} (rest : ∀ a, x = some a → Atomic (f a) s post) :
    Atomic (orStop x e >>= f) s post := by
  cases x with
  | none => exact atomic_stop
  | some a => exact rest a rfl

theorem atomic_lift {x : Except ε α} (rest : ∀ a, x = .ok a → Atomic (f a) s post) :
    Atomic (lift x >>= f) s post := by
  cases x with
  | error e => exact atomic_stop
  | ok a => exact rest a rfl

theorem atomic_ensure {p : Prop} [Decidable p] {e : ε} {f : Unit → Metered σ ε β}
    (rest : p → Atomic (f ()) s post) : Atomic (ensure p e >>= f) s post := by
  by_cases h : p
  · have ran : (ensure p e : Metered σ ε Unit) s = (.ok (), s) := if_pos h
    unfold Atomic
    rw [bind_of_ran ran]
    exact rest h
  · have ran : (ensure p e : Metered σ ε Unit) s = (.error e, s) := if_neg h
    unfold Atomic
    rw [bind_of_stopped ran]

end

theorem reads_pure (a : α) : Reads (pure a : Metered σ ε α) := fun _ => rfl

theorem reads_lift (x : Except ε α) : Reads (lift x : Metered σ ε α) := fun _ => rfl

theorem reads_view (f : σ → α) : Reads (view f : Metered σ ε α) := fun _ => rfl

theorem reads_ensure (p : Prop) [Decidable p] (e : ε) : Reads (ensure p e : Metered σ ε Unit) := by
  intro s
  unfold ensure
  split <;> rfl

theorem reads_orStop (x : Option α) (e : ε) : Reads (orStop x e : Metered σ ε α) := by
  cases x <;> exact fun _ => rfl

theorem Reads.bind (first : Reads x) (rest : ∀ a, Reads (f a)) : Reads (x >>= f) := by
  intro s
  cases run : x s with
  | mk outcome m =>
    have same := first.same run
    subst same
    cases outcome with
    | ok a =>
      rw [bind_of_ran run]
      exact rest a m
    | error e => rw [bind_of_stopped run]

theorem reads_forM {f : α → Metered σ ε Unit} (each : ∀ a ∈ items, Reads (f a)) :
    Reads (items.forM f) := by
  induction items with
  | nil => exact reads_pure ()
  | cons a rest ih =>
    change Reads (f a >>= fun _ => rest.forM f)
    apply Reads.bind (each a List.mem_cons_self)
    intro _
    exact ih fun b hb => each b (List.mem_cons_of_mem a hb)

theorem forM_cons_ran {f : α → Metered σ ε Unit} {rest : List α} (head : f a s = (.ok (), m)) :
    (a :: rest).forM f s = rest.forM f m := by
  change (f a >>= fun _ => rest.forM f) s = rest.forM f m
  exact bind_of_ran head

theorem forM_passes {f : α → Metered σ ε Unit} {items : List α} (each : ∀ a ∈ items, Reads (f a)) :
    items.forM f s = (.ok (), s) ↔ ∀ a ∈ items, f a s = (.ok (), s) := by
  induction items with
  | nil => exact iff_of_true rfl (by simp)
  | cons a rest ih =>
    have rest' := ih fun b hb => each b (List.mem_cons_of_mem a hb)
    change (f a >>= fun _ => rest.forM f) s = _ ↔ _
    rw [List.forall_mem_cons, ← rest']
    cases run : f a s with
    | mk outcome m =>
      have same := (each a List.mem_cons_self).same run
      subst same
      cases outcome with
      | ok u => simp [bind_of_ran run]
      | error e => simp [bind_of_stopped run]

/-! Parts of the store that a computation leaves alone, however it ends. -/

def Leaves (part : σ → γ) (x : Metered σ ε α) : Prop := ∀ s, part (x s).2 = part s

variable {part : σ → γ}

theorem Reads.leaves (reads : Reads x) : Leaves part x :=
  fun s => congrArg part (reads s)

theorem leaves_write {f : σ → σ} (same : ∀ s, part (f s) = part s) :
    Leaves part (write f : Metered σ ε Unit) := same

theorem Leaves.bind (first : Leaves part x) (rest : ∀ a, Leaves part (f a)) :
    Leaves part (x >>= f) := by
  intro s
  have before := first s
  cases run : x s with
  | mk outcome m =>
    rw [run] at before
    cases outcome with
    | ok a =>
      rw [bind_of_ran run]
      exact (rest a m).trans before
    | error e =>
      rw [bind_of_stopped run]
      exact before

theorem leaves_forM {f : α → Metered σ ε Unit} (each : ∀ a ∈ items, Leaves part (f a)) :
    Leaves part (items.forM f) := by
  induction items with
  | nil => exact (reads_pure ()).leaves
  | cons a rest ih =>
    change Leaves part (f a >>= fun _ => rest.forM f)
    apply Leaves.bind (each a List.mem_cons_self)
    intro _
    exact ih fun b hb => each b (List.mem_cons_of_mem a hb)

end

/-! Item by item: each item takes a step, or the whole stops at it. -/

inductive Steps (step : α → σ → σ → Prop) : List α → σ → σ → Prop
  | nil {s : σ} : Steps step [] s s
  | cons {a : α} {rest : List α} {s m t : σ} : step a s m → Steps step rest m t →
      Steps step (a :: rest) s t

/-- An item takes its step, or it stops and leaves something behind. -/
def Advances (x : Metered σ ε β) (s : σ) (step left : σ → Prop) : Prop :=
  match x s with
  | (.ok _, t) => step t
  | (.error _, t) => left t

theorem advances_bind {s : σ} {step left : σ → Prop} {mid : α → σ → Prop} (first : Atomic x s mid)
    (nothing : left s) (rest : ∀ a m, mid a m → Advances (f a) m step left) :
    Advances (x >>= f) s step left := by
  unfold Advances at *
  cases run : x s with
  | mk outcome m =>
    cases outcome with
    | ok a =>
      rw [bind_of_ran run]
      exact rest a m (first.ended run)
    | error e =>
      rw [bind_of_stopped run, first.stopped run]
      exact nothing

theorem advances_reads {s : σ} {step left : σ → Prop} (reads : Reads x) (nothing : left s)
    (rest : ∀ a, x s = (.ok a, s) → Advances (f a) s step left) :
    Advances (x >>= f) s step left := by
  unfold Advances at *
  cases run : x s with
  | mk outcome m =>
    have same := reads.same run
    subst same
    cases outcome with
    | ok a =>
      rw [bind_of_ran run]
      exact rest a run
    | error e =>
      rw [bind_of_stopped run]
      exact nothing

theorem mapM_steps {step left : α → σ → σ → Prop}
    (each : ∀ a s, Advances (f a) s (step a s) (left a s)) (items : List α) (s : σ) :
    match items.mapM f s with
    | (.ok _, t) => Steps step items s t
    | (.error e, t) => ∃ done a later bs m, items = done ++ a :: later ∧
        done.mapM f s = (.ok bs, m) ∧ Steps step done s m ∧ f a m = (.error e, t) ∧
          left a m t := by
  induction items generalizing s with
  | nil => exact .nil
  | cons a rest ih =>
    have first := each a s
    unfold Advances at first
    rw [List.mapM_cons]
    cases run : f a s with
    | mk outcome m =>
      rw [run] at first
      cases outcome with
      | error e =>
        rw [bind_of_stopped run]
        exact ⟨[], a, rest, [], s, rfl, rfl, .nil, run, first⟩
      | ok b =>
        rw [bind_of_ran run]
        have others := ih m
        cases run' : rest.mapM f m with
        | mk outcome' t =>
          rw [run'] at others
          cases outcome' with
          | error e =>
            rw [bind_of_stopped run']
            obtain ⟨done, a', later, bs, m', split, ran, steps, stopped⟩ := others
            refine ⟨a :: done, a', later, b :: bs, m', by rw [split]; rfl, ?_, .cons first steps,
              stopped⟩
            rw [List.mapM_cons, bind_of_ran run, bind_of_ran ran]
            rfl
          | ok bs =>
            rw [bind_of_ran run']
            exact .cons first others

-- Outside of these rules a computation is not run to see what it is atomic for.
attribute [irreducible] Atomic

end Metered
