import HarnessSdk.Budgets.Reconcile

/-! No account is overspent while settlements stay within what was reserved. -/
namespace Budgets
open PyDict PyText Checks Graph Tables Metered

def UsageFact.Nonnegative (fact : UsageFact) : Prop :=
  0 ≤ fact.inputTokens ∧ 0 ≤ fact.outputTokens ∧ ∀ cost, fact.costMicros = some cost → 0 ≤ cost

def ImportedUsage.Nonnegative (row : ImportedUsage) : Prop :=
  0 ≤ row.inputTokens ∧ 0 ≤ row.outputTokens ∧ ∀ cost, row.costMicros = some cost → 0 ≤ cost

def Operation.Nonnegative : Operation → Prop
  | .reserve _ _ tokens costMicros _ toolCalls _ => 0 ≤ tokens ∧ 0 ≤ costMicros ∧ 0 ≤ toolCalls
  | .grow _ tokens costMicros => 0 ≤ tokens ∧ 0 ≤ costMicros
  | .importUsage _ _ facts => ∀ fact ∈ facts, fact.Nonnegative
  | .settle _ toolCalls => 0 ≤ toolCalls
  | .settleKnown _ toolCalls => 0 ≤ toolCalls
  | _ => True

/-- Each settlement so far charged at most what its reservation held. -/
def Frugal (s : Store) : Prop :=
  ∀ row ∈ s.reservations, row.state = .settled → ∀ r, row.settledAt.at r ≤ row.held.at r

instance {p : Resource → Prop} [DecidablePred p] : Decidable (∀ r, p r) :=
  decidable_of_iff (p .tokens ∧ p .costMicros ∧ p .toolCalls ∧ p .attempts)
    ⟨fun all r => by cases r <;> simp [all], fun all => ⟨all _, all _, all _, all _⟩⟩

instance (s : Store) : Decidable (Frugal s) :=
  inferInstanceAs (Decidable (∀ row ∈ s.reservations, row.state = .settled →
    ∀ r, row.settledAt.at r ≤ row.held.at r))

def Thrifty (s : Store) : List Action → Prop
  | [] => True
  | a :: rest => a.operation.Nonnegative ∧ Frugal (s.act a) ∧ Thrifty (s.act a) rest

/-! Charges are not negative. -/

def Figures.Nonnegative (figures : Figures) : Prop := ∀ r, 0 ≤ figures.at r

def fair : Rules := ⟨Figures.Nonnegative, ImportedUsage.Nonnegative⟩

theorem total_nonneg {α : Type} {amount : α → Int} {rows : List α}
    (each : ∀ row ∈ rows, 0 ≤ amount row) : 0 ≤ total amount rows :=
  List.sum_nonneg (List.forall_mem_map.mpr each)

theorem usageOf_nonneg {rows : List ImportedUsage} (each : ∀ row ∈ rows, row.Nonnegative) :
    0 ≤ (usageOf rows).tokens ∧ 0 ≤ (usageOf rows).cost.getD 0 := by
  constructor
  · apply total_nonneg
    intro row inside
    obtain ⟨input, output, _⟩ := each row inside
    omega
  · unfold usageOf
    dsimp only
    split
    · exact Int.le_refl 0
    · apply List.sum_nonneg
      intro cost inside
      obtain ⟨row, hrow, priced⟩ := List.mem_filterMap.mp inside
      exact (each row hrow).2.2 cost priced

theorem chargeOf_nonneg {usage : Usage} {toolCalls : Int} (tokens : 0 ≤ usage.tokens)
    (cost : 0 ≤ usage.cost.getD 0) (calls : 0 ≤ toolCalls) :
    (chargeOf usage toolCalls).Nonnegative := by
  intro r
  cases r with
  | tokens => exact tokens
  | costMicros => exact cost
  | toolCalls => exact calls
  | attempts => exact Int.le_refl 0

theorem importFact_nonneg {subjectId missionId : String} {usage : List ImportedUsage × Nat}
    {fact : UsageFact} (each : ∀ row ∈ usage.1, row.Nonnegative) (fine : fact.Nonnegative) :
    ∀ row ∈ (importFact subjectId missionId usage fact).1, row.Nonnegative := by
  unfold importFact
  dsimp only
  split
  · intro row inside
    rcases mem_snoc.mp inside with old | rfl
    · exact each row old
    · exact fine
  · split
    · intro row inside
      obtain ⟨old, hold, rfl⟩ := mem_amend.mp inside
      split
      · exact fine
      · exact each old hold
    · exact each

variable {s : Store}

theorem keeps_fair (usage : ∀ row ∈ s.usage, row.Nonnegative) {operation : Operation}
    (nonnegative : operation.Nonnegative) : operation.Keeps fair s where
  charge := by
    have all : ∀ subjectId, 0 ≤ (s.usageFor subjectId).tokens ∧
        0 ≤ (s.usageFor subjectId).cost.getD 0 := fun subjectId =>
      usageOf_nonneg fun row inside => usage row (List.mem_of_mem_filter inside)
    have known : ∀ subjectId, 0 ≤ (s.knownUsageFor subjectId).tokens ∧
        0 ≤ (s.knownUsageFor subjectId).cost.getD 0 := fun subjectId =>
      usageOf_nonneg fun row inside => usage row (List.mem_of_mem_filter inside)
    intro charge charges
    cases charges with
    | @settle subjectId toolCalls =>
      exact chargeOf_nonneg (all subjectId).1 (all subjectId).2 nonnegative
    | @settleKnown subjectId toolCalls =>
      exact chargeOf_nonneg (known subjectId).1 (known subjectId).2 nonnegative
    | @settleAtUpperBound subjectId row inside =>
      obtain ⟨tokens, cost⟩ := known subjectId
      intro r
      cases r with
      | tokens => exact Int.le_trans tokens (Int.le_max_right _ _)
      | costMicros => exact Int.le_trans cost (Int.le_max_right _ _)
      | toolCalls => exact Int.le_refl 0
      | attempts => exact Int.le_refl 0
    | @releaseTail holdId taskRevision reason hold inside =>
      exact chargeOf_nonneg (all _).1 (all _).2 (Int.le_refl 0)
  usage := by
    rintro subjectId missionId facts rfl before
    have folded : ∀ start : List ImportedUsage × Nat, (∀ row ∈ start.1, row.Nonnegative) →
        ∀ row ∈ (facts.foldl (importFact subjectId missionId) start).1, row.Nonnegative := by
      induction facts with
      | nil => exact fun start each => each
      | cons fact rest ih =>
        intro start each
        have fine := nonnegative fact List.mem_cons_self
        exact ih (fun f inside => nonnegative f (List.mem_cons_of_mem _ inside)) _
          (importFact_nonneg each fine)
    exact folded (s.usage, 0) before

/-! What a change leaves. -/

def Funded (accounts : List Account) : Prop := ∀ a ∈ accounts, ∀ r, a.Fits (r, 0)

structure Solvent (s : Store) : Prop where
  funded : Funded s.accounts
  counted : ∀ a ∈ s.accounts, 0 ≤ a.charged.attempts
  spent : ∀ row ∈ s.reservations, row.spent.Nonnegative
  usage : ∀ row ∈ s.usage, row.Nonnegative

section
variable {s t : Store}

variable {accountId : String} {deltas : Deltas} {rules : Rules}

theorem Funded.charge (funded : Funded s.accounts) (sound : Sound s)
    (room : s.Room accountId (deltas.reserved + deltas.charged)) :
    Funded (s.charge accountId deltas).accounts := by
  intro a inside r
  by_cases reached : a.accountId ∈ along s.accounts accountId
  · apply fits_charge (deltas.reserved.at r + deltas.charged.at r) inside
    · rw [if_pos reached]
      omega
    · intro old hold same left remains
      have now := funded old hold r left remains
      have within := (sound.tree.mem_along _ _).mp (same ▸ reached)
      have enough := room old hold within r left remains
      rw [Figures.add_at] at enough
      dsimp only at now ⊢
      omega
  · apply fits_charge 0 inside
    · rw [if_neg reached]
      omega
    · exact fun old hold _ => funded old hold r

theorem counted_charge (sound : Sound s) (counted : ∀ a ∈ s.accounts, 0 ≤ a.charged.attempts)
    (more : ∀ a ∈ s.accounts, Within s.accounts a.accountId accountId → 0 ≤ a.charged.attempts +
      deltas.charged.attempts) :
    ∀ a ∈ (s.charge accountId deltas).accounts, 0 ≤ a.charged.attempts := by
  intro a inside
  obtain ⟨old, hold, ⟨within, rfl⟩ | ⟨_, rfl⟩⟩ := mem_charge sound inside
  · exact more old hold within
  · exact counted a hold

theorem Change.frozen (change : Change rules s t) (sound : Sound s) {row : Reservation}
    (inside : row ∈ s.reservations) (settled : row.state = .settled) : row ∈ t.reservations := by
  have kept : ∀ live ∈ s.reservations, live.state = .reserved → ∀ f : Reservation → Reservation,
      row ∈ amend (·.subjectId = live.subjectId) f s.reservations := by
    intro live hlive state f
    refine mem_amend.mpr ⟨row, inside, (if_neg fun same => ?_).symm⟩
    rw [sound.only_row inside hlive same, state] at settled
    cases settled
  cases change with
  | opened _ _ _ _ => exact inside
  | reserved _ _ _ _ _ => exact List.mem_append_left _ inside
  | returned _ => exact inside
  | grown hrow live _ _ => exact kept _ hrow live _
  | imported _ => exact inside
  | settled hrow live _ _ _ => exact kept _ hrow live _
  | placed _ _ _ _ _ => exact (holdAttempts_reservations s _ _).1.symm ▸ inside
  | deducted _ _ hrow live _ _ _ => exact kept _ hrow live _
  | @shifted source target amounts hsource htarget source_live target_live _ _ =>
    refine mem_amend.mpr ⟨row, kept source hsource source_live _, (if_neg fun same => ?_).symm⟩
    rw [sound.only_row inside htarget same, target_live] at settled
    cases settled
  | recorded _ => exact inside
  | released _ _ => exact (holdAttempts_reservations s _ _).1.symm ▸ inside

theorem Frugal.before (change : Change rules s t) (sound : Sound s) (frugal : Frugal t) :
    Frugal s :=
  fun row inside settled => frugal row (change.frozen sound inside settled) settled

theorem Funded.holdAttempts (funded : Funded s.accounts) (sound : Sound s) {attempts : Int}
    (room : s.Room accountId ⟨0, 0, 0, attempts⟩) :
    Funded (s.holdAttempts accountId attempts).accounts := by
  unfold Store.holdAttempts
  split
  · exact funded
  · apply funded.charge sound
    intro a inside within r left remains positive
    rw [Figures.add_at, Figures.zero_at, Int.add_zero] at positive ⊢
    exact room a inside within r left remains positive

theorem counted_holdAttempts (sound : Sound s) (counted : ∀ a ∈ s.accounts, 0 ≤ a.charged.attempts)
    (accountId : String) (attempts : Int) :
    ∀ a ∈ (s.holdAttempts accountId attempts).accounts, 0 ≤ a.charged.attempts := by
  unfold Store.holdAttempts
  split
  · exact counted
  · apply counted_charge sound counted
    intro a inside _
    exact Int.add_nonneg (counted a inside) (Int.le_refl 0)

theorem room_of_nonpos {amount : Figures} (less : ∀ r, amount.at r ≤ 0) :
    s.Room accountId amount := by
  intro a _ _ r left _ positive
  exact absurd positive (Int.not_lt.mpr (less r))

theorem Figures.add_zero (a : Figures) : a + 0 = a := Figures.ext_at fun r => by simp

theorem spent_amend {p : Reservation → Prop} [DecidablePred p] {f : Reservation → Reservation}
    (each : ∀ row ∈ s.reservations, row.spent.Nonnegative)
    (fine : ∀ row ∈ s.reservations, (f row).spent.Nonnegative) :
    ∀ row ∈ amend p f s.reservations, row.spent.Nonnegative := by
  intro row inside
  obtain ⟨old, hold, rfl⟩ := mem_amend.mp inside
  split
  · exact fine old hold
  · exact each old hold

theorem Change.solvent (change : Change fair s t) (sound : Sound s) (solvent : Solvent s)
    (frugal : Frugal t) : Solvent t := by
  obtain ⟨funded, counted, spent, usage⟩ := solvent
  cases change with
  | @opened leaf fresh above reserved charged =>
    refine ⟨?_, ?_, spent, usage⟩
    · intro a inside r left remains
      rcases mem_snoc.mp inside with old | rfl
      · exact funded a old r left remains
      · obtain ⟨limit, _, rfl⟩ := Account.remaining_eq_some.mp remains
        rw [reserved, charged, Figures.zero_at]
        dsimp only
        omega
    · intro a inside
      rcases mem_snoc.mp inside with old | rfl
      · exact counted a old
      · rw [charged]
        exact Int.le_refl 0
  | @reserved row attempts fresh known live positive room =>
    refine ⟨funded.charge sound room, ?_, ?_, usage⟩
    · apply counted_charge sound counted
      intro a inside _
      exact Int.add_nonneg (counted a inside) positive
    · intro r inside
      rcases mem_snoc.mp inside with old | rfl
      · exact spent r old
      · rw [spent_of_live live]
        exact fun r => by simp
  | @returned accountId enough =>
    refine ⟨funded.charge sound (room_of_nonpos ?_), ?_, spent, usage⟩
    · intro r
      cases r <;> decide
    · apply counted_charge sound counted
      intro a inside within
      have one := enough a inside within
      dsimp only
      omega
  | @grown row more hrow live service room =>
    refine ⟨funded.charge sound ?_, ?_, spent_amend spent fun r hr => spent r hr, usage⟩
    · rw [show (⟨more, 0, 0⟩ : Deltas).reserved + (⟨more, 0, 0⟩ : Deltas).charged = more from
        Figures.add_zero more]
      exact room
    · apply counted_charge sound counted
      intro a inside _
      exact Int.add_nonneg (counted a inside) (Int.le_refl 0)
  | imported fine => exact ⟨funded, counted, spent, fine usage⟩
  | @settled row charge cost unpriced hrow live fine service priced =>
    have there : row.close charge cost unpriced ∈ (s.charge row.accountId
        ⟨-row.held, charge, if unpriced then 1 else 0⟩ |>.amendRow row.subjectId
          (·.close charge cost unpriced)).reservations :=
      mem_amend.mpr ⟨row, hrow, (if_pos rfl).symm⟩
    have less := frugal _ there rfl
    have settled_at : (row.close charge cost unpriced).settledAt = charge :=
      spent_close row service priced
    refine ⟨funded.charge sound (room_of_nonpos ?_), ?_, ?_, usage⟩
    · intro r
      have here := less r
      rw [settled_at] at here
      change charge.at r ≤ row.held.at r at here
      rw [Figures.add_at, Figures.neg_at]
      dsimp only
      omega
    · apply counted_charge sound counted
      intro a inside _
      exact Int.add_nonneg (counted a inside) (Int.le_of_eq service.symm)
    · apply spent_amend spent
      intro r _
      rw [spent_close r service priced]
      exact fine
  | @placed hold fresh backed held unspent room =>
    refine ⟨funded.holdAttempts sound room, counted_holdAttempts sound counted _ _, ?_, ?_⟩
    · exact (holdAttempts_reservations s _ _).1.symm ▸ spent
    · unfold Store.addTail Store.holdAttempts
      split <;> exact usage
  | @deducted hold row amounts inside held hrow live same nonneg enough =>
    refine ⟨funded.charge sound (room_of_nonpos ?_), ?_, spent_amend spent fun r hr => spent r hr, usage⟩
    · intro r
      have here := nonneg r
      rw [Figures.add_zero, Figures.neg_at]
      omega
    · apply counted_charge sound counted
      intro a inside _
      exact Int.add_nonneg (counted a inside) (Int.le_refl 0)
  | @shifted source target amounts hsource htarget source_live target_live _ _ =>
    refine ⟨funded, counted, ?_, usage⟩
    have first := spent_amend (p := (·.subjectId = source.subjectId))
      (f := (·.gain (-amounts))) spent fun r hr => spent r hr
    intro r inside
    obtain ⟨old, hold, rfl⟩ := mem_amend.mp inside
    split
    · exact first old hold
    · exact first old hold
  | recorded transfers => exact ⟨funded, counted, spent, usage⟩
  | @released hold reason inside held =>
    refine ⟨funded.holdAttempts sound (room_of_nonpos ?_), counted_holdAttempts sound counted _ _, ?_, ?_⟩
    · intro r
      have left := sound.unspent hold inside
      cases r <;> simp [Figures.at, left]
    · exact (holdAttempts_reservations s _ _).1.symm ▸ spent
    · unfold Store.amendTail Store.holdAttempts
      split <;> exact usage

theorem Changes.solvent (changes : Changes fair s t) (sound : Sound s) (solvent : Solvent s)
    (frugal : Frugal t) : Solvent t := by
  induction changes with
  | refl => exact solvent
  | tail before last ih =>
    have sound' := Changes.sound before sound
    exact last.solvent sound' (ih (frugal.before last sound')) frugal

theorem act_solvent (sound : Sound s) (solvent : Solvent s) {action : Action}
    (nonnegative : action.operation.Nonnegative) (frugal : Frugal (s.act action)) :
    Solvent (s.act action) := by
  have atomic := perform_atomic sound action.around action.operation
    (keeps_fair solvent.usage nonnegative)
  refine atomic.after (fun t => Frugal t → Solvent t) (fun _ => solvent) ?_ frugal
  exact fun _ t changes frugal => changes.solvent sound solvent frugal

end

theorem Solvent.empty : Solvent Store.empty := by
  constructor <;> intro _ inside <;> cases inside

theorem run_solvent (sound : Sound s) (balanced : Balanced s) (solvent : Solvent s)
    (actions : List Action) (thrifty : Thrifty s actions) :
    Solvent (Transitions.run Store.act s actions) := by
  induction actions generalizing s with
  | nil => exact solvent
  | cons action rest ih =>
    obtain ⟨nonnegative, frugal, later⟩ := thrifty
    obtain ⟨sound', balanced'⟩ := act_keeps s action ⟨sound, balanced⟩
    exact ih sound' balanced' (act_solvent sound solvent nonnegative frugal) later

/-- What is held in the subtree of an account: by reservations, and attempts by tails. -/
noncomputable def Store.workBelow (s : Store) (root : String) (r : Resource) : Int :=
  total (·.held.at r) (s.rowsBelow .reserved root) +
    total (fun hold => (⟨0, 0, 0, hold.remainingAttempts⟩ : Figures).at r) (s.tailsBelow root)

theorem reserved_workBelow (balanced : Balanced s) {a : Account} (inside : a ∈ s.accounts)
    (r : Resource) : a.reserved.at r = s.workBelow a.accountId r := by
  have held := (balanced a inside r).1
  unfold Store.outstanding at held
  rw [live_below, kept_below] at held
  exact held

theorem spending_nonneg (solvent : Solvent s) (p : String → Prop) (r : Resource) :
    0 ≤ s.spending p r := by
  apply total_nonneg
  intro row inside
  split
  · exact solvent.spent row inside r
  · exact Int.le_refl 0

/-- In a thrifty run nothing that an account limits runs out, and the work below it stays within
its limits; an exhausted budget stops an operation before it writes. -/
theorem limits_hold (actions : List Action) :
    let s := Transitions.run Store.act Store.empty actions
    (Thrifty Store.empty actions → ∀ a ∈ s.accounts, ∀ r,
      (∀ left, a.remaining r = some left → 0 ≤ left) ∧
      ∀ limit, r.limit a.limits = some limit → s.workBelow a.accountId r ≤ limit) ∧
    ∀ around operation accountId dimension requested remaining t,
      perform around operation s =
        (.error (.exhausted accountId dimension requested remaining), t) → t = s := by
  intro s
  obtain ⟨sound, balanced⟩ := run_sound actions
  constructor
  · intro thrifty a inside r
    have solvent := run_solvent Sound.empty Balanced.empty Solvent.empty actions thrifty
    have funded := solvent.funded a inside r
    refine ⟨funded, fun limit limited => ?_⟩
    have left := funded _ (Account.remaining_eq_some.mpr ⟨limit, limited, rfl⟩)
    have spent : 0 ≤ a.charged.at r := by
      by_cases counted : r = .attempts
      · rw [counted]
        exact solvent.counted a inside
      · rw [(balanced a inside r).2 counted]
        exact spending_nonneg solvent _ r
    rw [← reserved_workBelow balanced inside]
    dsimp only at left
    omega
  · intro around operation accountId dimension requested remaining t ran
    have atomic := @perform_atomic s ⟨fun _ => True, fun _ => True⟩ sound around operation
      ⟨fun _ _ => trivial, fun _ _ _ _ _ _ _ => trivial⟩
    exact atomic.stopped ran

theorem trial_thrifty : Thrifty Store.empty trial := by
  have usage : (Operation.importUsage "a" "m" [⟨"u", 20, 5, some 7, false⟩]).Nonnegative := by
    intro fact inside
    rw [List.mem_singleton.mp inside]
    refine ⟨by decide, by decide, ?_⟩
    rintro _ ⟨rfl⟩
    decide
  refine ⟨trivial, ?_, trivial, ?_, ⟨by decide, by decide, by decide⟩, ?_, usage, ?_,
    Int.le_refl 0, ?_, trivial, ?_, trivial, ?_, trivial⟩
  all_goals decide +kernel

theorem limits_hold_trial :
    (Transitions.run Store.act Store.empty trial).workBelow "budget:m" .tokens ≤ 100 :=
  ((limits_hold trial).1 trial_thrifty trialMission (by decide +kernel) .tokens).2 100 rfl

end Budgets
