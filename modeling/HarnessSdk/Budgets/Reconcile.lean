import HarnessSdk.Budgets.Transfers
import HarnessSdk.Library.Transitions

/-! Over every run the columns of an account are sums over the rows below it. -/
namespace Budgets
open PyDict PyText Checks Graph Tables Metered

/-! One operation. -/

/-- What an operation may charge when it settles a reservation. -/
inductive Operation.Charges (s : Store) : Operation → Figures → Prop
  | settle {subjectId toolCalls} :
      Charges s (.settle subjectId toolCalls) (chargeOf (s.usageFor subjectId) toolCalls)
  | settleKnown {subjectId toolCalls} :
      Charges s (.settleKnown subjectId toolCalls) (chargeOf (s.knownUsageFor subjectId) toolCalls)
  | settleAtUpperBound {subjectId row} : row ∈ s.reservations →
      Charges s (.settleAtUpperBound subjectId) (upperCharge row (s.knownUsageFor subjectId))
  | releaseTail {holdId taskRevision reason hold} : hold ∈ s.holds →
      Charges s (.releaseTail holdId taskRevision reason) (chargeOf (s.usageFor hold.subjectId) 0)

structure Operation.Keeps (rules : Rules) (s : Store) (operation : Operation) : Prop where
  charge : ∀ charge, operation.Charges s charge → rules.charge charge
  usage : ∀ subjectId missionId facts, operation = .importUsage subjectId missionId facts →
    (∀ row ∈ s.usage, rules.usage row) →
      ∀ row ∈ (facts.foldl (importFact subjectId missionId) (s.usage, 0)).1, rules.usage row

section
variable {s : Store} {rules : Rules}

theorem Atomic.forget {α : Type} {x : Work α} (atomic : Atomic x s fun _ t => Changes rules s t) :
    Atomic (x >>= fun _ => pure ()) s fun _ t => Changes rules s t :=
  atomic.bind fun _ _ changes => ends_pure changes

theorem perform_atomic (sound : Sound s) (around : Surroundings) (operation : Operation)
    (keeps : operation.Keeps rules s) :
    Atomic (perform around operation) s fun _ t => Changes rules s t := by
  cases operation with
  | openAccount => exact Atomic.forget (openAccount_atomic sound _ _ _ _ _)
  | reserve accountId subjectId tokens costMicros countsAttempt toolCalls missionId =>
    apply Atomic.forget
    exact (reserve_atomic sound _ _ _ _ _ _ _).mono fun _ _ done => done.1
  | grow => exact grow_atomic sound _ _ _
  | releaseAttempt => exact releaseAttempt_atomic sound _
  | importUsage => exact Atomic.forget (importUsage_atomic _ _ _ (keeps.usage _ _ _ rfl))
  | settle subjectId toolCalls =>
    apply Atomic.forget
    exact (settle_atomic sound around _ _ (keeps.charge _ .settle)).mono fun _ _ settles => settles.changes
  | settleKnown subjectId toolCalls =>
    apply Atomic.forget
    exact (settleKnown_atomic sound _ _ (keeps.charge _ .settleKnown)).mono fun _ _ settles =>
      settles.changes
  | settleAtUpperBound subjectId =>
    apply Atomic.forget
    refine (settleAtUpperBound_atomic sound _ fun row inside => ?_).mono fun _ _ settles =>
      settles.changes
    exact keeps.charge _ (.settleAtUpperBound inside)
  | reserveTail =>
    apply Atomic.forget
    exact reserveTail_atomic sound around _ _ _ _ _ _
  | transferTail =>
    apply Atomic.forget
    exact transferTail_atomic sound around _ _ _ _
  | growTailAllocation => exact growTailAllocation_atomic sound around _ _ _ _ _ _
  | releaseTail =>
    apply Atomic.forget
    exact releaseTail_atomic sound around _ _ _ fun hold inside => keeps.charge _ (.releaseTail inside)

end

def Store.act (store : Store) (action : Action) : Store :=
  (perform action.around action.operation store).2

/-! Sums over the rows below an account. -/

section
variable {α : Type}

open Classical in
/-- The sum over the rows whose account has the property. -/
noncomputable def sumOf (p : String → Prop) (accountId : α → String) (figures : α → Figures)
    (r : Resource) (rows : List α) : Int :=
  total (fun row => if p (accountId row) then (figures row).at r else 0) rows

variable {p : String → Prop} {accountId : α → String} {figures : α → Figures} {r : Resource}

open Classical in
theorem sumOf_add (rows : List α) (row : α) :
    sumOf p accountId figures r (rows ++ [row]) =
      sumOf p accountId figures r rows + if p (accountId row) then (figures row).at r else 0 := by
  unfold sumOf
  rw [total_append, total_cons, total_nil, Int.add_zero]

variable {rows : List α}

open Classical in
theorem sumOf_amend (key : α → String) {row : α} {f : α → α} (distinct : (rows.map key).Nodup)
    (inside : row ∈ rows) (same : accountId (f row) = accountId row) :
    sumOf p accountId figures r (amend (key · = key row) f rows) =
      sumOf p accountId figures r rows +
        if p (accountId row) then (figures (f row)).at r - (figures row).at r else 0 := by
  unfold sumOf
  rw [total_amend_key _ f distinct inside, same]
  split <;> omega

theorem sumOf_congr {q : String → Prop}
    (same : ∀ row ∈ rows, p (accountId row) ↔ q (accountId row)) :
    sumOf p accountId figures r rows = sumOf q accountId figures r rows := by
  unfold sumOf total
  congr 1
  apply List.map_congr_left
  intro row inside
  by_cases holds : p (accountId row)
  · rw [if_pos holds, if_pos ((same row inside).mp holds)]
  · rw [if_neg holds, if_neg fun other => holds ((same row inside).mpr other)]

theorem sumOf_none (none : ∀ row ∈ rows, ¬ p (accountId row)) :
    sumOf p accountId figures r rows = 0 := by
  rw [sumOf_congr (q := fun _ => False) fun row inside => iff_of_false (none row inside) id]
  simp [sumOf, total]

end

def Reservation.live (row : Reservation) : Figures :=
  if row.state = .reserved then row.held else 0

def Reservation.spent (row : Reservation) : Figures :=
  if row.state = .settled then row.settledAt else 0

def TailHold.kept (hold : TailHold) : Figures :=
  if hold.state = .held then ⟨0, 0, 0, hold.remainingAttempts⟩ else 0

noncomputable def Store.outstanding (s : Store) (p : String → Prop) (r : Resource) : Int :=
  sumOf p Reservation.accountId Reservation.live r s.reservations +
    sumOf p TailHold.accountId TailHold.kept r s.holds

noncomputable def Store.spending (s : Store) (p : String → Prop) (r : Resource) : Int :=
  sumOf p Reservation.accountId Reservation.spent r s.reservations

/-- The columns are sums; attempts that were made are counted and never settled. -/
def Balanced (s : Store) : Prop :=
  ∀ a ∈ s.accounts, ∀ r,
    a.reserved.at r = s.outstanding (Within s.accounts a.accountId) r ∧
    (r ≠ .attempts → a.charged.at r = s.spending (Within s.accounts a.accountId) r)

theorem Balanced.empty : Balanced Store.empty := by
  intro a inside
  cases inside

section
variable {s t : Store}

open Classical in
theorem Balanced.post (balanced : Balanced s) (sound : Sound s) (accountId : String)
    (deltas : Deltas) (accounts : t.accounts = (s.charge accountId deltas).accounts)
    (outstanding : ∀ p r, t.outstanding p r =
      s.outstanding p r + if p accountId then deltas.reserved.at r else 0)
    (spending : ∀ p r, r ≠ .attempts → t.spending p r =
      s.spending p r + if p accountId then deltas.charged.at r else 0) : Balanced t := by
  intro a' inside r
  rw [accounts] at inside ⊢
  have below : Within (s.charge accountId deltas).accounts = Within s.accounts := by
    funext root id
    exact propext (charge_within s accountId deltas root id)
  rw [below, outstanding]
  obtain ⟨a, ha, ⟨within, rfl⟩ | ⟨without, rfl⟩⟩ := mem_charge sound inside
  · obtain ⟨held, spent⟩ := balanced a ha r
    constructor
    · rw [show (a.add deltas).accountId = a.accountId from rfl, if_pos within, ← held]
      exact Figures.add_at _ _ r
    · intro counted
      rw [spending _ r counted, show (a.add deltas).accountId = a.accountId from rfl,
        if_pos within, ← spent counted]
      exact Figures.add_at _ _ r
  · obtain ⟨held, spent⟩ := balanced a' ha r
    constructor
    · rw [if_neg without, ← held, Int.add_zero]
    · intro counted
      rw [spending _ r counted, if_neg without, ← spent counted, Int.add_zero]

theorem Balanced.frame (balanced : Balanced s) (accounts : t.accounts = s.accounts)
    (outstanding : ∀ p r, t.outstanding p r = s.outstanding p r)
    (spending : ∀ p r, t.spending p r = s.spending p r) : Balanced t := by
  intro a inside r
  rw [accounts] at inside ⊢
  rw [outstanding, spending]
  exact balanced a inside r

end

/-! What a change does to the sums. -/

variable {row : Reservation} {rules : Rules}

theorem live_gain (live : row.state = .reserved) (more : Figures) (r : Resource) :
    (row.gain more).live.at r - row.live.at r =
      if r = .attempts then 0 else more.at r := by
  have live' : (row.gain more).state = .reserved := live
  rw [Reservation.live, Reservation.live, if_pos live, if_pos live']
  cases r with
  | attempts => rfl
  | _ =>
    simp only [Reservation.held, Reservation.gain, Figures.at]
    split
    · contradiction
    · omega

theorem spent_of_live (live : row.state = .reserved) : row.spent = 0 := by
  unfold Reservation.spent
  rw [live]
  rfl

theorem spent_close (row : Reservation) {charge : Figures} {cost : Option Int} {unpriced : Bool}
    (service : charge.attempts = 0) (priced : cost.getD 0 = charge.costMicros) :
    (row.close charge cost unpriced).spent = charge := by
  apply Figures.ext_at
  intro r
  cases r with
  | tokens => rfl
  | costMicros => exact priced
  | toolCalls => rfl
  | attempts => exact service.symm

section
variable {s : Store} {row : Reservation} {p : String → Prop} {r : Resource}

open Classical in
theorem outstanding_addRow (live : row.state = .reserved) :
    (s.addRow row).outstanding p r =
      s.outstanding p r + if p row.accountId then row.held.at r else 0 := by
  unfold Store.outstanding Store.addRow
  dsimp only
  rw [sumOf_add, Reservation.live, if_pos live]
  omega

theorem spending_addRow (live : row.state = .reserved) :
    (s.addRow row).spending p r = s.spending p r := by
  unfold Store.spending Store.addRow
  rw [sumOf_add, spent_of_live live]
  simp

section
variable {f : Reservation → Reservation} (sound : Sound s) (inside : row ∈ s.reservations)
  (same : (f row).accountId = row.accountId)
include sound inside same

open Classical in
theorem outstanding_amendRow : (s.amendRow row.subjectId f).outstanding p r =
    s.outstanding p r + if p row.accountId then (f row).live.at r - row.live.at r else 0 := by
  unfold Store.outstanding Store.amendRow
  dsimp only
  rw [sumOf_amend Reservation.subjectId sound.subjects inside same]
  omega

open Classical in
theorem spending_amendRow : (s.amendRow row.subjectId f).spending p r =
    s.spending p r + if p row.accountId then (f row).spent.at r - row.spent.at r else 0 := by
  unfold Store.spending Store.amendRow
  exact sumOf_amend Reservation.subjectId sound.subjects inside same

end

variable {hold : TailHold}

open Classical in
theorem outstanding_addTail : (s.addTail hold).outstanding p r =
    s.outstanding p r + if p hold.accountId then hold.kept.at r else 0 := by
  unfold Store.outstanding Store.addTail
  dsimp only
  rw [sumOf_add]
  omega

open Classical in
theorem outstanding_amendTail {f : TailHold → TailHold} (sound : Sound s)
    (inside : hold ∈ s.holds) (same : (f hold).accountId = hold.accountId) :
    (s.amendTail hold.holdId f).outstanding p r =
      s.outstanding p r + if p hold.accountId then (f hold).kept.at r - hold.kept.at r else 0 := by
  unfold Store.outstanding Store.amendTail
  dsimp only
  rw [sumOf_amend TailHold.holdId sound.holds inside same]
  omega

end

theorem Balanced.opened {s : Store} (balanced : Balanced s) (sound : Sound s) {leaf : Account}
    (fresh : leaf.accountId ∉ s.ids) (reserved : leaf.reserved = 0) (charged : leaf.charged = 0) :
    Balanced { s with accounts := s.accounts ++ [leaf] } := by
  have row_known := sound.placed
  have hold_known : ∀ hold ∈ s.holds, hold.accountId ∈ s.ids := by
    intro hold inside
    obtain ⟨row, hrow, _, same⟩ := sound.backed hold inside
    exact same ▸ sound.placed row hrow
  intro a inside r
  unfold Store.outstanding Store.spending
  dsimp only
  rcases mem_snoc.mp inside with old | rfl
  · have below : ∀ id ∈ s.ids, (Within (s.accounts ++ [leaf]) a.accountId id ↔
        Within s.accounts a.accountId id) := fun id known => within_leaf sound.tree fresh known
    rw [sumOf_congr fun row inside => below _ (row_known row inside),
      sumOf_congr fun hold inside => below _ (hold_known hold inside),
      sumOf_congr fun row inside => below _ (row_known row inside)]
    exact balanced a old r
  · rw [reserved, charged]
    have above : ∀ id ∈ s.ids, ¬ Within (s.accounts ++ [leaf]) leaf.accountId id := by
      intro id known within
      exact fresh ((within_leaf sound.tree fresh known).mp within).known.1
    rw [sumOf_none fun row inside => above _ (row_known row inside),
      sumOf_none fun hold inside => above _ (hold_known hold inside),
      sumOf_none fun row inside => above _ (row_known row inside)]
    simp

open Classical in
theorem Balanced.holdAttempts {s t : Store} (balanced : Balanced s) (sound : Sound s)
    (accountId : String) (attempts : Int)
    (accounts : t.accounts = (s.holdAttempts accountId attempts).accounts)
    (outstanding : ∀ p r, t.outstanding p r =
      s.outstanding p r + if p accountId then (⟨0, 0, 0, attempts⟩ : Figures).at r else 0)
    (spending : ∀ p r, t.spending p r = s.spending p r) : Balanced t := by
  unfold Store.holdAttempts at accounts
  by_cases nothing : attempts = 0
  · rw [if_pos nothing] at accounts
    refine balanced.frame accounts (fun p r => ?_) spending
    rw [outstanding, nothing]
    cases r <;> simp [Figures.at]
  · rw [if_neg nothing] at accounts
    refine balanced.post sound _ _ accounts outstanding ?_
    intro p r _
    rw [spending]
    simp

theorem Change.balanced {s t : Store} (change : Change rules s t) (sound : Sound s)
    (balanced : Balanced s) : Balanced t := by
  cases change with
  | opened fresh _ reserved charged => exact balanced.opened sound fresh reserved charged
  | @reserved row attempts fresh known live _ _ =>
    refine balanced.post sound row.accountId ⟨row.held, ⟨0, 0, 0, attempts⟩, 0⟩ rfl ?_ ?_
    · exact fun p r => outstanding_addRow live
    · intro p r counted
      rw [spending_addRow live]
      cases r with
      | attempts => exact absurd rfl counted
      | _ => simp [Store.spending, Store.charge, Figures.at]
  | @returned accountId _ =>
    refine balanced.post sound accountId ⟨0, ⟨0, 0, 0, -1⟩, 0⟩ rfl ?_ ?_
    · intro p r
      simp [Store.outstanding, Store.charge]
    · intro p r counted
      cases r with
      | attempts => exact absurd rfl counted
      | _ => simp [Store.spending, Store.charge, Figures.at]
  | @grown row more inside live service _ =>
    refine balanced.post sound row.accountId ⟨more, 0, 0⟩ rfl ?_ ?_
    · intro p r
      have service' : more.at r = if r = .attempts then 0 else more.at r := by
        split
        · next attempts => exact attempts ▸ service
        · rfl
      rw [outstanding_amendRow (sound.charge _ _) inside rfl, live_gain live more r, ← service']
      rfl
    · intro p r _
      have live' : (row.gain more).state = .reserved := live
      rw [spending_amendRow (sound.charge _ _) inside rfl, spent_of_live live, spent_of_live live']
      simp [Store.spending, Store.charge]
  | imported _ => exact balanced.frame rfl (fun _ _ => rfl) fun _ _ => rfl
  | @settled row charge cost unpriced inside live _ service priced =>
    refine balanced.post sound row.accountId ⟨-row.held, charge, if unpriced then 1 else 0⟩ rfl ?_ ?_
    · intro p r
      have closed : (row.close charge cost unpriced).live = 0 := rfl
      rw [outstanding_amendRow (sound.charge _ _) inside rfl, closed, Reservation.live, if_pos live,
        Figures.neg_at, Figures.zero_at, Int.zero_sub]
      rfl
    · intro p r _
      rw [spending_amendRow (sound.charge _ _) inside rfl, spent_of_live live,
        spent_close row service priced, Figures.zero_at, Int.sub_zero]
      rfl
  | @placed hold fresh _ held _ _ =>
    obtain ⟨rows, tails⟩ := holdAttempts_reservations s hold.accountId hold.remainingAttempts
    refine balanced.holdAttempts sound hold.accountId hold.remainingAttempts rfl ?_ ?_
    · intro p r
      rw [outstanding_addTail]
      unfold Store.outstanding
      rw [rows, tails, TailHold.kept, if_pos held]
    · intro p r
      exact congrArg (sumOf p _ _ r) rows
  | @deducted hold row amounts inside held hrow live same nonneg enough =>
    obtain ⟨backing, hbacking, subject, account⟩ := sound.backed hold inside
    have account' : row.accountId = hold.accountId := by
      rw [sound.only_row hrow hbacking (same.trans subject.symm), account]
    have charged := sound.charge hold.accountId ⟨-amounts, 0, 0⟩
    have tails := charged.spendTail inside enough
    have live' : (row.gain (-amounts)).state = .reserved := live
    have kept_less : ∀ r, ({ hold with
        remainingAttempts := hold.remainingAttempts - amounts.attempts } : TailHold).kept.at r -
        hold.kept.at r = (⟨0, 0, 0, -amounts.attempts⟩ : Figures).at r := by
      intro r
      simp only [TailHold.kept, held, if_true]
      cases r with
      | attempts =>
        simp only [Figures.at]
        omega
      | _ => rfl
    refine balanced.post sound hold.accountId ⟨-amounts, 0, 0⟩ rfl ?_ ?_
    · intro p r
      rw [outstanding_amendRow tails hrow rfl, outstanding_amendTail charged inside rfl,
        live_gain live, account', kept_less, Figures.neg_at]
      by_cases below : p hold.accountId
      · rw [if_pos below, if_pos below, if_pos below]
        change s.outstanding p r + _ + _ = _
        cases r <;> simp [Figures.at]
      · rw [if_neg below, if_neg below, if_neg below]
        change s.outstanding p r + 0 + 0 = _
        omega
    · intro p r _
      rw [spending_amendRow tails hrow rfl, spent_of_live live, spent_of_live live']
      simp [Store.spending, Store.charge, Store.amendTail]
  | @shifted source target amounts hsource htarget source_live target_live account differ =>
    have sound' : Sound (s.amendRow source.subjectId (·.gain (-amounts))) :=
      sound.amendRow _ (fun row => show (row.gain _).subjectId = _ from rfl) fun row =>
        show (row.gain _).accountId = _ from rfl
    have there : target ∈ (s.amendRow source.subjectId (·.gain (-amounts))).reservations :=
      mem_amend.mpr ⟨target, htarget, (if_neg (Ne.symm differ)).symm⟩
    have source_live' : (source.gain (-amounts)).state = .reserved := source_live
    have target_live' : (target.gain amounts).state = .reserved := target_live
    refine balanced.frame rfl (fun p r => ?_) fun p r => ?_
    · rw [outstanding_amendRow sound' there rfl, outstanding_amendRow sound hsource rfl,
        live_gain target_live, live_gain source_live, account, Figures.neg_at]
      by_cases below : p target.accountId
      · rw [if_pos below, if_pos below]
        split <;> omega
      · rw [if_neg below, if_neg below]
        omega
    · rw [spending_amendRow sound' there rfl, spending_amendRow sound hsource rfl,
        spent_of_live source_live, spent_of_live source_live', spent_of_live target_live,
        spent_of_live target_live']
      simp
  | recorded transfers => exact balanced.frame rfl (fun _ _ => rfl) fun _ _ => rfl
  | @released hold reason inside held =>
    obtain ⟨rows, tails⟩ := holdAttempts_reservations s hold.accountId (-hold.remainingAttempts)
    refine balanced.holdAttempts sound hold.accountId (-hold.remainingAttempts) rfl ?_ ?_
    · intro p r
      rw [outstanding_amendTail (sound.holdAttempts _ _) (tails ▸ inside) rfl]
      unfold Store.outstanding
      have fell : (⟨0, 0, 0, -hold.remainingAttempts⟩ : Figures).at r =
          (0 : Figures).at r - hold.kept.at r := by
        rw [TailHold.kept, if_pos held]
        rw [Figures.zero_at]
        cases r <;> simp [Figures.at]
      rw [rows, tails, fell]
      rfl
    · intro p r
      exact congrArg (sumOf p _ _ r) rows

/-! Runs. -/

theorem Changes.balanced {s t : Store} (changes : Changes rules s t) (sound : Sound s)
    (balanced : Balanced s) : Balanced t := by
  induction changes with
  | refl => exact balanced
  | tail before last ih => exact last.balanced (Changes.sound before sound) ih

variable (s : Store)

theorem act_keeps (action : Action) (holds : Sound s ∧ Balanced s) :
    Sound (s.act action) ∧ Balanced (s.act action) := by
  have atomic := @perform_atomic s ⟨fun _ => True, fun _ => True⟩ holds.1 action.around
    action.operation ⟨fun _ _ => trivial, fun _ _ _ _ _ _ _ => trivial⟩
  exact atomic.after (fun t => Sound t ∧ Balanced t) holds fun _ t changes =>
    ⟨changes.sound holds.1, changes.balanced holds.1 holds.2⟩

theorem run_sound (actions : List Action) :
    Sound (Transitions.run Store.act Store.empty actions) ∧
      Balanced (Transitions.run Store.act Store.empty actions) :=
  Transitions.run_keeps (fun s => Sound s ∧ Balanced s) act_keeps ⟨Sound.empty, Balanced.empty⟩ actions

open Classical in
noncomputable def Store.rowsBelow (s : Store) (state : ReservationState) (root : String) :
    List Reservation :=
  s.reservations.filter fun row => row.state = state ∧ Within s.accounts root row.accountId

open Classical in
noncomputable def Store.tailsBelow (s : Store) (root : String) : List TailHold :=
  s.holds.filter fun hold => hold.state = .held ∧ Within s.accounts root hold.accountId

variable (root : String) (r : Resource)

theorem live_below :
    sumOf (Within s.accounts root) Reservation.accountId Reservation.live r s.reservations =
      total (·.held.at r) (s.rowsBelow .reserved root) := by
  classical
  unfold Store.rowsBelow sumOf
  rw [total_filter]
  congr 1
  funext row
  by_cases live : row.state = .reserved <;> simp [Reservation.live, live]

theorem spent_below :
    sumOf (Within s.accounts root) Reservation.accountId Reservation.spent r s.reservations =
      total (·.settledAt.at r) (s.rowsBelow .settled root) := by
  classical
  unfold Store.rowsBelow sumOf
  rw [total_filter]
  congr 1
  funext row
  by_cases spent : row.state = .settled <;> simp [Reservation.spent, spent]

theorem kept_below :
    sumOf (Within s.accounts root) TailHold.accountId TailHold.kept r s.holds =
      total (fun hold => (⟨0, 0, 0, hold.remainingAttempts⟩ : Figures).at r) (s.tailsBelow root) := by
  classical
  unfold Store.tailsBelow sumOf
  rw [total_filter]
  congr 1
  funext hold
  by_cases held : hold.state = .held <;> simp [TailHold.kept, held]

theorem total_zero {α : Type} (rows : List α) : total (fun _ => 0) rows = 0 := by
  induction rows with
  | nil => rfl
  | cons row rest ih => simpa using ih

/-- Over every run each column is a sum over the rows of the subtree. -/
theorem accounts_reconcile (actions : List Action) (a : Account)
    (inside : a ∈ (Transitions.run Store.act Store.empty actions).accounts) :
    let s := Transitions.run Store.act Store.empty actions
    (∀ r, r ≠ .attempts →
      a.reserved.at r = total (·.held.at r) (s.rowsBelow .reserved a.accountId) ∧
      a.charged.at r = total (·.settledAt.at r) (s.rowsBelow .settled a.accountId)) ∧
    a.reserved.attempts = total TailHold.remainingAttempts (s.tailsBelow a.accountId) := by
  intro s
  have balanced := (run_sound actions).2 a inside
  unfold Store.outstanding Store.spending at balanced
  simp only [live_below, spent_below, kept_below] at balanced
  refine ⟨fun r counted => ?_, ?_⟩
  · obtain ⟨held, spent⟩ := balanced r
    refine ⟨?_, spent counted⟩
    rw [held]
    cases r with
    | attempts => exact absurd rfl counted
    | _ => exact (congrArg _ (total_zero _)).trans (Int.add_zero _)
  · have held := (balanced .attempts).1
    rw [show a.reserved.attempts = a.reserved.at .attempts from rfl, held]
    exact (congrArg (· + _) (total_zero _)).trans (Int.zero_add _)

def oneTask : Surroundings :=
  ⟨fun _ => false, fun id => if id = "t" then some ⟨"t", "m", false, "synthesis", [], []⟩ else none,
    fun _ => some false, fun _ => false⟩

def trial : List Action := List.map (⟨oneTask, ·⟩) [
  .openAccount "budget:m" "mission" none "m" ⟨some 100, some 50, some 3, none, none, none⟩,
  .openAccount "budget:t" "task" (some "budget:m") "m" ⟨some 80, some 50, some 3, none, none, none⟩,
  .reserve "budget:t" "a" 30 10 true 0 none,
  .importUsage "a" "m" [⟨"u", 20, 5, some 7, false⟩],
  .settle "a" 0,
  .reserveTail "h" "budget:t" ⟨20, 5, 0, 1⟩ "m" "r" "synthesis",
  .transferTail "h" "x" [⟨"b", "budget:t", "synthesis", 8, 2, 0, true, by decide, by decide, rfl⟩] "r"]

def trialMission : Account :=
  ⟨"budget:m", "mission", none, "m", ⟨some 100, some 50, some 3, none, none, none⟩, ⟨20, 5, 0, 0⟩,
    ⟨25, 7, 0, 2⟩, 0, 7⟩

theorem accounts_reconcile_trial :
    total (·.held.at .tokens) ((Transitions.run Store.act Store.empty trial).rowsBelow .reserved
      "budget:m") = 20 :=
  ((accounts_reconcile trial trialMission (by decide +kernel)).1 .tokens (by decide)).1.symm

end Budgets
