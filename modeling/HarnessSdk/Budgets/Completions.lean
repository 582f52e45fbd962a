import HarnessSdk.Budgets.Leaving

/-! What a transfer leaves when it completes, and that repeating it is harmless ever after. -/
namespace Budgets
open PyDict PyText Checks Graph Tables Metered

section
variable {s : Store}

/-! The reservations. -/

variable {subjectId : String} {allocations : List TailAllocation} {request : TransferRequest}
  {receipt : TransferReceipt} (missionId : String)

theorem addRow_keeps {row found : Reservation} (there : s.reservation subjectId = some found) :
    (s.addRow row).reservation subjectId = some found := by
  unfold Store.reservation Store.addRow at *
  rw [List.find?_append, there, Option.some_or]

theorem grantAll_keeps {found : Reservation} (there : s.reservation subjectId = some found) :
    (s.grantAll missionId allocations).reservation subjectId = some found := by
  induction allocations generalizing s with
  | nil => exact there
  | cons a rest ih => exact ih (addRow_keeps there)

theorem grant_row {a : TailAllocation} (fresh : s.reservation a.subjectId = none) :
    (s.grant missionId a).reservation a.subjectId =
      some (reservedRow a.subjectId a.accountId missionId a.tokens a.costMicros a.toolCalls) := by
  unfold Store.reservation at fresh
  unfold Store.grant Store.reservation Store.addRow
  simp only
  rw [List.find?_append, Store.charge, fresh, Option.none_or]
  simp [reservedRow]

theorem grantAll_row (prepared : Prepared s allocations) : ∀ a ∈ allocations,
      (s.grantAll missionId allocations).reservation a.subjectId = some
        (reservedRow a.subjectId a.accountId missionId a.tokens a.costMicros a.toolCalls) := by
  induction allocations generalizing s with
  | nil => simp
  | cons first rest ih =>
    intro a inside
    rcases List.mem_cons.mp inside with rfl | later
    · have there := grant_row missionId (prepared.fresh a List.mem_cons_self)
      change ((s.grant missionId a).grantAll missionId rest).reservation _ = _
      exact grantAll_keeps missionId there
    · exact ih (prepared.later missionId) a later

/-! The accounts. -/

structure Became (before after : Account) (held charged : Figures) : Prop where
  same : after.accountId = before.accountId
  limits : after.limits = before.limits
  held : ∀ r, after.reserved.at r = before.reserved.at r + held.at r
  charged : ∀ r, after.charged.at r = before.charged.at r + charged.at r

theorem charge_became (accountId : String) (deltas : Deltas) {a : Account} (inside : a ∈ s.accounts) :
    ∃ a' ∈ (s.charge accountId deltas).accounts, Became a a'
      (if a.accountId ∈ along s.accounts accountId then deltas.reserved else 0)
      (if a.accountId ∈ along s.accounts accountId then deltas.charged else 0) := by
  refine ⟨_, mem_amend.mpr ⟨a, inside, rfl⟩, ?_⟩
  by_cases reached : a.accountId ∈ along s.accounts accountId
  · simp only [reached, if_true]
    exact ⟨rfl, rfl, fun r => Figures.add_at .., fun r => Figures.add_at ..⟩
  · simp only [reached, if_false]
    exact ⟨rfl, rfl, fun r => by simp, fun r => by simp⟩

def TailAllocation.holds (a : TailAllocation) : Figures := ⟨a.tokens, a.costMicros, a.toolCalls, 0⟩

def TailAllocation.charges (a : TailAllocation) : Figures :=
  ⟨0, 0, 0, if a.countsAttempt then 1 else 0⟩

theorem grantAll_became (sound : Sound s) (prepared : Prepared s allocations) {a : Account}
    (inside : a ∈ s.accounts)
    (common : ∀ allocation ∈ allocations, a.accountId ∈ along s.accounts allocation.accountId) :
    ∃ a' ∈ (s.grantAll missionId allocations).accounts, a'.accountId = a.accountId ∧
      (∀ r, a'.reserved.at r = a.reserved.at r + total (·.holds.at r) allocations) ∧
      ∀ r, a'.charged.at r = a.charged.at r + total (·.charges.at r) allocations := by
  induction allocations generalizing s a with
  | nil => exact ⟨a, inside, rfl, fun r => by simp, fun r => by simp⟩
  | cons first rest ih =>
    have reached := common first List.mem_cons_self
    obtain ⟨a', there, became⟩ := charge_became first.accountId
      ⟨first.holds, first.charges, 0⟩ inside
    rw [if_pos reached, if_pos reached] at became
    have later := prepared.later missionId
    have moved : ∀ allocation ∈ rest,
        a'.accountId ∈ along (s.grant missionId first).accounts allocation.accountId := by
      intro allocation next
      rw [later.sound.tree.mem_along, became.same]
      exact (charge_within s _ _ _ _).mpr ((sound.tree.mem_along _ _).mp
        (common allocation (List.mem_cons_of_mem _ next)))
    obtain ⟨final, last, named, held, charged⟩ := ih later.sound later there moved
    refine ⟨final, last, named.trans became.same, ?_, ?_⟩
    · intro r
      rw [held, became.held, total_cons, Int.add_assoc]
    · intro r
      rw [charged, became.charged, total_cons, Int.add_assoc]

theorem figures_split (allocations : List TailAllocation) (r : Resource) :
    (totals allocations).at r =
      total (·.holds.at r) allocations + total (·.charges.at r) allocations := by
  rw [totals_at]
  induction allocations with
  | nil => rfl
  | cons a rest ih =>
    rw [total_cons, total_cons, total_cons, ih]
    cases r <;> simp [TailAllocation.figures, TailAllocation.holds, TailAllocation.charges,
      Figures.at] <;> omega

/-! Replays. -/

theorem still_transfers : Still Store.transfers := fun _ _ _ _ => rfl

def Remembers (s t : Store) : Prop :=
  ∀ holdId transferId transfer, s.transfer? holdId transferId = some transfer →
    t.transfer? holdId transferId = some transfer

variable {t : Store}

theorem remembers_of_transfers (same : t.transfers = s.transfers) : Remembers s t := by
  intro holdId transferId transfer found
  unfold Store.transfer? at *
  rw [same]
  exact found

theorem Moved.remembers (moved : Moved s request receipt t) : Remembers s t := by
  cases moved with
  | replayed => exact fun _ _ _ found => found
  | made =>
    intro holdId transferId transfer found
    unfold Store.transfer? Store.record at *
    rw [grantAll_leaves still_transfers, List.find?_append]
    exact Option.or_eq_some_iff.mpr (Or.inl found)

theorem leaves_importUsage (subjectId missionId : String) (facts : List UsageFact) :
    Leaves Store.transfers (importUsage subjectId missionId facts) := by
  unfold importUsage
  apply (reads_view _).leaves.bind
  intro imported
  exact Leaves.bind (leaves_write fun _ => rfl) fun _ => (reads_pure _).leaves

theorem remembers_result {α : Type} {x : Work α} (remembers : Remembers s (x s).2) :
    Remembers s ((x >>= fun _ => pure ()) s).2 := by
  cases ran : x s with
  | mk outcome t =>
    rw [ran] at remembers
    cases outcome with
    | ok a =>
      rw [bind_of_ran ran]
      exact remembers
    | error e =>
      rw [bind_of_stopped ran]
      exact remembers

theorem transferTail_remembers (sound : Sound s) (around : Surroundings)
    (holdId transferId : String) (allocations : List TailAllocation) (taskRevision : String) :
    Remembers s (transferTail around holdId transferId allocations taskRevision s).2 :=
  (transferTail_moves sound around holdId transferId allocations taskRevision).after (Remembers s)
    (fun _ _ _ found => found) fun _ _ => Moved.remembers

theorem perform_remembers (sound : Sound s) (around : Surroundings) (operation : Operation) :
    Remembers s (perform around operation s).2 := by
  cases kind : operation with
  | transferTail =>
    rw [perform]
    exact remembers_result (transferTail_remembers sound _ _ _ _ _)
  | importUsage =>
    rw [perform]
    exact remembers_result (remembers_of_transfers (leaves_importUsage _ _ _ s))
  | _ =>
    apply remembers_of_transfers
    apply perform_leaves still_transfers
    exact trivial

theorem run_remembers (sound : Sound s) (balanced : Balanced s) (actions : List Action) :
    Remembers s (Transitions.run Store.act s actions) := by
  induction actions generalizing s with
  | nil => exact fun _ _ _ found => found
  | cons action rest ih =>
    obtain ⟨sound', balanced'⟩ := act_keeps s action ⟨sound, balanced⟩
    intro holdId transferId transfer found
    apply ih sound' balanced'
    exact perform_remembers sound action.around action.operation holdId transferId transfer found

theorem Moved.recorded (moved : Moved s request receipt t) : ∃ transfer,
      t.transfer? request.holdId request.transferId = some transfer ∧
      transfer.request = request ∧ transfer.receipt = receipt := by
  cases moved with
  | replayed found same given => exact ⟨_, found, same, given⟩
  | @made hold row fresh =>
    refine ⟨⟨request.holdId, request.transferId, request, receipt⟩, ?_, rfl, rfl⟩
    unfold Store.transfer? Store.record at *
    rw [grantAll_leaves still_transfers, List.find?_append, deductedStore]
    change (s.transfers.find? _).or _ = _
    rw [fresh]
    simp

def Called (transferId : String) (allocations : List TailAllocation) : Prop :=
  strip transferId ≠ "" ∧ allocations ≠ [] ∧ (allocations.map TailAllocation.subjectId).Nodup

theorem called_of_ran {around : Surroundings} {holdId transferId taskRevision : String}
    (ran : transferTail around holdId transferId allocations taskRevision s = (.ok receipt, t)) :
    Called transferId allocations := by
  unfold transferTail at ran
  by_cases named : strip transferId ≠ ""
  · have first : tailText transferId "transfer identity" s = (.ok (), s) := if_pos named
    rw [bind_of_ran first] at ran
    by_cases apart : allocations ≠ [] ∧ (allocations.map TailAllocation.subjectId).Nodup
    · exact ⟨named, apart⟩
    · have second : (ensure (allocations ≠ [] ∧ (allocations.map TailAllocation.subjectId).Nodup)
          (refuse "tail transfer requires distinct actual subjects") : Work Unit) s =
          (.error (refuse "tail transfer requires distinct actual subjects"), s) := if_neg apart
      rw [bind_of_stopped second] at ran
      cases ran
  · have first : tailText transferId "transfer identity" s =
        (.error (refuse ("tail " ++ "transfer identity" ++ " must be nonempty")), s) := if_neg named
    rw [bind_of_stopped first] at ran
    cases ran

theorem transferTail_replays {around : Surroundings} {holdId transferId taskRevision : String}
    (called : Called transferId allocations) {transfer : TailTransfer}
    (found : s.transfer? holdId transferId = some transfer)
    (same : transfer.request = ⟨holdId, transferId, taskRevision, sortedBy
      TailAllocation.subjectId allocations⟩) :
    transferTail around holdId transferId allocations taskRevision s =
      (.ok transfer.receipt, s) := by
  obtain ⟨named, apart⟩ := called
  have first : tailText transferId "transfer identity" s = (.ok (), s) := if_pos named
  have second : (ensure (allocations ≠ [] ∧ (allocations.map TailAllocation.subjectId).Nodup)
      (refuse "tail transfer requires distinct actual subjects") : Work Unit) s = (.ok (), s) :=
    if_pos apart
  have third : (view fun store : Store => store.transfers.find? fun t =>
      t.holdId == holdId && t.transferId == transferId : Work (Option TailTransfer)) s =
      (.ok (some transfer), s) := congrArg (fun x => (Except.ok x, s)) found
  unfold transferTail
  rw [bind_of_ran first, bind_of_ran second]
  simp only
  rw [bind_of_ran third]
  simp only
  have fourth : (ensure (transfer.request = ⟨holdId, transferId, taskRevision,
      sortedBy TailAllocation.subjectId allocations⟩)
      (refuse "tail transfer replay changed allocations") : Work Unit) s = (.ok (), s) :=
    if_pos same
  rw [bind_of_ran fourth]
  rfl

/-! A completed transfer, and its repetition. -/

structure Completed (s : Store) (request : TransferRequest) (receipt : TransferReceipt)
    (t : Store) : Prop where
  named : receipt = ⟨request, request.allocations.map fun a => "reservation-" ++ a.subjectId⟩
  fresh : ∀ a ∈ request.allocations, s.reservation a.subjectId = none
  destinations : ∀ a ∈ request.allocations, ∃ row, t.reservation a.subjectId = some row ∧
    row.accountId = a.accountId ∧ row.state = .reserved ∧ row.held = a.holds
  ancestors : ∀ hold, s.hold request.holdId = some hold → ∀ account ∈ s.accounts,
    account.accountId ∈ along s.accounts hold.accountId →
    (∀ a ∈ request.allocations, account.accountId ∈ along s.accounts a.accountId) →
    ∃ after ∈ t.accounts, after.accountId = account.accountId ∧
      (∀ r, r ≠ .attempts → after.reserved.at r = account.reserved.at r) ∧
      ∀ r, after.reserved.at r + after.charged.at r = account.reserved.at r + account.charged.at r

theorem charges_only_attempts (allocations : List TailAllocation) {r : Resource}
    (other : r ≠ .attempts) : total (·.charges.at r) allocations = 0 := by
  induction allocations with
  | nil => rfl
  | cons a rest ih =>
    rw [total_cons, ih]
    cases r with
    | attempts => exact absurd rfl other
    | _ => rfl

theorem Moved.completed (sound : Sound s) (moved : Moved s request receipt t) :
    (t = s ∧ ∃ transfer, s.transfer? request.holdId request.transferId = some transfer ∧
      transfer.request = request ∧ transfer.receipt = receipt) ∨ Completed s request receipt t := by
  cases moved with
  | replayed found same given => exact Or.inl ⟨rfl, _, found, same, given⟩
  | @made hold row _ inside key _ _ _ _ _ fresh prepared given =>
    right
    constructor
    · exact given
    · exact fresh
    · intro a listed
      exact ⟨_, grantAll_row hold.missionId prepared a listed, rfl, rfl, rfl⟩
    · intro hold' found account known reached common
      obtain ⟨inside', key'⟩ := hold_eq_some found
      have only : hold' = hold :=
        List.inj_on_of_nodup_map sound.holds inside' inside (key'.trans key.symm)
      subst only
      obtain ⟨middle, there, became⟩ := charge_became hold'.accountId
        ⟨-totals request.allocations, 0, 0⟩ known
      rw [if_pos reached, if_pos reached] at became
      have moved : ∀ a ∈ request.allocations, middle.accountId ∈ along
          (deductedStore s hold' (totals request.allocations)).accounts a.accountId := by
        intro a listed
        rw [prepared.sound.tree.mem_along, became.same]
        exact (charge_within s _ _ _ _).mpr ((sound.tree.mem_along _ _).mp (common a listed))
      obtain ⟨after, last, same, held, charged⟩ :=
        grantAll_became hold'.missionId prepared.sound prepared there moved
      have balance := figures_split request.allocations
      refine ⟨after, last, same.trans became.same, ?_, ?_⟩
      · intro r other
        have none := charges_only_attempts request.allocations other
        have split := balance r
        rw [held, became.held, Figures.neg_at]
        omega
      · intro r
        have split := balance r
        have kept := became.charged r
        rw [Figures.zero_at] at kept
        rw [held, charged, became.held, Figures.neg_at, kept]
        omega

end

end Budgets
