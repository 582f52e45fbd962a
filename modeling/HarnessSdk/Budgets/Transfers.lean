import HarnessSdk.Budgets.Operations

/-! A transfer: what is checked before the hold is reduced is enough for every reservation after. -/
namespace Budgets
open PyDict PyText Checks Graph Tables Metered

def due (accounts : List Account) (id : String) (r : Resource) (allocations : List TailAllocation) :
    Int :=
  total (fun a => if id ∈ along accounts a.accountId then a.figures.at r else 0) allocations

theorem figures_nonneg (a : TailAllocation) (r : Resource) : 0 ≤ a.figures.at r := by
  cases r with
  | attempts =>
    simp only [TailAllocation.figures, Figures.at]
    split <;> decide
  | _ => exact Int.natCast_nonneg _

variable (accounts : List Account)

theorem due_nonneg (id : String) (r : Resource) (allocations : List TailAllocation) :
    0 ≤ due accounts id r allocations := by
  induction allocations with
  | nil => exact Int.le_refl 0
  | cons a rest ih =>
    have first := figures_nonneg a r
    unfold due at ih ⊢
    rw [total_cons]
    split <;> omega

theorem due_cons (id : String) (r : Resource) (a : TailAllocation) (rest : List TailAllocation) :
    due accounts id r (a :: rest) =
      (if id ∈ along accounts a.accountId then a.figures.at r else 0) + due accounts id r rest :=
  total_cons _ a rest

section
variable {s : Store}

theorem due_of_places {accounts accounts' : List Account} (tree : Tree accounts)
    (same : accounts.map Account.place = accounts'.map Account.place) (id : String) (r : Resource)
    (allocations : List TailAllocation) :
    due accounts' id r allocations = due accounts id r allocations := by
  induction allocations with
  | nil => rfl
  | cons a rest ih =>
    have reached : id ∈ along accounts' a.accountId ↔ id ∈ along accounts a.accountId := by
      rw [tree.mem_along, (tree.of_places same).mem_along, within_of_places same]
    rw [due_cons, due_cons, ih]
    by_cases inside : id ∈ along accounts a.accountId
    · rw [if_pos inside, if_pos (reached.mpr inside)]
    · rw [if_neg inside, if_neg fun there => inside (reached.mp there)]

/-! The net demands. -/

variable {snapshots : List Account} {around : Surroundings} {hold : TailHold} {origin : TaskFacts}
  {rules : Rules}

theorem get?_bump (figures : Figures) (deltas : Dict String Figures)
    (distinct : (snapshots.map Account.accountId).Nodup) (id : String) :
    get? (bump figures deltas snapshots) id =
      if id ∈ snapshots.map Account.accountId then some ((get? deltas id).getD 0 + figures)
      else get? deltas id := by
  induction snapshots generalizing deltas with
  | nil => rfl
  | cons first rest ih =>
    rw [List.map_cons, List.nodup_cons] at distinct
    have step : bump figures deltas (first :: rest) = bump figures (set deltas first.accountId
      ((get? deltas first.accountId).getD 0 + figures)) rest := rfl
    rw [step, ih _ distinct.2, List.map_cons]
    by_cases here : id = first.accountId
    · subst here
      rw [if_neg distinct.1, get?_set_self, if_pos List.mem_cons_self]
    · rw [get?_set_ne _ _ (Ne.symm here)]
      simp only [List.mem_cons, here, false_or]

/-- The allocations are fresh, and the net demands take each of them in. -/
structure Demanded (s : Store) (allocations : List TailAllocation)
    (deltas result : Dict String Figures) : Prop where
  amounts : ∀ id r, ((get? result id).getD 0).at r =
    ((get? deltas id).getD 0).at r + due s.accounts id r allocations
  listed : ∀ id, (get? deltas id).isSome ∨ (∃ a ∈ allocations, id ∈ along s.accounts a.accountId) →
    (get? result id).isSome
  fresh : ∀ a ∈ allocations, s.reservation a.subjectId = none
  known : ∀ a ∈ allocations, a.accountId ∈ s.ids

variable {a : TailAllocation} {deltas : Dict String Figures}

theorem atomic_checkDestination {α : Type} {post : α → Store → Prop} (sound : Sound s)
    {f : Unit → Work α}
    (rest : s.reservation a.subjectId = none → a.accountId ∈ s.ids → Atomic (f ()) s post) :
    Atomic (checkDestination around hold origin a >>= f) s post := by
  unfold checkDestination
  simp only [bind_assoc]
  apply atomic_view
  apply atomic_ensure
  intro fresh
  apply atomic_tailAccount sound
  intro target known
  apply atomic_ensure
  intro _
  apply atomic_ensure
  intro _
  exact rest fresh known

theorem atomic_netDemands {α : Type} {post : α → Store → Prop} (sound : Sound s)
    {allocations : List TailAllocation} {f : Dict String Figures → Work α}
    (rest : ∀ result, Demanded s allocations deltas result → Atomic (f result) s post) :
    Atomic (netDemands around hold origin allocations deltas >>= f) s post := by
  induction allocations generalizing deltas with
  | nil =>
    exact rest deltas ⟨fun id r => (Int.add_zero _).symm, fun id inside => by simpa using inside,
      by simp, by simp⟩
  | cons a later ih =>
    unfold netDemands
    simp only [bind_assoc]
    apply atomic_checkDestination sound
    intro fresh known
    apply atomic_chain sound
    intro snapshots found
    apply ih
    intro result demanded
    have chain : snapshots.map Account.accountId = along s.accounts a.accountId := by
      unfold along
      rw [found.ran]
    have bumped := fun id => get?_bump a.figures deltas found.distinct id
    rw [chain] at bumped
    apply rest
    constructor
    · intro id r
      rw [demanded.amounts, bumped, due_cons]
      split
      · rw [Option.getD_some, Figures.add_at]
        omega
      · omega
    · rintro id (old | ⟨b, inside, reached⟩)
      · apply demanded.listed id
        rw [bumped]
        split
        · exact Or.inl rfl
        · exact Or.inl old
      · rcases List.mem_cons.mp inside with rfl | inside
        · apply demanded.listed id
          rw [bumped, if_pos reached]
          exact Or.inl rfl
        · exact demanded.listed id (Or.inr ⟨b, inside, reached⟩)
    · exact List.forall_mem_cons.mpr ⟨fresh, demanded.fresh⟩
    · exact List.forall_mem_cons.mpr ⟨known, demanded.known⟩

/-! The preflight. -/

theorem account_ran (sound : Sound s) {a : Account} (inside : a ∈ s.accounts) :
    account a.accountId s = (.ok a, s) := by
  have found := (accountOf_eq_ok sound.tree.distinct a.accountId a).mpr ⟨inside, rfl⟩
  unfold account
  rw [bind_of_ran (rfl : view Store.accounts s = (.ok s.accounts, s)), found]
  rfl

theorem reads_account (accountId : String) : Reads (account accountId) :=
  Reads.bind (reads_view _) fun _ => reads_lift _

theorem atomic_preflight {α : Type} {post : α → Store → Prop} (sound : Sound s)
    {f : Unit → Work α}
    (rest : (∀ entry ∈ deltas, ∀ a ∈ s.accounts, a.accountId = entry.1 → ∀ r, a.Fits (r,
      entry.2.at r)) → Atomic (f ()) s post) : Atomic (preflight deltas >>= f) s post := by
  have reads : ∀ entry ∈ deltas, Reads (do
      let snapshot ← account entry.1
      resources.forM fun resource => checkRoom snapshot (resource, entry.2.at resource)) :=
    fun entry _ => Reads.bind (reads_account _) fun a => reads_forM _ fun r _ => reads_checkRoom a _
  apply atomic_bind (reads_forM deltas reads)
  intro _ ran
  apply rest
  rintro entry inside a ha same r
  have passed := (forM_passes reads).mp ran entry inside
  rw [← same, bind_of_ran (account_ran sound ha),
    forM_passes fun r _ => reads_checkRoom a _] at passed
  have listed : r ∈ resources := by
    cases r <;> simp [resources]
  exact (checkRoom_passes a _).mp (passed r listed)

/-! The reservations. -/

structure Prepared (s : Store) (allocations : List TailAllocation) : Prop where
  sound : Sound s
  fresh : ∀ a ∈ allocations, s.reservation a.subjectId = none
  known : ∀ a ∈ allocations, a.accountId ∈ s.ids
  distinct : (allocations.map TailAllocation.subjectId).Nodup
  room : ∀ account ∈ s.accounts, (∃ a ∈ allocations, account.accountId ∈ along s.accounts a.accountId) →
    ∀ r, account.Fits (r, due s.accounts account.accountId r allocations)

theorem demands_figures (a : TailAllocation) {demand : Resource × Int}
    (asked : demand ∈ demands a.tokens a.costMicros a.toolCalls a.countsAttempt) :
    demand.2 = a.figures.at demand.1 := by
  unfold demands at asked
  cases counts : a.countsAttempt <;>
    simp only [counts, List.mem_append, List.mem_cons, List.not_mem_nil, or_false, if_true,
      Bool.false_eq_true, if_false, or_assoc] at asked <;>
    rcases asked with rfl | rfl | rfl | rfl <;>
    simp [TailAllocation.figures, Figures.at, counts]

variable {subjectId : String} {rest : List TailAllocation}

theorem addRow_reservation {row : Reservation} (differ : row.subjectId ≠ subjectId)
    (fresh : s.reservation subjectId = none) : (s.addRow row).reservation subjectId = none := by
  unfold Store.reservation Store.addRow at *
  rw [List.find?_append, fresh]
  simp [differ]

theorem addRow_accounts (row : Reservation) : (s.addRow row).accounts = s.accounts := rfl

theorem fits_charge (amount : Int) {accountId : String} {deltas : Deltas} {r : Resource}
    {amount' : Int} {account : Account}
    (inside : account ∈ (s.charge accountId deltas).accounts)
    (less : amount' + (if account.accountId ∈ along s.accounts accountId then
      deltas.reserved.at r + deltas.charged.at r else 0) ≤ amount)
    (fits : ∀ old ∈ s.accounts, old.accountId = account.accountId → old.Fits (r, amount)) :
    account.Fits (r, amount') := by
  intro left remains
  obtain ⟨old, hold, written⟩ := mem_amend.mp inside
  obtain ⟨limit, limited, rfl⟩ := Account.remaining_eq_some.mp remains
  by_cases reached : old.accountId ∈ along s.accounts accountId
  · rw [if_pos reached] at written
    subst written
    have less' : amount' + (deltas.reserved.at r + deltas.charged.at r) ≤ amount := by
      rw [if_pos (show (old.add deltas).accountId ∈ _ from reached)] at less
      exact less
    have before := fits old hold rfl _ (Account.remaining_eq_some.mpr ⟨limit, limited, rfl⟩)
    simp only [Account.add, Figures.add_at]
    simp only at before
    omega
  · rw [if_neg reached] at written
    subst written
    rw [if_neg reached] at less
    have before := fits account hold rfl _ (Account.remaining_eq_some.mpr ⟨limit, limited, rfl⟩)
    simp only at before ⊢
    omega

theorem due_charge (sound : Sound s) (accountId : String) (deltas : Deltas) (id : String)
    (r : Resource) (allocations : List TailAllocation) :
    due (s.charge accountId deltas).accounts id r allocations = due s.accounts id r allocations :=
  due_of_places sound.tree (places_amend _ deltas s.accounts) id r allocations

theorem Prepared.step (prepared : Prepared s (a :: rest)) {mission : String} {t : Store}
    (wrote : t = (s.charge a.accountId ⟨⟨a.tokens, a.costMicros, a.toolCalls, 0⟩, ⟨0, 0, 0, if
      a.countsAttempt then 1 else 0⟩, 0⟩).addRow (reservedRow a.subjectId a.accountId mission
      a.tokens a.costMicros a.toolCalls)) (sound : Sound t) : Prepared t rest where
  sound := sound
  fresh := by
    intro b inside
    have apart : a.subjectId ≠ b.subjectId := by
      have distinct := prepared.distinct
      rw [List.map_cons, List.nodup_cons] at distinct
      exact fun same => distinct.1 (same ▸ List.mem_map_of_mem inside)
    rw [wrote]
    exact addRow_reservation apart (prepared.fresh b (List.mem_cons_of_mem a inside))
  known := by
    intro b inside
    have old := prepared.known b (List.mem_cons_of_mem a inside)
    rw [wrote]
    exact (charge_ids s _ _).symm ▸ old
  distinct := (List.nodup_cons.mp prepared.distinct).2
  room := by
    subst wrote
    rintro account inside ⟨b, hb, reached⟩ r
    have tree := prepared.sound.tree
    have figures : ∀ r, (⟨a.tokens, a.costMicros, a.toolCalls, 0⟩ : Figures).at r +
        (⟨0, 0, 0, if a.countsAttempt then 1 else 0⟩ : Figures).at r = a.figures.at r := by
      intro r
      cases r <;> simp [Figures.at, TailAllocation.figures]
    rw [addRow_accounts, due_charge prepared.sound]
    apply fits_charge (due s.accounts account.accountId r (a :: rest)) inside
    · rw [due_cons, figures]
      omega
    · intro old hold named
      rw [← named]
      refine prepared.room old hold ⟨b, List.mem_cons_of_mem a hb, ?_⟩ r
      rw [named, tree.mem_along]
      have reached' := (sound.tree.mem_along _ _).mp reached
      exact (charge_within s _ _ _ _).mp reached'

def Store.grant (store : Store) (missionId : String) (a : TailAllocation) : Store :=
  (store.charge a.accountId ⟨⟨a.tokens, a.costMicros, a.toolCalls, 0⟩,
    ⟨0, 0, 0, if a.countsAttempt then 1 else 0⟩, 0⟩).addRow
      (reservedRow a.subjectId a.accountId missionId a.tokens a.costMicros a.toolCalls)

def Store.grantAll (store : Store) (missionId : String) (allocations : List TailAllocation) :
    Store :=
  allocations.foldl (fun store a => store.grant missionId a) store

section
variable (prepared : Prepared s (a :: rest))
include prepared

theorem Prepared.first : ∀ account ∈ s.accounts,
      Within s.accounts account.accountId a.accountId →
      ∀ demand ∈ demands a.tokens a.costMicros a.toolCalls a.countsAttempt,
        account.Fits demand := by
  intro account inside within demand asked left remains
  have reached := (prepared.sound.tree.mem_along a.accountId account.accountId).mpr within
  have all := prepared.room account inside ⟨a, List.mem_cons_self, reached⟩ demand.1 left remains
  have later := due_nonneg s.accounts account.accountId demand.1 rest
  simp only [due_cons, if_pos reached] at all
  rw [demands_figures a asked]
  omega

theorem Prepared.grant (missionId : String) :
    Change rules s (s.grant missionId a) := by
  obtain ⟨_, found⟩ := prepared.sound.chain (prepared.known a List.mem_cons_self)
  exact reserve_changes missionId found (prepared.fresh a List.mem_cons_self) prepared.first

theorem Prepared.later (missionId : String) :
    Prepared (s.grant missionId a) rest := by
  have change : Change ⟨fun _ => True, fun _ => True⟩ s (s.grant missionId a) :=
    prepared.grant missionId
  exact prepared.step rfl (change.sound prepared.sound)

end

variable (missionId : String)

theorem reserveAllocations_ran {allocations : List TailAllocation}
    (prepared : Prepared s allocations) :
    reserveAllocations missionId allocations s =
      (.ok (allocations.map fun a => "reservation-" ++ a.subjectId),
        s.grantAll missionId allocations) := by
  induction allocations generalizing s with
  | nil => rfl
  | cons a rest ih =>
    obtain ⟨snapshots, found⟩ := prepared.sound.chain (prepared.known a List.mem_cons_self)
    have fresh := prepared.fresh a List.mem_cons_self
    have first : reserve a.accountId a.subjectId a.tokens a.costMicros a.countsAttempt a.toolCalls
        (some missionId) s = (.ok ("reservation-" ++ a.subjectId), s.grant missionId a) :=
      reserve_fresh found fresh prepared.first
    unfold reserveAllocations
    rw [bind_of_ran first, bind_of_ran (ih (prepared.later missionId))]
    rfl

theorem grantAll_changes {allocations : List TailAllocation} (prepared : Prepared s allocations) :
    Changes rules s (s.grantAll missionId allocations) := by
  induction allocations generalizing s with
  | nil => exact .refl
  | cons a rest ih => exact (ih (prepared.later missionId)).head (prepared.grant missionId)

/-! The transfer. -/

variable (allocations : List TailAllocation)

theorem totals_at (r : Resource) :
    (totals allocations).at r = total (fun a => a.figures.at r) allocations := by
  cases r <;> rfl

theorem totals_nonneg (r : Resource) : 0 ≤ (totals allocations).at r := by
  rw [totals_at]
  induction allocations with
  | nil => exact Int.le_refl 0
  | cons a rest ih =>
    have first := figures_nonneg a r
    rw [total_cons]
    omega

theorem amendRow_reservation {f : Reservation → Reservation}
    (keeps : ∀ row, (f row).subjectId = row.subjectId) {other : String}
    (fresh : s.reservation other = none) : (s.amendRow subjectId f).reservation other = none := by
  have none_of := reservation_eq_none fresh
  unfold Store.reservation
  rw [List.find?_eq_none]
  intro row inside
  obtain ⟨old, hold, rfl⟩ := mem_amend.mp inside
  have differ := none_of old hold
  split
  · rw [keeps]
    simpa using differ
  · simpa using differ

/-- The hold is reduced; the account rows are those after the deltas. -/
def deductedStore (s : Store) (hold : TailHold) (amounts : Figures) : Store :=
  ((s.charge hold.accountId ⟨-amounts, 0, 0⟩).amendTail hold.holdId
    fun h => { h with remainingAttempts := h.remainingAttempts - amounts.attempts }).amendRow
      hold.subjectId (·.gain (-amounts))

theorem prepared_of_preflight {allocations : List TailAllocation} {amounts : Figures}
    {result : Dict String Figures} (sound : Sound s)
    (sound' : Sound (deductedStore s hold amounts)) (found : ChainOf s hold.accountId snapshots)
    (demanded : Demanded s allocations (bump (-amounts) [] snapshots) result)
    (distinct : (allocations.map TailAllocation.subjectId).Nodup)
    (fits : ∀ entry ∈ result, ∀ a ∈ s.accounts, a.accountId = entry.1 → ∀ r, a.Fits (r, entry.2.at
      r)) : Prepared (deductedStore s hold amounts) allocations where
  sound := sound'
  fresh := by
    intro a inside
    unfold deductedStore
    apply amendRow_reservation
    · exact fun _ => rfl
    · exact demanded.fresh a inside
  known := fun a inside => (charge_ids s _ _).symm ▸ demanded.known a inside
  distinct := distinct
  room := by
    rintro account inside ⟨b, hb, reached⟩ r
    have chain : snapshots.map Account.accountId = along s.accounts hold.accountId := by
      unfold along
      rw [found.ran]
    have start := get?_bump (-amounts) [] found.distinct account.accountId
    rw [chain, get?_nil, Option.getD_none] at start
    have reached' : account.accountId ∈ along s.accounts b.accountId := by
      rw [sound.tree.mem_along]
      exact (charge_within s _ _ _ _).mp ((sound'.tree.mem_along _ _).mp reached)
    obtain ⟨net, named⟩ := Option.isSome_iff_exists.mp
      (demanded.listed account.accountId (Or.inr ⟨b, hb, reached'⟩))
    have net_at := demanded.amounts account.accountId r
    rw [named, start, Option.getD_some] at net_at
    change account.Fits (r, due (s.charge hold.accountId _).accounts _ r allocations)
    rw [due_charge sound]
    apply fits_charge (net.at r) inside
    · rw [net_at]
      split
      · simp only [Option.getD_some, Figures.add_at, Figures.neg_at, Figures.zero_at]
        omega
      · simp
    · intro old hold' same
      exact fits _ (mem_of_get?_eq_some named) old hold' same r

def Store.transfer? (store : Store) (holdId transferId : String) : Option TailTransfer :=
  store.transfers.find? fun t => t.holdId == holdId && t.transferId == transferId

def Store.record (store : Store) (transfer : TailTransfer) : Store :=
  { store with transfers := store.transfers ++ [transfer] }

inductive Moved (s : Store) (request : TransferRequest) (receipt : TransferReceipt) :
    Store → Prop
  | replayed {transfer : TailTransfer} :
      s.transfer? request.holdId request.transferId = some transfer →
      transfer.request = request → transfer.receipt = receipt → Moved s request receipt s
  | made {hold : TailHold} {row : Reservation} :
      s.transfer? request.holdId request.transferId = none → hold ∈ s.holds →
      hold.holdId = request.holdId → hold.state = .held → row ∈ s.reservations →
      row.state = .reserved → row.subjectId = hold.subjectId →
      (totals request.allocations).attempts ≤ hold.remainingAttempts →
      (∀ a ∈ request.allocations, s.reservation a.subjectId = none) →
      Prepared (deductedStore s hold (totals request.allocations)) request.allocations →
      receipt = ⟨request, request.allocations.map fun a => "reservation-" ++ a.subjectId⟩ →
      Moved s request receipt (((deductedStore s hold (totals request.allocations)).grantAll
        hold.missionId request.allocations).record
          ⟨request.holdId, request.transferId, request, receipt⟩)

theorem Moved.changes {request : TransferRequest} {receipt : TransferReceipt} {t : Store}
    (moved : Moved s request receipt t) : Changes rules s t := by
  cases moved with
  | replayed => exact .refl
  | @made hold row _ inside _ held hrow live subject enough _ prepared _ =>
    have deducted : Change rules s (deductedStore s hold (totals request.allocations)) := by
      rw [deductedStore, ← subject]
      exact .deducted inside held hrow live subject (totals_nonneg _) enough
    exact (Relation.ReflTransGen.head deducted (grantAll_changes _ prepared)).tail (.recorded _)

theorem transferTail_moves (sound : Sound s) (around : Surroundings)
    (holdId transferId : String) (allocations : List TailAllocation) (taskRevision : String) :
    Atomic (transferTail around holdId transferId allocations taskRevision) s
      (Moved s ⟨holdId, transferId, taskRevision,
        sortedBy TailAllocation.subjectId allocations⟩) := by
  unfold transferTail
  simp only
  apply atomic_tailText
  apply atomic_ensure
  rintro ⟨_, distinct⟩
  apply atomic_view
  cases recorded : s.transfers.find? fun t => t.holdId == holdId && t.transferId == transferId with
  | some transfer =>
    apply atomic_ensure
    intro same
    exact atomic_pure (.replayed recorded same rfl)
  | none =>
    simp only
    apply atomic_view
    apply atomic_orStop
    intro hold found
    obtain ⟨inside, named⟩ := hold_eq_some found
    apply atomic_ensure
    rintro ⟨held, _⟩
    apply atomic_tailAccount sound
    intro origin known
    apply atomic_live
    intro row hrow subject live
    apply atomic_view
    apply atomic_view
    apply atomic_ensure
    intro _
    apply atomic_ensure
    intro attempts
    apply atomic_bind (reads_forM _ fun r _ => reads_ensure _ _)
    intro _ _
    apply atomic_chain sound
    intro snapshots chain
    apply atomic_netDemands sound
    intro result demanded
    apply atomic_preflight sound
    intro fits
    subst named
    let ordered := sortedBy TailAllocation.subjectId allocations
    have change : Change ⟨fun _ => True, fun _ => True⟩ s
        (deductedStore s hold (totals ordered)) := by
      rw [deductedStore, ← subject]
      exact .deducted inside held hrow live subject (totals_nonneg ordered) attempts
    have prepared := prepared_of_preflight sound (change.sound sound) chain demanded
      ((perm_sortedBy _ _).map _ |>.nodup_iff.mpr distinct) fits
    have deduct : amendReservation hold.subjectId (fun r => { r with
        reservedTokens := r.reservedTokens - (totals ordered).tokens
        reservedCostMicros := r.reservedCostMicros - (totals ordered).costMicros
        reservedToolCalls := r.reservedToolCalls - (totals ordered).toolCalls })
        ((s.charge hold.accountId ⟨-totals ordered, 0, 0⟩).amendTail hold.holdId fun h => { h with
          remainingAttempts := h.remainingAttempts - (totals ordered).attempts }) =
        (.ok (), deductedStore s hold (totals ordered)) := by
      apply amendReservation_ran
      intro r _ _
      change _ = Reservation.mk _ _ _ _ _ (r.reservedTokens + -_) (r.reservedCostMicros + -_)
        (r.reservedToolCalls + -_) _ _ _ _
      rw [← Int.sub_eq_add_neg, ← Int.sub_eq_add_neg, ← Int.sub_eq_add_neg]
    apply Ends.atomic
    apply ends_after (chain.applied _)
    apply ends_after rfl
    apply ends_after deduct
    apply ends_after (reserveAllocations_ran hold.missionId prepared)
    apply ends_after rfl
    exact ends_pure (.made recorded inside rfl held hrow live subject attempts demanded.fresh
      prepared rfl)

theorem transferTail_atomic (sound : Sound s) (around : Surroundings) (holdId transferId : String)
    (allocations : List TailAllocation) (taskRevision : String) :
    Atomic (transferTail around holdId transferId allocations taskRevision) s
      fun _ t => Changes rules s t :=
  (transferTail_moves sound around holdId transferId allocations taskRevision).mono
    fun _ _ => Moved.changes

end
end Budgets
