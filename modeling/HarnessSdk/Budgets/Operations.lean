import HarnessSdk.Budgets.Writes

/-! What each operation does: it is stopped before its first write, or its changes are made. -/
namespace Budgets
open PyDict PyText Checks Graph Tables Metered

section
variable {s : Store} {α : Type} {post : α → Store → Prop}

variable {subjectId : String}

theorem reservation_eq_some {row : Reservation} (found : s.reservation subjectId = some row) :
    row ∈ s.reservations ∧ row.subjectId = subjectId :=
  ⟨List.mem_of_find?_eq_some found, by simpa using List.find?_some found⟩

theorem reservation_eq_none (found : s.reservation subjectId = none) :
    ∀ old ∈ s.reservations, old.subjectId ≠ subjectId := by
  intro old inside same
  have here := List.find?_eq_none.mp found old inside
  simp [same] at here

variable {holdId : String}

theorem hold_eq_some {hold : TailHold} (found : s.hold holdId = some hold) :
    hold ∈ s.holds ∧ hold.holdId = holdId :=
  ⟨List.mem_of_find?_eq_some found, by simpa using List.find?_some found⟩

theorem hold_eq_none (found : s.hold holdId = none) : ∀ old ∈ s.holds, old.holdId ≠ holdId := by
  intro old inside same
  have here := List.find?_eq_none.mp found old inside
  simp [same] at here

/-! Reading a chain, and writing along it. -/

/-- The snapshots are the account and its ancestors as they are now. -/
structure ChainOf (s : Store) (accountId : String) (snapshots : List Account) : Prop where
  ran : chainOf s.accounts accountId = .ok snapshots
  known : accountId ∈ s.ids
  current : ∀ a ∈ snapshots, a ∈ s.accounts
  distinct : (snapshots.map Account.accountId).Nodup
  members : ∀ a ∈ s.accounts, a ∈ snapshots ↔ Within s.accounts a.accountId accountId

variable {accountId : String}

theorem Sound.chain (sound : Sound s) (known : accountId ∈ s.ids) :
    ∃ snapshots, ChainOf s accountId snapshots := by
  rcases sound.tree.chainOf_spec accountId with ⟨snapshots, ran, current, distinct, members⟩ | ⟨no, _⟩
  · refine ⟨snapshots, ran, known, current, distinct, fun a inside => ?_⟩
    rw [← members]
    refine ⟨List.mem_map_of_mem, fun listed => ?_⟩
    obtain ⟨b, hb, same⟩ := List.mem_map.mp listed
    exact List.inj_on_of_nodup_map sound.tree.distinct (current b hb) inside same ▸ hb
  · exact absurd known no

variable {snapshots : List Account}

theorem known_of_chainOf (sound : Sound s) (ran : chainOf s.accounts accountId = .ok snapshots) :
    accountId ∈ s.ids := by
  unfold chainOf at ran
  cases size : s.accounts.length with
  | zero =>
    rw [size, chainFrom] at ran
    cases ran
  | succ fuel =>
    rw [size, chainFrom, bind_eq_ok] at ran
    obtain ⟨account, found, _⟩ := ran
    obtain ⟨inside, rfl⟩ := (accountOf_eq_ok sound.tree.distinct accountId account).mp found
    exact List.mem_map_of_mem inside

theorem Sound.chain_of_ok (sound : Sound s) (ran : chainOf s.accounts accountId = .ok snapshots) :
    ChainOf s accountId snapshots := by
  obtain ⟨chain, found⟩ := sound.chain (known_of_chainOf sound ran)
  have same := found.ran
  rw [ran, Except.ok.injEq] at same
  exact same ▸ found

theorem atomic_chain (sound : Sound s) {f : List Account → Work α}
    (rest : ∀ snapshots, ChainOf s accountId snapshots → Atomic (f snapshots) s post) :
    Atomic (chain accountId >>= f) s post := by
  unfold chain
  rw [bind_assoc]
  apply atomic_view
  apply atomic_lift
  intro snapshots ran
  exact rest snapshots (sound.chain_of_ok ran)

theorem ChainOf.ends (found : ChainOf s accountId snapshots) :
    chain accountId s = (.ok snapshots, s) := by
  unfold chain
  rw [bind_of_ran (rfl : view Store.accounts s = (.ok s.accounts, s)), lift, found.ran]

theorem applyDeltas_ran (deltas : Deltas) (known : accountId ∈ s.ids) :
    applyDeltas deltas accountId s = (.ok (), { s with
      accounts := amend (·.accountId = accountId) (·.add deltas) s.accounts }) := by
  obtain ⟨a, inside, rfl⟩ := List.mem_map.mp known
  have there : s.accounts.any (·.accountId == a.accountId) = true :=
    List.any_eq_true.mpr ⟨a, inside, beq_self_eq_true _⟩
  unfold applyDeltas
  rw [bind_of_ran (rfl : view _ s = (.ok (s.accounts.any _), s)), there]
  rfl

theorem applyAlong_ran (deltas : Deltas) (distinct : (snapshots.map Account.accountId).Nodup)
    (known : ∀ a ∈ snapshots, a.accountId ∈ s.ids) :
    applyAlong deltas snapshots s = (.ok (), { s with
      accounts := amend (·.accountId ∈ snapshots.map Account.accountId) (·.add deltas)
        s.accounts }) := by
  induction snapshots generalizing s with
  | nil =>
    have nothing : amend (·.accountId ∈ ([] : List Account).map Account.accountId) (·.add deltas)
        s.accounts = s.accounts := by
      simp [amend]
    rw [nothing]
    rfl
  | cons first rest ih =>
    rw [List.map_cons, List.nodup_cons] at distinct
    change (applyDeltas deltas first.accountId >>= fun _ => applyAlong deltas rest) s = _
    rw [bind_of_ran (applyDeltas_ran deltas (known first List.mem_cons_self)), ih distinct.2]
    · have once : amend (·.accountId ∈ rest.map Account.accountId) (·.add deltas)
          (amend (·.accountId = first.accountId) (·.add deltas) s.accounts) =
          amend (·.accountId ∈ (first :: rest).map Account.accountId) (·.add deltas)
            s.accounts := by
        rw [amend_amend]
        · apply amend_congr
          intro a _
          rw [List.map_cons, List.mem_cons]
        · intro a _ here later
          exact distinct.1 (here ▸ later)
      rw [← once]
    · intro a inside
      have there := known a (List.mem_cons_of_mem first inside)
      unfold Store.ids at there ⊢
      rw [ids_of_places (places_amend _ deltas s.accounts)]
      exact there

theorem ChainOf.applied (found : ChainOf s accountId snapshots) (deltas : Deltas) :
    applyAlong deltas snapshots s = (.ok (), s.charge accountId deltas) := by
  rw [applyAlong_ran deltas found.distinct fun a inside =>
    List.mem_map_of_mem (found.current a inside)]
  unfold Store.charge along
  rw [found.ran]

/-! Checks of room. -/

def Account.Fits (a : Account) (demand : Resource × Int) : Prop :=
  ∀ left, a.remaining demand.1 = some left → demand.2 ≤ left

theorem reads_checkRoom (a : Account) (demand : Resource × Int) : Reads (checkRoom a demand) := by
  unfold checkRoom
  split
  · exact reads_pure ()
  · exact reads_ensure _ _

theorem checkRoom_passes (a : Account) (demand : Resource × Int) :
    checkRoom a demand s = (.ok (), s) ↔ a.Fits demand := by
  unfold checkRoom Account.Fits
  cases left : a.remaining demand.1 with
  | none => exact iff_of_true rfl (by simp)
  | some room =>
    unfold ensure
    by_cases fits : demand.2 ≤ room <;> simp [fits]

theorem checkRooms_passes (a : Account) (wanted : List (Resource × Int)) :
    wanted.forM (checkRoom a) s = (.ok (), s) ↔ ∀ demand ∈ wanted, a.Fits demand := by
  rw [forM_passes fun demand _ => reads_checkRoom a demand]
  simp only [checkRoom_passes]

variable {f : Unit → Work α}

theorem atomic_each {check : Account → Work Unit} (found : ChainOf s accountId snapshots)
    (reads : ∀ a, Reads (check a))
    (rest : (∀ a ∈ s.accounts, Within s.accounts a.accountId accountId → check a s = (.ok (), s))
      → Atomic (f ()) s post) : Atomic (snapshots.forM check >>= f) s post := by
  apply atomic_bind (reads_forM snapshots fun a _ => reads a)
  intro _ ran
  apply rest
  intro a inside within
  rw [forM_passes fun a _ => reads a] at ran
  exact ran a ((found.members a inside).mpr within)

variable {wanted : List (Resource × Int)}

theorem atomic_rooms (found : ChainOf s accountId snapshots)
    (rest : (∀ a ∈ s.accounts, Within s.accounts a.accountId accountId → ∀ demand ∈ wanted, a.Fits
      demand) → Atomic (f ()) s post) :
    Atomic ((snapshots.forM fun a => wanted.forM (checkRoom a)) >>= f) s post := by
  apply atomic_each found fun a => reads_forM wanted fun demand _ => reads_checkRoom a demand
  intro passed
  apply rest
  intro a inside within
  exact (checkRooms_passes a wanted).mp (passed a inside within)

theorem room_of_fits {amount : Figures}
    (fits : ∀ a ∈ s.accounts, Within s.accounts a.accountId accountId → ∀ demand ∈ wanted, a.Fits
      demand) (listed : ∀ r, 0 < amount.at r → (r, amount.at r) ∈ wanted) :
    s.Room accountId amount :=
  fun a inside within r left remains positive =>
    fits a inside within _ (listed r positive) left remains

theorem atomic_live {message : String} {f : Reservation → Work α}
    (rest : ∀ row ∈ s.reservations, row.subjectId = subjectId → row.state = .reserved → Atomic (f
      row) s post) : Atomic (liveReservation subjectId message >>= f) s post := by
  unfold liveReservation
  simp only [bind_assoc, pure_bind]
  apply atomic_view
  apply atomic_orStop
  intro row found
  apply atomic_ensure
  intro live
  obtain ⟨inside, same⟩ := reservation_eq_some found
  exact rest row inside same live

end

/-! The ledger. -/

section
variable {s : Store} {rules : Rules}

variable {accountId : String} {snapshots : List Account}

theorem account_ends {post : Account → Store → Prop} (known : accountId ∈ s.ids)
    (holds : ∀ a, post a s) : Ends (account accountId) s post := by
  obtain ⟨a, inside, same⟩ := List.mem_map.mp known
  have there : (s.accounts.find? (·.accountId == accountId)).isSome = true :=
    List.find?_isSome.mpr ⟨a, inside, by simpa using same⟩
  obtain ⟨found, here⟩ := Option.isSome_iff_exists.mp there
  refine ⟨found, s, ?_, holds found⟩
  unfold account accountOf
  rw [bind_of_ran (rfl : view Store.accounts s = (.ok s.accounts, s)), here]
  rfl

theorem atomic_account {α : Type} {f : Account → Work α} {post : α → Store → Prop}
    (sound : Sound s) (rest : ∀ a ∈ s.accounts, a.accountId = accountId → Atomic (f a) s post) :
    Atomic (account accountId >>= f) s post := by
  unfold account
  rw [bind_assoc]
  apply atomic_view
  apply atomic_lift
  intro a found
  obtain ⟨inside, same⟩ := (accountOf_eq_ok sound.tree.distinct accountId a).mp found
  exact rest a inside same

def opening (leaf : Account) (store : Store) : Store :=
  if store.accounts.any (·.accountId == leaf.accountId) then store
  else { store with accounts := store.accounts ++ [leaf] }

theorem opening_ids (leaf : Account) : leaf.accountId ∈ (opening leaf s).ids := by
  unfold opening
  split
  · next there =>
    obtain ⟨a, inside, same⟩ := List.any_eq_true.mp there
    exact (beq_iff_eq.mp same) ▸ List.mem_map_of_mem inside
  · simp [Store.ids]

theorem opening_changes {leaf : Account} (fresh : leaf.reserved = 0 ∧ leaf.charged = 0)
    (above : ∀ parent, leaf.parentId = some parent → parent ∈ s.ids) :
    Changes rules s (opening leaf s) := by
  unfold opening
  split
  · exact .refl
  · next absent =>
    refine .single (.opened ?_ above fresh.1 fresh.2)
    intro inside
    obtain ⟨a, ha, same⟩ := List.mem_map.mp inside
    exact absent (List.any_eq_true.mpr ⟨a, ha, beq_iff_eq.mpr same⟩)

theorem openAccount_atomic (sound : Sound s) (accountId scope : String) (parentId : Option String)
    (missionId : String) (limits : Budget) :
    Atomic (openAccount accountId scope parentId missionId limits) s
      fun _ t => Changes rules s t := by
  have rest (above : ∀ parent, parentId = some parent → parent ∈ s.ids) :
      Ends (write (opening ⟨accountId, scope, parentId, missionId, limits, 0, 0, 0, 1⟩) >>=
        fun _ => account accountId) s fun _ t => Changes rules s t := by
    apply ends_after rfl
    exact account_ends (opening_ids _) fun _ => opening_changes ⟨rfl, rfl⟩ above
  unfold openAccount
  cases parentId with
  | none => exact (rest (by simp)).atomic
  | some parentId =>
    simp only
    apply atomic_account sound
    intro parent inside same
    apply atomic_ensure
    intro _
    apply Ends.atomic
    apply rest
    rintro _ ⟨rfl⟩
    exact same ▸ List.mem_map_of_mem inside

theorem demands_listed (tokens costMicros toolCalls : Int) (countsAttempt : Bool) (r : Resource)
    (positive : 0 < ((⟨tokens, costMicros, toolCalls, 0⟩ : Figures) +
      ⟨0, 0, 0, if countsAttempt then 1 else 0⟩).at r) :
    (r, ((⟨tokens, costMicros, toolCalls, 0⟩ : Figures) +
      ⟨0, 0, 0, if countsAttempt then 1 else 0⟩).at r) ∈
      demands tokens costMicros toolCalls countsAttempt := by
  rw [Figures.add_at] at positive ⊢
  unfold demands
  cases r <;> cases countsAttempt <;> simp [Figures.at] at positive ⊢

def reservedRow (subjectId accountId missionId : String) (tokens costMicros toolCalls : Int) :
    Reservation :=
  ⟨"reservation-" ++ subjectId, accountId, missionId, subjectId, .reserved, tokens, costMicros,
    toolCalls, none, none, none, false⟩

variable {countsAttempt : Bool}

theorem reserve_fresh {subjectId : String} {tokens costMicros toolCalls : Int}
    {missionId : Option String} (found : ChainOf s accountId snapshots)
    (fresh : s.reservation subjectId = none)
    (room : ∀ a ∈ s.accounts, Within s.accounts a.accountId accountId → ∀ demand ∈ demands tokens
      costMicros toolCalls countsAttempt, a.Fits demand) :
    reserve accountId subjectId tokens costMicros countsAttempt toolCalls missionId s =
      (.ok ("reservation-" ++ subjectId), (s.charge accountId ⟨⟨tokens, costMicros, toolCalls, 0⟩,
        ⟨0, 0, 0, if countsAttempt then 1 else 0⟩, 0⟩).addRow (reservedRow subjectId accountId
          (missionId.getD (missionOf snapshots)) tokens costMicros toolCalls)) := by
  have passed : (snapshots.forM fun a => (demands tokens costMicros toolCalls countsAttempt).forM
      (checkRoom a)) s = (.ok (), s) := by
    rw [forM_passes fun a _ => reads_forM _ fun demand _ => reads_checkRoom a demand]
    intro a inside
    have there := found.current a inside
    exact (checkRooms_passes a _).mpr (room a there ((found.members a there).mp inside))
  unfold reserve
  rw [bind_of_ran (rfl : view _ s = (.ok (s.reservation subjectId), s)), fresh]
  simp only
  rw [bind_of_ran found.ends, bind_of_ran passed, bind_of_ran (found.applied _)]
  rfl

theorem reserve_changes (mission : String) {subjectId : String}
    {tokens costMicros toolCalls : Int} (found : ChainOf s accountId snapshots)
    (fresh : s.reservation subjectId = none)
    (room : ∀ a ∈ s.accounts, Within s.accounts a.accountId accountId → ∀ demand ∈ demands tokens
      costMicros toolCalls countsAttempt, a.Fits demand) :
    Change rules s ((s.charge accountId ⟨⟨tokens, costMicros, toolCalls, 0⟩,
      ⟨0, 0, 0, if countsAttempt then 1 else 0⟩, 0⟩).addRow
        (reservedRow subjectId accountId mission tokens costMicros toolCalls)) := by
  refine @Change.reserved rules s (reservedRow subjectId accountId mission tokens costMicros
    toolCalls) _ (reservation_eq_none fresh) found.known rfl ?_ ?_
  · split <;> decide
  · exact room_of_fits room (demands_listed tokens costMicros toolCalls countsAttempt)

theorem reserve_atomic (sound : Sound s) (accountId subjectId : String) (tokens costMicros : Int)
    (countsAttempt : Bool) (toolCalls : Int) (missionId : Option String) :
    Atomic (reserve accountId subjectId tokens costMicros countsAttempt toolCalls missionId) s
      fun _ t => Changes rules s t ∧ (s.reservation subjectId = none → ∃ mission, t =
        (s.charge accountId ⟨⟨tokens, costMicros, toolCalls, 0⟩,
          ⟨0, 0, 0, if countsAttempt then 1 else 0⟩, 0⟩).addRow
            (reservedRow subjectId accountId mission tokens costMicros toolCalls)) := by
  unfold reserve
  apply atomic_view
  cases fresh : s.reservation subjectId with
  | some row => exact atomic_pure ⟨.refl, fun absent => by cases absent⟩
  | none =>
    apply atomic_chain sound
    intro snapshots found
    apply atomic_rooms found
    intro room
    refine Ends.atomic ⟨_, _, bind_of_ran (found.applied _), ?_⟩
    exact ⟨.single (reserve_changes _ found fresh room), fun _ => ⟨_, rfl⟩⟩

theorem releaseAttempt_atomic (sound : Sound s) (accountId : String) :
    Atomic (releaseAttempt accountId) s fun _ t => Changes rules s t := by
  unfold releaseAttempt
  apply atomic_chain sound
  intro snapshots found
  apply atomic_ensure
  intro enough
  refine Ends.atomic ⟨_, _, found.applied _, .single (.returned ?_)⟩
  intro a inside within
  exact enough a ((found.members a inside).mpr within)

theorem amendReservation_ran {subjectId : String} {f g : Reservation → Reservation}
    (same : ∀ row ∈ s.reservations, row.subjectId = subjectId → f row = g row) :
    amendReservation subjectId f s = (.ok (), s.amendRow subjectId g) := by
  unfold amendReservation write Store.amendRow
  simp only
  rw [amend_same same]

theorem grow_atomic (sound : Sound s) (subjectId : String) (tokens costMicros : Int) :
    Atomic (grow subjectId tokens costMicros) s fun _ t => Changes rules s t := by
  unfold grow
  apply atomic_ensure
  intro _
  apply atomic_live
  intro row inside same live
  simp only
  split
  · exact atomic_pure .refl
  · apply atomic_chain sound
    intro snapshots found
    apply atomic_rooms found
    intro fits
    have room : s.Room row.accountId ⟨max 0 (tokens - row.reservedTokens),
        max 0 (costMicros - row.reservedCostMicros), 0, 0⟩ := by
      apply room_of_fits fits
      intro r positive
      cases r <;> simp [Figures.at] at positive ⊢
    have change : Change rules s _ := .grown inside live rfl room
    rw [same] at change
    refine Ends.atomic ⟨(), _, ?_, .single change⟩
    rw [bind_of_ran (found.applied _)]
    apply amendReservation_ran
    intro r _ _
    simp [Reservation.gain]

theorem importUsage_atomic (subjectId missionId : String) (facts : List UsageFact)
    (fine : (∀ row ∈ s.usage, rules.usage row) →
      ∀ row ∈ (facts.foldl (importFact subjectId missionId) (s.usage, 0)).1, rules.usage row) :
    Atomic (importUsage subjectId missionId facts) s fun _ t => Changes rules s t := by
  unfold importUsage
  apply atomic_view
  apply Ends.atomic
  apply ends_after rfl
  exact ends_pure (.single (.imported fine))

/-! Settlements. -/

structure Settles (rules : Rules) (s t : Store) : Prop where
  changes : Changes rules s t
  holds : t.holds = s.holds
  ids : t.ids = s.ids

theorem Settles.refl : Settles rules s s := ⟨.refl, rfl, rfl⟩

/-- The row is closed at this charge, and its chain takes the charge for what was held. -/
def Store.closeRow (s : Store) (row : Reservation) (charge : Figures) (cost : Option Int)
    (unpriced : Bool) : Store :=
  (s.charge row.accountId ⟨-row.held, charge, if unpriced then 1 else 0⟩).amendRow
    row.subjectId (·.close charge cost unpriced)

variable {row : Reservation}

theorem closeReservation_ran (sound : Sound s) (inside : row ∈ s.reservations) (charge : Figures)
    (cost : Option Int) (unpriced : Bool) :
    closeReservation row charge cost unpriced s =
      (.ok (row.close charge cost unpriced), s.closeRow row charge cost unpriced) := by
  obtain ⟨snapshots, found⟩ := sound.chain (sound.placed row inside)
  unfold closeReservation
  rw [bind_of_ran found.ends, bind_of_ran (found.applied _)]
  rfl

theorem closeReservation_ends (sound : Sound s) (inside : row ∈ s.reservations)
    (live : row.state = .reserved) {charge : Figures} (fine : rules.charge charge)
    (service : charge.attempts = 0) {cost : Option Int} (priced : cost.getD 0 = charge.costMicros)
    (unpriced : Bool) :
    Ends (closeReservation row charge cost unpriced) s fun _ t => Settles rules s t :=
  ⟨_, _, closeReservation_ran sound inside charge cost unpriced,
    .single (.settled inside live fine service priced), rfl, charge_ids s _ _⟩

theorem settling_atomic {subjectId : String} {close : Reservation → Work Reservation}
    {post : Reservation → Store → Prop} (closed : ∀ row, post row s)
    (open_ : ∀ row ∈ s.reservations, row.subjectId = subjectId → row.state = .reserved →
      Atomic (close row) s post) : Atomic (settling subjectId close) s post := by
  unfold settling
  apply atomic_view
  apply atomic_orStop
  intro row found
  obtain ⟨inside, same⟩ := reservation_eq_some found
  split
  · exact atomic_pure (closed row)
  · next live =>
    apply open_ row inside same
    cases state : row.state with
    | reserved => rfl
    | settled => exact absurd state live

theorem settle_atomic (sound : Sound s) (around : Surroundings) (subjectId : String)
    (toolCalls : Int) (fine : rules.charge (chargeOf (s.usageFor subjectId) toolCalls)) :
    Atomic (settle around subjectId toolCalls) s fun _ t => Settles rules s t := by
  apply settling_atomic fun _ => .refl
  intro row inside _ live
  apply atomic_view
  apply atomic_ensure
  intro _
  apply atomic_view
  exact (closeReservation_ends sound inside live fine rfl rfl _).atomic

theorem settleKnown_atomic (sound : Sound s) (subjectId : String) (toolCalls : Int)
    (fine : rules.charge (chargeOf (s.knownUsageFor subjectId) toolCalls)) :
    Atomic (settleKnown subjectId toolCalls) s fun _ t => Settles rules s t := by
  apply settling_atomic fun _ => .refl
  intro row inside _ live
  apply atomic_view
  exact (closeReservation_ends sound inside live fine rfl rfl _).atomic

theorem settleAtUpperBound_atomic (sound : Sound s) (subjectId : String)
    (fine : ∀ row ∈ s.reservations, rules.charge (upperCharge row (s.knownUsageFor subjectId))) :
    Atomic (settleAtUpperBound subjectId) s fun _ t => Settles rules s t := by
  apply settling_atomic fun _ => .refl
  intro row inside _ live
  apply atomic_view
  exact (closeReservation_ends sound inside live (fine row inside) rfl rfl _).atomic

/-! Tails. -/

theorem holdAttempts_ran {α : Type} (found : ChainOf s accountId snapshots) {p : Prop}
    [Decidable p] {attempts : Int} (none : p ↔ attempts = 0) (f : Unit → Work α) :
    (if p then f () else applyAlong ⟨⟨0, 0, 0, attempts⟩, 0, 0⟩ snapshots >>= f) s =
      f () (s.holdAttempts accountId attempts) := by
  unfold Store.holdAttempts
  by_cases nothing : p
  · rw [if_pos nothing, if_pos (none.mp nothing)]
  · rw [if_neg nothing, if_neg fun zero => nothing (none.mpr zero)]
    exact bind_of_ran (found.applied _)

theorem releaseTail_atomic (sound : Sound s) (around : Surroundings)
    (holdId taskRevision reason : String)
    (fine : ∀ hold ∈ s.holds, rules.charge (chargeOf (s.usageFor hold.subjectId) 0)) :
    Atomic (releaseTail around holdId taskRevision reason) s fun _ t => Changes rules s t := by
  unfold releaseTail tailText
  apply atomic_ensure
  intro _
  apply atomic_view
  apply atomic_orStop
  intro hold found
  obtain ⟨inside, same⟩ := hold_eq_some found
  apply atomic_ensure
  intro _
  split
  · apply atomic_ensure
    intro _
    apply atomic_view
    cases s.reservation hold.subjectId with
    | none => exact atomic_stop
    | some row => exact atomic_pure .refl
  · next held =>
    apply Atomic.bind (settle_atomic sound around hold.subjectId 0 (fine hold inside))
    intro row m settles
    have sound' := settles.changes.sound sound
    have known : hold.accountId ∈ m.ids := by
      obtain ⟨r, hr, _, placed⟩ := sound.backed hold inside
      exact settles.ids ▸ placed ▸ sound.placed r hr
    obtain ⟨snapshots, chain⟩ := sound'.chain known
    have state : hold.state = .held := by
      cases state : hold.state with
      | held => rfl
      | released => exact absurd state held
    have there : hold ∈ m.holds := settles.holds.symm ▸ inside
    refine ⟨row, _, ?_, settles.changes.tail (@Change.released rules m hold reason there state)⟩
    rw [bind_of_ran chain.ends]
    refine (holdAttempts_ran chain (by omega) _).trans ?_
    rw [same]
    rfl

theorem atomic_tailText {α : Type} {post : α → Store → Prop} {value name : String}
    {f : Unit → Work α} (rest : Atomic (f ()) s post) : Atomic (tailText value name >>= f) s post := by
  unfold tailText
  exact atomic_ensure fun _ => rest

section
variable (sound : Sound s)
include sound

theorem atomic_tailAccount {α : Type} {post : α → Store → Prop}
    {around : Surroundings} {missionId : String} {f : TaskFacts → Work α}
    (rest : ∀ task, accountId ∈ s.ids → Atomic (f task) s post) :
    Atomic (tailAccount around accountId missionId >>= f) s post := by
  unfold tailAccount
  simp only [bind_assoc, pure_bind]
  apply atomic_account sound
  intro a inside same
  apply atomic_ensure
  intro _
  apply atomic_orStop
  intro task _
  apply atomic_ensure
  intro _
  apply atomic_ensure
  intro _
  apply atomic_ensure
  intro _
  exact rest task (same ▸ List.mem_map_of_mem inside)

theorem room_kept {deltas : Deltas} (resource : Resource)
    (untouched : deltas.reserved.at resource + deltas.charged.at resource = 0) {amount : Int}
    (fits : ∀ a ∈ s.accounts, Within s.accounts a.accountId accountId → a.Fits (resource, amount)) :
    ∀ a ∈ (s.charge accountId deltas).accounts,
      Within (s.charge accountId deltas).accounts a.accountId accountId → a.Fits (resource, amount) := by
  intro a' inside within left remains
  rw [charge_within] at within
  obtain ⟨a, ha, ⟨above, rfl⟩ | ⟨_, rfl⟩⟩ := mem_charge sound inside
  · apply fits a ha above left
    obtain ⟨limit, limited, rfl⟩ := Account.remaining_eq_some.mp remains
    refine Account.remaining_eq_some.mpr ⟨limit, limited, ?_⟩
    simp only [Account.add, Figures.add_at]
    omega
  · exact fits a' ha within left remains

theorem reserveTail_atomic (around : Surroundings) (holdId taskAccount : String)
    (reserved : TailReserve) (missionId taskRevision purpose : String) :
    Atomic (reserveTail around holdId taskAccount reserved missionId taskRevision purpose) s
      fun _ t => Changes rules s t := by
  unfold reserveTail
  apply atomic_tailText
  apply atomic_tailText
  apply atomic_ensure
  intro _
  apply atomic_view
  cases prior : s.hold holdId with
  | some hold =>
    apply atomic_ensure
    intro _
    exact atomic_pure .refl
  | none =>
    apply atomic_tailAccount sound
    intro task known
    apply atomic_chain sound
    intro snapshots found
    apply atomic_each found fun a => reads_checkRoom a _
    intro fits
    apply atomic_view
    apply atomic_ensure
    intro fresh
    apply Atomic.bind (@reserve_atomic s rules sound _ _ _ _ _ _ _)
    intro _ m ⟨changes, wrote⟩
    obtain ⟨mission, rfl⟩ := wrote fresh
    have sound' := changes.sound sound
    rw [← charge_ids s taskAccount] at known
    obtain ⟨snapshots, found'⟩ := sound'.chain known
    let tail : TailHold := ⟨holdId, missionId, taskAccount, "tail:" ++ holdId, taskRevision, purpose,
      ⟨holdId, taskAccount, missionId, taskRevision, purpose, reserved⟩, reserved.attempts, .held, none⟩
    refine ⟨tail, _, ?_, changes.tail (@Change.placed rules _ tail ?_ ?_ rfl ?_ ?_)⟩
    · rw [bind_of_ran found'.ends]
      exact (holdAttempts_ran found' (by omega) _).trans rfl
    · exact hold_eq_none prior
    · exact ⟨_, List.mem_append_right _ (List.mem_singleton_self _), rfl, rfl⟩
    · exact Int.natCast_nonneg _
    · intro a inside within r left remains positive
      cases r with
      | attempts =>
        exact room_kept sound .attempts rfl (fun a inside within =>
          (checkRoom_passes a _).mp (fits a inside within)) a inside within left remains
      | _ => simp [Figures.at] at positive

theorem Sound.only_row {row' : Reservation} (inside : row ∈ s.reservations)
    (inside' : row' ∈ s.reservations) (same : row.subjectId = row'.subjectId) : row = row' :=
  List.inj_on_of_nodup_map sound.subjects inside inside' same

theorem growTailAllocation_atomic (around : Surroundings)
    (holdId subjectId taskRevision : String) (tokens costMicros : Nat) (minimum : TailReserve) :
    Atomic (growTailAllocation around holdId subjectId taskRevision tokens costMicros minimum) s
      fun _ t => Changes rules s t := by
  unfold growTailAllocation
  simp only
  apply atomic_view
  apply atomic_orStop
  intro hold found
  apply atomic_ensure
  intro _
  apply atomic_tailAccount sound
  intro task known
  apply atomic_live
  intro source hsource source_subject source_live
  apply atomic_live
  intro target htarget target_subject target_live
  apply atomic_ensure
  rintro ⟨same_account, _, apart⟩
  apply atomic_view
  apply atomic_ensure
  intro _
  apply atomic_view
  apply atomic_view
  apply atomic_view
  apply atomic_ensure
  intro _
  split
  · exact atomic_pure .refl
  · apply atomic_ensure
    intro _
    apply atomic_ensure
    intro _
    apply atomic_chain sound
    intro snapshots chain
    apply atomic_rooms chain
    intro _
    apply atomic_ensure
    intro _
    -- The second write sets the figures; on the one row it reaches, that is what it adds.
    let amounts : Figures := ⟨max (tokens : Int) target.reservedTokens - target.reservedTokens,
      max (costMicros : Int) target.reservedCostMicros - target.reservedCostMicros, 0, 0⟩
    have source_account : source.accountId = target.accountId := by
      obtain ⟨row, inside, subject, account⟩ := sound.backed hold (hold_eq_some found).1
      rw [sound.only_row hsource inside (source_subject.trans subject.symm), account, same_account]
    have set_is_gain : ∀ row ∈ (s.amendRow hold.subjectId (·.gain (-amounts))).reservations,
        row.subjectId = subjectId → { row with
          reservedTokens := max (tokens : Int) target.reservedTokens
          reservedCostMicros := max (costMicros : Int) target.reservedCostMicros } =
            row.gain amounts := by
      intro row inside same
      obtain ⟨old, hold', rfl⟩ := mem_amend.mp inside
      by_cases moved : old.subjectId = hold.subjectId
      · rw [if_pos moved] at same
        exact absurd (same.symm.trans moved) apart
      · rw [if_neg moved] at same ⊢
        rw [sound.only_row hold' htarget (same.trans target_subject.symm)]
        simp only [Reservation.gain, amounts]
        congr 1 <;> omega
    refine Ends.atomic ⟨(), _, ?_, .single (@Change.shifted rules s source target amounts hsource
      htarget source_live target_live source_account ?_)⟩
    swap
    · rw [source_subject, target_subject]
      exact Ne.symm apart
    rw [source_subject, target_subject]
    refine (bind_of_ran (amendReservation_ran (g := (·.gain (-amounts))) ?_)).trans ?_
    · intro row _ _
      change _ = Reservation.mk _ _ _ _ _ (row.reservedTokens + -_) (row.reservedCostMicros + -_)
        (row.reservedToolCalls + -0) _ _ _ _
      rw [← Int.sub_eq_add_neg, ← Int.sub_eq_add_neg, Int.neg_zero, Int.add_zero]
    · exact amendReservation_ran set_is_gain

end

end
end Budgets
