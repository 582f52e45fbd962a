import HarnessSdk.Budgets.Completions
import HarnessSdk.Budgets.Limits

/-! Settlements against the usage facts: every reference counts once, and what a settlement charges
is compared with what the known facts of its subject come to. -/
namespace Budgets
open PyDict PyText Checks Graph Tables Metered

/-! What the known facts of a subject come to. -/

section
variable (store : Store) (subjectId : String)

def Store.knownUsage : List ImportedUsage :=
  store.usage.filter fun row => row.subjectId = subjectId ∧ row.unknown = false

def Store.knownTokens : Int :=
  total (fun row => row.inputTokens + row.outputTokens) (store.knownUsage subjectId)

/-- The sum of the costs that are known; a fact without a price adds nothing. -/
def Store.knownCost : Int :=
  total (fun row => row.costMicros.getD 0) (store.knownUsage subjectId)

end

variable (rows : List ImportedUsage)

theorem sum_costs : (rows.filterMap ImportedUsage.costMicros).sum =
    total (fun row => row.costMicros.getD 0) rows := by
  induction rows with
  | nil => rfl
  | cons row rest ih =>
    rw [total_cons]
    cases cost : row.costMicros with
    | none =>
      rw [List.filterMap_cons_none cost, ih, Option.getD_none]
      omega
    | some amount =>
      rw [List.filterMap_cons_some cost, List.sum_cons, ih, Option.getD_some]

theorem usageOf_cost : (usageOf rows).cost.getD 0 =
    if rows.any ImportedUsage.unpriced then 0 else total (fun row => row.costMicros.getD 0) rows := by
  have sum := sum_costs rows
  unfold usageOf
  cases unpriced : rows.any ImportedUsage.unpriced with
  | true => simp
  | false =>
    by_cases none : rows.filterMap ImportedUsage.costMicros = []
    · rw [none, List.sum_nil] at sum
      simp [none, ← sum]
    · simp [none, ← sum]

theorem usageFor_known {s : Store} {around : Surroundings} {subjectId : String}
    (known : s.hasUnknownUsage around subjectId = false) :
    s.usageFor subjectId = s.knownUsageFor subjectId := by
  unfold Store.hasUnknownUsage at known
  rw [Bool.or_eq_false_iff, List.any_eq_false] at known
  unfold Store.usageFor Store.knownUsageFor
  congr 1
  apply List.filter_congr
  intro row inside
  have fine := known.1 row inside
  by_cases same : row.subjectId = subjectId
  · simp [same] at fine
    simp [same, fine]
  · simp [same]

/-! What a step settles. -/

def Operation.Closes (around : Surroundings) (s : Store) : Operation → Reservation → Figures → Prop
  | .settle subjectId toolCalls, row, charge =>
    row.subjectId = subjectId ∧ s.hasUnknownUsage around subjectId = false ∧
      charge = chargeOf (s.usageFor subjectId) toolCalls
  | .settleKnown subjectId toolCalls, row, charge =>
    row.subjectId = subjectId ∧ charge = chargeOf (s.knownUsageFor subjectId) toolCalls
  | .settleAtUpperBound subjectId, row, charge =>
    row.subjectId = subjectId ∧ charge = upperCharge row (s.knownUsageFor subjectId)
  | .releaseTail holdId taskRevision _, row, charge =>
    ∃ hold ∈ s.holds, hold.holdId = holdId ∧ hold.taskRevision = taskRevision ∧
      hold.state = .held ∧ row.subjectId = hold.subjectId ∧
      s.hasUnknownUsage around hold.subjectId = false ∧
      charge = chargeOf (s.usageFor hold.subjectId) 0
  | _, _, _ => False

inductive Outcome (s : Store) (closes : Reservation → Figures → Prop) (t : Store) : Prop
  | quiet : (∀ row ∈ t.reservations, row.state = .settled → row ∈ s.reservations) →
      Outcome s closes t
  | closed {row : Reservation} {charge : Figures} {cost : Option Int} {unpriced : Bool} :
      row ∈ s.reservations → row.state = .reserved → closes row charge →
      cost.getD 0 = charge.costMicros → charge.attempts = 0 →
      t.reservations = (s.closeRow row charge cost unpriced).reservations →
      (∀ a ∈ (s.closeRow row charge cost unpriced).accounts, ∃ a' ∈ t.accounts,
        a'.accountId = a.accountId ∧ a'.charged = a.charged) → Outcome s closes t

section
variable {s t : Store}

variable {closes : Reservation → Figures → Prop} {rules : Rules} {row : Reservation}

theorem Outcome.same (same : t.reservations = s.reservations) : Outcome s closes t :=
  .quiet fun _ inside _ => same ▸ inside

theorem Change.thawed (change : Change rules s t) (never : ∀ c, ¬ rules.charge c)
    (sound : Sound s) (inside : row ∈ t.reservations) (settled : row.state = .settled) :
    row ∈ s.reservations := by
  have gained : ∀ {rows : List Reservation} {more : Figures} {subjectId : String},
      row ∈ amend (·.subjectId = subjectId) (·.gain more) rows →
      (∀ old ∈ rows, old.subjectId = subjectId → old.state = .reserved) → row ∈ rows := by
    intro rows more subjectId amended live
    obtain ⟨old, hold, became⟩ := mem_amend.mp amended
    split at became
    · next same =>
      have reserved : row.state = .reserved := became ▸ live old hold same
      rw [settled] at reserved
      cases reserved
    · exact became ▸ hold
  cases change with
  | opened _ _ _ _ => exact inside
  | @reserved fresh attempts _ _ live _ _ =>
    rcases mem_snoc.mp inside with old | rfl
    · exact old
    · rw [live] at settled
      cases settled
  | returned _ => exact inside
  | grown hrow live _ _ =>
    exact gained inside fun old hold same => sound.only_row hold hrow same ▸ live
  | imported _ => exact inside
  | settled _ _ fine _ _ => exact absurd fine (never _)
  | placed _ _ _ _ _ => exact (holdAttempts_reservations s _ _).1 ▸ inside
  | deducted _ _ hrow live _ _ _ =>
    exact gained inside fun old hold same => sound.only_row hold hrow same ▸ live
  | @shifted source target amounts hsource htarget source_live target_live _ _ =>
    refine gained (gained inside ?_) fun old hold same =>
      sound.only_row hold hsource same ▸ source_live
    intro old hold same
    obtain ⟨first, hfirst, became⟩ := mem_amend.mp hold
    have state : old.state = first.state := by
      rw [became]
      split <;> rfl
    have subject : old.subjectId = first.subjectId := by
      rw [became]
      split <;> rfl
    rw [state, sound.only_row hfirst htarget (subject ▸ same)]
    exact target_live
  | recorded _ => exact inside
  | released _ _ => exact (holdAttempts_reservations s _ _).1 ▸ inside

theorem Changes.thawed (changes : Changes rules s t) (never : ∀ c, ¬ rules.charge c)
    (sound : Sound s) (inside : row ∈ t.reservations) (settled : row.state = .settled) :
    row ∈ s.reservations := by
  induction changes with
  | refl => exact inside
  | tail first last ih => exact ih (last.thawed never (Changes.sound first sound) inside settled)

theorem settling_outcome {subjectId : String} {close : Reservation → Work Reservation}
    (open_ : ∀ row ∈ s.reservations, row.subjectId = subjectId → row.state = .reserved → Atomic
      (close row) s fun _ t => Outcome s closes t) :
    Atomic (settling subjectId close) s fun _ t => Outcome s closes t :=
  settling_atomic (fun _ => .same rfl) open_

variable {charge : Figures}

theorem close_outcome (sound : Sound s) (inside : row ∈ s.reservations)
    (live : row.state = .reserved) (may : closes row charge) {cost : Option Int}
    (priced : cost.getD 0 = charge.costMicros) (service : charge.attempts = 0) (unpriced : Bool) :
    Atomic (closeReservation row charge cost unpriced) s fun _ t => Outcome s closes t :=
  Ends.atomic ⟨_, _, closeReservation_ran sound inside charge cost unpriced,
    .closed inside live may priced service rfl fun a inside => ⟨a, inside, rfl, rfl⟩⟩

theorem settle_outcome (sound : Sound s) (around : Surroundings) (subjectId : String)
    (toolCalls : Int)
    (may : ∀ row : Reservation, row.subjectId = subjectId → s.hasUnknownUsage around subjectId =
      false → closes row (chargeOf (s.usageFor subjectId) toolCalls)) :
    Atomic (settle around subjectId toolCalls) s fun _ t =>
      Outcome s closes t ∧ Settles ⟨fun _ => True, fun _ => True⟩ s t := by
  apply settling_atomic fun _ => ⟨.same rfl, .refl⟩
  intro row inside same live
  apply atomic_view
  apply atomic_ensure
  intro known
  apply atomic_view
  refine Ends.atomic ⟨_, _, closeReservation_ran sound inside _ _ _, ?_, ?_⟩
  · exact .closed inside live (may row same known) rfl rfl rfl fun a there => ⟨a, there, rfl, rfl⟩
  · exact ⟨.single (.settled inside live trivial rfl rfl), rfl, charge_ids s _ _⟩

theorem Outcome.later {m : Store} (outcome : Outcome s closes m)
    (reservations : t.reservations = m.reservations)
    (charged : ∀ a ∈ m.accounts, ∃ a' ∈ t.accounts, a'.accountId = a.accountId ∧ a'.charged =
      a.charged) : Outcome s closes t := by
  cases outcome with
  | quiet kept => exact .quiet fun row inside settled => kept row (reservations ▸ inside) settled
  | closed inside live may priced service rows accounts =>
    refine .closed inside live may priced service (reservations.trans rows) ?_
    intro a there
    obtain ⟨b, hb, same, taken⟩ := accounts a there
    obtain ⟨c, hc, same', taken'⟩ := charged b hb
    exact ⟨c, hc, same'.trans same, taken'.trans taken⟩

theorem released_charged (m : Store) (accountId : String) (attempts : Int) {a : Account}
    (inside : a ∈ m.accounts) : ∃ a' ∈ (m.holdAttempts accountId attempts).accounts,
      a'.accountId = a.accountId ∧ a'.charged = a.charged := by
  unfold Store.holdAttempts
  split
  · exact ⟨a, inside, rfl, rfl⟩
  · obtain ⟨a', there, became⟩ := charge_became accountId ⟨⟨0, 0, 0, attempts⟩, 0, 0⟩ inside
    refine ⟨a', there, became.same, Figures.ext_at fun r => ?_⟩
    rw [became.charged]
    split <;> simp

theorem releaseTail_outcome (sound : Sound s) (around : Surroundings)
    (holdId taskRevision reason : String) :
    Atomic (releaseTail around holdId taskRevision reason) s fun _ t =>
      Outcome s ((Operation.releaseTail holdId taskRevision reason).Closes around s) t := by
  unfold releaseTail tailText
  apply atomic_ensure
  intro _
  apply atomic_view
  apply atomic_orStop
  intro hold found
  obtain ⟨inside, key⟩ := hold_eq_some found
  apply atomic_ensure
  intro revision
  split
  · apply atomic_ensure
    intro _
    apply atomic_view
    cases s.reservation hold.subjectId with
    | none => exact atomic_stop
    | some row => exact atomic_pure (.same rfl)
  · next held =>
    have state : hold.state = .held := by
      cases state : hold.state with
      | held => rfl
      | released => exact absurd state held
    have settles : Atomic (settle around hold.subjectId 0) s fun _ t =>
        Outcome s ((Operation.releaseTail holdId taskRevision reason).Closes around s) t ∧
          Settles ⟨fun _ => True, fun _ => True⟩ s t :=
      settle_outcome sound around hold.subjectId 0 fun row same known =>
        ⟨hold, inside, key, revision, state, same, known, rfl⟩
    apply settles.bind
    rintro row m ⟨outcome, kept⟩
    have known : hold.accountId ∈ m.ids := by
      obtain ⟨r, hr, _, placed⟩ := sound.backed hold inside
      exact kept.ids ▸ placed ▸ sound.placed r hr
    obtain ⟨snapshots, chain⟩ := (kept.changes.sound sound).chain known
    refine ⟨row, (m.holdAttempts hold.accountId (-hold.remainingAttempts)).amendTail holdId
      fun h => { h with state := .released, remainingAttempts := 0, releaseReason := some reason },
      ?_, ?_⟩
    · rw [bind_of_ran chain.ends]
      exact (holdAttempts_ran chain (by omega) _).trans rfl
    · apply outcome.later
      · exact (holdAttempts_reservations m _ _).1
      · exact fun a there => released_charged m _ _ there

theorem perform_outcome (sound : Sound s) (around : Surroundings) (operation : Operation) :
    Outcome s (operation.Closes around s) (perform around operation s).2 := by
  have result {α : Type} {x : Work α} {closes : Reservation → Figures → Prop}
      (atomic : Atomic x s fun _ t => Outcome s closes t) :
      Outcome s closes ((x >>= fun _ => pure ()) s).2 := by
    have whole : Atomic (x >>= fun _ => pure ()) s fun _ t => Outcome s closes t :=
      atomic.bind fun _ _ outcome => ends_pure outcome
    exact whole.after (Outcome s closes) (.same rfl) fun _ _ outcome => outcome
  have silent (never : ∀ charge, ¬ operation.Charges s charge) :
      Outcome s (operation.Closes around s) (perform around operation s).2 := by
    have atomic := @perform_atomic s ⟨fun _ => False, fun _ => True⟩ sound around operation
      ⟨fun charge may => never charge may, fun _ _ _ _ _ _ _ => trivial⟩
    apply atomic.after (Outcome s (operation.Closes around s)) (.same rfl)
    exact fun _ t changes => .quiet fun row inside settled =>
      Changes.thawed changes (fun _ => not_false) sound inside settled
  cases kind : operation with
  | settle subjectId toolCalls =>
    unfold perform
    dsimp only
    refine result ((settle_outcome sound around subjectId toolCalls ?_).mono fun _ _ both => both.1)
    exact fun row same known => ⟨same, known, rfl⟩
  | settleKnown | settleAtUpperBound =>
    unfold perform
    dsimp only
    apply result
    apply settling_outcome
    intro row inside same live
    apply atomic_view
    apply close_outcome sound inside live ⟨same, rfl⟩ rfl rfl
  | releaseTail holdId taskRevision reason =>
    unfold perform
    dsimp only
    exact result (releaseTail_outcome sound around holdId taskRevision reason)
  | _ =>
    rw [← kind]
    apply silent
    intro charge may
    rw [kind] at may
    cases may

/-! Imports. -/

/-- An import changes the facts of references that are there in place, and adds new ones. -/
structure Imported (before after : List ImportedUsage) : Prop where
  refs : (after.map ImportedUsage.usageRef).Nodup
  shape : ∃ (g : ImportedUsage → ImportedUsage) (fresh : List ImportedUsage),
    after = before.map g ++ fresh ∧
      ∀ row, (g row).usageRef = row.usageRef ∧ (g row).subjectId = row.subjectId

theorem Imported.refl {usage : List ImportedUsage}
    (refs : (usage.map ImportedUsage.usageRef).Nodup) : Imported usage usage :=
  ⟨refs, id, [], by simp, fun _ => ⟨rfl, rfl⟩⟩

theorem Imported.trans {first second third : List ImportedUsage} (one : Imported first second)
    (two : Imported second third) : Imported first third := by
  obtain ⟨g, fresh, rfl, keeps⟩ := one.shape
  obtain ⟨g', fresh', rfl, keeps'⟩ := two.shape
  refine ⟨two.refs, g' ∘ g, fresh.map g' ++ fresh', by simp, fun row => ?_⟩
  exact ⟨(keeps' _).1.trans (keeps row).1, (keeps' _).2.trans (keeps row).2⟩

theorem importFact_imported (subjectId missionId : String) (usage : List ImportedUsage × Nat)
    (fact : UsageFact) (refs : (usage.1.map ImportedUsage.usageRef).Nodup) :
    Imported usage.1 (importFact subjectId missionId usage fact).1 := by
  unfold importFact
  simp only
  cases found : usage.1.find? (·.usageRef == fact.usageRef) with
  | none =>
    rw [List.find?_eq_none] at found
    refine ⟨?_, id, _, by rw [List.map_id], fun _ => ⟨rfl, rfl⟩⟩
    rw [List.map_append, List.nodup_append]
    refine ⟨refs, by simp, ?_⟩
    intro ref inside other here
    obtain ⟨row, hrow, rfl⟩ := List.mem_map.mp inside
    rw [List.map_cons, List.map_nil, List.mem_singleton] at here
    exact fun same => found row hrow (beq_iff_eq.mpr (same.trans here))
  | some row =>
    simp only
    split
    · refine ⟨?_, _, [], (List.append_nil _).symm, fun row => ?_⟩
      · simp only
        rw [map_amend]
        · exact refs
        · exact fun _ => rfl
      · constructor <;> split <;> rfl
    · exact .refl refs

theorem importFacts_imported (subjectId missionId : String) (facts : List UsageFact)
    (usage : List ImportedUsage × Nat) (refs : (usage.1.map ImportedUsage.usageRef).Nodup) :
    Imported usage.1 (facts.foldl (importFact subjectId missionId) usage).1 := by
  induction facts generalizing usage with
  | nil => exact .refl refs
  | cons fact rest ih =>
    have first := importFact_imported subjectId missionId usage fact refs
    exact first.trans (ih _ first.refs)

theorem perform_imported (sound : Sound s) (around : Surroundings) (operation : Operation)
    (refs : (s.usage.map ImportedUsage.usageRef).Nodup) :
    Imported s.usage (perform around operation s).2.usage := by
  have still : Still Store.usage := fun _ _ _ _ => rfl
  have result {α : Type} {x : Work α} (atomic : Atomic x s fun _ t => t.usage = s.usage) :
      Imported s.usage ((x >>= fun _ => pure ()) s).2.usage := by
    have whole : Atomic (x >>= fun _ => pure ()) s fun _ t => t.usage = s.usage :=
      atomic.bind fun _ _ same => ends_pure same
    apply whole.after (fun t => Imported s.usage t.usage) (.refl refs)
    intro _ t same
    rw [same]
    exact .refl refs
  cases kind : operation with
  | importUsage subjectId missionId facts =>
    unfold perform
    dsimp only
    exact importFacts_imported subjectId missionId facts (s.usage, 0) refs
  | transferTail holdId transferId allocations taskRevision =>
    unfold perform
    dsimp only
    apply result
    apply (transferTail_moves sound around holdId transferId allocations taskRevision).mono
    intro receipt t moved
    cases moved with
    | replayed => rfl
    | made => exact grantAll_leaves still _ _ _
  | _ =>
    have plain : operation.Plain := by
      rw [kind]
      trivial
    rw [← kind, perform_leaves still around plain s]
    exact .refl refs

/-! Charges. -/

def Store.Unpriced (store : Store) (subjectId : String) : Prop :=
  ∃ fact ∈ store.knownUsage subjectId, fact.unpriced = true

instance (store : Store) (subjectId : String) : Decidable (store.Unpriced subjectId) :=
  inferInstanceAs (Decidable (∃ fact ∈ store.knownUsage subjectId, fact.unpriced = true))

/-- If the reservation of the subject is live, and some known facts of the subject have no price,
then the others cost no more than this together. -/
def Store.Whole (store : Store) (subjectId : String) (least : Reservation → Int) : Prop :=
  ∀ row ∈ store.reservations, row.subjectId = subjectId → row.state = .reserved →
    store.Unpriced subjectId → store.knownCost subjectId ≤ least row

instance (store : Store) (subjectId : String) (least : Reservation → Int) :
    Decidable (store.Whole subjectId least) :=
  inferInstanceAs (Decidable (∀ row ∈ store.reservations, row.subjectId = subjectId →
    row.state = .reserved → store.Unpriced subjectId → store.knownCost subjectId ≤ least row))

/-- A step that settles a subject does not meet both facts with a price and facts without one,
unless the upper bound covers the prices. -/
def Whole (s : Store) (action : Action) : Prop :=
  match action.operation with
  | .settle subjectId _ =>
    s.hasUnknownUsage action.around subjectId = false → s.Whole subjectId fun _ => 0
  | .settleKnown subjectId _ => s.Whole subjectId fun _ => 0
  | .settleAtUpperBound subjectId => s.Whole subjectId (·.reservedCostMicros)
  | .releaseTail holdId taskRevision _ =>
    ∀ hold ∈ s.holds, hold.holdId = holdId → hold.taskRevision = taskRevision →
      hold.state = .held → s.hasUnknownUsage action.around hold.subjectId = false →
        s.Whole hold.subjectId fun _ => 0
  | _ => True

theorem known_cost (s : Store) (subjectId : String) :
    (s.Unpriced subjectId ∧ (s.knownUsageFor subjectId).cost.getD 0 = 0) ∨
      (s.knownUsageFor subjectId).cost.getD 0 = s.knownCost subjectId := by
  have cost := usageOf_cost (s.knownUsage subjectId)
  cases unpriced : (s.knownUsage subjectId).any ImportedUsage.unpriced with
  | true =>
    rw [unpriced, if_pos rfl] at cost
    exact Or.inl ⟨List.any_eq_true.mp unpriced, cost⟩
  | false =>
    rw [unpriced, if_neg Bool.false_ne_true] at cost
    exact Or.inr cost

theorem known_covered (inside : row ∈ s.reservations) (live : row.state = .reserved)
    (whole : s.Whole row.subjectId fun _ => 0) (toolCalls : Int) :
    s.knownTokens row.subjectId ≤ (chargeOf (s.knownUsageFor row.subjectId) toolCalls).tokens ∧
      s.knownCost row.subjectId ≤
        (chargeOf (s.knownUsageFor row.subjectId) toolCalls).costMicros := by
  refine ⟨Int.le_refl _, ?_⟩
  change _ ≤ (s.knownUsageFor row.subjectId).cost.getD 0
  rcases known_cost s row.subjectId with ⟨unpriced, nothing⟩ | all
  · rw [nothing]
    exact whole row inside rfl live unpriced
  · exact Int.le_of_eq all.symm

theorem Operation.Closes.covers {action : Action} (whole : Whole s action)
    (inside : row ∈ s.reservations) (live : row.state = .reserved)
    (closes : action.operation.Closes action.around s row charge) :
    s.knownTokens row.subjectId ≤ charge.tokens ∧
      s.knownCost row.subjectId ≤ charge.costMicros := by
  unfold Whole at whole
  cases kind : action.operation with
  | settle subjectId toolCalls =>
    rw [kind] at whole closes
    obtain ⟨rfl, known, rfl⟩ := closes
    rw [usageFor_known known]
    exact known_covered inside live (whole known) toolCalls
  | settleKnown subjectId toolCalls =>
    rw [kind] at whole closes
    obtain ⟨rfl, rfl⟩ := closes
    exact known_covered inside live whole toolCalls
  | settleAtUpperBound subjectId =>
    rw [kind] at whole closes
    obtain ⟨rfl, rfl⟩ := closes
    refine ⟨Int.le_max_right _ _, ?_⟩
    change _ ≤ max row.reservedCostMicros ((s.knownUsageFor row.subjectId).cost.getD 0)
    rcases known_cost s row.subjectId with ⟨unpriced, nothing⟩ | all
    · have most : s.knownCost row.subjectId ≤ row.reservedCostMicros :=
        whole row inside rfl live unpriced
      omega
    · omega
  | releaseTail holdId taskRevision reason =>
    rw [kind] at whole closes
    obtain ⟨hold, there, key, revision, held, same, known, rfl⟩ := closes
    have fine := whole hold there key revision held known
    rw [usageFor_known known, ← same]
    exact known_covered inside live (same ▸ fine) 0
  | _ =>
    rw [kind] at closes
    exact closes.elim

/-- A settled row of the next state was settled before, or its settlement is this step: every
account above it has taken its charge. -/
theorem Outcome.settles (outcome : Outcome s closes t) (sound : Sound s) {row' : Reservation}
    (inside' : row' ∈ t.reservations) (settled : row'.state = .settled) : row' ∈ s.reservations ∨
      ∃ row ∈ s.reservations, row.state = .reserved ∧ row'.subjectId = row.subjectId ∧
        closes row row'.settledAt ∧ ∀ a ∈ s.accounts, a.accountId ∈ along s.accounts row.accountId →
          ∃ a' ∈ t.accounts, a'.accountId = a.accountId ∧
            ∀ r, a'.charged.at r = a.charged.at r + row'.settledAt.at r := by
  cases outcome with
  | quiet kept => exact Or.inl (kept row' inside' settled)
  | @closed row charge cost unpriced inside live may priced service rows accounts =>
    rw [rows] at inside'
    obtain ⟨old, hold, became⟩ := mem_amend.mp inside'
    split at became
    · next same =>
      have only : old = row := sound.only_row hold inside same
      subst only
      have taken : row'.settledAt = charge := by
        rw [became]
        apply Figures.ext_at
        intro r
        cases r <;> simp [Reservation.settledAt, Reservation.close, Figures.at, priced, service]
      refine Or.inr ⟨old, inside, live, ?_, taken ▸ may, ?_⟩
      · rw [became]
        rfl
      · intro a there reached
        obtain ⟨b, hb, moved⟩ := charge_became old.accountId
          ⟨-old.held, charge, if unpriced then 1 else 0⟩ there
        rw [if_pos reached, if_pos reached] at moved
        obtain ⟨c, hc, same', charged⟩ := accounts b hb
        refine ⟨c, hc, same'.trans moved.same, fun r => ?_⟩
        rw [charged, moved.charged, taken]
    · exact Or.inl (became ▸ hold)

end

/-! Runs. -/

def Timely (s : Store) (action : Action) : Prop :=
  ∀ fact ∈ (s.act action).usage,
    (∃ row ∈ s.reservations, row.subjectId = fact.subjectId ∧ row.state = .settled) →
      fact ∈ s.usage

instance (s : Store) (action : Action) : Decidable (Timely s action) :=
  inferInstanceAs (Decidable (∀ fact ∈ (s.act action).usage,
    (∃ row ∈ s.reservations, row.subjectId = fact.subjectId ∧ row.state = .settled) →
      fact ∈ s.usage))

/-- Each reference is there once, and what was charged for a settled subject reaches its facts. -/
structure Charged (s : Store) : Prop where
  sound : Sound s
  refs : (s.usage.map ImportedUsage.usageRef).Nodup
  covers : ∀ row ∈ s.reservations, row.state = .settled →
    s.knownTokens row.subjectId ≤ row.settledAt.tokens ∧
      s.knownCost row.subjectId ≤ row.settledAt.costMicros

section
variable {s : Store} {action : Action}

theorem act_sound (action : Action) (sound : Sound s) : Sound (s.act action) := by
  have atomic := @perform_atomic s ⟨fun _ => True, fun _ => True⟩ sound action.around
    action.operation ⟨fun _ _ => trivial, fun _ _ _ _ _ _ _ => trivial⟩
  exact atomic.after Sound sound fun _ t changes => changes.sound sound

theorem act_imported (action : Action) (sound : Sound s) (refs : (s.usage.map ImportedUsage.usageRef).Nodup) :
    Imported s.usage (s.act action).usage :=
  perform_imported sound action.around action.operation refs

theorem filter_map_fixed {α : Type} {p : α → Bool} {g : α → α} {rows : List α}
    (fixed : ∀ row ∈ rows, p row = true ∨ p (g row) = true → g row = row) :
    (rows.map g).filter p = rows.filter p := by
  induction rows with
  | nil => rfl
  | cons row rest ih =>
    have later := ih fun other inside => fixed other (List.mem_cons_of_mem _ inside)
    have first := fixed row List.mem_cons_self
    rw [List.map_cons, List.filter_cons, List.filter_cons, later]
    by_cases kept : p row = true ∨ p (g row) = true
    · rw [first kept]
    · rw [if_neg fun h => kept (Or.inr h), if_neg fun h => kept (Or.inl h)]

variable {row : Reservation} {start : Store}

theorem Timely.kept (timely : Timely s action) (sound : Sound s)
    (refs : (s.usage.map ImportedUsage.usageRef).Nodup) (inside : row ∈ s.reservations)
    (settled : row.state = .settled) :
    (s.act action).knownUsage row.subjectId = s.knownUsage row.subjectId := by
  have imported := act_imported action sound refs
  obtain ⟨g, fresh, shape, keeps⟩ := imported.shape
  have apart := imported.refs
  have there : ∀ fact ∈ (s.act action).usage, fact.subjectId = row.subjectId → fact ∈ s.usage :=
    fun fact listed same => timely fact listed ⟨row, inside, same.symm, settled⟩
  rw [shape, List.map_append, List.nodup_append] at apart
  rw [shape] at there
  unfold Store.knownUsage
  rw [shape, List.filter_append, filter_map_fixed]
  · apply List.append_right_eq_self.mpr
    rw [List.filter_eq_nil_iff]
    intro fact new known
    have old := there fact (List.mem_append_right _ new) (of_decide_eq_true known).1
    refine apart.2.2 fact.usageRef ?_ fact.usageRef (List.mem_map_of_mem new) rfl
    rw [List.map_map]
    exact List.mem_map.mpr ⟨fact, old, (keeps fact).1⟩
  · intro fact old known
    have same : (g fact).subjectId = row.subjectId := by
      rcases known with known | known
      · exact (keeps fact).2.trans (of_decide_eq_true known).1
      · exact (of_decide_eq_true known).1
    have back := there (g fact) (List.mem_append_left _ (List.mem_map_of_mem old)) same
    exact List.inj_on_of_nodup_map refs back old (keeps fact).1

theorem act_outcome (action : Action) (sound : Sound s) :
    Outcome s (action.operation.Closes action.around s) (s.act action) :=
  perform_outcome sound action.around action.operation

theorem usage_of_closes {charge : Figures}
    (closes : action.operation.Closes action.around s row charge) :
    (s.act action).usage = s.usage := by
  have still : Still Store.usage := fun _ _ _ _ => rfl
  apply perform_leaves still
  cases kind : action.operation with
  | importUsage subjectId missionId facts =>
    rw [kind] at closes
    exact closes.elim
  | transferTail holdId transferId allocations taskRevision =>
    rw [kind] at closes
    exact closes.elim
  | _ => trivial

theorem act_charged (charged : Charged s) (timely : Timely s action) (whole : Whole s action) :
    Charged (s.act action) := by
  have sound := charged.sound
  have outcome := act_outcome action sound
  refine ⟨act_sound action sound, (act_imported action sound charged.refs).refs, ?_⟩
  intro row' inside' settled
  rcases outcome.settles sound inside' settled with old | ⟨row, inside, live, same, closes, _⟩
  · have covers := charged.covers row' old settled
    unfold Store.knownTokens Store.knownCost at *
    rw [timely.kept sound charged.refs old settled]
    exact covers
  · have covers := closes.covers whole inside live
    unfold Store.knownTokens Store.knownCost Store.knownUsage at *
    rw [usage_of_closes closes, same]
    exact covers

theorem Charged.empty : Charged Store.empty := ⟨Sound.empty, List.nodup_nil, by simp [Store.empty]⟩

theorem run_charged (charged : Charged start) {actions : List Action}
    (timely : Transitions.Each Store.act Timely start actions)
    (whole : Transitions.Each Store.act Whole start actions) :
    Charged (Transitions.run Store.act start actions) := by
  induction actions generalizing start with
  | nil => exact charged
  | cons action rest ih => exact ih (act_charged charged timely.1 whole.1) timely.2 whole.2

theorem run_imported (sound : Sound start) (refs : (start.usage.map ImportedUsage.usageRef).Nodup)
    (actions : List Action) :
    Imported start.usage (Transitions.run Store.act start actions).usage := by
  induction actions generalizing start with
  | nil => exact .refl refs
  | cons action rest ih =>
    have first := act_imported action sound refs
    exact first.trans (ih (act_sound action sound) first.refs)

theorem run_frozen (sound : Sound start) (inside : row ∈ start.reservations)
    (settled : row.state = .settled) (actions : List Action) :
    row ∈ (Transitions.run Store.act start actions).reservations := by
  induction actions generalizing start with
  | nil => exact inside
  | cons action rest ih =>
    have atomic := @perform_atomic start ⟨fun _ => True, fun _ => True⟩ sound action.around
      action.operation ⟨fun _ _ => trivial, fun _ _ _ _ _ _ _ => trivial⟩
    apply ih (act_sound action sound)
    apply atomic.after (fun t => row ∈ t.reservations) inside
    intro _ t changes
    induction changes with
    | refl => exact inside
    | tail first last ih => exact last.frozen (Changes.sound first sound) ih settled

end

/-- No later operation changes a settled reservation or a recorded transfer. -/
theorem settlements_final (before later : List Action) :
    let s := Transitions.run Store.act Store.empty before
    let t := Transitions.run Store.act Store.empty (before ++ later)
    (∀ row ∈ s.reservations, row.state = .settled → row ∈ t.reservations) ∧ Remembers s t := by
  intro s t
  obtain ⟨sound, balanced⟩ := run_sound before
  have joined : t = Transitions.run Store.act s later := Transitions.run_append ..
  rw [joined]
  exact ⟨fun row inside settled => run_frozen sound inside settled later,
    run_remembers sound balanced later⟩

/-- What a settlement comes to: from a live row of the subject to a settled one. -/
structure Settlement (before after final : Store) (row row' : Reservation) : Prop where
  charged : ∀ a ∈ before.accounts, a.accountId ∈ along before.accounts row.accountId →
    ∃ a' ∈ after.accounts, a'.accountId = a.accountId ∧
      ∀ r, a'.charged.at r = a.charged.at r + row'.settledAt.at r
  tokens : final.knownTokens row.subjectId ≤ row'.settledAt.tokens
  cost : final.knownCost row.subjectId ≤ row'.settledAt.costMicros

/-- Along every run in which no fact comes after the settlement of its subject, and no settlement
meets priced and unpriced facts at once, each reference counts once, for one subject, and no
settlement charges an account less than the known facts of its subject. -/
theorem settlements_cover (actions : List Action)
    (timely : Transitions.Each Store.act Timely Store.empty actions)
    (whole : Transitions.Each Store.act Whole Store.empty actions) :
    let final := Transitions.run Store.act Store.empty actions
    (final.usage.map ImportedUsage.usageRef).Nodup ∧
    (∀ before later, actions = before ++ later →
      ∀ fact ∈ (Transitions.run Store.act Store.empty before).usage,
        ∃ fact' ∈ final.usage, fact'.usageRef = fact.usageRef ∧ fact'.subjectId = fact.subjectId) ∧
    ∀ before action later, actions = before ++ action :: later →
      let s := Transitions.run Store.act Store.empty before
      ∀ row ∈ s.reservations, row.state = .reserved →
        ∀ row' ∈ (s.act action).reservations, row'.subjectId = row.subjectId →
          row'.state = .settled → Settlement s (s.act action) final row row' := by
  intro final
  have charged := run_charged Charged.empty timely whole
  refine ⟨charged.refs, ?_, ?_⟩
  · intro before later split fact inside
    have start := run_imported Sound.empty (List.nodup_nil) before
    have imported := run_imported (run_sound before).1 start.refs later
    rw [← Transitions.run_append, ← split] at imported
    obtain ⟨g, fresh, shape, keeps⟩ := imported.shape
    refine ⟨g fact, ?_, keeps fact⟩
    change g fact ∈ (Transitions.run Store.act Store.empty actions).usage
    rw [shape]
    exact List.mem_append_left _ (List.mem_map_of_mem inside)
  · intro before action later split s row inside live row' inside' same settled
    have sound : Sound s := (run_sound before).1
    have last : row' ∈ final.reservations := by
      have kept := run_frozen (act_sound action sound) inside' settled later
      change row' ∈ (Transitions.run Store.act Store.empty actions).reservations
      rw [split, Transitions.run_append]
      exact kept
    have covers := charged.covers row' last settled
    rw [same] at covers
    have fresh : row' ∉ s.reservations := by
      intro old
      rw [sound.only_row old inside same, live] at settled
      cases settled
    rcases (act_outcome action sound).settles sound inside' settled with
      old | ⟨source, there, _, named, _, taken⟩
    · exact absurd old fresh
    · have only : source = row := sound.only_row there inside (named.symm.trans same)
      subst only
      exact ⟨taken, covers.1, covers.2⟩

def settledTrial : List Action := List.map (⟨oneTask, ·⟩) [
  .openAccount "budget:m" "mission" none "m" ⟨some 100, some 50, some 3, none, none, none⟩,
  .reserve "budget:m" "a" 30 10 true 0 none,
  .reserve "budget:m" "b" 30 10 true 0 none,
  .importUsage "a" "m" [⟨"u", 20, 5, some 7, false⟩],
  .importUsage "b" "m" [⟨"v", 20, 5, some 7, false⟩, ⟨"w", 1, 1, none, false⟩],
  .settle "a" 0,
  .settleAtUpperBound "b"]

theorem settlements_cover_trial :
    let before := Transitions.run Store.act Store.empty (settledTrial.take 6)
    let final := Transitions.run Store.act Store.empty settledTrial
    (final.usage.map ImportedUsage.usageRef).Nodup ∧ ∃ row row',
      (row.subjectId = "b" ∧ row'.settledAt.tokens = 30 ∧ final.knownTokens "b" = 27) ∧
      Settlement before final final row row' := by
  intro before final
  have whole : Transitions.Each Store.act Whole Store.empty settledTrial := by
    refine ⟨trivial, trivial, trivial, trivial, trivial, ?_, ?_, trivial⟩
    · intro _
      decide +kernel
    · change Store.Whole _ "b" fun row => row.reservedCostMicros
      decide +kernel
  obtain ⟨refs, _, covers⟩ := settlements_cover settledTrial (by decide +kernel) whole
  have rows : ∃ row ∈ before.reservations, row.state = .reserved ∧ ∃ row' ∈ final.reservations,
      row'.subjectId = row.subjectId ∧ row'.state = .settled ∧
      row.subjectId = "b" ∧ row'.settledAt.tokens = 30 ∧ final.knownTokens "b" = 27 := by
    decide +kernel
  obtain ⟨row, inside, live, row', inside', same, settled, figures⟩ := rows
  exact ⟨refs, row, row', figures, covers (settledTrial.take 6) ⟨oneTask, .settleAtUpperBound "b"⟩
    [] rfl row inside live row' inside' same settled⟩

def mixed (operation : Operation) : List Action := List.map (⟨oneTask, ·⟩) [
  .openAccount "budget:m" "mission" none "m" ⟨some 100, some 50, some 3, none, none, none⟩,
  .reserve "budget:m" "a" 30 0 true 0 none,
  .importUsage "a" "m" [⟨"u", 20, 5, some 7, false⟩, ⟨"v", 1, 1, none, false⟩],
  operation]

/-- The price of the one fact is charged to nobody, even at the upper bound. -/
theorem mixed_undercounts :
    [.settle "a" 0, .settleKnown "a" 0, .settleAtUpperBound "a"].Forall fun operation =>
      Transitions.Each Store.act Timely Store.empty (mixed operation) ∧
      let final := Transitions.run Store.act Store.empty (mixed operation)
      final.knownCost "a" = 7 ∧
      (∃ row ∈ final.reservations, row.subjectId = "a" ∧ row.state = .settled ∧
        row.settledAt.costMicros = 0) ∧
      ∀ account ∈ final.accounts, account.charged.costMicros = 0 := by
  rw [List.forall_iff_forall_mem]
  intro operation listed
  simp only [List.mem_cons, List.not_mem_nil, or_false] at listed
  rcases listed with rfl | rfl | rfl <;> decide +kernel

end Budgets
