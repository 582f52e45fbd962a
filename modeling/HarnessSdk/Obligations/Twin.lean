import HarnessSdk.Library.Settling
import HarnessSdk.Obligations.Runs
import HarnessSdk.Obligations.Store

/-! The store and the ledger do the same as long as no call meets a rule that only one of them
has. -/
namespace Obligations
open PyDict PyText Checks Network Planning Metered

/-! The calls that both sides have. -/

inductive DutyCall
  | recordFailure (count : Int)
  | recordSpend (costMicros attempts tokens : Int)
  | noteShapeChange (change : ShapeChange) (detail : String)
  | setLifecycle (lifecycle : ObligationLifecycle) (resolutionRef : Option String)
  | admitDemand
  | withdrawDemand
  | consumeFuel (expansion : ExpansionRecord)

/-- A registration with the store's clock reading, or a call on one duty. -/
inductive Call
  | register (obligation : Obligation) (recursionFuel : Option Int) (now : Nat)
  | amend (target : ObligationId) (call : DutyCall)

def DutyCall.operation (target : ObligationId) : DutyCall → Operation
  | .recordFailure count => .recordFailure target count
  | .recordSpend costMicros attempts tokens => .recordSpend target costMicros attempts tokens
  | .noteShapeChange change detail => .noteShapeChange target change detail
  | .setLifecycle lifecycle resolutionRef => .setLifecycle target lifecycle resolutionRef
  | .admitDemand => .admitDemand target
  | .withdrawDemand => .withdrawDemand target
  | .consumeFuel expansion => .consumeFuel target expansion

def Call.operation : Call → Operation
  | .register obligation recursionFuel _ => .register obligation recursionFuel
  | .amend target call => call.operation target

def DutyCall.stored (mission target : String) : DutyCall → Stored (Option FuelDecision)
  | .recordFailure count => do
    let _ ← ObligationStore.recordFailure mission target count
    pure none
  | .recordSpend costMicros attempts tokens => do
    let _ ← ObligationStore.recordSpend mission target costMicros attempts tokens
    pure none
  | .noteShapeChange change detail => do
    let _ ← ObligationStore.noteShapeChange mission target change detail
    pure none
  | .setLifecycle lifecycle resolutionRef => do
    let _ ← ObligationStore.setLifecycle mission target lifecycle resolutionRef
    pure none
  | .admitDemand => do
    let _ ← ObligationStore.admitDemand mission target
    pure none
  | .withdrawDemand => do
    let _ ← ObligationStore.withdrawDemand mission target
    pure none
  | .consumeFuel expansion => do
    let decision ← ObligationStore.consumeFuel mission target expansion
    pure (some decision)

def Call.stored (mission : String) : Call → Stored (Option FuelDecision)
  | .register obligation recursionFuel now => do
    ObligationStore.register obligation recursionFuel now
    pure none
  | .amend target call => call.stored mission target

/-! What a call does to one account. -/

def DutyCall.onAccount : DutyCall → Account → Except Message (Account × Option FuelDecision)
  | .recordFailure count, acc => do
    let count ← index count "count" 1
    pure ({ acc with failureCount := acc.failureCount + count }, none)
  | .recordSpend costMicros attempts tokens, acc => do
    let spent ← index costMicros "cost_micros" 0
    let tries ← index attempts "attempts" 0
    let spentTokens ← index tokens "tokens" 0
    pure ({ acc with
      consumedCostMicros := acc.consumedCostMicros + spent
      consumedAttempts := acc.consumedAttempts + tries
      consumedTokens := acc.consumedTokens + spentTokens }, none)
  | .noteShapeChange change detail, acc => do
    text detail "detail" 512
    pure ({ acc with shapeChanges := acc.shapeChanges ++ [(change, detail)] }, none)
  | .setLifecycle lifecycle resolutionRef, acc => do
    optionalIdentifier resolutionRef "resolution_ref"
    require (lifecycle = .satisfied → resolutionRef.isSome)
      [.text "a SATISFIED obligation needs a resolution_ref"]
    pure ({ acc with
      lifecycle := lifecycle, resolutionRef := resolutionRef.or acc.resolutionRef }, none)
  | .admitDemand, acc => do
    require (acc.lifecycle = .unsatisfied)
      [.text "a demand may only be admitted against an open obligation"]
    require (acc.demandAdmitted = false) []
    pure ({ acc with demandAdmitted := true }, none)
  | .withdrawDemand, acc => do
    require (acc.demandAdmitted = true) []
    pure ({ acc with demandAdmitted := false }, none)
  | .consumeFuel expansion, acc =>
    if expansion.key ∈ acc.expansionKeys then
      .ok (acc, some ⟨.repeatedExpansion, acc.remaining,
        "this obligation was already expanded with the same method and parameters"⟩)
    else if acc.fuelLimit ≤ acc.fuelUsed then
      .ok (acc, some ⟨.boundReached, 0, "recursion fuel for this obligation is exhausted"⟩)
    else
      .ok (acc.expand expansion.key,
        some ⟨.granted, (acc.expand expansion.key).remaining, "expansion admitted"⟩)

section
variable {s : ObligationLedger} {target : ObligationId} {acc : Account}

theorem account_after_put (acc : Account) :
    account target (s.put target acc) = (.ok acc.view, s.put target acc) := by
  unfold account
  rw [bind_of_ran (requireAccount_ran (get?_set_self _ _ _))]
  rfl

theorem settles_put (acc : Account) :
    Settles ((put target acc >>= fun _ => account target >>= fun _ =>
      (pure none : Work (Option FuelDecision))) s) s (s.put target)
      (.ok (acc, none) : Except Message _) :=
  settles_after rfl (settles_after (account_after_put acc) rfl)

theorem perform_amend (found : get? s.accounts target = some acc) (call : DutyCall) :
    Settles (perform (call.operation target) s) s (s.put target) (call.onAccount acc) := by
  have ran := requireAccount_ran found
  cases call <;> unfold DutyCall.operation perform DutyCall.onAccount
  case consumeFuel expansion =>
    unfold consumeFuel
    simp only [bind_assoc]
    apply settles_after ran
    by_cases seen : expansion.key ∈ acc.expansionKeys
    · rw [if_pos seen, if_pos seen]
      exact congrArg (_, ·) (put_same found).symm
    · rw [if_neg seen, if_neg seen]
      by_cases spent : acc.fuelLimit ≤ acc.fuelUsed
      · rw [if_pos spent, if_pos spent]
        exact congrArg (_, ·) (put_same found).symm
      · rw [if_neg spent, if_neg spent]
        exact rfl
  case recordFailure =>
    unfold recordFailure
    simp only [bind_assoc]
    apply settles_after ran
    apply settles_lift fun _ => Iff.rfl
    intro count _
    exact rfl
  all_goals
    simp only [recordSpend, noteShapeChange, setLifecycle, admitDemand, withdrawDemand, bind_assoc]
    apply settles_after ran
    repeat first
      | (apply settles_lift fun _ => Iff.rfl; intro _ _)
      | (apply settles_ensure; intro _)
    exact settles_put _

end

/-! What a call does to the rows of one duty. -/

def DutyCall.columns : DutyCall → ObligationRow → Except StoreError ObligationRow
  | .recordFailure count, row => do
    let steps ← (index count "count" 1).mapError .contract
    pure { row with failureCount := row.failureCount + steps }
  | .recordSpend costMicros attempts tokens, row => do
    let spent ← (index costMicros "cost_micros" 0).mapError .contract
    let tries ← (index attempts "attempts" 0).mapError .contract
    let usedTokens ← (index tokens "tokens" 0).mapError .contract
    pure { row with
      spentCostMicros := row.spentCostMicros + spent
      spentAttempts := row.spentAttempts + tries
      spentTokens := row.spentTokens + usedTokens }
  | .setLifecycle lifecycle resolutionRef, row => do
    (optionalIdentifier resolutionRef "resolution_ref").mapError .contract
    require (lifecycle = .satisfied → (resolutionRef.or row.resolutionRef).isSome)
      (.conflict [.text "a SATISFIED obligation needs a resolution_ref"])
    pure { row with
      lifecycle := lifecycle
      resolutionRef := resolutionRef.or row.resolutionRef
      document := { row.document with
        lifecycle := lifecycle, resolutionRef := resolutionRef.or row.resolutionRef } }
  | .admitDemand, row => do
    require (row.lifecycle = .unsatisfied)
      (.conflict [.text "a demand may only be admitted against an open obligation"])
    require (row.demandAdmitted = false) (.conflict [])
    pure { row with demandAdmitted := true }
  | .withdrawDemand, row => do
    require (row.demandAdmitted = true) (.conflict [])
    pure { row with demandAdmitted := false }
  | _, row => .ok row

def DutyRows.note (duty : DutyRows) (change : ShapeChange) (detail : String) : DutyRows :=
  { duty with
    shapeChanges := duty.shapeChanges ++
      [⟨change, detail, nextOrdinal (duty.shapeChanges.map (·.ordinal))⟩] }

def DutyRows.expand (duty : DutyRows) (expansion : ExpansionRecord) : DutyRows :=
  { duty with
    row := { duty.row with
      fuelUsed := duty.row.fuelUsed + 1, fuelRemaining := duty.row.fuelRemaining - 1 }
    expansions := duty.expansions ++
      [⟨expansion, nextOrdinal (duty.expansions.map (·.ordinal))⟩] }

def DutyCall.onDuty : DutyCall → DutyRows → Except StoreError (DutyRows × Option FuelDecision)
  | .noteShapeChange change detail, duty => do
    (text detail "detail" 512).mapError .contract
    pure (duty.note change detail, none)
  | .consumeFuel expansion, duty =>
    if ∃ row ∈ duty.expansions, row.record.key = expansion.key then
      .ok (duty, some ⟨.repeatedExpansion, duty.row.fuelRemaining,
        "this obligation was already expanded with the same method and parameters"⟩)
    else if duty.row.fuelRemaining ≤ 0 then
      .ok (duty, some ⟨.boundReached, 0, "recursion fuel for this obligation is exhausted"⟩)
    else do
      (duty.expand expansion).row.check
      pure (duty.expand expansion,
        some ⟨.granted, duty.row.fuelRemaining - 1, "expansion admitted"⟩)
  | call, duty => do
    let row ← call.columns duty.row
    row.check
    pure ({ duty with row := row }, none)

def Tables.put (t : Tables) (mission target : String) (rows : DutyRows) : Tables :=
  { t with duties := set t.duties (mission, target) rows }

theorem mapError_eq_ok {ε δ α : Type} {x : Except ε α} {f : ε → δ} (a : α) :
    x.mapError f = .ok a ↔ x = .ok a := by
  cases x with
  | ok b => simp [Except.mapError]
  | error e => simp [Except.mapError]

theorem nextOrdinal_fresh {ordinals : List Nat} : nextOrdinal ordinals ∉ ordinals := by
  intro inside
  have bound : ∀ start : Nat, (∀ n ∈ ordinals, n ≤ ordinals.foldl max start) ∧
      start ≤ ordinals.foldl max start := by
    clear inside
    induction ordinals with
    | nil => exact fun start => ⟨by simp, Nat.le_refl _⟩
    | cons n rest ih =>
      intro start
      obtain ⟨rest_le, start_le⟩ := ih (max start n)
      rw [List.foldl_cons]
      refine ⟨?_, by omega⟩
      intro k inside
      rcases List.mem_cons.mp inside with rfl | inside
      · omega
      · exact rest_le k inside
  have low := (bound 0).1 _ inside
  unfold nextOrdinal at low
  omega

section
variable {t : Tables} {mission target : String} {rows : DutyRows} {α β : Type}
  {effect : Except StoreError (β × α)} {put : β → Tables}

variable {body statement : Stored α} {t' : Tables} {e : StoreError}

theorem transaction_ran {a : α} (ran : body t = (.ok a, t')) :
    transaction body t = (.ok a, t') := by
  unfold transaction
  rw [ran]

theorem transaction_refused (stopped : body t = (.error e, t')) :
    transaction body t = (.error e, t) := by
  unfold transaction
  rw [stopped]

theorem orConflict_ran {a : α} (message : String) (ran : statement t = (.ok a, t')) :
    orConflict message statement t = (.ok a, t') := by
  unfold orConflict
  rw [ran]

theorem orConflict_refused (message : String) (stopped : statement t = (.error e, t')) :
    ∃ e', orConflict message statement t = (.error e', t') := by
  unfold orConflict
  rw [stopped]
  cases e with
  | integrity text => exact ⟨_, rfl⟩
  | contract text => exact ⟨_, rfl⟩
  | conflict text => exact ⟨_, rfl⟩

theorem settles_transaction {γ : Type} {f : γ → Stored α} {body : Stored γ}
    (settles : Settles ((body >>= f) t) t put effect) :
    Settles ((transaction body >>= f) t) t put effect := by
  cases run : body t with
  | mk outcome t' =>
    cases outcome with
    | ok c =>
      rw [bind_of_ran run] at settles
      exact settles_after (transaction_ran run) settles
    | error e =>
      rw [bind_of_stopped run] at settles
      cases effect with
      | ok end_ => cases settles
      | error e' => exact settles_stopped (transaction_refused run)

theorem requireRow_ran (found : get? t.duties (mission, target) = some rows) :
    ObligationStore.requireRow mission target t = (.ok rows, t) := by
  unfold ObligationStore.requireRow
  rw [bind_of_ran (rfl : view _ t = (.ok (get? t.duties (mission, target)), t)), found]
  rfl

theorem updateRow_ran (found : get? t.duties (mission, target) = some rows)
    {change : ObligationRow → ObligationRow} (checked : (change rows.row).check = .ok ()) :
    ObligationStore.updateRow mission target change t =
      (.ok 1, t.put mission target { rows with row := change rows.row }) := by
  unfold ObligationStore.updateRow
  rw [bind_of_ran (rfl : view _ t = (.ok (get? t.duties (mission, target)), t)), found]
  dsimp only
  exact bind_of_ran (lift_ran checked)

theorem updateRow_refused (found : get? t.duties (mission, target) = some rows)
    {change : ObligationRow → ObligationRow} {e : StoreError}
    (failed : (change rows.row).check = .error e) :
    ObligationStore.updateRow mission target change t = (.error e, t) := by
  unfold ObligationStore.updateRow
  rw [bind_of_ran (rfl : view _ t = (.ok (get? t.duties (mission, target)), t)), found]
  dsimp only
  exact bind_of_stopped (lift_stopped failed)

theorem updateRow_absent (absent : get? t.duties (mission, target) = none)
    (change : ObligationRow → ObligationRow) :
    ObligationStore.updateRow mission target change t = (.ok 0, t) := by
  unfold ObligationStore.updateRow
  rw [bind_of_ran (rfl : view _ t = (.ok (get? t.duties (mission, target)), t)), absent]
  rfl

theorem requireRow_absent (absent : get? t.duties (mission, target) = none) :
    ObligationStore.requireRow mission target t =
      (.error (ObligationStore.notRegistered mission target), t) := by
  unfold ObligationStore.requireRow
  rw [bind_of_ran (rfl : view _ t = (.ok (get? t.duties (mission, target)), t)), absent]
  rfl

end

/-! The store's calls on a duty that is there. -/

section
variable {t : Tables} {mission target : String} {rows : DutyRows}

theorem validated_ran {α : Type} {x : Except Message α} {a : α} (checked : x = .ok a) :
    validated x t = (.ok a, t) :=
  lift_ran (mapError_eq_ok a |>.mpr checked)

section
variable (mission_valid : identifier mission "mission_id" = .ok ())
include mission_valid

theorem account_ran
    (target_valid : identifier target "obligation_id" = .ok ())
    (found : get? t.duties (mission, target) = some rows) :
    ObligationStore.account mission target t = (.ok rows.view, t) := by
  unfold ObligationStore.account
  rw [bind_of_ran (validated_ran mission_valid), bind_of_ran (validated_ran target_valid),
    bind_of_ran (requireRow_ran found)]
  rfl

theorem settles_account
    (target_valid : identifier target "obligation_id" = .ok ()) (rows : DutyRows) :
    Settles ((ObligationStore.account mission target >>= fun _ =>
      (pure none : Stored (Option FuelDecision))) (t.put mission target rows)) t
      (t.put mission target) (.ok (rows, none) : Except StoreError _) :=
  settles_after (account_ran mission_valid target_valid (get?_set_self _ _ _)) rfl

end

theorem settles_update (found : get? t.duties (mission, target) = some rows)
    {change : ObligationRow → ObligationRow} {f : Nat → Stored (Option FuelDecision)}
    {message : Option String}
    (rest : Settles (f 1 (t.put mission target { rows with row := change rows.row })) t
      (t.put mission target)
      (.ok ({ rows with row := change rows.row }, none) : Except StoreError _)) :
    Settles (((match message with
        | none => ObligationStore.updateRow mission target change
        | some message => orConflict message (ObligationStore.updateRow mission target change))
        >>= f) t) t (t.put mission target)
      (do
        (change rows.row).check
        pure ({ rows with row := change rows.row }, none)) := by
  cases checked : (change rows.row).check with
  | ok u =>
    have ran := updateRow_ran found checked
    cases message with
    | none => exact settles_after ran rest
    | some message => exact settles_after (orConflict_ran message ran) rest
  | error e =>
    have stopped := updateRow_refused found checked
    cases message with
    | none => exact settles_stopped stopped
    | some message =>
      obtain ⟨e', stopped'⟩ := orConflict_refused message stopped
      exact settles_stopped stopped'

theorem put_same_rows (found : get? t.duties (mission, target) = some rows) :
    t.put mission target rows = t := by
  unfold Tables.put
  rw [set_same found]

theorem put_put (t : Tables) (first second : DutyRows) :
    (t.put mission target first).put mission target second = t.put mission target second := by
  unfold Tables.put
  rw [set_set]

theorem insertExpansion_run
    {expansion : ExpansionRecord} (fresh : ∀ row ∈ rows.expansions, row.record.key ≠ expansion.key) :
    match (rows.expand expansion).row.check with
    | .ok _ => ObligationStore.insertExpansion mission target rows expansion t =
      (.ok (), t.put mission target (rows.expand expansion))
    | .error e => ∃ t', ObligationStore.insertExpansion mission target rows expansion t =
      (.error e, t') := by
  have unused : ∀ row ∈ rows.expansions,
      row.ordinal ≠ nextOrdinal (rows.expansions.map (·.ordinal)) := by
    intro row inside same
    apply @nextOrdinal_fresh (rows.expansions.map (·.ordinal))
    exact List.mem_map.mpr ⟨row, inside, same⟩
  obtain ⟨grown, made⟩ : ∃ grown : DutyRows, grown = { rows with expansions := rows.expansions ++
      [⟨expansion, nextOrdinal (rows.expansions.map (·.ordinal))⟩] } := ⟨_, rfl⟩
  have inserted : ∀ f : Unit → Stored Unit, (ObligationStore.write mission target grown >>= f) t =
      f () (t.put mission target grown) := fun f => rfl
  unfold ObligationStore.insertExpansion
  rw [bind_of_ran (ensure_ran fresh), bind_of_ran (ensure_ran unused), ← made, inserted]
  cases checked : (rows.expand expansion).row.check with
  | ok u =>
    have updated := @updateRow_ran (t.put mission target grown) mission target _
      (get?_set_self _ _ _) (fun row => { row with
        fuelUsed := row.fuelUsed + 1, fuelRemaining := row.fuelRemaining - 1 }) (made ▸ checked)
    rw [bind_of_ran updated, made]
    exact congrArg (_, ·) (put_put t _ _)
  | error e =>
    have stopped := @updateRow_refused (t.put mission target grown) mission target _
      (get?_set_self _ _ _) (fun row => { row with
        fuelUsed := row.fuelUsed + 1, fuelRemaining := row.fuelRemaining - 1 }) e (made ▸ checked)
    exact ⟨_, bind_of_stopped stopped⟩

theorem stored_amend (mission_valid : identifier mission "mission_id" = .ok ())
    (target_valid : identifier target "obligation_id" = .ok ())
    (found : get? t.duties (mission, target) = some rows) (call : DutyCall) :
    Settles (call.stored mission target t) t (t.put mission target) (call.onDuty rows) := by
  have mission_ran := @validated_ran t _ _ _ mission_valid
  have target_ran := @validated_ran t _ _ _ target_valid
  have ran := requireRow_ran found
  cases call <;>
    simp only [DutyCall.stored, ObligationStore.recordFailure, ObligationStore.recordSpend,
      ObligationStore.noteShapeChange, ObligationStore.setLifecycle, ObligationStore.admitDemand,
      ObligationStore.withdrawDemand, ObligationStore.consumeFuel, DutyCall.onDuty,
      DutyCall.columns, bind_assoc]
  case' recordSpend => iterate 2 (apply settles_lift fun _ => Iff.rfl; intro _ _)
  case' recordFailure | recordSpend | noteShapeChange | setLifecycle =>
    apply settles_lift fun _ => Iff.rfl
    intro _ _
  all_goals
    apply settles_after mission_ran
    apply settles_after target_ran
  case consumeFuel expansion =>
    by_cases seen : ∃ row ∈ rows.expansions, row.record.key = expansion.key
    · apply settles_transaction
      simp only [bind_assoc]
      apply settles_after ran
      rw [if_pos seen, if_pos seen]
      exact congrArg (_, ·) (put_same_rows found).symm
    · by_cases spent : rows.row.fuelRemaining ≤ 0
      · apply settles_transaction
        simp only [bind_assoc]
        apply settles_after ran
        rw [if_neg seen, if_neg seen, if_pos spent, if_pos spent]
        exact congrArg (_, ·) (put_same_rows found).symm
      · have fresh : ∀ row ∈ rows.expansions, row.record.key ≠ expansion.key :=
          fun row inside same => seen ⟨row, inside, same⟩
        have inserted := @insertExpansion_run t mission target rows expansion fresh
        rw [if_neg seen, if_neg spent]
        cases checked : (rows.expand expansion).row.check with
        | ok u =>
          rw [checked] at inserted
          refine settles_after (transaction_ran ?_) rfl
          rw [bind_of_ran ran, if_neg seen, if_neg spent]
          exact bind_of_ran (orConflict_ran _ inserted)
        | error e =>
          rw [checked] at inserted
          obtain ⟨t', stopped⟩ := inserted
          obtain ⟨e', stopped'⟩ := orConflict_refused
            ("expansion of " ++ target ++ " was rejected: ") stopped
          have refused : ∀ body : Stored FuelDecision, body t = (.error e', t') →
              Settles ((transaction body >>= fun decision => pure (some decision)) t) t
                (t.put mission target)
                (.error e : Except StoreError (DutyRows × Option FuelDecision)) :=
            fun body stopped => settles_stopped (transaction_refused stopped)
          apply refused
          rw [bind_of_ran ran, if_neg seen, if_neg spent]
          exact bind_of_stopped stopped'
  all_goals
    apply settles_transaction
    simp only [bind_assoc]
  case recordFailure =>
    apply @settles_update _ _ _ _ found _ _ none
    apply settles_after (ensure_ran Nat.one_ne_zero)
    exact settles_after (requireRow_ran (get?_set_self _ _ _)) rfl
  case recordSpend =>
    apply @settles_update _ _ _ _ found _ _ none
    apply settles_after (ensure_ran Nat.one_ne_zero)
    exact settles_account mission_valid target_valid _
  all_goals apply settles_after ran
  case noteShapeChange =>
    have fresh : ∀ row ∈ rows.shapeChanges,
        row.ordinal ≠ nextOrdinal (rows.shapeChanges.map (·.ordinal)) := by
      intro row inside same
      apply @nextOrdinal_fresh (rows.shapeChanges.map (·.ordinal))
      exact List.mem_map.mpr ⟨row, inside, same⟩
    apply settles_after (orConflict_ran _ (ensure_ran fresh))
    apply settles_after rfl
    exact settles_account mission_valid target_valid _
  all_goals
    apply settles_ensure
    intro _
  case setLifecycle =>
    apply @settles_update _ _ _ _ found _ _ (some _)
    exact settles_account mission_valid target_valid _
  case' admitDemand =>
    apply settles_ensure
    intro _
  all_goals
    apply @settles_update _ _ _ _ found _ _ none
    exact settles_account mission_valid target_valid _

end

/-! A duty of the tables and the account that mirrors it. -/

structure ObligationRow.Storable (row : ObligationRow) : Prop where
  bounded : ∀ counter ∈ row.counters, counter.2 ≤ maxInteger
  nonneg : ∀ counter ∈ row.counters, 0 ≤ counter.2
  within : row.fuelUsed ≤ row.fuelLimit
  shared : row.demandAdmitted = false ∨ row.lifecycle = .unsatisfied
  remaining : row.fuelRemaining = row.fuelLimit - row.fuelUsed
  parent : row.parentObligationId ≠ some row.obligationId
  resolved : row.lifecycle = .satisfied → row.resolutionRef.isSome

theorem check_eq_ok (row : ObligationRow) : row.check = .ok () ↔ row.Storable := by
  unfold ObligationRow.check
  simp only [bind_eq_ok, Unique.exists_iff, PUnit.default_eq_unit, require_eq_ok, every_eq_ok]
  constructor
  · rintro ⟨bounded, nonneg, within, shared, remaining, parent, resolved⟩
    exact ⟨bounded, nonneg, within, shared, remaining, parent, resolved⟩
  · intro h
    exact ⟨h.bounded, h.nonneg, h.within, h.shared, h.remaining, h.parent, h.resolved⟩

structure Mirrors (mission : String) (target : ObligationId) (duty : DutyRows) (acc : Account) :
    Prop where
  mission_valid : identifier mission "mission_id" = .ok ()
  target_valid : identifier target "obligation_id" = .ok ()
  stored_id : duty.row.obligationId = target
  account_id : acc.obligation.obligationId = target
  storable : duty.row.Storable
  failureCount : acc.failureCount = duty.row.failureCount
  consumedCostMicros : acc.consumedCostMicros = duty.row.spentCostMicros
  consumedAttempts : acc.consumedAttempts = duty.row.spentAttempts
  consumedTokens : acc.consumedTokens = duty.row.spentTokens
  fuelLimit : acc.fuelLimit = duty.row.fuelLimit
  fuelUsed : acc.fuelUsed = duty.row.fuelUsed
  demandAdmitted : acc.demandAdmitted = duty.row.demandAdmitted
  lifecycle : acc.lifecycle = duty.row.lifecycle
  resolutionRef : acc.resolutionRef = duty.row.resolutionRef
  expansionKeys : acc.expansionKeys = duty.expansions.map (·.record.key)
  shapeChanges : acc.shapeChanges = duty.shapeChanges.map fun row => (row.change, row.detail)

variable {mission : String} {target : ObligationId} {duty : DutyRows} {acc : Account}

theorem Mirrors.view (mirrors : Mirrors mission target duty acc) : acc.view = duty.view := by
  unfold Account.view DutyRows.view
  simp only [mirrors.account_id, mirrors.stored_id, mirrors.failureCount,
    mirrors.consumedCostMicros, mirrors.consumedAttempts, mirrors.consumedTokens,
    mirrors.fuelLimit, mirrors.fuelUsed, mirrors.demandAdmitted, mirrors.lifecycle,
    mirrors.resolutionRef, mirrors.expansionKeys, mirrors.shapeChanges, List.length_map]

theorem Mirrors.remaining (mirrors : Mirrors mission target duty acc) :
    acc.remaining = duty.row.fuelRemaining := by
  have within := mirrors.storable.within
  unfold Account.remaining
  rw [mirrors.fuelLimit, mirrors.fuelUsed, mirrors.storable.remaining]
  omega

/-! Where the two sides agree. -/

/-- Whether the store and the ledger have the same rule for the call on this row: its sums stay
below the largest integer of a column, no duty with an admitted demand is closed, and no duty is
satisfied by the resolution it had before. -/
def DutyCall.Agrees (row : ObligationRow) : DutyCall → Prop
  | .recordFailure count =>
    index count "count" 1 = .ok count → row.failureCount + count ≤ maxInteger
  | .recordSpend costMicros attempts tokens =>
    index costMicros "cost_micros" 0 = .ok costMicros →
    index attempts "attempts" 0 = .ok attempts → index tokens "tokens" 0 = .ok tokens →
    row.spentCostMicros + costMicros ≤ maxInteger ∧ row.spentAttempts + attempts ≤ maxInteger ∧
      row.spentTokens + tokens ≤ maxInteger
  | .setLifecycle lifecycle resolutionRef =>
    optionalIdentifier resolutionRef "resolution_ref" = .ok () →
    (row.demandAdmitted = true → lifecycle ≠ .unsatisfied →
      lifecycle = .satisfied ∧ resolutionRef = none) ∧
    (row.demandAdmitted = false → lifecycle = .satisfied → resolutionRef = none →
      row.resolutionRef = none)
  | _ => True

section
variable {mission : String} {target : ObligationId} {duty : DutyRows} {acc : Account}

/-- What the two sides give for one call: the same decision, and a duty and an account that still
mirror each other. -/
def Alike (mission : String) (target : ObligationId) (stored : DutyRows × Option FuelDecision)
    (kept : Account × Option FuelDecision) : Prop :=
  stored.2 = kept.2 ∧ Mirrors mission target stored.1 kept.1

theorem together_checked {row : ObligationRow} {acc' : Account}
    (mirrors : Mirrors mission target { duty with row := row } acc') :
    Together (Alike mission target)
      (do
        row.check
        pure ({ duty with row := row }, none))
      (.ok (acc', none) : Except Message _) := by
  have passed : row.check = .ok () := (check_eq_ok row).mpr mirrors.storable
  rw [passed]
  exact ⟨rfl, mirrors⟩

theorem onDuty_together (mirrors : Mirrors mission target duty acc) (call : DutyCall)
    (agrees : call.Agrees duty.row) :
    Together (Alike mission target) (call.onDuty duty) (call.onAccount acc) := by
  have bounded := mirrors.storable.bounded
  have nonneg := mirrors.storable.nonneg
  simp only [ObligationRow.counters, List.forall_mem_cons] at bounded nonneg
  cases call <;>
    simp only [DutyCall.onDuty, DutyCall.columns, DutyCall.onAccount, bind_assoc]
  case recordFailure count =>
    apply together_bind fun c => mapError_eq_ok c
    intro steps indexed
    obtain ⟨rfl, low, high⟩ := index_eq_ok.mp indexed
    have room := agrees indexed
    apply together_checked
    refine { mirrors with storable := ?_, failureCount := ?_ }
    · refine { mirrors.storable with bounded := ?_, nonneg := ?_ } <;>
        simp only [ObligationRow.counters, List.forall_mem_cons]
      · exact ⟨room, bounded.2⟩
      · exact ⟨by omega, nonneg.2⟩
    · exact congrArg (· + steps) mirrors.failureCount
  case recordSpend costMicros attempts tokens =>
    apply together_bind fun c => mapError_eq_ok c
    intro spent cost
    apply together_bind fun c => mapError_eq_ok c
    intro tries counted
    apply together_bind fun c => mapError_eq_ok c
    intro usedTokens weighed
    obtain ⟨rfl, cost_low, _⟩ := index_eq_ok.mp cost
    obtain ⟨rfl, tries_low, _⟩ := index_eq_ok.mp counted
    obtain ⟨rfl, tokens_low, _⟩ := index_eq_ok.mp weighed
    obtain ⟨cost_room, tries_room, tokens_room⟩ := agrees cost counted weighed
    apply together_checked
    refine { mirrors with
      storable := ?_, consumedCostMicros := ?_, consumedAttempts := ?_, consumedTokens := ?_ }
    · refine { mirrors.storable with bounded := ?_, nonneg := ?_ } <;>
        simp only [ObligationRow.counters, List.forall_mem_cons]
      · exact ⟨bounded.1, tokens_room, cost_room, tries_room, bounded.2.2.2.2⟩
      · exact ⟨nonneg.1, by omega, by omega, by omega, nonneg.2.2.2.2⟩
    · exact congrArg (· + spent) mirrors.consumedCostMicros
    · exact congrArg (· + tries) mirrors.consumedAttempts
    · exact congrArg (· + usedTokens) mirrors.consumedTokens
  case noteShapeChange change detail =>
    apply together_bind fun c => mapError_eq_ok c
    intro _ _
    refine ⟨rfl, { mirrors with shapeChanges := ?_ }⟩
    simp [DutyRows.note, mirrors.shapeChanges]
  case setLifecycle lifecycle resolutionRef =>
    apply together_bind fun c => mapError_eq_ok c
    intro _ given
    obtain ⟨shared, resolved⟩ := agrees given
    by_cases closing : duty.row.demandAdmitted = true ∧ lifecycle ≠ .unsatisfied
    · -- Both refuse: the ledger for want of a resolution, the store at the latest by its CHECK.
      obtain ⟨rfl, rfl⟩ := shared closing.1 closing.2
      have failed : require (ObligationLifecycle.satisfied = .satisfied → (none : Option String).isSome)
          ([.text "a SATISFIED obligation needs a resolution_ref"] : Message) =
          .error [.text "a SATISFIED obligation needs a resolution_ref"] :=
        require_eq_error.mpr ⟨by simp, rfl⟩
      rw [failed]
      apply together_refused
      intro _ ends
      obtain ⟨_, _, ends⟩ := bind_eq_ok.mp ends
      obtain ⟨_, ⟨rfl⟩, ends⟩ := bind_eq_ok.mp ends
      obtain ⟨_, checked, _⟩ := bind_eq_ok.mp ends
      rcases ((check_eq_ok _).mp checked).shared with unshared | is_open
      · rw [closing.1] at unshared
        cases unshared
      · cases is_open
    · have same : (lifecycle = .satisfied → (resolutionRef.or duty.row.resolutionRef).isSome) ↔
          (lifecycle = .satisfied → resolutionRef.isSome) := by
        cases resolutionRef with
        | some ref => simp
        | none =>
          refine forall_congr' fun satisfied => ?_
          subst satisfied
          have unshared : duty.row.demandAdmitted = false := by simpa using closing
          simp [resolved unshared rfl rfl]
      apply together_require same
      intro resolves
      apply together_checked
      have shared' : duty.row.demandAdmitted = false ∨ lifecycle = .unsatisfied := by
        simpa [or_iff_not_imp_left] using closing
      exact { mirrors with
        storable := { mirrors.storable with shared := shared', resolved := same.mpr resolves }
        lifecycle := rfl
        resolutionRef := congrArg (resolutionRef.or ·) mirrors.resolutionRef }
  case admitDemand =>
    apply together_require (by rw [mirrors.lifecycle])
    intro is_open
    apply together_require (by rw [mirrors.demandAdmitted])
    intro _
    apply together_checked
    rw [mirrors.lifecycle] at is_open
    exact { mirrors with
      storable := { mirrors.storable with shared := Or.inr is_open }
      demandAdmitted := rfl }
  case withdrawDemand =>
    apply together_require (by rw [mirrors.demandAdmitted])
    intro _
    apply together_checked
    exact { mirrors with
      storable := { mirrors.storable with shared := Or.inl rfl }
      demandAdmitted := rfl }
  case consumeFuel expansion =>
    have seen_iff : expansion.key ∈ acc.expansionKeys ↔
        ∃ row ∈ duty.expansions, row.record.key = expansion.key := by
      rw [mirrors.expansionKeys, List.mem_map]
    have left := mirrors.storable.remaining
    by_cases seen : expansion.key ∈ acc.expansionKeys
    · rw [if_pos seen, if_pos (seen_iff.mp seen), mirrors.remaining]
      exact ⟨rfl, mirrors⟩
    · rw [if_neg seen, if_neg (fun found => seen (seen_iff.mpr found)), mirrors.fuelLimit,
        mirrors.fuelUsed]
      by_cases spent : duty.row.fuelLimit ≤ duty.row.fuelUsed
      · rw [if_pos spent, if_pos (by omega)]
        exact ⟨rfl, mirrors⟩
      · rw [if_neg spent, if_neg (by omega)]
        have expanded : Mirrors mission target (duty.expand expansion) (acc.expand expansion.key) := by
          refine { mirrors with storable := ?_, fuelUsed := ?_, expansionKeys := ?_ }
          · refine { mirrors.storable with
              bounded := ?_, nonneg := ?_, within := ?_, remaining := ?_ } <;>
              simp only [ObligationRow.counters, List.forall_mem_cons, DutyRows.expand]
            · refine ⟨bounded.1, bounded.2.1, bounded.2.2.1, bounded.2.2.2.1, bounded.2.2.2.2.1, ?_⟩
              have limit := bounded.2.2.2.2.1
              exact ⟨by omega, by omega, by simp⟩
            · refine ⟨nonneg.1, nonneg.2.1, nonneg.2.2.1, nonneg.2.2.2.1, nonneg.2.2.2.2.1, ?_⟩
              have used := nonneg.2.2.2.2.2.1
              exact ⟨by omega, by omega, by simp⟩
            · omega
            · omega
          · exact congrArg (· + 1) mirrors.fuelUsed
          · simp [DutyRows.expand, Account.expand, mirrors.expansionKeys]
        have passed : (duty.expand expansion).row.check = .ok () :=
          (check_eq_ok _).mpr expanded.storable
        rw [passed, expanded.remaining]
        exact ⟨rfl, expanded⟩

end

/-! Calls on a duty that is not there. -/

section
variable {t : Tables} {s : ObligationLedger} {mission target : String}

theorem perform_absent (absent : get? s.accounts target = none) (call : DutyCall) :
    Refused (perform (call.operation target) s) s := by
  have stopped : requireAccount target s =
      (.error [.text ("obligation " ++ target ++ " is not registered")], s) := by
    unfold requireAccount
    rw [bind_of_ran (rfl : view _ s = (.ok (get? s.accounts target), s)), absent]
    rfl
  cases call <;> exact refused_stopped (bind_of_stopped stopped)

section
variable (absent : get? t.duties (mission, target) = none)
include absent

theorem refused_transaction {α β : Type}
    {f : DutyRows → Stored α} {g : α → Stored β} :
    Refused ((transaction (ObligationStore.requireRow mission target >>= f) >>= g) t) t :=
  refused_stopped (transaction_refused (bind_of_stopped (requireRow_absent absent)))

theorem refused_update {α β : Type}
    {change : ObligationRow → ObligationRow} {f : Unit → Stored α} {g : α → Stored β} {e : StoreError} :
    Refused ((transaction (ObligationStore.updateRow mission target change >>= fun changed =>
      ensure (changed ≠ 0) e >>= f) >>= g) t) t := by
  have stopped : (ObligationStore.updateRow mission target change >>= fun changed =>
      ensure (changed ≠ 0) e >>= f) t = (.error e, t) := by
    rw [bind_of_ran (updateRow_absent absent change)]
    exact bind_of_stopped (ensure_stopped (by simp))
  exact refused_stopped (transaction_refused stopped)

theorem stored_absent (call : DutyCall) :
    Refused (call.stored mission target t) t := by
  cases call <;>
    simp only [DutyCall.stored, ObligationStore.recordFailure, ObligationStore.recordSpend,
      ObligationStore.noteShapeChange, ObligationStore.setLifecycle, ObligationStore.admitDemand,
      ObligationStore.withdrawDemand, ObligationStore.consumeFuel, validated, bind_assoc] <;>
    repeat (apply refused_lift; intro _ _)
  case recordFailure | recordSpend => exact refused_update absent
  all_goals exact refused_transaction absent

end

end

/-! Registration. -/

section
variable {t : Tables} {s : ObligationLedger} {mission : String} {obligation : Obligation}

def fresh (obligation : Obligation) (fuel : Int) (now : Nat) : DutyRows where
  row := {
    missionId := obligation.missionId
    obligationId := obligation.obligationId
    lifecycle := obligation.lifecycle
    resolutionRef := obligation.resolutionRef
    parentObligationId := obligation.parentObligationId
    fuelLimit := fuel
    fuelRemaining := fuel
    document := obligation
    createdAt := now }

theorem identifier_eq_ok {value name : String} :
    identifier value name = .ok () ↔
      strip value ≠ "" ∧ value.length ≤ maxId ∧ value.toList.any isControl = false := by
  unfold identifier
  simp only [bind_eq_ok, Unique.exists_iff, PUnit.default_eq_unit, require_eq_ok]

theorem postInit_eq_ok {obligation : Obligation} (made : obligation.postInit = .ok ()) :
    identifier obligation.obligationId "obligation_id" = .ok () ∧
    identifier obligation.missionId "mission_id" = .ok () ∧
    obligation.parentObligationId ≠ some obligation.obligationId ∧
    (obligation.lifecycle = .satisfied → obligation.resolutionRef.isSome) := by
  unfold Obligation.postInit at made
  simp only [bind_eq_ok, Unique.exists_iff, PUnit.default_eq_unit, require_eq_ok] at made
  obtain ⟨duty, mission, _, _, _, _, _, _, _, parent, resolved⟩ := made
  exact ⟨identifier_eq_ok.mpr (identifier_eq_ok.mp duty),
    identifier_eq_ok.mpr (identifier_eq_ok.mp mission), parent, resolved⟩

theorem fresh_mirrors (made : obligation.postInit = .ok ()) {fuel : Int} (low : 0 ≤ fuel)
    (high : fuel ≤ maxInteger) (now : Nat) :
    Mirrors obligation.missionId obligation.obligationId (fresh obligation fuel now)
      (opened obligation fuel) := by
  obtain ⟨target_valid, mission_valid, parent, resolved⟩ := postInit_eq_ok made
  have zero : (0 : Int) ≤ maxInteger := by decide
  refine {
    mission_valid, target_valid, stored_id := rfl, account_id := rfl, storable := ?_,
    failureCount := rfl, consumedCostMicros := rfl, consumedAttempts := rfl, consumedTokens := rfl,
    fuelLimit := rfl, fuelUsed := rfl, demandAdmitted := rfl, lifecycle := rfl,
    resolutionRef := rfl, expansionKeys := rfl, shapeChanges := rfl }
  refine {
    bounded := ?_, nonneg := ?_, within := low, shared := Or.inl rfl, remaining := ?_, parent,
    resolved }
  · simp only [ObligationRow.counters, fresh, List.forall_mem_cons]
    exact ⟨zero, zero, zero, zero, high, zero, high, by simp⟩
  · simp only [ObligationRow.counters, fresh, List.forall_mem_cons]
    exact ⟨by omega, by omega, by omega, by omega, low, by omega, low, by simp⟩
  · simp [fresh]

theorem index_ok_iff {value minimum : Int} (name name' : String) {out : Int} :
    index value name minimum = .ok out ↔ index value name' minimum = .ok out := by
  rw [index_eq_ok, index_eq_ok]

theorem insertRow_ran {row : ObligationRow} (storable : row.Storable)
    (absent : get? t.duties (row.missionId, row.obligationId) = none)
    (unused : ∀ key ∈ keys t.duties, key.2 ≠ row.obligationId) :
    ObligationStore.insertRow row t =
      (.ok (), t.put row.missionId row.obligationId { row := row }) := by
  unfold ObligationStore.insertRow
  rw [bind_of_ran (rfl : view Tables.duties t = (.ok t.duties, t)),
    bind_of_ran (lift_ran ((check_eq_ok row).mpr storable)), bind_of_ran (ensure_ran absent),
    bind_of_ran (ensure_ran unused)]
  rfl

theorem insertRow_known {row : ObligationRow}
    (known : get? t.duties (row.missionId, row.obligationId) ≠ none) :
    Refused (ObligationStore.insertRow row t) t := by
  unfold ObligationStore.insertRow
  apply refused_after (rfl : view Tables.duties t = (.ok t.duties, t))
  apply refused_lift
  intro _ _
  exact refused_stopped (ensure_stopped known)

def fuelOf (recursionFuel : Option Int) : Except Message Int :=
  match recursionFuel with
  | none => .ok ObligationStore.defaultRecursionFuel
  | some fuel => index fuel "recursion_fuel" 0

theorem fuelOf_bounds {recursionFuel : Option Int} {fuel : Int}
    (chosen : fuelOf recursionFuel = .ok fuel) : 0 ≤ fuel ∧ fuel ≤ maxInteger := by
  cases recursionFuel with
  | none =>
    cases chosen
    decide
  | some wanted =>
    obtain ⟨rfl, low, high⟩ := index_eq_ok.mp chosen
    unfold maxJsonInt at high
    unfold maxInteger
    omega

/-! Two sides of one mission. -/

structure Twins (mission : String) (t : Tables) (s : ObligationLedger) : Prop where
  defaultFuel : s.defaultFuel = ObligationStore.defaultRecursionFuel
  missions : ∀ key ∈ keys t.duties, key.1 = mission
  duties : ∀ target, Option.Rel (Mirrors mission target) (get? t.duties (mission, target))
    (get? s.accounts target)

theorem Twins.put (twins : Twins mission t s) {target : ObligationId} {duty : DutyRows} {acc : Account}
    (mirrors : Mirrors mission target duty acc) :
    Twins mission (t.put mission target duty) (s.put target acc) where
  defaultFuel := twins.defaultFuel
  missions := by
    intro key inside
    rcases (mem_keys_set _ _ _ _).mp inside with rfl | inside
    · rfl
    · exact twins.missions key inside
  duties := by
    intro other
    unfold Tables.put ObligationLedger.put
    rw [get?_set, get?_set]
    by_cases here : target = other
    · subst here
      rw [if_pos rfl, if_pos rfl]
      exact .some mirrors
    · rw [if_neg here, if_neg (by simpa using here)]
      exact twins.duties other

theorem Twins.both (twins : Twins mission t s) (target : ObligationId) :
    get? t.duties (mission, target) = none ∧ get? s.accounts target = none ∨
      ∃ duty acc, get? t.duties (mission, target) = some duty ∧
        get? s.accounts target = some acc ∧ Mirrors mission target duty acc := by
  have related := twins.duties target
  generalize get? t.duties (mission, target) = stored at related ⊢
  generalize get? s.accounts target = kept at related ⊢
  cases related with
  | none => exact Or.inl ⟨rfl, rfl⟩
  | some mirrors => exact Or.inr ⟨_, _, rfl, rfl, mirrors⟩

/-- The same outcome on both sides, which remain twins; a refused call changes neither. -/
inductive Same (mission : String) (t : Tables) (s : ObligationLedger) :
    Except StoreError (Option FuelDecision) × Tables →
    Except Message (Option FuelDecision) × ObligationLedger → Prop
  | done {decision t' s'} : Twins mission t' s' →
      Same mission t s (.ok decision, t') (.ok decision, s')
  | refused {e e'} : Same mission t s (.error e, t) (.error e', s)

theorem same_of_refused {stored : Except StoreError (Option FuelDecision) × Tables}
    {kept : Except Message (Option FuelDecision) × ObligationLedger} (first : Refused stored t)
    (second : Refused kept s) : Same mission t s stored kept := by
  obtain ⟨e, rfl⟩ := first
  obtain ⟨e', rfl⟩ := second
  exact .refused

theorem register_stored (recursionFuel : Option Int) (now : Nat) :
    (Call.register obligation recursionFuel now).stored mission =
      (validated (fuelOf recursionFuel) >>= fun fuel =>
        transaction (orConflict ("obligation " ++ obligation.obligationId ++
          " is already registered; a genuinely new duty needs a new obligation_id (§6.1): ")
          (ObligationStore.insertRow (fresh obligation fuel now).row)) >>= fun _ => pure none) := by
  unfold Call.stored ObligationStore.register
  simp only [bind_assoc]
  cases recursionFuel <;> rfl

theorem register_known (known : get? s.accounts obligation.obligationId ≠ none)
    (recursionFuel : Option Int) : Refused (perform (.register obligation recursionFuel) s) s := by
  unfold perform register
  simp only [bind_assoc]
  apply refused_after rfl
  apply refused_after rfl
  exact refused_stopped (ensure_stopped known)

theorem register_absent (defaultFuel : s.defaultFuel = ObligationStore.defaultRecursionFuel)
    (absent : get? s.accounts obligation.obligationId = none) (recursionFuel : Option Int) :
    Settles (perform (.register obligation recursionFuel) s) s (s.put obligation.obligationId)
      (fuelOf recursionFuel >>= fun fuel =>
        (.ok (opened obligation fuel, none) : Except Message (Account × Option FuelDecision))) := by
  unfold perform register
  simp only [bind_assoc]
  apply settles_after rfl
  apply settles_after rfl
  apply settles_after (ensure_ran absent)
  apply settles_lift
  · intro fuel
    cases recursionFuel with
    | none => rw [defaultFuel]; rfl
    | some wanted => exact index_ok_iff "fuel" "recursion_fuel"
  · intro fuel _
    exact rfl

theorem register_same (twins : Twins mission t s) (made : obligation.postInit = .ok ())
    (here : obligation.missionId = mission) (recursionFuel : Option Int) (now : Nat) :
    Same mission t s ((Call.register obligation recursionFuel now).stored mission t)
      (perform (.register obligation recursionFuel) s) := by
  subst here
  rw [register_stored]
  rcases twins.both obligation.obligationId with ⟨stored, kept⟩ | ⟨duty, acc, stored, kept, _⟩
  · have settles := register_absent twins.defaultFuel kept recursionFuel
    cases chosen : fuelOf recursionFuel with
    | error e =>
      rw [chosen] at settles
      apply same_of_refused _ settles
      exact refused_lift fun c ends => by cases (mapError_eq_ok c).mp ends
    | ok fuel =>
      rw [chosen] at settles
      obtain ⟨low, high⟩ := fuelOf_bounds chosen
      have mirrors := fresh_mirrors made low high now
      have unused : ∀ key ∈ keys t.duties, key.2 ≠ (fresh obligation fuel now).row.obligationId := by
        intro key inside same
        rw [get?_eq_none_iff] at stored
        apply stored
        have named : key = (obligation.missionId, obligation.obligationId) :=
          Prod.ext (twins.missions key inside) same
        exact named ▸ inside
      have inserted := insertRow_ran mirrors.storable stored unused
      rw [settles.ended rfl, bind_of_ran (validated_ran rfl),
        bind_of_ran (transaction_ran (orConflict_ran _ inserted))]
      exact .done (twins.put mirrors)
  · apply same_of_refused
    · apply refused_lift
      intro fuel _
      obtain ⟨e, refused⟩ := @insertRow_known t (fresh obligation fuel now).row
        (by simp [fresh, stored])
      obtain ⟨e', refused'⟩ := orConflict_refused ("obligation " ++ obligation.obligationId ++
        " is already registered; a genuinely new duty needs a new obligation_id (§6.1): ") refused
      exact refused_stopped (transaction_refused refused')
    · exact register_known (by simp [kept]) recursionFuel

/-! Calls and runs. -/

/-- A registration of a duty of the mission, which passed its own checks when it was made. -/
def Call.Valid (mission : String) : Call → Prop
  | .register obligation _ _ => obligation.postInit = .ok () ∧ obligation.missionId = mission
  | .amend _ _ => True

/-- The two sides have the same rule for the call on the duty as it is. -/
def Call.Agrees (mission : String) (t : Tables) : Call → Prop
  | .register _ _ _ => True
  | .amend target call =>
    ∀ duty, get? t.duties (mission, target) = some duty → call.Agrees duty.row

theorem call_same (twins : Twins mission t s) {call : Call} (valid : call.Valid mission)
    (agrees : call.Agrees mission t) :
    Same mission t s (call.stored mission t) (perform call.operation s) := by
  cases call with
  | register obligation recursionFuel now =>
    exact register_same twins valid.1 valid.2 recursionFuel now
  | amend target call =>
    rcases twins.both target with ⟨stored, kept⟩ | ⟨duty, acc, stored, kept, mirrors⟩
    · exact same_of_refused (stored_absent stored call) (perform_absent kept call)
    · have together := onDuty_together mirrors call (agrees duty stored)
      have first := stored_amend mirrors.mission_valid mirrors.target_valid stored call
      have second := perform_amend kept call
      cases effect : call.onDuty duty with
      | error e =>
        cases effect' : call.onAccount acc with
        | error e' => exact same_of_refused (first.refused effect) (second.refused effect')
        | ok end' => rw [effect, effect'] at together; cases together
      | ok end_ =>
        cases effect' : call.onAccount acc with
        | error e' => rw [effect, effect'] at together; cases together
        | ok end' =>
          rw [effect, effect'] at together
          obtain ⟨decided, mirrors'⟩ := together
          change Same mission t s (call.stored mission target t)
            (perform (call.operation target) s)
          rw [first.ended effect, second.ended effect', decided]
          exact .done (twins.put mirrors')

end

structure World where
  tables : Tables := {}
  ledger : ObligationLedger := ⟨ObligationStore.defaultRecursionFuel, []⟩

def World.act (mission : String) (w : World) (call : Call) : World where
  tables := (call.stored mission w.tables).2
  ledger := (perform call.operation w.ledger).2

theorem start_twins (mission : String) : Twins mission ({} : World).tables ({} : World).ledger where
  defaultFuel := rfl
  missions := by
    intro key inside
    cases inside
  duties := fun _ => .none

def runOf (mission : String) (calls : List Call) : World :=
  Transitions.run (World.act mission) {} calls

def World.Takes (mission : String) (w : World) (call : Call) : Prop :=
  call.Valid mission ∧ call.Agrees mission w.tables

theorem run_twins {calls : List Call}
    (each : Transitions.Each (World.act mission) (World.Takes mission) {} calls) :
    Twins mission (runOf mission calls).tables (runOf mission calls).ledger := by
  apply @Transitions.Each.run_keeps _ _ _ _ (fun w : World => Twins mission w.tables w.ledger) _ _
    (start_twins mission) _ each
  intro w call twins takes
  have same := call_same twins takes.1 takes.2
  unfold World.act
  cases first : call.stored mission w.tables with
  | mk outcome t' =>
    cases second : perform call.operation w.ledger with
    | mk outcome' s' =>
      rw [first, second] at same
      cases same with
      | done twins' => exact twins'
      | refused => exact twins

theorem stored_account_absent {t : Tables} {target : String}
    (absent : get? t.duties (mission, target) = none) :
    Refused (ObligationStore.account mission target t) t := by
  unfold ObligationStore.account validated
  apply refused_lift
  intro _ _
  apply refused_lift
  intro _ _
  exact refused_stopped (requireRow_absent absent)

variable {s : ObligationLedger}

theorem kept_account_absent (absent : get? s.accounts target = none) :
    Refused (account target s) s := by
  unfold account requireAccount
  rw [bind_assoc, bind_of_ran (view_ran _), absent]
  exact ⟨_, rfl⟩

theorem kept_account_ran (found : get? s.accounts target = some acc) :
    account target s = (.ok acc.view, s) := by
  unfold account
  rw [bind_of_ran (requireAccount_ran found)]
  rfl

def World.shows (w : World) (mission : String) (target : ObligationId) :
    Option ObligationAccountView × Option ObligationAccountView :=
  ((ObligationStore.account mission target w.tables).1.toOption,
    (account target w.ledger).1.toOption)

theorem Twins.shows {w : World} (twins : Twins mission w.tables w.ledger) (target : ObligationId) :
    (w.shows mission target).1 = (w.shows mission target).2 := by
  unfold World.shows
  rcases twins.both target with ⟨stored, kept⟩ | ⟨duty, acc, stored, kept, mirrors⟩
  · obtain ⟨e, refused⟩ := stored_account_absent stored
    obtain ⟨e', refused'⟩ := kept_account_absent kept
    rw [refused, refused']
    rfl
  · rw [account_ran mirrors.mission_valid mirrors.target_valid stored, kept_account_ran kept,
      mirrors.view]
    rfl

/-- In every run whose calls keep to the rules that both sides have, every duty has the same account
on both sides; a further such call is refused on both sides, which changes neither, or ends on
both, with the same decision and the same accounts. -/
theorem store_twins_ledger (mission : String) (calls : List Call)
    (each : Transitions.Each (World.act mission) (World.Takes mission) {} calls) :
    let w := runOf mission calls
    (∀ target, (w.shows mission target).1 = (w.shows mission target).2) ∧
    ∀ call : Call, World.Takes mission w call →
      (∃ e e', call.stored mission w.tables = (.error e, w.tables) ∧
        perform call.operation w.ledger = (.error e', w.ledger)) ∨
      ∃ decision,
        call.stored mission w.tables = (.ok decision, (w.act mission call).tables) ∧
        perform call.operation w.ledger = (.ok decision, (w.act mission call).ledger) ∧
        ∀ target, ((w.act mission call).shows mission target).1 =
          ((w.act mission call).shows mission target).2 := by
  intro w
  have twins := run_twins each
  refine ⟨fun target => twins.shows target, fun call takes => ?_⟩
  have same := call_same twins takes.1 takes.2
  cases first : call.stored mission w.tables with
  | mk outcome t' =>
    cases second : perform call.operation w.ledger with
    | mk outcome' s' =>
      rw [first, second] at same
      have reached : w.act mission call = ⟨t', s'⟩ := by
        unfold World.act
        rw [first, second]
      rw [reached]
      cases same with
      | @done decision _ _ twins' =>
        exact Or.inr ⟨decision, rfl, rfl, fun target => Twins.shows twins' target⟩
      | refused => exact Or.inl ⟨_, _, rfl, rfl⟩

/-- A duty that is asked for and expanded once, and closed when nobody asks for it any more. -/
theorem review_twins :
    let calls : List Call := [.register ⟨"review", "m", ["r"], "g", "mission", none, none,
        .unsatisfied, none, none⟩ (some 2) 0,
      .amend "review" .admitDemand, .amend "review" (.consumeFuel ⟨"split", "0", none⟩),
      .amend "review" .withdrawDemand, .amend "review" (.setLifecycle .cancelled none)]
    let w := runOf "m" calls
    (w.shows "m" "review").1 = (w.shows "m" "review").2 ∧
      (w.shows "m" "review").1.map (fun view => (view.fuelUsed, view.lifecycle)) =
        some (1, .cancelled) := by
  refine ⟨(store_twins_ledger "m" _ ?_).1 "review", by decide +kernel⟩
  refine ⟨⟨⟨by decide +kernel, rfl⟩, trivial⟩, ⟨trivial, fun _ _ => trivial⟩,
    ⟨trivial, fun _ _ => trivial⟩, ⟨trivial, fun _ _ => trivial⟩, ⟨trivial, ?_⟩, trivial⟩
  intro duty stored _
  have withdrawn : (get? (runOf "m" [.register ⟨"review", "m", ["r"], "g", "mission", none, none,
        .unsatisfied, none, none⟩ (some 2) 0, .amend "review" .admitDemand,
      .amend "review" (.consumeFuel ⟨"split", "0", none⟩),
      .amend "review" .withdrawDemand]).tables.duties ("m", "review")).map
        (·.row.demandAdmitted) = some false := by
    decide +kernel
  have same := congrArg (Option.map (·.row.demandAdmitted)) stored
  have free : duty.row.demandAdmitted = false :=
    Option.some.inj (same.symm.trans withdrawn)
  simp [free]

/-- The ledger closes a duty that has an admitted demand, which the table's CHECK refuses. -/
theorem review_cancelled_on_one_side :
    let w := runOf "m" [.register ⟨"review", "m", ["r"], "g", "mission", none, none,
        .unsatisfied, none, none⟩ none 0, .amend "review" .admitDemand]
    let call : Call := .amend "review" (.setLifecycle .cancelled none)
    ((call.stored "m" w.tables).1.toBool, (perform call.operation w.ledger).1.toBool) =
      (false, true) := by
  decide +kernel

end Obligations
