import HarnessSdk.Obligations.Loading

/-! The bridge in both directions: what is loaded can be stored, and what is stored can be loaded. -/
namespace Obligations
open PyDict PyText Checks Network Planning Metered

/-! The store's calls keep the tables consistent. -/

variable {name : String}

theorem optionalIdentifier_rename {value : Option String} (name' : String)
    (valid : optionalIdentifier value name = .ok ()) : optionalIdentifier value name' = .ok () := by
  cases value with
  | none => rfl
  | some value => exact identifier_eq_ok.mpr (identifier_eq_ok.mp valid)

def Obligation.moved (duty : Obligation) (lifecycle : ObligationLifecycle)
    (resolutionRef : Option String) : Obligation :=
  { duty with lifecycle := lifecycle, resolutionRef := resolutionRef }

variable {duty : Obligation}

theorem moved_made {lifecycle : ObligationLifecycle} {resolutionRef : Option String}
    (made : duty.postInit = .ok ()) (valid : optionalIdentifier resolutionRef name = .ok ())
    (resolved : lifecycle = .satisfied → resolutionRef.isSome) :
    (duty.moved lifecycle resolutionRef).postInit = .ok () := by
  unfold Obligation.postInit at made ⊢
  simp only [bind_eq_ok, Unique.exists_iff, PUnit.default_eq_unit, require_eq_ok] at made ⊢
  obtain ⟨duty, mission, refs, goal, scope, authority, budget, _, parent, apart, _⟩ := made
  exact ⟨duty, mission, refs, goal, scope, authority, budget, optionalIdentifier_rename _ valid,
    parent, apart, resolved⟩

theorem made_resolution (made : duty.postInit = .ok ()) :
    optionalIdentifier duty.resolutionRef "resolution_ref" = .ok () := by
  unfold Obligation.postInit at made
  simp only [bind_eq_ok, Unique.exists_iff, PUnit.default_eq_unit] at made
  exact optionalIdentifier_rename _ made.2.2.2.2.2.2.2.1

def DutyCall.Formed : DutyCall → Prop
  | .consumeFuel expansion => expansion.postInit = .ok ()
  | _ => True

def DutyCall.Small (row : ObligationRow) : DutyCall → Prop
  | .recordFailure count => row.failureCount + count ≤ maxJsonInt
  | .recordSpend costMicros attempts tokens =>
    row.spentCostMicros + costMicros ≤ maxJsonInt ∧ row.spentAttempts + attempts ≤ maxJsonInt ∧
      row.spentTokens + tokens ≤ maxJsonInt
  | _ => True

theorem nextOrdinal_range' (n : Nat) : nextOrdinal (List.range' 1 n) = n + 1 := by
  unfold nextOrdinal
  induction n with
  | zero => rfl
  | succ n ih =>
    rw [List.range'_concat, List.foldl_append]
    simp only [List.foldl_cons, List.foldl_nil]
    omega

theorem range'_snoc {α : Type} {rows : List α} {ordinal : α → Nat}
    (ordinals : rows.map ordinal = List.range' 1 rows.length) {row : α}
    (next : ordinal row = nextOrdinal (rows.map ordinal)) :
    (rows ++ [row]).map ordinal = List.range' 1 (rows ++ [row]).length := by
  rw [ordinals, nextOrdinal_range'] at next
  rw [List.map_append, ordinals, List.length_append, List.length_singleton, List.range'_concat]
  simp [next]
  omega

section
variable {mission target : String} {duty duty' : DutyRows} {decision : Option FuelDecision}

theorem onDuty_consistent (consistent : duty.Consistent mission target) {call : DutyCall}
    (formed : call.Formed) (small : call.Small duty.row)
    (effect : call.onDuty duty = .ok (duty', decision)) : duty'.Consistent mission target := by
  have bounded := consistent.small
  simp only [ObligationRow.counters, List.forall_mem_cons] at bounded
  cases call <;>
    simp only [DutyCall.onDuty, DutyCall.columns, bind_assoc, bind_eq_ok, mapError_eq_ok] at effect
  case recordFailure count =>
    obtain ⟨steps, indexed, _, ⟨rfl⟩, _, checked, ⟨rfl⟩⟩ := effect
    obtain ⟨rfl, _, _⟩ := index_eq_ok.mp indexed
    refine { consistent with storable := (check_eq_ok _).mp checked, small := ?_ }
    simp only [ObligationRow.counters, List.forall_mem_cons]
    exact ⟨small, bounded.2⟩
  case recordSpend costMicros attempts tokens =>
    obtain ⟨spent, cost, tries, counted, usedTokens, weighed, _, ⟨rfl⟩, _, checked, ⟨rfl⟩⟩ := effect
    obtain ⟨rfl, _, _⟩ := index_eq_ok.mp cost
    obtain ⟨rfl, _, _⟩ := index_eq_ok.mp counted
    obtain ⟨rfl, _, _⟩ := index_eq_ok.mp weighed
    refine { consistent with storable := (check_eq_ok _).mp checked, small := ?_ }
    simp only [ObligationRow.counters, List.forall_mem_cons]
    exact ⟨bounded.1, small.2.2, small.1, small.2.1, bounded.2.2.2.2⟩
  case noteShapeChange change detail =>
    obtain ⟨_, said, ⟨rfl⟩⟩ := effect
    refine { consistent with shapeOrdinals := ?_, details := ?_ }
    · exact range'_snoc consistent.shapeOrdinals rfl
    · intro row inside
      rcases mem_snoc.mp inside with old | rfl
      · exact consistent.details row old
      · exact said
  case setLifecycle lifecycle resolutionRef =>
    obtain ⟨_, given, _, resolves, _, ⟨rfl⟩, _, checked, ⟨rfl⟩⟩ := effect
    have valid : optionalIdentifier (resolutionRef.or duty.row.resolutionRef) "resolution_ref" =
        .ok () := by
      cases resolutionRef with
      | some ref => exact given
      | none =>
        rw [Option.none_or, ← consistent.resolutionRef]
        exact made_resolution consistent.made
    exact { consistent with
      lifecycle := rfl
      resolutionRef := rfl
      made := moved_made consistent.made valid ((require_eq_ok _ _).mp resolves)
      storable := (check_eq_ok _).mp checked }
  case admitDemand =>
    obtain ⟨_, _, _, _, _, ⟨rfl⟩, _, checked, ⟨rfl⟩⟩ := effect
    exact { consistent with storable := (check_eq_ok _).mp checked }
  case withdrawDemand =>
    obtain ⟨_, _, _, ⟨rfl⟩, _, checked, ⟨rfl⟩⟩ := effect
    exact { consistent with storable := (check_eq_ok _).mp checked }
  case consumeFuel expansion =>
    by_cases seen : ∃ row ∈ duty.expansions, row.record.key = expansion.key
    · rw [if_pos seen] at effect
      cases effect
      exact consistent
    · rw [if_neg seen] at effect
      by_cases spent : duty.row.fuelRemaining ≤ 0
      · rw [if_pos spent] at effect
        cases effect
        exact consistent
      · rw [if_neg spent] at effect
        obtain ⟨_, checked, ⟨rfl⟩⟩ := bind_eq_ok.mp effect
        have storable := (check_eq_ok _).mp checked
        have fueled := consistent.fueled
        refine { consistent with
          storable, small := ?_, fueled := ?_, ordinals := ?_, distinct := ?_, recorded := ?_ }
        · have within := storable.within
          have left := storable.remaining
          simp only [DutyRows.expand] at within left
          simp only [ObligationRow.counters, List.forall_mem_cons, DutyRows.expand]
          exact ⟨bounded.1, bounded.2.1, bounded.2.2.1, bounded.2.2.2.1, bounded.2.2.2.2.1,
            by omega, by omega, by simp⟩
        · simp only [DutyRows.expand, List.length_append, List.length_singleton]
          omega
        · exact range'_snoc consistent.ordinals rfl
        · simp only [DutyRows.expand, List.map_append, List.map_singleton]
          rw [← List.concat_eq_append]
          refine List.Nodup.concat (fun inside => ?_) consistent.distinct
          obtain ⟨row, stored, key⟩ := List.mem_map.mp inside
          exact seen ⟨row, stored, key⟩
        · intro row inside
          rcases mem_snoc.mp inside with old | rfl
          · exact consistent.recorded row old
          · exact formed

theorem fresh_consistent {obligation : Obligation} (made : obligation.postInit = .ok ()) {fuel : Int}
    (low : 0 ≤ fuel) (high : fuel ≤ maxJsonInt) (now : Nat) :
    (fresh obligation fuel now).Consistent obligation.missionId obligation.obligationId where
  missionId := rfl
  obligationId := rfl
  documentMission := rfl
  documentId := rfl
  lifecycle := rfl
  resolutionRef := rfl
  made := made
  storable := (fresh_mirrors made low (by unfold maxJsonInt at high; unfold maxInteger; omega)
    now).storable
  small := by
    have zero : (0 : Int) ≤ maxJsonInt := by decide
    simp only [ObligationRow.counters, fresh, List.forall_mem_cons]
    exact ⟨zero, zero, zero, zero, high, zero, high, by simp⟩
  fueled := rfl
  ordinals := rfl
  distinct := List.nodup_nil
  recorded := by simp [fresh]
  shapeOrdinals := rfl
  details := by simp [fresh]

end

section
variable {t : Tables} {mission target : String} {duty : DutyRows}

theorem get?_put (duty : DutyRows) (mission' target' : String) :
    get? (t.put mission target duty).duties (mission', target') =
      if mission = mission' ∧ target = target' then some duty else get? t.duties (mission', target') := by
  unfold Tables.put
  rw [get?_set]
  simp only [Prod.mk.injEq]

section
variable (consistent : t.Consistent)
include consistent

theorem Tables.Consistent.put (good : duty.Consistent mission target)
    (unused : ∀ key ∈ keys t.duties, key.2 = target → key.1 = mission) :
    (t.put mission target duty).Consistent where
  distinct := keys_set_nodup _ _ consistent.distinct
  identity := by
    intro key inside key' inside' same
    rcases (mem_keys_set _ _ _ _).mp inside with rfl | inside <;>
      rcases (mem_keys_set _ _ _ _).mp inside' with rfl | inside'
    · rfl
    · exact Prod.ext (unused key' inside' same.symm).symm same
    · exact Prod.ext (unused key inside same) same
    · exact consistent.identity key inside key' inside' same
  duties := by
    intro mission' target' duty' found
    rw [get?_put] at found
    split at found
    · next here =>
      cases found
      rw [← here.1, ← here.2]
      exact good
    · exact consistent.duties _ _ _ found

theorem Tables.Consistent.same {t' : Tables}
    (same : t'.duties = t.duties) : t'.Consistent where
  distinct := by
    rw [same]
    exact consistent.distinct
  identity := by
    rw [same]
    exact consistent.identity
  duties := by
    rw [same]
    exact consistent.duties

theorem Tables.Consistent.alone
    (found : get? t.duties (mission, target) = some duty) :
    ∀ key ∈ keys t.duties, key.2 = target → key.1 = mission := by
  intro key inside same
  have here : (mission, target) ∈ keys t.duties := by
    rw [← get?_isSome_iff, found]
    rfl
  rw [consistent.identity key inside _ here same]

end

theorem insertRow_cases (row : ObligationRow) :
    ObligationStore.insertRow row t =
      (.ok (), t.put row.missionId row.obligationId { row := row }) ∧
      (∀ key ∈ keys t.duties, key.2 ≠ row.obligationId) ∨
    Refused (ObligationStore.insertRow row t) t := by
  unfold ObligationStore.insertRow
  rw [bind_of_ran (view_ran Tables.duties)]
  cases checked : row.check with
  | error e => exact Or.inr (refused_stopped (lift_stopped rfl))
  | ok u =>
    rw [bind_of_ran (lift_ran rfl)]
    by_cases absent : get? t.duties (row.missionId, row.obligationId) = none
    · rw [bind_of_ran (ensure_ran absent)]
      by_cases unused : ∀ key ∈ keys t.duties, key.2 ≠ row.obligationId
      · rw [bind_of_ran (ensure_ran unused)]
        exact Or.inl ⟨rfl, unused⟩
      · exact Or.inr (refused_stopped (ensure_stopped unused))
    · exact Or.inr (refused_stopped (ensure_stopped absent))

theorem fuelOf_small {recursionFuel : Option Int} {fuel : Int}
    (chosen : fuelOf recursionFuel = .ok fuel) : 0 ≤ fuel ∧ fuel ≤ maxJsonInt := by
  cases recursionFuel with
  | none =>
    cases chosen
    decide
  | some wanted =>
    obtain ⟨rfl, low, high⟩ := index_eq_ok.mp chosen
    exact ⟨low, high⟩

def Call.Formed : Call → Prop
  | .register obligation _ _ => obligation.postInit = .ok ()
  | .amend _ call => call.Formed

def Call.Small (mission : String) (t : Tables) : Call → Prop
  | .register _ _ _ => True
  | .amend target call => ∀ duty, get? t.duties (mission, target) = some duty → call.Small duty.row

theorem call_consistent (consistent : t.Consistent) {call : Call} (formed : call.Formed)
    (small : call.Small mission t) : (call.stored mission t).2.Consistent := by
  cases call with
  | register obligation recursionFuel now =>
    rw [register_stored]
    cases chosen : fuelOf recursionFuel with
    | error e =>
      have stopped : validated (Except.error e : Except Message Int) t = (.error (.contract e), t) :=
        rfl
      rw [bind_of_stopped stopped]
      exact consistent
    | ok fuel =>
      obtain ⟨low, high⟩ := fuelOf_small chosen
      rw [bind_of_ran (validated_ran rfl)]
      rcases @insertRow_cases t (fresh obligation fuel now).row with ⟨inserted, unused⟩ | refused
      · rw [bind_of_ran (transaction_ran (orConflict_ran _ inserted))]
        apply consistent.put (fresh_consistent formed low high now)
        intro key inside same
        exact absurd same (unused key inside)
      · obtain ⟨e, refused⟩ := refused
        obtain ⟨e', refused'⟩ := orConflict_refused ("obligation " ++ obligation.obligationId ++
          " is already registered; a genuinely new duty needs a new obligation_id (§6.1): ") refused
        rw [bind_of_stopped (transaction_refused refused')]
        exact consistent
  | amend target call =>
    cases found : get? t.duties (mission, target) with
    | none =>
      obtain ⟨e, refused⟩ := stored_absent found call
      change (call.stored mission target t).2.Consistent
      rw [refused]
      exact consistent
    | some duty =>
      have good := consistent.duties _ _ _ found
      obtain ⟨target_valid, mission_valid, _, _⟩ := postInit_eq_ok good.made
      rw [good.documentId] at target_valid
      rw [good.documentMission] at mission_valid
      have settles := stored_amend mission_valid target_valid found call
      change (call.stored mission target t).2.Consistent
      cases effect : call.onDuty duty with
      | error e =>
        obtain ⟨e', refused⟩ := settles.refused effect
        rw [refused]
        exact consistent
      | ok end_ =>
        rw [settles.ended effect]
        exact consistent.put (onDuty_consistent good formed (small duty found) effect)
          (consistent.alone found)

theorem atomic_transaction {α : Type} {body : Stored α} {post : α → Tables → Prop}
    (atomic : Atomic body t post) : Atomic (transaction body) t post := by
  unfold Atomic at atomic ⊢
  cases run : body t with
  | mk outcome t' =>
    rw [run] at atomic
    cases outcome with
    | ok a =>
      rw [transaction_ran run]
      exact atomic
    | error e =>
      rw [transaction_refused run]

theorem atomic_orConflict {α : Type} {statement : Stored α} {post : α → Tables → Prop}
    (message : String) (atomic : Atomic statement t post) :
    Atomic (orConflict message statement) t post := by
  unfold Atomic at atomic ⊢
  cases run : statement t with
  | mk outcome t' =>
    rw [run] at atomic
    cases outcome with
    | ok a =>
      rw [orConflict_ran message run]
      exact atomic
    | error e =>
      obtain ⟨e', refused⟩ := orConflict_refused message run
      rw [refused]
      exact atomic

theorem addRelation_atomic (mission parent child : String) (kind : ObligationRelation)
    (activeRevision : Int) (detail : String) :
    Atomic (ObligationStore.addRelation mission parent child kind activeRevision detail) t
      fun _ t' => t'.duties = t.duties := by
  unfold ObligationStore.addRelation
  apply atomic_lift
  intro _ _
  apply atomic_lift
  intro _ _
  apply atomic_lift
  intro _ _
  apply atomic_lift
  intro revision _
  apply atomic_ensure
  intro _
  apply atomic_transaction
  apply atomic_orConflict
  apply atomic_view
  apply atomic_ensure
  intro _
  apply atomic_ensure
  intro _
  exact Ends.atomic (ends_after rfl (ends_pure rfl))

end

/-! The ledgers that callers hold. -/

/-- The account as it is loaded again, with the document at its present lifecycle. -/
def Account.settled (acc : Account) : Account :=
  { acc with obligation := acc.obligation.moved acc.lifecycle acc.resolutionRef }

def Account.counters (acc : Account) : List Int :=
  [acc.failureCount, acc.consumedTokens, acc.consumedCostMicros, acc.consumedAttempts]

structure Account.Formed (target : ObligationId) (acc : Account) : Prop where
  named : acc.obligation.obligationId = target
  made : (acc.obligation.moved acc.lifecycle acc.resolutionRef).postInit = .ok ()
  nonneg : ∀ counter ∈ acc.counters, 0 ≤ counter
  within : acc.fuelUsed ≤ acc.fuelLimit
  fueled : (acc.expansionKeys.length : Int) = acc.fuelUsed
  distinct : acc.expansionKeys.Nodup
  recorded : ∀ key ∈ acc.expansionKeys, (ExpansionRecord.mk key.1 key.2 none).postInit = .ok ()
  details : ∀ shape ∈ acc.shapeChanges, text shape.2 "detail" 512 = .ok ()

structure ObligationLedger.Formed (ledger : ObligationLedger) : Prop where
  defaultFuel : 0 ≤ ledger.defaultFuel
  distinct : (keys ledger.accounts).Nodup
  accounts : ∀ target acc, get? ledger.accounts target = some acc → acc.Formed target

/-- The two ledgers have the same duties, with later expansions behind the earlier ones. -/
structure Account.Precedes (old new : Account) : Prop where
  mission : new.obligation.missionId = old.obligation.missionId
  expansionKeys : old.expansionKeys <+: new.expansionKeys

theorem key_made {expansion : ExpansionRecord} (made : expansion.postInit = .ok ()) :
    (ExpansionRecord.mk expansion.key.1 expansion.key.2 none).postInit = .ok () := by
  unfold ExpansionRecord.postInit at made ⊢
  simp only [bind_eq_ok, Unique.exists_iff, PUnit.default_eq_unit] at made ⊢
  exact ⟨made.1, made.2.1, rfl⟩

def Operation.Formed : Operation → Prop
  | .register obligation _ => obligation.postInit = .ok ()
  | .consumeFuel _ expansion => expansion.postInit = .ok ()
  | _ => True

section
variable {target : ObligationId} {acc acc' : Account} {decision : Option FuelDecision}

theorem onAccount_formed (formed : acc.Formed target) {call : DutyCall} (given : call.Formed)
    (effect : call.onAccount acc = .ok (acc', decision)) :
    acc'.Formed target ∧ acc.Precedes acc' := by
  have nonneg := formed.nonneg
  simp only [Account.counters, List.forall_mem_cons] at nonneg
  cases call <;> simp only [DutyCall.onAccount, bind_eq_ok] at effect
  case recordFailure count =>
    obtain ⟨steps, indexed, ⟨rfl⟩⟩ := effect
    obtain ⟨rfl, low, _⟩ := index_eq_ok.mp indexed
    refine ⟨{ formed with nonneg := ?_ }, rfl, List.prefix_rfl⟩
    simp only [Account.counters, List.forall_mem_cons]
    exact ⟨by omega, nonneg.2⟩
  case recordSpend costMicros attempts tokens =>
    obtain ⟨spent, cost, tries, counted, usedTokens, weighed, ⟨rfl⟩⟩ := effect
    obtain ⟨rfl, cost_low, _⟩ := index_eq_ok.mp cost
    obtain ⟨rfl, tries_low, _⟩ := index_eq_ok.mp counted
    obtain ⟨rfl, tokens_low, _⟩ := index_eq_ok.mp weighed
    refine ⟨{ formed with nonneg := ?_ }, rfl, List.prefix_rfl⟩
    simp only [Account.counters, List.forall_mem_cons]
    exact ⟨nonneg.1, by omega, by omega, by omega, by simp⟩
  case noteShapeChange change detail =>
    obtain ⟨_, said, ⟨rfl⟩⟩ := effect
    refine ⟨{ formed with details := ?_ }, rfl, List.prefix_rfl⟩
    intro shape inside
    rcases mem_snoc.mp inside with old | rfl
    · exact formed.details shape old
    · exact said
  case setLifecycle lifecycle resolutionRef =>
    obtain ⟨_, valid, _, resolves, ⟨rfl⟩⟩ := effect
    have resolves := (require_eq_ok _ _).mp resolves
    refine ⟨{ formed with made := ?_ }, rfl, List.prefix_rfl⟩
    have valid' : optionalIdentifier (resolutionRef.or acc.resolutionRef) "resolution_ref" =
        .ok () := by
      cases resolutionRef with
      | some ref => exact valid
      | none => exact made_resolution formed.made
    apply moved_made formed.made valid'
    intro satisfied
    cases resolutionRef with
    | some ref => rfl
    | none => cases resolves satisfied
  case admitDemand =>
    obtain ⟨_, _, _, _, ⟨rfl⟩⟩ := effect
    exact ⟨{ formed with }, rfl, List.prefix_rfl⟩
  case withdrawDemand =>
    obtain ⟨_, _, ⟨rfl⟩⟩ := effect
    exact ⟨{ formed with }, rfl, List.prefix_rfl⟩
  case consumeFuel expansion =>
    by_cases seen : expansion.key ∈ acc.expansionKeys
    · rw [if_pos seen] at effect
      cases effect
      exact ⟨formed, rfl, List.prefix_rfl⟩
    · rw [if_neg seen] at effect
      by_cases spent : acc.fuelLimit ≤ acc.fuelUsed
      · rw [if_pos spent] at effect
        cases effect
        exact ⟨formed, rfl, List.prefix_rfl⟩
      · rw [if_neg spent] at effect
        cases effect
        refine ⟨{ formed with within := ?_, fueled := ?_, distinct := ?_, recorded := ?_ }, rfl,
          List.prefix_append _ _⟩
        · simp only [Account.expand]
          omega
        · have fueled := formed.fueled
          simp only [Account.expand, List.length_append, List.length_singleton]
          omega
        · simp only [Account.expand, ← List.concat_eq_append]
          exact formed.distinct.concat seen
        · intro key inside
          rcases mem_snoc.mp inside with old | rfl
          · exact formed.recorded key old
          · exact key_made given

end

/-! Operations on a ledger. -/

def Extends (s s' : ObligationLedger) : Prop :=
  ∀ target acc, get? s.accounts target = some acc →
    ∃ acc', get? s'.accounts target = some acc' ∧ acc.Precedes acc'

theorem Account.Precedes.refl (acc : Account) : acc.Precedes acc := ⟨rfl, List.prefix_rfl⟩

theorem Extends.refl (s : ObligationLedger) : Extends s s :=
  fun _ acc found => ⟨acc, found, .refl acc⟩

theorem Extends.trans {a b c : ObligationLedger} (first : Extends a b) (second : Extends b c) :
    Extends a c := by
  intro target acc found
  obtain ⟨mid, found', precedes⟩ := first target acc found
  obtain ⟨last, found'', precedes'⟩ := second target mid found'
  exact ⟨last, found'', precedes'.mission.trans precedes.mission,
    precedes.expansionKeys.trans precedes'.expansionKeys⟩

section
variable {s : ObligationLedger} {target : ObligationId} {acc acc' : Account}

theorem ObligationLedger.Formed.put (formed : s.Formed) (good : acc.Formed target) :
    (s.put target acc).Formed where
  defaultFuel := formed.defaultFuel
  distinct := keys_set_nodup _ _ formed.distinct
  accounts := every_set formed.accounts good

theorem Extends.put (found : ∀ old, get? s.accounts target = some old → old.Precedes acc) :
    Extends s (s.put target acc) := by
  intro other old stored
  unfold ObligationLedger.put
  by_cases here : target = other
  · subst here
    exact ⟨acc, get?_set_self _ _ _, found old stored⟩
  · exact ⟨old, by rw [get?_set_ne _ _ here, stored], .refl old⟩

variable {obligation : Obligation}

theorem opened_formed (made : obligation.postInit = .ok ()) {fuel : Int} (low : 0 ≤ fuel) :
    (opened obligation fuel).Formed obligation.obligationId where
  named := rfl
  made := made
  nonneg := by simp [Account.counters, opened]
  within := low
  fueled := rfl
  distinct := List.nodup_nil
  recorded := by simp [opened]
  details := by simp [opened]

theorem give_formed (formed : acc.Formed target) {share : Int} (enough : share ≤ acc.remaining) :
    (acc.give share).Formed target :=
  { formed with
    within := by
      have within := formed.within
      unfold Account.remaining at enough
      unfold Account.give
      dsimp only
      omega }

/-- What an operation makes of a ledger: it stays well formed, and goes on from where it was. -/
def Continues (s s' : ObligationLedger) : Prop := s'.Formed ∧ Extends s s'

theorem register_continues (formed : s.Formed) (made : obligation.postInit = .ok ())
    (recursionFuel : Option Int) :
    Atomic (register obligation recursionFuel) s fun _ s' => Continues s s' := by
  unfold register
  apply atomic_view
  apply atomic_view
  apply atomic_ensure
  intro absent
  apply atomic_lift
  intro fuel chosen
  apply Ends.atomic
  refine ⟨(), _, rfl, ?_⟩
  have low : 0 ≤ fuel := by
    cases recursionFuel with
    | none =>
      cases chosen
      exact formed.defaultFuel
    | some wanted => exact (index_eq_ok.mp chosen).1 ▸ (index_eq_ok.mp chosen).2.1
  refine ⟨formed.put (opened_formed made low), Extends.put fun old found => ?_⟩
  rw [absent] at found
  cases found

theorem openFrom_continues (formed : s.Formed) (opening : ObligationOpening)
    (parentAccount : ObligationAccountView) (grantedFuel : Option Int) :
    Atomic (openFrom opening parentAccount grantedFuel) s fun _ s' => Continues s s' := by
  unfold openFrom
  apply atomic_ensure
  intro _
  apply atomic_require
  intro parent found
  apply atomic_bind (reads_account _)
  intro current _
  apply atomic_ensure
  intro _
  apply atomic_view
  apply atomic_ensure
  intro absent
  apply atomic_ensure
  intro _
  apply atomic_lift
  intro ⟨childFuel, share⟩ funded
  apply atomic_lift
  intro _ made
  apply Ends.atomic
  apply ends_after rfl
  apply ends_after rfl
  apply account_ends
  have bounds : 0 ≤ childFuel ∧ share ≤ parent.remaining := by
    rcases fundingOf_eq_ok funded with ⟨_, same, low, enough⟩ | ⟨_, _, low, same⟩
    · omega
    · have left : 0 ≤ parent.remaining := by unfold Account.remaining; omega
      omega
  have good := give_formed (formed.accounts _ _ found) bounds.2
  have child_good := opened_formed made bounds.1
  refine ⟨(formed.put good).put child_good, ?_⟩
  apply Extends.trans (b := s.put opening.parentObligationId (parent.give share))
  · apply Extends.put
    intro old stored
    rw [found] at stored
    cases stored
    exact ⟨rfl, List.prefix_rfl⟩
  · apply Extends.put
    intro old stored
    unfold ObligationLedger.put at stored
    rw [get?_set] at stored
    split at stored
    · next same =>
      rw [← same, found] at absent
      cases absent
    · rw [absent] at stored
      cases stored

theorem amend_continues (formed : s.Formed) (target : ObligationId) {call : DutyCall}
    (given : call.Formed) :
    Atomic (perform (call.operation target)) s fun _ s' => Continues s s' := by
  unfold Atomic
  cases found : get? s.accounts target with
  | none =>
    obtain ⟨e, refused⟩ := perform_absent found call
    rw [refused]
  | some acc =>
    have settles := perform_amend found call
    cases effect : call.onAccount acc with
    | error e =>
      obtain ⟨e', refused⟩ := settles.refused effect
      rw [refused]
    | ok end_ =>
      rw [settles.ended effect]
      obtain ⟨good, precedes⟩ := onAccount_formed (formed.accounts _ _ found) given effect
      refine ⟨formed.put good, Extends.put fun old stored => ?_⟩
      rw [found] at stored
      cases stored
      exact precedes

variable {operation : Operation}

theorem perform_continues (formed : s.Formed) (given : operation.Formed) :
    Atomic (perform operation) s fun _ s' => Continues s s' := by
  cases operation with
  | register obligation recursionFuel =>
    exact (register_continues formed given recursionFuel).bind fun _ _ change => ends_pure change
  | openFrom opening parentAccount grantedFuel =>
    exact (openFrom_continues formed opening parentAccount grantedFuel).bind fun _ _ change =>
      ends_pure change
  | recordFailure target count =>
    exact @amend_continues s formed target (.recordFailure count) trivial
  | recordSpend target costMicros attempts tokens =>
    exact @amend_continues s formed target (.recordSpend costMicros attempts tokens) trivial
  | admitDemand target => exact @amend_continues s formed target .admitDemand trivial
  | withdrawDemand target => exact @amend_continues s formed target .withdrawDemand trivial
  | noteShapeChange target change detail =>
    exact @amend_continues s formed target (.noteShapeChange change detail) trivial
  | setLifecycle target lifecycle resolutionRef =>
    exact @amend_continues s formed target (.setLifecycle lifecycle resolutionRef) trivial
  | consumeFuel target expansion =>
    exact @amend_continues s formed target (.consumeFuel expansion) given

theorem act_continues (formed : s.Formed) (given : operation.Formed) :
    Continues s (s.act operation) :=
  (perform_continues formed given).after (Continues s) ⟨formed, .refl s⟩ fun _ _ change => change

theorem run_continues (formed : s.Formed) {operations : List Operation}
    (given : ∀ operation ∈ operations, operation.Formed) :
    Continues s (Transitions.run ObligationLedger.act s operations) := by
  induction operations generalizing s with
  | nil => exact ⟨formed, .refl s⟩
  | cons operation rest ih =>
    obtain ⟨formed', further⟩ := act_continues formed (given operation List.mem_cons_self)
    obtain ⟨formed'', further'⟩ := ih formed' fun later inside =>
      given later (List.mem_cons_of_mem _ inside)
    exact ⟨formed'', further.trans further'⟩

end

/-! What `persist` writes for one duty. -/

/-- The duty after it is written from an account: what is stored of it, if anything, keeps its
parent, its time of creation and its expansion rows. -/
def merged (old : Option DutyRows) (acc : Account) (now : Nat) : DutyRows where
  row := match old with
    | none => ObligationStore.rowOf acc now
    | some duty => { ObligationStore.rowOf acc now with
      parentObligationId := duty.row.parentObligationId
      createdAt := duty.row.createdAt }
  expansions := (acc.expansionKeys.zipIdx 1).foldl
    (fun expansions entry => ObligationStore.addExpansion expansions entry.1 entry.2)
    ((old.map DutyRows.expansions).getD [])
  shapeChanges := (acc.shapeChanges.zipIdx 1).map fun entry => ⟨entry.1.1, entry.1.2, entry.2⟩

/-- The account can be a row: it has no demand when it is closed, and its counters can be loaded. -/
structure Account.Fits (acc : Account) : Prop where
  shared : acc.demandAdmitted = false ∨ acc.lifecycle = .unsatisfied
  counters : ∀ counter ∈ acc.counters, counter ≤ maxJsonInt
  fuelLimit : acc.fuelLimit ≤ maxJsonInt

/-- The account's expansions begin with as many as are stored, and the others are new. -/
def Account.Adds (acc : Account) (old : Option DutyRows) : Prop :=
  ∀ duty, old = some duty → duty.expansions.length ≤ acc.expansionKeys.length ∧
    ∀ key ∈ acc.expansionKeys.drop duty.expansions.length,
      key ∉ duty.expansions.map (·.record.key)

section
variable {acc : Account} {target : ObligationId}

theorem foldl_stored {rows : List ExpansionRow} (keys : List (String × String)) (start : Nat)
    (stored : ∀ ordinal, start ≤ ordinal → ordinal < start + keys.length →
      ∃ row ∈ rows, row.ordinal = ordinal) :
    (keys.zipIdx start).foldl
      (fun expansions entry => ObligationStore.addExpansion expansions entry.1 entry.2) rows =
      rows := by
  induction keys generalizing start with
  | nil => rfl
  | cons key rest ih =>
    rw [List.zipIdx_cons, List.foldl_cons]
    obtain ⟨row, inside, same⟩ := stored start (by omega) (by rw [List.length_cons]; omega)
    have kept : ObligationStore.addExpansion rows key start = rows := by
      unfold ObligationStore.addExpansion
      rw [if_pos ⟨row, inside, Or.inr same⟩]
    rw [kept]
    apply ih
    intro ordinal low high
    exact stored ordinal (by omega) (by rw [List.length_cons]; omega)

theorem foldl_added {rows : List ExpansionRow} (keys : List (String × String)) (start : Nat)
    (below : ∀ row ∈ rows, row.ordinal < start)
    (fresh : ∀ key ∈ keys, key ∉ rows.map (·.record.key)) (distinct : keys.Nodup) :
    (keys.zipIdx start).foldl
      (fun expansions entry => ObligationStore.addExpansion expansions entry.1 entry.2) rows =
      rows ++ (keys.zipIdx start).map fun entry => ⟨⟨entry.1.1, entry.1.2, none⟩, entry.2⟩ := by
  induction keys generalizing start rows with
  | nil => simp
  | cons key rest ih =>
    rw [List.nodup_cons] at distinct
    rw [List.zipIdx_cons, List.foldl_cons, List.map_cons]
    have added : ObligationStore.addExpansion rows key start =
        rows ++ [⟨⟨key.1, key.2, none⟩, start⟩] := by
      unfold ObligationStore.addExpansion
      rw [if_neg]
      intro ⟨row, inside, clash⟩
      rcases clash with same | same
      · exact fresh key List.mem_cons_self (List.mem_map.mpr ⟨row, inside, same⟩)
      · have low := below row inside
        omega
    rw [added, ih, List.append_assoc, List.singleton_append]
    · intro row inside
      rcases mem_snoc.mp inside with old | rfl
      · have low := below row old
        omega
      · exact Nat.lt_succ_self start
    · intro key' inside'
      rw [List.map_append, List.mem_append]
      rintro (old | new)
      · exact fresh key' (List.mem_cons_of_mem _ inside') old
      · rw [List.map_singleton, List.mem_singleton] at new
        have same : key' = key := new
        exact distinct.1 (same ▸ inside')
    · exact distinct.2

variable {old : Option DutyRows} {olds : List ExpansionRow}

theorem merged_expansions (adds : acc.Adds old) (distinct : acc.expansionKeys.Nodup)
    (ordered : ∀ duty, old = some duty → duty.expansions.map (·.ordinal) = List.range' 1
      duty.expansions.length) (now : Nat) :
    (merged old acc now).expansions = ((old.map DutyRows.expansions).getD []) ++
      ((acc.expansionKeys.drop ((old.map DutyRows.expansions).getD []).length).zipIdx
        (((old.map DutyRows.expansions).getD []).length + 1)).map
        fun entry => ⟨⟨entry.1.1, entry.1.2, none⟩, entry.2⟩ := by
  cases old with
  | none => exact foldl_added acc.expansionKeys 1 (by simp) (by simp) distinct
  | some duty =>
    obtain ⟨enough, fresh⟩ := adds duty rfl
    have ordinals := ordered duty rfl
    have ordinal_mem : ∀ ordinal, ordinal ∈ duty.expansions.map (·.ordinal) ↔
        1 ≤ ordinal ∧ ordinal < 1 + duty.expansions.length := by
      intro ordinal
      rw [ordinals, List.mem_range'_1]
    have taken : (acc.expansionKeys.take duty.expansions.length).length = duty.expansions.length := by
      rw [List.length_take]
      omega
    have parts : acc.expansionKeys.zipIdx 1 =
        (acc.expansionKeys.take duty.expansions.length).zipIdx 1 ++
          (acc.expansionKeys.drop duty.expansions.length).zipIdx (duty.expansions.length + 1) := by
      conv_lhs => rw [← List.take_append_drop duty.expansions.length acc.expansionKeys]
      rw [List.zipIdx_append, taken, Nat.add_comm]
    have kept := @foldl_stored duty.expansions (acc.expansionKeys.take duty.expansions.length) 1 (by
      intro ordinal low high
      rw [taken] at high
      obtain ⟨row, inside, same⟩ := List.mem_map.mp ((ordinal_mem ordinal).mpr ⟨low, high⟩)
      exact ⟨row, inside, same⟩)
    have below : ∀ row ∈ duty.expansions, row.ordinal < duty.expansions.length + 1 := by
      intro row inside
      have bounds := (ordinal_mem row.ordinal).mp (List.mem_map.mpr ⟨row, inside, rfl⟩)
      omega
    unfold merged
    dsimp only [Option.map_some, Option.getD_some]
    rw [parts, List.foldl_append, kept]
    exact foldl_added _ _ below fresh (distinct.sublist (List.drop_sublist _ _))

theorem rowOf_storable (formed : acc.Formed target) (fits : acc.Fits) (now : Nat) :
    (ObligationStore.rowOf acc now).Storable := by
  have nonneg := formed.nonneg
  have bounded := fits.counters
  simp only [Account.counters, List.forall_mem_cons] at nonneg bounded
  have within := formed.within
  have fueled := formed.fueled
  have limit := fits.fuelLimit
  have largest : maxJsonInt ≤ maxInteger := by decide
  have remaining : acc.remaining = acc.fuelLimit - acc.fuelUsed := by
    unfold Account.remaining
    omega
  obtain ⟨_, _, parent, resolved⟩ := postInit_eq_ok formed.made
  refine {
    bounded := ?_, nonneg := ?_, within := within, shared := fits.shared, remaining := remaining,
    parent := parent, resolved := resolved }
  · simp only [ObligationRow.counters, ObligationStore.rowOf, List.forall_mem_cons, remaining]
    exact ⟨by omega, by omega, by omega, by omega, by omega, by omega, by omega, by simp⟩
  · simp only [ObligationRow.counters, ObligationStore.rowOf, List.forall_mem_cons, remaining]
    exact ⟨nonneg.1, nonneg.2.1, nonneg.2.2.1, nonneg.2.2.2.1, by omega, by omega, by omega, by simp⟩

theorem merged_keys (keys : List (String × String)) (start : Nat) :
    (olds ++ (keys.zipIdx start).map fun entry =>
      (⟨⟨entry.1.1, entry.1.2, none⟩, entry.2⟩ : ExpansionRow)).map (·.record.key) =
      olds.map (·.record.key) ++ keys := by
  rw [List.map_append, List.map_map]
  congr 1
  exact List.zipIdx_map_fst start keys

theorem merged_ordinals (keys : List (String × String)) (start : Nat) :
    (olds ++ (keys.zipIdx start).map fun entry =>
      (⟨⟨entry.1.1, entry.1.2, none⟩, entry.2⟩ : ExpansionRow)).map (·.ordinal) =
      olds.map (·.ordinal) ++ List.range' start keys.length := by
  rw [List.map_append, List.map_map]
  congr 1
  exact List.zipIdx_map_snd start keys

theorem merged_consistent (formed : acc.Formed target) (fits : acc.Fits) (adds : acc.Adds old)
    (stored : ∀ duty, old = some duty → duty.Consistent acc.obligation.missionId target)
    (now : Nat) : (merged old acc now).Consistent acc.obligation.missionId target := by
  have expansions := merged_expansions adds formed.distinct
    (fun duty found => (stored duty found).ordinals) now
  have storable := rowOf_storable formed fits now
  have bounded := fits.counters
  simp only [Account.counters, List.forall_mem_cons] at bounded
  have within := formed.within
  have fueled := formed.fueled
  have limit := fits.fuelLimit
  have olds : ∀ rows, rows = (old.map DutyRows.expansions).getD [] →
      rows.map (·.ordinal) = List.range' 1 rows.length ∧ (rows.map (·.record.key)).Nodup ∧
      (∀ row ∈ rows, row.record.postInit = .ok ()) ∧ rows.length ≤ acc.expansionKeys.length ∧
      ∀ key ∈ acc.expansionKeys.drop rows.length, key ∉ rows.map (·.record.key) := by
    rintro rows rfl
    cases old with
    | none => exact ⟨rfl, List.nodup_nil, by simp, Nat.zero_le _, by simp⟩
    | some duty =>
      have good := stored duty rfl
      obtain ⟨enough, fresh⟩ := adds duty rfl
      exact ⟨good.ordinals, good.distinct, good.recorded, enough, fresh⟩
  obtain ⟨ordinals, distinct, recorded, enough, fresh⟩ := olds _ rfl
  generalize (old.map DutyRows.expansions).getD [] = rows at *
  have counted : (merged old acc now).expansions.length = acc.expansionKeys.length := by
    rw [expansions, List.length_append, List.length_map, List.length_zipIdx, List.length_drop]
    omega
  refine {
    missionId := by cases old <;> rfl
    obligationId := by cases old <;> exact formed.named
    documentMission := by cases old <;> rfl
    documentId := by cases old <;> exact formed.named
    lifecycle := by cases old <;> rfl
    resolutionRef := by cases old <;> rfl
    made := by cases old <;> exact formed.made
    storable := ?_
    small := ?_
    fueled := ?_
    ordinals := ?_
    distinct := ?_
    recorded := ?_
    shapeOrdinals := ?_
    details := ?_ }
  · cases old with
    | none => exact storable
    | some duty =>
      refine { storable with parent := ?_ }
      have apart := (stored duty rfl).storable.parent
      rw [(stored duty rfl).obligationId] at apart
      simpa [merged, ObligationStore.rowOf, formed.named] using apart
  · have remaining : acc.remaining ≤ maxJsonInt := by
      unfold Account.remaining
      have zero : (0 : Int) ≤ maxJsonInt := by decide
      omega
    cases old <;>
      simp only [ObligationRow.counters, merged, ObligationStore.rowOf, List.forall_mem_cons] <;>
      exact ⟨by omega, by omega, by omega, by omega, by omega, by omega, remaining, by simp⟩
  · rw [counted]
    cases old <;> exact fueled
  · rw [counted, expansions, merged_ordinals, ordinals, List.length_drop, Nat.add_comm rows.length 1,
      List.range'_append_1]
    congr 1
    omega
  · rw [expansions, merged_keys, List.nodup_append]
    refine ⟨distinct, formed.distinct.sublist (List.drop_sublist _ _), ?_⟩
    rintro key inside _ inside' rfl
    exact fresh key inside' inside
  · intro row inside
    rw [expansions] at inside
    rcases List.mem_append.mp inside with kept | added
    · exact recorded row kept
    · obtain ⟨entry, here, rfl⟩ := List.mem_map.mp added
      apply formed.recorded
      exact List.mem_of_mem_drop (List.fst_mem_of_mem_zipIdx here)
  · unfold merged
    rw [List.map_map, List.length_map, List.length_zipIdx]
    exact List.zipIdx_map_snd 1 _
  · intro row inside
    obtain ⟨entry, here, rfl⟩ := List.mem_map.mp inside
    exact formed.details _ (List.fst_mem_of_mem_zipIdx here)

section
variable {t : Tables}

theorem upsertRow_ran (formed : acc.Formed target) (fits : acc.Fits)
    (unused : ∀ key ∈ keys t.duties, key.2 = target → key.1 = acc.obligation.missionId) (now : Nat)
    (after : (merged (get? t.duties (acc.obligation.missionId, target)) acc now).row.Storable) :
    ObligationStore.upsertRow (ObligationStore.rowOf acc now) t =
      (.ok (), t.put acc.obligation.missionId target
        { merged (get? t.duties (acc.obligation.missionId, target)) acc now with
          expansions := ((get? t.duties (acc.obligation.missionId, target)).map
            DutyRows.expansions).getD []
          shapeChanges := ((get? t.duties (acc.obligation.missionId, target)).map
            DutyRows.shapeChanges).getD [] }) := by
  have storable := rowOf_storable formed fits now
  have named := formed.named
  subst named
  unfold ObligationStore.upsertRow
  rw [bind_of_ran (view_ran _)]
  change (match get? t.duties (acc.obligation.missionId, acc.obligation.obligationId) with
    | none => _
    | some _ => _ : Stored Unit) t = _
  cases found : get? t.duties (acc.obligation.missionId, acc.obligation.obligationId) with
  | none =>
    have absent := (get?_eq_none_iff _ _).mp found
    have free : ∀ key ∈ keys t.duties, key.2 ≠ (ObligationStore.rowOf acc now).obligationId := by
      intro key inside same
      have here : key = (acc.obligation.missionId, acc.obligation.obligationId) :=
        Prod.ext (unused key inside same) same
      exact absent (here ▸ inside)
    exact insertRow_ran storable found free
  | some duty =>
    rw [found] at after
    have updated := @updateRow_ran t acc.obligation.missionId acc.obligation.obligationId duty found
      (fun old => { ObligationStore.rowOf acc now with
        parentObligationId := old.parentObligationId, createdAt := old.createdAt })
      ((check_eq_ok _).mpr after)
    dsimp only
    rw [bind_of_ran (lift_ran ((check_eq_ok _).mpr storable))]
    exact bind_of_ran updated

theorem persistDuty_ran (formed : acc.Formed target) (fits : acc.Fits)
    (unused : ∀ key ∈ keys t.duties, key.2 = target → key.1 = acc.obligation.missionId) (now : Nat)
    (after : (merged (get? t.duties (acc.obligation.missionId, target)) acc now).row.Storable) :
    ObligationStore.persistDuty acc now t = (.ok (), t.put acc.obligation.missionId target
      (merged (get? t.duties (acc.obligation.missionId, target)) acc now)) := by
  have named := formed.named
  subst named
  unfold ObligationStore.persistDuty
  rw [bind_of_ran (upsertRow_ran formed fits unused now after),
    bind_of_ran (requireRow_ran (get?_set_self _ _ _))]
  refine congrArg (Except.ok (), ·) ((put_put t _ _).trans ?_)
  rfl

end

/-! `persist` as a whole. -/

structure Writable (t : Tables) (target : ObligationId) (acc : Account) : Prop where
  formed : acc.Formed target
  fits : acc.Fits
  unused : ∀ key ∈ keys t.duties, key.2 = target → key.1 = acc.obligation.missionId
  adds : acc.Adds (get? t.duties (acc.obligation.missionId, target))

structure Written (t : Tables) (entries : List (ObligationId × Account)) (now : Nat) (t' : Tables) :
    Prop where
  consistent : t'.Consistent
  accounts : ∀ entry ∈ entries, get? t'.duties (entry.2.obligation.missionId, entry.1) =
    some (merged (get? t.duties (entry.2.obligation.missionId, entry.1)) entry.2 now)
  others : ∀ mission target,
    (∀ entry ∈ entries, entry.2.obligation.missionId = mission → entry.1 ≠ target) →
    get? t'.duties (mission, target) = get? t.duties (mission, target)

theorem Writable.consistent {t : Tables} (consistent : t.Consistent) (writable : Writable t target acc)
    (now : Nat) : (merged (get? t.duties (acc.obligation.missionId, target)) acc now).Consistent
      acc.obligation.missionId target :=
  merged_consistent writable.formed writable.fits writable.adds
    (fun _ found => consistent.duties _ _ _ found) now

theorem Writable.after {t : Tables} {other : ObligationId} {acc' : Account}
    (writable : Writable t target acc) (apart : other ≠ target) (rows : DutyRows) :
    Writable (t.put acc'.obligation.missionId other rows) target acc where
  formed := writable.formed
  fits := writable.fits
  unused := by
    intro key inside same
    rcases (mem_keys_set _ _ _ _).mp inside with rfl | inside
    · exact absurd same apart
    · exact writable.unused key inside same
  adds := by
    rw [get?_put, if_neg (by simp [apart])]
    exact writable.adds

theorem persist_entries (entries : List (ObligationId × Account)) {t : Tables}
    (consistent : t.Consistent) (distinct : (entries.map Prod.fst).Nodup)
    (writable : ∀ entry ∈ entries, Writable t entry.1 entry.2) (now : Nat) :
    ∃ t', entries.forM (fun entry => ObligationStore.persistDuty entry.2 now) t = (.ok (), t') ∧
      Written t entries now t' := by
  induction entries generalizing t with
  | nil => exact ⟨t, rfl, consistent, by simp, fun _ _ _ => rfl⟩
  | cons entry rest ih =>
    rw [List.map_cons, List.nodup_cons] at distinct
    have first := writable entry List.mem_cons_self
    have good := first.consistent consistent now
    have ran := persistDuty_ran first.formed first.fits first.unused now good.storable
    have apart : ∀ later ∈ rest, entry.1 ≠ later.1 := by
      intro later inside same
      exact distinct.1 (List.mem_map.mpr ⟨later, inside, same.symm⟩)
    obtain ⟨t', rest_ran, written⟩ := ih (consistent.put good first.unused) distinct.2
      fun later inside =>
        (writable later (List.mem_cons_of_mem _ inside)).after (apart later inside) _
    refine ⟨t', (bind_of_ran ran).trans rest_ran, written.consistent, ?_, ?_⟩
    · intro later inside
      rcases List.mem_cons.mp inside with rfl | inside
      · rw [written.others]
        · rw [get?_put, if_pos ⟨rfl, rfl⟩]
        · intro later' inside' _
          exact Ne.symm (apart later' inside')
      · rw [written.accounts later inside, get?_put, if_neg]
        simp [apart later inside]
    · intro mission target elsewhere
      rw [written.others mission target fun later inside =>
        elsewhere later (List.mem_cons_of_mem _ inside), get?_put, if_neg]
      intro ⟨here, same⟩
      exact elsewhere entry List.mem_cons_self here same

structure ObligationLedger.Fits (ledger : ObligationLedger) (t : Tables) : Prop where
  accounts : ∀ target acc, get? ledger.accounts target = some acc → acc.Fits
  unused : ∀ target acc, get? ledger.accounts target = some acc →
    ∀ key ∈ keys t.duties, key.2 = target → key.1 = acc.obligation.missionId

def ObligationLedger.Adds (ledger : ObligationLedger) (t : Tables) : Prop :=
  ∀ target acc, get? ledger.accounts target = some acc →
    acc.Adds (get? t.duties (acc.obligation.missionId, target))

theorem persist_ran {t : Tables} {ledger : ObligationLedger} (consistent : t.Consistent)
    (formed : ledger.Formed) (fits : ledger.Fits t) (adds : ledger.Adds t) (now : Nat) :
    ∃ t', ObligationStore.persist ledger now t = (.ok (), t') ∧
      Written t ledger.accounts now t' := by
  have writable : ∀ entry ∈ ledger.accounts, Writable t entry.1 entry.2 := by
    intro ⟨target, acc⟩ inside
    have found := get?_eq_some_of_mem formed.distinct inside
    exact ⟨formed.accounts _ _ found, fits.accounts _ _ found, fits.unused _ _ found,
      adds _ _ found⟩
  obtain ⟨t', ran, written⟩ := persist_entries ledger.accounts consistent formed.distinct writable now
  exact ⟨t', transaction_ran ran, written⟩

end

/-! What is loaded and stored again. -/

section
variable {t : Tables} {mission : String} {target : ObligationId} {duty : DutyRows} {acc : Account}

section
variable (consistent : duty.Consistent mission target)
include consistent

theorem account_formed :
    duty.account.Formed target where
  named := consistent.documentId
  made := by
    have same : duty.row.document.moved duty.row.lifecycle duty.row.resolutionRef =
        duty.row.document := by
      rw [← consistent.lifecycle, ← consistent.resolutionRef]
      rfl
    exact (congrArg Obligation.postInit same).trans consistent.made
  nonneg := by
    have nonneg := consistent.storable.nonneg
    simp only [ObligationRow.counters, List.forall_mem_cons] at nonneg
    simp only [Account.counters, List.forall_mem_cons]
    exact ⟨nonneg.1, nonneg.2.1, nonneg.2.2.1, nonneg.2.2.2.1, by simp⟩
  within := consistent.storable.within
  fueled := by
    have fueled := consistent.fueled
    simp only [DutyRows.account, List.length_map]
    exact fueled
  distinct := consistent.distinct
  recorded := by
    intro key inside
    obtain ⟨row, stored, rfl⟩ := List.mem_map.mp inside
    exact key_made (consistent.recorded row stored)
  details := by
    intro shape inside
    obtain ⟨row, stored, rfl⟩ := List.mem_map.mp inside
    exact consistent.details row stored

theorem account_view :
    duty.account.view = duty.view := by
  unfold Account.view DutyRows.view DutyRows.account
  simp only [List.length_map, consistent.documentId, consistent.obligationId]

theorem account_fits : duty.account.Fits where
  shared := consistent.storable.shared
  counters := by
    have small := consistent.small
    simp only [ObligationRow.counters, List.forall_mem_cons] at small
    simp only [Account.counters, List.forall_mem_cons]
    exact ⟨small.1, small.2.1, small.2.2.1, small.2.2.2.1, by simp⟩
  fuelLimit := by
    have small := consistent.small
    simp only [ObligationRow.counters, List.forall_mem_cons] at small
    exact small.2.2.2.2.1

end

theorem Loaded.formed {ledger : ObligationLedger} (consistent : t.Consistent)
    (loaded : Loaded t mission ledger) : ledger.Formed where
  defaultFuel := by
    rw [loaded.defaultFuel]
    decide
  distinct := loaded.distinct
  accounts := by
    intro target acc found
    rw [loaded.accounts, Option.map_eq_some_iff] at found
    obtain ⟨duty, stored, rfl⟩ := found
    exact account_formed (consistent.duties _ _ _ stored)

theorem adds_of_prefix (distinct : acc.expansionKeys.Nodup)
    (begins : duty.expansions.map (·.record.key) <+: acc.expansionKeys) : acc.Adds (some duty) := by
  rintro _ ⟨rfl⟩
  obtain ⟨rest, split⟩ := begins
  rw [← split] at distinct ⊢
  have counted : (duty.expansions.map (·.record.key)).length = duty.expansions.length :=
    List.length_map _
  refine ⟨by rw [List.length_append, counted]; omega, ?_⟩
  rw [← counted, List.drop_left]
  intro key inside inside'
  exact (List.nodup_append.mp distinct).2.2 key inside' key inside rfl

theorem merged_account {old : Option DutyRows} (formed : acc.Formed target)
    (stored : ∀ duty, old = some duty → duty.Consistent mission target)
    (begins : ∀ duty, old = some duty → duty.expansions.map (·.record.key) <+: acc.expansionKeys)
    (now : Nat) : (merged old acc now).account = acc.settled := by
  have adds : acc.Adds old := by
    cases old with
    | none => rintro _ ⟨⟩
    | some duty => exact adds_of_prefix formed.distinct (begins duty rfl)
  have keys : (merged old acc now).expansions.map (·.record.key) = acc.expansionKeys := by
    rw [merged_expansions adds formed.distinct fun duty found => (stored duty found).ordinals,
      merged_keys]
    cases old with
    | none => rfl
    | some duty =>
      obtain ⟨rest, split⟩ := begins duty rfl
      have counted : (duty.expansions.map (·.record.key)).length = duty.expansions.length :=
        List.length_map _
      dsimp only [Option.map_some, Option.getD_some]
      rw [← split, ← counted, List.drop_left]
  have shapes : (merged old acc now).shapeChanges.map (fun row => (row.change, row.detail)) =
      acc.shapeChanges := by
    unfold merged
    rw [List.map_map]
    exact List.zipIdx_map_fst 1 _
  unfold DutyRows.account Account.settled
  rw [keys, shapes]
  cases old <;> rfl

theorem renumber {rows : List ShapeChangeRow} {start : Nat}
    (ordinals : rows.map (·.ordinal) = List.range' start rows.length) :
    ((rows.map fun row => (row.change, row.detail)).zipIdx start).map
      (fun entry => (⟨entry.1.1, entry.1.2, entry.2⟩ : ShapeChangeRow)) = rows := by
  induction rows generalizing start with
  | nil => rfl
  | cons row rest ih =>
    rw [List.map_cons, List.length_cons, List.range'_succ, List.cons.injEq] at ordinals
    rw [List.map_cons, List.zipIdx_cons, List.map_cons, ih ordinals.2, ← ordinals.1]

theorem merged_same (consistent : duty.Consistent mission target) (now : Nat) :
    merged (some duty) duty.account now = duty := by
  have adds : duty.account.Adds (some duty) :=
    adds_of_prefix consistent.distinct List.prefix_rfl
  have expansions : (merged (some duty) duty.account now).expansions = duty.expansions := by
    rw [merged_expansions adds consistent.distinct fun _ found => by
      cases found
      exact consistent.ordinals]
    simp [DutyRows.account]
  have shapes : (merged (some duty) duty.account now).shapeChanges = duty.shapeChanges :=
    renumber consistent.shapeOrdinals
  have owner : duty.row.document.missionId = duty.row.missionId :=
    consistent.documentMission.trans consistent.missionId.symm
  have named : duty.row.document.obligationId = duty.row.obligationId :=
    consistent.documentId.trans consistent.obligationId.symm
  have remaining : duty.account.remaining = duty.row.fuelRemaining := by
    have within := consistent.storable.within
    rw [consistent.storable.remaining]
    unfold Account.remaining DutyRows.account
    dsimp only
    omega
  have document : { duty.row.document with
      lifecycle := duty.row.lifecycle, resolutionRef := duty.row.resolutionRef } =
      duty.row.document := by
    rw [← consistent.lifecycle, ← consistent.resolutionRef]
  have row : (merged (some duty) duty.account now).row = duty.row := by
    unfold merged ObligationStore.rowOf
    dsimp only
    rw [remaining]
    unfold DutyRows.account
    dsimp only
    rw [document, owner, named]
  exact (congrArg₂ (fun row rest => DutyRows.mk row rest.1 rest.2) row
    (Prod.ext expansions shapes : ((merged (some duty) duty.account now).expansions,
      (merged (some duty) duty.account now).shapeChanges) = (duty.expansions, duty.shapeChanges)))

theorem Loaded.persist_same {ledger : ObligationLedger} (consistent : t.Consistent)
    (loaded : Loaded t mission ledger) (now : Nat) :
    ObligationStore.persist ledger now t = (.ok (), t) := by
  have each : ∀ entries : List (ObligationId × Account), (∀ entry ∈ entries, ∃ duty,
      get? t.duties (mission, entry.1) = some duty ∧ entry.2 = duty.account) →
      entries.forM (fun entry => ObligationStore.persistDuty entry.2 now) t = (.ok (), t) := by
    intro entries
    induction entries with
    | nil => exact fun _ => rfl
    | cons entry rest ih =>
      intro stored
      obtain ⟨duty, found, loaded_as⟩ := stored entry List.mem_cons_self
      have good := consistent.duties _ _ _ found
      have owner : duty.account.obligation.missionId = mission := good.documentMission
      have same := merged_same good now
      have ran := @persistDuty_ran duty.account entry.1 t (account_formed good) (account_fits good)
        (by rw [owner]; exact consistent.alone found) now
        (by rw [owner, found, same]; exact good.storable)
      rw [owner, found, same, put_same_rows found] at ran
      rw [← loaded_as] at ran
      exact (bind_of_ran ran).trans (ih fun later inside =>
        stored later (List.mem_cons_of_mem _ inside))
  apply transaction_ran
  apply each
  intro ⟨target, acc⟩ inside
  have found := get?_eq_some_of_mem loaded.distinct inside
  rw [loaded.accounts, Option.map_eq_some_iff] at found
  obtain ⟨duty, stored, rfl⟩ := found
  exact ⟨duty, stored, rfl⟩

theorem Loaded.round_trip {ledger ledger' : ObligationLedger} (consistent : t.Consistent)
    (named : identifier mission "mission_id" = .ok ()) (loaded : Loaded t mission ledger)
    (continues : Continues ledger ledger') (fits : ledger'.Fits t)
    (owned : ∀ target acc, get? ledger'.accounts target = some acc →
      acc.obligation.missionId = mission) (now : Nat) :
    ∃ t' ledger'', ObligationStore.persist ledger' now t = (.ok (), t') ∧
      ObligationStore.loadLedger t' mission = .ok ledger'' ∧
      ∀ target, get? ledger''.accounts target =
        (get? ledger'.accounts target).map Account.settled := by
  obtain ⟨formed, further⟩ := continues
  have goes_on : ∀ target duty, get? t.duties (mission, target) = some duty →
      ∃ acc, get? ledger'.accounts target = some acc ∧ duty.account.Precedes acc := by
    intro target duty stored
    apply further
    rw [loaded.accounts, stored]
    rfl
  have begins : ∀ target acc, get? ledger'.accounts target = some acc → ∀ duty,
      get? t.duties (mission, target) = some duty →
      duty.expansions.map (·.record.key) <+: acc.expansionKeys := by
    intro target acc found duty stored
    obtain ⟨acc', found', precedes⟩ := goes_on target duty stored
    rw [found] at found'
    cases found'
    exact precedes.expansionKeys
  have adds : ledger'.Adds t := by
    intro target acc found duty stored
    rw [owned _ _ found] at stored
    exact adds_of_prefix (formed.accounts _ _ found).distinct (begins _ _ found _ stored) duty rfl
  obtain ⟨t', ran, written⟩ := persist_ran consistent formed fits adds now
  obtain ⟨ledger'', loads, loaded'⟩ := load_ran written.consistent named
  refine ⟨t', ledger'', ran, loads, fun target => ?_⟩
  rw [loaded'.accounts]
  cases found : get? ledger'.accounts target with
  | some acc =>
    have owner := owned _ _ found
    have stored := written.accounts (target, acc) (mem_of_get?_eq_some found)
    rw [owner] at stored
    rw [stored]
    exact congrArg some (merged_account (formed.accounts _ _ found)
      (fun duty here => consistent.duties _ _ _ here) (begins _ _ found) now)
  | none =>
    rw [written.others]
    · cases stored : get? t.duties (mission, target) with
      | none => rfl
      | some duty =>
        obtain ⟨acc, found', _⟩ := goes_on target duty stored
        rw [found] at found'
        cases found'
    · intro ⟨target', acc⟩ inside _ same
      have found' := get?_eq_some_of_mem formed.distinct inside
      change target' = target at same
      rw [same, found] at found'
      cases found'

end

/-! The tables and the ledgers that callers hold of them. -/

structure Desk where
  tables : Tables := {}
  ledgers : Dict Nat ObligationLedger := []

inductive Step
  | call (mission : String) (call : Call)
  | relate (mission parent child : String) (kind : ObligationRelation) (activeRevision : Int)
      (detail : String)
  | build (handle : Nat) (defaultFuel : Int)
  | load (handle : Nat) (mission : String)
  | operate (handle : Nat) (operation : Operation)
  | persist (handle : Nat) (now : Nat)

def Desk.hold (s : Desk) (handle : Nat) (ledger : ObligationLedger) : Desk :=
  { s with ledgers := set s.ledgers handle ledger }

def Desk.act (s : Desk) : Step → Desk
  | .call mission call => { s with tables := (call.stored mission s.tables).2 }
  | .relate mission parent child kind activeRevision detail =>
    { s with tables := (ObligationStore.addRelation mission parent child kind activeRevision detail
      s.tables).2 }
  | .build handle defaultFuel =>
    match ObligationLedger.init defaultFuel with
    | .ok ledger => s.hold handle ledger
    | .error _ => s
  | .load handle mission =>
    match ObligationStore.loadLedger s.tables mission with
    | .ok ledger => s.hold handle ledger
    | .error _ => s
  | .operate handle operation =>
    match get? s.ledgers handle with
    | some ledger => s.hold handle (ledger.act operation)
    | none => s
  | .persist handle now =>
    match get? s.ledgers handle with
    | some ledger => { s with tables := (ObligationStore.persist ledger now s.tables).2 }
    | none => s

/-- The arguments can be built, the sums of a call can be loaded, and a ledger is persisted only
when it fits the tables and has forgotten none of their expansions. -/
def Desk.Takes (s : Desk) : Step → Prop
  | .call mission call => call.Formed ∧ call.Small mission s.tables
  | .operate _ operation => operation.Formed
  | .persist handle _ => ∀ ledger, get? s.ledgers handle = some ledger →
    ledger.Fits s.tables ∧ ledger.Adds s.tables
  | _ => True

structure Desk.Sound (s : Desk) : Prop where
  tables : s.tables.Consistent
  ledgers : ∀ handle ledger, get? s.ledgers handle = some ledger → ledger.Formed

theorem Desk.Sound.hold {s : Desk} (sound : s.Sound) (handle : Nat) {ledger : ObligationLedger}
    (formed : ledger.Formed) : (s.hold handle ledger).Sound where
  tables := sound.tables
  ledgers := every_set sound.ledgers formed

theorem empty_formed {defaultFuel : Int} (low : 0 ≤ defaultFuel) :
    (ObligationLedger.mk defaultFuel []).Formed :=
  ⟨low, List.nodup_nil, fun _ _ found => by cases found⟩

theorem act_sound {s : Desk} (sound : s.Sound) (step : Step) (takes : s.Takes step) :
    (s.act step).Sound := by
  cases step with
  | call mission call =>
    unfold Desk.act
    dsimp only
    exact ⟨call_consistent sound.tables takes.1 takes.2, sound.ledgers⟩
  | relate mission parent child kind activeRevision detail =>
    have same : (ObligationStore.addRelation mission parent child kind activeRevision detail
        s.tables).2.duties = s.tables.duties :=
      (@addRelation_atomic s.tables mission parent child kind activeRevision detail).after
        (fun t => t.duties = s.tables.duties) rfl fun _ _ kept => kept
    have tables := sound.tables.same same
    unfold Desk.act
    dsimp only
    exact ⟨tables, sound.ledgers⟩
  | build handle defaultFuel =>
    unfold Desk.act
    dsimp only
    cases made : ObligationLedger.init defaultFuel with
    | error e => exact sound
    | ok ledger =>
      unfold ObligationLedger.init at made
      obtain ⟨_, low, ⟨rfl⟩⟩ := bind_eq_ok.mp made
      exact sound.hold handle (empty_formed ((require_eq_ok _ _).mp low))
  | load handle mission =>
    unfold Desk.act
    dsimp only
    cases loads : ObligationStore.loadLedger s.tables mission with
    | error e => exact sound
    | ok ledger =>
      have named : identifier mission "mission_id" = .ok () := by
        unfold ObligationStore.loadLedger at loads
        exact (bind_eq_ok.mp loads).choose_spec.1
      obtain ⟨ledger', loads', loaded⟩ := load_ran sound.tables named
      rw [loads] at loads'
      cases loads'
      exact sound.hold handle (loaded.formed sound.tables)
  | operate handle operation =>
    unfold Desk.act
    dsimp only
    cases found : get? s.ledgers handle with
    | none => exact sound
    | some ledger =>
      exact sound.hold handle (act_continues (sound.ledgers _ _ found) takes).1
  | persist handle now =>
    unfold Desk.act
    dsimp only
    cases found : get? s.ledgers handle with
    | none => exact sound
    | some ledger =>
      obtain ⟨fits, adds⟩ := takes ledger found
      obtain ⟨t', ran, written⟩ :=
        persist_ran sound.tables (sound.ledgers _ _ found) fits adds now
      refine ⟨?_, sound.ledgers⟩
      dsimp only
      rw [ran]
      exact written.consistent

theorem start_sound : ({} : Desk).Sound where
  tables := {
    distinct := List.nodup_nil
    identity := by
      intro key inside
      cases inside
    duties := by
      intro mission target duty found
      cases found }
  ledgers := by
    intro handle ledger found
    cases found

def reviewDuty : Obligation :=
  ⟨"review", "m", ["r"], "g", "mission", none, none, .unsatisfied, none, none⟩

def shared : List Step :=
  [.call "m" (.register reviewDuty (some 2) 0), .call "m" (.amend "review" .admitDemand)]

def splitOnce : Operation := .consumeFuel "review" ⟨"split", "0", none⟩

/-- Every account is open, small, of the one mission and first to expand its duty. -/
def fitting (t : Tables) (ledger : ObligationLedger) : Bool :=
  ledger.accounts.all fun entry => decide (entry.2.lifecycle = .unsatisfied ∧
    (∀ counter ∈ entry.2.counters, counter ≤ maxJsonInt) ∧ entry.2.fuelLimit ≤ maxJsonInt ∧
    entry.2.obligation.missionId = "m" ∧ (∀ key ∈ keys t.duties, key.1 = "m") ∧
    ((get? t.duties ("m", entry.1)).map (·.expansions.length)).getD 0 = 0)

section
variable {t : Tables} {ledger : ObligationLedger} (fitted : fitting t ledger = true)
include fitted

theorem fitting_owned {target : ObligationId} {acc : Account}
    (found : get? ledger.accounts target = some acc) : acc.obligation.missionId = "m" :=
  (of_decide_eq_true (List.all_eq_true.mp fitted _ (mem_of_get?_eq_some found))).2.2.2.1

theorem fitting_fits : ledger.Fits t := by
  refine ⟨fun target acc found => ?_, fun target acc found key inside _ => ?_⟩
  · obtain ⟨live, counters, limit, _⟩ := of_decide_eq_true
      (List.all_eq_true.mp fitted _ (mem_of_get?_eq_some found))
    exact ⟨Or.inr live, counters, limit⟩
  · obtain ⟨_, _, _, owner, keys, _⟩ := of_decide_eq_true
      (List.all_eq_true.mp fitted _ (mem_of_get?_eq_some found))
    exact (keys key inside).trans owner.symm

theorem fitting_adds : ledger.Adds t := by
  intro target acc found duty stored
  obtain ⟨_, _, _, owner, _, none⟩ := of_decide_eq_true
    (List.all_eq_true.mp fitted _ (mem_of_get?_eq_some found))
  dsimp only at owner none
  rw [owner] at stored
  rw [stored] at none
  have empty : duty.expansions = [] := List.length_eq_zero_iff.mp none
  simp [empty]

end

theorem shared_takes : reviewDuty.postInit = .ok () ∧
    ExpansionRecord.postInit ⟨"split", "0", none⟩ = .ok () := by
  decide +kernel

/-- In every run whose steps meet the conditions, a load gives every duty of the mission as it is
stored, and persisting it at once changes nothing; any operations on the loaded ledger can be
persisted when it fits the tables, and are loaded again. -/
theorem bridge_round_trip (steps : List Step)
    (each : Transitions.Each Desk.act Desk.Takes {} steps) (mission : String)
    (named : identifier mission "mission_id" = .ok ()) :
    let t := (Transitions.run Desk.act {} steps).tables
    ∃ ledger, ObligationStore.loadLedger t mission = .ok ledger ∧
      (∀ target, (account target ledger).1.toOption =
        (ObligationStore.account mission target t).1.toOption) ∧
      (∀ target, get? ledger.accounts target =
        (get? t.duties (mission, target)).map DutyRows.account) ∧
      (∀ now, ObligationStore.persist ledger now t = (.ok (), t)) ∧
      ∀ operations : List Operation, (∀ operation ∈ operations, operation.Formed) →
        let ledger' := Transitions.run ObligationLedger.act ledger operations
        ledger'.Fits t →
        (∀ target acc, get? ledger'.accounts target = some acc →
          acc.obligation.missionId = mission) →
        ∀ now, ∃ t' ledger'', ObligationStore.persist ledger' now t = (.ok (), t') ∧
          ObligationStore.loadLedger t' mission = .ok ledger'' ∧
          ∀ target, get? ledger''.accounts target =
            (get? ledger'.accounts target).map Account.settled := by
  intro t
  have sound := @Transitions.Each.run_keeps _ _ _ _ Desk.Sound
    (fun _ step sound takes => act_sound sound step takes) {} start_sound steps each
  obtain ⟨ledger, loads, loaded⟩ := load_ran sound.tables named
  refine ⟨ledger, loads, ?_, loaded.accounts, loaded.persist_same sound.tables, ?_⟩
  · intro target
    cases stored : get? t.duties (mission, target) with
    | none =>
      have absent : get? ledger.accounts target = none := by rw [loaded.accounts, stored]; rfl
      obtain ⟨e, refused⟩ := stored_account_absent stored
      obtain ⟨e', refused'⟩ := kept_account_absent absent
      rw [refused, refused']
      rfl
    | some duty =>
      have found : get? ledger.accounts target = some duty.account := by
        rw [loaded.accounts, stored]
        rfl
      have good := sound.tables.duties _ _ _ stored
      have target_valid := (postInit_eq_ok good.made).1
      rw [good.documentId] at target_valid
      rw [account_ran named target_valid stored, kept_account_ran found, account_view good]
      rfl
  · intro operations given ledger' fits owned now
    exact loaded.round_trip sound.tables named
      (run_continues (loaded.formed sound.tables) given) fits owned now

/-- A shared duty is loaded, expanded once, persisted and loaded again. -/
theorem review_round_trip :
    let t := (Transitions.run Desk.act {} shared).tables
    ∃ ledger t' ledger', ObligationStore.loadLedger t "m" = .ok ledger ∧
      ObligationStore.persist ledger 1 t = (.ok (), t) ∧
      ObligationStore.persist (ledger.act splitOnce) 1 t = (.ok (), t') ∧
      ObligationStore.loadLedger t' "m" = .ok ledger' ∧
      ∀ target, get? ledger'.accounts target =
        (get? (ledger.act splitOnce).accounts target).map Account.settled := by
  have each : Transitions.Each Desk.act Desk.Takes {} shared :=
    ⟨⟨shared_takes.1, trivial⟩, ⟨trivial, fun _ _ => trivial⟩, trivial⟩
  obtain ⟨ledger, loads, _, _, same, again⟩ := bridge_round_trip _ each "m" (by decide +kernel)
  have fitted : (ObligationStore.loadLedger (Transitions.run Desk.act {} shared).tables
      "m").toOption.map (fun ledger => fitting (Transitions.run Desk.act {} shared).tables
        (ledger.act splitOnce)) = some true := by
    decide +kernel
  rw [loads] at fitted
  have fitted := Option.some.inj fitted
  obtain ⟨t', ledger', persists, loads', kept⟩ := again [splitOnce]
    (by simpa [splitOnce, Operation.Formed] using shared_takes.2) (fitting_fits fitted)
    (fun _ _ found => fitting_owned fitted found) 1
  exact ⟨ledger, t', ledger', loads, same 1, persists, loads', kept⟩

/-- A loaded ledger closes the shared duty, and cannot be persisted any more. -/
theorem review_not_persisted :
    let t := (Transitions.run Desk.act {} shared).tables
    let closed := fun ledger => perform (.setLifecycle "review" .cancelled none) ledger
    (ObligationStore.loadLedger t "m").toOption.map (fun ledger =>
      ((closed ledger).1.toBool, (ObligationStore.persist (closed ledger).2 1 t).1.toBool)) =
      some (true, false) := by
  decide +kernel

end Obligations
