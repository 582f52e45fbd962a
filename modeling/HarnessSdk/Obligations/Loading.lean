import HarnessSdk.Obligations.Twin

/-! Loading the ledger of a mission: what was stored is replayed in full. -/
namespace Obligations
open PyDict PyText Checks Network Planning Metered

/-! Rows that can be replayed. -/

/-- The columns of a duty, its document and its child rows say the same. -/
structure DutyRows.Consistent (mission : String) (target : ObligationId) (duty : DutyRows) : Prop where
  missionId : duty.row.missionId = mission
  obligationId : duty.row.obligationId = target
  documentMission : duty.row.document.missionId = mission
  documentId : duty.row.document.obligationId = target
  lifecycle : duty.row.document.lifecycle = duty.row.lifecycle
  resolutionRef : duty.row.document.resolutionRef = duty.row.resolutionRef
  made : duty.row.document.postInit = .ok ()
  storable : duty.row.Storable
  small : ∀ counter ∈ duty.row.counters, counter.2 ≤ maxJsonInt
  fueled : (duty.expansions.length : Int) = duty.row.fuelUsed
  ordinals : duty.expansions.map (·.ordinal) = List.range' 1 duty.expansions.length
  distinct : (duty.expansions.map (·.record.key)).Nodup
  recorded : ∀ row ∈ duty.expansions, row.record.postInit = .ok ()
  shapeOrdinals : duty.shapeChanges.map (·.ordinal) = List.range' 1 duty.shapeChanges.length
  details : ∀ row ∈ duty.shapeChanges, text row.detail "detail" 512 = .ok ()

def DutyRows.account (duty : DutyRows) : Account where
  obligation := duty.row.document
  fuelLimit := duty.row.fuelLimit
  fuelUsed := duty.row.fuelUsed
  failureCount := duty.row.failureCount
  consumedCostMicros := duty.row.spentCostMicros
  consumedAttempts := duty.row.spentAttempts
  consumedTokens := duty.row.spentTokens
  demandAdmitted := duty.row.demandAdmitted
  expansionKeys := duty.expansions.map (·.record.key)
  shapeChanges := duty.shapeChanges.map fun row => (row.change, row.detail)
  lifecycle := duty.row.lifecycle
  resolutionRef := duty.row.resolutionRef

/-! The operations that a load calls. -/

section
variable {s : ObligationLedger} {target : ObligationId} {acc : Account}

theorem index_ok {value minimum : Int} {name : String} (low : minimum ≤ value)
    (high : value ≤ maxJsonInt) : index value name minimum = .ok value :=
  index_eq_ok.mpr ⟨rfl, low, high⟩

theorem ledger_put_put (first second : Account) :
    (s.put target first).put target second = s.put target second := by
  unfold ObligationLedger.put
  rw [set_set]

theorem get?_put_self (acc : Account) : get? (s.put target acc).accounts target = some acc :=
  get?_set_self _ _ _

theorem put_ran (acc : Account) : put target acc s = (.ok (), s.put target acc) := rfl

theorem register_ran {obligation : Obligation} {fuel : Int}
    (absent : get? s.accounts obligation.obligationId = none) (low : 0 ≤ fuel)
    (high : fuel ≤ maxJsonInt) :
    register obligation (some fuel) s =
      (.ok (), s.put obligation.obligationId (opened obligation fuel)) := by
  unfold register
  rw [bind_of_ran (view_ran _), bind_of_ran (view_ran _), bind_of_ran (ensure_ran absent),
    bind_of_ran (lift_ran (index_ok low high))]
  rfl

section
variable (found : get? s.accounts target = some acc)
include found

theorem recordFailure_ran {count : Int}
    (low : 1 ≤ count) (high : count ≤ maxJsonInt) :
    recordFailure target count s = (.ok (acc.failureCount + count),
      s.put target { acc with failureCount := acc.failureCount + count }) := by
  unfold recordFailure
  rw [bind_of_ran (requireAccount_ran found), bind_of_ran (lift_ran (index_ok low high))]
  rfl

theorem recordSpend_ran {costMicros attempts tokens : Int}
    (cost : 0 ≤ costMicros ∧ costMicros ≤ maxJsonInt) (tries : 0 ≤ attempts ∧ attempts ≤ maxJsonInt)
    (spent : 0 ≤ tokens ∧ tokens ≤ maxJsonInt) :
    ∃ shown, recordSpend target costMicros attempts tokens s = (.ok shown, s.put target { acc with
      consumedCostMicros := acc.consumedCostMicros + costMicros
      consumedAttempts := acc.consumedAttempts + attempts
      consumedTokens := acc.consumedTokens + tokens }) := by
  unfold recordSpend
  rw [bind_of_ran (requireAccount_ran found), bind_of_ran (lift_ran (index_ok cost.1 cost.2)),
    bind_of_ran (lift_ran (index_ok tries.1 tries.2)),
    bind_of_ran (lift_ran (index_ok spent.1 spent.2)), bind_of_ran (put_ran _)]
  exact ⟨_, account_after_put _⟩

theorem noteShapeChange_ran (change : ShapeChange)
    {detail : String} (said : text detail "detail" 512 = .ok ()) :
    ∃ shown, noteShapeChange target change detail s = (.ok shown,
      s.put target { acc with shapeChanges := acc.shapeChanges ++ [(change, detail)] }) := by
  unfold noteShapeChange
  rw [bind_of_ran (requireAccount_ran found), bind_of_ran (lift_ran said), bind_of_ran (put_ran _)]
  exact ⟨_, account_after_put _⟩

theorem admitDemand_ran
    (is_open : acc.lifecycle = .unsatisfied) (alone : acc.demandAdmitted = false) :
    ∃ shown, admitDemand target s = (.ok shown,
      s.put target { acc with demandAdmitted := true }) := by
  unfold admitDemand
  rw [bind_of_ran (requireAccount_ran found), bind_of_ran (ensure_ran is_open),
    bind_of_ran (ensure_ran alone), bind_of_ran (put_ran _)]
  exact ⟨_, account_after_put _⟩

theorem consumeFuel_ran {expansion : ExpansionRecord}
    (unseen : expansion.key ∉ acc.expansionKeys) (left : acc.fuelUsed < acc.fuelLimit) :
    ∃ decision, consumeFuel target expansion s =
      (.ok decision, s.put target (acc.expand expansion.key)) := by
  unfold consumeFuel
  rw [bind_of_ran (requireAccount_ran found), if_neg unseen, if_neg (by omega), bind_of_ran (put_ran _)]
  exact ⟨_, rfl⟩

end

end

/-! The replay of one duty. -/

section
variable {s : ObligationLedger} {target : ObligationId} {acc : Account}

theorem replay_expansions (rows : List ExpansionRow) (found : get? s.accounts target = some acc)
    (recorded : ∀ row ∈ rows, row.record.postInit = .ok ())
    (distinct : (acc.expansionKeys ++ rows.map (·.record.key)).Nodup)
    (enough : acc.fuelUsed + rows.length ≤ acc.fuelLimit) :
    (rows.forM fun expansion => do
      lift expansion.record.postInit
      let _ ← consumeFuel target expansion.record) s =
      (.ok (), s.put target { acc with
        fuelUsed := acc.fuelUsed + rows.length
        expansionKeys := acc.expansionKeys ++ rows.map (·.record.key) }) := by
  induction rows generalizing s acc with
  | nil =>
    simp only [List.length_nil, List.map_nil, List.append_nil, Int.natCast_zero, Int.add_zero]
    exact congrArg (Except.ok (), ·) (put_same found).symm
  | cons row rest ih =>
    have unseen : row.record.key ∉ acc.expansionKeys := by
      intro inside
      exact (List.nodup_append.mp distinct).2.2 _ inside _ List.mem_cons_self rfl
    have made := recorded row List.mem_cons_self
    rw [List.length_cons] at enough
    obtain ⟨decision, ran⟩ := consumeFuel_ran found unseen (by omega)
    have rest_ran := @ih (s.put target (acc.expand row.record.key)) (acc.expand row.record.key)
      (get?_put_self _) (fun row inside => recorded row (List.mem_cons_of_mem _ inside))
      (by simpa [Account.expand] using distinct) (by simp only [Account.expand]; omega)
    have head : (do
        lift row.record.postInit
        let _ ← consumeFuel target row.record : Work Unit) s =
        (.ok (), s.put target (acc.expand row.record.key)) := by
      rw [bind_of_ran (lift_ran made), bind_of_ran ran]
      rfl
    have count : acc.fuelUsed + 1 + (rest.length : Int) = acc.fuelUsed + (rest.length + 1 : Nat) := by
      omega
    refine Eq.trans (forM_cons_ran head) ?_
    rw [rest_ran, ledger_put_put]
    simp only [Account.expand, List.length_cons, List.map_cons, List.append_assoc,
      List.singleton_append, count]

theorem replay_shapeChanges (rows : List ShapeChangeRow) (found : get? s.accounts target = some acc)
    (details : ∀ row ∈ rows, text row.detail "detail" 512 = .ok ()) :
    (rows.forM fun shape => do
      let _ ← noteShapeChange target shape.change shape.detail) s =
      (.ok (), s.put target { acc with
        shapeChanges := acc.shapeChanges ++ rows.map fun row => (row.change, row.detail) }) := by
  induction rows generalizing s acc with
  | nil =>
    simp only [List.map_nil, List.append_nil]
    exact congrArg (Except.ok (), ·) (put_same found).symm
  | cons row rest ih =>
    obtain ⟨shown, ran⟩ := noteShapeChange_ran found row.change (details row List.mem_cons_self)
    have rest_ran := @ih (s.put target { acc with
        shapeChanges := acc.shapeChanges ++ [(row.change, row.detail)] }) _ (get?_put_self _)
      fun row inside => details row (List.mem_cons_of_mem _ inside)
    have head : (do
        let _ ← noteShapeChange target row.change row.detail : Work Unit) s = (.ok (), s.put target
        { acc with shapeChanges := acc.shapeChanges ++ [(row.change, row.detail)] }) := by
      rw [bind_of_ran ran]
      rfl
    refine Eq.trans (forM_cons_ran head) ?_
    rw [rest_ran, ledger_put_put]
    simp only [List.map_cons, List.append_assoc, List.singleton_append]

theorem ordered_of_range' {α : Type} {rows : List α} {ordinal : α → Nat}
    (ordinals : rows.map ordinal = List.range' 1 rows.length) :
    rows.insertionSort (fun a b => ordinal a ≤ ordinal b) = rows := by
  apply List.Pairwise.insertionSort_eq
  have sorted : (rows.map ordinal).Pairwise (· ≤ ·) := by
    rw [ordinals]
    exact List.pairwise_le_range' 1
  exact List.pairwise_map.mp sorted

theorem replay_eq (duty : DutyRows) : replay duty =
    (lift duty.row.document.postInit >>= fun _ =>
    register duty.row.document (some duty.row.fuelLimit) >>= fun _ =>
    (if duty.row.failureCount ≠ 0 then
      recordFailure duty.row.document.obligationId duty.row.failureCount >>= fun _ => pure ()
    else pure ()) >>= fun _ =>
    recordSpend duty.row.document.obligationId duty.row.spentCostMicros duty.row.spentAttempts
      duty.row.spentTokens >>= fun _ =>
    ((ExpansionRow.ordered duty.expansions).forM fun expansion => do
      lift expansion.record.postInit
      let _ ← consumeFuel duty.row.document.obligationId expansion.record) >>= fun _ =>
    ((ShapeChangeRow.ordered duty.shapeChanges).forM fun shape => do
      let _ ← noteShapeChange duty.row.document.obligationId shape.change shape.detail) >>= fun _ =>
    (if duty.row.demandAdmitted then
      admitDemand duty.row.document.obligationId >>= fun _ => pure ()
    else pure ()) >>= fun _ =>
    if duty.row.lifecycle ≠ duty.row.document.lifecycle ∨
        duty.row.resolutionRef ≠ duty.row.document.resolutionRef then
      setLifecycle duty.row.document.obligationId duty.row.lifecycle duty.row.resolutionRef >>=
        fun _ => pure ()
    else pure ()) := by
  unfold replay
  dsimp only
  by_cases failed : duty.row.failureCount ≠ 0
  · rw [if_pos failed, if_pos failed]
    by_cases shared : duty.row.demandAdmitted = true
    · rw [if_pos shared, if_pos shared]
      simp only [bind_assoc, pure_bind]
    · rw [if_neg shared, if_neg shared]
      simp only [bind_assoc, pure_bind]
  · rw [if_neg failed, if_neg failed]
    by_cases shared : duty.row.demandAdmitted = true
    · rw [if_pos shared, if_pos shared]
      simp only [bind_assoc, pure_bind]
    · rw [if_neg shared, if_neg shared]
      simp only [pure_bind]

theorem replay_failures (found : get? s.accounts target = some acc) (none_yet : acc.failureCount = 0)
    {count : Int} (low : 0 ≤ count) (high : count ≤ maxJsonInt) :
    (if count ≠ 0 then recordFailure target count >>= fun _ => pure () else pure () : Work Unit) s =
      (.ok (), s.put target { acc with failureCount := count }) := by
  by_cases failed : count ≠ 0
  · rw [if_pos failed, bind_of_ran (recordFailure_ran found (by omega) high), none_yet, Int.zero_add]
    rfl
  · rw [if_neg failed]
    have none_stored : count = acc.failureCount := by omega
    rw [none_stored]
    exact congrArg (Except.ok (), ·) (put_same found).symm

theorem replay_demand (found : get? s.accounts target = some acc) (alone : acc.demandAdmitted = false)
    {shared : Bool} (is_open : shared = true → acc.lifecycle = .unsatisfied) :
    (if shared = true then admitDemand target >>= fun _ => pure () else pure () : Work Unit) s =
      (.ok (), s.put target { acc with demandAdmitted := shared }) := by
  cases shared with
  | true =>
    obtain ⟨shown, ran⟩ := admitDemand_ran found (is_open rfl) alone
    rw [if_pos rfl, bind_of_ran ran]
    rfl
  | false =>
    rw [if_neg Bool.false_ne_true, ← alone]
    exact congrArg (Except.ok (), ·) (put_same found).symm

theorem replay_ran {mission : String} {duty : DutyRows} (consistent : duty.Consistent mission target)
    (absent : get? s.accounts target = none) :
    replay duty s = (.ok (), s.put target duty.account) := by
  have small := consistent.small
  have nonneg := consistent.storable.nonneg
  simp only [ObligationRow.counters, List.forall_mem_cons] at small nonneg
  obtain ⟨small_failures, small_tokens, small_cost, small_attempts, small_limit, _⟩ := small
  obtain ⟨failures, tokens, cost, attempts, limit, _⟩ := nonneg
  have named := consistent.documentId
  have within := consistent.storable.within
  have fueled := consistent.fueled
  have expansions_sorted : ExpansionRow.ordered duty.expansions = duty.expansions :=
    ordered_of_range' consistent.ordinals
  have shapes_sorted : ShapeChangeRow.ordered duty.shapeChanges = duty.shapeChanges :=
    ordered_of_range' consistent.shapeOrdinals
  subst named
  rw [replay_eq, expansions_sorted, shapes_sorted, bind_of_ran (lift_ran consistent.made),
    bind_of_ran (register_ran absent limit small_limit),
    bind_of_ran (replay_failures (get?_put_self _) rfl failures small_failures)]
  obtain ⟨shown, spent⟩ := recordSpend_ran (get?_put_self _) ⟨cost, small_cost⟩ ⟨attempts, small_attempts⟩
    ⟨tokens, small_tokens⟩
  rw [bind_of_ran spent, bind_of_ran (replay_expansions duty.expansions (get?_put_self _)
      consistent.recorded (by simpa [opened] using consistent.distinct)
      (by simp only [opened]; omega)),
    bind_of_ran (replay_shapeChanges duty.shapeChanges (get?_put_self _) consistent.details)]
  have is_open : duty.row.demandAdmitted = true → duty.row.document.lifecycle = .unsatisfied := by
    intro shared
    rw [consistent.lifecycle]
    exact consistent.storable.shared.resolve_left (by simp [shared])
  have settled : ¬ (duty.row.lifecycle ≠ duty.row.document.lifecycle ∨
      duty.row.resolutionRef ≠ duty.row.document.resolutionRef) := by
    simp [consistent.lifecycle, consistent.resolutionRef]
  rw [bind_of_ran (replay_demand (get?_put_self _) rfl is_open), if_neg settled]
  simp only [ledger_put_put, opened, List.nil_append, Int.zero_add, fueled, consistent.lifecycle,
    consistent.resolutionRef]
  rfl

end

/-! The load of a mission. -/

structure Tables.Consistent (t : Tables) : Prop where
  distinct : (keys t.duties).Nodup
  identity : ∀ key ∈ keys t.duties, ∀ key' ∈ keys t.duties, key.2 = key'.2 → key = key'
  duties : ∀ mission target duty, get? t.duties (mission, target) = some duty →
    duty.Consistent mission target

structure Loaded (t : Tables) (mission : String) (ledger : ObligationLedger) : Prop where
  defaultFuel : ledger.defaultFuel = ObligationStore.defaultRecursionFuel
  distinct : (keys ledger.accounts).Nodup
  accounts : ∀ target, get? ledger.accounts target =
    (get? t.duties (mission, target)).map DutyRows.account

theorem load_rows {mission : String} (rows : List DutyRows) {s : ObligationLedger}
    (consistent : ∀ duty ∈ rows, duty.Consistent mission duty.row.obligationId)
    (distinct : (rows.map (·.row.obligationId)).Nodup)
    (absent : ∀ duty ∈ rows, get? s.accounts duty.row.obligationId = none)
    (keys_distinct : (keys s.accounts).Nodup) :
    ∃ ledger, rows.forM replay s = (.ok (), ledger) ∧ ledger.defaultFuel = s.defaultFuel ∧
      (keys ledger.accounts).Nodup ∧
      (∀ duty ∈ rows, get? ledger.accounts duty.row.obligationId = some duty.account) ∧
      ∀ target, (∀ duty ∈ rows, duty.row.obligationId ≠ target) →
        get? ledger.accounts target = get? s.accounts target := by
  induction rows generalizing s with
  | nil => exact ⟨s, rfl, rfl, keys_distinct, by simp, fun _ _ => rfl⟩
  | cons duty rest ih =>
    rw [List.map_cons, List.nodup_cons] at distinct
    have other : ∀ later ∈ rest, duty.row.obligationId ≠ later.row.obligationId := by
      intro later inside same
      exact distinct.1 (List.mem_map.mpr ⟨later, inside, same.symm⟩)
    have ran := replay_ran (consistent duty List.mem_cons_self) (absent duty List.mem_cons_self)
    obtain ⟨ledger, rest_ran, fuel, nodup, found, others⟩ :=
      @ih (s.put duty.row.obligationId duty.account)
        (fun later inside => consistent later (List.mem_cons_of_mem _ inside)) distinct.2
        (by
          intro later inside
          unfold ObligationLedger.put
          rw [get?_set_ne _ _ (other later inside)]
          exact absent later (List.mem_cons_of_mem _ inside))
        (keys_set_nodup _ _ keys_distinct)
    refine ⟨ledger, Eq.trans (forM_cons_ran ran) rest_ran, fuel, nodup, ?_, ?_⟩
    · intro later inside
      rcases List.mem_cons.mp inside with rfl | inside
      · rw [others _ fun later' inside' => Ne.symm (other later' inside')]
        exact get?_put_self _
      · exact found later inside
    · intro target apart
      rw [others target fun later inside => apart later (List.mem_cons_of_mem _ inside)]
      unfold ObligationLedger.put
      exact get?_set_ne _ _ (apart duty List.mem_cons_self)

section
variable {t : Tables} {mission : String}

section
variable (consistent : t.Consistent)
include consistent

theorem mem_dutiesOf {duty : DutyRows} :
    duty ∈ ObligationStore.dutiesOf t mission ↔
      get? t.duties (mission, duty.row.obligationId) = some duty := by
  unfold ObligationStore.dutiesOf
  rw [List.mem_insertionSort, List.mem_map]
  constructor
  · rintro ⟨⟨⟨owner, target⟩, duty'⟩, inside, rfl⟩
    rw [List.mem_filter] at inside
    have here : owner = mission := by simpa using inside.2
    subst here
    have found := get?_eq_some_of_mem consistent.distinct inside.1
    rw [(consistent.duties _ _ _ found).obligationId]
    exact found
  · intro found
    refine ⟨⟨(mission, duty.row.obligationId), duty⟩, ?_, rfl⟩
    rw [List.mem_filter]
    exact ⟨mem_of_get?_eq_some found, by simp⟩

theorem dutiesOf_distinct :
    ((ObligationStore.dutiesOf t mission).map (·.row.obligationId)).Nodup := by
  unfold ObligationStore.dutiesOf
  rw [((List.perm_insertionSort _ _).map _).nodup_iff, List.map_map]
  have entries : t.duties.Nodup := List.Nodup.of_map _ consistent.distinct
  apply List.Nodup.map_on _ (entries.filter _)
  rintro ⟨⟨owner, target⟩, duty⟩ inside ⟨⟨owner', target'⟩, duty'⟩ inside' same
  rw [List.mem_filter] at inside inside'
  have found := get?_eq_some_of_mem consistent.distinct inside.1
  have found' := get?_eq_some_of_mem consistent.distinct inside'.1
  have here : owner = mission := by simpa using inside.2
  have here' : owner' = mission := by simpa using inside'.2
  subst here here'
  have ids : target = target' :=
    (consistent.duties _ _ _ found).obligationId.symm.trans
      (same.trans (consistent.duties _ _ _ found').obligationId)
  subst ids
  rw [found] at found'
  cases found'
  rfl

theorem load_ran (named : identifier mission "mission_id" = .ok ()) :
    ∃ ledger, ObligationStore.loadLedger t mission = .ok ledger ∧ Loaded t mission ledger := by
  have rows_consistent : ∀ duty ∈ ObligationStore.dutiesOf t mission,
      duty.Consistent mission duty.row.obligationId :=
    fun duty inside => consistent.duties _ _ _ ((mem_dutiesOf consistent).mp inside)
  obtain ⟨ledger, ran, fuel, distinct, found, others⟩ := @load_rows mission
    (ObligationStore.dutiesOf t mission) ⟨ObligationStore.defaultRecursionFuel, []⟩ rows_consistent
    (dutiesOf_distinct consistent) (fun _ _ => rfl) List.nodup_nil
  refine ⟨ledger, ?_, fuel, distinct, ?_⟩
  · unfold ObligationStore.loadLedger
    rw [named, ran]
    rfl
  · intro target
    cases stored : get? t.duties (mission, target) with
    | some duty =>
      have same := (consistent.duties _ _ _ stored).obligationId
      have inside : duty ∈ ObligationStore.dutiesOf t mission := by
        rw [mem_dutiesOf consistent, same]
        exact stored
      exact same ▸ found duty inside
    | none =>
      rw [others target]
      · rfl
      · intro duty inside same
        rw [mem_dutiesOf consistent, same, stored] at inside
        cases inside

end

end
end Obligations
