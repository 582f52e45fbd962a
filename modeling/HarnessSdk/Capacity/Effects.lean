import HarnessSdk.Capacity.Ledger

/-! What one transaction can do to the rows. -/
namespace Capacity
open PyDict PyText Checks Tables

structure SameRow (old new : Entry) : Prop where
  sequence : new.sequence = old.sequence
  poolId : new.poolId = old.poolId
  key : new.key = old.key
  owner : new.owner = old.owner
  epoch : new.epoch = old.epoch
  weight : new.weight = old.weight

variable {probe : Probe} (row : Entry)

theorem SameRow.refl : SameRow row row := ⟨rfl, rfl, rfl, rfl, rfl, rfl⟩

theorem SameRow.trans {a b c : Entry} (first : SameRow a b) (second : SameRow b c) :
    SameRow a c where
  sequence := second.sequence.trans first.sequence
  poolId := second.poolId.trans first.poolId
  key := second.key.trans first.key
  owner := second.owner.trans first.owner
  epoch := second.epoch.trans first.epoch
  weight := second.weight.trans first.weight

def begun : List EntryState := [.reserved, .handedOff, .unknown, .settled]

/-- A change that takes no capacity and puts nothing before the head of the queue. -/
structure Quiet (old new : Entry) : Prop extends SameRow old new where
  held : new.state ∈ held → old.state ∈ Capacity.held
  begun : new.state ∈ begun → old.state ∈ Capacity.begun
  waiting : new.state = .waiting → old.state = .waiting

/-- What may become of an entry; a handed off one is settled only by what settles it. -/
structure Goes (settles : Entry → Prop) (old new : Entry) : Prop extends SameRow old new where
  released : old.state = .released → new.state = .released
  settled : old.state = .settled → new.state = .settled
  kept : old.state ∈ [.handedOff, .unknown] →
    new.state ∈ [.handedOff, .unknown] ∨ new.state = .settled ∧ settles old
  waiting : new.state = .waiting → old.state = .waiting

theorem Quiet.refl : Quiet row row := ⟨SameRow.refl row, id, id, id⟩

theorem Goes.refl (settles : Entry → Prop) (row : Entry) : Goes settles row row :=
  ⟨SameRow.refl row, id, id, Or.inl, id⟩

theorem Goes.trans {settles later : Entry → Prop} {a b c : Entry} (first : Goes settles a b)
    (second : Goes later b c) (same : later b → later a) :
    Goes (fun row => settles row ∨ later row) a c where
  toSameRow := first.toSameRow.trans second.toSameRow
  released := fun h => second.released (first.released h)
  settled := fun h => second.settled (first.settled h)
  kept := by
    intro h
    rcases first.kept h with still | ⟨done, by_⟩
    · rcases second.kept still with still | ⟨done, by_⟩
      · exact Or.inl still
      · exact Or.inr ⟨done, Or.inr (same by_)⟩
    · exact Or.inr ⟨second.settled done, Or.inl by_⟩
  waiting := fun h => first.waiting (second.waiting h)

def Operation.settles (ledger : CapacityLedger) (row : Entry) : Operation → Prop
  | .finish ticket knownTerminal => knownTerminal = true ∧ ticket.names row = true
  | .reconcile key _ => row.poolId = ledger.poolId ∧ row.key = key
  | _ => False

variable {ledger : CapacityLedger}

theorem Operation.settles_congr {operation : Operation} {old new : Entry} (same : SameRow old new) :
    operation.settles ledger new → operation.settles ledger old := by
  cases operation with
  | finish ticket knownTerminal =>
    rintro ⟨terminal, names⟩
    refine ⟨terminal, ?_⟩
    simpa only [CapacityTicket.names, same.poolId, same.key, same.owner, same.epoch, same.weight]
      using names
  | reconcile key evidenceRef =>
    rintro ⟨pool, key'⟩
    exact ⟨same.poolId ▸ pool, same.key ▸ key'⟩
  | _ => exact id

/-! Recovery. -/

def never (_ : Entry) : Prop := False

theorem recoverRow_spec {row row' : Entry} (ok : recoverRow ledger probe row = .ok row') :
    Quiet row row' ∧ Goes never row row' := by
  unfold recoverRow at ok
  split at ok
  · next recoverable =>
    obtain ⟨runs, _, ok⟩ := bind_eq_ok.mp ok
    split at ok
    · cases ok
      exact ⟨Quiet.refl row, Goes.refl _ row⟩
    · cases ok
      have states := recoverable.2
      simp only [List.mem_cons, List.not_mem_nil, or_false] at states
      rcases states with state | state | state
      all_goals
        refine ⟨⟨⟨rfl, rfl, rfl, rfl, rfl, rfl⟩, ?_, ?_, ?_⟩,
          ⟨⟨rfl, rfl, rfl, rfl, rfl, rfl⟩, ?_, ?_, ?_, ?_⟩⟩
        all_goals simp [state, held, begun]
  · cases ok
    exact ⟨Quiet.refl row, Goes.refl _ row⟩

theorem recoverDead_spec {db mid : Database} (ok : recoverDead ledger probe db = .ok mid) :
    List.Forall₂ (fun row row' => Quiet row row' ∧ Goes never row row') db.entries mid.entries ∧
      mid.pools = db.pools ∧ mid.lastSequence = db.lastSequence := by
  obtain ⟨entries, collected, ok⟩ := bind_eq_ok.mp ok
  cases ok
  exact ⟨forall₂_of_mapM (fun _ _ => recoverRow_spec) collected, rfl, rfl⟩

/-! Operations. -/

inductive Effect (ledger : CapacityLedger) (operation : Operation) (mid : Database) :
    Database → Prop
  | nothing : Effect ledger operation mid mid
  | added (row : Entry) (number : row.sequence = mid.lastSequence + 1) (waits : row.state = .waiting)
      (pool : row.poolId = ledger.poolId)
      (fresh : ∀ r ∈ mid.entries, ¬ (r.poolId = row.poolId ∧ r.key = row.key))
      (heavy : 0 < row.weight) :
      Effect ledger operation mid
        { mid with entries := mid.entries ++ [row], lastSequence := mid.lastSequence + 1 }
  | taken (row : Entry) (inside : row ∈ mid.entries) (waits : row.state = .waiting)
      (pool : row.poolId = ledger.poolId)
      (head : ∀ r ∈ mid.entries, r.poolId = ledger.poolId → r.state = .waiting →
        row.sequence ≤ r.sequence)
      (slots : heldSlots ledger.poolId mid.entries < ledger.maxSlots)
      (tokens : heldTokens ledger.poolId mid.entries + row.weight ≤ ledger.maxTokens) :
      Effect ledger operation mid
        { mid with
          entries := amend (·.sequence = row.sequence) (fun r => { r with state := .reserved })
            mid.entries }
  | eased (row : Entry) (inside : row ∈ mid.entries) (f : Entry → Entry) (quiet : Quiet row (f row))
      (goes : Goes (operation.settles ledger ·) row (f row)) :
      Effect ledger operation mid
        { mid with entries := amend (·.sequence = row.sequence) f mid.entries }

section
variable {ledger : CapacityLedger} {probe : Probe} {db mid : Database}

variable {ticket : CapacityTicket} {row : Entry} {target : EntryState} {key : String}
  {operation : Operation}

theorem ticketRow_spec (ok : ticketRow ledger db ticket = .ok row) :
    row ∈ db.entries ∧ ticket.names row = true ∧ row.poolId = ledger.poolId := by
  unfold ticketRow at ok
  split at ok
  · cases ok
  · next found search =>
    obtain ⟨pool, ok⟩ := then_eq_ok.mp ok
    cases ok
    rw [require_eq_ok] at pool
    have names : ticket.names row = true := by simpa using List.find?_some search
    refine ⟨List.mem_of_find?_eq_some search, names, ?_⟩
    simp only [CapacityTicket.names, Bool.and_eq_true, beq_iff_eq] at names
    rw [names.1.1.1.1, pool]

theorem moveTo_eq (distinct : (mid.entries.map Entry.sequence).Nodup) (inside : row ∈ mid.entries)
    (names : ticket.names row = true) :
    moveTo mid ticket row target = { mid with
      entries := amend (·.sequence = row.sequence) (fun r => { r with state := target })
        mid.entries } := by
  simp only [CapacityTicket.names, Bool.and_eq_true, beq_iff_eq] at names
  unfold moveTo
  congr 1
  apply amend_congr
  intro r hr
  constructor
  · exact And.left
  · intro same
    have equal := List.inj_on_of_nodup_map distinct hr inside same
    subst equal
    exact ⟨rfl, names.1.1.2, names.1.2, rfl⟩

theorem rowFor_spec (found : rowFor ledger db key = some row) :
    row ∈ db.entries ∧ row.poolId = ledger.poolId ∧ row.key = key := by
  refine ⟨List.mem_of_find?_eq_some found, ?_⟩
  simpa using List.find?_some found

theorem rowFor_eq_none (missing : rowFor ledger db key = none) :
    ∀ row ∈ db.entries, ¬ (row.poolId = ledger.poolId ∧ row.key = key) := by
  simpa [rowFor] using missing

theorem head_first {head : Entry} {rest : List Entry} {entries : List Entry}
    (queue : waitingRows ledger entries = head :: rest) (inside : row ∈ entries)
    (pool : row.poolId = ledger.poolId) (waits : row.state = .waiting) :
    head.sequence ≤ row.sequence := by
  have total : Std.Total fun a b : Entry => a.sequence ≤ b.sequence :=
    ⟨fun a b => Nat.le_total a.sequence b.sequence⟩
  have trans : IsTrans Entry fun a b => a.sequence ≤ b.sequence := ⟨fun _ _ _ => Nat.le_trans⟩
  have sorted := List.pairwise_insertionSort (fun a b : Entry => a.sequence ≤ b.sequence)
    (entries.filter fun row => row.poolId = ledger.poolId ∧ row.state = .waiting)
  have listed : row ∈ waitingRows ledger entries := by
    rw [waitingRows, (List.perm_insertionSort _ _).mem_iff]
    simp [inside, pool, waits]
  rw [waitingRows] at queue listed
  rw [queue] at sorted listed
  rcases List.mem_cons.mp listed with rfl | later
  · exact Nat.le_refl _
  · exact (List.pairwise_cons.mp sorted).1 row later

theorem sequences_recovered {entries entries' : List Entry}
    (each : List.Forall₂ (fun row row' => Quiet row row' ∧ Goes never row row') entries entries') :
    entries'.map Entry.sequence = entries.map Entry.sequence := by
  induction each with
  | nil => rfl
  | cons first _ ih => rw [List.map_cons, List.map_cons, first.1.sequence, ih]

theorem Effect.moved (distinct : (mid.entries.map Entry.sequence).Nodup)
    (inside : row ∈ mid.entries) (names : ticket.names row = true)
    (quiet : Quiet row { row with state := target })
    (goes : Goes (operation.settles ledger ·) row { row with state := target }) :
    Effect ledger operation mid (moveTo mid ticket row target) := by
  rw [moveTo_eq distinct inside names]
  exact .eased row inside _ quiet goes

theorem enqueue_effect {epoch owner : String} {weight pid : Int} {out : Database × CapacityTicket}
    (ok : enqueue ledger probe epoch key owner weight pid db = .ok out) :
    ∃ mid, recoverDead ledger probe db = .ok mid ∧
      Effect ledger (.enqueue epoch key owner weight pid) mid out.1 := by
  simp only [enqueue, positiveInt, bind_eq_ok, Unique.exists_iff, PUnit.default_eq_unit,
    require_eq_ok] at ok
  obtain ⟨_, _, heavy, _, _, mid, recovered, ok⟩ := ok
  refine ⟨mid, recovered, ?_⟩
  cases found : rowFor ledger mid key with
  | some row =>
    simp only [found, bind_eq_ok, Unique.exists_iff] at ok
    obtain ⟨_, ok⟩ := ok
    cases ok
    exact .nothing
  | none =>
    simp only [found, bind_eq_ok, Unique.exists_iff] at ok
    obtain ⟨_, identity, _, ok⟩ := ok
    cases ok
    apply Effect.added
    · rfl
    · rfl
    · rfl
    · exact rowFor_eq_none found
    · exact heavy

theorem tryAcquire_effect {out : Database × Bool}
    (distinct : (db.entries.map Entry.sequence).Nodup)
    (ok : tryAcquire ledger probe ticket db = .ok out) :
    ∃ mid, recoverDead ledger probe db = .ok mid ∧ Effect ledger (.tryAcquire ticket) mid out.1 := by
  simp only [tryAcquire, bind_eq_ok] at ok
  obtain ⟨mid, recovered, row, looked, ok⟩ := ok
  obtain ⟨inside, names, pool⟩ := ticketRow_spec looked
  refine ⟨mid, recovered, ?_⟩
  split at ok
  · cases ok
    exact .nothing
  · obtain ⟨waits, ok⟩ := then_eq_ok.mp ok
    rw [require_eq_ok] at waits
    split at ok
    · cases ok
    · next head rest queue =>
      split at ok
      · cases ok
        exact .nothing
      · next room =>
        cases ok
        rw [← sequences_recovered (recoverDead_spec recovered).1] at distinct
        simp only [not_or, not_not, not_le, not_lt] at room
        rw [moveTo_eq distinct inside names]
        refine .taken row inside waits pool ?_ room.2.1 room.2.2
        intro r hr rp rw'
        rw [← room.1]
        exact head_first queue hr rp rw'

variable {out : Database}

section
variable (distinct : (db.entries.map Entry.sequence).Nodup)
include distinct

theorem markHandedOff_effect
    (ok : markHandedOff ledger probe ticket db = .ok out) :
    ∃ mid, recoverDead ledger probe db = .ok mid ∧ Effect ledger (.markHandedOff ticket) mid out := by
  simp only [markHandedOff, transition, bind_eq_ok] at ok
  obtain ⟨mid, recovered, row, looked, ok⟩ := ok
  obtain ⟨inside, names, _⟩ := ticketRow_spec looked
  rw [← sequences_recovered (recoverDead_spec recovered).1] at distinct
  refine ⟨mid, recovered, ?_⟩
  split at ok
  · cases ok
    exact .nothing
  · obtain ⟨reserved, ok⟩ := then_eq_ok.mp ok
    rw [require_eq_ok] at reserved
    cases ok
    apply Effect.moved distinct inside names
    · exact ⟨⟨rfl, rfl, rfl, rfl, rfl, rfl⟩, by simp [held, reserved], by simp [begun, reserved],
        by simp⟩
    · exact ⟨⟨rfl, rfl, rfl, rfl, rfl, rfl⟩, by simp [reserved], by simp [reserved],
        by simp [reserved], by simp⟩

theorem finish_effect {knownTerminal : Bool}
    (ok : finish ledger probe ticket knownTerminal db = .ok out) :
    ∃ mid, recoverDead ledger probe db = .ok mid ∧
      Effect ledger (.finish ticket knownTerminal) mid out := by
  simp only [finish, bind_eq_ok] at ok
  obtain ⟨mid, recovered, row, looked, ok⟩ := ok
  obtain ⟨inside, names, _⟩ := ticketRow_spec looked
  rw [← sequences_recovered (recoverDead_spec recovered).1] at distinct
  refine ⟨mid, recovered, ?_⟩
  have ends : row.state ∈ [.handedOff, .unknown] → Effect ledger (.finish ticket knownTerminal) mid
      (moveTo mid ticket row (if knownTerminal then .settled else .unknown)) := by
    intro handed
    have taken : row.state ∈ held ∧ row.state ∈ begun ∧ row.state ≠ .released ∧
        row.state ≠ .settled := by
      simp only [List.mem_cons, List.not_mem_nil, or_false] at handed
      rcases handed with state | state <;> simp [state, held, begun]
    apply Effect.moved distinct inside names
    · refine ⟨⟨rfl, rfl, rfl, rfl, rfl, rfl⟩, fun _ => taken.1, fun _ => taken.2.1, ?_⟩
      cases knownTerminal <;> simp
    · refine ⟨⟨rfl, rfl, rfl, rfl, rfl, rfl⟩, fun h => absurd h taken.2.2.1,
        fun h => absurd h taken.2.2.2, fun _ => ?_, ?_⟩
      · cases knownTerminal with
        | false => exact Or.inl (by simp)
        | true => exact Or.inr ⟨rfl, rfl, names⟩
      · cases knownTerminal <;> simp
  split at ok
  · next state =>
    cases ok
    apply Effect.moved distinct inside names
    · exact ⟨⟨rfl, rfl, rfl, rfl, rfl, rfl⟩, by simp [held], by simp [begun], by simp⟩
    · exact ⟨⟨rfl, rfl, rfl, rfl, rfl, rfl⟩, by simp, by simp [state], by simp [state], by simp⟩
  · next state =>
    cases ok
    exact ends (by simp [state])
  · next state =>
    cases ok
    exact ends (by simp [state])
  · cases ok
    exact .nothing
  · cases ok
    exact .nothing
  · cases ok

theorem cancelWaiter_effect
    (ok : cancelWaiter ledger probe ticket db = .ok out) :
    ∃ mid, recoverDead ledger probe db = .ok mid ∧ Effect ledger (.cancelWaiter ticket) mid out := by
  simp only [cancelWaiter, bind_eq_ok] at ok
  obtain ⟨mid, recovered, row, looked, _, open', ok⟩ := ok
  obtain ⟨inside, names, _⟩ := ticketRow_spec looked
  rw [← sequences_recovered (recoverDead_spec recovered).1] at distinct
  rw [require_eq_ok] at open'
  cases ok
  refine ⟨mid, recovered, Effect.moved distinct inside names ?_ ?_⟩
  · exact ⟨⟨rfl, rfl, rfl, rfl, rfl, rfl⟩, by simp [held], by simp [begun], by simp⟩
  · simp only [List.mem_cons, List.not_mem_nil, or_false] at open'
    refine ⟨⟨rfl, rfl, rfl, rfl, rfl, rfl⟩, by simp, ?_, ?_, by simp⟩
    · rcases open' with state | state <;> simp [state]
    · rcases open' with state | state <;> simp [state]

theorem reconcile_effect {evidenceRef : String}
    (ok : reconcile ledger probe key evidenceRef db = .ok out) :
    ∃ mid, recoverDead ledger probe db = .ok mid ∧
      Effect ledger (.reconcile key evidenceRef) mid out := by
  simp only [reconcile, bind_eq_ok, Unique.exists_iff] at ok
  obtain ⟨_, _, mid, recovered, ok⟩ := ok
  rw [← sequences_recovered (recoverDead_spec recovered).1] at distinct
  refine ⟨mid, recovered, ?_⟩
  cases found : rowFor ledger mid key with
  | none =>
    rw [found] at ok
    cases ok
  | some row =>
    obtain ⟨inside, named⟩ := rowFor_spec found
    simp only [found] at ok
    split at ok
    · obtain ⟨_, ok⟩ := then_eq_ok.mp ok
      cases ok
      exact .nothing
    · obtain ⟨uncertain, ok⟩ := then_eq_ok.mp ok
      rw [require_eq_ok] at uncertain
      cases ok
      have byKey : amend (fun r => r.sequence = row.sequence ∧ r.state ∈ [.handedOff, .unknown])
          (fun r => { r with state := .settled, evidenceRef := some evidenceRef }) mid.entries =
          amend (·.sequence = row.sequence)
            (fun r => { r with state := .settled, evidenceRef := some evidenceRef }) mid.entries := by
        apply amend_congr
        intro r hr
        constructor
        · exact And.left
        · intro same
          have equal := List.inj_on_of_nodup_map distinct hr inside same
          exact ⟨same, equal ▸ uncertain⟩
      rw [byKey]
      refine .eased row inside _ ⟨⟨rfl, rfl, rfl, rfl, rfl, rfl⟩, by simp [held], ?_, by simp⟩
        ⟨⟨rfl, rfl, rfl, rfl, rfl, rfl⟩, ?_, by simp, fun _ => Or.inr ⟨rfl, named⟩, by simp⟩
      · intro _
        simp only [List.mem_cons, List.not_mem_nil, or_false] at uncertain
        rcases uncertain with state | state <;> simp [state, begun]
      · intro gone
        simp [gone] at uncertain

theorem perform_effect {db' : Database}
    (ok : perform ledger probe db operation = .ok db') :
    ∃ mid, recoverDead ledger probe db = .ok mid ∧ Effect ledger operation mid db' := by
  cases operation with
  | enqueue epoch key owner weight pid =>
    obtain ⟨out, done, rfl⟩ := map_eq_ok.mp ok
    exact enqueue_effect done
  | tryAcquire ticket =>
    obtain ⟨out, done, rfl⟩ := map_eq_ok.mp ok
    exact tryAcquire_effect distinct done
  | markHandedOff ticket => exact markHandedOff_effect distinct ok
  | finish ticket knownTerminal => exact finish_effect distinct ok
  | cancelWaiter ticket => exact cancelWaiter_effect distinct ok
  | reconcile key evidenceRef => exact reconcile_effect distinct ok
  | snapshot =>
    obtain ⟨out, done, rfl⟩ := map_eq_ok.mp ok
    obtain ⟨mid, recovered, done⟩ := bind_eq_ok.mp done
    cases done
    exact ⟨mid, recovered, .nothing⟩

end

end
end Capacity
