import HarnessSdk.Budgets.Reconcile

/-! What the operations of the ledger leave alone. -/
namespace Budgets
open PyDict PyText Checks Graph Tables Metered

theorem reads_chain (accountId : String) : Reads (chain accountId) :=
  Reads.bind (reads_view _) fun _ => reads_lift _

theorem reads_rooms (snapshots : List Account) (wanted : List (Resource × Int)) :
    Reads (snapshots.forM fun a => wanted.forM (checkRoom a)) :=
  reads_forM snapshots fun a _ => reads_forM wanted fun demand _ => reads_checkRoom a demand

theorem reads_liveReservation (subjectId message : String) :
    Reads (liveReservation subjectId message) := by
  unfold liveReservation
  apply (reads_view _).bind
  intro found
  apply (reads_orStop _ _).bind
  intro row
  exact (reads_ensure _ _).bind fun _ => reads_pure row

theorem reads_tailText (value name : String) : Reads (tailText value name) := reads_ensure _ _

theorem reads_tailAccount (around : Surroundings) (accountId missionId : String) :
    Reads (tailAccount around accountId missionId) := by
  unfold tailAccount
  apply (reads_account _).bind
  intro found
  apply (reads_ensure _ _).bind
  intro _
  apply (reads_orStop _ _).bind
  intro task
  apply (reads_ensure _ _).bind
  intro _
  apply (reads_ensure _ _).bind
  intro _
  exact (reads_ensure _ _).bind fun _ => reads_pure task

section
variable {γ : Type} {part : Store → γ}

theorem leaves_settling (subjectId : String) {close : Reservation → Work Reservation}
    (closes : ∀ row, Leaves part (close row)) :
    Leaves part (settling subjectId close) := by
  unfold settling
  apply (reads_view _).leaves.bind
  intro found
  apply (reads_orStop _ _).leaves.bind
  intro row
  split
  · exact (reads_pure row).leaves
  · exact closes row

/-- Writes of accounts, reservations and holds do not show in this part of the store. -/
def Still (part : Store → γ) : Prop :=
  ∀ (s : Store) (accounts : List Account) (reservations : List Reservation) (holds : List TailHold),
    part { s with accounts := accounts, reservations := reservations, holds := holds } = part s

variable (still : Still part)
include still

theorem leaves_openAccount (accountId scope : String) (parentId : Option String)
    (missionId : String) (limits : Budget) :
    Leaves part (openAccount accountId scope parentId missionId limits) := by
  have rest : Leaves part (write (opening ⟨accountId, scope, parentId, missionId,
      limits, 0, 0, 0, 1⟩) >>= fun _ => account accountId) := by
    apply Leaves.bind
    · apply leaves_write
      intro s
      unfold opening
      split
      · rfl
      · exact still s _ _ _
    · intro _
      exact (reads_account _).leaves
  unfold openAccount
  cases parentId with
  | none => exact rest
  | some parentId =>
    simp only
    apply (reads_account _).leaves.bind
    intro parent
    apply (reads_ensure _ _).leaves.bind
    intro _
    exact rest

theorem leaves_applyAlong (deltas : Deltas) (snapshots : List Account) :
    Leaves part (applyAlong deltas snapshots) := by
  apply leaves_forM
  intro a _
  unfold applyDeltas
  apply (reads_view _).leaves.bind
  intro known
  split
  · exact leaves_write fun s => still s _ _ _
  · exact fun _ => rfl

theorem leaves_amendReservation (subjectId : String) (f : Reservation → Reservation) :
    Leaves part (amendReservation subjectId f) :=
  leaves_write fun s => still s _ _ _

theorem leaves_amendHold (holdId : String) (f : TailHold → TailHold) :
    Leaves part (amendHold holdId f) :=
  leaves_write fun s => still s _ _ _

theorem leaves_reserve (accountId subjectId : String) (tokens costMicros : Int)
    (countsAttempt : Bool) (toolCalls : Int) (missionId : Option String) :
    Leaves part
      (reserve accountId subjectId tokens costMicros countsAttempt toolCalls missionId) := by
  unfold reserve
  apply (reads_view _).leaves.bind
  intro existing
  cases existing with
  | some row => exact (reads_pure _).leaves
  | none =>
    apply (reads_chain _).leaves.bind
    intro snapshots
    apply (reads_rooms _ _).leaves.bind
    intro _
    apply (leaves_applyAlong still _ _).bind
    intro _
    exact Leaves.bind (leaves_write fun s => still s _ _ _) fun _ => (reads_pure _).leaves

theorem leaves_grow (subjectId : String) (tokens costMicros : Int) :
    Leaves part (grow subjectId tokens costMicros) := by
  unfold grow
  apply (reads_ensure _ _).leaves.bind
  intro _
  apply (reads_liveReservation _ _).leaves.bind
  intro row
  simp only
  split
  · exact (reads_pure ()).leaves
  · apply (reads_chain _).leaves.bind
    intro snapshots
    apply (reads_rooms _ _).leaves.bind
    intro _
    exact (leaves_applyAlong still _ _).bind fun _ => leaves_amendReservation still _ _

theorem leaves_releaseAttempt (accountId : String) :
    Leaves part (releaseAttempt accountId) := by
  unfold releaseAttempt
  apply (reads_chain _).leaves.bind
  intro snapshots
  apply (reads_ensure _ _).leaves.bind
  intro _
  exact leaves_applyAlong still _ _

theorem leaves_closeReservation (row : Reservation) (charge : Figures) (cost : Option Int)
    (unpriced : Bool) : Leaves part (closeReservation row charge cost unpriced) := by
  unfold closeReservation
  apply (reads_chain _).leaves.bind
  intro snapshots
  apply (leaves_applyAlong still _ _).bind
  intro _
  exact (leaves_amendReservation still _ _).bind fun _ => (reads_pure _).leaves

theorem leaves_settle (around : Surroundings) (subjectId : String) (toolCalls : Int) :
    Leaves part (settle around subjectId toolCalls) := by
  apply leaves_settling
  intro row
  apply (reads_view _).leaves.bind
  intro unknown
  apply (reads_ensure _ _).leaves.bind
  intro _
  exact (reads_view _).leaves.bind fun usage => leaves_closeReservation still _ _ _ _

theorem leaves_settleKnown (subjectId : String) (toolCalls : Int) :
    Leaves part (settleKnown subjectId toolCalls) := by
  apply leaves_settling
  intro row
  exact (reads_view _).leaves.bind fun usage => leaves_closeReservation still _ _ _ _

theorem leaves_settleAtUpperBound (subjectId : String) :
    Leaves part (settleAtUpperBound subjectId) := by
  apply leaves_settling
  intro row
  exact (reads_view _).leaves.bind fun usage => leaves_closeReservation still _ _ _ _

theorem leaves_reserveTail (around : Surroundings) (holdId taskAccount : String)
    (reserved : TailReserve) (missionId taskRevision purpose : String) : Leaves part
      (reserveTail around holdId taskAccount reserved missionId taskRevision purpose) := by
  unfold reserveTail
  apply (reads_tailText _ _).leaves.bind
  intro _
  apply (reads_tailText _ _).leaves.bind
  intro _
  apply (reads_ensure _ _).leaves.bind
  intro _
  apply (reads_view _).leaves.bind
  intro prior
  cases prior with
  | some hold => exact ((reads_ensure _ _).bind fun _ => reads_pure hold).leaves
  | none =>
    apply (reads_tailAccount _ _ _).leaves.bind
    intro _
    apply (reads_chain _).leaves.bind
    intro snapshots
    apply (reads_forM snapshots fun a _ => reads_checkRoom a _).leaves.bind
    intro _
    apply (reads_view _).leaves.bind
    intro used
    apply (reads_ensure _ _).leaves.bind
    intro _
    apply Leaves.bind (leaves_reserve still _ _ _ _ _ _ _)
    intro _
    apply (reads_chain _).leaves.bind
    intro snapshots
    simp only
    split
    · exact Leaves.bind (leaves_write fun s => still s _ _ _) fun _ => (reads_pure _).leaves
    · apply (leaves_applyAlong still _ _).bind
      intro _
      exact Leaves.bind (leaves_write fun s => still s _ _ _) fun _ => (reads_pure _).leaves

theorem leaves_growTailAllocation (around : Surroundings) (holdId subjectId taskRevision : String)
    (tokens costMicros : Nat) (minimum : TailReserve) : Leaves part
      (growTailAllocation around holdId subjectId taskRevision tokens costMicros minimum) := by
  unfold growTailAllocation
  simp only
  apply (reads_view _).leaves.bind
  intro found
  apply (reads_orStop _ _).leaves.bind
  intro hold
  apply (reads_ensure _ _).leaves.bind
  intro _
  apply (reads_tailAccount _ _ _).leaves.bind
  intro _
  apply (reads_liveReservation _ _).leaves.bind
  intro source
  apply (reads_liveReservation _ _).leaves.bind
  intro target
  apply (reads_ensure _ _).leaves.bind
  intro _
  apply (reads_view _).leaves.bind
  intro original
  apply (reads_ensure _ _).leaves.bind
  intro _
  apply (reads_view _).leaves.bind
  intro unknown
  apply (reads_view _).leaves.bind
  intro unknown'
  apply (reads_view _).leaves.bind
  intro usage
  apply (reads_ensure _ _).leaves.bind
  intro _
  split
  · exact (reads_pure ()).leaves
  · apply Reads.leaves (reads_ensure _ _) |>.bind
    intro _
    apply Reads.leaves (reads_ensure _ _) |>.bind
    intro _
    apply (reads_chain _).leaves.bind
    intro snapshots
    apply (reads_rooms _ _).leaves.bind
    intro _
    apply (reads_ensure _ _).leaves.bind
    intro _
    exact (leaves_amendReservation still _ _).bind fun _ => leaves_amendReservation still _ _

theorem leaves_releaseTail (around : Surroundings) (holdId taskRevision reason : String) :
    Leaves part (releaseTail around holdId taskRevision reason) := by
  unfold releaseTail
  apply (reads_tailText _ _).leaves.bind
  intro _
  apply (reads_view _).leaves.bind
  intro found
  apply (reads_orStop _ _).leaves.bind
  intro hold
  apply (reads_ensure _ _).leaves.bind
  intro _
  split
  · apply (reads_ensure _ _).leaves.bind
    intro _
    exact ((reads_view _).bind fun row => reads_orStop _ _).leaves
  · apply (leaves_settle still _ _ _).bind
    intro row
    apply (reads_chain _).leaves.bind
    intro snapshots
    simp only
    split
    · exact (leaves_amendHold still _ _).bind fun _ => (reads_pure _).leaves
    · apply (leaves_applyAlong still _ _).bind
      intro _
      exact (leaves_amendHold still _ _).bind fun _ => (reads_pure _).leaves

theorem grantAll_leaves (missionId : String) (allocations : List TailAllocation) (s : Store) :
    part (s.grantAll missionId allocations) = part s := by
  induction allocations generalizing s with
  | nil => rfl
  | cons a rest ih => exact (ih (s.grant missionId a)).trans (still s _ _ _)

/-- Neither an import nor a transfer. -/
def Operation.Plain : Operation → Prop
  | .importUsage _ _ _ => False
  | .transferTail _ _ _ _ => False
  | _ => True

theorem perform_leaves (around : Surroundings) {operation : Operation} (plain : operation.Plain) :
    Leaves part (perform around operation) := by
  have quiet {α : Type} {x : Work α} (leaves : Leaves part x) :
      Leaves part (do
        let _ ← x
        pure () : Work Unit) := leaves.bind fun _ => (reads_pure ()).leaves
  cases operation <;> rw [perform]
  case openAccount => exact quiet (leaves_openAccount still _ _ _ _ _)
  case reserve => exact quiet (leaves_reserve still _ _ _ _ _ _ _)
  case grow => exact leaves_grow still _ _ _
  case releaseAttempt => exact leaves_releaseAttempt still _
  case importUsage => exact plain.elim
  case settle => exact quiet (leaves_settle still _ _ _)
  case settleKnown => exact quiet (leaves_settleKnown still _ _)
  case settleAtUpperBound => exact quiet (leaves_settleAtUpperBound still _)
  case reserveTail => exact quiet (leaves_reserveTail still _ _ _ _ _ _ _)
  case transferTail => exact plain.elim
  case growTailAllocation => exact leaves_growTailAllocation still _ _ _ _ _ _ _
  case releaseTail => exact quiet (leaves_releaseTail still _ _ _ _)

end

end Budgets
