import HarnessSdk.Sessions.Destruction

/-!
What each update of a session asks of its row: the checks and the triggers hold for the row it
leaves.
-/
namespace Sessions
open Checks

variable {row new : SessionRow} {p : PurgeProgress}

theorem transitionSession_eq_ok {stored current row : SessionRow} {change : SessionChange} :
    transitionSession stored current change = .ok row ↔
      (∀ p ∈ change.purgeProgress, validateProgress p = .ok ()) ∧
        stored.rowVersion = current.rowVersion ∧ row = change.set stored ∧ row.Shape ∧
        SessionRow.ProgressIdentity stored row ∧ SessionRow.Transition stored row ∧
        SessionRow.Identity stored row ∧ row.Checked := by
  have valid : change.progressValid = .ok () ↔
      ∀ p ∈ change.purgeProgress, validateProgress p = .ok () := by
    unfold SessionChange.progressValid
    cases change.purgeProgress <;> simp
  unfold transitionSession
  simp only [then_eq_ok, need_eq_ok, valid, Except.ok.injEq]
  constructor
  · rintro ⟨valid, same, ⟨shape, identity⟩, ⟨moves, kept, checked⟩, rfl⟩
    exact ⟨valid, same, rfl, shape, identity, moves, kept, checked⟩
  · rintro ⟨valid, same, rfl, shape, identity, moves, kept, checked⟩
    exact ⟨valid, same, ⟨shape, identity⟩, ⟨moves, kept, checked⟩, rfl⟩

theorem validateProgress_eq_ok :
    validateProgress p = .ok () ↔
      (∃ path, validateRelativeDirectory p.sourceRelativeDirectory = .ok path) ∧
        (∃ path, validateRelativeDirectory p.trashRelativeDirectory = .ok path) ∧
        p.sourceRelativeDirectory ≠ p.trashRelativeDirectory ∧
        (p.phase = .renamed ∨ p.phase = .deleteConfirmed → p.renameReceiptRef ≠ none) ∧
        (p.phase = .deleteConfirmed ↔ p.deleteReceiptRef ≠ none) ∧
        (p.phase = .draining ∨ p.phase = .renamePending → p.renameReceiptRef = none) ∧
        ∀ block ∈ p.blocking, p.inspectionReceiptRef ≠ none ∧
          block.retryMode = (if block.code = .fileBusy then .sameDestroyBackoff else .manual) ∧
          (block.retryAtMs ≠ none ↔ block.retryMode = .sameDestroyBackoff) := by
  unfold validateProgress
  simp only [bind_eq_ok, exists_and_right, Unique.exists_iff, PUnit.default_eq_unit, need_eq_ok]
  cases p.blocking with
  | none => simp
  | some block => simp [then_eq_ok]

structure SessionRow.Follows (row new : SessionRow) : Prop where
  shape : new.Shape
  progress : SessionRow.ProgressIdentity row new
  transition : SessionRow.Transition row new
  identity : SessionRow.Identity row new
  checked : new.Checked

structure Receipted (p : PurgeProgress) (phase : Phase) (rename delete : Option Receipt) :
    Prop where
  renamed : phase = .renamed ∨ phase = .deleteConfirmed → rename ≠ none
  deleted : phase = .deleteConfirmed ↔ delete ≠ none
  unrenamed : phase = .draining ∨ phase = .renamePending → rename = none
  sameRename : p.renameReceiptRef ≠ none → rename = p.renameReceiptRef
  sameDelete : p.deleteReceiptRef ≠ none → delete = p.deleteReceiptRef
  forth : SessionRow.forth p.phase phase = true

section
variable (valid : validateProgress p = .ok ())
include valid

theorem Receipted.renamedNow
    (phase : p.phase = .renamePending) (receipt : Receipt) :
    Receipted p .renamed (some receipt) p.deleteReceiptRef := by
  obtain ⟨_, _, _, _, deleted, unrenamed, _⟩ := validateProgress_eq_ok.mp valid
  have none := unrenamed (Or.inr phase)
  constructor <;> simp_all [SessionRow.forth]

theorem Receipted.deletedNow (phase : p.phase = .renamed)
    (receipt : Receipt) : Receipted p .deleteConfirmed p.renameReceiptRef (some receipt) := by
  obtain ⟨_, _, _, renamed, deleted, _, _⟩ := validateProgress_eq_ok.mp valid
  constructor <;> simp_all [SessionRow.forth]

theorem Receipted.same :
    Receipted p p.phase p.renameReceiptRef p.deleteReceiptRef := by
  obtain ⟨_, _, _, renamed, deleted, unrenamed, _⟩ := validateProgress_eq_ok.mp valid
  constructor
  · exact renamed
  · exact deleted
  · exact unrenamed
  · intro _
    rfl
  · intro _
    rfl
  · cases p.phase <;> rfl

end

variable {phase : Phase} {rename delete : Option Receipt} {state : Option SessionState}

section
variable (receipted : Receipted p phase rename delete)
include receipted

theorem Receipted.valid
    (valid : validateProgress p = .ok ()) (inspection : Receipt) :
    validateProgress (p.stepped phase rename delete inspection) = .ok () := by
  obtain ⟨source, trash, apart, _⟩ := validateProgress_eq_ok.mp valid
  apply validateProgress_eq_ok.mpr
  refine ⟨source, trash, apart, receipted.renamed, receipted.deleted, receipted.unrenamed, ?_⟩
  intro block blocking
  cases blocking

theorem Receipted.recorded (checked : row.Checked)
    (shape : row.Shape) (there : row.purgeProgress = some p) (purging : row.state = .purging)
    (blocking : Option PurgeBlock) (inspection : Option Receipt) (nowMs : Nat)
    (last : state = none ∧ phase ≠ .draining ∨ state = some .purged ∧ phase = .deleteConfirmed ∧
      blocking = none) :
    row.Follows (SessionChange.set {
      nowMs
      state
      purgeProgress := some { p with
        phase
        renameReceiptRef := rename
        deleteReceiptRef := delete
        blocking
        inspectionReceiptRef := inspection } } row) := by
  rw [SessionRow.Shape, there] at shape
  obtain ⟨_, command, hash, session, agent, root, generation, _⟩ := shape
  constructor
  · rcases last with ⟨rfl, waiting⟩ | ⟨rfl, rfl, rfl⟩
    · refine ⟨Or.inr (Or.inl purging), command, hash, session, agent, root, generation, ?_, ?_⟩
      · change phase ∈ SessionRow.phases row.state
        rw [purging]
        cases phase <;> simp [SessionRow.phases] at waiting ⊢
      · intro purged
        change row.state = .purged at purged
        rw [purging] at purged
        cases purged
    · refine ⟨Or.inr (Or.inr rfl), command, hash, session, agent, root, generation, ?_, ?_⟩
      · exact List.mem_singleton.mpr rfl
      · intro _
        exact ⟨receipted.deleted.mp rfl, rfl⟩
  · intro q same
    rw [there] at same
    cases same
    refine ⟨_, rfl, rfl, rfl, rfl, rfl, ?_, receipted.sameRename, receipted.sameDelete, ?_⟩
    · intro draining
      rw [purging] at draining
      cases draining
    · intro _
      exact receipted.forth
  · rcases last with ⟨rfl, _⟩ | ⟨rfl, _⟩
    · refine ⟨rfl, Nat.le_refl _, ?_, ?_, ?_, ?_, ?_⟩
      · simp [purging]
      · intro _
        refine ⟨rfl, rfl, rfl, ?_⟩
        change ¬ SessionRow.kept row.state
        simp [SessionRow.kept, purging]
      · intro kept
        change SessionRow.kept row.state at kept
        simp [SessionRow.kept, purging] at kept
      · change SessionRow.follows row.state row.state = true
        rw [purging]
        rfl
      · intro _ other
        exact absurd rfl other
    · refine ⟨rfl, Nat.le_refl _, ?_, ?_, ?_, ?_, ?_⟩
      · simp [purging]
      · intro _
        refine ⟨rfl, rfl, rfl, ?_⟩
        simp [SessionRow.kept, SessionChange.set]
      · intro kept
        simp [SessionRow.kept, SessionChange.set] at kept
      · change SessionRow.follows row.state .purged = true
        rw [purging]
        rfl
      · intro other
        simp [SessionChange.set] at other
  · exact ⟨fun _ => rfl, fun _ => rfl⟩
  · obtain ⟨positive, _, seq, highwater, _, named, proof⟩ := checked
    have proved := proof (Or.inl purging)
    refine ⟨positive, Nat.succ_pos _, seq, highwater, Nat.le_max_right _ _, named, ?_⟩
    intro _
    exact proved

theorem Receipted.follows (checked : row.Checked)
    (shape : row.Shape) (there : row.purgeProgress = some p) (purging : row.state = .purging)
    (inspection : Receipt) (nowMs : Nat)
    (last : state = none ∧ phase ≠ .draining ∨ state = some .purged ∧ phase = .deleteConfirmed) :
    row.Follows (SessionChange.set {
      nowMs
      state
      purgeProgress := some (p.stepped phase rename delete inspection) } row) := by
  apply receipted.recorded checked shape there purging none (some inspection) nowMs
  rcases last with ⟨same, waiting⟩ | ⟨purged, confirmed⟩
  · exact Or.inl ⟨same, waiting⟩
  · exact Or.inr ⟨purged, confirmed, rfl⟩

end

theorem renamePending_valid (valid : validateProgress p = .ok ()) (phase : p.phase = .draining) :
    validateProgress { p with phase := .renamePending } = .ok () := by
  obtain ⟨source, trash, apart, renamed, deleted, unrenamed, blocked⟩ :=
    validateProgress_eq_ok.mp valid
  have undeleted : p.deleteReceiptRef = none := by
    by_contra some
    have confirmed := deleted.mpr some
    rw [phase] at confirmed
    cases confirmed
  have unmoved := unrenamed (Or.inl phase)
  apply validateProgress_eq_ok.mpr
  refine ⟨source, trash, apart, ?_, ?_, fun _ => unmoved, blocked⟩
  · simp
  · simp [undeleted]

theorem sealedChange_follows (checked : row.Checked) (shape : row.Shape)
    (there : row.purgeProgress = some p) (draining : row.state = .draining)
    (seq : row.journalSeqFrom = 1) (unsealed : row.sealedHighwater = none)
    (proof : Receipt) (highwater nowMs : Nat) :
    row.Follows ((Service.sealedChange p proof highwater nowMs).set row) := by
  rw [SessionRow.Shape, there] at shape
  obtain ⟨_, command, hash, session, agent, root, generation, _⟩ := shape
  constructor
  · refine ⟨Or.inr (Or.inl rfl), command, hash, session, agent, root, generation, ?_, ?_⟩
    · exact List.mem_cons_self
    · intro purged
      cases purged
  · intro q same
    rw [there] at same
    cases same
    refine ⟨_, rfl, rfl, rfl, rfl, rfl, fun _ _ => rfl, fun _ => rfl, fun _ => rfl, ?_⟩
    intro purging
    rw [draining] at purging
    cases purging
  · refine ⟨rfl, Nat.le_refl _, ?_, ?_, ?_, ?_, ?_⟩
    · simp [draining]
    · intro _
      refine ⟨rfl, rfl, rfl, ?_⟩
      change ¬ SessionRow.kept .purging
      decide
    · intro kept
      change SessionRow.kept .purging at kept
      exact absurd kept (by decide)
    · change SessionRow.follows row.state .purging = true
      rw [draining]
      rfl
    · intro other
      change SessionState.purging = .draining ∨ SessionState.purging = .quarantined at other
      simp at other
  · constructor
    · intro some
      exact absurd unsealed some
    · intro same
      rw [draining] at same
      cases same
  · obtain ⟨positive, _, after, _, _, named, _⟩ := checked
    refine ⟨positive, Nat.succ_pos _, after, ?_, Nat.le_max_right _ _, named, ?_⟩
    · intro n same
      change row.journalSeqFrom - 1 ≤ n
      rw [seq]
      exact Nat.zero_le _
    · intro _
      exact ⟨Option.some_ne_none _, Option.some_ne_none _⟩

end Sessions
