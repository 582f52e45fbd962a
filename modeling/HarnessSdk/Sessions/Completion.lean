import HarnessSdk.Sessions.Recovery
import HarnessSdk.Library.Transitions

/-!
A destruction ends: every state it can be left in is one that the next calls take to PURGED, unless
a call stops between the removal of the marker and the removal of the emptied directory.
-/
namespace Sessions
open Checks Crashes

variable {service : Service} {start : World} {floor : Nat} {w : World} {p : PurgeProgress}

/-! ## Calls that are not cut short -/

/-- The names of the receipts that the next steps make are not too long. -/
def SessionRow.Named (row : SessionRow) (steps : Nat) : Prop :=
  ∀ k < steps, ∀ commandId ∈ row.destroyCommandId,
    34 + row.sessionId.length + commandId.length + (toString (row.rowVersion + k)).length ≤ 256

theorem made_of_short {kind key : String} (short : kind.length + 1 + key.length ≤ 256) :
    (Receipt.mk kind key).made = .ok ⟨kind, key⟩ := by
  rw [Receipt.made, Receipt.id]
  apply if_pos
  rw [String.length_append, String.length_append]
  exact short

theorem length_stepKey (session : SessionRow) (commandId : String) :
    (Service.stepKey session commandId).length =
      session.sessionId.length + 1 + commandId.length + 1 +
        (toString session.rowVersion).length := by
  unfold Service.stepKey
  rw [String.length_append, String.length_append, String.length_append, String.length_append]
  rfl

def blankWitness (service : Service) (session : SessionRow) (commandId : String)
    (kind : DisposalKind) : CollectionWitness where
  kind := kind
  complete := true
  count := 0
  refs := []
  setHash := service.setHash []
  readerReceiptRef :=
    ⟨"disposal_reader", kind.text ++ ":" ++ Service.stepKey session commandId⟩

variable {commandId : String} {readings : Readings} {phase : Phase} {state : Option SessionState}

theorem captureDisposal_of_empty {session : SessionRow}
    (short : 34 + session.sessionId.length + commandId.length + (toString
      session.rowVersion).length ≤ 256) (empty : ∀ kind, readings.refs kind = []) :
    ∃ collections, service.captureDisposal session commandId readings =
      .ok (collections, true) := by
  have key := length_stepKey session commandId
  have read : ∀ kind, service.witness session commandId readings kind =
      .ok (blankWitness service session commandId kind) := by
    intro kind
    have name : kind.text.length ≤ 15 := by
      cases kind <;> decide
    unfold Service.witness
    rw [made_of_short]
    · rw [empty kind]
      rfl
    · rw [String.length_append, String.length_append, key]
      change 15 + 1 + (kind.text.length + 1 + _) ≤ 256
      omega
  have every : disposalKinds.mapM (service.witness session commandId readings) =
      .ok (disposalKinds.map (blankWitness service session commandId)) := by
    simp only [disposalKinds, List.mapM_cons, List.mapM_nil, read]
    rfl
  have guard : (Receipt.mk "file_guard" (Service.stepKey session commandId)).made =
      .ok ⟨"file_guard", Service.stepKey session commandId⟩ := by
    apply made_of_short
    rw [key]
    change 10 + 1 + _ ≤ 256
    omega
  have readset : (Receipt.mk "disposal-readset" (session.sessionId ++ ":" ++ commandId)).made =
      .ok ⟨"disposal-readset", session.sessionId ++ ":" ++ commandId⟩ := by
    apply made_of_short
    rw [String.length_append, String.length_append]
    change 16 + 1 + (session.sessionId.length + 1 + commandId.length) ≤ 256
    omega
  have complete : service.completeDisposal
      (disposalKinds.map (blankWitness service session commandId)) = .ok true := by
    refine then_eq_ok.mpr ⟨(need_eq_ok _ _).mpr ⟨rfl, ?_⟩, ?_⟩
    · intro kind inside
      exact ⟨_, List.mem_map_of_mem inside, rfl⟩
    · refine then_eq_ok.mpr ⟨(need_eq_ok _ _).mpr ?_, rfl⟩
      intro c inside
      obtain ⟨kind, _, rfl⟩ := List.mem_map.mp inside
      exact ⟨rfl, rfl, rfl⟩
  refine ⟨disposalKinds.map (blankWitness service session commandId), ?_⟩
  refine bind_eq_ok.mpr ⟨_, every, ?_⟩
  refine bind_eq_ok.mpr ⟨_, guard, bind_eq_ok.mpr ⟨_, readset, ?_⟩⟩
  exact bind_eq_ok.mpr ⟨true, complete, rfl⟩

theorem progressed_eq_ok {rename delete : Option Receipt} (sound : Sound service start floor w)
    (there : w.session.purgeProgress = some p) (purging : w.session.state = .purging)
    (receipted : Receipted p phase rename delete) (inspection : Receipt) (nowMs : Nat)
    (last : state = none ∧ phase ≠ .draining ∨ state = some .purged ∧ phase = .deleteConfirmed) :
    Service.progressed (p.stepped phase rename delete inspection) nowMs state w =
      .ok { w with session := SessionChange.set {
        nowMs
        state
        purgeProgress := some (p.stepped phase rename delete inspection) } w.session } := by
  have valid := (sound.underway p there).valid
  have follows := receipted.follows sound.checked sound.shape there purging inspection nowMs last
  refine bind_eq_ok.mpr ⟨_, transitionSession_eq_ok.mpr ⟨?_, rfl, rfl, follows.shape,
    follows.progress, follows.transition, follows.identity, follows.checked⟩, rfl⟩
  intro q same
  cases same
  exact receipted.valid valid inspection

def World.left (w : World) : Nat :=
  match w.session.purgeProgress with
  | none => 5
  | some p => if w.session.state = .purged then 0 else 5 - p.phase.rank

structure Moves (w w' : World) : Prop where
  session : w'.session.sessionId = w.session.sessionId
  command : w'.session.destroyCommandId = w.session.destroyCommandId
  version : w'.session.rowVersion = w.session.rowVersion + 1
  left : w'.left + 1 = w.left
  progress : ∃ p', w'.session.purgeProgress = some p' ∧
    ∀ block ∈ p'.blocking, w.session.purgeProgress.bind (·.blocking) = some block

theorem complete_commits {tx : World → Except Raised World} {w' : World} (made : tx w = .ok w') :
    (commits tx).complete FileAction.apply w = (w', .ok w'.session) := by
  unfold commits Program.complete
  dsimp only
  rw [made]
  rfl

theorem complete_removeTrash {trash : String} {refused : IoCode → Steps} {next : Steps}
    {d : Directory} (found : w.files trash = some d) (marked : d.marker.isSome = true) :
    (Service.removeTrash trash refused next).complete FileAction.apply w =
      next.complete FileAction.apply (w.place trash none) := by
  have looks : (Service.removeTrash trash refused next).complete FileAction.apply w =
      (Program.repeats (.removeEntry trash) refused
        (.tries (.unlinkMarker trash) refused (.tries (.rmdir trash) refused next))
          d.entries.removals).complete FileAction.apply w := by
    rw [Service.removeTrash, Program.complete]
    dsimp only
    rw [found]
    dsimp only
    rw [if_pos marked]
  rw [looks]
  clear looks
  generalize count : d.entries.removals = n
  induction n generalizing w d with
  | zero =>
    change next.complete FileAction.apply ((FileAction.rmdir trash).apply
      ((FileAction.unlinkMarker trash).apply w)) = _
    rw [rmdir_emptied found (nothing_of_removals d.entries count)]
  | succ n ih =>
    have twice : (w.place trash (Option.some { d with entries := d.entries.removed })).place
        trash none = w.place trash none := by
      simp only [World.place, World.mk.injEq, true_and, and_true]
      funext path
      split <;> rfl
    rw [Program.repeats, Program.complete, removeEntry_found found, ← twice]
    apply ih (d := { d with entries := d.entries.removed })
    · exact if_pos rfl
    · exact marked
    · exact removals_removed count

theorem moves_of_progressed (w w' : World) {rename delete : Option Receipt}
    (session : w'.session = w.session) (there : w.session.purgeProgress = some p)
    (purging : w.session.state = .purging) (inspection : Receipt) (nowMs : Nat)
    (last : state = none ∧ phase.rank = p.phase.rank + 1 ∨ state = some .purged ∧ p.phase =
      .deleteConfirmed) :
    Moves w { w' with session := SessionChange.set {
      nowMs
      state
      purgeProgress := some (p.stepped phase rename delete inspection) } w'.session } := by
  rw [session]
  constructor
  · rfl
  · rfl
  · rfl
  · rw [World.left, World.left, there]
    rcases last with ⟨rfl, next⟩ | ⟨rfl, final⟩
    · have low : phase.rank ≤ 4 := by
        cases phase <;> decide
      simp only [SessionChange.set, Option.getD_none, purging, Option.or, PurgeProgress.stepped,
        reduceCtorEq, if_false]
      omega
    · simp [SessionChange.set, purging, final, Phase.rank]
  · refine ⟨_, rfl, ?_⟩
    intro block blocking
    cases blocking

theorem observe_of_short {commandId : String}
    (short : 34 + w.session.sessionId.length + commandId.length +
      (toString w.session.rowVersion).length ≤ 256) :
    ∃ observation, service.observe w p commandId = .ok observation := by
  refine ⟨_, bind_eq_ok.mpr ⟨_, made_of_short ?_, rfl⟩⟩
  rw [length_stepKey]
  change 17 + 1 + _ ≤ 256
  omega

theorem receipt_of_short {session commandId kind : String} (name : kind.length ≤ 16)
    (short : 34 + session.length + commandId.length ≤ 256) :
    (Receipt.mk kind (session ++ ":" ++ commandId)).made =
      .ok ⟨kind, session ++ ":" ++ commandId⟩ := by
  apply made_of_short
  rw [String.length_append, String.length_append]
  change kind.length + 1 + (session.length + 1 + commandId.length) ≤ 256
  omega

theorem actOn_moves (created : Created service start) (sound : Sound service start floor w)
    (there : w.session.purgeProgress = some p) (purging : w.session.state = .purging)
    (inspection : Receipt) (nowMs : Nat)
    (short : 34 + w.session.sessionId.length + commandId.length ≤ 256) :
    Moves w ((Service.actOn p commandId inspection nowMs
      (recoveryStep p.phase
        (service.pathState w p.sourceRelativeDirectory p.expectedMarkerHash)
        (service.pathState w p.trashRelativeDirectory p.expectedMarkerHash))).complete
          FileAction.apply w).1 := by
  have waiting : p.phase ≠ .draining := by
    intro draining
    have state := (draining_iff sound there).mpr draining
    rw [purging] at state
    cases state
  have under := sound.underway p there
  have renames {w₁ : World} (sound' : Sound service start floor w₁)
      (same : w₁.session = w.session) (phase : p.phase = .renamePending) :
      Moves w ((commits (Service.recordedRename p commandId inspection nowMs)).complete
        FileAction.apply w₁).1 := by
    rw [← same] at there purging short
    have made := progressed_eq_ok sound' there purging (Receipted.renamedNow under.valid phase
      ⟨"purge_rename", w₁.session.sessionId ++ ":" ++ commandId⟩) inspection nowMs
      (Or.inl ⟨rfl, by simp⟩)
    rw [complete_commits (bind_eq_ok.mpr ⟨_, receipt_of_short (by decide) short, made⟩)]
    rw [same] at there purging
    exact moves_of_progressed w w₁ same there purging inspection nowMs
      (Or.inl ⟨rfl, by rw [phase]; rfl⟩)
  have deletes {w₁ : World} (sound' : Sound service start floor w₁)
      (same : w₁.session = w.session) (phase : p.phase = .renamed) :
      Moves w ((commits (Service.recordedDelete p commandId inspection nowMs)).complete
        FileAction.apply w₁).1 := by
    rw [← same] at there purging short
    have made := progressed_eq_ok sound' there purging (Receipted.deletedNow under.valid phase
      ⟨"purge_delete", w₁.session.sessionId ++ ":" ++ commandId⟩) inspection nowMs
      (Or.inl ⟨rfl, by simp⟩)
    rw [complete_commits (bind_eq_ok.mpr ⟨_, receipt_of_short (by decide) short, made⟩)]
    rw [same] at there purging
    exact moves_of_progressed w w₁ same there purging inspection nowMs
      (Or.inl ⟨rfl, by rw [phase]; rfl⟩)
  obtain ⟨proved, cases⟩ := recoveryStep_of_stage created under waiting
  rcases cases with ⟨phase, unmoved, named⟩ | ⟨phase, moved, named⟩ | ⟨phase, moved, named⟩ |
    ⟨phase, gone, named⟩ | ⟨phase, gone, named⟩
  · obtain ⟨sound', _⟩ := Moved.renamed created sound there phase proved unmoved
    rw [named]
    change Moves w ((commits (Service.recordedRename p commandId inspection nowMs)).complete
      FileAction.apply ((FileAction.rename p.sourceRelativeDirectory
        p.trashRelativeDirectory).apply ((FileAction.mkdir trashDir).apply w))).1
    rw [mkdir_unchanged created sound]
    exact renames sound' rfl phase
  · rw [named]
    exact renames sound rfl phase
  · obtain ⟨sound', _⟩ := Gone.placed sound there phase proved moved
    obtain ⟨_, d, found, identifies⟩ := moved
    rw [named, Service.actOn, complete_removeTrash found (marked_of_identifies identifies)]
    exact deletes sound' rfl phase
  · rw [named]
    exact deletes sound rfl phase
  · have receipted := Receipted.same under.valid
    have made : Service.finalized p inspection nowMs w = _ :=
      progressed_eq_ok sound there purging receipted inspection nowMs (Or.inr ⟨rfl, phase⟩)
    rw [named, Service.actOn, complete_commits made]
    exact moves_of_progressed w w rfl there purging inspection nowMs (Or.inr ⟨rfl, phase⟩)

theorem sealed_moves {commandId : String} {collections : List CollectionWitness}
    {highwater nowMs : Nat} (sound : Sound service start floor w)
    (there : w.session.purgeProgress = some p) (draining : w.session.state = .draining)
    (short : 34 + w.session.sessionId.length + commandId.length ≤ 256) :
    ∃ w', service.sealed p commandId collections highwater nowMs w = .ok w' ∧ Moves w w' := by
  have phase := (draining_iff sound there).mp draining
  have proofMade := @receipt_of_short w.session.sessionId _ _
    (show "session_disposal".length ≤ 16 by decide) short
  have disposalMade := @receipt_of_short w.session.sessionId _ _
    (show "disposal".length ≤ 16 by decide) short
  obtain ⟨jobless, unsealed⟩ : w.job = none ∧ w.session.sealedHighwater = none := by
    apply sound.unsealed
    rw [rank_eq there, phase]
    exact Nat.le_refl 1
  have valid := (sound.underway p there).valid
  let change := Service.sealedChange p
    ⟨"session_disposal", w.session.sessionId ++ ":" ++ commandId⟩ highwater nowMs
  have updated : transitionSession w.session w.session change = .ok (change.set w.session) := by
    have follows := sealedChange_follows sound.checked sound.shape there draining sound.seq
      unsealed ⟨"session_disposal", w.session.sessionId ++ ":" ++ commandId⟩ highwater nowMs
    refine transitionSession_eq_ok.mpr ⟨?_, rfl, rfl, follows.shape, follows.progress,
      follows.transition, follows.identity, follows.checked⟩
    intro q same
    cases same
    exact renamePending_valid valid phase
  have done : ∃ w', service.sealed p commandId collections highwater nowMs w = .ok w' := by
    unfold Service.sealed
    rw [proofMade]
    change ∃ w', (transitionSession w.session w.session change >>= _) = Except.ok w'
    rw [updated]
    change ∃ w', ((Receipt.mk "disposal" (w.session.sessionId ++ ":" ++ commandId)).made >>= _) =
      Except.ok w'
    rw [disposalMade]
    simp only [bind, Except.bind, jobless]
    exact ⟨_, rfl⟩
  obtain ⟨w', made⟩ := done
  obtain ⟨proof, updated', _⟩ := sealed_eq_ok made
  obtain ⟨_, _, session, _⟩ := transitionSession_eq_ok.mp updated'
  refine ⟨w', made, ?_⟩
  constructor
  · rw [session]
    rfl
  · rw [session]
    rfl
  · rw [session]
    rfl
  · have before : w.left = 4 := by
      rw [World.left, there]
      dsimp only
      rw [draining, phase]
      rfl
    rw [before, World.left, session]
    rfl
  · rw [session]
    refine ⟨_, rfl, ?_⟩
    intro block blocking
    rw [there]
    exact blocking

theorem due_of_lifted {nowMs : Nat} (under : Underway service start w p)
    (due : ∀ block ∈ p.blocking, ∀ time ∈ block.retryAtMs, time ≤ nowMs) :
    Service.heldBack p.blocking false nowMs = false := by
  obtain ⟨_, _, _, _, _, _, blocked⟩ := validateProgress_eq_ok.mp under.valid
  cases blocking : p.blocking with
  | none => rfl
  | some block =>
    obtain ⟨_, mode, timed⟩ := blocked block blocking
    rw [if_pos (under.lifted block blocking)] at mode
    obtain ⟨time, retry⟩ := Option.ne_none_iff_exists'.mp (timed.mpr mode)
    have passed := due block blocking time retry
    simp only [Service.heldBack, mode, retry, Option.getD_some, Bool.not_false, Bool.true_and,
      bne_self_eq_false, Bool.false_or, decide_eq_false_iff_not]
    omega

theorem advance_moves (created : Created service start) (sound : Sound service start floor w)
    (there : w.session.purgeProgress = some p) (unpurged : w.session.state ≠ .purged)
    (named : w.session.Named 1) {nowMs : Nat} (empty : ∀ kind, readings.refs kind = [])
    (due : ∀ block ∈ p.blocking, ∀ time ∈ block.retryAtMs, time ≤ nowMs) :
    Moves w ((service.advance false nowMs readings).complete FileAction.apply w).1 := by
  obtain ⟨command, session, generation, destroyed, _⟩ := phase_of_shape sound there
  have under := sound.underway p there
  have short := named 0 Nat.one_pos p.destroyCommandId command
  rw [Nat.add_zero] at short
  rw [Service.advance, Program.complete]
  simp only [command, there]
  rw [if_neg unpurged, due_of_lifted under due, if_neg Bool.false_ne_true]
  by_cases draining : w.session.state = .draining
  · obtain ⟨collections, captured⟩ := captureDisposal_of_empty short empty
    obtain ⟨w', made, moves⟩ := @sealed_moves service start floor w p p.destroyCommandId
      collections readings.journalHighwater nowMs sound there draining (by omega)
    rw [if_pos draining, captured]
    dsimp only
    rw [if_pos rfl, complete_commits made]
    exact moves
  · have purging : w.session.state = .purging := by
      rcases destroyed with state | state | state
      · exact absurd state draining
      · exact state
      · exact absurd state unpurged
    obtain ⟨observation, observed⟩ := @observe_of_short service w p _ short
    obtain ⟨sessionId, commandId, control, marker, source, trash⟩ := observe_eq_ok observed
    have decided : recoveryAction p observation = .ok (recoveryStep p.phase
        (service.pathState w p.sourceRelativeDirectory p.expectedMarkerHash)
        (service.pathState w p.trashRelativeDirectory p.expectedMarkerHash)) := by
      apply recoveryAction_eq_ok.mpr
      rw [sessionId, commandId, control, marker, source, trash]
      exact ⟨under.valid, session, rfl, generation, rfl, rfl⟩
    rw [if_neg draining, observed]
    dsimp only
    rw [decided]
    exact actOn_moves created sound there purging _ _ (by omega)

/-! ## Runs -/

abbrev Step := Call × List (Option IoCode)

def step (service : Service) (w : World) (s : Step) : World :=
  (s.1.steps service).run FileAction.apply s.2 w

def after (service : Service) (start : World) (steps : List Step) : World :=
  Transitions.run (step service) start steps

/-- The call is not lost before the removal of the emptied trash directory, nor refused it, and no
other action is refused but for busy files. -/
def Whole (service : Service) (w : World) (s : Step) : Prop :=
  (∀ io, some io ∈ s.2 → io = .busy) ∧
    ¬ (s.1.steps service).Fails FileAction.apply FileAction.last s.2 w

def WholeRun (service : Service) (w : World) : List Step → Prop
  | [] => True
  | s :: rest => Whole service w s ∧ WholeRun service (step service w s) rest

theorem step_sound (created : Created service start) (sound : Sound service start floor w)
    {s : Step} (whole : Whole service w s) : Sound service start floor (step service w s) :=
  Program.run_good (call_keeps created sound s.1) whole.1 whole.2

theorem after_sound (created : Created service start) (sound : Sound service start floor w)
    {steps : List Step} (whole : WholeRun service w steps) :
    Sound service start floor (after service w steps) := by
  induction steps generalizing w with
  | nil => exact sound
  | cons s rest ih => exact ih (step_sound created sound whole.1) whole.2

def advances (service : Service) (w : World) : List (Nat × Readings) → World
  | [] => w
  | (nowMs, readings) :: rest =>
    advances service
      ((service.advance false nowMs readings).complete FileAction.apply w).1 rest

theorem advance_purged (there : w.session.purgeProgress = some p)
    (purged : w.session.state = .purged) (nowMs : Nat) (readings : Readings) :
    ((service.advance false nowMs readings).complete FileAction.apply w).1 = w := by
  rw [Service.advance, Program.complete]
  rw [there]
  cases w.session.destroyCommandId with
  | none => rfl
  | some commandId =>
    dsimp only
    rw [if_pos purged]
    rfl

theorem purged_of_left (there : w.session.purgeProgress = some p) (done : w.left = 0) :
    w.session.state = .purged := by
  by_contra unpurged
  rw [World.left, there] at done
  dsimp only at done
  rw [if_neg unpurged] at done
  cases phase : p.phase <;> rw [phase] at done <;> cases done

/-- Once nothing of the session is open, as many calls as there are steps left end in PURGED. -/
theorem advances_purge (created : Created service start) (sound : Sound service start floor w)
    (there : w.session.purgeProgress = some p) (named : w.session.Named w.left)
    {calls : List (Nat × Readings)} (enough : w.left ≤ calls.length)
    (empty : ∀ call ∈ calls, ∀ kind, call.2.refs kind = [])
    (due : ∀ call ∈ calls, ∀ block ∈ p.blocking, ∀ time ∈ block.retryAtMs, time ≤ call.1) :
    (advances service w calls).session.state = .purged := by
  induction calls generalizing w p with
  | nil => exact purged_of_left there (Nat.le_zero.mp enough)
  | cons call rest ih =>
    obtain ⟨nowMs, readings⟩ := call
    rw [advances]
    by_cases purged : w.session.state = .purged
    · rw [advance_purged there purged]
      have none : w.left = 0 := by
        rw [World.left, there]
        exact if_pos purged
      apply ih sound there named
      · rw [none]
        exact Nat.zero_le _
      · intro call inside
        exact empty call (List.mem_cons_of_mem _ inside)
      · intro call inside
        exact due call (List.mem_cons_of_mem _ inside)
    · have some : 0 < w.left := by
        rw [World.left, there]
        dsimp only
        rw [if_neg purged]
        cases p.phase <;> decide
      have moves : Moves w
          ((service.advance false nowMs readings).complete FileAction.apply w).1 :=
        advance_moves created sound there purged (fun k less => named k (Nat.lt_of_lt_of_le less some))
          (empty _ List.mem_cons_self) (due _ List.mem_cons_self)
      have sound' : Sound service start floor
          ((service.advance false nowMs readings).complete FileAction.apply w).1 :=
        Program.complete_good (advance_keeps created sound false nowMs readings)
      obtain ⟨p', there', blocks⟩ := moves.progress
      have less := moves.left
      apply ih sound' there'
      · intro k below commandId command
        rw [moves.command] at command
        have short := named (k + 1) (by omega) commandId command
        have same : w.session.rowVersion + 1 + k = w.session.rowVersion + (k + 1) := by omega
        rw [moves.session, moves.version, same]
        exact short
      · rw [List.length_cons] at enough
        omega
      · intro call inside
        exact empty call (List.mem_cons_of_mem _ inside)
      · intro call inside block blocking
        have same := blocks block blocking
        rw [there] at same
        exact due call (List.mem_cons_of_mem _ inside) block same

/-! ## The promise -/

/-- What a destruction promises of a state it is left in: the directory is moved only when the
proof is there, nothing else is touched, a purged session has no directory, and the calls that
follow purge it without a manual inspection. -/
structure Promised (service : Service) (start w : World) : Prop where
  proved : w.files start.session.relativeDirectory ≠ start.files start.session.relativeDirectory →
    w.Sealed
  folders : w.folders = start.folders
  elsewhere : ∀ path, path ≠ start.session.relativeDirectory →
    (∀ p ∈ w.session.purgeProgress, path ≠ p.trashRelativeDirectory) →
    w.files path = start.files path
  purged : w.session.state = .purged → ∃ p ∈ w.session.purgeProgress,
    w.files start.session.relativeDirectory = none ∧ w.files p.trashRelativeDirectory = none
  unblocked : ∀ p ∈ w.session.purgeProgress, ∀ block ∈ p.blocking,
    block.retryMode = .sameDestroyBackoff
  purges : ∀ p ∈ w.session.purgeProgress, w.session.Named 4 → ∀ calls : List (Nat × Readings),
    4 ≤ calls.length → (∀ call ∈ calls, ∀ kind, call.2.refs kind = []) →
    (∀ call ∈ calls, ∀ block ∈ p.blocking, ∀ time ∈ block.retryAtMs, time ≤ call.1) →
    (advances service w calls).session.state = .purged

theorem left_le (there : w.session.purgeProgress = some p) : w.left ≤ 4 := by
  rw [World.left, there]
  dsimp only
  split
  · exact Nat.zero_le _
  · cases p.phase <;> decide

theorem Sound.promised (created : Created service start) (sound : Sound service start floor w) :
    Promised service start w := by
  constructor
  · intro moved
    cases there : w.session.purgeProgress with
    | none => exact absurd (congrFun (sound.untouched there) _) moved
    | some p =>
      have under := sound.underway p there
      have stage := under.stage
      rw [← under.source] at moved
      rw [Stage] at stage
      cases phase : p.phase <;> rw [phase] at stage
      · exact absurd stage.1 moved
      · exact stage.1
      · exact stage.1
      · exact stage.1
  · exact sound.folders
  · intro path apart apart'
    cases there : w.session.purgeProgress with
    | none => exact congrFun (sound.untouched there) path
    | some p =>
      have under := sound.underway p there
      rw [← under.source] at apart
      exact under.elsewhere path apart (apart' p there)
  · intro purged
    cases there : w.session.purgeProgress with
    | none =>
      have shape := sound.shape
      rw [SessionRow.Shape, there] at shape
      exact absurd (Or.inr (Or.inr purged)) shape
    | some p =>
      have under := sound.underway p there
      obtain ⟨_, _, _, _, phase⟩ := phase_of_shape sound there
      rw [purged] at phase
      have confirmed := List.mem_singleton.mp phase
      have stage := under.stage
      rw [Stage, confirmed] at stage
      refine ⟨p, rfl, ?_⟩
      rw [← under.source]
      exact stage.2
  · intro p there block blocking
    have under := sound.underway p there
    obtain ⟨_, _, _, _, _, _, blocked⟩ := validateProgress_eq_ok.mp under.valid
    obtain ⟨_, mode, _⟩ := blocked block blocking
    rw [mode]
    exact if_pos (under.lifted block blocking)
  · intro p there named calls enough empty due
    have few := left_le there
    apply advances_purge created sound there _ (Nat.le_trans few enough) empty due
    intro k less
    exact named k (Nat.lt_of_lt_of_le less few)

theorem wholeRun_append {steps later : List Step} :
    WholeRun service w (steps ++ later) ↔
      WholeRun service w steps ∧ WholeRun service (after service w steps) later := by
  induction steps generalizing w with
  | nil => exact (and_iff_right trivial).symm
  | cons s rest ih =>
    rw [List.cons_append, WholeRun, WholeRun, ih, and_assoc]
    rfl

theorem after_append (w : World) (steps later : List Step) :
    after service w (steps ++ later) = after service (after service w steps) later :=
  Transitions.run_append _ _ _ _

/-- In every run whose calls are whole, every state keeps the promise of the destruction, and the
phase never moves back. -/
theorem destruction_recovers (created : Created service start) (steps : List Step)
    (whole : WholeRun service start steps) :
    Promised service start (after service start steps) ∧
      ∀ before later, steps = before ++ later →
        (after service start before).rank ≤ (after service start steps).rank := by
  constructor
  · exact (after_sound created created.sound whole).promised created
  · intro before later split
    rw [split] at whole ⊢
    obtain ⟨first, second⟩ := wholeRun_append.mp whole
    have sound := after_sound created created.sound first
    have here : Sound service start (after service start before).rank
        (after service start before) := { sound with forward := Nat.le_refl _ }
    rw [after_append]
    exact (after_sound created here second).forward

theorem advances_held (command : w.session.destroyCommandId ≠ none)
    (there : w.session.purgeProgress = some p) {block : PurgeBlock}
    (blocking : p.blocking = some block) (manual : block.retryMode = .manual)
    (calls : List (Nat × Readings)) : advances service w calls = w := by
  induction calls with
  | nil => rfl
  | cons call rest ih =>
    obtain ⟨commandId, destroying⟩ := Option.ne_none_iff_exists'.mp command
    have held : ((service.advance false call.1 call.2).complete FileAction.apply w).1 = w := by
      rw [Service.advance, Program.complete, destroying, there]
      dsimp only
      split
      · rfl
      · rw [if_pos (by simp [Service.heldBack, blocking, manual])]
        rfl
    rw [advances, held]
    exact ih

/-! ## A session with one empty directory -/

section
open Service

def plainService : Service where
  ownerId := "o"
  retentionPolicyRef := "k"
  protocolMarkerHash := some "m"
  destroyDigest := id
  commandHash := fun _ _ _ _ => "h"
  setHash := fun _ => "e"
  jobId := fun _ _ => "j"
  jobPayloadHash := fun _ _ => "p"
  markerHash := some

def plainSession : World where
  session := {
    sessionId := "s"
    agentId := "a"
    rootIncarnation := "r"
    relativeDirectory := "d"
    state := .active
    generation := 1
    rowVersion := 1
    journalSeqFrom := 1
    sealedHighwater := none
    destroyCommandId := none
    destroyCommandHash := none
    purgeProgress := none
    deleteProofRef := none
    createdAtMs := 0
    updatedAtMs := 0 }
  job := none
  disposal := none
  resumed := []
  files := fun path => if path = "d" then some ⟨some "m", .nothing⟩ else none
  folders := [trashDir]

theorem plainSession_created : Created plainService plainSession where
  state := Or.inl rfl
  command := rfl
  progress := rfl
  checked := by decide
  seq := rfl
  highwater := rfl
  job := rfl
  marked := ⟨_, "m", rfl, rfl, rfl⟩
  vacant := by
    intro commandId
    have apart : plainService.trashDirectory "s" commandId ≠ "d" := by
      intro same
      have lengths := congrArg String.length same
      rw [trashDirectory, String.length_append, String.length_append, String.length_append,
        String.length_append] at lengths
      change 5 + 1 + 1 + 1 + _ = 1 at lengths
      omega
    have read : ∀ path, plainSession.files path =
        if path = "d" then some ⟨some "m", .nothing⟩ else none := fun _ => rfl
    exact (read _).trans (if_neg apart)
  folder := List.mem_singleton.mpr rfl

def plainDestroy : DestroyCommand where
  commandId := "c"
  payloadCommandId := "c"
  sessionId := "s"
  expectedGeneration := 1
  retentionPolicyRef := "k"
  caller := "u"

def idle : Readings where
  refs := fun _ => []
  journalHighwater := 0

/-- Destroyed, moved, and then lost each time: before it moves, and when all is done but the last
record. -/
def twiceCut : List Step :=
  [(.destroy plainDestroy 0 idle, [none, none]), (.advance 0 idle, [none]),
    (.advance 0 idle, [none, none, none]), (.advance 0 idle, [none, none])]

/-- Lost between the removal of the marker and the removal of the directory. -/
def cutAtMarker : List Step :=
  [(.destroy plainDestroy 0 idle, [none, none]), (.advance 0 idle, [none, none, none]),
    (.advance 0 idle, [none]), (.advance 0 idle, [none])]

theorem twiceCut_whole : WholeRun plainService plainSession twiceCut := by
  refine ⟨?_, ?_, ?_, ?_, trivial⟩
  all_goals exact ⟨by simp, by decide +kernel⟩

theorem plainSession_recovers :
    (after plainService plainSession twiceCut).rank = 3 ∧
      Promised plainService plainSession (after plainService plainSession twiceCut) :=
  ⟨by decide +kernel, (destruction_recovers plainSession_created twiceCut twiceCut_whole).1⟩

/-- Lost between the removal of the marker and the removal of the directory, a destruction never
ends. -/
theorem emptied_trash_never_purged :
    Created plainService plainSession ∧ (∀ s ∈ cutAtMarker, ∀ fate ∈ s.2, fate = none) ∧
      ∀ calls : List (Nat × Readings), ∃ p block,
        advances plainService (after plainService plainSession cutAtMarker) calls =
          after plainService plainSession cutAtMarker ∧
        (after plainService plainSession cutAtMarker).session.state = .purging ∧
        (after plainService plainSession cutAtMarker).session.purgeProgress = some p ∧
        p.blocking = some block ∧ block.retryMode = .manual := by
  have state : (after plainService plainSession cutAtMarker).session.state = .purging ∧
      (after plainService plainSession cutAtMarker).session.destroyCommandId ≠ none := by
    decide +kernel
  have stopped : ((after plainService plainSession cutAtMarker).session.purgeProgress.bind
      (·.blocking)).map (·.retryMode) = some .manual := by
    decide +kernel
  refine ⟨plainSession_created, by simp [cutAtMarker], ?_⟩
  intro calls
  obtain ⟨block, found, manual⟩ := Option.map_eq_some_iff.mp stopped
  obtain ⟨p, there, blocking⟩ := Option.bind_eq_some_iff.mp found
  exact ⟨p, block, advances_held state.2 there blocking manual calls, state.1, there, blocking,
    manual⟩

end

end Sessions
