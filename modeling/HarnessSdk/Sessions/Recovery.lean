import HarnessSdk.Sessions.Rows

/-!
What a destruction keeps however often it is cut short: where the directory of the session can be
in each phase, unless a call stops between the removal of the marker and the removal of the emptied
directory.
-/
namespace Sessions
open Checks Crashes

/-! ## What is kept -/

/-- Seven witnessed collections, all of them empty. -/
structure Emptied (collections : List CollectionWitness) : Prop where
  seven : collections.length = 7
  every : ∀ kind ∈ disposalKinds, ∃ c ∈ collections, c.kind = kind
  empty : ∀ c ∈ collections, c.complete = true ∧ c.count = 0 ∧ c.refs = []

/-- The proof that nothing of the session is open was recorded. -/
def World.Sealed (w : World) : Prop := ∃ collections, w.disposal = some collections ∧
  Emptied collections

def Phase.rank : Phase → Nat
  | .draining => 1
  | .renamePending => 2
  | .renamed => 3
  | .deleteConfirmed => 4

def World.rank (w : World) : Nat :=
  match w.session.purgeProgress with
  | none => 0
  | some p => p.phase.rank

variable (service : Service) (start : World)

/-- The marker of the directory is the one that was written for the session. -/
def Directory.Identifies (d : Directory) (hash : String) : Prop :=
  d.marker.bind service.markerHash = some hash

/-- A session as it is before anyone destroys it: its directory bears its marker, and no
directory is kept where a destruction would move it. -/
structure Created : Prop where
  state : start.session.state = .active ∨ start.session.state = .quarantined
  command : start.session.destroyCommandId = none
  progress : start.session.purgeProgress = none
  checked : start.session.Checked
  seq : start.session.journalSeqFrom = 1
  highwater : start.session.sealedHighwater = none
  job : start.job = none
  marked : ∃ d hash, start.files start.session.relativeDirectory = some d ∧
    d.Identifies service hash ∧ service.protocolMarkerHash = some hash
  vacant : ∀ commandId,
    start.files (service.trashDirectory start.session.sessionId commandId) = none
  folder : trashDir ∈ start.folders

section
variable (w : World) (p : PurgeProgress)

def Unmoved : Prop :=
  w.files p.sourceRelativeDirectory = start.files p.sourceRelativeDirectory ∧
    w.files p.trashRelativeDirectory = none

def Moved : Prop :=
  w.files p.sourceRelativeDirectory = none ∧
    ∃ d, w.files p.trashRelativeDirectory = some d ∧ d.Identifies service p.expectedMarkerHash

def Gone : Prop :=
  w.files p.sourceRelativeDirectory = none ∧ w.files p.trashRelativeDirectory = none

/-- Where the directory can be in each phase. -/
def Stage : Prop :=
  match p.phase with
  | .draining => Unmoved start w p
  | .renamePending => w.Sealed ∧ (Unmoved start w p ∨ Moved service w p)
  | .renamed => w.Sealed ∧ (Moved service w p ∨ Gone w p)
  | .deleteConfirmed => w.Sealed ∧ Gone w p

structure Underway : Prop where
  valid : validateProgress p = .ok ()
  source : p.sourceRelativeDirectory = start.session.relativeDirectory
  marker : service.protocolMarkerHash = some p.expectedMarkerHash
  vacant : start.files p.trashRelativeDirectory = none
  lifted : ∀ block ∈ p.blocking, block.code = .fileBusy
  elsewhere : ∀ path, path ≠ p.sourceRelativeDirectory → path ≠ p.trashRelativeDirectory →
    w.files path = start.files path
  stage : Stage service start w p

end

structure Sound (floor : Nat) (w : World) : Prop where
  session : w.session.sessionId = start.session.sessionId
  directory : w.session.relativeDirectory = start.session.relativeDirectory
  seq : w.session.journalSeqFrom = 1
  checked : w.session.Checked
  shape : w.session.Shape
  folders : w.folders = start.folders
  untouched : w.session.purgeProgress = none → w.files = start.files
  underway : ∀ p ∈ w.session.purgeProgress, Underway service start w p
  forward : floor ≤ w.rank
  /-- The job and the highwater come with the seal. -/
  unsealed : w.rank ≤ 1 → w.job = none ∧ w.session.sealedHighwater = none

variable {service start} {floor : Nat} {w : World} {p : PurgeProgress}

theorem Created.sound (created : Created service start) : Sound service start 0 start := by
  constructor
  · rfl
  · rfl
  · exact created.seq
  · exact created.checked
  · rw [SessionRow.Shape, created.progress]
    rcases created.state with state | state <;> simp [SessionRow.destroyed, state]
  · rfl
  · intro _
    rfl
  · intro p there
    rw [created.progress] at there
    cases there
  · exact Nat.zero_le _
  · intro _
    exact ⟨created.job, created.highwater⟩

theorem Underway.apart (under : Underway service start w p) :
    p.sourceRelativeDirectory ≠ p.trashRelativeDirectory := by
  have valid := under.valid
  unfold validateProgress at valid
  obtain ⟨_, _, valid⟩ := bind_eq_ok.mp valid
  obtain ⟨_, _, valid⟩ := bind_eq_ok.mp valid
  exact (need_eq_ok _ _).mp (then_eq_ok.mp valid).1

variable {w' : World} {p' : PurgeProgress} {change : SessionChange} {nowMs : Nat}
  {inspection : Receipt} {commandId : String} {observation : PurgePathObservation}

theorem Underway.recorded (under : Underway service start w p) (files : w'.files = w.files)
    (source : p'.sourceRelativeDirectory = p.sourceRelativeDirectory)
    (trash : p'.trashRelativeDirectory = p.trashRelativeDirectory)
    (marker : p'.expectedMarkerHash = p.expectedMarkerHash) (valid : validateProgress p' = .ok ())
    (lifted : ∀ block ∈ p'.blocking, block.code = .fileBusy) (stage : Stage service start w' p') :
    Underway service start w' p' := by
  constructor
  · exact valid
  · rw [source, under.source]
  · rw [marker, under.marker]
  · rw [trash, under.vacant]
  · exact lifted
  · intro path apart apart'
    rw [files]
    exact under.elsewhere path (source ▸ apart) (trash ▸ apart')
  · exact stage

theorem Sound.updated {row : SessionRow} (sound : Sound service start floor w)
    (made : transitionSession w.session w.session change = .ok row)
    (set : change.purgeProgress = some p') (session : w'.session = row)
    (folders : w'.folders = w.folders) (under : Underway service start w' p')
    (forward : floor ≤ p'.phase.rank)
    (unsealed : p'.phase.rank ≤ 1 → w'.job = none ∧ row.sealedHighwater = none) :
    Sound service start floor w' := by
  obtain ⟨_, _, rfl, shape, _, _, _, checked⟩ := transitionSession_eq_ok.mp made
  have progress : w'.session.purgeProgress = some p' := by
    rw [session, SessionChange.set, set]
    rfl
  constructor
  · rw [session]
    exact sound.session
  · rw [session]
    exact sound.directory
  · rw [session]
    exact sound.seq
  · rw [session]
    exact checked
  · rw [session]
    exact shape
  · rw [folders, sound.folders]
  · intro missing
    rw [progress] at missing
    cases missing
  · intro q there
    rw [progress] at there
    cases there
    exact under
  · rw [World.rank, progress]
    exact forward
  · rw [World.rank, progress, session]
    exact unsealed

/-! ## One recorded step -/

theorem rank_eq (there : w.session.purgeProgress = some p) : w.rank = p.phase.rank := by
  rw [World.rank, there]

section
variable (sound : Sound service start floor w)
include sound

theorem Sound.progressed {state : Option SessionState}
    (there : w.session.purgeProgress = some p)
    (made : Service.progressed p' nowMs state w = .ok w')
    (source : p'.sourceRelativeDirectory = p.sourceRelativeDirectory)
    (trash : p'.trashRelativeDirectory = p.trashRelativeDirectory)
    (marker : p'.expectedMarkerHash = p.expectedMarkerHash)
    (lifted : ∀ block ∈ p'.blocking, block.code = .fileBusy) (stage : Stage service start w p')
    (forth : p.phase.rank ≤ p'.phase.rank) : Sound service start floor w' := by
  obtain ⟨row, updated, made⟩ := bind_eq_ok.mp made
  cases made
  have valid := (transitionSession_eq_ok.mp updated).1 p' rfl
  have under : Underway service start { w with session := row } p' :=
    (sound.underway p there).recorded rfl source trash marker valid lifted stage
  have reached := sound.forward
  rw [rank_eq there] at reached
  have unsealed : p'.phase.rank ≤ 1 → w.job = none ∧ row.sealedHighwater = none := by
    intro early
    obtain ⟨_, _, rfl, _⟩ := transitionSession_eq_ok.mp updated
    apply sound.unsealed
    rw [rank_eq there]
    exact Nat.le_trans forth early
  exact sound.updated updated rfl rfl rfl under (Nat.le_trans reached forth) unsealed

theorem Sound.blocked
    (there : w.session.purgeProgress = some p)
    (made : Service.blocked p inspection .fileBusy nowMs w = .ok w') :
    Sound service start floor w' := by
  apply sound.progressed there made rfl rfl rfl
  · intro block blocking
    cases blocking
    rfl
  · exact (sound.underway p there).stage
  · exact Nat.le_refl _

theorem Sound.recordedRename
    (there : w.session.purgeProgress = some p) (phase : p.phase = .renamePending)
    (proved : w.Sealed) (moved : Moved service w p)
    (made : Service.recordedRename p commandId inspection nowMs w = .ok w') :
    Sound service start floor w' := by
  obtain ⟨_, _, made⟩ := bind_eq_ok.mp made
  apply sound.progressed there made rfl rfl rfl
  · intro block blocking
    cases blocking
  · exact ⟨proved, Or.inl moved⟩
  · rw [phase]
    exact Nat.le_succ 2

theorem Sound.recordedDelete
    (there : w.session.purgeProgress = some p) (phase : p.phase = .renamed) (proved : w.Sealed)
    (gone : Gone w p) (made : Service.recordedDelete p commandId inspection nowMs w = .ok w') :
    Sound service start floor w' := by
  obtain ⟨_, _, made⟩ := bind_eq_ok.mp made
  apply sound.progressed there made rfl rfl rfl
  · intro block blocking
    cases blocking
  · exact ⟨proved, gone⟩
  · rw [phase]
    exact Nat.le_succ 3

theorem Sound.finalized
    (there : w.session.purgeProgress = some p)
    (made : Service.finalized p inspection nowMs w = .ok w') : Sound service start floor w' := by
  apply sound.progressed there made rfl rfl rfl
  · intro block blocking
    cases blocking
  · exact (sound.underway p there).stage
  · exact Nat.le_refl _

end

/-! ## The seven collections -/

variable {session : SessionRow} {collections : List CollectionWitness}

theorem emptied_of_capture {readings : Readings}
    (made : service.captureDisposal session commandId readings = .ok (collections, true)) :
    Emptied collections := by
  obtain ⟨witnesses, _, made⟩ := bind_eq_ok.mp made
  obtain ⟨_, _, made⟩ := bind_eq_ok.mp made
  obtain ⟨_, _, made⟩ := bind_eq_ok.mp made
  obtain ⟨safe, proof, made⟩ := bind_eq_ok.mp made
  cases made
  obtain ⟨complete, rest⟩ := then_eq_ok.mp proof
  obtain ⟨counted, empty⟩ := then_eq_ok.mp rest
  rw [need_eq_ok] at complete counted
  injection empty with empty
  constructor
  · exact complete.1
  · exact complete.2
  · intro c inside
    have zero : c.count = 0 := by simpa using List.all_eq_true.mp empty c inside
    have same := (counted c inside).2.1
    rw [zero] at same
    exact ⟨(counted c inside).1, zero, List.eq_nil_of_length_eq_zero same.symm⟩

theorem sealed_eq_ok {highwater : Nat}
    (made : service.sealed p commandId collections highwater nowMs w = .ok w') :
    ∃ proof, transitionSession w.session w.session {
        nowMs
        state := some .purging
        sealedHighwater := some highwater
        purgeProgress := some { p with phase := .renamePending }
        deleteProofRef := some proof } = .ok w'.session ∧
      w'.disposal = some collections ∧ w'.files = w.files ∧ w'.folders = w.folders := by
  obtain ⟨proof, _, made⟩ := bind_eq_ok.mp made
  obtain ⟨row, updated, made⟩ := bind_eq_ok.mp made
  obtain ⟨_, _, made⟩ := bind_eq_ok.mp made
  refine ⟨proof, ?_⟩
  dsimp only at made
  split at made
  · cases made
    exact ⟨updated, rfl, rfl, rfl⟩
  · split at made
    · cases made
      exact ⟨updated, rfl, rfl, rfl⟩
    · cases made

theorem Sound.sealed {highwater : Nat} (sound : Sound service start floor w)
    (there : w.session.purgeProgress = some p) (phase : p.phase = .draining)
    (empty : Emptied collections)
    (made : service.sealed p commandId collections highwater nowMs w = .ok w') :
    Sound service start floor w' := by
  obtain ⟨proof, updated, disposal, files, folders⟩ := sealed_eq_ok made
  have under := sound.underway p there
  have unmoved : Unmoved start w p := by
    have stage := under.stage
    rw [Stage, phase] at stage
    exact stage
  have valid := (transitionSession_eq_ok.mp updated).1 _ rfl
  have forth := sound.forward
  rw [rank_eq there, phase] at forth
  have stage : Stage service start w' { p with phase := .renamePending } := by
    constructor
    · exact ⟨collections, disposal, empty⟩
    · left
      rw [Unmoved, files]
      exact unmoved
  have later : Underway service start w' { p with phase := .renamePending } :=
    under.recorded files rfl rfl rfl valid under.lifted stage
  apply sound.updated updated rfl rfl folders later (Nat.le_trans forth (Nat.le_succ 1))
  intro early
  change 2 ≤ 1 at early
  omega

/-! ## The files -/

mutual
theorem node_removed (node : Node) :
    (node.removed.map Node.removals).getD 0 + 1 = node.removals := by
  cases node with
  | file => rfl
  | link => rfl
  | folder inside =>
    cases inside with
    | nothing => rfl
    | more name node rest =>
      have less := entries_removed (.more name node rest) (by simp)
      simpa [Node.removed, Node.removals] using less
termination_by structural node

theorem entries_removed (entries : Entries) (some : entries ≠ .nothing) :
    entries.removed.removals + 1 = entries.removals := by
  cases entries with
  | nothing => exact absurd rfl some
  | more name node rest =>
    have less := node_removed node
    rw [Entries.removed]
    cases left : node.removed with
    | none =>
      rw [left] at less
      simp only [Option.map_none, Option.getD_none] at less
      simp only [Entries.removals]
      omega
    | some node' =>
      rw [left] at less
      simp only [Option.map_some, Option.getD_some] at less
      simp only [Entries.removals]
      omega
termination_by structural entries
end

theorem nothing_of_removals (entries : Entries) (none : entries.removals = 0) :
    entries = .nothing := by
  by_contra some
  have more := entries_removed entries some
  omega

theorem Sound.filed (sound : Sound service start floor w)
    (there : w.session.purgeProgress = some p) (session : w'.session = w.session)
    (folders : w'.folders = w.folders) (job : w.job = none → w'.job = none)
    (elsewhere : ∀ path, path ≠ p.sourceRelativeDirectory → path ≠ p.trashRelativeDirectory →
      w'.files path = w.files path) (stage : Stage service start w' p) :
    Sound service start floor w' := by
  have under := sound.underway p there
  constructor
  · rw [session]
    exact sound.session
  · rw [session]
    exact sound.directory
  · rw [session]
    exact sound.seq
  · rw [session]
    exact sound.checked
  · rw [session]
    exact sound.shape
  · rw [folders, sound.folders]
  · intro missing
    rw [session, there] at missing
    cases missing
  · intro q same
    rw [session, there] at same
    cases same
    constructor
    · exact under.valid
    · exact under.source
    · exact under.marker
    · exact under.vacant
    · exact under.lifted
    · intro path apart apart'
      rw [elsewhere path apart apart']
      exact under.elsewhere path apart apart'
    · exact stage
  · rw [World.rank, session]
    exact sound.forward
  · intro early
    rw [World.rank, session] at early
    rw [session]
    exact ⟨job (sound.unsealed early).1, (sound.unsealed early).2⟩

theorem Moved.placed {d : Directory} (sound : Sound service start floor w)
    (there : w.session.purgeProgress = some p) (phase : p.phase = .renamed) (proved : w.Sealed)
    (moved : Moved service w p) (identifies : d.Identifies service p.expectedMarkerHash) :
    Sound service start floor (w.place p.trashRelativeDirectory (some d)) ∧
      Moved service (w.place p.trashRelativeDirectory (some d)) p := by
  have apart := (sound.underway p there).apart
  have moved' : Moved service (w.place p.trashRelativeDirectory (some d)) p := by
    constructor
    · rw [World.place]
      dsimp only
      rw [if_neg apart]
      exact moved.1
    · exact ⟨d, by rw [World.place]; exact if_pos rfl, identifies⟩
  refine ⟨?_, moved'⟩
  apply sound.filed there
  · rfl
  · rfl
  · exact id
  · intro path _ away
    exact if_neg away
  · rw [Stage, phase]
    exact ⟨proved, Or.inl moved'⟩

theorem Gone.placed (sound : Sound service start floor w)
    (there : w.session.purgeProgress = some p) (phase : p.phase = .renamed) (proved : w.Sealed)
    (moved : Moved service w p) :
    Sound service start floor (w.place p.trashRelativeDirectory none) ∧
      Gone (w.place p.trashRelativeDirectory none) p := by
  have apart := (sound.underway p there).apart
  have gone : Gone (w.place p.trashRelativeDirectory none) p := by
    constructor
    · rw [World.place]
      dsimp only
      rw [if_neg apart]
      exact moved.1
    · rw [World.place]
      exact if_pos rfl
  refine ⟨?_, gone⟩
  apply sound.filed there
  · rfl
  · rfl
  · exact id
  · intro path _ away
    exact if_neg away
  · rw [Stage, phase]
    exact ⟨proved, Or.inr gone⟩

theorem Moved.renamed (created : Created service start) (sound : Sound service start floor w)
    (there : w.session.purgeProgress = some p) (phase : p.phase = .renamePending)
    (proved : w.Sealed) (unmoved : Unmoved start w p) :
    let w' := FileAction.apply (.rename p.sourceRelativeDirectory p.trashRelativeDirectory) w
    Sound service start floor w' ∧ Moved service w' p := by
  intro w'
  have under := sound.underway p there
  have apart := under.apart
  obtain ⟨d, hash, kept, identifies, marker⟩ := created.marked
  have expected : hash = p.expectedMarkerHash :=
    Option.some.inj (marker.symm.trans under.marker)
  have moved : Moved service w' p := by
    constructor
    · exact if_pos rfl
    · refine ⟨d, ?_, expected ▸ identifies⟩
      change (if p.trashRelativeDirectory = p.sourceRelativeDirectory then none
        else if p.trashRelativeDirectory = p.trashRelativeDirectory then _ else _) = some d
      rw [if_neg apart.symm, if_pos rfl, unmoved.1, under.source, kept]
  refine ⟨?_, moved⟩
  apply sound.filed there
  · rfl
  · rfl
  · exact id
  · intro path away away'
    change (if path = p.sourceRelativeDirectory then none
      else if path = p.trashRelativeDirectory then _ else _) = w.files path
    rw [if_neg away, if_neg away']
  · rw [Stage, phase]
    exact ⟨proved, Or.inr moved⟩

/-! ## Whatever becomes of a call -/

/-- The action after which the trash directory no longer says what it is. -/
def FileAction.last : FileAction → Prop
  | .rmdir _ => True
  | _ => False

instance : DecidablePred FileAction.last
  | .rmdir _ => isTrue trivial
  | .mkdir _ | .rename _ _ | .removeEntry _ | .unlinkMarker _ => isFalse id

/-- Every state a call can be left in is sound, if it is not left before its last action and no
action is refused but for busy files. -/
abbrev Keeps (service : Service) (start : World) (floor : Nat) (steps : Steps) (w : World) : Prop :=
  steps.Safe FileAction.apply (Sound service start floor) FileAction.last (· = .busy) w

/-- An action that is done, or refused for busy files, or not reached. -/
theorem tries_keeps {action : FileAction} {refused : IoCode → Steps} {next : Steps}
    (sound : Sound service start floor w) (held : Keeps service start floor (refused .busy) w)
    (after : Keeps service start floor next (action.apply w)) :
    Keeps service start floor (.tries action refused next) w := by
  refine ⟨?_, after⟩
  intro _
  refine ⟨sound, ?_⟩
  rintro _ rfl
  exact held

theorem commits_keeps {tx : World → Except Raised World} (sound : Sound service start floor w)
    (kept : ∀ w', tx w = .ok w' → Sound service start floor w') :
    Keeps service start floor (commits tx) w := by
  unfold Keeps commits Program.Safe
  dsimp only
  cases made : tx w with
  | error e => exact sound
  | ok w' => exact ⟨sound, kept w' made⟩

variable {d : Directory}

theorem marked_of_identifies {hash : String} (identifies : d.Identifies service hash) :
    d.marker.isSome = true := by
  unfold Directory.Identifies at identifies
  cases marker : d.marker with
  | none =>
    rw [marker] at identifies
    cases identifies
  | some text => rfl

theorem removeEntry_found {trash : String} (found : w.files trash = some d) :
    (FileAction.removeEntry trash).apply w =
      w.place trash (some { d with entries := d.entries.removed }) := by
  rw [FileAction.apply, World.amend, found, Option.map_some]

theorem removals_removed {entries : Entries} {n : Nat} (count : entries.removals = n + 1) :
    entries.removed.removals = n := by
  have less := entries_removed entries (by
    rintro rfl
    cases count)
  omega

/-- A directory without files is gone once its marker and it are removed. -/
theorem rmdir_emptied {trash : String} (found : w.files trash = some d)
    (empty : d.entries = .nothing) :
    (FileAction.rmdir trash).apply ((FileAction.unlinkMarker trash).apply w) =
      w.place trash none := by
  have unmarked : (FileAction.unlinkMarker trash).apply w =
      w.place trash (some ⟨none, .nothing⟩) := by
    rw [FileAction.apply, World.amend, found, Option.map_some, empty]
  have look : (w.place trash (some ⟨none, .nothing⟩)).files trash = some ⟨none, .nothing⟩ :=
    if_pos rfl
  rw [unmarked, FileAction.apply, look]
  simp only [World.place, World.mk.injEq, true_and, and_true]
  funext path
  split <;> rfl

theorem removeTrash_keeps {refused : IoCode → Steps} {next : Steps}
    (sound : Sound service start floor w) (there : w.session.purgeProgress = some p)
    (phase : p.phase = .renamed) (proved : w.Sealed) (moved : Moved service w p)
    (held : ∀ w', w'.session = w.session → Sound service start floor w' →
      Keeps service start floor (refused .busy) w')
    (after : ∀ w', w'.session = w.session → Sound service start floor w' → w'.Sealed →
      Gone w' p → Keeps service start floor next w') :
    Keeps service start floor (Service.removeTrash p.trashRelativeDirectory refused next) w := by
  obtain ⟨away, d, found, identifies⟩ := moved
  have marked := marked_of_identifies identifies
  unfold Keeps Service.removeTrash Program.Safe
  dsimp only
  rw [found]
  dsimp only
  rw [if_pos marked]
  generalize count : d.entries.removals = n
  induction n generalizing w d with
  | zero =>
    apply tries_keeps sound (held w rfl sound)
    constructor
    · intro spared
      exact absurd trivial spared
    · rw [rmdir_emptied found (nothing_of_removals d.entries count)]
      obtain ⟨sound', gone⟩ := Gone.placed sound there phase proved ⟨away, d, found, identifies⟩
      exact after _ rfl sound' proved gone
  | succ n ih =>
    apply tries_keeps sound (held w rfl sound)
    rw [removeEntry_found found]
    have same : Directory.Identifies service { d with entries := d.entries.removed }
        p.expectedMarkerHash := identifies
    obtain ⟨sound', moved'⟩ :=
      Moved.placed sound there phase proved ⟨away, d, found, identifies⟩ same
    exact ih sound' there proved held after moved'.1 { d with entries := d.entries.removed }
      (if_pos rfl) identifies marked (removals_removed count)

theorem pathState_absent {path hash : String} (gone : w.files path = none) :
    service.pathState w path hash = .absent := by
  rw [Service.pathState, gone]

theorem pathState_match {path hash : String} (found : w.files path = some d)
    (identifies : d.Identifies service hash) : service.pathState w path hash = .match := by
  rw [Service.pathState, found]
  dsimp only
  unfold Directory.Identifies at identifies
  rw [identifies]
  exact if_pos rfl

section
variable (created : Created service start)
include created

theorem Unmoved.identified (under : Underway service start w p)
    (unmoved : Unmoved start w p) :
    ∃ d, w.files p.sourceRelativeDirectory = some d ∧
      d.Identifies service p.expectedMarkerHash := by
  obtain ⟨d, hash, kept, identifies, marker⟩ := created.marked
  have expected : hash = p.expectedMarkerHash :=
    Option.some.inj (marker.symm.trans under.marker)
  refine ⟨d, ?_, expected ▸ identifies⟩
  rw [unmoved.1, under.source, kept]

theorem recoveryStep_of_stage
    (under : Underway service start w p) (waiting : p.phase ≠ .draining) :
    let step := recoveryStep p.phase
      (service.pathState w p.sourceRelativeDirectory p.expectedMarkerHash)
      (service.pathState w p.trashRelativeDirectory p.expectedMarkerHash)
    w.Sealed ∧
      (p.phase = .renamePending ∧ Unmoved start w p ∧ step = .renameExact ∨
        p.phase = .renamePending ∧ Moved service w p ∧ step = .recordRecoveredRename ∨
        p.phase = .renamed ∧ Moved service w p ∧ step = .deleteExact ∨
        p.phase = .renamed ∧ Gone w p ∧ step = .recordDeletionAbsence ∨
        p.phase = .deleteConfirmed ∧ Gone w p ∧ step = .finalizeSameDestroy) := by
  intro step
  have stage := under.stage
  rw [Stage] at stage
  cases phase : p.phase with
  | draining => exact absurd phase waiting
  | renamePending =>
    rw [phase] at stage
    refine ⟨stage.1, ?_⟩
    rcases stage.2 with unmoved | moved
    · left
      obtain ⟨d, found, identifies⟩ := unmoved.identified created under
      have named : step = .renameExact := by
        unfold step
        rw [phase, pathState_match found identifies, pathState_absent unmoved.2]
        rfl
      exact ⟨rfl, unmoved, named⟩
    · right
      left
      obtain ⟨d, found, identifies⟩ := moved.2
      have named : step = .recordRecoveredRename := by
        unfold step
        rw [phase, pathState_absent moved.1, pathState_match found identifies]
        rfl
      exact ⟨rfl, moved, named⟩
  | renamed =>
    rw [phase] at stage
    refine ⟨stage.1, ?_⟩
    rcases stage.2 with moved | gone
    · right
      right
      left
      obtain ⟨d, found, identifies⟩ := moved.2
      have named : step = .deleteExact := by
        unfold step
        rw [phase, pathState_absent moved.1, pathState_match found identifies]
        rfl
      exact ⟨rfl, moved, named⟩
    · right
      right
      right
      left
      have named : step = .recordDeletionAbsence := by
        unfold step
        rw [phase, pathState_absent gone.1, pathState_absent gone.2]
        rfl
      exact ⟨rfl, gone, named⟩
  | deleteConfirmed =>
    rw [phase] at stage
    refine ⟨stage.1, ?_⟩
    right
    right
    right
    right
    have named : step = .finalizeSameDestroy := by
      unfold step
      rw [phase, pathState_absent stage.2.1, pathState_absent stage.2.2]
      rfl
    exact ⟨rfl, stage.2, named⟩

theorem mkdir_unchanged (sound : Sound service start floor w) :
    (FileAction.mkdir trashDir).apply w = w := by
  rw [FileAction.apply, sound.folders]
  exact if_pos created.folder

theorem actOn_keeps (sound : Sound service start floor w)
    (there : w.session.purgeProgress = some p) (waiting : p.phase ≠ .draining)
    (commandId : String) (inspection : Receipt) (nowMs : Nat) :
    Keeps service start floor (Service.actOn p commandId inspection nowMs
      (recoveryStep p.phase
        (service.pathState w p.sourceRelativeDirectory p.expectedMarkerHash)
        (service.pathState w p.trashRelativeDirectory p.expectedMarkerHash))) w := by
  have held : ∀ w', w'.session = w.session → Sound service start floor w' →
      Keeps service start floor (commits (Service.blocked p inspection .fileBusy nowMs)) w' := by
    intro w' session sound'
    apply commits_keeps sound'
    intro w'' made
    exact sound'.blocked (session ▸ there) made
  obtain ⟨proved, cases⟩ := recoveryStep_of_stage created (sound.underway p there) waiting
  rcases cases with ⟨phase, unmoved, named⟩ | ⟨phase, moved, named⟩ | ⟨phase, moved, named⟩ |
    ⟨phase, gone, named⟩ | ⟨phase, gone, named⟩
  · rw [named]
    obtain ⟨sound', moved⟩ := Moved.renamed created sound there phase proved unmoved
    apply tries_keeps sound (held w rfl sound)
    rw [mkdir_unchanged created sound]
    apply tries_keeps sound (held w rfl sound)
    apply commits_keeps sound'
    intro w' made
    exact sound'.recordedRename there phase proved moved made
  · rw [named]
    apply commits_keeps sound
    intro w' made
    exact sound.recordedRename there phase proved moved made
  · rw [named, Service.actOn]
    apply removeTrash_keeps sound there phase proved moved
    · exact held
    · intro w' session sound' proved' gone
      apply commits_keeps sound'
      intro w'' made
      exact sound'.recordedDelete (session ▸ there) phase proved' gone made
  · rw [named]
    apply commits_keeps sound
    intro w' made
    exact sound.recordedDelete there phase proved gone made
  · rw [named]
    apply commits_keeps sound
    intro w' made
    exact sound.finalized there made

end

theorem phase_of_shape (sound : Sound service start floor w)
    (there : w.session.purgeProgress = some p) :
    w.session.destroyCommandId = some p.destroyCommandId ∧ p.sessionId = w.session.sessionId ∧
      p.controlGeneration = w.session.generation ∧ SessionRow.destroyed w.session.state ∧
      p.phase ∈ SessionRow.phases w.session.state := by
  have shape := sound.shape
  rw [SessionRow.Shape, there] at shape
  obtain ⟨destroyed, command, _, session, _, _, generation, phase, _⟩ := shape
  exact ⟨command, session, generation, destroyed, phase⟩

theorem draining_iff (sound : Sound service start floor w)
    (there : w.session.purgeProgress = some p) :
    w.session.state = .draining ↔ p.phase = .draining := by
  obtain ⟨_, _, _, destroyed, phase⟩ := phase_of_shape sound there
  constructor
  · intro state
    rw [state] at phase
    simpa [SessionRow.phases] using phase
  · intro draining
    rw [draining] at phase
    rcases destroyed with state | state | state
    · exact state
    · rw [state] at phase
      simp [SessionRow.phases] at phase
    · rw [state] at phase
      simp [SessionRow.phases] at phase

theorem observe_eq_ok (made : service.observe w p commandId = .ok observation) :
    observation.sessionId = w.session.sessionId ∧ observation.destroyCommandId = commandId ∧
      observation.controlGeneration = w.session.generation ∧
      observation.expectedMarkerHash = p.expectedMarkerHash ∧
      observation.sourceState =
        service.pathState w p.sourceRelativeDirectory p.expectedMarkerHash ∧
      observation.trashState =
        service.pathState w p.trashRelativeDirectory p.expectedMarkerHash := by
  obtain ⟨_, _, made⟩ := bind_eq_ok.mp made
  cases made
  exact ⟨rfl, rfl, rfl, rfl, rfl, rfl⟩

theorem recoveryAction_eq_ok {action : RecoveryAction} :
    recoveryAction p observation = .ok action ↔
      validateProgress p = .ok () ∧ p.sessionId = observation.sessionId ∧
        p.destroyCommandId = observation.destroyCommandId ∧
        p.controlGeneration = observation.controlGeneration ∧
        p.expectedMarkerHash = observation.expectedMarkerHash ∧
        recoveryStep p.phase observation.sourceState observation.trashState = action := by
  unfold recoveryAction
  simp only [then_eq_ok, need_eq_ok, Except.ok.injEq]

theorem advance_keeps (created : Created service start) (sound : Sound service start floor w)
    (force : Bool) (nowMs : Nat) (readings : Readings) :
    Keeps service start floor (service.advance force nowMs readings) w := by
  unfold Keeps Service.advance Program.Safe
  dsimp only
  cases command : w.session.destroyCommandId with
  | none => exact sound
  | some commandId =>
    cases there : w.session.purgeProgress with
    | none => exact sound
    | some p =>
      dsimp only
      split
      · exact sound
      split
      · exact sound
      split
      · case isTrue draining =>
        cases made : service.captureDisposal w.session commandId readings with
        | error e => exact sound
        | ok found =>
          obtain ⟨collections, allSafe⟩ := found
          cases allSafe with
          | false => exact sound
          | true =>
            apply commits_keeps sound
            intro w' done
            exact sound.sealed there ((draining_iff sound there).mp draining)
              (emptied_of_capture made) done
      · case isFalse waiting =>
        cases made : service.observe w p commandId with
        | error e => exact sound
        | ok observation =>
          dsimp only
          obtain ⟨_, _, _, _, source, trash⟩ := observe_eq_ok made
          cases named : recoveryAction p observation with
          | error e => exact sound
          | ok action =>
            obtain ⟨_, _, _, _, _, step⟩ := recoveryAction_eq_ok.mp named
            rw [source, trash] at step
            dsimp only
            rw [← step]
            exact actOn_keeps created sound there
              (fun draining => waiting ((draining_iff sound there).mpr draining)) _ _ _

theorem validateRelativeDirectory_eq {path path' : String}
    (valid : validateRelativeDirectory path = .ok path') : path' = path := by
  obtain ⟨_, rest⟩ := then_eq_ok.mp valid
  obtain ⟨_, rest⟩ := then_eq_ok.mp rest
  obtain ⟨_, rest⟩ := then_eq_ok.mp rest
  injection rest with same
  exact same.symm

structure Begun (service : Service) (session : SessionRow) (command : DestroyCommand)
    (p : PurgeProgress) : Prop where
  identity : p.sessionId = session.sessionId ∧ p.agentId = session.agentId ∧
    p.rootIncarnation = session.rootIncarnation ∧ p.controlGeneration = session.generation + 1
  named : p.destroyCommandId = command.commandId
  source : p.sourceRelativeDirectory = session.relativeDirectory
  trash : p.trashRelativeDirectory = service.trashDirectory session.sessionId command.commandId
  marker : service.protocolMarkerHash = some p.expectedMarkerHash
  phase : p.phase = .draining
  blocking : p.blocking = none

variable {command : DestroyCommand}

theorem destroyChange_eq_ok (made : service.destroyChange command nowMs session = .ok change) :
    (session.state = .active ∨ session.state = .quarantined) ∧
      ∃ p, Begun service session command p ∧ change = {
        nowMs
        state := some .draining
        generation := some (session.generation + 1)
        destroyCommand := some (p.destroyCommandId, p.destroyCommandHash)
        purgeProgress := some p } := by
  unfold Service.destroyChange at made
  dsimp only at made
  obtain ⟨alive, made⟩ := then_eq_ok.mp made
  obtain ⟨_, made⟩ := then_eq_ok.mp made
  rw [need_eq_ok] at alive
  cases marker : service.protocolMarkerHash with
  | none =>
    rw [marker] at made
    cases made
  | some markerHash =>
    rw [marker] at made
    dsimp only at made
    obtain ⟨trash, valid, made⟩ := bind_eq_ok.mp made
    obtain ⟨source, valid', made⟩ := bind_eq_ok.mp made
    obtain ⟨destroyRef, _, made⟩ := bind_eq_ok.mp made
    cases made
    refine ⟨alive, service.destroyProgress command session markerHash source trash destroyRef, ?_, rfl⟩
    constructor
    · exact ⟨rfl, rfl, rfl, rfl⟩
    · rfl
    · exact validateRelativeDirectory_eq valid'
    · exact validateRelativeDirectory_eq valid
    · exact marker
    · rfl
    · rfl

theorem Sound.begun (created : Created service start) (sound : Sound service start floor w)
    (made : service.beginDestroy command nowMs w = .ok w') : Sound service start floor w' := by
  obtain ⟨change, changed, made⟩ := bind_eq_ok.mp made
  obtain ⟨row, updated, made⟩ := bind_eq_ok.mp made
  cases made
  obtain ⟨alive, p, begun, rfl⟩ := destroyChange_eq_ok changed
  have untold : w.session.purgeProgress = none := by
    have shape := sound.shape
    cases there : w.session.purgeProgress with
    | none => rfl
    | some p =>
      rw [SessionRow.Shape, there] at shape
      obtain ⟨destroyed, _⟩ := shape
      rcases alive with state | state <;> simp [SessionRow.destroyed, state] at destroyed
  have same := sound.untouched untold
  have away : start.files p.trashRelativeDirectory = none := by
    rw [begun.trash, sound.session]
    exact created.vacant command.commandId
  have low := sound.forward
  rw [World.rank, untold] at low
  apply sound.updated updated
  · rfl
  · rfl
  · rfl
  · constructor
    · exact (transitionSession_eq_ok.mp updated).1 _ rfl
    · exact begun.source.trans sound.directory
    · exact begun.marker
    · exact away
    · intro block blocking
      rw [begun.blocking] at blocking
      cases blocking
    · intro path _ _
      exact congrFun same path
    · rw [Stage, begun.phase]
      exact ⟨congrFun same _, (congrFun same _).trans away⟩
  · exact Nat.le_trans low (Nat.zero_le _)
  · intro _
    obtain ⟨_, _, rfl, _⟩ := transitionSession_eq_ok.mp updated
    apply sound.unsealed
    rw [World.rank, untold]
    exact Nat.zero_le 1

theorem destroy_keeps (created : Created service start) (sound : Sound service start floor w)
    (command : DestroyCommand) (nowMs : Nat) (readings : Readings) :
    Keeps service start floor (service.destroy command nowMs readings) w := by
  unfold Keeps Service.destroy Program.Safe
  dsimp only
  split
  · exact sound
  split
  · exact sound
  split
  · exact sound
  split
  · split
    · exact sound
    split
    · exact sound
    · exact sound
  · apply Program.Safe.bind
    · apply commits_keeps sound
      intro w' made
      exact sound.begun created made
    · intro begun w' sound'
      cases begun with
      | error e => exact sound'
      | ok row => exact advance_keeps created sound' false nowMs readings

section
variable (sound : Sound service start floor w)
include sound

theorem Sound.beside (session : w'.session = w.session)
    (files : w'.files = w.files) (folders : w'.folders = w.folders)
    (disposal : w'.disposal = w.disposal) (job : w.job = none → w'.job = none) :
    Sound service start floor w' := by
  cases there : w.session.purgeProgress with
  | some p =>
    apply sound.filed there session folders job
    · intro path _ _
      rw [files]
    · have stage := (sound.underway p there).stage
      unfold Stage Unmoved Moved Gone World.Sealed at stage ⊢
      rw [files, disposal]
      exact stage
  | none =>
    have reached := sound.forward
    constructor
    · rw [session]
      exact sound.session
    · rw [session]
      exact sound.directory
    · rw [session]
      exact sound.seq
    · rw [session]
      exact sound.checked
    · rw [session]
      exact sound.shape
    · rw [folders, sound.folders]
    · intro _
      rw [files]
      exact sound.untouched there
    · intro p some
      rw [session, there] at some
      cases some
    · rw [World.rank, session]
      exact reached
    · intro early
      rw [World.rank, session] at early
      rw [session]
      exact ⟨job (sound.unsealed early).1, (sound.unsealed early).2⟩

theorem Sound.acked {job : JobRow} {state : JobState} {nextAtMs : Option Nat} (made : service.acked job state nextAtMs w = .ok w') :
    Sound service start floor w' := by
  unfold Service.acked at made
  split at made
  · cases made
  · case h_2 stored there =>
    obtain ⟨_, _, made⟩ := bind_eq_ok.mp made
    cases made
    have some : ¬ w.job = none := by
      rw [there]
      exact Option.some_ne_none _
    exact sound.beside rfl rfl rfl rfl fun none => absurd none some

theorem Sound.requeued
    (made : service.requeued nowMs w = .ok w') : Sound service start floor w' := by
  unfold Service.requeued at made
  split at made
  · cases made
    exact sound
  split at made
  · cases made
    exact sound
  case h_2 job there =>
    split at made
    · cases made
      exact sound
    dsimp only at made
    split at made
    · cases made
      exact sound
    · obtain ⟨_, _, made⟩ := bind_eq_ok.mp made
      cases made
      have some : ¬ w.job = none := by
        rw [there]
        exact Option.some_ne_none _
      exact sound.beside rfl rfl rfl rfl fun none => absurd none some

theorem ack_keeps (job : JobRow) (state : JobState)
    (nextAtMs : Option Nat) :
    Keeps service start floor (commits (service.acked job state nextAtMs)) w := by
  apply commits_keeps sound
  intro w' made
  exact sound.acked made

end

section
variable (created : Created service start)
include created

theorem processPurgeJob_keeps
    (sound : Sound service start floor w) (job : JobRow) (nowMs : Nat) (readings : Readings) :
    Keeps service start floor (service.processPurgeJob job nowMs readings) w := by
  unfold Keeps Service.processPurgeJob Program.Safe
  dsimp only
  split
  · exact ack_keeps sound job .cancelled none
  · apply Program.Safe.bind (advance_keeps created sound false nowMs readings)
    intro advanced w' sound'
    cases advanced with
    | error raised =>
      cases raised with
      | arp code =>
        dsimp only
        split
        · exact ack_keeps sound' job .pending _
        · exact ack_keeps sound' job .blocked none
      | integrity message => exact sound'
    | ok after =>
      dsimp only
      split
      · exact ack_keeps sound' job .done none
      split
      · exact ack_keeps sound' job .pending _
      split
      · exact ack_keeps sound' job .pending _
      · exact ack_keeps sound' job .blocked none

theorem resumeDestroy_keeps
    (sound : Sound service start floor w) (command : ResumeCommand) (nowMs : Nat)
    (readings : Readings) :
    Keeps service start floor (service.resumeDestroy command nowMs readings) w := by
  unfold Keeps Service.resumeDestroy Program.Safe
  dsimp only
  split
  · exact sound
  split
  · exact sound
  split
  · exact sound
  split
  · exact sound
  split
  · exact sound
  · have sound' : Sound service start floor
        { w with resumed := command.commandId :: w.resumed } := sound.beside rfl rfl rfl rfl id
    constructor
    · exact sound
    · apply Program.Safe.bind (advance_keeps created sound' true nowMs readings)
      intro advanced w' later
      cases advanced with
      | error e => exact later
      | ok row =>
        apply commits_keeps later
        intro w'' made
        exact later.requeued made

theorem call_keeps (sound : Sound service start floor w)
    (call : Call) : Keeps service start floor (call.steps service) w := by
  cases call with
  | destroy command nowMs readings => exact destroy_keeps created sound command nowMs readings
  | advance nowMs readings => exact advance_keeps created sound false nowMs readings
  | processPurgeJob job nowMs readings =>
    exact processPurgeJob_keeps created sound job nowMs readings
  | resumeDestroy command nowMs readings =>
    exact resumeDestroy_keeps created sound command nowMs readings
  | coordinates change =>
    refine ⟨sound, sound.beside rfl rfl rfl rfl ?_⟩
    intro none
    rw [none]
    rfl

end

end Sessions
