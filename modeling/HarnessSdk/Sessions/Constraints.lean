import HarnessSdk.Sessions.Completion
import HarnessSdk.Sessions.Ledger
import HarnessSdk.Library.Quotas

/-!
Which updates the tables refuse: none of a session's, and of a job's only those that answer a claim
or put a job off past what the row allows.
-/
namespace Sessions
open Checks PyDict

/-! ## Transactions that no table refuses -/

/-- The transaction is not refused by a table, and if it commits this holds. -/
def Admits {α : Type} (x : Except Failure α) (holds : α → Prop) : Prop :=
  match x with
  | .ok a => holds a
  | .error (.arp _) => True
  | .error (.refused _) => False

section
variable {α β : Type} {x : Except Failure α} {holds : α → Prop} {then' : β → Prop}

theorem Admits.bind {f : α → Except Failure β} (first : Admits x holds)
    (next : ∀ a, holds a → Admits (f a) then') : Admits (x >>= f) then' := by
  cases x with
  | ok a => exact next a first
  | error failure =>
    cases failure with
    | arp code => trivial
    | refused update => exact first.elim

theorem Admits.unrefused (first : Admits x holds) (update : Update) :
    x ≠ .error (.refused update) := by
  rintro rfl
  exact first

theorem Admits.ok {a : α} (first : Admits x holds) (done : x = .ok a) : holds a := by
  rw [done] at first
  exact first

theorem admits_checked (y : Except Raised α) : Admits (checked y) (fun a => y = .ok a) := by
  cases y with
  | ok a => rfl
  | error e => cases e <;> trivial

theorem admits_require (p : Prop) [Decidable p] (code : String) :
    Admits (require p (.arp code)) (fun _ => p) := by
  unfold require
  split
  · assumption
  · trivial

end

/-! ## Rows -/

structure RowSound (row : SessionRow) : Prop where
  checked : row.Checked
  shape : row.Shape
  valid : ∀ p ∈ row.purgeProgress, validateProgress p = .ok ()
  seq : row.journalSeqFrom = 1
  unsealed : row.state ≠ .purging → row.state ≠ .purged → row.sealedHighwater = none
  undestroyed : SessionRow.kept row.state → row.destroyCommandId = none

variable {row : SessionRow} {p : PurgeProgress} {service : Service} {ledger : Ledger}

theorem RowSound.unprogressed (sound : RowSound row) (kept : SessionRow.kept row.state) :
    row.purgeProgress = none := by
  cases there : row.purgeProgress with
  | none => rfl
  | some p =>
    have shape := sound.shape
    rw [SessionRow.Shape, there] at shape
    rcases kept with state | state | state <;> simp [SessionRow.destroyed, state] at shape

theorem RowSound.set (sound : RowSound row) {change : SessionChange}
    (valid : ∀ p ∈ change.purgeProgress, validateProgress p = .ok ())
    (follows : row.Follows (change.set row))
    (unsealed : (change.set row).state ≠ .purging → (change.set row).state ≠ .purged →
      row.state ≠ .purging ∧ row.state ≠ .purged ∧ change.sealedHighwater = none) :
    RowSound (change.set row) := by
  constructor
  · exact follows.checked
  · exact follows.shape
  · intro p there
    change p ∈ change.purgeProgress.or row.purgeProgress at there
    cases set : change.purgeProgress with
    | none =>
      rw [set] at there
      exact sound.valid p there
    | some p' =>
      rw [set] at there valid
      exact valid p there
  · exact sound.seq
  · intro purging purged
    obtain ⟨was, was', none⟩ := unsealed purging purged
    change change.sealedHighwater.or row.sealedHighwater = _
    rw [none]
    exact sound.unsealed was was'
  · exact follows.transition.2.2.2.2.1

theorem kept_follows (sound : RowSound row) {state : SessionState} {generation : Option Nat}
    (nowMs : Nat) (kept : SessionRow.kept row.state) (kept' : SessionRow.kept state)
    (follows : SessionRow.follows row.state state = true) (other : state ≠ row.state)
    (raised : generation = some (row.generation + 1) ∨
      generation = none ∧ state ≠ .quarantined) :
    row.Follows (SessionChange.set { nowMs, state := some state, generation } row) := by
  have free := sound.undestroyed kept
  have blank := sound.unprogressed kept
  obtain ⟨positive, _, seq, highwater, _, named, _⟩ := sound.checked
  have rises : row.generation ≤ generation.getD row.generation := by
    rcases raised with rfl | ⟨rfl, _⟩
    · exact Nat.le_succ _
    · exact Nat.le_refl _
  constructor
  · have none : (SessionChange.set { nowMs, state := some state, generation } row).purgeProgress
        = none := blank
    rw [SessionRow.Shape, none]
    change ¬ SessionRow.destroyed state
    rcases kept' with rfl | rfl | rfl <;> decide
  · intro p there
    rw [blank] at there
    cases there
  · refine ⟨rfl, rises, ?_, ?_, ?_, follows, ?_⟩
    · rcases kept with state | state | state <;> simp [state]
    · intro destroyed
      exact absurd free destroyed
    · intro _
      exact free
    · intro quarantined _
      rcases raised with rfl | ⟨rfl, never⟩
      · rfl
      · change state = .draining ∨ state = .quarantined at quarantined
        rcases kept' with rfl | rfl | rfl <;> simp at quarantined never
  · constructor
    · intro _
      rfl
    · intro same
      exact absurd same other
  · refine ⟨Nat.lt_of_lt_of_le positive rises, Nat.succ_pos _, seq, highwater,
      Nat.le_max_right _ _, named, ?_⟩
    intro purging
    change state = .purging ∨ state = .purged at purging
    rcases kept' with rfl | rfl | rfl <;> simp at purging

theorem begun_follows (sound : RowSound row) {command : DestroyCommand} (nowMs : Nat)
    (alive : row.state = .active ∨ row.state = .quarantined)
    (begun : Begun service row command p) :
    row.Follows (SessionChange.set {
      nowMs
      state := some .draining
      generation := some (row.generation + 1)
      destroyCommand := some (p.destroyCommandId, p.destroyCommandHash)
      purgeProgress := some p } row) := by
  have kept : SessionRow.kept row.state := by
    rcases alive with state | state <;> simp [SessionRow.kept, state]
  have free := sound.undestroyed kept
  have blank := sound.unprogressed kept
  obtain ⟨positive, _, seq, highwater, _, _, _⟩ := sound.checked
  obtain ⟨session, agent, root, generation⟩ := begun.identity
  constructor
  · refine ⟨Or.inl rfl, rfl, rfl, session, agent, root, generation, ?_, ?_⟩
    · rw [begun.phase]
      exact List.mem_singleton.mpr rfl
    · intro purged
      cases purged
  · intro q there
    rw [blank] at there
    cases there
  · refine ⟨rfl, Nat.le_succ _, ?_, ?_, ?_, ?_, ?_⟩
    · rcases alive with state | state <;> simp [state]
    · intro destroyed
      exact absurd free destroyed
    · intro kept
      change SessionRow.kept .draining at kept
      exact absurd kept (by decide)
    · change SessionRow.follows row.state .draining = true
      rcases alive with state | state <;> rw [state] <;> rfl
    · intro _ _
      rfl
  · constructor
    · intro _
      rfl
    · intro same
      change SessionState.draining = row.state at same
      rcases alive with state | state <;> simp [state] at same
  · refine ⟨Nat.succ_pos _, Nat.succ_pos _, seq, highwater, Nat.le_max_right _ _, ?_, ?_⟩
    · exact ⟨fun none => absurd none (Option.some_ne_none _),
        fun none => absurd none (Option.some_ne_none _)⟩
    · intro purging
      change SessionState.draining = .purging ∨ SessionState.draining = .purged at purging
      simp at purging

def RecoveryAction.phase : RecoveryAction → Option Phase
  | .renameExact | .recordRecoveredRename => some .renamePending
  | .deleteExact | .recordDeletionAbsence => some .renamed
  | .finalizeSameDestroy => some .deleteConfirmed
  | .waitDisposalProof | .block _ => none

theorem phase_of_recoveryStep (phase : Phase) (source trash : PathState) :
    ∀ named ∈ (recoveryStep phase source trash).phase, phase = named := by
  cases phase <;> cases source <;> cases trash <;> decide

theorem decided_follows (sound : RowSound row) (there : row.purgeProgress = some p)
    (purging : row.state = .purging) {commandId : String} {inspection : Receipt} {nowMs : Nat}
    {io : Option IoCode} {action : RecoveryAction}
    (phased : ∀ named ∈ action.phase, p.phase = named) {after : PurgeProgress}
    {state : Option SessionState}
    (made : decided row p commandId inspection nowMs io action = .ok (after, state)) :
    row.Follows (SessionChange.set { nowMs, state, purgeProgress := some after } row) := by
  have valid := sound.valid p there
  have waiting : p.phase ≠ .draining := by
    have shape := sound.shape
    rw [SessionRow.Shape, there, purging] at shape
    obtain ⟨_, _, _, _, _, _, _, phase, _⟩ := shape
    intro draining
    rw [draining] at phase
    exact absurd phase (by decide)
  have blocks : ∀ code, row.Follows (SessionChange.set {
      nowMs
      purgeProgress := some (Service.blockedProgress p inspection code nowMs) } row) := by
    intro code
    exact (Receipted.same valid).recorded sound.checked sound.shape there purging _ _ nowMs
      (Or.inl ⟨rfl, waiting⟩)
  have renames : ∀ receipt, p.phase = .renamePending → row.Follows (SessionChange.set {
      nowMs
      purgeProgress := some (p.stepped .renamed (some receipt) p.deleteReceiptRef inspection) }
        row) := by
    intro receipt phase
    exact (Receipted.renamedNow valid phase receipt).follows sound.checked sound.shape there
      purging inspection nowMs (Or.inl ⟨rfl, by decide⟩)
  have deletes : ∀ receipt, p.phase = .renamed → row.Follows (SessionChange.set {
      nowMs
      purgeProgress := some (p.stepped .deleteConfirmed p.renameReceiptRef (some receipt)
        inspection) } row) := by
    intro receipt phase
    exact (Receipted.deletedNow valid phase receipt).follows sound.checked sound.shape there
      purging inspection nowMs (Or.inl ⟨rfl, by decide⟩)
  cases action with
  | waitDisposalProof => cases made
  | renameExact =>
    cases io with
    | some io =>
      cases made
      exact blocks io.block
    | none =>
      obtain ⟨receipt, _, done⟩ := bind_eq_ok.mp made
      cases done
      exact renames receipt (phased _ rfl)
  | recordRecoveredRename =>
    obtain ⟨receipt, _, done⟩ := bind_eq_ok.mp made
    cases done
    exact renames receipt (phased _ rfl)
  | deleteExact =>
    cases io with
    | some io =>
      cases made
      exact blocks io.block
    | none =>
      obtain ⟨receipt, _, done⟩ := bind_eq_ok.mp made
      cases done
      exact deletes receipt (phased _ rfl)
  | recordDeletionAbsence =>
    obtain ⟨receipt, _, done⟩ := bind_eq_ok.mp made
    cases done
    exact deletes receipt (phased _ rfl)
  | finalizeSameDestroy =>
    cases made
    exact (Receipted.same valid).follows sound.checked sound.shape there purging inspection nowMs
      (Or.inr ⟨rfl, phased _ rfl⟩)
  | block code =>
    cases made
    exact blocks code

/-! ## The tables -/

namespace Ledger

/-- What the tables keep whatever is written, and what becomes of the rows that were claimed: each
is the stored one, or the stored one has another version. -/
structure Sound (ledger : Ledger) : Prop where
  sessionKeys : (keys ledger.sessions).Nodup
  sessions : ∀ id row, get? ledger.sessions id = some row → row.sessionId = id ∧ RowSound row
  destroys : ∀ id row, get? ledger.sessions id = some row → ∀ commandId ∈ row.destroyCommandId,
    get? ledger.destroys commandId = some id
  jobKeys : (keys ledger.jobs).Nodup
  jobs : ∀ key job, get? ledger.jobs key = some job → job.key = key ∧ job.Checked
  claimed : ∀ held ∈ ledger.claimed, held.state = .leased ∧ held.ownerId ≠ none ∧
    ∃ stored, get? ledger.jobs held.key = some stored ∧
      (held = stored ∨ held.rowVersion < stored.rowVersion)

def empty : Ledger := ⟨[], [], [], []⟩

theorem empty_sound : empty.Sound := by
  constructor
  · exact List.nodup_nil
  · intro id row there
    cases there
  · intro id row there
    cases there
  · exact List.nodup_nil
  · intro key job there
    cases there
  · intro held inside
    cases inside

section
variable (sound : ledger.Sound)
include sound

theorem Sound.read {id : String} {version : Nat} :
    Admits (ledger.session id version) (fun row =>
      get? ledger.sessions row.sessionId = some row ∧ RowSound row) := by
  unfold session
  cases there : get? ledger.sessions id with
  | none => trivial
  | some row =>
    obtain ⟨same, rowSound⟩ := sound.sessions id row there
    dsimp only
    split
    · exact ⟨same ▸ there, rowSound⟩
    · trivial

theorem Sound.transition (rowSound : RowSound row) {change : SessionChange} (follows : row.Follows (change.set row))
    (unsealed : (change.set row).state ≠ .purging → (change.set row).state ≠ .purged →
      row.state ≠ .purging ∧ row.state ≠ .purged ∧ change.sealedHighwater = none)
    (owned : ∀ commandId ∈ (change.set row).destroyCommandId,
      get? ledger.destroys commandId = some row.sessionId) :
    Admits (ledger.transition row change) (fun result =>
      result.1.Sound ∧ result.2 = change.set row ∧ RowSound (change.set row)) := by
  unfold Ledger.transition
  apply (admits_checked change.progressValid).bind
  intro _ progressValid
  have valid : ∀ p ∈ change.purgeProgress, validateProgress p = .ok () := by
    intro p there
    rw [SessionChange.progressValid, there] at progressValid
    exact progressValid
  have sound' := rowSound.set valid follows unsealed
  have admitted : (Update.session row (change.set row)).Admitted ledger := by
    refine ⟨⟨follows.shape, follows.progress⟩, follows.transition, follows.identity,
      follows.checked, ?_⟩
    intro entry inside apart
    by_contra taken
    obtain ⟨some, same⟩ := not_or.mp taken
    obtain ⟨commandId, named⟩ := Option.ne_none_iff_exists'.mp some
    have there := get?_eq_some_of_mem sound.sessionKeys inside
    have other := sound.destroys _ _ there commandId ((not_not.mp same).trans named)
    rw [owned commandId named] at other
    exact apart (Option.some.inj other).symm
  have written : ledger.write (.session row (change.set row)) =
      .ok { ledger with sessions := set ledger.sessions row.sessionId (change.set row) } :=
    if_pos admitted
  rw [written]
  exact ⟨{ sound with
    sessionKeys := keys_set_nodup _ _ sound.sessionKeys
    sessions := every_set sound.sessions ⟨rfl, sound'⟩
    destroys := every_set sound.destroys owned }, rfl, sound'⟩

theorem Sound.owned (found : get? ledger.sessions row.sessionId = some row)
    {new : SessionRow} (same : new.destroyCommandId = row.destroyCommandId) :
    ∀ commandId ∈ new.destroyCommandId, get? ledger.destroys commandId = some row.sessionId := by
  intro commandId named
  rw [same] at named
  exact sound.destroys _ _ found commandId named

theorem Sound.create
    (sessionId agentId rootIncarnation relativeDirectory : String) (nowMs : Nat) :
    (ledger.create sessionId agentId rootIncarnation relativeDirectory nowMs).Sound := by
  unfold Ledger.create
  split
  · exact sound
  refine { sound with
    sessionKeys := keys_set_nodup _ _ sound.sessionKeys
    sessions := every_set sound.sessions ⟨rfl, ?_⟩
    destroys := every_set sound.destroys nofun }
  constructor
  · simp [SessionRow.Checked]
  · simp [SessionRow.Shape, SessionRow.destroyed]
  · intro p there
    cases there
  · rfl
  · intro _ _
    rfl
  · intro _
    rfl

theorem Sound.activate (sessionId : String) (version nowMs : Nat) :
    Admits (ledger.activate sessionId version nowMs) Sound := by
  apply sound.read.bind
  rintro row ⟨found, rowSound⟩
  split
  · rename_i creating
    have kept : SessionRow.kept row.state := by simp [SessionRow.kept, creating]
    have follows := @kept_follows _ rowSound _ none nowMs kept
      (show SessionRow.kept .active by decide) (by rw [creating]; rfl) (by rw [creating]; decide)
      (Or.inr ⟨rfl, by decide⟩)
    have written := sound.transition rowSound follows
      (by simp [creating]) (sound.owned found rfl)
    exact written.bind fun _ done => done.1
  · exact sound

end

/-! ### Jobs -/

theorem Sound.wrote {stored new : JobRow} (sound : ledger.Sound)
    (found : get? ledger.jobs stored.key = some stored) (same : new.key = stored.key)
    (checked : new.Checked) (later : stored.rowVersion < new.rowVersion) :
    Sound { ledger with jobs := set ledger.jobs new.key new } := by
  refine { sound with
    jobKeys := keys_set_nodup _ _ sound.jobKeys
    jobs := every_set sound.jobs ⟨rfl, checked⟩
    claimed := ?_ }
  intro held inside
  obtain ⟨leased, owned, stored', there, versions⟩ := sound.claimed held inside
  refine ⟨leased, owned, ?_⟩
  by_cases here : held.key = new.key
  · refine ⟨new, ?_, Or.inr ?_⟩
    · rw [here]
      exact get?_set_self _ _ _
    · rw [here, same, found] at there
      cases there
      rcases versions with rfl | less
      · exact later
      · exact Nat.lt_trans less later
  · refine ⟨stored', ?_, versions⟩
    rw [get?_set_ne _ _ (Ne.symm here)]
    exact there

end Ledger

/-- The row can go to this state, and be put off until then. -/
def JobRow.Takes (row : JobRow) (state : JobState) (nextAtMs : Option Nat) : Prop :=
  row.state ≠ .done ∧ row.state ≠ .cancelled ∧ JobRow.follows row.state state = true ∧
    ∀ time ∈ nextAtMs, time ≤ row.deadlineMs

variable {stored job : JobRow} {state : JobState} {result : Option Receipt}
  {nextAtMs : Option Nat} {ownerId : String}

theorem completed_admitted (checked : stored.Checked) (unleased : state ≠ .leased)
    (reasoned : state = .done → result ≠ none) :
    (Update.job stored (stored.completed state result nextAtMs)).Admitted ledger ↔
      stored.Takes state nextAtMs := by
  obtain ⟨positive, versioned, onTime, _, _⟩ := checked
  constructor
  · rintro ⟨⟨_, _, undone, uncancelled, _, _, _, _, _, follows⟩, _, _, due, _⟩
    refine ⟨undone, uncancelled, follows, ?_⟩
    intro time same
    cases same
    exact due
  · rintro ⟨undone, uncancelled, follows, due⟩
    refine ⟨⟨rfl, Nat.le_refl _, undone, uncancelled, rfl, rfl, rfl, rfl, rfl, follows⟩, positive,
      Nat.succ_pos _, ?_, ?_, reasoned⟩
    · change nextAtMs.getD stored.nextAtMs ≤ stored.deadlineMs
      cases nextAtMs with
      | none => exact onTime
      | some time => exact due time rfl
    · constructor
      · intro leased
        exact absurd leased unleased
      · intro owned
        exact absurd rfl owned.1

namespace Ledger

theorem amendJob_of_stored {change : JobRow → JobRow}
    (found : get? ledger.jobs job.key = some stored) (same : stored.rowVersion = job.rowVersion) :
    ledger.amendJob job change =
      if (Update.job stored (change stored)).Admitted ledger then
        .ok (some ({ ledger with jobs := set ledger.jobs (change stored).key (change stored) },
          change stored))
      else .error (.refused (.job stored (change stored))) := by
  unfold amendJob write
  rw [found]
  dsimp only
  rw [if_pos same]
  by_cases admitted : (Update.job stored (change stored)).Admitted ledger
  · rw [if_pos admitted, if_pos admitted]
  · rw [if_neg admitted, if_neg admitted]

theorem complete_of_stored (found : get? ledger.jobs job.key = some stored)
    (unleased : state ≠ .leased) (reasoned : state = .done → result ≠ none) :
    ledger.complete job state ownerId result nextAtMs =
      if (job.state = .leased → job.ownerId = some ownerId) ∧
          stored.rowVersion = job.rowVersion then
        if (Update.job stored (stored.completed state result nextAtMs)).Admitted ledger then
          .ok { ledger with
            jobs := set ledger.jobs stored.key (stored.completed state result nextAtMs) }
        else .error (.refused (.job stored (stored.completed state result nextAtMs)))
      else .error (.arp "JOB_STALE") := by
  unfold complete
  rw [require, if_pos unleased, require, if_pos reasoned, require]
  by_cases owned : job.state = .leased → job.ownerId = some ownerId
  · rw [if_pos owned]
    by_cases same : stored.rowVersion = job.rowVersion
    · rw [if_pos ⟨owned, same⟩]
      change (ledger.amendJob job _ >>= _) = _
      rw [amendJob_of_stored found same]
      split <;> rfl
    · rw [if_neg fun both => same both.2]
      change (ledger.amendJob job _ >>= _) = _
      have missed : ledger.amendJob job (·.completed state result nextAtMs) = .ok none := by
        unfold amendJob
        rw [found]
        exact if_neg same
      rw [missed]
      rfl
  · rw [if_neg owned, if_neg fun both => owned both.1]
    rfl

theorem complete_refused_iff (sound : ledger.Sound)
    (found : get? ledger.jobs job.key = some stored) (unleased : state ≠ .leased)
    (reasoned : state = .done → result ≠ none) :
    (∃ update, ledger.complete job state ownerId result nextAtMs = .error (.refused update)) ↔
      (job.state = .leased → job.ownerId = some ownerId) ∧ stored.rowVersion = job.rowVersion ∧
        ¬ stored.Takes state nextAtMs := by
  rw [complete_of_stored found unleased reasoned, ← and_assoc,
    ← @completed_admitted ledger _ _ _ _ (sound.jobs _ _ found).2 unleased reasoned]
  split
  · rename_i both
    split
    · rename_i admitted
      simp [admitted]
    · rename_i refused
      simpa [both.2, refused] using both.1
  · rename_i stale
    simp [stale]

theorem Sound.complete (sound : ledger.Sound) (found : get? ledger.jobs job.key = some stored)
    (unleased : state ≠ .leased) (reasoned : state = .done → result ≠ none) {after : Ledger}
    (done : ledger.complete job state ownerId result nextAtMs = .ok after) :
    after.Sound ∧ after.claimed = ledger.claimed ∧ after.jobs = set ledger.jobs stored.key
      (stored.completed state result nextAtMs) := by
  rw [complete_of_stored found unleased reasoned] at done
  obtain ⟨same, _⟩ := sound.jobs _ _ found
  split at done
  · split at done
    · rename_i admitted
      cases done
      have there : get? ledger.jobs stored.key = some stored := by rw [same, found]
      refine ⟨?_, rfl, rfl⟩
      exact @Sound.wrote ledger stored (stored.completed state result nextAtMs) sound there rfl
        admitted.2 (Nat.lt_succ_self _)
    · cases done
  · cases done

theorem Sound.completes (sound : ledger.Sound) (found : get? ledger.jobs job.key = some stored)
    (unleased : state ≠ .leased) (reasoned : state = .done → result ≠ none)
    (takes : stored.Takes state nextAtMs) :
    Admits (ledger.complete job state ownerId result nextAtMs) (fun after =>
      after.Sound ∧ after.claimed = ledger.claimed ∧ after.jobs = set ledger.jobs stored.key
        (stored.completed state result nextAtMs)) := by
  cases completed : ledger.complete job state ownerId result nextAtMs with
  | ok after => exact sound.complete found unleased reasoned completed
  | error failure =>
    cases failure with
    | arp code => trivial
    | refused update =>
      obtain ⟨_, _, untaken⟩ :=
        (complete_refused_iff sound found unleased reasoned).mp ⟨update, completed⟩
      exact untaken takes

section
variable (sound : ledger.Sound)
include sound

theorem Sound.rows :
    ((ledger.jobs.map (·.2)).map JobRow.key).Nodup ∧
      ∀ job ∈ ledger.jobs.map (·.2), get? ledger.jobs job.key = some job := by
  have stored : ∀ entry ∈ ledger.jobs, get? ledger.jobs entry.1 = some entry.2 := by
    intro entry inside
    exact get?_eq_some_of_mem sound.jobKeys inside
  have named : (ledger.jobs.map (·.2)).map JobRow.key = keys ledger.jobs := by
    rw [List.map_map]
    apply List.map_congr_left
    intro entry inside
    exact (sound.jobs _ _ (stored entry inside)).1
  constructor
  · rw [named]
    exact sound.jobKeys
  · intro job inside
    obtain ⟨entry, there, rfl⟩ := List.mem_map.mp inside
    rw [(sound.jobs _ _ (stored entry there)).1]
    exact stored entry there

theorem Sound.cancelEach (ownerId : String) {rows : List JobRow}
    (distinct : (rows.map JobRow.key).Nodup)
    (queued : ∀ job ∈ rows, get? ledger.jobs job.key = some job ∧
      (job.state = .pending ∨ job.state = .blocked)) :
    Admits (cancelEach ownerId rows ledger) Sound := by
  induction rows generalizing ledger with
  | nil => exact sound
  | cons job rest ih =>
    obtain ⟨found, state⟩ := queued job List.mem_cons_self
    rw [List.map_cons, List.nodup_cons] at distinct
    have takes : job.Takes .cancelled none := by
      rcases state with state | state <;> simp [JobRow.Takes, JobRow.follows, state]
    have done := @Sound.completes ledger job job .cancelled (some ⟨"job", job.jobId⟩) none ownerId
      sound found (by decide) (by simp) takes
    have read : ledger.current job = job := by rw [current, found, Option.getD_some]
    rw [Ledger.cancelEach, finish, read]
    apply done.bind
    rintro after ⟨sound', _, jobs⟩
    apply ih sound' distinct.2
    intro other inside
    obtain ⟨there, state'⟩ := queued other (List.mem_cons_of_mem _ inside)
    have apart : job.key ≠ other.key := by
      intro same
      exact distinct.1 (same ▸ List.mem_map_of_mem inside)
    rw [jobs, get?_set_ne _ _ apart]
    exact ⟨there, state'⟩

theorem Sound.cancelQueued (ownerId sessionId : String) :
    Admits (ledger.cancelQueued ownerId sessionId) Sound := by
  obtain ⟨distinct, stored⟩ := sound.rows
  apply sound.cancelEach
  · exact distinct.sublist (List.filter_sublist.map _)
  · intro job inside
    obtain ⟨there, queued⟩ := List.mem_filter.mp inside
    refine ⟨stored job there, ?_⟩
    rw [Ledger.queued] at queued
    simpa using (Bool.and_eq_true_iff.mp queued).2

theorem Sound.putJob {fresh : JobRow} (checked : fresh.Checked) :
    Admits (ledger.putJob fresh) Sound := by
  unfold Ledger.putJob
  split
  · split
    · exact sound
    · trivial
  · rename_i missing
    refine { sound with
      jobKeys := keys_set_nodup _ _ sound.jobKeys
      jobs := every_set sound.jobs ⟨rfl, checked⟩
      claimed := ?_ }
    intro held inside
    obtain ⟨leased, owned, stored, there, versions⟩ := sound.claimed held inside
    refine ⟨leased, owned, stored, ?_, versions⟩
    have apart : fresh.key ≠ held.key := by
      intro same
      rw [same, there] at missing
      cases missing
    rw [get?_set_ne _ _ apart]
    exact there

theorem Sound.enqueueEach (numbered : 1 ≤ row.generation) (nowMs : Nat)
    (groups : List (String × String)) :
    Admits (enqueueEach service row nowMs groups ledger) Sound := by
  induction groups generalizing ledger with
  | nil => exact sound
  | cons group rest ih =>
    rw [Ledger.enqueueEach]
    split
    · exact ih sound
    · have checked : (indexJob service row nowMs group).Checked := by
        refine ⟨numbered, Nat.one_pos, Nat.le_add_right _ _, ?_, ?_⟩
        · simp [indexJob]
        · simp [indexJob]
      exact (sound.putJob checked).bind fun after sound' => ih sound'

end

/-! ### Claims -/

theorem Sound.hold (sound : ledger.Sound) {held : JobRow} (leased : held.state = .leased)
    (owned : held.ownerId ≠ none) (there : get? ledger.jobs held.key = some held) :
    Sound { ledger with claimed := ledger.claimed ++ [held] } := by
  refine { sound with claimed := ?_ }
  intro other inside
  rcases mem_snoc.mp inside with before | rfl
  · exact sound.claimed other before
  · exact ⟨leased, owned, held, there, Or.inl rfl⟩

structure Rewrites (ledger after : Ledger) (key : JobKey) : Prop where
  sound : ∀ claims, Sound { ledger with claimed := claims } → Sound { after with claimed := claims }
  claimed : after.claimed = ledger.claimed
  elsewhere : ∀ other, other ≠ key → get? after.jobs other = get? ledger.jobs other

theorem amendJob_takes {change : JobRow → JobRow} (found : get? ledger.jobs job.key = some job)
    (same : (change job).key = job.key)
    (admitted : JobRow.Transition job (change job) ∧ (change job).Checked) :
    ∃ after, ledger.amendJob job change = .ok (some (after, change job)) ∧
      Rewrites ledger after job.key ∧ get? after.jobs (change job).key = some (change job) := by
  refine ⟨{ ledger with jobs := set ledger.jobs (change job).key (change job) }, ?_, ?_, ?_⟩
  · rw [amendJob_of_stored found rfl]
    exact if_pos admitted
  · constructor
    · intro claims sound
      apply @Sound.wrote { ledger with claimed := claims } job (change job) sound found same
        admitted.2
      rw [admitted.1.1]
      exact Nat.lt_succ_self _
    · rfl
    · intro other apart
      rw [← same] at apart
      exact get?_set_ne _ _ (Ne.symm apart)
  · exact get?_set_self _ _ _

theorem Rewrites.trans {first second : Ledger} {key : JobKey}
    (before : Rewrites ledger first key) (later : Rewrites first second key) :
    Rewrites ledger second key := by
  constructor
  · intro claims sound
    exact later.sound claims (before.sound claims sound)
  · exact later.claimed.trans before.claimed
  · intro other apart
    exact (later.elsewhere other apart).trans (before.elsewhere other apart)

theorem leasedTo_admitted (checked : job.Checked) (pending : job.state = .pending)
    (ownerId : String) (leaseUntilMs : Nat) :
    JobRow.Transition job (job.leasedTo ownerId leaseUntilMs) ∧
      (job.leasedTo ownerId leaseUntilMs).Checked := by
  obtain ⟨positive, _, onTime, _, _⟩ := checked
  constructor
  · refine ⟨rfl, Nat.le_succ _, ?_, ?_, rfl, rfl, rfl, rfl, rfl, ?_⟩
    · simp [pending]
    · simp [pending]
    · rw [pending]
      rfl
  · refine ⟨positive, Nat.succ_pos _, onTime, ?_, ?_⟩
    · simp [JobRow.leasedTo]
    · intro done
      cases done

theorem released_admitted (checked : job.Checked) (leased : job.state = .leased) :
    JobRow.Transition job job.released ∧ job.released.Checked := by
  obtain ⟨positive, _, onTime, _, _⟩ := checked
  constructor
  · refine ⟨rfl, Nat.le_refl _, ?_, ?_, rfl, rfl, rfl, rfl, rfl, ?_⟩
    · simp [leased]
    · simp [leased]
    · rw [leased]
      rfl
  · refine ⟨positive, Nat.succ_pos _, onTime, ?_, ?_⟩
    · simp [JobRow.released]
    · intro done
      cases done

end Ledger

section
variable {after : Ledger} {held : JobRow} {rows taken claimed : List JobRow} {pass : Pass}
  {met : List String}

structure Leases (pass : Pass) (job held : JobRow) : Prop where
  key : held.key = job.key
  state : held.state = .leased
  ownerId : held.ownerId = some pass.ownerId
  version : job.rowVersion < held.rowVersion
  attempts : held.attempts = job.attempts + 1

namespace Ledger

theorem claimOne_leases (pass : Pass) (checked : job.Checked)
    (found : get? ledger.jobs job.key = some job)
    (due : job.state = .pending ∨ job.state = .leased) :
    ∃ after held, ledger.claimOne pass job = .ok (after, some held) ∧
      Rewrites ledger after job.key ∧ Leases pass job held ∧
      get? after.jobs held.key = some held := by
  have leases : ∀ {ledger : Ledger} {job : JobRow}, job.Checked →
      get? ledger.jobs job.key = some job → job.state = .pending →
      ∃ after held, ledger.amendJob job (JobRow.leasedTo pass.ownerId (pass.nowMs + leaseMs)) =
          .ok (some (after, held)) ∧
        Rewrites ledger after job.key ∧ Leases pass job held ∧
        get? after.jobs held.key = some held := by
    intro ledger job checked found pending
    obtain ⟨after, leased, rewrites, there⟩ := @amendJob_takes _ _
      (JobRow.leasedTo pass.ownerId (pass.nowMs + leaseMs)) found rfl
      (leasedTo_admitted checked pending _ _)
    exact ⟨after, _, leased, rewrites, ⟨rfl, rfl, rfl, Nat.lt_succ_self _, rfl⟩, there⟩
  rcases due with pending | leased
  · obtain ⟨after, held, done, rest⟩ := leases checked found pending
    refine ⟨after, held, ?_, rest⟩
    unfold claimOne
    rw [if_neg (by simp [pending])]
    change (if job.state = .pending then _ else _) = _
    rw [if_pos pending, done]
    rfl
  · have admitted := released_admitted checked leased
    obtain ⟨middle, released, first, there⟩ :=
      @amendJob_takes _ _ JobRow.released found rfl admitted
    obtain ⟨after, held, done, second, hold, rest⟩ := leases admitted.2 there rfl
    refine ⟨after, held, ?_, first.trans second,
      ⟨hold.key, hold.state, hold.ownerId, Nat.lt_of_succ_lt hold.version, hold.attempts⟩, rest⟩
    unfold claimOne
    rw [if_pos leased, released]
    have pending : job.released.state = .pending := rfl
    dsimp only [bind, Except.bind]
    rw [if_pos pending, done]

structure Took (pass : Pass) (rows : List JobRow) (ledger after : Ledger)
    (taken : List JobRow) : Prop where
  sound : ∀ claims, Sound { ledger with claimed := claims } →
    Sound { after with claimed := claims ++ taken }
  claimed : after.claimed = ledger.claimed
  distinct : (taken.map JobRow.key).Sublist (rows.map JobRow.key)
  leased : ∀ held ∈ taken, get? after.jobs held.key = some held ∧
    ∃ job ∈ rows, get? ledger.jobs held.key = some job ∧ Leases pass job held
  elsewhere : ∀ key, key ∉ taken.map JobRow.key → get? after.jobs key = get? ledger.jobs key

theorem Took.nothing : Took pass [] ledger ledger [] where
  sound := by
    intro claims sound
    rwa [List.append_nil]
  claimed := rfl
  distinct := List.nil_sublist _
  leased := by
    intro held inside
    cases inside
  elsewhere := fun _ _ => rfl

theorem Took.skip (took : Took pass rows ledger after taken) (job : JobRow) :
    Took pass (job :: rows) ledger after taken where
  sound := took.sound
  claimed := took.claimed
  distinct := took.distinct.cons _
  leased := by
    intro held inside
    obtain ⟨there, job, met, rest⟩ := took.leased held inside
    exact ⟨there, job, List.mem_cons_of_mem _ met, rest⟩
  elsewhere := took.elsewhere

theorem Took.cons {middle : Ledger} (rewrites : Rewrites ledger middle job.key)
    (leases : Leases pass job held) (found : get? ledger.jobs job.key = some job)
    (there : get? middle.jobs held.key = some held) (apart : job.key ∉ rows.map JobRow.key)
    (took : Took pass rows middle after taken) :
    Took pass (job :: rows) ledger after (held :: taken) := by
  have untaken : held.key ∉ taken.map JobRow.key := by
    intro again
    exact apart (leases.key ▸ took.distinct.subset again)
  constructor
  · intro claims sound
    have holds := took.sound _ ((rewrites.sound claims sound).hold leases.state
      (leases.ownerId ▸ Option.some_ne_none _) there)
    rwa [List.append_assoc] at holds
  · exact took.claimed.trans rewrites.claimed
  · rw [List.map_cons, List.map_cons, leases.key]
    exact took.distinct.cons_cons _
  · intro other inside
    rcases List.mem_cons.mp inside with rfl | later
    · refine ⟨(took.elsewhere _ untaken).trans there, job, List.mem_cons_self, ?_, leases⟩
      rw [leases.key, found]
    · obtain ⟨there', job', met, found', leases'⟩ := took.leased other later
      refine ⟨there', job', List.mem_cons_of_mem _ met, ?_, leases'⟩
      rw [← rewrites.elsewhere, found']
      intro same
      exact apart (same ▸ took.distinct.subset (List.mem_map_of_mem later))
  · intro key apart'
    rw [List.map_cons, List.mem_cons, not_or, leases.key] at apart'
    rw [took.elsewhere key apart'.2, rewrites.elsewhere key apart'.1]

theorem sessions_count (rows : List JobRow) (sessionId : String) :
    (rows.filter (·.sessionId = sessionId)).length = (rows.map (·.sessionId)).count sessionId := by
  rw [← List.countP_eq_length_filter, List.count, List.countP_map]
  rfl

open Quotas in
theorem claimEach_takes (distinct : (rows.map JobRow.key).Nodup)
    (due : ∀ job ∈ rows, get? ledger.jobs job.key = some job ∧ job.Checked ∧
      (job.state = .pending ∨ job.state = .leased))
    (filled : Filled pass.limit pass.perSession met (claimed.map (·.sessionId))) :
    ∃ after taken, claimEach pass claimed rows ledger = .ok (after, claimed ++ taken) ∧
      Took pass rows ledger after taken ∧
      Filled pass.limit pass.perSession (met ++ rows.map (·.sessionId))
        ((claimed ++ taken).map (·.sessionId)) := by
  induction rows generalizing ledger claimed met with
  | nil =>
    refine ⟨ledger, [], ?_, Took.nothing, ?_⟩
    · rw [claimEach, List.append_nil]
    · rwa [List.map_nil, List.append_nil, List.append_nil]
  | cons job rest ih =>
    rw [List.map_cons, List.nodup_cons] at distinct
    obtain ⟨found, checked, state⟩ := due job List.mem_cons_self
    have later := fun other inside => due other (List.mem_cons_of_mem job inside)
    rw [claimEach, sessions_count, ← List.length_map (·.sessionId), List.map_cons,
      List.append_cons met]
    split
    · rename_i spent
      obtain ⟨after, taken, done, took, filled'⟩ := ih distinct.2 later (filled.pass spent)
      exact ⟨after, taken, done, took.skip job, filled'⟩
    · rename_i room
      obtain ⟨middle, held, done, rewrites, leases, there⟩ :=
        claimOne_leases pass checked found state
      have same : held.sessionId = job.sessionId := congrArg (·.1) leases.key
      have filled' : Filled pass.limit pass.perSession (met ++ [job.sessionId])
          ((claimed ++ [held]).map (·.sessionId)) := by
        rw [List.map_append, List.map_singleton, same]
        exact filled.take room
      have unmet : ∀ other ∈ rest, get? middle.jobs other.key = some other ∧ other.Checked ∧
          (other.state = .pending ∨ other.state = .leased) := by
        intro other inside
        rw [rewrites.elsewhere]
        · exact later other inside
        · intro same
          exact distinct.1 (same ▸ List.mem_map_of_mem inside)
      obtain ⟨after, taken, done', took, filled''⟩ := ih distinct.2 unmet filled'
      refine ⟨after, held :: taken, ?_, took.cons rewrites leases found there distinct.1, ?_⟩
      · rw [done, List.append_cons]
        exact done'
      · rwa [List.append_cons claimed]

theorem due_of_candidate (inside : job ∈ ledger.candidates pass) : pass.due job = true := by
  rw [candidates] at inside
  have met := List.mem_of_mem_take inside
  rw [List.mem_insertionSort] at met
  exact (List.mem_filter.mp met).2

theorem candidates_distinct (sound : ledger.Sound) :
    ((ledger.candidates pass).map JobRow.key).Nodup := by
  apply List.Nodup.sublist ((List.take_sublist _ _).map _)
  rw [((List.perm_insertionSort _ _).map JobRow.key).nodup_iff]
  exact sound.rows.1.sublist (List.filter_sublist.map _)

theorem Sound.takes (sound : ledger.Sound) (pass : Pass) :
    ∃ after taken, ledger.claim pass = .ok { after with claimed := ledger.claimed ++ taken } ∧
      Took pass (ledger.candidates pass) ledger after taken ∧
      taken.length = min pass.limit
        (Quotas.offered pass.perSession ((ledger.candidates pass).map (·.sessionId))) := by
  have due : ∀ job ∈ ledger.candidates pass, get? ledger.jobs job.key = some job ∧ job.Checked ∧
      (job.state = .pending ∨ job.state = .leased) := by
    intro job inside
    have there : job ∈ ledger.jobs.map (·.2) := by
      have met := List.mem_of_mem_take inside
      rw [List.mem_insertionSort] at met
      exact List.mem_of_mem_filter met
    have stored := sound.rows.2 job there
    have due := due_of_candidate inside
    refine ⟨stored, (sound.jobs _ _ stored).2, ?_⟩
    rw [Pass.due] at due
    have both := (Bool.and_eq_true_iff.mp due).1
    simp only [Bool.or_eq_true, Bool.and_eq_true, decide_eq_true_eq] at both
    exact both.imp (·.1) (·.1)
  obtain ⟨after, taken, done, took, filled⟩ := @claimEach_takes ledger _ [] pass []
    (candidates_distinct sound) due ⟨Nat.zero_le _, fun _ => Nat.zero_le _, fun _ _ => (Nat.min_zero _).symm⟩
  refine ⟨after, taken, ?_, took, ?_⟩
  · rw [Ledger.claim, done]
    exact congrArg (fun claimed => Except.ok { after with claimed := claimed ++ taken })
      took.claimed
  · have length := filled.length
    rwa [List.length_map] at length

theorem Sound.claim (sound : ledger.Sound) (pass : Pass) : Admits (ledger.claim pass) Sound := by
  obtain ⟨after, taken, done, took, _⟩ := sound.takes pass
  rw [done]
  exact took.sound _ sound

end Ledger

end

namespace Ledger

/-! ### Sessions -/

section
variable (sound : ledger.Sound)
include sound

theorem Sound.quarantine (sessionId : String) (version nowMs : Nat) :
    Admits (ledger.quarantine service sessionId version nowMs) Sound := by
  apply sound.read.bind
  rintro row ⟨found, rowSound⟩
  apply (admits_require _ _).bind
  intro _ active
  have kept : SessionRow.kept row.state := by simp [SessionRow.kept, active]
  have follows := @kept_follows _ rowSound _ (some (row.generation + 1)) nowMs kept
    (show SessionRow.kept .quarantined by decide) (by rw [active]; rfl) (by rw [active]; decide)
    (Or.inl rfl)
  apply (sound.transition rowSound follows (by simp [active]) (sound.owned found rfl)).bind
  intro result done
  exact done.1.cancelQueued _ _

theorem Sound.rebuild (sessionId : String)
    (version expectedGeneration nowMs : Nat) (groups : List (String × String)) :
    Admits (ledger.rebuild service sessionId version expectedGeneration nowMs groups) Sound := by
  apply sound.read.bind
  rintro row ⟨found, rowSound⟩
  apply (admits_require _ _).bind
  intro _ _
  apply (admits_require _ _).bind
  intro _ quarantined
  apply (admits_require _ _).bind
  intro _ _
  have kept : SessionRow.kept row.state := by simp [SessionRow.kept, quarantined]
  have follows := @kept_follows _ rowSound _ none nowMs kept
    (show SessionRow.kept .active by decide) (by rw [quarantined]; rfl)
    (by rw [quarantined]; decide) (Or.inr ⟨rfl, by decide⟩)
  apply (sound.transition rowSound follows (by simp [quarantined]) (sound.owned found rfl)).bind
  rintro ⟨after, _⟩ ⟨sound', rfl, rowSound'⟩
  exact sound'.enqueueEach rowSound'.checked.1 nowMs groups

theorem Sound.recorded {commandId sessionId : String}
    (free : (get? ledger.destroys commandId).getD sessionId = sessionId) :
    Sound { ledger with destroys := set ledger.destroys commandId sessionId } := by
  refine { sound with destroys := ?_ }
  intro id row there named inside
  have owned := sound.destroys id row there named inside
  by_cases here : named = commandId
  · subst here
    rw [owned, Option.getD_some] at free
    rw [free]
    exact get?_set_self _ _ _
  · rw [get?_set_ne _ _ (Ne.symm here)]
    exact owned

theorem Sound.destroy (command : DestroyCommand) (version nowMs : Nat) :
    Admits (ledger.destroy service command version nowMs) Sound := by
  apply sound.read.bind
  rintro row ⟨_, rowSound⟩
  apply (admits_checked _).bind
  intro change changed
  apply (admits_require _ _).bind
  intro _ free
  obtain ⟨alive, p, begun, rfl⟩ := destroyChange_eq_ok changed
  have follows := begun_follows rowSound nowMs alive begun
  have written := (sound.recorded free).transition rowSound follows
    (by rcases alive with state | state <;> simp [state])
    (by
      intro commandId named
      change some p.destroyCommandId = some commandId at named
      rw [begun.named] at named
      cases named
      exact get?_set_self _ _ _)
  apply written.bind
  intro result done
  exact done.1.cancelQueued _ _

end

theorem purgeJob_checked (rowSound : RowSound row) (commandId : String) (nowMs : Nat) :
    (service.purgeJob row commandId nowMs).Checked := by
  refine ⟨rowSound.checked.1, Nat.one_pos, Nat.le_add_right _ _, ?_, ?_⟩
  · simp [Service.purgeJob]
  · simp [Service.purgeJob]

theorem Sound.seals (sound : ledger.Sound) (sessionId : String) (version : Nat) (force : Bool)
    (nowMs : Nat) (readings : Readings) :
    Admits (ledger.seals service sessionId version force nowMs readings) Sound := by
  apply sound.read.bind
  rintro row ⟨found, rowSound⟩
  split
  · rename_i commandId progress _ there
    split
    · exact sound
    · rename_i drained
      have draining : row.state = .draining := by
        simp only [Bool.or_eq_true, bne_iff_ne, not_or, not_not] at drained
        exact drained.2
      apply (admits_checked _).bind
      rintro ⟨_, allSafe⟩ _
      dsimp only
      split
      · apply (admits_checked _).bind
        intro proof _
        have follows := sealedChange_follows rowSound.checked rowSound.shape there draining
          rowSound.seq (rowSound.unsealed (by simp [draining]) (by simp [draining])) proof
          readings.journalHighwater nowMs
        have written := sound.transition rowSound follows
          (by intro purging; exact absurd rfl purging) (sound.owned found rfl)
        apply written.bind
        rintro ⟨after, _⟩ ⟨sound', rfl, rowSound'⟩
        apply (admits_checked _).bind
        intro _ _
        exact sound'.putJob (purgeJob_checked rowSound' commandId nowMs)
      · exact sound
  · trivial

theorem purging_follows {state : SessionState}
    (follows : SessionRow.follows .purging state = true) : state = .purging ∨ state = .purged := by
  revert follows
  cases state <;> decide

theorem Sound.record (sound : ledger.Sound) (sessionId : String) (version : Nat) (force : Bool)
    (nowMs : Nat) (sight : Sight) :
    Admits (ledger.record sessionId version force nowMs sight) Sound := by
  apply sound.read.bind
  rintro row ⟨found, rowSound⟩
  split
  · rename_i commandId progress _ there
    split
    · exact sound
    · rename_i still
      have purging : row.state = .purging := by
        simp only [Bool.or_eq_true, bne_iff_ne, not_or, not_not] at still
        exact still.2
      apply (admits_checked _).bind
      intro inspection _
      apply (admits_checked _).bind
      intro action taken
      apply (admits_checked _).bind
      rintro ⟨after, state⟩ made
      obtain ⟨_, _, _, _, _, named⟩ := recoveryAction_eq_ok.mp taken
      have phased : ∀ named ∈ action.phase, progress.phase = named := by
        rw [← named]
        exact phase_of_recoveryStep _ _ _
      have follows := @decided_follows _ _ rowSound there purging _ _ nowMs _ _ phased _ _ made
      have written := sound.transition rowSound follows
        (by
          intro unpurging unpurged
          have steps := follows.transition.2.2.2.2.2.1
          rw [purging] at steps
          rcases purging_follows steps with still | done
          · exact absurd still unpurging
          · exact absurd done unpurged)
        (sound.owned found rfl)
      exact written.bind fun _ done => done.1
  · trivial

theorem Sound.enqueue (sound : ledger.Sound) (sessionId : String) (generation : { n // 0 < n })
    (nowMs : Nat) (groups : List (String × String)) :
    Admits (ledger.enqueue service sessionId generation nowMs groups) Sound := by
  unfold Ledger.enqueue
  split
  · trivial
  · refine sound.enqueueEach ?_ nowMs groups
    exact generation.property

/-! ### Answers -/

theorem Sound.fewer (sound : ledger.Sound) {claims : List JobRow}
    (fewer : ∀ held ∈ claims, held ∈ ledger.claimed) :
    Sound { ledger with claimed := claims } :=
  { sound with claimed := fun held inside => sound.claimed held (fewer held inside) }

/-- What a transaction that completes a job comes to, and the row it finds. -/
structure Completes (ledger : Ledger) (x : Except Failure Ledger) (taken : Prop) : Prop where
  sound : ∀ after, x = .ok after → after.Sound
  refused : (∃ old new, x = .error (.refused (.job old new))) ↔ ¬ taken
  sessions : ∀ old new, x ≠ .error (.refused (.session old new))

theorem Sound.completing (sound : ledger.Sound) (found : get? ledger.jobs job.key = some stored)
    (unleased : state ≠ .leased) (reasoned : state = .done → result ≠ none) :
    Completes ledger (ledger.complete job state ownerId result nextAtMs)
      ((job.state = .leased → job.ownerId = some ownerId) →
        stored.rowVersion = job.rowVersion → stored.Takes state nextAtMs) := by
  have comes := @complete_of_stored ledger _ _ _ _ nextAtMs ownerId found unleased
    reasoned
  constructor
  · intro after done
    exact (sound.complete found unleased reasoned done).1
  · rw [Classical.not_imp, Classical.not_imp,
      ← @complete_refused_iff _ _ _ _ _ _ ownerId sound found unleased reasoned]
    constructor
    · rintro ⟨old, new, refused⟩
      exact ⟨_, refused⟩
    · rintro ⟨update, refused⟩
      rw [comes] at refused ⊢
      split at refused
      · rename_i both
        split at refused
        · cases refused
        · rename_i untaken
          rw [if_pos both, if_neg untaken]
          exact ⟨_, _, rfl⟩
      · cases refused
  · intro old new refused
    rw [comes] at refused
    split at refused
    · split at refused <;> cases refused
    · cases refused

theorem Completes.erase {x : Except Failure Ledger} {taken : Prop}
    (completes : Completes ledger x taken) (n : Nat) :
    Completes ledger (x >>= fun answered =>
      .ok { answered with claimed := answered.claimed.eraseIdx n }) taken := by
  constructor
  · intro after done
    obtain ⟨answered, made, same⟩ := bind_eq_ok.mp done
    cases same
    apply (completes.sound answered made).fewer
    intro held inside
    exact List.mem_of_mem_eraseIdx inside
  · rw [← completes.refused]
    cases x with
    | ok answered =>
      constructor
      · rintro ⟨old, new, refused⟩
        cases refused
      · rintro ⟨old, new, refused⟩
        cases refused
    | error failure => rfl
  · intro old new refused
    cases x with
    | ok answered => cases refused
    | error failure => exact completes.sessions old new refused

theorem Completes.congr {x : Except Failure Ledger} {taken taken' : Prop}
    (completes : Completes ledger x taken) (same : taken ↔ taken') : Completes ledger x taken' :=
  ⟨completes.sound, completes.refused.trans (not_congr same), completes.sessions⟩

/-- When a transaction is not refused by the table of jobs: the row that an answer finds takes it,
and a purge that is requeued is due again before its deadline. -/
def Clear (ledger : Ledger) : Write → Prop
  | .answers n nowMs outcome => ∀ job ∈ ledger.claimed[n]?,
    ∀ stored ∈ get? ledger.jobs job.key,
      if outcome = .unhandled then
        stored.rowVersion = job.rowVersion → nowMs + leaseMs ≤ stored.deadlineMs
      else
        (stored.state = .leased → stored.ownerId = job.ownerId) →
          stored.Takes (outcome.answer nowMs).1 (outcome.answer nowMs).2
  | .requeue after nowMs => ∀ commandId ∈ after.destroyCommandId, after.state = .purging →
    ∀ job ∈ get? ledger.jobs (after.sessionId, .purge, commandId),
      job.state = .blocked ∨ job.state = .pending →
        ∀ time ∈ dueAgain after nowMs, time ≤ job.deadlineMs
  | _ => True

theorem answer_unleased (outcome : Outcome) (nowMs : Nat) :
    (outcome.answer nowMs).1 ≠ .leased := by
  cases outcome with
  | advanced after =>
    rw [Outcome.answer]
    split
    · simp
    · split
      · simp
      · split <;> simp
  | _ => simp [Outcome.answer]

theorem leased_takes_pending (leased : stored.state = .leased) (time : Nat) :
    stored.Takes .pending (some time) ↔ time ≤ stored.deadlineMs := by
  constructor
  · rintro ⟨_, _, _, due⟩
    exact due time rfl
  · intro due
    refine ⟨by simp [leased], by simp [leased], by rw [leased]; rfl, ?_⟩
    intro other same
    cases same
    exact due

theorem Sound.answers (sound : ledger.Sound) (n nowMs : Nat) (outcome : Outcome) :
    Completes ledger (ledger.answers n nowMs outcome) (ledger.Clear (.answers n nowMs outcome)) := by
  cases held : ledger.claimed[n]? with
  | none =>
    have same : ledger.answers n nowMs outcome = .ok ledger := by rw [Ledger.answers, held]
    rw [same]
    constructor
    · intro after done
      cases done
      exact sound
    · constructor
      · rintro ⟨old, new, refused⟩
        cases refused
      · intro unclear
        refine absurd ?_ unclear
        intro job there
        rw [held] at there
        cases there
    · intro old new refused
      cases refused
  | some job =>
    obtain ⟨leased, owned, stored, found, versions⟩ :=
      sound.claimed job (List.mem_of_getElem? held)
    obtain ⟨ownerId, owner⟩ := Option.ne_none_iff_exists'.mp owned
    have clear : ledger.Clear (.answers n nowMs outcome) ↔
        if outcome = .unhandled then
          stored.rowVersion = job.rowVersion → nowMs + leaseMs ≤ stored.deadlineMs
        else
          (stored.state = .leased → stored.ownerId = job.ownerId) →
            stored.Takes (outcome.answer nowMs).1 (outcome.answer nowMs).2 := by
      constructor
      · intro clear
        exact clear job held stored found
      · intro clear job' held' stored' found'
        rw [held] at held'
        cases held'
        rw [found] at found'
        cases found'
        exact clear
    rw [Ledger.answers, held]
    dsimp only
    by_cases unhandled : outcome = .unhandled
    · rw [if_pos unhandled] at clear ⊢
      apply Completes.erase
      subst unhandled
      have completing := @Sound.completing ledger stored job .pending none
        (some (nowMs + leaseMs)) (job.ownerId.getD "") sound found (by decide) (by simp)
      apply completing.congr
      rw [clear]
      constructor
      · intro takes same
        have here : job = stored := by
          rcases versions with here | less
          · exact here
          · omega
        subst here
        exact (leased_takes_pending leased _).mp (takes (by simp [owner]) same)
      · intro due _ same
        have here : job = stored := by
          rcases versions with here | less
          · exact here
          · omega
        subst here
        exact (leased_takes_pending leased _).mpr (due same)
    · rw [if_neg unhandled] at clear ⊢
      apply Completes.erase
      have read : ledger.current job = stored := by rw [current, found, Option.getD_some]
      have same : stored.key = job.key := (sound.jobs _ _ found).1
      have there : get? ledger.jobs stored.key = some stored := by rw [same, found]
      rw [finish, read]
      have completing := @Sound.completing ledger stored stored (outcome.answer nowMs).1
        (if (outcome.answer nowMs).1 = .pending then none else some ⟨"job", job.jobId⟩)
        (outcome.answer nowMs).2 (job.ownerId.getD "") sound there (answer_unleased outcome nowMs)
        (by
          intro done
          simp [done])
      apply completing.congr
      rw [clear, owner, Option.getD_some]
      constructor
      · intro takes mine
        exact takes mine rfl
      · intro takes mine _
        exact takes mine

theorem Sound.requeue (sound : ledger.Sound) (after : SessionRow) (nowMs : Nat) :
    Completes ledger (ledger.requeue service after nowMs)
      (ledger.Clear (.requeue after nowMs)) := by
  have unchanged : ledger.Clear (.requeue after nowMs) → Completes ledger (.ok ledger)
      (ledger.Clear (.requeue after nowMs)) := by
    intro clear
    constructor
    · intro after done
      cases done
      exact sound
    · constructor
      · rintro ⟨old, new, refused⟩
        cases refused
      · intro unclear
        exact absurd clear unclear
    · intro old new refused
      cases refused
  unfold Ledger.requeue
  cases named : after.destroyCommandId with
  | none =>
    apply unchanged
    intro commandId inside
    rw [named] at inside
    cases inside
  | some commandId =>
    dsimp only
    by_cases purging : after.state = .purging
    swap
    · rw [if_pos purging]
      apply unchanged
      intro _ _ still
      exact absurd still purging
    rw [if_neg (not_not.mpr purging)]
    cases found : get? ledger.jobs (after.sessionId, .purge, commandId) with
    | none =>
      apply unchanged
      intro other inside _ job there
      rw [named] at inside
      cases inside
      rw [found] at there
      cases there
    | some job =>
      have clear : ledger.Clear (.requeue after nowMs) ↔
          (job.state = .blocked ∨ job.state = .pending →
            ∀ time ∈ dueAgain after nowMs, time ≤ job.deadlineMs) := by
        constructor
        · intro clear
          exact clear commandId named purging job found
        · intro clear other inside _ job' there
          rw [named] at inside
          cases inside
          rw [found] at there
          cases there
          exact clear
      dsimp only
      by_cases waiting : job.state = .blocked ∨ job.state = .pending
      swap
      · rw [if_neg waiting]
        exact unchanged (clear.mpr fun state => absurd state waiting)
      rw [if_pos waiting]
      cases due : dueAgain after nowMs with
      | none =>
        apply unchanged
        rw [clear, due]
        intro _ time there
        cases there
      | some time =>
        obtain ⟨same, _⟩ := sound.jobs _ _ found
        have there : get? ledger.jobs job.key = some job := by rw [same, found]
        have completing := @Sound.completing ledger job job .pending none (some time)
          service.ownerId sound there (by decide) (by simp)
        apply completing.congr
        rw [clear, due]
        constructor
        · intro takes _ time' same
          cases same
          have unleased : job.state ≠ .leased := by
            rcases waiting with state | state <;> simp [state]
          exact (takes (fun leased => absurd leased unleased) rfl).2.2.2 time rfl
        · intro onTime _ _
          refine ⟨?_, ?_, ?_, onTime waiting⟩
          · rcases waiting with state | state <;> simp [state]
          · rcases waiting with state | state <;> simp [state]
          · rcases waiting with state | state <;> rw [state] <;> rfl

/-! ## Runs -/

theorem Admits.completes {x : Except Failure Ledger} (admits : Admits x Sound) :
    Completes ledger x True := by
  constructor
  · intro after done
    exact Admits.ok admits done
  · constructor
    · rintro ⟨old, new, refused⟩
      exact absurd refused (Admits.unrefused admits _)
    · intro never
      exact absurd trivial never
  · intro old new
    exact Admits.unrefused admits _

theorem Sound.attempt (sound : ledger.Sound) (w : Write) :
    Completes ledger (ledger.attempt service w) (ledger.Clear w) := by
  cases w with
  | create sessionId agentId rootIncarnation relativeDirectory nowMs =>
    have created : Admits (@Except.ok Failure _
        (ledger.create sessionId agentId rootIncarnation relativeDirectory nowMs)) Sound :=
      sound.create _ _ _ _ _
    exact Admits.completes created
  | activate sessionId version nowMs =>
    exact Admits.completes (sound.activate _ _ _)
  | quarantine sessionId version nowMs =>
    exact Admits.completes (sound.quarantine _ _ _)
  | rebuild sessionId version expectedGeneration nowMs groups =>
    exact Admits.completes (sound.rebuild _ _ _ _ _)
  | destroy command version nowMs =>
    exact Admits.completes (sound.destroy _ _ _)
  | cancelQueued sessionId =>
    exact Admits.completes (sound.cancelQueued _ _)
  | seals sessionId version force nowMs readings =>
    exact Admits.completes (sound.seals _ _ _ _ _)
  | record sessionId version force nowMs sight =>
    exact Admits.completes (sound.record _ _ _ _ _)
  | enqueue sessionId generation nowMs groups =>
    exact Admits.completes (sound.enqueue _ _ _ _)
  | claim pass => exact Admits.completes (sound.claim pass)
  | answers n nowMs outcome => exact sound.answers n nowMs outcome
  | requeue after nowMs => exact sound.requeue after nowMs

def run (service : Service) (ledger : Ledger) (writes : List Write) : Ledger :=
  Transitions.run (Ledger.after service) ledger writes

theorem run_sound (service : Service) (writes : List Write) : (run service empty writes).Sound := by
  apply Transitions.run_keeps Sound _ empty_sound
  intro ledger w sound
  unfold Ledger.after
  split
  · rename_i after done
    exact (sound.attempt w).sound after done
  · exact sound

/-- The transaction ends in an error of the database that its caller sees. -/
def Escapes (service : Service) (ledger : Ledger) (w : Write) : Prop :=
  ∃ failure message, ledger.attempt service w = .error failure ∧
    failure.raised = .integrity message

/-- In every run the table of sessions refuses no update, and a transaction ends in an error of the
database exactly when it answers a claim, or requeues a purge, against a row that does not take
it. -/
theorem escapes_iff_unclear (service : Service) (writes : List Write) (w : Write) :
    (∀ old new, (run service empty writes).attempt service w ≠
        .error (.refused (.session old new))) ∧
      (Escapes service (run service empty writes) w ↔
        ¬ (run service empty writes).Clear w) := by
  have completes := @Sound.attempt service _ (run_sound service writes) w
  refine ⟨completes.sessions, ?_⟩
  rw [← completes.refused]
  constructor
  · rintro ⟨failure, message, failed, raised⟩
    cases failure with
    | arp code => cases raised
    | refused update =>
      cases update with
      | session old new => exact absurd failed (completes.sessions old new)
      | job old new => exact ⟨old, new, failed⟩
  · rintro ⟨old, new, refused⟩
    exact ⟨_, _, refused, rfl⟩

instance (service : Service) (ledger : Ledger) (w : Write) :
    Decidable (Escapes service ledger w) :=
  match ends : ledger.attempt service w with
  | .ok _ => isFalse (by
      rintro ⟨failure, message, failed, _⟩
      rw [ends] at failed
      cases failed)
  | .error (.arp _) => isFalse (by
      rintro ⟨failure, message, failed, raised⟩
      rw [ends] at failed
      cases failed
      cases raised)
  | .error (.refused (.session _ _)) => isFalse (by
      rintro ⟨failure, message, failed, raised⟩
      rw [ends] at failed
      cases failed
      cases raised)
  | .error (.refused (.job _ _)) => isTrue ⟨_, _, ends, rfl⟩

section

def pass (ownerId : String) (nowMs : Nat) : Pass := ⟨ownerId, nowMs, 8, 2, none⟩

def opened : List Write := [.create "s" "a" "r" "d" 0, .activate "s" 1 0]

def leasedLate : List Write :=
  opened ++ [.enqueue "s" ⟨1, Nat.one_pos⟩ 0 [("g", "h")], .claim (pass "o" 280000)]

def superseded : List Write :=
  opened ++ [.enqueue "s" ⟨1, Nat.one_pos⟩ 0 [("g", "h")], .claim (pass "o" 0), .claim (pass "w" 40000),
    .answers 1 40000 .indexed]

def purgeBlocked : List Write :=
  opened ++ [.destroy plainDestroy 2 0, .seals "s" 3 false 0 idle, .claim (pass "o" 0),
    .answers 0 0 .blocked]

/-- A hand-back of busy files, the block that follows a superseded lease, and a resume can each
end in an error of the database. -/
theorem late_answers_escape :
    Escapes plainService (run plainService empty leasedLate) (.answers 0 280000 .fileBusy) ∧
      Escapes plainService (run plainService empty superseded) (.answers 0 40000 .blocked) ∧
      ∃ row ∈ get? (run plainService empty purgeBlocked).sessions "s",
        Escapes plainService (run plainService empty purgeBlocked) (.requeue row 86400001) := by
  decide +kernel

end

end Ledger

end Sessions
