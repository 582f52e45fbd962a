import HarnessSdk.Sessions.Constraints

/-!
The jobs as the coordinators of several processes see them: each claims in passes of its own, and
completes jobs by rows that it has read at some time.
-/
namespace Sessions
open Checks PyDict

variable {ledger : Ledger} {job : JobRow}

/-- Nothing but a row that has not ended is replaced, by a later version. -/
def JobRow.Onward (old new : JobRow) : Prop :=
  old.key = new.key ∧
    (old = new ∨ old.rowVersion < new.rowVersion ∧ old.state ≠ .done ∧ old.state ≠ .cancelled)

/-- No job is lost. -/
def Onward (table later : Dict JobKey JobRow) : Prop :=
  ∀ key job, get? table key = some job → ∃ job', get? later key = some job' ∧ job.Onward job'

theorem onward_refl (table : Dict JobKey JobRow) : Onward table table :=
  fun _ job found => ⟨job, found, rfl, Or.inl rfl⟩

theorem Onward.trans {first second third : Dict JobKey JobRow} (before : Onward first second)
    (later : Onward second third) : Onward first third := by
  intro key job found
  obtain ⟨job', found', same, onward⟩ := before key job found
  obtain ⟨job'', found'', same', onward'⟩ := later key job' found'
  refine ⟨job'', found'', same.trans same', ?_⟩
  rcases onward with rfl | ⟨less, open'⟩
  · exact onward'
  · right
    refine ⟨?_, open'⟩
    rcases onward' with rfl | ⟨less', _⟩
    · exact less
    · exact less.trans less'

/-- The tables with their clock, all that the coordinators may have read, the newest first, and the
rows they have answered. -/
structure Queue where
  ledger : Ledger
  clock : Nat
  past : List (Dict JobKey JobRow)
  answered : List JobRow

inductive Move
  | tick (elapsed : Nat)
  | put (job : JobRow)
  | claim (ownerId : String) (limit perSession : Nat) (scope : Option String)
  /-- The row is one that was read so many tables ago. -/
  | complete (ago : Nat) (key : JobKey) (state : JobState) (ownerId : String)
      (result : Option Receipt) (nextAtMs : Option Nat)

def JobRow.inserted (job : JobRow) : JobRow :=
  { job with
    state := .pending
    rowVersion := 1
    attempts := 0
    ownerId := none
    leaseUntilMs := none
    resultReceiptRef := none }

namespace Queue

def start : Queue := ⟨Ledger.empty, 0, [[]], []⟩

def next (q : Queue) (answered : List JobRow) : Except Failure Ledger → Queue
  | .ok ledger =>
    { q with ledger, past := ledger.jobs :: q.past, answered := answered ++ q.answered }
  | .error _ => q

def act (q : Queue) : Move → Queue
  | .tick elapsed => { q with clock := q.clock + elapsed }
  | .put job => if job.inserted.Checked then q.next [] (q.ledger.putJob job.inserted) else q
  | .claim ownerId limit perSession scope =>
    q.next [] (q.ledger.claim ⟨ownerId, q.clock, limit, perSession, scope⟩)
  | .complete ago key state ownerId result nextAtMs =>
    match q.past[ago]?.bind (get? · key) with
    | some job => q.next [job] (q.ledger.complete job state ownerId result nextAtMs)
    | none => q

def run (moves : List Move) : Queue := Transitions.run act start moves

/-- The lease is neither answered nor expired. -/
def Holds (q : Queue) (held : JobRow) : Prop :=
  held ∉ q.answered ∧ ∀ time ∈ held.leaseUntilMs, q.clock ≤ time

structure Kept (q : Queue) : Prop where
  sound : q.ledger.Sound
  onward : ∀ table ∈ q.past, Onward table q.ledger.jobs
  holds : ∀ held ∈ q.ledger.claimed, q.Holds held → get? q.ledger.jobs held.key = some held
  attempts : ∀ key job, get? q.ledger.jobs key = some job →
    job.attempts = (q.ledger.claimed.map JobRow.key).count key

variable {q : Queue}

section
variable (kept : q.Kept)
include kept

theorem Kept.reads {table : Dict JobKey JobRow} (past : table ∈ q.past)
    {key : JobKey} (read : get? table key = some job) :
    ∃ stored, get? q.ledger.jobs job.key = some stored ∧ job.Onward stored ∧ key = job.key := by
  obtain ⟨stored, found, same, onward⟩ := kept.onward table past key job read
  have named : key = job.key := (same.trans (kept.sound.jobs _ _ found).1).symm
  exact ⟨stored, named ▸ found, ⟨same, onward⟩, named⟩

theorem Kept.completed {stored : JobRow}
    (found : get? q.ledger.jobs job.key = some stored) (onward : job.Onward stored)
    {state : JobState} {ownerId : String} {result : Option Receipt} {nextAtMs : Option Nat}
    (done : q.ledger.complete job state ownerId result nextAtMs = .ok ledger) :
    job = stored ∧ (job.state = .leased → job.ownerId = some ownerId) ∧
      job.Takes state nextAtMs ∧ ledger.Sound ∧ ledger.claimed = q.ledger.claimed ∧
      ledger.jobs = set q.ledger.jobs job.key (job.completed state result nextAtMs) := by
  have asked := done
  rw [Ledger.complete, then_eq_ok, then_eq_ok] at asked
  obtain ⟨unleased, reasoned, _⟩ := asked
  rw [require_eq_ok] at unleased reasoned
  have made := done
  rw [Ledger.complete_of_stored found unleased reasoned] at made
  split at made
  swap
  · cases made
  rename_i both
  obtain ⟨owned, same⟩ := both
  split at made
  swap
  · cases made
  rename_i admitted
  have here : job = stored := by
    rcases onward.2 with here | ⟨less, _⟩
    · exact here
    · omega
  subst here
  have takes := (completed_admitted (kept.sound.jobs _ _ found).2 unleased reasoned).mp admitted
  exact ⟨rfl, owned, takes, kept.sound.complete found unleased reasoned done⟩

theorem Kept.next {answered : List JobRow} {x : Except Failure Ledger}
    (step : ∀ after, x = .ok after → after.Sound ∧ Onward q.ledger.jobs after.jobs ∧
      (∀ held ∈ after.claimed, held ∉ answered → q.Holds held →
        get? after.jobs held.key = some held) ∧
      ∀ key job, get? after.jobs key = some job →
        job.attempts = (after.claimed.map JobRow.key).count key) : (q.next answered x).Kept := by
  cases x with
  | error failure => exact kept
  | ok after =>
    obtain ⟨sound, onward, holds, attempts⟩ := step after rfl
    constructor
    · exact sound
    · intro table inside
      rcases List.mem_cons.mp inside with rfl | before
      · exact onward_refl _
      · exact (kept.onward table before).trans onward
    · rintro held inside ⟨unanswered, unexpired⟩
      obtain ⟨now, before⟩ := not_or.mp (mt List.mem_append.mpr unanswered)
      exact holds held inside now ⟨before, unexpired⟩
    · exact attempts

theorem Kept.puts (checked : job.inserted.Checked) :
    (q.next [] (q.ledger.putJob job.inserted)).Kept := by
  apply kept.next
  intro after done
  have sound := Admits.ok (kept.sound.putJob checked) done
  unfold Ledger.putJob at done
  split at done
  · split at done
    · cases done
      exact ⟨sound, onward_refl _, fun held inside _ => kept.holds held inside, kept.attempts⟩
    · cases done
  · rename_i missing
    cases done
    have apart : ∀ {key stored}, get? q.ledger.jobs key = some stored →
        job.inserted.key ≠ key := by
      rintro key stored found rfl
      rw [missing] at found
      cases found
    refine ⟨sound, ?_, ?_, ?_⟩
    · intro key old found
      exact ⟨old, (get?_set_ne _ _ (apart found)).trans found, rfl, Or.inl rfl⟩
    · intro held inside _ holds
      have found := kept.holds held inside holds
      exact (get?_set_ne _ _ (apart found)).trans found
    · intro key new found
      by_cases here : job.inserted.key = key
      · subst here
        rw [get?_set_self] at found
        cases found
        have unclaimed : job.inserted.key ∉ q.ledger.claimed.map JobRow.key := by
          intro again
          obtain ⟨held, inside, same⟩ := List.mem_map.mp again
          obtain ⟨_, _, stored, there, _⟩ := kept.sound.claimed held inside
          exact apart there same.symm
        exact (List.count_eq_zero.mpr unclaimed).symm
      · rw [get?_set_ne _ _ here] at found
        exact kept.attempts key new found

theorem Kept.claims (pass : Pass) (now : pass.nowMs = q.clock) :
    (q.next [] (q.ledger.claim pass)).Kept := by
  apply kept.next
  obtain ⟨after, taken, done, took, _⟩ := kept.sound.takes pass
  intro ledger' done'
  rw [done] at done'
  cases done'
  have read : ∀ key ∈ taken.map JobRow.key, ∃ held job, get? after.jobs key = some held ∧
      get? q.ledger.jobs key = some job ∧ pass.due job = true ∧ Leases pass job held := by
    intro key inside
    obtain ⟨held, there, rfl⟩ := List.mem_map.mp inside
    obtain ⟨stored, job, met, found, leases⟩ := took.leased held there
    exact ⟨held, job, stored, found, Ledger.due_of_candidate met, leases⟩
  refine ⟨took.sound _ kept.sound, ?_, ?_, ?_⟩
  · intro key old found
    by_cases touched : key ∈ taken.map JobRow.key
    · obtain ⟨held, job, stored, found', due, leases⟩ := read key touched
      rw [found] at found'
      cases found'
      refine ⟨held, stored, leases.key.symm, Or.inr ⟨leases.version, ?_⟩⟩
      constructor
      · intro state
        simp [Pass.due, state] at due
      · intro state
        simp [Pass.due, state] at due
    · exact ⟨old, (took.elsewhere key touched).trans found, rfl, Or.inl rfl⟩
  · intro held inside _ holds
    rcases List.mem_append.mp inside with before | new
    · have found := kept.holds held before holds
      have leased := (kept.sound.claimed held before).1
      rw [took.elsewhere, found]
      intro touched
      obtain ⟨_, job, _, found', due, _⟩ := read held.key touched
      rw [found] at found'
      cases found'
      cases expires : held.leaseUntilMs with
      | none => simp [Pass.due, leased, expires] at due
      | some time =>
        have unexpired := holds.2 time expires
        simp [Pass.due, leased, expires] at due
        omega
    · exact (took.leased held new).1
  · intro key new found
    rw [List.map_append, List.count_append]
    by_cases touched : key ∈ taken.map JobRow.key
    · obtain ⟨held, job, stored, found', _, leases⟩ := read key touched
      rw [stored] at found
      cases found
      rw [leases.attempts, kept.attempts key job found', List.count_eq_one_of_mem _ touched]
      exact took.distinct.nodup (Ledger.candidates_distinct kept.sound)
    · have found' := (took.elsewhere key touched).symm.trans found
      rw [List.count_eq_zero.mpr touched]
      exact kept.attempts key new found'

end

theorem Kept.completes (kept : q.Kept) {table : Dict JobKey JobRow} (past : table ∈ q.past)
    {key : JobKey} (read : get? table key = some job) (state : JobState) (ownerId : String)
    (result : Option Receipt) (nextAtMs : Option Nat) :
    (q.next [job] (q.ledger.complete job state ownerId result nextAtMs)).Kept := by
  apply kept.next
  intro after done
  obtain ⟨stored, found, onward, _⟩ := kept.reads past read
  obtain ⟨rfl, _, takes, sound, claimed, jobs⟩ := kept.completed found onward done
  refine ⟨sound, ?_, ?_, ?_⟩
  · intro key' old found'
    rw [jobs, get?_set]
    by_cases here : job.key = key'
    · subst here
      rw [found] at found'
      cases found'
      exact ⟨_, if_pos rfl, rfl, Or.inr ⟨Nat.lt_succ_self _, takes.1, takes.2.1⟩⟩
    · exact ⟨old, (if_neg here).trans found', rfl, Or.inl rfl⟩
  · intro held inside unanswered holds
    rw [claimed] at inside
    have there := kept.holds held inside holds
    rw [jobs, get?_set_ne _ _, there]
    intro same
    rw [← same, found] at there
    cases there
    exact unanswered (List.mem_singleton_self _)
  · intro key' new found'
    rw [jobs, get?_set] at found'
    rw [claimed]
    split at found'
    · rename_i here
      cases found'
      exact kept.attempts key' job (here ▸ found)
    · exact kept.attempts key' new found'

theorem Kept.act (kept : q.Kept) (move : Move) : (q.act move).Kept := by
  cases move with
  | tick elapsed =>
    constructor
    · exact kept.sound
    · exact kept.onward
    · rintro held inside ⟨unanswered, unexpired⟩
      exact kept.holds held inside
        ⟨unanswered, fun time there => (Nat.le_add_right _ _).trans (unexpired time there)⟩
    · exact kept.attempts
  | put job =>
    rw [Queue.act]
    split
    · rename_i checked
      exact kept.puts checked
    · exact kept
  | claim ownerId limit perSession scope => exact kept.claims _ rfl
  | complete ago key state ownerId result nextAtMs =>
    rw [Queue.act]
    split
    · rename_i job read
      obtain ⟨table, past, read⟩ := Option.bind_eq_some_iff.mp read
      exact kept.completes (List.mem_of_getElem? past) read state ownerId result nextAtMs
    · exact kept

theorem run_kept (moves : List Move) : (run moves).Kept := by
  apply Transitions.run_keeps Kept
  · intro q move kept
    exact kept.act move
  · constructor
    · exact Ledger.empty_sound
    · intro table inside
      cases List.mem_singleton.mp inside
      exact onward_refl _
    · intro held inside
      cases inside
    · intro key job found
      cases found

open Quotas in
structure Orderly (q : Queue) : Prop where
  exclusive : ∀ held ∈ q.ledger.claimed, ∀ held' ∈ q.ledger.claimed, held.key = held'.key →
    q.Holds held → q.Holds held' → held = held'
  ended : ∀ table ∈ q.past, ∀ key job, get? table key = some job →
    job.state = .done ∨ job.state = .cancelled → get? q.ledger.jobs key = some job
  owned : ∀ table ∈ q.past, ∀ key job, get? table key = some job →
    ∀ state ownerId result nextAtMs after,
      q.ledger.complete job state ownerId result nextAtMs = .ok after →
      ∀ stored, get? q.ledger.jobs key = some stored → stored.state = .leased →
        stored.ownerId = some ownerId
  attempts : ∀ key job, get? q.ledger.jobs key = some job →
    job.attempts = (q.ledger.claimed.map JobRow.key).count key
  conserving : ∀ pass, ∃ taken after, q.ledger.claim pass = .ok after ∧
    after.claimed = q.ledger.claimed ++ taken ∧ taken.length = min pass.limit
      (offered pass.perSession ((q.ledger.candidates pass).map (·.sessionId)))

theorem run_orderly (moves : List Move) : (run moves).Orderly := by
  have kept := run_kept moves
  constructor
  · intro held inside held' inside' same holds holds'
    have found := kept.holds held inside holds
    rw [same, kept.holds held' inside' holds'] at found
    exact (Option.some.inj found).symm
  · intro table past key job read final
    obtain ⟨stored, found, ⟨_, onward⟩, rfl⟩ := kept.reads past read
    rcases onward with rfl | ⟨_, undone, uncancelled⟩
    · exact found
    · rcases final with done | cancelled
      · exact absurd done undone
      · exact absurd cancelled uncancelled
  · intro table past key job read state ownerId result nextAtMs after done stored found leased
    obtain ⟨stored', found', onward, rfl⟩ := kept.reads past read
    obtain ⟨rfl, owned, _⟩ := kept.completed found' onward done
    rw [found] at found'
    cases found'
    exact owned leased
  · exact kept.attempts
  · intro pass
    obtain ⟨after, taken, done, _, length⟩ := kept.sound.takes pass
    exact ⟨taken, _, done, rfl, length⟩

/-- Eight jobs of one session are due before the only one of another. -/
def crowd : List Move :=
  (["1", "2", "3", "4", "5", "6", "7", "8", "9"].map fun jobId =>
    .put {
      jobId
      sessionId := if jobId = "9" then "b" else "a"
      kind := .index
      semanticKey := jobId
      controlGeneration := 1
      payloadHash := jobId
      generation := 1
      state := .pending
      rowVersion := 1
      attempts := 0
      nextAtMs := 0
      deadlineMs := 0
      ownerId := none
      leaseUntilMs := none
      resultReceiptRef := none })

def narrow : Pass := ⟨"o", 0, 2, 1, none⟩

/-- The pass has room for a job of each session, and does not see the second session. -/
theorem crowded_out :
    ((run crowd).ledger.claim narrow).toOption.map (·.claimed.map (·.sessionId)) = some ["a"] ∧
      min narrow.limit (Quotas.offered narrow.perSession
        ((((run crowd).ledger.jobs.map (·.2)).filter narrow.due).map (·.sessionId))) = 2 := by
  decide +kernel

end Queue
end Sessions
