import HarnessSdk.Workflow.Plans

/-! Crash and schedule independence of the driver: however often it is stopped and driven again,
and in whatever order parallel tasks finish, the committed frontiers are those of the driver left
alone. -/
namespace Workflow
open PyDict PyText

inductive Committed (head : String) : List Commit → Driven → Driven → Prop
  | nil (σ : Driven) : Committed head [] σ σ
  | cons {c : Commit} {rest : List Commit} {σ τ : Driven} {store : Store}
      (done : σ.store.commit head c = .ok store)
      (later : Committed head rest ⟨store, σ.history ++ recordOf σ.store c⟩ τ) :
      Committed head (c :: rest) σ τ

theorem applyCommits_committed (head : String) (cs : List Commit) (σ : Driven) :
    ∃ done rest, cs = done ++ rest ∧ Committed head done σ (applyCommits head cs σ) := by
  induction cs generalizing σ with
  | nil => exact ⟨[], [], rfl, .nil σ⟩
  | cons c cs ih =>
    cases accepted : σ.store.commit head c with
    | error e =>
      refine ⟨[], c :: cs, rfl, ?_⟩
      rw [applyCommits, accepted]
      exact .nil σ
    | ok store =>
      obtain ⟨done, rest, same, committed⟩ := ih ⟨store, σ.history ++ recordOf σ.store c⟩
      refine ⟨c :: done, rest, by rw [same, List.cons_append], ?_⟩
      rw [applyCommits, accepted]
      exact .cons accepted committed

variable {head : String} {js : List Commit}

theorem Committed.split {first later : List Commit} {σ τ : Driven}
    (committed : Committed head (first ++ later) σ τ) :
    ∃ μ, Committed head first σ μ ∧ Committed head later μ τ := by
  induction first generalizing σ with
  | nil => exact ⟨σ, .nil σ, committed⟩
  | cons c rest ih =>
    cases committed with
    | cons done later =>
      obtain ⟨μ, one, two⟩ := ih later
      exact ⟨μ, .cons done one, two⟩

theorem Committed.applied {σ μ : Driven} (committed : Committed head js σ μ) (cs : List Commit) :
    applyCommits head (js ++ cs) σ = applyCommits head cs μ := by
  induction committed with
  | nil => rfl
  | cons done _ ih =>
    rw [List.cons_append, applyCommits, done]
    exact ih

theorem Committed.named {σ μ : Driven} (committed : Committed head js σ μ)
    {source route payloadHash id : String} (member : .route source route payloadHash id ∈ js) :
    strip route ≠ "" := by
  induction committed with
  | nil => cases member
  | cons done _ ih =>
    rcases List.mem_cons.mp member with rfl | later
    · exact (Store.commitRouteSelection_eq_ok done).1
    · exact ih later

theorem commit_keeps_prepares {s s' : Store} {c : Commit} (done : s.commit head c = .ok s')
    {id : String} (present : (get? s.prepares id).isSome) : (get? s'.prepares id).isSome := by
  cases c with
  | taskResult =>
    cases Store.commitTaskResult_eq_ok done
    exact present
  | route =>
    obtain ⟨_, rfl⟩ := Store.commitRouteSelection_eq_ok done
    exact present
  | interrupt =>
    cases Store.commitInterrupt_eq_ok done
    exact present
  | retry =>
    cases Store.commitRetry_eq_ok done
    exact present
  | failure =>
    obtain ⟨_, rfl⟩ := Store.commitFailures_eq_ok done
    exact present
  | engineFailure =>
    obtain ⟨_, rfl⟩ := Store.commitFailures_eq_ok done
    exact present
  | prepare receipt =>
    cases Store.prepareTerminalProjection_eq_ok done
    rw [get?_setDefault]
    split
    · rfl
    · exact present
  | frontier =>
    obtain ⟨_, _, _, _, rfl⟩ := Store.commitFrontier_eq_ok done
    exact present

theorem Committed.prepared {σ μ : Driven} (committed : Committed head js σ μ) {r : PrepareReceipt}
    (found : .prepare r ∈ js ∨ (get? σ.store.prepares r.operationId).isSome) :
    (get? μ.store.prepares r.operationId).isSome := by
  induction committed with
  | nil =>
    rcases found with impossible | present
    · cases impossible
    · exact present
  | cons done _ ih =>
    apply ih
    rcases found with member | present
    · rcases List.mem_cons.mp member with rfl | later
      · right
        cases Store.prepareTerminalProjection_eq_ok done
        rw [get?_setDefault, if_pos rfl]
        rfl
      · exact Or.inl later
    · exact Or.inr (commit_keeps_prepares done present)

section
variable {x : Executable} {answers : Responses} {snap : NativeSnapshot} {inv : Invocation}
  {σ μ τ : Driven} {head : String}

theorem recordOf_allowed {c : Commit} (before : Store)
    (allowed : Replayable x answers snap c ∨ Halting x answers snap c) : recordOf before c = [] := by
  cases c with
  | frontier => exact absurd allowed (by simp [Replayable, Halting])
  | taskResult | route | interrupt | retry | failure | engineFailure | prepare => rfl

variable {js : List Commit}

theorem Committed.keep (committed : Committed head js σ μ)
    (allowed : ∀ c ∈ js, Replayable x answers snap c ∨ Halting x answers snap c)
    (kept : Resumable x answers snap σ.store) :
    Resumable x answers snap μ.store ∧
      μ.store.materializedIntents = σ.store.materializedIntents ∧ μ.history = σ.history := by
  induction committed with
  | nil => exact ⟨kept, rfl, rfl⟩
  | @cons c _ σ _ _ done _ ih =>
    have here := allowed c (by simp)
    obtain ⟨kept', intents⟩ := kept.keep here done
    obtain ⟨last, intents', history⟩ := ih (fun c' hc => allowed c' (by simp [hc])) kept'
    refine ⟨last, intents'.trans intents, ?_⟩
    rw [history, recordOf_allowed σ.store here, List.append_nil]

theorem committed_of_replayable (replayed : ∀ c ∈ js, Replayable x answers snap c)
    (active : snap.frontier ≠ [])
    (named : ∀ state, MergesTo x answers snap state → ∀ task ∈ snap.frontier, ∀ route target,
      Selects x snap state task route target → strip route ≠ "")
    (kept : Resumable x answers snap σ.store) : ∃ μ, Committed snap.checkpointId js σ μ := by
  induction js generalizing σ with
  | nil => exact ⟨σ, .nil σ⟩
  | cons c rest ih =>
    have here := replayed c (by simp)
    obtain ⟨store, done⟩ := kept.replay_ok active here named
    obtain ⟨μ, later⟩ := ih (σ := ⟨store, σ.history ++ recordOf σ.store c⟩)
      (fun c' hc => replayed c' (by simp [hc])) (kept.keep (Or.inl here) done).1
    exact ⟨μ, .cons done later⟩

theorem resumable_advance {s : Store} (kept : Resumable x answers snap s)
    (active : snap.frontier ≠ []) {state : State} (merges : MergesTo x answers snap state)
    {next : NextFrontier}
    (scheduled : nextFrontier x.workflow snap (x.selectedRoute (fresh snap) state) state =
      .ok next) (operationId : String) (stored : Dict String Json) :
    Resumable x answers (advance snap operationId state next) { s with
      snapshot := some (advance snap operationId state next)
      pending := []
      materializedIntents := stored
      routeSelections := []
      pendingConsumed := []
      interrupt := none } where
  head := rfl
  distinct := nextFrontier_nodup scheduled
  pending := by simp
  consumed := by simp
  routes := by simp
  retries := by simp [kept.no_retries merges.1, keys]
  prepares := by
    intro unfinished id receipt found
    obtain ⟨⟨state', next', merges', scheduled', ended, _⟩, _⟩ := kept.prepares active _ _ found
    cases merges.unique merges'
    cases scheduled.symm.trans scheduled'
    exact absurd ended unfinished

theorem advances_of_commit {c : Commit} {store : Store}
    (identified : snap.runId = inv.runId ∧ snap.threadId = inv.threadId ∧ snap.checkpointNs =
      inv.checkpointNs) (active : snap.frontier ≠ [])
    (within : snap.step < x.workflow.definition.maxSupersteps)
    (kept : Resumable x answers snap σ.store) (replayed : ∀ c ∈ js, Replayable x answers snap c)
    (closes : Closes x answers snap σ.store js c) (committed : Committed head js σ μ)
    (done : μ.store.commit head c = .ok store) :
    ∃ record stored, Advances x answers snap inv σ.store.materializedIntents record stored ∧
      recordOf μ.store c = [record] ∧ Resumable x answers record.snapshot store ∧
      store.materializedIntents = stored := by
  obtain ⟨state, next, receipt, intents, consumed, ready, rfl, uses, _, routes⟩ := closes
  obtain ⟨merges, scheduled, ⟨first, made⟩, delivered, blobs⟩ := ready
  obtain ⟨kept', intents', _⟩ := committed.keep (fun c hc => Or.inl (replayed c hc)) kept
  obtain ⟨snap', stored, current, materialized, rfl⟩ := Store.commitFrontier_eq_ok done
  cases kept'.head.symm.trans current
  rw [intents'] at materialized
  refine ⟨⟨advance snap _ state next, consumed, (sortedBy (·.taskId) snap.frontier).map fun task =>
    (task.taskId, resultOf x answers snap task)⟩, stored, ?_, ?_,
    resumable_advance kept' active merges scheduled _ stored, rfl⟩
  · refine ⟨identified, active, within, merges.1.known, ?_,
      ⟨state, next, receipt, first, intents, merges, scheduled, made, delivered, blobs,
        materialized, rfl⟩, uses, rfl⟩
    intro state' merges' task ht route target selects
    cases merges.unique merges'
    rcases routes task ht route target selects with ⟨source, payloadHash, id, member⟩ | present
    · exact committed.named member
    · exact present
  · simp [recordOf, kept'.head]

theorem stopped_prefix (d : Drive) (commits : List Commit) :
    ∃ rest, commits = stopped d commits ++ rest := by
  unfold stopped
  split
  · exact ⟨[], (List.append_nil _).symm⟩
  · rename_i count _
    exact ⟨commits.drop count, (List.take_append_drop count commits).symm⟩

variable (x answers inv σ τ) in
/-- What a drive can do to a resumable superstep: leave it resumable, or commit the frontier of
the driver left alone. -/
inductive Drove : NativeSnapshot → NativeSnapshot → Prop
  | stayed {snap : NativeSnapshot} (kept : Resumable x answers snap τ.store)
      (intents : τ.store.materializedIntents = σ.store.materializedIntents)
      (history : τ.history = σ.history) : Drove snap snap
  | advanced {snap : NativeSnapshot} {record : Record}
      (advances : Advances x answers snap inv σ.store.materializedIntents record
        τ.store.materializedIntents)
      (kept : Resumable x answers record.snapshot τ.store)
      (history : τ.history = σ.history ++ [record]) : Drove snap record.snapshot

theorem drive_drove (kept : Resumable x answers snap σ.store)
    (stable : σ.store.routeSelections ≠ [] → RouteNamesStable x answers snap) {d : Drive} (fits : d.Fits x inv σ)
    (answered : ∀ id value, d.responses id = some value → answers id = some value) :
    ∃ snap', Drove x answers inv σ (drive x inv d σ) snap snap' := by
  unfold drive
  rcases kept.load inv with ⟨run, thread, namespaced, loaded⟩ | ⟨_, error, failed⟩
  · have order := fits _ loaded
    rw [loaded]
    dsimp only
    obtain ⟨rest, whole⟩ := stopped_prefix d (x.plan d σ.store.prepares (σ.store.execution snap))
    obtain ⟨done, rest', part, committed⟩ := applyCommits_committed
      (σ.store.execution snap).snapshot.checkpointId
      (stopped d (x.plan d σ.store.prepares (σ.store.execution snap))) σ
    generalize applyCommits _ _ σ = τ at committed ⊢
    rw [part, List.append_assoc] at whole
    rcases plan_cases kept stable answered order with
      ⟨js, c, plan, replayed, closes, active, within⟩ | ⟨allowed, _⟩
    · rw [plan] at whole
      rcases List.append_eq_append_iff.mp whole with ⟨more, same, tail⟩ | ⟨more, same, tail⟩
      · -- The drive went at least as far as the frontier commit.
        cases more with
        | nil =>
          rw [List.append_nil] at same
          subst same
          obtain ⟨kept', intents, history⟩ :=
            committed.keep (fun c hc => Or.inl (replayed c hc)) kept
          exact ⟨snap, .stayed kept' intents history⟩
        | cons last more =>
          simp only [List.cons_append, List.cons.injEq, List.nil_eq, List.append_eq_nil_iff] at tail
          obtain ⟨rfl, rfl, _⟩ := tail
          rw [same] at committed
          obtain ⟨μ, earlier, final⟩ := committed.split
          cases final with
          | cons accepted nothing =>
            cases nothing
            obtain ⟨_, _, before⟩ := earlier.keep (fun c hc => Or.inl (replayed c hc)) kept
            obtain ⟨record, stored, advances, recorded, kept', intents⟩ := advances_of_commit
              ⟨run, thread, namespaced⟩ active within kept replayed closes earlier accepted
            subst intents
            refine ⟨record.snapshot, .advanced advances kept' ?_⟩
            dsimp only
            rw [before, recorded]
      · have part' : ∀ c ∈ done, Replayable x answers snap c := by
          intro c hc
          apply replayed
          rw [same]
          exact List.mem_append_left _ hc
        obtain ⟨kept', intents, history⟩ := committed.keep (fun c hc => Or.inl (part' c hc)) kept
        exact ⟨snap, .stayed kept' intents history⟩
    · have part' : ∀ c ∈ done, Replayable x answers snap c ∨ Halting x answers snap c := by
        intro c hc
        apply allowed
        rw [whole]
        exact List.mem_append_left _ hc
      obtain ⟨kept', intents, history⟩ := committed.keep part' kept
      exact ⟨snap, .stayed kept' intents history⟩
  · rw [failed]
    exact ⟨snap, .stayed kept rfl rfl⟩

theorem sequential_fits (inv : Invocation) (answers : Responses) :
    (Drive.sequential answers).Fits x inv σ := by
  intro exec _ parallel
  simp [Executable.runsInParallel, Drive.sequential] at parallel

/-- A drive that has every response and is not stopped, with any parallelism and order. -/
structure Unstopped (x : Executable) (inv : Invocation) (answers : Responses) (σ : Driven)
    (d : Drive) : Prop where
  answered : d.responses = answers
  running : d.stopAfter = none
  fits : d.Fits x inv σ

theorem unstopped_sequential (inv : Invocation) (answers : Responses) :
    Unstopped x inv answers σ (.sequential answers) :=
  ⟨rfl, rfl, sequential_fits inv answers⟩

theorem unstopped_advances (kept : Resumable x answers snap σ.store)
    (stable : σ.store.routeSelections ≠ [] → RouteNamesStable x answers snap) {d : Drive} (free : Unstopped x inv answers σ d)
    {record : Record} {stored : Dict String Json}
    (advances : Advances x answers snap inv σ.store.materializedIntents record stored) :
    (drive x inv d σ).history ≠ σ.history := by
  obtain ⟨run, thread, namespaced⟩ := advances.identified
  obtain ⟨state, next, receipt, first, intents, merges, scheduled, made, delivered, blobs,
    materialized, _⟩ := advances.committed
  have ready : Ready x answers snap state next receipt intents :=
    ⟨merges, scheduled, ⟨first, made⟩, delivered, blobs⟩
  have loaded : σ.store.loadExecution inv.runId inv.threadId inv.checkpointNs =
      .ok (σ.store.execution snap) := by
    rcases kept.load inv with ⟨_, _, _, loaded⟩ | ⟨different, _⟩
    · exact loaded
    · exact absurd advances.identified different
  have checkpoint : (σ.store.execution snap).snapshot.checkpointId = snap.checkpointId :=
    withRetries_checkpointId _ _
  rcases plan_cases kept stable (fun id value found => free.answered ▸ found)
    (free.fits _ loaded) with
    ⟨js, c, plan, replayed, closes, _, _⟩ | ⟨_, unready⟩
  · obtain ⟨μ, earlier⟩ := committed_of_replayable replayed advances.active advances.named kept
    obtain ⟨kept', intents', history⟩ := earlier.keep (fun c hc => Or.inl (replayed c hc)) kept
    obtain ⟨state', next', receipt', intents'', consumed, ready', rfl, _, receipts, _⟩ := closes
    obtain ⟨merges', scheduled', ⟨first', made'⟩, delivered', _⟩ := ready'
    cases merges.unique merges'
    cases scheduled.symm.trans scheduled'
    cases made.symm.trans made'
    cases delivered.symm.trans delivered'
    have prepared : ((receipt.map (·.operationId)).all fun id =>
        (get? μ.store.prepares id).isSome) = true := by
      cases receipt with
      | none => rfl
      | some r =>
        have found := receipts r rfl
        exact earlier.prepared (found.imp_right fun stored => by rw [stored]; rfl)
    have accepted : ∃ store, μ.store.commit snap.checkpointId
        (.frontier (frontierOperationId snap next.frontier state intents) state next intents
          (receipt.map (·.operationId)) consumed ((sortedBy (·.taskId) snap.frontier).map fun task =>
            (task.taskId, resultOf x answers snap task))) = .ok store := by
      rw [← intents'] at materialized
      simp only [Store.commit, Store.commitFrontier, Store.requireHead_eq kept'.head, bind,
        Except.bind, materialized, prepared, if_true]
      exact ⟨_, rfl⟩
    obtain ⟨store, accepted⟩ := accepted
    unfold drive
    rw [loaded]
    dsimp only
    rw [checkpoint, stopped, plan, free.running]
    dsimp only
    rw [earlier.applied, applyCommits, accepted]
    simp [applyCommits, recordOf, kept'.head, history]
  · exact absurd ready
      (unready free.answered advances.active advances.within state next receipt intents)

end

/-! ### Whole runs -/

def SameHistory : List Record → List Record → Prop := List.Forall₂ Record.Same

/-- Two drivers at the same point of the same run. -/
structure Alike (x : Executable) (answers : Responses) (snap : NativeSnapshot) (σ υ : Driven) :
    Prop where
  left : Resumable x answers snap σ.store
  right : Resumable x answers snap υ.store
  intents : σ.store.materializedIntents = υ.store.materializedIntents
  history : SameHistory σ.history υ.history

section
variable {x : Executable} {answers : Responses} {inv : Invocation} {snap : NativeSnapshot}
  {σ υ : Driven}

/-- Whatever one drive does, the other driver left alone is at the same point after as many
commits. -/
theorem Alike.again (alike : Alike x answers snap σ υ) (stable : RouteNamesStable x answers snap)
    {d : Drive} (fits : d.Fits x inv σ)
    (answered : ∀ id value, d.responses id = some value → answers id = some value) :
    Alike x answers snap (drive x inv d σ) υ ∨
      ∃ snap', Alike x answers snap' (drive x inv d σ) (drive x inv (.sequential answers) υ) := by
  obtain ⟨snap', drove⟩ := drive_drove alike.left (fun _ => stable) fits answered
  cases drove with
  | stayed kept intents history =>
    left
    exact ⟨kept, alike.right, intents.trans alike.intents, history ▸ alike.history⟩
  | advanced advances kept history =>
    right
    rw [alike.intents] at advances
    have moved := unstopped_advances alike.right (fun _ => stable) (unstopped_sequential inv answers) advances
    obtain ⟨snap'', drove'⟩ := drive_drove alike.right (fun _ => stable) (sequential_fits inv answers)
      (fun _ _ found => found)
    cases drove' with
    | stayed _ _ history' => exact absurd history' moved
    | advanced advances' kept' history' =>
      obtain ⟨same, stored⟩ := advances.unique advances'
      rw [← same.snapshot] at kept'
      refine ⟨_, kept, kept', stored, ?_⟩
      rw [history, history']
      exact List.rel_append alike.history (.cons same .nil)

theorem Alike.unstopped (alike : Alike x answers snap σ υ)
    (stable : RouteNamesStable x answers snap) {d : Drive} (free : Unstopped x inv answers σ d) :
    ∃ snap', Alike x answers snap' (drive x inv d σ) (drive x inv (.sequential answers) υ) := by
  have answered : ∀ id value, d.responses id = some value → answers id = some value :=
    fun id value found => free.answered ▸ found
  rcases alike.again stable free.fits answered with here | there
  · -- The first driver did not commit, so the second one cannot.
    obtain ⟨snap', drove⟩ := drive_drove alike.right (fun _ => stable) (sequential_fits inv answers)
      (fun _ _ found => found)
    cases drove with
    | stayed kept intents history =>
      exact ⟨snap, here.left, kept, here.intents.trans intents.symm, history ▸ here.history⟩
    | advanced advances _ _ =>
      rw [← alike.intents] at advances
      have moved := unstopped_advances alike.left (fun _ => stable) free advances
      obtain ⟨_, drove'⟩ := drive_drove alike.left (fun _ => stable) free.fits answered
      cases drove' with
      | stayed _ _ history => exact absurd history moved
      | advanced _ _ history =>
        have short := alike.history.length_eq
        have long := here.history.length_eq
        rw [history, List.length_append] at long
        simp only [List.length_cons, List.length_nil] at long
        omega
  · exact there

theorem start_resumable (answers : Responses) (begun : start x inv = .ok σ) :
    ∃ snap, genesis x.workflow inv = .ok snap ∧ Resumable x answers snap σ.store ∧
      σ.history = [] := by
  obtain ⟨snap, first, begun⟩ := bind_eq_ok begun
  cases begun
  obtain ⟨entry, _, alone, _⟩ := genesis_eq_ok first
  refine ⟨snap, first, ?_, rfl⟩
  constructor
  · rfl
  · simp [alone]
  · simp [Store.empty]
  · simp [Store.empty]
  · simp [Store.empty]
  · simp [Store.empty, keys]
  · simp [Store.empty]

theorem driveOn_succ (n : Nat) (σ : Driven) :
    driveOn x inv answers (n + 1) σ =
      drive x inv (.sequential answers) (driveOn x inv answers n σ) := by
  induction n generalizing σ with
  | zero => rfl
  | succ n ih => exact ih _

variable (x answers) in
/-- The commit merged one result of every task of the frontier, the one its handler gives at the
snapshot before, and nothing else. -/
structure AppliedOnce (snap : NativeSnapshot) (record : Record) : Prop where
  distinct : (record.writes.map Prod.fst).Nodup
  tasks : (record.writes.map Prod.fst).Perm (snap.frontier.map (·.taskId))
  results : ∀ task ∈ snap.frontier, ∃ patch used, Yields x answers snap task patch used ∧
    (task.taskId, patch) ∈ record.writes
  merged : ∃ route intents, superstep x.workflow snap
    ⟨Executable.patchFor record.writes, route, intents⟩ = .ok record.snapshot

variable (x answers) in
/-- The commits that lead from one snapshot to another, each applied once. -/
inductive Applied (first : NativeSnapshot) : List Record → NativeSnapshot → Prop
  | nil : Applied first [] first
  | snoc {history : List Record} {snap : NativeSnapshot} {record : Record}
      (before : Applied first history snap) (once : AppliedOnce x answers snap record) :
      Applied first (history ++ [record]) record.snapshot

theorem Advances.appliedOnce {stored stored' : Dict String Json} {record : Record}
    (advances : Advances x answers snap inv stored record stored')
    (distinct : (snap.frontier.map (·.taskId)).Nodup) : AppliedOnce x answers snap record := by
  obtain ⟨state, next, receipt, _, intents, merges, scheduled, _, _, blobs, _, committed⟩ :=
    advances.committed
  have ids : record.writes.map Prod.fst =
      (sortedBy (·.taskId) snap.frontier).map (·.taskId) := by
    rw [advances.writes, List.map_map]
    rfl
  have reordered := (perm_sortedBy (·.taskId) snap.frontier).map (·.taskId)
  have separate : (record.writes.map Prod.fst).Nodup := by
    rw [ids]
    exact reordered.nodup_iff.mpr distinct
  have present : ∀ task ∈ snap.frontier,
      (task.taskId, resultOf x answers snap task) ∈ record.writes := by
    intro task ht
    rw [advances.writes]
    exact List.mem_map.mpr ⟨task, (mem_sortedBy _ _ _).mpr ht, rfl⟩
  refine ⟨separate, by rw [ids]; exact reordered, ?_, ?_⟩
  · intro task ht
    obtain ⟨patch, used, yields⟩ := merges.1 task ht
    refine ⟨patch, used, yields, ?_⟩
    rw [← resultOf_eq yields]
    exact present task ht
  · refine ⟨x.selectedRoute (fresh snap) state, fun _ _ => .ok intents, ?_⟩
    have patches : mergedState x.workflow snap (Executable.patchFor record.writes) = .ok state := by
      rw [← merges.2]
      apply mergedState_congr
      intro task ht
      rw [Executable.patchFor, get?_eq_some_of_mem separate (present task ht)]
      rfl
    simp only [superstep, patches, scheduled, blobs, bind, Except.bind, pure, Except.pure]
    rw [committed]

inductive DrivesOn (x : Executable) (inv : Invocation) (answers : Responses) (σ : Driven) :
    Nat → Driven → Prop
  | zero : DrivesOn x inv answers σ 0 σ
  | again {n : Nat} {τ : Driven} {d : Drive} (before : DrivesOn x inv answers σ n τ)
      (free : Unstopped x inv answers τ d) : DrivesOn x inv answers σ (n + 1) (drive x inv d τ)

theorem Drove.applied {τ : Driven} {first snap' : NativeSnapshot}
    (drove : Drove x answers inv σ τ snap snap') (kept : Resumable x answers snap σ.store)
    (before : Applied x answers first σ.history snap) :
    Applied x answers first τ.history snap' ∧ Resumable x answers snap' τ.store := by
  cases drove with
  | stayed kept' _ history =>
    rw [history]
    exact ⟨before, kept'⟩
  | advanced advances kept' history =>
    rw [history]
    exact ⟨before.snoc (advances.appliedOnce kept.distinct), kept'⟩

theorem Resumable.head_unique {snap' : NativeSnapshot} {s : Store}
    (one : Resumable x answers snap s) (other : Resumable x answers snap' s) : snap = snap' := by
  have same := one.head.symm.trans other.head
  cases same
  rfl

theorem drives_alike {σ₀ : Driven} (begun : start x inv = .ok σ₀)
    (stable : ∀ n snap, (driveOn x inv answers n σ₀).store.snapshot = some snap →
      RouteNamesStable x answers snap) (run : Drives x inv answers σ) :
    ∃ n snap first, Alike x answers snap σ (driveOn x inv answers n σ₀) ∧
      genesis x.workflow inv = .ok first ∧ Applied x answers first σ.history snap := by
  induction run with
  | start begun' =>
    cases begun.symm.trans begun'
    obtain ⟨snap, first, kept, history⟩ := start_resumable answers begun
    refine ⟨0, snap, snap, ⟨kept, kept, rfl, ?_⟩, first, ?_⟩
    · rw [driveOn, history]
      exact .nil
    · rw [history]
      exact .nil
  | @again σ d _ fits answered ih =>
    obtain ⟨n, snap, first, alike, made, applied⟩ := ih
    have here := stable n snap alike.right.head
    obtain ⟨snap', drove⟩ := drive_drove alike.left (fun _ => here) fits answered
    obtain ⟨applied', kept⟩ := drove.applied alike.left applied
    rcases alike.again here fits answered with stayed | ⟨snap'', moved⟩
    · cases kept.head_unique stayed.left
      exact ⟨n, _, first, stayed, made, applied'⟩
    · cases kept.head_unique moved.left
      exact ⟨n + 1, _, first, by rw [driveOn_succ]; exact moved, made, applied'⟩

/-- However a run is stopped and driven again, it has committed what the driver left alone has
committed after some number of iterations, with every task result applied once, and unstopped
drives go on to commit the rest of it. -/
theorem crash_and_schedule_independent {σ₀ : Driven} (begun : start x inv = .ok σ₀)
    (stable : ∀ n snap, (driveOn x inv answers n σ₀).store.snapshot = some snap →
      RouteNamesStable x answers snap) (run : Drives x inv answers σ) :
    (∃ first snap, genesis x.workflow inv = .ok first ∧ σ.store.snapshot = some snap ∧
      Applied x answers first σ.history snap) ∧
    ∃ n, ∀ m τ, DrivesOn x inv answers σ m τ →
      SameHistory τ.history (driveOn x inv answers (n + m) σ₀).history ∧
        τ.store.snapshot = (driveOn x inv answers (n + m) σ₀).store.snapshot := by
  obtain ⟨n, snap, first, alike, made, applied⟩ := drives_alike begun stable run
  refine ⟨⟨first, snap, made, alike.left.head, applied⟩, n, ?_⟩
  intro m τ on
  have reached : ∃ snap', Alike x answers snap' τ (driveOn x inv answers (n + m) σ₀) := by
    induction on with
    | zero => exact ⟨snap, alike⟩
    | @again m τ d _ free ih =>
      obtain ⟨snap', alike'⟩ := ih
      have here := stable (n + m) snap' alike'.right.head
      obtain ⟨snap'', next⟩ := alike'.unstopped here free
      refine ⟨snap'', ?_⟩
      rw [← Nat.add_assoc, driveOn_succ]
      exact next
  obtain ⟨snap', alike'⟩ := reached
  exact ⟨alike'.history, alike'.left.head.trans alike'.right.head.symm⟩

end

/-! ### Route names with surrounding space -/

/-- A triage whose conditional edge leads to the archive under two names. -/
def triage : WorkflowDefinition where
  name := "triage"
  version := "1"
  stateSchemaVersion := 1
  entryNode := "triage"
  nodes := [⟨{ nodeId := "triage" }, by decide⟩, ⟨{ nodeId := "archive" }, by decide⟩]
  channels := []
  recursionLimit := 11
  maxSupersteps := 10
  conditionalEdges := [⟨⟨"triage", [("keep", "archive"), (" hold", "archive")], some "pure"⟩,
    by decide, by decide⟩]

theorem triage_accepted : validateDefinition triage = .ok () := by decide +kernel

theorem triage_bound : cycleBindings triage (adjacencyOf triage false) = .ok [] := by
  decide +kernel

def triageWorkflow : CompiledWorkflow := ⟨triage, triage_accepted, [], triage_bound⟩

/-- Handlers that write nothing, and a selector that always picks the same name. -/
def triageRun (selected : String) : Executable where
  workflow := triageWorkflow
  handler := fun _ _ => .finish (.ok [])
  selector := fun _ _ => .ok selected
  projection := none
  terminalIntents := fun _ _ _ => .ok []

@[simp] theorem triageRun_workflow (selected : String) :
    (triageRun selected).workflow = triageWorkflow := rfl

def noAnswers : Responses := fun _ => none

variable {snap : NativeSnapshot}

theorem triage_route {selected route : String} {conditional : ConditionalEdge} {state : State}
    (chosen : (triageRun selected).route conditional snap state = .ok route) :
    route = selected := by
  unfold Executable.route at chosen
  split at chosen
  · cases chosen
  · rename_i stamp _
    cases number : stamp.isNumber with
    | false => simp [number, invalidPatch, bind, Except.bind, Except.mapError] at chosen
    | true =>
      cases leads : get? conditional.routes selected with
      | none =>
        simp [number, leads, triageRun, invalidPatch, bind, Except.bind, Except.mapError] at chosen
      | some target =>
        simp only [number, leads, triageRun, bind, Except.bind, Except.mapError, Bool.not_true,
          Bool.false_eq_true, if_false, pure, Except.pure, Option.isNone_some] at chosen
        cases chosen
        rfl

theorem triage_start (selected : String) :
    ∃ σ₀, start (triageRun selected) plainInvocation = .ok σ₀ := by
  obtain ⟨s0, first⟩ := genesis_ok triageWorkflow plainInvocation
    (by decide +kernel) (by decide +kernel) (by decide +kernel)
  refine ⟨⟨{ Store.empty with snapshot := some s0 }, []⟩, ?_⟩
  have here : genesis (triageRun selected).workflow plainInvocation = .ok s0 := first
  simp only [start, here, bind, Except.bind]
  rfl

/-- A drive of the triage that stops after the route is selected. -/
def stopAfterRoute : Drive := ⟨noAnswers, 1, [], some 2⟩

theorem stopAfterRoute_fits {x : Executable} {inv : Invocation} {σ : Driven} :
    stopAfterRoute.Fits x inv σ := by
  intro exec _ parallel
  simp [Executable.runsInParallel, stopAfterRoute] at parallel

theorem crash_and_schedule_independent_triage :
    ∃ σ₀, start (triageRun "keep") plainInvocation = .ok σ₀ ∧
      ∃ n, ∀ m τ, DrivesOn (triageRun "keep") plainInvocation noAnswers
          (drive (triageRun "keep") plainInvocation stopAfterRoute σ₀) m τ →
        SameHistory τ.history
          (driveOn (triageRun "keep") plainInvocation noAnswers (n + m) σ₀).history ∧
        τ.store.snapshot =
          (driveOn (triageRun "keep") plainInvocation noAnswers (n + m) σ₀).store.snapshot := by
  obtain ⟨σ₀, begun⟩ := triage_start "keep"
  refine ⟨σ₀, begun, (crash_and_schedule_independent begun ?_
    (.again stopAfterRoute (.start begun) stopAfterRoute_fits fun _ _ found => found)).2⟩
  intro n snap _ state _ task _ conditional _ route chosen
  cases triage_route chosen
  right
  have trimmed : strip "keep" = "keep" := by decide +kernel
  rw [trimmed]

/-- The genesis snapshot of the triage, as far as its first superstep reads it. -/
structure AtTriage (snap : NativeSnapshot) (task : NativeTask) : Prop where
  alone : snap.frontier = [task]
  node : task.nodeId = "triage"
  state : snap.state = []
  step : snap.step = 0
  identified : snap.runId = plainInvocation.runId ∧ snap.threadId = plainInvocation.threadId ∧
    snap.checkpointNs = plainInvocation.checkpointNs
  stamped : get? snap.metadata "logical_timestamp" = some (.int 0)

theorem atTriage_genesis (first : genesis triageWorkflow plainInvocation = .ok snap) :
    ∃ task, AtTriage snap task := by
  obtain ⟨task, entry, alone, _, _, state, step, runId, _⟩ := genesis_eq_ok first
  obtain ⟨threadId, checkpointNs, stamped⟩ := genesis_identity first
  refine ⟨task, alone, ?_, state, step, ⟨?_, ?_, checkpointNs⟩, stamped⟩
  · rw [(entryTask_eq_ok entry).2.1]
    decide +kernel
  · rw [runId]
    decide +kernel
  · rw [threadId]
    decide +kernel

section
variable {snap : NativeSnapshot} {task : NativeTask}

theorem AtTriage.yields (here : AtTriage snap task) :
    Yields (triageRun " hold") noAnswers snap task [] [] := by
  have valid : triageWorkflow.validatePatch "triage" [] = .ok () := by decide +kernel
  simp only [Yields, Executable.runTaskWorker, Executable.runNode, triageRun, NodeProgram.run,
    here.node, valid, bind, Except.bind, pure, Except.pure]
  rfl

theorem AtTriage.merges (here : AtTriage snap task) :
    MergesTo (triageRun " hold") noAnswers snap [] := by
  constructor
  · intro t ht
    rw [here.alone] at ht
    cases List.mem_singleton.mp ht
    exact ⟨[], [], here.yields⟩
  · have known : ∀ t ∈ snap.frontier, (triageWorkflow.node t.nodeId).isSome := by
      rw [here.alone]
      intro t ht
      cases List.mem_singleton.mp ht
      rw [here.node]
      decide +kernel
    have quiet : mergedState triageWorkflow snap (quietInput fun _ => .ok "").patch =
        .ok snap.state := mergedState_quiet _ known
    rw [here.state] at quiet
    rw [← quiet]
    apply mergedState_congr
    intro t ht
    rw [here.alone] at ht
    cases List.mem_singleton.mp ht
    exact resultOf_eq here.yields

theorem triage_conditional : ∃ conditional,
    triageWorkflow.conditionalFor "triage" = some conditional ∧
      get? conditional.routes " hold" = some "archive" ∧ get? conditional.routes "hold" = none :=
  ⟨_, rfl, by decide, by decide⟩

section
variable (here : AtTriage snap task)
include here

theorem AtTriage.route_hold {conditional : ConditionalEdge}
    (leads : get? conditional.routes " hold" = some "archive") :
    (triageRun " hold").route conditional snap [] = .ok " hold" := by
  simp only [Executable.route, here.stamped, triageRun, Json.isNumber, leads, bind, Except.bind,
    Except.mapError, Bool.not_true, Bool.false_eq_true, if_false, pure, Except.pure,
    Option.isNone_some]

theorem AtTriage.selected :
    (triageRun " hold").selectedRoute (fresh snap) [] task = .ok " hold" := by
  obtain ⟨conditional, edge, leads, _⟩ := triage_conditional
  rw [← here.route_hold leads]
  simp [Executable.selectedRoute, fresh, here.node, edge]

theorem AtTriage.targets :
    directTargets triageWorkflow ((triageRun " hold").selectedRoute (fresh snap) []) task =
      .ok ["archive"] := by
  obtain ⟨conditional, edge, leads, _⟩ := triage_conditional
  rw [← here.node] at edge
  exact directTargets_selected (x := triageRun " hold") edge here.selected leads

theorem AtTriage.scheduled :
    ∃ next, nextFrontier triageWorkflow snap
      ((triageRun " hold").selectedRoute (fresh snap) []) [] = .ok next := by
  have order : sortedBy (·.taskId) [task] = [task] := rfl
  have joins : triageWorkflow.joinEdgesFor task.nodeId = [] := by
    rw [here.node]
    decide +kernel
  have collected : progress triageWorkflow snap
      ((triageRun " hold").selectedRoute (fresh snap) []) =
      .ok ⟨snap.completedActivations, snap.joinFirings,
        directCandidates snap task ["archive"]⟩ := by
    rw [progress, here.alone, order, collect, taskStep, here.targets, joins]
    rfl
  have single : directCandidates snap task ["archive"] =
      [⟨"archive", task, activationOf snap task, .direct⟩] := rfl
  have named : strip "archive" ≠ "" := by decide +kernel
  have allowed : ∃ made, taskOf triageWorkflow snap []
      ⟨"archive", task, activationOf snap task, .direct⟩ = .ok made :=
    taskOf_ok snap (validateLoopBudget_unbound rfl _ _ _) named (strip_stableId_ne_empty _)
  obtain ⟨made, created⟩ := allowed
  have sorted : ([⟨"archive", task, activationOf snap task, .direct⟩] :
      List Candidate).insertionSort (fun a b => candidateLe a b) =
      [⟨"archive", task, activationOf snap task, .direct⟩] := rfl
  simp only [nextFrontier, collected, single, sorted, schedule, created, bind, Except.bind, pure,
    Except.pure]
  exact ⟨_, rfl⟩

theorem AtTriage.advances :
    ∃ record, Advances (triageRun " hold") noAnswers snap plainInvocation [] record [] := by
  obtain ⟨next, scheduled⟩ := here.scheduled
  have intents : (triageRun " hold").intentsOf snap [] next.frontier none = .ok [] := by
    unfold Executable.intentsOf
    split <;> rfl
  have prepare : (triageRun " hold").prepareTerminalProjection snap [] next.frontier [] =
      .ok (none, []) := by
    unfold Executable.prepareTerminalProjection
    split
    · rename_i pinned
      cases pinned
    · rfl
  refine ⟨⟨_, [], [(task.taskId, [])]⟩, here.identified, by simp [here.alone], ?_, here.merges.1.known,
    ?_, ⟨[], next, none, [], [], here.merges, scheduled, prepare, intents, rfl, rfl, rfl⟩, ?_, ?_⟩
  · rw [here.step]
    decide
  · intro state _ t _ route target selects
    obtain ⟨conditional, _, chosen, _⟩ := selects
    cases triage_route chosen
    decide +kernel
  · intro id
    constructor
    · intro none
      cases none
    · rintro ⟨t, ht, patch, used, yields, member⟩
      rw [here.alone] at ht
      cases List.mem_singleton.mp ht
      obtain ⟨_, rfl⟩ := yields.unique here.yields
      cases member
  · rw [here.alone]
    simp [sortedBy, resultOf_eq here.yields]

theorem AtTriage.pending :
    Executable.pendingTasks (fresh snap) = [task] := by
  simp [Executable.pendingTasks, fresh, here.alone, sortedBy]

theorem AtTriage.outcomes :
    (triageRun " hold").outcomesOf noAnswers snap.state [task] = .ok [⟨task, .result [] []⟩] := by
  have ran : (triageRun " hold").runTaskWorker noAnswers snap.state task =
      .ok (.result [] []) := here.yields
  simp only [Executable.outcomesOf, List.mapM_cons, List.mapM_nil, ran, bind, Except.bind, pure,
    Except.pure]

end

def holdHash (task : NativeTask) : String := stableId ([task.taskId, " hold"] ++ ["archive"])

variable {s : Store}

section
variable (here : AtTriage snap task)
include here

theorem AtTriage.planFrontier (clean : s.execution snap = fresh snap)
    (kept : Resumable (triageRun " hold") noAnswers snap s) :
    ∃ rest, (triageRun " hold").planFrontier s.prepares (fresh snap) [⟨task, .result [] []⟩] =
      .route "triage" " hold" (holdHash task) task.taskId :: rest := by
  obtain ⟨conditional, edge, _, _⟩ := triage_conditional
  have completes : Completes (triageRun " hold") noAnswers snap s [⟨task, .result [] []⟩] := by
    refine completes_of_results (fun _ _ found => found) (kept.execution_settled here.merges.1) ?_
      (by simp)
    rw [clean, here.pending]
    exact here.outcomes
  have unrouted : s.routeSelections = [] := congrArg NativeExecution.routeSelections clean
  have order : sortedBy (·.taskId) snap.frontier = [task] := by
    rw [here.alone]
    rfl
  have routed : (triageRun " hold").routeCommit (fresh snap) task ["archive"] (.ok " hold") =
      some (.route "triage" " hold" (holdHash task) task.taskId) := by
    simp [Executable.routeCommit, fresh, here.node, edge, holdHash]
  have later := planFrontier_eq kept (fun stored => absurd unrouted stored) here.merges.1 completes
  rw [here.merges.2] at later
  dsimp only at later
  rw [clean, order, Executable.routeCommits, triageRun_workflow, here.targets, here.selected]
    at later
  dsimp only at later
  rw [routed] at later
  exact ⟨_, later⟩

theorem AtTriage.plan (clean : s.execution snap = fresh snap)
    (kept : Resumable (triageRun " hold") noAnswers snap s) :
    ∃ rest, (triageRun " hold").plan stopAfterRoute s.prepares (fresh snap) =
      .taskResult task [] [] :: .route "triage" " hold" (holdHash task) task.taskId :: rest := by
  have ran : (triageRun " hold").runTaskWorker noAnswers snap.state task =
      .ok (.result [] []) := here.yields
  have active : (fresh snap).snapshot.frontier ≠ [] := by simp [fresh, here.alone]
  have within : ¬ (triageRun " hold").workflow.definition.maxSupersteps ≤
      ((fresh snap).snapshot.step : Int) := by
    simp [fresh, here.step, triageWorkflow, triage]
  have known : ¬ ([task].any fun t =>
      ((triageRun " hold").workflow.node t.nodeId).isNone) = true := by
    have found : (triageWorkflow.node "triage").isNone = false := by decide +kernel
    simp only [List.any_cons, List.any_nil, Bool.or_false, triageRun_workflow, here.node, found]
    decide
  have results : (triageRun " hold").taskCommits stopAfterRoute snap.state [task] =
      [.taskResult task [] []] := by
    have one : (triageRun " hold").resultCommit noAnswers snap.state task =
        some (.taskResult task [] []) := by
      rw [Executable.resultCommit, ran]
    simp [Executable.taskCommits, Executable.runsInParallel, stopAfterRoute, ran, one, Except.isOk,
      Except.toBool]
  have completed : settle (triageRun " hold").workflow (fresh snap).snapshot.frontier
      [⟨task, .result [] []⟩] = .completed := settle_all_results (by simp)
  obtain ⟨rest, later⟩ := here.planFrontier clean kept
  refine ⟨rest, ?_⟩
  have outcomes : (triageRun " hold").outcomesOf stopAfterRoute.responses (fresh snap).snapshot.state
      [task] = .ok [⟨task, .result [] []⟩] := here.outcomes
  have committed : (triageRun " hold").taskCommits stopAfterRoute (fresh snap).snapshot.state [task] =
      [.taskResult task [] []] := results
  unfold Executable.plan
  dsimp only
  rw [if_neg active, if_neg within, here.pending, if_neg known, outcomes, committed]
  dsimp only
  rw [Executable.planSettled, completed]
  dsimp only
  rw [later]
  rfl

/-- The store after the drive that stopped: the result and the selection are there, and the name
of the selected route has lost its space. -/
theorem AtTriage.stop {σ : Driven}
    (clean : σ.store.execution snap = fresh snap)
    (kept : Resumable (triageRun " hold") noAnswers snap σ.store) :
    let τ := drive (triageRun " hold") plainInvocation stopAfterRoute σ
    Resumable (triageRun " hold") noAnswers snap τ.store ∧ τ.history = σ.history ∧
      (get? τ.store.pending task.taskId).isSome ∧
      (get? τ.store.routeSelections task.taskId).map (·.selectedRoute) = some "hold" := by
  obtain ⟨rest, plan⟩ := here.plan clean kept
  obtain ⟨record, advances⟩ := here.advances
  obtain ⟨conditional, edge, leads, _⟩ := triage_conditional
  have inside : task ∈ snap.frontier := by simp [here.alone]
  have selects : Selects (triageRun " hold") snap [] task " hold" "archive" :=
    ⟨conditional, by simpa [here.node] using edge, here.route_hold leads, leads⟩
  have replayed : ∀ c ∈ [Commit.taskResult task [] [],
      .route "triage" " hold" (holdHash task) task.taskId],
      Replayable (triageRun " hold") noAnswers snap c := by
    intro c hc
    simp only [List.mem_cons, List.not_mem_nil, or_false] at hc
    rcases hc with rfl | rfl
    · exact ⟨task, inside, rfl, here.yields⟩
    · exact ⟨task, inside, [], "archive", here.merges, selects, here.node.symm, rfl, rfl⟩
  obtain ⟨μ, committed⟩ := committed_of_replayable replayed advances.active advances.named kept
  have loaded : σ.store.loadExecution plainInvocation.runId plainInvocation.threadId
      plainInvocation.checkpointNs = .ok (fresh snap) := by
    rcases kept.load plainInvocation with ⟨_, _, _, loaded⟩ | ⟨different, _⟩
    · rw [loaded, clean]
    · exact absurd here.identified different
  have reached : drive (triageRun " hold") plainInvocation stopAfterRoute σ = μ := by
    have applied := committed.applied []
    rw [List.append_nil] at applied
    unfold drive
    rw [loaded]
    dsimp only
    rw [plan]
    exact applied
  obtain ⟨kept', _, history⟩ := committed.keep (fun c hc => Or.inl (replayed c hc)) kept
  rw [reached]
  refine ⟨kept', history, ?_⟩
  have trimmed : strip " hold" = "hold" := by decide +kernel
  have unrouted : σ.store.routeSelections = [] := congrArg NativeExecution.routeSelections clean
  cases committed with
  | cons result routed =>
    cases routed with
    | cons route nothing =>
      cases nothing
      obtain ⟨_, same⟩ := Store.commitRouteSelection_eq_ok route
      have stored := Store.commitTaskResult_eq_ok result
      subst stored
      subst same
      constructor
      · dsimp only
        rw [get?_setDefault, if_pos rfl]
        rfl
      · dsimp only
        rw [task.strip_taskId, get?_setDefault, if_pos rfl, unrouted, trimmed]
        rfl

theorem AtTriage.plan_again
    (kept : Resumable (triageRun " hold") noAnswers snap s)
    (finished : (get? s.pending task.taskId).isSome)
    (stored : (get? s.routeSelections task.taskId).map (·.selectedRoute) = some "hold") :
    (triageRun " hold").planFrontier s.prepares (s.execution snap) [] =
      [.engineFailure snap.frontier] := by
  obtain ⟨conditional, edge, _, absent⟩ := triage_conditional
  obtain ⟨selection, found, name⟩ := Option.map_eq_some_iff.mp stored
  have exec := kept.execution_settled here.merges.1
  have completes : Completes (triageRun " hold") noAnswers snap s [] := by
    refine ⟨by simp, ?_⟩
    intro t ht missing
    rw [here.alone] at ht
    cases List.mem_singleton.mp ht
    simp [missing] at finished
  have merged : mergedState triageWorkflow snap
      (Executable.patchFor (Executable.patchesOf (s.execution snap) [])) = .ok [] := by
    rw [← here.merges.2]
    exact mergedState_congr fun t ht => completes.patchFor_eq kept rfl ht
  have selected : (triageRun " hold").selectedRoute (s.execution snap) [] task = .ok "hold" := by
    simp [Executable.selectedRoute, Store.execution, found, name]
  have lost : directTargets triageWorkflow ((triageRun " hold").selectedRoute (s.execution snap) [])
      task = .error (.keyError "hold") := by
    simp only [directTargets, here.node, edge, selected, bind, Except.bind, absent]
  have order : sortedBy (·.taskId) snap.frontier = [task] := by
    rw [here.alone]
    rfl
  have head : (s.execution snap).snapshot = snap := by rw [exec]
  unfold Executable.planFrontier
  dsimp only
  rw [head, triageRun_workflow, merged]
  dsimp only
  rw [order, Executable.routeCommits, triageRun_workflow, lost]
  cases scheduled : nextFrontier triageWorkflow snap
      ((triageRun " hold").selectedRoute (s.execution snap) []) [] with
  | error e => rfl
  | ok next =>
    obtain ⟨targets, ok⟩ := nextFrontier_targets scheduled task (by simp [here.alone])
    rw [lost] at ok
    cases ok

theorem AtTriage.stuck {σ : Driven}
    (kept : Resumable (triageRun " hold") noAnswers snap σ.store)
    (finished : (get? σ.store.pending task.taskId).isSome)
    (stored : (get? σ.store.routeSelections task.taskId).map (·.selectedRoute) = some "hold") :
    (drive (triageRun " hold") plainInvocation (.sequential noAnswers) σ).history = σ.history := by
  have exec := kept.execution_settled here.merges.1
  have waiting : Executable.pendingTasks (σ.store.execution snap) = [] := by
    rw [exec]
    simp only [Executable.pendingTasks, here.alone]
    obtain ⟨patch, found⟩ := Option.isSome_iff_exists.mp finished
    simp [sortedBy, found]
  have halts : ∀ c ∈ (triageRun " hold").plan (.sequential noAnswers) σ.store.prepares
      (σ.store.execution snap), Halting (triageRun " hold") noAnswers snap c := by
    have completed : settle (triageRun " hold").workflow (σ.store.execution snap).snapshot.frontier
        [] = .completed := settle_all_results (by simp)
    have none : (triageRun " hold").taskCommits (.sequential noAnswers)
        (σ.store.execution snap).snapshot.state [] = [] := by
      simp [Executable.taskCommits, Executable.runsInParallel, Drive.sequential]
    have ran : (triageRun " hold").outcomesOf (Drive.sequential noAnswers).responses
        (σ.store.execution snap).snapshot.state [] = .ok [] := rfl
    unfold Executable.plan
    dsimp only
    rw [waiting, ran, none]
    dsimp only
    rw [Executable.planSettled, completed]
    dsimp only
    rw [here.plan_again kept finished stored]
    intro c hc
    split at hc
    · cases hc
    · split at hc
      · cases List.mem_singleton.mp hc
        trivial
      · split at hc
        · cases hc
        · cases List.mem_singleton.mp hc
          trivial
  unfold drive
  rcases kept.load plainInvocation with ⟨_, _, _, loaded⟩ | ⟨_, error, failed⟩
  · rw [loaded]
    obtain ⟨done, rest, same, committed⟩ := applyCommits_committed
      (σ.store.execution snap).snapshot.checkpointId ((triageRun " hold").plan
        (.sequential noAnswers) σ.store.prepares (σ.store.execution snap)) σ
    exact (committed.keep (fun c hc => Or.inr (halts c (same ▸ List.mem_append_left _ hc))) kept).2.2
  · rw [failed]

end

theorem history_grows (x : Executable) (inv : Invocation) (answers : Responses) (n : Nat)
    (σ : Driven) : ∃ more, (driveOn x inv answers n σ).history = σ.history ++ more := by
  have commits : ∀ (head : String) (cs : List Commit) (σ : Driven),
      ∃ more, (applyCommits head cs σ).history = σ.history ++ more := by
    intro head cs
    induction cs with
    | nil =>
      intro σ
      exact ⟨[], (List.append_nil _).symm⟩
    | cons c rest ih =>
      intro σ
      unfold applyCommits
      split
      · exact ⟨[], (List.append_nil _).symm⟩
      · obtain ⟨more, grown⟩ := ih ⟨_, σ.history ++ recordOf σ.store c⟩
        exact ⟨recordOf σ.store c ++ more, by rw [grown, List.append_assoc]⟩
  induction n generalizing σ with
  | zero => exact ⟨[], (List.append_nil _).symm⟩
  | succ n ih =>
    obtain ⟨later, grown⟩ := ih (drive x inv (.sequential answers) σ)
    have first : ∃ more, (drive x inv (.sequential answers) σ).history = σ.history ++ more := by
      unfold drive
      split
      · exact ⟨[], (List.append_nil _).symm⟩
      · exact commits _ _ σ
    obtain ⟨more, moved⟩ := first
    refine ⟨more ++ later, ?_⟩
    rw [driveOn, grown, moved, List.append_assoc]

/-- The accepted triage picks the route " hold": left alone the driver commits a frontier, but
stopped once after the selection it never does. -/
theorem triage_lost_when_resumed :
    compileWorkflow triage = .ok triageWorkflow ∧
    ∃ σ₀, start (triageRun " hold") plainInvocation = .ok σ₀ ∧
      ∃ σ, Drives (triageRun " hold") plainInvocation noAnswers σ ∧
        ¬ ∃ n, ∀ m τ, DrivesOn (triageRun " hold") plainInvocation noAnswers σ m τ →
          SameHistory τ.history
            (driveOn (triageRun " hold") plainInvocation noAnswers (n + m) σ₀).history := by
  refine ⟨compileWorkflow_ok triage_accepted triage_bound, ?_⟩
  obtain ⟨σ₀, begun⟩ := triage_start " hold"
  obtain ⟨snap, first, kept, history⟩ := start_resumable noAnswers begun
  obtain ⟨task, here⟩ := atTriage_genesis first
  obtain ⟨s0, first', made⟩ := bind_eq_ok begun
  have clean : σ₀.store.execution snap = fresh snap ∧ σ₀.store.materializedIntents = [] := by
    cases made
    exact ⟨rfl, rfl⟩
  refine ⟨σ₀, begun, _, .again stopAfterRoute (.start begun) stopAfterRoute_fits
    (fun _ _ found => found), ?_⟩
  obtain ⟨kept', history', finished, stored⟩ := here.stop clean.1 kept
  have unmoved := here.stuck kept' finished stored
  rintro ⟨n, same⟩
  have alike := same 1 _ (.again .zero (unstopped_sequential plainInvocation noAnswers))
  rw [unmoved, history', history] at alike
  have moved : (drive (triageRun " hold") plainInvocation (.sequential noAnswers) σ₀).history ≠
      σ₀.history := by
    obtain ⟨record, advances⟩ := here.advances
    rw [← clean.2] at advances
    refine unstopped_advances kept ?_ (unstopped_sequential plainInvocation noAnswers) advances
    intro stored
    exact absurd (congrArg NativeExecution.routeSelections clean.1) stored
  obtain ⟨more, grown⟩ := history_grows (triageRun " hold") plainInvocation noAnswers n
    (drive (triageRun " hold") plainInvocation (.sequential noAnswers) σ₀)
  have nothing : (driveOn (triageRun " hold") plainInvocation noAnswers (n + 1) σ₀).history = [] :=
    List.forall₂_nil_left_iff.mp alike
  rw [driveOn, grown, List.append_eq_nil_iff] at nothing
  rw [history, nothing.1] at moved
  exact moved rfl

end

end Workflow
