import HarnessSdk.Workflow.Frontier

/-! What a superstep schedules, read off the state before it: every candidate comes from a
selected or single edge of a frontier task, or from a join that the frontier completes. -/
namespace Workflow
open PyDict PyText

theorem bind_eq_ok {ε α β : Type} {x : Except ε α} {f : α → Except ε β} {b : β}
    (done : x >>= f = .ok b) : ∃ a, x = .ok a ∧ f a = .ok b := by
  cases x with
  | error e => cases done
  | ok a => exact ⟨a, rfl, done⟩

theorem completedAt_set (completed : Dict String (List String)) (key key' : String)
    (values : List String) :
    completedAt (set completed key values) key' =
      if key = key' then values else completedAt completed key' := by
  unfold completedAt
  rw [get?_set]
  split <;> rfl

variable (values : List String)

theorem mem_addToken (value v : String) : v ∈ addToken values value ↔ v ∈ values ∨ v = value := by
  unfold addToken
  split
  · rename_i present
    constructor
    · exact Or.inl
    · rintro (old | rfl)
      · exact old
      · exact present
  · simp

theorem mem_keys_sourceTasks (source : String) :
    source ∈ keys (sourceTasks values) ↔ ∃ v ∈ values, (splitOnce ':' v).1 = source := by
  rw [sourceTasks, mem_keys_ofEntries]
  simp [keys]

theorem Edge.satisfiedBy_mono {edge : Edge} {values values' : List String}
    (more : ∀ v ∈ values, v ∈ values') (satisfied : edge.satisfiedBy values) :
    edge.satisfiedBy values' := by
  intro source hs
  obtain ⟨v, hv, first⟩ := (mem_keys_sourceTasks values source).mp (satisfied source hs)
  exact (mem_keys_sourceTasks values' source).mpr ⟨v, more v hv, first⟩

theorem joinKey_inj {target target' : String} {n n' : Nat}
    (same : joinKey target n = joinKey target' n') : target = target' ∧ n = n' :=
  keyed_inj same

def firedKey : Candidate → Option String
  | ⟨target, _, _, .join _ epoch⟩ => some (joinKey target epoch)
  | ⟨_, _, _, .direct⟩ => none

theorem joinStep_cases (snap : NativeSnapshot) (task : NativeTask) (p : Progress) (edge : Edge) :
    let key := joinKey edge.target task.joinEpoch
    let values := addToken (completedAt p.completed key) (token task)
    (joinStep snap task p edge).completed = set p.completed key values ∧
    ((edge.satisfiedBy values ∧ key ∉ p.firings ∧
        (joinStep snap task p edge).firings = p.firings ++ [key] ∧
        ∃ parts, (joinStep snap task p edge).candidates = p.candidates ++
          [⟨edge.target, representative snap.frontier edge task, stableId parts,
            .join edge task.joinEpoch⟩]) ∨
      (¬ (edge.satisfiedBy values ∧ key ∉ p.firings) ∧
        (joinStep snap task p edge).firings = p.firings ∧
        (joinStep snap task p edge).candidates = p.candidates)) := by
  intro key values
  by_cases fires : edge.satisfiedBy values ∧ key ∉ p.firings
  · have unfolded : joinStep snap task p edge = _ := if_pos fires
    rw [unfolded]
    exact ⟨rfl, Or.inl ⟨fires.1, fires.2, rfl, _, rfl⟩⟩
  · have unfolded : joinStep snap task p edge = _ := if_neg fires
    rw [unfolded]
    exact ⟨rfl, Or.inr ⟨fires, rfl, rfl⟩⟩

section
variable {w : CompiledWorkflow} {snap : NativeSnapshot} {route : NativeTask → Engine String}

theorem taskStep_eq_ok {p p' : Progress} {task : NativeTask}
    (done : taskStep w snap route p task = .ok p') :
    ∃ targets, directTargets w route task = .ok targets ∧
      p' = (w.joinEdgesFor task.nodeId).foldl (joinStep snap task)
        { p with candidates := p.candidates ++ directCandidates snap task targets } := by
  obtain ⟨targets, htargets, rest⟩ := bind_eq_ok done
  exact ⟨targets, htargets, (Except.ok.inj rest).symm⟩

theorem collect_invariant (Inv : List (NativeTask × Edge) → Progress → Prop)
    (direct : ∀ pairs p task targets, task ∈ snap.frontier →
      directTargets w route task = .ok targets → Inv pairs p →
      Inv pairs { p with candidates := p.candidates ++ directCandidates snap task targets })
    (join : ∀ pairs p task edge, task ∈ snap.frontier → edge ∈ w.joinEdgesFor task.nodeId →
      Inv pairs p → Inv (pairs ++ [(task, edge)]) (joinStep snap task p edge))
    {tasks : List NativeTask} (inside : ∀ task ∈ tasks, task ∈ snap.frontier)
    (pairs : List (NativeTask × Edge)) {p p' : Progress} (start : Inv pairs p)
    (done : collect w snap route tasks p = .ok p') :
    Inv (pairs ++ tasks.flatMap fun task => (w.joinEdgesFor task.nodeId).map (task, ·)) p' := by
  induction tasks generalizing pairs p with
  | nil =>
    cases done
    simpa using start
  | cons task rest ih =>
    obtain ⟨q, step, later⟩ := bind_eq_ok done
    obtain ⟨targets, htargets, rfl⟩ := taskStep_eq_ok step
    have here : task ∈ snap.frontier := inside task (by simp)
    have joins : ∀ edges : List Edge, (∀ edge ∈ edges, edge ∈ w.joinEdgesFor task.nodeId) →
        ∀ pairs p, Inv pairs p →
          Inv (pairs ++ edges.map (task, ·)) (edges.foldl (joinStep snap task) p) := by
      intro edges
      induction edges with
      | nil => intro _ pairs p hp; simpa using hp
      | cons edge edges ihe =>
        intro among pairs p hp
        have one := join pairs p task edge here (among edge (by simp)) hp
        have all := ihe (fun e he => among e (by simp [he])) _ _ one
        simpa using all
    have processed := joins _ (fun _ he => he) _ _ (direct pairs p task targets here htargets start)
    have whole := ih (fun t ht => inside t (by simp [ht])) _ processed later
    simpa using whole

end

/-! ### Joins that a frontier completes -/

section
variable (w : CompiledWorkflow) (snap : NativeSnapshot)

def reporters (key : String) : List NativeTask :=
  snap.frontier.filter fun task =>
    ∃ edge ∈ w.joinEdgesFor task.nodeId, joinKey edge.target task.joinEpoch = key

/-- The join has not fired at this epoch, and the tokens recorded for it so far together with
those of the frontier name all its sources. -/
def JoinReady (edge : Edge) (epoch : Nat) : Prop :=
  joinKey edge.target epoch ∉ snap.joinFirings ∧
    edge.satisfiedBy (completedAt snap.completedActivations (joinKey edge.target epoch) ++
      (reporters w snap (joinKey edge.target epoch)).map token)

instance (edge : Edge) (epoch : Nat) : Decidable (JoinReady w snap edge epoch) :=
  inferInstanceAs (Decidable (_ ∧ _))

variable (route : NativeTask → Engine String)

/-- A frontier task asks for a target over its selected or single edge. -/
def AsksDirectly (task : NativeTask) (target : String) : Prop :=
  task ∈ snap.frontier ∧ target ≠ endNode ∧
    ∃ targets, directTargets w route task = .ok targets ∧ target ∈ targets

def AsksByJoin (task : NativeTask) (edge : Edge) : Prop :=
  task ∈ snap.frontier ∧ edge ∈ w.joinEdgesFor task.nodeId ∧
    JoinReady w snap edge task.joinEpoch

def Candidate.Justified (c : Candidate) : Prop :=
  (c.origin = .direct ∧ AsksDirectly w snap route c.source c.target ∧
      c.activation = activationOf snap c.source) ∨
    ∃ edge task, c.origin = .join edge task.joinEpoch ∧ AsksByJoin w snap task edge ∧
      c.target = edge.target ∧ c.source = representative snap.frontier edge task ∧
      ∃ parts, c.activation = stableId parts

end

section
variable {w : CompiledWorkflow} {snap : NativeSnapshot} {route : NativeTask → Engine String}

/-- The loop invariant behind the candidates: recorded tokens are old or reported by the
frontier, every candidate is justified, and the keys fired are new and distinct. -/
structure Collected (w : CompiledWorkflow) (snap : NativeSnapshot)
    (route : NativeTask → Engine String) (p : Progress) : Prop where
  tokens : ∀ key, ∀ v ∈ completedAt p.completed key,
    v ∈ completedAt snap.completedActivations key ∨ v ∈ (reporters w snap key).map token
  fired : p.firings = snap.joinFirings ++ p.candidates.filterMap firedKey
  distinct : (p.candidates.filterMap firedKey).Nodup
  justified : ∀ c ∈ p.candidates, c.Justified w snap route

theorem directCandidates_filterMap {α : Type} {snap : NativeSnapshot} {task : NativeTask}
    {targets : List String} {f : Candidate → Option α}
    (none : ∀ target activation, f ⟨target, task, activation, .direct⟩ = none) :
    (directCandidates snap task targets).filterMap f = [] := by
  rw [List.filterMap_eq_nil_iff]
  intro c hc
  obtain ⟨target, _, rfl⟩ := List.mem_map.mp hc
  exact none ..

variable {p : Progress} {task : NativeTask} {state : State} {cs : List Candidate}
  {taskPath : List String}

theorem Collected.direct {targets : List String} (inside : task ∈ snap.frontier)
    (found : directTargets w route task = .ok targets) (inv : Collected w snap route p) :
    Collected w snap route
      { p with candidates := p.candidates ++ directCandidates snap task targets } := by
  refine ⟨inv.tokens, ?_, ?_, ?_⟩
  · simpa [directCandidates_filterMap (f := firedKey) fun _ _ => rfl] using inv.fired
  · simpa [directCandidates_filterMap (f := firedKey) fun _ _ => rfl] using inv.distinct
  · intro c hc
    rcases List.mem_append.mp hc with old | new
    · exact inv.justified c old
    · obtain ⟨target, htarget, rfl⟩ := List.mem_map.mp new
      obtain ⟨among, notEnd⟩ := List.mem_filter.mp htarget
      exact Or.inl ⟨rfl, ⟨inside, by simpa using notEnd, targets, found, among⟩, rfl⟩

theorem Collected.join {edge : Edge} (inside : task ∈ snap.frontier)
    (among : edge ∈ w.joinEdgesFor task.nodeId) (inv : Collected w snap route p) :
    Collected w snap route (joinStep snap task p edge) := by
  have reports : task ∈ reporters w snap (joinKey edge.target task.joinEpoch) := by
    refine List.mem_filter.mpr ⟨inside, ?_⟩
    simpa using ⟨edge, among, rfl⟩
  have newTokens : ∀ v ∈ addToken
      (completedAt p.completed (joinKey edge.target task.joinEpoch)) (token task),
      v ∈ completedAt snap.completedActivations (joinKey edge.target task.joinEpoch) ∨
        v ∈ (reporters w snap (joinKey edge.target task.joinEpoch)).map token := by
    intro v hv
    rcases (mem_addToken _ _ _).mp hv with old | rfl
    · exact inv.tokens _ v old
    · exact Or.inr (List.mem_map_of_mem reports)
  obtain ⟨completed, cases⟩ := joinStep_cases snap task p edge
  have tokens : ∀ key, ∀ v ∈ completedAt (joinStep snap task p edge).completed key,
      v ∈ completedAt snap.completedActivations key ∨ v ∈ (reporters w snap key).map token := by
    intro key v hv
    rw [completed, completedAt_set] at hv
    split at hv
    · rename_i same
      exact same ▸ newTokens v hv
    · exact inv.tokens key v hv
  rcases cases with ⟨satisfied, fresh, firings, parts, candidates⟩ | ⟨_, firings, candidates⟩
  · have ready : JoinReady w snap edge task.joinEpoch := by
      refine ⟨fun old => fresh ?_, Edge.satisfiedBy_mono ?_ satisfied⟩
      · rw [inv.fired]
        exact List.mem_append_left _ old
      · intro v hv
        exact List.mem_append.mpr (newTokens v hv)
    refine ⟨tokens, ?_, ?_, ?_⟩
    · simp [firings, candidates, firedKey, inv.fired]
    · rw [candidates, List.filterMap_append]
      refine List.nodup_append.mpr ⟨inv.distinct, by simp [firedKey], ?_⟩
      rintro key old key' new rfl
      simp only [List.filterMap_cons, firedKey, List.filterMap_nil, List.mem_singleton] at new
      apply fresh
      rw [inv.fired, ← new]
      exact List.mem_append_right _ old
    · intro c hc
      rw [candidates] at hc
      rcases mem_snoc.mp hc with old | rfl
      · exact inv.justified c old
      · exact Or.inr ⟨edge, task, rfl, ⟨inside, among, ready⟩, rfl, rfl, parts, rfl⟩
  · exact ⟨tokens, by rw [firings, candidates]; exact inv.fired,
      by rw [candidates]; exact inv.distinct, by rw [candidates]; exact inv.justified⟩

theorem progress_collected (done : progress w snap route = .ok p) : Collected w snap route p := by
  have start : Collected w snap route ⟨snap.completedActivations, snap.joinFirings, []⟩ :=
    ⟨fun _ v hv => Or.inl hv, by simp, by simp, by simp⟩
  have inside : ∀ task ∈ sortedBy (·.taskId) snap.frontier, task ∈ snap.frontier := by
    intro task ht
    exact (mem_sortedBy _ _ _).mp ht
  exact collect_invariant (fun _ p => Collected w snap route p)
    (fun _ p task targets here found inv => inv.direct here found)
    (fun _ p task edge here among inv => inv.join here among) inside [] start done

/-! ### The tasks made from the candidates -/

variable {joinEpoch : Nat}

theorem schedule_spec {next next' : Dict String NativeTask}
    (done : schedule w snap state cs next = .ok next') :
    (∀ c ∈ cs, ∃ task, taskOf w snap state c = .ok task) ∧
    (∀ entry ∈ next', entry ∈ next ∨
      ∃ c ∈ cs, taskOf w snap state c = .ok entry.2 ∧ entry.1 = taskIdOf w snap c) := by
  induction cs generalizing next with
  | nil =>
    cases done
    exact ⟨by simp, fun entry he => Or.inl he⟩
  | cons c rest ih =>
    obtain ⟨task, made, later⟩ := bind_eq_ok done
    obtain ⟨all, source⟩ := ih later
    refine ⟨?_, ?_⟩
    · intro d hd
      rcases List.mem_cons.mp hd with rfl | old
      · exact ⟨task, made⟩
      · exact all d old
    · intro entry he
      rcases source entry he with old | ⟨d, hd, hmade, hid⟩
      · rcases mem_set old with rfl | before
        · exact Or.inr ⟨c, by simp, made, rfl⟩
        · exact Or.inl before
      · exact Or.inr ⟨d, by simp [hd], hmade, hid⟩

theorem schedule_keys_nodup {next next' : Dict String NativeTask} (distinct : (keys next).Nodup)
    (done : schedule w snap state cs next = .ok next') : (keys next').Nodup := by
  induction cs generalizing next with
  | nil =>
    cases done
    exact distinct
  | cons c rest ih =>
    obtain ⟨task, _, later⟩ := bind_eq_ok done
    exact ih (keys_set_nodup _ _ distinct) later

theorem identity_eq_ok {fieldName value : String} {id : {s : String // IsIdentity s}}
    (done : identity fieldName value = .ok id) : id.1 = strip value := by
  unfold identity at done
  split at done
  · cases done
  · cases done
    rfl

variable {next : NextFrontier}

theorem create_eq_ok {taskId nodeId invocationKey activationId : String}
    (done : NativeTask.create taskId nodeId invocationKey activationId joinEpoch taskPath = .ok
      task) :
    task.taskId = strip taskId ∧ task.nodeId = strip nodeId ∧ task.joinEpoch = joinEpoch ∧
      task.retryAttempt = 1 := by
  obtain ⟨id, hid, done⟩ := bind_eq_ok done
  obtain ⟨node, hnode, done⟩ := bind_eq_ok done
  obtain ⟨invocation, _, done⟩ := bind_eq_ok done
  obtain ⟨activation, _, done⟩ := bind_eq_ok done
  split at done
  · cases done
  · cases done
    exact ⟨identity_eq_ok hid, identity_eq_ok hnode, rfl, rfl⟩

theorem create_retryAttempt {taskId nodeId invocationKey activationId : String}
    (done : NativeTask.create taskId nodeId invocationKey activationId joinEpoch taskPath = .ok
      task) : task.retryAttempt = 1 :=
  (create_eq_ok done).2.2.2

theorem strip_stableId (parts : List String) : strip (stableId parts) = stableId parts :=
  strip_of_no_space (stableId_solid parts)

theorem taskOf_eq_ok {c : Candidate} (made : taskOf w snap state c = .ok task) :
    w.validateLoopBudget c.source.nodeId c.target state = .ok () ∧
      task.nodeId = strip c.target ∧ task.joinEpoch = scheduledEpoch w c ∧
      task.taskId = taskIdOf w snap c := by
  obtain ⟨_, checked, created⟩ := bind_eq_ok made
  obtain ⟨hid, hnode, hepoch, _⟩ := create_eq_ok created
  exact ⟨checked, hnode, hepoch, hid.trans (strip_stableId _)⟩

section
variable (done : nextFrontier w snap route state = .ok next)
include done

theorem nextFrontier_eq_ok :
    ∃ p tasks, progress w snap route = .ok p ∧
      schedule w snap state (p.candidates.insertionSort fun a b => candidateLe a b) [] =
        .ok tasks ∧
      next.frontier = (sortedBy Prod.fst tasks).map Prod.snd ∧
      next.completed = (sortedBy Prod.fst p.completed).map (fun entry =>
        (entry.1, sorted entry.2)) ∧
      next.firings = sorted p.firings := by
  obtain ⟨p, hp, done⟩ := bind_eq_ok done
  obtain ⟨tasks, htasks, done⟩ := bind_eq_ok done
  cases done
  exact ⟨p, tasks, hp, htasks, rfl, rfl, rfl⟩

theorem nextFrontier_nodup :
    (next.frontier.map (·.taskId)).Nodup := by
  obtain ⟨p, tasks, _, htasks, frontier, _, _⟩ := nextFrontier_eq_ok done
  have distinct := schedule_keys_nodup (by simp [keys]) htasks
  have ids : ∀ entry ∈ sortedBy Prod.fst tasks, entry.2.taskId = entry.1 := by
    intro entry he
    rcases (schedule_spec htasks).2 entry ((mem_sortedBy _ _ _).mp he) with old | ⟨c, _, made, hid⟩
    · cases old
    · rw [hid]
      exact (taskOf_eq_ok made).2.2.2
  have sameIds : (sortedBy Prod.fst tasks).map ((fun task : NativeTask => task.taskId) ∘ Prod.snd) =
      (sortedBy Prod.fst tasks).map Prod.fst :=
    List.map_congr_left ids
  rw [frontier, List.map_map, sameIds]
  exact ((perm_sortedBy Prod.fst tasks).map Prod.fst).nodup_iff.mpr distinct

theorem nextFrontier_tasks :
    ∃ p, progress w snap route = .ok p ∧
      (∀ c ∈ p.candidates, ∃ task, taskOf w snap state c = .ok task) ∧
      (∀ task ∈ next.frontier, ∃ c ∈ p.candidates, taskOf w snap state c = .ok task) := by
  obtain ⟨p, tasks, hp, htasks, frontier, _, _⟩ := nextFrontier_eq_ok done
  obtain ⟨all, source⟩ := schedule_spec htasks
  refine ⟨p, hp, fun c hc => all c ((List.mem_insertionSort _).mpr hc), ?_⟩
  intro task ht
  rw [frontier] at ht
  obtain ⟨entry, he, rfl⟩ := List.mem_map.mp ht
  rcases source entry ((mem_sortedBy _ _ _).mp he) with old | ⟨c, hc, made, _⟩
  · cases old
  · exact ⟨c, (List.mem_insertionSort _).mp hc, made⟩

end

end
end Workflow
