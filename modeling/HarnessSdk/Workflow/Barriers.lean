import HarnessSdk.Workflow.Joins
import HarnessSdk.Workflow.Tasks

/-! Interrupt barriers: when a task of an interrupt-capable node is alone in its frontier. -/
namespace Workflow
open PyDict PyText

def interruptCapable (w : CompiledWorkflow) (nodeId : String) : Bool :=
  (w.node nodeId).any (·.interruptCapable)

def Exclusive (w : CompiledWorkflow) (frontier : List NativeTask) : Prop :=
  ∀ task ∈ frontier, interruptCapable w task.nodeId → frontier = [task]

/-! ### Tasks that stand side by side -/

/-- A node, and the join epoch of a task at it. -/
abbrev Place := String × Nat

def NativeTask.place (task : NativeTask) : Place := (task.nodeId, task.joinEpoch)

/-- What a completed task may ask for: the target of its edge or route, or a join. -/
inductive Offer
  | direct (target : String)
  | join (edge : Edge)

def Offer.target : Offer → String
  | .direct target => target
  | .join edge => edge.target

section
variable (w : CompiledWorkflow)

def Offers (nodeId : String) : Offer → Prop
  | .direct target => target ≠ endNode ∧
      match w.conditionalFor nodeId with
      | none => target ∈ w.singleTargets nodeId
      | some conditional => ∃ selected, get? conditional.routes selected = some target
  | .join edge => edge ∈ w.joinEdgesFor nodeId

/-- Two offers that one task may take together; a conditional edge gives one route only. -/
def Forks (nodeId : String) (a b : Offer) : Prop :=
  a ≠ b ∧ ((∃ target, a = .direct target) → (∃ target, b = .direct target) →
    w.conditionalFor nodeId = none)

def onward (via : Place) (target : String) : Place :=
  (strip target, via.2 + if w.isCycleEdge via.1 target then 1 else 0)

variable (beside : Place → Place → Prop)

/-- The place an offer is scheduled through: the task's own or, for a join, that of a task of the
join's first source beside it. -/
def Through (p : Place) (offer : Offer) (via : Place) : Prop :=
  via = p ∨ ∃ edge, offer = .join edge ∧ beside via p ∧ via.1 = edge.sources.headD ""

/-- What is scheduled for two tasks side by side, or twice for one task, is side by side again;
the joins into one target at one epoch are scheduled once. -/
def ClosedUnderSteps : Prop :=
  ∀ p q a b via via', Offers w p.1 a → Offers w q.1 b → Through beside p a via →
    Through beside q b via' → (beside p q ∨ p = q ∧ Forks w p.1 a b) →
    (∀ e e', a = .join e → b = .join e' → e.target = e'.target → p.2 ≠ q.2) →
    beside (onward w via a.target) (onward w via' b.target)

/-- No interrupt-capable node stands beside another. -/
def BarriersApart : Prop :=
  ∃ beside, ClosedUnderSteps w beside ∧ ∀ p q, beside p q → ¬ interruptCapable w p.1

def Apart (frontier : List NativeTask) : Prop :=
  (frontier.map (·.taskId)).Nodup ∧
    ∀ s ∈ frontier, ∀ t ∈ frontier, s ≠ t → beside s.place t.place

end

section
variable {w : CompiledWorkflow} {snap : NativeSnapshot} {route : NativeTask → Engine String}
  {c d : Candidate} {task : NativeTask}

theorem offers_of_asksDirectly {target : String} (asks : AsksDirectly w snap route task target) :
    Offers w task.nodeId (.direct target) := by
  obtain ⟨_, notEnd, targets, found, among⟩ := asks
  refine ⟨notEnd, ?_⟩
  cases routed : w.conditionalFor task.nodeId with
  | none =>
    rw [directTargets, routed] at found
    cases found
    exact among
  | some conditional =>
    rw [directTargets, routed] at found
    obtain ⟨selected, _, found⟩ := bind_eq_ok found
    cases listed : get? conditional.routes selected with
    | none => simp [listed] at found
    | some target' =>
      simp only [listed] at found
      cases found
      rw [List.mem_singleton.mp among]
      exact ⟨selected, listed⟩

theorem eq_of_asksDirectly {target target' : String} (asks : AsksDirectly w snap route task target)
    (asks' : AsksDirectly w snap route task target')
    (routed : w.conditionalFor task.nodeId ≠ none) : target = target' := by
  obtain ⟨_, _, targets, found, among⟩ := asks
  obtain ⟨_, _, targets', found', among'⟩ := asks'
  obtain rfl : targets = targets' := Except.ok.inj (found.symm.trans found')
  unfold directTargets at found
  split at found
  · contradiction
  · obtain ⟨_, _, found⟩ := bind_eq_ok found
    split at found
    · cases found
      rw [List.mem_singleton.mp among, List.mem_singleton.mp among']
    · cases found

theorem firedKey_of_join {edge : Edge} {epoch : Nat} (origin : c.origin = .join edge epoch) :
    firedKey c = some (joinKey c.target epoch) := by
  obtain ⟨target, source, activation, o⟩ := c
  cases origin
  rfl

theorem eq_of_firedKey_eq {cs : List Candidate} (distinct : (cs.filterMap firedKey).Nodup)
    {key : String} (hc : c ∈ cs) (hd : d ∈ cs) (keyC : firedKey c = some key)
    (keyD : firedKey d = some key) : c = d := by
  induction cs with
  | nil => cases hc
  | cons first rest ih =>
    have notBoth : ∀ e ∈ rest, firedKey first = some key → firedKey e = some key → False := by
      intro e he keyFirst keyE
      rw [List.filterMap_cons, keyFirst] at distinct
      exact (List.nodup_cons.mp distinct).1 (List.mem_filterMap.mpr ⟨e, he, keyE⟩)
    have tail : (rest.filterMap firedKey).Nodup := by
      rw [List.filterMap_cons] at distinct
      split at distinct
      · exact distinct
      · exact (List.nodup_cons.mp distinct).2
    rcases List.mem_cons.mp hc with rfl | hc'
    · rcases List.mem_cons.mp hd with rfl | hd'
      · rfl
      · exact (notBoth d hd' keyC keyD).elim
    · rcases List.mem_cons.mp hd with rfl | hd'
      · exact (notBoth c hc' keyD keyC).elim
      · exact ih tail hc' hd'

/-- The task whose completion asks for the candidate, and what it asks for. -/
def Candidate.Takes (w : CompiledWorkflow) (snap : NativeSnapshot)
    (route : NativeTask → Engine String) (c : Candidate) (task : NativeTask) : Offer → Prop
  | .direct target => AsksDirectly w snap route task target ∧
      c = ⟨target, task, activationOf snap task, .direct⟩
  | .join edge => c.origin = .join edge task.joinEpoch

variable {beside : Place → Place → Prop}

theorem representative_mem (frontier : List NativeTask) (edge : Edge) (task : NativeTask) :
    representative frontier edge task = task ∨ representative frontier edge task ∈ frontier ∧
      (representative frontier edge task).nodeId = edge.sources.headD "" := by
  unfold representative
  cases found : get? (tasksByNode frontier) (edge.sources.headD "") with
  | none => exact Or.inl rfl
  | some first =>
    rcases get?_update_cases found with entry | none
    · obtain ⟨t, inside, same⟩ := List.mem_map.mp entry
      obtain ⟨node, rfl⟩ := Prod.mk.inj same
      exact Or.inr ⟨inside, node⟩
    · cases none

theorem Candidate.Justified.takes (apart : Apart beside snap.frontier)
    (justified : c.Justified w snap route) :
    ∃ task ∈ snap.frontier, ∃ offer, Offers w task.nodeId offer ∧ offer.target = c.target ∧
      Through beside task.place offer c.source.place ∧ c.Takes w snap route task offer := by
  rcases justified with ⟨direct, asks, activation⟩ | ⟨edge, task, origin, asks, target, rep, _⟩
  · refine ⟨c.source, asks.1, .direct c.target, offers_of_asksDirectly asks, rfl, Or.inl rfl, asks,
      ?_⟩
    rw [← activation, ← direct]
  · refine ⟨task, asks.1, .join edge, asks.2.1, target.symm, ?_, origin⟩
    rw [rep]
    by_cases own : representative snap.frontier edge task = task
    · rw [own]
      exact Or.inl rfl
    · obtain ⟨inside, node⟩ := (representative_mem snap.frontier edge task).resolve_left own
      exact Or.inr ⟨edge, rfl, apart.2 _ inside _ asks.1 own, node⟩

end

variable {w : CompiledWorkflow} {snap : NativeSnapshot} {beside : Place → Place → Prop}

theorem Apart.superstep {snap' : NativeSnapshot} {input : StepInput}
    (closed : ClosedUnderSteps w beside) (apart : Apart beside snap.frontier)
    (committed : superstep w snap input = .ok snap') : Apart beside snap'.frontier := by
  obtain ⟨state, next, _, _, scheduled, _, _, rfl⟩ := superstep_eq_ok committed
  obtain ⟨p, collected, _, source⟩ := nextFrontier_tasks scheduled
  have inv := progress_collected collected
  refine ⟨nextFrontier_nodup scheduled, ?_⟩
  intro s hs t ht different
  obtain ⟨c, hc, madeC⟩ := source s hs
  obtain ⟨d, hd, madeD⟩ := source t ht
  have distinct : c ≠ d := by
    rintro rfl
    exact different (Except.ok.inj (madeC.symm.trans madeD))
  have place : ∀ {c task}, taskOf w snap state c = .ok task →
      task.place = onward w c.source.place c.target := by
    intro c task made
    obtain ⟨_, node, epoch, _⟩ := taskOf_eq_ok made
    rw [NativeTask.place, node, epoch]
    rfl
  obtain ⟨a, insideA, offerA, offersA, targetA, throughA, takesA⟩ :=
    (inv.justified c hc).takes apart
  obtain ⟨b, insideB, offerB, offersB, targetB, throughB, takesB⟩ :=
    (inv.justified d hd).takes apart
  have once : ∀ e e', offerA = .join e → offerB = .join e' → e.target = e'.target →
      a.joinEpoch ≠ b.joinEpoch := by
    rintro e e' rfl rfl sameTarget sameEpoch
    have keyD := firedKey_of_join takesB
    rw [← targetB, ← sameEpoch, Offer.target, ← sameTarget] at keyD
    have keyC := firedKey_of_join takesA
    rw [← targetA] at keyC
    exact distinct (eq_of_firedKey_eq inv.distinct hc hd keyC keyD)
  rw [place madeC, place madeD, ← targetA, ← targetB]
  refine closed _ _ _ _ _ _ offersA offersB throughA throughB ?_ once
  by_cases one : a = b
  · subst one
    refine Or.inr ⟨rfl, ?_, ?_⟩
    · rintro rfl
      cases offerA with
      | direct target => exact distinct (takesA.2.trans takesB.2.symm)
      | join edge => exact once edge edge rfl rfl rfl rfl
    · rintro ⟨target, rfl⟩ ⟨target', rfl⟩
      by_contra routed
      obtain rfl := eq_of_asksDirectly takesA.1 takesB.1 routed
      exact distinct (takesA.2.trans takesB.2.symm)
  · exact Or.inl (apart.2 a insideA b insideB one)

theorem Apart.exclusive (free : ∀ p q, beside p q → ¬ interruptCapable w p.1)
    {frontier : List NativeTask} (apart : Apart beside frontier) : Exclusive w frontier := by
  intro task inside capable
  have only : ∀ other ∈ frontier, other = task := by
    intro other ho
    by_contra different
    exact free _ _ (apart.2 task inside other ho (Ne.symm different)) capable
  have distinct := apart.1
  cases frontier with
  | nil => cases inside
  | cons first rest =>
    obtain rfl := only first (by simp)
    cases rest with
    | nil => rfl
    | cons second more =>
      rw [only second (by simp)] at distinct
      simp at distinct

theorem run_apart {inv : Invocation} {Cond : NativeSnapshot → StepInput → Prop}
    {done : List NativeTask} {fired : List Edge} (closed : ClosedUnderSteps w beside)
    (run : Run w inv Cond snap done fired) : Apart beside snap.frontier := by
  induction run with
  | genesis start =>
    obtain ⟨entry, _, frontier, _⟩ := genesis_eq_ok start
    rw [frontier]
    refine ⟨by simp, ?_⟩
    intro s hs t ht different
    exact absurd ((List.mem_singleton.mp hs).trans (List.mem_singleton.mp ht).symm) different
  | step input _ _ _ _ _ committed ih => exact ih.superstep closed committed

def OnlyCapableSuspend (w : CompiledWorkflow) (outcomes : List TaskOutcome) : Prop :=
  ∀ o ∈ outcomes, o.isSuspended → interruptCapable w o.task.nodeId

theorem forM_eq_ok {α : Type} {f : α → Checked Unit} {items : List α}
    (done : items.forM f = .ok ()) : ∀ x ∈ items, f x = .ok () := by
  induction items with
  | nil => simp
  | cons x rest ih =>
    obtain ⟨_, here, later⟩ := bind_eq_ok (x := f x) (f := fun _ => rest.forM f) done
    intro y hy
    rcases List.mem_cons.mp hy with rfl | old
    · exact here
    · exact ih later y old

theorem accepted_interrupts (w : CompiledWorkflow) :
    ∀ node ∈ w.definition.nodes, checkInterrupt w.definition node = .ok () := by
  have rest := w.accepted
  iterate 7
    obtain ⟨_, _, rest⟩ := bind_eq_ok rest
  obtain ⟨_, checked, _⟩ := bind_eq_ok rest
  exact forM_eq_ok checked

theorem not_parallel_of_capable {nodeId : String} (capable : interruptCapable w nodeId) :
    ((w.node nodeId).any fun node => node.dispatch = .parallel) = false := by
  unfold interruptCapable at capable
  cases found : w.node nodeId with
  | none => rfl
  | some node =>
    rw [found] at capable
    have checked := accepted_interrupts w node (List.mem_of_find?_eq_some found)
    have capable : node.interruptCapable = true := by simpa using capable
    by_contra parallel
    have parallel : node.dispatch = .parallel := by simpa using parallel
    unfold checkInterrupt at checked
    by_cases shared : node.barrier = false ∨ node.exclusiveSuperstep = false
    · simp [capable, shared, definitionErrorText, definitionError, bind, Except.bind] at checked
    · simp [capable, shared, parallel, definitionErrorText, definitionError, bind,
        Except.bind] at checked

/-- Where no interrupt-capable node stands beside another, an interrupt-capable task of a reachable
frontier is alone in it, and no suspension of such a task is refused. -/
theorem interrupt_barriers_exclusive {w : CompiledWorkflow} {inv : Invocation}
    {snap : NativeSnapshot} {done : List NativeTask} {fired : List Edge} (clear : BarriersApart w)
    (run : Run w inv anyStep snap done fired) :
    Exclusive w snap.frontier ∧
    ∀ outcomes : List TaskOutcome, (∀ o ∈ outcomes, o.task ∈ snap.frontier) →
      OnlyCapableSuspend w outcomes → ∀ task interrupt,
        selectedSuspension outcomes = some (task, interrupt) →
        breaksBarrier w snap.frontier task = false := by
  obtain ⟨beside, closed, free⟩ := clear
  have exclusive := (run_apart closed run).exclusive free
  refine ⟨exclusive, ?_⟩
  intro outcomes inside only task interrupt selected
  have among := selectedSuspension_mem selected
  have capable := only _ among rfl
  have alone := exclusive task (inside _ among) capable
  unfold breaksBarrier
  rw [not_parallel_of_capable capable, alone]
  rfl

/-! ### Two branches and a question -/

def askNode : NodeDefinition :=
  ⟨{ nodeId := "ask", interruptCapable := true, barrier := true, exclusiveSuperstep := true,
     preInterruptEffectPolicy := some "pure" }, by decide⟩

theorem leftNode_ok : ({ nodeId := "left" } : NodeFields).postInit = .ok () := by decide

theorem rightNode_ok : ({ nodeId := "right" } : NodeFields).postInit = .ok () := by decide

def askJoin : Edge := ⟨⟨["left", "right"], "ask"⟩, by decide⟩

/-- Two branches, and a question to the user that waits for both. -/
def pairedWork : WorkflowDefinition where
  name := "paired_work"
  version := "1"
  stateSchemaVersion := 1
  entryNode := "start"
  nodes := [⟨{ nodeId := "start" }, by decide⟩, ⟨{ nodeId := "left" }, leftNode_ok⟩,
    ⟨{ nodeId := "right" }, rightNode_ok⟩, askNode]
  channels := []
  recursionLimit := 11
  maxSupersteps := 10
  edges := [⟨⟨["start"], "left"⟩, by decide⟩, ⟨⟨["start"], "right"⟩, by decide⟩, askJoin]

def pairedWorkflow : CompiledWorkflow :=
  ⟨pairedWork, by decide +kernel, [], by decide +kernel⟩

/-- A start that leads to a left and a right branch, with no conditional edge anywhere. -/
structure Branching (w : CompiledWorkflow) : Prop where
  unbound : w.bindings = []
  entry : w.definition.entryNode = "start"
  within : (2 : Int) ≤ w.definition.maxSupersteps
  plain : w.definition.conditionalEdges = []
  known : ∀ nodeId ∈ ["start", "left", "right"], (w.node nodeId).isSome
  joins : w.joinEdgesFor "start" = []
  single : w.singleTargets "start" = ["left", "right"]

theorem conditionalFor_plain {w : CompiledWorkflow} (plain : w.definition.conditionalEdges = [])
    (nodeId : String) : w.conditionalFor nodeId = none := by
  rw [CompiledWorkflow.conditionalFor, plain]
  rfl

theorem pairedWork_branching : Branching pairedWorkflow := by
  constructor <;> decide +kernel

theorem pairedWork_joins : pairedWorkflow.joinEdges = [askJoin] := by decide +kernel

theorem pairedWork_offers {nodeId : String} {offer : Offer}
    (offers : Offers pairedWorkflow nodeId offer) :
    (nodeId = "start" ∧ (offer = .direct "left" ∨ offer = .direct "right")) ∨
      ((nodeId = "left" ∨ nodeId = "right") ∧ offer = .join askJoin) := by
  cases offer with
  | direct target =>
    have among := offers.2
    rw [conditionalFor_plain pairedWork_branching.plain] at among
    obtain ⟨edge, inside, rfl⟩ := List.mem_map.mp among
    obtain ⟨listed, sources⟩ := List.mem_filter.mp inside
    have sources : edge.sources = [nodeId] := of_decide_eq_true sources
    simp only [pairedWorkflow, pairedWork, List.mem_cons, List.not_mem_nil, or_false] at listed
    rcases listed with rfl | rfl | rfl
    · exact Or.inl ⟨(List.singleton_inj.mp sources).symm, Or.inl rfl⟩
    · exact Or.inl ⟨(List.singleton_inj.mp sources).symm, Or.inr rfl⟩
    · cases sources
  | join edge =>
    obtain ⟨listed, among⟩ := List.mem_filter.mp offers
    rw [pairedWork_joins, List.mem_singleton] at listed
    subst listed
    exact Or.inr ⟨by simpa [askJoin] using among, rfl⟩

theorem through_direct {beside : Place → Place → Prop} {p via : Place} {target : String}
    (through : Through beside p (.direct target) via) : via = p := by
  rcases through with own | ⟨_, joined, _⟩
  · exact own
  · cases joined

theorem pairedWork_apart : BarriersApart pairedWorkflow := by
  refine ⟨fun p q => p.2 = q.2 ∧ (p.1, q.1) ∈ [("left", "right"), ("right", "left")], ?_, ?_⟩
  · intro p q a b via via' offersA offersB throughA throughB together once
    rcases together with ⟨same, among⟩ | ⟨rfl, forks, _⟩
    · have joined : a = .join askJoin ∧ b = .join askJoin := by
        rcases pairedWork_offers offersA with ⟨node, _⟩ | ⟨_, joinA⟩
        · simp [node] at among
        · rcases pairedWork_offers offersB with ⟨node, _⟩ | ⟨_, joinB⟩
          · simp [node] at among
          · exact ⟨joinA, joinB⟩
      exact absurd same (once _ _ joined.1 joined.2 rfl)
    · have place : ∀ target ∈ ["left", "right"],
          onward pairedWorkflow p target = (target, p.2) := by
        intro target among
        have trimmed : ∀ target ∈ ["left", "right"], strip target = target := by decide +kernel
        rw [onward, trimmed target among, CompiledWorkflow.isCycleEdge, budgetOf_unbound rfl]
        rfl
      rcases pairedWork_offers offersA with ⟨node, offerA⟩ | ⟨node, rfl⟩
      · rcases pairedWork_offers offersB with ⟨_, offerB⟩ | ⟨node', _⟩
        · rcases offerA with rfl | rfl <;> rcases offerB with rfl | rfl
          all_goals
            first
            | exact absurd rfl forks
            | rw [through_direct throughA, through_direct throughB]
              simp [Offer.target, place]
        · simp [node] at node'
      · rcases pairedWork_offers offersB with ⟨node', _⟩ | ⟨_, rfl⟩
        · simp [node'] at node
        · exact absurd rfl forks
  · rintro p q ⟨_, among⟩
    simp only [List.mem_cons, Prod.mk.injEq, List.not_mem_nil, or_false] at among
    rcases among with ⟨node, _⟩ | ⟨node, _⟩
    · rw [node]
      decide +kernel
    · rw [node]
      decide +kernel

theorem pairedWork_facts : interruptCapable pairedWorkflow "ask" ∧
    (strip "ask" = "ask" ∧ strip "ask" ≠ "") ∧ strip plainInvocation.runId = "run" ∧
    strip plainInvocation.threadId = "thread" ∧
    ∀ node ∈ ["start", "left", "right"], strip node = node ∧ node ≠ "" := by
  decide +kernel

/-- Two branches: one asks the user, the other works on. -/
def sideWork : WorkflowDefinition where
  name := "side_work"
  version := "1"
  stateSchemaVersion := 1
  entryNode := "start"
  nodes := [⟨{ nodeId := "start" }, by decide⟩, ⟨{ nodeId := "left" }, leftNode_ok⟩,
    ⟨{ nodeId := "right" }, rightNode_ok⟩, askNode, ⟨{ nodeId := "work" }, by decide⟩]
  channels := []
  recursionLimit := 11
  maxSupersteps := 10
  edges := [⟨⟨["start"], "left"⟩, by decide⟩, ⟨⟨["start"], "right"⟩, by decide⟩,
    ⟨⟨["left"], "ask"⟩, by decide⟩, ⟨⟨["right"], "work"⟩, by decide⟩]

theorem sideWork_accepted : validateDefinition sideWork = .ok () := by decide +kernel

theorem sideWork_bound : cycleBindings sideWork (adjacencyOf sideWork false) = .ok [] := by
  decide +kernel

def sideWorkWorkflow : CompiledWorkflow := ⟨sideWork, sideWork_accepted, [], sideWork_bound⟩

theorem sideWork_branching : Branching sideWorkWorkflow := by
  constructor <;> decide +kernel

theorem sideWork_facts : interruptCapable sideWorkWorkflow "ask" ∧
    ∀ entry ∈ [("left", ["ask"]), ("right", ["work"])],
      sideWorkWorkflow.joinEdgesFor entry.1 = [] ∧
      sideWorkWorkflow.singleTargets entry.1 = entry.2 ∧
      entry.2.filter (· ≠ endNode) = entry.2 ∧
      ∀ target ∈ entry.2, strip target = target ∧ target ≠ "" := by
  decide +kernel

/-! ### A question after two branches -/

/-- The ids of the run's first snapshot and of its entry task. -/
structure StartsRun (snap : NativeSnapshot) (task : NativeTask) : Prop where
  frontier : snap.frontier = [task]
  state : snap.state = []
  runId : snap.runId = "run"
  checkpointId : snap.checkpointId = stableId ["run", "thread", "", "genesis"]
  taskId : task.taskId = stableId ["run", "thread", "", "genesis", "start"]
  epoch : task.joinEpoch = 0

def branch (snap : NativeSnapshot) (task : NativeTask) (target : String) : Candidate :=
  ⟨target, task, activationOf snap task, .direct⟩

section
variable {w : CompiledWorkflow} {snap : NativeSnapshot} {task : NativeTask}

theorem toList_branchId (unbound : w.bindings = []) (epoch : task.joinEpoch = 0)
    (target : String) :
    (taskIdOf w snap (branch snap task target)).toList =
      Sha256.digestChars (List.intercalate ['|'] [snap.runId.toList, snap.checkpointId.toList,
        target.toList ++ [':'] ++ Sha256.digestChars (List.intercalate ['|']
          [snap.checkpointId.toList, task.taskId.toList, ['0']]) ++ [':', '0']]) := by
  have zero : (toString 0).toList = ['0'] := by decide
  simp only [taskIdOf, branch, toList_stableId, invocationOf, activationOf,
    scheduledEpoch_unbound unbound, epoch, List.map_cons, List.map_nil, String.toList_append, zero]
  simp

theorem branches_distinct (unbound : w.bindings = []) (first : StartsRun snap task) :
    taskIdOf w snap (branch snap task "left") ≠ taskIdOf w snap (branch snap task "right") := by
  rw [ne_eq, ← String.toList_inj, toList_branchId unbound first.epoch,
    toList_branchId unbound first.epoch, first.runId, first.checkpointId, first.taskId,
    toList_stableId, toList_stableId]
  decide +kernel

theorem branch_allowed (unbound : w.bindings = []) (snap : NativeSnapshot) (task : NativeTask)
    {target : String} (named : strip target = target ∧ target ≠ "") (state : State) :
    w.validateLoopBudget (branch snap task target).source.nodeId
        (branch snap task target).target state = .ok () ∧
      strip (branch snap task target).target ≠ "" ∧
      strip (branch snap task target).activation ≠ "" := by
  refine ⟨validateLoopBudget_unbound unbound _ _ _, ?_, strip_stableId_ne_empty _⟩
  show strip target ≠ ""
  rw [named.1]
  exact named.2

theorem Branching.run (branching : Branching w) :
    ∃ s0 t0 s1 left right, StartsRun s0 t0 ∧
      Run w plainInvocation anyStep s1 [t0] [] ∧ s1.frontier.Perm [left, right] ∧
      (left.nodeId = "left" ∧ left.joinEpoch = 0 ∧
        left.taskId = taskIdOf w s0 (branch s0 t0 "left")) ∧
      (right.nodeId = "right" ∧ right.joinEpoch = 0 ∧
        right.taskId = taskIdOf w s0 (branch s0 t0 "right")) ∧
      s1.state = [] ∧ s1.step = 1 ∧ s1.runId = "run" ∧ s1.checkpointId =
        stableId [s0.runId, frontierOperationId s0 s1.frontier s0.state []] := by
  obtain ⟨_, _, runId, threadId, trimmed⟩ := pairedWork_facts
  obtain ⟨s0, start⟩ := genesis_ok w plainInvocation
    (by rw [branching.entry, (trimmed "start" (by simp)).1]; exact (trimmed "start" (by simp)).2)
    (by rw [runId]; decide) (by rw [threadId]; decide)
  obtain ⟨t0, entry, f0, _, _, state0, step0, run0, checkpoint0⟩ := genesis_eq_ok start
  obtain ⟨id0, node0, epoch0⟩ := entryTask_eq_ok entry
  rw [branching.entry] at id0 node0
  have node0 : t0.nodeId = "start" := node0.trans (trimmed "start" (by simp)).1
  have first : StartsRun s0 t0 :=
    ⟨f0, state0, run0.trans runId, checkpoint0, id0, epoch0⟩
  have collected : (singleProgress w s0 t0).candidates =
      [branch s0 t0 "left", branch s0 t0 "right"] := by
    have kept : ["left", "right"].filter (· ≠ endNode) = ["left", "right"] := by decide
    rw [singleProgress, node0, branching.joins, List.foldl_nil, branching.single]
    simp only [directCandidates, kept, List.map_cons, List.map_nil]
    rfl
  have known : ∀ task ∈ s0.frontier, (w.node task.nodeId).isSome := by
    simpa [f0, node0] using branching.known "start" (by simp)
  have within := branching.within
  have start0 : Run w plainInvocation anyStep s0 [] [] := .genesis start
  obtain ⟨s1, committed, run1, ⟨made, tasks, spec⟩, state1, step1⟩ := start0.quietStep
    (by simp [f0]) (by rw [step0]; omega) trivial known (by rw [state0]; rfl)
    (progress_single (fun _ => .ok "") f0 (conditionalFor_plain branching.plain _))
    (by
      intro c hc
      rw [collected] at hc
      rcases List.mem_cons.mp hc with rfl | hc
      · exact branch_allowed branching.unbound s0 t0 (trimmed "left" (by simp)) s0.state
      · obtain rfl := List.mem_singleton.mp hc
        exact branch_allowed branching.unbound s0 t0 (trimmed "right" (by simp)) s0.state)
    (by simpa [collected] using branches_distinct branching.unbound first)
  rw [collected] at tasks spec run1
  obtain ⟨nodeL, epochL, idL⟩ := spec (branch s0 t0 "left") (by simp)
  obtain ⟨nodeR, epochR, idR⟩ := spec (branch s0 t0 "right") (by simp)
  rw [scheduledEpoch_unbound branching.unbound] at epochL epochR
  obtain ⟨sameRun, checkpoint⟩ := quiet_checkpoint known committed
  rw [f0] at run1
  exact ⟨s0, t0, s1, _, _, first, run1, tasks,
    ⟨nodeL.trans (trimmed "left" (by simp)).1, epochL.trans epoch0, idL⟩,
    ⟨nodeR.trans (trimmed "right" (by simp)).1, epochR.trans epoch0, idR⟩, state1.trans state0,
    by rw [step1, step0], sameRun.trans first.runId, checkpoint⟩

theorem collect_ok (plain : w.definition.conditionalEdges = [])
    (route : NativeTask → Engine String) (tasks : List NativeTask) (p : Progress) :
    ∃ p', collect w snap route tasks p = .ok p' := by
  induction tasks generalizing p with
  | nil => exact ⟨p, rfl⟩
  | cons task rest ih =>
    have targets : directTargets w route task = .ok (w.singleTargets task.nodeId) := by
      rw [directTargets, conditionalFor_plain plain]
    rw [collect, taskStep, targets]
    exact ih _

end

/-- Whatever order the branches report in, the question is scheduled once. -/
theorem pairedWork_collects {snap : NativeSnapshot} {done : List NativeTask}
    {left right : NativeTask} {route : NativeTask → Engine String} {p : Progress}
    (run : Run pairedWorkflow plainInvocation anyStep snap done [])
    (tasks : snap.frontier.Perm [left, right])
    (leftAt : left.nodeId = "left" ∧ left.joinEpoch = 0)
    (rightAt : right.nodeId = "right" ∧ right.joinEpoch = 0)
    (collected : progress pairedWorkflow snap route = .ok p) :
    ∃ c, p.candidates = [c] ∧ c.target = "ask" ∧ strip c.activation ≠ "" := by
  have inv := progress_collected collected
  have at_ : ∀ task ∈ snap.frontier, (task.nodeId = "left" ∨ task.nodeId = "right") ∧
      task.joinEpoch = 0 := by
    intro task inside
    rcases List.mem_pair.mp (tasks.subset inside) with rfl | rfl
    · exact ⟨Or.inl leftAt.1, leftAt.2⟩
    · exact ⟨Or.inr rightAt.1, rightAt.2⟩
  have key : ∀ c ∈ p.candidates, c.target = "ask" ∧ strip c.activation ≠ "" ∧
      firedKey c = some (joinKey "ask" 0) := by
    intro c hc
    rcases inv.justified c hc with
      ⟨_, asks, _⟩ | ⟨edge, task, origin, asks, target, _, parts, stable⟩
    · rcases pairedWork_offers (offers_of_asksDirectly asks) with ⟨node, _⟩ | ⟨_, joined⟩
      · have here := (at_ _ asks.1).1
        rw [node] at here
        exact absurd here (by decide)
      · cases joined
    · have offers : Offers pairedWorkflow task.nodeId (.join edge) := asks.2.1
      rcases pairedWork_offers offers with ⟨_, joined⟩ | ⟨_, joined⟩
      · simp at joined
      · cases joined
        have target : c.target = "ask" := target
        rw [firedKey_of_join origin, target, (at_ _ asks.1).2, stable]
        exact ⟨rfl, strip_stableId_ne_empty _, rfl⟩
  have unfired : snap.joinFirings = [] := by
    apply List.eq_nil_iff_forall_not_mem.mpr
    intro key fired
    obtain ⟨edge, none, _⟩ := (run_ledger run).sound key fired
    cases none
  have fires : joinKey "ask" 0 ∈ p.firings := by
    refine ((run_ledger run).collected collected).complete askJoin 0 (by decide)
      (sources_ne_nil _) ?_
    intro source hs
    simp only [askJoin, List.mem_cons, List.not_mem_nil, or_false] at hs
    have inside : ∀ task ∈ [left, right], task ∈ sortedBy (·.taskId) snap.frontier := by
      intro task ht
      exact (mem_sortedBy _ _ _).mpr (tasks.mem_iff.mpr ht)
    rcases hs with rfl | rfl
    · refine ⟨left, mem_joinPairs.mpr ⟨?_, by simp [pairedWork_joins], ?_⟩, leftAt⟩
      · exact List.mem_append_right _ (inside left (by simp))
      · rw [leftAt.1]
        decide
    · refine ⟨right, mem_joinPairs.mpr ⟨?_, by simp [pairedWork_joins], ?_⟩, rightAt⟩
      · exact List.mem_append_right _ (inside right (by simp))
      · rw [rightAt.1]
        decide
  rw [inv.fired, unfired, List.nil_append] at fires
  obtain ⟨c, hc, _⟩ := List.mem_filterMap.mp fires
  have distinct := inv.distinct
  cases listed : p.candidates with
  | nil =>
    rw [listed] at hc
    cases hc
  | cons first rest =>
    rw [listed] at key distinct
    obtain ⟨target, activation, keyFirst⟩ := key first (by simp)
    cases rest with
    | nil => exact ⟨first, rfl, target, activation⟩
    | cons second more => simp [keyFirst, (key second (by simp)).2.2] at distinct

theorem interrupt_barriers_exclusive_pairedWork :
    ∃ snap done fired, Run pairedWorkflow plainInvocation anyStep snap done fired ∧
      snap.frontier.map (·.nodeId) = ["ask"] ∧ interruptCapable pairedWorkflow "ask" ∧
      Exclusive pairedWorkflow snap.frontier := by
  obtain ⟨_, _, s1, left, right, _, run1, tasks, ⟨nodeL, epochL, _⟩, ⟨nodeR, epochR, _⟩, state1,
    step1, _⟩ := pairedWork_branching.run
  obtain ⟨p, collected⟩ := @collect_ok pairedWorkflow s1 pairedWork_branching.plain
    (fun _ => .ok "") (sortedBy (·.taskId) s1.frontier)
    ⟨s1.completedActivations, s1.joinFirings, []⟩
  obtain ⟨c, listed, target, activation⟩ := pairedWork_collects run1 tasks ⟨nodeL, epochL⟩
    ⟨nodeR, epochR⟩ collected
  obtain ⟨capable, trimmed, _⟩ := pairedWork_facts
  obtain ⟨s2, _, run2, ⟨made, next, spec⟩, _⟩ := run1.quietStep
    (by
      intro empty
      rw [empty] at tasks
      exact absurd tasks.length_eq (by simp))
    (by rw [step1]; decide) trivial
    (by
      intro task inside
      rcases List.mem_pair.mp (tasks.subset inside) with rfl | rfl
      · exact nodeL ▸ pairedWork_branching.known "left" (by simp)
      · exact nodeR ▸ pairedWork_branching.known "right" (by simp))
    (by rw [state1]; rfl) collected
    (by
      intro d hd
      rw [listed, List.mem_singleton] at hd
      subst hd
      refine ⟨validateLoopBudget_unbound rfl _ _ _, ?_, activation⟩
      rw [target]
      exact trimmed.2)
    (by rw [listed]; simp)
  rw [listed] at next spec
  have alone : s2.frontier = [made c] := List.perm_singleton.mp next
  refine ⟨s2, _, _, run2, ?_, capable,
    (interrupt_barriers_exclusive pairedWork_apart run2).1⟩
  rw [alone, List.map_cons, List.map_nil, (spec c (by simp)).1, target, trimmed.1]

/-! ### A question next to other work -/

section
variable {snap : NativeSnapshot} {task : NativeTask}

/-- The checkpoint after the start depends on the order of the two ids; either way the ids of the
question and of the work differ. -/
theorem sideWork_targets_distinct (first : StartsRun snap task) {snap' : NativeSnapshot}
    {left right : NativeTask} (runId : snap'.runId = "run")
    (checkpoint : snap'.checkpointId =
      stableId [snap.runId, frontierOperationId snap snap'.frontier snap.state []])
    (frontier : snap'.frontier = [left, right] ∨ snap'.frontier = [right, left])
    (leftId : left.taskId = taskIdOf sideWorkWorkflow snap (branch snap task "left"))
    (rightId : right.taskId = taskIdOf sideWorkWorkflow snap (branch snap task "right"))
    (leftEpoch : left.joinEpoch = 0) (rightEpoch : right.joinEpoch = 0) :
    taskIdOf sideWorkWorkflow snap' (branch snap' left "ask") ≠
      taskIdOf sideWorkWorkflow snap' (branch snap' right "work") := by
  have unbound : sideWorkWorkflow.bindings = [] := rfl
  rw [ne_eq, ← String.toList_inj, toList_branchId unbound leftEpoch,
    toList_branchId unbound rightEpoch, runId, checkpoint, frontierOperationId, first.state,
    first.frontier, toList_stableId]
  rcases frontier with frontier | frontier
  all_goals
    simp only [frontier, List.map_cons, List.map_nil, List.cons_append, List.nil_append,
      toList_stableId, leftId, rightId, toList_branchId unbound first.epoch, first.runId,
      first.checkpointId, first.taskId]
    decide +kernel

end

theorem nodup_pair {α : Type} {items : List α} {a b : α} (same : items.Perm [a, b])
    (different : a ≠ b) : items.Nodup := by
  rw [same.nodup_iff]
  simp [different]

/-- Once both branches are in the frontier, the next superstep schedules the question and the
work together. -/
theorem sideWork_second_step {done : List NativeTask} {fired : List Edge}
    {left right : NativeTask} (run : Run sideWorkWorkflow plainInvocation anyStep snap done fired)
    (frontier : snap.frontier.Perm [left, right]) (leftNode : left.nodeId = "left")
    (rightNode : right.nodeId = "right") (state : snap.state = []) (step : snap.step = 1)
    (different : taskIdOf sideWorkWorkflow snap (branch snap left "ask") ≠ taskIdOf
      sideWorkWorkflow snap (branch snap right "work")) :
    ∃ snap' done fired, Run sideWorkWorkflow plainInvocation anyStep snap' done fired ∧
      ¬ Exclusive sideWorkWorkflow snap'.frontier := by
  obtain ⟨capable, facts⟩ := sideWork_facts
  obtain ⟨joinsL, singleL, keptL, namedL⟩ := facts ("left", ["ask"]) (by simp)
  obtain ⟨joinsR, singleR, keptR, namedR⟩ := facts ("right", ["work"]) (by simp)
  have plain := conditionalFor_plain sideWork_branching.plain
  have members : ∀ task ∈ snap.frontier, task = left ∨ task = right := by
    intro task ht
    simpa using frontier.mem_iff.mp ht
  have candidatesOf : [left, right].flatMap (fun task => directCandidates snap task
      (sideWorkWorkflow.singleTargets task.nodeId)) =
        [branch snap left "ask", branch snap right "work"] := by
    simp only [List.flatMap_cons, List.flatMap_nil, leftNode, rightNode, singleL, singleR,
      directCandidates, keptL, keptR]
    rfl
  have candidates := (((perm_sortedBy (·.taskId) snap.frontier).trans frontier).flatMap_right
    fun task => directCandidates snap task (sideWorkWorkflow.singleTargets task.nodeId))
  rw [candidatesOf] at candidates
  have collected := progress_plain (w := sideWorkWorkflow) (fun _ => .ok "")
    (by
      intro task ht
      rcases members task ht with rfl | rfl
      · rw [leftNode]
        exact ⟨plain _, joinsL⟩
      · rw [rightNode]
        exact ⟨plain _, joinsR⟩)
  obtain ⟨snap', _, run', ⟨made, tasks, spec⟩, _⟩ := run.quietStep
    (by
      intro empty
      rw [empty] at frontier
      exact absurd frontier.length_eq (by simp))
    (by rw [step]; decide) trivial
    (by
      intro task ht
      rcases members task ht with rfl | rfl
      · rw [leftNode]
        exact sideWork_branching.known "left" (by simp)
      · rw [rightNode]
        exact sideWork_branching.known "right" (by simp))
    (by rw [state]; rfl) collected
    (by
      intro c hc
      rcases List.mem_cons.mp (candidates.mem_iff.mp hc) with rfl | hc
      · exact branch_allowed rfl snap left (namedL "ask" (by simp)) snap.state
      · obtain rfl := List.mem_singleton.mp hc
        exact branch_allowed rfl snap right (namedR "work" (by simp)) snap.state)
    (nodup_pair (candidates.map _) different)
  refine ⟨snap', _, _, run', ?_⟩
  have listed : branch snap left "ask" ∈ (sortedBy (·.taskId) snap.frontier).flatMap
      (fun task => directCandidates snap task (sideWorkWorkflow.singleTargets task.nodeId)) :=
    candidates.mem_iff.mpr (by simp)
  intro exclusive
  have alone := exclusive (made (branch snap left "ask"))
    (tasks.mem_iff.mpr (List.mem_map_of_mem listed))
    (by
      rw [(spec _ listed).1]
      show interruptCapable sideWorkWorkflow (strip "ask")
      rw [(namedL "ask" (by simp)).1]
      exact capable)
  have two := tasks.length_eq
  rw [alone, List.length_map] at two
  have lengths := candidates.length_eq
  rw [← two] at lengths
  cases lengths

/-- The two branches are accepted, and after two supersteps the question shares its frontier with
the work of the other branch. -/
theorem sideWork_shares_barrier :
    compileWorkflow sideWork = .ok sideWorkWorkflow ∧
    ∃ snap done fired, Run sideWorkWorkflow plainInvocation anyStep snap done fired ∧
      ¬ Exclusive sideWorkWorkflow snap.frontier := by
  refine ⟨compileWorkflow_ok sideWork_accepted sideWork_bound, ?_⟩
  obtain ⟨s0, t0, s1, left, right, first, run1, tasks, ⟨nodeL, epochL, idL⟩, ⟨nodeR, epochR, idR⟩,
    state1, step1, runId, checkpoint⟩ := sideWork_branching.run
  have different := sideWork_targets_distinct first runId checkpoint (List.perm_pair.mp tasks) idL
    idR epochL epochR
  exact sideWork_second_step run1 tasks nodeL nodeR state1 step1 different

end Workflow
