import HarnessSdk.Knowledge.Derivations

/-! The assumed atoms of a closure are those it would not reach without conditions. -/
namespace Knowledge
open PyDict PyText Checks Workflow PositiveRules

section
variable {contentHashOf : Json → String} {graph : SupportGraph contentHashOf}
  {anchors : List Anchor} {state : AssumptionState}

def SupportGraph.unconditional (graph : SupportGraph contentHashOf) :
    SupportGraph contentHashOf where
  groups := graph.groups.filter (·.conditions.isEmpty)
  distinct := graph.distinct.sublist (List.filter_sublist.map _)

variable {entry : JustificationSet} {support out : Support}

theorem mem_unconditional :
    entry ∈ graph.unconditional.justifications ↔
      entry ∈ graph.justifications ∧ entry.conditions = [] := by
  rw [(justifications_perm graph.unconditional).mem_iff, (justifications_perm graph).mem_iff]
  simp [SupportGraph.unconditional]

theorem enabled_unconditional :
    (program graph.unconditional anchors state).enabled entry ↔
      (program graph anchors state).enabled entry ∧ entry.conditions = [] := by
  simp only [program, mem_unconditional]
  tauto

/-! The budget. -/

def Fires (graph : SupportGraph contentHashOf) (anchors : List Anchor) (state : AssumptionState)
    (entry : JustificationSet) : Prop :=
  entry ∈ graph.justifications ∧
    BodyHolds (program graph anchors state) (Derivable (program graph anchors state)) entry

theorem Fires.unconditional (fires : Fires graph.unconditional anchors state entry) :
    Fires graph anchors state entry := by
  obtain ⟨known, enabled, body⟩ := fires
  refine ⟨(mem_unconditional.mp known).1, (enabled_unconditional.mp enabled).1, fun atom inside => ?_⟩
  apply derivable_leastClosed.least _ _ atom (body atom inside)
  constructor
  · intro a given
    exact (derivable_leastClosed (P := program graph anchors state)).closed.seeds a given
  · rintro rule ⟨allowed, below⟩
    exact derivable_leastClosed.closed.rules rule ⟨(enabled_unconditional.mp allowed).1, below⟩

theorem fires_of_through {n : Nat} (through : Through (program graph anchors state) entry n) :
    Fires graph anchors state entry := by
  obtain ⟨enabled, height, body, _⟩ := through
  exact ⟨enabled.1, enabled, fun atom inside => ⟨_, body atom inside⟩⟩

variable {budget : Nat}

theorem seed_cut {anchors : List Anchor} (cut : seed budget anchors support = (out, true)) :
    budget < support.nodes + (firsts Anchor.signature support.admitted anchors).length := by
  induction anchors generalizing support with
  | nil => cases cut
  | cons anchor rest ih =>
    rw [seed] at cut
    rw [firsts]
    by_cases known : anchor.signature ∈ support.admitted
    · rw [if_pos known] at cut ⊢
      exact ih cut
    · rw [if_neg known] at cut ⊢
      rw [List.length_cons]
      split at cut
      · omega
      · have later := ih cut
        have same : firsts Anchor.signature (support.admitAnchor anchor).admitted rest =
            firsts Anchor.signature (anchor.signature :: support.admitted) rest := by
          apply firsts_congr
          intro k
          simp [Support.admitAnchor, Support.record, Anchor.witness, or_comm]
        rw [same] at later
        simp only [Support.admitAnchor, nodes_cite, Support.record] at later
        omega

theorem fireAll_cut {fired : List Fired}
    (cut : fireAll contentHashOf budget fired support = (out, true)) :
    budget < support.nodes + fired.length := by
  induction fired generalizing support with
  | nil => cases cut
  | cons first rest ih =>
    obtain ⟨entry, depth, used⟩ := first
    rw [fireAll] at cut
    rw [List.length_cons]
    split at cut
    · omega
    · have later := ih cut
      simp only [Support.record] at later
      omega

theorem Running.cut {fuel k : Nat} {pending : List JustificationSet} {log : List Fired}
    (running : Running graph anchors state k support pending log)
    (cut : rounds contentHashOf budget state fuel pending support = (out, true)) :
    ∃ rules : List JustificationSet, rules.Nodup ∧ (∀ entry ∈ rules, Fires graph anchors state entry) ∧
      budget < (admittedAnchors anchors).length + rules.length := by
  induction fuel generalizing k support pending log with
  | zero => cases cut
  | succ fuel ih =>
    rw [rounds] at cut
    by_cases quiet : firedIn state support pending = []
    · simp only [quiet, List.isEmpty_nil, if_true] at cut
      cases cut
    have busy : (firedIn state support pending).isEmpty = false := by simp [quiet]
    simp only [busy, Bool.false_eq_true, if_false] at cut
    have step := running.step
    split at cut
    · next after full =>
      have nodes : support.nodes = (admittedAnchors anchors).length + log.length := by
        rw [running.replay, (recordFired_frame log _).2, seeded, nodes_admitAnchors]
        simp [Support.none]
      refine ⟨(log ++ firedIn state support pending).map Prod.fst, step.once, ?_, ?_⟩
      · intro entry inside
        obtain ⟨fired, logged, rfl⟩ := List.mem_map.mp inside
        exact fires_of_through (step.depths fired logged).1
      · have room := fireAll_cut full
        rw [List.length_map, List.length_append]
        omega
    · next after fires =>
      rw [← fireAll_eq fires] at step
      exact ih step cut

theorem complete_of_room
    (room : ∀ rules : List JustificationSet, rules.Nodup → (∀ entry ∈ rules, Fires graph anchors
      state entry) → (admittedAnchors anchors).length + rules.length ≤ budget) :
    (groundedClosure budget graph anchors state).status = .complete := by
  obtain ⟨out, cut, done⟩ : ∃ out cut, close budget graph anchors state = (out, cut) := ⟨_, _, rfl⟩
  cases cut with
  | false => simp [groundedClosure, done, Support.result]
  | true =>
    unfold close at done
    split at done
    · next support seeds =>
      have few := room [] List.nodup_nil (by simp)
      have many := seed_cut seeds
      simp only [Support.none, Nat.zero_add] at many
      rw [admittedAnchors, List.length_nil] at few
      omega
    · next support seeds =>
      rw [seeded_of_seed seeds] at done
      obtain ⟨rules, distinct, fires, many⟩ := (Running.start graph anchors state).cut done
      have few := room rules distinct fires
      omega

theorem nodes_le_of_close (done : close budget graph anchors state = (out, false)) :
    out.nodes ≤ budget := by
  have fires : ∀ (fired : List Fired) (support after : Support), support.nodes ≤ budget →
      fireAll contentHashOf budget fired support = (after, false) → after.nodes ≤ budget := by
    intro fired
    induction fired with
    | nil =>
      intro support after few ran
      cases ran
      exact few
    | cons first rest ih =>
      obtain ⟨entry, depth, used⟩ := first
      intro support after few ran
      rw [fireAll] at ran
      split at ran
      · cases ran
      · apply ih _ _ _ ran
        simp only [Support.record]
        omega
  have goes : ∀ (fuel : Nat) (pending : List JustificationSet) (support after : Support),
      support.nodes ≤ budget →
      rounds contentHashOf budget state fuel pending support = (after, false) →
      after.nodes ≤ budget := by
    intro fuel
    induction fuel with
    | zero =>
      intro pending support after few ran
      cases ran
      exact few
    | succ fuel ih =>
      intro pending support after few ran
      rw [rounds] at ran
      split at ran
      · cases ran
        exact few
      · split at ran
        · cases ran
        · next middle ran' => exact ih _ _ _ (fires _ _ _ few ran') ran
  have seeds : ∀ (anchors : List Anchor) (support after : Support), support.nodes ≤ budget →
      seed budget anchors support = (after, false) → after.nodes ≤ budget := by
    intro anchors
    induction anchors with
    | nil =>
      intro support after few ran
      cases ran
      exact few
    | cons anchor rest ih =>
      intro support after few ran
      rw [seed] at ran
      split at ran
      · exact ih _ _ few ran
      · split at ran
        · cases ran
        · apply ih _ _ _ ran
          simp only [Support.admitAnchor, nodes_cite, Support.record]
          omega
  unfold close at done
  split at done
  · cases done
  · next support ran => exact goes _ _ _ _ (seeds _ _ _ (Nat.zero_le _) ran) done

theorem complete_unconditional
    (complete : (groundedClosure budget graph anchors state).status = .complete) :
    (groundedClosure budget graph.unconditional anchors state).status = .complete := by
  obtain ⟨out, log, _, done, settled⟩ := settled_of_complete complete
  apply complete_of_room
  intro rules distinct fires
  have inside : rules ⊆ log.map Prod.fst := by
    intro entry listed
    obtain ⟨known, enabled, body⟩ := (fires entry listed).unconditional
    refine (settled.fired entry).mpr ⟨known, enabled, fun atom below => ?_⟩
    exact (settled.least.iff_derivable atom).mpr (body atom below)
  have few := (distinct.subperm inside).length_le
  have nodes := nodes_le_of_close done
  rw [settled.nodes] at nodes
  rw [List.length_map] at few
  omega

/-! Clean atoms. -/

section
variable {out : Support} {log : List Fired} (settled : Settled graph anchors state out log)
include settled

/-- The atoms with a derivation free of assumptions are those reached without the rules that have
conditions. -/
theorem Settled.clean_iff (atom : Atom) :
    Clean (listed out.witnesses) atom ↔
      Derivable (program graph.unconditional anchors state) atom := by
  have least := derivable_leastClosed (P := program graph.unconditional anchors state)
  constructor
  · intro clean
    induction clean with
    | @intro atom w here free _ ih =>
      rw [settled.tidy.listed_iff] at here
      rcases settled.cases here with ⟨anchor, admitted, rfl, rfl⟩ | ⟨entry, known, rfl, holds, depth, rfl⟩
      · exact least.closed.seeds _ ⟨anchor, admitted, rfl⟩
      · have plain : entry.conditions = [] := List.map_eq_nil_iff.mp free
        exact least.closed.rules entry ⟨enabled_unconditional.mpr ⟨holds.1, plain⟩, ih⟩
  · apply least.least
    constructor
    · rintro _ ⟨anchor, admitted, rfl⟩
      exact .intro (settled.anchored admitted) rfl (by simp [Anchor.witness, propositionAtoms])
    · rintro entry ⟨enabled, body⟩
      obtain ⟨allowed, plain⟩ := enabled_unconditional.mp enabled
      have reached : ∀ premise ∈ propositionAtoms entry.premises,
          out.witnessesFor premise ≠ [] := by
        intro premise inside
        cases body premise inside with
        | intro here _ _ => exact List.ne_nil_of_mem ((settled.tidy.listed_iff _ _).mp here)
      obtain ⟨depth, here⟩ := settled.derived allowed.1 ⟨allowed, reached⟩
      exact .intro here (by simp [JustificationSet.witness, plain]) body

end

theorem derivation_unconditional {atom : Atom}
    (derivable : Derivable (program graph.unconditional anchors state) atom) :
    ∃ d : Derivation graph anchors state atom, d.assumes = ∅ := by
  apply derivable_leastClosed.least _ _ atom derivable
  constructor
  · rintro _ ⟨anchor, admitted, rfl⟩
    exact ⟨.anchored anchor admitted, rfl⟩
  · rintro entry ⟨enabled, body⟩
    obtain ⟨allowed, plain⟩ := enabled_unconditional.mp enabled
    choose below free using body
    refine ⟨.derived entry allowed below, ?_⟩
    rw [Set.eq_empty_iff_forall_notMem]
    rintro name (own | ⟨premise, inside, used⟩)
    · rw [plain] at own
      cases own
    · have none := free premise inside
      rw [Set.eq_empty_iff_forall_notMem] at none
      exact none name used

end

def Polarity.opposite : Polarity → Polarity
  | .positive => .negative
  | .negative => .positive

def ClosureResult.mayRelease (result : ClosureResult) (key : String) (highRisk : Bool)
    (polarity : Polarity) : Bool :=
  (result.releaseBlockReason key highRisk polarity).isNone

theorem mayRelease_reads {result : ClosureResult} {key : String} {highRisk : Bool}
    {polarity : Polarity} (released : result.mayRelease key highRisk polarity = true) :
    result.status = .complete ∧ result.reached ⟨key, polarity⟩ ∧
      ¬ result.reached ⟨key, polarity.opposite⟩ ∧
      (highRisk = true → ⟨key, polarity⟩ ∉ result.assumptionBacked) := by
  unfold ClosureResult.mayRelease ClosureResult.releaseBlockReason at released
  rw [Option.isNone_iff_eq_none] at released
  split at released
  · cases released
  next done =>
  have complete : result.status = .complete := by
    cases status : result.status with
    | complete => rfl
    | evaluationIncomplete => exact absurd status done
  have lone : ¬ (0 < (result.supportFor key).t ∧ 0 < (result.supportFor key).f) := by
    intro both
    have conflict : (result.supportFor key).truth = .conflict := by
      rw [SupportCount.truth, if_pos both]
    rw [if_pos conflict] at released
    cases released
  simp only [ClosureResult.supportFor, List.length_pos_iff] at lone
  cases polarity with
  | positive | negative =>
    dsimp only at released
    split at released
    · cases released
    split at released
    · cases released
    next counted =>
    split at released
    · cases released
    next safe =>
    rw [ClosureResult.supportFor, List.length_eq_zero_iff] at counted
    refine ⟨complete, counted, fun other => lone ?_, fun high assumed =>
      safe ⟨high, decide_eq_true assumed⟩⟩
    first
    | exact ⟨counted, other⟩
    | exact ⟨other, counted⟩

/-- Of a complete closure, with or without limits: the closure without the rules that have conditions
is complete too, and the assumed atoms are those reached that it does not reach. A conclusion that
may be released at high risk has a derivation without assumptions, and its opposite is not
reached. -/
theorem assumptionBacked_iff (contentHashOf : Json → String) (limits : Option Limited)
    (budget : Nat) (graph : SupportGraph contentHashOf) (anchors : List Anchor)
    (state : AssumptionState) :
    ∃ result, closureUnder limits budget graph anchors state = .ok result ∧
      (result.status = .complete →
        (groundedClosure budget graph.unconditional anchors state).status = .complete ∧
        ∀ atom, atom ∈ result.assumptionBacked ↔ result.reached atom ∧
          ¬ (groundedClosure budget graph.unconditional anchors state).reached atom) ∧
      ∀ key polarity, result.mayRelease key true polarity = true →
        (∃ d : Derivation graph anchors state ⟨key, polarity⟩, d.assumes = ∅) ∧
          ¬ result.reached ⟨key, polarity.opposite⟩ := by
  obtain ⟨result, ran, agrees⟩ := closureUnder_agrees limits budget graph anchors state
  have exactly : result.status = .complete →
      (groundedClosure budget graph.unconditional anchors state).status = .complete ∧
      ∀ atom, atom ∈ result.assumptionBacked ↔ result.reached atom ∧
        ¬ (groundedClosure budget graph.unconditional anchors state).reached atom := by
    intro complete
    have plain := agrees complete
    rw [plain] at complete
    obtain ⟨out, log, same, _, settled⟩ := settled_of_complete complete
    have whole := complete_unconditional complete
    have least := (groundedClosure_least contentHashOf budget graph.unconditional anchors state
      whole).1
    refine ⟨whole, fun atom => ?_⟩
    have assumed : atom ∈ result.assumptionBacked ↔
        atom ∈ Id.run (assumptionBacked (pure ()) out.witnesses) := by
      rw [plain, same]
      rfl
    have reached : result.reached atom ↔ out.witnessesFor atom ≠ [] := by
      rw [plain, same]
      rfl
    rw [assumed, mem_assumptionBacked, settled.tidy.mem_keys, settled.clean_iff, reached,
      least.iff_derivable]
  refine ⟨result, ran, exactly, fun key polarity released => ?_⟩
  obtain ⟨complete, reached, alone, clear⟩ := mayRelease_reads released
  obtain ⟨whole, assumed⟩ := exactly complete
  have least := (groundedClosure_least contentHashOf budget graph.unconditional anchors state
    whole).1
  have free : (groundedClosure budget graph.unconditional anchors state).reached ⟨key, polarity⟩ :=
    not_not.mp fun without => clear rfl ((assumed _).mpr ⟨reached, without⟩)
  exact ⟨derivation_unconditional ((least.iff_derivable _).mp free), alone⟩

end Knowledge
