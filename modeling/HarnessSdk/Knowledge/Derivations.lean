import HarnessSdk.Knowledge.ClosureOrder
import HarnessSdk.Knowledge.BoundedResults

/-! Derivations from the anchors, and what the witnesses of a complete closure say of them. -/
namespace Knowledge
open PyDict PyText Checks Workflow PositiveRules

/-- The engine with limits, and what was counted of its meter before. -/
structure Limited where
  bounds : Bounds
  visits : Nat
  readings : Nat

section
variable {contentHashOf : Json → String}

/-- `grounded_closure`: limits hand the run to the bounded engine. -/
def closureUnder (limits : Option Limited) (budget : Nat) (graph : SupportGraph contentHashOf)
    (anchors : List Anchor) (state : AssumptionState) : Except Stop ClosureResult :=
  match limits with
  | none => .ok (groundedClosure budget graph anchors state)
  | some limited => boundedGroundedClosure limited.bounds limited.visits limited.readings budget []
      graph anchors state

theorem closureUnder_agrees (limits : Option Limited) (budget : Nat)
    (graph : SupportGraph contentHashOf) (anchors : List Anchor) (state : AssumptionState) :
    ∃ result, closureUnder limits budget graph anchors state = .ok result ∧
      (result.status = .complete → result = groundedClosure budget graph anchors state) := by
  cases limits with
  | none => exact ⟨_, rfl, fun _ => rfl⟩
  | some limited =>
    obtain ⟨result, ran, agrees, _⟩ := boundedGroundedClosure_agrees contentHashOf limited.bounds
      limited.visits limited.readings budget [] graph anchors state
    exact ⟨result, ran, fun complete => (agrees rfl complete).1⟩

section
variable (graph : SupportGraph contentHashOf) (anchors : List Anchor) (state : AssumptionState)

/-- A derivation: an admitted anchor, or a rule with its conditions asserted, its evidence admitted
and a derivation of each premise. -/
inductive Derivation : Atom → Type
  | anchored (anchor : Anchor) (admitted : anchor ∈ admittedAnchors anchors) :
      Derivation anchor.atom
  | derived (entry : JustificationSet) (enabled : (program graph anchors state).enabled entry)
      (body : ∀ atom ∈ propositionAtoms entry.premises, Derivation atom) : Derivation entry.atom

end

variable {graph : SupportGraph contentHashOf} {anchors : List Anchor} {state : AssumptionState}

/-- The source groups of the anchors at the leaves; a cited piece of evidence rests on every anchor
that brought it. -/
def Derivation.restsOn {atom : Atom} : Derivation graph anchors state atom → Set String
  | .anchored anchor _ => {anchor.sourceGroup}
  | .derived entry _ body => {s | (∃ ref, .evidence ref ∈ entry.premises ∧
      ∃ anchor ∈ admittedAnchors anchors, anchor.evidenceRef = some ref ∧ anchor.sourceGroup = s) ∨
    ∃ premise, ∃ inside : premise ∈ propositionAtoms entry.premises,
      (body premise inside).restsOn s}

def Derivation.assumes {atom : Atom} : Derivation graph anchors state atom → Set String
  | .anchored _ _ => ∅
  | .derived entry _ body => {name | name ∈ entry.conditions.map RuleCondition.name ∨
    ∃ premise, ∃ inside : premise ∈ propositionAtoms entry.premises,
      (body premise inside).assumes name}

theorem Derivation.restsOn_nonempty {atom : Atom} (d : Derivation graph anchors state atom) :
    d.restsOn.Nonempty := by
  induction d with
  | anchored anchor admitted => exact ⟨_, rfl⟩
  | derived entry enabled body ih =>
    obtain ⟨premise, inside⟩ := List.exists_mem_of_ne_nil _ entry.grounded
    cases premise with
    | evidence ref =>
      obtain ⟨anchor, admitted, cited⟩ := enabled.2.1 ref inside
      exact ⟨_, Or.inl ⟨ref, inside, anchor, admitted, cited, rfl⟩⟩
    | proposition premise =>
      obtain ⟨s, rests⟩ := ih premise ((mem_propositionAtoms _ _).mpr inside)
      exact ⟨s, Or.inr ⟨premise, (mem_propositionAtoms _ _).mpr inside, rests⟩⟩

theorem closed_derivation :
    Closed (program graph anchors state) fun atom => Nonempty (Derivation graph anchors state atom) where
  seeds := by
    rintro _ ⟨anchor, admitted, rfl⟩
    exact ⟨.anchored anchor admitted⟩
  rules := by
    rintro entry ⟨enabled, body⟩
    exact ⟨.derived entry enabled fun atom inside => (body atom inside).some⟩

theorem Derivation.reached {S : Atom → Prop} (closed : Closed (program graph anchors state) S)
    {atom : Atom} (d : Derivation graph anchors state atom) : S atom := by
  induction d with
  | anchored anchor admitted => exact closed.seeds _ ⟨anchor, admitted, rfl⟩
  | derived entry enabled body ih => exact closed.rules entry ⟨enabled, ih⟩

/-! What is logged. -/

def Names (contentHashOf : Json → String) (graph : SupportGraph contentHashOf)
    (support : Support) : Prop :=
  ∀ atom, ∀ w ∈ support.witnessesFor atom, w.kind = .derived → ∃ entry ∈ graph.justifications,
    w.signature = entry.signature contentHashOf ∧
      w.assumptions = entry.conditions.map RuleCondition.name

theorem names_seeded (anchors : List Anchor) : Names contentHashOf graph (seeded anchors) := by
  intro atom w inside derived
  rw [witnessesFor_seeded] at inside
  obtain ⟨anchor, _, rfl⟩ := List.mem_map.mp inside
  cases derived

variable {support out : Support} {pending : List JustificationSet} {budget : Nat}

theorem Names.step (names : Names contentHashOf graph support)
    (known : ∀ entry ∈ pending, entry ∈ graph.justifications) :
    Names contentHashOf graph
      ((firedIn state support pending).foldl (recordFired contentHashOf) support) := by
  intro atom w inside derived
  rw [witnessesFor_recordFired, List.mem_append] at inside
  rcases inside with old | new
  · exact names atom w old derived
  · obtain ⟨fired, logged, rfl⟩ := List.mem_map.mp new
    obtain ⟨waiting, held⟩ := mem_firedIn.mp (List.mem_of_mem_filter logged)
    have said := (satisfies_eq_some _ _ _ _ _).mp held
    exact ⟨fired.1, known _ waiting, rfl, said.2.2.2⟩

theorem Names.rounds {fuel : Nat} (names : Names contentHashOf graph support)
    (known : ∀ entry ∈ pending, entry ∈ graph.justifications)
    (done : rounds contentHashOf budget state fuel pending support = (out, false)) :
    Names contentHashOf graph out := by
  induction fuel generalizing support pending with
  | zero =>
    cases done
    exact names
  | succ fuel ih =>
    rw [Knowledge.rounds] at done
    by_cases quiet : firedIn state support pending = []
    · simp only [quiet, List.isEmpty_nil, if_true] at done
      cases done
      exact names
    · have busy : (firedIn state support pending).isEmpty = false := by simp [quiet]
      simp only [busy, Bool.false_eq_true, if_false] at done
      split at done
      · cases done
      · next after fires =>
        rw [fireAll_eq fires] at done
        exact ih (names.step known) (fun entry inside => known entry (List.mem_of_mem_filter inside))
          done

/-- What the witnesses of a complete closure are: those of the admitted anchors, and one of each rule
whose body is reached. -/
structure Settled (graph : SupportGraph contentHashOf) (anchors : List Anchor)
    (state : AssumptionState) (out : Support) (log : List Fired) : Prop where
  least : LeastClosed (program graph anchors state) fun atom => out.witnessesFor atom ≠ []
  fired : ∀ entry, entry ∈ log.map Prod.fst ↔ entry ∈ graph.justifications ∧
    BodyHolds (program graph anchors state) (fun atom => out.witnessesFor atom ≠ []) entry
  once : (log.map Prod.fst).Nodup
  named : ∀ f ∈ log, f.2.2 = f.1.conditions.map RuleCondition.name
  witnesses : ∀ atom, out.witnessesFor atom =
    ((admittedAnchors anchors).filter (·.atom = atom)).map Anchor.witness ++
      (log.filter (·.1.atom = atom)).map (Fired.witness contentHashOf)
  cited : ∀ ref s, citedBy out.refGroups ref s ↔
    ∃ anchor ∈ admittedAnchors anchors, anchor.evidenceRef = some ref ∧ anchor.sourceGroup = s
  nodes : out.nodes = (admittedAnchors anchors).length + log.length
  tidy : Tidy out

theorem recordFired_frame (log : List Fired) (support : Support) :
    (log.foldl (recordFired contentHashOf) support).refGroups = support.refGroups ∧
    (log.foldl (recordFired contentHashOf) support).nodes = support.nodes + log.length := by
  induction log generalizing support with
  | nil => exact ⟨rfl, rfl⟩
  | cons fired rest ih =>
    obtain ⟨groups, nodes⟩ := ih (recordFired contentHashOf support fired)
    refine ⟨groups, nodes.trans ?_⟩
    rw [List.length_cons]
    simp only [recordFired, Support.record]
    omega

theorem settled_of_close (done : close budget graph anchors state = (out, false)) :
    ∃ log, Settled graph anchors state out log := by
  obtain ⟨k, pending, log, running, quiet⟩ := close_running done
  have reached : (fun atom => out.heights atom ≠ []) = fun atom => out.witnessesFor atom ≠ [] := by
    funext atom
    rw [eq_iff_iff, heights_ne_nil]
  have names : Names contentHashOf graph out := by
    unfold close at done
    split at done
    · cases done
    · next support seeds =>
      rw [seeded_of_seed seeds] at done
      exact (names_seeded anchors).rounds (fun _ known => known) done
  have frame := @recordFired_frame contentHashOf log (seeded anchors)
  rw [← running.replay] at frame
  refine ⟨log, ?_, ?_, running.once, ?_, running.witnessesFor, ?_, ?_, tidy_closed done⟩
  · exact reached ▸ running.leastClosed quiet
  · intro entry
    rw [← reached]
    constructor
    · intro logged
      have known := ((running.logged entry).mp logged).1
      exact ⟨known, (running.fired_iff quiet known).mp logged⟩
    · intro held
      exact (running.fired_iff quiet held.1).mpr held.2
  · intro f logged
    have witnessed : f.witness contentHashOf ∈ out.witnessesFor f.1.atom := by
      rw [running.witnessesFor]
      apply List.mem_append_right
      apply List.mem_map_of_mem
      simp [logged]
    obtain ⟨entry, known, signed, said⟩ := names _ _ witnessed rfl
    have fires := ((running.logged f.1).mp (List.mem_map_of_mem logged)).1
    have same : f.1 = entry :=
      List.inj_on_of_nodup_map (justifications_signatures_nodup graph) fires known signed
    rw [← same] at said
    exact said
  · intro ref s
    rw [frame.1, seeded, citedBy_admitAnchors]
    simp [Support.none, citedBy]
  · rw [frame.2, seeded, nodes_admitAnchors]
    simp [Support.none]

theorem settled_of_complete
    (complete : (groundedClosure budget graph anchors state).status = .complete) :
    ∃ out log, groundedClosure budget graph anchors state = out.result .complete budget ∧
      close budget graph anchors state = (out, false) ∧ Settled graph anchors state out log := by
  obtain ⟨out, cut, done⟩ : ∃ out cut, close budget graph anchors state = (out, cut) := ⟨_, _, rfl⟩
  cases cut with
  | true => simp [groundedClosure, done, Support.result] at complete
  | false =>
    obtain ⟨log, settled⟩ := settled_of_close done
    exact ⟨out, log, by simp [groundedClosure, done], done, settled⟩

section
variable {out : Support} {log : List Fired} (settled : Settled graph anchors state out log)
include settled

theorem Settled.derivable {atom : Atom} :
    out.witnessesFor atom ≠ [] ↔ Nonempty (Derivation graph anchors state atom) := by
  constructor
  · exact settled.least.least _ closed_derivation atom
  · rintro ⟨d⟩
    exact d.reached settled.least.closed

theorem Settled.anchored {anchor : Anchor} (admitted : anchor ∈ admittedAnchors anchors) :
    listed out.witnesses anchor.atom anchor.witness := by
  rw [settled.tidy.listed_iff, settled.witnesses]
  apply List.mem_append_left
  apply List.mem_map_of_mem
  simp [admitted]

theorem Settled.derived {entry : JustificationSet} (known : entry ∈ graph.justifications)
    (holds : BodyHolds (program graph anchors state) (fun atom => out.witnessesFor atom ≠ []) entry) :
    ∃ depth, listed out.witnesses entry.atom
      (entry.witness contentHashOf depth (entry.conditions.map RuleCondition.name)) := by
  obtain ⟨f, logged, rfl⟩ := List.mem_map.mp ((settled.fired entry).mpr ⟨known, holds⟩)
  refine ⟨f.2.1, ?_⟩
  rw [← settled.named f logged, settled.tidy.listed_iff, settled.witnesses]
  apply List.mem_append_right
  apply List.mem_map.mpr
  exact ⟨f, by simp [logged], rfl⟩

theorem Settled.cases {atom : Atom} {w : SupportWitness} (inside : w ∈ out.witnessesFor atom) :
    (∃ anchor ∈ admittedAnchors anchors, anchor.atom = atom ∧ w = anchor.witness) ∨
    ∃ entry ∈ graph.justifications, entry.atom = atom ∧
      BodyHolds (program graph anchors state) (fun a => out.witnessesFor a ≠ []) entry ∧
      ∃ depth, w = entry.witness contentHashOf depth (entry.conditions.map RuleCondition.name) := by
  rw [settled.witnesses, List.mem_append] at inside
  rcases inside with anchored | derived
  · obtain ⟨anchor, found, rfl⟩ := List.mem_map.mp anchored
    rw [List.mem_filter, decide_eq_true_eq] at found
    exact Or.inl ⟨anchor, found.1, found.2, rfl⟩
  · obtain ⟨f, found, rfl⟩ := List.mem_map.mp derived
    rw [List.mem_filter, decide_eq_true_eq] at found
    have held := (settled.fired f.1).mp (List.mem_map_of_mem found.1)
    exact Or.inr ⟨f.1, held.1, found.2, held.2, f.2.1, by rw [← settled.named f found.1]; rfl⟩

end

end
end Knowledge
