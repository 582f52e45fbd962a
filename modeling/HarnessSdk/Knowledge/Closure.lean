import HarnessSdk.Knowledge.Results
import HarnessSdk.Library.PositiveRules

/-! The grounded closure computes the least set closed under the admitted anchors and the rules. -/
namespace Knowledge
open PyDict PyText Checks Workflow PositiveRules

/-! What each step does to the state. -/

section
variable (support : Support)
include support

theorem witnessesFor_record (witness : SupportWitness) (atom : Atom) :
    (support.record witness).witnessesFor atom =
      support.witnessesFor atom ++ if witness.atom = atom then [witness] else [] := by
  simp only [Support.record, Support.witnessesFor, get?_set]
  by_cases same : witness.atom = atom <;> simp [same]

@[simp] theorem witnessesFor_cite (anchor : Anchor) (atom : Atom) :
    (support.cite anchor).witnessesFor atom = support.witnessesFor atom := by
  unfold Support.cite
  split <;> rfl

@[simp] theorem nodes_cite (anchor : Anchor) :
    (support.cite anchor).nodes = support.nodes := by
  unfold Support.cite
  split <;> rfl

@[simp] theorem admitted_cite (anchor : Anchor) :
    (support.cite anchor).admitted = support.admitted := by
  unfold Support.cite
  split <;> rfl

theorem mem_evidenceRefs_cite (anchor : Anchor) (ref : EvidenceRef) :
    ref ∈ (support.cite anchor).evidenceRefs ↔
      ref ∈ support.evidenceRefs ∨ anchor.evidenceRef = some ref := by
  unfold Support.cite
  cases anchor.evidenceRef with
  | none => simp
  | some cited => simp [eq_comm]

end

/-! The seeds. -/

def admittedAnchors (anchors : List Anchor) : List Anchor := firsts Anchor.signature [] anchors

theorem seed_eq {budget : Nat} {anchors : List Anchor} {support out : Support}
    (done : seed budget anchors support = (out, false)) :
    out = (firsts Anchor.signature support.admitted anchors).foldl Support.admitAnchor support := by
  induction anchors generalizing support with
  | nil =>
    cases done
    rfl
  | cons anchor rest ih =>
    rw [seed] at done
    rw [firsts]
    by_cases known : anchor.signature ∈ support.admitted
    · rw [if_pos known] at done ⊢
      exact ih done
    · rw [if_neg known] at done ⊢
      split at done
      · cases done
      · rw [ih done, List.foldl_cons]
        congr 1
        apply firsts_congr
        intro k
        simp [Support.admitAnchor, Support.record, Anchor.witness, or_comm]

def seeded (anchors : List Anchor) : Support :=
  (admittedAnchors anchors).foldl Support.admitAnchor Support.none

theorem seeded_of_seed {budget : Nat} {anchors : List Anchor} {out : Support}
    (done : seed budget anchors Support.none = (out, false)) : out = seeded anchors :=
  seed_eq done

section
variable (anchors : List Anchor)
include anchors

theorem witnessesFor_admitAnchors (support : Support) (atom : Atom) :
    (anchors.foldl Support.admitAnchor support).witnessesFor atom =
      support.witnessesFor atom ++ (anchors.filter (·.atom = atom)).map Anchor.witness := by
  induction anchors generalizing support with
  | nil => simp
  | cons anchor rest ih =>
    rw [List.foldl_cons, ih, Support.admitAnchor, witnessesFor_cite, witnessesFor_record]
    by_cases same : anchor.atom = atom
    · simp [same, Anchor.witness]
    · simp [same, Anchor.witness]

theorem mem_evidenceRefs_admitAnchors (support : Support)
    (ref : EvidenceRef) :
    ref ∈ (anchors.foldl Support.admitAnchor support).evidenceRefs ↔
      ref ∈ support.evidenceRefs ∨ ∃ anchor ∈ anchors, anchor.evidenceRef = some ref := by
  induction anchors generalizing support with
  | nil => simp
  | cons anchor rest ih =>
    rw [List.foldl_cons, ih, Support.admitAnchor, mem_evidenceRefs_cite]
    simp only [Support.record, List.exists_mem_cons_iff, or_assoc]

theorem witnessesFor_seeded (atom : Atom) :
    (seeded anchors).witnessesFor atom =
      ((admittedAnchors anchors).filter (·.atom = atom)).map Anchor.witness := by
  rw [seeded, witnessesFor_admitAnchors]
  rfl

theorem mem_evidenceRefs_seeded (ref : EvidenceRef) :
    ref ∈ (seeded anchors).evidenceRefs ↔
      ∃ anchor ∈ admittedAnchors anchors, anchor.evidenceRef = some ref := by
  rw [seeded, mem_evidenceRefs_admitAnchors]
  simp [Support.none]

end

/-! The rules. -/

section
variable {contentHashOf : Json → String}

/-- The rules of a graph over the admitted anchors and the asserted assumptions. -/
def program (graph : SupportGraph contentHashOf) (anchors : List Anchor)
    (state : AssumptionState) : Program Atom JustificationSet where
  seed := fun atom => ∃ anchor ∈ admittedAnchors anchors, anchor.atom = atom
  enabled := fun entry => entry ∈ graph.justifications ∧
    (∀ ref, .evidence ref ∈ entry.premises →
      ∃ anchor ∈ admittedAnchors anchors, anchor.evidenceRef = some ref) ∧
    ∀ condition ∈ entry.conditions, get? state condition.name = some true
  head := JustificationSet.atom
  body := fun entry => propositionAtoms entry.premises

variable (contentHashOf)

def recordFired (support : Support) (fired : Fired) : Support :=
  support.record (fired.1.witness contentHashOf fired.2.1 fired.2.2)

variable {contentHashOf}

theorem fireAll_eq {budget : Nat} {fired : List Fired} {support out : Support}
    (done : fireAll contentHashOf budget fired support = (out, false)) :
    out = fired.foldl (recordFired contentHashOf) support := by
  induction fired generalizing support with
  | nil =>
    cases done
    rfl
  | cons first rest ih =>
    obtain ⟨entry, depth, used⟩ := first
    rw [fireAll] at done
    split at done
    · cases done
    · exact ih done

def Fired.witness (contentHashOf : Json → String) (fired : Fired) : SupportWitness :=
  fired.1.witness contentHashOf fired.2.1 fired.2.2

theorem witnessesFor_recordFired (log : List Fired) (support : Support) (atom : Atom) :
    (log.foldl (recordFired contentHashOf) support).witnessesFor atom =
      support.witnessesFor atom ++
        (log.filter (·.1.atom = atom)).map (Fired.witness contentHashOf) := by
  induction log generalizing support with
  | nil => simp
  | cons fired rest ih =>
    rw [List.foldl_cons, ih, recordFired, witnessesFor_record]
    by_cases same : fired.1.atom = atom
    · simp [same, JustificationSet.witness, Fired.witness]
    · simp [same, JustificationSet.witness]

theorem evidenceRefs_recordFired (log : List Fired) (support : Support) :
    (log.foldl (recordFired contentHashOf) support).evidenceRefs = support.evidenceRefs := by
  induction log generalizing support with
  | nil => rfl
  | cons fired rest ih =>
    rw [List.foldl_cons, ih]
    rfl

end

theorem minDepth_eq (supports : List SupportWitness) :
    minDepth supports = (supports.map SupportWitness.depth).min? := by
  cases supports with
  | nil => rfl
  | cons first rest => rw [minDepth, List.map_cons, List.min?_cons', List.foldl_map]

theorem minDepth_eq_none (supports : List SupportWitness) :
    minDepth supports = none ↔ supports = [] := by
  cases supports <;> simp [minDepth]

theorem minDepth_spec {supports : List SupportWitness} {least : Nat}
    (found : minDepth supports = some least) :
    (∃ w ∈ supports, w.depth = least) ∧ ∀ w ∈ supports, least ≤ w.depth := by
  rw [minDepth_eq, List.min?_eq_some_iff] at found
  simpa using found

def leastDepth (support : Support) (atom : Atom) : Nat :=
  (minDepth (support.witnessesFor atom)).getD 0

theorem premiseDepth_eq_some (support : Support) (premises : List Premise) (start depth : Nat) :
    premiseDepth support.witnesses support.evidenceRefs start premises = some depth ↔
      (∀ ref, .evidence ref ∈ premises → ref ∈ support.evidenceRefs) ∧
      (∀ atom ∈ propositionAtoms premises, support.witnessesFor atom ≠ []) ∧
      depth = max start (top ((propositionAtoms premises).map (leastDepth support))) := by
  induction premises generalizing start with
  | nil =>
    simp only [premiseDepth, propositionAtoms, top, List.filterMap_nil, List.map_nil,
      List.foldr_nil, Nat.max_zero, List.not_mem_nil, false_implies, implies_true, true_and,
      Option.some.injEq]
    exact eq_comm
  | cons premise rest ih =>
    cases premise with
    | evidence ref =>
      rw [premiseDepth]
      by_cases known : ref ∈ support.evidenceRefs
      · rw [if_pos known, ih]
        simp [propositionAtoms, known]
      · simp [known]
    | proposition atom =>
      rw [premiseDepth]
      cases found : minDepth ((get? support.witnesses atom).getD []) with
      | none =>
        have unsupported : support.witnessesFor atom = [] := (minDepth_eq_none _).mp found
        simp [propositionAtoms, unsupported]
      | some least =>
        have supported : support.witnessesFor atom ≠ [] := by
          intro empty
          have := (minDepth_eq_none _).mpr empty
          rw [Support.witnessesFor] at this
          rw [found] at this
          cases this
        have here : leastDepth support atom = least := by
          rw [leastDepth, Support.witnessesFor, found]
          rfl
        have atoms : propositionAtoms (.proposition atom :: rest) =
            atom :: propositionAtoms rest := rfl
        have highest : top ((atom :: propositionAtoms rest).map (leastDepth support)) =
            max least (top ((propositionAtoms rest).map (leastDepth support))) := by
          rw [List.map_cons, here]
          rfl
        rw [atoms, highest, ← max_assoc, List.forall_mem_cons]
        simp only [List.mem_cons, reduceCtorEq, false_or]
        rw [ih]
        simp only [ne_eq, supported, not_false_eq_true, true_and]

theorem satisfies_eq_some (support : Support) (state : AssumptionState) (entry : JustificationSet)
    (depth : Nat) (used : List String) :
    support.satisfies state entry = some (depth, used) ↔
      ((∀ ref, .evidence ref ∈ entry.premises → ref ∈ support.evidenceRefs) ∧
        (∀ condition ∈ entry.conditions, get? state condition.name = some true)) ∧
      (∀ atom ∈ propositionAtoms entry.premises, support.witnessesFor atom ≠ []) ∧
      depth = top ((propositionAtoms entry.premises).map (leastDepth support)) ∧
      used = entry.conditions.map RuleCondition.name := by
  have spec := premiseDepth_eq_some support entry.premises 0
  simp only [Nat.zero_max] at spec
  have held : (entry.conditions.all (asserted state) = true) ↔
      ∀ condition ∈ entry.conditions, get? state condition.name = some true := by
    simp [asserted]
  rw [Support.satisfies, premisesSatisfied]
  cases found : premiseDepth support.witnesses support.evidenceRefs 0 entry.premises with
  | none =>
    simp only [Option.bind_eq_bind, Option.bind_none, reduceCtorEq, false_iff]
    rintro ⟨⟨refs, _⟩, atoms, _, _⟩
    have := (spec _).mpr ⟨refs, atoms, rfl⟩
    rw [found] at this
    cases this
  | some value =>
    obtain ⟨refs, atoms, rfl⟩ := (spec value).mp found
    simp only [Option.bind_eq_bind, Option.bind_some]
    by_cases conditions : entry.conditions.all (asserted state) = true
    · rw [if_pos conditions]
      have holds := held.mp conditions
      simp only [Option.some.injEq, Prod.mk.injEq]
      constructor
      · rintro ⟨rfl, rfl⟩
        exact ⟨⟨refs, holds⟩, atoms, rfl, rfl⟩
      · rintro ⟨_, _, rfl, rfl⟩
        exact ⟨rfl, rfl⟩
    · rw [if_neg conditions]
      simp only [reduceCtorEq, false_iff]
      rintro ⟨⟨_, holds⟩, _⟩
      exact conditions (held.mpr holds)

/-! The rounds. -/

section
variable {contentHashOf : Json → String} {graph : SupportGraph contentHashOf}
  {anchors : List Anchor} {state : AssumptionState}

def Support.heights (support : Support) (atom : Atom) : List Nat :=
  (support.witnessesFor atom).map SupportWitness.depth

variable {out : Support} (support : Support)

theorem heights_ne_nil (atom : Atom) :
    support.heights atom ≠ [] ↔ support.witnessesFor atom ≠ [] := by
  simp [Support.heights]

/-- The state after `k` rounds, with the log of what fired. -/
structure Running (graph : SupportGraph contentHashOf) (anchors : List Anchor)
    (state : AssumptionState) (k : Nat) (support : Support) (pending : List JustificationSet)
    (log : List Fired) : Prop where
  replay : support = log.foldl (recordFired contentHashOf) (seeded anchors)
  heights : AfterRounds (program graph anchors state) k support.heights
  inside : pending.Sublist graph.justifications
  unfired : ∀ entry ∈ graph.justifications,
    entry ∈ pending ↔ ¬ ∃ n ≤ k, Through (program graph anchors state) entry n
  logged : ∀ entry, entry ∈ log.map Prod.fst ↔ entry ∈ graph.justifications ∧ entry ∉ pending
  once : (log.map Prod.fst).Nodup
  depths : ∀ fired ∈ log,
    IsLeast {n | Through (program graph anchors state) fired.1 n} (fired.2.1 + 1)

theorem justifications_perm (graph : SupportGraph contentHashOf) :
    graph.justifications.Perm graph.groups :=
  List.perm_insertionSort _ _

theorem justifications_signatures_nodup (graph : SupportGraph contentHashOf) :
    (graph.justifications.map (JustificationSet.signature contentHashOf)).Nodup :=
  ((justifications_perm graph).map _).nodup_iff.mpr graph.distinct

theorem Running.start (graph : SupportGraph contentHashOf) (anchors : List Anchor)
    (state : AssumptionState) :
    Running graph anchors state 0 (seeded anchors) graph.justifications [] where
  replay := rfl
  heights := by
    apply AfterRounds.start
    intro atom n
    rw [Support.heights, witnessesFor_seeded, List.map_map, List.mem_map]
    constructor
    · rintro ⟨anchor, found, rfl⟩
      rw [List.mem_filter, decide_eq_true_eq] at found
      exact ⟨⟨anchor, found.1, found.2⟩, rfl⟩
    · rintro ⟨⟨anchor, admitted, same⟩, rfl⟩
      refine ⟨anchor, ?_, rfl⟩
      rw [List.mem_filter, decide_eq_true_eq]
      exact ⟨admitted, same⟩
  inside := List.Sublist.refl _
  unfired := by
    intro entry known
    refine iff_of_true known ?_
    rintro ⟨n, le, _, _, _, rfl⟩
    omega
  logged := by simp
  once := List.nodup_nil
  depths := by simp

theorem map_fst_firedIn (pending : List JustificationSet) :
    (firedIn state support pending).map Prod.fst =
      pending.filter fun entry => (support.satisfies state entry).isSome := by
  induction pending with
  | nil => rfl
  | cons entry rest ih =>
    rw [firedIn] at ih ⊢
    cases held : support.satisfies state entry with
    | none => simp [held, ih]
    | some value => simp [held, ih]

variable {pending : List JustificationSet} {fired : Fired}

theorem mem_firedIn {support : Support} :
    fired ∈ firedIn state support pending ↔
      fired.1 ∈ pending ∧ support.satisfies state fired.1 = some fired.2 := by
  obtain ⟨entry, held⟩ := fired
  simp only [firedIn, List.mem_filterMap, Option.map_eq_some_iff, Prod.mk.injEq]
  constructor
  · rintro ⟨other, inside, value, found, rfl, rfl⟩
    exact ⟨inside, found⟩
  · rintro ⟨inside, found⟩
    exact ⟨entry, inside, held, found, rfl, rfl⟩

section
variable {k : Nat} {support : Support} {pending : List JustificationSet} {log : List Fired}
  (running : Running graph anchors state k support pending log)
include running

theorem Running.evidence (ref : EvidenceRef) :
    ref ∈ support.evidenceRefs ↔
      ∃ anchor ∈ admittedAnchors anchors, anchor.evidenceRef = some ref := by
  rw [running.replay, evidenceRefs_recordFired, mem_evidenceRefs_seeded]

variable {entry : JustificationSet}

theorem Running.satisfies_iff (known : entry ∈ graph.justifications) (depth : Nat)
    (used : List String) :
    support.satisfies state entry = some (depth, used) ↔
      BodyHolds (program graph anchors state) (fun a => support.heights a ≠ []) entry ∧
      depth = top ((propositionAtoms entry.premises).map (leastDepth support)) ∧
      used = entry.conditions.map RuleCondition.name := by
  simp only [satisfies_eq_some, running.evidence, BodyHolds, program, known, true_and,
    heights_ne_nil, and_assoc]

theorem Running.isSome_iff (known : entry ∈ graph.justifications) :
    (support.satisfies state entry).isSome = true ↔
      BodyHolds (program graph anchors state) (fun a => support.heights a ≠ []) entry := by
  rw [Option.isSome_iff_exists]
  constructor
  · rintro ⟨⟨depth, used⟩, held⟩
    exact ((running.satisfies_iff known depth used).mp held).1
  · intro holds
    exact ⟨(_, _), (running.satisfies_iff known _ _).mpr ⟨holds, rfl, rfl⟩⟩

theorem Running.leastDepth_isLeast {atom : Atom} (reached : support.heights atom ≠ []) :
    IsLeast {n | Derives (program graph anchors state) atom n} (leastDepth support atom) := by
  cases found : minDepth (support.witnessesFor atom) with
  | none => exact absurd ((minDepth_eq_none _).mp found) ((heights_ne_nil _ _).mp reached)
  | some least =>
    obtain ⟨⟨w, inside, here⟩, smallest⟩ := minDepth_spec found
    have same : leastDepth support atom = least := by rw [leastDepth, found, Option.getD_some]
    rw [same]
    apply running.heights.least
    · exact List.mem_map.mpr ⟨w, inside, here⟩
    · intro m hm
      obtain ⟨v, there, rfl⟩ := List.mem_map.mp hm
      exact smallest v there

theorem Running.isLeast_of_satisfies {depth : Nat} {used : List String}
    (known : entry ∈ graph.justifications)
    (held : support.satisfies state entry = some (depth, used)) :
    IsLeast {n | Through (program graph anchors state) entry n} (depth + 1) := by
  obtain ⟨⟨enabled, body⟩, rfl, _⟩ := (running.satisfies_iff known depth used).mp held
  exact isLeast_through enabled fun a ha => running.leastDepth_isLeast (body a ha)

theorem Running.fired_depth {fired : Fired} (inside : fired ∈ firedIn state support pending) :
    fired.2.1 + 1 = k + 1 := by
  obtain ⟨entry, depth, used⟩ := fired
  obtain ⟨waiting, held⟩ := mem_firedIn.mp inside
  have known : entry ∈ graph.justifications := running.inside.subset waiting
  have least := running.isLeast_of_satisfies known held
  have holds := ((running.satisfies_iff known depth used).mp held).1
  obtain ⟨n, le, through⟩ := running.heights.through_iff.mpr holds
  have upper : depth + 1 ≤ n := least.2 through
  have lower : ¬ depth + 1 ≤ k := fun early =>
    (running.unfired entry known).mp waiting ⟨_, early, least.1⟩
  change depth + 1 = k + 1
  omega

theorem Running.fires_iff (entry : JustificationSet) :
    entry ∈ (firedIn state support pending).map Prod.fst ↔
      BodyHolds (program graph anchors state) (fun a => support.heights a ≠ []) entry ∧
      ¬ ∃ n ≤ k, Through (program graph anchors state) entry n := by
  rw [map_fst_firedIn, List.mem_filter]
  constructor
  · rintro ⟨waiting, held⟩
    have known := running.inside.subset waiting
    exact ⟨(running.isSome_iff known).mp held, (running.unfired entry known).mp waiting⟩
  · rintro ⟨holds, fresh⟩
    have known : entry ∈ graph.justifications := holds.1.1
    exact ⟨(running.unfired entry known).mpr fresh, (running.isSome_iff known).mpr holds⟩

theorem Running.grown (atom : Atom) (n : Nat) :
    n ∈ ((firedIn state support pending).foldl (recordFired contentHashOf) support).heights atom ↔
      n ∈ support.heights atom ∨ n = k + 1 ∧
        ∃ entry ∈ (firedIn state support pending).map Prod.fst, entry.atom = atom := by
  rw [Support.heights, witnessesFor_recordFired, List.map_append, List.mem_append, Support.heights]
  apply or_congr Iff.rfl
  simp only [List.mem_map, List.mem_filter, decide_eq_true_eq]
  constructor
  · rintro ⟨_, ⟨fired, ⟨inside, same⟩, rfl⟩, rfl⟩
    exact ⟨running.fired_depth inside, fired.1, ⟨fired, inside, rfl⟩, same⟩
  · rintro ⟨rfl, _, ⟨fired, inside, rfl⟩, same⟩
    exact ⟨_, ⟨fired, ⟨inside, same⟩, rfl⟩, running.fired_depth inside⟩

theorem Running.step :
    Running graph anchors state (k + 1)
      ((firedIn state support pending).foldl (recordFired contentHashOf) support)
      (pending.filter fun entry => (support.satisfies state entry).isNone)
      (log ++ firedIn state support pending) where
  replay := by rw [List.foldl_append, ← running.replay]
  heights := running.heights.step running.fires_iff running.grown
  inside := List.filter_sublist.trans running.inside
  unfired := by
    intro entry known
    have early : (∃ n ≤ k + 1, Through (program graph anchors state) entry n) ↔
        (support.satisfies state entry).isSome = true := by
      rw [running.heights.through_iff, running.isSome_iff known]
    rw [early, List.mem_filter, Option.isNone_iff_eq_none, Option.isSome_iff_ne_none, not_ne_iff]
    constructor
    · exact fun h => h.2
    · intro unheld
      refine ⟨(running.unfired entry known).mpr ?_, unheld⟩
      rintro ⟨n, le, through⟩
      have held := early.mp ⟨n, by omega, through⟩
      rw [unheld] at held
      cases held
  logged := by
    intro entry
    rw [List.map_append, List.mem_append, running.logged, map_fst_firedIn, List.mem_filter,
      List.mem_filter]
    by_cases waiting : entry ∈ pending
    · have known := running.inside.subset waiting
      cases held : support.satisfies state entry <;> simp [waiting, known]
    · simp [waiting]
  once := by
    rw [List.map_append, List.nodup_append]
    have nodup : pending.Nodup := running.inside.nodup
      ((justifications_signatures_nodup graph).of_map _)
    refine ⟨running.once, ?_, ?_⟩
    · rw [map_fst_firedIn]
      exact nodup.filter _
    · intro entry before other now same
      subst same
      rw [map_fst_firedIn] at now
      exact ((running.logged entry).mp before).2 (List.mem_of_mem_filter now)
  depths := by
    intro fired inside
    rcases List.mem_append.mp inside with before | now
    · exact running.depths fired before
    · obtain ⟨waiting, held⟩ := mem_firedIn.mp now
      exact running.isLeast_of_satisfies (running.inside.subset waiting) held

end

variable {k : Nat} {log : List Fired}

theorem Running.finish {budget fuel : Nat} {support : Support}
    (running : Running graph anchors state k support pending log) (enough : pending.length ≤ fuel)
    (done : rounds contentHashOf budget state fuel pending support = (out, false)) :
    ∃ k' pending' log', Running graph anchors state k' out pending' log' ∧
      firedIn state out pending' = [] := by
  induction fuel generalizing k support pending log with
  | zero =>
    cases done
    have empty : pending = [] := List.eq_nil_of_length_eq_zero (by omega)
    subst empty
    exact ⟨k, [], log, running, rfl⟩
  | succ fuel ih =>
    rw [rounds] at done
    by_cases quiet : firedIn state support pending = []
    · simp only [quiet, List.isEmpty_nil, if_true] at done
      cases done
      exact ⟨k, pending, log, running, quiet⟩
    · have busy : (firedIn state support pending).isEmpty = false := by simp [quiet]
      simp only [busy, Bool.false_eq_true, if_false] at done
      have shrinks : (pending.filter fun entry =>
          (support.satisfies state entry).isNone).length < pending.length := by
        obtain ⟨fired, inside⟩ := List.exists_mem_of_ne_nil _ quiet
        obtain ⟨waiting, held⟩ := mem_firedIn.mp inside
        apply List.length_filter_lt_length_iff_exists.mpr
        exact ⟨fired.1, waiting, by simp [held]⟩
      split at done
      · cases done
      · next after fires =>
        have step := running.step
        rw [← fireAll_eq fires] at step
        exact ih step (by omega) done

/-! The closure. -/

def ownWitnesses (contentHashOf : Json → String) (result : ClosureResult)
    (entry : JustificationSet) : List SupportWitness :=
  (result.witnessesFor entry.atom).filter fun w =>
    w.kind = .derived ∧ w.signature = entry.signature contentHashOf

theorem close_running {budget : Nat} (done : close budget graph anchors state = (out, false)) :
    ∃ k pending log, Running graph anchors state k out pending log ∧
      firedIn state out pending = [] := by
  unfold close at done
  split at done
  · cases done
  · next support seeds =>
    rw [seeded_of_seed seeds] at done
    exact (Running.start graph anchors state).finish le_rfl done

section
variable {k : Nat} {out : Support} {pending : List JustificationSet} {log : List Fired}
  (running : Running graph anchors state k out pending log)
  (quiet : firedIn state out pending = [])
include running quiet

theorem Running.fired_iff {entry : JustificationSet} (known : entry ∈ graph.justifications) :
    entry ∈ log.map Prod.fst ↔
      BodyHolds (program graph anchors state) (fun a => out.heights a ≠ []) entry := by
  rw [running.logged]
  constructor
  · rintro ⟨_, fired⟩
    have early : ∃ n ≤ k, Through (program graph anchors state) entry n :=
      not_not.mp fun late => fired ((running.unfired entry known).mpr late)
    obtain ⟨n, le, through⟩ := early
    exact running.heights.through_iff.mp ⟨n, by omega, through⟩
  · intro holds
    refine ⟨known, fun waiting => ?_⟩
    have fires := (running.fires_iff entry).mpr
      ⟨holds, (running.unfired entry known).mp waiting⟩
    simp [quiet] at fires

theorem Running.leastClosed :
    LeastClosed (program graph anchors state) fun a => out.heights a ≠ [] := by
  apply running.heights.leastClosed
  intro entry holds
  have known : entry ∈ graph.justifications := holds.1.1
  have logged := (running.fired_iff quiet known).mpr holds
  exact not_not.mp fun late =>
    ((running.logged entry).mp logged).2 ((running.unfired entry known).mpr late)

end

theorem Running.witnessesFor (running : Running graph anchors state k out pending log)
    (atom : Atom) :
    out.witnessesFor atom =
      ((admittedAnchors anchors).filter (·.atom = atom)).map Anchor.witness ++
        (log.filter (·.1.atom = atom)).map (Fired.witness contentHashOf) := by
  rw [running.replay, witnessesFor_recordFired, witnessesFor_seeded]

theorem Running.own_filter (running : Running graph anchors state k out pending log)
    {entry : JustificationSet} (known : entry ∈ graph.justifications) :
    (out.witnessesFor entry.atom).filter (fun w =>
        w.kind = .derived ∧ w.signature = entry.signature contentHashOf) =
      (log.filter (·.1 = entry)).map (Fired.witness contentHashOf) := by
  have anchorsNot : (((admittedAnchors anchors).filter (·.atom = entry.atom)).map
      Anchor.witness).filter (fun w =>
        w.kind = .derived ∧ w.signature = entry.signature contentHashOf) = [] := by
    rw [List.filter_eq_nil_iff]
    intro w hw
    obtain ⟨anchor, _, rfl⟩ := List.mem_map.mp hw
    simp [Anchor.witness]
  rw [running.witnessesFor, List.filter_append, anchorsNot, List.nil_append, List.filter_map,
    List.filter_filter]
  congr 1
  apply List.filter_congr
  intro fired inside
  have logged : fired.1 ∈ graph.justifications :=
    ((running.logged fired.1).mp (List.mem_map_of_mem inside)).1
  by_cases same : fired.1 = entry
  · simp [same, Fired.witness, JustificationSet.witness]
  · have differ : fired.1.signature contentHashOf ≠ entry.signature contentHashOf := fun equal =>
      same (List.inj_on_of_nodup_map (justifications_signatures_nodup graph) logged known equal)
    simp [same, Fired.witness, JustificationSet.witness, differ]

theorem filter_fst_of_nodup (once : (log.map Prod.fst).Nodup) (inside : fired ∈ log) :
    log.filter (·.1 = fired.1) = [fired] := by
  have split := (perm_cons_filter_key once inside).filter fun f => decide (f.1 = fired.1)
  have none : (log.filter fun f => decide (f.1 ≠ fired.1)).filter
      (fun f => decide (f.1 = fired.1)) = [] := by
    rw [List.filter_eq_nil_iff]
    intro f hf
    simpa using List.of_mem_filter hf
  rw [List.filter_cons_of_pos (by simp), none] at split
  exact List.perm_singleton.mp split

end

/-- A complete closure reaches exactly the least set that holds the atoms of the admitted anchors
and is closed under the rules; a rule whose body holds there contributes one witness, whose depth is
the least height of a derivation through it, and a rule whose body does not contributes none; and
rules that only support one another reach nothing. -/
theorem groundedClosure_least (contentHashOf : Json → String) (budget : Nat)
    (graph : SupportGraph contentHashOf) (anchors : List Anchor) (state : AssumptionState)
    (complete : (groundedClosure budget graph anchors state).status = .complete) :
    LeastClosed (program graph anchors state) (groundedClosure budget graph anchors state).reached ∧
    (∀ entry ∈ graph.justifications,
      (BodyHolds (program graph anchors state) (groundedClosure budget graph anchors state).reached
          entry →
        ∃ w, ownWitnesses contentHashOf (groundedClosure budget graph anchors state) entry = [w] ∧
          IsLeast {n | Through (program graph anchors state) entry n} w.depth) ∧
      (¬ BodyHolds (program graph anchors state)
          (groundedClosure budget graph anchors state).reached entry →
        ownWitnesses contentHashOf (groundedClosure budget graph anchors state) entry = [])) ∧
    (∀ atom, ∀ w ∈ (groundedClosure budget graph anchors state).witnessesFor atom,
      w.kind = .derived → ∃ entry ∈ graph.justifications, entry.atom = atom ∧
        w ∈ ownWitnesses contentHashOf (groundedClosure budget graph anchors state) entry) ∧
    ∀ C : Atom → Prop, (∀ a, C a → ¬ (program graph anchors state).seed a) →
      (∀ entry ∈ graph.justifications, C entry.atom →
        ∃ a ∈ propositionAtoms entry.premises, C a) →
      ∀ a, C a → ¬ (groundedClosure budget graph anchors state).reached a := by
  obtain ⟨out, cut, done⟩ : ∃ out cut, close budget graph anchors state = (out, cut) := ⟨_, _, rfl⟩
  have whole : cut = false := by
    cases cut with
    | false => rfl
    | true => simp [groundedClosure, done, Support.result] at complete
  subst whole
  obtain ⟨k, pending, log, running, quiet⟩ := close_running done
  have result : groundedClosure budget graph anchors state = out.result .complete budget := by
    simp [groundedClosure, done]
  have reached : (groundedClosure budget graph anchors state).reached =
      fun a => out.heights a ≠ [] := by
    funext a
    rw [eq_iff_iff, heights_ne_nil, result]
    rfl
  have own : ∀ entry ∈ graph.justifications,
      ownWitnesses contentHashOf (groundedClosure budget graph anchors state) entry =
        (log.filter (·.1 = entry)).map (Fired.witness contentHashOf) := by
    intro entry known
    rw [result, ← running.own_filter known]
    rfl
  have least := running.leastClosed quiet
  rw [reached]
  refine ⟨least, ?_, ?_, ?_⟩
  · intro entry known
    rw [own entry known, ← running.fired_iff quiet known]
    constructor
    · intro fires
      obtain ⟨fired, inside, rfl⟩ := List.mem_map.mp fires
      rw [filter_fst_of_nodup running.once inside]
      exact ⟨_, rfl, running.depths fired inside⟩
    · intro silent
      rw [List.map_eq_nil_iff, List.filter_eq_nil_iff]
      intro fired inside same
      rw [decide_eq_true_eq] at same
      exact silent (same ▸ List.mem_map_of_mem inside)
  · intro atom w inside derived
    have listed : w ∈ out.witnessesFor atom := by
      rw [result] at inside
      exact inside
    rw [running.witnessesFor, List.mem_append] at listed
    rcases listed with anchored | fired
    · obtain ⟨anchor, _, rfl⟩ := List.mem_map.mp anchored
      cases derived
    · obtain ⟨f, hf, rfl⟩ := List.mem_map.mp fired
      rw [List.mem_filter, decide_eq_true_eq] at hf
      have known := ((running.logged f.1).mp (List.mem_map_of_mem hf.1)).1
      refine ⟨f.1, known, hf.2, ?_⟩
      rw [own f.1 known]
      apply List.mem_map_of_mem
      simp [hf.1]
  · intro C unseeded circular a inside
    apply least.not_of_cycle unseeded (fun entry enabled => circular entry enabled.1) inside

section
variable {contentHashOf : Json → String} {graph : SupportGraph contentHashOf}
  {anchors : List Anchor} {state : AssumptionState}

theorem running_of_complete {budget : Nat}
    (complete : (groundedClosure budget graph anchors state).status = .complete) :
    ∃ k out pending log, Running graph anchors state k out pending log ∧
      firedIn state out pending = [] ∧
      groundedClosure budget graph anchors state = out.result .complete budget := by
  cases done : close budget graph anchors state with
  | mk out cut =>
    cases cut with
    | true => simp [groundedClosure, done, Support.result] at complete
    | false =>
      obtain ⟨k, pending, log, running, quiet⟩ := close_running done
      exact ⟨k, out, pending, log, running, quiet, by simp [groundedClosure, done]⟩

/-- Whoever knows more loses nothing: with more rules, admitted anchors and asserted conditions each
atom is still reached, by a derivation no higher; and anchors that only repeat what is reached, and
cite no new evidence, add nothing to it. -/
theorem closure_extends {graph' : SupportGraph contentHashOf} {anchors' : List Anchor}
    {state' : AssumptionState} {budget budget' : Nat}
    (complete : (groundedClosure budget graph anchors state).status = .complete)
    (complete' : (groundedClosure budget' graph' anchors' state').status = .complete)
    (rules : graph.justifications ⊆ graph'.justifications)
    (admitted : admittedAnchors anchors ⊆ admittedAnchors anchors')
    (asserted : ∀ name, get? state name = some true → get? state' name = some true) :
    (∀ atom, ∀ w ∈ (groundedClosure budget graph anchors state).witnessesFor atom,
      ∃ w' ∈ (groundedClosure budget' graph' anchors' state').witnessesFor atom,
        w'.depth ≤ w.depth) ∧
    (graph'.justifications ⊆ graph.justifications →
      (∀ name, get? state' name = some true → get? state name = some true) →
      (∀ anchor ∈ admittedAnchors anchors',
        (groundedClosure budget graph anchors state).reached anchor.atom ∧
        ∀ ref, anchor.evidenceRef = some ref →
          ∃ cited ∈ admittedAnchors anchors, cited.evidenceRef = some ref) →
      ∀ atom, (groundedClosure budget' graph' anchors' state').reached atom →
        (groundedClosure budget graph anchors state).reached atom) := by
  obtain ⟨k, out, pending, log, running, quiet, result⟩ := running_of_complete complete
  obtain ⟨k', out', pending', log', running', quiet', result'⟩ := running_of_complete complete'
  rw [result, result']
  have least := running.leastClosed quiet
  have least' := running'.leastClosed quiet'
  constructor
  · intro atom w inside
    obtain ⟨derives, _⟩ := running.heights.sound atom _ (List.mem_map_of_mem inside)
    have more : Derives (program graph' anchors' state') atom w.depth := by
      refine derives.mono (P := program graph anchors state)
        (Q := program graph' anchors' state') rfl rfl ?_ ?_
      · exact fun _ ⟨anchor, here, same⟩ => ⟨anchor, admitted here, same⟩
      · intro entry ⟨known, cites, holds⟩
        refine ⟨rules known, ?_, fun condition there => asserted _ (holds condition there)⟩
        intro ref cited
        obtain ⟨anchor, here, same⟩ := cites ref cited
        exact ⟨anchor, admitted here, same⟩
    cases found : minDepth (out'.witnessesFor atom) with
    | none =>
      have empty := (minDepth_eq_none _).mp found
      exact absurd empty ((heights_ne_nil _ _).mp ((least'.iff_derivable atom).mpr ⟨_, more⟩))
    | some depth =>
      obtain ⟨⟨w', there, rfl⟩, smallest⟩ := minDepth_spec found
      have lowest := running'.heights.least (List.mem_map_of_mem there)
        (List.forall_mem_map.mpr smallest)
      exact ⟨w', there, lowest.2 more⟩
  · intro fewer fewer' repeated atom reached
    apply (heights_ne_nil out atom).mp
    refine least'.least (fun a => out.heights a ≠ []) ⟨?_, ?_⟩ atom ((heights_ne_nil out' atom).mpr reached)
    · rintro _ ⟨anchor, here, rfl⟩
      exact (heights_ne_nil _ _).mpr (repeated anchor here).1
    · rintro entry ⟨⟨known, cites, holds⟩, body⟩
      refine least.closed.rules entry ⟨⟨fewer known, ?_, ?_⟩, body⟩
      · intro ref cited
        obtain ⟨anchor, here, same⟩ := cites ref cited
        exact (repeated anchor here).2 ref same
      · exact fun condition there => fewer' _ (holds condition there)

end

/-! A small graph, and two anchors with one id. -/

def contentHash (value : Json) : String := Sha256.hexdigest (canonicalJson value)

def observed (id key sourceGroup : String) : Anchor where
  atom := ⟨key, .positive⟩
  anchorId := id
  sourceGroup := sourceGroup
  origin := .observation
  evidenceRef := none
  historical := false

def follows (conclusion premise : String) : JustificationSet where
  conclusion := conclusion
  polarity := .positive
  premises := [.proposition ⟨premise, .positive⟩]
  conditions := []
  ruleVersion := "v1"
  receiptRef := none
  sourceGroup := none
  grounded := by simp
  premisesNodup := List.nodup_singleton _
  conditionsNodup := List.nodup_nil

/-- An anchored atom is not reached when an earlier anchor has its id. -/
theorem repeated_id_not_reached :
    (groundedClosure 10000 (SupportGraph.ofGroups contentHash [])
      [observed "obs-1" "p" "wire", observed "obs-1" "q" "desk"] []).status = .complete ∧
    ∃ anchor ∈ [observed "obs-1" "p" "wire", observed "obs-1" "q" "desk"],
      ¬ (groundedClosure 10000 (SupportGraph.ofGroups contentHash [])
        [observed "obs-1" "p" "wire", observed "obs-1" "q" "desk"] []).reached anchor.atom := by
  refine ⟨by decide +kernel, observed "obs-1" "q" "desk", by simp, ?_⟩
  decide +kernel

/-- The SHA-256 digests of three rules, by their conclusions. -/
def ruleDigest : Json → String
  | .obj ((_, .str "q") :: _) => "ecad32707f0900e5819772df0f6e8c1e1aa6547407a47cac52a49d0edf0bfe51"
  | .obj ((_, .str "r") :: _) => "a676fd25c6582a4ae1dee1cedfa8e3a595dcdd883d8ab91411c200141e22ed0b"
  | .obj ((_, .str "s") :: _) => "32ff2029829db4988113a63328c5fb067ee11466956ba683c25f45938f5dc2e2"
  | _ => ""

/-- From `p` the graph derives `q`; `r` and `s` only support one another. -/
def loopRules : SupportGraph ruleDigest :=
  SupportGraph.ofGroups ruleDigest [follows "q" "p", follows "r" "s", follows "s" "r"]

theorem groundedClosure_least_loop :
    let closed := groundedClosure 10000 loopRules [observed "obs-1" "p" "wire"] []
    LeastClosed (program loopRules [observed "obs-1" "p" "wire"] []) closed.reached ∧
      closed.reached ⟨"q", .positive⟩ ∧ ¬ closed.reached ⟨"r", .positive⟩ := by
  intro closed
  obtain ⟨least, _, _, loops⟩ := groundedClosure_least ruleDigest 10000 loopRules
    [observed "obs-1" "p" "wire"] [] (by decide +kernel)
  refine ⟨least, by decide +kernel, loops (· ∈ [⟨"r", .positive⟩, ⟨"s", .positive⟩]) ?_ ?_ _
    (by decide)⟩
  · rintro atom inside ⟨anchor, admitted, rfl⟩
    revert anchor
    decide
  · decide +kernel

/-- The derived conclusion given as an anchor too. -/
theorem closure_extends_repeated :
    let rules := SupportGraph.ofGroups contentHash [follows "q" "p"]
    let one := groundedClosure 10000 rules [observed "obs-1" "p" "wire"] []
    let both := groundedClosure 10000 rules
      [observed "obs-1" "p" "wire", observed "obs-2" "q" "desk"] []
    one.status = both.status ∧ ∀ atom, both.reached atom → one.reached atom :=
  ⟨by decide +kernel, (closure_extends (by decide +kernel) (by decide +kernel)
    (List.Subset.refl _) (by decide +kernel) (fun _ => id)).2 (List.Subset.refl _) (fun _ => id)
    (by decide +kernel)⟩

end Knowledge
