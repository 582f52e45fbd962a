import HarnessSdk.Knowledge.Independence
import HarnessSdk.Knowledge.Sources
import HarnessSdk.Knowledge.Worklist

/-! Which answers of a closure depend on the order of its anchors and justifications. -/
namespace Knowledge
open PyDict PyText Checks Workflow Sweeps
open Contracts (Provenance EvidenceRefKind memberText)

/-! Two supports that differ in order only. -/

structure Alike (left right : Support) : Prop where
  nodes : left.nodes = right.nodes
  refs : ∀ ref, ref ∈ left.evidenceRefs ↔ ref ∈ right.evidenceRefs
  cites : ∀ ref s, citedBy left.refGroups ref s ↔ citedBy right.refGroups ref s
  witnesses : ∀ atom, (left.witnessesFor atom).Perm (right.witnessesFor atom)

theorem minDepth_perm {supports supports' : List SupportWitness} (same : supports.Perm supports') :
    minDepth supports = minDepth supports' := by
  rw [minDepth_eq, minDepth_eq]
  ext least
  simp only [List.min?_eq_some_iff, (same.map _).mem_iff]

namespace Alike
variable {left right : Support} (alike : Alike left right)
include alike

theorem empty_iff (atom : Atom) : left.witnessesFor atom = [] ↔ right.witnessesFor atom = [] := by
  have same := alike.witnesses atom
  constructor
  · intro none
    rw [none] at same
    exact List.nil_perm.mp same
  · intro none
    rw [none] at same
    exact List.perm_nil.mp same

theorem citedBy_eq : citedBy left.refGroups = citedBy right.refGroups := by
  funext ref s
  rw [eq_iff_iff, alike.cites]

theorem satisfies_eq (state : AssumptionState) (entry : JustificationSet) :
    left.satisfies state entry = right.satisfies state entry := by
  have depths : leastDepth left = leastDepth right := by
    funext atom
    rw [leastDepth, leastDepth, minDepth_perm (alike.witnesses atom)]
  apply Option.ext
  rintro ⟨depth, used⟩
  rw [satisfies_eq_some, satisfies_eq_some, depths]
  simp only [alike.refs, ne_eq, alike.empty_iff]

theorem record (witness : SupportWitness) : Alike (left.record witness) (right.record witness) where
  nodes := by simp only [Support.record, alike.nodes]
  refs := alike.refs
  cites := alike.cites
  witnesses := by
    intro atom
    rw [witnessesFor_record, witnessesFor_record]
    exact (alike.witnesses atom).append_right _

theorem fireAll (contentHashOf : Json → String) (budget : Nat) (fired : List Fired) :
    (fireAll contentHashOf budget fired left).2 = (fireAll contentHashOf budget fired right).2 ∧
    Alike (fireAll contentHashOf budget fired left).1 (fireAll contentHashOf budget fired right).1 := by
  induction fired generalizing left right with
  | nil => exact ⟨rfl, alike⟩
  | cons first rest ih =>
    obtain ⟨entry, depth, used⟩ := first
    rw [Knowledge.fireAll, Knowledge.fireAll, alike.nodes]
    by_cases full : budget ≤ right.nodes
    · rw [if_pos full, if_pos full]
      exact ⟨rfl, alike⟩
    · rw [if_neg full, if_neg full]
      exact ih (alike.record _)

theorem rounds (contentHashOf : Json → String) (budget : Nat) (state : AssumptionState)
    (fuel : Nat) (pending : List JustificationSet) :
    (rounds contentHashOf budget state fuel pending left).2 =
      (rounds contentHashOf budget state fuel pending right).2 ∧
    Alike (rounds contentHashOf budget state fuel pending left).1
      (rounds contentHashOf budget state fuel pending right).1 := by
  induction fuel generalizing left right pending with
  | zero => exact ⟨rfl, alike⟩
  | succ fuel ih =>
    have same : left.satisfies state = right.satisfies state := by
      funext entry
      exact alike.satisfies_eq state entry
    have fired : firedIn state left pending = firedIn state right pending := by
      unfold firedIn
      rw [same]
    simp only [Knowledge.rounds, fired, same]
    by_cases quiet : (firedIn state right pending).isEmpty = true
    · rw [if_pos quiet, if_pos quiet]
      exact ⟨rfl, alike⟩
    · rw [if_neg quiet, if_neg quiet]
      obtain ⟨flag, after⟩ := alike.fireAll contentHashOf budget (firedIn state right pending)
      generalize Knowledge.fireAll contentHashOf budget (firedIn state right pending) left = one at *
      generalize Knowledge.fireAll contentHashOf budget (firedIn state right pending) right = two at *
      obtain ⟨one, cut⟩ := one
      obtain ⟨two, cut'⟩ := two
      subst flag
      cases cut with
      | true => exact ⟨rfl, after⟩
      | false => exact ih after _

end Alike

/-! The seeds. -/

variable {anchors : List Anchor} {support : Support}

theorem seed_cut_iff {budget : Nat} (distinct : (anchors.map Anchor.signature).Nodup)
    (fresh : ∀ anchor ∈ anchors, anchor.signature ∉ support.admitted)
    (room : support.nodes ≤ budget) :
    (seed budget anchors support).2 = true ↔ budget < support.nodes + anchors.length := by
  induction anchors generalizing support with
  | nil => simpa [seed] using room
  | cons anchor rest ih =>
    rw [List.map_cons, List.nodup_cons] at distinct
    rw [List.forall_mem_cons] at fresh
    rw [seed, if_neg fresh.1, List.length_cons]
    by_cases full : budget ≤ support.nodes
    · rw [if_pos full]
      exact iff_of_true rfl (by omega)
    · rw [if_neg full, ih distinct.2]
      · simp only [Support.admitAnchor, nodes_cite, Support.record]
        omega
      · intro other later
        have differ : other.signature ≠ anchor.signature := fun same =>
          distinct.1 (same ▸ List.mem_map_of_mem later)
        simp [Support.admitAnchor, Support.record, Anchor.witness, fresh.2 other later, differ]
      · simp only [Support.admitAnchor, nodes_cite, Support.record]
        omega

theorem citedBy_cite (support : Support) (anchor : Anchor) (ref : EvidenceRef) (s : String) :
    citedBy (support.cite anchor).refGroups ref s ↔ citedBy support.refGroups ref s ∨
      anchor.evidenceRef = some ref ∧ anchor.sourceGroup = s := by
  unfold Support.cite citedBy
  cases anchor.evidenceRef with
  | none => simp
  | some cited =>
    simp only [get?_set, Option.some.injEq]
    by_cases same : cited = ref
    · subst same
      simp [eq_comm]
    · simp [same]

theorem citedBy_admitAnchors (anchors : List Anchor) (support : Support) (ref : EvidenceRef)
    (s : String) :
    citedBy (anchors.foldl Support.admitAnchor support).refGroups ref s ↔
      citedBy support.refGroups ref s ∨
        ∃ anchor ∈ anchors, anchor.evidenceRef = some ref ∧ anchor.sourceGroup = s := by
  induction anchors generalizing support with
  | nil => simp
  | cons anchor rest ih =>
    rw [List.foldl_cons, ih, Support.admitAnchor, citedBy_cite, List.exists_mem_cons_iff, or_assoc]
    rfl

theorem nodes_admitAnchors (anchors : List Anchor) (support : Support) :
    (anchors.foldl Support.admitAnchor support).nodes = support.nodes + anchors.length := by
  induction anchors generalizing support with
  | nil => rfl
  | cons anchor rest ih =>
    rw [List.foldl_cons, ih, List.length_cons]
    simp only [Support.admitAnchor, nodes_cite, Support.record]
    omega

theorem alike_seeds {anchors' : List Anchor} (same : anchors.Perm anchors') :
    Alike (anchors.foldl Support.admitAnchor Support.none)
      (anchors'.foldl Support.admitAnchor Support.none) where
  nodes := by rw [nodes_admitAnchors, nodes_admitAnchors, same.length_eq]
  refs := by
    intro ref
    rw [mem_evidenceRefs_admitAnchors, mem_evidenceRefs_admitAnchors]
    simp only [same.mem_iff]
  cites := by
    intro ref s
    rw [citedBy_admitAnchors, citedBy_admitAnchors]
    simp only [same.mem_iff]
  witnesses := by
    intro atom
    rw [witnessesFor_admitAnchors, witnessesFor_admitAnchors]
    exact ((same.filter _).map _).append_left _

theorem admittedAnchors_of_distinct (distinct : (anchors.map Anchor.signature).Nodup) :
    admittedAnchors anchors = anchors :=
  firsts_of_nodup distinct (by simp)

/-! The groups. -/

theorem Polarity.text_inj {p q : Polarity} (same : p.text = q.text) : p = q := by
  cases p <;> cases q <;> first | rfl | exact absurd same (by decide)

theorem provenance_inj {p q : Provenance}
    (same : memberText Contracts.Provenance.members p =
      memberText Contracts.Provenance.members q) : p = q := by
  cases p <;> cases q <;> first | rfl | exact absurd same (by decide)

theorem evidenceRefKind_inj {p q : EvidenceRefKind}
    (same : memberText Contracts.EvidenceRefKind.members p =
      memberText Contracts.EvidenceRefKind.members q) : p = q := by
  cases p <;> cases q <;> first | rfl | exact absurd same (by decide)

theorem typedRefKind_text_inj {p q : Network.TypedRefKind} (same : p.text = q.text) : p = q := by
  cases p <;> cases q <;> first | rfl | exact absurd same (by decide)

theorem refJson_inj {kind kind' id id' hash hash' : String} {revision revision' : Nat}
    {by_ by_' : Option Provenance}
    (same : refJson kind id revision hash by_ = refJson kind' id' revision' hash' by_') :
    kind = kind' ∧ id = id' ∧ revision = revision' ∧ hash = hash' ∧ by_ = by_' := by
  simp only [refJson, List.cons_append, List.nil_append, Json.obj.injEq, List.cons.injEq,
    Prod.mk.injEq, Json.str.injEq, Json.int.injEq, Int.ofNat_inj, true_and] at same
  obtain ⟨rfl, rfl, rfl, rfl, origin⟩ := same
  refine ⟨rfl, rfl, rfl, rfl, ?_⟩
  cases by_ with
  | none =>
    cases by_' with
    | none => rfl
    | some _ => simp at origin
  | some p =>
    cases by_' with
    | none => simp at origin
    | some q =>
      simp only [Option.map_some, Option.toList_some, List.cons.injEq, Prod.mk.injEq,
        Json.str.injEq, true_and, and_true] at origin
      rw [provenance_inj origin]

theorem Premise.toJson_inj {p q : Premise} (same : p.toJson = q.toJson) : p = q := by
  cases p with
  | proposition a =>
    cases q with
    | proposition b =>
      obtain ⟨key, polarity⟩ := a
      obtain ⟨key', polarity'⟩ := b
      simp only [Premise.toJson, Atom.toJson, Json.obj.injEq, List.cons.injEq, Prod.mk.injEq,
        Json.str.injEq, true_and, and_true] at same
      obtain ⟨rfl, text⟩ := same
      rw [Polarity.text_inj text]
    | evidence _ => simp [Premise.toJson] at same
  | evidence r =>
    cases q with
    | proposition _ => simp [Premise.toJson] at same
    | evidence t =>
      obtain ⟨kind, id, revision, hash, by_⟩ := r
      obtain ⟨kind', id', revision', hash', by_'⟩ := t
      simp only [Premise.toJson, Json.obj.injEq, List.cons.injEq, Prod.mk.injEq, true_and,
        and_true] at same
      obtain ⟨text, rfl, rfl, rfl, rfl⟩ := refJson_inj same
      rw [evidenceRefKind_inj text]

theorem optionalText_inj {s t : Option String} (same : optionalText s = optionalText t) : s = t := by
  cases s <;> cases t <;> simp_all [optionalText]

theorem JustificationSet.toJson_inj {left right : JustificationSet}
    (same : left.toJson = right.toJson) : left = right := by
  obtain ⟨conclusion, polarity, premises, conditions, version, receipt, source, _, _, _⟩ := left
  obtain ⟨conclusion', polarity', premises', conditions', version', receipt', source', _, _, _⟩ :=
    right
  simp only [JustificationSet.toJson, Json.obj.injEq, List.cons.injEq, Prod.mk.injEq,
    Json.str.injEq, Json.arr.injEq, true_and, and_true] at same
  obtain ⟨rfl, text, facts, named, rfl, receipts, sources⟩ := same
  obtain rfl := Polarity.text_inj text
  obtain rfl := List.map_injective_iff.mpr (fun _ _ => Premise.toJson_inj) facts
  obtain rfl := optionalText_inj sources
  have rules : conditions = conditions' := by
    apply List.map_injective_iff.mpr _ named
    rintro ⟨name, defeasible⟩ ⟨name', defeasible'⟩ equal
    simp only [Json.obj.injEq, List.cons.injEq, Prod.mk.injEq, Json.str.injEq, Json.bool.injEq,
      true_and, and_true] at equal
    obtain ⟨rfl, rfl⟩ := equal
    rfl
  have refs : receipt = receipt' := by
    cases receipt with
    | none =>
      cases receipt' with
      | none => rfl
      | some _ => simp [refJson] at receipts
    | some r =>
      cases receipt' with
      | none => simp [refJson] at receipts
      | some t =>
        obtain ⟨⟨kind, id, revision, hash⟩, by_⟩ := r
        obtain ⟨⟨kind', id', revision', hash'⟩, by_'⟩ := t
        obtain ⟨text, rfl, rfl, rfl, rfl⟩ := refJson_inj receipts
        have kinds : kind = kind' := typedRefKind_text_inj text
        rw [kinds]
  subst rules refs
  rfl

def HashesApart (contentHashOf : Json → String) (entries : List JustificationSet) : Prop :=
  ∀ a ∈ entries, ∀ b ∈ entries, contentHashOf a.toJson = contentHashOf b.toJson →
    a.toJson = b.toJson

section
variable {contentHashOf : Json → String}

theorem ofGroups_perm {entries entries' : List JustificationSet}
    (apart : HashesApart contentHashOf entries) (same : entries.Perm entries') :
    (SupportGraph.ofGroups contentHashOf entries).groups.Perm
      (SupportGraph.ofGroups contentHashOf entries').groups := by
  have kept : ∀ items : List JustificationSet, HashesApart contentHashOf items → ∀ entry,
      entry ∈ (SupportGraph.ofGroups contentHashOf items).groups ↔ entry ∈ items := by
    intro items apart entry
    constructor
    · exact fun inside => (firsts_sublist _ _ _).subset inside
    · intro inside
      obtain ⟨other, found, equal⟩ := exists_firsts (JustificationSet.signature contentHashOf) []
        inside (by simp)
      have listed := (firsts_sublist _ _ _).subset found
      rw [← JustificationSet.toJson_inj (apart other listed entry inside equal)]
      exact found
  have apart' : HashesApart contentHashOf entries' := fun a ha b hb =>
    apart a (same.mem_iff.mpr ha) b (same.mem_iff.mpr hb)
  apply (List.perm_ext_iff_of_nodup (List.Nodup.of_map _ (SupportGraph.distinct _))
    (List.Nodup.of_map _ (SupportGraph.distinct _))).mpr
  intro entry
  rw [kept entries apart, kept entries' apart', same.mem_iff]

theorem justifications_eq {graph graph' : SupportGraph contentHashOf}
    (same : graph.groups.Perm graph'.groups) : graph.justifications = graph'.justifications := by
  apply sortedByKeys_of_perm same
  intro a ha b hb equal
  simp only [List.cons.injEq, and_true] at equal
  exact List.inj_on_of_nodup_map graph.distinct ha hb equal.2.2

theorem signatures_nodup {anchors : List Anchor} (distinct : (anchors.map Anchor.anchorId).Nodup) :
    (anchors.map Anchor.signature).Nodup := by
  have same : anchors.map Anchor.signature =
      (anchors.map Anchor.anchorId).map fun id => "anchor:" ++ id := by
    rw [List.map_map]
    rfl
  rw [same]
  apply distinct.map
  intro id id' equal
  exact String.append_right_inj _ |>.mp equal

theorem close_alike (budget : Nat) (state : AssumptionState)
    {graph graph' : SupportGraph contentHashOf} {anchors anchors' : List Anchor}
    (rules : graph.justifications = graph'.justifications)
    (distinct : (anchors.map Anchor.anchorId).Nodup) (same : anchors.Perm anchors') :
    (close budget graph anchors state).2 = (close budget graph' anchors' state).2 ∧
    ((close budget graph anchors state).2 = false →
      Alike (close budget graph anchors state).1 (close budget graph' anchors' state).1) := by
  have left := signatures_nodup distinct
  have right : (anchors'.map Anchor.signature).Nodup :=
    (same.map Anchor.signature).nodup_iff.mp left
  have cuts : (seed budget anchors Support.none).2 = (seed budget anchors' Support.none).2 := by
    rw [Bool.eq_iff_iff, seed_cut_iff left (by simp [Support.none]) (Nat.zero_le _),
      seed_cut_iff right (by simp [Support.none]) (Nat.zero_le _), same.length_eq]
  unfold close
  rw [rules]
  cases seeds : seed budget anchors Support.none with
  | mk support cut =>
    cases seeds' : seed budget anchors' Support.none with
    | mk support' cut' =>
      rw [seeds, seeds'] at cuts
      subst cuts
      cases cut with
      | true => exact ⟨rfl, by simp⟩
      | false =>
        have alike := alike_seeds same
        rw [seeded_of_seed seeds, seeded_of_seed seeds', seeded, seeded,
          admittedAnchors_of_distinct left, admittedAnchors_of_distinct right]
        obtain ⟨flags, after⟩ := alike.rounds contentHashOf budget state
          graph'.justifications.length graph'.justifications
        exact ⟨flags, fun _ => after⟩

end

/-! The reports. -/

/-- The dictionary lists each atom once, and only atoms with a witness. -/
structure Tidy (support : Support) : Prop where
  distinct : (keys support.witnesses).Nodup
  filled : Filled support

theorem tidy_closed {contentHashOf : Json → String} {graph : SupportGraph contentHashOf}
    {state : AssumptionState} {budget : Nat} {out : Support}
    (done : close budget graph anchors state = (out, false)) : Tidy out := by
  obtain ⟨k, pending, log, running, _⟩ := close_running done
  have recorded : ∀ (log : List Fired) (support : Support), (keys support.witnesses).Nodup →
      (keys (log.foldl (recordFired contentHashOf) support).witnesses).Nodup := by
    intro log
    induction log with
    | nil => exact fun _ nodup => nodup
    | cons fired rest ih =>
      intro support nodup
      exact ih _ (keys_set_nodup _ _ nodup)
  have admitted : ∀ (anchors : List Anchor) (support : Support), (keys support.witnesses).Nodup →
      (keys (anchors.foldl Support.admitAnchor support).witnesses).Nodup := by
    intro anchors
    induction anchors with
    | nil => exact fun _ nodup => nodup
    | cons anchor rest ih =>
      intro support nodup
      apply ih
      have cited : ((support.record anchor.witness).cite anchor).witnesses =
          (support.record anchor.witness).witnesses := by
        unfold Support.cite
        split <;> rfl
      rw [Support.admitAnchor, cited]
      exact keys_set_nodup _ _ nodup
  rw [running.replay]
  exact ⟨recorded _ _ (admitted _ _ List.nodup_nil), (filled_seeded anchors).recordFired log⟩

theorem Tidy.mem_keys (tidy : Tidy support) (atom : Atom) :
    atom ∈ keys support.witnesses ↔ support.witnessesFor atom ≠ [] := by
  rw [ne_eq, ← tidy.filled.isNone_iff, Option.isNone_iff_eq_none, get?_eq_none_iff, not_not]

theorem Tidy.listed_iff (tidy : Tidy support) (atom : Atom) (w : SupportWitness) :
    listed support.witnesses atom w ↔ w ∈ support.witnessesFor atom := by
  unfold listed Support.witnessesFor
  constructor
  · rintro ⟨supports, inside, hw⟩
    rw [get?_eq_some_of_mem tidy.distinct inside]
    exact hw
  · intro hw
    cases found : get? support.witnesses atom with
    | none => simp [found] at hw
    | some supports =>
      rw [found] at hw
      exact ⟨supports, mem_of_get?_eq_some found, hw⟩

section
variable {left right : Support} (alike : Alike left right) (tidy : Tidy left) (tidy' : Tidy right)
include alike tidy tidy'

theorem Alike.mem_keys (atom : Atom) :
    atom ∈ keys left.witnesses ↔ atom ∈ keys right.witnesses := by
  rw [tidy.mem_keys, tidy'.mem_keys, ne_eq, alike.empty_iff]

theorem Alike.listed_eq : listed left.witnesses = listed right.witnesses := by
  funext atom w
  rw [eq_iff_iff, tidy.listed_iff, tidy'.listed_iff, (alike.witnesses atom).mem_iff]

theorem Alike.sourceGroups (atom : Atom) (s : String) :
    s ∈ (get? (Id.run (sourceGroups (pure ()) left.witnesses left.refGroups)) atom).getD [] ↔
      s ∈ (get? (Id.run (sourceGroups (pure ()) right.witnesses right.refGroups)) atom).getD [] := by
  rw [mem_sourceGroups, mem_sourceGroups, alike.listed_eq tidy tidy', alike.citedBy_eq]

theorem Alike.paths (atom : Atom) :
    ((left.witnessesFor atom).map fun w => (sourcesOf left.refGroups
      (Id.run (Knowledge.sourceGroups (pure ()) left.witnesses left.refGroups)) [] w).toFinset).Perm
    ((right.witnessesFor atom).map fun w => (sourcesOf right.refGroups
      (Id.run (Knowledge.sourceGroups (pure ()) right.witnesses right.refGroups)) [] w).toFinset) := by
  have same : ∀ w, (sourcesOf left.refGroups
      (Id.run (Knowledge.sourceGroups (pure ()) left.witnesses left.refGroups)) [] w).toFinset =
      (sourcesOf right.refGroups
        (Id.run (Knowledge.sourceGroups (pure ()) right.witnesses right.refGroups)) [] w).toFinset := by
    intro w
    ext s
    rw [List.mem_toFinset, List.mem_toFinset, mem_sourcesOf, mem_sourcesOf]
    apply or_congr Iff.rfl
    apply or_congr Iff.rfl
    apply exists_congr
    intro premise
    apply and_congr Iff.rfl
    cases premise with
    | evidence ref => exact alike.cites ref s
    | proposition b => exact alike.sourceGroups tidy tidy' b s
  simp only [same]
  exact (alike.witnesses atom).map _

theorem Alike.sourceSets (atom : Atom) :
    (get? (Id.run (Knowledge.sourceGroups (pure ()) left.witnesses left.refGroups)) atom).map
        List.toFinset =
      (get? (Id.run (Knowledge.sourceGroups (pure ()) right.witnesses right.refGroups)) atom).map
        List.toFinset := by
  have members := alike.sourceGroups tidy tidy' atom
  have keyed := alike.mem_keys tidy tidy' atom
  rw [← mem_keys_sourceGroups left.witnesses left.refGroups,
    ← mem_keys_sourceGroups right.witnesses right.refGroups, ← get?_isSome_iff,
    ← get?_isSome_iff] at keyed
  generalize get? (Id.run (Knowledge.sourceGroups (pure ()) left.witnesses left.refGroups)) atom =
    one at *
  generalize get? (Id.run (Knowledge.sourceGroups (pure ()) right.witnesses right.refGroups)) atom =
    two at *
  cases one with
  | none =>
    cases two with
    | none => rfl
    | some _ => simp at keyed
  | some names =>
    cases two with
    | none => simp at keyed
    | some names' =>
      rw [Option.map_some, Option.map_some, Option.some.injEq]
      ext s
      rw [List.mem_toFinset, List.mem_toFinset]
      exact members s

theorem Alike.assumptionBacked (atom : Atom) :
    atom ∈ Id.run (assumptionBacked (pure ()) left.witnesses) ↔
      atom ∈ Id.run (assumptionBacked (pure ()) right.witnesses) := by
  rw [mem_assumptionBacked, mem_assumptionBacked, alike.mem_keys tidy tidy',
    alike.listed_eq tidy tidy']

end

theorem toFinset_nonempty (paths : List (List String)) :
    (paths.filter (!·.isEmpty)).map List.toFinset = (paths.map List.toFinset).filter (· ≠ ∅) := by
  rw [List.filter_map]
  congr 1
  apply List.filter_congr
  intro path _
  cases path <;> simp

theorem satisfiesIndependence_eq {result result' : ClosureResult} {key : String}
    {polarity : Polarity}
    (same : ((result.supportPaths key polarity).map List.toFinset).Perm
      ((result'.supportPaths key polarity).map List.toFinset))
    (few : ((result.supportPaths key polarity).filter (!·.isEmpty)).length ≤ maxIndependencePaths)
    (required : Nat) :
    result.satisfiesIndependence key required polarity =
      result'.satisfiesIndependence key required polarity := by
  have sets := same.filter (· ≠ ∅)
  rw [← toFinset_nonempty, ← toFinset_nonempty] at sets
  have few' : ((result'.supportPaths key polarity).filter (!·.isEmpty)).length ≤
      maxIndependencePaths := by
    have lengths := sets.length_eq
    rw [List.length_map, List.length_map] at lengths
    omega
  rw [ClosureResult.satisfiesIndependence, ClosureResult.satisfiesIndependence, decide_eq_decide,
    maxDisjointPaths_iff few, maxDisjointPaths_iff few']
  exact packs_perm_iff sets

/-- Permuting anchors with distinct ids and permuting the justifications changes neither the status
nor what blocks a release; of a complete closure it changes neither the truth of a key, the sources
of an atom nor the assumed atoms, and below the cap of the search not the answer on independence. -/
theorem groundedClosure_order (contentHashOf : Json → String) (budget : Nat)
    (entries entries' : List JustificationSet) (anchors anchors' : List Anchor)
    (state : AssumptionState) (apart : HashesApart contentHashOf entries)
    (distinct : (anchors.map Anchor.anchorId).Nodup) (groups : entries.Perm entries')
    (same : anchors.Perm anchors') :
    let result := groundedClosure budget (SupportGraph.ofGroups contentHashOf entries) anchors state
    let result' :=
      groundedClosure budget (SupportGraph.ofGroups contentHashOf entries') anchors' state
    result.status = result'.status ∧
    (∀ key highRisk polarity, result.releaseBlockReason key highRisk polarity =
      result'.releaseBlockReason key highRisk polarity) ∧
    (result.status = .complete →
      (∀ key, result.truthFor key = result'.truthFor key) ∧
      (∀ atom, (get? result.sourceGroups atom).map List.toFinset =
        (get? result'.sourceGroups atom).map List.toFinset) ∧
      (∀ atom, atom ∈ result.assumptionBacked ↔ atom ∈ result'.assumptionBacked) ∧
      ∀ key required polarity,
        ((result.supportPaths key polarity).filter (!·.isEmpty)).length ≤ maxIndependencePaths →
        result.satisfiesIndependence key required polarity =
          result'.satisfiesIndependence key required polarity) := by
  intro result result'
  obtain ⟨flags, alike⟩ := close_alike budget state
    (justifications_eq (ofGroups_perm apart groups)) distinct same
  cases done : close budget (SupportGraph.ofGroups contentHashOf entries) anchors state with
  | mk out cut =>
  cases done' : close budget (SupportGraph.ofGroups contentHashOf entries') anchors' state with
  | mk out' cut' =>
  rw [done, done'] at flags alike
  subst flags
  have first : result = out.result (if cut then .evaluationIncomplete else .complete) budget := by
    simp only [result, groundedClosure, done]
  have second : result' = out'.result (if cut then .evaluationIncomplete else .complete) budget := by
    simp only [result', groundedClosure, done']
  cases cut with
  | true =>
    rw [first, second]
    exact ⟨rfl, fun _ _ _ => rfl, fun complete => by cases complete⟩
  | false =>
    have tidy := tidy_closed done
    have tidy' := tidy_closed done'
    replace alike := alike rfl
    have supports : ∀ key, result.supportFor key = result'.supportFor key := by
      intro key
      rw [first, second]
      exact congrArg₂ SupportCount.mk (alike.witnesses _).length_eq (alike.witnesses _).length_eq
    have assumed : ∀ atom, atom ∈ result.assumptionBacked ↔ atom ∈ result'.assumptionBacked := by
      rw [first, second]
      exact alike.assumptionBacked tidy tidy'
    have status : result.status = result'.status := by
      rw [first, second]
      rfl
    refine ⟨status, ?_, fun _ => ⟨?_, ?_, assumed, ?_⟩⟩
    · intro key highRisk polarity
      have rests : result.restsOnAssumption key polarity = result'.restsOnAssumption key polarity :=
        decide_eq_decide.mpr (assumed _)
      unfold ClosureResult.releaseBlockReason
      rw [status, supports, rests]
    · intro key
      rw [ClosureResult.truthFor, ClosureResult.truthFor, supports]
    · rw [first, second]
      exact alike.sourceSets tidy tidy'
    · intro key required polarity few
      apply satisfiesIndependence_eq _ few
      have paths := alike.paths tidy tidy' ⟨key, polarity⟩
      rw [first, second]
      simp only [ClosureResult.supportPaths, Support.result]
      rw [pathGroups_eq, pathGroups_eq, List.map_map, List.map_map]
      exact paths

/-- Sixty-four reports of one source and one of another. -/
def crowd : List Anchor :=
  (List.range 64).map fun i => observed (String.singleton (Char.ofNat (33 + i))) "p" "wire"

def desk : Anchor := observed "desk" "p" "desk"

/-- Beyond the cap the order of the anchors decides whether two independent paths are found, and in a
closure that the budget cut short it decides what is known. -/
theorem order_decides_answers :
    (((crowd ++ [desk]).map Anchor.anchorId).Nodup ∧ (crowd ++ [desk]).Perm (desk :: crowd) ∧
      (groundedClosure 10000 (SupportGraph.ofGroups contentHash []) (crowd ++ [desk]) []).status =
        .complete ∧
      (groundedClosure 10000 (SupportGraph.ofGroups contentHash [])
        (crowd ++ [desk]) []).satisfiesIndependence "p" 2 .positive = false ∧
      (groundedClosure 10000 (SupportGraph.ofGroups contentHash [])
        (desk :: crowd) []).satisfiesIndependence "p" 2 .positive = true) ∧
    (groundedClosure 1 (SupportGraph.ofGroups contentHash [])
      [observed "obs-1" "p" "wire", observed "obs-2" "q" "wire"] []).truthFor "p" = .true ∧
    (groundedClosure 1 (SupportGraph.ofGroups contentHash [])
      [observed "obs-2" "q" "wire", observed "obs-1" "p" "wire"] []).truthFor "p" = .unknown := by
  refine ⟨⟨?_, List.perm_append_singleton _ _, ?_, ?_, ?_⟩, ?_, ?_⟩
  all_goals decide +kernel

theorem groundedClosure_order_follows :
    (groundedClosure 100 (SupportGraph.ofGroups ruleDigest [follows "q" "p", follows "s" "r"])
      [observed "obs-1" "p" "wire", observed "obs-2" "p" "desk"] []).truthFor "q" =
    (groundedClosure 100 (SupportGraph.ofGroups ruleDigest [follows "s" "r", follows "q" "p"])
      [observed "obs-2" "p" "desk", observed "obs-1" "p" "wire"] []).truthFor "q" := by
  have apart : HashesApart ruleDigest [follows "q" "p", follows "s" "r"] := by
    intro a ha b hb same
    simp only [List.mem_cons, List.not_mem_nil, or_false] at ha hb
    rcases ha with rfl | rfl <;> rcases hb with rfl | rfl
    · rfl
    · exact absurd same (by decide)
    · exact absurd same (by decide)
    · rfl
  exact ((groundedClosure_order ruleDigest 100 [follows "q" "p", follows "s" "r"]
    [follows "s" "r", follows "q" "p"]
    [observed "obs-1" "p" "wire", observed "obs-2" "p" "desk"]
    [observed "obs-2" "p" "desk", observed "obs-1" "p" "wire"] [] apart (by decide)
    (.swap _ _ _) (.swap _ _ _)).2.2 (by decide +kernel)).1 "q"

end Knowledge
