import HarnessSdk.Knowledge.Derivations

/-! Independent support paths are derivations that share no source. -/
namespace Knowledge
open PyDict PyText Checks Workflow PositiveRules

section
variable {contentHashOf : Json → String} {graph : SupportGraph contentHashOf}
  {anchors : List Anchor} {state : AssumptionState} {out : Support} {log : List Fired}

def Support.pathOf (out : Support) (w : SupportWitness) : List String :=
  sourcesOf out.refGroups (Id.run (sourceGroups (pure ()) out.witnesses out.refGroups)) [] w

theorem mem_pathOf {w : SupportWitness} {s : String} :
    s ∈ out.pathOf w ↔ w.sourceGroup = some s ∨
      (∃ ref, .evidence ref ∈ w.premises ∧ citedBy out.refGroups ref s) ∨
      ∃ premise ∈ propositionAtoms w.premises,
        Sourced (listed out.witnesses) (citedBy out.refGroups) premise s := by
  rw [Support.pathOf, mem_sourcesOf, Brings]
  simp only [List.not_mem_nil, false_or]
  apply or_congr Iff.rfl
  constructor
  · rintro ⟨premise, inside, brought⟩
    cases premise with
    | evidence ref => exact Or.inl ⟨ref, inside, brought⟩
    | proposition atom =>
      exact Or.inr ⟨atom, (mem_propositionAtoms _ _).mpr inside, (mem_sourceGroups _ _ _ _).mp brought⟩
  · rintro (⟨ref, inside, cited⟩ | ⟨atom, inside, sourced⟩)
    · exact ⟨.evidence ref, inside, cited⟩
    · exact ⟨.proposition atom, (mem_propositionAtoms _ _).mp inside,
        (mem_sourceGroups _ _ _ _).mpr sourced⟩

section
variable (settled : Settled graph anchors state out log)
include settled

theorem Settled.body_reached {entry : JustificationSet}
    (body : ∀ atom ∈ propositionAtoms entry.premises, Derivation graph anchors state atom)
    (atom : Atom) (inside : atom ∈ propositionAtoms entry.premises) : out.witnessesFor atom ≠ [] :=
  settled.derivable.mpr ⟨body atom inside⟩

variable {atom : Atom} {w : SupportWitness}

theorem Settled.restsOn_sourced (d : Derivation graph anchors state atom) {s : String}
    (rests : s ∈ d.restsOn) : Sourced (listed out.witnesses) (citedBy out.refGroups) atom s := by
  induction d with
  | anchored anchor admitted =>
    cases rests
    exact .own (settled.anchored admitted) rfl
  | derived entry enabled body ih =>
    obtain ⟨depth, here⟩ := settled.derived enabled.1 ⟨enabled, settled.body_reached body⟩
    rcases rests with ⟨ref, cites, brought⟩ | ⟨premise, inside, below⟩
    · exact .cited here cites ((settled.cited ref s).mpr brought)
    · exact .inherited here ((mem_propositionAtoms _ _).mp inside) (ih premise inside below)

theorem Settled.derivation_of_witness (inside : w ∈ out.witnessesFor atom) :
    ∃ d : Derivation graph anchors state atom, ∀ s ∈ d.restsOn, s ∈ out.pathOf w := by
  rcases settled.cases inside with ⟨anchor, admitted, rfl, rfl⟩ | ⟨entry, known, rfl, holds, depth, rfl⟩
  · refine ⟨.anchored anchor admitted, fun s rests => ?_⟩
    cases rests
    exact mem_pathOf.mpr (Or.inl rfl)
  · have below : ∀ premise ∈ propositionAtoms entry.premises,
        Nonempty (Derivation graph anchors state premise) := fun premise premised =>
      settled.derivable.mp (holds.2 premise premised)
    refine ⟨.derived entry holds.1 fun premise premised => (below premise premised).some, ?_⟩
    rintro s (⟨ref, cites, brought⟩ | ⟨premise, premised, rests⟩)
    · exact mem_pathOf.mpr (Or.inr (Or.inl ⟨ref, cites, (settled.cited ref s).mpr brought⟩))
    · exact mem_pathOf.mpr (Or.inr (Or.inr ⟨premise, premised, settled.restsOn_sourced _ rests⟩))

theorem Settled.pathOf_ne_nil (inside : w ∈ out.witnessesFor atom) : out.pathOf w ≠ [] := by
  obtain ⟨d, within⟩ := settled.derivation_of_witness inside
  obtain ⟨s, rests⟩ := d.restsOn_nonempty
  exact List.ne_nil_of_mem (within s rests)

theorem Settled.derivations_apart {chosen : List SupportWitness}
    (inside : ∀ w ∈ chosen, w ∈ out.witnessesFor atom)
    (apart : (chosen.map out.pathOf).Pairwise Apart) :
    ∃ derivations : List (Derivation graph anchors state atom),
      derivations.length = chosen.length ∧
      derivations.Pairwise fun d d' => Disjoint d.restsOn d'.restsOn := by
  have each : ∀ w : { w // w ∈ out.witnessesFor atom }, ∃ d : Derivation graph anchors state atom,
      ∀ s ∈ d.restsOn, s ∈ out.pathOf w := fun w => settled.derivation_of_witness w.2
  choose derivation within using each
  refine ⟨chosen.attach.map fun w => derivation ⟨w.1, inside w.1 w.2⟩, by simp, ?_⟩
  rw [List.pairwise_map] at apart ⊢
  have attached : chosen.attach.Pairwise fun w w' => Apart (out.pathOf w.1) (out.pathOf w'.1) := by
    rw [← List.attach_map_subtype_val chosen, List.pairwise_map] at apart
    exact apart
  apply attached.imp
  intro w w' free
  rw [Set.disjoint_left]
  intro s rests also
  exact free s (within _ s rests) (within _ s also)

end
end

theorem supportPaths_result (out : Support) (budget : Nat) (key : String) (polarity : Polarity) :
    (out.result .complete budget).supportPaths key polarity =
      (out.witnessesFor ⟨key, polarity⟩).map out.pathOf :=
  pathGroups_eq _ _ _ _

theorem maxDisjointPaths_sound {paths : List (List String)} {wanted : Nat}
    (found : wanted ≤ maxDisjointPaths paths wanted) :
    ∃ more : List (List String), more.Subperm paths ∧ more.Pairwise Apart ∧
      more.length = wanted := by
  unfold maxDisjointPaths at found
  by_cases none : wanted = 0
  · exact ⟨[], List.nil_subperm, List.Pairwise.nil, none.symm⟩
  rw [if_neg none, walk_iff] at found
  have not : ¬ wanted ≤ 0 := by omega
  simp only [not, false_or, Nat.zero_add] at found
  obtain ⟨more, inside, apart, _, enough⟩ := found
  refine ⟨more.take wanted, ?_, apart.sublist (List.take_sublist _ _), ?_⟩
  · have sorted := List.perm_insertionSort (fun a b : List String => a.length ≤ b.length)
      (paths.take maxIndependencePaths)
    exact (((List.take_sublist _ _).trans inside).subperm.trans sorted.subperm).trans
      (List.take_sublist _ _).subperm
  · rw [List.length_take]
    omega

/-- Of a complete closure, with or without limits: an atom that satisfies independence has so many
derivations from the anchors that no two rest on a common source group; and while it has at most as
many paths as the search looks at, it satisfies independence exactly when so many of its paths share
no source. -/
theorem satisfiesIndependence_sound (contentHashOf : Json → String) (limits : Option Limited)
    (budget : Nat) (graph : SupportGraph contentHashOf) (anchors : List Anchor)
    (state : AssumptionState) :
    ∃ result, closureUnder limits budget graph anchors state = .ok result ∧
      (result.status = .complete → ∀ key required polarity,
        (result.satisfiesIndependence key required polarity = true →
          ∃ derivations : List (Derivation graph anchors state ⟨key, polarity⟩),
            derivations.length = required ∧ (∀ d ∈ derivations, d.restsOn.Nonempty) ∧
            derivations.Pairwise fun d d' => Disjoint d.restsOn d'.restsOn) ∧
        (((result.supportPaths key polarity).filter (!·.isEmpty)).length ≤ maxIndependencePaths →
          (result.satisfiesIndependence key required polarity = true ↔
            Packs required ((result.supportPaths key polarity).map List.toFinset)))) := by
  obtain ⟨result, ran, agrees⟩ := closureUnder_agrees limits budget graph anchors state
  refine ⟨result, ran, fun complete key required polarity => ?_⟩
  have plain := agrees complete
  rw [plain] at complete
  obtain ⟨out, log, same, _, settled⟩ := settled_of_complete complete
  have paths : result.supportPaths key polarity =
      (out.witnessesFor ⟨key, polarity⟩).map out.pathOf := by
    rw [plain, same, supportPaths_result]
  have filled : (result.supportPaths key polarity).filter (!·.isEmpty) =
      result.supportPaths key polarity := by
    rw [paths, List.filter_eq_self]
    intro path inside
    obtain ⟨w, witnessed, rfl⟩ := List.mem_map.mp inside
    simp [settled.pathOf_ne_nil witnessed]
  rw [ClosureResult.satisfiesIndependence, decide_eq_true_eq, filled]
  refine ⟨fun found => ?_, fun few => maxDisjointPaths_iff few required⟩
  obtain ⟨more, ⟨chosen, perm, inside⟩, apart, exactly⟩ := maxDisjointPaths_sound found
  rw [paths] at inside
  obtain ⟨witnesses, sub, rfl⟩ := List.sublist_map_iff.mp inside
  have separate := (perm.pairwise_iff fun {_ _} free s here other => free s other here).mpr apart
  obtain ⟨derivations, long, disjoint⟩ :=
    settled.derivations_apart (fun w hw => sub.subset hw) separate
  refine ⟨derivations, ?_, fun d _ => d.restsOn_nonempty, disjoint⟩
  rw [long, ← exactly, ← perm.length_eq, List.length_map]

end Knowledge
